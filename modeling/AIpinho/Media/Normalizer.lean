import AIpinho.Lib.Rounding
import Mathlib.Data.List.Basic

/-!
# Media metadata

The normaliser gives each raw field its canonical key and value, takes the identity of a track
from its tags, and leaves out what a backend is not confident of.
-/

namespace AIpinho.Media

open Lib

/-- A value that a backend has read. -/
inductive MediaValue
  | text (value : String)
  | number (value : ℚ)
  | flag (value : Bool)
  | list (items : List MediaValue)
  | dict (entries : List (String × MediaValue))

def MediaValue.isEmpty : MediaValue → Bool
  | text value => value = ""
  | _ => false

structure RawMediaMetadataField where
  canonicalKey : String
  rawValue : Option MediaValue
  normalizedValue : Option MediaValue
  confidence : ℚ
  semanticType : Option String
  limitations : List String
  rawRef : Option String

structure MediaMetadataBackendError where
  code : String
  message : String

/-- `RawMediaMetadataResult`, with what the capability reads of it. -/
structure RawMediaMetadataResult where
  backendId : String
  fileRef : Option String
  rawFields : List RawMediaMetadataField
  confidenceByField : List (String × ℚ)
  limitationsByField : List (String × List String)
  errors : List MediaMetadataBackendError
  rawRef : Option String

/-- `EvidenceRecord`, with what depends on the field. -/
structure EvidenceRecord where
  backendId : String
  canonicalKey : String
  rawRef : Option String
  normalizedValue : MediaValue
  semanticType : String
  confidence : ℚ
  limitations : List String

def technicalKeys : List String :=
  ["codec", "container", "bitrate", "sample_rate", "channels", "duration", "artwork", "metadata"]

def identityKeys : List String := ["track_title", "artist", "album", "album_artist"]

def evidenceKeys : List String := technicalKeys ++ identityKeys

/-- What the normaliser asks of texts, and the policy's least confidence. -/
structure NormalizerServices where
  minConfidence : ℚ
  /-- `float(value)`, nothing where it raises `TypeError` or `ValueError`. -/
  float : MediaValue → Option ℚ
  /-- `str(value)`. -/
  str : MediaValue → String
  strip : String → String
  casefold : String → String
  /-- `" ".join(text.strip().split())`. -/
  joinWords : String → String
  isAlnum : Char → Bool
  plain_letters : ∀ text : String, (text.toList.all fun c => c.isLower || c = '_') = true →
    casefold (strip text) = text
  float_number : ∀ q, float (.number q) = some q

def given (text : Option String) : Option String := text.filter (· ≠ "")

namespace NormalizerServices

variable (services : NormalizerServices)

variable (key : String)

def spelledKey : String :=
  String.ofList ((services.casefold (services.strip key)).toList.map fun c =>
    if c = '-' || c = ' ' then '_' else c)

def keyAliases : List (String × String) :=
  [("sample_rate_hz", "sample_rate"), ("channels_count", "channels"),
    ("duration_seconds", "duration"), ("duration_ms", "duration"), ("bit_rate", "bitrate"),
    ("bitrate_bps", "bitrate"), ("embedded_artwork_presence", "artwork"),
    ("artwork_present", "artwork"), ("embedded_metadata", "metadata")]

def canonicalKey : String :=
  (keyAliases.lookup (services.spelledKey key)).getD (services.spelledKey key)

mutual

def normalizeIdentityValue : MediaValue → Option String
  | .list items => some (services.joinWords ("; ".intercalate (identityParts items)))
      |>.filter (· ≠ "")
  | value => some (services.joinWords (services.str value)) |>.filter (· ≠ "")

def identityParts : List MediaValue → List String
  | [] => []
  | item :: items => (normalizeIdentityValue item).toList ++ identityParts items

end

/-- `int(value)`, of a number: its decimals are dropped. -/
def truncate (q : ℚ) : ℤ := if 0 ≤ q then ⌊q⌋ else ⌈q⌉

def normalizeValue (value : MediaValue) : Option MediaValue :=
  if key = "duration" then (services.float value).map fun q => .number (roundTo 6 q)
  else if ["bitrate", "sample_rate", "channels"].contains key then
    (services.float value).map fun q => .number (truncate q)
  else if key = "metadata" then
    match value with
    | .dict entries => some (.dict entries)
    | value => some (.dict [("value", .text (services.str value))])
  else if identityKeys.contains key then (services.normalizeIdentityValue value).map .text
  else
    let text := services.strip (services.str value)
    if key = "artwork" then (some text).filter (· ≠ "") |>.map .text
    else if ["codec", "container"].contains key then some (.text (services.casefold text))
    else some (.text text)

/-- `_semantic_type`. -/
def semanticTypeOf : String :=
  if (["codec", "container", "bitrate", "sample_rate", "channels", "duration"]).contains key then
    "technical_metadata"
  else if key = "artwork" then "embedded_assets"
  else if identityKeys.contains key then "media_identity"
  else "descriptive_metadata"

def recordForField (result : RawMediaMetadataResult) (field : RawMediaMetadataField) :
    Option EvidenceRecord := do
  let key := services.canonicalKey field.canonicalKey
  let value ← field.normalizedValue.or field.rawValue
  let normalized ← services.normalizeValue key value
  let confidence := (result.confidenceByField.lookup key).getD field.confidence
  if !evidenceKeys.contains key || normalized.isEmpty || confidence < services.minConfidence then
    none
  else
    some
      { backendId := result.backendId
        canonicalKey := key
        rawRef := (given field.rawRef).or ((given result.rawRef).or result.fileRef)
        normalizedValue := normalized
        semanticType := (given field.semanticType).getD (semanticTypeOf key)
        confidence := confidence
        limitations := field.limitations ++ (result.limitationsByField.lookup key).getD [] }

def normalizeTagKey : String :=
  let text := (services.casefold (services.strip key)).toList.flatMap fun c =>
    if c = '©' then "copyright_".toList else [c]
  "_".intercalate
    (((text.splitOnP fun c => !services.isAlnum c).filter (· ≠ [])).map String.ofList)

def tagAliases : List (String × String) :=
  [("title", "track_title"), ("tit2", "track_title"), ("copyright_nam", "track_title"),
    ("artist", "artist"), ("artists", "artist"), ("tpe1", "artist"),
    ("copyright_art", "artist"), ("album", "album"), ("talb", "album"),
    ("copyright_alb", "album"), ("albumartist", "album_artist"),
    ("album_artist", "album_artist"), ("albumartists", "album_artist"),
    ("album_artists", "album_artist"), ("tpe2", "album_artist"), ("tpe2_tp2", "album_artist"),
    ("aart", "album_artist")]

/-- `_identity_fields_from_metadata`. -/
def identityFields (result : RawMediaMetadataResult) (field : RawMediaMetadataField) :
    List RawMediaMetadataField :=
  match services.canonicalKey field.canonicalKey, field.normalizedValue.or field.rawValue with
  | "metadata", some (.dict entries) =>
    entries.filterMap fun (tag, value) => do
      let key ← tagAliases.lookup (services.normalizeTagKey tag)
      let text ← services.normalizeIdentityValue value
      return { field with
        canonicalKey := key
        rawValue := some value
        normalizedValue := some (.text text)
        confidence := ((result.confidenceByField.lookup "metadata").map
          (min field.confidence)).getD field.confidence
        semanticType := some "media_identity"
        rawRef := (given field.rawRef).or ((given result.rawRef).or result.fileRef) }
  | _, _ => []

/-- The records of `normalize`. -/
def normalize (results : List RawMediaMetadataResult) : List EvidenceRecord :=
  results.flatMap fun result =>
    result.rawFields.flatMap fun field =>
      (field :: services.identityFields result field).filterMap (services.recordForField result)

end NormalizerServices

end AIpinho.Media
