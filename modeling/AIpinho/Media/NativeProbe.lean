import AIpinho.Lib.Text
import AIpinho.Media.Normalizer

/-!
# The native probe

The native backend looks for the tags of MP4 headers anywhere in the first bytes of a file, and
takes whatever begins with the sync bits of an MPEG frame for an MP3 file. An access outside of
the bytes or of a table is an error here, as in the source.
-/

namespace AIpinho.Media

open List Lib

abbrev Bytes : Type := List UInt8

/-- `b"..."`. -/
def bytesOf (text : String) : Bytes := text.toList.map fun c => UInt8.ofNat c.toNat

variable (data : Bytes)

/-- `data[start:stop]`. -/
def slice (start stop : ℕ) : Bytes := (data.take stop).drop start

/-- `int.from_bytes(bytes, "big")`. -/
def bigEndian (bytes : Bytes) : ℕ := bytes.foldl (fun n b => n * 256 + b.toNat) 0

/-- `data.find(tag)`. -/
def findTag (tag : Bytes) : Option ℕ :=
  (List.range data.length).find? fun i => tag.isPrefixOf (data.drop i)

/-- `bytes.decode("ascii", errors="ignore")`. -/
def decodeAscii (bytes : Bytes) : String :=
  String.ofList ((bytes.filter (· < 128)).map fun b => Char.ofNat b.toNat)

/-- `text.strip("\x00 ")`. -/
def stripPadding (text : String) : String := strip (fun c => c.toNat = 0 || c = ' ') text

def lowerAscii (text : String) : String := String.ofList (text.toList.map Char.toLower)

/-- `items[index]`. -/
def itemAt {α : Type} (items : List α) (index : ℕ) : Except String α :=
  match items[index]? with
  | some item => .ok item
  | none => .error "IndexError"

/-! ### MP4 -/

/-- The duration and the timescale that are read behind a tag. -/
def headerAt (i : ℕ) (version : UInt8) : Option (ℕ × ℕ) :=
  if version = 0 then
    some (bigEndian (slice data (i + 20) (i + 24)), bigEndian (slice data (i + 16) (i + 20)))
  else if version = 1 && decide (i + 36 ≤ data.length) then
    some (bigEndian (slice data (i + 32) (i + 40)), bigEndian (slice data (i + 28) (i + 32)))
  else none

/-- The loop of `_find_mp4_duration_seconds`. -/
def findHeader (data : Bytes) : List Bytes → Except String (Option (ℕ × ℕ))
  | [] => .ok none
  | tag :: tags =>
    match findTag data tag with
    | none => findHeader data tags
    | some i =>
      if data.length < i + 24 then findHeader data tags
      else do
        let version ← itemAt data (i + 4)
        match (headerAt data i version).filter fun header => decide (0 < header.2) with
        | some header => .ok (some header)
        | none => findHeader data tags

def headerTags : List Bytes := [bytesOf "mvhd", bytesOf "mdhd"]

/-- `round(duration / timescale, 6)`. -/
def seconds (header : ℕ × ℕ) : ℚ := roundedQuotient 6 header.1 header.2

def findMp4DurationSeconds : Except String (Option ℚ) :=
  (findHeader data headerTags).map (Option.map seconds)

def findStsdCodec : Option String :=
  (findTag data (bytesOf "stsd")).bind fun i =>
    if data.length < i + 16 + 4 then none
    else
      some (lowerAscii (stripPadding (decodeAscii (slice data (i + 16) (i + 16 + 4)))))
        |>.filter (· ≠ "")

/-- The loop of `_mp4_boxes`, of at most `fuel` boxes. -/
def mp4BoxesFrom (data : Bytes) : ℕ → ℕ → List String
  | 0, _ => []
  | fuel + 1, offset =>
    let size := bigEndian (slice data offset (offset + 4))
    if offset + 8 ≤ data.length ∧ 8 ≤ size then
      decodeAscii (slice data (offset + 4) (offset + 8)) ::
        mp4BoxesFrom data fuel (offset + size)
    else []

/-- `_mp4_boxes`: each box has at least eight bytes. -/
def mp4Boxes : List String := mp4BoxesFrom data data.length 0

/-! ### MP3 -/

/-- The loop of `_mp3_frame_offset`. -/
def firstSync (data : Bytes) : List ℕ → Except String (Option ℕ)
  | [] => .ok none
  | offset :: offsets => do
    let first ← itemAt data offset
    if first = 0xFF then
      let second ← itemAt data (offset + 1)
      if second &&& 0xE0 = 0xE0 then .ok (some offset) else firstSync data offsets
    else firstSync data offsets

def startsWithId3 : Bool := (bytesOf "ID3").isPrefixOf data

def syncStart : ℕ :=
  if startsWithId3 data && decide (10 ≤ data.length) then
    10 + (slice data 6 10).foldl (fun size b => (size <<< 7) ||| (b &&& 0x7F).toNat) 0
  else 0

/-- `range(start, min(len(data) - 1, start + 4096))`. -/
def syncOffsets : List ℕ :=
  List.range' (syncStart data) (min (data.length - 1) (syncStart data + 4096) - syncStart data)

def mp3FrameOffset : Except String (Option ℕ) := firstSync data (syncOffsets data)

structure Mp3Frame where
  bitrate : ℕ
  sampleRate : ℕ
  channels : ℕ

def versionBits (header : Bytes) : ℕ := (bigEndian header >>> 19) &&& 0b11

def layerBits (header : Bytes) : ℕ := (bigEndian header >>> 17) &&& 0b11

def bitrateIndex (header : Bytes) : ℕ := (bigEndian header >>> 12) &&& 0b1111

def sampleIndex (header : Bytes) : ℕ := (bigEndian header >>> 10) &&& 0b11

def channelMode (header : Bytes) : ℕ := (bigEndian header >>> 6) &&& 0b11

def sampleRates : List (ℕ × List ℕ) :=
  [(0b11, [44100, 48000, 32000]), (0b10, [22050, 24000, 16000]), (0b00, [11025, 12000, 8000])]

def bitratesMpeg1 : List ℕ :=
  [0, 32000, 40000, 48000, 56000, 64000, 80000, 96000, 112000, 128000, 160000, 192000, 224000,
    256000, 320000]

def bitratesMpeg2 : List ℕ :=
  [0, 8000, 16000, 24000, 32000, 40000, 48000, 56000, 64000, 80000, 96000, 112000, 128000,
    144000, 160000]

def parseMp3Frame (header : Bytes) : Except String (Option Mp3Frame) :=
  if header.length < 4 then .ok none
  else if versionBits header = 0b01 ∨ layerBits header = 0 ∨
      bitrateIndex header ∈ [0, 15] ∨ sampleIndex header = 3 then .ok none
  else do
    let table := if versionBits header = 0b11 then bitratesMpeg1 else bitratesMpeg2
    let bitrate ← itemAt table (bitrateIndex header)
    let rates ← match sampleRates.lookup (versionBits header) with
      | some rates => .ok rates
      | none => .error "KeyError"
    let sampleRate ← itemAt rates (sampleIndex header)
    return some ⟨bitrate, sampleRate, if channelMode header = 0b11 then 1 else 2⟩

/-! ### The probe -/

/-- What `probe` returns. -/
structure NativeResult extends RawMediaMetadataResult where
  container : Option String
  codec : Option String
  bitrate : Option ℕ
  sampleRate : Option ℕ
  channels : Option ℕ
  duration : Option ℚ
  warnings : List String

variable (path : String)

def nativeField (key : String) (value : Option MediaValue) (confidence : ℚ) (limitation : String) :
    RawMediaMetadataField :=
  ⟨key, value, value, confidence, some "technical_metadata", [limitation], some path⟩

def errorResult (code message : String) : NativeResult where
  backendId := "native_minimal"
  fileRef := some path
  rawFields := []
  confidenceByField := []
  limitationsByField := technicalKeys.map fun key => (key, [message])
  errors := [⟨code, message⟩]
  rawRef := some path
  container := none
  codec := none
  bitrate := none
  sampleRate := none
  channels := none
  duration := none
  warnings := []

def fieldsResult (fields : List RawMediaMetadataField) : RawMediaMetadataResult :=
  let kept := fields.filter fun field => field.normalizedValue.any fun value => !value.isEmpty
  { backendId := "native_minimal"
    fileRef := some path
    rawFields := kept
    confidenceByField := kept.map fun field => (field.canonicalKey, field.confidence)
    limitationsByField := fields.map fun field => (field.canonicalKey, field.limitations)
    errors := []
    rawRef := some path }

def probeMp4 (data : Bytes) : Except String NativeResult := do
  let brand := lowerAscii (stripPadding (decodeAscii (slice data 8 12)))
  let container := if ["m4a", "m4b", "m4p"].contains brand then "m4a" else "mp4"
  let codec := findStsdCodec data
  let duration ← findMp4DurationSeconds data
  let fields :=
    [nativeField path "container" (some (.text container)) (4 / 5)
        "container inferred from ftyp brand/header",
      match codec with
      | some codec => nativeField path "codec" (some (.text codec)) (7 / 10)
          "codec read from simple stsd sample entry"
      | none => nativeField path "codec" none 0
          "stsd sample entry not found by native minimal backend"] ++
      (duration.map fun duration => nativeField path "duration" (some (.number duration))
        (13 / 20) "duration derived from simple mvhd/mdhd timescale").toList
  return { fieldsResult path fields with
    container := some container
    codec := codec
    bitrate := none
    sampleRate := none
    channels := none
    duration := duration
    warnings := if (mp4Boxes data).contains "moov" then []
      else ["moov box not found in scanned prefix"] }

def frameFields (frame : Mp3Frame) : List RawMediaMetadataField :=
  nativeField path "codec" (some (.text "mp3")) (4 / 5)
      "codec detected from MPEG audio frame header" ::
    ([("bitrate", frame.bitrate, 13 / 20, "bitrate estimated from first MPEG frame"),
      ("sample_rate", frame.sampleRate, 7 / 10, "sample rate read from first MPEG frame"),
      ("channels", frame.channels, 13 / 20, "channels read from first MPEG frame")].filter
        fun entry => entry.2.1 ≠ 0).map fun (key, value, confidence, limitation) =>
          nativeField path key (some (.number value)) confidence limitation

def probeMp3 (data : Bytes) : Except String NativeResult := do
  let offset ← mp3FrameOffset data
  let frame ← match offset with
    | some offset => parseMp3Frame (slice data offset (offset + 4))
    | none => .ok none
  let fields := nativeField path "container" (some (.text "mp3")) (17 / 20)
    "container detected from ID3/MPEG header" :: (frame.map (frameFields path)).getD []
  return { fieldsResult path fields with
    container := some "mp3"
    codec := frame.map fun _ => "mp3"
    bitrate := (frame.map (·.bitrate)).filter (· ≠ 0)
    sampleRate := (frame.map (·.sampleRate)).filter (· ≠ 0)
    channels := (frame.map (·.channels)).filter (· ≠ 0)
    duration := none
    warnings := [] }

def scanned (contents : Bytes) : Bytes := contents.take (1024 * 1024)

def isMp4 : Bool := slice data 4 8 = bytesOf "ftyp"

/-- `probe`, of a file that is missing, cannot be read, or has these bytes. -/
def probe (file : Option (Except String Bytes)) : Except String NativeResult :=
  match file with
  | none => .ok (errorResult path "MEDIA_BACKEND_UNSUPPORTED_FORMAT"
      "Media file path does not exist or is not a file.")
  | some (.error message) => .ok (errorResult path "MEDIA_BACKEND_RUNTIME_ERROR" message)
  | some (.ok contents) =>
    let data := scanned contents
    if data.length < 12 then
      .ok (errorResult path "MEDIA_BACKEND_NO_EVIDENCE"
        "File is too small for native media probing.")
    else if isMp4 data then probeMp4 path data
    else do
      let looksLikeFrame ← if startsWithId3 data then .ok true
        else (mp3FrameOffset data).map (·.isSome)
      if looksLikeFrame then probeMp3 path data
      else .ok (errorResult path "MEDIA_BACKEND_UNSUPPORTED_FORMAT"
        "Native minimal backend did not recognize a supported media signature.")

/-! ### No access fails -/

section Accesses

variable {data : Bytes}

theorem itemAt_of_lt {α : Type} {items : List α} {index : ℕ} (h : index < items.length) :
    itemAt items index = .ok items[index] := by
  rw [itemAt, getElem?_eq_getElem h]

def readHeader (data tag : Bytes) : Option (ℕ × ℕ) :=
  (findTag data tag).bind fun i =>
    if data.length < i + 24 then none
    else ((data[i + 4]?).bind (headerAt data i)).filter fun header => decide (0 < header.2)

theorem findHeader_eq (tags : List Bytes) :
    findHeader data tags = .ok (tags.findSome? (readHeader data)) := by
  induction tags with
  | nil => rfl
  | cons tag tags ih =>
    rw [findHeader, findSome?_cons, readHeader]
    cases findTag data tag with
    | none => exact ih
    | some i =>
      by_cases hshort : data.length < i + 24
      · simp only [hshort, if_true, Option.bind_some, ih]
      · have hlt : i + 4 < data.length := by omega
        simp only [hshort, if_false, Option.bind_some, itemAt_of_lt hlt,
          getElem?_eq_getElem hlt, bind, Except.bind]
        cases (headerAt data i data[i + 4]).filter fun header => decide (0 < header.2) with
        | none => exact ih
        | some header => rfl

def syncAt (data : Bytes) (offset : ℕ) : Bool :=
  data[offset]? = some 0xFF && (data[offset + 1]?).any fun b => b &&& 0xE0 = 0xE0

theorem firstSync_eq {offsets : List ℕ} (h : ∀ offset ∈ offsets, offset + 1 < data.length) :
    firstSync data offsets = .ok (offsets.find? (syncAt data)) := by
  induction offsets with
  | nil => rfl
  | cons offset offsets ih =>
    rw [forall_mem_cons] at h
    have hlt : offset < data.length := by omega
    rw [firstSync, itemAt_of_lt hlt, itemAt_of_lt h.1, find?_cons, syncAt,
      getElem?_eq_getElem hlt, getElem?_eq_getElem h.1, ih h.2]
    by_cases hfirst : data[offset] = 0xFF
    · by_cases hsecond : data[offset + 1] &&& 0xE0 = 0xE0 <;>
        simp [bind, Except.bind, hfirst, hsecond]
    · simp [bind, Except.bind, hfirst]

theorem lt_of_mem_syncOffsets {offset : ℕ} (h : offset ∈ syncOffsets data) :
    offset + 1 < data.length := by
  rw [syncOffsets, mem_range'_1] at h
  omega

theorem mp3FrameOffset_eq : mp3FrameOffset data = .ok ((syncOffsets data).find? (syncAt data)) :=
  firstSync_eq fun _ => lt_of_mem_syncOffsets

theorem parseMp3Frame_ok (header : Bytes) : ∃ frame, parseMp3Frame header = .ok frame := by
  unfold parseMp3Frame
  by_cases hshort : header.length < 4
  · exact ⟨_, if_pos hshort⟩
  by_cases hreserved : versionBits header = 0b01 ∨ layerBits header = 0 ∨
      bitrateIndex header ∈ [0, 15] ∨ sampleIndex header = 3
  · exact ⟨_, (if_neg hshort).trans (if_pos hreserved)⟩
  rw [if_neg hshort, if_neg hreserved]
  simp only [not_or, mem_cons, not_mem_nil, or_false] at hreserved
  obtain ⟨hversion, -, ⟨-, hbitrate⟩, hsample⟩ := hreserved
  have hindex : bitrateIndex header < 15 := by
    have : bitrateIndex header ≤ 15 := Nat.and_le_right
    omega
  have hrate : sampleIndex header < 3 := by
    have : sampleIndex header ≤ 3 := Nat.and_le_right
    omega
  have hbits : versionBits header = 0 ∨ versionBits header = 2 ∨ versionBits header = 3 := by
    have : versionBits header ≤ 3 := Nat.and_le_right
    omega
  have htable : (if versionBits header = 0b11 then bitratesMpeg1 else bitratesMpeg2).length =
      15 := by split <;> rfl
  obtain ⟨rates, hrates, hlength⟩ : ∃ rates,
      sampleRates.lookup (versionBits header) = some rates ∧ rates.length = 3 := by
    rcases hbits with h | h | h <;> rw [h] <;> exact ⟨_, rfl, rfl⟩
  simp only [itemAt_of_lt (htable ▸ hindex), hrates, itemAt_of_lt (hlength ▸ hrate), bind,
    Except.bind]
  exact ⟨_, rfl⟩

theorem probeMp4_ok (data : Bytes) : ∃ r, probeMp4 path data = .ok r ∧ r.container ≠ some "mp3" ∧
      r.codec = findStsdCodec data ∧ r.bitrate = none ∧ r.sampleRate = none ∧
      r.duration = (headerTags.findSome? (readHeader data)).map seconds := by
  simp only [probeMp4, findMp4DurationSeconds, findHeader_eq, Except.map, bind, Except.bind]
  refine ⟨_, rfl, ?_, rfl, rfl, rfl, rfl⟩
  simp only [ne_eq, Option.some.injEq]
  split <;> decide

theorem probeMp3_ok (data : Bytes) :
    ∃ r, probeMp3 path data = .ok r ∧ r.container = some "mp3" ∧ r.duration = none := by
  simp only [probeMp3, mp3FrameOffset_eq, bind, Except.bind]
  cases (syncOffsets data).find? (syncAt data) with
  | none => exact ⟨_, rfl, rfl, rfl⟩
  | some offset =>
    obtain ⟨frame, hframe⟩ := parseMp3Frame_ok (slice data offset (offset + 4))
    simp only [hframe]
    exact ⟨_, rfl, rfl, rfl⟩

end Accesses

end AIpinho.Media
