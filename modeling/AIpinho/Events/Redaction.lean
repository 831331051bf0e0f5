import AIpinho.Lib.Substitution
import AIpinho.Lib.Text
import AIpinho.Runtime.Sanitize

/-!
# Redacted payloads

`redact_payload` replaces what looks like a secret in the texts of a payload, and
`contains_secret` looks for the same patterns before an event is published. The detector also
looks at the keys of objects, whose values are not redacted.
-/

namespace AIpinho.Events

open Lib
open AIpinho.Runtime (isSpace foldCase)

variable (text : String)

def word : List (Step Char) := text.toList.map fun letter => .one (· == letter)

/-- A word of a pattern with `IGNORECASE`; the word is in lower case. -/
def wordFolded : List (Step Char) :=
  text.toList.map fun letter => .one (foldCase · == letter)

/-- A character of a bearer token: an ASCII letter in any case (`IGNORECASE`), a digit, or
one of a few marks. -/
def isBearerChar (c : Char) : Bool :=
  (foldCase c).isAlphanum || ['.', '_', '~', '+', '/', '-'].contains c

/-- `[A-Za-z0-9_-]`. -/
def isKeyChar (c : Char) : Bool := c.isAlphanum || c == '_' || c == '-'

/-- `[A-Za-z0-9_]`. -/
def isTokenChar (c : Char) : Bool := c.isAlphanum || c == '_'

def secretPatterns : List (List (Step Char)) :=
  [wordFolded "bearer" ++ [.run isSpace 1, .run isBearerChar 1],
    word "sk-" ++ [.run isKeyChar 12],
    word "ghp_" ++ [.run isTokenChar 12]]

def secretMark : List Char := "[REDACTED_SECRET]".toList

/-- `_redact_text`, on the characters of a text. -/
def redactChars (cs : List Char) : List Char := subAll secretPatterns secretMark cs

def redactText : String := String.ofList (redactChars text.toList)

def textHasSecret : Bool :=
  secretPatterns.any fun pattern => hasMatch pattern text.toList

def sensitiveKeys : List String :=
  ["api_key", "apikey", "authorization", "auth_token", "credential", "credentials", "password",
    "refresh_token", "secret", "token", "access_token"]

variable (casefold : String → String)

/-- `_is_sensitive_key`, for a `str.casefold`: the runs of what is neither a digit nor an
ASCII letter become single underscores. -/
def isSensitiveKey (key : String) : Bool :=
  let folded := (casefold (strip isSpace key)).toList
  let normalized := trim (· == '_') (sub [.run (fun c => !c.isAlphanum) 1] ['_'] folded)
  sensitiveKeys.contains (String.ofList normalized)

mutual

def redactPayload : Json → Json
  | .str text => .str (redactText text)
  | .obj fields => .obj (redactFields fields)
  | .list items => .list (redactItems items)
  | value => value

/-- `redact_payload` on the items of a list. -/
def redactItems : List Json → List Json
  | [] => []
  | item :: items => redactPayload item :: redactItems items

/-- `redact_payload` on the members of an object. -/
def redactFields : List (String × Json) → List (String × Json)
  | [] => []
  | (key, value) :: fields => (key, redactPayload value) :: redactFields fields

end

mutual

def containsSecret (casefold : String → String) : Json → Bool
  | .str text => textHasSecret text
  | .obj fields => fieldsContainSecret casefold fields
  | .list items => itemsContainSecret casefold items
  | _ => false

/-- `contains_secret` on the items of a list. -/
def itemsContainSecret (casefold : String → String) : List Json → Bool
  | [] => false
  | item :: items => containsSecret casefold item || itemsContainSecret casefold items

/-- `contains_secret` on the members of an object. -/
def fieldsContainSecret (casefold : String → String) : List (String × Json) → Bool
  | [] => false
  | (key, value) :: fields =>
    containsSecret casefold value || isSensitiveKey casefold key && value.truthy ||
      fieldsContainSecret casefold fields

end

/-- `EventPublishRequest`, as far as it is searched for secrets. -/
structure EventPublishRequest where
  payload : Json
  humanSummary : String
  rawPayload : Json := .null

/-- The reasons of `EventContractValidator.validate` that are about secrets. -/
def secretReasons (request : EventPublishRequest) : List String :=
  (if containsSecret casefold request.payload || textHasSecret request.humanSummary then
    ["secret_detected_in_public_event"] else []) ++
  (if containsSecret casefold request.rawPayload then ["secret_detected_in_raw_payload"] else [])

/-- The members of `AgentEventCreateRequest` that `append_event` redacts. -/
structure AgentEventCreateRequest where
  humanMessage : String
  technicalSummary : Option String := none
  payload : Json

/-- The same members of the `AgentEvent` that is stored. -/
structure AgentEvent where
  humanMessage : String
  technicalSummary : Option String
  payload : Json

/-- `MultiAgentEventBus.append_event`. -/
def appendEvent (request : AgentEventCreateRequest) : AgentEvent where
  humanMessage := redactText request.humanMessage
  technicalSummary := request.technicalSummary.map redactText
  payload := redactPayload request.payload

def AgentEvent.publishRequest (event : AgentEvent) : EventPublishRequest where
  payload := event.payload
  humanSummary := event.humanMessage
  rawPayload := event.payload

example : redactText "send bearer  a.b to sk-0123456789ab" =
    "send [REDACTED_SECRET] to [REDACTED_SECRET]" := by decide

def isBracket (c : Char) : Prop := c = '[' ∨ c = ']'

theorem secretMark_fenced : Fenced isBracket secretMark :=
  ⟨⟨'[', _, rfl, Or.inl rfl⟩, ⟨"[REDACTED_SECRET".toList, ']', by decide, Or.inr rfl⟩⟩

theorem secretPatterns_avoid : ∀ pattern ∈ secretPatterns, Avoids isBracket pattern := by
  have hall : ∀ pattern ∈ secretPatterns, ∀ step ∈ pattern,
      step.kind '[' = false ∧ step.kind ']' = false := by
    simp only [secretPatterns, List.forall_mem_cons]
    decide
  rintro pattern hpattern step hstep item (rfl | rfl)
  · exact (hall pattern hpattern step hstep).1
  · exact (hall pattern hpattern step hstep).2

theorem secretMark_clean : ∀ pattern ∈ secretPatterns, hasMatch pattern secretMark = false := by
  decide

theorem textHasSecret_redactText : textHasSecret (redactText text) = false := by
  rw [textHasSecret, List.any_eq_false]
  intro pattern hpattern
  rw [redactText, String.toList_ofList, Bool.not_eq_true]
  exact hasMatch_subAll secretPatterns_avoid secretMark_fenced secretMark_clean _ pattern hpattern

theorem redactText_redactText : redactText (redactText text) = redactText text := by
  have hclean := textHasSecret_redactText text
  rw [textHasSecret, List.any_eq_false] at hclean
  have hself : redactChars (redactText text).toList = (redactText text).toList :=
    subAll_eq_self fun pattern hpattern => by simpa using hclean pattern hpattern
  rw [redactText, hself, String.ofList_toList]

theorem redactText_eq_empty_iff : redactText text = "" ↔ text = "" := by
  have hnil := @subAll_eq_nil_iff Char secretMark secretPatterns (by decide) text.toList
  rw [redactText, redactChars]
  constructor
  · intro h
    rw [← String.toList_inj, String.toList_ofList] at h
    rw [← String.toList_inj]
    exact hnil.mp h
  · rintro rfl
    rfl

mutual

/-- Whether an object of a payload has a sensitive key whose value counts as true. -/
def namesSecret (casefold : String → String) : Json → Bool
  | .obj fields => fieldsNameSecret casefold fields
  | .list items => itemsNameSecret casefold items
  | _ => false

/-- `namesSecret` on the items of a list. -/
def itemsNameSecret (casefold : String → String) : List Json → Bool
  | [] => false
  | item :: items => namesSecret casefold item || itemsNameSecret casefold items

/-- `namesSecret` on the members of an object. -/
def fieldsNameSecret (casefold : String → String) : List (String × Json) → Bool
  | [] => false
  | (key, value) :: fields =>
    namesSecret casefold value || isSensitiveKey casefold key && value.truthy ||
      fieldsNameSecret casefold fields

end

theorem truthy_redactPayload (value : Json) : (redactPayload value).truthy = value.truthy := by
  cases value with
  | str text =>
    rw [Bool.eq_iff_iff]
    simp only [redactPayload, Json.truthy, bne_iff_ne, ne_eq, redactText_eq_empty_iff]
  | list items => cases items <;> simp [redactPayload, redactItems, Json.truthy]
  | obj fields =>
    cases fields with
    | nil => rfl
    | cons field fields => simp [redactPayload, redactFields, Json.truthy]
  | null | bool b | int n | float t => rfl

theorem containsSecret_redactPayload (value : Json) :
    containsSecret casefold (redactPayload value) = namesSecret casefold value := by
  induction value using Json.induction with
  | hnull | hbool b | hint n | hfloat t => rfl
  | hstr text => exact textHasSecret_redactText text
  | hlist items ih =>
    rw [redactPayload, containsSecret, namesSecret]
    induction items with
    | nil => rfl
    | cons item items ih' =>
      rw [List.forall_mem_cons] at ih
      rw [redactItems, itemsContainSecret, itemsNameSecret, ih.1, ih' ih.2]
  | hobj fields ih =>
    rw [redactPayload, containsSecret, namesSecret]
    induction fields with
    | nil => rfl
    | cons field fields ih' =>
      rw [List.forall_mem_cons] at ih
      obtain ⟨key, value⟩ := field
      rw [redactFields, fieldsContainSecret, fieldsNameSecret, ih.1, ih' ih.2, truthy_redactPayload]

theorem redactPayload_redactPayload (value : Json) :
    redactPayload (redactPayload value) = redactPayload value := by
  induction value using Json.induction with
  | hnull | hbool b | hint n | hfloat t => rfl
  | hstr text =>
    rw [redactPayload, redactPayload, redactText_redactText]
  | hlist items ih =>
    rw [redactPayload, redactPayload]
    congr 1
    induction items with
    | nil => rfl
    | cons item items ih' =>
      rw [List.forall_mem_cons] at ih
      rw [redactItems, redactItems, ih.1, ih' ih.2]
  | hobj fields ih =>
    rw [redactPayload, redactPayload]
    congr 1
    induction fields with
    | nil => rfl
    | cons field fields ih' =>
      rw [List.forall_mem_cons] at ih
      obtain ⟨key, value⟩ := field
      rw [redactFields, redactFields, ih.1, ih' ih.2]

/-- Redaction removes everything the detector finds, once and for all, and what the event
bus stores is not rejected by the event publisher as containing a secret. -/
def RedactsFully (value : Json) : Prop :=
  containsSecret casefold (redactPayload value) = false ∧
    redactPayload (redactPayload value) = redactPayload value ∧
    ∀ request : AgentEventCreateRequest, request.payload = value →
      secretReasons casefold (appendEvent request).publishRequest = []

/-- Redaction is complete exactly for the payloads in which no object has a sensitive key
with a value that counts as true. -/
theorem redacts_fully_iff (casefold : String → String) (value : Json) :
    RedactsFully casefold value ↔ namesSecret casefold value = false := by
  constructor
  · rintro ⟨hclean, -, -⟩
    rwa [containsSecret_redactPayload] at hclean
  · intro h
    have hclean : containsSecret casefold (redactPayload value) = false := by
      rw [containsSecret_redactPayload, h]
    refine ⟨hclean, redactPayload_redactPayload value, ?_⟩
    rintro request rfl
    simp [secretReasons, AgentEvent.publishRequest, appendEvent, hclean, textHasSecret_redactText]

def passwordPayload : Json := .obj [("password", .str "x")]

/-- A password is stored as it is, and the detector finds it. -/
theorem password_stays :
    redactPayload passwordPayload = passwordPayload ∧ ¬RedactsFully id passwordPayload := by
  have hsame : redactPayload passwordPayload = passwordPayload := by decide +kernel
  refine ⟨hsame, fun h => ?_⟩
  have hclean := h.1
  rw [hsame] at hclean
  exact absurd hclean (by decide +kernel)

end AIpinho.Events
