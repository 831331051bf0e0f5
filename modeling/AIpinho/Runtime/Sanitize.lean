import AIpinho.Lib.Json

/-!
# What the task run store removes before it saves

`TaskRunStore.sanitize` omits the values of sensitive members, replaces what looks like a secret
in a text and cuts long texts. None of the parts of the pattern of a secret can be matched in
two ways, so the scanner below needs no backtracking. Sanitizing a second time changes nothing.
-/

namespace AIpinho.Runtime

open List Lib

/-- The white space of a text pattern. -/
def isSpace (c : Char) : Bool :=
  let n := c.toNat
  (9 ≤ n && n ≤ 13) || (28 ≤ n && n ≤ 32) || n == 0x85 || n == 0xA0 || n == 0x1680 ||
    (0x2000 ≤ n && n ≤ 0x200A) || n == 0x2028 || n == 0x2029 || n == 0x202F || n == 0x205F ||
    n == 0x3000

/-- A character up to case, as far as a lower-case ASCII letter can tell: four
letters outside ASCII fold to `i`, `k` and `s`. -/
def foldCase (c : Char) : Char :=
  if c.toNat = 0x130 ∨ c.toNat = 0x131 then 'i'
  else if c.toNat = 0x212A then 'k'
  else if c.toNat = 0x17F then 's'
  else c.toLower

/-- What follows a word at the start of a text. -/
def dropWord : List Char → List Char → Option (List Char)
  | [], cs => some cs
  | letter :: word, c :: cs => if foldCase c = letter then dropWord word cs else none
  | _ :: _, [] => none

/-- One optional underscore or hyphen. -/
def dropJoin : List Char → List Char
  | c :: cs => if c = '_' ∨ c = '-' then cs else c :: cs
  | [] => []

/-- What follows `api key` and its spellings. -/
def dropApiKey (cs : List Char) : Option (List Char) :=
  (dropWord ['a', 'p', 'i'] cs).bind fun rest => dropWord ['k', 'e', 'y'] (dropJoin rest)

def dropKeyword (cs : List Char) : Option (List Char) :=
  (dropApiKey cs).or <| (dropWord ['t', 'o', 'k', 'e', 'n'] cs).or <|
    (dropWord ['p', 'a', 's', 's', 'w', 'o', 'r', 'd'] cs).or <|
      dropWord ['s', 'e', 'c', 'r', 'e', 't'] cs

/-- What follows the colon or equals sign and the spaces around it. -/
def dropSeparator (cs : List Char) : Option (List Char) :=
  match cs.dropWhile isSpace with
  | c :: rest => if c = ':' ∨ c = '=' then some (rest.dropWhile isSpace) else none
  | [] => none

def isValueChar (c : Char) : Bool := !isSpace c && c != ',' && c != ';'

def dropValue : List Char → Option (List Char)
  | c :: cs => if isValueChar c then some (cs.dropWhile isValueChar) else none
  | [] => none

/-- What follows a secret at the start of a text. -/
def dropSecret (cs : List Char) : Option (List Char) :=
  ((dropKeyword cs).bind dropSeparator).bind dropValue

/-- The text that stands for a secret. -/
def redactedMark : List Char := ['[', 'R', 'E', 'D', 'A', 'C', 'T', 'E', 'D', ']']

/-- Replace every secret after the first `skip` characters. -/
def redactFrom : ℕ → List Char → List Char
  | _, [] => []
  | skip + 1, _ :: cs => redactFrom skip cs
  | 0, c :: cs =>
    match dropSecret (c :: cs) with
    | some rest => redactedMark ++ redactFrom (cs.length - rest.length) cs
    | none => c :: redactFrom 0 cs

/-- Replace every secret of a text. -/
def redact (cs : List Char) : List Char := redactFrom 0 cs

/-- The longest text the store keeps. -/
def maxTextLength : ℕ := 30000

/-- `sanitize` on a text. -/
def sanitizeText (s : String) : String := String.ofList ((redact s.toList).take maxTextLength)

example : sanitizeText "ok, API_KEY = abc; x" = "ok, [REDACTED]; x" := by decide

theorem redactFrom_eq (skip : ℕ) (cs : List Char) : redactFrom skip cs = redact (cs.drop skip) := by
  induction cs generalizing skip with
  | nil => cases skip <;> rfl
  | cons c cs ih =>
    cases skip with
    | zero => rfl
    | succ skip => simpa only [redactFrom, drop_succ_cons] using ih skip

variable {c : Char}

@[simp] theorem redact_nil : redact [] = [] := rfl

theorem redact_cons_of_none {cs : List Char} (hnone : dropSecret (c :: cs) = none) :
    redact (c :: cs) = c :: redact cs := by
  rw [redact, redactFrom, hnone]
  rfl

theorem redact_cons_of_some {cs rest : List Char} (hsome : dropSecret (c :: cs) = some rest) :
    redact (c :: cs) = redactedMark ++ redact (cs.drop (cs.length - rest.length)) := by
  rw [redact, redactFrom, hsome]
  simp only [redactFrom_eq]

variable {cs : List Char}

/-- A character of the redacted text that does not open a mark was copied. -/
theorem redact_eq_cons {out : List Char} {c : Char} (h : redact cs = c :: out)
    (hc : c ≠ '[') : ∃ rest, cs = c :: rest ∧ dropSecret cs = none ∧ out = redact rest:= by
  cases cs with
  | nil => simp at h
  | cons d rest =>
    cases hd : dropSecret (d :: rest) with
    | some tail =>
      rw [redact_cons_of_some hd] at h
      simp only [redactedMark, cons_append, List.cons.injEq] at h
      exact absurd h.1.symm hc
    | none =>
      rw [redact_cons_of_none hd, List.cons.injEq] at h
      obtain ⟨rfl, rfl⟩ := h
      exact ⟨rest, rfl, rfl, rfl⟩

theorem dropWord_redact {word cs out : List Char}
    (hword : '[' ∉ word)
    (h : dropWord word (redact cs) = some out) :
    ∃ rest, dropWord word cs = some rest ∧ out = redact rest := by
  induction word generalizing cs with
  | nil =>
    simp only [dropWord, Option.some.injEq] at h
    exact ⟨cs, rfl, h.symm⟩
  | cons letter word ih =>
    cases hr : redact cs with
    | nil => simp [hr, dropWord] at h
    | cons c tail =>
      rw [hr, dropWord] at h
      split at h
      · rename_i hmatch
        have hc : c ≠ '[' := by
          rintro rfl
          exact hword (by simp [← hmatch, foldCase])
        obtain ⟨rest, rfl, -, rfl⟩ := redact_eq_cons hr hc
        obtain ⟨rest', hrest', rfl⟩ := ih (fun hmem => hword (by simp [hmem])) h
        exact ⟨rest', by rw [dropWord, if_pos hmatch, hrest'], rfl⟩
      · cases h

theorem dropJoin_redact (cs : List Char) : dropJoin (redact cs) = redact (dropJoin cs) := by
  cases cs with
  | nil => rfl
  | cons c cs =>
    cases hd : dropSecret (c :: cs) with
    | some rest =>
      have hc : ¬(c = '_' ∨ c = '-') := by
        rintro (rfl | rfl) <;>
          simp [dropSecret, dropKeyword, dropApiKey, dropWord, foldCase] at hd
      rw [dropJoin, if_neg hc, redact_cons_of_some hd]
      simp [redactedMark, dropJoin]
    | none =>
      rw [redact_cons_of_none hd, dropJoin, dropJoin]
      split
      · rfl
      · rw [redact_cons_of_none hd]

theorem dropApiKey_redact {out : List Char} (h : dropApiKey (redact cs) = some out) :
    ∃ rest, dropApiKey cs = some rest ∧ out = redact rest := by
  obtain ⟨tail, htail, hkey⟩ := Option.bind_eq_some_iff.mp h
  obtain ⟨rest, hrest, rfl⟩ := dropWord_redact (by decide) htail
  rw [dropJoin_redact] at hkey
  obtain ⟨rest', hrest', rfl⟩ := dropWord_redact (by decide) hkey
  exact ⟨rest', by rw [dropApiKey, hrest, Option.bind_some, hrest'], rfl⟩

theorem dropWord_head {letter : Char} {word cs rest : List Char}
    (h : dropWord (letter :: word) cs = some rest) :
    ∃ c tail, cs = c :: tail ∧ foldCase c = letter := by
  cases cs with
  | nil => simp [dropWord] at h
  | cons c tail =>
    rw [dropWord] at h
    split at h
    · rename_i hc
      exact ⟨c, tail, rfl, hc⟩
    · cases h

theorem dropWord_cons_of_ne {letter c : Char} {word cs : List Char} (hc : foldCase c ≠ letter) :
    dropWord (letter :: word) (c :: cs) = none := by
  rw [dropWord, if_neg hc]

theorem dropApiKey_cons_of_ne {cs : List Char} (hc : foldCase c ≠ 'a') :
    dropApiKey (c :: cs) = none := by
  rw [dropApiKey, dropWord_cons_of_ne hc, Option.bind_none]

theorem dropKeyword_redact {out : List Char} (h : dropKeyword (redact cs) = some out) :
    ∃ rest, dropKeyword cs = some rest ∧ out = redact rest := by
  simp only [dropKeyword, Option.or_eq_some_iff] at h
  rcases h with h | ⟨-, h | ⟨-, h | ⟨-, h⟩⟩⟩
  · obtain ⟨rest, hrest, rfl⟩ := dropApiKey_redact h
    exact ⟨rest, by simp [dropKeyword, hrest], rfl⟩
  all_goals
    obtain ⟨rest, hrest, rfl⟩ := dropWord_redact (by decide) h
    obtain ⟨c, tail, rfl, hc⟩ := dropWord_head hrest
    refine ⟨rest, ?_, rfl⟩
    simp [dropKeyword, hrest, dropApiKey_cons_of_ne, dropWord_cons_of_ne, hc]

theorem isValueChar_of_foldCase (hc : foldCase c ∈ ['a', 't', 'p', 's']) :
    isValueChar c = true := by
  have hcode : c.toNat = 0x17F ∨ (65 ≤ c.toNat ∧ c.toNat ≤ 90) ∨
      (97 ≤ c.toNat ∧ c.toNat ≤ 122) := by
    unfold foldCase at hc
    split_ifs at hc with h₁ h₂ h₃
    · simp at hc
    · simp at hc
    · exact .inl h₃
    · unfold Char.toLower at hc
      split at hc
      · rename_i h
        refine .inr (.inl ?_)
        obtain ⟨hlow, hhigh⟩ := h
        rw [ge_iff_le, UInt32.le_iff_toNat_le] at hlow
        rw [UInt32.le_iff_toNat_le] at hhigh
        exact ⟨hlow, hhigh⟩
      · simp only [mem_cons, not_mem_nil, or_false] at hc
        rcases hc with rfl | rfl | rfl | rfl <;> decide
  have hne : ∀ d : Char, d.toNat = 44 ∨ d.toNat = 59 → c ≠ d := by
    rintro d hd rfl
    omega
  simp only [isValueChar, isSpace, Bool.and_eq_true, Bool.not_eq_true', bne_iff_ne]
  refine ⟨⟨?_, hne ',' (by decide)⟩, hne ';' (by decide)⟩
  simp only [Bool.or_eq_false_iff, Bool.and_eq_false_iff, decide_eq_false_iff_not,
    beq_eq_false_iff_ne]
  omega

theorem isValueChar_of_dropSecret {cs rest : List Char} (h : dropSecret (c :: cs) = some rest) :
    isValueChar c = true := by
  apply isValueChar_of_foldCase
  by_contra hc
  simp only [mem_cons, not_mem_nil, or_false, not_or] at hc
  simp [dropSecret, dropKeyword, dropApiKey_cons_of_ne, dropWord_cons_of_ne, hc] at h

theorem dropWhile_isSpace_redact (cs : List Char) :
    (redact cs).dropWhile isSpace = redact (cs.dropWhile isSpace) := by
  induction cs with
  | nil => rfl
  | cons c cs ih =>
    cases hd : dropSecret (c :: cs) with
    | some rest =>
      have hc : isSpace c = false := by
        have hvalue := isValueChar_of_dropSecret hd
        simp only [isValueChar, Bool.and_eq_true, Bool.not_eq_true'] at hvalue
        exact hvalue.1.1
      rw [redact_cons_of_some hd]
      rw [dropWhile_cons_of_neg (by simp [hc]), redact_cons_of_some hd]
      rfl
    | none =>
      rw [redact_cons_of_none hd]
      by_cases hc : isSpace c
      · simp [List.dropWhile, hc, ih]
      · simp [List.dropWhile, hc, redact_cons_of_none hd]

theorem dropSeparator_redact {out : List Char} (h : dropSeparator (redact cs) = some out) :
    ∃ rest, dropSeparator cs = some rest ∧ out = redact rest := by
  rw [dropSeparator, dropWhile_isSpace_redact] at h
  split at h
  · rename_i c tail hr
    split at h
    · rename_i hc
      have hopen : c ≠ '[' := by
        rintro rfl
        simp at hc
      obtain ⟨rest, hrest, -, rfl⟩ := redact_eq_cons hr hopen
      simp only [Option.some.injEq] at h
      exact ⟨rest.dropWhile isSpace, by simp [dropSeparator, hrest, hc],
        by rw [← h, dropWhile_isSpace_redact]⟩
    · cases h
  · cases h

theorem dropValue_redact (h : (dropValue (redact cs)).isSome) : (dropValue cs).isSome := by
  cases cs with
  | nil => simp [dropValue] at h
  | cons c cs =>
    cases hd : dropSecret (c :: cs) with
    | some rest => simp [dropValue, isValueChar_of_dropSecret hd]
    | none =>
      rw [redact_cons_of_none hd, dropValue] at h
      by_cases hc : isValueChar c <;> simp [dropValue, hc] at h ⊢

theorem dropSecret_redact (cs : List Char) : dropSecret (redact cs) = none := by
  by_contra hsome
  obtain ⟨out, hout⟩ := Option.ne_none_iff_exists'.mp hsome
  simp only [dropSecret, Option.bind_eq_some_iff] at hout
  obtain ⟨afterSep, ⟨afterKey, hkey, hsep⟩, hvalue⟩ := hout
  obtain ⟨rest, hrest, rfl⟩ := dropKeyword_redact hkey
  obtain ⟨rest', hrest', rfl⟩ := dropSeparator_redact hsep
  have hvalue' : (dropValue rest').isSome := dropValue_redact (by simp [hvalue])
  obtain ⟨end', hend⟩ := Option.isSome_iff_exists.mp hvalue'
  have hcs : dropSecret cs = some end' := by
    simp [dropSecret, hrest, hrest', hend]
  cases cs with
  | nil => simp [dropSecret, dropKeyword, dropApiKey, dropWord] at hcs
  | cons c cs =>
    rw [redact_cons_of_some hcs] at hkey
    simp [redactedMark, dropKeyword, dropApiKey, dropWord, foldCase] at hkey

/-- No secret starts anywhere in a text. -/
def Clean : List Char → Prop
  | [] => True
  | c :: cs => dropSecret (c :: cs) = none ∧ Clean cs

theorem clean_redactedMark_append (hcs : Clean cs) : Clean (redactedMark ++ cs) := by
  simp [redactedMark, Clean, dropSecret, dropKeyword, dropApiKey, dropWord, foldCase, hcs]

theorem clean_redactFrom (skip : ℕ) (cs : List Char) : Clean (redactFrom skip cs) := by
  induction cs generalizing skip with
  | nil => cases skip <;> trivial
  | cons c cs ih =>
    cases skip with
    | succ skip => exact ih skip
    | zero =>
      cases hd : dropSecret (c :: cs) with
      | some rest =>
        rw [redactFrom, hd]
        exact clean_redactedMark_append (ih _)
      | none =>
        have hhead := dropSecret_redact (c :: cs)
        rw [redact, redactFrom, hd] at hhead
        rw [redactFrom, hd]
        exact ⟨hhead, ih 0⟩

theorem redact_of_clean (hcs : Clean cs) : redact cs = cs := by
  induction cs with
  | nil => rfl
  | cons c cs ih => rw [redact_cons_of_none hcs.1, ih hcs.2]

theorem dropWord_append {word cs rest : List Char} (h : dropWord word cs = some rest)
    (tail : List Char) : dropWord word (cs ++ tail) = some (rest ++ tail) := by
  induction word generalizing cs with
  | nil =>
    simp only [dropWord, Option.some.injEq] at h
    simp [dropWord, h]
  | cons letter word ih =>
    obtain ⟨c, cs', rfl, hc⟩ := dropWord_head h
    rw [dropWord, if_pos hc] at h
    rw [cons_append, dropWord, if_pos hc, ih h]

theorem dropApiKey_append {rest : List Char} (h : dropApiKey cs = some rest) (tail : List Char) :
    dropApiKey (cs ++ tail) = some (rest ++ tail) := by
  obtain ⟨mid, hmid, hkey⟩ := Option.bind_eq_some_iff.mp h
  rw [dropApiKey, dropWord_append hmid, Option.bind_some]
  cases mid with
  | nil => simp [dropJoin, dropWord] at hkey
  | cons c mid =>
    rw [← dropWord_append hkey]
    simp only [cons_append, dropJoin]
    split <;> rfl

theorem dropKeyword_append {rest : List Char} (h : dropKeyword cs = some rest) (tail : List Char) :
    dropKeyword (cs ++ tail) = some (rest ++ tail) := by
  simp only [dropKeyword, Option.or_eq_some_iff] at h
  rcases h with h | ⟨-, h | ⟨-, h | ⟨-, h⟩⟩⟩
  · simp [dropKeyword, dropApiKey_append h]
  all_goals
    obtain ⟨c, cs', rfl, hc⟩ := dropWord_head h
    have h' := dropWord_append h tail
    rw [cons_append] at h' ⊢
    simp [dropKeyword, h', dropApiKey_cons_of_ne, dropWord_cons_of_ne, hc]

theorem dropSeparator_eq_some {rest : List Char} (h : dropSeparator cs = some rest) :
    ∃ sep tail, cs.dropWhile isSpace = sep :: tail ∧ (sep = ':' ∨ sep = '=') ∧
      rest = tail.dropWhile isSpace := by
  rw [dropSeparator] at h
  split at h
  · rename_i sep tail hcs
    split at h
    · rename_i hsep
      exact ⟨sep, tail, hcs, hsep, (Option.some.inj h).symm⟩
    · cases h
  · cases h

theorem dropValue_eq_some {rest : List Char} (h : dropValue cs = some rest) :
    ∃ c tail, cs = c :: tail ∧ isValueChar c = true := by
  cases cs with
  | nil => simp [dropValue] at h
  | cons c tail =>
    rw [dropValue] at h
    split at h
    · rename_i hc
      exact ⟨c, tail, rfl, hc⟩
    · cases h

theorem dropSecret_append (h : (dropSecret cs).isSome) (tail : List Char) :
    (dropSecret (cs ++ tail)).isSome := by
  obtain ⟨rest, hrest⟩ := Option.isSome_iff_exists.mp h
  simp only [dropSecret, Option.bind_eq_some_iff] at hrest
  obtain ⟨afterSep, ⟨afterKey, hkey, hsep⟩, hvalue⟩ := hrest
  obtain ⟨sep, rest', hsep', hmatch, rfl⟩ := dropSeparator_eq_some hsep
  obtain ⟨v, rest'', hv, hvalue'⟩ := dropValue_eq_some hvalue
  have hsep'' : dropSeparator (afterKey ++ tail) = some (rest'.dropWhile isSpace ++ tail) := by
    rw [dropSeparator, dropWhile_append, hsep']
    simp [hmatch, dropWhile_append, hv]
  simp only [dropSecret, dropKeyword_append hkey, Option.bind_some, hsep'']
  simp [hv, dropValue, hvalue']

theorem Clean.of_append {tail : List Char} (h : Clean (cs ++ tail)) : Clean cs := by
  induction cs with
  | nil => trivial
  | cons c cs ih =>
    refine ⟨?_, ih h.2⟩
    by_contra hsome
    have hlonger := dropSecret_append (Option.isSome_iff_ne_none.mpr hsome) tail
    have hnone : dropSecret (c :: cs ++ tail) = none := h.1
    rw [hnone] at hlonger
    cases hlonger

theorem redact_take_redact (n : ℕ) (cs : List Char) :
    redact ((redact cs).take n) = (redact cs).take n := by
  have hclean : Clean ((redact cs).take n ++ (redact cs).drop n) := by
    rw [take_append_drop]
    exact clean_redactFrom 0 cs
  exact redact_of_clean hclean.of_append

@[simp] theorem sanitizeText_sanitizeText (s : String) :
    sanitizeText (sanitizeText s) = sanitizeText s := by
  simp only [sanitizeText, String.toList_ofList, redact_take_redact, take_take, Nat.min_self]

theorem redact_eq_self (h : '[' ∉ redact cs) : redact cs = cs:= by
  induction cs with
  | nil => rfl
  | cons c cs ih =>
    cases hd : dropSecret (c :: cs) with
    | some rest => simp [redact_cons_of_some hd, redactedMark] at h
    | none =>
      rw [redact_cons_of_none hd] at h ⊢
      rw [ih fun hmem => h (by simp [hmem])]

theorem eq_of_sanitizeText {s t : String} (h : sanitizeText s = t) (hmark : '[' ∉ t.toList)
    (hlength : t.toList.length < maxTextLength) : s = t := by
  have htake : (redact s.toList).take maxTextLength = t.toList := by
    rw [← h, sanitizeText, String.toList_ofList]
  have hwhole : redact s.toList = t.toList := by
    have hlen := congrArg List.length htake
    rw [length_take] at hlen
    rw [← htake, take_of_length_le]
    omega
  have hs : s.toList = t.toList := by
    rw [← hwhole]
    exact (redact_eq_self (by rwa [hwhole])).symm
  rw [← String.ofList_toList (s := s), hs, String.ofList_toList]

/-- The members whose values the store never saves. -/
def sensitiveKeys : List String :=
  ["content", "raw", "raw_content", "full_prompt", "prompt", "full_model_output",
    "model_output", "password", "secret", "token", "api_key"]

/-- A lower-case name, as far as an ASCII word can tell. -/
def lowerKey (key : String) : String :=
  String.ofList (key.toList.map fun c => if c.toNat = 0x212A then 'k' else c.toLower)

/-- Whether the value of a member is omitted. -/
def isSensitiveKey (key : String) : Bool := lowerKey key ∈ sensitiveKeys

/-- The text that stands for an omitted value. -/
def omittedMark : Json := .str "[omitted_by_task_run_store]"

mutual

/-- `sanitize` on a value that is not the value of a sensitive
member. -/
def sanitizeValue : Json → Json
  | .null => .null
  | .bool b => .bool b
  | .int n => .int n
  | .float t => .float t
  | .str s => .str (sanitizeText s)
  | .list items => .list (sanitizeItems items)
  | .obj fields => .obj (sanitizeFields fields)

def sanitizeItems : List Json → List Json
  | [] => []
  | v :: items => sanitizeValue v :: sanitizeItems items

/-- Each member is sanitized under its own name. -/
def sanitizeFields : List (String × Json) → List (String × Json)
  | [] => []
  | (key, v) :: fields =>
    (key, if isSensitiveKey key then omittedMark else sanitizeValue v) :: sanitizeFields fields

end

/-- `sanitize`. -/
def sanitize (key : String) (v : Json) : Json :=
  if isSensitiveKey key then omittedMark else sanitizeValue v

theorem sanitizeItems_eq_map (items : List Json) :
    sanitizeItems items = items.map sanitizeValue := by
  induction items with
  | nil => rfl
  | cons v items ih => rw [sanitizeItems, ih, map_cons]

theorem sanitizeFields_eq_map (fields : List (String × Json)) :
    sanitizeFields fields = fields.map fun f => (f.1, sanitize f.1 f.2) := by
  induction fields with
  | nil => rfl
  | cons f fields ih => rw [sanitizeFields, ih, map_cons, sanitize]

@[simp] theorem sanitizeValue_sanitizeValue (v : Json) :
    sanitizeValue (sanitizeValue v) = sanitizeValue v := by
  induction v using Json.induction with
  | hnull | hbool | hint | hfloat => rfl
  | hstr s => simp only [sanitizeValue, sanitizeText_sanitizeText]
  | hlist items ih =>
    simp only [sanitizeValue, sanitizeItems_eq_map, map_map]
    congr 1
    exact map_congr_left ih
  | hobj fields ih =>
    simp only [sanitizeValue, sanitizeFields_eq_map, map_map]
    congr 1
    refine map_congr_left fun f hf => ?_
    simp only [Function.comp_apply, sanitize]
    split
    · rfl
    · rw [ih f hf]

/-- The pattern of a secret is found in a text. -/
def HasSecret (cs : List Char) : Prop := ∃ before rest, cs = before ++ rest ∧ dropSecret rest ≠ none

theorem Clean.not_hasSecret (h : Clean cs) : ¬HasSecret cs := by
  rintro ⟨before, rest, rfl, hsecret⟩
  induction before with
  | nil =>
    cases rest with
    | nil => exact hsecret rfl
    | cons c rest => exact hsecret h.1
  | cons c before ih => exact ih h.2

theorem clean_sanitizeText (s : String) : Clean (sanitizeText s).toList := by
  have hclean : Clean ((redact s.toList).take maxTextLength ++
      (redact s.toList).drop maxTextLength) := by
    rw [take_append_drop]
    exact clean_redactFrom 0 _
  rw [sanitizeText, String.toList_ofList]
  exact hclean.of_append

/-- A text is one of the values of a document, at some depth. -/
inductive HasText (s : String) : Json → Prop
  | text : HasText s (.str s)
  | item {items : List Json} {v : Json} (hv : v ∈ items) : HasText s v → HasText s (.list items)
  | member {fields : List (String × Json)} {f : String × Json} (hf : f ∈ fields) :
    HasText s f.2 → HasText s (.obj fields)

theorem clean_of_sanitize {s key : String} {v : Json} (h : HasText s (sanitize key v)) :
    Clean s.toList := by
  have homitted : ∀ {s}, HasText s omittedMark → Clean s.toList := fun h => by
    cases h
    simp [Clean, dropSecret, dropKeyword, dropApiKey, dropWord, foldCase]
  have hvalue : ∀ v : Json, HasText s (sanitizeValue v) → Clean s.toList := by
    intro v
    induction v using Json.induction with
    | hnull | hbool | hint | hfloat => exact fun h => nomatch h
    | hstr t =>
      intro h
      rw [sanitizeValue] at h
      cases h
      exact clean_sanitizeText t
    | hlist items ih =>
      intro h
      rw [sanitizeValue, sanitizeItems_eq_map] at h
      cases h with
      | item hv h =>
        obtain ⟨v, hmem, rfl⟩ := mem_map.mp hv
        exact ih v hmem h
    | hobj fields ih =>
      intro h
      rw [sanitizeValue, sanitizeFields_eq_map] at h
      cases h with
      | member hf h =>
        obtain ⟨f, hmem, rfl⟩ := mem_map.mp hf
        dsimp only [sanitize] at h
        split at h
        · exact homitted h
        · exact ih f hmem h
  rw [sanitize] at h
  split at h
  · exact homitted h
  · exact hvalue v h

/-- What the store saves holds no secret in any text, and sanitizing it again changes nothing. -/
theorem sanitize_is_safe (key : String) (v : Json) :
    (∀ s, HasText s (sanitize key v) → ¬HasSecret s.toList) ∧
      sanitize key (sanitize key v) = sanitize key v := by
  refine ⟨fun s h => (clean_of_sanitize h).not_hasSecret, ?_⟩
  unfold sanitize
  split
  · rfl
  · exact sanitizeValue_sanitizeValue v

end AIpinho.Runtime
