import AIpinho.Runtime.PayloadRefs

/-!
# Tidy documents

What the store writes is sanitized, except for what it puts inside the references
itself. Sanitizing, spilling and reading back keep a document tidy, and a payload file
holds a sanitized value.
-/

namespace AIpinho.Runtime

open List Lib

def isHexDigit (c : Char) : Bool :=
  ['0', '1', '2', '3', '4', '5', '6', '7', '8', '9', 'a', 'b', 'c', 'd', 'e', 'f'].contains c

/-- A digest has 64 hexadecimal digits. -/
structure Codec.IsSha256 (codec : Codec) : Prop where
  hex : ∀ v, (codec.digest v).toList.all isHexDigit = true
  length : ∀ v, (codec.digest v).toList.length = 64

/-- What `_run_dir` accepts, of a length that a file system accepts. -/
structure IsRunId (runId : String) : Prop where
  /-- The pattern `task_run_[a-f0-9]+`. -/
  pattern : ∃ digits, runId.toList = "task_run_".toList ++ digits ∧
    digits.all isHexDigit = true
  length : runId.toList.length ≤ 255

/-- A text without a colon and an equals sign. -/
def hasNoSeparator (cs : List Char) : Prop := ':' ∉ cs ∧ '=' ∉ cs

theorem dropWord_suffix {word cs rest : List Char} (h : dropWord word cs = some rest) :
    rest <:+ cs := by
  induction word generalizing cs with
  | nil =>
    rw [dropWord, Option.some.injEq] at h
    exact h ▸ suffix_rfl
  | cons letter word ih =>
    obtain ⟨c, tail, rfl, hc⟩ := dropWord_head h
    rw [dropWord, if_pos hc] at h
    exact (ih h).trans (suffix_cons c tail)

theorem dropJoin_suffix (cs : List Char) : dropJoin cs <:+ cs := by
  cases cs with
  | nil => exact suffix_rfl
  | cons c cs =>
    rw [dropJoin]
    split
    · exact suffix_cons c cs
    · exact suffix_rfl

theorem dropKeyword_suffix {cs rest : List Char} (h : dropKeyword cs = some rest) :
    rest <:+ cs := by
  simp only [dropKeyword, Option.or_eq_some_iff] at h
  rcases h with h | ⟨-, h | ⟨-, h | ⟨-, h⟩⟩⟩
  · obtain ⟨mid, hmid, hkey⟩ := Option.bind_eq_some_iff.mp h
    exact (dropWord_suffix hkey).trans ((dropJoin_suffix mid).trans (dropWord_suffix hmid))
  · exact dropWord_suffix h
  · exact dropWord_suffix h
  · exact dropWord_suffix h

theorem dropSecret_eq_none {cs : List Char} (h : hasNoSeparator cs) : dropSecret cs = none := by
  by_contra hsome
  obtain ⟨rest, hrest⟩ := Option.ne_none_iff_exists'.mp hsome
  obtain ⟨afterSep, hbind, -⟩ := Option.bind_eq_some_iff.mp hrest
  obtain ⟨afterKey, hkey, hsep⟩ := Option.bind_eq_some_iff.mp hbind
  obtain ⟨sep, tail, hdrop, hsep, -⟩ := dropSeparator_eq_some hsep
  have hmem : sep ∈ cs := by
    apply (dropKeyword_suffix hkey).mem
    apply (dropWhile_suffix isSpace).mem
    rw [hdrop]
    exact mem_cons_self
  rcases hsep with rfl | rfl
  · exact h.1 hmem
  · exact h.2 hmem

theorem sanitizeText_of_hasNoSeparator {s : String} (h : hasNoSeparator s.toList)
    (hlength : s.toList.length ≤ maxTextLength) : sanitizeText s = s := by
  have hredact : ∀ cs : List Char, hasNoSeparator cs → redact cs = cs := by
    intro cs hcs
    induction cs with
    | nil => rfl
    | cons c cs ih =>
      have hrest : hasNoSeparator cs :=
        ⟨fun hmem => hcs.1 (mem_cons_of_mem c hmem), fun hmem => hcs.2 (mem_cons_of_mem c hmem)⟩
      rw [redact_cons_of_none (dropSecret_eq_none hcs), ih hrest]
  rw [sanitizeText, hredact _ h, take_of_length_le hlength, String.ofList_toList]

theorem hasNoSeparator_append {cs ds : List Char} (hcs : hasNoSeparator cs)
    (hds : hasNoSeparator ds) : hasNoSeparator (cs ++ ds) := by
  unfold hasNoSeparator at hcs hds ⊢
  simp only [mem_append, not_or]
  exact ⟨⟨hcs.1, hds.1⟩, ⟨hcs.2, hds.2⟩⟩

theorem hasNoSeparator_of_hex {cs : List Char} (h : cs.all isHexDigit = true) :
    hasNoSeparator cs := by
  rw [all_eq_true] at h
  constructor
  · intro hmem
    have hcolon := h _ hmem
    revert hcolon
    decide
  · intro hmem
    have hequals := h _ hmem
    revert hequals
    decide

section

variable {codec : Codec} {runId : String}

theorem sanitizeText_contentRef (hcodec : codec.IsSha256) (hrun : IsRunId runId) (v : Json) :
    sanitizeText (contentRef runId (codec.digest v)) = contentRef runId (codec.digest v) := by
  have htext : (contentRef runId (codec.digest v)).toList = runId.toList ++
      ("/payload_refs/".toList ++ ((codec.digest v).toList ++ ".json".toList)) := by
    simp only [contentRef, String.toList_append]
  have hdigest := hasNoSeparator_of_hex (hcodec.hex v)
  have hname : hasNoSeparator runId.toList := by
    obtain ⟨digits, hdigits, hhex⟩ := hrun.pattern
    rw [hdigits]
    exact hasNoSeparator_append ⟨by decide, by decide⟩ (hasNoSeparator_of_hex hhex)
  apply sanitizeText_of_hasNoSeparator
  · rw [htext]
    exact hasNoSeparator_append hname (hasNoSeparator_append ⟨by decide, by decide⟩
      (hasNoSeparator_append hdigest ⟨by decide, by decide⟩))
  · have hlength := hrun.length
    have hdigestLength := hcodec.length v
    have hdir : "/payload_refs/".toList.length = 14 := by decide
    have hjson : ".json".toList.length = 5 := by decide
    rw [htext, length_append, length_append, length_append, maxTextLength]
    omega

end

/-- A value that is neither a list nor an object. -/
def isLeaf : Json → Bool
  | .list _ | .obj _ => false
  | _ => true

/-- A value that is sanitized, except inside references. -/
inductive Tidy : Json → Prop
  | leaf {v : Json} (hleaf : isLeaf v = true) (hv : sanitizeValue v = v) : Tidy v
  | ref {fields : List (String × Json)} (href : isSpilledPayloadRef fields = true)
    (hcontent : ∀ ref, textField? fields "content_ref" = some ref → sanitizeText ref = ref) :
    Tidy (.obj fields)
  | list {items : List Json} (hitems : ∀ v ∈ items, Tidy v) : Tidy (.list items)
  | obj {fields : List (String × Json)} (hfields : ∀ f ∈ fields, Tidy f.2)
    (hsensitive : ∀ f ∈ fields, isSensitiveKey f.1 = true → f.2 = omittedMark) :
    Tidy (.obj fields)

theorem tidy_omittedMark : Tidy omittedMark := .leaf rfl (by decide)

theorem text?_sanitizeValue (v : Json) : (sanitizeValue v).text? = v.text?.map sanitizeText := by
  cases v <;> rfl

theorem textField?_sanitizeFields {name : String} (hname : isSensitiveKey name = false)
    (fields : List (String × Json)) :
    textField? (sanitizeFields fields) name = (textField? fields name).map sanitizeText := by
  induction fields with
  | nil => rfl
  | cons f fields ih =>
    obtain ⟨key, v⟩ := f
    unfold textField? at ih ⊢
    rw [sanitizeFields, lookup_cons, lookup_cons]
    by_cases hkey : name = key
    · subst hkey
      simp [hname, text?_sanitizeValue]
    · rw [beq_eq_false_iff_ne.mpr hkey]
      exact ih

theorem isSpilledPayloadRef_iff (fields : List (String × Json)) :
    isSpilledPayloadRef fields = true ↔ (textField? fields "content_ref").isSome = true ∧
        textField? fields "reason_code" = some spilledReason ∧
        (textField? fields "hash").isSome = true := by
  simp only [isSpilledPayloadRef, Bool.and_eq_true, beq_iff_eq, and_assoc]

@[simp] theorem isSpilledPayloadRef_sanitizeFields (fields : List (String × Json)) :
    isSpilledPayloadRef (sanitizeFields fields) = isSpilledPayloadRef fields := by
  have hreason : (textField? fields "reason_code").map sanitizeText = some spilledReason ↔
      textField? fields "reason_code" = some spilledReason := by
    constructor
    · intro h
      obtain ⟨text, htext, hsanitized⟩ := Option.map_eq_some_iff.mp h
      rw [htext, eq_of_sanitizeText hsanitized (by decide) (by decide)]
    · intro h
      have hfixed : sanitizeText spilledReason = spilledReason := by decide
      rw [h, Option.map_some, hfixed]
  rw [Bool.eq_iff_iff, isSpilledPayloadRef_iff, isSpilledPayloadRef_iff,
    textField?_sanitizeFields (by decide), textField?_sanitizeFields (by decide),
    textField?_sanitizeFields (by decide), Option.isSome_map, Option.isSome_map, hreason]

theorem tidy_of_sanitized {v : Json} (h : sanitizeValue v = v) : Tidy v := by
  induction v using Json.induction with
  | hnull | hbool | hint | hfloat | hstr => exact .leaf rfl h
  | hlist items ih =>
    rw [sanitizeValue, sanitizeItems_eq_map, Json.list.injEq] at h
    exact .list fun v hv => ih v hv (map_inj_left.mp (h.trans (map_id items).symm) v hv)
  | hobj fields ih =>
    rw [sanitizeValue, sanitizeFields_eq_map, Json.obj.injEq] at h
    have hmember : ∀ f ∈ fields, sanitize f.1 f.2 = f.2 := fun f hf =>
      congrArg Prod.snd (map_inj_left.mp (h.trans (map_id fields).symm) f hf)
    refine .obj (fun f hf => ?_) fun f hf hkey => ?_
    · have hf' := hmember f hf
      rw [sanitize] at hf'
      split at hf'
      · rw [← hf']
        exact tidy_omittedMark
      · exact ih f hf hf'
    · have hf' := hmember f hf
      rw [sanitize, if_pos hkey] at hf'
      exact hf'.symm

section

variable {codec : Codec} {runId : String}

theorem tidy_payloadRef (hcodec : codec.IsSha256) (hrun : IsRunId runId) (key path : String)
    (v : Json) : Tidy (payloadRef codec runId key path v) := by
  obtain ⟨fields, hfields, href, hcontent, -⟩ := lookup_payloadRef codec runId key path v
  rw [hfields]
  refine .ref href fun ref href' => ?_
  rw [← Option.some.inj (hcontent.symm.trans href')]
  exact sanitizeText_contentRef hcodec hrun v

theorem mem_lightenItems {key path : String} {index : ℕ} {items : List Json} {w : Json}
    (hw : w ∈ lightenItems codec runId key path index items) :
    ∃ v ∈ items, ∃ path', w = lightenForInline codec runId key path' v := by
  induction items generalizing index with
  | nil => cases hw
  | cons v items ih =>
    rw [lightenItems] at hw
    rcases mem_cons.mp hw with rfl | hw
    · exact ⟨v, mem_cons_self, _, rfl⟩
    · obtain ⟨v', hv', hpath⟩ := ih hw
      exact ⟨v', mem_cons_of_mem _ hv', hpath⟩

theorem Tidy.lighten (hcodec : codec.IsSha256) (hrun : IsRunId runId) {v : Json} (h : Tidy v)
    (key path : String) : Tidy (lightenForInline codec runId key path v) := by
  induction h generalizing key path with
  | @leaf v hleaf hv =>
    have hsame : lightenForInline codec runId key path v = v := by
      cases v <;> first | rfl | cases hleaf
    rw [hsame]
    exact .leaf hleaf hv
  | ref href hcontent =>
    rw [lightenForInline]
    split
    · exact tidy_payloadRef hcodec hrun key path _
    · refine .ref ((isSpilledPayloadRef_lightenFields ..).trans href) fun ref href' => ?_
      rw [textField?_lightenFields] at href'
      exact hcontent ref href'
  | list hitems ih =>
    rw [lightenForInline]
    split
    · exact tidy_payloadRef hcodec hrun key path _
    · refine .list fun w hw => ?_
      obtain ⟨v, hv, path', rfl⟩ := mem_lightenItems hw
      exact ih v hv key path'
  | obj hfields hsensitive ih =>
    rw [lightenForInline]
    split
    · exact tidy_payloadRef hcodec hrun key path _
    · rw [lightenFields_eq_map]
      refine .obj (forall_mem_map.mpr fun f hf => ih f hf _ _)
        (forall_mem_map.mpr fun f hf hkey => ?_)
      dsimp only
      rw [hsensitive f hf hkey]
      rfl

/-- A document stays tidy when sanitized payloads are filled in. -/
theorem Tidy.hydrate {files : PayloadFiles}
    (hfiles : ∀ ref w, files.lookup ref = some w → Runtime.sanitizeValue w = w) {v : Json}
    (h : Tidy v) : Tidy (hydratePayloadRefs files v) := by
  induction h with
  | @leaf v hleaf hv =>
    have hsame : hydratePayloadRefs files v = v := by
      cases v <;> first | rfl | cases hleaf
    rw [hsame]
    exact .leaf hleaf hv
  | @ref fields href hcontent =>
    rw [hydratePayloadRefs, if_pos href]
    split
    · exact .ref href hcontent
    · rename_i w _ hread
      obtain ⟨ref, -, hlookup⟩ := Option.bind_eq_some_iff.mp hread
      exact tidy_of_sanitized (hfiles ref w hlookup)
    · exact .ref href hcontent
  | list hitems ih =>
    have hmap : ∀ items, hydrateItems files items = items.map (hydratePayloadRefs files) := by
      intro items
      induction items with
      | nil => rfl
      | cons v items ih => rw [hydrateItems, ih, map_cons]
    rw [hydratePayloadRefs, hmap]
    exact .list (forall_mem_map.mpr ih)
  | @obj fields hfields hsensitive ih =>
    rw [hydratePayloadRefs]
    split
    · rename_i href
      split
      · exact .obj hfields hsensitive
      · rename_i w _ hread
        obtain ⟨ref, -, hlookup⟩ := Option.bind_eq_some_iff.mp hread
        exact tidy_of_sanitized (hfiles ref w hlookup)
      · exact .obj hfields hsensitive
    · rw [hydrateFields_eq_map]
      refine .obj (forall_mem_map.mpr ih) (forall_mem_map.mpr fun f hf hkey => ?_)
      dsimp only
      rw [hsensitive f hf hkey]
      rfl

end

/-- Sanitizing changes no stored payload. -/
def PayloadFiles.Sanitized (files : PayloadFiles) : Prop :=
  ∀ ref w, files.lookup ref = some w → sanitizeValue w = w

def PayloadFiles.Holds (codec : Codec) (runId : String) (files : PayloadFiles) (v : Json) : Prop :=
  ∃ w, files.lookup (contentRef runId (codec.digest v)) = some w ∧ w.sorted = v.sorted

section

variable {codec : Codec} {runId : String} {files : PayloadFiles}

theorem PayloadFiles.lookup_write_cases {ref : String} {v w : Json}
    (h : (files.write codec runId v).lookup ref = some w) :
    files.lookup ref = some w ∨ ref = contentRef runId (codec.digest v) ∧ w = v := by
  rw [write] at h
  split at h
  · exact .inl h
  · rw [lookup_append, Option.or_eq_some_iff] at h
    rcases h with h | ⟨-, h⟩
    · exact .inl h
    · rw [lookup_cons] at h
      split at h
      · rename_i heq
        exact .inr ⟨eq_of_beq heq, (Option.some.inj h).symm⟩
      · cases h

theorem PayloadFiles.Sanitized.write (h : files.Sanitized) {v : Json}
    (hv : sanitizeValue v = v) : (files.write codec runId v).Sanitized := by
  intro ref w hw
  rcases lookup_write_cases hw with hw | ⟨-, rfl⟩
  · exact h ref w hw
  · exact hv

theorem PayloadFiles.Sanitized.writeAll (h : files.Sanitized) {payloads : List Json}
    (hpayloads : ∀ p ∈ payloads, sanitizeValue p = p) :
    (files.writeAll codec runId payloads).Sanitized := by
  induction payloads generalizing files with
  | nil => exact h
  | cons p payloads ih =>
    rw [forall_mem_cons] at hpayloads
    exact ih (h.write hpayloads.1) hpayloads.2

end

mutual

theorem sanitized_spilledPayloads {key : String} :
    ∀ {v : Json}, sanitizeValue v = v → ∀ p ∈ spilledPayloads key v, sanitizeValue p = p
  | .list items, h, p, hp => by
    rw [spilledPayloads] at hp
    split at hp
    · rw [List.mem_singleton.mp hp]
      exact h
    · rw [sanitizeValue, Json.list.injEq] at h
      exact sanitized_spilledItems h p hp
  | .obj fields, h, p, hp => by
    rw [spilledPayloads] at hp
    split at hp
    · rw [List.mem_singleton.mp hp]
      exact h
    · rw [sanitizeValue, Json.obj.injEq] at h
      exact sanitized_spilledFields h p hp
  | .null, _, _, hp | .bool _, _, _, hp | .int _, _, _, hp | .float _, _, _, hp
  | .str _, _, _, hp => by cases hp

theorem sanitized_spilledItems {key : String} : ∀ {items : List Json}, sanitizeItems items = items →
      ∀ p ∈ spilledItems key items, sanitizeValue p = p
  | [], _, _, hp => by cases hp
  | v :: items, h, p, hp => by
    rw [sanitizeItems, List.cons.injEq] at h
    rw [spilledItems, List.mem_append] at hp
    rcases hp with hp | hp
    · exact sanitized_spilledPayloads h.1 p hp
    · exact sanitized_spilledItems h.2 p hp

theorem sanitized_spilledFields : ∀ {fields : List (String × Json)},
    sanitizeFields fields = fields → ∀ p ∈ spilledFields fields, sanitizeValue p = p
  | [], _, _, hp => by cases hp
  | (key, v) :: fields, h, p, hp => by
    rw [sanitizeFields, List.cons.injEq, Prod.mk.injEq] at h
    rw [spilledFields, List.mem_append] at hp
    rcases hp with hp | hp
    · by_cases hkey : isSensitiveKey key = true
      · rw [if_pos hkey] at h
        rw [← h.1.2] at hp
        cases hp
      · rw [if_neg hkey] at h
        exact sanitized_spilledPayloads h.1.2 p hp
    · exact sanitized_spilledFields h.2 p hp

end

end AIpinho.Runtime
