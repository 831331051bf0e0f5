import AIpinho.Runtime.Sanitize
import Mathlib.Data.List.Sort

/-!
# Spilled payloads

Before a document is saved, the large values under a few heavy names are written to
content-addressed files and replaced by a reference with a short summary. A full read replaces
the references by the payloads; the lightweight read of listings by an empty value of the same
kind.
-/

namespace AIpinho.Runtime

open List Lib

/-- Two functions of the language runtime that the store calls on values: the
digest of the encoded value, and the text of a list or an object. -/
structure Codec where
  /-- The SHA-256 of the encoding with sorted names, in hexadecimal. -/
  digest : Json → String
  /-- The text a list or an object is printed with. -/
  containerText : Json → String

/-- The members whose large values are spilled. -/
def heavyRuntimeKeys : List String :=
  ["artifacts", "artifact_semantic_profiles", "artifact_semantic_validations",
    "attribute_observations", "candidate_entity_set", "contract_observation_plan", "entities",
    "evidence_set", "knowledge_records", "metadata", "observation_execution_results",
    "observation_plan", "perception", "produced_artifacts", "provenance",
    "semantic_assertions", "semantic_self_review", "specialization_hypotheses"]

/-- `TaskRunStore._should_spill`: a list of more than a hundred items, or an
encoding of more than 250000 bytes. -/
def shouldSpill : Json → Bool
  | .list items => 100 < items.length || 250000 < (Json.list items).encodedLength
  | v => 250000 < v.encodedLength

/-- Whether a value under a name is replaced by a reference. -/
def spills (key : String) (v : Json) : Bool := heavyRuntimeKeys.contains key && shouldSpill v

/-- The members of an item that a summary shows. -/
def lightRowKeys : List String :=
  ["artifact_id", "logical_path", "status", "validation_status", "content_type", "size_bytes",
    "sha256", "entity_id", "canonical_key", "attribute_name", "capability_id", "backend_id",
    "confidence", "observation_state", "gap_type", "reason_code"]

/-- `RuntimePayloadRefStore.light_row`. -/
def lightRow : Json → Json
  | .obj fields => .obj (fields.filter fun f => lightRowKeys.contains f.1)
  | v => v

/-- `RuntimePayloadRefStore.payload_summary` of a list or an object. -/
def payloadSummary : Json → Json
  | .list items =>
    .obj [("type", .str "list"), ("count", .int items.length),
      ("sample", .list ((items.take 10).map lightRow))]
  | .obj fields =>
    .obj [("type", .str "dict"),
      ("keys", .list ((((fields.map Prod.fst).insertionSort (· ≤ ·)).take 50).map .str)),
      ("counts", .obj (fields.filterMap fun f => f.2.count?.map fun n => (f.1, .int n)))]
  | _ => .obj [("type", .str "other")]

/-- The path of a payload file, relative to the root of the store. -/
def contentRef (runId digest : String) : String :=
  runId ++ ("/payload_refs/" ++ (digest ++ ".json"))

def spilledReason : String := "RUNTIME_PAYLOAD_SPILLED_TO_REF"

/-- The members of a reference. -/
def payloadRefFields (codec : Codec) (runId key path : String) (v : Json) : List (String × Json) :=
  [("content_ref", .str (contentRef runId (codec.digest v))),
    ("hash", .str (codec.digest v)), ("sha256", .str (codec.digest v)),
    ("size_bytes", .int v.encodedLength),
    ("record_count", (v.count?.map fun n => Json.int n).getD .null),
    ("reason_code", .str spilledReason), ("path", .str path), ("key", .str key),
    ("summary", payloadSummary v)]

/-- The reference `RuntimePayloadRefStore.write_payload_ref` returns. -/
def payloadRef (codec : Codec) (runId key path : String) (v : Json) : Json :=
  .obj (payloadRefFields codec runId key path v)

mutual

/-- `TaskRunStore._lighten_for_inline`: the document with its large values
replaced by references. -/
def lightenForInline (codec : Codec) (runId key path : String) : Json → Json
  | .list items =>
    if spills key (.list items) then payloadRef codec runId key path (.list items)
    else .list (lightenItems codec runId key path 0 items)
  | .obj fields =>
    if spills key (.obj fields) then payloadRef codec runId key path (.obj fields)
    else .obj (lightenFields codec runId path fields)
  | v => v

def lightenItems (codec : Codec) (runId key path : String) : ℕ → List Json → List Json
  | _, [] => []
  | index, v :: items =>
    lightenForInline codec runId key (path ++ "[" ++ toString index ++ "]") v ::
      lightenItems codec runId key path (index + 1) items

/-- The members of an object. -/
def lightenFields (codec : Codec) (runId path : String) :
    List (String × Json) → List (String × Json)
  | [] => []
  | (key, v) :: fields =>
    (key, lightenForInline codec runId key (if path = "" then key else path ++ "/" ++ key) v) ::
      lightenFields codec runId path fields

end

mutual

/-- The payloads that are written to files when a document is saved. -/
def spilledPayloads (key : String) : Json → List Json
  | .list items =>
    if spills key (.list items) then [.list items] else spilledItems key items
  | .obj fields =>
    if spills key (.obj fields) then [.obj fields] else spilledFields fields
  | _ => []

def spilledItems (key : String) : List Json → List Json
  | [] => []
  | v :: items => spilledPayloads key v ++ spilledItems key items

def spilledFields : List (String × Json) → List Json
  | [] => []
  | (key, v) :: fields => spilledPayloads key v ++ spilledFields fields

end

variable (fields : List (String × Json))

def textField? (name : String) : Option String :=
  (fields.lookup name).bind Json.text?

/-- `TaskRunStore._is_spilled_payload_ref` on the members of an object. -/
def isSpilledPayloadRef : Bool :=
  (textField? fields "content_ref").isSome &&
    textField? fields "reason_code" == some spilledReason && (textField? fields "hash").isSome

abbrev PayloadFiles := List (String × Json)

/-- `TaskRunStore._read_payload_ref`. A reference the store has written names
its file by the path relative to the root. -/
def PayloadFiles.read (files : PayloadFiles) (fields : List (String × Json)) : Option Json :=
  (textField? fields "content_ref").bind fun ref => files.lookup ref

mutual

/-- `TaskRunStore._hydrate_payload_refs`. A reference whose file is missing
stays as it is. -/
def hydratePayloadRefs (files : PayloadFiles) : Json → Json
  | .list items => .list (hydrateItems files items)
  | .obj fields =>
    if isSpilledPayloadRef fields then
      match files.read fields with
      | some .null => .obj fields
      | some v => v
      | none => .obj fields
    else .obj (hydrateFields files fields)
  | v => v

def hydrateItems (files : PayloadFiles) : List Json → List Json
  | [] => []
  | v :: items => hydratePayloadRefs files v :: hydrateItems files items

/-- The members of an object. -/
def hydrateFields (files : PayloadFiles) : List (String × Json) → List (String × Json)
  | [] => []
  | (key, v) :: fields => (key, hydratePayloadRefs files v) :: hydrateFields files fields

end

/-- What the lightweight read puts in the place of a reference. -/
def projectedRef : Json :=
  match (fields.lookup "summary").bind (·.field? "type") with
  | some (.str "list") => .list []
  | some (.str "dict") => .obj []
  | _ => .null

mutual

/-- `TaskRunStore._project_payload_refs_for_model`. -/
def projectPayloadRefsForModel : Json → Json
  | .list items => .list (projectItems items)
  | .obj fields =>
    if isSpilledPayloadRef fields then projectedRef fields else .obj (projectFields fields)
  | v => v

def projectItems : List Json → List Json
  | [] => []
  | v :: items => projectPayloadRefsForModel v :: projectItems items

/-- The members of an object. -/
def projectFields : List (String × Json) → List (String × Json)
  | [] => []
  | (key, v) :: fields => (key, projectPayloadRefsForModel v) :: projectFields fields

end

/-- `RuntimePayloadRefStore.write_serialized_payload_ref`: a payload whose file
exists is not written again. -/
def PayloadFiles.write (codec : Codec) (runId : String) (files : PayloadFiles) (v : Json) :
    PayloadFiles :=
  if (files.lookup (contentRef runId (codec.digest v))).isSome then files
  else files ++ [(contentRef runId (codec.digest v), v)]

def PayloadFiles.writeAll (codec : Codec) (runId : String) (files : PayloadFiles)
    (payloads : List Json) : PayloadFiles :=
  payloads.foldl (fun files v => files.write codec runId v) files

def memberPath (path key : String) : String := if path = "" then key else path ++ "/" ++ key

theorem lightenFields_eq_map (codec : Codec) (runId path : String)
    (fields : List (String × Json)) :
    lightenFields codec runId path fields =
      fields.map fun f => (f.1, lightenForInline codec runId f.1 (memberPath path f.1) f.2) := by
  induction fields with
  | nil => rfl
  | cons f fields ih => rw [lightenFields, ih, map_cons, memberPath]

theorem hydrateFields_eq_map (files : PayloadFiles) (fields : List (String × Json)) :
    hydrateFields files fields = fields.map fun f => (f.1, hydratePayloadRefs files f.2) := by
  induction fields with
  | nil => rfl
  | cons f fields ih => rw [hydrateFields, ih, map_cons]

variable (items : List Json)

theorem projectItems_eq_map : projectItems items = items.map projectPayloadRefsForModel := by
  induction items with
  | nil => rfl
  | cons v items ih => rw [projectItems, ih, map_cons]

theorem projectFields_eq_map :
    projectFields fields = fields.map fun f => (f.1, projectPayloadRefsForModel f.2) := by
  induction fields with
  | nil => rfl
  | cons f fields ih => rw [projectFields, ih, map_cons]

theorem spilledFields_eq_nil_iff :
    spilledFields fields = [] ↔ ∀ f ∈ fields, spilledPayloads f.1 f.2 = [] := by
  induction fields with
  | nil => simp [spilledFields]
  | cons f fields ih => simp [spilledFields, ih]

theorem mem_spilledFields {p : Json} {f : String × Json} {fields : List (String × Json)}
    (hf : f ∈ fields) (hp : p ∈ spilledPayloads f.1 f.2) : p ∈ spilledFields fields := by
  induction fields with
  | nil => cases hf
  | cons g fields ih =>
    rw [spilledFields, mem_append]
    rcases mem_cons.mp hf with rfl | hf
    · exact .inl hp
    · exact .inr (ih hf)

theorem lookup_map_snd (g : String → Json → Json) (fields : List (String × Json))
    (name : String) :
    (fields.map fun f => (f.1, g f.1 f.2)).lookup name = (fields.lookup name).map (g name) := by
  induction fields with
  | nil => rfl
  | cons f fields ih =>
    obtain ⟨key, v⟩ := f
    by_cases hname : name = key
    · subst hname
      simp
    · have hne : (name == key) = false := by simpa using hname
      simpa [lookup_cons, hne] using ih

theorem textField?_map (g : String → Json → Json) (hg : ∀ key v, (g key v).text? = v.text?)
    (fields : List (String × Json)) (name : String) :
    textField? (fields.map fun f => (f.1, g f.1 f.2)) name = textField? fields name := by
  induction fields with
  | nil => rfl
  | cons f fields ih =>
    obtain ⟨key, v⟩ := f
    by_cases hname : name = key
    · simp [textField?, hname, hg]
    · have hne : (name == key) = false := by simpa using hname
      simpa [textField?, lookup_cons, hne] using ih

theorem text?_lightenForInline (codec : Codec) (runId key path : String) (v : Json) :
    (lightenForInline codec runId key path v).text? = v.text? := by
  cases v <;> simp only [lightenForInline] <;> (try split) <;> rfl

theorem text?_projectPayloadRefsForModel (v : Json) :
    (projectPayloadRefsForModel v).text? = v.text? := by
  cases v with
  | obj fields =>
    simp only [projectPayloadRefsForModel, projectedRef]
    split
    · split <;> rfl
    · rfl
  | _ => rfl

theorem textField?_lightenFields (codec : Codec) (runId path : String)
    (fields : List (String × Json)) (name : String) :
    textField? (lightenFields codec runId path fields) name = textField? fields name := by
  rw [lightenFields_eq_map]
  exact textField?_map (fun key v => lightenForInline codec runId key (memberPath path key) v)
    (fun key v => text?_lightenForInline codec runId key _ v) fields name

theorem isSpilledPayloadRef_lightenFields (codec : Codec) (runId path : String)
    (fields : List (String × Json)) :
    isSpilledPayloadRef (lightenFields codec runId path fields) = isSpilledPayloadRef fields := by
  simp only [isSpilledPayloadRef, textField?_lightenFields]

theorem isSpilledPayloadRef_projectFields :
    isSpilledPayloadRef (projectFields fields) = isSpilledPayloadRef fields := by
  simp only [isSpilledPayloadRef, projectFields_eq_map,
    textField?_map (fun _ v => projectPayloadRefsForModel v)
      (fun _ v => text?_projectPayloadRefsForModel v)]

mutual

/-- No object inside a value reads as a reference. -/
def plain : Json → Bool
  | .list items => plainItems items
  | .obj fields => !isSpilledPayloadRef fields && plainFields fields
  | _ => true

def plainItems : List Json → Bool
  | [] => true
  | v :: items => plain v && plainItems items

/-- No object inside the members of an object reads as a reference. -/
def plainFields : List (String × Json) → Bool
  | [] => true
  | (_, v) :: fields => plain v && plainFields fields

end

@[simp] theorem plain_list : plain (.list items) = true ↔ ∀ v ∈ items, plain v = true := by
  rw [plain]
  induction items with
  | nil => simp [plainItems]
  | cons v items ih => simp [plainItems, ih]

@[simp] theorem plain_obj : plain (.obj fields) = true ↔
      isSpilledPayloadRef fields = false ∧ ∀ f ∈ fields, plain f.2 = true := by
  have hfields : plainFields fields = true ↔ ∀ f ∈ fields, plain f.2 = true := by
    induction fields with
    | nil => simp [plainFields]
    | cons f fields ih => simp only [plainFields, Bool.and_eq_true, ih, forall_mem_cons]
  simp only [plain, Bool.and_eq_true, Bool.not_eq_true', hfields]

theorem plain_project (v : Json) : plain (projectPayloadRefsForModel v) = true := by
  induction v using Json.induction with
  | hnull | hbool | hint | hfloat | hstr => rfl
  | hlist items ih =>
    rw [projectPayloadRefsForModel, projectItems_eq_map, plain_list]
    simpa using ih
  | hobj fields ih =>
    rw [projectPayloadRefsForModel]
    split
    · rw [projectedRef]
      split <;> rfl
    · rename_i href
      rw [plain_obj, isSpilledPayloadRef_projectFields]
      refine ⟨by simpa using href, ?_⟩
      rw [projectFields_eq_map, forall_mem_map]
      exact ih

theorem shouldSpill_nil_list : shouldSpill (.list []) = false := by decide

theorem shouldSpill_nil_obj : shouldSpill (.obj []) = false := by decide

theorem lookup_payloadRef (codec : Codec) (runId key path : String) (v : Json) :
    ∃ fields, payloadRef codec runId key path v = .obj fields ∧ isSpilledPayloadRef fields = true ∧
      textField? fields "content_ref" = some (contentRef runId (codec.digest v)) ∧
      projectedRef fields = projectedRef [("summary", payloadSummary v)] := by
  refine ⟨_, rfl, ?_, ?_, ?_⟩
  · simp [payloadRefFields, isSpilledPayloadRef, textField?, lookup_cons, Json.text?]
  · simp [payloadRefFields, textField?, Json.text?]
  · simp [payloadRefFields, projectedRef, lookup_cons]

variable {v : Json}

theorem hydrate_payloadRef {codec : Codec} {runId key path : String} {files : PayloadFiles}
    (hv : v ≠ .null) (hfile : files.lookup (contentRef runId (codec.digest v)) = some v) :
    hydratePayloadRefs files (payloadRef codec runId key path v) = v := by
  obtain ⟨fields, hfields, href, hcontent, -⟩ := lookup_payloadRef codec runId key path v
  have hread : files.read fields = some v := by
    rw [PayloadFiles.read, hcontent, Option.bind_some, hfile]
  rw [hfields, hydratePayloadRefs, if_pos href, hread]
  cases v <;> first | rfl | exact absurd rfl hv

theorem project_payloadRef_list (codec : Codec) (runId key path : String) (items : List Json) :
    projectPayloadRefsForModel (payloadRef codec runId key path (.list items)) = .list [] := by
  obtain ⟨fields, hfields, href, -, hproj⟩ := lookup_payloadRef codec runId key path (.list items)
  rw [hfields, projectPayloadRefsForModel, if_pos href, hproj]
  rfl

theorem project_payloadRef_obj (codec : Codec) (runId key path : String)
    (members : List (String × Json)) :
    projectPayloadRefsForModel (payloadRef codec runId key path (.obj members)) = .obj [] := by
  obtain ⟨fields, hfields, href, -, hproj⟩ := lookup_payloadRef codec runId key path (.obj members)
  rw [hfields, projectPayloadRefsForModel, if_pos href, hproj]
  rfl

/-- The full read of a saved document is the document, if the payloads are
where they were written. -/
theorem hydrate_lighten {codec : Codec} {runId : String} {files : PayloadFiles}
    (hv : plain v = true) (key path : String) (hfiles : ∀ p ∈ spilledPayloads key v,
      files.lookup (contentRef runId (codec.digest p)) = some p) :
    hydratePayloadRefs files (lightenForInline codec runId key path v) = v := by
  induction v using Json.induction generalizing key path with
  | hnull | hbool | hint | hfloat | hstr => rfl
  | hlist items ih =>
    rw [plain_list] at hv
    rw [lightenForInline]
    rw [spilledPayloads] at hfiles
    split
    · rename_i hspill
      exact hydrate_payloadRef (by simp) (hfiles _ (by simp [hspill]))
    · rename_i hspill
      rw [if_neg hspill] at hfiles
      rw [hydratePayloadRefs]
      congr 1
      -- The items are numbered from an arbitrary index.
      generalize 0 = index
      clear hspill
      induction items generalizing index with
      | nil => rfl
      | cons v items ih' =>
        rw [spilledItems] at hfiles
        simp only [forall_mem_cons] at ih hv
        rw [lightenItems, hydrateItems]
        rw [ih.1 hv.1 key _ fun p hp => hfiles p (by simp [hp])]
        rw [ih' ih.2 hv.2 fun p hp => hfiles p (by simp [hp])]
  | hobj fields ih =>
    rw [plain_obj] at hv
    rw [lightenForInline]
    rw [spilledPayloads] at hfiles
    split
    · rename_i hspill
      exact hydrate_payloadRef (by simp) (hfiles _ (by simp [hspill]))
    · rename_i hspill
      rw [if_neg hspill] at hfiles
      have href : ¬isSpilledPayloadRef (lightenFields codec runId path fields) = true := by
        simp [isSpilledPayloadRef_lightenFields, hv.1]
      rw [hydratePayloadRefs, if_neg href, hydrateFields_eq_map, lightenFields_eq_map, map_map]
      congr 1
      refine (map_congr_left fun f hf => ?_).trans (map_id fields)
      have hf' := ih f hf (hv.2 f hf) f.1 (memberPath path f.1) fun p hp =>
        hfiles p (mem_spilledFields hf hp)
      simp only [Function.comp_apply, hf', id_eq]

/-- A value without payloads is the same after lightening and projecting. -/
theorem project_lighten_eq_iff (codec : Codec) (runId : String) (hv : plain v = true)
    (key path : String) :
    projectPayloadRefsForModel (lightenForInline codec runId key path v) = v ↔
      spilledPayloads key v = [] := by
  induction v using Json.induction generalizing key path with
  | hnull => simp [lightenForInline, projectPayloadRefsForModel, spilledPayloads]
  | hbool b => simp [lightenForInline, projectPayloadRefsForModel, spilledPayloads]
  | hint | hfloat | hstr => simp [lightenForInline, projectPayloadRefsForModel, spilledPayloads]
  | hlist items ih =>
    rw [plain_list] at hv
    rw [lightenForInline, spilledPayloads]
    by_cases hspill : spills key (.list items) = true
    · rw [if_pos hspill, if_pos hspill, project_payloadRef_list]
      have hne : items ≠ [] := by
        rintro rfl
        simp [spills, shouldSpill_nil_list] at hspill
      simp [Ne.symm hne]
    · rw [if_neg hspill, if_neg hspill, projectPayloadRefsForModel, Json.list.injEq]
      generalize 0 = index
      clear hspill
      induction items generalizing index with
      | nil => simp [lightenItems, projectItems, spilledItems]
      | cons v items ih' =>
        simp only [forall_mem_cons] at ih hv
        simp only [lightenItems, projectItems, spilledItems, List.cons.injEq,
          append_eq_nil_iff, ih.1 hv.1 key, ih' ih.2 hv.2 (index + 1)]
  | hobj fields ih =>
    rw [plain_obj] at hv
    rw [lightenForInline, spilledPayloads]
    by_cases hspill : spills key (.obj fields) = true
    · rw [if_pos hspill, if_pos hspill, project_payloadRef_obj]
      have hne : fields ≠ [] := by
        rintro rfl
        simp [spills, shouldSpill_nil_obj] at hspill
      simp [Ne.symm hne]
    · have href : ¬isSpilledPayloadRef (lightenFields codec runId path fields) = true := by
        simp [isSpilledPayloadRef_lightenFields, hv.1]
      rw [if_neg hspill, if_neg hspill, projectPayloadRefsForModel, if_neg href,
        Json.obj.injEq, spilledFields_eq_nil_iff, projectFields_eq_map, lightenFields_eq_map,
        map_map]
      have hmap : ∀ gs : List (String × Json), (∀ f ∈ gs, f ∈ fields) →
          (gs.map ((fun f => (f.1, projectPayloadRefsForModel f.2)) ∘ fun f =>
            (f.1, lightenForInline codec runId f.1 (memberPath path f.1) f.2)) = gs ↔
            ∀ f ∈ gs, spilledPayloads f.1 f.2 = []) := by
        intro gs hgs
        induction gs with
        | nil => simp
        | cons g gs ihgs =>
          simp only [forall_mem_cons] at hgs
          have hg := ih g hgs.1 (hv.2 g hgs.1) g.1 (memberPath path g.1)
          simp only [map_cons, List.cons.injEq, ihgs hgs.2, forall_mem_cons]
          refine and_congr ?_ Iff.rfl
          rw [← hg]
          simp [Prod.ext_iff]
      exact hmap fields fun _ hf => hf

theorem lighten_eq_self (codec : Codec) (runId : String) (key path : String)
    (hv : spilledPayloads key v = []) : lightenForInline codec runId key path v = v := by
  induction v using Json.induction generalizing key path with
  | hnull | hbool | hint | hfloat | hstr => rfl
  | hlist items ih =>
    rw [spilledPayloads] at hv
    rw [lightenForInline]
    by_cases hspill : spills key (.list items) = true
    · simp [hspill] at hv
    · rw [if_neg hspill] at hv ⊢
      congr 1
      generalize 0 = index
      clear hspill
      induction items generalizing index with
      | nil => rfl
      | cons v items ih' =>
        simp only [spilledItems, append_eq_nil_iff] at hv
        simp only [forall_mem_cons] at ih
        rw [lightenItems, ih.1 key _ hv.1, ih' ih.2 hv.2]
  | hobj fields ih =>
    rw [spilledPayloads] at hv
    rw [lightenForInline]
    by_cases hspill : spills key (.obj fields) = true
    · simp [hspill] at hv
    · rw [if_neg hspill, spilledFields_eq_nil_iff] at hv
      rw [if_neg hspill, lightenFields_eq_map]
      congr 1
      refine (map_congr_left fun f hf => ?_).trans (map_id fields)
      rw [ih f hf f.1 _ (hv f hf), id_eq]

theorem sanitizeValue_project_lighten (codec : Codec) (runId : String) (hv : sanitizeValue v = v)
    (key path : String) :
    sanitizeValue (projectPayloadRefsForModel (lightenForInline codec runId key path v)) =
      projectPayloadRefsForModel (lightenForInline codec runId key path v) := by
  induction v using Json.induction generalizing key path with
  | hnull | hbool | hint | hfloat => rfl
  | hstr s => exact hv
  | hlist items ih =>
    rw [lightenForInline]
    split
    · rw [project_payloadRef_list]
      rfl
    · rw [sanitizeValue, sanitizeItems_eq_map, Json.list.injEq] at hv
      rw [projectPayloadRefsForModel, sanitizeValue, Json.list.injEq, sanitizeItems_eq_map]
      generalize 0 = index
      rename_i hspill
      clear hspill
      induction items generalizing index with
      | nil => rfl
      | cons v items ih' =>
        simp only [map_cons, List.cons.injEq] at hv
        simp only [forall_mem_cons] at ih
        simp only [lightenItems, projectItems, map_cons, ih.1 hv.1 key, ih' ih.2 hv.2 (index + 1)]
  | hobj fields ih =>
    rw [lightenForInline]
    split
    · rw [project_payloadRef_obj]
      rfl
    · rw [sanitizeValue, sanitizeFields_eq_map, Json.obj.injEq] at hv
      rw [projectPayloadRefsForModel]
      split
      · rw [projectedRef]
        split <;> rfl
      · rw [sanitizeValue, Json.obj.injEq, sanitizeFields_eq_map, projectFields_eq_map,
          lightenFields_eq_map, map_map, map_map, map_map]
        refine map_congr_left fun f hf => ?_
        have hf' : sanitize f.1 f.2 = f.2 :=
          congrArg Prod.snd (map_inj_left.mp (hv.trans (map_id fields).symm) f hf)
        simp only [Function.comp_apply, Prod.mk.injEq, true_and]
        rw [sanitize] at hf' ⊢
        by_cases hkey : isSensitiveKey f.1 = true
        · rw [if_pos hkey] at hf' ⊢
          rw [← hf']
          rfl
        · rw [if_neg hkey] at hf' ⊢
          exact ih f hf hf' f.1 _

theorem length_projectItems : (projectItems items).length = items.length := by
  rw [projectItems_eq_map, length_map]

theorem length_lightenItems (codec : Codec) (runId key path : String) (index : ℕ)
    (items : List Json) :
    (lightenItems codec runId key path index items).length = items.length := by
  induction items generalizing index with
  | nil => rfl
  | cons v items ih => rw [lightenItems, length_cons, ih, length_cons]

theorem two_le_encodedLength_list : 2 ≤ (Json.list items).encodedLength := by
  rw [Json.encodedLength_list, Json.encodedFrameLength]
  omega

theorem two_le_encodedLength_obj : 2 ≤ (Json.obj fields).encodedLength := by
  rw [Json.encodedLength_obj, Json.encodedFrameLength]
  omega

/-- A projected value is not longer. -/
theorem encodedLength_project_lighten (codec : Codec) (runId : String) (hv : plain v = true)
    (key path : String) :
    (projectPayloadRefsForModel (lightenForInline codec runId key path v)).encodedLength ≤
      v.encodedLength := by
  induction v using Json.induction generalizing key path with
  | hnull | hbool | hint | hfloat | hstr => exact le_refl _
  | hlist items ih =>
    rw [plain_list] at hv
    rw [lightenForInline]
    split
    · rw [project_payloadRef_list]
      exact two_le_encodedLength_list items
    · rw [projectPayloadRefsForModel, Json.encodedLength_list, Json.encodedLength_list,
        length_projectItems, length_lightenItems]
      refine Nat.add_le_add_left ?_ _
      generalize 0 = index
      rename_i hspill
      clear hspill
      induction items generalizing index with
      | nil => exact le_refl _
      | cons v items ih' =>
        simp only [forall_mem_cons] at ih hv
        rw [lightenItems, projectItems, Json.encodedItemsLength_cons, Json.encodedItemsLength_cons]
        exact Nat.add_le_add (ih.1 hv.1 key _) (ih' ih.2 hv.2 _)
  | hobj fields ih =>
    rw [plain_obj] at hv
    rw [lightenForInline]
    split
    · rw [project_payloadRef_obj]
      exact two_le_encodedLength_obj fields
    · have href : ¬isSpilledPayloadRef (lightenFields codec runId path fields) = true := by
        simp [isSpilledPayloadRef_lightenFields, hv.1]
      rw [projectPayloadRefsForModel, if_neg href, Json.encodedLength_obj, Json.encodedLength_obj]
      have hlength : (projectFields (lightenFields codec runId path fields)).length =
          fields.length := by
        rw [projectFields_eq_map, lightenFields_eq_map, length_map, length_map]
      rw [hlength]
      refine Nat.add_le_add_left ?_ _
      have hfields := hv.2
      rename_i hspill
      clear hspill href hlength hv
      induction fields with
      | nil => exact le_refl _
      | cons f fields ih' =>
        obtain ⟨name, w⟩ := f
        simp only [forall_mem_cons] at ih hfields
        rw [lightenFields, projectFields, Json.encodedFieldsLength_cons,
          Json.encodedFieldsLength_cons]
        have hhead := ih.1 hfields.1 name (if path = "" then name else path ++ "/" ++ name)
        have htail := ih' ih.2 hfields.2
        omega

/-- A projected value has nothing to spill. -/
theorem spilledPayloads_project_lighten (codec : Codec) (runId : String) (hv : plain v = true)
    (key path : String) :
    spilledPayloads key (projectPayloadRefsForModel (lightenForInline codec runId key path v)) =
      [] := by
  have hlength := encodedLength_project_lighten codec runId hv key path
  induction v using Json.induction generalizing key path with
  | hnull | hbool | hint | hfloat | hstr => rfl
  | hlist items ih =>
    rw [lightenForInline] at hlength ⊢
    by_cases hspill : spills key (.list items) = true
    · rw [if_pos hspill, project_payloadRef_list, spilledPayloads]
      simp [spills, shouldSpill_nil_list, spilledItems]
    · rw [if_neg hspill, projectPayloadRefsForModel] at hlength ⊢
      have hsmall : spills key (.list (projectItems (lightenItems codec runId key path 0 items))) =
          false := by
        simp only [spills, shouldSpill, Bool.and_eq_true, Bool.or_eq_true, decide_eq_true_eq,
          Bool.and_eq_false_iff, Bool.or_eq_false_iff, decide_eq_false_iff_not, length_projectItems,
          length_lightenItems, not_and, not_or] at hspill ⊢
        by_cases hkey : heavyRuntimeKeys.contains key = true
        · right
          have hitems := hspill hkey
          omega
        · left
          simpa using hkey
      rw [spilledPayloads, hsmall]
      rw [plain_list] at hv
      simp only [Bool.false_eq_true, if_false]
      generalize 0 = index
      clear hspill hsmall hlength
      induction items generalizing index with
      | nil => rfl
      | cons v items ih' =>
        simp only [forall_mem_cons] at ih hv
        rw [lightenItems, projectItems, spilledItems, append_eq_nil_iff]
        exact ⟨ih.1 hv.1 key _ (encodedLength_project_lighten codec runId hv.1 key _),
          ih' ih.2 hv.2 _⟩
  | hobj fields ih =>
    rw [lightenForInline] at hlength ⊢
    by_cases hspill : spills key (.obj fields) = true
    · rw [if_pos hspill, project_payloadRef_obj, spilledPayloads]
      simp [spills, shouldSpill_nil_obj, spilledFields]
    · rw [plain_obj] at hv
      have href : ¬isSpilledPayloadRef (lightenFields codec runId path fields) = true := by
        simp [isSpilledPayloadRef_lightenFields, hv.1]
      rw [if_neg hspill, projectPayloadRefsForModel, if_neg href] at hlength ⊢
      have hsmall : spills key (.obj (projectFields (lightenFields codec runId path fields))) =
          false := by
        simp only [spills, shouldSpill, Bool.and_eq_true, decide_eq_true_eq,
          Bool.and_eq_false_iff, decide_eq_false_iff_not, not_and] at hspill ⊢
        by_cases hkey : heavyRuntimeKeys.contains key = true
        · right
          have hfields := hspill hkey
          omega
        · left
          simpa using hkey
      rw [spilledPayloads, hsmall]
      simp only [Bool.false_eq_true, if_false]
      rw [spilledFields_eq_nil_iff, projectFields_eq_map, lightenFields_eq_map, map_map,
        forall_mem_map]
      intro f hf
      exact ih f hf (hv.2 f hf) f.1 _ (encodedLength_project_lighten codec runId (hv.2 f hf) f.1 _)

variable {codec : Codec} {runId : String} {files : PayloadFiles}

theorem PayloadFiles.lookup_write {ref : String} {w : Json} (h : files.lookup ref = some v) :
    (files.write codec runId w).lookup ref = some v := by
  rw [write]
  split
  · exact h
  · rw [lookup_append, h, Option.some_or]

theorem PayloadFiles.lookup_writeAll {ref : String} (h : files.lookup ref = some v)
    (payloads : List Json) : (files.writeAll codec runId payloads).lookup ref = some v := by
  induction payloads generalizing files with
  | nil => exact h
  | cons w payloads ih => exact ih (lookup_write h)

end AIpinho.Runtime
