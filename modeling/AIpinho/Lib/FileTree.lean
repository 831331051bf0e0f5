import AIpinho.Lib.Listing
import Mathlib.Data.List.Basic

/-!
# File trees

The directories and files of a system without links. A path is the list of its names from the
last one up to the root, so the parent of a path is its tail. A call that is refused gives
`none`; a path with more than `limit` names is refused.
-/

namespace AIpinho.Lib

open List

abbrev FilePath := List String

/-- What is at a path. -/
inductive FileEntry (β : Type)
  /-- A directory. -/
  | dir
  | file (content : β)
  deriving DecidableEq

abbrev FileTree (β : Type) := List (FilePath × FileEntry β)

namespace FileTree

variable {β : Type}

/-- What is at a path. The root is always a directory. -/
def at? (t : FileTree β) (p : FilePath) : Option (FileEntry β) :=
  if p = [] then some .dir else t.lookup p

def isDir (t : FileTree β) (p : FilePath) : Bool :=
  match t.at? p with
  | some .dir => true
  | _ => false

def isFile (t : FileTree β) (p : FilePath) : Bool :=
  match t.at? p with
  | some (.file _) => true
  | _ => false

def isThere (t : FileTree β) (p : FilePath) : Bool := (t.at? p).isSome

def content? (t : FileTree β) (p : FilePath) : Option β :=
  match t.at? p with
  | some (.file content) => some content
  | _ => none

def put (t : FileTree β) (p : FilePath) (e : FileEntry β) : FileTree β := (p, e) :: t

def children (t : FileTree β) (p : FilePath) : List String :=
  (t.filterMap fun entry =>
    match entry.1 with
    | name :: parent => if parent = p then some name else none
    | [] => none).eraseDups

def filesBelow (t : FileTree β) (p : FilePath) : List FilePath :=
  ((t.map Prod.fst).filter fun q => p.isSuffixOf q && q ≠ p && t.isFile q).eraseDups

def makeMissing : FileTree β → FilePath → Option (FileTree β)
  | t, [] => some t
  | t, name :: parent =>
    match t.at? (name :: parent) with
    | some .dir => some t
    | some (.file _) => none
    | none => (makeMissing t parent).map fun t => t.put (name :: parent) .dir

/-- `Path.mkdir` with `parents` and `exist_ok`. -/
def makeDirs (limit : ℕ) (t : FileTree β) (p : FilePath) : Option (FileTree β) :=
  if p.length ≤ limit then makeMissing t p else none

/-- `os.makedirs`. -/
def makeDirsOk (limit : ℕ) (t : FileTree β) (p : FilePath) (existOk : Bool) : Option (FileTree β) :=
  if t.isThere p then (if existOk && t.isDir p then some t else none) else makeDirs limit t p

def writeFile (limit : ℕ) (t : FileTree β) (p : FilePath) (content : β) : Option (FileTree β) :=
  if t.isDir p then none
  else if t.isDir p.tail && p.length ≤ limit then some (t.put p (.file content))
  else none

def renamed (src dst : FilePath) : FileTree β → FileTree β
  | [] => []
  | (q, e) :: t =>
    if src <:+ q then (q.take (q.length - src.length) ++ dst, e) :: renamed src dst t
    else if dst <:+ q then renamed src dst t
    else (q, e) :: renamed src dst t

/-- `os.rename`. -/
def rename (limit : ℕ) (t : FileTree β) (src dst : FilePath) : Option (FileTree β) :=
  if src = dst then (if t.isThere src then some t else none)
  else if src.isSuffixOf dst || !t.isThere src || !t.isDir dst.tail || limit < dst.length then none
  else if t.isDir dst && !(t.isDir src && (t.children dst).isEmpty) then none
  else if t.isFile dst && t.isDir src then none
  else some (renamed src dst t)

/-- `shutil.move`. A directory takes what is moved to it under its own name, unless it has
that name already. -/
def move (limit : ℕ) (t : FileTree β) (src dst : FilePath) : Option (FileTree β) :=
  if t.isDir dst then
    if src = dst then rename limit t src dst
    else
      match src with
      | [] => none
      | name :: _ =>
        if t.isThere (name :: dst) then none else rename limit t src (name :: dst)
  else rename limit t src dst

/-- Where a copy goes: under its name into a directory, or to the path itself. -/
def copyTarget (t : FileTree β) (src dst : FilePath) : FilePath :=
  if t.isDir dst then src.take 1 ++ dst else dst

/-- `shutil.copy2`. -/
def copyFile (limit : ℕ) (t : FileTree β) (src dst : FilePath) : Option (FileTree β) :=
  if copyTarget t src dst = src then none
  else (t.content? src).bind fun content => writeFile limit t (copyTarget t src dst) content

/-- Copy the entries of a directory with `copyEntry`, on to the end also after one that
failed. -/
def copyEntries (copyEntry : FileTree β → String → FileTree β × Bool) :
    List String → FileTree β → FileTree β × Bool
  | [], t => (t, true)
  | name :: names, t =>
    let (t, ok) := copyEntry t name
    let (t, rest) := copyEntries copyEntry names t
    (t, ok && rest)

/-- `shutil.copytree`, with what is left when it fails on its way. Each directory is listed
before its copy is made, so a directory may be copied into itself; the depth of the copy is
bounded by `limit`, and so is the recursion. -/
def copyTree (limit : ℕ) : ℕ → FileTree β → FilePath → FilePath → Bool → FileTree β × Bool
  | 0, t, _, _, _ => (t, false)
  | depth + 1, t, src, dst, existOk =>
    if t.isDir src then
      match makeDirsOk limit t dst existOk with
      | none => (t, false)
      | some made =>
        copyEntries (fun t' name =>
          if t.isDir (name :: src) then
            copyTree limit depth t' (name :: src) (name :: dst) existOk
          else
            match copyFile limit t' (name :: src) (name :: dst) with
            | none => (t', false)
            | some t' => (t', true)) (t.children src) made
    else (t, false)

variable {t t' : FileTree β} {p q root : FilePath} {limit : ℕ}

theorem at?_put (hp : p ≠ []) (e : FileEntry β) (q : FilePath) :
    (t.put p e).at? q = if q = p then some e else t.at? q := by
  unfold put at?
  by_cases hq : q = p
  · subst hq
    simp [hp]
  · have hne : (q == p) = false := beq_eq_false_iff_ne.mpr hq
    rw [lookup_cons, hne, if_neg hq]

theorem isDir_iff : t.isDir p = true ↔ t.at? p = some .dir := by
  unfold isDir
  split
  · rename_i h
    simp [h]
  · rename_i h
    simp only [Bool.false_eq_true, false_iff]
    exact h

theorem isFile_iff : t.isFile p = true ↔ ∃ content, t.at? p = some (.file content) := by
  unfold isFile
  split
  · rename_i content h
    simp [h]
  · rename_i h
    simp only [Bool.false_eq_true, false_iff, not_exists]
    exact h

theorem isThere_iff : t.isThere p = true ↔ ∃ e, t.at? p = some e := Option.isSome_iff_exists

theorem isThere_of_isDir (h : t.isDir p = true) : t.isThere p = true :=
  isThere_iff.mpr ⟨_, isDir_iff.mp h⟩

/-- What is there lies in a directory. -/
def WellFormed (t : FileTree β) : Prop :=
  ∀ p e, p ≠ [] → t.at? p = some e → t.isDir p.tail = true

/-- Everything that changes lies in `root`, and `root` is a directory before and after. -/
structure StaysIn (root : FilePath) (t t' : FileTree β) : Prop where
  elsewhere : ∀ p, ¬root <:+ p → t'.at? p = t.at? p
  before : t.isDir root = true
  after : t'.isDir root = true
  /-- What is there lies in a directory, also afterwards. -/
  wellFormed : WellFormed t → WellFormed t'

theorem StaysIn.refl (h : t.isDir root = true) : StaysIn root t t :=
  ⟨fun _ _ => rfl, h, h, fun hw => hw⟩

theorem StaysIn.trans {t'' : FileTree β} (h : StaysIn root t t') (h' : StaysIn root t' t'') :
    StaysIn root t t'' :=
  ⟨fun p hp => (h'.elsewhere p hp).trans (h.elsewhere p hp), h.before, h'.after,
    fun hw => h'.wellFormed (h.wellFormed hw)⟩

theorem ne_of_not_isDir (h : t.isDir root = true) (hp : ¬t.isDir p = true) : p ≠ root := by
  rintro rfl
  exact hp h

variable {e : FileEntry β} {src dst : FilePath}

theorem isDir_put (hp : p ≠ []) (hkept : t.isDir p = true → e = .dir) (hq : t.isDir q = true) :
    (t.put p e).isDir q = true := by
  rw [isDir_iff, at?_put hp]
  by_cases hqp : q = p
  · subst hqp
    rw [if_pos rfl, hkept hq]
  · rw [if_neg hqp]
    exact isDir_iff.mp hq

theorem StaysIn.put (h : t.isDir root = true) (hp : root <:+ p) (hnil : p ≠ [])
    (hparent : t.isDir p.tail = true) (hkept : t.isDir p = true → e = .dir) :
    StaysIn root t (t.put p e) := by
  refine ⟨fun q hq => ?_, h, isDir_put hnil hkept h, ?_⟩
  · rw [at?_put hnil, if_neg]
    rintro rfl
    exact hq hp
  · intro hw q e' hq hat
    rw [at?_put hnil] at hat
    apply isDir_put hnil hkept
    by_cases hqp : q = p
    · rw [hqp]
      exact hparent
    · rw [if_neg hqp] at hat
      exact hw q e' hq hat

theorem suffix_tail_of_ne (h : root <:+ p) (hne : p ≠ root) : root <:+ p.tail := by
  cases p with
  | nil => exact h
  | cons name parent =>
    rcases suffix_cons_iff.mp h with rfl | h
    · exact absurd rfl hne
    · exact h

theorem isDir_of_makeMissing (hmade : makeMissing t p = some t') : t'.isDir p = true := by
  cases p with
  | nil => simp [isDir_iff, at?]
  | cons name parent =>
    unfold makeMissing at hmade
    split at hmade
    · rename_i h
      cases hmade
      exact isDir_iff.mpr h
    · cases hmade
    · obtain ⟨made, -, rfl⟩ := Option.map_eq_some_iff.mp hmade
      rw [isDir_iff, at?_put (cons_ne_nil _ _), if_pos rfl]

theorem staysIn_makeMissing (h : t.isDir root = true) (hp : root <:+ p)
    (hmade : makeMissing t p = some t') : StaysIn root t t' := by
  induction p generalizing t' with
  | nil =>
    cases hmade
    exact StaysIn.refl h
  | cons name parent ih =>
    unfold makeMissing at hmade
    split at hmade
    · cases hmade
      exact StaysIn.refl h
    · cases hmade
    · rename_i hnone
      obtain ⟨made, hparent, rfl⟩ := Option.map_eq_some_iff.mp hmade
      have hne : name :: parent ≠ root := by
        rintro rfl
        rw [isDir_iff, hnone] at h
        cases h
      have hin := ih (suffix_tail_of_ne hp hne) hparent
      exact hin.trans (StaysIn.put hin.after hp (cons_ne_nil _ _)
        (isDir_of_makeMissing hparent) fun _ => rfl)

theorem makeMissing_of_makeDirs (hmade : makeDirs limit t p = some t') :
    makeMissing t p = some t' := by
  unfold makeDirs at hmade
  split at hmade
  · exact hmade
  · cases hmade

theorem staysIn_makeDirs (h : t.isDir root = true) (hp : root <:+ p)
    (hmade : makeDirs limit t p = some t') : StaysIn root t t' :=
  staysIn_makeMissing h hp (makeMissing_of_makeDirs hmade)

theorem makeMissing_of_isDir (h : t.isDir p = true) : makeMissing t p = some t := by
  cases p with
  | nil => rfl
  | cons name parent =>
    unfold makeMissing
    rw [isDir_iff.mp h]

theorem makeMissing_child {name : String} {parent : FilePath} (h : t.isDir parent = true)
    (hmade : makeMissing t (name :: parent) = some t') :
    t' = t ∨ t.at? (name :: parent) = none ∧ t' = t.put (name :: parent) .dir := by
  unfold makeMissing at hmade
  split at hmade
  · exact Or.inl (Option.some.inj hmade).symm
  · cases hmade
  · rename_i hnone
    rw [makeMissing_of_isDir h] at hmade
    exact Or.inr ⟨hnone, (Option.some.inj hmade).symm⟩

theorem at?_of_makeMissing (hmade : makeMissing t p = some t') (hq : t.at? q = some e) :
    t'.at? q = some e := by
  induction p generalizing t' with
  | nil =>
    cases hmade
    exact hq
  | cons name parent ih =>
    unfold makeMissing at hmade
    split at hmade
    · cases hmade
      exact hq
    · cases hmade
    · rename_i hnone
      obtain ⟨made, hparent, rfl⟩ := Option.map_eq_some_iff.mp hmade
      have hne : q ≠ name :: parent := by
        rintro rfl
        rw [hnone] at hq
        cases hq
      rw [at?_put (cons_ne_nil _ _), if_neg hne]
      exact ih hparent

theorem makeDirs_of_isDir (h : t.isDir p = true) (hmade : makeDirs limit t p = some t') :
    t' = t := by
  have hmissing := makeMissing_of_makeDirs hmade
  rw [makeMissing_of_isDir h] at hmissing
  exact (Option.some.inj hmissing).symm

theorem staysIn_makeDirs_tail (hw : WellFormed t) (h : t.isDir root = true) (hp : root <:+ p)
    (hmade : makeDirs limit t p.tail = some t') : StaysIn root t t' := by
  by_cases hroot : p = root
  · subst hroot
    have hparent : t.isDir p.tail = true := by
      cases p with
      | nil => exact h
      | cons name parent => exact hw _ _ (cons_ne_nil _ _) (isDir_iff.mp h)
    rw [makeDirs_of_isDir hparent hmade]
    exact StaysIn.refl h
  · exact staysIn_makeDirs h (suffix_tail_of_ne hp hroot) hmade

theorem staysIn_makeDirsOk (h : t.isDir root = true) (hp : root <:+ p) {existOk : Bool}
    (hmade : makeDirsOk limit t p existOk = some t') : StaysIn root t t' := by
  unfold makeDirsOk at hmade
  split at hmade
  · split at hmade
    · cases hmade
      exact StaysIn.refl h
    · cases hmade
  · exact staysIn_makeDirs h hp hmade

theorem staysIn_writeFile (h : t.isDir root = true) (hp : root <:+ p) {content : β}
    (hwritten : writeFile limit t p content = some t') : StaysIn root t t' := by
  unfold writeFile at hwritten
  split at hwritten
  · cases hwritten
  · rename_i hfile
    split at hwritten
    · rename_i hparent
      cases hwritten
      have hnil : p ≠ [] := by
        rintro rfl
        exact hfile (by simp [isDir_iff, at?])
      exact StaysIn.put h hp hnil ((Bool.and_eq_true _ _).mp hparent).1
        fun hdir => absurd hdir hfile
    · cases hwritten

theorem suffix_copyTarget (hp : root <:+ dst) : root <:+ copyTarget t src dst := by
  unfold copyTarget
  split
  · exact hp.trans (suffix_append _ _)
  · exact hp

theorem staysIn_copyFile (h : t.isDir root = true) (hp : root <:+ dst)
    (hcopied : copyFile limit t src dst = some t') : StaysIn root t t' := by
  unfold copyFile at hcopied
  split at hcopied
  · cases hcopied
  · obtain ⟨content, -, hwritten⟩ := Option.bind_eq_some_iff.mp hcopied
    exact staysIn_writeFile h (suffix_copyTarget hp) hwritten

theorem staysIn_copyEntries {copyEntry : FileTree β → String → FileTree β × Bool}
    (hentry : ∀ t name, t.isDir root = true → StaysIn root t (copyEntry t name).1)
    (names : List String) (h : t.isDir root = true) :
    StaysIn root t (copyEntries copyEntry names t).1 := by
  induction names generalizing t with
  | nil => exact StaysIn.refl h
  | cons name names ih =>
    have hfirst := hentry t name h
    exact hfirst.trans (ih hfirst.after)

theorem staysIn_copyTree {depth : ℕ} (h : t.isDir root = true) (hp : root <:+ dst)
    (existOk : Bool) : StaysIn root t (copyTree limit depth t src dst existOk).1 := by
  induction depth generalizing t src dst with
  | zero => exact StaysIn.refl h
  | succ depth ih =>
    unfold copyTree
    split
    · cases hmade : makeDirsOk limit t dst existOk with
      | none => exact StaysIn.refl h
      | some made =>
        have hin := staysIn_makeDirsOk h hp hmade
        refine hin.trans (staysIn_copyEntries ?_ _ hin.after)
        intro t₁ name h₁
        have hname : root <:+ name :: dst := hp.trans (suffix_cons _ _)
        split
        · exact ih h₁ hname
        · cases hcopied : copyFile limit t₁ (name :: src) (name :: dst) with
          | none => exact StaysIn.refl h₁
          | some t₂ => exact staysIn_copyFile h₁ hname hcopied
    · exact StaysIn.refl h

theorem take_append_sub_length (above src : FilePath) :
    (above ++ src).take ((above ++ src).length - src.length) = above := by
  rw [length_append, Nat.add_sub_cancel, take_left]

/-- What lies at a path after a rename. -/
theorem lookup_renamed (src dst p : FilePath) : (renamed src dst t).lookup p =
      if dst <:+ p then t.lookup (p.take (p.length - dst.length) ++ src)
      else if src <:+ p then none else t.lookup p := by
  induction t with
  | nil => simp [renamed]
  | cons entry t ih =>
    obtain ⟨q, e⟩ := entry
    unfold renamed
    by_cases hsrc : src <:+ q
    · rw [if_pos hsrc]
      obtain ⟨above, rfl⟩ := hsrc
      rw [take_append_sub_length, lookup_cons, ih]
      by_cases hp : dst <:+ p
      · obtain ⟨beyond, rfl⟩ := hp
        have hsame : (beyond ++ dst == above ++ dst) = (beyond ++ src == above ++ src) := by
          rw [Bool.eq_iff_iff, beq_iff_eq, beq_iff_eq, append_left_inj, append_left_inj]
        rw [if_pos (suffix_append _ _), if_pos (suffix_append _ _),
          take_append_sub_length, lookup_cons, hsame]
      · have hne : (p == above ++ dst) = false := by
          rw [beq_eq_false_iff_ne]
          rintro rfl
          exact hp (suffix_append _ _)
        rw [hne, if_neg hp, if_neg hp, lookup_cons]
        by_cases hin : src <:+ p
        · rw [if_pos hin, if_pos hin]
        · have hne' : (p == above ++ src) = false := by
            rw [beq_eq_false_iff_ne]
            rintro rfl
            exact hin (suffix_append _ _)
          rw [if_neg hin, if_neg hin, hne']
    · rw [if_neg hsrc]
      have hother : ∀ p', src <:+ p' → (p' == q) = false := by
        intro p' hp'
        rw [beq_eq_false_iff_ne]
        rintro rfl
        exact hsrc hp'
      by_cases hq : dst <:+ q
      · rw [if_pos hq, ih]
        by_cases hp : dst <:+ p
        · rw [if_pos hp, if_pos hp, lookup_cons, hother _ (suffix_append _ _)]
        · have hne : (p == q) = false := by
            rw [beq_eq_false_iff_ne]
            rintro rfl
            exact hp hq
          rw [if_neg hp, if_neg hp, lookup_cons, hne]
      · rw [if_neg hq, lookup_cons, ih]
        by_cases hp : dst <:+ p
        · have hne : (p == q) = false := by
            rw [beq_eq_false_iff_ne]
            rintro rfl
            exact hq hp
          rw [hne, if_pos hp, if_pos hp, lookup_cons, hother _ (suffix_append _ _)]
        · rw [if_neg hp, if_neg hp, lookup_cons]
          by_cases hin : src <:+ p
          · rw [if_pos hin, if_pos hin, hother p hin]
          · rw [if_neg hin, if_neg hin]

theorem rename_cases (h : rename limit t src dst = some t') :
    src = dst ∧ t' = t ∨ src ≠ dst ∧ ¬src <:+ dst ∧ t.isThere src = true ∧
      t.isDir dst.tail = true ∧ t' = renamed src dst t := by
  unfold rename at h
  split at h
  · rename_i heq
    split at h
    · exact Or.inl ⟨heq, (Option.some.inj h).symm⟩
    · cases h
  · rename_i hne
    split at h
    · cases h
    · rename_i hcond
      split at h
      · cases h
      · split at h
        · cases h
        · simp only [Bool.or_eq_true, isSuffixOf_iff_suffix, Bool.not_eq_true',
            decide_eq_true_eq, not_or, Bool.not_eq_false] at hcond
          obtain ⟨⟨⟨hsuffix, hthere⟩, hparent⟩, -⟩ := hcond
          exact Or.inr ⟨hne, hsuffix, hthere, hparent, (Option.some.inj h).symm⟩

theorem at?_renamed (hsrc : src ≠ []) (hnil : dst ≠ []) (p : FilePath) :
    FileTree.at? (renamed src dst t) p =
      if dst <:+ p then t.at? (p.take (p.length - dst.length) ++ src)
      else if src <:+ p then none else t.at? p := by
  unfold at?
  by_cases hp : p = []
  · subst hp
    rw [if_pos rfl, if_pos rfl, if_neg (fun h => hnil (suffix_nil.mp h)),
      if_neg (fun h => hsrc (suffix_nil.mp h))]
  · rw [if_neg hp, lookup_renamed, if_neg hp]
    by_cases hin : dst <:+ p
    · have hne : p.take (p.length - dst.length) ++ src ≠ [] := by simp [hsrc]
      rw [if_pos hin, if_pos hin, if_neg hne]
    · rw [if_neg hin, if_neg hin]

theorem wellFormed_renamed (hw : WellFormed t) (hsrc : src ≠ []) (hdst : ¬src <:+ dst)
    (hnil : dst ≠ []) (hparent : t.isDir dst.tail = true) : WellFormed (renamed src dst t) := by
  intro p e hp hat
  rw [at?_renamed hsrc hnil] at hat
  rw [isDir_iff, at?_renamed hsrc hnil]
  by_cases hin : dst <:+ p
  · obtain ⟨beyond, rfl⟩ := hin
    rw [if_pos (suffix_append _ _), take_append_sub_length] at hat
    cases beyond with
    | nil =>
      have hout : ¬dst <:+ dst.tail := by
        intro h
        have hle := h.length_le
        have hpos : 0 < dst.length := length_pos_iff.mpr hnil
        rw [length_tail] at hle
        omega
      have hout' : ¬src <:+ dst.tail := fun h => hdst (h.trans (tail_suffix dst))
      rw [nil_append, if_neg hout, if_neg hout']
      exact isDir_iff.mp hparent
    | cons name beyond =>
      rw [cons_append, tail_cons, if_pos (suffix_append _ _), take_append_sub_length]
      exact isDir_iff.mp (hw _ e (by simp) hat)
  · rw [if_neg hin] at hat
    by_cases hin' : src <:+ p
    · rw [if_pos hin'] at hat
      cases hat
    · rw [if_neg hin'] at hat
      have hout : ¬dst <:+ p.tail := fun h => hin (h.trans (tail_suffix p))
      have hout' : ¬src <:+ p.tail := fun h => hin' (h.trans (tail_suffix p))
      rw [if_neg hout, if_neg hout']
      exact isDir_iff.mp (hw p e hp hat)

theorem staysIn_rename (h : t.isDir root = true) (hsrc : root <:+ src) (hdst : root <:+ dst)
    (hne : dst ≠ root) (hrenamed : rename limit t src dst = some t') : StaysIn root t t' := by
  rcases rename_cases hrenamed with ⟨-, rfl⟩ | ⟨-, hout, -, hparent, rfl⟩
  · exact StaysIn.refl h
  · have hnil : dst ≠ [] := by
      rintro rfl
      exact hne (suffix_nil.mp hdst).symm
    have hsrc' : src ≠ root := by
      rintro rfl
      exact hout hdst
    have hsrcNil : src ≠ [] := by
      rintro rfl
      exact hout (nil_suffix)
    have hsrcRoot : ¬src <:+ root := fun hin => hsrc' (hin.eq_of_length_le hsrc.length_le)
    have hdstRoot : ¬dst <:+ root := fun hin => hne (hin.eq_of_length_le hdst.length_le)
    refine ⟨fun p hp => ?_, h, ?_, fun hw => wellFormed_renamed hw hsrcNil hout hnil hparent⟩
    · have hp' : ¬dst <:+ p := fun hin => hp (hdst.trans hin)
      have hp'' : ¬src <:+ p := fun hin => hp (hsrc.trans hin)
      rw [at?_renamed hsrcNil hnil, if_neg hp', if_neg hp'']
    · rw [isDir_iff, at?_renamed hsrcNil hnil, if_neg hdstRoot, if_neg hsrcRoot]
      exact isDir_iff.mp h

/-- A move in a directory leaves the directory itself, also when it is what is to be moved. -/
theorem staysIn_move (h : t.isDir root = true) (hsrc : root <:+ src) (hdst : root <:+ dst)
    (hmoved : move limit t src dst = some t') : StaysIn root t t' := by
  unfold move at hmoved
  by_cases hdir : t.isDir dst = true
  · rw [if_pos hdir] at hmoved
    split at hmoved
    · rename_i heq
      rcases rename_cases hmoved with ⟨-, rfl⟩ | ⟨hne, -⟩
      · exact StaysIn.refl h
      · exact absurd heq hne
    · cases src with
      | nil => cases hmoved
      | cons name parent =>
        dsimp only at hmoved
        split at hmoved
        · cases hmoved
        · refine staysIn_rename h hsrc (hdst.trans (suffix_cons _ _)) ?_ hmoved
          rintro rfl
          have hle := hdst.length_le
          rw [length_cons] at hle
          omega
  · rw [if_neg hdir] at hmoved
    exact staysIn_rename h hsrc hdst (ne_of_not_isDir h hdir) hmoved

theorem WellFormed.nothing_below (hw : WellFormed t) (hp : ¬t.isThere p = true) (above : FilePath) :
    ¬t.isThere (above ++ p) = true := by
  induction above with
  | nil => exact hp
  | cons name above ih =>
    intro hthere
    obtain ⟨e, hat⟩ := isThere_iff.mp hthere
    exact ih (isThere_of_isDir (hw _ e (by simp) hat))

theorem rename_new (hw : WellFormed t) (hsrc : src ≠ []) (hnew : ¬t.isThere dst = true)
    (hrenamed : rename limit t src dst = some t') :
    WellFormed t' ∧ (∀ p, ¬src <:+ p → ¬dst <:+ p → t'.at? p = t.at? p) ∧
      ∀ p e, ¬src <:+ p → t.at? p = some e → t'.at? p = some e := by
  rcases rename_cases hrenamed with ⟨-, rfl⟩ | ⟨-, hout, -, hparent, rfl⟩
  · exact ⟨hw, fun _ _ _ => rfl, fun _ _ _ hat => hat⟩
  · have hnil : dst ≠ [] := by
      rintro rfl
      exact hnew (by simp [isThere, at?])
    refine ⟨wellFormed_renamed hw hsrc hout hnil hparent, fun p hp hp' => ?_, fun p e hp hat => ?_⟩
    · rw [at?_renamed hsrc hnil, if_neg hp', if_neg hp]
    · have hp' : ¬dst <:+ p := by
        rintro ⟨above, rfl⟩
        exact hw.nothing_below hnew above (isThere_iff.mpr ⟨e, hat⟩)
      rw [at?_renamed hsrc hnil, if_neg hp', if_neg hp, hat]

theorem mem_keys (hp : p ≠ []) (h : t.at? p = some e) : p ∈ t.map Prod.fst := by
  rw [at?, if_neg hp] at h
  obtain ⟨before, after, heq, -⟩ := lookup_eq_some_iff.mp h
  rw [heq]
  simp

theorem wellFormed_of_keys (h : ∀ p ∈ t.map Prod.fst, t.isDir p.tail = true) : WellFormed t :=
  fun p _ hp hat => h p (mem_keys hp hat)

theorem not_isDir_of_isFile (h : t.isFile p = true) : ¬t.isDir p = true := by
  intro hdir
  obtain ⟨content, hat⟩ := isFile_iff.mp h
  rw [isDir_iff.mp hdir] at hat
  cases hat

theorem WellFormed.nothing_below_file (hw : WellFormed t) (hp : t.isFile p = true)
    {name : String} (above : FilePath) : ¬t.isThere (above ++ name :: p) = true := by
  have hdirect : ¬t.isThere (name :: p) = true := by
    intro hthere
    obtain ⟨e, hat⟩ := isThere_iff.mp hthere
    exact not_isDir_of_isFile hp (hw (name :: p) e (by simp) hat)
  exact hw.nothing_below hdirect above

theorem isThere_of_isFile (h : t.isFile p = true) : t.isThere p = true := by
  obtain ⟨content, hat⟩ := isFile_iff.mp h
  exact isThere_iff.mpr ⟨_, hat⟩

theorem mem_filesBelow : q ∈ t.filesBelow p ↔ p <:+ q ∧ q ≠ p ∧ t.isFile q = true := by
  unfold filesBelow
  rw [mem_eraseDups, mem_filter]
  simp only [Bool.and_eq_true, isSuffixOf_iff_suffix, decide_eq_true_eq, and_assoc]
  constructor
  · rintro ⟨-, h⟩
    exact h
  · rintro ⟨hsuffix, hne, hfile⟩
    refine ⟨?_, hsuffix, hne, hfile⟩
    obtain ⟨content, hat⟩ := isFile_iff.mp hfile
    have hnil : q ≠ [] := by
      rintro rfl
      simp [at?] at hat
    exact mem_keys hnil hat

theorem nodup_filesBelow (t : FileTree β) (p : FilePath) : (t.filesBelow p).Nodup :=
  eraseDups_nodup _

end FileTree

end AIpinho.Lib
