import AIpinho.Lib.Segments

/-!
# Paths below a root

Four services ask whether a path is a root or lies below it. Three compare texts, the root
followed by a separator, and one compares `pathlib` paths. A root that ends with a separator has
nothing below it for the texts.
-/

namespace AIpinho.Policy

open List Lib

/-- The two flavours of `pathlib` paths. -/
inductive Flavour
  | posix
  | windows
  deriving DecidableEq

/-- `os.sep`. -/
def Flavour.sep : Flavour → Char
  | posix => '/'
  | windows => '\\'

/-- A component of a resolved path. -/
structure Component (flavour : Flavour) where
  text : List Char
  ne_nil : text ≠ []
  ne_dots : text ≠ ['.'] ∧ text ≠ ['.', '.']
  slash_notMem : '/' ∉ text
  sep_notMem : flavour.sep ∉ text

/-- Where an absolute path starts: at the filesystem root, on a drive or on a network share. -/
inductive Anchor : Flavour → Type
  | root : Anchor .posix
  | drive (letter : Char) (h : letter.isAlpha = true) : Anchor .windows
  | share (server name : Component .windows) : Anchor .windows

variable {flavour : Flavour}

def Anchor.drv : Anchor flavour → List Char
  | root => []
  | drive letter _ => [letter, ':']
  | share server name => '\\' :: '\\' :: (server.text ++ '\\' :: name.text)

/-- A path as `Path.resolve` returns it. -/
structure AbsolutePath (flavour : Flavour) where
  anchor : Anchor flavour
  parts : List (Component flavour)

namespace AbsolutePath

/-- `str(path)`: the drive, the root and the components. -/
def str (path : AbsolutePath flavour) : List Char :=
  path.anchor.drv ++ flavour.sep ::
    List.intercalate [flavour.sep] (path.parts.map Component.text)

/-- `path.parents`, the nearest one first. -/
def parents (path : AbsolutePath flavour) : List (AbsolutePath flavour) :=
  (List.range path.parts.length).reverse.map fun n => ⟨path.anchor, path.parts.take n⟩

end AbsolutePath

/-- What the helpers ask of the file system and of the case of characters. -/
structure PathServices (flavour : Flavour) where
  /-- `Path(value).expanduser()`. -/
  expanduser : List Char → List Char
  /-- `Path(value).resolve(strict=False)`, nothing where it raises `OSError`. -/
  resolve : List Char → Option (AbsolutePath flavour)
  /-- The lower case of a character. -/
  lower : Char → Char
  /-- Only what starts with `~` is expanded. -/
  expanduser_str : ∀ path : AbsolutePath flavour, expanduser path.str = path.str
  lower_eq_sep : ∀ c, lower c = '\\' ↔ c = '\\'

namespace PathServices

variable (services : PathServices flavour)

/-- What `os.path.normcase` makes of a character. -/
def foldChar (c : Char) : Char :=
  match flavour with
  | .posix => c
  | .windows => if c = '/' then '\\' else services.lower c

/-- `os.path.normcase`. -/
def normcase (text : List Char) : List Char := text.map services.foldChar

/-- The text that `pathlib` compares paths by. -/
def strNormcase (path : AbsolutePath flavour) : List Char :=
  match flavour with
  | .posix => path.str
  | .windows => path.str.map services.lower

/-- `_normalize_path`, `_normalize` and `normalize`. -/
def normalize (value : List Char) : Option (List Char) :=
  (services.resolve (services.expanduser value)).map fun path => services.normcase path.str

end PathServices

/-- The test of texts: the same one, or one that goes on after the root and a separator. -/
def textIsUnder (sep : Char) (path root : List Char) : Bool :=
  path = root || (root ++ [sep]).isPrefixOf path

section Helpers

variable (services : PathServices flavour)

/-- `WorkspacePolicyService._is_under`. -/
def policyIsUnder (path root : List Char) : Option Bool := do
  let normalizedPath ← services.normalize path
  let normalizedRoot ← services.normalize root
  return textIsUnder flavour.sep normalizedPath normalizedRoot

/-- `WorkspaceRoleContractService._is_under`. -/
def contractIsUnder (normalizedPath root : List Char) : Option Bool := do
  let normalizedRoot ← services.normalize root
  return textIsUnder flavour.sep normalizedPath normalizedRoot

/-- `MissionLocalResourceScopeService.is_under`. -/
def missionIsUnder (path root : List Char) : Option Bool := do
  let normalizedPath ← services.normalize path
  let normalizedRoot ← services.normalize root
  return textIsUnder flavour.sep normalizedPath normalizedRoot

/-- `Path.__eq__`. -/
def samePath (path other : AbsolutePath flavour) : Bool :=
  services.strNormcase path = services.strNormcase other

/-- `AuthorityGrantService._is_inside`. -/
def grantIsInside (path scope : List Char) : Bool :=
  match services.resolve path, services.resolve scope with
  | some target, some root =>
    samePath services target root || target.parents.any (samePath services root)
  | _, _ => false

/-- Resolving the path leaves it as it is. -/
def Normalised (path : AbsolutePath flavour) : Prop := services.resolve path.str = some path

end Helpers

/-! ### Paths as segments -/

def Anchor.segments : Anchor flavour → List (List Char)
  | root => [[]]
  | drive letter _ => [[letter, ':']]
  | share server name => [[], [], server.text, name.text]

def AbsolutePath.tail (path : AbsolutePath flavour) : List (List Char) :=
  if path.parts = [] then [[]] else path.parts.map Component.text

section Segments

variable {services : PathServices flavour} {path root : AbsolutePath flavour}

theorem Anchor.cons_drv (anchor : Anchor flavour) :
    flavour.sep :: anchor.drv = joined flavour.sep anchor.segments := by
  cases anchor <;> simp [drv, segments, Flavour.sep]

theorem AbsolutePath.cons_str (path : AbsolutePath flavour) :
    flavour.sep :: path.str = joined flavour.sep (path.anchor.segments ++ path.tail) := by
  rw [joined_append, ← Anchor.cons_drv, cons_append, str]
  congr 2
  by_cases h : path.parts = []
  · simp [tail, h, List.intercalate]
  · rw [tail, if_neg h, joined_eq_cons_intercalate (by simpa using h)]

theorem PathServices.foldChar_sep (services : PathServices flavour) :
    services.foldChar flavour.sep = flavour.sep := by
  cases flavour with
  | posix => rfl
  | windows => simp [foldChar, Flavour.sep, services.lower_eq_sep]

theorem PathServices.foldChar_ne_sep (services : PathServices flavour) {c : Char}
    (hslash : c ≠ '/') (hsep : c ≠ flavour.sep) : services.foldChar c ≠ flavour.sep := by
  cases flavour with
  | posix => exact hsep
  | windows =>
    simp only [foldChar, hslash, if_false]
    exact fun h => hsep ((services.lower_eq_sep c).mp h)

def PathServices.key (services : PathServices flavour) (segments : List (List Char)) :
    List (List Char) :=
  segments.map services.normcase

theorem PathServices.key_append (segments others : List (List Char)) :
    services.key (segments ++ others) = services.key segments ++ services.key others :=
  map_append

theorem AbsolutePath.plain_of_mem (path : AbsolutePath flavour) {segment : List Char}
    (h : segment ∈ path.anchor.segments ++ path.tail) :
    '/' ∉ segment ∧ flavour.sep ∉ segment := by
  rcases mem_append.mp h with h | h
  · cases hanchor : path.anchor with
    | root => simp_all [Anchor.segments]
    | drive letter hletter =>
      have hne : ∀ c : Char, c.isAlpha = false → c ≠ letter := by
        rintro c hc rfl
        simp [hc] at hletter
      simp only [hanchor, Anchor.segments, mem_singleton] at h
      subst h
      simp [Flavour.sep, hne '/' (by decide), hne '\\' (by decide)]
    | share server name =>
      simp only [hanchor, Anchor.segments, mem_cons, not_mem_nil, or_false] at h
      rcases h with rfl | rfl | rfl | rfl
      · simp
      · simp
      · exact ⟨server.slash_notMem, server.sep_notMem⟩
      · exact ⟨name.slash_notMem, name.sep_notMem⟩
  · by_cases hparts : path.parts = []
    · simp_all [tail]
    · rw [tail, if_neg hparts, mem_map] at h
      obtain ⟨component, -, rfl⟩ := h
      exact ⟨component.slash_notMem, component.sep_notMem⟩

def IsBelow (services : PathServices flavour) (path root : AbsolutePath flavour) : Prop :=
  services.key root.anchor.segments = services.key path.anchor.segments ∧
    services.key (root.parts.map Component.text) <+: services.key (path.parts.map Component.text)

theorem cons_normcase_str : flavour.sep :: services.normcase path.str =
    joined flavour.sep (services.key (path.anchor.segments ++ path.tail)) := by
  have h := congrArg services.normcase path.cons_str
  rwa [PathServices.normcase, PathServices.normcase, map_joined, map_cons,
    services.foldChar_sep] at h

theorem sep_notMem_of_mem_key {segment : List Char}
    (h : segment ∈ services.key (path.anchor.segments ++ path.tail)) :
    flavour.sep ∉ segment := by
  obtain ⟨plain, hplain, rfl⟩ := mem_map.mp h
  obtain ⟨hslash, hsep⟩ := path.plain_of_mem hplain
  rintro hmem
  obtain ⟨c, hc, heq⟩ := mem_map.mp hmem
  exact services.foldChar_ne_sep (ne_of_mem_of_not_mem hc hslash) (ne_of_mem_of_not_mem hc hsep) heq

theorem textIsUnder_iff_prefix :
    textIsUnder flavour.sep (services.normcase path.str) (services.normcase root.str) = true ↔
      services.key (root.anchor.segments ++ root.tail) <+:
        services.key (path.anchor.segments ++ path.tail) := by
  rw [← joined_prefix_iff (fun _ h => sep_notMem_of_mem_key h) fun _ h => sep_notMem_of_mem_key h,
    ← cons_normcase_str, ← cons_normcase_str, cons_append, cons_prefix_cons]
  simp [textIsUnder]

theorem key_anchor_append_prefix_iff {anchor other : Anchor flavour}
    {segments others : List (List Char)} :
    services.key anchor.segments ++ segments <+: services.key other.segments ++ others ↔
      services.key anchor.segments = services.key other.segments ∧ segments <+: others := by
  cases anchor <;> cases other <;>
    simp [PathServices.key, PathServices.normcase, Anchor.segments, and_assoc]

variable (services) in
theorem nil_notMem_key (parts : List (Component flavour)) :
    [] ∉ services.key (parts.map Component.text) := by
  intro h
  simp only [PathServices.key, PathServices.normcase, map_map, mem_map,
    Function.comp_apply, map_eq_nil_iff] at h
  obtain ⟨component, -, hnil⟩ := h
  exact component.ne_nil hnil

theorem textIsUnder_iff_isBelow :
    textIsUnder flavour.sep (services.normcase path.str) (services.normcase root.str) = true ↔
      IsBelow services path root ∧ ¬(root.parts = [] ∧ path.parts ≠ []) := by
  rw [ textIsUnder_iff_prefix, PathServices.key_append, PathServices.key_append,
    key_anchor_append_prefix_iff, IsBelow, and_assoc]
  refine and_congr_right fun _ => ?_
  have hroot := nil_notMem_key services root.parts
  have hpath := nil_notMem_key services path.parts
  by_cases hr : root.parts = [] <;> by_cases hp : path.parts = []
  · simp [AbsolutePath.tail, hr, hp]
  · have hne : ¬[[]] <+: services.key (path.parts.map Component.text) := fun h =>
      hpath (h.subset (mem_singleton_self _))
    simpa [AbsolutePath.tail, hr, hp, PathServices.key, PathServices.normcase] using hne
  · have hne : ¬services.key (root.parts.map Component.text) <+: [[]] := by
      intro h
      obtain ⟨component, hmem⟩ := exists_mem_of_ne_nil _ hr
      have hkey : services.normcase component.text ∈
          services.key (root.parts.map Component.text) :=
        mem_map_of_mem (mem_map_of_mem hmem)
      exact hroot (mem_singleton.mp (h.subset hkey) ▸ hkey)
    simpa [AbsolutePath.tail, hr, hp, PathServices.key, PathServices.normcase] using hne
  · simp [AbsolutePath.tail, hr, hp]

/-! ### `pathlib` paths -/

theorem strNormcase_eq : services.strNormcase path = services.normcase path.str := by
  cases flavour with
  | posix => exact (map_id _).symm
  | windows =>
    refine map_congr_left fun c hc => ?_
    have hmem : c ∈ joined '\\' (path.anchor.segments ++ path.tail) :=
      path.cons_str ▸ mem_cons_of_mem _ hc
    have hne : c ≠ '/' := by
      rintro rfl
      obtain ⟨segment, hsegment, hc⟩ := mem_flatMap.mp hmem
      exact (path.plain_of_mem hsegment).1 ((mem_cons.mp hc).resolve_left (by decide))
    simp [PathServices.foldChar, hne]

theorem samePath_iff {other : AbsolutePath flavour} : samePath services path other = true ↔
      services.key path.anchor.segments = services.key other.anchor.segments ∧
        services.key (path.parts.map Component.text) =
          services.key (other.parts.map Component.text) := by
  have hunder (a b : AbsolutePath flavour)
      (h : services.normcase a.str = services.normcase b.str) : IsBelow services a b :=
    (textIsUnder_iff_isBelow.mp (by simp [textIsUnder, h])).1
  rw [samePath, decide_eq_true_iff, strNormcase_eq, strNormcase_eq]
  constructor
  · intro h
    obtain ⟨hanchor, hparts⟩ := hunder _ _ h
    exact ⟨hanchor.symm, ((hunder _ _ h.symm).2.eq_of_length_le hparts.length_le)⟩
  · rintro ⟨hanchor, hparts⟩
    have htail : services.key path.tail = services.key other.tail := by
      have hnil : path.parts = [] ↔ other.parts = [] := by
        simpa [PathServices.key] using congrArg (· = []) hparts
      by_cases h : path.parts = []
      · rw [AbsolutePath.tail, AbsolutePath.tail, if_pos h, if_pos (hnil.mp h)]
      · rw [AbsolutePath.tail, AbsolutePath.tail, if_neg h, if_neg (hnil.not.mp h), hparts]
    have hkey : services.key (path.anchor.segments ++ path.tail) =
        services.key (other.anchor.segments ++ other.tail) := by
      rw [PathServices.key_append, PathServices.key_append, hanchor, htail]
    have hcons : flavour.sep :: services.normcase path.str =
        flavour.sep :: services.normcase other.str := by
      rw [cons_normcase_str, hkey, cons_normcase_str]
    exact (List.cons.inj hcons).2

theorem grantIsInside_iff_isBelow (hpath : Normalised services path)
    (hroot : Normalised services root) :
    grantIsInside services path.str root.str = true ↔ IsBelow services path root := by
  rw [Normalised] at hpath hroot
  simp only [grantIsInside, hpath, hroot, Bool.or_eq_true, any_eq_true, samePath_iff,
    AbsolutePath.parents, mem_map, mem_reverse, mem_range]
  constructor
  · rintro (⟨hanchor, hparts⟩ | ⟨_, ⟨n, -, rfl⟩, hanchor, hparts⟩)
    · exact ⟨hanchor.symm, hparts ▸ prefix_rfl⟩
    · exact ⟨hanchor, hparts ▸ (( take_prefix n _).map _).map _⟩
  · rintro ⟨hanchor, hparts⟩
    have htake := prefix_iff_eq_take.mp hparts
    simp only [PathServices.key, length_map, ← map_take] at htake
    have hle : root.parts.length ≤ path.parts.length := by
      simpa [PathServices.key] using hparts.length_le
    obtain hlt | heq := Nat.lt_or_eq_of_le hle
    · exact Or.inr ⟨_, ⟨_, hlt, rfl⟩, hanchor, htake⟩
    · exact Or.inl ⟨hanchor.symm, by simpa [heq, PathServices.key] using htake.symm⟩

theorem normalize_str (h : Normalised services path) :
    services.normalize path.str = some (services.normcase path.str) := by
  rw [PathServices.normalize, services.expanduser_str, h, Option.map_some]

/-- All four helpers tell whether the path is the root or lies below it. -/
structure HelpersAgree (services : PathServices flavour) (path root : AbsolutePath flavour) :
    Prop where
  policy : policyIsUnder services path.str root.str = some true ↔ IsBelow services path root
  contract : contractIsUnder services (services.normcase path.str) root.str = some true ↔
    IsBelow services path root
  mission : missionIsUnder services path.str root.str = some true ↔ IsBelow services path root
  grant : grantIsInside services path.str root.str = true ↔ IsBelow services path root

/-- The helpers agree unless the path lies strictly below a root without components. -/
theorem helpersAgree_iff (services : PathServices flavour) (path root : AbsolutePath flavour)
    (hpath : Normalised services path) (hroot : Normalised services root) :
    HelpersAgree services path root ↔ ¬(root.parts = [] ∧ path.parts ≠ [] ∧
        services.key root.anchor.segments = services.key path.anchor.segments) := by
  have htext : contractIsUnder services (services.normcase path.str) root.str = some true ↔
      IsBelow services path root ∧ ¬(root.parts = [] ∧ path.parts ≠ []) := by
    simp [contractIsUnder, normalize_str hroot, textIsUnder_iff_isBelow]
  have hmission : missionIsUnder services path.str root.str =
      contractIsUnder services (services.normcase path.str) root.str := by
    simp [missionIsUnder, contractIsUnder, normalize_str hpath]
  have hpolicy : policyIsUnder services path.str root.str =
      missionIsUnder services path.str root.str := rfl
  have hgrant := grantIsInside_iff_isBelow hpath hroot
  constructor
  · rintro h ⟨hr, hp, hanchor⟩
    have hbelow : IsBelow services path root := ⟨hanchor, by simp [hr, PathServices.key]⟩
    exact (htext.mp (h.contract.mpr hbelow)).2 ⟨hr, hp⟩
  · intro h
    have hagree : contractIsUnder services (services.normcase path.str) root.str = some true ↔
        IsBelow services path root := by
      rw [htext, and_iff_left_iff_imp]
      exact fun hbelow hroots => h ⟨hroots.1, hroots.2, hbelow.1⟩
    exact ⟨by rw [hpolicy, hmission, hagree], hagree, by rw [hmission, hagree], hgrant⟩

end Segments

/-- The filesystem root, `/a` right below it, and `/a/b`. -/
def filesystemRoot : AbsolutePath .posix := ⟨.root, []⟩

@[inherit_doc filesystemRoot]
def belowRoot : AbsolutePath .posix :=
  ⟨.root, [⟨['a'], by decide, by decide, by decide, by decide⟩]⟩

@[inherit_doc filesystemRoot]
def nestedPath : AbsolutePath .posix :=
  ⟨.root, belowRoot.parts ++ [⟨['b'], by decide, by decide, by decide, by decide⟩]⟩

def threePaths : PathServices .posix where
  expanduser := id
  resolve text :=
    if text = belowRoot.str then some belowRoot
    else if text = nestedPath.str then some nestedPath
    else some filesystemRoot
  lower := Char.toLower
  expanduser_str _ := rfl
  lower_eq_sep c := by
    unfold Char.toLower
    split <;> rename_i h
    · constructor
      · intro heq
        have hval : c.val + ('a'.val - 'A'.val) = 0x5c := congrArg Char.val heq
        obtain ⟨hlow, hhigh⟩ := h
        simp only [ge_iff_le, UInt32.le_iff_toNat_le] at hlow hhigh
        have := congrArg UInt32.toNat hval
        simp at hlow hhigh this
        omega
      · rintro rfl
        exact absurd h (by decide)
    · rfl

/-- All of them find `/a/b` below `/a`. -/
theorem nestedPath_helpersAgree : HelpersAgree threePaths nestedPath belowRoot :=
  (helpersAgree_iff threePaths nestedPath belowRoot rfl rfl).mpr fun h =>
    cons_ne_nil _ _ h.1

/-- Of `/a` and `/` only the grants see that one lies below the other. -/
theorem below_filesystemRoot_missed :
    Normalised threePaths belowRoot ∧ Normalised threePaths filesystemRoot ∧
      IsBelow threePaths belowRoot filesystemRoot ∧
      policyIsUnder threePaths belowRoot.str filesystemRoot.str = some false ∧
      contractIsUnder threePaths (threePaths.normcase belowRoot.str) filesystemRoot.str =
        some false ∧
      missionIsUnder threePaths belowRoot.str filesystemRoot.str = some false ∧
      grantIsInside threePaths belowRoot.str filesystemRoot.str = true :=
  ⟨rfl, rfl, ⟨rfl, nil_prefix⟩, rfl, rfl, rfl, rfl⟩

end AIpinho.Policy
