import Mathlib.Data.List.Basic

/-!
# Searching a text for keywords

A search for some words between two word boundaries, up to case, at each place of a text.
It finds something exactly if one of the words stands in the text as a whole word.
-/

namespace AIpinho.Lib

open List

variable {α : Type}

/-- How a text is read: which characters belong to words, and what a character is up to
case. -/
structure Lettering (α : Type) where
  isWord : α → Bool
  fold : α → α

namespace Lettering

variable {L : Lettering α} {keywords : List (List α)} {before : Option α} {cs word after : List α}

/-- A place between a character of a word and something else. -/
def isBoundary (L : Lettering α) (before after : Option α) : Bool :=
  before.any L.isWord != after.any L.isWord

def Lettered (L : Lettering α) (keywords : List (List α)) : Prop :=
  ∀ keyword ∈ keywords, keyword ≠ [] ∧ ∀ c, L.fold c ∈ keyword → L.isWord c = true

/-- A keyword as a whole word of a text. -/
structure WordAt (L : Lettering α) (keywords : List (List α)) (text before word after : List α) :
    Prop where
  text_eq : text = before ++ word ++ after
  keyword : word.map L.fold ∈ keywords
  left : before.getLast?.any L.isWord = false
  right : after.head?.any L.isWord = false

theorem Lettered.ends (hkeywords : L.Lettered keywords) (hword : word.map L.fold ∈ keywords) :
    word.head?.any L.isWord = true ∧ word.getLast?.any L.isWord = true := by
  obtain ⟨hne, hletters⟩ := hkeywords _ hword
  have hword' : word ≠ [] := fun h => hne (by rw [h, map_nil])
  have hall : ∀ c ∈ word, L.isWord c = true := fun c hc => hletters c (mem_map_of_mem hc)
  rw [head?_eq_some_head hword', getLast?_eq_some_getLast hword']
  exact ⟨hall _ (head_mem hword'), hall _ (getLast_mem hword')⟩

variable [DecidableEq α]

/-- Whether a keyword stands at the start of a text, between two boundaries. -/
def keywordHere (L : Lettering α) (keywords : List (List α)) (before : Option α) (cs : List α) :
    Bool :=
  L.isBoundary before cs.head? && keywords.any fun keyword =>
    decide ((cs.take keyword.length).map L.fold = keyword) &&
      L.isBoundary (cs.take keyword.length).getLast? (cs.drop keyword.length).head?

/-- Whether a keyword stands in a text that comes after a given character. -/
def searchAfter (L : Lettering α) (keywords : List (List α)) : Option α → List α → Bool
  | before, [] => L.keywordHere keywords before []
  | before, c :: cs =>
    L.keywordHere keywords before (c :: cs) || L.searchAfter keywords (some c) cs

/-- `re.search` for `\b(keyword|...)\b` up to case. -/
def search (L : Lettering α) (keywords : List (List α)) (text : List α) : Bool :=
  L.searchAfter keywords none text

theorem keywordHere_iff (hkeywords : L.Lettered keywords) :
    L.keywordHere keywords before cs = true ↔ before.any L.isWord = false ∧
      ∃ word after, cs = word ++ after ∧ word.map L.fold ∈ keywords ∧
        after.head?.any L.isWord = false := by
  simp only [keywordHere, Bool.and_eq_true, any_eq_true, decide_eq_true_eq, isBoundary, bne_iff_ne]
  constructor
  · rintro ⟨hleft, keyword, hmem, hfold, hright⟩
    have hword : (cs.take keyword.length).map L.fold ∈ keywords := by rwa [hfold]
    obtain ⟨hfirst, hlast⟩ := hkeywords.ends hword
    have hhead : cs.head? = (cs.take keyword.length).head? := by
      cases cs with
      | nil => rw [take_nil]
      | cons c cs =>
        cases hlength : keyword.length with
        | zero =>
          rw [hlength] at hfirst
          cases hfirst
        | succ n => rfl
    rw [hhead, hfirst] at hleft
    rw [hlast] at hright
    exact ⟨by simpa using hleft, _, _, (take_append_drop keyword.length cs).symm, hword,
      by simpa using hright.symm⟩
  · rintro ⟨hleft, word, after, rfl, hword, hright⟩
    obtain ⟨hfirst, hlast⟩ := hkeywords.ends hword
    have hhead : (word ++ after).head? = word.head? := by
      cases word with
      | nil => cases hfirst
      | cons c word => rfl
    refine ⟨by rw [hhead, hfirst, hleft]; decide, _, hword, ?_, ?_⟩
    · rw [length_map, take_left]
    · rw [length_map, take_left, drop_left, hlast, hright]
      decide

theorem WordAt.keywordHere {text front : List α} (hkeywords : L.Lettered keywords)
    (h : L.WordAt keywords text front word after) :
    L.keywordHere keywords (text.take front.length).getLast? (text.drop front.length) = true := by
  rw [h.text_eq, append_assoc, take_left, drop_left, keywordHere_iff hkeywords]
  exact ⟨h.left, word, after, rfl, h.keyword, h.right⟩

theorem searchAfter_iff (hkeywords : L.Lettered keywords) :
    L.searchAfter keywords before cs = true ↔ ∃ skipped word after, cs = skipped ++ word ++ after ∧
      word.map L.fold ∈ keywords ∧ (skipped.getLast?.or before).any L.isWord = false ∧
        after.head?.any L.isWord = false := by
  induction cs generalizing before with
  | nil =>
    rw [searchAfter, keywordHere_iff hkeywords]
    constructor
    · rintro ⟨hleft, word, after, hcs, hword, hright⟩
      exact ⟨[], word, after, hcs, hword, hleft, hright⟩
    · rintro ⟨skipped, word, after, hcs, hword, hleft, hright⟩
      obtain ⟨hfront, rfl⟩ := append_eq_nil_iff.mp hcs.symm
      obtain ⟨rfl, rfl⟩ := append_eq_nil_iff.mp hfront
      exact ⟨hleft, [], [], rfl, hword, hright⟩
  | cons c cs ih =>
    rw [searchAfter, Bool.or_eq_true, keywordHere_iff hkeywords, ih]
    constructor
    · rintro (⟨hleft, word, after, hcs, hword, hright⟩ |
        ⟨skipped, word, after, rfl, hword, hleft, hright⟩)
      · exact ⟨[], word, after, hcs, hword, hleft, hright⟩
      · refine ⟨c :: skipped, word, after, rfl, hword, ?_, hright⟩
        rw [getLast?_cons]
        cases hlast : skipped.getLast? <;> simpa [hlast] using hleft
    · rintro ⟨skipped, word, after, hcs, hword, hleft, hright⟩
      cases skipped with
      | nil => exact .inl ⟨hleft, word, after, hcs, hword, hright⟩
      | cons c' skipped =>
        obtain ⟨rfl, rfl⟩ := List.cons.inj hcs
        refine .inr ⟨skipped, word, after, rfl, hword, ?_, hright⟩
        rw [getLast?_cons] at hleft
        cases hlast : skipped.getLast? <;> simpa [hlast] using hleft

theorem search_iff (hkeywords : L.Lettered keywords) {text : List α} :
    L.search keywords text = true ↔
      ∃ before word after, L.WordAt keywords text before word after := by
  rw [search, searchAfter_iff hkeywords]
  constructor
  · rintro ⟨before, word, after, htext, hword, hleft, hright⟩
    exact ⟨before, word, after, htext, hword, by simpa using hleft, hright⟩
  · rintro ⟨before, word, after, htext, hword, hleft, hright⟩
    exact ⟨before, word, after, htext, hword, by simpa using hleft, hright⟩

end Lettering

end AIpinho.Lib
