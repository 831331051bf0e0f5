import AIpinho.Artifacts.WriteAtomicity

/-!
# Which backups give back their files

A backup of an artifact is written and read as text. Writing turns a line feed into the end of a
line of the platform, and reading turns every end of a line into a line feed.
-/

namespace AIpinho.Artifacts

open List AIpinho.Patching

section Translation

variable {text : Text}

def translatedCharacters : Platform → List Char
  | .posix => ['\r']
  | .windows => ['\r', '\n']

theorem mem_encodeText_windows {c : Char} (hc : c = '\r' ∨ c = '\n') (h : '\r' ∉ text) :
    c ∈ Platform.windows.encodeText text ↔ '\n' ∈ text := by
  rw [Platform.encodeText, mem_flatMap]
  constructor
  · rintro ⟨d, hd, hmem⟩
    split at hmem
    · rename_i hline
      exact hline ▸ hd
    · obtain rfl := mem_singleton.mp hmem
      rcases hc with rfl | rfl
      · exact absurd hd h
      · exact hd
  · intro hline
    refine ⟨'\n', hline, ?_⟩
    rw [if_pos rfl]
    rcases hc with rfl | rfl <;> decide

theorem universalNewlines_cons {c : Char} (h : c ≠ '\r') :
    universalNewlines (c :: text) = c :: universalNewlines text := by
  rw [universalNewlines]
  · exact fun _ hc => absurd hc h
  · exact h

theorem length_translated_windows (h : '\r' ∉ text) :
    (universalNewlines (Platform.windows.encodeText (Platform.windows.encodeText text))).length =
      text.length + text.count '\n' := by
  induction text with
  | nil => rfl
  | cons c text ih =>
    rw [mem_cons, not_or] at h
    have ih := ih h.2
    simp only [Platform.encodeText] at ih ⊢
    by_cases hline : c = '\n'
    · subst hline
      have htwice : universalNewlines ('\r' :: '\r' :: '\n' ::
          (text.flatMap fun c => if c = '\n' then ['\r', '\n'] else [c]).flatMap fun c =>
            if c = '\n' then ['\r', '\n'] else [c]) = '\n' :: '\n' :: universalNewlines
          ((text.flatMap fun c => if c = '\n' then ['\r', '\n'] else [c]).flatMap fun c =>
            if c = '\n' then ['\r', '\n'] else [c]) := rfl
      simp only [flatMap_cons, if_true, cons_append, nil_append,
        count_cons_self, if_neg (by decide : '\r' ≠ '\n'), htwice, length_cons, ih]
      omega
    · have hreturn : c ≠ '\r' := fun hc => h.1 hc.symm
      simp only [flatMap_cons, if_neg hline, singleton_append, length_cons,
        count_cons_of_ne hline, universalNewlines_cons hreturn, ih]
      omega

theorem restoredText_windows_iff (text : Text) :
    restoredText .windows text = text ↔ '\r' ∉ text ∧ '\n' ∉ text := by
  constructor
  · intro h
    set read := universalNewlines (Platform.windows.encodeText text) with hread
    have hreturn : '\r' ∉ read := not_mem_universalNewlines _
    have hwritten : Platform.windows.encodeText read = text := h
    have hlength := length_translated_windows hreturn
    rw [hwritten, ← hread] at hlength
    have hline : '\n' ∉ read := count_eq_zero.mp (by omega)
    rw [← hwritten]
    exact ⟨fun hmem => hline ((mem_encodeText_windows (.inl rfl) hreturn).mp hmem),
      fun hmem => hline ((mem_encodeText_windows (.inr rfl) hreturn).mp hmem)⟩
  · rintro ⟨hreturn, hline⟩
    have hkept : Platform.windows.encodeText text = text := by
      rw [Platform.encodeText]
      refine (flatMap_congr fun c hc => ?_).trans (flatMap_singleton' text)
      have hother : c ≠ '\n' := fun heq => hline (heq ▸ hc)
      exact if_neg hother
    have hread : universalNewlines text = text := (restoredText_posix_iff text).mpr hreturn
    rw [restoredText, hkept, hread, hkept]

theorem restoredText_eq_iff (platform : Platform) :
    restoredText platform text = text ↔ ∀ c ∈ translatedCharacters platform, c ∉ text := by
  cases platform with
  | posix => simpa [translatedCharacters] using restoredText_posix_iff text
  | windows => simpa [translatedCharacters] using restoredText_windows_iff text

end Translation

def backupRound (services : WriteServices) (target : String) (files : Workspace) : Workspace :=
  match files target with
  | none => files
  | some content =>
    match createBackup services none content with
    | .error _ => files
    | .ok backup => restoreBackup services.platform none target backup files

/-- Restoring the backup gives the content, whatever has become of the file, and so does any
number of rounds. -/
structure IsFaithful (services : WriteServices) (content : Content) (backup : Text) : Prop where
  restored : ∀ target files,
    restoreBackup services.platform none target backup files target = some content
  rounds : ∀ target files n, files target = some content →
    (backupRound services target)^[n] files target = some content

section Rounds

variable {services : WriteServices} {content : Content} {backup : Text}

theorem createBackup_ok (h : createBackup services none content = .ok backup) :
    content = .text backup := by
  unfold createBackup at h
  split at h
  · cases h
  · cases content with
    | binary bytes => cases h
    | text chars =>
      dsimp only at h
      split at h
      · cases h
      · cases h
        rfl

/-- What a backup gives back is the file that was backed up exactly if no end of a line in it is
translated. -/
theorem isFaithful_iff (h : createBackup services none content = .ok backup) :
    IsFaithful services content backup ↔
      ∀ c ∈ translatedCharacters services.platform, c ∉ backup := by
  have hcontent := createBackup_ok h
  rw [← restoredText_eq_iff]
  constructor
  · intro hfaithful
    have hrestored := hfaithful.restored "" fun _ => none
    rw [restoreBackup_target, restoredContent, hcontent] at hrestored
    exact Content.text.inj (Option.some.inj hrestored)
  · intro hkept
    have hrestored : ∀ target files,
        restoreBackup services.platform none target backup files target = some content := by
      intro target files
      rw [restoreBackup_target, restoredContent, hkept, hcontent]
    refine ⟨hrestored, fun target files n hfiles => ?_⟩
    induction n generalizing files with
    | zero => exact hfiles
    | succ n ih =>
      refine ih _ ?_
      rw [backupRound, hfiles]
      dsimp only
      rw [h]
      exact hrestored target files

theorem line_feeds_restored : IsFaithful sampleServices (.text ['a', '\n']) ['a', '\n'] := by
  refine (isFaithful_iff rfl).mpr fun c hc => ?_
  obtain rfl : c = '\r' := mem_singleton.mp hc
  decide

/-- On POSIX a carriage return is lost. -/
theorem carriage_return_lost :
    createBackup sampleServices none (.text ['a', '\r', '\n']) = .ok ['a', '\r', '\n'] ∧
      ¬IsFaithful sampleServices (.text ['a', '\r', '\n']) ['a', '\r', '\n'] := by
  refine ⟨rfl, fun h => ?_⟩
  have hrestored := h.restored "" fun _ => none
  rw [restoreBackup_target] at hrestored
  exact absurd (Content.text.inj (Option.some.inj hrestored)) (by decide)

end Rounds

end AIpinho.Artifacts
