import AIpinho.Media.NativeProbe

/-!
# What is taken for MP3

Without an ID3 tag the sync bits alone make an MP3 file, whatever follows them, and an MP4 file
may name the codec itself. Only the first sync among the first bytes counts.
-/

namespace AIpinho.Media

section Mp3

variable {data : Bytes}

/-- A full header of layer III stands at the offset, without a reserved field. -/
structure LayerThreeAt (data : Bytes) (offset : ℕ) : Prop where
  sync : syncAt data offset = true
  complete : offset + 4 ≤ data.length
  version : versionBits (slice data offset (offset + 4)) ≠ 0b01
  layer : layerBits (slice data offset (offset + 4)) = 0b01
  bitrate : bitrateIndex (slice data offset (offset + 4)) ∉ [0, 15]
  sampleRate : sampleIndex (slice data offset (offset + 4)) ≠ 0b11

def ReportsMp3 (r : NativeResult) : Prop :=
  r.container = some "mp3" ∨ r.codec = some "mp3" ∨ r.bitrate.isSome = true ∨
    r.sampleRate.isSome = true

/-- A file is reported as MP3 only for a tag or the header of a layer three frame. -/
def Mp3IsSound (path : String) (contents : Bytes) : Prop :=
  ∃ r, probe path (some (.ok contents)) = .ok r ∧
    (ReportsMp3 r → startsWithId3 (scanned contents) = true ∨
      ∃ offset, isMp4 (scanned contents) = false ∧
        mp3FrameOffset (scanned contents) = .ok (some offset) ∧
          LayerThreeAt (scanned contents) offset)

/-- The first sync of the first bytes. -/
structure IsFirstSync (data : Bytes) (offset : ℕ) : Prop where
  sync : syncAt data offset = true
  lt : offset < 4096
  inside : offset + 1 < data.length
  first : ∀ i < offset, syncAt data i = false

/-- A file that is taken for MP3 by mistake: an MP4 file with that codec, or a file whose
first sync starts no header of layer III. -/
def Mistaken (data : Bytes) : Prop :=
  12 ≤ data.length ∧ startsWithId3 data = false ∧
    (isMp4 data = true ∧ findStsdCodec data = some "mp3" ∨
      isMp4 data = false ∧ ∃ offset, IsFirstSync data offset ∧ ¬LayerThreeAt data offset)

theorem find?_syncOffsets_eq_some_iff (h : startsWithId3 data = false) {offset : ℕ} :
    (syncOffsets data).find? (syncAt data) = some offset ↔ IsFirstSync data offset := by
  simp only [syncOffsets, syncStart, h, Bool.false_and, Bool.false_eq_true, if_false,
    List.find?_range'_eq_some, List.mem_range'_1]
  constructor
  · rintro ⟨hsync, hmem, hfirst⟩
    exact ⟨hsync, by omega, by omega, fun i hi => by simpa using hfirst i (Nat.zero_le i) hi⟩
  · rintro ⟨hsync, hlt, hinside, hfirst⟩
    exact ⟨hsync, by omega, fun i _ hi => by simp [hfirst i hi]⟩

/-- MP3 is reported of an ID3 tag or a header of layer III exactly if the file is not taken
for MP3 by mistake. -/
theorem mp3IsSound_iff (path : String) (contents : Bytes) :
    Mp3IsSound path contents ↔ ¬Mistaken (scanned contents) := by
  rw [Mp3IsSound, Mistaken, probe]
  generalize scanned contents = data
  by_cases hshort : data.length < 12
  · simp [hshort, ReportsMp3, errorResult, Nat.not_le.mpr hshort]
  have hlong : 12 ≤ data.length := not_lt.mp hshort
  by_cases hmp4 : isMp4 data = true
  · obtain ⟨r, hr, hcontainer, hcodec, hbitrate, hsample⟩ := probeMp4_ok path data
    cases startsWithId3 data <;>
      simp [hshort, hlong, hmp4, hr, ReportsMp3, hcontainer, hcodec, hbitrate, hsample.1]
  rw [Bool.not_eq_true] at hmp4
  cases hid3 : startsWithId3 data with
  | true =>
    obtain ⟨r, hr, -⟩ := probeMp3_ok path data
    simp [hshort, hmp4, hr, bind, Except.bind]
  | false =>
    have hfind : ∀ offset, (syncOffsets data).find? (syncAt data) = some offset ↔
        IsFirstSync data offset := fun _ => find?_syncOffsets_eq_some_iff hid3
    cases hoffset : (syncOffsets data).find? (syncAt data) with
    | none =>
      have hnone : ∀ offset, ¬IsFirstSync data offset := fun offset h => by
        rw [← hfind, hoffset] at h
        cases h
      simp [hshort, hmp4, mp3FrameOffset_eq, hoffset, bind, Except.bind, Except.map,
        ReportsMp3, errorResult, hnone]
    | some offset =>
      have hfirst : ∀ i, IsFirstSync data i ↔ i = offset := fun i => by
        rw [← hfind, hoffset, Option.some.injEq, eq_comm]
      obtain ⟨r, hr, hcontainer, -⟩ := probeMp3_ok path data
      simp [hshort, hlong, hmp4, mp3FrameOffset_eq, hoffset, bind, Except.bind, Except.map,
        hr, ReportsMp3, hcontainer, hfirst]

/-- The header of a frame of layer II, and zeros. -/
def layerTwoBytes : Bytes := [0xFF, 0xFD, 0x80, 0, 0, 0, 0, 0, 0, 0, 0, 0]

/-- They are reported as MP3, though the header is not one of layer III. -/
theorem layer_two_is_taken_for_mp3 :
    (∃ r, probe "a" (some (.ok layerTwoBytes)) = .ok r ∧ r.container = some "mp3") ∧
      layerBits (slice layerTwoBytes 0 4) = 0b10 ∧ ¬Mp3IsSound "a" layerTwoBytes := by
  have hscanned : scanned layerTwoBytes = layerTwoBytes := rfl
  have hlayer : layerBits (slice layerTwoBytes 0 4) = 0b10 := by decide
  have hmp4 : isMp4 layerTwoBytes = false := by decide
  have hid3 : startsWithId3 layerTwoBytes = false := by decide
  have hlength : layerTwoBytes.length = 12 := rfl
  have hoffset : (syncOffsets layerTwoBytes).find? (syncAt layerTwoBytes) = some 0 :=
    (find?_syncOffsets_eq_some_iff hid3).mpr
      ⟨by decide, by decide, by decide, fun i hi => absurd hi (Nat.not_lt_zero i)⟩
  obtain ⟨r, hr, hcontainer, -⟩ := probeMp3_ok "a" layerTwoBytes
  have hreport : probe "a" (some (.ok layerTwoBytes)) = .ok r := by
    simp [probe, hscanned, hlength, hmp4, hid3, mp3FrameOffset_eq, hoffset, bind, Except.bind,
      Except.map, hr]
  refine ⟨⟨r, hreport, hcontainer⟩, hlayer, ?_⟩
  rintro ⟨r', hr', hsound⟩
  obtain rfl := Except.ok.inj (hreport.symm.trans hr')
  rcases hsound (Or.inl hcontainer) with h | ⟨offset, -, hat, h⟩
  · exact absurd (hscanned ▸ h) (by simp [hid3])
  · rw [hscanned, mp3FrameOffset_eq, hoffset] at hat
    obtain rfl := Option.some.inj (Except.ok.inj hat)
    exact absurd (h.layer.symm.trans hlayer) (by decide)

end Mp3

end AIpinho.Media
