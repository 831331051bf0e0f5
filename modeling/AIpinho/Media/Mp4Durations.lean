import AIpinho.Media.NativeProbe

/-!
# Durations of MP4 files

The probe looks for the tags of the headers anywhere, so what it reads need not be a header, and
it reads the fields of a header of version 1 four bytes too late.
-/

namespace AIpinho.Media

section Boxes

variable {data : Bytes}

/-- The types of the boxes that hold boxes. -/
def containerTypes : List Bytes :=
  ["moov", "trak", "edts", "mdia", "minf", "dinf", "stbl", "mvex", "moof", "traf", "mfra",
    "udta"].map bytesOf

def sizeField (data : Bytes) (offset : ℕ) : ℕ := bigEndian (slice data offset (offset + 4))

def typeField (data : Bytes) (offset : ℕ) : Bytes := slice data (offset + 4) (offset + 8)

def payload (data : Bytes) (offset : ℕ) : ℕ :=
  if sizeField data offset = 1 then offset + 16 else offset + 8

def boxEnd (data : Bytes) (offset finish : ℕ) : ℕ :=
  if sizeField data offset = 0 then finish
  else if sizeField data offset = 1 then
    min finish (offset + bigEndian (slice data (offset + 8) (offset + 16)))
  else min finish (offset + sizeField data offset)

/-- A box starts at the offset, in one that ends at `finish`. -/
inductive BoxAt (data : Bytes) : ℕ → ℕ → Prop
  | first : BoxAt data 0 data.length
  | next {offset finish : ℕ} (h : BoxAt data offset finish)
      (hbox : payload data offset ≤ boxEnd data offset finish) :
      BoxAt data (boxEnd data offset finish) finish
  | child {offset finish : ℕ} (h : BoxAt data offset finish)
      (htype : typeField data offset ∈ containerTypes) :
      BoxAt data (payload data offset) (boxEnd data offset finish)

/-- The duration and the timescale of a header of either version, with the end of the fields. -/
def headerFields (data : Bytes) (start : ℕ) : Option (ℕ × ℕ × ℕ) :=
  if data[start]? = some 0 then
    some (bigEndian (slice data (start + 16) (start + 20)),
      bigEndian (slice data (start + 12) (start + 16)), start + 20)
  else if data[start]? = some 1 then
    some (bigEndian (slice data (start + 24) (start + 32)),
      bigEndian (slice data (start + 20) (start + 24)), start + 32)
  else none

/-- A header box lies at the offset, with this duration and time scale. -/
def HeaderAt (data : Bytes) (offset : ℕ) (header : ℕ × ℕ) : Prop :=
  ∃ finish fieldsEnd, BoxAt data offset finish ∧ typeField data offset ∈ headerTags ∧
    headerFields data (payload data offset) = some (header.1, header.2, fieldsEnd) ∧
      fieldsEnd ≤ boxEnd data offset finish ∧ 0 < header.2

/-- A duration that is reported is that of a header box of the file. -/
def DurationIsSound (path : String) (contents : Bytes) : Prop :=
  ∃ r, probe path (some (.ok contents)) = .ok r ∧
    ∀ duration, r.duration = some duration →
      ∃ offset header, HeaderAt (scanned contents) offset header ∧ duration = seconds header

/-! ### What is read -/

/-- The tag stands at the place, and nowhere before it. -/
def FirstAt (data tag : Bytes) (place : ℕ) : Prop :=
  tag <+: data.drop place ∧ ∀ i < place, ¬tag <+: data.drop i

/-- The numbers behind a tag at the place: the words 16 and 20 bytes on if the version there is
zero, and those 28 and 32 bytes on if it is one. -/
def NumbersAt (data : Bytes) (place duration timescale : ℕ) : Prop :=
  place + 24 ≤ data.length ∧ 0 < timescale ∧
    (data[place + 4]? = some 0 ∧ duration = bigEndian (slice data (place + 20) (place + 24)) ∧
        timescale = bigEndian (slice data (place + 16) (place + 20)) ∨
      data[place + 4]? = some 1 ∧ place + 36 ≤ data.length ∧
        duration = bigEndian (slice data (place + 32) (place + 40)) ∧
        timescale = bigEndian (slice data (place + 28) (place + 32)))

/-- The numbers are read behind the first `mvhd`, or behind the first `mdhd` if there are none
behind that. -/
def ReadAt (data : Bytes) (place duration timescale : ℕ) : Prop :=
  NumbersAt data place duration timescale ∧
    (FirstAt data (bytesOf "mvhd") place ∨ FirstAt data (bytesOf "mdhd") place ∧
      ∀ other d t, FirstAt data (bytesOf "mvhd") other → ¬NumbersAt data other d t)

/-- The place is that of the type of a box with a plain size, whose version is zero and whose
fields are all in it. -/
def InHeader (data : Bytes) (place : ℕ) : Prop :=
  data[place + 4]? = some 0 ∧ ∃ offset finish, place = offset + 4 ∧ BoxAt data offset finish ∧
    sizeField data offset ≠ 1 ∧ offset + 28 ≤ boxEnd data offset finish

theorem findTag_eq_some_iff {tag : Bytes} {place : ℕ} (htag : tag ≠ []) :
    findTag data tag = some place ↔ FirstAt data tag place := by
  simp only [findTag, List.find?_range_eq_some, List.isPrefixOf_iff_prefix, List.mem_range,
    Bool.not_eq_true', Bool.eq_false_iff, FirstAt, ne_eq]
  refine ⟨fun h => ⟨h.1, h.2.2⟩, fun h => ⟨h.1, ?_, h.2⟩⟩
  have hlength := h.1.length_le
  rw [List.length_drop] at hlength
  have hpos := List.length_pos_iff.mpr htag
  omega

theorem readHeader_eq_some_iff {tag : Bytes} {duration timescale : ℕ} (htag : tag ≠ []) :
    readHeader data tag = some (duration, timescale) ↔
      ∃ place, FirstAt data tag place ∧ NumbersAt data place duration timescale := by
  simp only [readHeader, Option.bind_eq_some_iff, findTag_eq_some_iff htag]
  refine exists_congr fun place => and_congr_right fun _ => ?_
  by_cases hshort : data.length < place + 24
  · simp [hshort, NumbersAt, Nat.not_le.mpr hshort]
  have hlong : place + 24 ≤ data.length := not_lt.mp hshort
  have hlt : place + 4 < data.length := by omega
  simp only [hshort, if_false, List.getElem?_eq_getElem hlt, Option.bind_some,
    Option.filter_eq_some_iff, NumbersAt, hlong, true_and, decide_eq_true_eq,
    Option.some.injEq, headerAt]
  by_cases hzero : data[place + 4] = 0
  · simp [hzero, eq_comm, and_comm]
  by_cases hone : data[place + 4] = 1
  · by_cases hfields : place + 36 ≤ data.length
    · simp [hone, hfields, eq_comm, and_comm]
    · simp [hone, hfields]
  · simp [hzero, hone]

theorem findSome?_headerTags_eq_some_iff {duration timescale : ℕ} :
    headerTags.findSome? (readHeader data) = some (duration, timescale) ↔
      ∃ place, ReadAt data place duration timescale := by
  have hmvhd : bytesOf "mvhd" ≠ [] := by decide
  have hmdhd : bytesOf "mdhd" ≠ [] := by decide
  have hor : headerTags.findSome? (readHeader data) =
      (readHeader data (bytesOf "mvhd")).or (readHeader data (bytesOf "mdhd")) := by
    simp only [headerTags, List.findSome?_cons, List.findSome?_nil]
    cases readHeader data (bytesOf "mvhd") <;> cases readHeader data (bytesOf "mdhd") <;> rfl
  rw [hor, Option.or_eq_some_iff, readHeader_eq_some_iff hmvhd, readHeader_eq_some_iff hmdhd]
  have hnone : readHeader data (bytesOf "mvhd") = none ↔ ∀ other d t,
      FirstAt data (bytesOf "mvhd") other → ¬NumbersAt data other d t := by
    rw [Option.eq_none_iff_forall_ne_some, Prod.forall]
    simp only [ne_eq, readHeader_eq_some_iff hmvhd, not_exists, not_and]
    exact ⟨fun h other d t => h d t other, fun h d t other => h other d t⟩
  rw [hnone]
  constructor
  · rintro (⟨place, hplace, hnumbers⟩ | ⟨hfirst, place, hplace, hnumbers⟩)
    · exact ⟨place, hnumbers, Or.inl hplace⟩
    · exact ⟨place, hnumbers, Or.inr ⟨hplace, hfirst⟩⟩
  · rintro ⟨place, hnumbers, hplace | ⟨hplace, hfirst⟩⟩
    · exact Or.inl ⟨place, hplace, hnumbers⟩
    · exact Or.inr ⟨hfirst, place, hplace, hnumbers⟩

/-- What is read at the type of a header of version zero are the fields of that header. -/
theorem InHeader.headerAt {place duration timescale : ℕ} (h : InHeader data place)
    (hread : ReadAt data place duration timescale) :
    ∃ offset, HeaderAt data offset (duration, timescale) := by
  obtain ⟨hversion, offset, finish, rfl, hbox, hsize, hend⟩ := h
  obtain ⟨⟨-, hpos, hnumbers⟩, htag⟩ := hread
  have hpayload : payload data offset = offset + 8 := if_neg hsize
  have htype : typeField data offset ∈ headerTags := by
    have hprefix : ∃ tag ∈ headerTags, tag.length = 4 ∧ tag <+: data.drop (offset + 4) := by
      rcases htag with h | ⟨h, -⟩
      · exact ⟨_, List.mem_cons_self, rfl, h.1⟩
      · exact ⟨_, List.mem_cons_of_mem _ List.mem_cons_self, rfl, h.1⟩
    obtain ⟨tag, hmem, hlength, hprefix⟩ := hprefix
    rw [typeField, slice, List.drop_take, Nat.add_sub_add_left]
    rw [List.prefix_iff_eq_take, hlength] at hprefix
    exact hprefix ▸ hmem
  refine ⟨offset, finish, offset + 28, hbox, htype, ?_, hend, hpos⟩
  rcases hnumbers with ⟨-, hduration, htimescale⟩ | ⟨hone, -⟩
  · rw [hpayload, headerFields, if_pos hversion, hduration, htimescale]
  · rw [hversion] at hone
    cases hone

/-- A file of one `ftyp` box with the text of a tag in it, and the numbers 1 and 5. -/
def taggedBytes : Bytes :=
  [0, 0, 0, 36] ++ bytesOf "ftypisommvhd" ++ List.replicate 12 0 ++ [0, 0, 0, 1, 0, 0, 0, 5]

/-- Its boxes are the first one only. -/
theorem boxAt_taggedBytes {offset finish : ℕ} (h : BoxAt taggedBytes offset finish) :
    (offset = 0 ∨ offset = 36) ∧ finish = 36 := by
  induction h with
  | first => exact ⟨Or.inl rfl, rfl⟩
  | next _ hbox ih =>
    obtain ⟨rfl | rfl, rfl⟩ := ih
    · exact ⟨Or.inr (by decide), rfl⟩
    · exact absurd hbox (by decide)
  | child _ htype ih =>
    obtain ⟨rfl | rfl, rfl⟩ := ih <;> exact absurd htype (by decide)

end Boxes

end AIpinho.Media
