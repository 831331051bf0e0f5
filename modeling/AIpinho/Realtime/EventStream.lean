import AIpinho.Lib.Runs
import AIpinho.Lib.Listing
import Mathlib.Data.PNat.Basic
import Mathlib.Data.List.Infix

/-!
# The realtime event stream

`EventStoreRepository.list` returns the last `limit` rows after a cursor, and
`RealtimeEventStore.list` numbers them from the cursor on. This file says when these numbers are
the positions of the rows in the log, and when a client that resumes sees every event once and
in order.
-/

namespace AIpinho.Realtime

open List Lib

/-- What the digits beyond the decimal digits of ASCII are: no entry for a character
that is no digit, an entry without a value for a digit that `int` does not read. -/
abbrev DigitTable := Char → Option (Option ℕ)

/-- A character as `isdigit` and `int` see it. -/
def digitOf (digits : DigitTable) (c : Char) : Option (Option ℕ) :=
  if c.isDigit then some (some (c.toNat - '0'.toNat)) else digits c

/-- `text.isdigit()`. -/
def isDigitText (digits : DigitTable) (text : String) : Bool :=
  text ≠ "" && text.toList.all fun c => (digitOf digits c).isSome

/-- The loop of `int(text)` over the characters; there is no result where it raises. -/
def readDigits (digits : DigitTable) : List Char → ℕ → Option ℕ
  | [], value => some value
  | c :: cs, value =>
    match digitOf digits c with
    | some (some digit) => readDigits digits cs (10 * value + digit)
    | _ => none

/-- `int(since_cursor) if since_cursor and since_cursor.isdigit() else 0`. -/
def readCursor (digits : DigitTable) : Option String → Option ℕ
  | none => some 0
  | some text =>
    if text ≠ "" && isDigitText digits text then readDigits digits text.toList 0 else some 0

structure RealtimeEvent (β : Type) where
  event : β
  cursor : String

structure SyncChange (β : Type) where
  cursor : String
  kind : String
  item : β

section

variable {α β : Type}

/-- `EventStoreRepository.list` on the rows of the log. -/
def listRows (digits : DigitTable) (rows : List α) (limit : ℤ) (sinceCursor : Option String) :
    Option (List α) := do
  let cursor ← readCursor digits sinceCursor
  let start := min cursor rows.length
  return sliceFrom (rows.drop start) (-limit)

/-- `RealtimeEventStore.list`. -/
def listEvents (digits : DigitTable) (build : α → β) (rows : List α) (limit : ℤ)
    (sinceCursor : Option String) : Option (List (RealtimeEvent β)) := do
  let events ← listRows digits rows limit sinceCursor
  let start ← readCursor digits sinceCursor
  return events.mapIdx fun index event => ⟨build event, toString (start + index + 1)⟩

/-- `RealtimeEventBus.changes`. -/
def changes (digits : DigitTable) (build : α → β) (rows : List α) (limit : ℤ)
    (sinceCursor : Option String) : Option (List (SyncChange β)) := do
  let events ← listEvents digits build rows limit sinceCursor
  return events.map fun item => ⟨item.cursor, "event", item.event⟩

theorem readDigits_of_isDigit (digits : DigitTable) {cs : List Char}
    (h : ∀ c ∈ cs, c.isDigit = true) (value : ℕ) :
    readDigits digits cs value = some (Nat.ofDigitChars 10 cs value) := by
  induction cs generalizing value with
  | nil => rw [readDigits, Nat.ofDigitChars_nil]
  | cons c cs ih =>
    have hc : digitOf digits c = some (some (c.toNat - '0'.toNat)) := by
      rw [digitOf, if_pos (h c mem_cons_self)]
    rw [readDigits, hc, Nat.ofDigitChars_cons]
    exact ih (fun d hd => h d (mem_cons_of_mem _ hd)) _

theorem readCursor_toString (digits : DigitTable) (n : ℕ) :
    readCursor digits (some (toString n)) = some n := by
  have hlist : (toString n).toList = Nat.toDigits 10 n := Nat.toList_repr
  have hdigits : ∀ c ∈ Nat.toDigits 10 n, c.isDigit = true := fun c hc =>
    Nat.isDigit_of_mem_toDigits (by omega) (by omega) hc
  have hne : toString n ≠ "" := by
    intro hempty
    rw [hempty] at hlist
    exact Nat.toDigits_ne_nil hlist.symm
  have hall : isDigitText digits (toString n) = true := by
    simp only [isDigitText, hlist, Bool.and_eq_true, decide_eq_true_eq, all_eq_true]
    refine ⟨hne, fun c hc => ?_⟩
    rw [digitOf, if_pos (hdigits c hc), Option.isSome_some]
  have hgiven : (decide (toString n ≠ "") && isDigitText digits (toString n)) = true := by
    rw [hall, Bool.and_true, decide_eq_true_eq]
    exact hne
  rw [readCursor, if_pos hgiven, hlist, readDigits_of_isDigit digits hdigits,
    Nat.ofDigitChars_ten_toDigits]

theorem toString_position_injective {m n : ℕ} (h : toString m = toString n) : m = n := by
  have hm := readCursor_toString (fun _ => none) m
  rw [h, readCursor_toString] at hm
  exact (Option.some.inj hm).symm

def firstRow (length limit start : ℕ) : ℕ := max (min start length) (length - limit)

theorem changes_eq {digits : DigitTable} {build : α → β} {rows : List α} {limit start : ℕ}
    {sinceCursor : Option String} (hlimit : 0 < limit)
    (hstart : readCursor digits sinceCursor = some start) :
    changes digits build rows limit sinceCursor =
      some ((rows.drop (firstRow rows.length limit start)).mapIdx fun index event =>
        ⟨toString (start + index + 1), "event", build event⟩) := by
  have hrows : listRows digits rows limit sinceCursor =
      some (rows.drop (firstRow rows.length limit start)) := by
    simp only [listRows, hstart, Option.bind_eq_bind, Option.bind_some, Option.pure_def]
    rw [sliceFrom_neg _ hlimit, rtake_drop, firstRow]
  simp only [changes, listEvents, hrows, hstart, Option.bind_eq_bind, Option.bind_some,
    Option.pure_def, Option.some.injEq]
  refine (mapIdx_eq_iff.mpr fun index => ?_).symm
  rw [getElem?_map, getElem?_mapIdx, Option.map_map]
  rfl

/-- The rows of a log with their positions, the first row at position 1. -/
def numbered (log : List α) : List (α × ℕ) := log.mapIdx fun index event => (event, index + 1)

/-- Each change that is returned carries the position of its event as its cursor. The
services never look into a row, so the rows can carry their positions along. -/
def CursorsIdentify (digits : DigitTable) (build : α → β) (log : List α) (limit : ℤ)
    (sinceCursor : Option String) : Prop :=
  ∀ result, changes digits (Prod.map build id) (numbered log) limit sinceCursor = some result →
    ∀ change ∈ result, change.cursor = toString change.item.2

/-- Cursors identify the events exactly if no more than the limit are new. -/
theorem cursorsIdentify_iff (digits : DigitTable) (build : α → β) (log : List α) {limit : ℕ}
    (hlimit : 0 < limit) (sinceCursor : Option String) :
    CursorsIdentify digits build log limit sinceCursor ↔
      ∀ start, readCursor digits sinceCursor = some start → log.length - start ≤ limit := by
  have hlength : (numbered log).length = log.length := length_mapIdx
  unfold CursorsIdentify
  cases hstart : readCursor digits sinceCursor with
  | none =>
    have hnone : changes digits (Prod.map build id) (numbered log) limit sinceCursor = none := by
      simp [changes, listEvents, listRows, hstart]
    simp [hnone]
  | some start =>
    rw [changes_eq hlimit hstart, hlength]
    generalize hfirst : firstRow log.length limit start = first
    rw [firstRow] at hfirst
    constructor
    · -- The first returned row has position `first + 1` and cursor `start + 1`.
      intro h start' hstart'
      cases hstart'
      by_contra hlong
      have hbound : first < (numbered log).length := by omega
      have hrow : (numbered log)[first]? = some (log[first], first + 1) := by
        rw [numbered, getElem?_mapIdx, getElem?_eq_getElem (by omega), Option.map_some]
      have hhead := h _ rfl ⟨toString (start + 0 + 1), "event",
        Prod.map build id (log[first], first + 1)⟩ (by
          rw [mem_mapIdx]
          refine ⟨0, by rw [length_drop]; omega, ?_⟩
          rw [getElem_drop]
          congr 2
          rw [← Option.some.injEq, ← getElem?_eq_getElem]
          exact hrow)
      have hposition : start + 0 + 1 = first + 1 := toString_position_injective hhead
      omega
    · intro h result hresult change hchange
      have hshort := h start rfl
      cases hresult
      rw [mem_mapIdx] at hchange
      obtain ⟨index, hindex, rfl⟩ := hchange
      rw [length_drop] at hindex
      have hrow : (numbered log)[first + index] = (log[first + index], first + index + 1) := by
        simp [numbered]
      simp only [getElem_drop, hrow, Prod.map_apply, id_eq]
      congr 1
      omega

/-- What happens to a log and to the client that follows it. -/
inductive StreamOp (α : Type)
  | append (event : α)
  | poll (limit : ℕ+)

/-- A log, each row with its position, and a client of it. -/
structure Stream (α β : Type) where
  log : List (α × ℕ)
  /-- The cursor of the last change that the client received. -/
  cursor : Option String
  /-- The items that the client received, with their positions. -/
  received : List (β × ℕ)

/-- An empty log and a client that has received nothing. -/
def Stream.start : Stream α β := ⟨[], none, []⟩

/-- What the client should have received of the log. -/
def Stream.published (build : α → β) (s : Stream α β) : List (β × ℕ) :=
  s.log.map (Prod.map build id)

def Stream.step (digits : DigitTable) (build : α → β) (s : Stream α β) : StreamOp α → Stream α β
  | .append event => { s with log := s.log ++ [(event, s.log.length + 1)] }
  | .poll limit =>
    match changes digits (Prod.map build id) s.log (limit : ℕ) s.cursor with
    | none => s
    | some result =>
      { s with
        cursor := (result.getLast?.map SyncChange.cursor).or s.cursor
        received := s.received ++ result.map SyncChange.item }

/-- The client has received the log once and in order up to some point, and a poll takes
it further as long as something is left. -/
def Stream.Delivered (digits : DigitTable) (build : α → β) (s : Stream α β) (op : StreamOp α) :
    Prop :=
  (s.step digits build op).received <+: (s.step digits build op).published build ∧
    ∀ limit, op = .poll limit → s.received ≠ s.published build →
      s.received.length < (s.step digits build op).received.length

/-- A poll finds no more new events than its limit. -/
def Stream.Paced (digits : DigitTable) (s : Stream α β) (op : StreamOp α) : Prop :=
  ∀ limit, op = .poll limit → ∀ start, readCursor digits s.cursor = some start →
    s.log.length - start ≤ limit

/-- The client's cursor says how much of the log it has received. -/
structure Stream.InStep (digits : DigitTable) (build : α → β) (s : Stream α β) : Prop where
  positions : ∀ (index : ℕ) (row : α × ℕ), s.log[index]? = some row → row.2 = index + 1
  /-- The client has received the rows up to its cursor. -/
  cursor : ∃ seen ≤ s.log.length, readCursor digits s.cursor = some seen ∧
    s.received = (s.published build).take seen

variable {digits : DigitTable} {build : α → β} {s : Stream α β}

variable (build) in
theorem Stream.step_poll (limit : ℕ+) {start : ℕ}
    (hstart : readCursor digits s.cursor = some start) :
    (s.step digits build (.poll limit)).received =
      s.received ++ (s.published build).drop (firstRow s.log.length limit start) ∧
    (s.step digits build (.poll limit)).log = s.log ∧
    (s.step digits build (.poll limit)).cursor =
      if firstRow s.log.length limit start < s.log.length then
        some (toString (start + (s.log.length - firstRow s.log.length limit start)))
      else s.cursor := by
  have hchanges : changes digits (Prod.map build (id : ℕ → ℕ)) s.log (limit : ℕ) s.cursor =
      some ((s.log.drop (firstRow s.log.length limit start)).mapIdx fun index event =>
        ⟨toString (start + index + 1), "event", Prod.map build id event⟩) :=
    changes_eq limit.pos hstart
  simp only [Stream.step, hchanges, Stream.published]
  refine ⟨?_, trivial, ?_⟩
  · congr 1
    rw [← map_drop]
    apply ext_getElem?
    intro index
    simp only [getElem?_map, getElem?_mapIdx, Option.map_map]
    rfl
  · rw [getLast?_mapIdx]
    split
    · rename_i hlt
      have hne : s.log.drop (firstRow s.log.length limit start) ≠ [] := by
        intro hnil
        have := congrArg List.length hnil
        rw [length_drop, length_nil] at this
        omega
      rw [getLast?_eq_some_getLast hne, Option.map_some, Option.map_some, Option.some_or]
      have hcount : start + (s.log.length - firstRow s.log.length limit start - 1) + 1 =
          start + (s.log.length - firstRow s.log.length limit start) := by omega
      simp only [length_drop, hcount]
    · rename_i hge
      rw [drop_eq_nil_of_le (by omega)]
      rfl

theorem Stream.InStep.append (h : s.InStep digits build) (event : α) :
    (s.step digits build (.append event)).InStep digits build := by
  obtain ⟨hpositions, seen, hseen, hcursor, hreceived⟩ := h
  refine ⟨?_, seen, ?_, hcursor, ?_⟩
  · intro index row hrow
    simp only [Stream.step, getElem?_append] at hrow
    split at hrow
    · exact hpositions index row hrow
    · rw [getElem?_singleton] at hrow
      split at hrow
      · cases hrow
        simp only
        omega
      · cases hrow
  · simp only [Stream.step, length_append]
    omega
  · simp only [Stream.step, Stream.published, map_append]
    rw [take_append_of_le_length (by simpa using hseen)]
    exact hreceived

theorem Stream.InStep.received_of_paced (h : s.InStep digits build) {limit : ℕ+}
    (hpaced : s.Paced digits (.poll limit)) :
    (s.step digits build (.poll limit)).received = s.published build ∧
      readCursor digits (s.step digits build (.poll limit)).cursor = some s.log.length := by
  obtain ⟨-, seen, hseen, hcursor, hreceived⟩ := h
  have hshort := hpaced limit rfl seen hcursor
  obtain ⟨hitems, -, hnext⟩ := Stream.step_poll build limit hcursor
  have hfirst : firstRow s.log.length limit seen = seen := by
    rw [firstRow]
    omega
  rw [hfirst] at hitems hnext
  constructor
  · rw [hitems, hreceived, take_append_drop]
  · rw [hnext]
    split
    · rw [readCursor_toString]
      congr 1
      omega
    · have hall : seen = s.log.length := by omega
      rw [hcursor, hall]

theorem Stream.InStep.step (h : s.InStep digits build) {op : StreamOp α}
    (hpaced : s.Paced digits op) : (s.step digits build op).InStep digits build := by
  cases op with
  | append event => exact h.append event
  | poll limit =>
    obtain ⟨hreceived, hcursor⟩ := h.received_of_paced hpaced
    obtain ⟨seen, -, hseen, -⟩ := h.cursor
    have hlog := (Stream.step_poll build limit hseen).2.1
    have hpublished : (s.step digits build (.poll limit)).published build = s.published build := by
      rw [Stream.published, Stream.published, hlog]
    refine ⟨?_, s.log.length, ?_, hcursor, ?_⟩
    · rw [hlog]
      exact h.positions
    · rw [hlog]
    · rw [hreceived, hpublished, take_of_length_le]
      rw [Stream.published, length_map]

theorem Stream.InStep.not_prefix_of_not_paced (h : s.InStep digits build) {limit : ℕ+}
    (hlong : ¬s.Paced digits (.poll limit)) :
    ¬(s.step digits build (.poll limit)).received <+:
      (s.step digits build (.poll limit)).published build := by
  obtain ⟨hpositions, seen, hseen, hcursor, hreceived⟩ := h
  have hbacklog : (limit : ℕ) < s.log.length - seen := by
    by_contra hle
    apply hlong
    intro limit' hop start hstart
    cases hop
    rw [hcursor] at hstart
    cases hstart
    omega
  have hpos := limit.pos
  obtain ⟨hitems, hlog, -⟩ := Stream.step_poll build limit hcursor
  have hfirst : firstRow s.log.length limit seen = s.log.length - limit := by
    rw [firstRow]
    omega
  rw [hfirst, hreceived] at hitems
  rw [hitems, Stream.published, Stream.published, hlog]
  -- Position `seen + 1` comes next, and the poll answers with a later one.
  intro hinitial
  have hget := List.IsPrefix.getElem hinitial (i := seen) (by
    rw [length_append, length_take, length_drop, length_map]
    omega)
  rw [← Option.some.injEq, ← getElem?_eq_getElem, ← getElem?_eq_getElem] at hget
  have htake : ((s.log.map (Prod.map build id)).take seen).length = seen := by
    rw [length_take, length_map]
    omega
  rw [getElem?_append_right (by omega), htake, Nat.sub_self, getElem?_drop,
    getElem?_map, getElem?_map, Nat.add_zero,
    getElem?_eq_getElem (by omega : s.log.length - limit < s.log.length),
    getElem?_eq_getElem (by omega : seen < s.log.length)] at hget
  have hsecond := congrArg (Option.map Prod.snd) hget
  simp only [Option.map_some, Prod.map_snd, id_eq, Option.some.injEq] at hsecond
  rw [hpositions _ _ (getElem?_eq_getElem (by omega : s.log.length - limit < s.log.length)),
    hpositions _ _ (getElem?_eq_getElem (by omega : seen < s.log.length))] at hsecond
  omega

theorem Stream.InStep.paced_iff (h : s.InStep digits build) (op : StreamOp α) :
    s.Paced digits op ↔ s.Delivered digits build op := by
  constructor
  · intro hpaced
    obtain ⟨-, seen, hseen, -, hreceived⟩ := h.step hpaced
    refine ⟨?_, ?_⟩
    · rw [hreceived]
      exact take_prefix _ _
    · intro limit hop hleft
      subst hop
      rw [(h.received_of_paced hpaced).1]
      obtain ⟨seen', -, -, hbefore⟩ := h.cursor
      rw [hbefore] at hleft ⊢
      rw [length_take]
      by_contra hge
      exact hleft (take_of_length_le (by omega))
  · rintro ⟨hinitial, -⟩
    cases op with
    | append event =>
      intro limit hop
      cases hop
    | poll limit =>
      by_contra hlong
      exact h.not_prefix_of_not_paced hlong hinitial

theorem Stream.start_inStep : (Stream.start : Stream α β).InStep digits build :=
  ⟨fun _ _ h => by simp [Stream.start] at h, 0, le_refl _, rfl, rfl⟩

/-- The cursors of the changes that one request returns are the positions of their events
exactly when the rows after the given cursor are not more than the limit; and along a
run of appends and polls every event is delivered once and in order exactly when this
holds at each poll. -/
theorem realtime_cursors_iff (digits : DigitTable) (build : α → β) :
    (∀ (log : List α) (sinceCursor : Option String) (limit : ℕ+),
      CursorsIdentify digits build log (limit : ℕ) sinceCursor ↔
        ∀ start, readCursor digits sinceCursor = some start → log.length - start ≤ limit) ∧
    ∀ ops : List (StreamOp α),
      Along (Stream.step digits build) (Stream.Delivered digits build) Stream.start ops ↔
        Along (Stream.step digits build) (Stream.Paced digits) Stream.start ops := by
  constructor
  · intro log sinceCursor limit
    exact cursorsIdentify_iff digits build log limit.pos sinceCursor
  · intro ops
    exact (along_congr (P := Stream.InStep digits build) (fun _ op h => h.paced_iff op)
      (fun _ _ h hpaced => h.step hpaced) Stream.start_inStep ops).symm

end

/-- Two events and one poll for at most one row: the client gets the second event under
the cursor of the first, and never sees the first. -/
theorem burst_misnumbered :
    ¬CursorsIdentify (fun _ => none) (id : String → String) ["a", "b"] 1 none ∧
    ¬Along (Stream.step (fun _ => none) (id : String → String))
      (Stream.Delivered (fun _ => none) id) Stream.start
      [.append "a", .append "b", .poll 1, .poll 1] := by
  constructor
  · intro h
    have hcursor := h _ rfl ⟨toString 1, "event", ("b", 2)⟩ (by simp [numbered, sliceFrom])
    exact absurd (toString_position_injective hcursor) (by decide)
  · rintro ⟨-, -, ⟨hinitial, -⟩, -⟩
    revert hinitial
    decide

end AIpinho.Realtime
