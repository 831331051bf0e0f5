import AIpinho.Lib.Listing
import AIpinho.Lib.Program

/-!
# Calls that read, check and write

Each of several calls reads a shared value and may write a new one, so a call can overwrite what
another wrote after its read. A run is orderly when no call reads while another is about to
write; then it has the effect of performing the calls one after the other, in the order of their
reads.
-/

namespace AIpinho.Lib

open List

/-- What a call does when nobody comes between: the value it leaves and its result. -/
structure Transaction (V α : Type) where
  next : V → V
  result : V → Except String α

namespace Program

section

variable {S : Signature} {σ V α : Type} (h : Handler S σ) (ok : σ → Prop) (value : σ → V)
  (reads writes : S.Op → Prop)

/-- In the states that occur, the operation leaves a value and a state that occurs. -/
def Leaves (o : S.Op) (next : V → V) : Prop :=
  ∀ s, ok s → value (h o s).2 = next (value s) ∧ ok (h o s).2

/-- Only operations that leave the value alone are left, and only one result. -/
def Quiet (r : Except String α) (p : Program S α) : Prop :=
  p.Issues (fun o => Leaves h ok value o id) ∧ ∀ xs r', p.Ends xs r' → r' = r

def Writing (v : V) (r : Except String α) (p : Program S α) : Prop :=
  ∃ o k, p = .call o k ∧ writes o ∧ Leaves h ok value o (fun _ => v) ∧
    ∀ a, (k a).Quiet h ok value r

def Performs (t : Transaction V α) (p : Program S α) : Prop :=
  ∃ o k, p = .call o k ∧ reads o ∧ Leaves h ok value o id ∧ ∀ s, ok s →
    (t.next (value s) = value s ∧ (k (h o s).1).Quiet h ok value (t.result (value s))) ∨
      (k (h o s).1).Writing h ok value writes (t.next (value s)) (t.result (value s))

def AboutToWrite (p : Program S α) : Prop := ∃ o k, p = .call o k ∧ writes o

variable {h ok value reads writes} {r : Except String α} {p : Program S α}

theorem not_aboutToWrite_call {o : S.Op} {k : S.Answer o → Program S α} (ho : ¬writes o) :
    ¬(Program.call o k).AboutToWrite writes := by
  rintro ⟨o', k', heq, hwrites⟩
  cases heq
  exact ho hwrites

theorem Quiet.of_done {a : α} (hp : (done a : Program S α).Quiet h ok value r) : r = .ok a :=
  (hp.2 [] (.ok a) ⟨rfl, rfl⟩).symm

theorem Quiet.step {o : S.Op} {k : S.Answer o → Program S α}
    (hp : (Program.call o k).Quiet h ok value r) (a : S.Answer o) :
    (k a).Quiet h ok value r ∧ Leaves h ok value o id := by
  refine ⟨⟨hp.1.2 a, fun xs r' hends => ?_⟩, hp.1.1⟩
  exact hp.2 (⟨o, a⟩ :: xs) r' ⟨a, xs, rfl, hends⟩

theorem quiet_done (a : α) : (done a : Program S α).Quiet h ok value (.ok a) :=
  ⟨trivial, fun _ _ hends => hends.2⟩

theorem quiet_raise (e : String) : (raise e : Program S α).Quiet h ok value (.error e) :=
  ⟨trivial, fun _ _ hends => hends.2⟩

theorem quiet_call {o : S.Op} {k : S.Answer o → Program S α}
    (ho : Leaves h ok value o id) (hk : ∀ a, (k a).Quiet h ok value r) :
    (Program.call o k).Quiet h ok value r := by
  refine ⟨⟨ho, fun a => (hk a).1⟩, ?_⟩
  rintro xs r' ⟨a, ys, -, hends⟩
  exact (hk a).2 ys r' hends

end

end Program

namespace Pool

variable {S : Signature} {σ ι V : Type} [DecidableEq ι] {β : ι → Type}

/-- Runs in which no party reads while one is about to write. -/
inductive Orderly (h : Handler S σ) (reads writes : S.Op → Prop) :
    Pool S σ β → List (ι × S.Exchange) → Pool S σ β → Prop
  | nil (c : Pool S σ β) : Orderly h reads writes c [] c
  | cons {c c' : Pool S σ β} {tr : List (ι × S.Exchange)} (i : ι) (o : S.Op)
      (k : S.Answer o → Program S (β i)) (hi : c.threads i = .call o k)
      (hfree : reads o → ∀ j, ¬(c.threads j).AboutToWrite writes)
      (hrest : Orderly h reads writes (c.advance h i o k) tr c') :
      Orderly h reads writes c ((i, ⟨o, (h o c.state).1⟩) :: tr) c'

variable {h : Handler S σ} {ok : σ → Prop} {value : σ → V} {reads writes : S.Op → Prop}
  {ts : (i : ι) → Transaction V (β i)}

theorem Orderly.done_of_done {c c' : Pool S σ β} {tr : List (ι × S.Exchange)}
    (hr : Orderly h reads writes c tr c') {i : ι} {a : β i} (hi : c.threads i = .done a) :
    c'.threads i = .done a := by
  induction hr with
  | nil c => exact hi
  | @cons c c' tr j o k hj _ _ ih =>
    have hne : i ≠ j := by
      rintro rfl
      rw [hi] at hj
      cases hj
    apply ih
    rw [advance_threads_of_ne _ _ _ _ hne]
    exact hi

def final (ts : (i : ι) → Transaction V (β i)) (v : V) (log : List (ι × V)) : V :=
  log.foldl (fun v entry => (ts entry.1).next v) v

def Chain (ts : (i : ι) → Transaction V (β i)) (v : V) (log : List (ι × V)) : Prop :=
  ∀ pre entry post, log = pre ++ entry :: post → entry.2 = final ts v pre

omit [DecidableEq ι] in
theorem final_cons (v : V) (entry : ι × V) (log : List (ι × V)) :
    final ts v (entry :: log) = final ts ((ts entry.1).next v) log := rfl

omit [DecidableEq ι] in
theorem final_append (v : V) (first second : List (ι × V)) :
    final ts v (first ++ second) = final ts (final ts v first) second := List.foldl_append

omit [DecidableEq ι] in
theorem final_keeps {P : V → Prop} (hP : ∀ i v, P v → P ((ts i).next v)) {v : V} (hv : P v)
    (log : List (ι × V)) : P (final ts v log) := by
  induction log generalizing v with
  | nil => exact hv
  | cons entry log ih => exact ih (hP entry.1 v hv)

omit [DecidableEq ι] in
theorem Chain.of_cons {v : V} {entry : ι × V} {log : List (ι × V)}
    (h : Chain ts v (entry :: log)) : entry.2 = v ∧ Chain ts ((ts entry.1).next v) log := by
  refine ⟨h [] entry log rfl, fun pre other post hsplit => ?_⟩
  exact h (entry :: pre) other post (by rw [hsplit]; rfl)

omit [DecidableEq ι] in
/-- A transaction reads what the chain has left, and becomes its last entry. -/
theorem Chain.snoc {v : V} {log : List (ι × V)} (hlog : Chain ts v log) (i : ι) :
    Chain ts v (log ++ [(i, final ts v log)]) := by
  intro pre entry post hsplit
  rcases eq_nil_or_concat post with rfl | ⟨post, last, rfl⟩
  · obtain ⟨rfl, hentry⟩ := append_inj' hsplit rfl
    rw [← (List.cons.inj hentry).1]
  · have hinit : log ++ [(i, final ts v log)] = (pre ++ entry :: post) ++ [last] := by
      rw [hsplit]
      simp
    exact hlog pre entry post (append_inj' hinit rfl).1

/-- The transactions of the parties that have read form a chain, in the order of their
reads. All of them are quiet, and the value is what the chain left; or the last one is
about to write, and the value is what it read. -/
structure Serialized (h : Handler S σ) (ok : σ → Prop) (value : σ → V) (reads writes : S.Op → Prop)
    (ts : (i : ι) → Transaction V (β i)) (v : V) (log : List (ι × V)) (c : Pool S σ β) : Prop where
  occurs : ok c.state
  /-- Each read what its predecessor left. -/
  chain : Chain ts v log
  nodup : (log.map Prod.fst).Nodup
  /-- The other parties have not started. -/
  fresh : ∀ i, i ∉ log.map Prod.fst → (c.threads i).Performs h ok value reads writes (ts i)
  started : ((∀ entry ∈ log, (c.threads entry.1).Quiet h ok value ((ts entry.1).result entry.2)) ∧
      value c.state = final ts v log) ∨
    ∃ pre last, log = pre ++ [last] ∧
      (∀ entry ∈ pre, (c.threads entry.1).Quiet h ok value ((ts entry.1).result entry.2)) ∧
      value c.state = last.2 ∧ (c.threads last.1).Writing h ok value writes
        ((ts last.1).next last.2) ((ts last.1).result last.2)

section

variable {v : V} {log : List (ι × V)} {c : Pool S σ β}

omit [DecidableEq ι] in
theorem Serialized.start (hok : ok c.state)
    (hall : ∀ i, (c.threads i).Performs h ok value reads writes (ts i)) :
    Serialized h ok value reads writes ts (value c.state) [] c where
  occurs := hok
  chain pre entry post hsplit := by simp at hsplit
  nodup := nodup_nil
  fresh i _ := hall i
  started := Or.inl ⟨fun entry hentry => by simp at hentry, rfl⟩

theorem quiet_advance {i : ι} {o : S.Op} {k : S.Answer o → Program S (β i)}
    (hi : c.threads i = .call o k) {entries : List (ι × V)}
    (hquiet : ∀ entry ∈ entries,
      (c.threads entry.1).Quiet h ok value ((ts entry.1).result entry.2)) :
    ∀ entry ∈ entries,
      ((c.advance h i o k).threads entry.1).Quiet h ok value ((ts entry.1).result entry.2) := by
  rintro ⟨j, w⟩ hentry
  have hj := hquiet _ hentry
  by_cases hij : j = i
  · subst hij
    simp only [advance_threads_self]
    simp only [hi] at hj
    exact (hj.step _).1
  · simp only [advance_threads_of_ne _ _ _ _ hij]
    exact hj

theorem quiet_advance_of_ne {i : ι} {o : S.Op} {k : S.Answer o → Program S (β i)}
    {entries : List (ι × V)} (hi : i ∉ entries.map Prod.fst)
    (hquiet : ∀ entry ∈ entries,
      (c.threads entry.1).Quiet h ok value ((ts entry.1).result entry.2)) :
    ∀ entry ∈ entries,
      ((c.advance h i o k).threads entry.1).Quiet h ok value ((ts entry.1).result entry.2) := by
  intro entry hentry
  have hne : entry.1 ≠ i := by
    rintro rfl
    exact hi (mem_map_of_mem hentry)
  rw [advance_threads_of_ne _ _ _ _ hne]
  exact hquiet entry hentry

theorem Serialized.step_fresh (hs : Serialized h ok value reads writes ts v log c) {i : ι}
    {o : S.Op} {k : S.Answer o → Program S (β i)} (hi : c.threads i = .call o k)
    (hfree : reads o → ∀ j, ¬(c.threads j).AboutToWrite writes) (hnew : i ∉ log.map Prod.fst) :
    Serialized h ok value reads writes ts v (log ++ [(i, value c.state)]) (c.advance h i o k) := by
  obtain ⟨o', k', heq, hreads, hkeep, hk⟩ := hs.fresh i hnew
  rw [hi] at heq
  cases heq
  -- Nobody is about to write, so the value is what the chain has left.
  have hquiet : (∀ entry ∈ log,
      (c.threads entry.1).Quiet h ok value ((ts entry.1).result entry.2)) ∧
      value c.state = final ts v log := by
    rcases hs.started with hquiet | ⟨pre, last, -, -, -, o', k', hlast, hwrites, -⟩
    · exact hquiet
    · exact absurd ⟨o', k', hlast, hwrites⟩ (hfree hreads last.1)
  obtain ⟨hquiet, hvalue⟩ := hquiet
  have hothers := quiet_advance_of_ne (h := h) (o := o) (k := k) hnew hquiet
  obtain ⟨hsame', hok⟩ := hkeep c.state hs.occurs
  constructor
  case occurs => exact hok
  case chain =>
    rw [hvalue]
    exact hs.chain.snoc i
  case nodup =>
    rw [map_append]
    exact nodup_concat_iff.mpr ⟨hnew, hs.nodup⟩
  case fresh =>
    intro j hj
    rw [map_append, mem_append, not_or] at hj
    have hne : j ≠ i := by simpa using hj.2
    rw [advance_threads_of_ne _ _ _ _ hne]
    exact hs.fresh j hj.1
  case started =>
    rcases hk c.state hs.occurs with ⟨hsame, hdone⟩ | hwriting
    · refine Or.inl ⟨?_, ?_⟩
      · intro entry hentry
        rcases mem_append.mp hentry with hentry | hentry
        · exact hothers entry hentry
        · rw [mem_singleton] at hentry
          subst hentry
          simp only [advance_threads_self]
          exact hdone
      · rw [advance_state, hsame', final_append, ← hvalue]
        exact hsame.symm
    · refine Or.inr ⟨log, (i, value c.state), rfl, hothers, ?_, ?_⟩
      · rw [advance_state, hsame']
        rfl
      · simp only [advance_threads_self]
        exact hwriting

theorem Serialized.step_started (hs : Serialized h ok value reads writes ts v log c) {i : ι}
    {o : S.Op} {k : S.Answer o → Program S (β i)} (hi : c.threads i = .call o k)
    (hold : i ∈ log.map Prod.fst) :
    Serialized h ok value reads writes ts v log (c.advance h i o k) := by
  have hfresh : ∀ j, j ∉ log.map Prod.fst →
      ((c.advance h i o k).threads j).Performs h ok value reads writes (ts j) := by
    intro j hj
    have hne : j ≠ i := fun heq => hj (heq ▸ hold)
    rw [advance_threads_of_ne _ _ _ _ hne]
    exact hs.fresh j hj
  have hkeeps : ∀ entries : List (ι × V), i ∈ entries.map Prod.fst →
      (∀ entry ∈ entries, (c.threads entry.1).Quiet h ok value ((ts entry.1).result entry.2)) →
      value (h o c.state).2 = value c.state ∧ ok (h o c.state).2 := by
    intro entries hmem hquiet
    obtain ⟨⟨j, w⟩, hentry, rfl⟩ := mem_map.mp hmem
    have hj := hquiet _ hentry
    simp only [hi] at hj
    exact (hj.step (h o c.state).1).2 c.state hs.occurs
  rcases hs.started with ⟨hquiet, hvalue⟩ | ⟨pre, last, hlog, hquiet, hvalue, hwriting⟩
  · obtain ⟨hsame, hok⟩ := hkeeps log hold hquiet
    refine ⟨hok, hs.chain, hs.nodup, hfresh, Or.inl ⟨quiet_advance hi hquiet, ?_⟩⟩
    rw [advance_state, hsame]
    exact hvalue
  have hnodup := hs.nodup
  rw [hlog, map_append, List.nodup_append] at hnodup
  have hlast : last.1 ∉ pre.map Prod.fst := fun hmem =>
    hnodup.2.2 last.1 hmem last.1 (by simp) rfl
  by_cases hii : i = last.1
  · -- The last party writes.
    subst hii
    obtain ⟨o', k', heq, -, hwrite, hk⟩ := hwriting
    rw [hi] at heq
    cases heq
    obtain ⟨hleft, hok⟩ := hwrite c.state hs.occurs
    refine ⟨hok, hs.chain, hs.nodup, hfresh, Or.inl ⟨?_, ?_⟩⟩
    · intro entry hentry
      rw [hlog, mem_append, mem_singleton] at hentry
      rcases hentry with hentry | rfl
      · exact quiet_advance_of_ne hlast hquiet entry hentry
      · rw [advance_threads_self]
        exact hk _
    · have hread := hs.chain pre last [] hlog
      rw [advance_state, hleft, hlog, final_append, ← hread]
      rfl
  · have hmem : i ∈ pre.map Prod.fst := by
      rw [hlog, map_append, mem_append] at hold
      rcases hold with hold | hold
      · exact hold
      · simp only [map_cons, map_nil, mem_singleton] at hold
        exact absurd hold hii
    obtain ⟨hsame, hok⟩ := hkeeps pre hmem hquiet
    refine ⟨hok, hs.chain, hs.nodup, hfresh, Or.inr ⟨pre, last, hlog, quiet_advance hi hquiet,
      ?_, ?_⟩⟩
    · rw [advance_state, hsame]
      exact hvalue
    · rw [advance_threads_of_ne _ _ _ _ (Ne.symm hii)]
      exact hwriting

/-- An orderly run continues the chain, with parties that move in it. -/
theorem Orderly.serialized {c c' : Pool S σ β} {tr : List (ι × S.Exchange)}
    (hr : Orderly h reads writes c tr c') {log : List (ι × V)}
    (hs : Serialized h ok value reads writes ts v log c) :
    ∃ more, Serialized h ok value reads writes ts v (log ++ more) c' ∧
      ∀ entry ∈ more, entry.1 ∈ tr.map Prod.fst := by
  induction hr generalizing log with
  | nil c => exact ⟨[], by rwa [append_nil], by simp⟩
  | @cons c c' tr i o k hi hfree _ ih =>
    by_cases hnew : i ∈ log.map Prod.fst
    · obtain ⟨more, hmore, hmoved⟩ := ih (hs.step_started hi hnew)
      exact ⟨more, hmore, fun entry hentry => mem_cons_of_mem _ (hmoved entry hentry)⟩
    · obtain ⟨more, hmore, hmoved⟩ := ih (hs.step_fresh hi hfree hnew)
      refine ⟨(i, value c.state) :: more, by rwa [append_assoc] at hmore, ?_⟩
      rw [forall_mem_cons]
      exact ⟨mem_cons_self, fun entry hentry => mem_cons_of_mem _ (hmoved entry hentry)⟩

theorem Serialized.of_done (hs : Serialized h ok value reads writes ts v log c) {i : ι} {a : β i}
    (hi : c.threads i = .done a) :
    ∃ pre w post, log = pre ++ (i, w) :: post ∧ w = final ts v pre ∧
      (ts i).result w = .ok a ∧ ∃ rest, rest <+: post ∧
        value c.state = final ts ((ts i).next w) rest := by
  have hmem : i ∈ log.map Prod.fst := by
    by_contra hnew
    obtain ⟨o, k, heq, -⟩ := hs.fresh i hnew
    rw [hi] at heq
    cases heq
  obtain ⟨⟨j, w⟩, hentry, rfl⟩ := mem_map.mp hmem
  obtain ⟨pre, post, hlog⟩ := append_of_mem hentry
  have hread := hs.chain pre (j, w) post hlog
  have hleft : ∀ rest, final ts v (pre ++ (j, w) :: rest) = final ts ((ts j).next w) rest := by
    intro rest
    rw [final_append, ← hread]
    rfl
  rcases hs.started with ⟨hquiet, hvalue⟩ | ⟨pre', last, hlog', hquiet, hvalue, hwriting⟩
  · refine ⟨pre, w, post, hlog, hread, ?_, post, prefix_refl _, ?_⟩
    · have hj := hquiet _ hentry
      simp only [hi] at hj
      exact hj.of_done
    · rw [hvalue, hlog, hleft]
  · -- The party that is about to write comes later.
    have hne : post ≠ [] := by
      rintro rfl
      have hsame := hlog.symm.trans hlog'
      obtain ⟨-, hlast⟩ := append_inj' hsame rfl
      rw [← (List.cons.inj hlast).1] at hwriting
      obtain ⟨o, k, heq, -⟩ := hwriting
      simp only [hi] at heq
      cases heq
    obtain ⟨init, writer, hpost⟩ := (eq_nil_or_concat post).resolve_left hne
    rw [concat_eq_append] at hpost
    subst hpost
    have hsplit : (pre ++ (j, w) :: init) ++ [writer] = pre' ++ [last] := by
      rw [← hlog', hlog]
      simp
    obtain ⟨hpre, hlast⟩ := append_inj' hsplit rfl
    refine ⟨pre, w, init ++ [writer], hlog, hread, ?_, init, prefix_append _ _, ?_⟩
    · have hj := hquiet (j, w) (by rw [← hpre]; simp)
      simp only [hi] at hj
      exact hj.of_done
    · rw [hvalue, hs.chain pre' last [] hlog', ← hpre, hleft]

theorem Serialized.of_done_later {more : List (ι × V)}
    (hs : Serialized h ok value reads writes ts v (log ++ more) c) {i : ι} {a : β i}
    (hi : c.threads i = .done a) (hnew : i ∉ log.map Prod.fst) :
    ∃ between, (ts i).result (final ts (final ts v log) between) = .ok a := by
  obtain ⟨pre, w, post, hsplit, hread, hresult, -⟩ := hs.of_done hi
  rcases append_eq_append_iff.mp hsplit with ⟨between, rfl, -⟩ | ⟨between, rfl, hmore⟩
  · refine ⟨between, ?_⟩
    rw [← final_append, ← hread]
    exact hresult
  · cases between with
    | nil =>
      refine ⟨[], ?_⟩
      rw [append_nil, final, foldl_nil, ← hread]
      exact hresult
    | cons entry between =>
      obtain ⟨rfl, -⟩ := List.cons.inj hmore
      exact absurd (by simp) hnew

end

end Pool

end AIpinho.Lib
