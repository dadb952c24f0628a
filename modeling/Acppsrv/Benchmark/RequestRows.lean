import Mathlib.Algebra.Order.BigOperators.Group.List
import Mathlib.Algebra.Order.Ring.Int
import Acppsrv.Benchmark.Deadline
/-!
# What `requests` does to the tables (benchmark.cpp:693-712, :725-818)

The rows that are there stay, with their keys and hashes; an update adds one to the counter of every row with
its hash, and an insert appends a row. What was executed is in `State.log`, so the tables and the running
totals of `is_done` are both accounts of it: `requests_rows`, `requests_counted`.

The keys file says which hashes are looked up. When it is made of the keys files that `create` left, every get
finds its row and no update is without one (`requests_find_rows`).
-/
namespace Acppsrv.Benchmark.Requests
open Lib

/-! ## Statements -/

/-- The updates of a hash. -/
def updatesOf (log : List Handled) (p : Nat) (hash : Int64) : Nat :=
  log.countP fun e => e.partition = p ∧ e.request = .update hash

/-- The row after the updates of its hash. -/
def Row.updated (log : List Handled) (p : Nat) (row : Row) : Row :=
  { row with counter := row.counter + updatesOf log p row.hash }

/-- What an insert puts into the row. -/
def Handled.inserts (p : Nat) (e : Handled) : Option (Key × Int64) :=
  match e.request with
  | .insert rec => if e.partition = p then some (rec.key, insertHash rec) else none
  | _ => none

def insertsOf (log : List Handled) (p : Nat) : List (Key × Int64) := log.filterMap (Handled.inserts p)

/-- The table of partition `p`: the rows it had, and those inserted. -/
structure TableOk (rows₀ : List Row) (log : List Handled) (p : Nat) (rows : List Row) : Prop where
  kept : rows.take rows₀.length = rows₀.map (Row.updated log p)
  added : (rows.drop rows₀.length).map (fun row => (row.key, row.hash)) = insertsOf log p
  counters : ∀ row ∈ rows.drop rows₀.length, 0 ≤ row.counter ∧ row.counter ≤ updatesOf log p row.hash

@[simp] theorem bump_key (hash : Int64) (row : Row) : (row.bump hash).key = row.key := by
  unfold Row.bump
  split
  · rfl
  · rfl

@[simp] theorem bump_hash (hash : Int64) (row : Row) : (row.bump hash).hash = row.hash := by
  unfold Row.bump
  split
  · rfl
  · rfl

theorem bump_counter (hash : Int64) (row : Row) :
    (row.bump hash).counter = row.counter + if row.hash = hash then 1 else 0 := by
  unfold Row.bump
  split
  · rfl
  · simp

theorem updatesOf_snoc (log : List Handled) (e : Handled) (p : Nat) (hash : Int64) :
    updatesOf (log ++ [e]) p hash = updatesOf log p hash + if e.partition = p ∧ e.request = .update hash then 1 else 0 := by
  simp [updatesOf, List.countP_append, List.countP_singleton]

theorem updatesOf_other {log : List Handled} {e : Handled} {p : Nat} {hash : Int64}
    (h : e.partition ≠ p ∨ ∀ hash, e.request ≠ .update hash) : updatesOf (log ++ [e]) p hash = updatesOf log p hash := by
  rw [updatesOf_snoc, if_neg, Nat.add_zero]
  rintro ⟨hp, hr⟩
  rcases h with h | h
  · exact h hp
  · exact h hash hr

/-- Nothing in the new message is about the table. -/
theorem TableOk.other {rows₀ rows : List Row} {log : List Handled} {p : Nat} {e : Handled} (h : TableOk rows₀ log p rows)
    (he : e.partition ≠ p ∨ ∃ hash, e.request = .get hash) : TableOk rows₀ (log ++ [e]) p rows := by
  have hupdates (hash : Int64) : updatesOf (log ++ [e]) p hash = updatesOf log p hash := by
    refine updatesOf_other (he.imp id ?_)
    rintro ⟨h', hg⟩ hash heq
    rw [hg] at heq
    cases heq
  have hinserts : insertsOf (log ++ [e]) p = insertsOf log p := by
    have hnone : e.inserts p = none := by
      unfold Handled.inserts
      split
      · rename_i rec hrec
        rcases he with hp | ⟨hash, hg⟩
        · rw [if_neg hp]
        · rw [hg] at hrec; cases hrec
      · rfl
    simp [insertsOf, List.filterMap_append, hnone]
  obtain ⟨hkept, hadded, hcounters⟩ := h
  refine ⟨?_, hadded.trans hinserts.symm, fun row hrow => by rw [hupdates]; exact hcounters row hrow⟩
  rw [hkept]
  refine List.map_congr_left fun row _ => ?_
  simp only [Row.updated, hupdates]

theorem TableOk.length_le {rows₀ rows : List Row} {log : List Handled} {p : Nat} (h : TableOk rows₀ log p rows) :
    rows₀.length ≤ rows.length := by
  have hlen := congrArg List.length h.kept
  rw [List.length_take, List.length_map] at hlen
  omega

theorem updatesOf_update (log : List Handled) (p : Nat) (hash hash' : Int64) (result : List Row) :
    updatesOf (log ++ [⟨p, .update hash, result⟩]) p hash' = updatesOf log p hash' + if hash' = hash then 1 else 0 := by
  rw [updatesOf_snoc]
  by_cases heq : hash' = hash
  · simp [heq]
  · simp [heq, Ne.symm heq]

theorem TableOk.execute {rows₀ rows : List Row} {log : List Handled} {p : Nat} (h : TableOk rows₀ log p rows)
    (req : Request) (result : List Row) : TableOk rows₀ (log ++ [⟨p, req, result⟩]) p (req.execute rows).1 := by
  cases req with
  | get hash => exact h.other (Or.inr ⟨hash, rfl⟩)
  | update hash =>
    obtain ⟨hkept, hadded, hcounters⟩ := h
    constructor
    · rw [Request.execute, ← List.map_take, hkept, List.map_map]
      refine List.map_congr_left fun row _ => ?_
      apply Row.ext
      · simp [Row.updated]
      · simp [Row.updated]
      · simp only [Function.comp, bump_counter, Row.updated, updatesOf_update]
        split
        · simp only [Nat.cast_add, Nat.cast_one, Int.add_assoc]
        · simp
    · have hins : insertsOf (log ++ [⟨p, .update hash, result⟩]) p = insertsOf log p := by
        simp [insertsOf, Handled.inserts, List.filterMap_append]
      rw [Request.execute, ← List.map_drop, List.map_map, hins, ← hadded]
      exact List.map_congr_left fun row _ => by simp
    · intro row hrow
      rw [Request.execute, ← List.map_drop] at hrow
      obtain ⟨old, hold, rfl⟩ := List.mem_map.1 hrow
      obtain ⟨hpos, hle⟩ := hcounters old hold
      rw [bump_hash, bump_counter, updatesOf_update]
      split
      · omega
      · omega
  | insert rec =>
    have hlen := h.length_le
    obtain ⟨hkept, hadded, hcounters⟩ := h
    have hupdates (hash : Int64) : updatesOf (log ++ [⟨p, .insert rec, result⟩]) p hash = updatesOf log p hash :=
      updatesOf_other (Or.inr fun _ => by simp)
    constructor
    · rw [Request.execute, List.take_append_of_le_length hlen, hkept]
      refine List.map_congr_left fun row _ => ?_
      simp only [Row.updated, hupdates]
    · have hins : insertsOf (log ++ [⟨p, .insert rec, result⟩]) p = insertsOf log p ++ [(rec.key, insertHash rec)] := by
        simp [insertsOf, Handled.inserts, List.filterMap_append]
      rw [Request.execute, List.drop_append_of_le_length hlen, List.map_append, hadded, hins]
      rfl
    · intro row hrow
      rw [hupdates]
      rw [Request.execute, List.drop_append_of_le_length hlen] at hrow
      rcases List.mem_append.1 hrow with hrow | hrow
      · exact hcounters row hrow
      · obtain rfl : row = ⟨rec.key, insertHash rec, 0⟩ := by simpa using hrow
        exact ⟨Int.le_refl 0, Int.natCast_nonneg _⟩

/-! ## Tables over a run -/

section
variable {D : Type} [LT D] [DecidableLT D] [Add D] {cfg : Cfg D} {rows₀ : Nat → List Row} {s s' : State}

def TablesOk (rows₀ : Nat → List Row) (s : State) : Prop :=
  ∀ (p : Nat) st, s.strands[p]? = some st → TableOk (rows₀ p) s.log p st.rows

/-- Posting leaves every table alone. -/
theorem post_rows {q : Nat} {req : Request} {p : Nat} {st : Strand} (h : (s.post q req).strands[p]? = some st) :
    ∃ st₀ queue, s.strands[p]? = some st₀ ∧ st = { st₀ with queue := queue } ∧
      (queue = st₀.queue ∨ p = q ∧ queue = st₀.queue ++ [req]) := by
  simp only [State.post, List.getElem?_modify] at h
  obtain ⟨st₀, h₀, rfl⟩ := Option.map_eq_some_iff.1 h
  by_cases hq : q = p
  · rw [if_pos hq]
    exact ⟨st₀, _, h₀, rfl, Or.inr ⟨hq.symm, rfl⟩⟩
  · rw [if_neg hq]
    exact ⟨st₀, st₀.queue, h₀, rfl, Or.inl rfl⟩

theorem TablesOk.post (h : TablesOk rows₀ s) (q : Nat) (req : Request) : TablesOk rows₀ (s.post q req) := by
  intro p st hp
  obtain ⟨st₀, queue, h₀, rfl, -⟩ := post_rows hp
  exact h p st₀ h₀

theorem TablesOk.put (h : TablesOk rows₀ s) {p : Nat} {st st' : Strand} (hp : s.strands[p]? = some st)
    (hrows : st'.rows = st.rows) : TablesOk rows₀ (s.put p st') := by
  refine forall_set (P := fun j x => TableOk (rows₀ j) s.log j x.rows) (fun j x _ hx => h j x hx) ?_
  rw [hrows]
  exact h p st hp

theorem tablesOk_move {a : Act D} (h : TablesOk rows₀ s) (hm : Move cfg s a s') : TablesOk rows₀ s' := by
  cases hm with
  | @start p st req queue hp hpc hq =>
    refine forall_set (P := fun j (x : Strand) => TableOk (rows₀ j) (s.log ++ [_]) j x.rows) (fun j x hj hx => ?_) ?_
    · exact (h j x hx).other (Or.inl (Ne.symm hj))
    · exact (h p st hp).execute req _
  | isDone hp hpc hm ht => exact TablesOk.put (s := { s with wrk := _, now := _ }) h hp rfl
  | stop hp hpc => exact h.put hp rfl
  | @next p q st d req hp hpc hd =>
    exact TablesOk.post (s := s.put p { st with pc := .idle }) (h.put hp rfl) q req

theorem tablesOk_run {requests : Nat} {draws : Nat → Draw D} {t0 : Int} {s₀ : State} {as : List (Act D)}
    (h₀ : init cfg rows₀ requests draws t0 = some s₀) (h : exec (requestsStep cfg) s₀ as = some s) : TablesOk rows₀ s := by
  have hinit : TablesOk rows₀ s₀ := by
    refine init_rule (fun _ => TablesOk rows₀) ?_ (fun _ _ q req _ hs _ => hs.post q req) h₀
    intro p st hp
    simp only [opened, List.getElem?_map] at hp
    obtain ⟨q, hq, rfl⟩ := Option.map_eq_some_iff.1 hp
    obtain ⟨hlt, rfl⟩ := List.getElem?_eq_some_iff.1 hq
    simp only [List.getElem_range]
    refine ⟨?_, by simp [insertsOf, opened], by simp⟩
    have hid : Row.updated [] p = id := by
      funext row
      simp [Row.updated, updatesOf]
    simp [opened, hid]
  exact exec_invariant (fun _ => True) (TablesOk rows₀) (fun _ _ _ _ hs hstep => tablesOk_move hs (requestsStep_move hstep))
    (fun _ _ => trivial) hinit h

end

/-- **The tables.** In every run: a row that was there is there, with its key and its hash, and its counter has
gone up by the number of updates of its hash in its partition; behind these are the rows of the inserts, in the
order of their execution, with a counter between 0 and that number. -/
theorem requests_rows {D : Type} [LT D] [DecidableLT D] [Add D] (cfg : Cfg D) (rows : Nat → List Row) (requests : Nat)
    (draws : Nat → Draw D) (t0 : Int) (s₀ : State) (h₀ : init cfg rows requests draws t0 = some s₀) (as : List (Act D))
    (s : State) (h : exec (requestsStep cfg) s₀ as = some s) (p : Nat) (st : Strand) (hp : s.strands[p]? = some st) :
    TableOk (rows p) s.log p st.rows :=
  tablesOk_run h₀ h p st hp

/-- Three updates, the last two by handlers that stop. -/
def threeUpdates : List (Act Int) := handler 1 3 ++ handler 1 4 ++ handler 1 5

theorem threeUpdates_run : ∃ s₀ s st, init updatesOnly oneRow 2 (fun _ => zeroDraw) 1 = some s₀ ∧
    exec (requestsStep updatesOnly) s₀ threeUpdates = some s ∧ Complete s ∧
    s.strands[1]? = some st ∧ st.rows = [⟨keyOf 0, 7, 3⟩] := by
  have hrun : ((init updatesOnly oneRow 2 (fun _ => zeroDraw) 1).bind fun s₀ =>
      (exec (requestsStep updatesOnly) s₀ threeUpdates).map fun s =>
        (decide (Complete s), (s.strands[1]?).map Strand.rows)) = some (true, some [⟨keyOf 0, 7, 3⟩]) := by decide
  obtain ⟨s₀, h₀, hmap⟩ := Option.bind_eq_some_iff.1 hrun
  obtain ⟨s, hs, heq⟩ := Option.map_eq_some_iff.1 hmap
  simp only [Prod.mk.injEq, decide_eq_true_eq] at heq
  obtain ⟨st, hst, hrows⟩ := Option.map_eq_some_iff.1 heq.2
  exact ⟨s₀, s, st, h₀, hs, heq.1, hst, hrows⟩

theorem requests_rows_threeUpdates : ∃ s₀ s st, init updatesOnly oneRow 2 (fun _ => zeroDraw) 1 = some s₀ ∧
    exec (requestsStep updatesOnly) s₀ threeUpdates = some s ∧ s.strands[1]? = some st ∧
    st.rows = [⟨keyOf 0, 7, 3⟩] ∧ TableOk (oneRow 1) s.log 1 st.rows := by
  obtain ⟨s₀, s, st, h₀, hs, -, hst, hrows⟩ := threeUpdates_run
  exact ⟨s₀, s, st, h₀, hs, hst, hrows, requests_rows updatesOnly oneRow 2 _ 1 s₀ h₀ _ s hs 1 st hst⟩

/-! ## Running totals -/

/-- A request of this kind adds to the counter. -/
def Count.of (c : Count) (kind : RequestKind) : Bool := c = .records ∨ c = kind.count

theorem count_of (c : Count) (kind : RequestKind) :
    (increments kind).count ⟨false, c⟩ = if Count.of c kind then 1 else 0 := by
  cases kind <;> cases c <;> rfl

/-- The increment that a handler has not entered `is_done` for. -/
def Strand.owes (c : Count) (st : Strand) : Nat :=
  match st.pc with
  | .handled kind => if Count.of c kind then 1 else 0
  | _ => 0

def handledOf (c : Count) (log : List Handled) : Nat := log.countP fun e => Count.of c e.request.kind

/-- The running total, and what is still owed to it, count the requests. -/
def CountInv (c : Count) (s : State) : Prop :=
  ((s.wrk.sum c).toNat + total (DonePc.owes ⟨false, c⟩) s.wrk.threads + total (Strand.owes c) s.strands) % 2 ^ 64 =
    handledOf c s.log % 2 ^ 64

/-- A step of `is_done` is its call, or it is made inside. -/
theorem next_cases {now : Int} {pc pc' : Pc} {a : DoneAct} (h : pc.next now a = some pc') :
    (∃ kind, pc = .handled kind ∧ a = .enter kind ∧ pc' = .inDone none) ∨
    ∃ tnow tnow', pc = .inDone tnow ∧ (∀ kind, a ≠ .enter kind) ∧ pc' = .inDone tnow' := by
  unfold Pc.next at h
  split at h
  · rename_i kind kind'
    simp only [Option.ite_none_right_eq_some, Option.some.injEq] at h
    obtain ⟨rfl, rfl⟩ := h
    exact Or.inl ⟨_, rfl, rfl, rfl⟩
  · cases h
  · simp only [Option.ite_none_right_eq_some, Option.some.injEq] at h
    exact Or.inr ⟨_, _, rfl, by simp, h.2.symm⟩
  · rename_i hne _
    cases h
    exact Or.inr ⟨_, _, rfl, hne, rfl⟩
  · cases h

/-- In `is_done` and after it nothing is owed by the strand itself. -/
theorem settle_owes {D : Type} (cfg : Cfg D) (c : Count) (st : Strand) (t0 : Int) (thread : DonePc) (tnow : Option Int) :
    Strand.owes c { st with pc := Pc.settle cfg t0 thread (.inDone tnow) } = 0 := by
  unfold Strand.owes Pc.settle
  cases thread with
  | outside =>
    cases tnow with
    | none => rfl
    | some t => rfl
  | counting | testing | loading | clearing => rfl

section
variable {D : Type} [LT D] [DecidableLT D] [Add D] {cfg : Cfg D} {c : Count} {n : Nat} {s s' : State}

/-- What a step inside adds to the total, its thread no longer owes. -/
theorem done_sum {info : Bool} {w w' : Worker} {i : Nat} {a : DoneAct} (hm : DoneMove info w i a w') :
    ∃ th th', w.threads[i]? = some th ∧ w'.threads = w.threads.set i th' ∧
      ((w'.sum c).toNat + th'.owes ⟨false, c⟩) % 2 ^ 64 =
        ((w.sum c).toNat + th.owes ⟨false, c⟩ + match a with
          | .enter kind => if Count.of c kind then 1 else 0
          | _ => 0) % 2 ^ 64 := by
  cases hm with
  | enter req h => exact ⟨_, _, h, rfl, by simp [Worker.go, count_of]⟩
  | @increment x todo h =>
    obtain ⟨recent, d⟩ := x
    cases recent with
    | false =>
      refine ⟨_, _, h, rfl, ?_⟩
      have hadd := toNat_update w.sum d c
      simp only [Worker.go, Worker.add, owes_counted, owes_counting, count_cons_increment, Bool.false_eq_true, if_false,
        true_and]
      omega
    | true =>
      refine ⟨_, _, h, rfl, ?_⟩
      simp [Worker.go, Worker.add]
  | test h hm => exact ⟨_, _, h, rfl, by simp [Worker.go]⟩
  | @load vals d todo h =>
    cases todo with
    | nil => exact ⟨_, _, h, rfl, by simp [Worker.loaded, Worker.go]⟩
    | cons e todo => exact ⟨_, _, h, rfl, by simp [Worker.loaded, Worker.go]⟩
  | clear h => exact ⟨_, _, h, rfl, by simp [Worker.go]⟩

theorem countInv_move {a : Act D} (hI : Inv cfg n s) (hC : CountInv c s) (hm : Move cfg s a s') : CountInv c s' := by
  cases hm with
  | @start p st req queue hp hpc hq =>
    have hset := total_set (Strand.owes c) ⟨queue, .handled req.kind, (req.execute st.rows).1⟩ hp
    simp only [Strand.owes, hpc] at hset
    simp only [CountInv, State.put, handledOf, List.countP_append, List.countP_singleton] at hC ⊢
    omega
  | @isDone p st a pc wrk thread hp hpc hm ht =>
    obtain ⟨th, th', hth, hthreads, hsum⟩ := done_sum (c := c) hm
    have hset := total_set (Strand.owes c) { st with pc := pc.settle cfg s.t0 thread } hp
    have hw := total_set (DonePc.owes ⟨false, c⟩) th' hth
    rw [← hthreads] at hw
    simp only [CountInv, State.put] at hC ⊢
    rcases next_cases hpc with ⟨kind, hk, rfl, rfl⟩ | ⟨tnow, tnow', hk, hne, rfl⟩
    · have hold : st.owes c = if Count.of c kind then 1 else 0 := by simp [Strand.owes, hk]
      rw [settle_owes, hold] at hset
      simp only at hsum
      omega
    · have hold : st.owes c = 0 := by simp [Strand.owes, hk]
      rw [settle_owes, hold] at hset
      have hsum' : ((wrk.sum c).toNat + th'.owes ⟨false, c⟩) % 2 ^ 64 =
          ((s.wrk.sum c).toNat + th.owes ⟨false, c⟩) % 2 ^ 64 := by
        cases a with
        | enter kind => exact absurd rfl (hne kind)
        | increment | test | load | clear => exact hsum
      omega
  | @stop p st d hp hpc =>
    have hset : total (Strand.owes c) (s.strands.set p { st with pc := .idle }) = total (Strand.owes c) s.strands :=
      total_set_eq _ hp (by simp [Strand.owes, hpc])
    simp only [CountInv, State.put, hset] at hC ⊢
    exact hC
  | @next p q st d req hp hpc hd =>
    have hset : total (Strand.owes c) (s.strands.set p { st with pc := .idle }) = total (Strand.owes c) s.strands :=
      total_set_eq _ hp (by simp [Strand.owes, hpc])
    have hq : q < (s.put p { st with pc := .idle }).strands.length := by
      simpa [State.put, hI.size] using requestOf_lt hd
    have hpost := total_post (f := Strand.owes c) (k := 0) req (fun st => rfl) hq
    simp only [CountInv, State.put, State.post, Nat.add_zero] at hC hpost ⊢
    rw [hpost, hset]
    exact hC

theorem countInv_run {rows : Nat → List Row} {draws : Nat → Draw D} {t0 : Int} {s₀ : State} {as : List (Act D)}
    (h₀ : init cfg rows n draws t0 = some s₀) (h : exec (requestsStep cfg) s₀ as = some s) :
    Inv cfg n s ∧ CountInv c s := by
  have hinit : Inv cfg n s₀ ∧ CountInv c s₀ := by
    refine init_rule (fun k s => Inv cfg k s ∧ CountInv c s) ⟨inv_opened cfg rows t0, ?_⟩ ?_ h₀
    · have hstrands : total (Strand.owes c) (opened cfg rows t0).strands = 0 := by
        refine total_eq_zero _ fun st hst => ?_
        obtain ⟨p, -, rfl⟩ := List.mem_map.1 hst
        rfl
      have hthreads : total (DonePc.owes ⟨false, c⟩) (opened cfg rows t0).wrk.threads = 0 :=
        total_replicate _ _ (owes_outside _)
      rw [CountInv, hstrands, hthreads]
      rfl
    · rintro k s q req d ⟨hI, hC⟩ hd
      have hpost := total_post (f := Strand.owes c) (k := 0) req (fun st => rfl) (hI.size ▸ requestOf_lt hd)
      refine ⟨hI.post req (requestOf_lt hd) (Nat.succ_le_succ hI.chains)
        fun hlt => hI.stopped (Nat.lt_of_succ_lt_succ hlt), ?_⟩
      rw [CountInv, hpost]
      exact hC
  refine exec_invariant (fun _ => True) (fun s => Inv cfg n s ∧ CountInv c s) ?_ (fun _ _ => trivial) hinit h
  intro s a s' _ hs hstep
  have hm := requestsStep_move hstep
  exact ⟨inv_move hs.1 hm, countInv_move hs.1 hs.2 hm⟩

end

/-- **The totals.** When a run is complete, `records`, `gets`, `updates` and `inserts` are the numbers of the
requests whose statements were executed, of all kinds and of each kind, modulo the width of the counters. -/
theorem requests_counted {D : Type} [LT D] [DecidableLT D] [Add D] (cfg : Cfg D) (rows : Nat → List Row) (requests : Nat)
    (draws : Nat → Draw D) (t0 : Int) (s₀ : State) (h₀ : init cfg rows requests draws t0 = some s₀) (as : List (Act D))
    (s : State) (h : exec (requestsStep cfg) s₀ as = some s) (hc : Complete s) (c : Count) :
    (s.wrk.sum c).toNat = handledOf c s.log % 2 ^ 64 := by
  obtain ⟨hI, hC⟩ := countInv_run (c := c) h₀ h
  have hstrands : total (Strand.owes c) s.strands = 0 :=
    total_eq_zero _ fun st hst => by simp [Strand.owes, (hc st hst).1]
  have hthreads : total (DonePc.owes ⟨false, c⟩) s.wrk.threads = 0 := by
    refine total_eq_zero _ fun th hth => ?_
    obtain ⟨p, hp⟩ := List.mem_iff_getElem?.1 hth
    have hlt := (List.getElem?_eq_some_iff.1 hp).1
    rw [hI.threads, ← hI.size] at hlt
    have hat := hI.here p _ th (List.getElem?_eq_getElem hlt) hp
    rw [(hc _ (List.getElem_mem hlt)).1] at hat
    cases hat
    rfl
  rw [CountInv, hstrands, hthreads] at hC
  have hlt := (s.wrk.sum c).toNat_lt
  omega

theorem requests_counted_threeUpdates : ∃ s₀ s, init updatesOnly oneRow 2 (fun _ => zeroDraw) 1 = some s₀ ∧
    exec (requestsStep updatesOnly) s₀ threeUpdates = some s ∧ Complete s ∧
    (s.wrk.sum .updates).toNat = handledOf .updates s.log % 2 ^ 64 := by
  obtain ⟨s₀, s, -, h₀, hs, hc, -, -⟩ := threeUpdates_run
  exact ⟨s₀, s, h₀, hs, hc, requests_counted updatesOnly oneRow 2 _ 1 s₀ h₀ _ s hs hc .updates⟩

/-! ## Known keys -/

/-- A lookup has a row to find. -/
def Known (rows : List Row) : Request → Prop
  | .get hash | .update hash => ∃ row ∈ rows, row.hash = hash
  | .insert _ => True

/-- A get returned a row with its hash, an update some, and nothing else. -/
def Handled.Found (e : Handled) : Prop :=
  match e.request with
  | .get hash => ∃ row, e.result = [row] ∧ row.hash = hash
  | .update hash => e.result ≠ [] ∧ ∀ row ∈ e.result, row.hash = hash
  | .insert _ => e.result = []

def counters (rows : List Row) : Int := total Row.counter rows

/-- The rows an update has counted. -/
def Handled.bumps (e : Handled) : Nat :=
  match e.request with
  | .update _ => e.result.length
  | _ => 0

theorem mem_select {rows : List Row} {hash : Int64} {row : Row} : row ∈ select rows hash ↔ row ∈ rows ∧ row.hash = hash := by
  simp [select]

theorem select_ne_nil {rows : List Row} {hash : Int64} (h : ∃ row ∈ rows, row.hash = hash) : select rows hash ≠ [] := by
  obtain ⟨row, hrow, hhash⟩ := h
  exact List.ne_nil_of_mem (mem_select.2 ⟨hrow, hhash⟩)

/-- The rows with a hash keep it, and no statement takes a row away. -/
theorem Known.execute {rows : List Row} {req : Request} (h : Known rows req) (req' : Request) :
    Known (req'.execute rows).1 req := by
  have hkeep (hash : Int64) (hrow : ∃ row ∈ rows, row.hash = hash) : ∃ row ∈ (req'.execute rows).1, row.hash = hash := by
    obtain ⟨row, hmem, rfl⟩ := hrow
    cases req' with
    | get hash => exact ⟨row, hmem, rfl⟩
    | update hash => exact ⟨row.bump hash, List.mem_map_of_mem hmem, bump_hash hash row⟩
    | insert rec => exact ⟨row, List.mem_append_left _ hmem, rfl⟩
  cases req with
  | get hash => exact hkeep hash h
  | update hash => exact hkeep hash h
  | insert rec => exact trivial

theorem Known.found {rows : List Row} {req : Request} (h : Known rows req) (p : Nat) :
    Handled.Found ⟨p, req, (req.execute rows).2⟩ := by
  cases req with
  | get hash =>
    obtain ⟨row, rest, hsel⟩ := List.exists_cons_of_ne_nil (select_ne_nil h)
    refine ⟨row, by simp [Request.execute, hsel], ?_⟩
    exact (mem_select.1 (hsel ▸ List.mem_cons_self)).2
  | update hash =>
    refine ⟨?_, fun row hrow => (mem_select.1 hrow).2⟩
    exact select_ne_nil (h.execute (.update hash))
  | insert rec => rfl

theorem counters_execute (rows : List Row) (req : Request) (p : Nat) :
    counters (req.execute rows).1 = counters rows + Handled.bumps ⟨p, req, (req.execute rows).2⟩ := by
  cases req with
  | get hash => simp [Request.execute, Handled.bumps]
  | insert rec => simp [Request.execute, Handled.bumps, counters, total_append]
  | update hash =>
    simp only [Request.execute, Handled.bumps, counters]
    induction rows with
    | nil => rfl
    | cons row rows ih =>
      simp only [List.map_cons, total_cons, bump_counter, select, List.filter_cons, bump_hash] at ih ⊢
      split
      · simp_all
        omega
      · simp_all
        omega

section
variable {D : Type} {cfg : Cfg D} {rows₀ : Nat → List Row} {s s' : State}

/-- Every lookup queued has a row to find, and so has every one that can be made. -/
structure FoundInv (cfg : Cfg D) (rows₀ : Nat → List Row) (s : State) : Prop where
  size : s.strands.length = cfg.partitions
  queued : ∀ (p : Nat) st, s.strands[p]? = some st → ∀ req ∈ st.queue, Known st.rows req
  kept : ∀ (p : Nat) st, s.strands[p]? = some st → ∀ req, Known (rows₀ p) req → Known st.rows req
  found : ∀ e ∈ s.log, e.Found
  sum : total (fun st : Strand => counters st.rows) s.strands =
    total (fun p => counters (rows₀ p)) (List.range cfg.partitions) + (total Handled.bumps s.log : Nat)

theorem FoundInv.post {q : Nat} {req : Request} (hI : FoundInv cfg rows₀ s) (hq : q < cfg.partitions)
    (hk : Known (rows₀ q) req) : FoundInv cfg rows₀ (s.post q req) := by
  obtain ⟨st, hst⟩ : ∃ st, s.strands[q]? = some st := ⟨_, List.getElem?_eq_getElem (hI.size ▸ hq)⟩
  refine ⟨by simp [State.post, hI.size], ?_, ?_, hI.found, ?_⟩
  · intro p x hp r hr
    obtain ⟨x₀, queue, h₀, rfl, rfl | ⟨rfl, rfl⟩⟩ := post_rows hp
    · exact hI.queued p x₀ h₀ r hr
    · rcases List.mem_append.1 hr with hr | hr
      · exact hI.queued p x₀ h₀ r hr
      · obtain rfl : r = req := by simpa using hr
        exact hI.kept p x₀ h₀ r hk
  · intro p x hp
    obtain ⟨x₀, queue, h₀, rfl, -⟩ := post_rows hp
    exact hI.kept p x₀ h₀
  · rw [post_eq req hst]
    exact (total_set_eq (y := { st with queue := st.queue ++ [req] }) (fun st : Strand => counters st.rows) hst rfl).trans hI.sum

theorem FoundInv.put {p : Nat} {st st' : Strand} (hI : FoundInv cfg rows₀ s) (hp : s.strands[p]? = some st)
    (hrows : st'.rows = st.rows) (hqueue : st'.queue = st.queue) : FoundInv cfg rows₀ (s.put p st') := by
  refine ⟨by simp [State.put, hI.size], ?_, ?_, hI.found, ?_⟩
  · refine forall_set (P := fun _ (x : Strand) => ∀ req ∈ x.queue, Known x.rows req) (fun j x _ hx => hI.queued j x hx) ?_
    rw [hrows, hqueue]
    exact hI.queued p st hp
  · refine forall_set (P := fun j (x : Strand) => ∀ req, Known (rows₀ j) req → Known x.rows req)
      (fun j x _ hx => hI.kept j x hx) ?_
    rw [hrows]
    exact hI.kept p st hp
  · exact (total_set_eq (fun st : Strand => counters st.rows) hp (by rw [hrows])).trans hI.sum

theorem foundInv_opened (cfg : Cfg D) (rows₀ : Nat → List Row) (t0 : Int) : FoundInv cfg rows₀ (opened cfg rows₀ t0) := by
  have hstrand (p : Nat) (st : Strand) (hp : (opened cfg rows₀ t0).strands[p]? = some st) : st = { rows := rows₀ p } := by
    simp only [opened, List.getElem?_map] at hp
    obtain ⟨q, hq, rfl⟩ := Option.map_eq_some_iff.1 hp
    obtain ⟨hlt, rfl⟩ := List.getElem?_eq_some_iff.1 hq
    rw [List.getElem_range]
  refine ⟨by simp [opened], ?_, ?_, by simp [opened], ?_⟩
  · intro p st hp req hreq
    rw [hstrand p st hp] at hreq
    cases hreq
  · intro p st hp req hreq
    rw [hstrand p st hp]
    exact hreq
  · simp only [opened, total, List.map_map, List.map_nil, List.sum_nil, Nat.cast_zero, add_zero]
    rfl

end

section
variable {D : Type} [LT D] [DecidableLT D] [Add D] {cfg : Cfg D} {rows₀ : Nat → List Row} {s s' : State}

theorem foundInv_move {a : Act D} (hknown : ∀ d q req, requestOf cfg d = some (q, req) → Known (rows₀ q) req)
    (hI : FoundInv cfg rows₀ s) (hm : Move cfg s a s') : FoundInv cfg rows₀ s' := by
  cases hm with
  | @start p st req queue hp hpc hq =>
    have hk : Known st.rows req := hI.queued p st hp req (by simp [hq])
    refine ⟨by simp [State.put, hI.size], ?_, ?_, ?_, ?_⟩
    · refine forall_set (P := fun _ (x : Strand) => ∀ req ∈ x.queue, Known x.rows req)
        (fun j x _ hx => hI.queued j x hx) ?_
      intro r hr
      exact (hI.queued p st hp r (by rw [hq]; exact List.mem_cons_of_mem _ hr)).execute req
    · refine forall_set (P := fun j (x : Strand) => ∀ req, Known (rows₀ j) req → Known x.rows req)
        (fun j x _ hx => hI.kept j x hx) ?_
      intro r hr
      exact (hI.kept p st hp r hr).execute req
    · intro e he
      rcases List.mem_append.1 he with he | he
      · exact hI.found e he
      · obtain rfl : e = ⟨p, req, (req.execute st.rows).2⟩ := by simpa using he
        exact hk.found p
    · have hset := total_set (fun st : Strand => counters st.rows) ⟨queue, .handled req.kind, (req.execute st.rows).1⟩ hp
      have hsum := hI.sum
      simp only [counters_execute st.rows req p] at hset
      simp only [State.put, total_snoc, Nat.cast_add]
      omega
  | isDone hp hpc hm ht =>
    exact FoundInv.put (s := { s with wrk := _, now := _ }) ⟨hI.size, hI.queued, hI.kept, hI.found, hI.sum⟩ hp rfl rfl
  | stop hp hpc => exact hI.put hp rfl rfl
  | @next p q st d req hp hpc hd =>
    exact FoundInv.post (s := s.put p { st with pc := .idle }) (hI.put hp rfl rfl) (requestOf_lt hd) (hknown d q req hd)

theorem foundInv_run {requests : Nat} {draws : Nat → Draw D} {t0 : Int} {s₀ : State} {as : List (Act D)}
    (hknown : ∀ d q req, requestOf cfg d = some (q, req) → Known (rows₀ q) req)
    (h₀ : init cfg rows₀ requests draws t0 = some s₀) (h : exec (requestsStep cfg) s₀ as = some s) : FoundInv cfg rows₀ s := by
  have hinit : FoundInv cfg rows₀ s₀ :=
    init_rule (fun _ => FoundInv cfg rows₀) (foundInv_opened cfg rows₀ t0)
      (fun _ _ q req d hs hd => hs.post (requestOf_lt hd) (hknown d q req hd)) h₀
  exact exec_invariant (fun _ => True) (FoundInv cfg rows₀)
    (fun _ _ _ _ hs hstep => foundInv_move hknown hs (requestsStep_move hstep)) (fun _ _ => trivial) hinit h

end

/-! ## After `create` -/

/-- The table that `create` leaves in a partition: a transaction that is still open is not in it. -/
def tableOf (part : Part) : Option (List Row) :=
  if openTx part.sql = none then some (part.rows.map fun rec => ⟨rec.key, insertHash rec, 0⟩) else none

section
variable {D : Type} [LT D] [DecidableLT D] [Add D] {cfg : Cfg D} {args : Args} {sc : Benchmark.State} {order : List Nat}

/-- A key that `create` wrote is the key of a row that it left. -/
theorem known_of_create (hI : KeysInv args sc) (hpos : 0 < (recsOf sc order).length) {rows : Nat → List Row}
    (hrows : ∀ (p : Nat) part, sc.parts[p]? = some part → tableOf part = some (rows p))
    (hparts : cfg.partitions = args.partitions) (hkeys : cfg.keys = ⟨keysFiles sc order, (recsOf sc order).length, []⟩)
    (d : Draw D) (q : Nat) (req : Request) (h : requestOf cfg d = some (q, req)) : Known (rows q) req := by
  obtain ⟨p, part, rec, hp, hrec, -, hget, hupdate, -⟩ := (keysOk hI hpos).lookup d.rnd
  have hrow : ∃ row ∈ rows p, row.hash = insertHash rec := by
    have htable := hrows p part hp
    unfold tableOf at htable
    split at htable
    · rw [← Option.some.inj htable]
      exact ⟨_, List.mem_map_of_mem hrec, rfl⟩
    · cases htable
  unfold requestOf at h
  rw [hkeys, hparts, hget, hupdate] at h
  split at h
  · cases h
    exact trivial
  · split at h
    · cases h
      exact hrow
    · cases h
      exact hrow

end

theorem counters_created {part : Part} {rows : List Row} (h : tableOf part = some rows) : counters rows = 0 := by
  unfold tableOf at h
  split at h
  · rw [← Option.some.inj h]
    refine total_eq_zero _ fun row hrow => ?_
    obtain ⟨rec, -, rfl⟩ := List.mem_map.1 hrow
    rfl
  · cases h

/-- **From `create` to `requests`.** `create` ran to its end, and its transactions are closed; its keys files, in
any order, are the KEYS of `requests` with the same PARTITIONS. Then in every run every request made has a
partition, every get returns one row, with its hash, every update returns the rows with its hash, and at least
one, and the counters in the tables add up to the rows returned by updates. -/
theorem requests_find_rows {D : Type} [LT D] [DecidableLT D] [Add D] (args : Args) (keys : Nat → Key)
    (cs : List Benchmark.Act) (sc : Benchmark.State)
    (hcreate : exec (createStep args) (Benchmark.init args keys) cs = some sc) (hc : Benchmark.Complete sc)
    (rows : Nat → List Row) (hrows : ∀ (p : Nat) part, sc.parts[p]? = some part → tableOf part = some (rows p))
    (order : List Nat) (horder : order.Perm (List.range args.partitions))
    (cfg : Cfg D) (hparts : cfg.partitions = args.partitions)
    (hkeys : knownKeyGenerator (keysFiles sc order) = some cfg.keys) (requests : Nat) (draws : Nat → Draw D) (t0 : Int)
    (s₀ : State) (h₀ : init cfg rows requests draws t0 = some s₀) (as : List (Act D)) (s : State)
    (h : exec (requestsStep cfg) s₀ as = some s) :
    (∀ d, (requestOf cfg d).isSome = true) ∧ (∀ e ∈ s.log, e.Found) ∧
    total (fun st : Strand => counters st.rows) s.strands = (total Handled.bumps s.log : Nat) := by
  obtain ⟨hI, hB⟩ := keysInv_run hcreate
  have hne := written_ne_nil hI hB hc horder
  have hgen : cfg.keys = ⟨keysFiles sc order, (keysFiles sc order).length / keySz, []⟩ := knownKeyGenerator_adds hkeys []
  have hpos : 0 < (recsOf sc order).length := by
    rw [written_eq] at hne
    exact List.length_pos_of_ne_nil (by simpa using hne)
  have hF := foundInv_run (known_of_create hI hpos hrows hparts (keysFiles_sz hI order ▸ hgen)) h₀ h
  refine ⟨requestOf_isSome hgen (hparts ▸ drawsOk_keysFiles hI hne), hF.found, ?_⟩
  have hzero : total (fun p => counters (rows p)) (List.range cfg.partitions) = 0 := by
    refine total_eq_zero _ fun p hp => ?_
    have hlt : p < sc.parts.length := by
      rw [hI.size, ← hparts]
      exact List.mem_range.1 hp
    exact counters_created (hrows p _ (List.getElem?_eq_getElem hlt))
  rw [hF.sum, hzero, zero_add]

def tablesOf (sc : Benchmark.State) (p : Nat) : List Row := (tableOf (sc.parts.getD p {})).getD []

/-- The three records of `threeInserts`, with the keys files concatenated backwards, and one update. -/
theorem requests_find_rows_threeInserts : ∃ sc g s₀ s,
    exec (createStep twoRecords) (Benchmark.init twoRecords fun r => keyOf (UInt8.ofNat r)) threeInserts = some sc ∧
    knownKeyGenerator (keysFiles sc [1, 0]) = some g ∧
    init { updatesOnly with keys := g } (tablesOf sc) 2 (fun _ => zeroDraw) 1 = some s₀ ∧
    exec (requestsStep { updatesOnly with keys := g }) s₀ (handler 1 4) = some s ∧ s.log.length = 1 ∧
    (∀ e ∈ s.log, e.Found) ∧
    total (fun st : Strand => counters st.rows) s.strands = (total Handled.bumps s.log : Nat) := by
  have hrun : ((exec (createStep twoRecords) (Benchmark.init twoRecords fun r => keyOf (UInt8.ofNat r)) threeInserts).bind
      fun sc => (knownKeyGenerator (keysFiles sc [1, 0])).bind fun g =>
        (init { updatesOnly with keys := g } (tablesOf sc) 2 (fun _ => zeroDraw) 1).bind fun s₀ =>
          (exec (requestsStep { updatesOnly with keys := g }) s₀ (handler 1 4)).map fun s =>
            (decide (Benchmark.Complete sc), decide (∀ part ∈ sc.parts, openTx part.sql = none), s.log.length)) =
      some (true, true, 1) := by decide
  obtain ⟨sc, hsc, hrun⟩ := Option.bind_eq_some_iff.1 hrun
  obtain ⟨g, hg, hrun⟩ := Option.bind_eq_some_iff.1 hrun
  obtain ⟨s₀, h₀, hrun⟩ := Option.bind_eq_some_iff.1 hrun
  obtain ⟨s, hs, heq⟩ := Option.map_eq_some_iff.1 hrun
  simp only [Prod.mk.injEq, decide_eq_true_eq] at heq
  obtain ⟨hc, hclosed, hlen⟩ := heq
  have htables (p : Nat) (part : Part) (hp : sc.parts[p]? = some part) : tableOf part = some (tablesOf sc p) := by
    have hopen := hclosed part (List.mem_of_getElem? hp)
    simp [tablesOf, List.getD_eq_getElem?_getD, hp, tableOf, hopen]
  obtain ⟨-, hfound, hsum⟩ := requests_find_rows twoRecords _ _ sc hsc hc (tablesOf sc) htables [1, 0]
    (List.Perm.swap 0 1 []) { updatesOnly with keys := g } rfl hg 2 _ 1 s₀ h₀ _ s hs
  exact ⟨sc, g, s₀, s, hsc, hg, h₀, hs, hlen, hfound, hsum⟩

end Acppsrv.Benchmark.Requests
