import Mathlib.Tactic.IntervalCases
import Acppsrv.Benchmark.RecordCount
/-!
# Transactions during `create` (benchmark.cpp:392-422)

`cur_tx` counts the inserts of the open transaction and 0 stands for none. It is set back when the
transaction is full (:415) and not when the end of the run is reached (:420): with `cur_tx` at
1 … 99 the next record of the partition is inserted without a BEGIN, and its COMMIT is rejected. And a
partition that gets no record after the end was reached keeps its transaction open.

`TxClean` says for which decisions of `is_done` on the records of a partition this does not happen,
`transactions_respected` that the protocol is kept in exactly these runs. The decisions depend on the
order in which the records are counted and on nothing else, and `txClean_decisions` reads the
condition off the numbers of records of a partition before and after the end is reached.
-/
namespace Acppsrv.Benchmark
open Lib

/-- A statement in its place: BEGIN outside of a transaction, COMMIT inside of one, an insert inside
of one with fewer than 100. -/
def TxOk (past : List Sql) : Sql → Prop
  | .begin => openTx past = none
  | .commit => (openTx past).isSome = true
  | .insert => ∃ k < transactionSz.toNat, openTx past = some k

/-- The protocol of a partition, at the end of a run. -/
structure TxProtocol (sql : List Sql) : Prop where
  each : Past TxOk sql
  closed : openTx sql = none

/-- What `is_done` returns for the records of partition `p`, when the records are counted in the
order of the partitions `order`. -/
def decisions (args : Args) (order : List Nat) (p : Nat) : List Bool :=
  (order.zipIdx 1).filterMap fun x => if x.1 = p then some (isDone args x.2) else none

/-- Decisions under which `cur_tx` stands for the transaction: a record that stops and is not the last
of its partition comes when the transaction is full or not begun, and so is it at the end unless the
last record stops. -/
def TxClean (ds : List Bool) : Prop :=
  (∀ l r, ds = l ++ true :: r → r ≠ [] → 100 ∣ l.count false) ∧
  (ds.getLast? = some false → 100 ∣ ds.count false)

/-! ## Decisions -/

theorem decisions_concat (args : Args) (order : List Nat) (q p : Nat) :
    decisions args (order ++ [q]) p =
      decisions args order p ++ if q = p then [isDone args (order.length + 1)] else [] := by
  simp only [decisions, List.zipIdx_append, List.filterMap_append, List.zipIdx_cons, List.zipIdx_nil]
  congr 1
  by_cases h : q = p
  · simp [h, Nat.add_comm]
  · simp [h]

/-- A record that stops, with a transaction that is begun and not full. -/
def Broken (ds : List Bool) : Prop := ∃ l r, ds = l ++ true :: r ∧ ¬ 100 ∣ l.count false

/-- The same, and another record after it. -/
def Stale (ds : List Bool) : Prop := ∃ l r, ds = l ++ true :: r ∧ r ≠ [] ∧ ¬ 100 ∣ l.count false

theorem Stale.broken {ds : List Bool} (h : Stale ds) : Broken ds := by
  obtain ⟨l, r, hds, -, hd⟩ := h
  exact ⟨l, r, hds, hd⟩

theorem stale_concat (ds : List Bool) (b : Bool) : Stale (ds ++ [b]) ↔ Broken ds := by
  constructor
  · rintro ⟨l, r, hds, hr, hd⟩
    obtain ⟨r', x, rfl⟩ := List.eq_nil_or_concat r |>.resolve_left hr
    have h : ds ++ [b] = (l ++ true :: r') ++ [x] := by simpa using hds
    exact ⟨l, r', (List.append_inj' h rfl).1, hd⟩
  · rintro ⟨l, r, rfl, hd⟩
    exact ⟨l, r ++ [b], by simp, by simp, hd⟩

/-- A record that stops last is not yet followed by another one. -/
theorem broken_iff {ds : List Bool} (h : ¬ Stale ds) :
    Broken ds ↔ ds.getLast? = some true ∧ ¬ 100 ∣ ds.count false := by
  constructor
  · rintro ⟨l, r, hds, hd⟩
    rcases List.eq_nil_or_concat r with rfl | ⟨r', x, rfl⟩
    · subst hds
      exact ⟨by simp, by simpa using hd⟩
    · exact absurd ⟨l, _, hds, by simp, hd⟩ h
  · rintro ⟨hlast, hd⟩
    obtain ⟨l, rfl⟩ := List.getLast?_eq_some_iff.1 hlast
    exact ⟨l, [], rfl, by simpa using hd⟩

theorem txClean_iff (ds : List Bool) :
    TxClean ds ↔ ¬ Stale ds ∧ (ds.getLast? = some false → 100 ∣ ds.count false) := by
  unfold TxClean Stale
  constructor
  · rintro ⟨h, hlast⟩
    exact ⟨fun ⟨l, r, hds, hr, hd⟩ => hd (h l r hds hr), hlast⟩
  · rintro ⟨h, hlast⟩
    refine ⟨fun l r hds hr => ?_, hlast⟩
    by_contra hd
    exact h ⟨l, r, hds, hr, hd⟩

/-! ## The condition in numbers -/

theorem stale_replicate (c d : Nat) :
    Stale (List.replicate c false ++ List.replicate d true) ↔ 2 ≤ d ∧ ¬ 100 ∣ c := by
  constructor
  · rintro ⟨l, r, hds, hr, hd⟩
    -- what comes before a `true` is all `false` and then all `true`
    obtain ⟨a, rfl, ha⟩ : ∃ a, l = List.replicate c false ++ a ∧ List.replicate d true = a ++ true :: r := by
      rcases List.append_eq_append_iff.1 hds with ⟨a, hl, ha⟩ | ⟨b, hb, hr'⟩
      · exact ⟨a, hl, ha⟩
      · cases b with
        | nil => exact ⟨[], by simpa using hb.symm, by simpa using hr'.symm⟩
        | cons x b =>
          obtain rfl : true = x := by simpa using congrArg List.head? hr'
          have hmem : true ∈ List.replicate c false := by simp [hb]
          simp at hmem
    have hfalse : a.count false = 0 := by
      refine List.count_eq_zero.2 fun hm => ?_
      have : false ∈ List.replicate d true := by simp [ha, hm]
      simp at this
    have hlen := congrArg List.length ha
    have hpos := List.length_pos_of_ne_nil hr
    simp only [List.length_replicate, List.length_append, List.length_cons] at hlen
    refine ⟨by omega, ?_⟩
    simpa [List.count_append, hfalse] using hd
  · rintro ⟨hd, hc⟩
    obtain ⟨e, rfl⟩ : ∃ e, d = e + 1 := ⟨d - 1, by omega⟩
    refine ⟨List.replicate c false, List.replicate e true, by simp [List.replicate_succ], ?_, by simpa using hc⟩
    intro hnil
    have := congrArg List.length hnil
    simp at this
    omega

theorem txClean_replicate (c d : Nat) :
    TxClean (List.replicate c false ++ List.replicate d true) ↔ 100 ∣ c ∨ d = 1 := by
  rw [txClean_iff, stale_replicate]
  have hcount : (List.replicate c false ++ List.replicate d true).count false = c := by
    simp [List.count_append, List.count_replicate]
  rw [hcount]
  cases d with
  | zero =>
    cases c with
    | zero => simp
    | succ c => simp [List.getLast?_replicate]
  | succ d =>
    have hlast : (List.replicate c false ++ List.replicate (d + 1) true).getLast? = some true := by
      simp [List.getLast?_append, List.getLast?_replicate]
    simp only [hlast, Option.some.injEq, Bool.true_eq_false, false_implies, and_true]
    constructor
    · intro h
      by_cases hc : 100 ∣ c
      · exact Or.inl hc
      · exact Or.inr (by omega)
    · rintro (h | h) <;> rintro ⟨h2, hc⟩
      · exact hc h
      · omega

/-- While the counter does not wrap, the records counted before RECORDS go on and the others stop. -/
theorem decisions_eq {args : Args} (p : Nat) (order : List Nat) : order.length < 2 ^ 64 →
    decisions args order p =
      List.replicate ((order.take (args.records.toNat - 1)).count p) false ++
      List.replicate ((order.drop (args.records.toNat - 1)).count p) true := by
  have hmin := args.records_min
  induction order using List.reverseRecOn with
  | nil => intro _; simp [decisions]
  | append_singleton order q ih =>
    intro hlen
    simp only [List.length_append, List.length_singleton] at hlen
    rw [decisions_concat, ih (by omega), isDone]
    by_cases hlt : order.length < args.records.toNat - 1
    · have hdone : ¬ args.records.toNat ≤ (order.length + 1) % 2 ^ 64 := by omega
      rw [decide_eq_false hdone, List.take_of_length_le (by omega), List.drop_eq_nil_of_le (by omega),
        List.take_of_length_le (by simp; omega), List.drop_eq_nil_of_le (by simp; omega)]
      by_cases hq : q = p
      · simp [hq, List.count_append, List.replicate_succ']
      · simp [hq, List.count_append]
    · have hdone : args.records.toNat ≤ (order.length + 1) % 2 ^ 64 := by omega
      rw [decide_eq_true hdone, List.take_append_of_le_length (by omega), List.drop_append_of_le_length (by omega)]
      by_cases hq : q = p
      · simp [hq, List.count_append, List.replicate_succ']
      · simp [hq, List.count_append]

/-- The condition in a run that counts fewer than 2^64 records: the number of records of the partition
counted before RECORDS is a multiple of 100, or one record of it is counted from there on. -/
theorem txClean_decisions {args : Args} {order : List Nat} (h : order.length < 2 ^ 64) {p : Nat} :
    TxClean (decisions args order p) ↔ 100 ∣ (order.take (args.records.toNat - 1)).count p ∨
      (order.drop (args.records.toNat - 1)).count p = 1 := by
  rw [decisions_eq p order h, txClean_replicate]

/-! ## A partition -/

@[simp] theorem openTx_concat (sql : List Sql) (x : Sql) : openTx (sql ++ [x]) = txStep (openTx sql) x := by
  simp [openTx]

/-- The transaction `cur_tx` stands for between two handlers. -/
def idleTx (ds : List Bool) : Option Nat :=
  if ds.getLast? = some true ∨ 100 ∣ ds.count false then none else some (ds.count false % 100)

/-- A partition whose statements have all been in their place, in transaction `tx`. -/
structure Sound (ds : List Bool) (part : Part) (tx : Option Nat) : Prop where
  each : Past TxOk part.sql
  curTx : part.curTx.toNat = ds.count false % 100
  openTx : openTx part.sql = tx

/-- A partition after the decisions `ds`: all is well, or a statement was out of its place. -/
def PartInv (ds : List Bool) (part : Part) : Prop :=
  match part.pc with
  | .idle => ¬ Stale ds ∧ Sound ds part (idleTx ds) ∨ Stale ds ∧ ¬ Past TxOk part.sql
  | .inserted => ¬ Broken ds ∧ Sound ds part (some (ds.count false % 100 + 1)) ∨ Broken ds ∧ ¬ Past TxOk part.sql
  | .decided b => ∃ ds', ds = ds' ++ [b] ∧
      (¬ Broken ds' ∧ Sound ds' part (some (ds'.count false % 100 + 1)) ∨ Broken ds' ∧ ¬ Past TxOk part.sql)

/-- What was out of place stays in the log. -/
theorem not_past_concat {sql : List Sql} (x : Sql) (h : ¬ Past TxOk sql) : ¬ Past TxOk (sql ++ [x]) :=
  fun hp => h (past_concat.1 hp).1

theorem PartInv.queue {ds : List Bool} {part : Part} (h : PartInv ds part) (queue : List Rec) :
    PartInv ds { part with queue := queue } := by
  unfold PartInv at *
  cases hpc : part.pc with
  | idle =>
    simp only [hpc] at h ⊢
    rcases h with ⟨hs, h1, h2, h3⟩ | h
    · exact Or.inl ⟨hs, h1, h2, h3⟩
    · exact Or.inr h
  | inserted =>
    simp only [hpc] at h ⊢
    rcases h with ⟨hs, h1, h2, h3⟩ | h
    · exact Or.inl ⟨hs, h1, h2, h3⟩
    · exact Or.inr h
  | decided b =>
    simp only [hpc] at h ⊢
    obtain ⟨ds', hds, ⟨hs, h1, h2, h3⟩ | h⟩ := h
    · exact ⟨ds', hds, Or.inl ⟨hs, h1, h2, h3⟩⟩
    · exact ⟨ds', hds, Or.inr h⟩

theorem curTx_eq_zero {ds : List Bool} {part : Part} (h : part.curTx.toNat = ds.count false % 100) :
    part.curTx = 0 ↔ 100 ∣ ds.count false := by
  rw [← UInt32.toNat_inj, h, Nat.dvd_iff_mod_eq_zero]
  rfl

/-- A handler that begins a transaction: `cur_tx` is 0. -/
theorem PartInv.begin {ds : List Bool} {part : Part} {queue : List Rec} {rec : Rec} (h : PartInv ds part)
    (hpc : part.pc = .idle) (hc : part.curTx = 0) :
    PartInv ds (insertRecord { part with queue := queue, sql := part.sql ++ [.begin] } rec) := by
  unfold PartInv at h
  simp only [hpc] at h
  simp only [PartInv, insertRecord]
  rcases h with ⟨hst, hS⟩ | ⟨hst, hp⟩
  · have hd : 100 ∣ ds.count false := (curTx_eq_zero hS.curTx).1 hc
    have htx : openTx part.sql = none := by
      rw [hS.openTx, idleTx, if_pos (Or.inr hd)]
    refine Or.inl ⟨fun hb => ((broken_iff hst).1 hb).2 hd, ?_, hS.curTx, ?_⟩
    · refine past_concat.2 ⟨past_concat.2 ⟨hS.each, htx⟩, 0, by decide, ?_⟩
      rw [openTx_concat, htx]; rfl
    · rw [openTx_concat, openTx_concat, htx, Nat.mod_eq_zero_of_dvd hd]; rfl
  · exact Or.inr ⟨hst.broken, not_past_concat _ (not_past_concat _ hp)⟩

/-- A handler that relies on the transaction being open: `cur_tx` is not 0. -/
theorem PartInv.insert {ds : List Bool} {part : Part} {queue : List Rec} {rec : Rec} (h : PartInv ds part)
    (hpc : part.pc = .idle) (hc : part.curTx ≠ 0) :
    PartInv ds (insertRecord { part with queue := queue } rec) := by
  unfold PartInv at h
  simp only [hpc] at h
  simp only [PartInv, insertRecord]
  rcases h with ⟨hst, hS⟩ | ⟨hst, hp⟩
  · have hd : ¬ 100 ∣ ds.count false := fun hd => hc ((curTx_eq_zero hS.curTx).2 hd)
    by_cases hlast : ds.getLast? = some true
    · -- the last record committed and left `cur_tx` as it was: this insert is outside
      have htx : openTx part.sql = none := by
        rw [hS.openTx, idleTx, if_pos (Or.inl hlast)]
      refine Or.inr ⟨(broken_iff hst).2 ⟨hlast, hd⟩, fun hp => ?_⟩
      obtain ⟨k, -, hk⟩ := (past_concat.1 hp).2
      rw [htx] at hk; cases hk
    · have htx : openTx part.sql = some (ds.count false % 100) := by
        rw [hS.openTx, idleTx, if_neg]
        rintro (h | h)
        · exact hlast h
        · exact hd h
      refine Or.inl ⟨fun hb => hlast ((broken_iff hst).1 hb).1, ?_, hS.curTx, ?_⟩
      · exact past_concat.2 ⟨hS.each, ds.count false % 100, Nat.mod_lt _ (by decide), htx⟩
      · rw [openTx_concat, htx]; rfl
  · exact Or.inr ⟨hst.broken, not_past_concat _ hp⟩

/-- BEGIN is never rejected unless something was out of its place before. -/
theorem PartInv.rejectBegin {ds : List Bool} {part : Part} {queue : List Rec} (h : PartInv ds part)
    (hpc : part.pc = .idle) (hc : part.curTx = 0) (ho : (openTx part.sql).isSome = true) :
    PartInv ds { part with queue := queue, sql := part.sql ++ [.begin], failed := true } := by
  unfold PartInv at h ⊢
  simp only [hpc] at h ⊢
  rcases h with ⟨hst, hS⟩ | ⟨hst, hp⟩
  · rw [hS.openTx, idleTx, if_pos (Or.inr ((curTx_eq_zero hS.curTx).1 hc))] at ho
    cases ho
  · exact Or.inr ⟨hst, not_past_concat _ hp⟩

theorem PartInv.count {ds : List Bool} {part : Part} (h : PartInv ds part) (hpc : part.pc = .inserted) (b : Bool) :
    PartInv (ds ++ [b]) { part with pc := .decided b } := by
  unfold PartInv at h ⊢
  simp only [hpc] at h ⊢
  rcases h with ⟨hb, h1, h2, h3⟩ | h
  · exact ⟨ds, rfl, Or.inl ⟨hb, h1, h2, h3⟩⟩
  · exact ⟨ds, rfl, Or.inr h⟩

/-- The commit at the end of the run leaves `cur_tx` as it is. -/
theorem PartInv.stop {ds : List Bool} {part : Part} {failed : Bool} (h : PartInv ds part)
    (hpc : part.pc = .decided true) :
    PartInv ds { part with pc := .idle, sql := part.sql ++ [.commit], failed := failed } := by
  unfold PartInv at h ⊢
  simp only [hpc] at h ⊢
  obtain ⟨ds', rfl, ⟨hb, hS⟩ | ⟨hb, hp⟩⟩ := h
  · refine Or.inl ⟨fun hst => hb ((stale_concat ds' true).1 hst), ?_, ?_, ?_⟩
    · refine past_concat.2 ⟨hS.each, ?_⟩
      show (openTx part.sql).isSome = true
      rw [hS.openTx]; rfl
    · simpa using hS.curTx
    · rw [openTx_concat, hS.openTx, idleTx, if_pos (Or.inl (by simp))]; rfl
  · exact Or.inr ⟨(stale_concat ds' true).2 hb, not_past_concat _ hp⟩

theorem PartInv.rejectCommit {ds : List Bool} {part : Part} {curTx : UInt32} (h : PartInv ds part)
    (hpc : part.pc = .decided false) (ho : openTx part.sql = none) :
    PartInv ds { part with pc := .idle, curTx := curTx, sql := part.sql ++ [.commit], failed := true } := by
  unfold PartInv at h ⊢
  simp only [hpc] at h ⊢
  obtain ⟨ds', rfl, ⟨hb, hS⟩ | ⟨hb, hp⟩⟩ := h
  · rw [hS.openTx] at ho; cases ho
  · exact Or.inr ⟨(stale_concat ds' false).2 hb, not_past_concat _ hp⟩

/-- A full transaction is committed and `cur_tx` set back. -/
theorem PartInv.commit {ds : List Bool} {part : Part} (h : PartInv ds part)
    (hpc : part.pc = .decided false) (hf : part.curTx + 1 = transactionSz) :
    PartInv ds { part with pc := .idle, curTx := 0, sql := part.sql ++ [.commit] } := by
  unfold PartInv at h ⊢
  simp only [hpc] at h ⊢
  obtain ⟨ds', rfl, ⟨hb, hS⟩ | ⟨hb, hp⟩⟩ := h
  · have hcur := hS.curTx
    have h99 : part.curTx.toNat = 99 := by
      have hnat : (part.curTx + 1).toNat = 100 := by rw [hf]; rfl
      rw [UInt32.toNat_add] at hnat
      simp at hnat
      omega
    have hcount : (ds' ++ [false]).count false = ds'.count false + 1 := by simp
    have hd : 100 ∣ (ds' ++ [false]).count false := by omega
    refine Or.inl ⟨fun hst => hb ((stale_concat ds' false).1 hst), ?_, ?_, ?_⟩
    · refine past_concat.2 ⟨hS.each, ?_⟩
      show (openTx part.sql).isSome = true
      rw [hS.openTx]; rfl
    · rw [Nat.mod_eq_zero_of_dvd hd]; rfl
    · rw [openTx_concat, hS.openTx, idleTx, if_pos (Or.inr hd)]; rfl
  · exact Or.inr ⟨(stale_concat ds' false).2 hb, not_past_concat _ hp⟩

/-- A transaction that is not full stays open. -/
theorem PartInv.next {ds : List Bool} {part : Part} (h : PartInv ds part)
    (hpc : part.pc = .decided false) (hf : part.curTx + 1 ≠ transactionSz) :
    PartInv ds { part with pc := .idle, curTx := part.curTx + 1 } := by
  unfold PartInv at h ⊢
  simp only [hpc] at h ⊢
  obtain ⟨ds', rfl, ⟨hb, hS⟩ | ⟨hb, hp⟩⟩ := h
  · have hcur := hS.curTx
    have hnat : (part.curTx + 1).toNat = part.curTx.toNat + 1 := by
      rw [UInt32.toNat_add]
      simp
      omega
    have h99 : part.curTx.toNat ≠ 99 := by
      intro h99
      apply hf
      rw [← UInt32.toNat_inj, hnat, h99]; rfl
    have hcount : (ds' ++ [false]).count false = ds'.count false + 1 := by simp
    have hd : ¬ 100 ∣ (ds' ++ [false]).count false := by omega
    refine Or.inl ⟨fun hst => hb ((stale_concat ds' false).1 hst), hS.each, ?_, ?_⟩
    · show (part.curTx + 1).toNat = _
      omega
    · rw [hS.openTx, idleTx, if_neg]
      · rw [hcount]; congr 1; omega
      · rintro (h | h)
        · simp at h
        · exact hd h
  · exact Or.inr ⟨(stale_concat ds' false).2 hb, hp⟩

/-! ## Runs -/

structure TxInv (args : Args) (as : List Act) (s : State) : Prop where
  records : s.records.toNat = (counts as).length % 2 ^ 64
  parts : ∀ p part, s.parts[p]? = some part → PartInv (decisions args (counts as) p) part

/-- A step of the handler of partition `p`, with no record counted. -/
theorem TxInv.put {args : Args} {as : List Act} {a : Act} {s : State} {p : Nat} {part' : Part} (hI : TxInv args as s)
    (ha : counts (as ++ [a]) = counts as) (h : PartInv (decisions args (counts as) p) part') :
    TxInv args (as ++ [a]) (s.put p part') := by
  refine ⟨by rw [ha]; exact hI.records, ?_⟩
  rw [ha]
  exact forall_set (fun j x _ hx => hI.parts j x hx) h

theorem TxInv.createRecord {args : Args} {as : List Act} {s : State} (hI : TxInv args as s) (key : Key) :
    TxInv args as (createRecord args s key) := by
  refine ⟨hI.records, fun p part hp => ?_⟩
  obtain ⟨part₀, queue, h₀, rfl⟩ := createRecord_get hp
  exact (hI.parts p part₀ h₀).queue queue

theorem txInv_move {args : Args} {as : List Act} {s s' : State} {a : Act} (hI : TxInv args as s)
    (hm : Move args s a s') : TxInv args (as ++ [a]) s' := by
  cases hm with
  | rejectBegin hp hpc hq hc ho => exact hI.put (by simp) ((hI.parts _ _ hp).rejectBegin hpc hc ho)
  | begin hp hpc hq hc ho => exact hI.put (by simp) ((hI.parts _ _ hp).begin hpc hc)
  | insert hp hpc hq hc => exact hI.put (by simp) ((hI.parts _ _ hp).insert hpc hc)
  | @count p part hp hpc =>
    obtain ⟨hnext, hdone⟩ := isDone_next args hI.records
    refine ⟨by rw [counts_count, List.length_append]; exact hnext, ?_⟩
    rw [counts_count]
    refine forall_set (fun j x hj hx => ?_) ?_
    · rw [decisions_concat, if_neg (Ne.symm hj), List.append_nil]
      exact hI.parts j x hx
    · rw [decisions_concat, if_pos rfl, ← hdone]
      exact (hI.parts p part hp).count hpc _
  | stop hp hpc => exact hI.put (by simp) ((hI.parts _ _ hp).stop hpc)
  | rejectCommit hp hpc hf ho => exact hI.put (by simp) ((hI.parts _ _ hp).rejectCommit hpc ho)
  | commit hp hpc hf ho => exact (hI.put (by simp) ((hI.parts _ _ hp).commit hpc hf)).createRecord _
  | next hp hpc hf => exact (hI.put (by simp) ((hI.parts _ _ hp).next hpc hf)).createRecord _

theorem txInv_init (args : Args) (keys : Nat → Key) : TxInv args [] (init args keys) := by
  have hpart : PartInv [] {} := by
    refine Or.inl ⟨?_, past_nil _, rfl, rfl⟩
    rintro ⟨l, r, hds, -⟩
    simp at hds
  have hempty : TxInv args [] { parts := List.replicate args.partitions {} } :=
    ⟨rfl, forall_replicate fun _ => hpart⟩
  unfold init
  generalize List.range (min requestQueueMax args.records.toNat) = l
  generalize ({ parts := List.replicate args.partitions {} } : State) = s at hempty
  induction l generalizing s with
  | nil => exact hempty
  | cons r l ih => exact ih _ (hempty.createRecord (keys r))

/-- A partition at the end of a run. -/
theorem txProtocol_iff {ds : List Bool} {part : Part} (h : PartInv ds part) (hpc : part.pc = .idle) :
    TxProtocol part.sql ↔ TxClean ds := by
  unfold PartInv at h
  simp only [hpc] at h
  rw [txClean_iff]
  rcases h with ⟨hst, hS⟩ | ⟨hst, hp⟩
  · have hclosed : openTx part.sql = none ↔ (ds.getLast? = some false → 100 ∣ ds.count false) := by
      rw [hS.openTx, idleTx]
      cases hlast : ds.getLast? with
      | none =>
        have : ds = [] := by simpa using hlast
        subst this
        simp
      | some b => cases b <;> simp
    constructor
    · rintro ⟨-, hc⟩; exact ⟨hst, hclosed.1 hc⟩
    · rintro ⟨-, hc⟩; exact ⟨hS.each, hclosed.2 hc⟩
  · exact ⟨fun h => absurd h.each hp, fun h => absurd hst h.1⟩

/-- **Transactions.** A complete run keeps the protocol in all partitions (BEGIN only when none is
open, COMMIT only when one is, every insert inside of one with at most 100, none open at the end) if
and only if in every partition the decisions of `is_done` on its records are clean. -/
theorem transactions_respected (args : Args) (keys : Nat → Key) (as : List Act) (s : State)
    (h : exec (createStep args) (init args keys) as = some s) (hc : Complete s) :
    (∀ part ∈ s.parts, TxProtocol part.sql) ↔
      ∀ p < args.partitions, TxClean (decisions args (counts as) p) := by
  have hI : TxInv args as s := exec_history (TxInv args) (txInv_init args keys)
    (fun _ _ _ _ hI hstep => txInv_move hI (createStep_move hstep)) h
  have hsize : s.parts.length = args.partitions := (exec_history (RunInv args) (runInv_init args keys)
    (fun _ _ _ _ hI hstep => runInv_move hI (createStep_move hstep)) h).size
  constructor
  · intro hall p hp
    have hlt : p < s.parts.length := by omega
    have hget := List.getElem?_eq_getElem hlt
    have hmem := List.getElem_mem hlt
    exact (txProtocol_iff (hI.parts p _ hget) (hc _ hmem).1).1 (hall _ hmem)
  · intro hall part hmem
    obtain ⟨p, hget⟩ := List.mem_iff_getElem?.1 hmem
    have hlt := (List.getElem?_eq_some_iff.1 hget).1
    exact (txProtocol_iff (hI.parts p part hget) (hc part hmem).1).2 (hall p (by omega))

/-- A run of `create … 2 2 …` in which each partition gets one record after the end is reached. -/
theorem transactions_respected_threeInserts : ∃ s,
    exec (createStep twoRecords) (init twoRecords fun r => keyOf (UInt8.ofNat r)) threeInserts = some s ∧
    Complete s ∧ ∀ part ∈ s.parts, TxProtocol part.sql := by
  have hrun : ((exec (createStep twoRecords) (init twoRecords fun r => keyOf (UInt8.ofNat r)) threeInserts).map
      fun s => decide (Complete s)) = some true := by decide
  obtain ⟨s, hs, hc⟩ := Option.map_eq_some_iff.1 hrun
  have hc : Complete s := by simpa using hc
  refine ⟨s, hs, hc, (transactions_respected twoRecords _ _ s hs hc).2 fun p hp => ?_⟩
  have hcounts : (counts threeInserts).length < 2 ^ 64 := by decide
  have hp : p < 2 := hp
  rw [txClean_decisions hcounts]
  interval_cases p
  · exact Or.inr (by decide)
  · exact Or.inr (by decide)

/-- `create … 1 2 …`: two records in one partition. -/
def onePartition : Args :=
  { twoRecords with partitions := 1, partitions_min := Nat.le_refl 1, partitions_max := by decide }

/-- Three handlers, one after the other. -/
def threeInOne : List Act :=
  [.start 0, .count 0, .finish 0 (keyOf 0), .start 0, .count 0, .finish 0 (keyOf 0),
   .start 0, .count 0, .finish 0 (keyOf 0)]

/-- The second record reaches RECORDS and commits, the third is inserted outside of a transaction and
its COMMIT is rejected. -/
theorem insert_outside_transaction : ∃ s,
    exec (createStep onePartition) (init onePartition fun _ => keyOf 0) threeInOne = some s ∧ Complete s ∧
    (s.parts.map fun part => (part.sql, part.failed)) =
      [([.begin, .insert, .insert, .commit, .insert, .commit], true)] ∧
    ¬ ∀ part ∈ s.parts, TxProtocol part.sql := by
  have hrun : ((exec (createStep onePartition) (init onePartition fun _ => keyOf 0) threeInOne).map fun s =>
      (decide (Complete s), s.parts.map fun part => (part.sql, part.failed))) = some (true,
        [([.begin, .insert, .insert, .commit, .insert, .commit], true)]) := by decide
  obtain ⟨s, hs, hp⟩ := Option.map_eq_some_iff.1 hrun
  simp only [Prod.mk.injEq, decide_eq_true_eq] at hp
  refine ⟨s, hs, hp.1, hp.2, fun hall => ?_⟩
  obtain ⟨part, hpart, hsql⟩ := List.mem_map.1 (hp.2 ▸ List.mem_cons_self)
  have heach := (hall part hpart).each
  rw [(Prod.mk.inj hsql).1] at heach
  obtain ⟨k, -, hk⟩ := heach [.begin, .insert, .insert, .commit] .insert [.commit] rfl
  cases hk

end Acppsrv.Benchmark
