import Acppsrv.Benchmark.CreateEnd
/-!
# What `create` commits (benchmark.cpp:392-422)

A handler that stops commits the transaction of its partition, a full transaction is committed, and nothing else
is: `~partition` asks for another journal mode only. So a partition in which no handler stops keeps its last,
partial transaction open until the connection is closed.

`PartTx` ties `cur_tx` and the transaction to the decisions of `is_done` on the partition's records; the condition is
then read off the order in which the records were counted.
-/
namespace Acppsrv.Benchmark
open Lib

/-- The records inserted before the open transaction. -/
def Part.committed (part : Part) : List Rec := part.rows.take (part.rows.length - (openTx part.sql).getD 0)

/-- A partition after the decisions `ds`. -/
structure PartTx (ds : List Bool) (part : Part) : Prop where
  rows : part.rows.length = ds.length + uncounted part
  idle : part.pc = .idle →
    part.curTx.toNat = ds.count false % 100 ∧ openTx part.sql = if true ∈ ds then none else txOf part.curTx
  inserted : part.pc = .inserted → part.curTx.toNat = ds.count false % 100 ∧
    openTx part.sql = if true ∈ ds ∧ part.curTx ≠ 0 then none else some (part.curTx.toNat + 1)
  decided : ∀ b, part.pc = .decided b → ∃ ds', ds = ds' ++ [b] ∧ part.curTx.toNat = ds'.count false % 100 ∧
    openTx part.sql = if true ∈ ds' ∧ part.curTx ≠ 0 then none else some (part.curTx.toNat + 1)

section
variable {ds : List Bool} {part : Part}

theorem PartTx.queue (h : PartTx ds part) (queue : List Rec) : PartTx ds { part with queue := queue } :=
  ⟨h.rows, h.idle, h.inserted, h.decided⟩

/-- Without `cur_tx` there is no transaction. -/
theorem PartTx.closed (h : PartTx ds part) (hpc : part.pc = .idle) (hc : part.curTx = 0) : openTx part.sql = none := by
  rw [(h.idle hpc).2, hc]
  simp [txOf]

theorem PartTx.begin (h : PartTx ds part) (hpc : part.pc = .idle) (hc : part.curTx = 0) (queue : List Rec) (rec : Rec) :
    PartTx ds (insertRecord { part with queue := queue, sql := part.sql ++ [.begin] } rec) := by
  have hrows := h.rows
  refine ⟨?_, by simp [insertRecord], fun _ => ⟨(h.idle hpc).1, ?_⟩, by simp [insertRecord]⟩
  · simp only [uncounted, hpc] at hrows
    simp [insertRecord, uncounted, hrows]
  · simp only [insertRecord, openTx_concat, h.closed hpc hc, hc]
    simp [txStep]

theorem PartTx.insert (h : PartTx ds part) (hpc : part.pc = .idle) (hc : part.curTx ≠ 0) (queue : List Rec) (rec : Rec) :
    PartTx ds (insertRecord { part with queue := queue } rec) := by
  have hrows := h.rows
  refine ⟨?_, by simp [insertRecord], fun _ => ⟨(h.idle hpc).1, ?_⟩, by simp [insertRecord]⟩
  · simp only [uncounted, hpc] at hrows
    simp [insertRecord, uncounted, hrows]
  · simp only [insertRecord, openTx_concat, (h.idle hpc).2, txOf, if_neg hc]
    by_cases ht : true ∈ ds
    · simp [ht, hc, txStep]
    · simp [ht, txStep]

theorem PartTx.count (h : PartTx ds part) (hpc : part.pc = .inserted) (b : Bool) :
    PartTx (ds ++ [b]) { part with pc := .decided b } := by
  have hrows := h.rows
  refine ⟨?_, by simp, by simp, fun b' hb => ?_⟩
  · simp only [uncounted, hpc, if_true] at hrows
    simp [uncounted, hrows]
  · cases hb
    exact ⟨ds, rfl, h.inserted hpc⟩

theorem PartTx.stop (h : PartTx ds part) (hpc : part.pc = .decided true) (failed : Bool) :
    PartTx ds { part with pc := .idle, sql := part.sql ++ [.commit], failed := failed } := by
  have hrows := h.rows
  obtain ⟨ds', rfl, hcur, -⟩ := h.decided true hpc
  refine ⟨?_, fun _ => ⟨?_, ?_⟩, by simp, by simp⟩
  · simp only [uncounted, hpc] at hrows
    simpa [uncounted] using hrows
  · simpa using hcur
  · rw [openTx_concat]
    cases openTx part.sql <;> simp [txStep]

theorem PartTx.commit (h : PartTx ds part) (hpc : part.pc = .decided false) (hf : part.curTx + 1 = transactionSz) :
    PartTx ds { part with pc := .idle, curTx := 0, sql := part.sql ++ [.commit] } := by
  have hrows := h.rows
  obtain ⟨ds', rfl, hcur, -⟩ := h.decided false hpc
  have h99 : part.curTx.toNat = 99 := by
    have hnat : (part.curTx + 1).toNat = 100 := by rw [hf]; rfl
    rw [UInt32.toNat_add] at hnat
    simp at hnat
    omega
  refine ⟨?_, fun _ => ⟨?_, ?_⟩, by simp, by simp⟩
  · simp only [uncounted, hpc] at hrows
    simpa [uncounted] using hrows
  · have hcount : (ds' ++ [false]).count false = ds'.count false + 1 := by simp
    simp only [hcount, UInt32.toNat_zero]
    omega
  · rw [openTx_concat]
    cases openTx part.sql <;> simp [txStep, txOf]

theorem PartTx.next {ds : List Bool} (h : PartTx (ds ++ [false]) part) (hmono : true ∉ ds) (hpc : part.pc = .decided false)
    (hf : part.curTx + 1 ≠ transactionSz) :
    PartTx (ds ++ [false]) { part with pc := .idle, curTx := part.curTx + 1 } := by
  have hrows := h.rows
  obtain ⟨ds', hds, hcur, hopen⟩ := h.decided false hpc
  obtain rfl : ds = ds' := (List.append_inj' hds rfl).1
  have hnat : (part.curTx + 1).toNat = part.curTx.toNat + 1 := by
    rw [UInt32.toNat_add]
    simp
    omega
  have h99 : part.curTx.toNat ≠ 99 := by
    intro h99
    apply hf
    rw [← UInt32.toNat_inj, hnat, h99]
    rfl
  have hcount : (ds ++ [false]).count false = ds.count false + 1 := by simp
  refine ⟨?_, fun _ => ⟨?_, ?_⟩, by simp, by simp⟩
  · simp only [uncounted, hpc] at hrows
    simpa [uncounted] using hrows
  · show (part.curTx + 1).toNat = _
    omega
  · have hne : part.curTx + 1 ≠ 0 := by
      intro h0
      rw [h0] at hnat
      simp at hnat
    have hall : true ∉ ds ++ [false] := by simpa using hmono
    simp only
    rw [hopen, if_neg fun h => hmono h.1, if_neg hall, txOf, if_neg hne, hnat]

/-- At the end of a run. -/
theorem PartTx.committed_eq (h : PartTx ds part) (hpc : part.pc = .idle) :
    part.committed = if true ∈ ds then part.rows else part.rows.take (part.rows.length / 100 * 100) := by
  obtain ⟨hcur, hopen⟩ := h.idle hpc
  have hrows := h.rows
  simp only [uncounted, hpc] at hrows
  unfold Part.committed
  rw [hopen]
  by_cases ht : true ∈ ds
  · rw [if_pos ht, if_pos ht]
    simp
  · rw [if_neg ht, if_neg ht]
    have hall : ds.count false = ds.length := List.count_eq_length.2 fun b hb => by
      cases b with
      | false => rfl
      | true => exact absurd hb ht
    have htx : (txOf part.curTx).getD 0 = part.curTx.toNat := by
      unfold txOf
      split
      · rename_i h0
        rw [h0]
        rfl
      · rfl
    congr 1
    rw [htx, hcur, hall]
    simp only [reduceCtorEq, if_false, Nat.add_zero] at hrows
    omega

end

/-! ## Runs -/

section
variable {args : Args} {as : List Act} {s s' : State}

/-- No handler goes on after one of its partition has stopped. -/
theorem decisions_mono {order : List Nat} (hlen : order.length < 2 ^ 64) {p : Nat} {ds : List Bool}
    (h : decisions args order p = ds ++ [false]) : true ∉ ds := by
  rw [decisions_eq p order hlen] at h
  intro ht
  obtain ⟨l, r, rfl⟩ := List.append_of_mem ht
  rcases Nat.eq_zero_or_pos ((order.drop (args.records.toNat - 1)).count p) with h0 | hpos
  · rw [h0, List.replicate_zero, List.append_nil] at h
    have hmem : true ∈ List.replicate ((order.take (args.records.toNat - 1)).count p) false := by simp [h]
    simp at hmem
  · obtain ⟨k, hk⟩ := Nat.exists_eq_succ_of_ne_zero (Nat.ne_of_gt hpos)
    rw [hk, List.replicate_succ', ← List.append_assoc] at h
    have hlast := (List.append_inj' h rfl).2
    simp at hlast

def TxParts (args : Args) (as : List Act) (s : State) : Prop :=
  ∀ (p : Nat) part, s.parts[p]? = some part → PartTx (decisions args (counts as) p) part

theorem TxParts.put {a : Act} {p : Nat} {part' : Part} (h : TxParts args as s) (ha : counts (as ++ [a]) = counts as)
    (hpart : PartTx (decisions args (counts as) p) part') : TxParts args (as ++ [a]) (s.put p part') := by
  unfold TxParts
  rw [ha]
  exact forall_set (fun j x _ hx => h j x hx) hpart

theorem TxParts.createRecord (h : TxParts args as s) (key : Key) : TxParts args as (createRecord args s key) := by
  intro p part hp
  obtain ⟨part₀, queue, h₀, rfl⟩ := createRecord_get hp
  exact (h p part₀ h₀).queue queue

theorem txParts_move {a : Act} (hU : Unwrapped args) (hI : EndInv args as s) (h : TxParts args as s) (hm : Move args s a s') :
    TxParts args (as ++ [a]) s' := by
  have hlen : (counts as).length < 2 ^ 64 := by
    have hc := hI.conserved.counted hU
    have hle := chains_le args
    unfold Unwrapped at hU
    omega
  cases hm with
  | rejectBegin hp hpc hq hc ho =>
    rw [(h _ _ hp).closed hpc hc] at ho
    cases ho
  | begin hp hpc hq hc ho => exact h.put (by simp) ((h _ _ hp).begin hpc hc _ _)
  | insert hp hpc hq hc => exact h.put (by simp) ((h _ _ hp).insert hpc hc _ _)
  | @count p part hp hpc =>
    obtain ⟨-, hdone⟩ := isDone_next args hI.records
    unfold TxParts
    rw [counts_count]
    refine forall_set (fun j x hj hx => ?_) ?_
    · rw [decisions_concat, if_neg (Ne.symm hj), List.append_nil]
      exact h j x hx
    · rw [decisions_concat, if_pos rfl, hdone]
      exact (h p part hp).count hpc _
  | stop hp hpc => exact h.put (by simp) ((h _ _ hp).stop hpc _)
  | rejectCommit hp hpc hf ho =>
    have hopen := (hI.parts _ _ hp).stops hpc
    rw [ho] at hopen
    cases hopen
  | commit hp hpc hf ho => exact (h.put (by simp) ((h _ _ hp).commit hpc hf)).createRecord _
  | next hp hpc hf =>
    have hpart := h _ _ hp
    obtain ⟨ds, hds, -⟩ := hpart.decided false hpc
    refine (h.put (by simp) ?_).createRecord _
    rw [hds] at hpart ⊢
    exact hpart.next (decisions_mono hlen hds) hpc hf

theorem txParts_init (args : Args) (keys : Nat → Key) : TxParts args [] (init args keys) := by
  intro p part hp
  obtain ⟨queue, rfl⟩ := init_blank args keys p part hp
  exact ⟨rfl, fun _ => ⟨rfl, rfl⟩, by simp, by simp⟩

theorem txParts_run {keys : Nat → Key} (hU : Unwrapped args) (h : exec (createStep args) (init args keys) as = some s) :
    EndInv args as s ∧ TxParts args as s :=
  exec_history (fun as s => EndInv args as s ∧ TxParts args as s) ⟨endInv_init args keys, txParts_init args keys⟩
    (fun _ _ _ _ hI hstep => ⟨endInv_move hU hI.1 (createStep_move hstep), txParts_move hU hI.1 hI.2 (createStep_move hstep)⟩) h

end

/-- **What is committed.** A complete run of `create` commits all records of the partitions in which a record is
counted after RECORDS - 1 others, and of every other partition its records up to a multiple of 100. -/
theorem create_commits (args : Args) (hU : Unwrapped args) (keys : Nat → Key) (as : List Act) (s : State)
    (h : exec (createStep args) (init args keys) as = some s) (hc : Complete s) (p : Nat) (part : Part)
    (hp : s.parts[p]? = some part) :
    part.committed = if p ∈ (counts as).drop (args.records.toNat - 1) then part.rows
      else part.rows.take (part.rows.length / 100 * 100) := by
  obtain ⟨hI, hT⟩ := txParts_run hU h
  have hlen : (counts as).length < 2 ^ 64 := by
    have hcount := hI.conserved.counted hU
    have hle := chains_le args
    unfold Unwrapped at hU
    omega
  rw [(hT p part hp).committed_eq (hc part (List.mem_of_getElem? hp)).1, decisions_eq p _ hlen]
  have hmem : true ∈ List.replicate (((counts as).take (args.records.toNat - 1)).count p) false ++
      List.replicate (((counts as).drop (args.records.toNat - 1)).count p) true ↔
      p ∈ (counts as).drop (args.records.toNat - 1) := by
    rw [List.mem_append, List.mem_replicate, List.mem_replicate, ← List.count_pos_iff, Nat.pos_iff_ne_zero]
    simp
  simp only [hmem]

/-- Two records fall into partition 0 and stop; the one of partition 1 is never committed. -/
def stopsInZero : List Act :=
  [.start 1, .count 1, .finish 1 (keyOf 0), .start 0, .count 0, .finish 0 (keyOf 0), .start 0, .count 0, .finish 0 (keyOf 0)]

theorem create_commits_stopsInZero : ∃ s part,
    exec (createStep twoRecords) (init twoRecords fun r => keyOf (UInt8.ofNat r)) stopsInZero = some s ∧ Complete s ∧
    s.parts[1]? = some part ∧ part.rows.length = 1 ∧ part.committed = [] := by
  have hrun : ((exec (createStep twoRecords) (init twoRecords fun r => keyOf (UInt8.ofNat r)) stopsInZero).bind fun s =>
      s.parts[1]?.map fun part => (decide (Complete s), part.rows.length)) = some (true, 1) := by decide
  obtain ⟨s, hs, hmap⟩ := Option.bind_eq_some_iff.1 hrun
  obtain ⟨part, hp, heq⟩ := Option.map_eq_some_iff.1 hmap
  simp only [Prod.mk.injEq, decide_eq_true_eq] at heq
  refine ⟨s, part, hs, heq.1, hp, heq.2, ?_⟩
  rw [create_commits twoRecords (by unfold Unwrapped; decide) _ _ s hs heq.1 1 part hp, if_neg (by decide), heq.2]
  rfl

end Acppsrv.Benchmark
