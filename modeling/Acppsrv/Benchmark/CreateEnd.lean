import Acppsrv.Benchmark.Transactions
/-!
# How `create` ends (benchmark.cpp:392-460, :527)

A handler ends its chain when `is_done` says so, or when SQLite rejects a statement of it and the exception
leaves it. `Transactions.lean` says when statements are out of place; here it turns out that no record is lost
by it. Only a COMMIT of a handler that stops anyway is ever rejected (`EndPart`), so the run is what it would be
without transactions: `create_ends` says how many records it makes, and that it comes to an end.
-/
namespace Acppsrv.Benchmark
open Lib

/-- The handlers in the queues at the beginning. -/
def chains (args : Args) : Nat := min requestQueueMax args.records.toNat

/-- The counter does not wrap. -/
def Unwrapped (args : Args) : Prop := args.records.toNat + requestQueueMax < 2 ^ 64

/-- The transaction of a partition between two handlers, when no handler of it has stopped. -/
def txOf (curTx : UInt32) : Option Nat := if curTx = 0 then none else some curTx.toNat

/-- The transaction of a partition. `late`: RECORDS records have been counted. -/
structure EndPart (late : Prop) (part : Part) : Prop where
  curTx : part.curTx.toNat < 100
  idle : part.pc = .idle → openTx part.sql = txOf part.curTx ∨ late ∧ openTx part.sql = none
  busy : part.pc ≠ .idle → (openTx part.sql).isSome = true ∨ late ∧ openTx part.sql = none
  held : part.pc ≠ .idle → ∀ k, openTx part.sql = some k → k = part.curTx.toNat + 1
  /-- A handler without a transaction stops. -/
  stops : part.pc = .decided false → (openTx part.sql).isSome = true
  ended : part.pc = .decided true → late

/-- A handler after `is_done`. -/
def decided (part : Part) : Nat :=
  match part.pc with
  | .decided _ => 1
  | _ => 0

/-- A partition when a handler has stopped. -/
def Part.stopped (part : Part) : Part :=
  { part with pc := .idle, sql := part.sql ++ [.commit], failed := part.failed || (openTx part.sql).isNone }

/-- After the actions so far. -/
structure EndInv (args : Args) (as : List Act) (s : State) : Prop where
  size : s.parts.length = args.partitions
  records : s.records.toNat = (counts as).length % 2 ^ 64
  conserved : Conserved args (counts as).length s
  parts : ∀ (p : Nat) part, s.parts[p]? = some part → EndPart (args.records.toNat ≤ (counts as).length) part
  /-- One step each for the start, the count and the end of a handler. -/
  steps : as.length + total decided s.parts = total stored s.parts + 2 * (counts as).length

section
variable {args : Args}

/-! ## The counter -/

/-- From RECORDS on, every record counted stops its handler. -/
theorem dones_after (hU : Unwrapped args) {j : Nat} (hj : j ≤ requestQueueMax) :
    dones args (args.records.toNat + j) = j + 1 := by
  induction j with
  | zero => exact dones_records args
  | succ j ih =>
    unfold Unwrapped at hU
    have hdone : isDone args (args.records.toNat + j + 1) = true := by
      rw [isDone, Nat.mod_eq_of_lt (by omega)]
      simp
      omega
    rw [← Nat.add_assoc, dones_succ, ih (by omega), hdone, if_pos rfl]

theorem chains_le (args : Args) : chains args ≤ requestQueueMax := Nat.min_le_left _ _

theorem chains_pos (args : Args) : 0 < chains args := by
  have hmin := args.records_min
  unfold chains requestQueueMax
  omega

/-- The handlers that have stopped are not more than there were, and records are counted no longer than that. -/
theorem Conserved.counted {s : State} {c : Nat} (hU : Unwrapped args) (h : Conserved args c s) :
    c + 1 ≤ args.records.toNat + chains args := by
  obtain ⟨hst, hpo⟩ := h
  have hdones : dones args c ≤ chains args := by
    unfold chains
    omega
  by_contra hlt
  have hmono := dones_mono args (n := args.records.toNat + chains args) (m := c) (by omega)
  rw [dones_after hU (chains_le args)] at hmono
  omega

/-- How many have stopped is in the counter. -/
theorem Conserved.dones_eq {s : State} {c : Nat} (hU : Unwrapped args) (h : Conserved args c s) :
    dones args c = c + 1 - args.records.toNat := by
  have hc := h.counted hU
  have hle := chains_le args
  by_cases hlt : c < args.records.toNat
  · rw [dones_eq_zero hlt]
    omega
  · obtain ⟨j, rfl⟩ := Nat.exists_eq_add_of_le (Nat.le_of_not_lt hlt)
    rw [dones_after hU (by omega)]
    omega

theorem Conserved.stored_le {s : State} {c : Nat} (hU : Unwrapped args) (h : Conserved args c s) :
    total stored s.parts + 1 ≤ args.records.toNat + chains args := by
  have hd := h.dones_eq hU
  have hc := h.counted hU
  obtain ⟨hst, hpo⟩ := h
  unfold chains at hc ⊢
  omega

/-! ## A partition -/

variable {late : Prop} {part : Part}

theorem EndPart.queue (h : EndPart late part) (queue : List Rec) : EndPart late { part with queue := queue } :=
  ⟨h.curTx, h.idle, h.busy, h.held, h.stops, h.ended⟩

theorem EndPart.mono {late' : Prop} (h : EndPart late part) (hle : late → late') : EndPart late' part where
  curTx := h.curTx
  idle hpc := (h.idle hpc).imp_right fun ho => ⟨hle ho.1, ho.2⟩
  busy hpc := (h.busy hpc).imp_right fun ho => ⟨hle ho.1, ho.2⟩
  held := h.held
  stops := h.stops
  ended hpc := hle (h.ended hpc)

/-- BEGIN is never rejected. -/
theorem EndPart.begins (h : EndPart late part) (hpc : part.pc = .idle) (hc : part.curTx = 0) : openTx part.sql = none := by
  rcases h.idle hpc with ho | ho
  · simpa [txOf, hc] using ho
  · exact ho.2

theorem EndPart.begin (h : EndPart late part) (hpc : part.pc = .idle) (hc : part.curTx = 0) (queue : List Rec) (rec : Rec) :
    EndPart late (insertRecord { part with queue := queue, sql := part.sql ++ [.begin] } rec) := by
  have ho : openTx (part.sql ++ [.begin] ++ [.insert]) = some 1 := by
    rw [openTx_concat, openTx_concat, h.begins hpc hc]
    rfl
  refine ⟨h.curTx, by simp [insertRecord], fun _ => Or.inl (by simp only [insertRecord, ho, Option.isSome_some]), ?_,
    by simp [insertRecord], by simp [insertRecord]⟩
  intro _ k hk
  simp only [insertRecord, ho, Option.some.injEq] at hk
  simp only [insertRecord, ← hk, hc]
  rfl

theorem EndPart.insert (h : EndPart late part) (hpc : part.pc = .idle) (hc : part.curTx ≠ 0) (queue : List Rec) (rec : Rec) :
    EndPart late (insertRecord { part with queue := queue } rec) := by
  rcases h.idle hpc with ho | ⟨hl, ho⟩
  · have ho' : openTx (part.sql ++ [.insert]) = some (part.curTx.toNat + 1) := by
      rw [openTx_concat, ho, txOf, if_neg hc]
      rfl
    refine ⟨h.curTx, by simp [insertRecord], fun _ => Or.inl (by simp only [insertRecord, ho', Option.isSome_some]), ?_,
      by simp [insertRecord], by simp [insertRecord]⟩
    intro _ k hk
    simp only [insertRecord, ho', Option.some.injEq] at hk
    exact hk.symm
  · have ho' : openTx (part.sql ++ [.insert]) = none := by
      rw [openTx_concat, ho]
      rfl
    refine ⟨h.curTx, by simp [insertRecord], fun _ => Or.inr ⟨hl, ho'⟩, ?_, by simp [insertRecord], by simp [insertRecord]⟩
    intro _ k hk
    simp only [insertRecord, ho'] at hk
    cases hk

/-- `is_done` for the next record. -/
theorem EndPart.count {late' : Prop} [Decidable late'] (h : EndPart late part) (hpc : part.pc = .inserted)
    (hle : late → late') : EndPart late' { part with pc := .decided (decide late') } := by
  have hne : part.pc ≠ .idle := by simp [hpc]
  refine ⟨h.curTx, by simp, fun _ => (h.busy hne).imp_right fun ho => ⟨hle ho.1, ho.2⟩, fun _ => h.held hne, ?_, ?_⟩
  · intro hd
    rcases h.busy hne with ho | ho
    · exact ho
    · simp [hle ho.1] at hd
  · intro hd
    simpa using hd

/-- A handler that stops leaves no transaction, whether its COMMIT was rejected or not. -/
theorem EndPart.stop (h : EndPart late part) (hpc : part.pc = .decided true) (failed : Bool) :
    EndPart late { part with pc := .idle, sql := part.sql ++ [.commit], failed := failed } := by
  have ho : openTx (part.sql ++ [.commit]) = none := by
    rw [openTx_concat]
    cases openTx part.sql with
    | none => rfl
    | some k => rfl
  exact ⟨h.curTx, fun _ => Or.inr ⟨h.ended hpc, ho⟩, by simp, by simp, by simp, by simp⟩

/-- A full transaction is committed. -/
theorem endPart_commit (late : Prop) (part : Part) :
    EndPart late { part with pc := .idle, curTx := 0, sql := part.sql ++ [.commit] } := by
  have ho : openTx (part.sql ++ [.commit]) = none := by
    rw [openTx_concat]
    cases openTx part.sql with
    | none => rfl
    | some k => rfl
  exact ⟨by simp, fun _ => Or.inl (by simp [ho, txOf]), by simp, by simp, by simp, by simp⟩

theorem EndPart.next (h : EndPart late part) (hpc : part.pc = .decided false) (hf : part.curTx + 1 ≠ transactionSz) :
    EndPart late { part with pc := .idle, curTx := part.curTx + 1 } := by
  have hcur := h.curTx
  have hnat : (part.curTx + 1).toNat = part.curTx.toNat + 1 := by
    rw [UInt32.toNat_add]
    simp
    omega
  have h99 : part.curTx.toNat ≠ 99 := by
    intro h99
    apply hf
    rw [← UInt32.toNat_inj, hnat, h99]
    rfl
  obtain ⟨k, hk⟩ := Option.isSome_iff_exists.1 (h.stops hpc)
  have hheld := h.held (by simp [hpc]) k hk
  refine ⟨by show (part.curTx + 1).toNat < 100; omega, fun _ => Or.inl ?_, by simp, by simp, by simp, by simp⟩
  have hne : part.curTx + 1 ≠ 0 := by
    intro h0
    rw [h0] at hnat
    simp at hnat
  rw [txOf, if_neg hne, hk, hheld, hnat]

end

/-! ## Runs -/

section
variable {args : Args} {as : List Act} {s s' : State}

/-- `createRecord` adds to a queue only. -/
theorem endParts_createRecord {late : Prop} (h : ∀ (p : Nat) part, s.parts[p]? = some part → EndPart late part) (key : Key) :
    ∀ (p : Nat) part, (createRecord args s key).parts[p]? = some part → EndPart late part := by
  intro p part hp
  obtain ⟨part₀, queue, h₀, rfl⟩ := createRecord_get hp
  exact (h p part₀ h₀).queue queue

theorem createRecord_decided (key : Key) (hlen : s.parts.length = args.partitions) :
    total decided (createRecord args s key).parts = total decided s.parts := by
  obtain ⟨part, hp, heq⟩ := createRecord_eq key hlen
  rw [heq]
  exact total_set_eq decided hp rfl

/-- A handler begins. -/
theorem EndInv.start (hI : EndInv args as s) {p : Nat} {part part' : Part} {rec : Rec} {queue : List Rec}
    (hp : s.parts[p]? = some part) (hpc : part.pc = .idle) (hq : part.queue = rec :: queue)
    (hpc' : part'.pc = .inserted) (hq' : part'.queue = queue) (hr' : part'.rows = part.rows ++ [rec])
    (hpart : EndPart (args.records.toNat ≤ (counts as).length) part') : EndInv args (as ++ [.start p]) (s.put p part') := by
  have hdecided := total_set decided part' hp
  have hstored := total_set stored part' hp
  have hsteps := hI.steps
  refine ⟨by simpa using hI.size, by simpa using hI.records, ?_, ?_, ?_⟩
  · rw [counts_start]
    refine hI.conserved.put hp rfl ?_ ?_
    · simp [stored, uncounted, hpc, hpc', hr']
    · simp [stored, queued, posting, hpc, hpc', hr', hq, hq']
      omega
  · rw [counts_start]
    exact forall_set (fun j x _ hx => hI.parts j x hx) hpart
  · have hone : stored part' = stored part + 1 := by simp [stored, hr']
    simp only [decided, hpc, hpc'] at hdecided
    simp only [counts_start, List.length_append, List.length_singleton, State.put]
    omega

/-- A handler ends and posts another record. -/
theorem EndInv.post (hI : EndInv args as s) {p : Nat} {key : Key} {part part' : Part} (hp : s.parts[p]? = some part)
    (hpc : part.pc = .decided false) (hpc' : part'.pc = .idle) (hq : part'.queue = part.queue) (hr : part'.rows = part.rows)
    (hpart : EndPart (args.records.toNat ≤ (counts as).length) part') :
    EndInv args (as ++ [.finish p key]) (createRecord args (s.put p part') key) := by
  have hdecided := total_set decided part' hp
  have hsize : (s.put p part').parts.length = args.partitions := by simpa using hI.size
  have hsteps := hI.steps
  have hstored : total stored (s.put p part').parts = total stored s.parts := total_set_eq stored hp (by simp [stored, hr])
  refine ⟨by simpa using hsize, by simpa using hI.records, ?_, ?_, ?_⟩
  · rw [counts_finish]
    exact hI.conserved.post hI.size hp hpc hpc' hq hr
  · rw [counts_finish]
    exact endParts_createRecord (forall_set (fun j x _ hx => hI.parts j x hx) hpart) key
  · rw [createRecord_decided key hsize, (createRecord_total key hsize).2.1, hstored, counts_finish]
    simp only [decided, hpc, hpc'] at hdecided
    simp only [List.length_append, List.length_singleton, State.put]
    omega

theorem endInv_move {a : Act} (hU : Unwrapped args) (hI : EndInv args as s) (hm : Move args s a s') :
    EndInv args (as ++ [a]) s' := by
  cases hm with
  | rejectBegin hp hpc hq hc ho =>
    rw [(hI.parts _ _ hp).begins hpc hc] at ho
    cases ho
  | begin hp hpc hq hc ho =>
    exact hI.start hp hpc hq rfl rfl rfl ((hI.parts _ _ hp).begin hpc hc _ _)
  | insert hp hpc hq hc => exact hI.start hp hpc hq rfl rfl rfl ((hI.parts _ _ hp).insert hpc hc _ _)
  | @count p part hp hpc =>
    obtain ⟨hnext, hdone⟩ := isDone_next args hI.records
    have hc := hI.conserved.counted hU
    have hle := chains_le args
    unfold Unwrapped at hU
    have hlate : isDone args ((counts as).length + 1) = decide (args.records.toNat ≤ (counts as).length + 1) := by
      rw [isDone, Nat.mod_eq_of_lt (by omega)]
    have hdecided := total_set decided { part with pc := .decided (isDone args ((counts as).length + 1)) } hp
    have hstored : total stored (s.parts.set p { part with pc := .decided (isDone args ((counts as).length + 1)) }) =
        total stored s.parts := total_set_eq stored hp rfl
    have hsteps := hI.steps
    rw [hdone]
    refine ⟨by simpa using hI.size, by rw [counts_count]; simpa using hnext, ?_, ?_, ?_⟩
    · rw [counts_count, List.length_append, List.length_singleton]
      refine hI.conserved.put hp rfl ?_ ?_
      · simp [stored, uncounted, hpc]; omega
      · rw [dones_succ]
        cases isDone args ((counts as).length + 1) <;> simp [stored, queued, posting, hpc] <;> omega
    · rw [counts_count, List.length_append, List.length_singleton]
      refine forall_set (fun j x _ hx => (hI.parts j x hx).mono fun h => Nat.le_succ_of_le h) ?_
      rw [hlate]
      exact (hI.parts p part hp).count hpc fun h => Nat.le_succ_of_le h
    · simp only [decided, hpc] at hdecided
      simp only [counts_count, List.length_append, List.length_singleton, State.put, hstored]
      omega
  | @stop p key part hp hpc =>
    have hsteps := hI.steps
    refine ⟨by simpa using hI.size, by simpa using hI.records, ?_, ?_, ?_⟩
    · rw [counts_finish]
      refine hI.conserved.put hp rfl ?_ ?_
      · simp [stored, uncounted, hpc]
      · simp [stored, queued, posting, hpc]
    · rw [counts_finish]
      exact forall_set (fun j x _ hx => hI.parts j x hx) ((hI.parts p part hp).stop hpc _)
    · have hdecided := total_set decided (Part.stopped part) hp
      have hstored : total stored (s.parts.set p part.stopped) = total stored s.parts := total_set_eq stored hp rfl
      have hout : decided part.stopped = 0 := rfl
      simp only [decided, hpc] at hdecided hout
      simp only [counts_finish, List.length_append, List.length_singleton]
      show _ + total decided (s.parts.set p part.stopped) = total stored (s.parts.set p part.stopped) + _
      omega
  | rejectCommit hp hpc hf ho =>
    have hopen := (hI.parts _ _ hp).stops hpc
    rw [ho] at hopen
    cases hopen
  | commit hp hpc hf ho => exact hI.post hp hpc rfl rfl rfl (endPart_commit _ _)
  | next hp hpc hf => exact hI.post hp hpc rfl rfl rfl ((hI.parts _ _ hp).next hpc hf)

/-- After `worker::init` there are handlers in the queues, and nothing else has happened. -/
theorem init_blank (args : Args) (keys : Nat → Key) :
    ∀ (p : Nat) part, (init args keys).parts[p]? = some part → ∃ queue, part = { queue := queue } := by
  have hempty : ∀ (p : Nat) part, (List.replicate args.partitions ({} : Part))[p]? = some part →
      ∃ queue, part = { queue := queue } := forall_replicate fun _ => ⟨[], rfl⟩
  unfold init
  generalize List.range (min requestQueueMax args.records.toNat) = l
  have hfold : ∀ s : State, (∀ (p : Nat) part, s.parts[p]? = some part → ∃ queue, part = { queue := queue }) →
      ∀ (p : Nat) part, (l.foldl (fun s r => createRecord args s (keys r)) s).parts[p]? = some part →
        ∃ queue, part = { queue := queue } := by
    induction l with
    | nil => exact fun s hs => hs
    | cons r l ih =>
      intro s hs
      apply ih
      intro p part hp
      obtain ⟨part₀, queue, h₀, rfl⟩ := createRecord_get hp
      obtain ⟨queue₀, rfl⟩ := hs p part₀ h₀
      exact ⟨queue, rfl⟩
  exact hfold _ hempty

theorem endInv_init (args : Args) (keys : Nat → Key) : EndInv args [] (init args keys) := by
  have hR := runInv_init args keys
  have hblank := init_blank args keys
  have hmem {part : Part} (hp : part ∈ (init args keys).parts) : ∃ queue, part = { queue := queue } := by
    obtain ⟨p, hp⟩ := List.mem_iff_getElem?.1 hp
    exact hblank p part hp
  refine ⟨hR.size, hR.records, hR.conserved fun part hp => ?_, fun p part hp => ?_, ?_⟩
  · obtain ⟨queue, rfl⟩ := hmem hp
    rfl
  · obtain ⟨queue, rfl⟩ := hblank p part hp
    exact ⟨by simp, fun _ => Or.inl rfl, by simp, by simp, by simp, by simp⟩
  · have hdecided : total decided (init args keys).parts = 0 := by
      refine total_eq_zero _ fun part hp => ?_
      obtain ⟨queue, rfl⟩ := hmem hp
      rfl
    have hstored : total stored (init args keys).parts = 0 := by
      refine total_eq_zero _ fun part hp => ?_
      obtain ⟨queue, rfl⟩ := hmem hp
      rfl
    rw [hdecided, hstored]
    rfl

theorem endInv_run {keys : Nat → Key} (hU : Unwrapped args) (h : exec (createStep args) (init args keys) as = some s) :
    EndInv args as s :=
  exec_history (EndInv args) (endInv_init args keys) (fun _ _ _ _ hI hstep => endInv_move hU hI (createStep_move hstep)) h

theorem EndInv.length_le (hU : Unwrapped args) (hI : EndInv args as s) :
    as.length ≤ 3 * (args.records.toNat + chains args - 1) := by
  have hst := hI.conserved.stored_le hU
  have hc := hI.conserved.counted hU
  have hsteps := hI.steps
  omega

/-- The handlers in the queues when RECORDS is reached are made up for by as many records. -/
theorem EndInv.inserted (hU : Unwrapped args) (hI : EndInv args as s) (hc : Complete s) :
    inserted s = args.records.toNat + chains args - 1 := by
  obtain ⟨hins, hdones⟩ := complete_dones hI.conserved hc
  rw [hI.conserved.dones_eq hU] at hdones
  have hpos := chains_pos args
  have hch : chains args = min requestQueueMax args.records.toNat := rfl
  omega

/-- Nothing is ever waited for: a strand with a handler has a step. -/
theorem createStep_enabled (args : Args) (hc : ¬Complete s) : ∃ a s', createStep args s a = some s' := by
  simp only [Complete, not_forall] at hc
  obtain ⟨part, hpart, hbusy⟩ := hc
  obtain ⟨p, hp⟩ := List.mem_iff_getElem?.1 hpart
  cases hpc : part.pc with
  | idle =>
    cases hq : part.queue with
    | nil => exact absurd ⟨hpc, hq⟩ hbusy
    | cons rec queue => exact ⟨.start p, by simp [createStep, hp, hpc, hq]⟩
  | inserted => exact ⟨.count p, by simp [createStep, hp, hpc]⟩
  | decided done => exact ⟨.finish p (keyOf 0), by simp [createStep, hp, hpc]⟩

end

/-- **The end of `create`.** For RECORDS less than 2^64 - 1000, in every interleaving: whatever has happened so far,
at most `3 * (RECORDS + min 1000 RECORDS - 1)` steps of handlers have been made, the run can be completed, and when
it is complete, the tables hold `RECORDS + min 1000 RECORDS - 1` records. -/
theorem create_ends (args : Args) (hU : Unwrapped args) (keys : Nat → Key) (as : List Act) (s : State)
    (h : exec (createStep args) (init args keys) as = some s) :
    as.length ≤ 3 * (args.records.toNat + chains args - 1) ∧
    (∃ bs s', exec (createStep args) s bs = some s' ∧ Complete s') ∧
    (Complete s → inserted s = args.records.toNat + chains args - 1) := by
  have hI := endInv_run hU h
  refine ⟨hI.length_le hU, ?_, fun hc => ?_⟩
  · refine exec_finish (EndInv args) Complete (fun _ _ hI => hI.length_le hU) (fun as s hI hc => ?_) hI (Nat.lt_succ_self _)
    obtain ⟨a, s', ha⟩ := createStep_enabled args hc
    exact ⟨a, s', ha, endInv_move hU hI (createStep_move ha)⟩
  · exact hI.inserted hU hc

/-- Three records in one partition, one more than RECORDS, and the last COMMIT is rejected. -/
theorem create_ends_threeInOne : ∃ s,
    exec (createStep onePartition) (init onePartition fun _ => keyOf 0) threeInOne = some s ∧ Complete s ∧
    (s.parts.map Part.failed) = [true] ∧ inserted s = 3 := by
  have hrun : ((exec (createStep onePartition) (init onePartition fun _ => keyOf 0) threeInOne).map fun s =>
      (decide (Complete s), s.parts.map Part.failed)) = some (true, [true]) := by decide
  obtain ⟨s, hs, hp⟩ := Option.map_eq_some_iff.1 hrun
  simp only [Prod.mk.injEq, decide_eq_true_eq] at hp
  exact ⟨s, hs, hp.1, hp.2, (create_ends onePartition (by unfold Unwrapped; decide) _ _ s hs).2.2 hp.1⟩

end Acppsrv.Benchmark
