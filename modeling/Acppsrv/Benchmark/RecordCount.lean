import Acppsrv.Benchmark.Create
/-!
# How many records `create` makes (benchmark.cpp:392-460, :527)

RECORDS is documented as the total number of records (:99). The run starts with
`min(1000, RECORDS)` outstanding handlers and each of them inserts its record before it asks
`is_done`, so the handlers still outstanding when the counter reaches RECORDS insert theirs on top.

`Conserved`, kept by every step (`runInv_move`): records, queued handlers and stopped handlers add up, in every interleaving.
`records_total`: a complete run inserts RECORDS records if and only if RECORDS is 1.
-/
namespace Acppsrv.Benchmark
open Lib

/-- The partitions of the records counted by `is_done`, in order. -/
def counts (as : List Act) : List Nat := as.filterMap fun a => match a with
  | .count p => some p
  | _ => none

/-- How many of the first `n` records counted were told to stop. -/
def dones (args : Args) (n : Nat) : Nat := (List.range n).countP fun k => isDone args (k + 1)

theorem dones_succ (args : Args) (n : Nat) :
    dones args (n + 1) = dones args n + if isDone args (n + 1) then 1 else 0 := by
  simp [dones, List.range_succ, List.countP_append, List.countP_cons]

/-! ## What the handlers of a partition stand for -/

def queued (part : Part) : Nat := part.queue.length

def stored (part : Part) : Nat := part.rows.length

/-- inserted and not yet counted -/
def uncounted (part : Part) : Nat := if part.pc = .inserted then 1 else 0

/-- counted, and about to post another record -/
def posting (part : Part) : Nat := if part.pc = .decided false then 1 else 0

/-- What the handlers so far add up to, after `c` of their records were counted. -/
structure Conserved (args : Args) (c : Nat) (s : State) : Prop where
  stored_eq : total stored s.parts = c + total uncounted s.parts
  posted_eq : total queued s.parts + total stored s.parts + total posting s.parts + dones args c =
    min requestQueueMax args.records.toNat + c

/-- A record posted adds one to the queues, and to nothing else. -/
theorem createRecord_total {args : Args} {s : State} (key : Key) (hlen : s.parts.length = args.partitions) :
    total queued (createRecord args s key).parts = total queued s.parts + 1 ∧
    total stored (createRecord args s key).parts = total stored s.parts ∧
    total uncounted (createRecord args s key).parts = total uncounted s.parts ∧
    total posting (createRecord args s key).parts = total posting s.parts := by
  obtain ⟨part, hp, heq⟩ := createRecord_eq key hlen
  rw [heq]
  have hq := total_set queued { part with queue := part.queue ++ [Rec.update args.partitions key] } hp
  have hone : queued { part with queue := part.queue ++ [Rec.update args.partitions key] } = queued part + 1 := by
    simp [queued]
  refine ⟨by simp only [State.put]; omega, ?_, ?_, ?_⟩
  · exact total_set_eq stored hp rfl
  · exact total_set_eq uncounted hp rfl
  · exact total_set_eq posting hp rfl

/-- The counter after `c` records, and `is_done` for the next one. -/
theorem isDone_next (args : Args) {r : UInt64} {c : Nat} (h : r.toNat = c % 2 ^ 64) :
    (r + 1).toNat = (c + 1) % 2 ^ 64 ∧ decide (args.records ≤ r + 1) = isDone args (c + 1) := by
  have hr : (r + 1).toNat = (c + 1) % 2 ^ 64 := by
    rw [UInt64.toNat_add, h]; simp
  refine ⟨hr, ?_⟩
  unfold isDone
  rw [← hr]
  exact decide_eq_decide.2 UInt64.le_iff_toNat_le

/-- A step of one partition that moves its handlers and the counter by the same amounts. -/
theorem Conserved.put {args : Args} {c c' : Nat} {s s' : State} {p : Nat} {part part' : Part}
    (hp : s.parts[p]? = some part) (hs' : s'.parts = s.parts.set p part') (h : Conserved args c s)
    (hstored : stored part' + uncounted part + c = stored part + uncounted part' + c')
    (hposted : queued part' + stored part' + posting part' + dones args c' + c =
      queued part + stored part + posting part + dones args c + c') : Conserved args c' s' := by
  have h1 := total_set queued part' hp
  have h2 := total_set stored part' hp
  have h3 := total_set uncounted part' hp
  have h4 := total_set posting part' hp
  obtain ⟨hst, hpo⟩ := h
  rw [← hs'] at h1 h2 h3 h4
  constructor <;> omega

/-- A handler that posts another record at its end. -/
theorem Conserved.post {args : Args} {c : Nat} {s : State} {p : Nat} {key : Key} {part part' : Part}
    (hlen : s.parts.length = args.partitions) (hp : s.parts[p]? = some part) (h : Conserved args c s)
    (hpc : part.pc = .decided false) (hpc' : part'.pc = .idle) (hq : part'.queue = part.queue)
    (hr : part'.rows = part.rows) : Conserved args c (createRecord args (s.put p part') key) := by
  obtain ⟨k1, k2, k3, k4⟩ := createRecord_total (s := s.put p part') key (by simpa using hlen)
  have h1 : queued part' = queued part := by simp [queued, hq]
  have h2 : stored part' = stored part := by simp [stored, hr]
  have h3 : uncounted part' = uncounted part := by simp [uncounted, hpc, hpc']
  have h4 : posting part' + 1 = posting part := by simp [posting, hpc, hpc']
  have t1 : total queued (s.put p part').parts = total queued s.parts := total_set_eq queued hp h1
  have t2 : total stored (s.put p part').parts = total stored s.parts := total_set_eq stored hp h2
  have t3 : total uncounted (s.put p part').parts = total uncounted s.parts := total_set_eq uncounted hp h3
  have t4 := total_set posting part' hp
  have t4' : total posting (s.put p part').parts = total posting (s.parts.set p part') := rfl
  obtain ⟨hst, hpo⟩ := h
  constructor <;> omega

/-! ## Runs -/

/-- A rejected statement leaves its mark. -/
theorem unfailed_put {s : State} {p : Nat} {part part' : Part} (hp : s.parts[p]? = some part)
    (h : ∀ x ∈ (s.put p part').parts, x.failed = false) (hmono : part'.failed = false → part.failed = false) :
    part'.failed = false ∧ ∀ x ∈ s.parts, x.failed = false := by
  have hlt := (List.getElem?_eq_some_iff.1 hp).1
  have hnew : part'.failed = false := h part' (List.mem_of_getElem? (List.getElem?_set_self hlt))
  refine ⟨hnew, fun x hx => ?_⟩
  obtain ⟨j, hj⟩ := List.mem_iff_getElem?.1 hx
  by_cases hjp : p = j
  · subst hjp
    rw [hp] at hj
    cases hj
    exact hmono hnew
  · exact h x (List.mem_of_getElem? ((List.getElem?_set_ne hjp).trans hj))

theorem unfailed_createRecord {args : Args} {s : State} {key : Key} (hlen : s.parts.length = args.partitions)
    (h : ∀ x ∈ (createRecord args s key).parts, x.failed = false) : ∀ x ∈ s.parts, x.failed = false := by
  obtain ⟨part, hp, heq⟩ := createRecord_eq key hlen
  rw [heq] at h
  exact (unfailed_put hp h fun hf => hf).2

/-- After the actions so far. -/
structure RunInv (args : Args) (as : List Act) (s : State) : Prop where
  size : s.parts.length = args.partitions
  records : s.records.toNat = (counts as).length % 2 ^ 64
  conserved : (∀ part ∈ s.parts, part.failed = false) → Conserved args (counts as).length s

@[simp] theorem counts_start (as : List Act) (p : Nat) : counts (as ++ [.start p]) = counts as := by
  simp [counts]

@[simp] theorem counts_count (as : List Act) (p : Nat) : counts (as ++ [.count p]) = counts as ++ [p] := by
  simp [counts]

@[simp] theorem counts_finish (as : List Act) (p : Nat) (key : Key) :
    counts (as ++ [.finish p key]) = counts as := by
  simp [counts]

theorem runInv_move {args : Args} {as : List Act} {s s' : State} {a : Act} (hI : RunInv args as s)
    (hm : Move args s a s') : RunInv args (as ++ [a]) s' := by
  obtain ⟨hsize, hrec, hcons⟩ := hI
  cases hm with
  | @rejectBegin p part rec queue hp hpc hq hc ho =>
    refine ⟨by simpa using hsize, by simpa using hrec, fun hun => ?_⟩
    exact absurd (unfailed_put hp hun (by simp)).1 (by simp)
  | @begin p part rec queue hp hpc hq hc ho =>
    refine ⟨by simpa using hsize, by simpa using hrec, fun hun => ?_⟩
    rw [counts_start]
    refine (hcons (unfailed_put hp hun fun hf => hf).2).put hp rfl ?_ ?_
    · simp [stored, uncounted, insertRecord, hpc]
    · simp [stored, queued, posting, insertRecord, hpc, hq]; omega
  | @insert p part rec queue hp hpc hq hc =>
    refine ⟨by simpa using hsize, by simpa using hrec, fun hun => ?_⟩
    rw [counts_start]
    refine (hcons (unfailed_put hp hun fun hf => hf).2).put hp rfl ?_ ?_
    · simp [stored, uncounted, insertRecord, hpc]
    · simp [stored, queued, posting, insertRecord, hpc, hq]; omega
  | @count p part hp hpc =>
    obtain ⟨hnext, hdone⟩ := isDone_next args hrec
    refine ⟨by simpa using hsize, by rw [counts_count]; simpa using hnext, fun hun => ?_⟩
    have hunf : ∀ x ∈ s.parts, x.failed = false :=
      (unfailed_put (s := { s with records := s.records + 1 }) hp hun fun hf => hf).2
    rw [counts_count, List.length_append, List.length_singleton, hdone]
    refine (hcons hunf).put hp rfl ?_ ?_
    · simp [stored, uncounted, hpc]; omega
    · rw [dones_succ]
      cases isDone args ((counts as).length + 1) <;> simp [stored, queued, posting, hpc] <;> omega
  | @stop p key part hp hpc =>
    refine ⟨by simpa using hsize, by simpa using hrec, fun hun => ?_⟩
    rw [counts_finish]
    refine (hcons (unfailed_put hp hun fun hf => (Bool.or_eq_false_iff.1 hf).1).2).put hp rfl ?_ ?_
    · simp [stored, uncounted, hpc]
    · simp [stored, queued, posting, hpc]
  | @rejectCommit p key part hp hpc hf ho =>
    refine ⟨by simpa using hsize, by simpa using hrec, fun hun => ?_⟩
    exact absurd (unfailed_put hp hun (by simp)).1 (by simp)
  | @commit p key part hp hpc hf ho =>
    refine ⟨by simpa using hsize, by simpa using hrec, fun hun => ?_⟩
    rw [counts_finish]
    have hunf := unfailed_createRecord (by simpa using hsize) hun
    exact (hcons (unfailed_put hp hunf fun hf => hf).2).post hsize hp hpc rfl rfl rfl
  | @next p key part hp hpc hf =>
    refine ⟨by simpa using hsize, by simpa using hrec, fun hun => ?_⟩
    rw [counts_finish]
    have hunf := unfailed_createRecord (by simpa using hsize) hun
    exact (hcons (unfailed_put hp hunf fun hf => hf).2).post hsize hp hpc rfl rfl rfl

/-- `worker::init` posts its records and does nothing else. -/
theorem init_posts (args : Args) (keys : Nat → Key) (l : List Nat) : ∀ s : State, s.parts.length = args.partitions →
    (l.foldl (fun s r => createRecord args s (keys r)) s).parts.length = args.partitions ∧
    (l.foldl (fun s r => createRecord args s (keys r)) s).records = s.records ∧
    total queued (l.foldl (fun s r => createRecord args s (keys r)) s).parts = total queued s.parts + l.length ∧
    total stored (l.foldl (fun s r => createRecord args s (keys r)) s).parts = total stored s.parts ∧
    total uncounted (l.foldl (fun s r => createRecord args s (keys r)) s).parts = total uncounted s.parts ∧
    total posting (l.foldl (fun s r => createRecord args s (keys r)) s).parts = total posting s.parts := by
  induction l with
  | nil => intro s hlen; exact ⟨hlen, rfl, rfl, rfl, rfl, rfl⟩
  | cons r l ih =>
    intro s hlen
    obtain ⟨h1, h2, h3, h4, h5, h6⟩ := ih (createRecord args s (keys r)) (by simpa using hlen)
    obtain ⟨k1, k2, k3, k4⟩ := createRecord_total (keys r) hlen
    simp only [List.foldl_cons, List.length_cons]
    exact ⟨h1, h2, by omega, by omega, by omega, by omega⟩

theorem runInv_init (args : Args) (keys : Nat → Key) : RunInv args [] (init args keys) := by
  obtain ⟨h1, h2, h3, h4, h5, h6⟩ := init_posts args keys
    (List.range (min requestQueueMax args.records.toNat)) { parts := List.replicate args.partitions {} } (by simp)
  rw [total_replicate queued _ rfl, List.length_range] at h3
  rw [total_replicate stored _ rfl] at h4
  rw [total_replicate uncounted _ rfl] at h5
  rw [total_replicate posting _ rfl] at h6
  have hd : dones args (counts []).length = 0 := rfl
  refine ⟨h1, by simp [init, h2, counts], fun _ => ⟨?_, ?_⟩⟩
  · unfold init; rw [h4, h5]; rfl
  · unfold init; rw [h3, h4, h6, hd]; simp [counts]

/-! ## A complete run -/

theorem dones_mono (args : Args) {n m : Nat} (h : n ≤ m) : dones args n ≤ dones args m :=
  (List.range_sublist.2 h).countP_le

theorem dones_eq_zero {args : Args} {n : Nat} (h : n < args.records.toNat) : dones args n = 0 := by
  have hlt := args.records.toNat_lt
  induction n with
  | zero => rfl
  | succ n ih =>
    rw [dones_succ, ih (by omega), isDone, decide_eq_false (by omega)]
    rfl

/-- When the counter reaches RECORDS, one handler stops. -/
theorem dones_records (args : Args) : dones args args.records.toNat = 1 := by
  have hlt := args.records.toNat_lt
  have hmin := args.records_min
  obtain ⟨n, hn⟩ : ∃ n, args.records.toNat = n + 1 := ⟨args.records.toNat - 1, by omega⟩
  rw [hn, dones_succ, dones_eq_zero (by omega), isDone, decide_eq_true (by omega)]
  rfl

/-- A complete run inserted what it counted, and as many handlers stopped as it began with. -/
theorem complete_dones {args : Args} {c : Nat} {s : State} (hC : Conserved args c s) (hc : Complete s) :
    inserted s = c ∧ dones args c = min requestQueueMax args.records.toNat := by
  have hq : total queued s.parts = 0 := total_eq_zero _ fun x hx => by simp [queued, (hc x hx).2]
  have hu : total uncounted s.parts = 0 := total_eq_zero _ fun x hx => by simp [uncounted, (hc x hx).1]
  have hp : total posting s.parts = 0 := total_eq_zero _ fun x hx => by simp [posting, (hc x hx).1]
  obtain ⟨hst, hpo⟩ := hC
  have hins : inserted s = total stored s.parts := rfl
  omega

/-- **The number of records.** A complete run of `create` without a failed operation inserts RECORDS
records if and only if RECORDS is 1. -/
theorem records_total (args : Args) (keys : Nat → Key) (as : List Act) (s : State)
    (h : exec (createStep args) (init args keys) as = some s)
    (hok : ∀ part ∈ s.parts, part.failed = false) (hc : Complete s) :
    inserted s = args.records.toNat ↔ args.records.toNat = 1 := by
  have hI : RunInv args as s := exec_history (RunInv args) (runInv_init args keys)
    (fun _ _ _ _ hI hstep => runInv_move hI (createStep_move hstep)) h
  obtain ⟨hins, hdones⟩ := complete_dones (hI.conserved hok) hc
  rw [hins]
  constructor
  · intro heq
    rw [heq, dones_records, requestQueueMax] at hdones
    omega
  · intro hone
    rw [hone, requestQueueMax] at hdones
    -- with RECORDS = 1 the second record counted would stop, too
    have htwo : dones args 2 = 2 := by
      have h1 : isDone args 1 = true := by simp [isDone, hone]
      have h2 : isDone args 2 = true := by simp [isDone, hone]
      rw [dones_succ, dones_succ, h1, h2]; rfl
    have hle : (counts as).length < 2 := by
      by_contra hge
      have := dones_mono args (n := 2) (m := (counts as).length) (by omega)
      omega
    have hpos : (counts as).length ≠ 0 := by
      intro h0
      rw [h0] at hdones
      simp [dones] at hdones
    omega

/-- A digest that begins with `b`. -/
def keyOf (b : UInt8) : Key := ⟨b :: List.replicate 31 0, rfl⟩

/-- `create … 2 1 …`: one record in two partitions. -/
def oneRecord : Args := ⟨1, 2, by decide, by decide, by decide⟩

theorem records_total_oneRecord : ∃ s,
    exec (createStep oneRecord) (init oneRecord fun _ => keyOf 3) [.start 1, .count 1, .finish 1 (keyOf 0)] = some s ∧
    Complete s ∧ inserted s = 1 := by
  have hrun : ((exec (createStep oneRecord) (init oneRecord fun _ => keyOf 3)
      [.start 1, .count 1, .finish 1 (keyOf 0)]).map fun s =>
        (decide (Complete s), decide (∀ part ∈ s.parts, part.failed = false))) = some (true, true) := by decide
  obtain ⟨s, hs, hp⟩ := Option.map_eq_some_iff.1 hrun
  simp only [Prod.mk.injEq, decide_eq_true_eq] at hp
  exact ⟨s, hs, hp.1, (records_total oneRecord _ _ s hs hp.2 hp.1).2 rfl⟩

/-- `create … 2 2 …`: two records in two partitions. -/
def twoRecords : Args := ⟨2, 2, by decide, by decide, by decide⟩

/-- The first handler posts a third record to its partition before the second one is counted. -/
def threeInserts : List Act :=
  [.start 0, .count 0, .finish 0 (keyOf 0), .start 1, .count 1, .finish 1 (keyOf 0),
   .start 0, .count 0, .finish 0 (keyOf 0)]

/-- With RECORDS = 2 a complete run in which nothing fails inserts three records. -/
theorem two_records_three_inserts : ∃ s,
    exec (createStep twoRecords) (init twoRecords fun r => keyOf (UInt8.ofNat r)) threeInserts = some s ∧
    Complete s ∧ (∀ part ∈ s.parts, part.failed = false) ∧ inserted s = 3 ∧ twoRecords.records.toNat = 2 := by
  have hrun : ((exec (createStep twoRecords) (init twoRecords fun r => keyOf (UInt8.ofNat r)) threeInserts).map
      fun s => (decide (Complete s), decide (∀ part ∈ s.parts, part.failed = false), inserted s)) =
        some (true, true, 3) := by decide
  obtain ⟨s, hs, hp⟩ := Option.map_eq_some_iff.1 hrun
  simp only [Prod.mk.injEq, decide_eq_true_eq] at hp
  exact ⟨s, hs, hp.1, hp.2.1, hp.2.2, rfl⟩

end Acppsrv.Benchmark
