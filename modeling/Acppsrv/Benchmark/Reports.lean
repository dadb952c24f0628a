import Acppsrv.Benchmark.TimeRef
import Mathlib.Data.List.Count
import Mathlib.Logic.Function.Basic
/-!
# The periodic reports of `requests` (benchmark.cpp:605-618, :684-723)

Every handler ends with `is_done`, on any thread: it adds one to four of the atomic counters, goes to the
gate (TimeRef.lean), and if it is let through logs what has been counted since the last report, and clears
these counters, one load and one store after the other.

| here | there |
| --- | --- |
| `Count`            | `records`, `gets`, `updates`, `inserts`; `sum` and `recent` hold the values without and with a 1 at the end of the name |
| `increments`       | :695-712 |
| `DonePc`           | the place in `is_done` (:693) |
| `Worker.reports`   | the values logged, in the order of the messages (:715) |
| `info`             | the message is of a level that is logged (`-l`); otherwise nothing is read for it |

`is_done` returns `duration >= time`, which concerns its callers only. A store clears what was added since the
load. The counters of `/stat` are read and cleared by one `exchange(0)` each (http_hnd_stat.cpp:18).
-/
namespace Acppsrv.Benchmark
open Lib

inductive Count where
  | records
  | gets
  | updates
  | inserts
  deriving DecidableEq, Repr

/-- The order of the loads and of the stores. -/
def Count.all : List Count := [.records, .gets, .updates, .inserts]

inductive RequestKind where
  | get
  | update
  | insert
  deriving DecidableEq, Repr

def RequestKind.count : RequestKind → Count
  | .get => .gets
  | .update => .updates
  | .insert => .inserts

/-- `++` of one counter. -/
structure Increment where
  recent : Bool
  count : Count
  deriving DecidableEq, Repr

def increments (req : RequestKind) : List Increment :=
  [⟨false, .records⟩, ⟨true, .records⟩, ⟨false, req.count⟩, ⟨true, req.count⟩]

abbrev Counts := Count → UInt64

inductive DonePc where
  | outside
  | counting (todo : List Increment)
  | testing (p : TestPc)
  | loading (vals : Counts) (todo : List Count)
  /-- `vals` is what the thread has logged, 0 if it did not log -/
  | clearing (vals : Counts) (todo : List Count)

inductive DoneAct where
  | enter (req : RequestKind)
  | increment
  | test (a : TestAct)
  | load
  | clear
  deriving DecidableEq, Repr

structure Worker where
  tt : Int
  sum : Counts := fun _ => 0
  recent : Counts := fun _ => 0
  threads : List DonePc
  reports : List Counts := []
  passed : List Int := []

/-- After an increment. -/
def counted : List Increment → DonePc
  | [] => .testing .outside
  | todo => .counting todo

/-- After a step of `test`. -/
def tested (info : Bool) (p : TestPc) : Option Result → DonePc
  | some r =>
    if r.pass then if info then .loading (fun _ => 0) Count.all else .clearing (fun _ => 0) Count.all else .outside
  | none => .testing p

/-- After a store. -/
def cleared (vals : Counts) : List Count → DonePc
  | [] => .outside
  | todo => .clearing vals todo

def Worker.go (s : Worker) (i : Nat) (pc : DonePc) : Worker := { s with threads := s.threads.set i pc }

def Worker.add (s : Worker) (x : Increment) : Worker :=
  if x.recent then { s with recent := Function.update s.recent x.count (s.recent x.count + 1) }
  else { s with sum := Function.update s.sum x.count (s.sum x.count + 1) }

/-- After a load: the message is logged with the last one. -/
def Worker.loaded (s : Worker) (i : Nat) (vals : Counts) : List Count → Worker
  | [] => { s with reports := s.reports ++ [vals] }.go i (.clearing vals Count.all)
  | todo => s.go i (.loading vals todo)

/-- Step `a.2` of thread `a.1`. -/
def doneStep (info : Bool) (s : Worker) (a : Nat × DoneAct) : Option Worker :=
  match s.threads[a.1]?, a.2 with
  | some .outside, .enter req => some (s.go a.1 (.counting (increments req)))
  | some (.counting (x :: todo)), .increment => some ((s.add x).go a.1 (counted todo))
  | some (.testing p), .test ta =>
    (testStep s.tt p ta).map fun (tt, p', r) =>
      { s with tt := tt, passed := s.passed ++ passing r }.go a.1 (tested info p' r)
  | some (.loading vals (c :: todo)), .load => some (s.loaded a.1 (Function.update vals c (s.recent c)) todo)
  | some (.clearing vals (c :: todo)), .clear =>
    some ({ s with recent := Function.update s.recent c 0 }.go a.1 (cleared vals todo))
  | _, _ => none

/-- After `worker::init`. -/
def initWorker (n : Nat) (t0 : Int) : Worker := { tt := t0, threads := List.replicate n .outside }

/-- The sum of the values logged for a counter. -/
def Worker.logged (s : Worker) (c : Count) : Nat := total (fun r => (r c).toNat) s.reports

/-- No thread is in `is_done`. -/
def Worker.Quiet (s : Worker) : Prop := ∀ pc ∈ s.threads, pc = .outside

/-! ## What a step can do -/

inductive DoneMove (info : Bool) (s : Worker) (i : Nat) : DoneAct → Worker → Prop
  | enter (req : RequestKind) (h : s.threads[i]? = some .outside) :
      DoneMove info s i (.enter req) (s.go i (.counting (increments req)))
  | increment {x : Increment} {todo : List Increment} (h : s.threads[i]? = some (.counting (x :: todo))) :
      DoneMove info s i .increment ((s.add x).go i (counted todo))
  | test {p p' : TestPc} {ta : TestAct} {tt : Int} {r : Option Result} (h : s.threads[i]? = some (.testing p))
      (hm : testStep s.tt p ta = some (tt, p', r)) :
      DoneMove info s i (.test ta)
        (Worker.go { s with tt := tt, passed := s.passed ++ passing r } i (tested info p' r))
  | load {vals : Counts} {c : Count} {todo : List Count} (h : s.threads[i]? = some (.loading vals (c :: todo))) :
      DoneMove info s i .load (s.loaded i (Function.update vals c (s.recent c)) todo)
  | clear {vals : Counts} {c : Count} {todo : List Count} (h : s.threads[i]? = some (.clearing vals (c :: todo))) :
      DoneMove info s i .clear (Worker.go { s with recent := Function.update s.recent c 0 } i (cleared vals todo))

theorem doneStep_move {info : Bool} {s s' : Worker} {i : Nat} {a : DoneAct} (h : doneStep info s (i, a) = some s') :
    DoneMove info s i a s' := by
  unfold doneStep at h
  simp only at h
  split at h
  · cases h; exact .enter _ (by assumption)
  · cases h; exact .increment (by assumption)
  · obtain ⟨⟨tt, p', r⟩, hm, rfl⟩ := Option.map_eq_some_iff.1 h
    exact .test (by assumption) hm
  · cases h; exact .load (by assumption)
  · cases h; exact .clear (by assumption)
  · cases h

/-! ## The gate -/

/-- Where the thread is for the gate. -/
def DonePc.gate : DonePc → TestPc
  | .testing p => p
  | _ => .outside

def Worker.gate (s : Worker) : Gate := { tt := s.tt, threads := s.threads.map DonePc.gate, passed := s.passed }

/-- Outside of `test` nothing happens to the gate. -/
theorem gate_go {s : Worker} {i : Nat} {pc pc' : DonePc} (hpc : s.threads[i]? = some pc)
    (h : pc'.gate = pc.gate) : (s.go i pc').gate = s.gate := by
  simp only [Worker.gate, Worker.go, map_set_eq DonePc.gate hpc h]

theorem gate_counted (todo : List Increment) : (counted todo).gate = .outside := by
  cases todo with
  | nil => rfl
  | cons x todo => rfl

theorem gate_cleared (vals : Counts) (todo : List Count) : (cleared vals todo).gate = .outside := by
  cases todo with
  | nil => rfl
  | cons c todo => rfl

/-- A call of `test` that has returned is over. -/
theorem gate_tested {info : Bool} {tt tt' : Int} {p p' : TestPc} {a : TestAct} {r : Option Result}
    (hm : TestMove tt p a tt' p' r) : (tested info p' r).gate = p' := by
  cases hm with
  | clock | take | busy | giveBack => rfl
  | pass =>
    cases info with
    | false => rfl
    | true => rfl

/-- `is_done` goes through the gate as `time_ref::test` does. -/
theorem gate_move {info : Bool} {s s' : Worker} {i : Nat} {a : DoneAct} (hm : DoneMove info s i a s') :
    s'.gate = s.gate ∨ ∃ ta, a = .test ta ∧ gateStep s.gate (i, ta) = some s'.gate := by
  cases hm with
  | enter req h => exact Or.inl (gate_go h rfl)
  | @increment x todo h =>
    left
    obtain ⟨recent, d⟩ := x
    cases recent with
    | false => exact gate_go h (gate_counted todo)
    | true => exact gate_go h (gate_counted todo)
  | @test p p' ta tt r h hm =>
    refine Or.inr ⟨ta, rfl, ?_⟩
    have hp : s.gate.threads[i]? = some p := by
      show (s.threads.map DonePc.gate)[i]? = some p
      rw [List.getElem?_map, h]
      rfl
    have hm' : testStep s.gate.tt p ta = some (tt, p', r) := hm
    have hstep : gateStep s.gate (i, ta) =
        some { tt := tt, threads := s.gate.threads.set i p', passed := s.gate.passed ++ passing r } := by
      simp only [gateStep, hp, hm', Option.map_some]
    rw [hstep]
    simp only [Worker.gate, Worker.go, List.map_set, gate_tested (testStep_move hm)]
  | @load vals d todo h =>
    left
    cases todo with
    | nil => exact gate_go h rfl
    | cons e todo => exact gate_go h rfl
  | @clear vals d todo h => exact Or.inl (gate_go h (gate_cleared vals todo))

/-- What holds of the gate in a run of `test` calls holds in a run of `is_done` calls: one thread has the time
or the gate has it, and reports are a second apart. -/
theorem done_gate {info : Bool} {n : Nat} {t0 : Int} (h0 : t0 ≠ sentinel) {as : List (Nat × DoneAct)} {s : Worker}
    (hclock : ∀ i t, (i, DoneAct.test (.clock t)) ∈ as → t ≠ sentinel)
    (h : exec (doneStep info) (initWorker n t0) as = some s) : GateOk s.gate := by
  have hinit : GateInv (initWorker n t0).gate := by
    have heq : (initWorker n t0).gate = openGate n t0 := by
      simp [Worker.gate, initWorker, openGate, DonePc.gate]
    rw [heq]
    exact gateInv_open n h0
  have hI : GateInv s.gate := by
    refine exec_invariant (fun a : Nat × DoneAct => ∀ t, a.2 = .test (.clock t) → t ≠ sentinel)
      (fun s => GateInv s.gate) ?_ (by rintro ⟨i, a⟩ ha t rfl; exact hclock i t ha) hinit h
    intro s a s' hc hI hstep
    rcases gate_move (doneStep_move hstep) with heq | ⟨ta, ha, hgate⟩
    · exact heq ▸ hI
    · exact gateInv_step (fun t ht => hc t (by rw [ha, ht])) hI hgate
  exact hI.ok

/-! ## What a counter stands for -/

/-- The increments of a counter that a thread in `is_done` still owes it. -/
def DonePc.owes (x : Increment) : DonePc → Nat
  | .counting todo => todo.count x
  | _ => 0

/-- What a thread has logged for a counter and not cleared. -/
def DonePc.uncleared (c : Count) : DonePc → Nat
  | .clearing vals todo => todo.count c * (vals c).toNat
  | _ => 0

/-- What is logged and what is there, with what the threads owe, make the running total. -/
def DoneInv (c : Count) (s : Worker) : Prop :=
  (s.logged c + (s.recent c).toNat + total (DonePc.owes ⟨true, c⟩) s.threads) % 2 ^ 64 =
    ((s.sum c).toNat + total (DonePc.owes ⟨false, c⟩) s.threads + total (DonePc.uncleared c) s.threads) % 2 ^ 64

/-- A store to counter `c` finds in it what its thread has logged. -/
def clearsLogged (c : Count) (s : Worker) (a : Nat × DoneAct) : Bool :=
  match s.threads[a.1]?, a.2 with
  | some (.clearing vals (d :: _)), .clear => d != c || s.recent c == vals c
  | _, _ => true

section
variable (x : Increment) (c : Count)

@[simp] theorem owes_outside : DonePc.outside.owes x = 0 := rfl
@[simp] theorem owes_counting (todo : List Increment) : (DonePc.counting todo).owes x = todo.count x := rfl
@[simp] theorem owes_testing (p : TestPc) : (DonePc.testing p).owes x = 0 := rfl
@[simp] theorem owes_loading (vals : Counts) (todo : List Count) : (DonePc.loading vals todo).owes x = 0 := rfl
@[simp] theorem owes_clearing (vals : Counts) (todo : List Count) : (DonePc.clearing vals todo).owes x = 0 := rfl
@[simp] theorem uncleared_outside : DonePc.outside.uncleared c = 0 := rfl
@[simp] theorem uncleared_counting (todo : List Increment) : (DonePc.counting todo).uncleared c = 0 := rfl
@[simp] theorem uncleared_testing (p : TestPc) : (DonePc.testing p).uncleared c = 0 := rfl
@[simp] theorem uncleared_loading (vals : Counts) (todo : List Count) : (DonePc.loading vals todo).uncleared c = 0 := rfl
@[simp] theorem uncleared_clearing (vals : Counts) (todo : List Count) :
    (DonePc.clearing vals todo).uncleared c = todo.count c * (vals c).toNat := rfl

end

@[simp] theorem owes_counted (x : Increment) (todo : List Increment) : (counted todo).owes x = todo.count x := by
  cases todo with
  | nil => rfl
  | cons y todo => rfl

@[simp] theorem uncleared_counted (c : Count) (todo : List Increment) : (counted todo).uncleared c = 0 := by
  cases todo with
  | nil => rfl
  | cons y todo => rfl

@[simp] theorem owes_cleared (x : Increment) (vals : Counts) (todo : List Count) :
    (cleared vals todo).owes x = 0 := by
  cases todo with
  | nil => rfl
  | cons c todo => rfl

@[simp] theorem uncleared_cleared (c : Count) (vals : Counts) (todo : List Count) :
    (cleared vals todo).uncleared c = todo.count c * (vals c).toNat := by
  cases todo with
  | nil => simp [cleared, DonePc.uncleared]
  | cons d todo => rfl

@[simp] theorem owes_tested (x : Increment) (info : Bool) (p : TestPc) (r : Option Result) :
    (tested info p r).owes x = 0 := by
  unfold tested
  repeat' split
  all_goals rfl

@[simp] theorem uncleared_tested (c : Count) (info : Bool) (p : TestPc) (r : Option Result) :
    (tested info p r).uncleared c = 0 := by
  unfold tested
  repeat' split
  all_goals simp [DonePc.uncleared]

/-- A request adds once to a counter and once to its recent part, or to neither. -/
theorem count_increments (req : RequestKind) (c : Count) :
    (increments req).count ⟨true, c⟩ = (increments req).count ⟨false, c⟩ := by
  cases req <;> cases c <;> rfl

theorem count_cons_increment (b b' : Bool) (d c : Count) (todo : List Increment) :
    ((⟨b, d⟩ : Increment) :: todo).count ⟨b', c⟩ = todo.count ⟨b', c⟩ + if b = b' ∧ d = c then 1 else 0 := by
  simp [List.count_cons]

theorem count_all (c : Count) : Count.all.count c = 1 := by cases c <;> rfl

theorem toNat_update (f : Counts) (c d : Count) :
    (Function.update f c (f c + 1) d).toNat % 2 ^ 64 = ((f d).toNat + if c = d then 1 else 0) % 2 ^ 64 := by
  by_cases h : c = d
  · subst h
    simp [UInt64.toNat_add]
  · simp [h, Function.update_of_ne (Ne.symm h)]

/-- A step of thread `i` keeps the invariant when it is balanced by what the thread owes and has not cleared. -/
theorem DoneInv.of_thread {c : Count} {s s' : Worker} {i : Nat} {pc pc' : DonePc} (hI : DoneInv c s)
    (hpc : s.threads[i]? = some pc) (hthreads : s'.threads = s.threads.set i pc')
    (h : (s'.logged c + (s'.recent c).toNat + pc'.owes ⟨true, c⟩ +
        ((s.sum c).toNat + pc.owes ⟨false, c⟩ + pc.uncleared c)) % 2 ^ 64 =
      (s.logged c + (s.recent c).toNat + pc.owes ⟨true, c⟩ +
        ((s'.sum c).toNat + pc'.owes ⟨false, c⟩ + pc'.uncleared c)) % 2 ^ 64) : DoneInv c s' := by
  have ht := total_set (DonePc.owes ⟨true, c⟩) pc' hpc
  have hf := total_set (DonePc.owes ⟨false, c⟩) pc' hpc
  have hu := total_set (DonePc.uncleared c) pc' hpc
  unfold DoneInv at hI ⊢
  rw [hthreads]
  omega

theorem logged_snoc (s : Worker) (vals : Counts) (c : Count) :
    Worker.logged { s with reports := s.reports ++ [vals] } c = s.logged c + (vals c).toNat := total_snoc _ _ _

theorem doneInv_move {info : Bool} {c : Count} {s s' : Worker} {i : Nat} {a : DoneAct}
    (hC : clearsLogged c s (i, a) = true) (hI : DoneInv c s) (hm : DoneMove info s i a s') : DoneInv c s' := by
  cases hm with
  | enter req h =>
    refine hI.of_thread h rfl ?_
    simp [Worker.go, Worker.logged, count_increments]
    omega
  | @increment x todo h =>
    obtain ⟨recent, d⟩ := x
    cases recent with
    | false =>
      refine hI.of_thread h rfl ?_
      have hadd := toNat_update s.sum d c
      simp only [Worker.go, Worker.add, Worker.logged, owes_counted, uncleared_counted, owes_counting,
        uncleared_counting, count_cons_increment, Bool.false_eq_true, if_false, false_and, true_and]
      omega
    | true =>
      refine hI.of_thread h rfl ?_
      have hadd := toNat_update s.recent d c
      simp only [Worker.go, Worker.add, Worker.logged, owes_counted, uncleared_counted, owes_counting,
        uncleared_counting, count_cons_increment, Bool.true_eq_false, if_true, if_false, false_and, true_and]
      omega
  | test h hm =>
    refine hI.of_thread h rfl ?_
    simp [Worker.go, Worker.logged]
  | @load vals d todo h =>
    cases todo with
    | nil =>
      refine hI.of_thread h rfl ?_
      simp only [Worker.loaded, Worker.go, owes_loading, uncleared_loading, owes_clearing, uncleared_clearing,
        count_all, one_mul]
      have hlogged := logged_snoc s (Function.update vals d (s.recent d)) c
      simp only [Worker.logged] at hlogged ⊢
      omega
    | cons e todo =>
      refine hI.of_thread h rfl ?_
      simp [Worker.loaded, Worker.go, Worker.logged]
  | @clear vals d todo h =>
    have heq : d ≠ c ∨ s.recent c = vals c := by simpa [clearsLogged, h] using hC
    refine hI.of_thread h rfl ?_
    simp only [Worker.go, Worker.logged, owes_cleared, uncleared_cleared, owes_clearing, uncleared_clearing,
      List.count_cons, beq_iff_eq]
    by_cases hdc : d = c
    · subst hdc
      have heq := heq.resolve_left (not_not.2 rfl)
      simp only [Function.update_self, heq, if_true, UInt64.toNat_zero, Nat.add_mul, one_mul]
      omega
    · simp only [Function.update_of_ne (Ne.symm hdc), if_neg hdc, Nat.add_zero]

theorem doneInv_init (c : Count) (n : Nat) (t0 : Int) : DoneInv c (initWorker n t0) := by
  have howes (x : Increment) : total (DonePc.owes x) (List.replicate n .outside) = 0 :=
    total_replicate _ n (owes_outside x)
  have huncleared : total (DonePc.uncleared c) (List.replicate n .outside) = 0 :=
    total_replicate _ n (uncleared_outside c)
  simp only [DoneInv, initWorker, Worker.logged]
  rw [howes, howes, huncleared]
  rfl

theorem DoneInv.quiet {c : Count} {s : Worker} (hI : DoneInv c s) (hq : s.Quiet) :
    (s.logged c + (s.recent c).toNat) % 2 ^ 64 = (s.sum c).toNat := by
  have hzero (f : DonePc → Nat) (hf : f .outside = 0) : total f s.threads = 0 :=
    total_eq_zero f fun x hx => by rw [hq x hx, hf]
  unfold DoneInv at hI
  rw [hzero _ rfl, hzero _ rfl, hzero _ rfl] at hI
  have hlt := (s.sum c).toNat_lt
  omega

/-- **Reports.** In every run in which every store to a counter finds in it what its thread has logged, no
request is lost from the reports or counted twice: once no thread is in `is_done`, the values logged and the
current one make the running total, modulo the width of the counters. -/
theorem reports_conserved (info : Bool) (n : Nat) (t0 : Int) (c : Count) (as : List (Nat × DoneAct)) (s : Worker)
    (hC : Along (doneStep info) (fun s a => clearsLogged c s a = true) (initWorker n t0) as)
    (h : exec (doneStep info) (initWorker n t0) as = some s) (hq : s.Quiet) :
    (s.logged c + (s.recent c).toNat) % 2 ^ 64 = (s.sum c).toNat := by
  have hI : DoneInv c s :=
    exec_along (DoneInv c) (fun _ _ _ hc hI hstep => doneInv_move hc hI (doneStep_move hstep)) hC (doneInv_init c n t0) h
  exact hI.quiet hq

/-- A call by thread `i` up to the gate. -/
def call (i : Nat) (req : RequestKind) (t : Int) : List (Nat × DoneAct) :=
  [.enter req, .increment, .increment, .increment, .increment, .test (.clock t), .test .exchange, .test .store].map
    fun a => (i, a)

def loads (i : Nat) : List (Nat × DoneAct) := List.replicate 4 (i, .load)

def stores (i : Nat) : List (Nat × DoneAct) := List.replicate 4 (i, .clear)

/-- The values of a counter in the end, when everybody is out. -/
def balance (c : Count) (s : Worker) : Nat × Nat × Nat × Bool :=
  (s.logged c, (s.recent c).toNat, (s.sum c).toNat, s.threads.all fun pc => pc matches .outside)

theorem quiet_of_all {s : Worker} (h : (s.threads.all fun pc => pc matches .outside) = true) : s.Quiet := by
  intro pc hpc
  have hout := List.all_eq_true.1 h pc hpc
  cases pc with
  | outside => rfl
  | counting | testing | loading | clearing => cases hout

/-- Thread 0 reports and clears before thread 1 counts its request. -/
theorem reports_conserved_inTurn : ∃ s, exec (doneStep true) (initWorker 2 1)
      (call 0 .get 2000000000 ++ loads 0 ++ stores 0 ++ call 1 .get 2500000000) = some s ∧
    s.logged .records = 1 ∧ (s.logged .records + (s.recent .records).toNat) % 2 ^ 64 = (s.sum .records).toNat := by
  have hrun : (exec (doneStep true) (initWorker 2 1)
      (call 0 .get 2000000000 ++ loads 0 ++ stores 0 ++ call 1 .get 2500000000)).map (balance .records) =
        some (1, 1, 2, true) := by decide
  obtain ⟨s, hs, hb⟩ := Option.map_eq_some_iff.1 hrun
  simp only [balance, Prod.mk.injEq] at hb
  exact ⟨s, hs, hb.1, reports_conserved true 2 1 .records _ s (by decide) hs (quiet_of_all hb.2.2.2)⟩

/-- Thread 1 counts its request after thread 0 has read the counters for its report, and before it clears
them: the request is in no report and in no counter of the next one. -/
theorem reports_lost : ∃ s, exec (doneStep true) (initWorker 2 1)
      (call 0 .get 2000000000 ++ loads 0 ++ call 1 .get 2500000000 ++ stores 0) = some s ∧ s.Quiet ∧
    s.logged .records = 1 ∧ (s.recent .records).toNat = 0 ∧ (s.sum .records).toNat = 2 ∧
    s.logged .gets = 1 ∧ (s.recent .gets).toNat = 0 ∧ (s.sum .gets).toNat = 2 := by
  have hrun : (exec (doneStep true) (initWorker 2 1)
      (call 0 .get 2000000000 ++ loads 0 ++ call 1 .get 2500000000 ++ stores 0)).map
        (fun s => (balance .records s, balance .gets s)) = some ((1, 0, 2, true), (1, 0, 2, true)) := by decide
  obtain ⟨s, hs, hb⟩ := Option.map_eq_some_iff.1 hrun
  simp only [balance, Prod.mk.injEq] at hb
  obtain ⟨⟨hlog, hrecent, hsum, hq⟩, hlog', hrecent', hsum', -⟩ := hb
  exact ⟨s, hs, quiet_of_all hq, hlog, hrecent, hsum, hlog', hrecent', hsum'⟩

end Acppsrv.Benchmark
