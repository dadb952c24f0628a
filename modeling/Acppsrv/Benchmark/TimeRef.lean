import Acppsrv.Lib.Locals
import Acppsrv.Lib.Run
/-!
# The gate of the periodic reports (benchmark.cpp:247-275, :684-691)

`tt` is a lock and what it protects: the time of the last report, or `time_point{}` while a thread has taken
it. `time_ref::test` exchanges it with `time_point{}`, and the thread that got a time puts back its own
reading, and is let through, or the time it took. Any number of threads are between two of its atomic steps.

| here | there |
| --- | --- |
| `sentinel`, `second` | `clock::time_point{}`, `std::chrono::seconds{1}`, in nanoseconds |
| `TestPc`             | the place in `test` (:259), with its locals `tnow` and `t` |
| `testStep`           | a step of `test`; `Result` is what it returns, with `tnow` for `d = tnow - w.t0` |
| `Gate`               | `worker::tt` and the threads; `passed` lists the readings of the calls that returned true |
| `openGate`           | after `worker::init` (:684), with `t0` of :688 |

A reading may be any time, and any steps of others may come between it and the exchange.
-/
namespace Acppsrv.Benchmark
open Lib

/-- A `clock::time_point` is the number of nanoseconds since the clock's epoch. -/
def sentinel : Int := 0
def second : Int := 1000000000

inductive TestPc where
  | outside
  | read (tnow : Int)
  | took (tnow t : Int)
  deriving DecidableEq, Repr

inductive TestAct where
  /-- `clock::now()` returned `t` -/
  | clock (t : Int)
  | exchange
  | store
  deriving DecidableEq, Repr

structure Result where
  pass : Bool
  tnow : Int
  deriving DecidableEq, Repr

/-- The new `tt`, where the thread is then, and what `test` returned if it did. -/
def testStep (tt : Int) : TestPc → TestAct → Option (Int × TestPc × Option Result)
  | .outside, .clock t => some (tt, .read t, none)
  | .read tnow, .exchange =>
    if tt = sentinel then some (sentinel, .outside, some ⟨false, tnow⟩) else some (sentinel, .took tnow tt, none)
  | .took tnow t, .store =>
    if second ≤ tnow - t then some (tnow, .outside, some ⟨true, tnow⟩) else some (t, .outside, some ⟨false, tnow⟩)
  | _, _ => none

structure Gate where
  tt : Int
  threads : List TestPc
  passed : List Int := []
  deriving DecidableEq, Repr

/-- The reading of a call that is let through. -/
def passing : Option Result → List Int
  | some r => if r.pass then [r.tnow] else []
  | none => []

/-- Step `a.2` of thread `a.1`. -/
def gateStep (g : Gate) (a : Nat × TestAct) : Option Gate :=
  match g.threads[a.1]? with
  | some pc =>
    (testStep g.tt pc a.2).map fun (tt, pc', r) =>
      { tt := tt, threads := g.threads.set a.1 pc', passed := g.passed ++ passing r }
  | none => none

def openGate (n : Nat) (t0 : Int) : Gate := { tt := t0, threads := List.replicate n .outside }

/-! ## What a step can do -/

inductive TestMove (tt : Int) : TestPc → TestAct → Int → TestPc → Option Result → Prop
  | clock (t : Int) : TestMove tt .outside (.clock t) tt (.read t) none
  /-- another thread has the time -/
  | busy {tnow : Int} (h : tt = sentinel) :
      TestMove tt (.read tnow) .exchange sentinel .outside (some ⟨false, tnow⟩)
  | take {tnow : Int} (h : tt ≠ sentinel) : TestMove tt (.read tnow) .exchange sentinel (.took tnow tt) none
  | pass {tnow t : Int} (h : second ≤ tnow - t) :
      TestMove tt (.took tnow t) .store tnow .outside (some ⟨true, tnow⟩)
  | giveBack {tnow t : Int} (h : ¬second ≤ tnow - t) :
      TestMove tt (.took tnow t) .store t .outside (some ⟨false, tnow⟩)

theorem testStep_move {tt tt' : Int} {pc pc' : TestPc} {a : TestAct} {r : Option Result}
    (h : testStep tt pc a = some (tt', pc', r)) : TestMove tt pc a tt' pc' r := by
  cases pc with
  | outside =>
    cases a with
    | clock t => cases h; exact .clock t
    | exchange | store => cases h
  | read tnow =>
    cases a with
    | exchange =>
      simp only [testStep] at h
      split at h
      · cases h; exact .busy (by assumption)
      · cases h; exact .take (by assumption)
    | clock | store => cases h
  | took tnow t =>
    cases a with
    | store =>
      simp only [testStep] at h
      split at h
      · cases h; exact .pass (by assumption)
      · cases h; exact .giveBack (by assumption)
    | clock | exchange => cases h

theorem gateStep_eq_some {g g' : Gate} {a : Nat × TestAct} (h : gateStep g a = some g') :
    ∃ pc tt pc' r, g.threads[a.1]? = some pc ∧ TestMove g.tt pc a.2 tt pc' r ∧
      g' = { tt := tt, threads := g.threads.set a.1 pc', passed := g.passed ++ passing r } := by
  unfold gateStep at h
  split at h
  · rename_i pc hpc
    obtain ⟨⟨tt, pc', r⟩, hstep, rfl⟩ := Option.map_eq_some_iff.1 h
    exact ⟨pc, tt, pc', r, hpc, testStep_move hstep, rfl⟩
  · cases h

/-! ## The time is never lost -/

/-- A thread between its exchange and its store. -/
def TestPc.holds : TestPc → Nat
  | .took _ _ => 1
  | _ => 0

/-- `tt` has the time. -/
def Gate.idle (g : Gate) : Nat := if g.tt = sentinel then 0 else 1

/-- A thread has times, and the one it took is no earlier than any reading let through. -/
def TestPc.Late (passed : List Int) : TestPc → Prop
  | .outside => True
  | .read tnow => tnow ≠ sentinel
  | .took tnow t => tnow ≠ sentinel ∧ t ≠ sentinel ∧ ∀ p ∈ passed, p ≤ t

structure GateInv (g : Gate) : Prop where
  one : g.idle + total TestPc.holds g.threads = 1
  threads : ∀ (i : Nat) (pc : TestPc), g.threads[i]? = some pc → pc.Late g.passed
  late : g.tt ≠ sentinel → ∀ p ∈ g.passed, p ≤ g.tt
  apart : g.passed.Pairwise fun p q => p + second ≤ q

/-- What the threads and the gate may rely on. -/
structure GateOk (g : Gate) : Prop where
  held : (g.tt ≠ sentinel ∧ ∀ (i : Nat) tnow t, g.threads[i]? ≠ some (TestPc.took tnow t)) ∨
    (g.tt = sentinel ∧ ∃ (i : Nat) (tnow t : Int), g.threads[i]? = some (TestPc.took tnow t) ∧ t ≠ sentinel ∧
      ∀ (j : Nat) tnow' t', g.threads[j]? = some (TestPc.took tnow' t') → j = i)
  apart : g.passed.Pairwise fun p q => p + second ≤ q

theorem GateInv.ok {g : Gate} (h : GateInv g) : GateOk g := by
  refine ⟨?_, h.apart⟩
  have hone := h.one
  unfold Gate.idle at hone
  by_cases htt : g.tt = sentinel
  · right
    rw [if_pos htt] at hone
    obtain ⟨pc, hmem, hpos⟩ := @exists_of_total_pos _ TestPc.holds g.threads (by omega)
    obtain ⟨i, hi⟩ := List.mem_iff_getElem?.1 hmem
    cases pc with
    | outside | read => cases hpos
    | took tnow t =>
      refine ⟨htt, i, tnow, t, hi, (h.threads i _ hi).2.1, ?_⟩
      intro j tnow' t' hj
      have hle : total TestPc.holds g.threads ≤ 1 := by omega
      exact eq_of_total_le_one hle hj hi Nat.one_pos Nat.one_pos
  · left
    rw [if_neg htt] at hone
    refine ⟨htt, ?_⟩
    intro i tnow t hi
    have hle : TestPc.holds (.took tnow t) ≤ total TestPc.holds g.threads := le_total hi
    simp only [TestPc.holds] at hle
    omega

/-- A step that lets nobody through, with the time at the gate or with one thread before and after. -/
theorem GateInv.unpassed {g : Gate} {i : Nat} {pc pc' : TestPc} {tt : Int} {r : Option Result} (hI : GateInv g)
    (hpc : g.threads[i]? = some pc) (hr : passing r = [])
    (hone : (if tt = sentinel then 0 else 1) + pc'.holds = g.idle + pc.holds) (hthread : pc'.Late g.passed)
    (hlate : tt ≠ sentinel → ∀ p ∈ g.passed, p ≤ tt) :
    GateInv { tt := tt, threads := g.threads.set i pc', passed := g.passed ++ passing r } := by
  have htotal := total_set TestPc.holds pc' hpc
  have hbefore := hI.one
  rw [hr, List.append_nil]
  refine ⟨?_, forall_set (fun j x _ hx => hI.threads j x hx) hthread, hlate, hI.apart⟩
  simp only [Gate.idle] at hone hbefore ⊢
  omega

theorem gateInv_step {g g' : Gate} {i : Nat} {a : TestAct} (hclock : ∀ t, a = .clock t → t ≠ sentinel)
    (hI : GateInv g) (h : gateStep g (i, a) = some g') : GateInv g' := by
  obtain ⟨hone, hthreads, hlate, hapart⟩ := id hI
  obtain ⟨pc, tt, pc', r, hpc, hm, rfl⟩ := gateStep_eq_some h
  have hlatePc := hthreads i pc hpc
  have hheld : pc.holds ≤ total TestPc.holds g.threads := le_total hpc
  cases hm with
  | clock t => exact hI.unpassed hpc rfl rfl (hclock t rfl) hlate
  | busy htt =>
    refine hI.unpassed hpc rfl ?_ trivial (by simp)
    simp [Gate.idle, TestPc.holds, htt]
  | take htt =>
    refine hI.unpassed hpc rfl ?_ ⟨hlatePc, htt, hlate htt⟩ (by simp)
    simp [Gate.idle, TestPc.holds, htt]
  | @giveBack tnow _ hd =>
    obtain ⟨hnow, ht, hle⟩ := hlatePc
    refine hI.unpassed hpc rfl ?_ trivial fun _ => hle
    simp only [TestPc.holds] at hheld ⊢
    rw [if_neg ht]
    omega
  | @pass _ t hd =>
    obtain ⟨hnow, ht, hle⟩ := hlatePc
    have htotal := total_set TestPc.holds .outside hpc
    have hpass : ∀ p ∈ g.passed, p + second ≤ tt := fun p hp => by
      have := hle p hp
      omega
    have hle1 : total TestPc.holds g.threads ≤ 1 := by omega
    refine ⟨?_, ?_, ?_, ?_⟩
    · simp only [TestPc.holds] at htotal hheld
      simp only [Gate.idle, if_neg hnow]
      omega
    · -- no other thread has taken a time that would have to be late enough
      refine forall_set (fun j x hj hx => ?_) trivial
      cases x with
      | outside => exact trivial
      | read => exact hthreads j _ hx
      | took => exact absurd (eq_of_total_le_one hle1 hx hpc Nat.one_pos Nat.one_pos) hj
    · rintro - p hp
      rcases List.mem_append.1 hp with hp | hp
      · show p ≤ tt
        have := hpass p hp
        simp only [second] at this
        omega
      · obtain rfl : p = tt := by simpa [passing] using hp
        exact Int.le_refl _
    · refine List.pairwise_append.2 ⟨hapart, by simp [passing], ?_⟩
      intro p hp q hq
      obtain rfl : q = tt := by simpa [passing] using hq
      exact hpass p hp

theorem gateInv_open (n : Nat) {t0 : Int} (h : t0 ≠ sentinel) : GateInv (openGate n t0) where
  one := by
    have hzero : total TestPc.holds (List.replicate n .outside) = 0 := total_replicate _ n rfl
    simp [Gate.idle, openGate, h, hzero]
  threads := forall_replicate fun _ => trivial
  late := by simp [openGate]
  apart := by simp [openGate]

/-- **The gate.** In every state of every interleaving either the gate has the time and no thread has, or
exactly one thread has it; and the readings of any two calls that were let through are at least a second
apart, in the order of their stores. -/
theorem time_ref_gate (n : Nat) (t0 : Int) (h0 : t0 ≠ sentinel) (as : List (Nat × TestAct))
    (hclock : ∀ i t, (i, TestAct.clock t) ∈ as → t ≠ sentinel) (g : Gate)
    (h : exec gateStep (openGate n t0) as = some g) : GateOk g := by
  have hI : GateInv g := exec_invariant (fun a : Nat × TestAct => ∀ t, a.2 = .clock t → t ≠ sentinel) GateInv
    (fun _ _ _ hc hI hstep => gateInv_step hc hI hstep)
    (by rintro ⟨i, a⟩ ha t rfl; exact hclock i t ha) (gateInv_open n h0) h
  exact hI.ok

/-- Thread 1 reads the clock, thread 0 reads a later time and is let through, and the exchange of thread 1
finds that; a third call finds the gate taken. -/
theorem time_ref_gate_stale : ∃ g, exec gateStep (openGate 3 1000)
      [(1, .clock 1500000000), (0, .clock 2500000000), (0, .exchange), (2, .clock 4000000000), (2, .exchange),
        (0, .store), (1, .exchange)] = some g ∧ g.passed = [2500000000] ∧ g.tt = sentinel ∧ GateOk g := by
  have hrun : (exec gateStep (openGate 3 1000)
      [(1, .clock 1500000000), (0, .clock 2500000000), (0, .exchange), (2, .clock 4000000000), (2, .exchange),
        (0, .store), (1, .exchange)]).map (fun g => (g.passed, g.tt)) = some ([2500000000], sentinel) := by decide
  obtain ⟨g, hg, hpair⟩ := Option.map_eq_some_iff.1 hrun
  simp only [Prod.mk.injEq] at hpair
  refine ⟨g, hg, hpair.1, hpair.2, time_ref_gate 3 1000 (by decide) _ ?_ g hg⟩
  intro i t ht
  simp only [List.mem_cons, Prod.mk.injEq, TestAct.clock.injEq, reduceCtorEq, and_false, List.not_mem_nil,
    or_false, false_or] at ht
  rcases ht with ⟨-, rfl⟩ | ⟨-, rfl⟩ | ⟨-, rfl⟩
  · decide
  · decide
  · decide

end Acppsrv.Benchmark
