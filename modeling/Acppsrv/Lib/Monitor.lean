import Mathlib.Data.Fintype.Basic
import Mathlib.Logic.Function.Basic
import Acppsrv.Lib.Run
/-!
# A mutex with a condition variable and waits that consume

Threads share data behind one mutex. A signaller changes the data and calls `notify_one` before it
unlocks. A waiter waits with a time limit until the data are ready and, still holding the mutex,
changes them on leaving, whether it saw them ready or its time was over.

`State` and `step` are the threads between two accesses to the mutex or to the data; timeouts and
spurious wakeups may come at any time. If leaving makes the data not ready, one `notify_one` per
signal is enough (`inv_move`, `Inv.woken`, `CountOk.le`).
-/
namespace Lib.Monitor
open Lib

/-- What signallers and waiters do with the data. -/
structure Protocol (D : Type) where
  /-- the predicate of the wait -/
  ready : D → Bool
  /-- before the `notify_one` -/
  signal : D → D
  /-- after the wait -/
  leave : D → D

inductive Phase where
  | outside
  /-- a signaller with the mutex, before its change of the data -/
  | sigLocked
  /-- before its `notify_one` -/
  | sigSet
  /-- before its unlock -/
  | sigNotified
  /-- a waiter with the mutex, before it evaluates the predicate; `expired` when its time is over -/
  | checking (expired : Bool)
  /-- blocked on the condition variable, without the mutex -/
  | blocked
  /-- notified, timed out or woken spuriously, before it has the mutex again -/
  | woken
  /-- its wait is over, before its change of the data; `saw` when the predicate was true -/
  | leaving (saw : Bool)
  /-- before its unlock -/
  | left
  deriving DecidableEq, Repr

/-- The phases with the mutex. -/
def Phase.holds : Phase → Bool
  | .sigLocked | .sigSet | .sigNotified | .checking _ | .leaving _ | .left => true
  | _ => false

/-- The phases of a thread that will look at the data, take them, or notify. -/
def Phase.owes : Phase → Bool
  | .woken | .checking _ | .leaving _ | .sigSet => true
  | _ => false

variable {ι : Type} [DecidableEq ι] {D : Type}

structure State (ι D : Type) where
  data : D
  mtx : Option ι := none
  pc : ι → Phase := fun _ => .outside
  /-- signals so far -/
  signals : Nat := 0
  /-- waits that ended because they saw the data ready -/
  saws : Nat := 0

inductive Act (ι : Type) where
  | sigLock (i : ι)
  | sigSet (i : ι)
  /-- `notify_one`, with the waiter it wakes -/
  | notify (i : ι) (w : Option ι)
  | sigUnlock (i : ι)
  | waitLock (i : ι)
  /-- the evaluation of the predicate -/
  | check (i : ι)
  /-- a timeout or a spurious wakeup -/
  | wake (i : ι)
  /-- the mutex locked again, and whether the time is over by then -/
  | relock (i : ι) (expired : Bool)
  | leave (i : ι)
  | waitUnlock (i : ι)
  deriving DecidableEq, Repr

/-- Thread `i` goes on to phase `ph`. -/
def State.go (s : State ι D) (i : ι) (ph : Phase) : State ι D := { s with pc := Function.update s.pc i ph }

variable [Fintype ι]

def step (p : Protocol D) (s : State ι D) : Act ι → Option (State ι D)
  | .sigLock i =>
    if s.pc i = .outside ∧ s.mtx = none then some { s.go i .sigLocked with mtx := some i } else none
  | .sigSet i =>
    if s.pc i = .sigLocked then
      some { s.go i .sigSet with data := p.signal s.data, signals := s.signals + 1 }
    else none
  | .notify i (some w) =>
    if s.pc i = .sigSet ∧ s.pc w = .blocked then some ((s.go i .sigNotified).go w .woken) else none
  | .notify i none =>
    if s.pc i = .sigSet ∧ ∀ j, s.pc j ≠ .blocked then some (s.go i .sigNotified) else none
  | .sigUnlock i =>
    if s.pc i = .sigNotified then some { s.go i .outside with mtx := none } else none
  | .waitLock i =>
    if s.pc i = .outside ∧ s.mtx = none then some { s.go i (.checking false) with mtx := some i } else none
  | .check i =>
    match s.pc i with
    | .checking expired =>
      if p.ready s.data then some { s.go i (.leaving true) with saws := s.saws + 1 }
      else if expired then some (s.go i (.leaving false))
      else some { s.go i .blocked with mtx := none }
    | _ => none
  | .wake i => if s.pc i = .blocked then some (s.go i .woken) else none
  | .relock i expired =>
    if s.pc i = .woken ∧ s.mtx = none then some { s.go i (.checking expired) with mtx := some i } else none
  | .leave i =>
    match s.pc i with
    | .leaving _ => some { s.go i .left with data := p.leave s.data }
    | _ => none
  | .waitUnlock i => if s.pc i = .left then some { s.go i .outside with mtx := none } else none

/-! ## What a step can do -/

inductive Move (p : Protocol D) (s : State ι D) : State ι D → Prop
  | sigLock {i : ι} (h : s.pc i = .outside) (hm : s.mtx = none) :
      Move p s { s.go i .sigLocked with mtx := some i }
  | sigSet {i : ι} (h : s.pc i = .sigLocked) :
      Move p s { s.go i .sigSet with data := p.signal s.data, signals := s.signals + 1 }
  | notifyOne {i w : ι} (h : s.pc i = .sigSet) (hw : s.pc w = .blocked) :
      Move p s ((s.go i .sigNotified).go w .woken)
  | notifyNone {i : ι} (h : s.pc i = .sigSet) (hw : ∀ j, s.pc j ≠ .blocked) : Move p s (s.go i .sigNotified)
  | sigUnlock {i : ι} (h : s.pc i = .sigNotified) : Move p s { s.go i .outside with mtx := none }
  | waitLock {i : ι} (h : s.pc i = .outside) (hm : s.mtx = none) :
      Move p s { s.go i (.checking false) with mtx := some i }
  | sees {i : ι} {expired : Bool} (h : s.pc i = .checking expired) (hr : p.ready s.data = true) :
      Move p s { s.go i (.leaving true) with saws := s.saws + 1 }
  | expires {i : ι} (h : s.pc i = .checking true) (hr : p.ready s.data = false) :
      Move p s (s.go i (.leaving false))
  | blocks {i : ι} (h : s.pc i = .checking false) (hr : p.ready s.data = false) :
      Move p s { s.go i .blocked with mtx := none }
  | wake {i : ι} (h : s.pc i = .blocked) : Move p s (s.go i .woken)
  | relock {i : ι} {expired : Bool} (h : s.pc i = .woken) (hm : s.mtx = none) :
      Move p s { s.go i (.checking expired) with mtx := some i }
  | leave {i : ι} {saw : Bool} (h : s.pc i = .leaving saw) :
      Move p s { s.go i .left with data := p.leave s.data }
  | waitUnlock {i : ι} (h : s.pc i = .left) : Move p s { s.go i .outside with mtx := none }

theorem step_move {p : Protocol D} {s s' : State ι D} {a : Act ι} (h : step p s a = some s') : Move p s s' := by
  cases a with
  | sigLock i =>
    simp only [step] at h
    split at h
    · rename_i hg; cases h; exact .sigLock hg.1 hg.2
    · cases h
  | sigSet i =>
    simp only [step] at h
    split at h
    · rename_i hg; cases h; exact .sigSet hg
    · cases h
  | notify i w =>
    cases w with
    | none =>
      simp only [step] at h
      split at h
      · rename_i hg; cases h; exact .notifyNone hg.1 hg.2
      · cases h
    | some w =>
      simp only [step] at h
      split at h
      · rename_i hg; cases h; exact .notifyOne hg.1 hg.2
      · cases h
  | sigUnlock i =>
    simp only [step] at h
    split at h
    · rename_i hg; cases h; exact .sigUnlock hg
    · cases h
  | waitLock i =>
    simp only [step] at h
    split at h
    · rename_i hg; cases h; exact .waitLock hg.1 hg.2
    · cases h
  | check i =>
    simp only [step] at h
    split at h
    · rename_i expired hpc
      by_cases hr : p.ready s.data = true
      · rw [if_pos hr] at h; cases h; exact .sees hpc hr
      · rw [if_neg hr] at h
        cases expired with
        | true => cases h; exact .expires hpc (by simpa using hr)
        | false => cases h; exact .blocks hpc (by simpa using hr)
    · cases h
  | wake i =>
    simp only [step] at h
    split at h
    · rename_i hg; cases h; exact .wake hg
    · cases h
  | relock i expired =>
    simp only [step] at h
    split at h
    · rename_i hg; cases h; exact .relock hg.1 hg.2
    · cases h
  | leave i =>
    simp only [step] at h
    split at h
    · rename_i hpc; cases h; exact .leave hpc
    · cases h
  | waitUnlock i =>
    simp only [step] at h
    split at h
    · rename_i hg; cases h; exact .waitUnlock hg
    · cases h

/-! ## Mutual exclusion -/

omit [Fintype ι]

/-- The mutex is held by the thread in a phase that holds it. -/
def MutexOk (mtx : Option ι) (pc : ι → Phase) : Prop := ∀ i, (pc i).holds = true ↔ mtx = some i

theorem MutexOk.keep {mtx : Option ι} {pc : ι → Phase} (h : MutexOk mtx pc) {i : ι} {ph : Phase}
    (hp : ph.holds = (pc i).holds) : MutexOk mtx (Function.update pc i ph) := by
  intro j
  by_cases hj : j = i
  · subst hj; rw [Function.update_self, hp]; exact h j
  · rw [Function.update_of_ne hj]; exact h j

theorem MutexOk.take {mtx : Option ι} {pc : ι → Phase} (h : MutexOk mtx pc) (hm : mtx = none) {i : ι}
    {ph : Phase} (hp : ph.holds = true) : MutexOk (some i) (Function.update pc i ph) := by
  intro j
  by_cases hj : j = i
  · subst hj; simp [hp]
  · rw [Function.update_of_ne hj, h j, hm]
    simp [Ne.symm hj]

theorem MutexOk.drop {mtx : Option ι} {pc : ι → Phase} (h : MutexOk mtx pc) {i : ι} (hi : (pc i).holds = true)
    {ph : Phase} (hp : ph.holds = false) : MutexOk none (Function.update pc i ph) := by
  have hm := (h i).1 hi
  intro j
  by_cases hj : j = i
  · subst hj; simp [hp]
  · rw [Function.update_of_ne hj, h j, hm]
    simp [Ne.symm hj]

omit [DecidableEq ι] in
/-- Another thread does not hold the mutex. -/
theorem MutexOk.other {mtx : Option ι} {pc : ι → Phase} (h : MutexOk mtx pc) {i j : ι} (hi : (pc i).holds = true)
    (hj : j ≠ i) : (pc j).holds = false := by
  by_contra hne
  have hmj := (h j).1 (by simpa using hne)
  rw [(h i).1 hi] at hmj
  exact hj (Option.some.inj hmj).symm

/-! ## No lost wakeup -/

/-- While the data are ready and somebody is blocked, somebody owes a look at them. -/
def WakeOk (ready : Bool) (pc : ι → Phase) : Prop :=
  ready = true → (∃ i, pc i = .blocked) → ∃ j, (pc j).owes = true

theorem WakeOk.owing {ready : Bool} {pc : ι → Phase} {i : ι} {ph : Phase} (hp : ph.owes = true) :
    WakeOk ready (Function.update pc i ph) := fun _ _ => ⟨i, by simpa using hp⟩

/-- A thread that owed nothing goes on, and not to sleep. -/
theorem WakeOk.quiet {ready : Bool} {pc : ι → Phase} (h : WakeOk ready pc) {i : ι} {ph : Phase}
    (hi : (pc i).owes = false) (hp : ph ≠ .blocked) : WakeOk ready (Function.update pc i ph) := by
  rintro hr ⟨j, hj⟩
  have hji : j ≠ i := by
    rintro rfl
    rw [Function.update_self] at hj; exact hp hj
  rw [Function.update_of_ne hji] at hj
  obtain ⟨k, hk⟩ := h hr ⟨j, hj⟩
  have hki : k ≠ i := by
    rintro rfl
    rw [hi] at hk; cases hk
  exact ⟨k, by rwa [Function.update_of_ne hki]⟩

/-! ## Signals and the waits that saw them -/

/-- A signal that stands and that no leaving waiter has taken is one not yet seen. -/
def CountOk (ready : Bool) (saws signals : Nat) (pc : ι → Phase) : Prop :=
  (∀ i, pc i = .leaving true → ready = true ∧ saws ≤ signals) ∧
  ((∀ i, pc i ≠ .leaving true) → saws + (if ready then 1 else 0) ≤ signals)

theorem CountOk.keep {ready : Bool} {saws signals : Nat} {pc : ι → Phase} (h : CountOk ready saws signals pc)
    {i : ι} {ph : Phase} (hi : pc i ≠ .leaving true) (hp : ph ≠ .leaving true) :
    CountOk ready saws signals (Function.update pc i ph) := by
  refine ⟨fun j hj => ?_, fun hnone => h.2 fun j hj => ?_⟩
  · have hji : j ≠ i := by
      rintro rfl
      rw [Function.update_self] at hj; exact hp hj
    rw [Function.update_of_ne hji] at hj
    exact h.1 j hj
  · have hji : j ≠ i := by
      rintro rfl; exact hi hj
    exact hnone j (by rwa [Function.update_of_ne hji])

omit [DecidableEq ι] in
theorem CountOk.le {ready : Bool} {saws signals : Nat} {pc : ι → Phase} (h : CountOk ready saws signals pc) :
    saws ≤ signals := by
  by_cases hl : ∃ i, pc i = .leaving true
  · obtain ⟨i, hi⟩ := hl
    exact (h.1 i hi).2
  · have := h.2 fun i hi => hl ⟨i, hi⟩
    omega

/-- While a thread that is not leaving holds the mutex, nobody is leaving. -/
theorem MutexOk.none_leaving {mtx : Option ι} {pc : ι → Phase} (h : MutexOk mtx pc) {i : ι}
    (hi : (pc i).holds = true) (hne : pc i ≠ .leaving true) : ∀ j, pc j ≠ .leaving true := by
  intro j hj
  by_cases hji : j = i
  · subst hji; exact hne hj
  · have := h.other hi hji
    rw [hj] at this; cases this

/-! ## The invariant -/

structure Inv (p : Protocol D) (s : State ι D) : Prop where
  mutex : MutexOk s.mtx s.pc
  wake : WakeOk (p.ready s.data) s.pc
  count : CountOk (p.ready s.data) s.saws s.signals s.pc

theorem inv_move {p : Protocol D} (hleave : ∀ d, p.ready (p.leave d) = false) {s s' : State ι D}
    (hI : Inv p s) (hm : Move p s s') : Inv p s' := by
  obtain ⟨hmx, hw, hc⟩ := hI
  cases hm with
  | @sigLock i h hm =>
    exact ⟨hmx.take hm rfl, hw.quiet (by simp [h, Phase.owes]) (by simp), hc.keep (by simp [h]) (by simp)⟩
  | @sigSet i h =>
    have hnone := hmx.none_leaving (i := i) (by simp [h, Phase.holds]) (by simp [h])
    refine ⟨hmx.keep (by simp [h, Phase.holds]), WakeOk.owing rfl, ?_⟩
    -- the signal made good for whatever it makes of the data
    have hle := hc.2 hnone
    have hnone' : ∀ j, Function.update s.pc i .sigSet j ≠ .leaving true := by
      intro j
      by_cases hj : j = i
      · subst hj; simp
      · rw [Function.update_of_ne hj]; exact hnone j
    refine ⟨fun j hj => absurd hj (hnone' j), fun _ => ?_⟩
    show s.saws + (if p.ready (p.signal s.data) then 1 else 0) ≤ s.signals + 1
    split <;> omega
  | @notifyOne i w h hw' =>
    have hwi : w ≠ i := by rintro rfl; rw [h] at hw'; cases hw'
    have hpc : Function.update s.pc i .sigNotified w = .blocked := by rw [Function.update_of_ne hwi]; exact hw'
    refine ⟨?_, WakeOk.owing rfl, ?_⟩
    · exact (hmx.keep (i := i) (by simp [h, Phase.holds])).keep (by rw [hpc]; rfl)
    · exact (hc.keep (i := i) (by simp [h]) (by simp)).keep (by rw [hpc]; simp) (by simp)
  | @notifyNone i h hw' =>
    refine ⟨hmx.keep (by simp [h, Phase.holds]), ?_, hc.keep (by simp [h]) (by simp)⟩
    rintro - ⟨j, hj⟩
    -- nobody was blocked, and nobody goes to sleep here
    by_cases hji : j = i
    · subst hji; simp [State.go] at hj
    · simp only [State.go, Function.update_of_ne hji] at hj
      exact absurd hj (hw' j)
  | @sigUnlock i h =>
    exact ⟨hmx.drop (i := i) (by simp [h, Phase.holds]) rfl, hw.quiet (by simp [h, Phase.owes]) (by simp),
      hc.keep (by simp [h]) (by simp)⟩
  | @waitLock i h hm => exact ⟨hmx.take hm rfl, WakeOk.owing rfl, hc.keep (by simp [h]) (by simp)⟩
  | @sees i expired h hr =>
    have hnone := hmx.none_leaving (i := i) (by simp [h, Phase.holds]) (by simp [h])
    have hle := hc.2 hnone
    rw [hr] at hle
    refine ⟨hmx.keep (by simp [h, Phase.holds]), WakeOk.owing rfl, fun j _ => ⟨hr, hle⟩, fun hno => ?_⟩
    exact absurd (Function.update_self ..) (hno i)
  | @expires i h hr =>
    exact ⟨hmx.keep (by simp [h, Phase.holds]), WakeOk.owing rfl, hc.keep (by simp [h]) (by simp)⟩
  | @blocks i h hr =>
    refine ⟨hmx.drop (i := i) (by simp [h, Phase.holds]) rfl, fun hr' => ?_, hc.keep (by simp [h]) (by simp)⟩
    have hr'' : p.ready s.data = true := hr'
    rw [hr] at hr''; cases hr''
  | @wake i h =>
    exact ⟨hmx.keep (by simp [h, Phase.holds]), WakeOk.owing rfl, hc.keep (by simp [h]) (by simp)⟩
  | @relock i expired h hm => exact ⟨hmx.take hm rfl, WakeOk.owing rfl, hc.keep (by simp [h]) (by simp)⟩
  | @leave i saw h =>
    have hnone' : ∀ j, Function.update s.pc i .left j ≠ .leaving true := by
      intro j
      by_cases hj : j = i
      · subst hj; simp
      · rw [Function.update_of_ne hj]
        intro hl
        have := hmx.other (i := i) (by simp [h, Phase.holds]) hj
        rw [hl] at this; cases this
    refine ⟨hmx.keep (by simp [h, Phase.holds]), fun hr => ?_, fun j hj => absurd hj (hnone' j), fun _ => ?_⟩
    · have hr' : p.ready (p.leave s.data) = true := hr
      rw [hleave] at hr'; cases hr'
    · show s.saws + (if p.ready (p.leave s.data) then 1 else 0) ≤ s.signals
      rw [hleave]
      exact hc.le
  | @waitUnlock i h =>
    exact ⟨hmx.drop (i := i) (by simp [h, Phase.holds]) rfl, hw.quiet (by simp [h, Phase.owes]) (by simp),
      hc.keep (by simp [h]) (by simp)⟩

omit [DecidableEq ι] in
theorem inv_init (p : Protocol D) {d : D} (hd : p.ready d = false) : Inv p ({ data := d } : State ι D) := by
  refine ⟨fun i => by simp [Phase.holds], fun hr => ?_, by simp, fun _ => by simp [hd]⟩
  have hr' : p.ready d = true := hr
  rw [hd] at hr'; cases hr'

omit [DecidableEq ι] in
/-- With the mutex free, who owes a look at the data is a woken waiter. -/
theorem Inv.woken {p : Protocol D} {s : State ι D} (hI : Inv p s) (hfree : s.mtx = none)
    (hr : p.ready s.data = true) (hb : ∃ i, s.pc i = .blocked) : ∃ j, s.pc j = .woken := by
  obtain ⟨j, hj⟩ := hI.wake hr hb
  refine ⟨j, ?_⟩
  have hno : (s.pc j).holds = false := by
    by_contra hne
    have := (hI.mutex j).1 (by simpa using hne)
    rw [hfree] at this; cases this
  cases hpc : s.pc j <;> simp_all [Phase.holds, Phase.owes]

end Lib.Monitor
