import Acppsrv.Lib.Locals
/-!
# An event loop run by several threads

The context counts the work that keeps it going: a guard, operations whose handler has not run yet, handlers
that run. When the count falls to zero it stops by itself, and it can be stopped from outside; a stopped context
invokes no handler and never starts again. Each thread does

  `while (!ctx.stopped()) try { ctx.run(); } catch (…) { }`

so an exception that leaves a handler sends its thread to the test at the top of the loop.

What a step of a thread can do is `ThreadMove`. A thread ends only with its context stopped (`Ok.exited`), a
held guard keeps the context going (`ThreadMove.stopped_of_guard`), and once it is stopped every thread is a few
steps from its end (`ThreadMove.left_lt`, `threadStep_enabled`).
-/
namespace Lib

inductive ThreadPc where
  /-- not started -/
  | unborn
  /-- at the test of the loop -/
  | testing
  /-- in `run()`, in no handler -/
  | running
  | handling
  | exited
  deriving DecidableEq, Repr

/-- How many steps a thread of a stopped context is from its end, at most. -/
def ThreadPc.left : ThreadPc → Nat
  | .unborn | .exited => 0
  | .testing => 1
  | .running => 2
  | .handling => 3

/-- The handlers a thread is in. -/
def ThreadPc.handlers : ThreadPc → Nat
  | .handling => 1
  | _ => 0

structure IoContext where
  stopped : Bool := false
  guard : Bool := true
  /-- operations begun and handlers posted, whose handlers have not been invoked -/
  pending : Nat := 0
  threads : List ThreadPc
  deriving Repr

inductive ThreadAct where
  | test
  | invoke
  | finish
  | throw
  | leave
  deriving DecidableEq, Repr

namespace IoContext

/-- The handlers that run. -/
def handlers (c : IoContext) : Nat := total ThreadPc.handlers c.threads

/-- `outstanding_work` is not zero. -/
def hasWork (c : IoContext) : Bool := c.guard || c.pending + c.handlers != 0

/-- Work was finished: without any left the context stops itself. -/
def settle (c : IoContext) : IoContext := { c with stopped := c.stopped || !c.hasWork }

/-- The guard is given up. -/
def release (c : IoContext) : IoContext := settle { c with guard := false }

def stop (c : IoContext) : IoContext := { c with stopped := true }

/-- An operation is begun or a handler posted. -/
def post (c : IoContext) : IoContext := { c with pending := c.pending + 1 }

def setThread (c : IoContext) (t : Nat) (pc : ThreadPc) : IoContext := { c with threads := c.threads.set t pc }

/-- Thread `t` is started. -/
def start (c : IoContext) (t : Nat) : Option IoContext :=
  if c.threads[t]? = some .unborn then some (c.setThread t .testing) else none

def threadStep (c : IoContext) (t : Nat) (a : ThreadAct) : Option IoContext :=
  match a, c.threads[t]? with
  | .test, some .testing => some (c.setThread t (if c.stopped then .exited else .running))
  | .invoke, some .running =>
    if c.stopped = false ∧ 0 < c.pending then some { c.setThread t .handling with pending := c.pending - 1 } else none
  | .finish, some .handling => some (c.setThread t .running).settle
  | .throw, some .handling => some (c.setThread t .testing).settle
  | .leave, some .running => if c.stopped then some (c.setThread t .testing) else none
  | _, _ => none

/-! ## What a step can do -/

inductive ThreadMove (c : IoContext) (t : Nat) : ThreadAct → IoContext → Prop
  | exit (h : c.threads[t]? = some .testing) (hs : c.stopped = true) : ThreadMove c t .test (c.setThread t .exited)
  | enter (h : c.threads[t]? = some .testing) (hs : c.stopped = false) :
      ThreadMove c t .test (c.setThread t .running)
  | invoke (h : c.threads[t]? = some .running) (hs : c.stopped = false) (hp : 0 < c.pending) :
      ThreadMove c t .invoke { c.setThread t .handling with pending := c.pending - 1 }
  | finish (h : c.threads[t]? = some .handling) : ThreadMove c t .finish (c.setThread t .running).settle
  | throw (h : c.threads[t]? = some .handling) : ThreadMove c t .throw (c.setThread t .testing).settle
  | leave (h : c.threads[t]? = some .running) (hs : c.stopped = true) :
      ThreadMove c t .leave (c.setThread t .testing)

theorem threadStep_move {c c' : IoContext} {t : Nat} {a : ThreadAct} (h : c.threadStep t a = some c') :
    ThreadMove c t a c' := by
  unfold threadStep at h
  split at h
  · rename_i ht
    cases hs : c.stopped with
    | true => rw [hs] at h; cases h; exact .exit ht hs
    | false => rw [hs] at h; cases h; exact .enter ht hs
  · rename_i ht
    split at h
    · rename_i hg; cases h; exact .invoke ht hg.1 hg.2
    · cases h
  · cases h; exact .finish (by assumption)
  · cases h; exact .throw (by assumption)
  · rename_i ht
    split at h
    · rename_i hs; cases h; exact .leave ht hs
    · cases h
  · cases h

section
variable {c c' : IoContext} {t : Nat} {a : ThreadAct}

/-- The place a step takes its thread to; the others stay. -/
theorem ThreadMove.threads (h : ThreadMove c t a c') :
    ∃ pc pc', c.threads[t]? = some pc ∧ pc ≠ .unborn ∧ pc' ≠ .unborn ∧ c'.threads = c.threads.set t pc' ∧
      pc ≠ .exited ∧ (pc' = .exited → c.stopped = true) ∧ (pc' = .handling → c.stopped = false) := by
  cases h with
  | exit h hs => exact ⟨_, .exited, h, by simp, by simp, rfl, by simp, fun _ => hs, by simp⟩
  | enter h hs => exact ⟨_, .running, h, by simp, by simp, rfl, by simp, by simp, by simp⟩
  | invoke h hs hp => exact ⟨_, .handling, h, by simp, by simp, rfl, by simp, by simp, fun _ => hs⟩
  | finish h => exact ⟨_, .running, h, by simp, by simp, rfl, by simp, by simp, by simp⟩
  | throw h => exact ⟨_, .testing, h, by simp, by simp, rfl, by simp, by simp, by simp⟩
  | leave h hs => exact ⟨_, .testing, h, by simp, by simp, rfl, by simp, by simp, by simp⟩

theorem ThreadMove.guard (h : ThreadMove c t a c') : c'.guard = c.guard := by
  cases h with
  | _ => rfl

theorem ThreadMove.stopped (h : ThreadMove c t a c') (hs : c.stopped = true) : c'.stopped = true := by
  cases h with
  | finish | throw => simp [settle, setThread, hs]
  | _ => exact hs

/-- A held guard is work. -/
theorem ThreadMove.stopped_of_guard (h : ThreadMove c t a c') (hg : c.guard = true) : c'.stopped = c.stopped := by
  cases h with
  | finish | throw => simp [settle, setThread, hasWork, hg]
  | _ => rfl

theorem start_eq (h : c.threads[t]? = some .unborn) : c.start t = some (c.setThread t .testing) := if_pos h

theorem step_test (h : c.threads[t]? = some .testing) :
    c.threadStep t .test = some (c.setThread t (if c.stopped then .exited else .running)) := by
  simp only [threadStep, h]

theorem step_invoke (h : c.threads[t]? = some .running) (hs : c.stopped = false) (hp : 0 < c.pending) :
    c.threadStep t .invoke = some { c.setThread t .handling with pending := c.pending - 1 } := by
  simp only [threadStep, h, hs, hp, and_self, if_true]

theorem step_finish (h : c.threads[t]? = some .handling) :
    c.threadStep t .finish = some (c.setThread t .running).settle := by
  simp only [threadStep, h]

theorem step_leave (h : c.threads[t]? = some .running) (hs : c.stopped = true) :
    c.threadStep t .leave = some (c.setThread t .testing) := by
  simp only [threadStep, h, hs, if_true]

/-- A thread in the loop of a stopped context has a step: one in a handler can be done with it. -/
theorem threadStep_enabled (hs : c.stopped = true) {pc : ThreadPc} (h : c.threads[t]? = some pc)
    (hu : pc ≠ .unborn) (he : pc ≠ .exited) : ∃ a c', a ≠ .throw ∧ c.threadStep t a = some c' := by
  cases pc with
  | unborn => exact absurd rfl hu
  | exited => exact absurd rfl he
  | testing => exact ⟨.test, _, by simp, step_test h⟩
  | running => exact ⟨.leave, _, by simp, step_leave h hs⟩
  | handling => exact ⟨.finish, _, by simp, step_finish h⟩

/-- What is pending and what runs, after a step. -/
theorem ThreadMove.counts (h : ThreadMove c t a c') :
    (a = .invoke ∧ c'.pending + 1 = c.pending ∧ c'.handlers = c.handlers + 1) ∨
    ((a = .finish ∨ a = .throw) ∧ c'.pending = c.pending ∧ c'.handlers + 1 = c.handlers) ∨
    ((a = .test ∨ a = .leave) ∧ c'.pending = c.pending ∧ c'.handlers = c.handlers ∧ c'.stopped = c.stopped) := by
  cases h with
  | exit h hs => exact Or.inr (Or.inr ⟨Or.inl rfl, rfl, total_set_eq ThreadPc.handlers h rfl, rfl⟩)
  | enter h hs => exact Or.inr (Or.inr ⟨Or.inl rfl, rfl, total_set_eq ThreadPc.handlers h rfl, rfl⟩)
  | invoke h hs hp =>
    have hset := total_set ThreadPc.handlers .handling h
    simp only [ThreadPc.handlers] at hset
    exact Or.inl ⟨rfl, Nat.sub_add_cancel hp, by simpa [handlers, setThread] using hset⟩
  | finish h =>
    have hset := total_set ThreadPc.handlers .running h
    simp only [ThreadPc.handlers] at hset
    exact Or.inr (Or.inl ⟨Or.inl rfl, rfl, by simpa [handlers, setThread, settle] using hset⟩)
  | throw h =>
    have hset := total_set ThreadPc.handlers .testing h
    simp only [ThreadPc.handlers] at hset
    exact Or.inr (Or.inl ⟨Or.inr rfl, rfl, by simpa [handlers, setThread, settle] using hset⟩)
  | leave h hs => exact Or.inr (Or.inr ⟨Or.inr rfl, rfl, total_set_eq ThreadPc.handlers h rfl, rfl⟩)

/-! ## Steps to the end -/

def left (c : IoContext) : Nat := total ThreadPc.left c.threads

end

/-! ## The invariant -/

structure Ok (c : IoContext) : Prop where
  /-- threads end only when the context is stopped -/
  exited : ∀ t : Nat, c.threads[t]? = some .exited → c.stopped = true
  /-- which it is when it has no work -/
  work : c.hasWork = false → c.stopped = true

theorem ok_settle {c : IoContext} (h : ∀ t : Nat, c.threads[t]? = some .exited → c.stopped = true) : c.settle.Ok where
  exited t ht := by simp [settle, h t ht]
  work hw := by
    have : c.hasWork = false := hw
    simp [settle, this]

theorem ok_init (threads : Nat) : Ok { threads := List.replicate threads .unborn } where
  exited t ht := by
    have hmem := List.eq_of_mem_replicate (List.mem_of_getElem? ht)
    cases hmem
  work hw := by simp [hasWork] at hw

theorem Ok.release {c : IoContext} (h : c.Ok) : c.release.Ok := ok_settle h.exited

theorem Ok.stop {c : IoContext} : c.stop.Ok := ⟨fun _ _ => rfl, fun _ => rfl⟩

theorem Ok.post {c : IoContext} (h : c.Ok) : c.post.Ok where
  exited := h.exited
  work hw := by
    simp only [hasWork, IoContext.post, Bool.or_eq_false_iff, bne_eq_false_iff_eq] at hw
    omega

/-- A thread that does not end keeps what is known of ended ones. -/
theorem exited_set {c : IoContext} (h : c.Ok) {t : Nat} {pc : ThreadPc} (hpc : pc = .exited → c.stopped = true) :
    ∀ u : Nat, (c.setThread t pc).threads[u]? = some .exited → c.stopped = true := by
  have hall := forall_set (P := fun _ x => x = ThreadPc.exited → c.stopped = true) (l := c.threads) (i := t)
    (fun j x _ hx he => h.exited j (he ▸ hx)) hpc
  exact fun u hu => hall u _ hu rfl

theorem hasWork_set {c : IoContext} {t : Nat} {pc : ThreadPc} (ht : c.threads[t]? = some pc) (pc' : ThreadPc)
    (hpc : pc'.handlers = pc.handlers) : (c.setThread t pc').hasWork = c.hasWork := by
  simp only [hasWork, handlers, setThread, total_set_eq ThreadPc.handlers ht hpc]

theorem Ok.start {c c' : IoContext} {t : Nat} (h : c.Ok) (hs : c.start t = some c') : c'.Ok := by
  unfold IoContext.start at hs
  split at hs
  · rename_i ht
    cases hs
    exact ⟨exited_set h (by simp), fun hw => h.work ((hasWork_set ht .testing rfl).symm.trans hw)⟩
  · cases hs

theorem Ok.move {c c' : IoContext} {t : Nat} {a : ThreadAct} (h : c.Ok) (hm : ThreadMove c t a c') : c'.Ok := by
  cases hm with
  | exit ht hs => exact ⟨exited_set h fun _ => hs, fun _ => hs⟩
  | enter ht hs => exact ⟨exited_set h (by simp), fun hw => h.work ((hasWork_set ht .running rfl).symm.trans hw)⟩
  | invoke ht hs hp =>
    have hset := total_set ThreadPc.handlers .handling ht
    refine ⟨exited_set h (by simp), fun hw => ?_⟩
    simp only [hasWork, handlers, setThread, ThreadPc.handlers, Bool.or_eq_false_iff, bne_eq_false_iff_eq] at hw hset
    omega
  | finish ht => exact ok_settle (exited_set h (by simp))
  | throw ht => exact ok_settle (exited_set h (by simp))
  | leave ht hs => exact ⟨exited_set h (by simp), fun _ => hs⟩

end IoContext

end Lib
