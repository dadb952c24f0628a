import Mathlib.Algebra.Order.BigOperators.Group.List
import Mathlib.Algebra.Order.Group.Nat
import Acppsrv.Lib.Run
import Acppsrv.Lib.IoContext
/-!
# Handlers on strands, run by a pool of threads

A program of handlers: each is posted to a strand, which runs its handlers one after the other. A handler moves in
steps, and those of different strands interleave; `step` says which steps there are, for handlers that run
by themselves. Here a pool of threads runs them: a thread in `run()` begins the next handler of a strand that has
none running and is in it until the handler ends. A main thread gives up the guard of the context, starts the
threads, and joins them.

The threads add nothing and take nothing away:

* `pool_projects`: what a run of the pool does to the program, the program can do by itself.
* `PoolInv.exclusive`: no two threads are in handlers of the same strand.
* `PoolInv.progress`: until the main thread has joined all threads, some thread can take a step.
* `pool_length`: the steps of the threads are bounded by those of the program.
* `PoolInv.returned`: the main thread goes on only when no handler is left.
-/
namespace Lib

universe u v
variable {σ : Type u} {α : Type v}

structure StrandProgram (σ : Type u) (α : Type v) where
  step : σ → α → Option σ
  strand : α → Nat
  /-- the step is the first one of its handler -/
  starts : α → Bool
  /-- an exception leaves the handler -/
  throws : σ → α → Bool
  /-- the handlers posted and not begun -/
  queued : σ → Nat
  /-- a handler of the strand runs -/
  busy : σ → Nat → Bool

/-- One handler at a time on each strand, and none that waits for another. -/
structure StrandProgram.Lawful (P : StrandProgram σ α) (I : σ → Prop) : Prop where
  keep : ∀ {s a s'}, I s → P.step s a = some s' → I s'
  starts : ∀ {s a s'}, P.step s a = some s' → P.starts a = true → P.busy s (P.strand a) = false ∧ 0 < P.queued s
  frame : ∀ {s a s' p}, P.step s a = some s' → p ≠ P.strand a → P.busy s' p = P.busy s p
  goes : ∀ {s p}, I s → P.busy s p = true → ∃ a s', P.strand a = p ∧ P.starts a = false ∧ P.step s a = some s'
  begins : ∀ {s}, I s → 0 < P.queued s → (∀ p, P.busy s p = false) → ∃ a s', P.starts a = true ∧ P.step s a = some s'

/-! ## Strands in a list -/

section
variable {τ : Type v} (size : τ → Nat) (running : τ → Bool)

def queuedIn (l : List τ) : Nat := total size l

def busyIn (l : List τ) (p : Nat) : Bool := (l[p]?).any running

variable {size running} {l : List τ} {p q : Nat} {x : τ}

theorem busyIn_iff : busyIn running l p = true ↔ ∃ x, l[p]? = some x ∧ running x = true := by
  simp [busyIn, Option.any_eq_true]

theorem busyIn_set (h : p ≠ q) (x : τ) : busyIn running (l.set q x) p = busyIn running l p := by
  simp only [busyIn, List.getElem?_set_ne (Ne.symm h)]

/-- What does not begin or end a handler: a queue grows. -/
theorem busyIn_modify {f : τ → τ} (hf : ∀ x, running (f x) = running x) :
    busyIn running (l.modify q f) p = busyIn running l p := by
  simp only [busyIn, List.getElem?_modify]
  cases l[p]? with
  | none => rfl
  | some x =>
    by_cases hq : q = p
    · simp [hq, hf]
    · simp [hq]

/-- A strand that can begin a handler. -/
theorem waiting (hp : l[p]? = some x) (hidle : running x = false) (hsize : 0 < size x) :
    busyIn running l p = false ∧ 0 < queuedIn size l := by
  constructor
  · rw [busyIn, hp, Option.any_some, hidle]
  · exact Nat.lt_of_lt_of_le hsize (le_total hp)

theorem exists_waiting (h : 0 < queuedIn size l) (hidle : ∀ p, busyIn running l p = false) :
    ∃ (p : Nat) (x : τ), l[p]? = some x ∧ running x = false ∧ 0 < size x := by
  obtain ⟨x, hx, hsize⟩ := exists_of_total_pos h
  obtain ⟨p, hp⟩ := List.mem_iff_getElem?.1 hx
  have hbusy := hidle p
  rw [busyIn, hp, Option.any_some] at hbusy
  exact ⟨p, x, hp, hbusy, hsize⟩

theorem none_waiting (h : queuedIn size l = 0) (hidle : ∀ p, busyIn running l p = false) :
    ∀ x ∈ l, running x = false ∧ size x = 0 := by
  intro x hx
  obtain ⟨p, hp⟩ := List.mem_iff_getElem?.1 hx
  have hbusy := hidle p
  rw [busyIn, hp, Option.any_some] at hbusy
  exact ⟨hbusy, Nat.le_zero.1 (h ▸ le_total (f := size) hp)⟩

end

/-! ## The pool -/

/-- The main thread, with the thread it starts or joins next. -/
inductive PoolMain where
  | reset
  | starting (t : Nat)
  | joining (t : Nat)
  | returned
  deriving DecidableEq, Repr

structure StrandPool (σ : Type u) where
  prog : σ
  ctx : IoContext
  /-- the strand whose handler a thread is in -/
  inside : Nat → Option Nat := fun _ => none
  main : PoolMain := .reset

inductive PoolAct (α : Type v) where
  | main
  | test (t : Nat)
  | leave (t : Nat)
  /-- a step of the handler thread `t` is in, or begins -/
  | handler (t : Nat) (a : α)

def mainStep (threads : Nat) (s : StrandPool σ) : Option (StrandPool σ) :=
  match s.main with
  | .reset => some { s with ctx := s.ctx.release, main := .starting 0 }
  | .starting t =>
    if t < threads then (s.ctx.start t).map fun c => { s with ctx := c, main := .starting (t + 1) }
    else some { s with main := .joining 0 }
  | .joining t =>
    if t < threads then
      if s.ctx.threads[t]? = some .exited then some { s with main := .joining (t + 1) } else none
    else some { s with main := .returned }
  | .returned => none

/-- The handler of a step: a thread in `run()` invokes it, or is in it. -/
def StrandProgram.enter (P : StrandProgram σ α) (s : StrandPool σ) (t : Nat) (a : α) : Option IoContext :=
  if P.starts a then s.ctx.threadStep t .invoke
  else if s.inside t = some (P.strand a) then some s.ctx else none

/-- After a step to `prog`: the handler goes on, or it has ended. -/
def StrandProgram.exit (P : StrandProgram σ α) (s : StrandPool σ) (t : Nat) (a : α) (prog : σ) (c : IoContext) :
    Option (StrandPool σ) :=
  if P.busy prog (P.strand a) then
    some { s with prog := prog, ctx := c, inside := Function.update s.inside t (some (P.strand a)) }
  else
    (c.threadStep t (if P.throws s.prog a then .throw else .finish)).map fun c =>
      { s with prog := prog, ctx := c, inside := Function.update s.inside t none }

def poolStep (P : StrandProgram σ α) (threads : Nat) (s : StrandPool σ) : PoolAct α → Option (StrandPool σ)
  | .main => mainStep threads s
  | .test t => (s.ctx.threadStep t .test).map fun c => { s with ctx := c }
  | .leave t => (s.ctx.threadStep t .leave).map fun c => { s with ctx := c }
  | .handler t a =>
    match P.enter s t a, P.step s.prog a with
    | some c, some prog => P.exit s t a prog { c with pending := P.queued prog }
    | _, _ => none

/-- The handlers of `prog` are posted, and no thread is started. -/
def StrandPool.init (P : StrandProgram σ α) (threads : Nat) (prog : σ) : StrandPool σ where
  prog := prog
  ctx := { pending := P.queued prog, threads := List.replicate threads .unborn }

def PoolAct.handler? : PoolAct α → Option α
  | .handler _ a => some a
  | _ => none

/-- The steps of the program in a run of the pool. -/
def handlerSteps (as : List (PoolAct α)) : List α := as.filterMap PoolAct.handler?

theorem exit_prog {P : StrandProgram σ α} {s s' : StrandPool σ} {t : Nat} {a : α} {prog : σ} {c : IoContext}
    (h : P.exit s t a prog c = some s') : s'.prog = prog ∧ s'.main = s.main := by
  unfold StrandProgram.exit at h
  split at h
  · cases h
    exact ⟨rfl, rfl⟩
  · obtain ⟨c', -, rfl⟩ := Option.map_eq_some_iff.1 h
    exact ⟨rfl, rfl⟩

theorem mainStep_prog {threads : Nat} {s s' : StrandPool σ} (h : mainStep threads s = some s') : s'.prog = s.prog := by
  unfold mainStep at h
  split at h
  · cases h
    rfl
  · split at h
    · obtain ⟨c, -, rfl⟩ := Option.map_eq_some_iff.1 h
      rfl
    · cases h
      rfl
  · split_ifs at h
    · cases h
      rfl
    · cases h
      rfl
  · cases h

/-- **Projection.** The pool does what the program can do. -/
theorem pool_projects {P : StrandProgram σ α} {threads : Nat} : ∀ {as : List (PoolAct α)} {s s' : StrandPool σ},
    exec (poolStep P threads) s as = some s' → exec P.step s.prog (handlerSteps as) = some s'.prog
  | [], s, s', h => by
    cases h
    rfl
  | a :: as, s, s', h => by
    obtain ⟨s₁, hs₁, hrest⟩ := Option.bind_eq_some_iff.1 h
    have ih := pool_projects hrest
    cases a with
    | main =>
      rw [mainStep_prog hs₁] at ih
      exact ih
    | test t =>
      obtain ⟨c, -, rfl⟩ := Option.map_eq_some_iff.1 hs₁
      exact ih
    | leave t =>
      obtain ⟨c, -, rfl⟩ := Option.map_eq_some_iff.1 hs₁
      exact ih
    | handler t a =>
      simp only [poolStep] at hs₁
      split at hs₁
      · rename_i c prog hc hprog
        rw [(exit_prog hs₁).1] at ih
        simp only [handlerSteps, List.filterMap_cons, PoolAct.handler?, exec, hprog, Option.bind_some]
        exact ih
      · cases hs₁

/-! ## A context nobody stops -/

namespace IoContext
variable {c c' : IoContext} {t : Nat}

/-- It is stopped only when it has no work. -/
def Exact (c : IoContext) : Prop := c.stopped = true → c.hasWork = false

theorem hasWork_of_handling (h : c.threads[t]? = some .handling) : c.hasWork = true := by
  have hle : 1 ≤ c.handlers := le_total (f := ThreadPc.handlers) h
  simp only [hasWork, Bool.or_eq_true, bne_iff_ne, ne_eq]
  exact Or.inr (by omega)

theorem Exact.stopped_of_handling (hE : c.Exact) (h : c.threads[t]? = some .handling) : c.stopped = false := by
  cases hs : c.stopped with
  | false => rfl
  | true =>
    have hwork := hE hs
    rw [hasWork_of_handling h] at hwork
    cases hwork

theorem exact_settle (h : c.stopped = false) : c.settle.Exact := by
  intro hs
  have hwork : (c.stopped || !c.hasWork) = true := hs
  rw [h, Bool.false_or, Bool.not_eq_true'] at hwork
  exact hwork

/-- A thread out of handlers stays out of them. -/
theorem ThreadMove.outside {a : ThreadAct} (hm : ThreadMove c t a c') (ha : a = .test ∨ a = .leave) :
    c'.pending = c.pending ∧ ∃ pc pc', c.threads[t]? = some pc ∧ pc ≠ .handling ∧ pc' ≠ .handling ∧
      c'.threads = c.threads.set t pc' := by
  cases hm with
  | exit h _ => exact ⟨rfl, .testing, .exited, h, by simp, by simp, rfl⟩
  | enter h _ => exact ⟨rfl, .testing, .running, h, by simp, by simp, rfl⟩
  | leave h _ => exact ⟨rfl, .running, .testing, h, by simp, by simp, rfl⟩
  | _ => simp at ha

theorem exact_move {a : ThreadAct} (hE : c.Exact) (ha : a = .test ∨ a = .leave) (hm : ThreadMove c t a c') :
    c'.Exact := by
  rcases hm.counts with ⟨rfl, -⟩ | ⟨rfl | rfl, -⟩ | ⟨-, hpending, hhandlers, hstopped⟩
  · simp at ha
  · simp at ha
  · simp at ha
  · intro hs
    have hwork := hE (hstopped ▸ hs)
    simp only [hasWork] at hwork ⊢
    rw [hm.guard, hpending, hhandlers]
    exact hwork

theorem setThread_self {pc : ThreadPc} (h : c.threads[t]? = some pc) : c.setThread t pc = c := by
  obtain ⟨hlt, rfl⟩ := List.getElem?_eq_some_iff.1 h
  rw [setThread, List.set_getElem_self hlt]

end IoContext

/-! ## The main thread -/

/-- How many threads have been started, and joined. -/
def PoolMain.started (threads : Nat) : PoolMain → Nat
  | .reset => 0
  | .starting t => t
  | .joining _ | .returned => threads

def PoolMain.joined (threads : Nat) : PoolMain → Nat
  | .reset | .starting _ => 0
  | .joining t => t
  | .returned => threads

structure MainOk (threads : Nat) (main : PoolMain) (c : IoContext) : Prop where
  length : c.threads.length = threads
  guard : c.guard = true ↔ main = .reset
  unborn : ∀ t < threads, c.threads[t]? = some .unborn ↔ main.started threads ≤ t
  joined : ∀ t < threads, t < main.joined threads → c.threads[t]? = some .exited

section
variable {threads : Nat} {main : PoolMain} {c c' : IoContext} {t : Nat} {pc pc' : ThreadPc}

theorem MainOk.thread (h : MainOk threads main c) (ht : c.threads[t]? = some pc) (hu : pc ≠ .unborn) (he : pc ≠ .exited)
    (hu' : pc' ≠ .unborn) (hthreads : c'.threads = c.threads.set t pc') (hguard : c'.guard = c.guard) :
    MainOk threads main c' where
  length := by rw [hthreads, List.length_set, h.length]
  guard := by rw [hguard, h.guard]
  unborn u hu₁ := by
    rw [hthreads, ← h.unborn u hu₁]
    by_cases htu : t = u
    · subst htu
      rw [List.getElem?_set_self (List.getElem?_eq_some_iff.1 ht).1, ht]
      exact ⟨fun hp => absurd (Option.some.inj hp) hu', fun hp => absurd (Option.some.inj hp) hu⟩
    · rw [List.getElem?_set_ne htu]
  joined u hu₁ hj := by
    have hexited := h.joined u hu₁ hj
    have htu : t ≠ u := by
      rintro rfl
      rw [ht] at hexited
      exact he (Option.some.inj hexited)
    rw [hthreads, List.getElem?_set_ne htu]
    exact hexited

theorem MainOk.move {a : ThreadAct} (h : MainOk threads main c) (hm : IoContext.ThreadMove c t a c') : MainOk threads main c' := by
  obtain ⟨pc, pc', ht, hu, hu', hthreads, he, -, -⟩ := hm.threads
  exact h.thread ht hu he hu' hthreads hm.guard

theorem MainOk.start (h : MainOk threads (.starting t) c) (hs : c.start t = some c') :
    MainOk threads (.starting (t + 1)) c' := by
  unfold IoContext.start at hs
  split at hs
  · rename_i ht
    cases hs
    refine ⟨?_, ?_, fun u hu => ?_, fun u hu hj => absurd hj (Nat.not_lt_zero u)⟩
    · exact (List.length_set ..).trans h.length
    · exact iff_of_false (fun hg => absurd (h.guard.1 hg) (by simp)) (by simp)
    · have hunborn := h.unborn u hu
      simp only [PoolMain.started] at hunborn ⊢
      by_cases htu : t = u
      · subst htu
        have hset : (c.setThread t .testing).threads[t]? = some .testing :=
          List.getElem?_set_self (List.getElem?_eq_some_iff.1 ht).1
        rw [hset]
        exact iff_of_false (by simp) (by omega)
      · have hset : (c.setThread t .testing).threads[u]? = c.threads[u]? := List.getElem?_set_ne htu
        rw [hset, hunborn]
        omega
  · cases hs

/-- The main thread goes on without touching the context. -/
theorem MainOk.goto (h : MainOk threads main c) {main' : PoolMain} (hne : main ≠ .reset) (hne' : main' ≠ .reset)
    (hstarted : ∀ u < threads, main.started threads ≤ u ↔ main'.started threads ≤ u)
    (hjoined : ∀ u < threads, u < main'.joined threads → c.threads[u]? = some .exited) : MainOk threads main' c where
  length := h.length
  guard := iff_of_false (fun hg => hne (h.guard.1 hg)) hne'
  unborn u hu := (h.unborn u hu).trans (hstarted u hu)
  joined := hjoined

end

/-! ## The invariant -/

structure PoolInv (P : StrandProgram σ α) (I : σ → Prop) (threads : Nat) (s : StrandPool σ) : Prop where
  prog : I s.prog
  ok : s.ctx.Ok
  exact : s.ctx.Exact
  pending : s.ctx.pending = P.queued s.prog
  main : MainOk threads s.main s.ctx
  inside : ∀ t, (∃ p, s.inside t = some p) ↔ s.ctx.threads[t]? = some .handling
  busy : ∀ p, P.busy s.prog p = true ↔ ∃ t, s.inside t = some p
  exclusive : ∀ {t u p}, s.inside t = some p → s.inside u = some p → t = u

section
variable {P : StrandProgram σ α} {I : σ → Prop} {threads : Nat} {s s' : StrandPool σ}

theorem poolInv_init {prog : σ} (hprog : I prog) (hidle : ∀ p, P.busy prog p = false) :
    PoolInv P I threads (StrandPool.init P threads prog) where
  prog := hprog
  ok := {
    exited := (IoContext.ok_init threads).exited
    work := fun hw => by simp [StrandPool.init, IoContext.hasWork] at hw }
  exact hs := by cases hs
  pending := rfl
  main := {
    length := List.length_replicate
    guard := iff_of_true rfl rfl
    unborn := fun t ht => iff_of_true (List.getElem?_replicate_of_lt ht) (Nat.zero_le t)
    joined := fun t _ hj => absurd hj (Nat.not_lt_zero t) }
  inside t := by
    refine iff_of_false (by simp [StrandPool.init]) (fun ht => ?_)
    have hmem := List.eq_of_mem_replicate (List.mem_of_getElem? ht)
    cases hmem
  busy p := iff_of_false (by simp [StrandPool.init, hidle p]) (by simp [StrandPool.init])
  exclusive ht := by cases ht

/-- The context while thread `t` is in a handler that has led to `prog`. -/
def StrandProgram.during (P : StrandProgram σ α) (c : IoContext) (t : Nat) (prog : σ) : IoContext :=
  { c.setThread t .handling with pending := P.queued prog }

/-- Where a handler leaves its thread. -/
def StrandProgram.after (P : StrandProgram σ α) (s : σ) (a : α) : ThreadPc := if P.throws s a then .testing else .running

/-- What a step of a handler does: its thread was in it or invokes it, and stays in it or not. -/
theorem PoolInv.handler (hI : PoolInv P I threads s) {t : Nat} {a : α} (h : poolStep P threads s (.handler t a) = some s') :
    ∃ prog pc, P.step s.prog a = some prog ∧ s.ctx.stopped = false ∧ s.ctx.threads[t]? = some pc ∧
      (P.starts a = true ∧ pc = .running ∨ P.starts a = false ∧ pc = .handling ∧ s.inside t = some (P.strand a)) ∧
      (P.busy prog (P.strand a) = true ∧
          s' = { s with prog := prog, ctx := P.during s.ctx t prog,
                        inside := Function.update s.inside t (some (P.strand a)) } ∨
        P.busy prog (P.strand a) = false ∧
          s' = { s with prog := prog, ctx := ((P.during s.ctx t prog).setThread t (P.after s.prog a)).settle,
                        inside := Function.update s.inside t none }) := by
  simp only [poolStep] at h
  split at h
  · rename_i c prog hc hprog
    have henter : ∃ pc, s.ctx.stopped = false ∧ s.ctx.threads[t]? = some pc ∧
        (P.starts a = true ∧ pc = .running ∨ P.starts a = false ∧ pc = .handling ∧ s.inside t = some (P.strand a)) ∧
        { c with pending := P.queued prog } = P.during s.ctx t prog := by
      unfold StrandProgram.enter at hc
      split_ifs at hc with hstarts hin
      · cases IoContext.threadStep_move hc with
        | invoke ht hs hp => exact ⟨.running, hs, ht, Or.inl ⟨hstarts, rfl⟩, rfl⟩
      · cases hc
        have ht := (hI.inside t).1 ⟨_, hin⟩
        refine ⟨.handling, hI.exact.stopped_of_handling ht, ht, Or.inr ⟨Bool.eq_false_iff.2 hstarts, rfl, hin⟩, ?_⟩
        rw [StrandProgram.during, IoContext.setThread_self ht]
    obtain ⟨pc, hs, ht, hpc, hduring⟩ := henter
    refine ⟨prog, pc, hprog, hs, ht, hpc, ?_⟩
    rw [hduring] at h
    unfold StrandProgram.exit at h
    split_ifs at h with hbusy hthrows
    · cases h
      exact Or.inl ⟨hbusy, rfl⟩
    all_goals
      obtain ⟨c', hc', rfl⟩ := Option.map_eq_some_iff.1 h
      refine Or.inr ⟨Bool.eq_false_iff.2 hbusy, ?_⟩
    · cases IoContext.threadStep_move hc' with
      | throw _ => rw [StrandProgram.after, if_pos hthrows]
    · cases IoContext.threadStep_move hc' with
      | finish _ => rw [StrandProgram.after, if_neg hthrows]
  · cases h

/-- The threads in handlers, when one of them goes from `pc` to `pc'`. -/
theorem handling_set {l : List ThreadPc} {t : Nat} {pc pc' : ThreadPc} (ht : l[t]? = some pc) (u : Nat) :
    (l.set t pc')[u]? = some .handling ↔ if u = t then pc' = .handling else l[u]? = some .handling := by
  by_cases hut : u = t
  · subst hut
    rw [if_pos rfl, List.getElem?_set_self (List.getElem?_eq_some_iff.1 ht).1, Option.some.injEq]
  · rw [if_neg hut, List.getElem?_set_ne (Ne.symm hut)]

theorem PoolInv.inside_keep (hI : PoolInv P I threads s) {t : Nat} {pc pc' : ThreadPc} (ht : s.ctx.threads[t]? = some pc)
    (hpc : pc ≠ .handling) (hpc' : pc' ≠ .handling) (u : Nat) :
    (∃ p, s.inside u = some p) ↔ (s.ctx.threads.set t pc')[u]? = some .handling := by
  rw [hI.inside, handling_set ht]
  by_cases hut : u = t
  · rw [if_pos hut, hut, ht]
    exact iff_of_false (fun h => hpc (Option.some.inj h)) hpc'
  · rw [if_neg hut]

theorem PoolInv.mainStep (hI : PoolInv P I threads s) (h : mainStep threads s = some s') : PoolInv P I threads s' := by
  unfold Lib.mainStep at h
  split at h
  · rename_i hmain
    cases h
    have hguard : s.ctx.guard = true := hI.main.guard.2 hmain
    have hgoing : s.ctx.stopped = false := by
      cases hs : s.ctx.stopped with
      | false => rfl
      | true =>
        have hwork := hI.exact hs
        rw [IoContext.hasWork, hguard] at hwork
        cases hwork
    exact { hI with
      ok := hI.ok.release
      exact := IoContext.exact_settle hgoing
      main := {
        length := hI.main.length
        guard := iff_of_false (by simp [IoContext.release, IoContext.settle]) (by simp)
        unborn := fun t ht => by
          have hunborn := hI.main.unborn t ht
          rw [hmain] at hunborn
          exact hunborn
        joined := fun t _ hj => absurd hj (Nat.not_lt_zero t) } }
  · rename_i t hmain
    split_ifs at h with hlt
    · obtain ⟨c, hc, rfl⟩ := Option.map_eq_some_iff.1 h
      have hmainOk : MainOk threads (.starting t) s.ctx := hmain ▸ hI.main
      have hunborn := (hmainOk.unborn t hlt).2 (Nat.le_refl t)
      have hset := IoContext.start_eq hunborn
      rw [hc] at hset
      cases hset
      exact { hI with
        ok := hI.ok.start hc
        exact := fun hs => (IoContext.hasWork_set hunborn .testing rfl).trans (hI.exact hs)
        main := hmainOk.start hc
        inside := hI.inside_keep hunborn (by simp) (by simp) }
    · cases h
      have hmainOk : MainOk threads (.starting t) s.ctx := hmain ▸ hI.main
      refine { hI with main := hmainOk.goto (by simp) (by simp) (fun u hu => ?_) fun u _ hj => absurd hj (Nat.not_lt_zero u) }
      simp only [PoolMain.started]
      omega
  · rename_i t hmain
    have hmainOk : MainOk threads (.joining t) s.ctx := hmain ▸ hI.main
    split_ifs at h with hlt hexited
    · cases h
      refine { hI with main := hmainOk.goto (by simp) (by simp) (fun _ _ => Iff.rfl) fun u hu hj => ?_ }
      by_cases hut : u = t
      · exact hut ▸ hexited
      · have hlt' : u < t + 1 := hj
        have hjoined : u < t := by omega
        exact hmainOk.joined u hu hjoined
    · cases h
      refine { hI with main := hmainOk.goto (by simp) (by simp) (fun _ _ => Iff.rfl) fun u hu hj => ?_ }
      exact hmainOk.joined u hu (Nat.lt_of_lt_of_le hu (Nat.le_of_not_lt hlt))
  · cases h

/-- Thread `t`, in no strand but `q`, goes to `x`, which is `q` or none, and no other thread is in `q`. -/
theorem inside_update {f : Nat → Option Nat} {t q : Nat} {x : Option Nat} (hx : x = some q ∨ x = none)
    (hothers : ∀ u, u ≠ t → f u ≠ some q) (ht : ∀ p, f t = some p → p = q) :
    (∀ p, (∃ u, Function.update f t x u = some p) ↔ if p = q then x = some q else ∃ u, f u = some p) ∧
    ((∀ {t u p}, f t = some p → f u = some p → t = u) →
      ∀ {u v p}, Function.update f t x u = some p → Function.update f t x v = some p → u = v) := by
  have hat (u p) (h : Function.update f t x u = some p) : u = t ∧ x = some p ∨ u ≠ t ∧ f u = some p := by
    by_cases hut : u = t
    · rw [hut, Function.update_self] at h
      exact Or.inl ⟨hut, h⟩
    · rw [Function.update_of_ne hut] at h
      exact Or.inr ⟨hut, h⟩
  constructor
  · intro p
    by_cases hp : p = q
    · subst hp
      rw [if_pos rfl]
      constructor
      · rintro ⟨u, hu⟩
        rcases hat u p hu with ⟨-, hx⟩ | ⟨hut, hu⟩
        · exact hx
        · exact absurd hu (hothers u hut)
      · exact fun hx => ⟨t, by rw [Function.update_self, hx]⟩
    · rw [if_neg hp]
      constructor
      · rintro ⟨u, hu⟩
        rcases hat u p hu with ⟨-, hxp⟩ | ⟨-, hu⟩
        · rcases hx with rfl | rfl
          · exact absurd (Option.some.inj hxp).symm hp
          · cases hxp
        · exact ⟨u, hu⟩
      · rintro ⟨u, hu⟩
        have hut : u ≠ t := by
          rintro rfl
          exact hp (ht p hu)
        exact ⟨u, by rw [Function.update_of_ne hut, hu]⟩
  · intro hexcl u v p hu hv
    rcases hat u p hu with ⟨hut, hxu⟩ | ⟨hut, hfu⟩
    · rcases hat v p hv with ⟨hvt, -⟩ | ⟨hvt, hfv⟩
      · exact hut.trans hvt.symm
      · rcases hx with rfl | rfl
        · cases hxu
          exact absurd hfv (hothers v hvt)
        · cases hxu
    · rcases hat v p hv with ⟨-, hxv⟩ | ⟨-, hfv⟩
      · rcases hx with rfl | rfl
        · cases hxv
          exact absurd hfu (hothers u hut)
        · cases hxv
      · exact hexcl hfu hfv

theorem PoolInv.ok_during (hI : PoolInv P I threads s) {t : Nat} {pc : ThreadPc} (ht : s.ctx.threads[t]? = some pc)
    (prog : σ) : (P.during s.ctx t prog).Ok where
  exited := IoContext.exited_set hI.ok (by simp)
  work hw := by
    have hhandling : (P.during s.ctx t prog).threads[t]? = some .handling :=
      List.getElem?_set_self (List.getElem?_eq_some_iff.1 ht).1
    rw [IoContext.hasWork_of_handling hhandling] at hw
    cases hw

theorem after_cases (P : StrandProgram σ α) (prog : σ) (a : α) :
    P.after prog a ≠ .unborn ∧ P.after prog a ≠ .handling ∧ P.after prog a ≠ .exited := by
  unfold StrandProgram.after
  split_ifs
  · exact ⟨by simp, by simp, by simp⟩
  · exact ⟨by simp, by simp, by simp⟩

theorem poolInv_step (hL : P.Lawful I) (hI : PoolInv P I threads s) {a : PoolAct α}
    (h : poolStep P threads s a = some s') : PoolInv P I threads s' := by
  have hmove {t : Nat} {a : ThreadAct} {c : IoContext} (ha : a = .test ∨ a = .leave)
      (h : s.ctx.threadStep t a = some c) : PoolInv P I threads { s with ctx := c } := by
    have hm := IoContext.threadStep_move h
    obtain ⟨hpending, pc, pc', ht, hpc, hpc', hthreads⟩ := hm.outside ha
    exact { hI with
      ok := hI.ok.move hm
      exact := IoContext.exact_move hI.exact ha hm
      pending := hpending.trans hI.pending
      main := hI.main.move hm
      inside := by
        rw [hthreads]
        exact hI.inside_keep ht hpc hpc' }
  cases a with
  | main => exact hI.mainStep h
  | test t =>
    obtain ⟨c, hc, rfl⟩ := Option.map_eq_some_iff.1 h
    exact hmove (Or.inl rfl) hc
  | leave t =>
    obtain ⟨c, hc, rfl⟩ := Option.map_eq_some_iff.1 h
    exact hmove (Or.inr rfl) hc
  | handler t a =>
    obtain ⟨prog, pc, hprog, hgoing, ht, hpc, hends⟩ := hI.handler h
    -- no other thread is in the strand, and the thread is in no other one
    have hothers (u) (hut : u ≠ t) : s.inside u ≠ some (P.strand a) := by
      intro hu
      rcases hpc with ⟨hstarts, -⟩ | ⟨-, -, hin⟩
      · have hidle := (hL.starts hprog hstarts).1
        rw [(hI.busy _).2 ⟨u, hu⟩] at hidle
        cases hidle
      · exact hut (hI.exclusive hu hin)
    have hthis (p) (hp : s.inside t = some p) : p = P.strand a := by
      rcases hpc with ⟨-, rfl⟩ | ⟨-, -, hin⟩
      · have hin := (hI.inside t).1 ⟨p, hp⟩
        rw [ht] at hin
        cases hin
      · exact (Option.some.inj (hin.symm.trans hp)).symm
    have hpc' : pc ≠ .unborn ∧ pc ≠ .exited := by
      rcases hpc with ⟨-, rfl⟩ | ⟨-, rfl, -⟩
      · exact ⟨by simp, by simp⟩
      · exact ⟨by simp, by simp⟩
    have hbusy (x : Option Nat) (hx : x = some (P.strand a) ∨ x = none)
        (hxb : P.busy prog (P.strand a) = true ↔ x = some (P.strand a)) (p) :
        P.busy prog p = true ↔ ∃ u, Function.update s.inside t x u = some p := by
      rw [(inside_update hx hothers hthis).1 p]
      by_cases hp : p = P.strand a
      · rw [if_pos hp, hp, hxb]
      · rw [if_neg hp, hL.frame hprog hp, hI.busy]
    have hin (x : Option Nat) (pc' : ThreadPc) (hx : x.isSome = true ↔ pc' = .handling) (u) :
        (∃ p, Function.update s.inside t x u = some p) ↔ (s.ctx.threads.set t pc')[u]? = some .handling := by
      rw [handling_set ht]
      by_cases hut : u = t
      · rw [if_pos hut, hut, Function.update_self, ← hx, Option.isSome_iff_exists]
      · rw [if_neg hut, Function.update_of_ne hut, hI.inside]
    rcases hends with ⟨hb, rfl⟩ | ⟨hb, rfl⟩
    · exact {
        prog := hL.keep hI.prog hprog
        ok := hI.ok_during ht prog
        exact := fun hs => absurd (hgoing.symm.trans hs) (by simp)
        pending := rfl
        main := hI.main.thread ht hpc'.1 hpc'.2 (by simp) rfl rfl
        inside := hin _ .handling (iff_of_true rfl rfl)
        busy := hbusy _ (Or.inl rfl) (iff_of_true hb rfl)
        exclusive := (inside_update (Or.inl rfl) hothers hthis).2 hI.exclusive }
    · have hthreads (pc' : ThreadPc) :
          ((P.during s.ctx t prog).setThread t pc').settle.threads = s.ctx.threads.set t pc' := List.set_set ..
      obtain ⟨hu, hh, he⟩ := after_cases P s.prog a
      exact {
        prog := hL.keep hI.prog hprog
        ok := IoContext.ok_settle (IoContext.exited_set (hI.ok_during ht prog) fun hx => absurd hx he)
        exact := IoContext.exact_settle hgoing
        pending := rfl
        main := hI.main.thread ht hpc'.1 hpc'.2 hu (hthreads _) rfl
        inside := by
          rw [hthreads]
          exact hin none _ (iff_of_false (by simp) hh)
        busy := hbusy _ (Or.inr rfl) (iff_of_false (by simp [hb]) (by simp))
        exclusive := (inside_update (Or.inr rfl) hothers hthis).2 hI.exclusive }

theorem poolInv_run (hL : P.Lawful I) (hI : PoolInv P I threads s) {as : List (PoolAct α)}
    (h : exec (poolStep P threads) s as = some s') : PoolInv P I threads s' :=
  exec_invariant (fun _ => True) (PoolInv P I threads) (fun _ _ _ _ hI hstep => poolInv_step hL hI hstep)
    (fun _ _ => trivial) hI h

/-! ## The end -/

/-- The main thread goes on when every thread has ended, and then no handler is left. -/
theorem PoolInv.returned (hI : PoolInv P I threads s) (hpos : 0 < threads) (hmain : s.main = .returned) :
    P.queued s.prog = 0 ∧ (∀ p, P.busy s.prog p = false) ∧ ∀ t < threads, s.ctx.threads[t]? = some .exited := by
  have hexited (t) (ht : t < threads) : s.ctx.threads[t]? = some .exited :=
    hI.main.joined t ht (by rw [hmain]; exact ht)
  have hwork := hI.exact (hI.ok.exited 0 (hexited 0 hpos))
  have hcounts : s.ctx.pending + s.ctx.handlers = 0 := by
    simp only [IoContext.hasWork, Bool.or_eq_false_iff, bne_eq_false_iff_eq] at hwork
    exact hwork.2
  refine ⟨?_, fun p => ?_, hexited⟩
  · rw [← hI.pending]
    omega
  · by_contra hbusy
    obtain ⟨t, ht⟩ := (hI.busy p).1 (Bool.eq_true_of_not_eq_false hbusy)
    rw [IoContext.hasWork_of_handling ((hI.inside t).1 ⟨p, ht⟩)] at hwork
    cases hwork

/-- A thread can take a step of the program: the next one of its handler, or the first one of another. -/
theorem PoolInv.handler_enabled (hI : PoolInv P I threads s) {t : Nat} {a : α} {prog : σ}
    (hprog : P.step s.prog a = some prog)
    (ht : P.starts a = false ∧ s.inside t = some (P.strand a) ∨
      P.starts a = true ∧ s.ctx.threads[t]? = some .running ∧ s.ctx.stopped = false ∧ 0 < s.ctx.pending) :
    ∃ s', poolStep P threads s (.handler t a) = some s' := by
  have henter : ∃ c, P.enter s t a = some c ∧ c.threads[t]? = some .handling := by
    unfold StrandProgram.enter
    rcases ht with ⟨hstarts, hin⟩ | ⟨hstarts, ht, hs, hp⟩
    · rw [if_neg (by rw [hstarts]; simp), if_pos hin]
      exact ⟨_, rfl, (hI.inside t).1 ⟨_, hin⟩⟩
    · rw [if_pos hstarts, IoContext.step_invoke ht hs hp]
      exact ⟨_, rfl, List.getElem?_set_self (List.getElem?_eq_some_iff.1 ht).1⟩
  obtain ⟨c, hc, hhandling⟩ := henter
  simp only [poolStep, hc, hprog]
  unfold StrandProgram.exit
  split_ifs
  · exact ⟨_, rfl⟩
  · exact ⟨_, by simp only [IoContext.threadStep, hhandling, Option.map_some]; rfl⟩
  · exact ⟨_, by simp only [IoContext.threadStep, hhandling, Option.map_some]; rfl⟩

/-- The work of a context that goes on while no handler runs is a handler in a queue. -/
theorem PoolInv.pending_pos (hI : PoolInv P I threads s) (hguard : ¬s.ctx.guard = true) (hs : s.ctx.stopped = false)
    (hidle : ∀ p, P.busy s.prog p = false) : 0 < s.ctx.pending := by
  have hnone : s.ctx.handlers = 0 := by
    refine total_eq_zero _ fun pc hpc => ?_
    obtain ⟨u, hu⟩ := List.mem_iff_getElem?.1 hpc
    cases pc with
    | handling =>
      obtain ⟨p, hp⟩ := (hI.inside u).2 hu
      have hbusy := (hI.busy p).2 ⟨u, hp⟩
      rw [hidle p] at hbusy
      cases hbusy
    | _ => rfl
  by_contra hzero
  have hwork : s.ctx.hasWork = false := by
    simp only [IoContext.hasWork, Bool.eq_false_iff.2 hguard, hnone, Bool.false_or, bne_eq_false_iff_eq]
    omega
  rw [hI.ok.work hwork] at hs
  cases hs

/-- **Progress.** Until the main thread is done, it or a thread of the pool can take a step. -/
theorem PoolInv.progress (hL : P.Lawful I) (hI : PoolInv P I threads s) (hmain : s.main ≠ .returned) :
    ∃ a s', poolStep P threads s a = some s' := by
  cases hm : s.main with
  | reset => exact ⟨.main, _, by simp only [poolStep, Lib.mainStep, hm]; rfl⟩
  | starting t =>
    by_cases hlt : t < threads
    · have hunborn := (hI.main.unborn t hlt).2 (by rw [hm]; exact Nat.le_refl t)
      exact ⟨.main, _, by simp only [poolStep, Lib.mainStep, hm, if_pos hlt, IoContext.start_eq hunborn, Option.map_some]; rfl⟩
    · exact ⟨.main, _, by simp only [poolStep, Lib.mainStep, hm, if_neg hlt]; rfl⟩
  | returned => exact absurd hm hmain
  | joining t =>
    by_cases hlt : t < threads
    · obtain ⟨pc, hsome⟩ : ∃ pc, s.ctx.threads[t]? = some pc :=
        ⟨_, List.getElem?_eq_getElem (hI.main.length.symm ▸ hlt)⟩
      cases hpc : pc with
      | unborn =>
        have hunborn := (hI.main.unborn t hlt).1 (hpc ▸ hsome)
        rw [hm] at hunborn
        exact absurd hlt (Nat.not_lt.2 hunborn)
      | exited =>
        rw [hpc] at hsome
        exact ⟨.main, _, by simp only [poolStep, Lib.mainStep, hm, if_pos hlt, if_pos hsome]; rfl⟩
      | testing => exact ⟨.test t, _, by simp only [poolStep, IoContext.step_test (hpc ▸ hsome), Option.map_some]; rfl⟩
      | handling =>
        obtain ⟨p, hp⟩ := (hI.inside t).2 (hpc ▸ hsome)
        obtain ⟨a, prog, hstrand, hstarts, hprog⟩ := hL.goes hI.prog ((hI.busy p).2 ⟨t, hp⟩)
        exact ⟨.handler t a, hI.handler_enabled hprog (Or.inl ⟨hstarts, hstrand ▸ hp⟩)⟩
      | running =>
        rw [hpc] at hsome
        cases hs : s.ctx.stopped with
        | true => exact ⟨.leave t, _, by simp only [poolStep, IoContext.step_leave hsome hs, Option.map_some]; rfl⟩
        | false =>
          by_cases hbusy : ∃ p, P.busy s.prog p = true
          · -- some handler runs, and its thread goes on
            obtain ⟨p, hbusy⟩ := hbusy
            obtain ⟨u, hu⟩ := (hI.busy p).1 hbusy
            obtain ⟨a, prog, hstrand, hstarts, hprog⟩ := hL.goes hI.prog hbusy
            exact ⟨.handler u a, hI.handler_enabled hprog (Or.inl ⟨hstarts, hstrand ▸ hu⟩)⟩
          · -- no handler runs: the work of the context is a handler in a queue
            have hidle (p) : P.busy s.prog p = false := by
              by_contra hp
              exact hbusy ⟨p, Bool.eq_true_of_not_eq_false hp⟩
            have hguard : ¬s.ctx.guard = true := by
              rw [hI.main.guard, hm]
              simp
            have hpending := hI.pending_pos hguard hs hidle
            obtain ⟨a, prog, hstarts, hprog⟩ := hL.begins hI.prog (hI.pending ▸ hpending) hidle
            exact ⟨.handler t a, hI.handler_enabled hprog (Or.inr ⟨hstarts, hsome, hs, hpending⟩)⟩
    · exact ⟨.main, _, by simp only [poolStep, Lib.mainStep, hm, if_neg hlt]; rfl⟩

/-! ## Steps -/

/-- How many steps a thread is from its end when no handler is left to be run. -/
def ThreadPc.weight (stopped : Bool) : ThreadPc → Nat
  | .unborn => 4
  | .testing => if stopped then 1 else 3
  | .running | .handling => 2
  | .exited => 0

def PoolMain.left (threads : Nat) : PoolMain → Nat
  | .reset => 2 * threads + 3
  | .starting t => (threads - t) + threads + 2
  | .joining t => (threads - t) + 1
  | .returned => 0

def StrandPool.left (threads : Nat) (s : StrandPool σ) : Nat :=
  total (ThreadPc.weight s.ctx.stopped) s.ctx.threads + s.main.left threads

theorem weight_mono {b c : Bool} (h : b = true → c = true) (l : List ThreadPc) :
    total (ThreadPc.weight c) l ≤ total (ThreadPc.weight b) l := by
  refine List.sum_le_sum fun pc _ => ?_
  cases pc with
  | testing =>
    cases b with
    | true => rw [h rfl]
    | false =>
      cases c with
      | true => exact (by decide : 1 ≤ 3)
      | false => exact Nat.le_refl _
  | _ => exact Nat.le_refl _

/-- A thread goes from `pc` to `pc'`, and the context may stop. -/
theorem weight_set {b c : Bool} (h : b = true → c = true) {l : List ThreadPc} {t : Nat} {pc : ThreadPc}
    (ht : l[t]? = some pc) (pc' : ThreadPc) :
    total (ThreadPc.weight c) (l.set t pc') + pc.weight b ≤ total (ThreadPc.weight b) l + pc'.weight b := by
  have hmono := weight_mono h (l.set t pc')
  have hset := total_set (ThreadPc.weight b) pc' ht
  omega

theorem mainStep_left (h : mainStep threads s = some s') : s'.left threads + 1 ≤ s.left threads := by
  unfold Lib.mainStep at h
  split at h
  · rename_i hmain
    cases h
    have hmono := weight_mono (b := s.ctx.stopped) (c := s.ctx.release.stopped)
      (fun hs => by simp [IoContext.release, IoContext.settle, hs]) s.ctx.threads
    have hthreads : s.ctx.release.threads = s.ctx.threads := rfl
    simp only [StrandPool.left, hmain, PoolMain.left, hthreads] at hmono ⊢
    omega
  · rename_i t hmain
    split_ifs at h with hlt
    · obtain ⟨c, hc, rfl⟩ := Option.map_eq_some_iff.1 h
      unfold IoContext.start at hc
      split_ifs at hc with hunborn
      cases hc
      have hset := weight_set (b := s.ctx.stopped) id hunborn .testing
      have hweight : ThreadPc.testing.weight s.ctx.stopped ≤ 3 := by
        cases s.ctx.stopped with
        | true => exact (by decide : 1 ≤ 3)
        | false => exact Nat.le_refl _
      have hunbornWeight : ThreadPc.unborn.weight s.ctx.stopped = 4 := rfl
      simp only [StrandPool.left, hmain, PoolMain.left, IoContext.setThread]
      omega
    · cases h
      simp only [StrandPool.left, hmain, PoolMain.left]
      omega
  · rename_i t hmain
    split_ifs at h with hlt hexited
    · cases h
      simp only [StrandPool.left, hmain, PoolMain.left]
      omega
    · cases h
      simp only [StrandPool.left, hmain, PoolMain.left]
      omega
  · cases h

theorem move_left {t : Nat} {a : ThreadAct} {c : IoContext} (hm : IoContext.ThreadMove s.ctx t a c)
    (ha : a = .test ∨ a = .leave) : StrandPool.left threads { s with ctx := c } + 1 ≤ s.left threads := by
  have hset (pc' : ThreadPc) {pc : ThreadPc} (ht : s.ctx.threads[t]? = some pc) :=
    weight_set (b := s.ctx.stopped) id ht pc'
  cases hm with
  | exit ht hs =>
    have hw := hset .exited ht
    simp only [StrandPool.left, IoContext.setThread, hs, ThreadPc.weight, if_true] at hw ⊢
    omega
  | enter ht hs =>
    have hw := hset .running ht
    simp only [StrandPool.left, IoContext.setThread, hs, ThreadPc.weight, Bool.false_eq_true, if_false] at hw ⊢
    omega
  | leave ht hs =>
    have hw := hset .testing ht
    simp only [StrandPool.left, IoContext.setThread, hs, ThreadPc.weight, if_true] at hw ⊢
    omega
  | _ => simp at ha

theorem PoolInv.handler_left (hI : PoolInv P I threads s) {t : Nat} {a : α}
    (h : poolStep P threads s (.handler t a) = some s') : s'.left threads ≤ s.left threads + 1 := by
  obtain ⟨prog, pc, -, hgoing, ht, hpc, hends⟩ := hI.handler h
  have hweight : pc.weight s.ctx.stopped = 2 := by
    rcases hpc with ⟨-, rfl⟩ | ⟨-, rfl, -⟩
    · rfl
    · rfl
  have hset {b : Bool} (pc' : ThreadPc) := weight_set (b := s.ctx.stopped) (c := b)
    (fun hs => absurd (hgoing.symm.trans hs) (by simp)) ht pc'
  rcases hends with ⟨-, rfl⟩ | ⟨-, rfl⟩
  · have hw := hset (b := s.ctx.stopped) .handling
    rw [hweight] at hw
    exact Nat.le_succ_of_le (Nat.add_le_add_right (Nat.le_of_add_le_add_right hw) _)
  · have hthreads (pc' : ThreadPc) :
        ((P.during s.ctx t prog).setThread t pc').settle.threads = s.ctx.threads.set t pc' := List.set_set ..
    have hafter : (P.after s.prog a).weight s.ctx.stopped ≤ 3 := by
      rw [hgoing]
      unfold StrandProgram.after
      split_ifs
      · exact Nat.le_refl _
      · exact Nat.le_succ _
    have hw := hset (b := ((P.during s.ctx t prog).setThread t (P.after s.prog a)).settle.stopped) (P.after s.prog a)
    simp only [StrandPool.left, hthreads]
    omega

/-- **Length.** Each step of the program takes two steps of the pool at most, and each thread six. -/
theorem pool_length (hL : P.Lawful I) : ∀ {as : List (PoolAct α)} {s s' : StrandPool σ}, PoolInv P I threads s →
    exec (poolStep P threads) s as = some s' → as.length + s'.left threads ≤ s.left threads + 2 * (handlerSteps as).length
  | [], s, s', _, h => by
    cases h
    simp [handlerSteps]
  | a :: as, s, s', hI, h => by
    obtain ⟨s₁, hs₁, hrest⟩ := Option.bind_eq_some_iff.1 h
    have ih := pool_length hL (poolInv_step hL hI hs₁) hrest
    rw [List.length_cons]
    cases a with
    | main =>
      have hleft : s₁.left threads + 1 ≤ s.left threads := mainStep_left hs₁
      have hsteps : handlerSteps (PoolAct.main :: as) = handlerSteps as := rfl
      rw [hsteps]
      omega
    | test t =>
      obtain ⟨c, hc, rfl⟩ := Option.map_eq_some_iff.1 hs₁
      have hleft : StrandPool.left threads { s with ctx := c } + 1 ≤ s.left threads :=
        move_left (IoContext.threadStep_move hc) (Or.inl rfl)
      have hsteps : handlerSteps (PoolAct.test t :: as) = handlerSteps as := rfl
      rw [hsteps]
      omega
    | leave t =>
      obtain ⟨c, hc, rfl⟩ := Option.map_eq_some_iff.1 hs₁
      have hleft : StrandPool.left threads { s with ctx := c } + 1 ≤ s.left threads :=
        move_left (IoContext.threadStep_move hc) (Or.inr rfl)
      have hsteps : handlerSteps (PoolAct.leave t :: as) = handlerSteps as := rfl
      rw [hsteps]
      omega
    | handler t a =>
      have hleft := hI.handler_left hs₁
      have hsteps : handlerSteps (PoolAct.handler t a :: as) = a :: handlerSteps as := rfl
      rw [hsteps, List.length_cons]
      omega

theorem weight_le (b : Bool) (l : List ThreadPc) : total (ThreadPc.weight b) l ≤ 4 * l.length := by
  induction l with
  | nil => exact Nat.le_refl _
  | cons pc l ih =>
    have hpc : pc.weight b ≤ 4 := by
      cases pc with
      | testing =>
        cases b with
        | true => exact (by decide : 1 ≤ 4)
        | false => exact (by decide : 3 ≤ 4)
      | _ => simp [ThreadPc.weight]
    rw [total_cons, List.length_cons]
    omega

theorem PoolInv.left_le (hI : PoolInv P I threads s) : s.left threads ≤ 6 * threads + 3 := by
  have hweights := weight_le s.ctx.stopped s.ctx.threads
  have hmain : s.main.left threads ≤ 2 * threads + 3 := by
    cases s.main with
    | _ =>
      simp only [PoolMain.left]
      omega
  rw [hI.main.length] at hweights
  unfold StrandPool.left
  omega

/-- **End rule.** When the runs of the program are no longer than `n`, the pool ends. -/
theorem pool_ends (hL : P.Lawful I) {s₀ : StrandPool σ} (hI : PoolInv P I threads s₀) {n : Nat}
    (hn : ∀ as prog, exec P.step s₀.prog as = some prog → as.length ≤ n) {as : List (PoolAct α)}
    (h : exec (poolStep P threads) s₀ as = some s) :
    as.length ≤ 2 * n + (6 * threads + 3) ∧
    ∃ bs s', exec (poolStep P threads) s bs = some s' ∧ s'.main = .returned := by
  have hbound (as s) (h : exec (poolStep P threads) s₀ as = some s) : as.length ≤ 2 * n + (6 * threads + 3) := by
    have hlength := pool_length hL hI h
    have hsteps := hn _ _ (pool_projects h)
    have hleft := hI.left_le
    omega
  refine ⟨hbound as s h, ?_⟩
  refine exec_finish (fun as s => exec (poolStep P threads) s₀ as = some s) (fun s => s.main = .returned) hbound
    (fun as s h hmain => ?_) h (Nat.lt_succ_self _)
  obtain ⟨a, s', ha⟩ := (poolInv_run hL hI h).progress hL hmain
  exact ⟨a, s', ha, by simp [exec_append, h, exec, ha]⟩

end

end Lib
