import Acppsrv.Lib.Strands
import Acppsrv.Benchmark.CreateEnd
import Acppsrv.Benchmark.Deadline
/-!
# The threads of the benchmark (worker.cpp:13-86, benchmark.cpp:525-533, :906-924)

`cmd::create` and `cmd::requests` post their first handlers, start the threads of a pool that is not persistent, and
wait for them. Create.lean and Requests.lean have the strands without the threads; here they are run by `THREADS`
threads, in the loop of `thread_pool::run`. So what is proved there of every interleaving of the strands holds of
every run of the threads, and `threads.wait()` returns exactly in the states that are called `Complete` there.

An exception that leaves a handler sends its thread to the test of the loop; its request is not replaced.
-/
namespace Acppsrv.Benchmark
open Lib

/-! ## `create` -/

def Act.strand : Act → Nat
  | .start p | .count p | .finish p _ => p

def Act.starts : Act → Bool
  | .start _ => true
  | _ => false

/-- SQLite rejects the statement of the step, and the exception leaves the handler. -/
def Part.rejects (part : Part) : Act → Bool
  | .start _ => decide (part.curTx = 0) && (openTx part.sql).isSome
  | .count _ => false
  | .finish _ _ =>
    match part.pc with
    | .decided true => (openTx part.sql).isNone
    | .decided false => decide (part.curTx + 1 = transactionSz) && (openTx part.sql).isNone
    | _ => false

def Part.running (part : Part) : Bool := decide (part.pc ≠ .idle)

def createProgram (args : Args) : StrandProgram State Act where
  step := createStep args
  strand := Act.strand
  starts := Act.starts
  throws s a := (s.parts[a.strand]?).any fun part => part.rejects a
  queued s := queuedIn (fun part : Part => part.queue.length) s.parts
  busy s := busyIn Part.running s.parts

section
variable {args : Args} {s s' : State} {p : Nat}

theorem Part.running_iff {part : Part} : part.running = false ↔ part.pc = .idle := by
  simp [Part.running]

/-- `create_record` lengthens a queue only. -/
theorem busy_createRecord (key : Key) : busyIn Part.running (createRecord args s key).parts p = busyIn Part.running s.parts p :=
  busyIn_modify fun _ => rfl

theorem create_frame {a : Act} (hm : Move args s a s') (hp : p ≠ a.strand) :
    (createProgram args).busy s' p = (createProgram args).busy s p := by
  cases hm with
  | commit | next => exact (busy_createRecord _).trans (busyIn_set hp _)
  | _ => exact busyIn_set hp _

theorem create_lawful (args : Args) : (createProgram args).Lawful fun s => s.parts.length = args.partitions where
  keep {s a s'} hlen h := by
    cases createStep_move h with
    | _ => simpa using hlen
  starts {s a s'} h hstarts := by
    have hwaiting {p : Nat} {part : Part} (hp : s.parts[p]? = some part) (hpc : part.pc = .idle) {rec : Rec}
        {queue : List Rec} (hq : part.queue = rec :: queue) :
        (createProgram args).busy s p = false ∧ 0 < (createProgram args).queued s :=
      waiting hp (Part.running_iff.2 hpc) (by rw [hq]; exact Nat.succ_pos _)
    cases createStep_move h with
    | rejectBegin hp hpc hq => exact hwaiting hp hpc hq
    | begin hp hpc hq => exact hwaiting hp hpc hq
    | insert hp hpc hq => exact hwaiting hp hpc hq
    | _ => cases hstarts
  frame h hp := create_frame (createStep_move h) hp
  goes {s p} _ hbusy := by
    obtain ⟨part, hp, hrunning⟩ := busyIn_iff.1 hbusy
    cases hpart : part.pc with
    | idle =>
      rw [Part.running_iff.2 hpart] at hrunning
      cases hrunning
    | inserted => exact ⟨.count p, _, rfl, rfl, by simp only [createProgram, createStep, hp, hpart]; rfl⟩
    | decided done => exact ⟨.finish p (keyOf 0), _, rfl, rfl, by simp only [createProgram, createStep, hp, hpart]; rfl⟩
  begins {s} _ hqueued hidle := by
    obtain ⟨p, part, hp, hrunning, hq⟩ := exists_waiting hqueued hidle
    have hpc := Part.running_iff.1 hrunning
    cases hqueue : part.queue with
    | nil => rw [hqueue] at hq; cases hq
    | cons rec queue => exact ⟨.start p, _, rfl, by simp only [createProgram, createStep, hp, hpc, hqueue]; rfl⟩

theorem init_idle (args : Args) (keys : Nat → Key) (p : Nat) : (createProgram args).busy (init args keys) p = false := by
  by_contra hbusy
  obtain ⟨part, hp, hrunning⟩ := busyIn_iff.1 (Bool.eq_true_of_not_eq_false hbusy)
  obtain ⟨queue, rfl⟩ := init_blank args keys p part hp
  cases hrunning

end

/-- **The threads of `create`.** However many there are and whatever the interleaving: they do what the strands can
do, no two are ever in handlers of one partition, their steps are bounded, and `threads.wait()` can return; and it
returns only when every thread has ended, no handler is left, and all records are stored. -/
theorem create_returns (args : Args) (hU : Unwrapped args) (keys : Nat → Key) (threads : Nat) (hpos : 0 < threads)
    (as : List (PoolAct Act)) (s : StrandPool State)
    (h : exec (poolStep (createProgram args) threads)
      (StrandPool.init (createProgram args) threads (init args keys)) as = some s) :
    exec (createStep args) (init args keys) (handlerSteps as) = some s.prog ∧
    (∀ t u p, s.inside t = some p → s.inside u = some p → t = u) ∧
    as.length ≤ 6 * (args.records.toNat + chains args - 1) + 6 * threads + 3 ∧
    (∃ bs s', exec (poolStep (createProgram args) threads) s bs = some s' ∧ s'.main = .returned) ∧
    (s.main = .returned → (∀ t < threads, s.ctx.threads[t]? = some .exited) ∧ Complete s.prog ∧
      inserted s.prog = args.records.toNat + chains args - 1) := by
  have hL := create_lawful args
  have hinit : PoolInv (createProgram args) (fun s => s.parts.length = args.partitions) threads
      (StrandPool.init (createProgram args) threads (init args keys)) :=
    poolInv_init (endInv_init args keys).size (init_idle args keys)
  have hI := poolInv_run hL hinit h
  have hprog : exec (createStep args) (init args keys) (handlerSteps as) = some s.prog := pool_projects h
  have hends := pool_ends hL hinit (n := 3 * (args.records.toNat + chains args - 1))
    (fun as prog hrun => (endInv_run hU hrun).length_le hU) h
  refine ⟨hprog, fun t u p => hI.exclusive, ?_, hends.2, fun hmain => ?_⟩
  · have hlength := hends.1
    omega
  · obtain ⟨hqueued, hidle, hexited⟩ := hI.returned hpos hmain
    have hnone := none_waiting hqueued hidle
    have hc : Complete s.prog := fun part hpart =>
      ⟨Part.running_iff.1 (hnone part hpart).1, List.eq_nil_of_length_eq_zero (hnone part hpart).2⟩
    exact ⟨hexited, hc, (endInv_run hU hprog).inserted hU hc⟩

/-- Two threads; the first one makes all records and is thrown out of the last handler, and both end. -/
def byFirst : List (PoolAct Act) :=
  [.main, .main, .main, .main, .test 0, .test 1] ++ threeInOne.map (.handler 0) ++
    [.test 0, .leave 1, .test 1, .main, .main, .main]

theorem create_returns_byFirst : ∃ s,
    exec (poolStep (createProgram onePartition) 2)
      (StrandPool.init (createProgram onePartition) 2 (init onePartition fun _ => keyOf 0)) byFirst = some s ∧
    s.main = .returned ∧ Complete s.prog ∧ inserted s.prog = 3 := by
  have hrun : ((exec (poolStep (createProgram onePartition) 2)
      (StrandPool.init (createProgram onePartition) 2 (init onePartition fun _ => keyOf 0)) byFirst).map fun s =>
        s.main) = some .returned := by decide
  obtain ⟨s, hs, hmain⟩ := Option.map_eq_some_iff.1 hrun
  obtain ⟨-, -, -, -, hend⟩ := create_returns onePartition (by unfold Unwrapped; decide) _ 2 (by decide) _ s hs
  obtain ⟨-, hc, hins⟩ := hend hmain
  exact ⟨s, hs, hmain, hc, hins⟩

/-! ## `requests` -/

namespace Requests
variable {D : Type} [LT D] [DecidableLT D] [Add D]

def Strand.running (st : Strand) : Bool := decide (st.pc ≠ .idle)

def requestsProgram (cfg : Cfg D) : StrandProgram State (Act D) where
  step := requestsStep cfg
  strand := Act.strand
  starts := Act.starts
  throws _ _ := false
  queued s := queuedIn (fun st : Strand => st.queue.length) s.strands
  busy s := busyIn Strand.running s.strands

section
variable {cfg : Cfg D} {s s' : State} {p n : Nat}

theorem Strand.running_iff {st : Strand} : st.running = false ↔ st.pc = .idle := by
  simp [Strand.running]

theorem busy_post (q : Nat) (req : Request) :
    busyIn Strand.running (s.post q req).strands p = busyIn Strand.running s.strands p :=
  busyIn_modify fun _ => rfl

theorem requests_frame {a : Act D} (hm : Move cfg s a s') (hp : p ≠ a.strand) :
    (requestsProgram cfg).busy s' p = (requestsProgram cfg).busy s p := by
  cases hm with
  | next => exact (busy_post _ _).trans (busyIn_set hp _)
  | _ => exact busyIn_set hp _

theorem requests_lawful (hd : ∀ d, (requestOf cfg d).isSome = true) : (requestsProgram cfg).Lawful (Inv cfg n) where
  keep hI h := inv_move hI (requestsStep_move h)
  starts {s a s'} h hstarts := by
    cases requestsStep_move h with
    | start hp hpc hq => exact waiting hp (Strand.running_iff.2 hpc) (by rw [hq]; exact Nat.succ_pos _)
    | _ => cases hstarts
  frame h hp := requests_frame (requestsStep_move h) hp
  goes hI hbusy := by
    obtain ⟨st, hp, hrunning⟩ := busyIn_iff.1 hbusy
    have hpc : st.pc ≠ .idle := of_decide_eq_true hrunning
    obtain ⟨a, hstrand, hstarts, ha⟩ := hI.goes hd hp hpc
    obtain ⟨s', hs'⟩ := Option.isSome_iff_exists.1 ha
    exact ⟨a, s', hstrand, hstarts, hs'⟩
  begins {s} _ hqueued hidle := by
    obtain ⟨p, st, hp, hrunning, hq⟩ := exists_waiting hqueued hidle
    have hpc := Strand.running_iff.1 hrunning
    cases hqueue : st.queue with
    | nil => rw [hqueue] at hq; cases hq
    | cons req queue => exact ⟨.start p, _, rfl, by simp only [requestsProgram, requestsStep, hp, hpc, hqueue]; rfl⟩

theorem requests_init_idle {rows : Nat → List Row} {draws : Nat → Draw D} {t0 : Int} {s₀ : State}
    (h : init cfg rows n draws t0 = some s₀) (p : Nat) : (requestsProgram cfg).busy s₀ p = false := by
  refine init_rule (fun _ s => (requestsProgram cfg).busy s p = false) ?_ (fun _ s q req _ hs _ => ?_) h
  · by_contra hbusy
    obtain ⟨st, hp, hrunning⟩ := busyIn_iff.1 (Bool.eq_true_of_not_eq_false hbusy)
    obtain ⟨q, -, rfl⟩ := List.mem_map.1 (List.mem_of_getElem? hp)
    cases hrunning
  · exact (busy_post q req).trans hs

end

/-- **The threads of `requests`.** However many there are and whatever the interleaving: they do what the strands
can do, no two are ever in handlers of one partition, and until `threads.wait()` has returned one of them has a step.
Once some thread has read the clock after TIME a bounded number of steps is left; and `threads.wait()` returns only
after TIME, when every thread has ended and no handler is left. -/
theorem requests_returns (cfg : Cfg D) (rows : Nat → List Row) (requests : Nat) (hreq : 0 < requests)
    (draws : Nat → Draw D) (t0 : Int) (data : Bytes) (hkeys : knownKeyGenerator data = some cfg.keys)
    (hdata : DrawsOk cfg.partitions data []) (s₀ : State) (h₀ : init cfg rows requests draws t0 = some s₀)
    (threads : Nat) (hpos : 0 < threads) (as : List (PoolAct (Act D))) (s : StrandPool State)
    (h : exec (poolStep (requestsProgram cfg) threads) (StrandPool.init (requestsProgram cfg) threads s₀) as = some s) :
    exec (requestsStep cfg) s₀ (handlerSteps as) = some s.prog ∧
    (∀ t u p, s.inside t = some p → s.inside u = some p → t = u) ∧
    (s.main ≠ .returned → ∃ a s', poolStep (requestsProgram cfg) threads s a = some s') ∧
    (t0 + cfg.time ≤ s.prog.now → ∀ bs s', exec (poolStep (requestsProgram cfg) threads) s bs = some s' →
      bs.length ≤ 58 * requests + 6 * threads + 3) ∧
    (s.main = .returned → (∀ t < threads, s.ctx.threads[t]? = some .exited) ∧ Complete s.prog ∧
      t0 + cfg.time ≤ s.prog.now) := by
  have hL : (requestsProgram cfg).Lawful (Inv cfg requests) :=
    requests_lawful (requestOf_isSome (knownKeyGenerator_adds hkeys []) hdata)
  have hI := poolInv_run hL (poolInv_init (P := requestsProgram cfg) (inv_init h₀) (requests_init_idle h₀)) h
  have hprog : exec (requestsStep cfg) s₀ (handlerSteps as) = some s.prog := pool_projects h
  have ht0 : s.prog.t0 = t0 := t0_run h₀ hprog
  refine ⟨hprog, fun t u p => hI.exclusive, hI.progress hL, fun hlate bs s' hrun => ?_, fun hmain => ?_⟩
  · have hlength := pool_length hL hI hrun
    have hsteps : exec (requestsStep cfg) s.prog (handlerSteps bs) = some s'.prog := pool_projects hrun
    have hlate := (late_run hI.prog (ht0.symm ▸ hlate) hsteps).1
    have hle := left_le hI.prog
    have hleft := hI.left_le
    omega
  · obtain ⟨hqueued, hidle, hexited⟩ := hI.returned hpos hmain
    have hnone := none_waiting hqueued hidle
    have hc : Complete s.prog := fun st hst =>
      ⟨Strand.running_iff.1 (hnone st hst).1, List.eq_nil_of_length_eq_zero (hnone st hst).2⟩
    exact ⟨hexited, hc, ht0 ▸ hI.prog.complete hreq hc⟩

/-- Two threads take turns; the handlers of the second and the third request read the clock after TIME. -/
def takeTurns : List (PoolAct (Act Int)) :=
  [.main, .main, .main, .main, .test 0, .test 1] ++ (handler 1 3).map (.handler 0) ++ (handler 1 4).map (.handler 1) ++
    (handler 1 5).map (.handler 0) ++ [.leave 0, .leave 1, .test 0, .test 1, .main, .main, .main]

theorem requests_returns_takeTurns : ∃ s₀ s,
    init updatesOnly oneRow 2 (fun _ => zeroDraw) 1 = some s₀ ∧
    exec (poolStep (requestsProgram updatesOnly) 2) (StrandPool.init (requestsProgram updatesOnly) 2 s₀) takeTurns =
      some s ∧
    s.main = .returned ∧ Complete s.prog ∧ 4 ≤ s.prog.now := by
  have hrun : ((init updatesOnly oneRow 2 (fun _ => zeroDraw) 1).bind fun s₀ =>
      (exec (poolStep (requestsProgram updatesOnly) 2) (StrandPool.init (requestsProgram updatesOnly) 2 s₀)
        takeTurns).map fun s => s.main) = some .returned := by decide
  obtain ⟨s₀, h₀, hmap⟩ := Option.bind_eq_some_iff.1 hrun
  obtain ⟨s, hs, hmain⟩ := Option.map_eq_some_iff.1 hmap
  obtain ⟨-, -, -, -, hend⟩ := requests_returns updatesOnly _ 2 (by decide) _ 1 [1, 7, 0, 0, 0] rfl
    ⟨by decide, by decide, by decide⟩ s₀ h₀ 2 (by decide) _ s hs
  obtain ⟨-, hc, hnow⟩ := hend hmain
  exact ⟨s₀, s, h₀, hs, hmain, hc, hnow⟩

end Requests

end Acppsrv.Benchmark
