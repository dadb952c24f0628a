import Acppsrv.Lib.Monitor
import Acppsrv.Db.RunQuery
/-!
# The retry wait and `signal_finished` (db_server.cpp:48-65, db_server.hpp:41)

The threads of one database share a `db_sync_t`: a flag `finished` with its mutex and condition
variable. It is a monitor in the sense of `Lib.Monitor`:

| here | there |
| --- | --- |
| `sigLock`, `sigSet`, `notify`, `sigUnlock` | `lock_guard` (:49), `finished = true` (:50), `notify_one` (:51), the end of the guard's function |
| `waitLock`, `check`                        | `unique_lock` (:61), the predicate inside `wait_for` (:63) |
| `wake`, `relock`                           | timeout or spurious wakeup, and the mutex again, inside `wait_for` |
| `leave`, `waitUnlock`                      | `finished = false` (:64), the end of the block (:65) |

* `executeQuery_yields`: an execution signals once, at its end, however it ends.
* `retry_wait_signalled`: no waiter sleeps on a standing signal unless another one is awake for it,
  and no more waits see a signal than there were signals.
-/
namespace Acppsrv.Db
open Lib

/-- `db_sync_t` as `execute_query` uses it; the data are `finished`. -/
def dbSync : Monitor.Protocol Bool where
  ready finished := finished
  signal _ := true
  leave _ := false

/-- The calls of the retry wait and the signal of an execution, in order. -/
def yields (x : Exec) : List What := (x.log.map (·.what)).filter fun w => w == .wait || w == .signal

theorem yields_after (evs : List Ev) (x : Exec) :
    yields (x.after evs) = (evs.map (·.what)).filter (fun w => w == .wait || w == .signal) ++ yields x := by
  simp [yields, Exec.after]

/-- The guard `signal_finished` runs once, after all waits, when the loop is left by `break` or by an
exception; an execution that goes on has only waited. -/
theorem executeQuery_yields (w columns : Nat) (os : List StepRes) : ∀ (retries : UInt32) (st : Stmt)
    (rows : List Row), ∃ k ≤ retries.toNat,
      yields (executeQuery w columns retries st rows os) = List.replicate k .wait ++
        match (executeQuery w columns retries st rows os).out with
        | .done | .error _ => [.signal]
        | .aborted | .running => [] := by
  induction os with
  | nil => intro retries st rows; exact ⟨0, Nat.zero_le _, rfl⟩
  | cons o os ih =>
    intro retries st rows
    have hspec := nextRow_spec retries o.rc
    simp only [executeQuery]
    cases hn : nextRow retries o.rc with
    | none => exact ⟨0, Nat.zero_le _, rfl⟩
    | some s =>
      rw [hn] at hspec
      cases s with
      | done => exact ⟨0, Nat.zero_le _, rfl⟩
      | row =>
        obtain ⟨k, hk, hy⟩ := ih retries (st.step o.rc) (rows ++ [readRow columns o.row])
        exact ⟨k, hk, by simp only [yields_after, hy]; rfl⟩
      | locked =>
        have hpos : 0 < retries.toNat := hspec.2
        have hsub := retries_sub hpos
        obtain ⟨k, hk, hy⟩ := ih (retries - 1) (start (st.step o.rc) true true).1 rows
        simp only [if_neg (show ¬ retries.toNat = 0 by omega), yields_after, hy]
        by_cases hw : 0 < w
        · refine ⟨k + 1, by omega, ?_⟩
          simp only [retryWaitEvents, if_pos hw, List.replicate_succ, List.cons_append]
          cases o.finished with
          | true => rfl
          | false => rfl
        · refine ⟨k, by omega, ?_⟩
          simp only [retryWaitEvents, if_neg hw, List.nil_append]
          rfl

/-- **The retry wait.** For any threads sharing a `db_sync_t` and any interleaving of their steps:
with the mutex free and `finished` set, if a thread is blocked in `wait_for`, some waiter has been
woken and has yet to look at the flag; and the waits that saw `finished` are at most as many as the
executions that finished. -/
theorem retry_wait_signalled {ι : Type} [DecidableEq ι] [Fintype ι] (as : List (Monitor.Act ι))
    (s : Monitor.State ι Bool) (h : exec (Monitor.step dbSync) { data := false } as = some s) :
    (s.mtx = none → s.data = true → (∃ i, s.pc i = .blocked) → ∃ j, s.pc j = .woken) ∧
    s.saws ≤ s.signals := by
  have hI : Monitor.Inv dbSync s := exec_invariant (fun _ => True) (Monitor.Inv dbSync)
    (fun _ _ _ _ hs hstep => Monitor.inv_move (fun _ => rfl) hs (Monitor.step_move hstep))
    (by simp) (Monitor.inv_init dbSync rfl) h
  exact ⟨fun hfree hr hb => hI.woken hfree hr hb, hI.count.le⟩

/-- Two threads wait, the third finishes and wakes the first of them. -/
def twoWaiters : List (Monitor.Act (Fin 3)) :=
  [.waitLock 0, .check 0, .waitLock 1, .check 1, .sigLock 2, .sigSet 2, .notify 2 (some 0), .sigUnlock 2]

theorem retry_wait_signalled_twoWaiters : ∃ s, exec (Monitor.step dbSync) { data := false } twoWaiters = some s ∧
    s.mtx = none ∧ s.data = true ∧ s.pc 1 = .blocked ∧ (∃ j, s.pc j = .woken) ∧ s.saws ≤ s.signals := by
  have hrun : ((exec (Monitor.step dbSync) { data := false } twoWaiters).map fun s => (s.mtx, s.data, s.pc 1)) =
      some (none, true, .blocked) := by decide
  obtain ⟨s, hs, hp⟩ := Option.map_eq_some_iff.1 hrun
  simp only [Prod.mk.injEq] at hp
  obtain ⟨hfree, hfin, hb⟩ := hp
  have hsync := retry_wait_signalled twoWaiters s hs
  exact ⟨s, hs, hfree, hfin, hb, hsync.1 hfree hfin ⟨1, hb⟩, hsync.2⟩

end Acppsrv.Db
