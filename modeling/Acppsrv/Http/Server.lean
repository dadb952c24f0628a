import Acppsrv.Lib.Locals
import Acppsrv.Http.Transcript
/-!
# The server: the accept loop and its connections (http_server.cpp:34-165)

One coroutine accepts (`accept_loop`), any number of others handle connections, and they run on
different threads. A step of the system is one step of one of them between two shared accesses, so a
list of actions is any interleaving. Shared are the atomic `active_connections`, the handler slot
`active_connections_hnd` with its mutex, and the statistics counters.

| here | there |
| --- | --- |
| `LoopPc`                 | the place of `accept_loop` (:109) with `conn_limit` (:49) inlined |
| `Fin`                    | the place of `active_connection_end` (:144), called by the guard `at_end` (:193) however the coroutine ends |
| `Srv.queue`              | the handlers posted to the acceptor's executor and not yet run (:156) |
| `logEndpoint false`      | the throwing `conn.remote_endpoint()` of the log message (:131) fails |

A parked handler is named by its number, counted over the run. An exception leaving `accept_loop`
ends it (`co_spawn_handler` rethrows it, `thread_pool::run` restarts only the `io_context`): `dead`.
-/
namespace Acppsrv.Http
open Lib

/-- What `http_server` is configured with, as far as connections go. -/
structure SrvCfg extends ConnCfg where
  /-- `std::optional<uint32_t> max_connections`; empty means unlimited. -/
  maxConnections : Option UInt32
  useWorkers : Nat

inductive LoopPc where
  /-- top of the loop, before `conn_limit` locks the mutex -/
  | top
  /-- in `conn_limit`, holding the mutex, before the test (:58) -/
  | checking
  /-- limit reached: before the handler is stored (:41); the mutex moved into `conn_limit_init` -/
  | registering
  /-- handler stored, before `lck.unlock()` (:42) -/
  | registered (h : Nat)
  /-- limit not reached: before the lock goes with `init` -/
  | releasing
  /-- suspended until handler `h` is run -/
  | parked (h : Nat)
  /-- suspended in `async_accept` (:117) -/
  | accepting
  /-- accepted, before `conn.remote_endpoint(ec)` (:124) -/
  | accepted
  /-- before `++active_connections` (:128) -/
  | counting
  /-- counted, before the log message is built (:130) -/
  | logging (sid : Nat)
  /-- before `co_spawn` (:135) -/
  | spawning (sid : Nat)
  /-- ended by an exception -/
  | dead
  deriving DecidableEq, Repr

/-- How far the end of a connection is (:149-158). -/
inductive Fin where
  | running
  | locked
  | decremented
  | checked
  | ended
  deriving DecidableEq, Repr

inductive Owner where
  | loop
  | conn (i : Nat)
  deriving DecidableEq, Repr

/-- A spawned connection, on worker pool `pool`. -/
structure ConnSt where
  sid : Nat
  pool : Nat
  co : Conn := {}
  fin : Fin := .running
  deriving Inhabited

inductive SrvEv where
  /-- handler `h` stored in `active_connections_hnd` -/
  | registered (h : Nat)
  /-- connection `i` decremented `active_connections` -/
  | decremented (i : Nat)
  /-- connection `i` made the test of :151, and posted the handler given -/
  | ended (i : Nat) (posted : Option Nat)
  deriving DecidableEq, Repr

structure Srv where
  /-- `std::atomic<size_t>`; every unit of it is a coroutine in memory, so it stays far below `2^64` -/
  active : Nat := 0
  mtx : Option Owner := none
  hnd : Option Nat := none
  nextHnd : Nat := 0
  queue : List Nat := []
  loop : LoopPc := .top
  workerI : Nat := 0
  session : Nat := 0
  conns : List ConnSt := []
  stat : Stat := {}
  log : List SrvEv := []

inductive SrvAct where
  | lock
  | check
  | register
  | unlock
  | resume
  | accept (ok : Bool)
  | endpoint (ok : Bool)
  | count
  | logEndpoint (ok : Bool)
  | spawn
  | conn (i : Nat) (a : Act)
  | endLock (i : Nat)
  | endDec (i : Nat)
  | endCheck (i : Nat)
  | endUnlock (i : Nat)

/-- `max_connections && active_connections >= *max_connections` (:58). -/
def limitReached (cfg : SrvCfg) (s : Srv) : Bool :=
  match cfg.maxConnections with
  | some m => decide (m.toNat ≤ s.active)
  | none => false

/-- The handler the test of :151 finds and posts. -/
def wakes (cfg : SrvCfg) (s : Srv) : Option Nat :=
  match cfg.maxConnections with
  | some m => if s.active < m.toNat then s.hnd else none
  | none => none

/-- `worker_i = (worker_i + 1) % use_workers` and back to the top (:111). -/
def toTop (cfg : SrvCfg) (s : Srv) : Srv :=
  { s with loop := .top, workerI := (s.workerI + 1) % cfg.useWorkers }

def loopStep (cfg : SrvCfg) (s : Srv) : SrvAct → Option Srv
  | .lock =>
    if s.loop = .top ∧ s.mtx = none then some { s with loop := .checking, mtx := some .loop } else none
  | .check =>
    if s.loop = .checking then
      some { s with loop := if limitReached cfg s then .registering else .releasing }
    else none
  | .register =>
    if s.loop = .registering then
      some { s with loop := .registered s.nextHnd, hnd := some s.nextHnd, nextHnd := s.nextHnd + 1,
                    log := s.log ++ [.registered s.nextHnd] }
    else none
  | .unlock =>
    match s.loop with
    | .registered h => some { s with loop := .parked h, mtx := none }
    | .releasing => some { s with loop := .accepting, mtx := none }
    | _ => none
  | .resume =>
    match s.loop with
    | .parked h => if h ∈ s.queue then some { s with loop := .accepting, queue := s.queue.erase h } else none
    | _ => none
  | .accept ok =>
    if s.loop = .accepting then some (if ok then { s with loop := .accepted } else toTop cfg s) else none
  | .endpoint ok =>
    if s.loop = .accepted then some (if ok then { s with loop := .counting } else toTop cfg s) else none
  | .count =>
    if s.loop = .counting then
      some { s with loop := .logging s.session, active := s.active + 1, session := s.session + 1 }
    else none
  | .logEndpoint ok =>
    match s.loop with
    | .logging sid => some { s with loop := if ok then .spawning sid else .dead }
    | _ => none
  | .spawn =>
    match s.loop with
    | .spawning sid => some (toTop cfg { s with conns := s.conns ++ [{ sid := sid, pool := s.workerI }] })
    | _ => none
  | _ => none

/-- `active_connection_end` by connection `i`, whose state is `c`. -/
def endStep (cfg : SrvCfg) (s : Srv) (c : ConnSt) : SrvAct → Option Srv
  | .endLock i =>
    match c.fin, c.co.pc with
    | .running, .left =>
      if s.mtx = none then
        some { s with mtx := some (.conn i), conns := s.conns.set i { c with fin := .locked } }
      else none
    | _, _ => none
  | .endDec i =>
    if c.fin = .locked then
      some { s with active := s.active - 1, conns := s.conns.set i { c with fin := .decremented },
                    log := s.log ++ [.decremented i] }
    else none
  | .endCheck i =>
    if c.fin = .decremented then
      let s' := { s with conns := s.conns.set i { c with fin := .checked },
                         log := s.log ++ [.ended i (wakes cfg s)] }
      match wakes cfg s with
      | some h => some { s' with hnd := none, queue := s.queue ++ [h] }
      | none => some s'
    else none
  | .endUnlock i =>
    if c.fin = .checked then
      some { s with mtx := none, conns := s.conns.set i { c with fin := .ended } }
    else none
  | _ => none

/-- A step of the server. -/
def srvStep (cfg : SrvCfg) (s : Srv) (a : SrvAct) : Option Srv :=
  match a with
  | .conn i ca =>
    match s.conns[i]? with
    | none => none
    | some c =>
      (connStep cfg.toConnCfg c.sid s.stat c.co ca).map fun (st, co) =>
        { s with stat := st, conns := s.conns.set i { c with co := co } }
  | .endLock i | .endDec i | .endCheck i | .endUnlock i =>
    match s.conns[i]? with
    | none => none
    | some c => endStep cfg s c a
  | _ => loopStep cfg s a

/-! ## What a step can do -/

/-- The steps of `srvStep` with their guards. -/
inductive SrvMove (cfg : SrvCfg) (s : Srv) : SrvAct → Srv → Prop
  | lock (h : s.loop = .top) (hm : s.mtx = none) :
      SrvMove cfg s .lock { s with loop := .checking, mtx := some .loop }
  | checkFull (h : s.loop = .checking) (hl : limitReached cfg s = true) :
      SrvMove cfg s .check { s with loop := .registering }
  | checkFree (h : s.loop = .checking) (hl : limitReached cfg s = false) :
      SrvMove cfg s .check { s with loop := .releasing }
  | register (h : s.loop = .registering) :
      SrvMove cfg s .register
        { s with loop := .registered s.nextHnd, hnd := some s.nextHnd, nextHnd := s.nextHnd + 1,
                 log := s.log ++ [.registered s.nextHnd] }
  | park {n : Nat} (h : s.loop = .registered n) :
      SrvMove cfg s .unlock { s with loop := .parked n, mtx := none }
  | release (h : s.loop = .releasing) :
      SrvMove cfg s .unlock { s with loop := .accepting, mtx := none }
  | resume {n : Nat} (h : s.loop = .parked n) (hq : n ∈ s.queue) :
      SrvMove cfg s .resume { s with loop := .accepting, queue := s.queue.erase n }
  | accept (h : s.loop = .accepting) : SrvMove cfg s (.accept true) { s with loop := .accepted }
  | acceptFailed (h : s.loop = .accepting) : SrvMove cfg s (.accept false) (toTop cfg s)
  | endpoint (h : s.loop = .accepted) : SrvMove cfg s (.endpoint true) { s with loop := .counting }
  | endpointFailed (h : s.loop = .accepted) : SrvMove cfg s (.endpoint false) (toTop cfg s)
  | count (h : s.loop = .counting) :
      SrvMove cfg s .count
        { s with loop := .logging s.session, active := s.active + 1, session := s.session + 1 }
  | logEndpoint {sid : Nat} (h : s.loop = .logging sid) :
      SrvMove cfg s (.logEndpoint true) { s with loop := .spawning sid }
  | die {sid : Nat} (h : s.loop = .logging sid) :
      SrvMove cfg s (.logEndpoint false) { s with loop := .dead }
  | spawn {sid : Nat} (h : s.loop = .spawning sid) :
      SrvMove cfg s .spawn (toTop cfg { s with conns := s.conns ++ [{ sid := sid, pool := s.workerI }] })
  | conn {i : Nat} {ca : Act} {c : ConnSt} {st : Stat} {co : Conn} (hc : s.conns[i]? = some c)
      (hm : Move cfg.toConnCfg c.sid s.stat c.co ca st co) :
      SrvMove cfg s (.conn i ca) { s with stat := st, conns := s.conns.set i { c with co := co } }
  | endLock {i : Nat} {c : ConnSt} (hc : s.conns[i]? = some c) (hf : c.fin = .running)
      (hl : c.co.pc = .left) (hm : s.mtx = none) :
      SrvMove cfg s (.endLock i)
        { s with mtx := some (.conn i), conns := s.conns.set i { c with fin := .locked } }
  | endDec {i : Nat} {c : ConnSt} (hc : s.conns[i]? = some c) (hf : c.fin = .locked) :
      SrvMove cfg s (.endDec i)
        { s with active := s.active - 1, conns := s.conns.set i { c with fin := .decremented },
                 log := s.log ++ [.decremented i] }
  | endWake {i n : Nat} {c : ConnSt} (hc : s.conns[i]? = some c) (hf : c.fin = .decremented)
      (hw : wakes cfg s = some n) :
      SrvMove cfg s (.endCheck i)
        { s with hnd := none, queue := s.queue ++ [n], conns := s.conns.set i { c with fin := .checked },
                 log := s.log ++ [.ended i (some n)] }
  | endQuiet {i : Nat} {c : ConnSt} (hc : s.conns[i]? = some c) (hf : c.fin = .decremented)
      (hw : wakes cfg s = none) :
      SrvMove cfg s (.endCheck i)
        { s with conns := s.conns.set i { c with fin := .checked }, log := s.log ++ [.ended i none] }
  | endUnlock {i : Nat} {c : ConnSt} (hc : s.conns[i]? = some c) (hf : c.fin = .checked) :
      SrvMove cfg s (.endUnlock i) { s with mtx := none, conns := s.conns.set i { c with fin := .ended } }

theorem loopStep_move {cfg : SrvCfg} {s s' : Srv} {a : SrvAct} (h : loopStep cfg s a = some s') :
    SrvMove cfg s a s' := by
  cases a with
  | lock =>
    simp only [loopStep] at h
    split at h
    · rename_i hg; cases h; exact .lock hg.1 hg.2
    · cases h
  | check =>
    simp only [loopStep] at h
    split at h
    · cases h
      cases hl : limitReached cfg s with
      | true => exact .checkFull (by assumption) hl
      | false => exact .checkFree (by assumption) hl
    · cases h
  | register =>
    simp only [loopStep] at h
    split at h
    · cases h; exact .register (by assumption)
    · cases h
  | unlock =>
    simp only [loopStep] at h
    split at h
    · cases h; exact .park (by assumption)
    · cases h; exact .release (by assumption)
    · cases h
  | resume =>
    simp only [loopStep] at h
    split at h
    · split at h
      · cases h; exact .resume (by assumption) (by assumption)
      · cases h
    · cases h
  | accept ok =>
    simp only [loopStep] at h
    split at h
    · cases h; cases ok
      · exact .acceptFailed (by assumption)
      · exact .accept (by assumption)
    · cases h
  | endpoint ok =>
    simp only [loopStep] at h
    split at h
    · cases h; cases ok
      · exact .endpointFailed (by assumption)
      · exact .endpoint (by assumption)
    · cases h
  | count =>
    simp only [loopStep] at h
    split at h
    · cases h; exact .count (by assumption)
    · cases h
  | logEndpoint ok =>
    simp only [loopStep] at h
    split at h
    · cases h; cases ok
      · exact .die (by assumption)
      · exact .logEndpoint (by assumption)
    · cases h
  | spawn =>
    simp only [loopStep] at h
    split at h
    · cases h; exact .spawn (by assumption)
    · cases h
  | conn | endLock | endDec | endCheck | endUnlock => simp [loopStep] at h

theorem endStep_move {cfg : SrvCfg} {s s' : Srv} {c : ConnSt} {i : Nat} {a : SrvAct}
    (ha : a ∈ [SrvAct.endLock i, .endDec i, .endCheck i, .endUnlock i]) (hc : s.conns[i]? = some c)
    (h : endStep cfg s c a = some s') : SrvMove cfg s a s' := by
  simp only [List.mem_cons, List.not_mem_nil, or_false] at ha
  rcases ha with rfl | rfl | rfl | rfl
  · simp only [endStep] at h
    split at h
    · split at h
      · cases h; exact .endLock hc (by assumption) (by assumption) (by assumption)
      · cases h
    · cases h
  · simp only [endStep] at h
    split at h
    · cases h; exact .endDec hc (by assumption)
    · cases h
  · simp only [endStep] at h
    split at h
    · split at h
      · rename_i hw; cases h; rw [hw]; exact .endWake hc (by assumption) hw
      · rename_i hw; cases h; rw [hw]; exact .endQuiet hc (by assumption) hw
    · cases h
  · simp only [endStep] at h
    split at h
    · cases h; exact .endUnlock hc (by assumption)
    · cases h

theorem srvStep_move {cfg : SrvCfg} {s s' : Srv} {a : SrvAct} (h : srvStep cfg s a = some s') :
    SrvMove cfg s a s' := by
  unfold srvStep at h
  split at h
  · split at h
    · cases h
    · rename_i c hc
      obtain ⟨⟨st, co⟩, hm, rfl⟩ := Option.map_eq_some_iff.1 h
      exact .conn hc (connStep_move hm)
  all_goals first
    | exact loopStep_move h
    | (split at h
       · cases h
       · rename_i hc; exact endStep_move (by simp) hc h)

end Acppsrv.Http
