import Acppsrv.Config.Configuration
import Acppsrv.Lib.RoundRobin
/-!
# The worker pools and who gets the connections (application.cpp:15-26, http_server.cpp:71-79, :109-141)

| here | there |
| --- | --- |
| `runPools`     | the loop of `application::run` that fills `main_pools` (:20) |
| `useWorkers`   | `use_workers` after the constructor of `http_server` (http_server.cpp:72-79) |
| `acceptorPool` | `workers.back()`, whose context the acceptor gets (http_server.cpp:73) |
| `server`       | the server on a configuration and the pools made from it |

The accept loop hands out the pools below `use_workers` in turn. A failed accept or address lookup uses a
turn up without a connection, so with none of these the pools of the connections are `turns`.
-/
namespace Acppsrv.Http
open Lib Config

structure WorkerPool where
  name : String
  threads : Int32
  deriving DecidableEq, Repr

/-- `main_pools` after the loop; `hw` is `std::thread::hardware_concurrency()`. -/
def runPools (hw : UInt32) (cfg : Configuration) : List WorkerPool :=
  (List.range' 1 (mainPools cfg).toInt.toNat).map fun i =>
    { name := "main" ++ "." ++ toString i, threads := numThreads hw (cfg.pool .main) }

/-- `has_thread_pools() && thread_pools().accept_pool()`. -/
def acceptPool (cfg : Configuration) : Bool :=
  match cfg.threadPools with
  | some tp => tp.acceptPool
  | none => false

def useWorkers (cfg : Configuration) (workers : List WorkerPool) : Nat :=
  let useWorkers := workers.length
  if 1 < useWorkers ∧ acceptPool cfg = true then useWorkers - 1 else useWorkers

def acceptorPool (workers : List WorkerPool) : Nat := workers.length - 1

section
variable (hw : UInt32) (cfg : Configuration) (headerServer : String) (handlers : String → Option Handler)

def server : SrvCfg :=
  srvCfg (cfg.httpServer.map (·.toHttpServer)) headerServer handlers (useWorkers cfg (runPools hw cfg))

/-- The pools of the connections so far, in the order of the accepts. -/
def poolsOf (s : Srv) : List Nat := s.conns.map (·.pool)

/-- The number of connections placed on pool `p`. -/
def placedOn (s : Srv) (p : Nat) : Nat := (poolsOf s).count p

/-- Some run places a connection on pool `p`. -/
def Eligible (p : Nat) : Prop :=
  ∃ as s, exec (srvStep (server hw cfg headerServer handlers)) {} as = some s ∧ 0 < placedOn s p

end

/-- A failed accept or address lookup (:121, :125). -/
def SrvAct.failed : SrvAct → Bool
  | .accept ok | .endpoint ok => !ok
  | _ => false

/-! ## The number of pools in use -/

theorem mainPools_pos (cfg : Configuration) : 1 ≤ (mainPools cfg).toInt := by
  have h1 : (1 : Int32).toInt = 1 := rfl
  unfold mainPools
  split
  · rw [toInt_max, h1]
    omega
  · rw [h1]

theorem length_runPools (hw : UInt32) (cfg : Configuration) :
    ((runPools hw cfg).length : Int) = (mainPools cfg).toInt := by
  have hpos := mainPools_pos cfg
  simp only [runPools, List.length_map, List.length_range']
  omega

theorem runPools_pos (hw : UInt32) (cfg : Configuration) : 1 ≤ (runPools hw cfg).length := by
  have hpos := mainPools_pos cfg
  have hlen := length_runPools hw cfg
  omega

/-- Never none, and the last one left out exactly when it is reserved. -/
theorem useWorkers_spec (cfg : Configuration) {workers : List WorkerPool} (h : 1 ≤ workers.length) :
    1 ≤ useWorkers cfg workers ∧ useWorkers cfg workers ≤ workers.length ∧
    ∀ p < workers.length, p < useWorkers cfg workers ↔
      ¬(acceptPool cfg = true ∧ 1 < workers.length ∧ p = acceptorPool workers) := by
  unfold useWorkers acceptorPool
  simp only
  split
  · rename_i hg
    refine ⟨by omega, by omega, ?_⟩
    intro p hp
    simp only [hg.1, hg.2, true_and]
    omega
  · rename_i hg
    refine ⟨h, Nat.le_refl _, ?_⟩
    intro p hp
    refine iff_of_true hp ?_
    rintro ⟨ha, hl, -⟩
    exact hg ⟨hl, ha⟩

/-! ## What a step places -/

/-- A step spawns a connection on the pool whose turn it is, fails and uses the turn up, or does neither. -/
theorem srvMove_pools {cfg : SrvCfg} {s s' : Srv} {a : SrvAct} (hm : SrvMove cfg s a s') :
    (poolsOf s' = poolsOf s ++ [s.workerI] ∧ s'.workerI = (s.workerI + 1) % cfg.useWorkers) ∨
    (a.failed = true ∧ poolsOf s' = poolsOf s ∧ s'.workerI = (s.workerI + 1) % cfg.useWorkers) ∨
    (poolsOf s' = poolsOf s ∧ s'.workerI = s.workerI) := by
  cases hm with
  | lock | checkFull | checkFree | register | park | release | resume | accept | endpoint | count | logEndpoint
  | die => exact Or.inr (Or.inr ⟨rfl, rfl⟩)
  | acceptFailed | endpointFailed => exact Or.inr (Or.inl ⟨rfl, rfl, rfl⟩)
  | spawn => exact Or.inl ⟨by simp [poolsOf, toTop], rfl⟩
  -- a connection that goes on stays on its pool
  | conn hc => exact Or.inr (Or.inr ⟨map_set_eq ConnSt.pool hc rfl, rfl⟩)
  | endLock hc | endDec hc | endWake hc | endQuiet hc | endUnlock hc =>
    exact Or.inr (Or.inr ⟨map_set_eq ConnSt.pool hc rfl, rfl⟩)

/-- The turn and the pools that have had one are below `use_workers`. -/
structure PoolsInv (cfg : SrvCfg) (s : Srv) : Prop where
  index : s.workerI < cfg.useWorkers
  placed : ∀ p ∈ poolsOf s, p < cfg.useWorkers

theorem poolsInv_move {cfg : SrvCfg} {s s' : Srv} {a : SrvAct} (hI : PoolsInv cfg s) (hm : SrvMove cfg s a s') :
    PoolsInv cfg s' := by
  obtain ⟨hindex, hplaced⟩ := hI
  have hpos : 0 < cfg.useWorkers := Nat.lt_of_le_of_lt (Nat.zero_le _) hindex
  rcases srvMove_pools hm with ⟨hpools, hworker⟩ | ⟨-, hpools, hworker⟩ | ⟨hpools, hworker⟩
  · refine ⟨hworker ▸ Nat.mod_lt _ hpos, ?_⟩
    intro p hp
    rw [hpools] at hp
    rcases List.mem_append.1 hp with hp | hp
    · exact hplaced p hp
    · obtain rfl : p = s.workerI := by simpa using hp
      exact hindex
  · exact ⟨hworker ▸ Nat.mod_lt _ hpos, hpools ▸ hplaced⟩
  · exact ⟨hworker ▸ hindex, hpools ▸ hplaced⟩

theorem poolsInv_run {cfg : SrvCfg} (hpos : 0 < cfg.useWorkers) {as : List SrvAct} {s : Srv}
    (h : exec (srvStep cfg) {} as = some s) : PoolsInv cfg s :=
  exec_invariant (fun _ => True) (PoolsInv cfg) (fun _ _ _ _ hI hstep => poolsInv_move hI (srvStep_move hstep))
    (by simp) ⟨hpos, by simp [poolsOf]⟩ h

/-- Without a failure the connections are placed by turns. -/
structure ByTurns (cfg : SrvCfg) (s : Srv) : Prop where
  pools : poolsOf s = turns cfg.useWorkers (poolsOf s).length
  index : s.workerI = (poolsOf s).length % cfg.useWorkers

theorem byTurns_move {cfg : SrvCfg} {s s' : Srv} {a : SrvAct} (ha : a.failed = false) (hI : ByTurns cfg s)
    (hm : SrvMove cfg s a s') : ByTurns cfg s' := by
  obtain ⟨hturns, hindex⟩ := hI
  rcases srvMove_pools hm with ⟨hpools, hworker⟩ | ⟨hfailed, -, -⟩ | ⟨hpools, hworker⟩
  · have hlen : (poolsOf s').length = (poolsOf s).length + 1 := by rw [hpools]; simp
    constructor
    · rw [hlen, turns_succ, ← hturns, ← hindex]
      exact hpools
    · rw [hworker, hlen, hindex, next_turn]
  · rw [ha] at hfailed
    cases hfailed
  · exact ⟨by rw [hpools]; exact hturns, by rw [hpools, hworker]; exact hindex⟩

theorem byTurns_run {cfg : SrvCfg} {as : List SrvAct} {s : Srv} (h : exec (srvStep cfg) {} as = some s)
    (has : ∀ a ∈ as, a.failed = false) : ByTurns cfg s :=
  exec_invariant (fun a => a.failed = false) (ByTurns cfg)
    (fun _ _ _ ha hI hstep => byTurns_move ha hI (srvStep_move hstep)) has ⟨rfl, (Nat.zero_mod _).symm⟩ h

/-! ## Every pool in use is eligible -/

/-- A turn that fails, from the top of the loop. -/
def failedTurn : List SrvAct := [.lock, .check, .unlock, .accept false]

def placedTurn : List SrvAct :=
  [.lock, .check, .unlock, .accept true, .endpoint true, .count, .logEndpoint true, .spawn]

/-- A limit of 0 is no limit, so the first connection is always let in. -/
theorem limitReached_idle (http : Option HttpServer) (headerServer : String) (handlers : String → Option Handler)
    (useWorkers : Nat) {s : Srv} (h : s.active = 0) :
    limitReached (srvCfg http headerServer handlers useWorkers) s = false := by
  rw [← Bool.not_eq_true, limitReached_enforced]
  rintro ⟨m, hm, hle⟩
  simp only [enforced] at hm
  obtain ⟨v, hv, rfl⟩ := Option.map_eq_some_iff.1 hm
  have hzero : v = 0 := UInt32.toNat_inj.1 (by rw [h] at hle; exact Nat.le_zero.1 hle)
  cases http with
  | none => cases hv
  | some http =>
    simp only [httpServer] at hv
    split at hv
    · rename_i hne
      cases hv
      exact hne hzero
    · cases hv

section
variable {cfg : SrvCfg} (hfree : ∀ s : Srv, s.active = 0 → limitReached cfg s = false)
include hfree

theorem exec_failedTurn (w : Nat) :
    exec (srvStep cfg) { workerI := w } failedTurn = some { workerI := (w + 1) % cfg.useWorkers } := by
  simp [exec, failedTurn, srvStep, loopStep, toTop, hfree]

theorem exec_failedTurns (n : Nat) :
    exec (srvStep cfg) {} (List.replicate n failedTurn).flatten = some { workerI := n % cfg.useWorkers } := by
  induction n with
  | zero => simp [exec]
  | succ n ih =>
    rw [List.replicate_succ', List.flatten_append, exec_append, ih, Option.bind_some, List.flatten_singleton,
      exec_failedTurn hfree, next_turn]

theorem exec_placedTurn (w : Nat) :
    ∃ s, exec (srvStep cfg) { workerI := w } placedTurn = some s ∧ poolsOf s = [w] := by
  refine ⟨{ active := 1, session := 1, workerI := (w + 1) % cfg.useWorkers, conns := [{ sid := 0, pool := w }] },
    ?_, rfl⟩
  simp [exec, placedTurn, srvStep, loopStep, toTop, hfree]

end

section
variable {hw : UInt32} {cfg : Configuration} {headerServer : String} {handlers : String → Option Handler}

theorem eligible_iff {p : Nat} :
    Eligible hw cfg headerServer handlers p ↔ p < useWorkers cfg (runPools hw cfg) := by
  have hpos := (useWorkers_spec cfg (runPools_pos hw cfg)).1
  constructor
  · rintro ⟨as, s, hs, hplaced⟩
    have hI : PoolsInv (server hw cfg headerServer handlers) s := @poolsInv_run (server ..) hpos as s hs
    exact hI.placed p (List.count_pos_iff.1 hplaced)
  · intro hp
    have hfree (s : Srv) (hs : s.active = 0) : limitReached (server hw cfg headerServer handlers) s = false :=
      limitReached_idle _ _ _ _ hs
    have hmod : p % (server hw cfg headerServer handlers).useWorkers = p := Nat.mod_eq_of_lt hp
    obtain ⟨s, hs, hpools⟩ := exec_placedTurn hfree p
    refine ⟨(List.replicate p failedTurn).flatten ++ placedTurn, s, ?_, by simp [placedOn, hpools]⟩
    rw [exec_append, exec_failedTurns hfree, Option.bind_some, hmod, hs]

/-- **Pools.** In every state of every run the index of the accept loop is that of a pool, one of those in
use. The pools that ever get a connection are all pools, without the acceptor's when there are more and it
is reserved. And as long as no accept or address lookup has failed, no eligible pool is more than one
connection behind another. -/
theorem accept_loop_pools (hw : UInt32) (cfg : Configuration) (headerServer : String)
    (handlers : String → Option Handler) (as : List SrvAct) (s : Srv)
    (h : exec (srvStep (server hw cfg headerServer handlers)) {} as = some s) :
    (1 ≤ useWorkers cfg (runPools hw cfg) ∧ s.workerI < useWorkers cfg (runPools hw cfg) ∧
      useWorkers cfg (runPools hw cfg) ≤ (runPools hw cfg).length) ∧
    (acceptPool cfg = true → 1 < (runPools hw cfg).length → placedOn s (acceptorPool (runPools hw cfg)) = 0) ∧
    (∀ p < (runPools hw cfg).length, Eligible hw cfg headerServer handlers p ↔
      ¬(acceptPool cfg = true ∧ 1 < (runPools hw cfg).length ∧ p = acceptorPool (runPools hw cfg))) ∧
    ((∀ a ∈ as, a.failed = false) → ∀ p q, Eligible hw cfg headerServer handlers p →
      Eligible hw cfg headerServer handlers q → placedOn s p ≤ placedOn s q + 1) := by
  obtain ⟨hpos, hle, hlt⟩ := useWorkers_spec cfg (runPools_pos hw cfg)
  have hI : PoolsInv (server hw cfg headerServer handlers) s := @poolsInv_run (server ..) hpos as s h
  refine ⟨⟨hpos, hI.index, hle⟩, ?_, ?_, ?_⟩
  · intro ha hl
    by_contra hne
    have hmem : acceptorPool (runPools hw cfg) ∈ poolsOf s := List.count_pos_iff.1 (Nat.pos_of_ne_zero hne)
    have hin : acceptorPool (runPools hw cfg) < (runPools hw cfg).length := by
      unfold acceptorPool
      omega
    exact (hlt _ hin).1 (hI.placed _ hmem) ⟨ha, hl, rfl⟩
  · intro p hp
    rw [eligible_iff]
    exact hlt p hp
  · intro has p q hp hq
    have hturns := (byTurns_run h has).pools
    rw [placedOn, placedOn, hturns]
    exact turns_fair (eligible_iff.1 hp) (eligible_iff.1 hq) _

end

/-- Three pools, the last one reserved: three connections go to the first, the second and the first. -/
theorem accept_loop_pools_three : ∃ s,
    exec (srvStep (server 4 { threadPools := some { mainPools := 3, acceptPool := true } } "" fun _ => none)) {}
      (placedTurn ++ placedTurn ++ placedTurn) = some s ∧ poolsOf s = [0, 1, 0] ∧ placedOn s 2 = 0 ∧
    placedOn s 0 ≤ placedOn s 1 + 1 := by
  have hrun : (exec (srvStep (server 4 { threadPools := some { mainPools := 3, acceptPool := true } } ""
      fun _ => none)) {} (placedTurn ++ placedTurn ++ placedTurn)).map poolsOf = some [0, 1, 0] := by decide
  obtain ⟨s, hs, hpools⟩ := Option.map_eq_some_iff.1 hrun
  obtain ⟨-, hacceptor, -, hfair⟩ := accept_loop_pools 4 _ "" _ _ s hs
  refine ⟨s, hs, hpools, hacceptor rfl (by decide), hfair ?_ 0 1 ?_ ?_⟩
  · decide
  · exact eligible_iff.2 (by decide)
  · exact eligible_iff.2 (by decide)

end Acppsrv.Http
