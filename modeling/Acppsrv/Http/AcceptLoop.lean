import Acppsrv.Http.ConnLimit
/-!
# The accept loop and the count it keeps (http_server.cpp:109-141, :177-195)

`AcceptOk` is what the server relies on in every state: the accept loop is not over, after an accept
it is on its way back to the top and nothing can hold it up, at the top `active_connections` is the
number of connections spawned and not ended, and every connection decrements once, however its
coroutine is left.

The log message of :130 calls the throwing `conn.remote_endpoint()` after the increment and before
`co_spawn`. When the peer is gone by then, the exception ends the loop and leaves the counter one too
high for good. `accept_loop_counts`: `AcceptOk` holds all along a run iff that call never fails in it.
-/
namespace Acppsrv.Http
open Lib

/-- Steps left to the top after an accept. -/
def LoopPc.back : LoopPc → Nat
  | .accepted => 4
  | .counting => 3
  | .logging _ => 2
  | .spawning _ => 1
  | _ => 0

/-- A step of the accept loop. -/
def SrvAct.ofLoop : SrvAct → Bool
  | .conn _ _ | .endLock _ | .endDec _ | .endCheck _ | .endUnlock _ => false
  | _ => true

structure AcceptOk (cfg : SrvCfg) (s : Srv) : Prop where
  /-- No exception has left the loop. -/
  alive : s.loop ≠ .dead
  /-- After an accept the loop can go on by itself, and reaches the top. -/
  returns : ∃ bs t, bs.length = s.loop.back ∧ (∀ b ∈ bs, b.ofLoop = true) ∧
    exec (srvStep cfg) s bs = some t ∧ (0 < s.loop.back → t.loop = .top)
  /-- Every step it takes on the way brings it nearer, and no other step moves it. -/
  nearer : ∀ a t, srvStep cfg s a = some t → 0 < s.loop.back →
    if a.ofLoop then t.loop.back < s.loop.back else t.loop = s.loop
  count : s.loop = .top → s.active = total live s.conns
  /-- A connection has decremented once it is no longer live, and only once. -/
  once : ∀ i c, s.conns[i]? = some c → s.log.count (.decremented i) + live c = 1
  /-- However the coroutine was left, the guard is next. -/
  guard : ∀ i c, s.conns[i]? = some c → c.co.pc = .left → c.fin = .running → s.mtx = none →
    ∃ t, srvStep cfg s (.endLock i) = some t

/-- Decrements in the log are those of connections that made theirs. -/
structure OnceInv (s : Srv) : Prop where
  conns : ∀ i c, s.conns[i]? = some c → s.log.count (.decremented i) + live c = 1
  range : ∀ i, s.conns.length ≤ i → s.log.count (.decremented i) = 0

theorem onceInv_move {cfg : SrvCfg} {s s' : Srv} {a : SrvAct} (hI : OnceInv s) (hm : SrvMove cfg s a s') :
    OnceInv s' := by
  have hconns := hI.conns
  have hrange := hI.range
  cases hm with
  | lock | checkFull | checkFree | park | release | accept | acceptFailed | endpoint | endpointFailed
  | count | logEndpoint | die | resume => exact ⟨hconns, hrange⟩
  | register h => exact ⟨by simpa using hconns, by simpa using hrange⟩
  | spawn h =>
    refine ⟨forall_snoc hconns ?_, fun i hi => hrange i ?_⟩
    · simp [toTop, live, hrange s.conns.length (Nat.le_refl _)]
    · simp [toTop] at hi; omega
  | @conn i ca c st co hc hm =>
    exact ⟨forall_set (fun j d _ hd => hconns j d hd) (hconns i c hc), by simpa using hrange⟩
  | @endLock i c hc hf hl hn =>
    have := hconns i c hc
    exact ⟨forall_set (fun j d _ hd => hconns j d hd) (by simpa [live, hf] using this), by simpa using hrange⟩
  | @endDec i c hc hf =>
    have h1 := hconns i c hc
    have hi := (List.getElem?_eq_some_iff.1 hc).1
    simp only [live, hf] at h1
    refine ⟨forall_set (fun j d hj hd => ?_) ?_, fun j hj => ?_⟩
    · simpa [List.count_append, List.count_singleton, Ne.symm hj] using hconns j d hd
    · simp [live, List.count_append, h1]
    · simp only [List.length_set] at hj
      have hij : i ≠ j := by omega
      simpa [List.count_append, List.count_singleton, hij] using hrange j hj
  | @endWake i n c hc hf hw | @endQuiet i c hc hf hw =>
    have h1 := hconns i c hc
    refine ⟨forall_set (fun j d _ hd => by simpa using hconns j d hd) ?_, by simpa using hrange⟩
    simpa [live, hf] using h1
  | @endUnlock i c hc hf =>
    have h1 := hconns i c hc
    exact ⟨forall_set (fun j d _ hd => hconns j d hd) (by simpa [live, hf] using h1), by simpa using hrange⟩

/-- From each place after an accept, the rest of the iteration with the address lookups succeeding. -/
def restOfLoop : LoopPc → List SrvAct
  | .accepted => [.endpoint true, .count, .logEndpoint true, .spawn]
  | .counting => [.count, .logEndpoint true, .spawn]
  | .logging _ => [.logEndpoint true, .spawn]
  | .spawning _ => [.spawn]
  | _ => []

theorem restOfLoop_length (l : LoopPc) : (restOfLoop l).length = l.back := by cases l <;> rfl

theorem restOfLoop_ofLoop (l : LoopPc) : ∀ b ∈ restOfLoop l, b.ofLoop = true := by
  cases l <;> simp [restOfLoop, SrvAct.ofLoop]

theorem restOfLoop_top (cfg : SrvCfg) (s : Srv) : ∃ t, exec (srvStep cfg) s (restOfLoop s.loop) = some t ∧
    (0 < s.loop.back → t.loop = .top) := by
  cases h : s.loop <;>
    simp [restOfLoop, LoopPc.back, exec, srvStep, loopStep, toTop, h]

theorem nearer_move {cfg : SrvCfg} {s t : Srv} {a : SrvAct} (hm : SrvMove cfg s a t) (hb : 0 < s.loop.back) :
    if a.ofLoop then t.loop.back < s.loop.back else t.loop = s.loop := by
  cases hm with
  | lock h _ | checkFull h _ | checkFree h _ | register h | park h | release h | resume h _ | accept h
  | acceptFailed h => simp [h, LoopPc.back] at hb
  | endpoint h | endpointFailed h | count h | logEndpoint h | die h | spawn h =>
    simp [h, SrvAct.ofLoop, LoopPc.back, toTop]
  | conn | endLock | endDec | endWake | endQuiet | endUnlock => simp [SrvAct.ofLoop]

theorem endLock_enabled (cfg : SrvCfg) (s : Srv) {i : Nat} {c : ConnSt} (hc : s.conns[i]? = some c)
    (hl : c.co.pc = .left) (hf : c.fin = .running) (hm : s.mtx = none) :
    ∃ t, srvStep cfg s (.endLock i) = some t := by
  simp [srvStep, endStep, hc, hl, hf, hm]

/-- Only the throwing lookup ends the loop. -/
theorem alive_move {cfg : SrvCfg} {s t : Srv} {a : SrvAct} (hm : SrvMove cfg s a t) (hs : s.loop ≠ .dead)
    (ha : a ≠ .logEndpoint false) : t.loop ≠ .dead := by
  cases hm with
  | die h => exact absurd rfl ha
  | lock | checkFull | checkFree | register | park | release | resume | accept | acceptFailed | endpoint
  | endpointFailed | count | logEndpoint | spawn => simp [toTop]
  | conn | endLock | endDec | endWake | endQuiet | endUnlock => exact hs

/-- The invariant behind `AcceptOk`; it does not depend on the limit. -/
structure LoopInv (s : Srv) : Prop where
  alive : s.loop ≠ .dead
  count : CountInv s
  once : OnceInv s

theorem loopInv_init : LoopInv {} := ⟨by simp, rfl, by simp, by simp⟩

theorem LoopInv.acceptOk {s : Srv} (h : LoopInv s) (cfg : SrvCfg) : AcceptOk cfg s where
  alive := h.alive
  returns := by
    obtain ⟨t, ht, htop⟩ := restOfLoop_top cfg s
    exact ⟨restOfLoop s.loop, t, restOfLoop_length _, restOfLoop_ofLoop _, ht, htop⟩
  nearer a t hstep hb := nearer_move (srvStep_move hstep) hb
  count hl := by
    have hc := h.count
    simpa [CountInv, hl, LoopPc.counted] using hc
  once := h.once.conns
  guard i c hc hl hf hm := endLock_enabled cfg s hc hl hf hm

/-- **The accept loop.** All states of a run are as they should be iff the address lookup of the log
message never fails in it. -/
theorem accept_loop_counts (cfg : SrvCfg) (as : List SrvAct) (s : Srv) (h : exec (srvStep cfg) {} as = some s) :
    (∀ bs t, bs <+: as → exec (srvStep cfg) {} bs = some t → AcceptOk cfg t) ↔
      .logEndpoint false ∉ as := by
  constructor
  · -- the step after the failed lookup leaves the loop dead
    intro hall hmem
    obtain ⟨as1, as2, rfl⟩ := List.append_of_mem hmem
    obtain ⟨t, t', ht, hstep, -⟩ := exec_split h
    have hrun : exec (srvStep cfg) {} (as1 ++ [.logEndpoint false]) = some t' := by
      simp [exec_append, ht, exec, hstep]
    have hok := hall _ t' ⟨as2, by simp⟩ hrun
    cases srvStep_move hstep with
    | die hl => exact hok.alive rfl
  · intro hno bs t hbs hrun
    refine LoopInv.acceptOk ?_ cfg
    refine exec_invariant (fun a => a ≠ .logEndpoint false) LoopInv ?_ ?_ loopInv_init hrun
    · intro u a u' ha hu hstep
      have hm := srvStep_move hstep
      exact ⟨alive_move hm hu.alive ha, countInv_move hu.count hm, onceInv_move hu.once hm⟩
    · rintro a hmem rfl
      exact hno (hbs.subset hmem)

/-- A connection accepted, handled to its end by an I/O error, and the loop back at its top. -/
def oneConnection : List SrvAct :=
  [.lock, .check, .unlock, .accept true, .endpoint true, .count, .logEndpoint true, .spawn, .conn 0 .run,
   .conn 0 (.header (.error (.other 1))), .endLock 0, .endDec 0, .endCheck 0, .endUnlock 0]

theorem accept_loop_counts_oneConnection : ∃ s, exec (srvStep oneAtATime) {} oneConnection = some s ∧
    s.active = 0 ∧ AcceptOk oneAtATime s := by
  have hrun : ((exec (srvStep oneAtATime) {} oneConnection).map fun s => s.active) = some 0 := by decide
  obtain ⟨s, hs, hp⟩ := Option.map_eq_some_iff.1 hrun
  refine ⟨s, hs, hp, (accept_loop_counts oneAtATime oneConnection s hs).2 ?_ _ s List.prefix_rfl hs⟩
  simp [oneConnection]

/-! ## The lookup that fails -/

/-- The peer is there for `remote_endpoint(ec)` and gone for the one in the log message. -/
def peerGone : List SrvAct :=
  [.lock, .check, .unlock, .accept true, .endpoint true, .count, .logEndpoint false]

/-- The loop never comes back from an exception. -/
theorem dead_forever {cfg : SrvCfg} {s t : Srv} {bs : List SrvAct} (hs : s.loop = .dead)
    (h : exec (srvStep cfg) s bs = some t) : t.loop = .dead := by
  refine exec_invariant (fun _ => True) (fun u => u.loop = .dead) ?_ (by simp) hs h
  intro u a u' _ hu hstep
  cases srvStep_move hstep with
  | conn | endLock | endDec | endWake | endQuiet | endUnlock => exact hu
  | lock h _ | checkFull h _ | checkFree h _ | register h | park h | release h | resume h _ | accept h
  | acceptFailed h | endpoint h | endpointFailed h | count h | logEndpoint h | die h | spawn h =>
    simp [hu] at h

theorem peer_gone_leaks_slot : ∃ s, exec (srvStep oneAtATime) {} peerGone = some s ∧
    s.active = 1 ∧ total live s.conns = 0 ∧ ¬ AcceptOk oneAtATime s ∧
    ∀ bs t, exec (srvStep oneAtATime) s bs = some t → t.loop ≠ .top := by
  have hrun : ((exec (srvStep oneAtATime) {} peerGone).map fun s => (s.active, s.conns.length, s.loop)) =
      some (1, 0, .dead) := by decide
  obtain ⟨s, hs, hp⟩ := Option.map_eq_some_iff.1 hrun
  simp only [Prod.mk.injEq, List.length_eq_zero_iff] at hp
  obtain ⟨ha, hc, hl⟩ := hp
  refine ⟨s, hs, ha, by simp [hc], fun hok => hok.alive hl, fun bs t ht => ?_⟩
  simp [dead_forever hl ht]

end Acppsrv.Http
