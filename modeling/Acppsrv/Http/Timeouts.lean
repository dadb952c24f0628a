import Mathlib.Tactic.Ring
import Acppsrv.Config.Time
import Acppsrv.Http.Transcript
/-!
# The timeouts of a connection (http_server.cpp:92-93, :167-175, :183-307, :309-315)

The timer of the `tcp_stream` is set before each operation, and an operation that is not over when it expires is
cancelled. Here the connection has a clock: an action says when its operation was over or cancelled (`done`), and when
the coroutine was resumed, later by the delay of the pool's threads.

| here | there |
| --- | --- |
| `timeouts`             | `idle_timeout`, `keepalive_timeout` in the constructor (:92-93), in nanoseconds |
| `beforeRequestTimeout` | :167, with the time for which the timer is set |
| `inRequestTimeout`     | :309 |
| `Timed.expiry`         | of the stream's timer; none after `expires_never` |

`connection_in_time`: an operation is bounded by its own timeout, whatever timers were set before it, and the write of a
response by none; and the time a connection waits for its client is bounded by the requests and the pieces of their
bodies. The header of a request is one operation, its body is as many as there are pieces.
-/
namespace Acppsrv.Http
open Lib

structure Timeouts where
  idle : Option Nat := none
  keepalive : Option Nat := none
  deriving DecidableEq, Repr

def timeouts : Option Config.HttpServer → Timeouts
  | none => {}
  | some http => { idle := Config.getTime http.idleTimeout, keepalive := Config.getTime http.keepaliveTimeout }

/-- `expires_after`, or `expires_never` without a timeout. -/
def expiresAfter (timeout : Option Nat) (now : Nat) : Option Nat := timeout.map (now + ·)

def beforeRequestTimeout (tm : Timeouts) (first : Bool) (now : Nat) : Option Nat :=
  expiresAfter (if first then tm.idle else tm.keepalive) now

def inRequestTimeout (tm : Timeouts) (now : Nat) : Option Nat := expiresAfter tm.idle now

structure Timed where
  conn : Conn := {}
  /-- when the coroutine moved last -/
  now : Nat := 0
  expiry : Option Nat := none
  /-- the time in operations, but for the writes of responses -/
  waited : Nat := 0

structure TimedAct where
  stat : Stat
  act : Act
  done : Nat
  resumed : Nat

/-- The timer when the coroutine begins its next operation: each call stands before the operation. -/
def setTimer (tm : Timeouts) (c : Conn) (now : Nat) (expiry : Option Nat) : Option Nat :=
  match c.pc.operation with
  | some .readHeader => beforeRequestTimeout tm (c.reqN = 0) now
  | some .write100 | some .readSome | some .write413 => inRequestTimeout tm now
  | some .writeResponse => none
  | none => expiry

/-- How long the client was waited for. -/
def Timed.wait (s : Timed) (done : Nat) : Nat :=
  match s.conn.pc.operation with
  | none | some .writeResponse => 0
  | _ => done - s.now

/-- An operation is over when its timer expires. -/
def Timed.expired (s : Timed) (done : Nat) : Bool := s.conn.pc.operation.isSome && s.expiry.any (· < done)

def timedStep (cfg : ConnCfg) (sid : Nat) (tm : Timeouts) (s : Timed) (a : TimedAct) : Option Timed :=
  if s.now ≤ a.done ∧ a.done ≤ a.resumed ∧ s.expired a.done = false then
    (connStep₁ cfg sid s.conn (a.stat, a.act)).map fun c =>
      { conn := c, now := a.resumed, expiry := setTimer tm c a.resumed s.expiry, waited := s.waited + s.wait a.done }
  else none

/-- The time an operation may take; `reqN` requests have been read. -/
def Timeouts.of (tm : Timeouts) (reqN : Nat) : Operation → Option Nat
  | .readHeader => if reqN = 0 then tm.idle else tm.keepalive
  | .write100 | .readSome | .write413 => tm.idle
  | .writeResponse => none

/-- The pieces of bodies that were read. -/
def chunks (log : List Ev) : Nat := log.countP fun
  | .chunk _ => true
  | _ => false

/-- What the timeouts do for a connection. -/
structure InTime (cfg : ConnCfg) (sid : Nat) (tm : Timeouts) (s : Timed) : Prop where
  /-- The coroutine goes on by every action it has, at any time that its own timeout allows the operation. -/
  operation : ∀ a, (timedStep cfg sid tm s a).isSome = true ↔
    (connStep₁ cfg sid s.conn (a.stat, a.act)).isSome = true ∧ s.now ≤ a.done ∧ a.done ≤ a.resumed ∧
      ∀ op t, s.conn.pc.operation = some op → tm.of s.conn.reqN op = some t → a.done ≤ s.now + t
  /-- The client is waited for once for each header, once more in each request, and once for each piece of a body. -/
  waited : ∀ i k, tm.idle = some i → tm.keepalive = some k →
    s.waited ≤ (s.conn.reqN + 1) * max i k + (s.conn.reqN + chunks s.conn.log + 1) * i
  limit : ∀ n, cfg.keepaliveRequests = some n → s.conn.reqN ≤ n.toNat

/-! ## Each operation has its own timeout -/

/-- The timer is the one of the operation, whatever came before. -/
def TimerSet (tm : Timeouts) (s : Timed) : Prop :=
  ∀ op, s.conn.pc.operation = some op → s.expiry = expiresAfter (tm.of s.conn.reqN op) s.now

section
variable {cfg : ConnCfg} {sid : Nat} {tm : Timeouts} {s s' : Timed} {a : TimedAct}

theorem timedStep_cases (h : timedStep cfg sid tm s a = some s') :
    s.now ≤ a.done ∧ a.done ≤ a.resumed ∧ s.expired a.done = false ∧
    ∃ c, connStep₁ cfg sid s.conn (a.stat, a.act) = some c ∧
      s' = { conn := c, now := a.resumed, expiry := setTimer tm c a.resumed s.expiry,
             waited := s.waited + s.wait a.done } := by
  unfold timedStep at h
  split_ifs at h with hg
  obtain ⟨c, hc, rfl⟩ := Option.map_eq_some_iff.1 h
  exact ⟨hg.1, hg.2.1, hg.2.2, c, hc, rfl⟩

theorem timerSet_step (h : timedStep cfg sid tm s a = some s') : TimerSet tm s' := by
  obtain ⟨-, -, -, c, -, rfl⟩ := timedStep_cases h
  intro op hop
  have hop' : c.pc.operation = some op := hop
  show setTimer tm c a.resumed s.expiry = expiresAfter (tm.of c.reqN op) a.resumed
  unfold setTimer
  rw [hop']
  cases op with
  | readHeader =>
    unfold beforeRequestTimeout Timeouts.of
    by_cases hfirst : c.reqN = 0
    · simp [hfirst]
    · simp [hfirst]
  | writeResponse => rfl
  | _ => rfl

/-- Only its own timeout ends an operation. -/
theorem TimerSet.expired_iff (hT : TimerSet tm s) (done : Nat) : s.expired done = false ↔
    ∀ op t, s.conn.pc.operation = some op → tm.of s.conn.reqN op = some t → done ≤ s.now + t := by
  unfold Timed.expired
  cases hop : s.conn.pc.operation with
  | none => simp
  | some op =>
    have hexp := hT op hop
    rw [hexp, expiresAfter]
    constructor
    · intro h op' t hop' ht
      obtain rfl := Option.some.inj hop'
      simpa [ht] using h
    · intro h
      cases ht : tm.of s.conn.reqN op with
      | none => rfl
      | some t => simpa using h op t rfl ht

/-! ## The time waited -/

/-- The clock does not change what the coroutine does. -/
theorem timed_projects : ∀ {as : List TimedAct} {s s' : Timed}, exec (timedStep cfg sid tm) s as = some s' →
    exec (connStep₁ cfg sid) s.conn (as.map fun a => (a.stat, a.act)) = some s'.conn
  | [], s, s', h => by
    cases h
    rfl
  | a :: as, s, s', h => by
    obtain ⟨s₁, hs₁, hrest⟩ := Option.bind_eq_some_iff.1 h
    have ih := timed_projects hrest
    obtain ⟨-, -, -, c, hc, rfl⟩ := timedStep_cases hs₁
    simp only [List.map_cons, exec, hc, Option.bind_some]
    exact ih

/-- What `r` requests and `ch` pieces of bodies may cost. -/
def allowance (i k r ch : Nat) : Nat := r * max i k + (r + ch) * i

theorem allowance_header (i k r ch : Nat) : allowance i k (r + 1) ch = allowance i k r ch + max i k + i := by
  unfold allowance
  ring

theorem allowance_chunk (i k r ch : Nat) : allowance i k r (ch + 1) = allowance i k r ch + i := by
  unfold allowance
  ring

/-- The time waited so far. With the header comes the allowance for the 100-continue; an operation that fails and the 413
are paid at the end. -/
def Waited (i k : Nat) (c : Conn) (w : Nat) : Prop :=
  match c.pc with
  | .gotHeader _ _ | .write100 _ _ => w + i ≤ allowance i k c.reqN (chunks c.log)
  | .write413 => w ≤ allowance i k c.reqN (chunks c.log) + max i k
  | .left => w ≤ allowance i k c.reqN (chunks c.log) + max i k + i
  | .spawned | .readHeader | .readBody _ | .gotBody _ | .handling _ _ | .writing _ =>
    w ≤ allowance i k c.reqN (chunks c.log)

theorem Waited.le {i k w : Nat} {c : Conn} (h : Waited i k c w) :
    w ≤ (c.reqN + 1) * max i k + (c.reqN + chunks c.log + 1) * i := by
  have hsum : (c.reqN + 1) * max i k + (c.reqN + chunks c.log + 1) * i =
      allowance i k c.reqN (chunks c.log) + max i k + i := by
    unfold allowance
    ring
  rw [hsum]
  unfold Waited at h
  split at h <;> omega

/-- How long an operation may keep the coroutine waiting. -/
def patience (i k : Nat) : Option Operation → Nat
  | some .readHeader => max i k
  | some .write100 | some .readSome | some .write413 => i
  | some .writeResponse | none => 0

theorem wait_le (hT : TimerSet tm s) {i k done : Nat} (hi : tm.idle = some i) (hk : tm.keepalive = some k)
    (hdone : s.expired done = false) : s.wait done ≤ patience i k s.conn.pc.operation := by
  have hle := (hT.expired_iff done).1 hdone
  unfold Timed.wait
  cases hop : s.conn.pc.operation with
  | none => exact Nat.zero_le _
  | some op =>
    cases op with
    | writeResponse => exact Nat.zero_le _
    | readHeader =>
      show done - s.now ≤ max i k
      by_cases hfirst : s.conn.reqN = 0
      · have := hle .readHeader i hop (by simp [Timeouts.of, hfirst, hi])
        omega
      · have := hle .readHeader k hop (by simp [Timeouts.of, hfirst, hk])
        omega
    | write100 =>
      have := hle .write100 i hop hi
      show done - s.now ≤ i
      omega
    | readSome =>
      have := hle .readSome i hop hi
      show done - s.now ≤ i
      omega
    | write413 =>
      have := hle .write413 i hop hi
      show done - s.now ≤ i
      omega

@[simp] theorem chunks_append (a b : List Ev) : chunks (a ++ b) = chunks a + chunks b := by
  simp [chunks]

theorem waited_bodyLoop {i k w : Nat} {c : Conn} {req : Request} {done : Bool}
    (h : w ≤ allowance i k c.reqN (chunks c.log)) : Waited i k (bodyLoop c req done) w := by
  cases done with
  | true => exact h
  | false => exact h

/-- **Every step stays within the allowance**, when its operation took no longer than `p`. -/
theorem waited_move {i k w p : Nat} {st st' : Stat} {c c' : Conn} {act : Act} (h : Waited i k c w)
    (hm : Move cfg sid st c act st' c') (hp : p ≤ patience i k c.pc.operation) : Waited i k c' (w + p) := by
  unfold Waited at h
  cases hm with
  | start hpc =>
    simp only [hpc, Pc.operation, patience, Nat.le_zero] at h hp
    simpa [Waited, hp, chunks] using h
  | header hpc =>
    simp only [hpc, Pc.operation, patience] at h hp
    show w + p + i ≤ allowance i k (c.reqN + 1) (chunks (c.log ++ _))
    rw [allowance_header, chunks_append]
    show w + p + i ≤ allowance i k c.reqN (chunks c.log) + max i k + i
    omega
  | continue100 hpc =>
    simp only [hpc, Pc.operation, patience, Nat.le_zero] at h hp
    simpa [Waited, hp, chunks] using h
  | toBody hpc =>
    simp only [hpc, Pc.operation, patience] at h hp
    exact waited_bodyLoop (by omega)
  | wrote100 hpc =>
    simp only [hpc, Pc.operation, patience] at h hp
    exact waited_bodyLoop (c := { c with ec := none, stage := .write100Continue }) (by simpa using by omega)
  | chunk hpc =>
    simp only [hpc, Pc.operation, patience] at h hp
    refine waited_bodyLoop ?_
    show w + p ≤ allowance i k c.reqN (chunks (c.log ++ [.chunk c.reqN]))
    rw [chunks_append]
    show w + p ≤ allowance i k c.reqN (chunks c.log + 1)
    rw [allowance_chunk]
    omega
  | body hpc | exchange hpc | respond hpc =>
    simp only [hpc, Pc.operation, patience, Nat.le_zero] at h hp
    simpa [Waited, hp, chunks] using h
  | load hpc | answer hpc =>
    simp only [hpc, Pc.operation, patience, Nat.le_zero] at h hp
    simpa [Waited, hp] using h
  | throw hpc | close hpc hk =>
    simp only [hpc, Pc.operation, patience, Nat.le_zero] at h hp
    simp only [Waited, hp, chunks_append]
    show w + 0 ≤ allowance i k c.reqN (chunks c.log) + max i k + i
    omega
  | again hpc hk =>
    simp only [hpc, Pc.operation, patience, Nat.le_zero] at h hp
    simpa [Waited, hp, chunks] using h
  | @abort _ e op hpc hop ha he =>
    -- the operation that failed
    have hwait : w + p ≤ allowance i k c.reqN (chunks c.log) + max i k := by
      rcases hpc with hpc | ⟨req, done, hpc⟩ | ⟨req, hpc⟩ | ⟨resp, hpc⟩ <;>
        simp only [hpc, Pc.operation, patience] at h hp <;> omega
    unfold abortConnection
    split
    · simpa [Waited, chunks] using hwait
    · simp only [Waited, chunks_append]
      show w + p ≤ allowance i k c.reqN (chunks c.log) + max i k + i
      omega
  | wrote413 hpc =>
    simp only [hpc, Pc.operation, patience] at h hp
    show w + p ≤ allowance i k c.reqN (chunks c.log) + max i k + i
    omega

structure TimedInv (tm : Timeouts) (s : Timed) : Prop where
  timer : TimerSet tm s
  waited : ∀ i k, tm.idle = some i → tm.keepalive = some k → Waited i k s.conn s.waited

theorem timedInv_step (hI : TimedInv tm s) (h : timedStep cfg sid tm s a = some s') : TimedInv tm s' := by
  refine ⟨timerSet_step h, ?_⟩
  intro i k hi hk
  obtain ⟨-, -, hdone, c, hc, rfl⟩ := timedStep_cases h
  obtain ⟨⟨st', c''⟩, hm, rfl⟩ := Option.map_eq_some_iff.1 hc
  exact waited_move (hI.waited i k hi hk) (connStep_move hm) (wait_le hI.timer hi hk hdone)

end

/-- **Timeouts.** In every run of a connection with a clock: an operation may take its own timeout, whatever timers were
set before it, and the response any time; and the connection waits for its client at most
`(requests + 1) * max idle keepalive + (requests + pieces + 1) * idle`. -/
theorem connection_in_time (cfg : ConnCfg) (sid : Nat) (http : Option Config.HttpServer) (as : List TimedAct)
    (s : Timed) (h : exec (timedStep cfg sid (timeouts http)) {} as = some s) :
    InTime cfg sid (timeouts http) s := by
  have hI : TimedInv (timeouts http) s := by
    refine exec_invariant (fun _ => True) (TimedInv (timeouts http)) (fun _ _ _ _ hs hstep => timedInv_step hs hstep)
      (by simp) ⟨?_, ?_⟩ h
    · intro op hop
      cases hop
    · intro i k _ _
      exact Nat.zero_le _
  refine ⟨?_, fun i k hi hk => (hI.waited i k hi hk).le, (connInv_run (timed_projects h)).limit⟩
  intro a
  rw [← hI.timer.expired_iff]
  unfold timedStep
  split_ifs with hg
  · rw [Option.isSome_map]
    exact ⟨fun hc => ⟨hc, hg⟩, fun hc => hc.1⟩
  · exact iff_of_false (by simp) fun hc => hg hc.2

/-- Ten seconds for a piece of a request, one for the next request. -/
def tenAndOne : Config.HttpServer := { idleTimeout := ⟨0x41200000⟩, keepaliveTimeout := ⟨0x3F800000⟩ }

/-- A client that takes eight seconds for each half of its body, and then closes. -/
def slowClient : List TimedAct :=
  [⟨{}, .run, 0, 0⟩, ⟨{}, .header (.ok (⟨.post, "/echo", true, none, none, none, []⟩, false)), 0, 0⟩, ⟨{}, .run, 0, 0⟩,
   ⟨{}, .readSome (.ok ([1], false)), 8000000000, 8000000000⟩,
   ⟨{}, .readSome (.ok ([2], true)), 16000000000, 16000000000⟩, ⟨{}, .run, 16000000000, 16000000000⟩,
   ⟨{}, .run, 16000000000, 16000000000⟩]

theorem connection_in_time_slowClient : ∃ s,
    exec (timedStep echoTwice 7 (timeouts (some tenAndOne))) {} slowClient = some s ∧
    s.waited = 16000000000 ∧ chunks s.conn.log = 2 ∧ InTime echoTwice 7 (timeouts (some tenAndOne)) s := by
  have htm : timeouts (some tenAndOne) = ⟨some 10000000000, some 1000000000⟩ := by decide +kernel
  have hrun : ((exec (timedStep echoTwice 7 ⟨some 10000000000, some 1000000000⟩) {} slowClient).map fun s =>
      (s.waited, chunks s.conn.log)) = some (16000000000, 2) := by decide
  rw [← htm] at hrun
  obtain ⟨s, hs, heq⟩ := Option.map_eq_some_iff.1 hrun
  obtain ⟨hw, hch⟩ := Prod.mk.inj heq
  exact ⟨s, hs, hw, hch, connection_in_time echoTwice 7 (some tenAndOne) slowClient s hs⟩

end Acppsrv.Http
