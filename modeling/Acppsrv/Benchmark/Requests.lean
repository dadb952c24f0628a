import Acppsrv.Benchmark.KeyDraws
import Acppsrv.Benchmark.Reports
/-!
# `benchmark requests` (benchmark.cpp:664-818, :906-924)

Every request is a handler on the strand of its partition. It executes its statement, asks `is_done`, and
posts the next request unless TIME has passed. All handlers share the counters and the gate of Reports.lean;
here they are put to work: the threads of `Worker` are the strands, each of which runs one handler at a time.

| here | there |
| --- | --- |
| `Cfg`           | `requests_args`, and `known_keys`; doubles are a type with `<` and `+` |
| `Row`           | a row of `main.data` (:347), without the value |
| `Request`       | a handler posted by `request_get`, `request_insert` or `request_update` (:725-751), with its capture |
| `Request.execute` | the statement of `handle_get`, `handle_insert`, `handle_update` (:759, :782, :792), and the rows it returns |
| `Draw`          | what `get_random` (:678) and `rnd()` return, and the next key of the thread's SHA256 chain |
| `createRequest` | `worker::create_request` (:666) |
| `Pc`            | the place in the handler; `inDone` is in `is_done`, with its `tnow` once it is read |
| `State.now`     | the last reading of the clock by any thread: it is steady |
| `State.log`     | the messages of the handlers (:766-:810), in their order |
| `init`          | `worker::init` (:684); the command calls it with `request_queue_max` |

A table is scanned by rowid: `data` has no index (:347). No statement fails: a handler that throws is left out,
as are the two branches that assert.
-/
namespace Acppsrv.Benchmark.Requests
open Lib

structure Cfg (D : Type) where
  partitions : Nat
  partitions_min : 1 ≤ partitions
  keys : KnownKeys
  inserts : D
  updates : D
  /-- in nanoseconds -/
  time : Int
  /-- as in `doneStep` -/
  info : Bool

@[ext] structure Row where
  key : Key
  hash : Int64
  counter : Int
  deriving DecidableEq, Repr

inductive Request where
  | get (hash : Int64)
  | update (hash : Int64)
  | insert (rec : Rec)
  deriving DecidableEq, Repr

def Request.kind : Request → RequestKind
  | .get _ => .get
  | .update _ => .update
  | .insert _ => .insert

/-- `counter = counter + 1 where hash = ?1`. -/
def Row.bump (hash : Int64) (row : Row) : Row :=
  if row.hash = hash then { row with counter := row.counter + 1 } else row

/-- The rows with a hash. -/
def select (rows : List Row) (hash : Int64) : List Row := rows.filter fun row => row.hash = hash

/-- The table after the statement, and what it returns. -/
def Request.execute (rows : List Row) : Request → List Row × List Row
  | .get hash => (rows, (select rows hash).take 1)
  | .update hash => (rows.map (Row.bump hash), select (rows.map (Row.bump hash)) hash)
  | .insert rec => (rows ++ [⟨rec.key, insertHash rec, 0⟩], [])

structure Draw (D : Type) where
  r : D
  rnd : UInt64
  key : Key

inductive Pc where
  | idle
  /-- the statement is executed -/
  | handled (kind : RequestKind)
  | inDone (tnow : Option Int)
  | returned (done : Bool)
  deriving DecidableEq, Repr

structure Strand where
  queue : List Request := []
  pc : Pc := .idle
  rows : List Row
  deriving DecidableEq, Repr

structure Handled where
  partition : Nat
  request : Request
  result : List Row
  deriving DecidableEq, Repr

structure State where
  strands : List Strand
  wrk : Worker
  t0 : Int
  now : Int
  log : List Handled := []

def State.put (s : State) (p : Nat) (st : Strand) : State := { s with strands := s.strands.set p st }

def State.post (s : State) (p : Nat) (req : Request) : State :=
  { s with strands := s.strands.modify p fun st => { st with queue := st.queue ++ [req] } }

section
variable {D : Type} [LT D] [DecidableLT D] [Add D]

/-- The request made, and its partition; `none` when a partition does not exist. -/
def requestOf (cfg : Cfg D) (d : Draw D) : Option (Nat × Request) :=
  if d.r < cfg.inserts then
    let r := Rec.update cfg.partitions d.key
    some (r.partition, .insert r)
  else if d.r < cfg.inserts + cfg.updates then
    (requestUpdate cfg.partitions cfg.keys d.rnd).map fun l => (l.partition, .update l.hash)
  else (requestGet cfg.partitions cfg.keys d.rnd).map fun l => (l.partition, .get l.hash)

def createRequest (cfg : Cfg D) (s : State) (d : Draw D) : Option State :=
  (requestOf cfg d).map fun x => s.post x.1 x.2

inductive Act (D : Type) where
  /-- the strand of partition `p` begins its next handler -/
  | start (p : Nat)
  /-- a step of `is_done`, or its call -/
  | isDone (p : Nat) (a : DoneAct)
  /-- the handler ends; `d` is for `create_request`, if it is called -/
  | finish (p : Nat) (d : Draw D)

def Act.strand {D : Type} : Act D → Nat
  | .start p | .isDone p _ | .finish p _ => p

def Act.starts {D : Type} : Act D → Bool
  | .start _ => true
  | _ => false

/-- Where a step in `is_done` leads; the clock does not go back. -/
def Pc.next (now : Int) : Pc → DoneAct → Option Pc
  | .handled kind, .enter kind' => if kind' = kind then some (.inDone none) else none
  | .inDone _, .enter _ => none
  | .inDone _, .test (.clock t) => if now ≤ t then some (.inDone (some t)) else none
  | .inDone tnow, _ => some (.inDone tnow)
  | _, _ => none

/-- `is_done` returns when its thread is out of it (:722). -/
def Pc.settle (cfg : Cfg D) (t0 : Int) : DonePc → Pc → Pc
  | .outside, .inDone (some t) => .returned (decide (cfg.time ≤ t - t0))
  | _, pc => pc

def reading (now : Int) : DoneAct → Int
  | .test (.clock t) => t
  | _ => now

def requestsStep (cfg : Cfg D) (s : State) : Act D → Option State
  | .start p =>
    match s.strands[p]? with
    | none => none
    | some st =>
      match st.pc, st.queue with
      | .idle, req :: queue =>
        some (State.put { s with log := s.log ++ [⟨p, req, (req.execute st.rows).2⟩] } p
          { queue := queue, pc := .handled req.kind, rows := (req.execute st.rows).1 })
      | _, _ => none
  | .isDone p a =>
    match s.strands[p]? with
    | none => none
    | some st =>
      match st.pc.next s.now a, doneStep cfg.info s.wrk (p, a) with
      | some pc, some wrk =>
        (wrk.threads[p]?).map fun thread =>
          State.put { s with wrk := wrk, now := reading s.now a } p { st with pc := pc.settle cfg s.t0 thread }
      | _, _ => none
  | .finish p d =>
    match s.strands[p]? with
    | none => none
    | some st =>
      match st.pc with
      | .returned done =>
        let s' := s.put p { st with pc := .idle }
        if done then some s' else createRequest cfg s' d
      | _ => none

/-- The partitions, opened; `rows` are their tables. -/
def opened (cfg : Cfg D) (rows : Nat → List Row) (t0 : Int) : State where
  strands := (List.range cfg.partitions).map fun p => { rows := rows p }
  wrk := initWorker cfg.partitions t0
  t0 := t0
  now := t0

/-- `t0` is read when the requests have been posted. -/
def init (cfg : Cfg D) (rows : Nat → List Row) (requests : Nat) (draws : Nat → Draw D) (t0 : Int) : Option State :=
  (List.range requests).foldlM (fun s r => createRequest cfg s (draws r)) (opened cfg rows t0)

end

/-- `threads.wait()` returns: no handler is left. -/
def Complete (s : State) : Prop := ∀ st ∈ s.strands, st.pc = .idle ∧ st.queue = []

instance (s : State) : Decidable (Complete s) :=
  inferInstanceAs (Decidable (∀ st ∈ s.strands, st.pc = .idle ∧ st.queue = []))

/-! ## What a step can do -/

/-- The steps of `requestsStep` with their guards. -/
inductive Move {D : Type} [LT D] [DecidableLT D] [Add D] (cfg : Cfg D) (s : State) : Act D → State → Prop
  | start {p : Nat} {st : Strand} {req : Request} {queue : List Request} (hp : s.strands[p]? = some st)
      (hpc : st.pc = .idle) (hq : st.queue = req :: queue) :
      Move cfg s (.start p)
        (State.put { s with log := s.log ++ [⟨p, req, (req.execute st.rows).2⟩] } p
          { queue := queue, pc := .handled req.kind, rows := (req.execute st.rows).1 })
  | isDone {p : Nat} {st : Strand} {a : DoneAct} {pc : Pc} {wrk : Worker} {thread : DonePc}
      (hp : s.strands[p]? = some st) (hpc : st.pc.next s.now a = some pc) (hm : DoneMove cfg.info s.wrk p a wrk)
      (ht : wrk.threads[p]? = some thread) :
      Move cfg s (.isDone p a)
        (State.put { s with wrk := wrk, now := reading s.now a } p { st with pc := pc.settle cfg s.t0 thread })
  | stop {p : Nat} {st : Strand} {d : Draw D} (hp : s.strands[p]? = some st) (hpc : st.pc = .returned true) :
      Move cfg s (.finish p d) (s.put p { st with pc := .idle })
  | next {p q : Nat} {st : Strand} {d : Draw D} {req : Request} (hp : s.strands[p]? = some st)
      (hpc : st.pc = .returned false) (hd : requestOf cfg d = some (q, req)) :
      Move cfg s (.finish p d) ((s.put p { st with pc := .idle }).post q req)

theorem requestsStep_move {D : Type} [LT D] [DecidableLT D] [Add D] {cfg : Cfg D} {s s' : State} {a : Act D}
    (h : requestsStep cfg s a = some s') : Move cfg s a s' := by
  cases a with
  | start p =>
    simp only [requestsStep] at h
    split at h
    · cases h
    · rename_i st hp
      split at h
      · rename_i req queue hpc hq
        cases h
        exact .start hp hpc hq
      · cases h
  | isDone p a =>
    simp only [requestsStep] at h
    split at h
    · cases h
    · rename_i st hp
      split at h
      · rename_i pc wrk hpc hstep
        obtain ⟨thread, ht, rfl⟩ := Option.map_eq_some_iff.1 h
        exact .isDone hp hpc (doneStep_move hstep) ht
      · cases h
  | finish p d =>
    simp only [requestsStep] at h
    split at h
    · cases h
    · rename_i st hp
      split at h
      · rename_i done hpc
        cases done with
        | true => cases h; exact .stop hp hpc
        | false =>
          obtain ⟨⟨q, req⟩, hd, rfl⟩ := Option.map_eq_some_iff.1 h
          exact .next hp hpc hd
      · cases h

/-- **Init rule.** What holds when the partitions are open and is kept by a request posted. -/
theorem init_rule {D : Type} [LT D] [DecidableLT D] [Add D] {cfg : Cfg D} {rows : Nat → List Row} {t0 : Int}
    {draws : Nat → Draw D} (P : Nat → State → Prop) (h0 : P 0 (opened cfg rows t0))
    (hpost : ∀ n s q req d, P n s → requestOf cfg d = some (q, req) → P (n + 1) (s.post q req)) {requests : Nat} :
    ∀ {s : State}, init cfg rows requests draws t0 = some s → P requests s := by
  induction requests with
  | zero => intro s h; cases h; exact h0
  | succ n ih =>
    intro s h
    rw [init, List.range_succ, List.foldlM_append] at h
    obtain ⟨s', hs', hlast⟩ := Option.bind_eq_some_iff.1 h
    rw [List.foldlM_cons] at hlast
    obtain ⟨s'', hpost', heq⟩ := Option.bind_eq_some_iff.1 hlast
    obtain ⟨⟨q, req⟩, hd, rfl⟩ := Option.map_eq_some_iff.1 hpost'
    cases heq
    exact hpost n s' q req _ (ih hs') hd

/-- A thread in `is_done` moves by itself: what the others did shows in what it reads only. -/
inductive DoneNext (info : Bool) : DonePc → DoneAct → DonePc → Prop
  | enter (req : RequestKind) : DoneNext info .outside (.enter req) (.counting (increments req))
  | increment (x : Increment) (todo : List Increment) :
      DoneNext info (.counting (x :: todo)) .increment (counted todo)
  | clock (t : Int) : DoneNext info (.testing .outside) (.test (.clock t)) (.testing (.read t))
  | busy (tnow : Int) : DoneNext info (.testing (.read tnow)) (.test .exchange) .outside
  | take (tnow t : Int) : DoneNext info (.testing (.read tnow)) (.test .exchange) (.testing (.took tnow t))
  | pass (tnow t : Int) (h : info = true) :
      DoneNext info (.testing (.took tnow t)) (.test .store) (.loading (fun _ => 0) Count.all)
  | passSilent (tnow t : Int) (h : info = false) :
      DoneNext info (.testing (.took tnow t)) (.test .store) (.clearing (fun _ => 0) Count.all)
  | giveBack (tnow t : Int) : DoneNext info (.testing (.took tnow t)) (.test .store) .outside
  | load (vals vals' : Counts) (c d : Count) (todo : List Count) :
      DoneNext info (.loading vals (c :: d :: todo)) .load (.loading vals' (d :: todo))
  | logged (vals vals' : Counts) (c : Count) : DoneNext info (.loading vals [c]) .load (.clearing vals' Count.all)
  | clear (vals : Counts) (c : Count) (todo : List Count) :
      DoneNext info (.clearing vals (c :: todo)) .clear (cleared vals todo)

theorem done_next {info : Bool} {w w' : Worker} {i : Nat} {a : DoneAct} (hm : DoneMove info w i a w') :
    ∃ pc pc', w.threads[i]? = some pc ∧ w'.threads = w.threads.set i pc' ∧ DoneNext info pc a pc' := by
  cases hm with
  | enter req h => exact ⟨_, _, h, rfl, .enter req⟩
  | @increment x todo h =>
    refine ⟨_, _, h, ?_, .increment x todo⟩
    unfold Worker.go Worker.add
    split
    · rfl
    · rfl
  | test h hm =>
    refine ⟨_, _, h, rfl, ?_⟩
    cases testStep_move hm with
    | clock t => exact .clock t
    | busy ht => exact .busy _
    | take ht => exact .take _ _
    | giveBack ht => exact .giveBack _ _
    | pass ht =>
      cases info with
      | false => exact .passSilent _ _ rfl
      | true => exact .pass _ _ rfl
  | @load vals c todo h =>
    cases todo with
    | nil => exact ⟨_, _, h, rfl, .logged _ _ _⟩
    | cons d todo => exact ⟨_, _, h, rfl, .load _ _ _ _ _⟩
  | clear h => exact ⟨_, _, h, rfl, .clear _ _ _⟩

end Acppsrv.Benchmark.Requests
