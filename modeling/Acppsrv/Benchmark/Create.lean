import Mathlib.Data.Nat.Basic
import Acppsrv.Lib.Run
import Acppsrv.Lib.Locals
/-!
# `benchmark create` (benchmark.cpp:150-534)

Records are generated by handlers. `worker::create_record` makes one and posts its handler to the
strand of its partition; `partition::handle_create` inserts it, counts it and posts another one or
stops. A strand runs its handlers one after the other, those of different partitions run on any
thread at the same time; they share the atomic counter `worker::records` and the queues.

| here | there |
| --- | --- |
| `Args`                        | `create_args`, with what the command line is checked for (:473-485) |
| `partitionKey`, `hashKey`, `Rec.update` | :51, :59, `db_record::update` (:296) |
| `Part`                        | `partition` (:184); its connection is the list of statements executed on it |
| `startHandler`, `Act.count`, `Act.finish` | `handle_create` (:392) up to `is_done`, `is_done` (:454), the rest of it |
| `createRecord`                | `worker::create_record` (:435); the key is the next one of the thread's SHA256 chain |
| `init`                        | `worker::init(requests)` with the `requests` of :527 |

SQLite rejects a BEGIN inside a transaction and a COMMIT outside of one; the `sqlite::error` then
leaves the handler. No other statement and no write to the keys file (:405) fails here. The asserts are
compiled in (CMakeLists.txt:104).
-/
namespace Acppsrv.Benchmark
open Lib

abbrev Bytes := List UInt8

def requestQueueMax : Nat := 1000
def transactionSz : UInt32 := 100

structure Args where
  records : UInt64
  partitions : Nat
  records_min : 1 ≤ records.toNat
  partitions_min : 1 ≤ partitions
  partitions_max : partitions ≤ 256

/-! ## Records -/

/-- A SHA256 digest. -/
structure Key where
  bytes : Bytes
  size : bytes.length = 32
  deriving DecidableEq, Repr

/-- `partition_key` (:51). -/
def partitionKey (key : Bytes) : Nat :=
  match key with
  | [] => 0
  | b :: _ => b.toNat

/-- `hash_key` (:59): the next four bytes, in the machine's (little-endian) order. -/
def hashKey (key : Bytes) : UInt32 :=
  match key with
  | _ :: a :: b :: c :: d :: _ =>
    UInt32.ofNat (a.toNat + 2 ^ 8 * b.toNat + 2 ^ 16 * c.toNat + 2 ^ 24 * d.toNat)
  | _ => 0

/-- `db_record`, without the value it is padded with. -/
structure Rec where
  partition : Nat
  hash : UInt32
  key : Key
  deriving DecidableEq, Repr

/-- `db_record::update` (:296) once the key is there. -/
def Rec.update (partitions : Nat) (key : Key) : Rec :=
  { partition := partitionKey key.bytes % partitions, hash := hashKey key.bytes, key := key }

/-- The bytes of a `uint32_t`. -/
def hashBytes (h : UInt32) : Bytes :=
  [h.toUInt8, (h >>> 8).toUInt8, (h >>> 16).toUInt8, (h >>> 24).toUInt8]

/-- What `handle_create` writes to the keys file (:405-407). -/
def keysEntry (rec : Rec) : Bytes := UInt8.ofNat rec.partition :: hashBytes rec.hash

/-! ## Partitions -/

inductive Sql where
  | begin
  | insert
  | commit
  deriving DecidableEq, Repr

/-- What a statement does to the transaction of its connection: closed, or open with so many inserts.
A rejected one does nothing. -/
def txStep : Option Nat → Sql → Option Nat
  | none, .begin => some 0
  | some k, .begin => some k
  | tx, .insert => tx.map (· + 1)
  | _, .commit => none

/-- The transaction open after the statements. -/
def openTx (sql : List Sql) : Option Nat := sql.foldl txStep none

inductive Pc where
  | idle
  /-- record inserted, before `is_done` -/
  | inserted
  /-- after `is_done`, which returned `done` -/
  | decided (done : Bool)
  deriving DecidableEq, Repr

structure Part where
  /-- the handlers posted to the strand -/
  queue : List Rec := []
  pc : Pc := .idle
  curTx : UInt32 := 0
  sql : List Sql := []
  rows : List Rec := []
  keysFile : Bytes := []
  /-- a statement was rejected, and an exception left the handler -/
  failed : Bool := false
  deriving DecidableEq, Repr

structure State where
  parts : List Part
  /-- `worker::records` -/
  records : UInt64 := 0
  deriving DecidableEq, Repr

def State.put (s : State) (p : Nat) (part : Part) : State := { s with parts := s.parts.set p part }

/-- The insert and the keys file (:403-410). -/
def insertRecord (part : Part) (rec : Rec) : Part :=
  { part with
    pc := .inserted
    sql := part.sql ++ [.insert]
    rows := part.rows ++ [rec]
    keysFile := part.keysFile ++ keysEntry rec }

/-- `handle_create` up to the call of `is_done` (:398-410). -/
def startHandler (part : Part) (rec : Rec) : Part :=
  if part.curTx = 0 then
    if (openTx part.sql).isSome then { part with sql := part.sql ++ [.begin], failed := true }
    else insertRecord { part with sql := part.sql ++ [.begin] } rec
  else insertRecord part rec

/-- `worker::create_record` (:435). -/
def createRecord (args : Args) (s : State) (key : Key) : State :=
  let r := Rec.update args.partitions key
  { s with parts := s.parts.modify r.partition fun part => { part with queue := part.queue ++ [r] } }

inductive Act where
  /-- the strand of partition `p` begins its next handler -/
  | start (p : Nat)
  | count (p : Nat)
  /-- the handler ends; `key` is the one `create_record` takes, if it is called -/
  | finish (p : Nat) (key : Key)
  deriving DecidableEq, Repr

/-- The rest of `handle_create` (:411-421). -/
def finishHandler (args : Args) (s : State) (p : Nat) (part : Part) (done : Bool) (key : Key) : State :=
  if done then
    s.put p { part with pc := .idle, sql := part.sql ++ [.commit],
                        failed := part.failed || (openTx part.sql).isNone }
  else if part.curTx + 1 = transactionSz then
    match openTx part.sql with
    | none =>
      s.put p { part with pc := .idle, curTx := part.curTx + 1, sql := part.sql ++ [.commit], failed := true }
    | some _ =>
      createRecord args (s.put p { part with pc := .idle, curTx := 0, sql := part.sql ++ [.commit] }) key
  else createRecord args (s.put p { part with pc := .idle, curTx := part.curTx + 1 }) key

def createStep (args : Args) (s : State) : Act → Option State
  | .start p =>
    match s.parts[p]? with
    | none => none
    | some part =>
      match part.pc, part.queue with
      | .idle, rec :: queue =>
        some (s.put p (startHandler { part with queue := queue } rec))
      | _, _ => none
  | .count p =>
    match s.parts[p]? with
    | none => none
    | some part =>
      match part.pc with
      | .inserted =>
        let r := s.records + 1
        some ({ s with records := r }.put p { part with pc := .decided (decide (args.records ≤ r)) })
      | _ => none
  | .finish p key =>
    match s.parts[p]? with
    | none => none
    | some part =>
      match part.pc with
      | .decided done => some (finishHandler args s p part done key)
      | _ => none

/-- The state when the threads start: `requests` handlers are posted. -/
def init (args : Args) (keys : Nat → Key) : State :=
  (List.range (min requestQueueMax args.records.toNat)).foldl (fun s r => createRecord args s (keys r))
    { parts := List.replicate args.partitions {} }

/-- `threads.wait()` returns: no handler is left. -/
def Complete (s : State) : Prop := ∀ part ∈ s.parts, part.pc = .idle ∧ part.queue = []

instance (s : State) : Decidable (Complete s) :=
  inferInstanceAs (Decidable (∀ part ∈ s.parts, part.pc = .idle ∧ part.queue = []))

/-- The records of all partitions. -/
def inserted (s : State) : Nat := total (fun part : Part => part.rows.length) s.parts

/-- `is_done` for the `k`-th record counted: the counter is 64 bits wide. -/
def isDone (args : Args) (k : Nat) : Bool := decide (args.records.toNat ≤ k % 2 ^ 64)

/-! ## What a step can do -/

/-- The steps of `createStep` with their guards. -/
inductive Move (args : Args) (s : State) : Act → State → Prop
  | rejectBegin {p : Nat} {part : Part} {rec : Rec} {queue : List Rec} (hp : s.parts[p]? = some part)
      (hpc : part.pc = .idle) (hq : part.queue = rec :: queue) (hc : part.curTx = 0)
      (ho : (openTx part.sql).isSome = true) :
      Move args s (.start p)
        (s.put p { part with queue := queue, sql := part.sql ++ [.begin], failed := true })
  | begin {p : Nat} {part : Part} {rec : Rec} {queue : List Rec} (hp : s.parts[p]? = some part)
      (hpc : part.pc = .idle) (hq : part.queue = rec :: queue) (hc : part.curTx = 0)
      (ho : openTx part.sql = none) :
      Move args s (.start p)
        (s.put p (insertRecord { part with queue := queue, sql := part.sql ++ [.begin] } rec))
  | insert {p : Nat} {part : Part} {rec : Rec} {queue : List Rec} (hp : s.parts[p]? = some part)
      (hpc : part.pc = .idle) (hq : part.queue = rec :: queue) (hc : part.curTx ≠ 0) :
      Move args s (.start p) (s.put p (insertRecord { part with queue := queue } rec))
  | count {p : Nat} {part : Part} (hp : s.parts[p]? = some part) (hpc : part.pc = .inserted) :
      Move args s (.count p)
        ({ s with records := s.records + 1 }.put p
          { part with pc := .decided (decide (args.records ≤ s.records + 1)) })
  | stop {p : Nat} {key : Key} {part : Part} (hp : s.parts[p]? = some part) (hpc : part.pc = .decided true) :
      Move args s (.finish p key)
        (s.put p { part with pc := .idle, sql := part.sql ++ [.commit],
                             failed := part.failed || (openTx part.sql).isNone })
  | rejectCommit {p : Nat} {key : Key} {part : Part} (hp : s.parts[p]? = some part)
      (hpc : part.pc = .decided false) (hf : part.curTx + 1 = transactionSz) (ho : openTx part.sql = none) :
      Move args s (.finish p key)
        (s.put p { part with pc := .idle, curTx := part.curTx + 1, sql := part.sql ++ [.commit], failed := true })
  | commit {p : Nat} {key : Key} {part : Part} (hp : s.parts[p]? = some part)
      (hpc : part.pc = .decided false) (hf : part.curTx + 1 = transactionSz)
      (ho : (openTx part.sql).isSome = true) :
      Move args s (.finish p key)
        (createRecord args (s.put p { part with pc := .idle, curTx := 0, sql := part.sql ++ [.commit] }) key)
  | next {p : Nat} {key : Key} {part : Part} (hp : s.parts[p]? = some part)
      (hpc : part.pc = .decided false) (hf : part.curTx + 1 ≠ transactionSz) :
      Move args s (.finish p key)
        (createRecord args (s.put p { part with pc := .idle, curTx := part.curTx + 1 }) key)

theorem createStep_move {args : Args} {s s' : State} {a : Act} (h : createStep args s a = some s') :
    Move args s a s' := by
  cases a with
  | start p =>
    simp only [createStep] at h
    split at h
    · cases h
    · rename_i part hp
      split at h
      · rename_i rec queue hpc hq
        cases h
        by_cases hc : part.curTx = 0
        · cases ho : openTx part.sql with
          | none =>
            have hs : startHandler { part with queue := queue } rec =
                insertRecord { part with queue := queue, sql := part.sql ++ [.begin] } rec := by
              simp [startHandler, hc, ho]
            rw [hs]; exact .begin hp hpc hq hc ho
          | some k =>
            have hs : startHandler { part with queue := queue } rec =
                { part with queue := queue, sql := part.sql ++ [.begin], failed := true } := by
              simp [startHandler, hc, ho]
            rw [hs]; exact .rejectBegin hp hpc hq hc (by simp [ho])
        · have hs : startHandler { part with queue := queue } rec = insertRecord { part with queue := queue } rec := by
            simp [startHandler, hc]
          rw [hs]; exact .insert hp hpc hq hc
      · cases h
  | count p =>
    simp only [createStep] at h
    split at h
    · cases h
    · rename_i part hp
      split at h
      · rename_i hpc; cases h; exact .count hp hpc
      · cases h
  | finish p key =>
    simp only [createStep] at h
    split at h
    · cases h
    · rename_i part hp
      split at h
      · rename_i done hpc
        cases h
        unfold finishHandler
        cases done with
        | true => exact .stop hp hpc
        | false =>
          simp only [Bool.false_eq_true, ↓reduceIte]
          split
          · rename_i hf
            cases ho : openTx part.sql with
            | none => exact .rejectCommit hp hpc hf ho
            | some k => exact .commit hp hpc hf (by simp [ho])
          · rename_i hf; exact .next hp hpc hf
      · cases h

/-- `create_record` appends to the queue of one partition. -/
theorem createRecord_eq {args : Args} {s : State} (key : Key) (hlen : s.parts.length = args.partitions) :
    ∃ part, s.parts[(Rec.update args.partitions key).partition]? = some part ∧
      createRecord args s key = s.put (Rec.update args.partitions key).partition
        { part with queue := part.queue ++ [Rec.update args.partitions key] } := by
  have hlt : (Rec.update args.partitions key).partition < s.parts.length := by
    rw [hlen]; exact Nat.mod_lt _ args.partitions_min
  refine ⟨_, List.getElem?_eq_getElem hlt, ?_⟩
  simp only [createRecord, State.put, State.mk.injEq, and_true]
  apply List.ext_getElem?
  intro j
  rw [List.getElem?_modify, List.getElem?_set]
  by_cases hj : (Rec.update args.partitions key).partition = j
  · rw [← hj]
    simp [hlt]
  · simp [hj]

@[simp] theorem put_length (s : State) (p : Nat) (part : Part) : (s.put p part).parts.length = s.parts.length := by
  simp [State.put]

@[simp] theorem put_records (s : State) (p : Nat) (part : Part) : (s.put p part).records = s.records := rfl

@[simp] theorem createRecord_records (args : Args) (s : State) (key : Key) :
    (createRecord args s key).records = s.records := rfl

@[simp] theorem createRecord_length (args : Args) (s : State) (key : Key) :
    (createRecord args s key).parts.length = s.parts.length := by
  simp [createRecord]

/-- What `create_record` does not touch. -/
theorem createRecord_get {args : Args} {s : State} {key : Key} {j : Nat} {part : Part}
    (h : (createRecord args s key).parts[j]? = some part) :
    ∃ part₀ queue, s.parts[j]? = some part₀ ∧ part = { part₀ with queue := queue } := by
  simp only [createRecord, List.getElem?_modify] at h
  obtain ⟨part₀, h₀, rfl⟩ := Option.map_eq_some_iff.1 h
  by_cases hj : (Rec.update args.partitions key).partition = j
  · rw [if_pos hj]; exact ⟨part₀, _, h₀, rfl⟩
  · rw [if_neg hj]; exact ⟨part₀, part₀.queue, h₀, rfl⟩

end Acppsrv.Benchmark
