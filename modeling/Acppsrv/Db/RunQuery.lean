import Mathlib.Logic.Function.Basic
import Acppsrv.Lib.Run
import Acppsrv.Db.Sqlite
/-!
# `db_server::run_query` on one database thread (db_server.cpp:19-94, :152-190)

The outcome of every SQLite call of a request is in its `Call`, so a list of calls is any history of
requests with any trace of outcomes. A trace that ends before DONE or an error leaves the thread in
`execute_query`; it then takes no further request.

Each use of the statement leaves an `Ev` with the statement as the call left it, and so do the call of
the retry wait, the block in it and `signal_finished`. `Used` puts the statement back into the thread's
table: the state of all statements of the thread at that moment.
-/
namespace Acppsrv.Db
open Lib

/-- `std::map<std::string, V>`, as far as `find` and `emplace` see it. -/
abbrev Map (V : Type) := String → Option V

/-- `db_server::db_def_t` (db_server.hpp:46). -/
structure DbDef where
  conn : Nat
  file : String
  queries : Map Query := fun _ => none
  retries : UInt32 := 0
  /-- nanoseconds -/
  retryWait : Nat := 0
  /-- the `db_sync_t` it points to -/
  sync : Option Nat := none

/-- Where a use of a statement or a step of the retry protocol stands in the source. -/
inductive What where
  /-- `q.start(restart)` -/
  | start (restart : Bool)
  /-- the bind of `args(i)` -/
  | bind (i : Nat)
  | columnCount
  /-- `sqlite3_step` -/
  | step (rc : Nat)
  /-- the `get_column` calls of one row -/
  | columns
  /-- `cond.wait_for` is called (:62); it tests `finished` before it blocks -/
  | wait
  /-- blocked in `cond.wait_for`: `finished` was not set -/
  | blocked
  /-- `signal_finished` (:48) -/
  | signal
  deriving DecidableEq, Repr

structure Ev where
  what : What
  stmt : Stmt
  deriving DecidableEq, Repr

/-- How `execute_query` ended. -/
inductive Exit where
  | done
  /-- `sqlite::error`, with `sqlite3_errmsg` -/
  | error (errmsg : String)
  /-- the assertion of :58 failed -/
  | aborted
  /-- it has not ended -/
  | running
  deriving DecidableEq, Repr

structure Exec where
  stmt : Stmt
  log : List Ev
  rows : List Row
  out : Exit
  deriving DecidableEq, Repr

def Exec.after (evs : List Ev) (x : Exec) : Exec := { x with log := evs ++ x.log }

@[simp] theorem after_rows (evs : List Ev) (x : Exec) : (x.after evs).rows = x.rows := rfl

@[simp] theorem after_out (evs : List Ev) (x : Exec) : (x.after evs).out = x.out := rfl

@[simp] theorem after_log (evs : List Ev) (x : Exec) : (x.after evs).log = evs ++ x.log := rfl

/-- What the SQLite calls of one request return. -/
structure Sqlite where
  /-- whether `sqlite3_clear_bindings` returns OK -/
  clearOk : Bool := true
  /-- whether the value for parameter `i + 1` is accepted -/
  bindOk : Nat → Bool := fun _ => true
  /-- `sqlite3_errmsg` after one of these failed -/
  errmsg : String := ""
  columnCount : Nat := 0
  steps : List StepRes

/-- `db_server::bind` (:19). -/
def bind (st : Stmt) (i : Nat) (v : Value) (accepted : Bool) : Option Stmt :=
  match v with
  | .notSet | .vNull => bindNull st i accepted
  | .vInt64 v => bindInt64 st i v accepted
  | .vDouble bits => bindDouble st i bits accepted
  | .vText v => bindText st i v accepted
  | .vBlob v => bindBlob st i v accepted

/-- The loop over the arguments (:177); false when a bind throws. -/
def bindArgs (ok : Nat → Bool) : Nat → List Value → Stmt → Stmt × List Ev × Bool
  | _, [], st => (st, [], true)
  | i, v :: vs, st =>
    match bind st i v (ok i) with
    | none => (st, [⟨.bind i, st⟩], false)
    | some st' =>
      let (st'', evs, done) := bindArgs ok (i + 1) vs st'
      (st'', ⟨.bind i, st'⟩ :: evs, done)

/-- The switch of :74. -/
def toValue : ColumnValue → Value
  | .null => .vNull
  | .int64 v => .vInt64 v
  | .double bits => .vDouble bits
  | .string b => .vText b
  | .blob b => .vBlob b

/-- The loop over the columns (:71). -/
def readRow (columns : Nat) (row : List SqlVal) : Row :=
  (List.range columns).map fun c => toValue (getColumn row c)

/-- The block of :60-65, on the value of `sync->finished` it finds. -/
def retryWaitEvents (retryWait : Nat) (finished : Bool) (st : Stmt) : List Ev :=
  if 0 < retryWait then
    if finished then [⟨.wait, st⟩] else [⟨.wait, st⟩, ⟨.blocked, st⟩]
  else []

/-- The three ways through it. -/
theorem retryWaitEvents_cases (retryWait : Nat) (finished : Bool) (st : Stmt) :
    (retryWait = 0 ∧ retryWaitEvents retryWait finished st = []) ∨
    (finished = true ∧ retryWaitEvents retryWait finished st = [⟨.wait, st⟩]) ∨
    (retryWait ≠ 0 ∧ finished = false ∧ retryWaitEvents retryWait finished st = [⟨.wait, st⟩, ⟨.blocked, st⟩]) := by
  unfold retryWaitEvents
  by_cases hw : 0 < retryWait
  · rw [if_pos hw]
    cases finished with
    | true => exact Or.inr (Or.inl ⟨rfl, rfl⟩)
    | false => exact Or.inr (Or.inr ⟨by omega, rfl, rfl⟩)
  · rw [if_neg hw]
    exact Or.inl ⟨by omega, rfl⟩

/-- The loop of `db_server::execute_query` (:53), on the outcomes of its steps. -/
def executeQuery (retryWait columns : Nat) : UInt32 → Stmt → List Row → List StepRes → Exec
  | _, st, rows, [] => ⟨st, [], rows, .running⟩
  | retries, st, rows, o :: os =>
    let st := st.step o.rc
    match nextRow retries o.rc with
    | none => ⟨st, [⟨.step o.rc, st⟩, ⟨.signal, st⟩], rows, .error o.errmsg⟩
    | some .done => ⟨st, [⟨.step o.rc, st⟩, ⟨.signal, st⟩], rows, .done⟩
    | some .locked =>
      if retries.toNat = 0 then ⟨st, [⟨.step o.rc, st⟩], rows, .aborted⟩
      else
        -- the wait comes before the reset (:60-66)
        let st' := (start st true true).1
        (executeQuery retryWait columns (retries - 1) st' rows os).after
          (⟨.step o.rc, st⟩ :: (retryWaitEvents retryWait o.finished st ++ [⟨.start true, st'⟩]))
    | some .row =>
      (executeQuery retryWait columns retries st (rows ++ [readRow columns o.row]) os).after
        [⟨.step o.rc, st⟩, ⟨.columns, st⟩]

/-- The retry budget of a request (:180). -/
def budget (db : DbDef) (req : Request) : UInt32 := if req.retryIfLocked then db.retries else 0

/-- The request on the statement it names (:175-181). -/
def serve (db : DbDef) (st : Stmt) (req : Request) (sq : Sqlite) : Exec :=
  match start st false sq.clearOk with
  | (st, false) => ⟨st, [⟨.start false, st⟩], [], .error sq.errmsg⟩
  | (st, true) =>
    match bindArgs sq.bindOk 0 req.args st with
    | (st', evs, false) => ⟨st', ⟨.start false, st⟩ :: evs, [], .error sq.errmsg⟩
    | (st', evs, true) =>
      (executeQuery db.retryWait sq.columnCount (budget db req) st' [] sq.steps).after
        (⟨.start false, st⟩ :: (evs ++ [⟨.columnCount, st'⟩]))

/-! ## The thread's table -/

/-- The table with the statement of one query replaced. -/
def setStmt (dbs : Map DbDef) (d qn : String) (db : DbDef) (q : Query) (st : Stmt) : Map DbDef :=
  Function.update dbs d
    (some { db with queries := Function.update db.queries qn (some { q with stmt := st }) })

/-- A use of a statement of connection `conn`, and the thread's table as it was then. -/
structure Used where
  conn : Nat
  ev : Ev
  dbs : Map DbDef

structure Run where
  dbs : Map DbDef
  log : List Used
  /-- `none` when `run_query` did not return -/
  result : Option Response

/-- The verdict on the names of a request (:162-173): the message, or what was found. -/
def lookup (dbs : Map DbDef) (req : Request) : Except String (DbDef × Query) :=
  match dbs req.db with
  | none => .error ("Unknown database \"" ++ req.db ++ "\"")
  | some db =>
    match db.queries req.query with
    | none => .error ("Unknown query \"" ++ req.query ++ "\" for database \"" ++ req.db ++ "\"")
    | some q => .ok (db, q)

/-- The response for the way `execute_query` ended (:182-188). -/
def respond (q : Query) (x : Exec) : Option Response :=
  match x.out with
  | .done => some { ok := true, msg := "ok", rows := x.rows }
  | .error errmsg => some { ok := false, msg := errorText q.file q.sqlId errmsg, rows := [] }
  | .aborted | .running => none

/-- `db_server::run_query` (:152) on the entry of its thread. -/
def runQueryOn (dbs : Map DbDef) (req : Request) (sq : Sqlite) : Run :=
  match lookup dbs req with
  | .error msg => ⟨dbs, [], some { ok := false, msg := msg }⟩
  | .ok (db, q) =>
    let x := serve db q.stmt req sq
    ⟨setStmt dbs req.db req.query db q x.stmt,
     x.log.map fun e => ⟨q.conn, e, setStmt dbs req.db req.query db q e.stmt⟩,
     respond q x⟩

/-! ## A thread -/

/-- A request with the outcomes of its SQLite calls. -/
structure Call where
  req : Request
  sqlite : Sqlite

structure Record where
  call : Call
  run : Run

structure Thread where
  dbs : Map DbDef
  records : List Record := []
  /-- still in the last request -/
  busy : Bool := false

/-- The thread takes its next request. -/
def threadStep (t : Thread) (c : Call) : Option Thread :=
  if t.busy then none
  else
    let r := runQueryOn t.dbs c.req c.sqlite
    some { dbs := r.dbs, records := t.records ++ [⟨c, r⟩], busy := r.result.isNone }

end Acppsrv.Db
