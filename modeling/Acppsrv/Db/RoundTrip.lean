import Acppsrv.Db.RetryRows
/-!
# Values into SQLite and back (db_server.cpp:19-41, :69-93, sqlite3.cpp:121-188)

A value goes through four case analyses: the `oneof` of the request, the overloads of `query::bind`, the
column type, and the alternative of `column_value`. Parameters are numbered from 1 and columns from 0.

| here | there |
| --- | --- |
| `intOf`                    | `int(v.size())` |
| `textOf`, `blobOf`         | what `sqlite3_bind_text` and `sqlite3_bind_blob` take from a pointer and a length (sqlite3.cpp:142-160) |
| `columnData`               | the pointer and the length of a result column (sqlite3.cpp:178-186) |
| `stdString`                | `std::string(p, n)` |
| `bindCalled`, `columnCalled` | `db_server::bind` and `query::get_column` down to these calls |

`bindCalled_eq` and `columnCalled_eq` take the calls back to `bind` and `getColumn` for strings below
2^31 bytes, which protobuf guarantees. `round_trip`: the arguments come back.
-/
namespace Acppsrv.Db
open Lib Lib.Retry

/-! ## Pointers and lengths -/

def intOf (n : Nat) : Int32 := Int32.ofNat n

theorem intOf_toInt {n : Nat} (h : n < 2147483648) : (intOf n).toInt = n := Int32.toInt_ofNat_of_lt h

/-- Text at `p`: `n` bytes, or up to the first NUL when `n` is negative. -/
def textOf (p : Bytes) (n : Int32) : SqlVal :=
  .text (if n.toInt < 0 then p.takeWhile (· != 0) else p.take n.toInt.toNat)

/-- A blob at `p`; a negative length is refused. -/
def blobOf (p : Bytes) (n : Int32) : Option SqlVal :=
  if n.toInt < 0 then none else some (.blob (p.take n.toInt.toNat))

/-- The value that reaches SQLite; `c_str()` is followed by a NUL. -/
def bindCalled : Value → Option SqlVal
  | .notSet | .vNull => some .null
  | .vInt64 v => some (.integer v)
  | .vDouble bits => some (if isNaN bits then .null else .real bits)
  | .vText v => some (textOf (v ++ [0]) (intOf v.length))
  | .vBlob v => blobOf (v ++ [0]) (intOf v.length)

/-- The pointer and the length of a column; that of an empty blob may be null. -/
def columnData (nullBlob : Bool) (b : Bytes) (isBlob : Bool) : Option Bytes × Int32 :=
  (if isBlob && nullBlob && b.isEmpty then none else some b, intOf b.length)

/-- It throws for a null pointer with a length, and for a length beyond `max_size()`. -/
def stdString (data : Option Bytes × Int32) : Option Bytes :=
  match data with
  | (none, n) => if n.toInt = 0 then some [] else none
  | (some p, n) => if n.toInt < 0 then none else some (p.take n.toInt.toNat)

def columnCalled (nullBlob : Bool) : SqlVal → Option ColumnValue
  | .null => some .null
  | .integer v => some (.int64 v)
  | .real bits => some (.double bits)
  | .text b => (stdString (columnData nullBlob b false)).map .string
  | .blob b => (stdString (columnData nullBlob b true)).map .blob

/-- The bytes of a text or a blob. -/
def Value.size : Value → Nat
  | .vText v | .vBlob v => v.length
  | _ => 0

def SqlVal.size : SqlVal → Nat
  | .text b | .blob b => b.length
  | _ => 0

theorem bindCalled_eq {v : Value} (h : v.size < 2147483648) : bindCalled v = some (sqlOf v) := by
  cases v with
  | notSet | vNull | vInt64 | vDouble => rfl
  | vText b =>
    have hn := intOf_toInt h
    simp only [Value.size] at hn
    have hpos : ¬ (b.length : Int) < 0 := by omega
    simp [bindCalled, textOf, sqlOf, hn, hpos]
  | vBlob b =>
    have hn := intOf_toInt h
    simp only [Value.size] at hn
    simp [bindCalled, blobOf, sqlOf, hn]

theorem stdString_columnData (nullBlob : Bool) {b : Bytes} (isBlob : Bool) (h : b.length < 2147483648) :
    stdString (columnData nullBlob b isBlob) = some b := by
  have hn := intOf_toInt h
  unfold columnData
  split
  · rename_i hnull
    obtain rfl : b = [] := by
      simp only [Bool.and_eq_true, List.isEmpty_iff] at hnull
      exact hnull.2
    rfl
  · simp [stdString, hn]

theorem columnCalled_eq (nullBlob : Bool) {v : SqlVal} (h : v.size < 2147483648) :
    columnCalled nullBlob v = some (getColumn [v] 0) := by
  cases v with
  | null | integer | real => rfl
  | text b | blob b =>
    rw [columnCalled, stdString_columnData nullBlob _ h]
    rfl

/-! ## One value -/

/-- A value as a response has it: an unset one is `v_null`. -/
def normalise : Value → Value
  | .notSet => .vNull
  | v => v

/-- Bound, returned and read back. -/
theorem toValue_sqlOf {v : Value} (h : ∀ bits, v = .vDouble bits → isNaN bits = false) :
    toValue (getColumn [sqlOf v] 0) = normalise v := by
  cases v with
  | notSet | vNull | vInt64 | vText | vBlob => rfl
  | vDouble bits =>
    rw [sqlOf, h bits rfl]
    rfl

theorem getColumn_get {row : List SqlVal} {i : Nat} {v : SqlVal} (h : row[i]? = some v) :
    getColumn row i = getColumn [v] 0 := by
  simp [getColumn, h]

theorem sqlOf_size (v : Value) : (sqlOf v).size = v.size := by
  cases v with
  | vDouble bits =>
    rw [sqlOf]
    split <;> rfl
  | notSet | vNull | vInt64 | vText | vBlob => rfl

/-- The columns of a row that holds the arguments. -/
theorem readRow_bound {args : List Value} {row : List SqlVal} (hb : BoundTo args row)
    (hnan : ∀ bits, .vDouble bits ∈ args → isNaN bits = false) :
    readRow args.length row = args.map normalise := by
  apply List.ext_getElem?
  intro i
  rw [readRow, List.getElem?_map, List.getElem?_map]
  cases hv : args[i]? with
  | none =>
    rw [List.getElem?_eq_none]
    · rfl
    · simpa using hv
  | some v =>
    have hlt := (List.getElem?_eq_some_iff.1 hv).1
    have hcol : toValue (getColumn row i) = normalise v := by
      rw [getColumn_get (hb.arg i v hv)]
      apply toValue_sqlOf
      rintro bits rfl
      exact hnan bits (List.mem_of_getElem? hv)
    rw [List.getElem?_range hlt]
    simp [hcol]

/-! ## A request -/

/-- Every row of the statement consists of its parameters when it is stepped. -/
def Echoes (r : Run) (sq : Sqlite) : Prop :=
  ∀ o ∈ sq.steps, o.rc % 256 = sqliteRow → ∀ u ∈ r.log, ∀ rc, u.ev.what = .step rc → o.row = u.ev.stmt.params

/-- Locks within the budget, the only row, and DONE. -/
def OneRow (R : Nat) (os : List StepRes) : Prop :=
  ∃ pre o d post, os = pre ++ o :: d :: post ∧ (∀ x ∈ pre, isLocked x.rc = true) ∧ pre.length ≤ R ∧
    o.rc % 256 = sqliteRow ∧ d.rc % 256 = sqliteDone

theorem trace_echo (columns : Nat) {R : Nat} {pre : List StepRes} (post : List StepRes) {o d : StepRes}
    (hpre : ∀ x ∈ pre, isLocked x.rc = true) (hR : pre.length ≤ R) (ho : o.rc % 256 = sqliteRow)
    (hd : d.rc % 256 = sqliteDone) : Reaches R (trace columns (pre ++ o :: d :: post)) ∧
      items (upToDone (trace columns (pre ++ o :: d :: post))) = [readRow columns o.row] := by
  induction pre generalizing R with
  | nil =>
    rw [List.nil_append, trace, List.map_cons, List.map_cons, outcome_row ho, outcome_done hd]
    exact ⟨(reaches_item _ _ _).2 (reaches_done _ _), by simp⟩
  | cons x pre ih =>
    simp only [List.length_cons] at hR
    obtain ⟨hreach, hitems⟩ := @ih (R - 1) (fun y hy => hpre y (List.mem_cons_of_mem _ hy)) (by omega)
    rw [List.cons_append, trace, List.map_cons, outcome_locked (hpre x List.mem_cons_self)]
    refine ⟨(reaches_locked _ _).2 ⟨by omega, hreach⟩, ?_⟩
    simpa [trace] using hitems

/-- The log of an execution begins with its first step. -/
theorem executeQuery_first (w columns : Nat) (o : StepRes) (os : List StepRes) (retries : UInt32) (st : Stmt)
    (rows : List Row) : ⟨.step o.rc, st.step o.rc⟩ ∈ (executeQuery w columns retries st rows (o :: os)).log := by
  simp only [executeQuery]
  cases nextRow retries o.rc with
  | none => simp
  | some s =>
    cases s with
    | done | row => simp
    | locked =>
      simp only
      split <;> simp

/-- The row of such a trace holds the arguments. -/
theorem echo_bound {dbs : Map DbDef} {req : Request} {sq : Sqlite} {db : DbDef} {q : Query}
    (hd : dbs req.db = some db) (hq : db.queries req.query = some q) (hb : Binds q.stmt req sq) {row : List SqlVal}
    (hne : sq.steps ≠ [])
    (hrow : ∀ u ∈ (runQueryOn dbs req sq).log, ∀ rc, u.ev.what = .step rc → row = u.ev.stmt.params) :
    BoundTo req.args row := by
  have hl := (lookup_iff dbs req db q).2 ⟨hd, hq⟩
  obtain ⟨st', s, evs, -, heq⟩ := serve_eq db hb
  obtain ⟨o, os, hos⟩ := List.exists_cons_of_ne_nil hne
  have hmem : ⟨.step o.rc, st'.step o.rc⟩ ∈ (serve db q.stmt req sq).log := by
    rw [heq, after_log, hos]
    exact List.mem_append_right _ (executeQuery_first _ _ _ _ _ _ _)
  have hrun : (runQueryOn dbs req sq).log = (serve db q.stmt req sq).log.map fun e =>
      ⟨q.conn, e, setStmt dbs req.db req.query db q e.stmt⟩ := by
    simp only [runQueryOn, hl]
  rw [hrun] at hrow
  rw [hrow _ (List.mem_map_of_mem hmem) o.rc rfl]
  exact serve_bound db q.stmt req sq _ hmem o.rc rfl

theorem mem_items_trace {columns : Nat} {os : List StepRes} {row : Row}
    (h : row ∈ items (upToDone (trace columns os))) : ∃ o ∈ os, o.rc % 256 = sqliteRow ∧ row = readRow columns o.row := by
  obtain ⟨o, ho, heq⟩ := List.mem_map.1 ((List.takeWhile_sublist _).subset (mem_items.1 h))
  refine ⟨o, ho, ?_⟩
  by_cases hr : o.rc % 256 = sqliteRow
  · rw [outcome_row hr] at heq
    cases heq
    exact ⟨hr, rfl⟩
  · by_cases hd : o.rc % 256 = sqliteDone
    · rw [outcome_done hd] at heq
      cases heq
    · cases hl : isLocked o.rc with
      | true =>
        rw [outcome_locked hl] at heq
        cases heq
      | false =>
        rw [outcome_failed hd hr hl] at heq
        cases heq

/-- **Round trip.** For a statement whose rows are its parameters, each bound once, every row of the
response is the arguments in their order, with unset values as `v_null`; there is one if the statement
has one. The calls that bind and read the values lose nothing. -/
theorem round_trip (dbs : Map DbDef) (req : Request) (sq : Sqlite) (db : DbDef) (q : Query)
    (hd : dbs req.db = some db) (hq : db.queries req.query = some q) (hb : Binds q.stmt req sq)
    (hcols : sq.columnCount = req.args.length) (hecho : Echoes (runQueryOn dbs req sq) sq)
    (hnan : ∀ bits, .vDouble bits ∈ req.args → isNaN bits = false)
    (hsize : ∀ v ∈ req.args, v.size < 2147483648) :
    (∀ r, (runQueryOn dbs req sq).result = some r → ∀ row ∈ r.rows, row = req.args.map normalise) ∧
    (OneRow (budget db req).toNat sq.steps →
      ∃ r, (runQueryOn dbs req sq).result = some r ∧ r.ok = true ∧ r.rows = [req.args.map normalise]) ∧
    ∀ v ∈ req.args, bindCalled v = some (sqlOf v) ∧
      ∀ nullBlob, columnCalled nullBlob (sqlOf v) = some (getColumn [sqlOf v] 0) := by
  have hread : ∀ o ∈ sq.steps, o.rc % 256 = sqliteRow → readRow sq.columnCount o.row = req.args.map normalise := by
    intro o ho hrow
    rw [hcols]
    exact readRow_bound (echo_bound hd hq hb (List.ne_nil_of_mem ho) (hecho o ho hrow)) hnan
  refine ⟨?_, ?_, ?_⟩
  · intro r hr row hmem
    cases hok : r.ok with
    | true =>
      rw [run_query_rows hr hok] at hmem
      obtain ⟨o, ho, hrow, rfl⟩ := mem_items_trace hmem
      exact hread o ho hrow
    | false =>
      rw [(runQueryOn_failure hr hok).2] at hmem
      cases hmem
  · rintro ⟨pre, o, d, post, hsteps, hpre, hR, ho, hdone⟩
    obtain ⟨hreach, hitems⟩ := trace_echo sq.columnCount post hpre hR ho hdone
    rw [← hsteps] at hreach hitems
    obtain ⟨r, hr, hok⟩ := (run_query_verdict dbs req sq).ok.2 ⟨db, q, hd, hq, hb, hreach⟩
    refine ⟨r, hr, hok, ?_⟩
    rw [run_query_rows hr hok, hitems, hread o (by simp [hsteps]) ho]
  · intro v hv
    refine ⟨bindCalled_eq (hsize v hv), ?_⟩
    intro nullBlob
    apply columnCalled_eq
    rw [sqlOf_size]
    exact hsize v hv

/-- Text with a NUL, an empty blob, an unset value and a blob with the bytes of the text. -/
def echoArgs : List Value := [.vText [97, 0, 98], .vBlob [], .notSet, .vBlob [97, 0, 98], .vDouble 0x3ff0000000000000]

/-- `select ?1, ?2, ?3, ?4, ?5`. -/
def echoTable : Map DbDef := fun d => if d = "people" then
    some { conn := 0, file := "people.db", retries := 1
           queries := fun qn => if qn = "find" then
               some { conn := 0, file := "people.db", sql := "select ?1, ?2, ?3, ?4, ?5", sqlId := "find"
                      stmt := { params := List.replicate 5 .null } }
             else none }
  else none

def echoSqlite : Sqlite :=
  { columnCount := 5, steps := [{ rc := 5 }, { rc := 100, row := echoArgs.map sqlOf }, { rc := 101 }] }

theorem round_trip_echoArgs : ∃ r, (runQueryOn echoTable (find echoArgs) echoSqlite).result = some r ∧
    r.rows = [[.vText [97, 0, 98], .vBlob [], .vNull, .vBlob [97, 0, 98], .vDouble 0x3ff0000000000000]] := by
  have hecho : Echoes (runQueryOn echoTable (find echoArgs) echoSqlite) echoSqlite := by
    have hsteps : stepsOf (runQueryOn echoTable (find echoArgs) echoSqlite) =
        [5, 100, 101].map fun rc => (0, rc, echoArgs.map sqlOf) := by decide
    intro o ho hrow u hu rc hrc
    have hmem : (u.conn, rc, u.ev.stmt.params) ∈ stepsOf (runQueryOn echoTable (find echoArgs) echoSqlite) :=
      List.mem_filterMap.2 ⟨u, hu, by simp [hrc]⟩
    rw [hsteps] at hmem
    obtain ⟨_, _, heq⟩ := List.mem_map.1 hmem
    obtain ⟨-, hrest⟩ := Prod.mk.inj heq
    obtain ⟨-, hparams⟩ := Prod.mk.inj hrest
    rw [← hparams]
    simp only [echoSqlite, List.mem_cons, List.not_mem_nil, or_false] at ho
    rcases ho with rfl | rfl | rfl
    · exact absurd hrow (by decide)
    · rfl
    · exact absurd hrow (by decide)
  have hnan : ∀ bits, .vDouble bits ∈ echoArgs → isNaN bits = false := by
    intro bits h
    obtain rfl : bits = 0x3ff0000000000000 := by simpa [echoArgs] using h
    decide
  obtain ⟨-, hone, -⟩ := round_trip echoTable (find echoArgs) echoSqlite _ _ rfl rfl ⟨rfl, by decide⟩ rfl hecho
    hnan (by decide)
  obtain ⟨r, hr, -, hrows⟩ := hone ⟨[{ rc := 5 }], { rc := 100, row := echoArgs.map sqlOf }, { rc := 101 }, [],
    rfl, by decide, by decide, rfl, rfl⟩
  exact ⟨r, hr, hrows⟩

end Acppsrv.Db
