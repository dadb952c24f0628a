import Acppsrv.Db.Message
/-!
# SQLite and `sqlite::query` (sqlite3.cpp:121-233)

| here | there |
| --- | --- |
| `Stmt`                              | `sqlite3_stmt`: the parameters, and how far it was stepped |
| `Stmt.reset`, `.clearBindings`      | `sqlite3_reset` keeps the parameters, `sqlite3_clear_bindings` makes them NULL |
| `Stmt.bindValue`                    | `sqlite3_bind_*`: sets one parameter of a reset statement, or fails and changes nothing |
| `Stmt.step`                         | `sqlite3_step` as far as the statement goes; only DONE and a reset close it |
| `StepRes`                           | what one `sqlite3_step` returned, and the flag a retry wait after it finds |
| `Query.start`, `bind*`, `nextRow`, `getColumn` | `sqlite::query` (:121, :162, :190, :210) |

SQLite is not part of the repository: what its calls return comes from outside (`StepRes`,
`Sqlite`), what they do to a statement is the table above.
-/
namespace Acppsrv.Db

/-- The value of a parameter or of a result column. -/
inductive SqlVal where
  | null
  | integer (v : Int64)
  | real (bits : UInt64)
  | text (b : Bytes)
  | blob (b : Bytes)
  deriving DecidableEq, Repr

inductive Phase where
  /-- prepared or reset, and not stepped since -/
  | ready
  /-- stepped, and neither run to DONE nor reset: `sqlite3_stmt_busy` -/
  | stepped
  /-- the last step returned DONE -/
  | done
  deriving DecidableEq, Repr

structure Stmt where
  params : List SqlVal
  phase : Phase := .ready
  deriving DecidableEq, Repr

def Stmt.reset (st : Stmt) : Stmt := { st with phase := .ready }

def Stmt.clearBindings (st : Stmt) : Stmt := { st with params := st.params.map fun _ => .null }

/-- Parameter `i + 1` set to `v`; `accepted` is false when SQLite refuses the value (memory, length). -/
def Stmt.bindValue (st : Stmt) (i : Nat) (v : SqlVal) (accepted : Bool) : Option Stmt :=
  if st.phase = .ready ∧ i < st.params.length ∧ accepted = true then
    some { st with params := st.params.set i v }
  else none

/-! ## Result codes -/

def sqliteBusy : Nat := 5
def sqliteLocked : Nat := 6
def sqliteRow : Nat := 100
def sqliteDone : Nat := 101

/-- What one `sqlite3_step` returned: the (extended) result code, the columns of the row it stands
on, and the `sqlite3_errmsg` of a failure. -/
structure StepRes where
  rc : Nat
  row : List SqlVal := []
  errmsg : String := ""
  /-- `sync->finished` as the retry wait after this step finds it; the other threads set and clear it -/
  finished : Bool := false
  deriving DecidableEq, Repr

def Stmt.step (st : Stmt) (rc : Nat) : Stmt :=
  { st with phase := if rc % 256 = sqliteDone then .done else .stepped }

/-! ## `sqlite::query` -/

structure Query where
  /-- the connection it is prepared on -/
  conn : Nat
  file : String
  sql : String
  sqlId : String
  stmt : Stmt
  deriving DecidableEq, Repr

/-- The text of `sqlite::error` (:227). -/
def errorText (file sqlId errmsg : String) : String :=
  "sqlite3 error in db \"" ++ file ++ "\"" ++ (if sqlId = "" then "" else " (" ++ sqlId ++ ")") ++ ": " ++ errmsg

/-- `query::start` (:210); false when it throws. -/
def start (st : Stmt) (restart clearOk : Bool) : Stmt × Bool :=
  if restart then (st.reset, true)
  else if clearOk then (st.reset.clearBindings, true)
  else (st.reset, false)

/-- All bits of the exponent set, and not an infinity. -/
def isNaN (bits : UInt64) : Bool := decide (0x7ff0000000000000 < bits &&& 0x7fffffffffffffff)

/-- `query::bind(int, nullptr_t)` (:121). -/
def bindNull (st : Stmt) (i : Nat) (accepted : Bool) : Option Stmt := st.bindValue i .null accepted

/-- `query::bind(int, int64_t)` (:128). -/
def bindInt64 (st : Stmt) (i : Nat) (v : Int64) (accepted : Bool) : Option Stmt :=
  st.bindValue i (.integer v) accepted

/-- `query::bind(int, double)` (:135); `sqlite3_bind_double` stores a NaN as NULL. -/
def bindDouble (st : Stmt) (i : Nat) (bits : UInt64) (accepted : Bool) : Option Stmt :=
  st.bindValue i (if isNaN bits then .null else .real bits) accepted

/-- `query::bind(int, const std::string&)` (:142). -/
def bindText (st : Stmt) (i : Nat) (v : Bytes) (accepted : Bool) : Option Stmt :=
  st.bindValue i (.text v) accepted

/-- `query::bind_blob` (:152). -/
def bindBlob (st : Stmt) (i : Nat) (v : Bytes) (accepted : Bool) : Option Stmt :=
  st.bindValue i (.blob v) accepted

/-- `query::status` (sqlite3.hpp:43). -/
inductive Status where
  | row
  | done
  | locked
  deriving DecidableEq, Repr

/-- BUSY or LOCKED, extended codes included. -/
def isLocked (rc : Nat) : Bool := rc % 256 == sqliteBusy || rc % 256 == sqliteLocked

/-- `query::next_row` (:190) on the result of its `sqlite3_step`; `none` when it throws. -/
def nextRow (retries : UInt32) (rc : Nat) : Option Status :=
  if rc % 256 = sqliteDone then some .done
  else if rc % 256 = sqliteRow then some .row
  else if isLocked rc ∧ 0 < retries.toNat then some .locked
  else none

/-- `query::column_value` (sqlite3.hpp:48). -/
inductive ColumnValue where
  | null
  | int64 (v : Int64)
  | double (bits : UInt64)
  | string (b : Bytes)
  | blob (b : Bytes)
  deriving DecidableEq, Repr

/-- `query::get_column` (:167); a column beyond the row has type NULL. -/
def getColumn (row : List SqlVal) (i : Nat) : ColumnValue :=
  match row[i]? with
  | some (.integer v) => .int64 v
  | some (.real bits) => .double bits
  | some (.text b) => .string b
  | some (.blob b) => .blob b
  | some .null | none => .null

/-! ## What the calls do -/

@[simp] theorem step_params (st : Stmt) (rc : Nat) : (st.step rc).params = st.params := rfl

/-- A bind that succeeds set that parameter. -/
theorem bindValue_some {st st' : Stmt} {i : Nat} {v : SqlVal} {accepted : Bool}
    (h : st.bindValue i v accepted = some st') :
    st.phase = .ready ∧ i < st.params.length ∧ accepted = true ∧ st' = { st with params := st.params.set i v } := by
  unfold Stmt.bindValue at h
  split at h
  · rename_i hg; cases h; exact ⟨hg.1, hg.2.1, hg.2.2, rfl⟩
  · cases h

theorem retries_sub {retries : UInt32} (h : 0 < retries.toNat) : (retries - 1).toNat = retries.toNat - 1 :=
  UInt32.toNat_sub_of_le _ _ (UInt32.le_iff_toNat_le.2 h)

/-- What each way `next_row` ends says of the result code. -/
theorem nextRow_spec (retries : UInt32) (rc : Nat) :
    match nextRow retries rc with
    | some .done => rc % 256 = sqliteDone
    | some .row => rc % 256 = sqliteRow
    | some .locked => isLocked rc = true ∧ 0 < retries.toNat
    | none => rc % 256 ≠ sqliteDone ∧ rc % 256 ≠ sqliteRow ∧ (isLocked rc = true → retries.toNat = 0) := by
  unfold nextRow
  by_cases hd : rc % 256 = sqliteDone
  · rw [if_pos hd]; exact hd
  · rw [if_neg hd]
    by_cases hr : rc % 256 = sqliteRow
    · rw [if_pos hr]; exact hr
    · rw [if_neg hr]
      by_cases hl : isLocked rc ∧ 0 < retries.toNat
      · rw [if_pos hl]; exact hl
      · rw [if_neg hl]
        refine ⟨hd, hr, fun h => ?_⟩
        by_contra hne
        exact hl ⟨h, Nat.pos_of_ne_zero hne⟩

end Acppsrv.Db
