import Acppsrv.Db.Outcome
/-!
# Rows of a retried query (db_server.cpp:43-94)

`q.start(true)` makes SQLite execute the statement again from the start, and `response` keeps the rows
that the abandoned execution had delivered. BUSY or LOCKED can come after rows: a statement with
RETURNING delivers them before its autocommit.

`retried_rows` is the exact condition: the response holds the rows of the last execution iff no lock
was reported after a row.
-/
namespace Acppsrv.Db
open Lib Lib.Retry

/-- The rows of the last execution, the one after the last `start(true)`. -/
def lastRows (columns : Nat) (os : List StepRes) : List Row := items (lastExecution (upToDone (trace columns os)))

/-- The rows of a successful response. -/
theorem run_query_rows {dbs : Map DbDef} {req : Request} {sq : Sqlite} {r : Response}
    (h : (runQueryOn dbs req sq).result = some r) (hok : r.ok = true) :
    r.rows = items (upToDone (trace sq.columnCount sq.steps)) := by
  unfold runQueryOn at h
  cases hl : lookup dbs req with
  | error msg =>
    rw [hl] at h
    cases h
    cases hok
  | ok p =>
    obtain ⟨db, q⟩ := p
    rw [hl] at h
    rcases respond_cases h with ⟨hout, rfl⟩ | ⟨hno, -⟩
    · have hb := ((serve_done_iff db q.stmt req sq).1 hout).1
      obtain ⟨st', s, evs, -, heq⟩ := serve_eq db hb
      rw [heq, after_out] at hout
      simp only [heq, after_rows]
      exact executeQuery_rows _ _ _ _ _ _ hout
    · rw [hok] at hno
      cases hno

/-- **Rows of a retried query.** When `run_query` succeeds, its response holds exactly the rows of the
last execution if and only if every lock was reported before the first row of its execution and of all
earlier ones. -/
theorem retried_rows (dbs : Map DbDef) (req : Request) (sq : Sqlite) (r : Response)
    (h : (runQueryOn dbs req sq).result = some r) (hok : r.ok = true) :
    r.rows = lastRows sq.columnCount sq.steps ↔ LocksFirst (upToDone (trace sq.columnCount sq.steps)) := by
  rw [run_query_rows h hok]
  exact items_last_iff _

/-- A lock before anything was delivered. -/
def lockedFirst : Sqlite := { columnCount := 1, steps := [{ rc := 5 }, { rc := 100, row := [.integer 7] }, { rc := 101 }] }

theorem retried_rows_lockedFirst : ∃ r, (runQueryOn oneQuery (find [.vInt64 1]) lockedFirst).result = some r ∧
    r.rows = lastRows 1 lockedFirst.steps ∧ r.rows = [[.vInt64 7]] := by
  refine ⟨{ ok := true, msg := "ok", rows := [[.vInt64 7]] }, by decide, ?_, rfl⟩
  refine (retried_rows oneQuery (find [.vInt64 1]) lockedFirst _ (by decide) rfl).2 ?_
  have htrace : upToDone (trace lockedFirst.columnCount lockedFirst.steps) = [.locked, .item [.vInt64 7]] := by
    decide
  intro pre post hos
  rw [htrace] at hos
  rcases pre with _ | ⟨o, _ | ⟨o', pre⟩⟩
  · rfl
  · simp at hos
  · simp at hos

/-- A lock at the commit, after the row was delivered. -/
def lockedAtCommit : Sqlite :=
  { columnCount := 1
    steps := [{ rc := 100, row := [.integer 7] }, { rc := 5 }, { rc := 100, row := [.integer 7] }, { rc := 101 }] }

/-- The row of the abandoned execution stays in the response. -/
theorem abandoned_row_stays : ∃ r, (runQueryOn oneQuery (find [.vInt64 1]) lockedAtCommit).result = some r ∧
    r.ok = true ∧ r.rows = [[.vInt64 7], [.vInt64 7]] ∧ lastRows 1 lockedAtCommit.steps = [[.vInt64 7]] ∧
    r.rows ≠ lastRows 1 lockedAtCommit.steps :=
  ⟨{ ok := true, msg := "ok", rows := [[.vInt64 7], [.vInt64 7]] }, by decide, rfl, rfl, by decide, by decide⟩

end Acppsrv.Db
