import Acppsrv.Lib.Retry
import Acppsrv.Db.OpenStatements
/-!
# What `run_query` returns (db_server.cpp:43-94, :152-190, sqlite3.cpp:190-208)

The retry budget is decremented in `execute_query` and consulted in `next_row`; errors leave both as
exceptions. `outcome` reads a step result as an outcome of `Lib.Retry`, and the loop is compared with
what that trace says.

* `executeQuery_done_iff`: the loop ends by DONE iff the trace reaches it within the budget.
* `executeQuery_retries`: one restart for each lock within the budget, none after it, and never the
  assertion of :58.
* `executeQuery_ends`: it ends on every trace whose executions yield finitely many rows.
* `run_query_verdict`: the verdict of `run_query` on every request.
-/
namespace Acppsrv.Db
open Lib Lib.Retry

/-- What a step result means to the loop. -/
def outcome (columns : Nat) (o : StepRes) : Outcome Row :=
  if o.rc % 256 = sqliteDone then .done
  else if o.rc % 256 = sqliteRow then .item (readRow columns o.row)
  else if isLocked o.rc then .locked
  else .failed

def trace (columns : Nat) (os : List StepRes) : List (Outcome Row) := os.map (outcome columns)

/-! ## Outcomes -/

theorem outcome_done {columns : Nat} {o : StepRes} (h : o.rc % 256 = sqliteDone) : outcome columns o = .done := by
  rw [outcome, if_pos h]

theorem outcome_row {columns : Nat} {o : StepRes} (h : o.rc % 256 = sqliteRow) :
    outcome columns o = .item (readRow columns o.row) := by
  rw [outcome, if_neg (by rw [h]; decide), if_pos h]

theorem outcome_locked {columns : Nat} {o : StepRes} (h : isLocked o.rc = true) : outcome columns o = .locked := by
  rw [outcome, if_neg (isLocked_ne_done h), if_neg (isLocked_ne_row h), if_pos h]

theorem outcome_failed {columns : Nat} {o : StepRes} (hd : o.rc % 256 ≠ sqliteDone) (hr : o.rc % 256 ≠ sqliteRow)
    (hl : isLocked o.rc = false) : outcome columns o = .failed := by
  rw [outcome, if_neg hd, if_neg hr, if_neg (by simp [hl])]

/-- `next_row` throws where the trace cannot go on. -/
theorem not_reaches_throw {columns : Nat} {retries : UInt32} {o : StepRes} (os : List StepRes)
    (h : nextRow retries o.rc = none) : ¬ Reaches retries.toNat (trace columns (o :: os)) := by
  have hspec := nextRow_spec retries o.rc
  rw [h] at hspec
  obtain ⟨hd, hr, hl⟩ := hspec
  rw [trace, List.map_cons]
  cases hlo : isLocked o.rc with
  | true =>
    rw [outcome_locked hlo, reaches_locked]
    intro hR
    have := hl hlo
    omega
  | false =>
    rw [outcome_failed hd hr hlo]
    exact not_reaches_failed _ _

/-! ## The loop -/

/-- The loop ends by DONE iff the trace reaches it within the budget. -/
theorem executeQuery_done_iff (w columns : Nat) (os : List StepRes) : ∀ (retries : UInt32) (st : Stmt)
    (rows : List Row), (executeQuery w columns retries st rows os).out = .done ↔
      Reaches retries.toNat (trace columns os) := by
  induction os with
  | nil =>
    intro retries st rows
    refine ⟨fun h => ?_, fun h => absurd h (not_reaches_nil _)⟩
    cases h
  | cons o os ih =>
    intro retries st rows
    have hspec := nextRow_spec retries o.rc
    simp only [executeQuery]
    cases hn : nextRow retries o.rc with
    | none =>
      refine ⟨fun h => ?_, fun h => absurd h (not_reaches_throw os hn)⟩
      cases h
    | some s =>
      rw [hn] at hspec
      rw [trace, List.map_cons]
      cases s with
      | done =>
        rw [outcome_done hspec]
        exact ⟨fun _ => reaches_done _ _, fun _ => rfl⟩
      | row =>
        rw [outcome_row hspec, reaches_item]
        exact ih retries (st.step o.rc) _
      | locked =>
        obtain ⟨hl, hpos⟩ := hspec
        rw [outcome_locked hl, reaches_locked, if_neg (by omega), ← retries_sub hpos]
        exact (ih (retries - 1) _ rows).trans ⟨fun h => ⟨hpos, h⟩, fun h => h.2⟩

/-- Rows are appended over all executions; nothing is taken back. -/
theorem executeQuery_rows (w columns : Nat) (os : List StepRes) : ∀ (retries : UInt32) (st : Stmt)
    (rows : List Row), (executeQuery w columns retries st rows os).out = .done →
      (executeQuery w columns retries st rows os).rows = rows ++ items (upToDone (trace columns os)) := by
  induction os with
  | nil =>
    intro retries st rows h
    cases h
  | cons o os ih =>
    intro retries st rows
    have hspec := nextRow_spec retries o.rc
    simp only [executeQuery, trace, List.map_cons]
    cases hn : nextRow retries o.rc with
    | none =>
      intro h
      cases h
    | some s =>
      rw [hn] at hspec
      cases s with
      | done =>
        intro _
        rw [outcome_done hspec]
        simp
      | row =>
        intro h
        rw [outcome_row hspec]
        have hrows := ih retries (st.step o.rc) (rows ++ [readRow columns o.row]) h
        simpa [trace] using hrows
      | locked =>
        obtain ⟨hl, hpos⟩ := hspec
        intro h
        rw [if_neg (by omega)] at h ⊢
        rw [outcome_locked hl]
        have hrows := ih (retries - 1) _ rows h
        simpa [trace] using hrows

/-! ## The retry budget -/

def Ev.isRestart (e : Ev) : Bool := e.what == .start true

def Ev.isLock (e : Ev) : Bool :=
  match e.what with
  | .step rc => isLocked rc
  | _ => false

/-- How often the statement was restarted. -/
def restarts (log : List Ev) : Nat := log.countP Ev.isRestart

/-- How many steps found the database locked. -/
def locked (log : List Ev) : Nat := log.countP Ev.isLock

/-- When a step is made, every lock so far was answered by one restart, each of which took one from the
counter of `execute_query`, and there were no more of them than the budget. -/
def Paid (R : Nat) (a : List Ev) (e : Ev) : Prop :=
  ∀ rc, e.what = .step rc → restarts a = locked a ∧ locked a ≤ R

/-- An execution with a budget of `R` retries. -/
structure RetriesOk (R : Nat) (x : Exec) : Prop where
  /-- `assert(retries > 0)` (:58) holds. -/
  assertion : x.out ≠ .aborted
  paid : Past (Paid R) x.log
  /-- One restart for each of the first `R` locks, and none after that. -/
  total : restarts x.log = min R (locked x.log)

theorem past_paid_cons (R : Nat) {s : Ev} {t : List Ev} (ht : ∀ e ∈ t, ∀ rc, e.what ≠ .step rc) :
    Past (Paid R) (s :: t) := by
  intro a e b h rc hrc
  cases a with
  | nil => exact ⟨rfl, Nat.zero_le _⟩
  | cons x a =>
    obtain ⟨-, rfl⟩ := List.cons.inj h
    exact absurd hrc (ht e (by simp) rc)

/-- Events with at most one step, with as many locks as restarts, before an execution. -/
theorem RetriesOk.after {R k : Nat} {x : Exec} (h : RetriesOk R x) {s : Ev} {t : List Ev}
    (ht : ∀ e ∈ t, ∀ rc, e.what ≠ .step rc) (hr : restarts (s :: t) = k) (hl : locked (s :: t) = k) :
    RetriesOk (R + k) (x.after (s :: t)) := by
  have hcount (a : List Ev) : restarts (s :: t ++ a) = k + restarts a ∧ locked (s :: t ++ a) = k + locked a := by
    unfold restarts at hr ⊢
    unfold locked at hl ⊢
    rw [List.countP_append, List.countP_append, hr, hl]
    exact ⟨rfl, rfl⟩
  refine ⟨h.assertion, ?_, ?_⟩
  · rw [after_log, past_append]
    refine ⟨past_paid_cons _ ht, ?_⟩
    intro a e b hx rc hrc
    obtain ⟨hpaid, hle⟩ := h.paid a e b hx rc hrc
    rw [(hcount a).1, (hcount a).2]
    omega
  · rw [after_log, (hcount _).1, (hcount _).2, h.total]
    omega

/-- An execution that ends with its first step. -/
theorem retriesOk_last (R : Nat) {st : Stmt} {rows : List Row} {out : Exit} (hout : out ≠ .aborted) {rc : Nat}
    (hrc : isLocked rc = true → R = 0) : RetriesOk R ⟨st, [⟨.step rc, st⟩, ⟨.signal, st⟩], rows, out⟩ := by
  refine ⟨hout, past_paid_cons R (by simp), ?_⟩
  cases hl : isLocked rc with
  | true => rw [hrc hl]; simp [restarts, Ev.isRestart]
  | false => simp [restarts, locked, Ev.isRestart, Ev.isLock, hl]

theorem executeQuery_retries (w columns : Nat) (os : List StepRes) : ∀ (retries : UInt32) (st : Stmt)
    (rows : List Row), RetriesOk retries.toNat (executeQuery w columns retries st rows os) := by
  induction os with
  | nil =>
    intro retries st rows
    exact ⟨by simp [executeQuery], past_nil _, by simp [executeQuery, restarts, locked]⟩
  | cons o os ih =>
    intro retries st rows
    have hspec := nextRow_spec retries o.rc
    simp only [executeQuery]
    cases hn : nextRow retries o.rc with
    | none =>
      rw [hn] at hspec
      exact retriesOk_last _ (by simp) hspec.2.2
    | some s =>
      rw [hn] at hspec
      cases s with
      | done =>
        refine retriesOk_last _ (by simp) ?_
        intro hl
        exact absurd hspec (isLocked_ne_done hl)
      | row =>
        have hno : isLocked o.rc = false := by
          cases hl : isLocked o.rc with
          | true => exact absurd hspec (isLocked_ne_row hl)
          | false => rfl
        refine (ih retries (st.step o.rc) _).after (k := 0) (by simp) ?_ ?_
        · simp [restarts, Ev.isRestart]
        · simp [locked, Ev.isLock, hno]
      | locked =>
        obtain ⟨hl, hpos⟩ := hspec
        rw [if_neg (by omega)]
        have hrest := ih (retries - 1) (start (st.step o.rc) true true).1 rows
        have hR : retries.toNat = (retries - 1).toNat + 1 := by
          rw [retries_sub hpos]
          omega
        rw [hR]
        -- waited for or not, one lock and one restart
        rcases retryWaitEvents_cases w o.finished (st.step o.rc) with ⟨_, he⟩ | ⟨_, he⟩ | ⟨_, _, he⟩
        · rw [he]
          exact hrest.after (by simp) (by simp [restarts, Ev.isRestart]) (by simp [locked, Ev.isLock, hl])
        · rw [he]
          exact hrest.after (by simp) (by simp [restarts, Ev.isRestart]) (by simp [locked, Ev.isLock, hl])
        · rw [he]
          exact hrest.after (by simp) (by simp [restarts, Ev.isRestart]) (by simp [locked, Ev.isLock, hl])

/-! ## Termination -/

/-- An outcome other than a row uses up the budget, or ends the loop. -/
theorem executeQuery_ends (w columns : Nat) (os : List StepRes) : ∀ (retries : UInt32) (st : Stmt)
    (rows : List Row), retries.toNat < os.countP (fun o => o.rc % 256 != sqliteRow) →
      (executeQuery w columns retries st rows os).out ≠ .running := by
  induction os with
  | nil =>
    intro retries st rows h
    simp at h
  | cons o os ih =>
    intro retries st rows h
    have hspec := nextRow_spec retries o.rc
    simp only [executeQuery]
    cases hn : nextRow retries o.rc with
    | none => simp
    | some s =>
      rw [hn] at hspec
      cases s with
      | done => simp
      | row =>
        refine ih retries _ _ ?_
        simpa [List.countP_cons, show o.rc % 256 = sqliteRow from hspec] using h
      | locked =>
        obtain ⟨hl, hpos⟩ := hspec
        rw [if_neg (by omega)]
        refine ih (retries - 1) _ _ ?_
        have hne : (o.rc % 256 != sqliteRow) = true := by simpa using isLocked_ne_row hl
        rw [List.countP_cons, if_pos hne] at h
        rw [retries_sub hpos]
        omega

/-- Once it has ended, what SQLite would have returned next does not matter. -/
theorem executeQuery_append (w columns : Nat) (os more : List StepRes) : ∀ (retries : UInt32) (st : Stmt)
    (rows : List Row), (executeQuery w columns retries st rows os).out ≠ .running →
      executeQuery w columns retries st rows (os ++ more) = executeQuery w columns retries st rows os := by
  induction os with
  | nil =>
    intro retries st rows h
    exact absurd rfl h
  | cons o os ih =>
    intro retries st rows
    simp only [List.cons_append, executeQuery]
    cases nextRow retries o.rc with
    | none => exact fun _ => rfl
    | some s =>
      cases s with
      | done => exact fun _ => rfl
      | row =>
        intro h
        rw [ih _ _ _ h]
      | locked =>
        by_cases h0 : retries.toNat = 0
        · intro _
          simp only [if_pos h0]
        · simp only [if_neg h0]
          intro h
          rw [ih _ _ _ h]

/-! ## A request -/

/-- A request whose arguments bind executes its statement with them. -/
theorem serve_eq (db : DbDef) {st : Stmt} {req : Request} {sq : Sqlite} (h : Binds st req sq) :
    ∃ st' s evs, (∀ e ∈ s :: evs, e.isRestart = false ∧ ∀ rc, e.what ≠ .step rc) ∧
      serve db st req sq =
        (executeQuery db.retryWait sq.columnCount (budget db req) st' [] sq.steps).after (s :: evs) := by
  obtain ⟨-, hok⟩ := bindArgs_ok sq.bindOk req.args 0 st.reset.clearBindings rfl
  have hno := bindArgs_no_step sq.bindOk req.args 0 st.reset.clearBindings
  have hbind : (bindArgs sq.bindOk 0 req.args st.reset.clearBindings).2.2 = true := by
    rw [hok]
    simpa [Stmt.clearBindings, Stmt.reset] using h.2
  rcases hb : bindArgs sq.bindOk 0 req.args st.reset.clearBindings with ⟨st', evs, ok⟩
  rw [hb] at hno hbind
  obtain rfl : ok = true := hbind
  refine ⟨st', ⟨.start false, st.reset.clearBindings⟩, evs ++ [⟨.columnCount, st'⟩], ?_, ?_⟩
  · intro e he
    simp only [List.mem_cons, List.mem_append, List.not_mem_nil, or_false] at he
    rcases he with rfl | he | rfl
    · simp [Ev.isRestart]
    · obtain ⟨j, hj⟩ := hno e he
      simp [Ev.isRestart, hj]
    · simp [Ev.isRestart]
  · unfold serve
    simp only [start, h.1, Bool.false_eq_true, ↓reduceIte, hb]

/-- A request whose arguments do not bind ends at once, with an error and without a step. -/
theorem serve_unbound (db : DbDef) {st : Stmt} {req : Request} {sq : Sqlite} (h : ¬ Binds st req sq) :
    ∃ st' s evs, (∀ e ∈ s :: evs, e.isRestart = false ∧ ∀ rc, e.what ≠ .step rc) ∧
      serve db st req sq = ⟨st', s :: evs, [], .error sq.errmsg⟩ := by
  unfold serve
  cases hc : sq.clearOk with
  | false =>
    simp only [start, Bool.false_eq_true, ↓reduceIte]
    exact ⟨_, _, [], by simp [Ev.isRestart], rfl⟩
  | true =>
    obtain ⟨-, hok⟩ := bindArgs_ok sq.bindOk req.args 0 st.reset.clearBindings rfl
    have hno := bindArgs_no_step sq.bindOk req.args 0 st.reset.clearBindings
    have hbind : (bindArgs sq.bindOk 0 req.args st.reset.clearBindings).2.2 = false := by
      rw [Bool.eq_false_iff]
      intro hb
      rw [hok] at hb
      exact h ⟨hc, by simpa [Stmt.clearBindings, Stmt.reset] using hb⟩
    simp only [start, Bool.false_eq_true, ↓reduceIte]
    rcases hb : bindArgs sq.bindOk 0 req.args st.reset.clearBindings with ⟨st', evs, ok⟩
    rw [hb] at hno hbind
    obtain rfl : ok = false := hbind
    refine ⟨_, _, _, ?_, rfl⟩
    intro e he
    rcases List.mem_cons.1 he with rfl | he
    · simp [Ev.isRestart]
    · obtain ⟨j, hj⟩ := hno e he
      simp [Ev.isRestart, hj]

theorem restarts_locked_zero {evs : List Ev} (h : ∀ e ∈ evs, e.isRestart = false ∧ ∀ rc, e.what ≠ .step rc) :
    restarts evs = 0 ∧ locked evs = 0 := by
  constructor
  · rw [restarts, List.countP_eq_zero]
    intro e he
    simp [(h e he).1]
  · rw [locked, List.countP_eq_zero]
    intro e he
    have hne := (h e he).2
    unfold Ev.isLock
    cases hw : e.what <;> simp_all

theorem serve_retries (db : DbDef) (st : Stmt) (req : Request) (sq : Sqlite) :
    RetriesOk (budget db req).toNat (serve db st req sq) := by
  by_cases hb : Binds st req sq
  · obtain ⟨st', s, evs, hno, heq⟩ := serve_eq db hb
    obtain ⟨hr, hl⟩ := restarts_locked_zero hno
    rw [heq]
    exact (executeQuery_retries _ _ _ _ _ _).after (fun e he => (hno e (List.mem_cons_of_mem _ he)).2) hr hl
  · obtain ⟨st', s, evs, hno, heq⟩ := serve_unbound db hb
    obtain ⟨hr, hl⟩ := restarts_locked_zero hno
    rw [heq]
    exact ⟨by simp, past_paid_cons _ fun e he => (hno e (List.mem_cons_of_mem _ he)).2, by rw [hr, hl]; simp⟩

theorem serve_done_iff (db : DbDef) (st : Stmt) (req : Request) (sq : Sqlite) :
    (serve db st req sq).out = .done ↔
      Binds st req sq ∧ Reaches (budget db req).toNat (trace sq.columnCount sq.steps) := by
  by_cases hb : Binds st req sq
  · obtain ⟨st', s, evs, -, heq⟩ := serve_eq db hb
    rw [heq, after_out, executeQuery_done_iff]
    exact ⟨fun h => ⟨hb, h⟩, fun h => h.2⟩
  · obtain ⟨st', s, evs, -, heq⟩ := serve_unbound db hb
    rw [heq]
    exact ⟨fun h => (by cases h), fun h => absurd h.1 hb⟩

/-- The verdict on a request. -/
structure Verdict (dbs : Map DbDef) (req : Request) (sq : Sqlite) : Prop where
  /-- It succeeds iff the names are known, the arguments bind, and the steps come to DONE within the
  budget. -/
  ok : (∃ r, (runQueryOn dbs req sq).result = some r ∧ r.ok = true) ↔
    ∃ db q, dbs req.db = some db ∧ db.queries req.query = some q ∧ Binds q.stmt req sq ∧
      Reaches (budget db req).toNat (trace sq.columnCount sq.steps)
  /-- A failure has a message and no rows. -/
  failure : ∀ r, (runQueryOn dbs req sq).result = some r → r.ok = false → r.msg ≠ "" ∧ r.rows = []
  /-- The restarts, the counter and the assertion. -/
  retries : ∀ db q, dbs req.db = some db → db.queries req.query = some q →
    RetriesOk (budget db req).toNat (serve db q.stmt req sq)
  /-- It returns, whatever SQLite goes on to return, if every execution yields finitely many rows. -/
  returns : ∀ o : Nat → StepRes, (∀ n, ∃ m, n ≤ m ∧ (o m).rc % 256 ≠ sqliteRow) →
    ∃ n r, ∀ m, n ≤ m → (runQueryOn dbs req { sq with steps := upTo o m }).result = some r

theorem append_ne_empty {a b : String} (h : a ≠ "") : a ++ b ≠ "" := by
  intro hab
  have hlen := congrArg String.length hab
  rw [String.length_append] at hlen
  apply h
  exact String.length_eq_zero_iff.1 (Nat.eq_zero_of_add_eq_zero_right hlen)

theorem errorText_ne (file sqlId errmsg : String) : errorText file sqlId errmsg ≠ "" := by
  unfold errorText
  iterate 5 apply append_ne_empty
  decide

/-- What comes back for an execution that has ended. -/
theorem respond_cases {q : Query} {x : Exec} {r : Response} (h : respond q x = some r) :
    (x.out = .done ∧ r = { ok := true, msg := "ok", rows := x.rows }) ∨
    (r.ok = false ∧ r.msg ≠ "" ∧ r.rows = []) := by
  unfold respond at h
  split at h
  · rename_i hout
    cases h
    exact Or.inl ⟨hout, rfl⟩
  · cases h
    exact Or.inr ⟨rfl, errorText_ne _ _ _, rfl⟩
  · cases h
  · cases h

theorem runQueryOn_failure {dbs : Map DbDef} {req : Request} {sq : Sqlite} {r : Response}
    (h : (runQueryOn dbs req sq).result = some r) (hok : r.ok = false) : r.msg ≠ "" ∧ r.rows = [] := by
  unfold runQueryOn at h
  cases hl : lookup dbs req with
  | error msg =>
    rw [hl] at h
    cases h
    refine ⟨?_, rfl⟩
    unfold lookup at hl
    split at hl
    · cases hl
      iterate 2 apply append_ne_empty
      decide
    · split at hl
      · cases hl
        iterate 4 apply append_ne_empty
        decide
      · cases hl
  | ok p =>
    rw [hl] at h
    rcases respond_cases h with ⟨-, rfl⟩ | ⟨-, hmsg, hrows⟩
    · cases hok
    · exact ⟨hmsg, hrows⟩

theorem lookup_iff (dbs : Map DbDef) (req : Request) (db : DbDef) (q : Query) :
    lookup dbs req = .ok (db, q) ↔ dbs req.db = some db ∧ db.queries req.query = some q := by
  constructor
  · exact lookup_ok
  · rintro ⟨hd, hq⟩
    simp [lookup, hd, hq]

theorem runQueryOn_ok_iff (dbs : Map DbDef) (req : Request) (sq : Sqlite) :
    (∃ r, (runQueryOn dbs req sq).result = some r ∧ r.ok = true) ↔
      ∃ db q, lookup dbs req = .ok (db, q) ∧ (serve db q.stmt req sq).out = .done := by
  unfold runQueryOn
  cases hl : lookup dbs req with
  | error msg => simp
  | ok p =>
    obtain ⟨db, q⟩ := p
    constructor
    · rintro ⟨r, hr, hok⟩
      rcases respond_cases hr with ⟨hout, -⟩ | ⟨hno, -⟩
      · exact ⟨db, q, rfl, hout⟩
      · rw [hok] at hno
        cases hno
    · rintro ⟨db', q', heq, hout⟩
      cases heq
      exact ⟨{ ok := true, msg := "ok", rows := (serve db q.stmt req sq).rows }, by simp [respond, hout], rfl⟩

theorem serve_ends (db : DbDef) (st : Stmt) (req : Request) (sq : Sqlite)
    (h : (budget db req).toNat < sq.steps.countP fun o => o.rc % 256 != sqliteRow) :
    (serve db st req sq).out ≠ .running := by
  unfold serve
  rcases start st false sq.clearOk with ⟨st, _ | _⟩
  · simp
  · simp only
    rcases bindArgs sq.bindOk 0 req.args st with ⟨st', evs, _ | _⟩
    · simp
    · exact executeQuery_ends _ _ _ _ _ _ h

theorem serve_append (db : DbDef) (st : Stmt) (req : Request) (sq : Sqlite) (more : List StepRes)
    (h : (serve db st req sq).out ≠ .running) :
    serve db st req { sq with steps := sq.steps ++ more } = serve db st req sq := by
  revert h
  unfold serve
  rcases start st false sq.clearOk with ⟨st, _ | _⟩
  · exact fun _ => rfl
  · simp only
    rcases bindArgs sq.bindOk 0 req.args st with ⟨st', evs, _ | _⟩
    · exact fun _ => rfl
    · intro h
      simp only
      rw [executeQuery_append _ _ _ _ _ _ _ h]

/-- On an unbounded trace in which every execution yields finitely many rows, `run_query` returns. -/
theorem runQueryOn_returns (dbs : Map DbDef) (req : Request) (sq : Sqlite) {o : Nat → StepRes}
    (ho : ∀ n, ∃ m, n ≤ m ∧ (o m).rc % 256 ≠ sqliteRow) :
    ∃ n r, ∀ m, n ≤ m → (runQueryOn dbs req { sq with steps := upTo o m }).result = some r := by
  cases hl : lookup dbs req with
  | error msg =>
    refine ⟨0, { ok := false, msg := msg }, ?_⟩
    intro m _
    simp [runQueryOn, hl]
  | ok p =>
    obtain ⟨db, q⟩ := p
    have hmany (n : Nat) : ∃ m, n ≤ m ∧ ((o m).rc % 256 != sqliteRow) = true := by
      obtain ⟨m, hm, hrow⟩ := ho n
      exact ⟨m, hm, by simpa using hrow⟩
    obtain ⟨n, hn⟩ := exists_countP_le (p := fun x : StepRes => x.rc % 256 != sqliteRow) hmany
      ((budget db req).toNat + 1)
    have hends := serve_ends db q.stmt req { sq with steps := upTo o n } (Nat.lt_of_succ_le hn)
    obtain ⟨r, hr⟩ : ∃ r, respond q (serve db q.stmt req { sq with steps := upTo o n }) = some r := by
      have hassert := (serve_retries db q.stmt req { sq with steps := upTo o n }).assertion
      unfold respond
      cases hout : (serve db q.stmt req { sq with steps := upTo o n }).out with
      | done | error => exact ⟨_, rfl⟩
      | aborted => exact absurd hout hassert
      | running => exact absurd hout hends
    refine ⟨n, r, ?_⟩
    intro m hm
    obtain ⟨more, hmore⟩ := upTo_mono o hm
    simp only [runQueryOn, hl]
    rw [← hmore]
    exact (congrArg (respond q) (serve_append db q.stmt req { sq with steps := upTo o n } more hends)).trans hr

/-- **The verdict of `run_query`**, for every table, request and trace of outcomes. -/
theorem run_query_verdict (dbs : Map DbDef) (req : Request) (sq : Sqlite) : Verdict dbs req sq where
  ok := by
    rw [runQueryOn_ok_iff]
    constructor
    · rintro ⟨db, q, hl, hout⟩
      obtain ⟨hd, hq⟩ := (lookup_iff dbs req db q).1 hl
      obtain ⟨hb, hr⟩ := (serve_done_iff db q.stmt req sq).1 hout
      exact ⟨db, q, hd, hq, hb, hr⟩
    · rintro ⟨db, q, hd, hq, hb, hr⟩
      exact ⟨db, q, (lookup_iff dbs req db q).2 ⟨hd, hq⟩, (serve_done_iff db q.stmt req sq).2 ⟨hb, hr⟩⟩
  failure r hr hok := runQueryOn_failure hr hok
  retries db q _ _ := serve_retries db q.stmt req sq
  returns o ho := runQueryOn_returns dbs req sq ho

end Acppsrv.Db
