import Acppsrv.Db.RunQuery
/-!
# Requests of one thread do not see each other (db_server.cpp:152-190)

Prepared statements live as long as the server, and every exit of `run_query` leaves the one it used
in another state: partly bound, in the middle of a result, or halted.

* `executeQuery_params`, `serve_bound`: every `sqlite3_step` of a request, retries included, runs with
  the arguments of this request and NULL in all other parameters.
* `runQueryOn_blank`: what `run_query` does to SQLite and what it returns is what it does on the
  statements as they were prepared.
* `run_query_isolated`: both, after any history.
-/
namespace Acppsrv.Db
open Lib

/-- What `db_server::bind` puts into the parameter for a value. -/
def sqlOf : Value → SqlVal
  | .notSet | .vNull => .null
  | .vInt64 v => .integer v
  | .vDouble bits => if isNaN bits then .null else .real bits
  | .vText b => .text b
  | .vBlob b => .blob b

/-- The parameters hold the arguments, and NULL where there is none. -/
structure BoundTo (args : List Value) (params : List SqlVal) : Prop where
  arg : ∀ (i : Nat) v, args[i]? = some v → params[i]? = some (sqlOf v)
  rest : ∀ (i : Nat) p, args.length ≤ i → params[i]? = some p → p = .null

theorem bind_eq (st : Stmt) (i : Nat) (v : Value) (accepted : Bool) :
    bind st i v accepted = st.bindValue i (sqlOf v) accepted := by
  cases v <;> rfl

/-! ## The parameters of a step -/

/-- A loop over the arguments that ends normally set parameters `i`, `i + 1`, … to them and left the
others alone. -/
theorem bindArgs_spec (ok : Nat → Bool) (vs : List Value) : ∀ (i : Nat) (st : Stmt),
    (bindArgs ok i vs st).2.2 = true →
    (∀ j v, vs[j]? = some v → (bindArgs ok i vs st).1.params[i + j]? = some (sqlOf v)) ∧
      ∀ j, j < i ∨ i + vs.length ≤ j → (bindArgs ok i vs st).1.params[j]? = st.params[j]? := by
  induction vs with
  | nil => intro i st _; exact ⟨by simp, fun _ _ => rfl⟩
  | cons v vs ih =>
    intro i st
    simp only [bindArgs, bind_eq]
    cases hb : st.bindValue i (sqlOf v) (ok i) with
    | none => simp
    | some st₁ =>
      obtain ⟨-, hi, -, rfl⟩ := bindValue_some hb
      intro hok
      obtain ⟨hset, hkeep⟩ := ih (i + 1) _ hok
      refine ⟨fun j w hj => ?_, fun j hj => ?_⟩
      · cases j with
        | zero =>
          obtain rfl : v = w := by simpa using hj
          simpa [hi] using hkeep i (by omega)
        | succ j =>
          rw [show i + (j + 1) = i + 1 + j by omega]
          exact hset j w (by simpa using hj)
      · simp only [List.length_cons] at hj
        have hne : i ≠ j := by omega
        simpa [hne] using hkeep j (by omega)

/-- Binding stays within the statement. -/
theorem bindArgs_length (ok : Nat → Bool) (vs : List Value) : ∀ (i : Nat) (st : Stmt),
    (bindArgs ok i vs st).1.params.length = st.params.length := by
  induction vs with
  | nil => intro i st; rfl
  | cons v vs ih =>
    intro i st
    simp only [bindArgs, bind_eq]
    cases hb : st.bindValue i (sqlOf v) (ok i) with
    | none => rfl
    | some st₁ =>
      obtain ⟨-, -, -, rfl⟩ := bindValue_some hb
      simp [ih]

theorem bindArgs_no_step (ok : Nat → Bool) (vs : List Value) : ∀ (i : Nat) (st : Stmt),
    ∀ e ∈ (bindArgs ok i vs st).2.1, ∃ j, e.what = .bind j := by
  induction vs with
  | nil => intro i st e he; simp [bindArgs] at he
  | cons v vs ih =>
    intro i st e he
    simp only [bindArgs] at he
    cases hb : bind st i v (ok i) with
    | none => simp only [hb, List.mem_singleton] at he; exact ⟨i, by rw [he]⟩
    | some st₁ =>
      simp only [hb, List.mem_cons] at he
      rcases he with rfl | he
      · exact ⟨i, rfl⟩
      · exact ih (i + 1) st₁ e he

/-- The loop of `execute_query` never binds: `start(true)` keeps the parameters. -/
theorem executeQuery_params (w columns : Nat) (os : List StepRes) : ∀ (retries : UInt32) (st : Stmt)
    (rows : List Row), (executeQuery w columns retries st rows os).stmt.params = st.params ∧
      ∀ e ∈ (executeQuery w columns retries st rows os).log, e.stmt.params = st.params := by
  induction os with
  | nil => intro retries st rows; exact ⟨rfl, by simp [executeQuery]⟩
  | cons o os ih =>
    intro retries st rows
    simp only [executeQuery]
    cases hn : nextRow retries o.rc with
    | none => simp
    | some s =>
      cases s with
      | done => simp
      | row =>
        obtain ⟨hst, hlog⟩ := ih retries (st.step o.rc) (rows ++ [readRow columns o.row])
        refine ⟨hst, fun e he => ?_⟩
        simp only [Exec.after, List.mem_append, List.mem_cons, List.not_mem_nil, or_false] at he
        rcases he with (rfl | rfl) | he
        · rfl
        · rfl
        · exact hlog e he
      | locked =>
        by_cases h0 : retries.toNat = 0
        · simp [h0]
        · simp only [h0, ↓reduceIte]
          obtain ⟨hst, hlog⟩ := ih (retries - 1) (start (st.step o.rc) true true).1 rows
          refine ⟨hst, fun e he => ?_⟩
          simp only [Exec.after, List.mem_append, List.mem_cons, List.not_mem_nil, or_false] at he
          rcases he with (rfl | he | rfl) | he
          · rfl
          · rcases retryWaitEvents_cases w o.finished (st.step o.rc) with ⟨_, h⟩ | ⟨_, h⟩ | ⟨_, _, h⟩
            · rw [h] at he; cases he
            · rw [h] at he
              rw [List.mem_singleton.1 he]
              rfl
            · rw [h] at he
              rcases List.mem_cons.1 he with rfl | he
              · rfl
              · rw [List.mem_singleton.1 he]
                rfl
          · rfl
          · exact hlog e he

/-- Every `sqlite3_step` of a request runs on its own arguments. -/
theorem serve_bound (db : DbDef) (st : Stmt) (req : Request) (sq : Sqlite) :
    ∀ e ∈ (serve db st req sq).log, ∀ rc, e.what = .step rc → BoundTo req.args e.stmt.params := by
  intro e he rc hrc
  unfold serve at he
  cases hc : sq.clearOk with
  | false =>
    simp only [start, hc, Bool.false_eq_true, ↓reduceIte, List.mem_singleton] at he
    rw [he] at hrc; cases hrc
  | true =>
    simp only [start, hc, Bool.false_eq_true, ↓reduceIte] at he
    have hno := bindArgs_no_step sq.bindOk req.args 0 st.reset.clearBindings
    rcases hb : bindArgs sq.bindOk 0 req.args st.reset.clearBindings with ⟨st', evs, ok⟩
    rw [hb] at he hno
    cases ok with
    | false =>
      rcases List.mem_cons.1 he with rfl | he
      · cases hrc
      · obtain ⟨j, hj⟩ := hno e he
        rw [hj] at hrc; cases hrc
    | true =>
      obtain ⟨hset, hkeep⟩ := bindArgs_spec sq.bindOk req.args 0 st.reset.clearBindings (by rw [hb])
      rw [hb] at hset hkeep
      simp only [Exec.after, List.mem_append, List.mem_cons, List.not_mem_nil, or_false] at he
      rcases he with (rfl | he | rfl) | he
      · cases hrc
      · obtain ⟨j, hj⟩ := hno e he
        rw [hj] at hrc; cases hrc
      · cases hrc
      · have hp := (executeQuery_params db.retryWait sq.columnCount sq.steps (budget db req) st' []).2 e he
        rw [hp]
        refine ⟨fun i v hv => by simpa using hset i v hv, fun i p hi hpi => ?_⟩
        rw [hkeep i (by omega)] at hpi
        simp only [Stmt.clearBindings, List.getElem?_map, Option.map_eq_some_iff] at hpi
        obtain ⟨-, -, rfl⟩ := hpi
        rfl

/-! ## The statements as they were prepared -/

/-- A statement just prepared, with as many parameters. -/
def Stmt.blank (st : Stmt) : Stmt := { params := st.params.map fun _ => .null }

def Query.blank (q : Query) : Query := { q with stmt := q.stmt.blank }

def DbDef.blank (db : DbDef) : DbDef := { db with queries := fun qn => (db.queries qn).map Query.blank }

/-- The table with all its statements as they were prepared. -/
def blank (dbs : Map DbDef) : Map DbDef := fun d => (dbs d).map DbDef.blank

theorem Stmt.blank_eq_iff (a b : Stmt) : a.blank = b.blank ↔ a.params.length = b.params.length := by
  simp [Stmt.blank, List.map_const']

/-- What a request steps, on which connection and with which parameters. -/
def stepsOf (r : Run) : List (Nat × Nat × List SqlVal) :=
  r.log.filterMap fun u => match u.ev.what with
    | .step rc => some (u.conn, rc, u.ev.stmt.params)
    | _ => none

/-- A request begins by making the statement blank, or ends at once. -/
theorem serve_blank (db : DbDef) (st : Stmt) (req : Request) (sq : Sqlite) (hc : sq.clearOk = true) :
    serve db st req sq = serve db st.blank req sq := by
  have hclear : st.reset.clearBindings = st.blank.reset.clearBindings := by
    simp [Stmt.reset, Stmt.clearBindings, Stmt.blank]
  unfold serve
  simp only [start, hc, Bool.false_eq_true, ↓reduceIte, hclear]

theorem serve_length (db : DbDef) (st : Stmt) (req : Request) (sq : Sqlite) :
    (serve db st req sq).stmt.params.length = st.params.length := by
  unfold serve
  cases hc : sq.clearOk with
  | false => rfl
  | true =>
    have hlen := bindArgs_length sq.bindOk req.args 0 st.reset.clearBindings
    simp only [start, Bool.false_eq_true, ↓reduceIte]
    rcases hb : bindArgs sq.bindOk 0 req.args st.reset.clearBindings with ⟨st', evs, ok⟩
    have hst : st'.params.length = st.params.length := by
      rw [hb] at hlen
      simpa [Stmt.reset, Stmt.clearBindings] using hlen
    cases ok with
    | false => exact hst
    | true =>
      have hp := (executeQuery_params db.retryWait sq.columnCount sq.steps (budget db req) st' []).1
      show (executeQuery _ _ _ st' [] sq.steps).stmt.params.length = _
      rw [hp, hst]

theorem lookup_blank (dbs : Map DbDef) (req : Request) :
    lookup (blank dbs) req = (lookup dbs req).map fun p => (p.1.blank, p.2.blank) := by
  unfold lookup blank
  cases dbs req.db with
  | none => rfl
  | some db =>
    simp only [Option.map_some, DbDef.blank]
    cases db.queries req.query <;> rfl

theorem lookup_ok {dbs : Map DbDef} {req : Request} {db : DbDef} {q : Query} (h : lookup dbs req = .ok (db, q)) :
    dbs req.db = some db ∧ db.queries req.query = some q := by
  unfold lookup at h
  split at h
  · cases h
  · split at h
    · cases h
    · cases h; exact ⟨by assumption, by assumption⟩

/-- A statement put back with its number of parameters unchanged leaves the rest of the table. -/
theorem blank_setStmt {dbs : Map DbDef} {req : Request} {db : DbDef} {q : Query} {st : Stmt}
    (h : lookup dbs req = .ok (db, q)) (hst : st.params.length = q.stmt.params.length) :
    blank (setStmt dbs req.db req.query db q st) = blank dbs := by
  obtain ⟨hd, hq⟩ := lookup_ok h
  funext d
  by_cases hdd : d = req.db
  · subst hdd
    simp only [blank, setStmt, Function.update_self, Option.map_some, hd, DbDef.blank]
    congr 2
    funext qn
    by_cases hqq : qn = req.query
    · subst hqq
      simp only [Function.update_self, Option.map_some, hq, Query.blank]
      rw [(Stmt.blank_eq_iff st q.stmt).2 hst]
    · simp [hqq]
  · simp [blank, setStmt, hdd]

theorem runQueryOn_keeps (dbs : Map DbDef) (req : Request) (sq : Sqlite) :
    blank (runQueryOn dbs req sq).dbs = blank dbs := by
  unfold runQueryOn
  cases hl : lookup dbs req with
  | error msg => rfl
  | ok p =>
    obtain ⟨db, q⟩ := p
    exact blank_setStmt hl (serve_length db q.stmt req sq)

/-- `run_query` returns, and steps, what it does on the statements as they were prepared. -/
theorem runQueryOn_blank (dbs : Map DbDef) (req : Request) (sq : Sqlite) :
    (runQueryOn dbs req sq).result = (runQueryOn (blank dbs) req sq).result ∧
    stepsOf (runQueryOn dbs req sq) = stepsOf (runQueryOn (blank dbs) req sq) := by
  unfold runQueryOn
  rw [lookup_blank]
  cases lookup dbs req with
  | error msg => exact ⟨rfl, rfl⟩
  | ok p =>
    obtain ⟨db, q⟩ := p
    simp only [Except.map]
    cases hc : sq.clearOk with
    | false =>
      -- clearing failed: nothing was stepped, and the text is SQLite's
      simp only [serve, start, hc, Bool.false_eq_true, ↓reduceIte]
      exact ⟨rfl, rfl⟩
    | true =>
      have hs : serve db q.stmt req sq = serve db.blank q.blank.stmt req sq := serve_blank db q.stmt req sq hc
      refine ⟨by rw [hs]; rfl, ?_⟩
      simp only [stepsOf, List.filterMap_map, hs]
      rfl

/-! ## Histories -/

/-- What a history leaves behind: the definitions as they were, and only steps on the arguments of
their own request. -/
structure Isolated (dbs : Map DbDef) (t : Thread) : Prop where
  defs : blank t.dbs = blank dbs
  bound : ∀ r ∈ t.records, ∀ u ∈ r.run.log, ∀ rc, u.ev.what = .step rc →
    BoundTo r.call.req.args u.ev.stmt.params

theorem isolated_step {dbs : Map DbDef} {t t' : Thread} {c : Call} (hI : Isolated dbs t)
    (h : threadStep t c = some t') : Isolated dbs t' := by
  unfold threadStep at h
  split at h
  · cases h
  · cases h
    refine ⟨(runQueryOn_keeps _ _ _).trans hI.defs, fun r hr u hu rc hrc => ?_⟩
    rcases List.mem_append.1 hr with hr | hr
    · exact hI.bound r hr u hu rc hrc
    · obtain rfl : r = _ := by simpa using hr
      simp only [runQueryOn] at hu
      split at hu
      · simp at hu
      · obtain ⟨e, he, rfl⟩ := List.mem_map.1 hu
        exact serve_bound _ _ _ _ e he rc hrc

theorem isolated_run {dbs : Map DbDef} {calls : List Call} {t : Thread}
    (h : exec threadStep { dbs := dbs } calls = some t) : Isolated dbs t :=
  exec_invariant (fun _ => True) (Isolated dbs) (fun _ _ _ _ hs hstep => isolated_step hs hstep)
    (by simp) ⟨rfl, by simp⟩ h

/-- **Isolation of requests.** In every history on one thread, every `sqlite3_step` of a request,
first execution and retries alike, finds `args[i]` in parameter `i + 1` and NULL in the others; and
after any two histories a request steps the same and gets the same response, if SQLite returns the
same. -/
theorem run_query_isolated (dbs : Map DbDef) (calls₁ calls₂ : List Call) (t₁ t₂ : Thread)
    (h₁ : exec threadStep { dbs := dbs } calls₁ = some t₁)
    (h₂ : exec threadStep { dbs := dbs } calls₂ = some t₂) :
    (∀ r ∈ t₁.records, ∀ u ∈ r.run.log, ∀ rc, u.ev.what = .step rc →
      BoundTo r.call.req.args u.ev.stmt.params) ∧
    ∀ c : Call,
      (runQueryOn t₁.dbs c.req c.sqlite).result = (runQueryOn t₂.dbs c.req c.sqlite).result ∧
      stepsOf (runQueryOn t₁.dbs c.req c.sqlite) = stepsOf (runQueryOn t₂.dbs c.req c.sqlite) := by
  have hI₁ := isolated_run h₁
  have hI₂ := isolated_run h₂
  refine ⟨hI₁.bound, fun c => ?_⟩
  obtain ⟨hr₁, hs₁⟩ := runQueryOn_blank t₁.dbs c.req c.sqlite
  obtain ⟨hr₂, hs₂⟩ := runQueryOn_blank t₂.dbs c.req c.sqlite
  rw [hr₁, hr₂, hs₁, hs₂, hI₁.defs, hI₂.defs]
  exact ⟨rfl, rfl⟩

/-- One database with one query of two parameters, as the server starts with it. -/
def oneQuery : Map DbDef := fun d => if d = "people" then
    some { conn := 0, file := "people.db", retries := 3, retryWait := 1000000, sync := some 0
           queries := fun qn => if qn = "find" then
               some { conn := 0, file := "people.db", sql := "select id from t where a = ?1 and b = ?2",
                      sqlId := "find", stmt := { params := [.null, .null] } }
             else none }
  else none

def find (args : List Value) : Request := ⟨"people", "find", args, true⟩

/-- A bind that fails at the third argument, a read error after a row, and a retried lock. -/
def badHistory : List Call :=
  [⟨find [.vInt64 1, .vText [101], .vNull], { errmsg := "column index out of range", steps := [] }⟩,
   ⟨find [.vText [98], .vBlob [0]],
     { columnCount := 1, steps := [{ rc := 100, row := [.integer 7] }, { rc := 266, errmsg := "disk I/O error" }] }⟩,
   ⟨find [.vInt64 2],
     { columnCount := 1, steps := [{ rc := 517 }, { rc := 100, row := [.integer 8] }, { rc := 101 }] }⟩]

/-- A request with no arguments after that history, and as the first one. -/
theorem run_query_isolated_badHistory : ∃ t₁ t₂,
    exec threadStep { dbs := oneQuery } badHistory = some t₁ ∧
    exec threadStep { dbs := oneQuery } [] = some t₂ ∧
    (t₁.records.map fun r => r.run.result.map (·.ok)) = [some false, some false, some true] ∧
    (∀ r ∈ t₁.records, ∀ u ∈ r.run.log, ∀ rc, u.ev.what = .step rc →
      BoundTo r.call.req.args u.ev.stmt.params) ∧
    stepsOf (runQueryOn t₁.dbs (find []) { steps := [{ rc := 101 }] }) =
      stepsOf (runQueryOn t₂.dbs (find []) { steps := [{ rc := 101 }] }) := by
  have hrun : ((exec threadStep { dbs := oneQuery } badHistory).map fun t =>
      t.records.map fun r => r.run.result.map (·.ok)) = some [some false, some false, some true] := by decide
  obtain ⟨t₁, h₁, hr⟩ := Option.map_eq_some_iff.1 hrun
  have hiso := run_query_isolated oneQuery badHistory [] t₁ _ h₁ rfl
  exact ⟨t₁, _, h₁, rfl, hr, hiso.1, (hiso.2 ⟨find [], { steps := [{ rc := 101 }] }⟩).2⟩

end Acppsrv.Db
