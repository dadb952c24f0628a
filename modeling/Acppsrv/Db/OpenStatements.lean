import Acppsrv.Db.Isolation
/-!
# Statements left open (db_server.cpp:43-94, sqlite3.cpp:190-216)

A statement that was stepped and neither reached DONE nor was reset may keep its transaction and its
locks. The retry branch of `execute_query` waits first and resets afterwards (:60-66), and an
exception leaves the loop without a reset: `signal_finished` tells the other threads to retry while
the statement is still open, and so it stays until its next use.

`statements_closed` is the exact condition: no statement is open where the thread is blocked, where it has
signalled or where it has returned if and only if every request steps cleanly (`Clean`). `wait_for` tests
`finished` first, so a retry that finds it set does not block.
-/
namespace Acppsrv.Db
open Lib

/-- No statement of the table is stepped and neither DONE nor reset. -/
def NoneOpen (dbs : Map DbDef) : Prop :=
  ∀ d db qn q, dbs d = some db → db.queries qn = some q → q.stmt.phase ≠ .stepped

/-- At this event the thread is blocked, or has told the others to retry. -/
def What.yields : What → Prop
  | .blocked | .signal => True
  | _ => False

/-- No statement is open where `run_query` yields, and when it has returned. -/
structure ClosedRun (r : Run) : Prop where
  yields : ∀ u ∈ r.log, u.ev.what.yields → NoneOpen u.dbs
  returned : r.result.isSome = true → NoneOpen r.dbs

/-- The steps of a request before DONE: rows, and BUSY or LOCKED only if there is no wait, or one that
finds `finished` set, and within the budget. -/
def CleanSteps (retryWait : Nat) (retries : UInt32) (os : List StepRes) : Prop :=
  (∀ o ∈ os.takeWhile fun o => o.rc % 256 != sqliteDone,
    o.rc % 256 = sqliteRow ∨ isLocked o.rc = true ∧ (retryWait = 0 ∨ o.finished = true)) ∧
  (os.takeWhile fun o => o.rc % 256 != sqliteDone).countP (fun o => isLocked o.rc) ≤ retries.toNat

/-- Every argument finds its parameter and is accepted. -/
def Binds (st : Stmt) (req : Request) (sq : Sqlite) : Prop :=
  sq.clearOk = true ∧ ∀ i < req.args.length, i < st.params.length ∧ sq.bindOk i = true

/-- A request that is not executed, or whose steps are clean. -/
def Clean (dbs : Map DbDef) (c : Call) : Prop :=
  ∀ db q, lookup dbs c.req = .ok (db, q) → Binds q.stmt c.req c.sqlite →
    CleanSteps db.retryWait (budget db c.req) c.sqlite.steps

/-! ## The loop -/

/-- What `ClosedRun` asks of the statement in use. -/
structure Exec.Closed (x : Exec) : Prop where
  yields : ∀ e ∈ x.log, e.what.yields → e.stmt.phase ≠ .stepped
  ended : x.out = .done ∨ (∃ msg, x.out = .error msg) → x.stmt.phase ≠ .stepped

/-- Events that do not yield change nothing. -/
theorem closed_after {x : Exec} {evs : List Ev} (h : ∀ e ∈ evs, ¬ e.what.yields) :
    (x.after evs).Closed ↔ x.Closed := by
  constructor
  · rintro ⟨hy, he⟩
    exact ⟨fun e hm => hy e (List.mem_append_right _ hm), he⟩
  · rintro ⟨hy, he⟩
    refine ⟨fun e hm hw => ?_, he⟩
    rcases List.mem_append.1 hm with hm | hm
    · exact absurd hw (h e hm)
    · exact hy e hm hw

theorem isLocked_ne_row {rc : Nat} (h : isLocked rc = true) : rc % 256 ≠ sqliteRow := by
  simp only [isLocked, Bool.or_eq_true, beq_iff_eq, sqliteBusy, sqliteLocked, sqliteRow] at *
  omega

theorem isLocked_ne_done {rc : Nat} (h : isLocked rc = true) : rc % 256 ≠ sqliteDone := by
  simp only [isLocked, Bool.or_eq_true, beq_iff_eq, sqliteBusy, sqliteLocked, sqliteDone] at *
  omega

theorem cleanSteps_done {w : Nat} {retries : UInt32} {o : StepRes} {os : List StepRes}
    (h : o.rc % 256 = sqliteDone) : CleanSteps w retries (o :: os) := by
  simp [CleanSteps, h]

theorem cleanSteps_row {w : Nat} {retries : UInt32} {o : StepRes} {os : List StepRes}
    (h : o.rc % 256 = sqliteRow) : CleanSteps w retries (o :: os) ↔ CleanSteps w retries os := by
  have hd : (sqliteRow != sqliteDone) = true := by decide
  have hl : isLocked o.rc = false := by simp [isLocked, h, sqliteRow, sqliteBusy, sqliteLocked]
  simp only [CleanSteps, List.takeWhile_cons, hd, ↓reduceIte, List.mem_cons, forall_eq_or_imp, h, true_or,
    true_and, List.countP_cons, hl, Bool.false_eq_true, Nat.add_zero]

theorem cleanSteps_locked {w : Nat} {retries : UInt32} {o : StepRes} {os : List StepRes}
    (h : isLocked o.rc = true) (hr : 0 < retries.toNat) :
    CleanSteps w retries (o :: os) ↔ (w = 0 ∨ o.finished = true) ∧ CleanSteps w (retries - 1) os := by
  have hd : (o.rc % 256 != sqliteDone) = true := by simpa using isLocked_ne_done h
  simp only [CleanSteps, List.takeWhile_cons, hd, ↓reduceIte, List.mem_cons, forall_eq_or_imp, h,
    isLocked_ne_row h, false_or, true_and, List.countP_cons, retries_sub hr]
  constructor
  · rintro ⟨⟨hw, hall⟩, hcount⟩; exact ⟨hw, hall, by omega⟩
  · rintro ⟨hw, hall, hcount⟩; exact ⟨⟨hw, hall⟩, by omega⟩

theorem not_cleanSteps {w : Nat} {retries : UInt32} {o : StepRes} {os : List StepRes}
    (hd : o.rc % 256 ≠ sqliteDone) (hr : o.rc % 256 ≠ sqliteRow)
    (hl : isLocked o.rc = true → retries.toNat = 0) : ¬ CleanSteps w retries (o :: os) := by
  rintro ⟨hall, hcount⟩
  have hd' : (o.rc % 256 != sqliteDone) = true := by simpa using hd
  simp only [List.takeWhile_cons, hd', ↓reduceIte, List.mem_cons, forall_eq_or_imp] at hall hcount
  rcases hall.1 with h | ⟨h, -⟩
  · exact hr h
  · have := hl h
    rw [List.countP_cons, if_pos h] at hcount
    omega

/-- A retry yields only where it blocks. -/
theorem retry_quiet {w rc : Nat} {finished : Bool} (h : w = 0 ∨ finished = true) (st st' : Stmt) :
    ∀ e ∈ (⟨.step rc, st⟩ :: (retryWaitEvents w finished st ++ [⟨.start true, st'⟩]) : List Ev),
      ¬ e.what.yields := by
  rcases retryWaitEvents_cases w finished st with ⟨_, he⟩ | ⟨_, he⟩ | ⟨hw, hf, _⟩
  · simp [he, What.yields]
  · simp [he, What.yields]
  · simp [hw, hf] at h

/-- The loop leaves its statement closed at every yield and at its end iff its steps are clean. -/
theorem executeQuery_closed (w columns : Nat) (os : List StepRes) : ∀ (retries : UInt32) (st : Stmt)
    (rows : List Row), (executeQuery w columns retries st rows os).Closed ↔ CleanSteps w retries os := by
  induction os with
  | nil =>
    intro retries st rows
    refine ⟨fun _ => by simp [CleanSteps], fun _ => ⟨by simp [executeQuery], ?_⟩⟩
    rintro (h | ⟨msg, h⟩) <;> simp [executeQuery] at h
  | cons o os ih =>
    intro retries st rows
    have hspec := nextRow_spec retries o.rc
    simp only [executeQuery]
    cases hn : nextRow retries o.rc with
    | none =>
      rw [hn] at hspec
      obtain ⟨hd, hr, hl⟩ := hspec
      refine ⟨fun hc => ?_, fun hc => absurd hc (not_cleanSteps hd hr hl)⟩
      have := hc.yields ⟨.signal, st.step o.rc⟩ (by simp) trivial
      simp [Stmt.step, hd] at this
    | some s =>
      rw [hn] at hspec
      cases s with
      | done =>
        refine ⟨fun _ => cleanSteps_done hspec, fun _ => ⟨fun e he _ => ?_, fun _ => ?_⟩⟩
        · have hst : e.stmt = st.step o.rc := by
            simp only [List.mem_cons, List.not_mem_nil, or_false] at he
            rcases he with rfl | rfl <;> rfl
          rw [hst]
          simp [Stmt.step, hspec]
        · simp [Stmt.step, hspec]
      | row =>
        rw [cleanSteps_row hspec, ← ih retries (st.step o.rc) (rows ++ [readRow columns o.row])]
        apply closed_after
        simp [What.yields]
      | locked =>
        obtain ⟨hl, hr⟩ := hspec
        rw [cleanSteps_locked hl hr, if_neg (by omega)]
        by_cases hw : w = 0 ∨ o.finished = true
        · rw [closed_after, ih]
          · exact ⟨fun h => ⟨hw, h⟩, fun h => h.2⟩
          · exact retry_quiet hw _ _
        · -- blocked in the wait with the statement open
          refine ⟨fun hc => ?_, fun hc => absurd hc.1 hw⟩
          have hblocked : ⟨.blocked, st.step o.rc⟩ ∈ retryWaitEvents w o.finished (st.step o.rc) := by
            rcases retryWaitEvents_cases w o.finished (st.step o.rc) with ⟨h, _⟩ | ⟨h, _⟩ | ⟨_, _, h⟩
            · exact absurd (Or.inl h) hw
            · exact absurd (Or.inr h) hw
            · simp [h]
          have := hc.yields ⟨.blocked, st.step o.rc⟩ (by simp [hblocked]) trivial
          simp [Stmt.step, isLocked_ne_done hl] at this

/-! ## A request -/

theorem bindArgs_ok (ok : Nat → Bool) (vs : List Value) : ∀ (i : Nat) (st : Stmt), st.phase = .ready →
    (bindArgs ok i vs st).1.phase = .ready ∧
    ((bindArgs ok i vs st).2.2 = true ↔ ∀ j < vs.length, i + j < st.params.length ∧ ok (i + j) = true) := by
  induction vs with
  | nil => intro i st hp; exact ⟨hp, by simp [bindArgs]⟩
  | cons v vs ih =>
    intro i st hp
    simp only [bindArgs, bind_eq]
    cases hb : st.bindValue i (sqlOf v) (ok i) with
    | none =>
      refine ⟨hp, by simp, fun h => ?_⟩
      obtain ⟨hlt, hok⟩ := h 0 (by simp)
      rw [Nat.add_zero] at hlt hok
      simp [Stmt.bindValue, hp, hlt, hok] at hb
    | some st₁ =>
      obtain ⟨-, hi, hok, rfl⟩ := bindValue_some hb
      obtain ⟨hph, hiff⟩ := ih (i + 1) { st with params := st.params.set i (sqlOf v) } hp
      refine ⟨hph, hiff.trans ⟨fun h j hj => ?_, fun h j hj => ?_⟩⟩
      · cases j with
        | zero => exact ⟨hi, hok⟩
        | succ j =>
          have := h j (by simpa using hj)
          simpa [Nat.add_assoc, Nat.add_comm 1 j] using this
      · have := h (j + 1) (by simpa using hj)
        simpa [Nat.add_assoc, Nat.add_comm 1 j] using this

/-- A request that fails before its first step leaves a reset statement. -/
theorem closed_of_ready {st : Stmt} {evs : List Ev} {msg : String} (hp : st.phase = .ready)
    (hevs : ∀ e ∈ evs, ¬ e.what.yields) : (Exec.mk st evs [] (.error msg)).Closed :=
  ⟨fun e he hw => absurd hw (hevs e he), fun _ => by simp [hp]⟩

theorem serve_closed (db : DbDef) (st : Stmt) (req : Request) (sq : Sqlite) :
    (serve db st req sq).Closed ↔
      (Binds st req sq → CleanSteps db.retryWait (budget db req) sq.steps) := by
  unfold serve
  cases hc : sq.clearOk with
  | false =>
    simp only [start, Bool.false_eq_true, ↓reduceIte]
    exact ⟨fun _ hb => by simp [Binds, hc] at hb, fun _ => closed_of_ready rfl (by simp [What.yields])⟩
  | true =>
    obtain ⟨hph, hok⟩ := bindArgs_ok sq.bindOk req.args 0 st.reset.clearBindings rfl
    have hno := bindArgs_no_step sq.bindOk req.args 0 st.reset.clearBindings
    have hbinds : (bindArgs sq.bindOk 0 req.args st.reset.clearBindings).2.2 = true ↔ Binds st req sq := by
      rw [hok]
      simp [Binds, hc, Stmt.clearBindings, Stmt.reset]
    simp only [start, Bool.false_eq_true, ↓reduceIte]
    rcases hb : bindArgs sq.bindOk 0 req.args st.reset.clearBindings with ⟨st', evs, ok⟩
    rw [hb] at hno hph hbinds
    have hquiet : ∀ e ∈ evs, ¬ e.what.yields := by
      intro e he
      obtain ⟨j, hj⟩ := hno e he
      simp [hj, What.yields]
    cases ok with
    | false =>
      have hnb : ¬ Binds st req sq := fun h => by simpa using hbinds.2 h
      refine ⟨fun _ h => absurd h hnb, fun _ => closed_of_ready hph ?_⟩
      intro e he
      rcases List.mem_cons.1 he with rfl | he
      · simp [What.yields]
      · exact hquiet e he
    | true =>
      show (Exec.after _ _).Closed ↔ _
      rw [closed_after, executeQuery_closed]
      · exact ⟨fun h _ => h, fun h => h (hbinds.1 rfl)⟩
      · intro e he
        simp only [List.mem_cons, List.mem_append, List.not_mem_nil, or_false] at he
        rcases he with rfl | he | rfl
        · simp [What.yields]
        · exact hquiet e he
        · simp [What.yields]

/-! ## The table -/

theorem noneOpen_setStmt {dbs : Map DbDef} {req : Request} {db : DbDef} {q : Query} {st : Stmt}
    (h : lookup dbs req = .ok (db, q)) (hN : NoneOpen dbs) (hst : st.phase ≠ .stepped) :
    NoneOpen (setStmt dbs req.db req.query db q st) := by
  obtain ⟨hd, hq⟩ := lookup_ok h
  intro d db' qn q' hd' hq'
  by_cases hdd : d = req.db
  · subst hdd
    obtain rfl := Option.some.inj ((Function.update_self (f := dbs) ..).symm.trans hd')
    by_cases hqq : qn = req.query
    · subst hqq
      obtain rfl := Option.some.inj ((Function.update_self (f := db.queries) ..).symm.trans hq')
      exact hst
    · simp only [Function.update_of_ne hqq] at hq'
      exact hN _ _ _ _ hd hq'
  · rw [setStmt, Function.update_of_ne hdd] at hd'
    exact hN _ _ _ _ hd' hq'

theorem not_noneOpen_setStmt {dbs : Map DbDef} {d qn : String} {db : DbDef} {q : Query} {st : Stmt}
    (hN : NoneOpen (setStmt dbs d qn db q st)) : st.phase ≠ .stepped := by
  refine hN d _ qn { q with stmt := st } (Function.update_self ..) ?_
  exact Function.update_self ..

theorem respond_isSome (q : Query) (x : Exec) :
    (respond q x).isSome = true ↔ x.out = .done ∨ ∃ msg, x.out = .error msg := by
  unfold respond
  cases x.out <;> simp

/-- One request, on a table without an open statement. -/
theorem closedRun_of_clean {dbs : Map DbDef} {c : Call} (hN : NoneOpen dbs) (hc : Clean dbs c) :
    ClosedRun (runQueryOn dbs c.req c.sqlite) := by
  unfold runQueryOn
  cases hl : lookup dbs c.req with
  | error msg => exact ⟨by simp, fun _ => hN⟩
  | ok p =>
    obtain ⟨db, q⟩ := p
    have hx := (serve_closed db q.stmt c.req c.sqlite).2 (hc db q hl)
    refine ⟨fun u hu hw => ?_, fun hr => ?_⟩
    · obtain ⟨e, he, rfl⟩ := List.mem_map.1 hu
      exact noneOpen_setStmt hl hN (hx.yields e he hw)
    · exact noneOpen_setStmt hl hN (hx.ended ((respond_isSome q _).1 hr))

/-- One request that is not clean, on any table. -/
theorem clean_of_closedRun {dbs : Map DbDef} {c : Call} (h : ClosedRun (runQueryOn dbs c.req c.sqlite)) :
    Clean dbs c := by
  intro db q hl
  unfold runQueryOn at h
  rw [hl] at h
  refine (serve_closed db q.stmt c.req c.sqlite).1 ⟨fun e he hw => ?_, fun hr => ?_⟩
  · exact not_noneOpen_setStmt (h.yields _ (List.mem_map_of_mem he) hw)
  · exact not_noneOpen_setStmt (h.returned ((respond_isSome q _).2 hr))

/-- `Clean` looks at the definitions of the table only. -/
theorem clean_blank (dbs : Map DbDef) (c : Call) : Clean (blank dbs) c ↔ Clean dbs c := by
  have hbinds (q : Query) : Binds q.blank.stmt c.req c.sqlite ↔ Binds q.stmt c.req c.sqlite := by
    simp [Binds, Query.blank, Stmt.blank]
  unfold Clean
  rw [lookup_blank]
  cases lookup dbs c.req with
  | error msg => simp [Except.map]
  | ok p =>
    constructor
    · intro h db q he hb
      cases he
      exact h db.blank q.blank rfl ((hbinds q).2 hb)
    · intro h db q he hb
      cases he
      exact h p.1 p.2 rfl ((hbinds p.2).1 hb)

/-! ## Histories -/

/-- After the calls so far: every request closed its statement iff all were clean, and then nothing
is open between two requests. -/
structure ClosedInv (dbs : Map DbDef) (calls : List Call) (t : Thread) : Prop where
  defs : blank t.dbs = blank dbs
  closed : (∀ r ∈ t.records, ClosedRun r.run) ↔ ∀ c ∈ calls, Clean dbs c
  idle : (∀ c ∈ calls, Clean dbs c) → t.busy = false → NoneOpen t.dbs

theorem closedInv_step {dbs : Map DbDef} {calls : List Call} {t t' : Thread} {c : Call}
    (hI : ClosedInv dbs calls t) (h : threadStep t c = some t') : ClosedInv dbs (calls ++ [c]) t' := by
  unfold threadStep at h
  split at h
  · cases h
  · rename_i hidle
    cases h
    have hidle : t.busy = false := by simpa using hidle
    have hclean : Clean t.dbs c ↔ Clean dbs c := by
      rw [← clean_blank t.dbs, ← clean_blank dbs, hI.defs]
    have hrun (hcs : ∀ x ∈ calls, Clean dbs x) (hc : Clean dbs c) :
        ClosedRun (runQueryOn t.dbs c.req c.sqlite) :=
      closedRun_of_clean (hI.idle hcs hidle) (hclean.2 hc)
    refine ⟨(runQueryOn_keeps _ _ _).trans hI.defs, ?_, fun hcs hb => ?_⟩
    · simp only [List.forall_mem_append, List.forall_mem_singleton, hI.closed]
      refine ⟨fun h => ⟨h.1, hclean.1 (clean_of_closedRun h.2)⟩, fun h => ⟨h.1, hrun h.1 h.2⟩⟩
    · simp only [List.forall_mem_append, List.forall_mem_singleton] at hcs
      exact (hrun hcs.1 hcs.2).returned (by simpa [Option.isNone_eq_false_iff] using hb)

theorem noneOpen_blank (dbs : Map DbDef) : NoneOpen (blank dbs) := by
  intro d db qn q hd hq
  simp only [blank, Option.map_eq_some_iff] at hd
  obtain ⟨db, -, rfl⟩ := hd
  simp only [DbDef.blank, Option.map_eq_some_iff] at hq
  obtain ⟨q, -, rfl⟩ := hq
  simp [Query.blank, Stmt.blank]

theorem blank_blank (dbs : Map DbDef) : blank (blank dbs) = blank dbs := by
  have hquery (q : Query) : q.blank.blank = q.blank := by simp [Query.blank, Stmt.blank]
  have hdb (db : DbDef) : db.blank.blank = db.blank := by
    simp [DbDef.blank, Function.comp_def, hquery]
  funext d
  simp [blank, Function.comp_def, hdb]

/-- **Open statements.** A thread that starts with its statements just prepared leaves none open
where it is blocked, where it has signalled and where it has returned, in the whole of its history, if and
only if every request of the history steps cleanly. -/
theorem statements_closed (dbs : Map DbDef) (calls : List Call) (t : Thread)
    (h : exec threadStep { dbs := blank dbs } calls = some t) :
    (∀ r ∈ t.records, ClosedRun r.run) ↔ ∀ c ∈ calls, Clean dbs c :=
  (exec_history (ClosedInv dbs) ⟨blank_blank dbs, by simp, fun _ _ => noneOpen_blank dbs⟩
    (fun _ _ _ _ hI hstep => closedInv_step hI hstep) h).closed

/-- A request that reads two rows, one that is locked and does not wait (`finished` still stands from the
first one), and one with an argument too many. -/
def cleanHistory : List Call :=
  [⟨find [.vInt64 1],
     { columnCount := 1, steps := [{ rc := 100, row := [.integer 7] }, { rc := 100, row := [.null] }, { rc := 101 }] }⟩,
   ⟨find [.vInt64 1], { columnCount := 1, steps := [{ rc := 5, finished := true }, { rc := 101 }] }⟩,
   ⟨find [.vInt64 1, .vNull, .vNull], { errmsg := "column index out of range", steps := [] }⟩]

theorem statements_closed_cleanHistory : ∃ t, exec threadStep { dbs := blank oneQuery } cleanHistory = some t ∧
    (t.records.map fun r => r.run.result.map (·.ok)) = [some true, some true, some false] ∧
    ∀ r ∈ t.records, ClosedRun r.run := by
  have hrun : ((exec threadStep { dbs := blank oneQuery } cleanHistory).map fun t =>
      t.records.map fun r => r.run.result.map (·.ok)) = some [some true, some true, some false] := by decide
  have hclean : ∀ c ∈ cleanHistory, Clean oneQuery c := by
    intro c hc db q hl _
    simp only [cleanHistory, List.mem_cons, List.not_mem_nil, or_false] at hc
    rcases hc with rfl | rfl | rfl
    · rw [cleanSteps_row rfl, cleanSteps_row rfl]
      exact cleanSteps_done rfl
    · have hdb : db.retries = 3 := by
        obtain rfl := Option.some.inj (lookup_ok hl).1
        rfl
      have hbudget : 0 < (budget db (find [.vInt64 1])).toNat := by simp [budget, find, hdb]
      exact (cleanSteps_locked (by decide) hbudget).2 ⟨Or.inr rfl, cleanSteps_done rfl⟩
    · simp [CleanSteps]
  obtain ⟨t, ht, hr⟩ := Option.map_eq_some_iff.1 hrun
  exact ⟨t, ht, hr, (statements_closed oneQuery cleanHistory t ht).2 hclean⟩

/-- Where a statement is. -/
def phaseOf (dbs : Map DbDef) (d qn : String) : Option Phase :=
  ((dbs d).bind (·.queries qn)).map (·.stmt.phase)

theorem noneOpen_phaseOf {dbs : Map DbDef} (h : NoneOpen dbs) (d qn : String) :
    phaseOf dbs d qn ≠ some .stepped := by
  unfold phaseOf
  cases hd : dbs d with
  | none => simp
  | some db =>
    cases hq : db.queries qn with
    | none => simp [hq]
    | some q => simpa [hq] using h d db qn q hd hq

/-- A locked database with one retry, then an interrupt after the first row. -/
def lockedAndInterrupted : List Call :=
  [⟨find [.vInt64 1], { columnCount := 1, steps := [{ rc := 5 }, { rc := 101 }] }⟩,
   ⟨find [.vInt64 1], { columnCount := 1, steps := [{ rc := 100 }, { rc := 9, errmsg := "interrupted" }] }⟩]

/-- The first request blocks in the retry wait with its statement stepped, the second signals the
other threads and returns with it stepped. -/
theorem open_while_waiting : ∃ t, exec threadStep { dbs := blank oneQuery } lockedAndInterrupted = some t ∧
    (t.records.map fun r => r.run.log.map fun u => (u.ev.what, phaseOf u.dbs "people" "find")) =
      [[(.start false, some .ready), (.bind 0, some .ready), (.columnCount, some .ready), (.step 5, some .stepped),
        (.wait, some .stepped), (.blocked, some .stepped), (.start true, some .ready), (.step 101, some .done),
        (.signal, some .done)],
       [(.start false, some .ready), (.bind 0, some .ready), (.columnCount, some .ready),
        (.step 100, some .stepped), (.columns, some .stepped), (.step 9, some .stepped),
        (.signal, some .stepped)]] ∧
    (t.records.map fun r => r.run.result.map (·.ok)) = [some true, some false] ∧
    phaseOf t.dbs "people" "find" = some .stepped ∧
    ¬ ∀ r ∈ t.records, ClosedRun r.run := by
  have hrun : ((exec threadStep { dbs := blank oneQuery } lockedAndInterrupted).map fun t =>
      (t.records.map (fun r => r.run.log.map fun u => (u.ev.what, phaseOf u.dbs "people" "find")),
       t.records.map (fun r => r.run.result.map (·.ok)), phaseOf t.dbs "people" "find")) = some
      ([[(.start false, some .ready), (.bind 0, some .ready), (.columnCount, some .ready), (.step 5, some .stepped),
        (.wait, some .stepped), (.blocked, some .stepped), (.start true, some .ready), (.step 101, some .done),
        (.signal, some .done)],
       [(.start false, some .ready), (.bind 0, some .ready), (.columnCount, some .ready),
        (.step 100, some .stepped), (.columns, some .stepped), (.step 9, some .stepped),
        (.signal, some .stepped)]], [some true, some false], some .stepped) := by decide
  obtain ⟨t, ht, hp⟩ := Option.map_eq_some_iff.1 hrun
  simp only [Prod.mk.injEq] at hp
  obtain ⟨hlog, hres, hend⟩ := hp
  refine ⟨t, ht, hlog, hres, hend, fun hclosed => ?_⟩
  obtain ⟨r, hr, hrlog⟩ := List.mem_map.1 (hlog ▸ List.mem_cons_self)
  obtain ⟨u, hu, hblocked⟩ := List.mem_map.1
    (hrlog ▸ (by simp : (What.blocked, some Phase.stepped) ∈ _) :
      (What.blocked, some Phase.stepped) ∈ r.run.log.map fun u => (u.ev.what, phaseOf u.dbs "people" "find"))
  obtain ⟨hw, hph⟩ := Prod.mk.inj hblocked
  exact noneOpen_phaseOf ((hclosed r hr).yields u hu (by simp [hw, What.yields])) _ _ hph

end Acppsrv.Db
