import Mathlib.Data.List.Nodup
import Acppsrv.Lib.Locals
import Acppsrv.Db.Table
/-!
# The database threads (db_server_impl.hpp:9-19, worker.cpp:30-55)

Requests are posted to the pool and any of its threads takes them; a thread finds its entry of
`databases` by `this_thread_idx`. The SQLite calls of the threads interleave in any order. A request
changes only the entry of its thread and no other thread reads it, so its calls are known when it
begins and made one by one afterwards.

`db_server_table`: after `db_server::run` has returned true, every thread finds an entry, all entries
know the same names, and no two threads ever use statements of one connection.
-/
namespace Acppsrv.Db
open Lib

/-- `thread_pool::run` (worker.cpp:35): the index each of its threads sets. -/
def threadPoolRun (size : Nat) : List Nat := List.range size

/-- `db_server::run_query` on a thread; `none` when `databases.at` throws. -/
def runQuery (databases : List (Map DbDef)) (tid : Nat) (req : Request) (sq : Sqlite) : Option Run :=
  databases[tid]?.map fun database => runQueryOn database req sq

structure Pool where
  databases : List (Map DbDef)
  /-- the SQLite calls a thread's request has yet to make -/
  todo : Nat → List Used := fun _ => []
  /-- the thread is still in a request -/
  busy : Nat → Bool := fun _ => false
  /-- thread and connection of the calls made -/
  log : List (Nat × Nat) := []

inductive PoolAct where
  | take (t : Nat) (c : Call)
  | call (t : Nat)

def poolStep (n : Nat) (p : Pool) : PoolAct → Option Pool
  | .take t c =>
    if t ∈ threadPoolRun n ∧ p.todo t = [] ∧ p.busy t = false then
      match runQuery p.databases t c.req c.sqlite with
      -- `std::out_of_range` leaves the handler and `thread_pool::run` restarts the thread
      | none => some p
      | some r => some { p with
          databases := p.databases.set t r.dbs
          todo := Function.update p.todo t r.log
          busy := Function.update p.busy t r.result.isNone }
    else none
  | .call t =>
    match p.todo t with
    | [] => none
    | u :: us => some { p with todo := Function.update p.todo t us, log := p.log ++ [(t, u.conn)] }

/-- The verdict of `run_query` on the names of a request: the message, if they are unknown. -/
def verdict (dbs : Map DbDef) (req : Request) : Option String :=
  match lookup dbs req with
  | .error msg => some msg
  | .ok _ => none

/-! ## What a request finds -/

theorem lookup_of_blank {a b : Map DbDef} {req : Request} {db : DbDef} {q : Query} (hab : blank a = blank b)
    (h : lookup a req = .ok (db, q)) :
    ∃ db' q', lookup b req = .ok (db', q') ∧ q'.conn = q.conn := by
  have ha := lookup_blank a req
  rw [hab, lookup_blank, h] at ha
  cases hb : lookup b req with
  | error msg => rw [hb] at ha; cases ha
  | ok p =>
    obtain ⟨db', q'⟩ := p
    rw [hb] at ha
    simp only [Except.map, Except.ok.injEq, Prod.mk.injEq] at ha
    have hc : q'.blank.conn = q.blank.conn := by rw [ha.2]
    exact ⟨db', q', rfl, hc⟩

theorem verdict_blank (dbs : Map DbDef) (req : Request) : verdict (blank dbs) req = verdict dbs req := by
  unfold verdict
  rw [lookup_blank]
  cases lookup dbs req <;> rfl

/-- The statements a request uses are of a connection of its entry. -/
theorem runQueryOn_conn {dbs : Map DbDef} {req : Request} {sq : Sqlite} {u : Used}
    (hu : u ∈ (runQueryOn dbs req sq).log) : ∃ db q, lookup dbs req = .ok (db, q) ∧ u.conn = q.conn := by
  unfold runQueryOn at hu
  cases hl : lookup dbs req with
  | error msg => rw [hl] at hu; simp at hu
  | ok p =>
    obtain ⟨db, q⟩ := p
    rw [hl] at hu
    obtain ⟨e, -, rfl⟩ := List.mem_map.1 hu
    exact ⟨db, q, rfl, rfl⟩

/-- All entries of the table give the same verdict. -/
theorem TableOk.verdict_eq {cfg : Option Cfg} {n : Nat} {tbl : List (Map DbDef)} (hT : TableOk cfg n tbl)
    {t t' : Nat} {a b : Map DbDef} (ha : tbl[t]? = some a) (hb : tbl[t']? = some b) (req : Request) :
    verdict a req = verdict b req := by
  have hlt {t : Nat} {a : Map DbDef} (h : tbl[t]? = some a) : t < n := by
    rw [← hT.size]; exact (List.getElem?_eq_some_iff.1 h).1
  have hat {t : Nat} {a : Map DbDef} (h : tbl[t]? = some a) : tableAt tbl t req.db = a req.db := by
    simp [tableAt, h]
  have hnames : (a req.db).isSome = (b req.db).isSome := by
    rw [Bool.eq_iff_iff, ← hat ha, ← hat hb, hT.names, hT.names]
    simp [hlt ha, hlt hb]
  unfold verdict lookup
  cases hda : a req.db with
  | none =>
    rw [hda] at hnames
    cases hdb : b req.db with
    | none => rfl
    | some db' => rw [hdb] at hnames; cases hnames
  | some db =>
    rw [hda] at hnames
    cases hdb : b req.db with
    | none => rw [hdb] at hnames; cases hnames
    | some db' =>
      obtain ⟨dc, hdc, hdef⟩ := hT.defines t req.db db ((hat ha).trans hda)
      obtain ⟨dc', hdc', hdef'⟩ := hT.defines t' req.db db' ((hat hb).trans hdb)
      obtain rfl : dc = dc' := by
        have := List.inj_on_of_nodup_map (cfgDbs_nodup cfg) hdc hdc' rfl
        exact (Prod.mk.inj this).2
      have hq : (db.queries req.query).isSome = (db'.queries req.query).isSome := by
        rw [Bool.eq_iff_iff, hdef.names, hdef'.names]
      cases hqa : db.queries req.query <;> cases hqb : db'.queries req.query <;> simp_all

/-! ## The pool -/

/-- `conn` is a connection of the entry of thread `t`. -/
def OwnConn (tbl : List (Map DbDef)) (t conn : Nat) : Prop :=
  ∃ d db, tableAt tbl t d = some db ∧ db.conn = conn

theorem TableOk.ownConn_unique {cfg : Option Cfg} {n : Nat} {tbl : List (Map DbDef)} (hT : TableOk cfg n tbl)
    {t t' conn : Nat} (h : OwnConn tbl t conn) (h' : OwnConn tbl t' conn) : t = t' := by
  obtain ⟨d, db, hd, rfl⟩ := h
  obtain ⟨d', db', hd', hc⟩ := h'
  exact (hT.own t d db t' d' db' hd hd' hc.symm).1

/-- What the threads keep: the definitions of every entry, and calls on connections of their own. -/
structure PoolInv (tbl : List (Map DbDef)) (p : Pool) : Prop where
  defs : p.databases.map blank = tbl.map blank
  todo : ∀ t, ∀ u ∈ p.todo t, OwnConn tbl t u.conn
  log : ∀ e ∈ p.log, OwnConn tbl e.1 e.2

/-- An entry has the definitions it was built with. -/
theorem PoolInv.entry {tbl : List (Map DbDef)} {p : Pool} (hI : PoolInv tbl p) {t : Nat} {dbs : Map DbDef}
    (h : p.databases[t]? = some dbs) : ∃ dbs₀, tbl[t]? = some dbs₀ ∧ blank dbs = blank dbs₀ := by
  have hm := congrArg (fun l => l[t]?) hI.defs
  simp only [List.getElem?_map, h, Option.map_some] at hm
  obtain ⟨dbs₀, h₀, he⟩ := Option.map_eq_some_iff.1 hm.symm
  exact ⟨dbs₀, h₀, he.symm⟩

theorem poolInv_step {cfg : Option Cfg} {n : Nat} {tbl : List (Map DbDef)} {p p' : Pool} {a : PoolAct}
    (hT : TableOk cfg n tbl) (hI : PoolInv tbl p) (h : poolStep n p a = some p') : PoolInv tbl p' := by
  cases a with
  | take t c =>
    simp only [poolStep] at h
    split at h
    · cases hr : runQuery p.databases t c.req c.sqlite with
      | none => rw [hr] at h; cases h; exact hI
      | some r =>
        rw [hr] at h
        cases h
        obtain ⟨dbs, hdbs, rfl⟩ := Option.map_eq_some_iff.1 hr
        obtain ⟨dbs₀, h₀, hblank⟩ := hI.entry hdbs
        refine ⟨?_, fun t' u hu => ?_, hI.log⟩
        · -- the entry written back has the definitions of the entry read
          rw [← hI.defs]
          exact map_set_eq blank hdbs (runQueryOn_keeps dbs c.req c.sqlite)
        · by_cases ht : t' = t
          · subst ht
            simp only [Function.update_self] at hu
            obtain ⟨db, q, hl, hc⟩ := runQueryOn_conn hu
            obtain ⟨db', q', hl', hc'⟩ := lookup_of_blank hblank hl
            obtain ⟨hd', hq'⟩ := lookup_ok hl'
            have hat : tableAt tbl t' c.req.db = some db' := by simp [tableAt, h₀, hd']
            obtain ⟨dc, -, hdef⟩ := hT.defines t' c.req.db db' hat
            exact ⟨c.req.db, db', hat, by rw [hc, ← hc', hdef.onConn _ _ hq']⟩
          · simp only [Function.update_of_ne ht] at hu
            exact hI.todo t' u hu
    · cases h
  | call t =>
    simp only [poolStep] at h
    cases ht : p.todo t with
    | nil => rw [ht] at h; cases h
    | cons u us =>
      rw [ht] at h
      cases h
      have hmem : ∀ v ∈ u :: us, OwnConn tbl t v.conn := ht ▸ hI.todo t
      refine ⟨hI.defs, fun t' v hv => ?_, fun e he => ?_⟩
      · by_cases htt : t' = t
        · subst htt
          simp only [Function.update_self] at hv
          exact hmem v (List.mem_cons_of_mem _ hv)
        · simp only [Function.update_of_ne htt] at hv
          exact hI.todo t' v hv
      · rcases List.mem_append.1 he with he | he
        · exact hI.log e he
        · obtain rfl : e = (t, u.conn) := by simpa using he
          exact hmem u List.mem_cons_self

/-- **The table and its threads.** If `db_server::run` returns true with a pool of `n` threads, its
table is as configured, with a connection for each (thread, database) pair and a `sync` for each
database name; and in every interleaving of the pool's threads, whatever they are asked: every thread
finds its entry, all give the same verdict on the names of a request, and no two threads ever use a
statement of the same connection. -/
theorem db_server_table (cfg : Option Cfg) (disk : Disk) (n : Nat) (tbl : List (Map DbDef))
    (hrun : run cfg disk n = .ok tbl) :
    TableOk cfg n tbl ∧
    ∀ (as : List PoolAct) (p : Pool), exec (poolStep n) { databases := tbl } as = some p →
      (∀ t ∈ threadPoolRun n, ∀ req sq, (runQuery p.databases t req sq).isSome = true) ∧
      (∀ (t t' : Nat) dbs dbs', p.databases[t]? = some dbs → p.databases[t']? = some dbs' →
        ∀ req, verdict dbs req = verdict dbs' req) ∧
      ∀ e ∈ p.log, ∀ e' ∈ p.log, e.1 ≠ e'.1 → e.2 ≠ e'.2 := by
  have hT := run_tableOk hrun
  refine ⟨hT, fun as p hp => ?_⟩
  have hI : PoolInv tbl p := exec_invariant (fun _ => True) (PoolInv tbl)
    (fun _ _ _ _ hs hstep => poolInv_step hT hs hstep) (by simp) ⟨rfl, by simp, by simp⟩ hp
  have hsize : p.databases.length = n := by
    have := congrArg List.length hI.defs
    simpa [hT.size] using this
  refine ⟨fun t ht req sq => ?_, fun t t' dbs dbs' h h' req => ?_, fun e he e' he' hne hc => ?_⟩
  · have hlt : t < p.databases.length := by simpa [threadPoolRun, hsize] using ht
    simp [runQuery, hlt]
  · obtain ⟨a, ha, hba⟩ := hI.entry h
    obtain ⟨b, hb, hbb⟩ := hI.entry h'
    rw [← verdict_blank dbs, ← verdict_blank dbs', hba, hbb, verdict_blank, verdict_blank]
    exact hT.verdict_eq ha hb req
  · exact hne (hT.ownConn_unique (hI.log e he) (hc ▸ hI.log e' he'))

/-- Two databases, one of them without queries. -/
def twoDatabases : Cfg where
  sqlite3 := [("people", ⟨"people.db", [("find", "select id from t where a = ?1")], 3, some 1000000⟩),
    ("empty", ⟨"empty.db", [], 0, none⟩)]
  nodup := by decide

/-- Every file opens and every query has one parameter. -/
def readable : Disk := ⟨fun _ _ => true, fun _ _ _ => .stmt 1⟩

/-- Both threads take the same request, and their calls interleave. -/
def bothThreads : List PoolAct :=
  let c : Call := ⟨find [], { steps := [{ rc := 101 }] }⟩
  [.take 0 c, .take 1 c, .call 1, .call 0, .call 0, .call 1]

theorem db_server_table_bothThreads : ∃ tbl p, run (some twoDatabases) readable 2 = .ok tbl ∧
    exec (poolStep 2) { databases := tbl } bothThreads = some p ∧ p.log = [(1, 2), (0, 0), (0, 0), (1, 2)] ∧
    TableOk (some twoDatabases) 2 tbl ∧ ∀ e ∈ p.log, ∀ e' ∈ p.log, e.1 ≠ e'.1 → e.2 ≠ e'.2 := by
  have hrun : ((run (some twoDatabases) readable 2).toOption.bind fun tbl =>
      (exec (poolStep 2) { databases := tbl } bothThreads).map (·.log)) =
        some [(1, 2), (0, 0), (0, 0), (1, 2)] := by decide
  cases htbl : run (some twoDatabases) readable 2 with
  | error e => rw [htbl] at hrun; cases hrun
  | ok tbl =>
    rw [htbl] at hrun
    obtain ⟨p, hp, hlog⟩ := Option.map_eq_some_iff.1 hrun
    have hok := db_server_table (some twoDatabases) readable 2 tbl htbl
    exact ⟨tbl, p, rfl, hp, hlog, hok.1, (hok.2 bothThreads p hp).2.2⟩

end Acppsrv.Db
