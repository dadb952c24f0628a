import Acppsrv.Db.Isolation
/-!
# The table of databases and its threads (db_server.cpp:106-175, worker.cpp:30-55)

`db_server::run` builds one entry per thread of the database pool. SQLite connections are opened
without a mutex, so the threads must keep to connections of their own.

| here | there |
| --- | --- |
| `Build`, `Build.at`            | `databases` while it grows, `databases[t].find(d)` |
| `prepareQuery`, `openDb`       | the two inner loops (:124, :116) |
| `addThread`, `run`             | the loop over `workers.size()` (:109) |
| `threadPoolRun`                | the values of `this_thread_idx` (worker.cpp:35-38) |
| `runQuery`                     | `run_query` with `databases.at(this_thread())` (:159) |
| `PoolAct.take`, `.call`        | a pool thread takes a posted request (db_server_impl.hpp:12), makes its next SQLite call |

Connections and `db_sync_t` objects are numbered in the order they are made.
-/
namespace Acppsrv.Db
open Lib

/-- `message SQLite3Db`; `retryWait` is what `configuration::get_time` makes of it. -/
structure DbCfg where
  file : String
  queries : List (String × String)
  retries : UInt32
  retryWait : Option Nat
  deriving DecidableEq, Repr

/-- `message SQLite3`: a protobuf map has each key once. -/
structure Cfg where
  sqlite3 : List (String × DbCfg)
  nodup : (sqlite3.map Prod.fst).Nodup

/-- The databases of the configuration; `cfg` may be null (:115). -/
def cfgDbs : Option Cfg → List (String × DbCfg)
  | none => []
  | some cfg => cfg.sqlite3

/-- What `sqlite3_prepare_v3` made: a statement with that many parameters, an error, or nothing. -/
inductive Prepared where
  | stmt (params : Nat)
  | error
  | null
  deriving DecidableEq, Repr

/-- The outcomes of opening and preparing, for each thread. -/
structure Disk where
  opens : Nat → String → Bool
  prepares : Nat → String → String → Prepared

/-- How `run` may end without returning true: false after a `sqlite::error`, a failed `assert(stmt)`
(sqlite3.cpp:103), or `std::out_of_range` from `databases[0].at`. -/
inductive Fail where
  | sqlite
  | assertion
  | outOfRange
  deriving DecidableEq, Repr

structure Build where
  databases : List (Map DbDef) := []
  nextConn : Nat := 0
  nextSync : Nat := 0

def tableAt (databases : List (Map DbDef)) (t : Nat) (d : String) : Option DbDef :=
  databases[t]?.bind (· d)

def Build.at (s : Build) (t : Nat) (d : String) : Option DbDef := tableAt s.databases t d

def Build.put (s : Build) (t : Nat) (d : String) (db : DbDef) : Build :=
  { s with databases := s.databases.modify t fun current => Function.update current d (some db) }

/-- `databases.emplace_back()` (:112). -/
def Build.grow (s : Build) : Build := { s with databases := s.databases ++ [fun _ => none] }

/-- `db.queries.emplace(q_name, query(db.db, q_def, q_name))` (:128). -/
def prepareQuery (disk : Disk) (tidx : Nat) (d : String) (db : DbDef) (q : String × String) : Except Fail DbDef :=
  match disk.prepares tidx d q.1 with
  | .error => .error .sqlite
  | .null => .error .assertion
  | .stmt n =>
    let query : Query :=
      { conn := db.conn, file := db.file, sql := q.2, sqlId := q.1, stmt := { params := List.replicate n .null } }
    if (db.queries q.1).isSome then .ok db
    else .ok { db with queries := Function.update db.queries q.1 (some query) }

/-- `max_retry_wait` (db_server.hpp:32), in nanoseconds. -/
def maxRetryWait : Nat := 60000000000

/-- One round of the loop over the databases (:116-142), for thread `tidx`. -/
def openDb (disk : Disk) (tidx : Nat) (s : Build) (d : String × DbCfg) : Except Fail Build :=
  if disk.opens tidx d.1 then
    match d.2.queries.foldlM (prepareQuery disk tidx d.1)
        ((s.at tidx d.1).getD { conn := s.nextConn, file := d.2.file }) with
    | .error e => .error e
    | .ok db =>
      let db := { db with
        retries := d.2.retries
        retryWait := match d.2.retryWait with
          | some t => if t < maxRetryWait then t else maxRetryWait
          | none => db.retryWait }
      let s := { s with nextConn := s.nextConn + 1 }
      if tidx = 0 then
        .ok ({ s with nextSync := s.nextSync + 1 }.put tidx d.1 { db with sync := some s.nextSync })
      else
        match s.at 0 d.1 with
        | none => .error .outOfRange
        | some db0 => .ok (s.put tidx d.1 { db with sync := db0.sync })
  else .error .sqlite

/-- One round of the loop over the threads (:109). -/
def addThread (cfg : Option Cfg) (disk : Disk) (tidx : Nat) (s : Build) : Except Fail Build :=
  (cfgDbs cfg).foldlM (openDb disk tidx) s.grow

def runThreads (cfg : Option Cfg) (disk : Disk) : Nat → Except Fail Build
  | 0 => .ok {}
  | n + 1 =>
    match runThreads cfg disk n with
    | .error e => .error e
    | .ok s => addThread cfg disk n s

/-- `db_server::run` (:106) with a pool of `n` threads: the table when it returns true. -/
def run (cfg : Option Cfg) (disk : Disk) (n : Nat) : Except Fail (List (Map DbDef)) :=
  (runThreads cfg disk n).map (·.databases)

/-! ## The table -/

/-- What a definition is for its part of the configuration: its queries are the configured ones, on
its own connection and just prepared. -/
structure DbDef.Defines (db : DbDef) (dc : DbCfg) : Prop where
  names : ∀ qn, (db.queries qn).isSome = true ↔ qn ∈ dc.queries.map Prod.fst
  onConn : ∀ qn q, db.queries qn = some q → q.conn = db.conn
  fresh : ∀ qn q, db.queries qn = some q → q.blank = q

/-- The table after `k` threads and, for the next one, the databases `pre`. -/
structure Partial (cfg : List (String × DbCfg)) (k : Nat) (pre : List (String × DbCfg)) (s : Build) : Prop where
  size : s.databases.length = k + 1
  names : ∀ t d, (s.at t d).isSome = true ↔
    t < k ∧ d ∈ cfg.map Prod.fst ∨ t = k ∧ d ∈ pre.map Prod.fst
  defines : ∀ t d db, s.at t d = some db → ∃ dc, (d, dc) ∈ cfg ∧ db.Defines dc
  conn_lt : ∀ t d db, s.at t d = some db → db.conn < s.nextConn
  own : ∀ t d db t' d' db', s.at t d = some db → s.at t' d' = some db' → db.conn = db'.conn →
    t = t' ∧ d = d'
  sync_lt : ∀ t d db, s.at t d = some db → ∃ i < s.nextSync, db.sync = some i
  sync : ∀ t d db t' d' db', s.at t d = some db → s.at t' d' = some db' → (db.sync = db'.sync ↔ d = d')

theorem at_put {s : Build} {k : Nat} {d : String} {db : DbDef} (hk : k < s.databases.length) (t : Nat)
    (d' : String) :
    (s.put k d db).at t d' = if t = k ∧ d' = d then some db else s.at t d' := by
  unfold Build.at Build.put tableAt
  simp only [List.getElem?_modify]
  by_cases ht : t = k
  · subst ht
    simp only [↓reduceIte, List.getElem?_eq_getElem hk, Option.bind_some, true_and]
    by_cases hd : d' = d
    · subst hd; simp
    · simp [hd]
  · simp [ht, Ne.symm ht]

/-- The loop over the queries. -/
theorem prepareQuery_loop {disk : Disk} {tidx : Nat} {d : String} {dc : DbCfg} {conn : Nat} {file : String}
    {db : DbDef} (h : dc.queries.foldlM (prepareQuery disk tidx d) { conn := conn, file := file } = .ok db) :
    db.Defines dc ∧ db.conn = conn := by
  refine foldlM_loop (fun pre (x : DbDef) =>
    x.Defines { dc with queries := pre } ∧ x.conn = conn) ?_ ⟨⟨by simp, by simp, by simp⟩, rfl⟩ h
  rintro pre ⟨qn, sql⟩ post x x' hl ⟨hx, hc⟩ hstep
  unfold prepareQuery at hstep
  split at hstep
  · cases hstep
  · cases hstep
  · split at hstep
    · rename_i hsome
      cases hstep
      refine ⟨⟨fun q => ?_, hx.onConn, hx.fresh⟩, hc⟩
      have hmem := (hx.names qn).1 hsome
      rw [hx.names q]
      simp only [List.map_append, List.map_cons, List.map_nil, List.mem_append, List.mem_singleton]
      constructor
      · exact Or.inl
      · rintro (h | rfl)
        · exact h
        · exact hmem
    · cases hstep
      refine ⟨⟨fun q => ?_, fun q q' hq => ?_, fun q q' hq => ?_⟩, hc⟩
      · by_cases hqn : q = qn
        · subst hqn; simp
        · simp [hx.names q, hqn]
      · by_cases hqn : q = qn
        · subst hqn
          simp only [Function.update_self, Option.some.injEq] at hq
          rw [← hq]
        · simp only [Function.update_of_ne hqn] at hq
          exact hx.onConn q q' hq
      · by_cases hqn : q = qn
        · subst hqn
          simp only [Function.update_self, Option.some.injEq] at hq
          rw [← hq]
          simp [Query.blank, Stmt.blank]
        · simp only [Function.update_of_ne hqn] at hq
          exact hx.fresh q q' hq

/-- A definition with a fresh connection goes into the entry of thread `k`. -/
theorem Partial.add {cfg pre : List (String × DbCfg)} {k : Nat} {s s' : Build} {d : String} {dc : DbCfg}
    {db : DbDef} (hP : Partial cfg k pre s) (hmem : (d, dc) ∈ cfg) (hdef : db.Defines dc)
    (hconn : db.conn = s.nextConn) (hs' : s'.databases = (s.put k d db).databases)
    (hnc : s'.nextConn = s.nextConn + 1) (hns : s.nextSync ≤ s'.nextSync)
    (hsome : ∃ i < s'.nextSync, db.sync = some i)
    (hsync : ∀ t' d' db', s.at t' d' = some db' → (db.sync = db'.sync ↔ d = d')) :
    Partial cfg k (pre ++ [(d, dc)]) s' := by
  have hat (t : Nat) (d' : String) : s'.at t d' = if t = k ∧ d' = d then some db else s.at t d' := by
    rw [← at_put (by rw [hP.size]; omega) t d']
    simp only [Build.at, hs']
  -- a definition of the new table is the new one or an old one
  have hcases {t : Nat} {d' : String} {db' : DbDef} (h : s'.at t d' = some db') :
      (t = k ∧ d' = d ∧ db' = db) ∨ s.at t d' = some db' := by
    rw [hat] at h
    split at h
    · rename_i hg; cases h; exact Or.inl ⟨hg.1, hg.2, rfl⟩
    · exact Or.inr h
  have hold {t : Nat} {d' : String} {db' : DbDef} (h : s.at t d' = some db') : db'.conn < s.nextConn :=
    hP.conn_lt t d' db' h
  refine ⟨?_, fun t d' => ?_, fun t d' db' h => ?_, fun t d' db' h => ?_, fun t d₁ db₁ t' d₂ db₂ h₁ h₂ he => ?_,
    fun t d' db' h => ?_, fun t d₁ db₁ t' d₂ db₂ h₁ h₂ => ?_⟩
  · rw [hs']; simpa [Build.put] using hP.size
  · rw [hat]
    by_cases hg : t = k ∧ d' = d
    · obtain ⟨rfl, rfl⟩ := hg
      simp
    · rw [if_neg hg, hP.names]
      simp only [List.map_append, List.map_cons, List.map_nil, List.mem_append, List.mem_singleton]
      constructor
      · rintro (h | ⟨h, h'⟩)
        · exact Or.inl h
        · exact Or.inr ⟨h, Or.inl h'⟩
      · rintro (h | ⟨h, h' | h'⟩)
        · exact Or.inl h
        · exact Or.inr ⟨h, h'⟩
        · exact absurd ⟨h, h'⟩ hg
  · rcases hcases h with ⟨rfl, rfl, rfl⟩ | h
    · exact ⟨dc, hmem, hdef⟩
    · exact hP.defines t d' db' h
  · rcases hcases h with ⟨rfl, rfl, rfl⟩ | h
    · omega
    · have := hold h; omega
  · rcases hcases h₁ with ⟨rfl, rfl, rfl⟩ | h₁ <;> rcases hcases h₂ with ⟨rfl, rfl, rfl⟩ | h₂
    · exact ⟨rfl, rfl⟩
    · have := hold h₂; omega
    · have := hold h₁; omega
    · exact hP.own t d₁ db₁ t' d₂ db₂ h₁ h₂ he
  · rcases hcases h with ⟨rfl, rfl, rfl⟩ | h
    · exact hsome
    · obtain ⟨i, hi, hsi⟩ := hP.sync_lt t d' db' h
      exact ⟨i, by omega, hsi⟩
  · rcases hcases h₁ with ⟨rfl, rfl, rfl⟩ | h₁ <;> rcases hcases h₂ with ⟨rfl, rfl, rfl⟩ | h₂
    · simp
    · exact hsync t' d₂ db₂ h₂
    · rw [eq_comm, hsync t d₁ db₁ h₁, eq_comm]
    · exact hP.sync t d₁ db₁ t' d₂ db₂ h₁ h₂

/-- One database opened. -/
theorem openDb_partial {cfg pre post : List (String × DbCfg)} {disk : Disk} {k : Nat} {s s' : Build}
    {d : String} {dc : DbCfg} (hcfg : cfg = pre ++ (d, dc) :: post) (hnodup : (cfg.map Prod.fst).Nodup)
    (hP : Partial cfg k pre s) (h : openDb disk k s (d, dc) = .ok s') :
    Partial cfg k (pre ++ [(d, dc)]) s' := by
  have hmem : (d, dc) ∈ cfg := by simp [hcfg]
  have hnew : d ∉ pre.map Prod.fst := by
    rw [hcfg, List.map_append, List.map_cons, List.nodup_append] at hnodup
    exact fun hd => hnodup.2.2 d hd d List.mem_cons_self rfl
  have hnone : s.at k d = none := by
    have hN := (hP.names k d).not.2 (by simp [hnew])
    simpa using hN
  unfold openDb at h
  simp only [hnone, Option.getD_none] at h
  split at h
  · split at h
    · cases h
    · rename_i db hq
      obtain ⟨hdef, hconn⟩ := prepareQuery_loop hq
      by_cases hk : k = 0
      · subst hk
        simp only [↓reduceIte] at h
        cases h
        refine hP.add hmem ?_ ?_ rfl rfl (Nat.le_succ _) ⟨s.nextSync, Nat.lt_succ_self _, rfl⟩
          fun t' d' db' hat => ?_
        · exact ⟨hdef.names, hdef.onConn, hdef.fresh⟩
        · exact hconn
        -- the only entry so far is this one, without `d`
        have hd' : d' ∈ pre.map Prod.fst := by
          rcases (hP.names t' d').1 (by simp [hat]) with ⟨hlt, -⟩ | ⟨-, hd'⟩
          · omega
          · exact hd'
        obtain ⟨i, hi, hsi⟩ := hP.sync_lt t' d' db' hat
        constructor
        · intro he
          rw [hsi] at he
          have := Option.some.inj he
          omega
        · rintro rfl; exact absurd hd' hnew
      · simp only [hk, ↓reduceIte] at h
        split at h
        · cases h
        · rename_i db0 h0
          cases h
          have h0 : s.at 0 d = some db0 := h0
          refine hP.add hmem ?_ ?_ rfl rfl (Nat.le_refl _) (hP.sync_lt 0 d db0 h0)
            fun t' d' db' hat => hP.sync 0 d db0 t' d' db' h0 hat
          · exact ⟨hdef.names, hdef.onConn, hdef.fresh⟩
          · exact hconn
  · cases h

theorem at_grow (s : Build) (t : Nat) (d : String) : s.grow.at t d = s.at t d := by
  unfold Build.at Build.grow tableAt
  rw [List.getElem?_append]
  split
  · rfl
  · rename_i hlt
    rw [List.getElem?_eq_none (by omega : s.databases.length ≤ t)]
    rcases Nat.eq_zero_or_pos (t - s.databases.length) with h | h
    · simp [h]
    · rw [List.getElem?_eq_none (by simpa using Nat.succ_le_of_lt h)]

/-- The entry of a thread is complete, and the next one is empty. -/
theorem Partial.next {cfg : List (String × DbCfg)} {k : Nat} {s : Build} (hP : Partial cfg k cfg s) :
    Partial cfg (k + 1) [] s.grow := by
  refine ⟨by simp [Build.grow, hP.size], fun t d => ?_, ?_, ?_, ?_, ?_, ?_⟩
  · rw [at_grow, hP.names]
    simp only [List.map_nil, List.not_mem_nil, and_false, or_false]
    constructor
    · rintro (⟨h, hd⟩ | ⟨h, hd⟩) <;> exact ⟨by omega, hd⟩
    · rintro ⟨h, hd⟩
      by_cases ht : t = k
      · exact Or.inr ⟨ht, hd⟩
      · exact Or.inl ⟨by omega, hd⟩
  · simpa only [at_grow] using hP.defines
  · intro t d db h
    rw [at_grow] at h; exact hP.conn_lt t d db h
  · simpa only [at_grow] using hP.own
  · intro t d db h
    rw [at_grow] at h; exact hP.sync_lt t d db h
  · simpa only [at_grow] using hP.sync

theorem cfgDbs_nodup (cfg : Option Cfg) : ((cfgDbs cfg).map Prod.fst).Nodup := by
  cases cfg with
  | none => exact List.nodup_nil
  | some cfg => exact cfg.nodup

theorem runThreads_partial (cfg : Option Cfg) (disk : Disk) (n : Nat) : ∀ s, runThreads cfg disk n = .ok s →
    Partial (cfgDbs cfg) n [] s.grow := by
  induction n with
  | zero =>
    intro s h
    cases h
    have hat (t : Nat) (d : String) : Build.at (Build.grow {}) t d = none := by
      rw [at_grow]; rfl
    exact ⟨rfl, by simp [hat], by simp [hat], by simp [hat], by simp [hat], by simp [hat], by simp [hat]⟩
  | succ n ih =>
    intro s h
    simp only [runThreads] at h
    cases hr : runThreads cfg disk n with
    | error e => rw [hr] at h; cases h
    | ok s₀ =>
      rw [hr] at h
      refine (foldlM_loop (Partial (cfgDbs cfg) n) ?_ (ih s₀ hr) h).next
      rintro pre ⟨d, dc⟩ post b b' hl hP hstep
      exact openDb_partial hl (cfgDbs_nodup cfg) hP hstep

/-- The table the threads rely on. -/
structure TableOk (cfg : Option Cfg) (n : Nat) (databases : List (Map DbDef)) : Prop where
  size : databases.length = n
  /-- every entry has the configured databases -/
  names : ∀ t d, (tableAt databases t d).isSome = true ↔ t < n ∧ d ∈ (cfgDbs cfg).map Prod.fst
  /-- and each of them the configured queries, prepared on its connection -/
  defines : ∀ t d db, tableAt databases t d = some db → ∃ dc, (d, dc) ∈ cfgDbs cfg ∧ db.Defines dc
  /-- each (thread, database) pair has its own connection -/
  own : ∀ t d db t' d' db', tableAt databases t d = some db → tableAt databases t' d' = some db' →
    db.conn = db'.conn → t = t' ∧ d = d'
  /-- `sync` is not null -/
  sync_some : ∀ t d db, tableAt databases t d = some db → db.sync.isSome = true
  /-- and stands for the database name -/
  sync : ∀ t d db t' d' db', tableAt databases t d = some db → tableAt databases t' d' = some db' →
    (db.sync = db'.sync ↔ d = d')

theorem run_tableOk {cfg : Option Cfg} {disk : Disk} {n : Nat} {databases : List (Map DbDef)}
    (h : run cfg disk n = .ok databases) : TableOk cfg n databases := by
  unfold run at h
  cases hr : runThreads cfg disk n with
  | error e => rw [hr] at h; cases h
  | ok s =>
    rw [hr] at h
    cases h
    have hP := runThreads_partial cfg disk n s hr
    have hat (t : Nat) (d : String) : tableAt s.databases t d = s.grow.at t d := (at_grow s t d).symm
    refine ⟨?_, fun t d => ?_, ?_, ?_, fun t d db h => ?_, ?_⟩
    · simpa [Build.grow] using hP.size
    · rw [hat, hP.names]; simp
    · simpa only [hat] using hP.defines
    · simpa only [hat] using hP.own
    · obtain ⟨i, -, hi⟩ := hP.sync_lt t d db (hat t d ▸ h)
      simp [hi]
    · simpa only [hat] using hP.sync

end Acppsrv.Db
