import Acppsrv.Lib.Handles
import Acppsrv.Db.Pool
/-!
# The SQLite handles of `db_server` (db_server.cpp:106-150, db_server.hpp:46, sqlite3.cpp:24-117)

| here | there |
| --- | --- |
| `connection`   | `sqlite::connection`, with the constructor of its `impl` (sqlite3.cpp:24) |
| `Def`          | `db_def_t`, as far as handles go |
| `prepareQuery` | `sqlite::query` (sqlite3.cpp:91), and the loop it is in (db_server.cpp:124) |
| `openDb`, `addThread`, `run` | the loops of `db_server::run`; what is built stays when they throw |
| `Def.destroy`, `destroy`     | the implicit destructors, from `databases` down |
| `Use.calls`    | the calls of requests and of `interrupt`, while the server runs |
| `life`         | all calls on handles between the constructor of `db_server` and the end of its destructor |

An exception from a constructor ends it without its destructor: a handle that `sqlite3_open_v2` returned is in no
object yet. The standard does not say in which order containers destroy their elements (`Order`).
-/
namespace Acppsrv.Db.Handles
open Lib

/-- A `sqlite3*` or a `sqlite3_stmt*`; statements are numbered on their connection. -/
inductive Handle where
  | conn (c : Nat)
  | stmt (c k : Nat)
  deriving DecidableEq, Repr

def Handle.owner : Handle → Option Handle
  | .conn _ => none
  | .stmt c _ => some (.conn c)

/-- The number of its connection. -/
def Handle.on : Handle → Nat
  | .conn c => c
  | .stmt c _ => c

abbrev SqlCall := HandleCall Handle

/-- How `sqlite3_open_v2` and the pragma after it end. -/
inductive Opened where
  | ok
  /-- an error, and no handle -/
  | noHandle
  /-- an error, and a handle to ask for its message -/
  | error
  /-- the pragma fails -/
  | pragma
  deriving DecidableEq, Repr

structure Outcomes where
  opened : Nat → String → Opened
  prepares : Nat → String → String → Prepared

inductive Failure where
  /-- a `sqlite::error` from the constructor of connection `c` -/
  | opening (c : Nat) (o : Opened)
  /-- from the constructor of a query -/
  | preparing
  /-- `assert(stmt)` -/
  | assertion
  /-- `std::out_of_range` from `databases[0].at` -/
  | outOfRange
  deriving DecidableEq, Repr

/-- What no destructor will release. -/
def Failure.leaked : Failure → Finset Handle
  | .opening c .error => {.conn c}
  | .opening c .pragma => {.conn c}
  | _ => ∅

def connection (c : Nat) : Opened → List SqlCall
  | .ok => [.acquire (.conn c), .use (.conn c)]
  | .noHandle => []
  -- the message is in the handle
  | .error => [.acquire (.conn c), .use (.conn c)]
  | .pragma => [.acquire (.conn c), .use (.conn c), .use (.conn c)]

structure Def where
  name : String
  conn : Nat
  /-- names, and the numbers of their statements -/
  queries : List (String × Nat) := []
  prepared : Nat := 0
  deriving DecidableEq, Repr

def prepareQuery (out : Outcomes) (tidx : Nat) (db : Def) (q : String × String) : Built Handle Failure Def :=
  let stmt := Handle.stmt db.conn db.prepared
  match out.prepares tidx db.name q.1 with
  | .error => ⟨db, [.use (.conn db.conn), .use (.conn db.conn)], some .preparing⟩
  | .null => ⟨db, [.use (.conn db.conn)], some .assertion⟩
  | .stmt _ =>
    -- `emplace` makes its element before it looks for the key
    if (db.queries.lookup q.1).isSome then ⟨{ db with prepared := db.prepared + 1 }, [.acquire stmt, .release stmt], none⟩
    else ⟨{ db with queries := db.queries ++ [(q.1, db.prepared)], prepared := db.prepared + 1 }, [.acquire stmt], none⟩

/-- The entry of a database. -/
def find (current : List Def) (d : String) : Option Def := current.find? fun db => db.name == d

section
variable (cfg : Option Cfg) (out : Outcomes)

/-- `base` are the entries of the threads before. -/
def openDb (tidx : Nat) (base : List (List Def)) (current : List Def) (d : String × DbCfg) :
    Built Handle Failure (List Def) :=
  let c := base.flatten.length + current.length
  match out.opened tidx d.1 with
  | .ok =>
    let built := (buildLoop (prepareQuery out tidx) { name := d.1, conn := c } d.2.queries).into fun db => current ++ [db]
    (built.andThen fun current' =>
      if tidx = 0 ∨ (find (base.headD []) d.1).isSome then ⟨current', [], none⟩
      else ⟨current', [], some .outOfRange⟩).after (connection c .ok)
  | o => ⟨current, connection c o, some (.opening c o)⟩

def addThread (base : List (List Def)) (tidx : Nat) : Built Handle Failure (List (List Def)) :=
  (buildLoop (openDb out tidx base) [] (cfgDbs cfg)).into fun current => base ++ [current]

def run (n : Nat) : Built Handle Failure (List (List Def)) := buildLoop (addThread cfg out) [] (List.range n)

end

/-! ## Destruction -/

/-- An order in which a container destroys its elements. -/
structure Order where
  order : {β : Type} → List β → List β
  perm : ∀ {β : Type} (l : List β), (order l).Perm l

/-- From the first element to the last. -/
def Order.forward : Order := ⟨id, fun l => List.Perm.refl l⟩

/-- From the last element to the first. -/
def Order.backward : Order := ⟨List.reverse, List.reverse_perm⟩

/-- The members go in reverse: `queries`, then `db`. -/
def Def.destroy (o : Order) (db : Def) : List SqlCall :=
  ((o.order db.queries).map fun q => .release (.stmt db.conn q.2)) ++ [.release (.conn db.conn)]

def destroy (o : Order) (databases : List (List Def)) : List SqlCall :=
  (o.order databases).flatMap fun current => (o.order current).flatMap (Def.destroy o)

/-! ## Use -/

inductive Use where
  /-- a call of thread `t` on the statement it has found -/
  | query (t : Nat) (d q : String)
  /-- `sqlite3_errmsg` -/
  | errmsg (t : Nat) (d : String)
  | interrupt
  deriving DecidableEq, Repr

def Use.calls (databases : List (List Def)) : Use → List SqlCall
  | .query t d q =>
    match find (databases.getD t []) d with
    | none => []
    | some db =>
      match db.queries.lookup q with
      | none => []
      | some k => [.use (.stmt db.conn k)]
  | .errmsg t d =>
    match find (databases.getD t []) d with
    | none => []
    | some db => [.use (.conn db.conn)]
  | .interrupt => databases.flatten.map fun db => .use (.conn db.conn)

/-- A failed assertion ends the process; after every other failure nothing is run, and `databases` goes. -/
def life (cfg : Option Cfg) (out : Outcomes) (n : Nat) (o : Order) (uses : List Use) : List SqlCall :=
  let b := run cfg out n
  match b.failed with
  | none => b.calls ++ uses.flatMap (Use.calls b.object) ++ destroy o b.object
  | some .assertion => b.calls
  | some _ => b.calls ++ destroy o b.object

/-! ## What is built -/

/-- The handles of an object. -/
def Def.Has (db : Def) (h : Handle) : Prop := h = .conn db.conn ∨ ∃ q ∈ db.queries, h = .stmt db.conn q.2

structure Def.Ok (db : Def) : Prop where
  nodup : (db.queries.map Prod.snd).Nodup
  lt : ∀ q ∈ db.queries, q.2 < db.prepared

theorem Def.Has.on_eq {db : Def} {h : Handle} (hh : db.Has h) : h.on = db.conn := by
  rcases hh with rfl | ⟨q, -, rfl⟩
  · rfl
  · rfl

/-- The handles there are belong to the objects of `all` or are leaked. -/
structure Held (live leaked : Finset Handle) (all : List Def) : Prop where
  conns : (all.map Def.conn).Nodup
  ok : ∀ db ∈ all, db.Ok
  live : ∀ h, h ∈ live ↔ h ∈ leaked ∨ ∃ db ∈ all, db.Has h
  leaked : ∀ h ∈ leaked, h.on ∉ all.map Def.conn

section
variable {live leaked : Finset Handle}

/-- An object can be destroyed when all handles on its connection are its own. -/
theorem exec_destroyDef (o : Order) {db : Def} (hok : db.Ok) (hlive : ∀ h, db.Has h → h ∈ live)
    (hown : ∀ h ∈ live, h.on = db.conn → db.Has h) :
    exec (handleStep Handle.owner) live (db.destroy o) = some (live.filter fun h => h.on ≠ db.conn) := by
  have hperm := o.perm db.queries
  have hmap : ((o.order db.queries).map fun q => HandleCall.release (Handle.stmt db.conn q.2)) =
      ((o.order db.queries).map fun q => Handle.stmt db.conn q.2).map .release := by
    rw [List.map_map]
    rfl
  have hmem (h : Handle) : h ∈ ((o.order db.queries).map fun q => Handle.stmt db.conn q.2) ↔
      ∃ q ∈ db.queries, h = .stmt db.conn q.2 := by
    simp only [List.mem_map, hperm.mem_iff]
    constructor
    · rintro ⟨q, hq, rfl⟩
      exact ⟨q, hq, rfl⟩
    · rintro ⟨q, hq, rfl⟩
      exact ⟨q, hq, rfl⟩
  have hnd : ((o.order db.queries).map fun q => Handle.stmt db.conn q.2).Nodup := by
    have hnums : ((o.order db.queries).map Prod.snd).Nodup := (hperm.map Prod.snd).nodup_iff.2 hok.nodup
    have hinj := hnums.map (f := Handle.stmt db.conn) fun a b hab => by cases hab; rfl
    rwa [List.map_map] at hinj
  rw [Def.destroy, hmap, exec_append, exec_releases hnd, Option.bind_some, exec, step_release, Option.bind_some, exec]
  · congr 1
    ext h
    simp only [Finset.mem_erase, Finset.mem_sdiff, List.mem_toFinset, hmem, Finset.mem_filter]
    constructor
    · rintro ⟨hne, hl, hns⟩
      refine ⟨hl, fun hon => ?_⟩
      rcases hown h hl hon with rfl | hq
      · exact hne rfl
      · exact hns hq
    · rintro ⟨hl, hon⟩
      refine ⟨?_, hl, ?_⟩
      · rintro rfl
        exact hon rfl
      · rintro ⟨q, -, rfl⟩
        exact hon rfl
  · refine Finset.mem_sdiff.2 ⟨hlive _ (Or.inl rfl), ?_⟩
    rw [List.mem_toFinset, hmem]
    rintro ⟨q, -, hq⟩
    cases hq
  · intro k hk howner
    obtain ⟨hl, hns⟩ := Finset.mem_sdiff.1 hk
    rw [List.mem_toFinset, hmem] at hns
    cases k with
    | conn c => cases howner
    | stmt c j =>
      cases howner
      rcases hown _ hl rfl with h | h
      · cases h
      · exact hns h
  · intro h hh
    obtain ⟨q, hq, rfl⟩ := (hmem h).1 hh
    exact hlive _ (Or.inr ⟨q, hq, rfl⟩)
  · intro h hh k _ howner
    obtain ⟨q, hq, rfl⟩ := (hmem h).1 hh
    cases k with
    | conn c => cases howner
    | stmt c j => cases howner

/-- All of them, in any order. -/
theorem exec_destroys (o : Order) {all : List Def} : ∀ {live : Finset Handle}, Held live leaked all →
    exec (handleStep Handle.owner) live (all.flatMap (Def.destroy o)) = some leaked := by
  induction all with
  | nil =>
    intro live h
    simp only [List.flatMap_nil, exec, Option.some.injEq]
    ext k
    simpa using h.live k
  | cons db all ih =>
    intro live h
    obtain ⟨hnew, hnd⟩ := List.nodup_cons.1 h.conns
    have hother {h' : Handle} {db' : Def} (hdb' : db' ∈ all) (hh : db'.Has h') : h'.on ≠ db.conn := by
      intro hon
      exact hnew (List.mem_map.2 ⟨db', hdb', by rw [← hon, hh.on_eq]⟩)
    have hleaked {h' : Handle} (hh : h' ∈ leaked) : h'.on ≠ db.conn ∧ h'.on ∉ all.map Def.conn := by
      simpa using h.leaked h' hh
    rw [List.flatMap_cons, exec_append, exec_destroyDef o (h.ok db List.mem_cons_self), Option.bind_some]
    · apply ih
      refine ⟨hnd, fun db' hdb' => h.ok db' (List.mem_cons_of_mem _ hdb'), fun k => ?_, fun k hk => (hleaked hk).2⟩
      rw [Finset.mem_filter, h.live]
      constructor
      · rintro ⟨hk | ⟨db', hdb', hk⟩, hon⟩
        · exact Or.inl hk
        · rcases List.mem_cons.1 hdb' with rfl | hdb'
          · exact absurd hk.on_eq hon
          · exact Or.inr ⟨db', hdb', hk⟩
      · rintro (hk | ⟨db', hdb', hk⟩)
        · exact ⟨Or.inl hk, (hleaked hk).1⟩
        · exact ⟨Or.inr ⟨db', List.mem_cons_of_mem _ hdb', hk⟩, hother hdb' hk⟩
    · intro k hk
      exact (h.live k).2 (Or.inr ⟨db, List.mem_cons_self, hk⟩)
    · intro k hk hon
      rcases (h.live k).1 hk with hk | ⟨db', hdb', hk⟩
      · exact absurd hon (hleaked hk).1
      · rcases List.mem_cons.1 hdb' with rfl | hdb'
        · exact hk
        · exact absurd hon (hother hdb' hk)

theorem Held.perm {all all' : List Def} (h : Held live leaked all) (hp : all'.Perm all) : Held live leaked all' where
  conns := (hp.map Def.conn).nodup_iff.2 h.conns
  ok db hdb := h.ok db (hp.mem_iff.1 hdb)
  live k := by
    rw [h.live k]
    simp only [hp.mem_iff]
  leaked k hk hon := h.leaked k hk ((hp.map Def.conn).mem_iff.1 hon)

/-- `~db_server` releases what it has. -/
theorem exec_destroy (o : Order) {databases : List (List Def)} (h : Held live leaked databases.flatten) :
    exec (handleStep Handle.owner) live (destroy o databases) = some leaked := by
  have hflat : destroy o databases = ((o.order databases).flatMap o.order).flatMap (Def.destroy o) := by
    rw [destroy, List.flatMap_assoc]
  rw [hflat]
  refine exec_destroys o (h.perm ?_)
  have hinner : ((o.order databases).flatMap o.order).Perm (o.order databases).flatten := by
    rw [← List.flatMap_id]
    exact List.Perm.flatMap_left _ fun m _ => o.perm m
  exact hinner.trans (o.perm databases).flatten

end

/-! ## Construction -/

/-- Connections are numbered from 0. -/
def Numbered (all : List Def) : Prop := all.map Def.conn = List.range all.length

theorem find_isSome (current : List Def) (d : String) : (find current d).isSome = true ↔ d ∈ current.map Def.name := by
  unfold find
  rw [List.find?_isSome]
  simp

section
variable {out : Outcomes} {tidx : Nat}

/-- While `db` is built on connection `c`; the others have `frame`. -/
structure Preparing (frame : Finset Handle) (c : Nat) (d : String) (live : Finset Handle) (db : Def) : Prop where
  conn : db.conn = c
  name : db.name = d
  ok : db.Ok
  live : ∀ h, h ∈ live ↔ h ∈ frame ∨ db.Has h

variable (out tidx) in
theorem prepareQuery_legal {frame live : Finset Handle} {c : Nat} {d : String} {db : Def} (q : String × String)
    (hframe : ∀ h ∈ frame, h.on ≠ c) (h : Preparing frame c d live db) :
    (prepareQuery out tidx db q).Legal Handle.owner live (Preparing frame c d) fun e live db =>
      Preparing frame c d live db ∧ (e = .preparing ∨ e = .assertion) := by
  have hconn : .conn db.conn ∈ live := (h.live _).2 (Or.inr (Or.inl rfl))
  have huse := step_use Handle.owner hconn
  have hnew : .stmt db.conn db.prepared ∉ live := by
    intro hl
    rcases (h.live _).1 hl with hf | hf | ⟨q', hq', hf⟩
    · exact hframe _ hf h.conn
    · cases hf
    · exact Nat.ne_of_lt (h.ok.lt q' hq') (Handle.stmt.inj hf).2.symm
  have hacquire : handleStep Handle.owner live (.acquire (.stmt db.conn db.prepared)) =
      some (insert (.stmt db.conn db.prepared) live) := step_acquire Handle.owner hnew fun o ho => by cases ho; exact hconn
  unfold prepareQuery
  cases out.prepares tidx db.name q.1 with
  | error => exact ⟨live, by simp [exec, huse], h, Or.inl rfl⟩
  | null => exact ⟨live, by simp [exec, huse], h, Or.inr rfl⟩
  | stmt n =>
    simp only
    split
    · -- the element goes again
      have hrelease := step_release Handle.owner (Finset.mem_insert_self (.stmt db.conn db.prepared) live)
        fun k _ hk => by cases k <;> cases hk
      rw [Finset.erase_insert hnew] at hrelease
      refine ⟨live, by simp [exec, hacquire, hrelease], ⟨h.conn, h.name, ⟨h.ok.nodup, fun q' hq' => ?_⟩, h.live⟩⟩
      exact Nat.lt_succ_of_lt (h.ok.lt q' hq')
    · refine ⟨insert (.stmt db.conn db.prepared) live, by simp [exec, hacquire], ⟨h.conn, h.name, ⟨?_, ?_⟩, fun k => ?_⟩⟩
      · rw [List.map_append, List.map_singleton, List.nodup_append]
        refine ⟨h.ok.nodup, List.nodup_singleton _, ?_⟩
        intro a ha b hb hab
        obtain ⟨q', hq', rfl⟩ := List.mem_map.1 ha
        rw [List.mem_singleton.1 hb] at hab
        exact Nat.ne_of_lt (h.ok.lt q' hq') hab
      · intro q' hq'
        rcases List.mem_append.1 hq' with hq' | hq'
        · exact Nat.lt_succ_of_lt (h.ok.lt q' hq')
        · rw [List.mem_singleton.1 hq']
          exact Nat.lt_succ_self _
      · rw [Finset.mem_insert, h.live]
        simp only [Def.Has, List.mem_append, List.mem_singleton]
        constructor
        · rintro (rfl | hk | hk | ⟨q', hq', hk⟩)
          · exact Or.inr (Or.inr ⟨_, Or.inr rfl, rfl⟩)
          · exact Or.inl hk
          · exact Or.inr (Or.inl hk)
          · exact Or.inr (Or.inr ⟨q', Or.inl hq', hk⟩)
        · rintro (hk | hk | ⟨q', hq' | rfl, hk⟩)
          · exact Or.inr (Or.inl hk)
          · exact Or.inr (Or.inr (Or.inl hk))
          · exact Or.inr (Or.inr (Or.inr ⟨q', hq', hk⟩))
          · exact Or.inl hk

/-- While the entry of a thread is built. -/
structure Opening (base : List (List Def)) (pre : List (String × DbCfg)) (live : Finset Handle) (current : List Def) : Prop where
  held : Held live ∅ (base.flatten ++ current)
  numbered : Numbered (base.flatten ++ current)
  names : current.map Def.name = pre.map Prod.fst

/-- When an exception has left it. -/
def Thrown (e : Failure) (live : Finset Handle) (all : List Def) : Prop := Held live e.leaked all ∧ e ≠ .outOfRange

/-- Another object on the next connection. -/
theorem Held.add {live live' : Finset Handle} {all : List Def} {db : Def} (h : Held live ∅ all) (hnum : Numbered all)
    (hp : Preparing live all.length db.name live' db) :
    Held live' ∅ (all ++ [db]) ∧ Numbered (all ++ [db]) := by
  have hnumbered : Numbered (all ++ [db]) := by
    unfold Numbered at hnum ⊢
    rw [List.map_append, hnum, List.map_singleton, hp.conn, List.length_append, List.length_singleton, List.range_succ]
  refine ⟨⟨?_, ?_, fun k => ?_, by simp⟩, hnumbered⟩
  · rw [hnumbered]
    exact List.nodup_range
  · intro db' hdb'
    rcases List.mem_append.1 hdb' with hdb' | hdb'
    · exact h.ok db' hdb'
    · rw [List.mem_singleton.1 hdb']
      exact hp.ok
  · rw [hp.live, h.live]
    simp only [List.mem_append, List.mem_singleton]
    constructor
    · rintro ((hk | ⟨db', hdb', hk⟩) | hk)
      · exact Or.inl hk
      · exact Or.inr ⟨db', Or.inl hdb', hk⟩
      · exact Or.inr ⟨db, Or.inr rfl, hk⟩
    · rintro (hk | ⟨db', hdb' | rfl, hk⟩)
      · exact Or.inl (Or.inl hk)
      · exact Or.inl (Or.inr ⟨db', hdb', hk⟩)
      · exact Or.inr hk

/-- The next connection is not there yet. -/
theorem Held.fresh {live : Finset Handle} {all : List Def} (h : Held live ∅ all) (hnum : Numbered all) :
    ∀ k ∈ live, k.on ≠ all.length := by
  intro k hk hon
  rcases (h.live k).1 hk with hk | ⟨db, hdb, hk⟩
  · exact absurd hk (Finset.notMem_empty k)
  · have hmem : k.on ∈ all.map Def.conn := List.mem_map.2 ⟨db, hdb, hk.on_eq.symm⟩
    rw [hnum, hon] at hmem
    exact absurd (List.mem_range.1 hmem) (Nat.lt_irrefl _)

/-- A connection that no object will have. -/
theorem Held.leak {live : Finset Handle} {all : List Def} (h : Held live ∅ all) (hnum : Numbered all) :
    Held (insert (.conn all.length) live) {.conn all.length} all where
  conns := h.conns
  ok := h.ok
  live k := by
    rw [Finset.mem_insert, h.live, Finset.mem_singleton]
    simp
  leaked k hk hon := by
    rw [Finset.mem_singleton.1 hk, hnum] at hon
    exact absurd (List.mem_range.1 hon) (Nat.lt_irrefl _)

/-- Whatever comes of it, the handle is there. -/
theorem exec_connection {live : Finset Handle} {c : Nat} {o : Opened} (hnew : .conn c ∉ live) (ho : o ≠ .noHandle) :
    exec (handleStep Handle.owner) live (connection c o) = some (insert (.conn c) live) := by
  have hacquire : handleStep Handle.owner live (.acquire (.conn c)) = some (insert (.conn c) live) :=
    step_acquire Handle.owner hnew fun o ho => by cases ho
  have huse := step_use Handle.owner (Finset.mem_insert_self (.conn c) live)
  cases o with
  | noHandle => exact absurd rfl ho
  | ok => simp [connection, exec, hacquire, huse]
  | error => simp [connection, exec, hacquire, huse]
  | pragma => simp [connection, exec, hacquire, huse]

variable (out) in
theorem openDb_legal {cfg pre : List (String × DbCfg)} {base : List (List Def)} {live : Finset Handle} {current : List Def}
    {d : String × DbCfg} (hd : d ∈ cfg)
    (hbase : tidx = 0 ∨ (base.headD []).map Def.name = cfg.map Prod.fst) (h : Opening base pre live current) :
    (openDb out tidx base current d).Legal Handle.owner live (Opening base (pre ++ [d]))
      fun e live current => Thrown e live (base.flatten ++ current) := by
  have hfresh := h.held.fresh h.numbered
  have hnew : .conn (base.flatten ++ current).length ∉ live := fun hk => hfresh _ hk rfl
  have hleak := h.held.leak h.numbered
  rw [List.length_append] at hleak hnew hfresh
  unfold openDb
  cases out.opened tidx d.1 with
  | noHandle => exact ⟨live, rfl, h.held, by simp⟩
  | error => exact ⟨_, exec_connection (o := .error) hnew (by simp), hleak, by simp⟩
  | pragma => exact ⟨_, exec_connection (o := .pragma) hnew (by simp), hleak, by simp⟩
  | ok =>
    refine .after (exec_connection hnew (by simp)) ?_
    have hstart : Preparing live (base.flatten.length + current.length) d.1
        (insert (.conn (base.flatten.length + current.length)) live) { name := d.1, conn := base.flatten.length + current.length } := by
      refine ⟨rfl, rfl, ⟨by simp, by simp⟩, fun k => ?_⟩
      simp [Def.Has, or_comm]
    have hloop := buildLoop_legal (fun _ => Preparing live (base.flatten.length + current.length) d.1)
      (fun _ q _ (_ : d.2.queries = _) _ _ hp => prepareQuery_legal out tidx q hfresh hp) hstart
    have hadd {live' : Finset Handle} {db : Def} (hp : Preparing live (base.flatten.length + current.length) d.1 live' db) :
        Opening base (pre ++ [d]) live' (current ++ [db]) := by
      have hp' : Preparing live (base.flatten ++ current).length db.name live' db := by
        rw [List.length_append, hp.name]
        exact hp
      obtain ⟨hheld, hnum⟩ := h.held.add h.numbered hp'
      rw [List.append_assoc] at hheld hnum
      exact ⟨hheld, hnum, by rw [List.map_append, List.map_append, h.names, List.map_singleton, hp.name, List.map_singleton]⟩
    refine Built.Legal.andThen (J := Opening base (pre ++ [d])) (.into (hloop.mono (fun _ _ hp => hadd hp) ?_)) ?_
    · rintro e live' db ⟨hp, rfl | rfl⟩
      · exact ⟨(hadd hp).held, by simp⟩
      · exact ⟨(hadd hp).held, by simp⟩
    · intro live' current' hopen
      rw [if_pos]
      · exact ⟨live', rfl, hopen⟩
      · rcases hbase with h0 | hnames
        · exact Or.inl h0
        · rw [find_isSome, hnames]
          exact Or.inr (List.mem_map_of_mem hd)

end

/-- Between two threads. -/
structure Entries (cfg : List (String × DbCfg)) (threads : Nat) (live : Finset Handle) (databases : List (List Def)) : Prop where
  held : Held live ∅ databases.flatten
  numbered : Numbered databases.flatten
  length : databases.length = threads
  names : ∀ current ∈ databases, current.map Def.name = cfg.map Prod.fst

theorem headD_mem {β : Type} {l : List (List β)} (h : l ≠ []) : l.headD [] ∈ l := by
  cases l with
  | nil => exact absurd rfl h
  | cons a l => exact List.mem_cons_self

section
variable {cfg : Option Cfg} {out : Outcomes} {live : Finset Handle}

theorem addThread_legal {tidx : Nat} {base : List (List Def)} (h : Entries (cfgDbs cfg) tidx live base) :
    (addThread cfg out base tidx).Legal Handle.owner live (Entries (cfgDbs cfg) (tidx + 1))
      fun e live databases => Thrown e live databases.flatten := by
  have hflat (current : List Def) : (base ++ [current]).flatten = base.flatten ++ current := by simp
  have hbase : tidx = 0 ∨ (base.headD []).map Def.name = (cfgDbs cfg).map Prod.fst := by
    by_cases h0 : tidx = 0
    · exact Or.inl h0
    · refine Or.inr (h.names _ (headD_mem fun hnil => h0 ?_))
      rw [← h.length, hnil, List.length_nil]
  have hopen : Opening base [] live [] := ⟨by simpa using h.held, by simpa using h.numbered, rfl⟩
  have hloop := buildLoop_legal (E := fun e live current => Thrown e live (base.flatten ++ current)) (Opening base)
    (fun pre d post (hds : cfgDbs cfg = _) live' current hcur => openDb_legal out (by rw [hds]; simp) hbase hcur) hopen
  refine .into (hloop.mono (fun live' current hcur => ⟨?_, ?_, ?_, ?_⟩) fun e live' current ht => ?_)
  · rw [hflat]
    exact hcur.held
  · rw [hflat]
    exact hcur.numbered
  · rw [List.length_append, List.length_singleton, h.length]
  · intro current' hmem
    rcases List.mem_append.1 hmem with hmem | hmem
    · exact h.names current' hmem
    · rw [List.mem_singleton.1 hmem]
      exact hcur.names
  · rw [hflat]
    exact ht

theorem range_split {n t : Nat} {pre post : List Nat} (h : List.range n = pre ++ t :: post) : pre.length = t := by
  have hget : (List.range n)[pre.length]? = some t := by simp [h]
  obtain ⟨hlt, hget⟩ := List.getElem?_eq_some_iff.1 hget
  rwa [List.getElem_range] at hget

theorem run_legal (cfg : Option Cfg) (out : Outcomes) (n : Nat) :
    (run cfg out n).Legal Handle.owner ∅ (Entries (cfgDbs cfg) n)
      fun e live databases => Thrown e live databases.flatten := by
  have hstart : Entries (cfgDbs cfg) 0 ∅ [] := by
    refine ⟨⟨List.nodup_nil, ?_, ?_, ?_⟩, rfl, rfl, ?_⟩
    · intro db hdb; cases hdb
    · simp
    · simp
    · intro current hmem; cases hmem
  have hloop : (run cfg out n).Legal Handle.owner ∅ (Entries (cfgDbs cfg) (List.range n).length)
      fun e live databases => Thrown e live databases.flatten := by
    refine buildLoop_legal (fun pre => Entries (cfgDbs cfg) pre.length) (fun pre d post hds live' databases h => ?_) hstart
    rw [← range_split hds, List.length_append, List.length_singleton]
    exact addThread_legal h
  rwa [List.length_range] at hloop

/-! ## Use -/

theorem mem_of_find {databases : List (List Def)} {t : Nat} {d : String} {db : Def}
    (h : find (databases.getD t []) d = some db) : db ∈ databases.flatten := by
  have hmem := List.mem_of_find?_eq_some h
  rw [List.getD_eq_getElem?_getD] at hmem
  cases ht : databases[t]? with
  | none => rw [ht] at hmem; cases hmem
  | some current =>
    rw [ht] at hmem
    exact List.mem_flatten.2 ⟨current, List.mem_of_getElem? ht, hmem⟩

/-- Requests and `interrupt` use what is there. -/
theorem Held.uses {databases : List (List Def)} (h : Held live ∅ databases.flatten) (u : Use) :
    ∀ c ∈ u.calls databases, ∃ k ∈ live, c = .use k := by
  intro c hc
  have hlive {db : Def} (hdb : db ∈ databases.flatten) {k : Handle} (hk : db.Has k) : k ∈ live :=
    (h.live k).2 (Or.inr ⟨db, hdb, hk⟩)
  cases u with
  | query t d q =>
    simp only [Use.calls] at hc
    split at hc
    · cases hc
    · rename_i db hdb
      split at hc
      · cases hc
      · rename_i k hk
        obtain ⟨l₁, l₂, hq, -⟩ := List.lookup_eq_some_iff.1 hk
        refine ⟨_, hlive (mem_of_find hdb) (Or.inr ⟨(q, k), ?_, rfl⟩), List.mem_singleton.1 hc⟩
        rw [hq]
        simp
  | errmsg t d =>
    simp only [Use.calls] at hc
    split at hc
    · cases hc
    · rename_i db hdb
      exact ⟨_, hlive (mem_of_find hdb) (Or.inl rfl), List.mem_singleton.1 hc⟩
  | interrupt =>
    obtain ⟨db, hdb, rfl⟩ := List.mem_map.1 hc
    exact ⟨_, hlive hdb (Or.inl rfl), rfl⟩

end

/-- What is left when `db_server` is gone. -/
def leaked : Option Failure → Finset Handle
  | none => ∅
  | some e => e.leaked

/-- **The handles.** For every configuration, whatever SQLite returns, wherever `run` fails, and whatever requests
and interrupts there are: every call is made on handles that are there, no connection is closed before its
statements are finalized, and unless an assertion ended the process all handles are released, except for a
connection whose constructor throws after `sqlite3_open_v2` has returned its handle. `databases[0].at` never throws. -/
theorem handles_released (cfg : Option Cfg) (out : Outcomes) (n : Nat) (o : Order) (uses : List Use) :
    ∃ left, exec (handleStep Handle.owner) ∅ (life cfg out n o uses) = some left ∧
      ((run cfg out n).failed ≠ some .assertion → left = leaked (run cfg out n).failed) ∧
      (run cfg out n).failed ≠ some .outOfRange := by
  obtain ⟨live, hrun, hres⟩ := run_legal cfg out n
  cases hf : (run cfg out n).failed with
  | none =>
    rw [hf] at hres
    have huses : exec (handleStep Handle.owner) live (uses.flatMap (Use.calls (run cfg out n).object)) = some live := by
      apply exec_uses
      intro c hc
      obtain ⟨u, -, hu⟩ := List.mem_flatMap.1 hc
      exact hres.held.uses u c hu
    refine ⟨∅, ?_, fun _ => rfl, by simp⟩
    simp only [life, hf]
    rw [exec_append, exec_append, hrun, Option.bind_some, huses, Option.bind_some, exec_destroy o hres.held]
  | some e =>
    rw [hf] at hres
    have hdestroy : exec (handleStep Handle.owner) ∅ ((run cfg out n).calls ++ destroy o (run cfg out n).object) =
        some e.leaked := by
      rw [exec_append, hrun, Option.bind_some, exec_destroy o hres.1]
    cases e with
    | assertion => exact ⟨live, by simpa only [life, hf] using hrun, fun h => absurd rfl h, by simp⟩
    | outOfRange => exact absurd rfl hres.2
    | opening c op => exact ⟨_, by simpa only [life, hf, leaked] using hdestroy, fun _ => rfl, by simp⟩
    | preparing => exact ⟨_, by simpa only [life, hf, leaked] using hdestroy, fun _ => rfl, by simp⟩

/-- Every connection opens, except for the pragma of thread 1. -/
def pragmaFails : Outcomes where
  opened tidx _ := if tidx = 1 then .pragma else .ok
  prepares _ _ _ := .stmt 0

/-- One thread runs and is used; a second one fails in the constructor of its first connection. -/
theorem handles_released_lives :
    (run (some twoDatabases) pragmaFails 1).failed = none ∧
    exec (handleStep Handle.owner) ∅ (life (some twoDatabases) pragmaFails 1 .backward [.query 0 "people" "find", .interrupt]) =
      some ∅ ∧
    (run (some twoDatabases) pragmaFails 2).failed = some (.opening 2 .pragma) ∧
    exec (handleStep Handle.owner) ∅ (life (some twoDatabases) pragmaFails 2 .forward []) = some {.conn 2} := by
  have hgood : (run (some twoDatabases) pragmaFails 1).failed = none := by decide
  have hbad : (run (some twoDatabases) pragmaFails 2).failed = some (.opening 2 .pragma) := by decide
  obtain ⟨left, hexec, hleft, -⟩ :=
    handles_released (some twoDatabases) pragmaFails 1 .backward [.query 0 "people" "find", .interrupt]
  obtain ⟨left', hexec', hleft', -⟩ := handles_released (some twoDatabases) pragmaFails 2 .forward []
  rw [hgood] at hleft
  rw [hbad] at hleft'
  refine ⟨hgood, ?_, hbad, ?_⟩
  · rw [hexec, hleft (by simp)]
    rfl
  · rw [hexec', hleft' (by simp)]
    rfl

/-! ## The table of `Table.lean` -/

/-- Its outcomes. -/
def Outcomes.disk (out : Outcomes) : Disk := ⟨fun tidx d => out.opened tidx d = .ok, out.prepares⟩

def Failure.fail : Failure → Fail
  | .opening _ _ => .sqlite
  | .preparing => .sqlite
  | .assertion => .assertion
  | .outOfRange => .outOfRange

structure SameDef (db : Def) (db' : DbDef) : Prop where
  conn : db'.conn = db.conn
  queries : ∀ q, (db'.queries q).isSome = (db.queries.lookup q).isSome

theorem prepareQuery_agrees {out : Outcomes} {tidx : Nat} {d : String} {db : Def} {db' : DbDef} (hname : db.name = d)
    (h : SameDef db db') (q : String × String) :
    (prepareQuery out tidx db q).Agrees (fun db db' => SameDef db db' ∧ db.name = d) Failure.fail
      (Db.prepareQuery out.disk tidx d db' q) := by
  unfold prepareQuery Db.prepareQuery
  rw [hname]
  simp only [Outcomes.disk]
  cases out.prepares tidx d q.1 with
  | error => rfl
  | null => rfl
  | stmt n =>
    simp only [h.queries]
    split
    · exact ⟨db', rfl, ⟨h.conn, h.queries⟩, rfl⟩
    · refine ⟨_, rfl, ⟨h.conn, fun q' => ?_⟩, rfl⟩
      by_cases hq : q' = q.1
      · subst hq
        simp [List.lookup_append]
      · simp [List.lookup_append, h.queries, hq]

theorem prepareQueries_agree (out : Outcomes) (tidx : Nat) {d : String} {db : Def} {db' : DbDef} (hname : db.name = d)
    (h : SameDef db db') (queries : List (String × String)) :
    (buildLoop (prepareQuery out tidx) db queries).Agrees (fun db db' => SameDef db db' ∧ db.name = d) Failure.fail
      (queries.foldlM (Db.prepareQuery out.disk tidx d) db') :=
  buildLoop_agrees (fun _ db db' => SameDef db db' ∧ db.name = d)
    (fun _ q _ _ _ _ h => prepareQuery_agrees h.2 h.1 q) ⟨h, hname⟩

/-- The entries of `s` are `databases`. -/
structure SameTable (databases : List (List Def)) (s : Build) : Prop where
  length : s.databases.length = databases.length
  next : s.nextConn = databases.flatten.length
  entry : ∀ t d, Option.Rel SameDef (find (databases.getD t []) d) (s.at t d)

theorem find_concat {current : List Def} {db : Def} (hnew : db.name ∉ current.map Def.name) (d : String) :
    find (current ++ [db]) d = if d = db.name then some db else find current d := by
  unfold find
  rw [List.find?_append]
  by_cases hd : d = db.name
  · subst hd
    have hnone : (current.find? fun db' => db'.name == db.name) = none := by
      rw [List.find?_eq_none]
      intro db' hdb' heq
      exact hnew (List.mem_map.2 ⟨db', hdb', by simpa using heq⟩)
    simp [hnone]
  · have hne : db.name ≠ d := fun h => hd h.symm
    simp [hd, hne]

theorem sameTable_grow {databases : List (List Def)} {s : Build} (h : SameTable databases s) :
    SameTable (databases ++ [[]]) s.grow where
  length := by simp [Build.grow, h.length]
  next := by simpa [Build.grow] using h.next
  entry t d := by
    rw [at_grow]
    have hget : (databases ++ [[]]).getD t [] = databases.getD t [] := by
      rw [List.getD_eq_getElem?_getD, List.getD_eq_getElem?_getD, List.getElem?_append]
      split
      · rfl
      · rename_i hlt
        rw [List.getElem?_eq_none (by omega : databases.length ≤ t)]
        rcases Nat.eq_zero_or_pos (t - databases.length) with h0 | h0
        · simp [h0]
        · rw [List.getElem?_eq_none (by simpa using Nat.succ_le_of_lt h0)]
    rw [hget]
    exact h.entry t d

section
variable {out : Outcomes} {base : List (List Def)} {current : List Def} {s s' : Build}

/-- An object goes into the entry of the last thread. -/
theorem sameTable_put {db : Def} {db' : DbDef} (h : SameTable (base ++ [current]) s) (hnew : db.name ∉ current.map Def.name)
    (hsame : SameDef db db') (hdbs : s'.databases = (s.put base.length db.name db').databases)
    (hnext : s'.nextConn = s.nextConn + 1) : SameTable (base ++ [current ++ [db]]) s' where
  length := by simpa [hdbs, Build.put] using h.length
  next := by
    rw [hnext, h.next]
    simp
    omega
  entry t d := by
    have hlen : base.length < s.databases.length := by simp [h.length]
    have hat : s'.at t d = if t = base.length ∧ d = db.name then some db' else s.at t d := by
      rw [← at_put hlen]
      simp only [Build.at, hdbs]
    rw [hat]
    have hentry := h.entry t d
    by_cases ht : t = base.length
    · subst ht
      simp only [List.getD_eq_getElem?_getD, List.getElem?_concat_length, Option.getD_some] at hentry ⊢
      rw [find_concat hnew]
      by_cases hd : d = db.name
      · rw [if_pos hd, if_pos (by simpa using hd)]
        exact .some hsame
      · rw [if_neg hd, if_neg fun h => hd h.2]
        exact hentry
    · rw [if_neg fun h => ht h.1]
      have hget (l : List Def) : (base ++ [l]).getD t [] = base.getD t [] := by
        rw [List.getD_eq_getElem?_getD, List.getD_eq_getElem?_getD, List.getElem?_append]
        split
        · rfl
        · rename_i hlt
          have hpos : 0 < t - base.length := by omega
          rw [List.getElem?_eq_none (by omega : base.length ≤ t), List.getElem?_eq_none (by simpa using Nat.succ_le_of_lt hpos)]
      rw [hget] at hentry ⊢
      exact hentry

theorem rel_isSome {α β : Type} {R : α → β → Prop} {a : Option α} {b : Option β} (h : Option.Rel R a b) :
    a.isSome = b.isSome := by
  cases h with
  | some _ => rfl
  | none => rfl

theorem openDb_agrees {tidx : Nat} {pre : List (String × DbCfg)} {d : String × DbCfg} (htidx : base.length = tidx)
    (hd : d.1 ∉ pre.map Prod.fst) (hnames : current.map Def.name = pre.map Prod.fst) (h : SameTable (base ++ [current]) s) :
    (openDb out tidx base current d).Agrees (fun current s => SameTable (base ++ [current]) s ∧
      current.map Def.name = (pre ++ [d]).map Prod.fst) Failure.fail (Db.openDb out.disk tidx s d) := by
  have hat : s.at tidx d.1 = none := by
    have hrel := rel_isSome (h.entry tidx d.1)
    rw [← htidx, List.getD_eq_getElem?_getD, List.getElem?_concat_length, Option.getD_some] at hrel
    have hfind : ¬(find current d.1).isSome = true := by
      rw [find_isSome, hnames]
      exact hd
    rw [hrel, htidx, Option.not_isSome_iff_eq_none] at hfind
    exact hfind
  have hnext : s.nextConn = base.flatten.length + current.length := by
    rw [h.next]
    simp
  unfold openDb Db.openDb
  have hopens : out.disk.opens tidx d.1 = decide (out.opened tidx d.1 = .ok) := rfl
  rw [hopens]
  cases out.opened tidx d.1 with
  | noHandle => rfl
  | error => rfl
  | pragma => rfl
  | ok =>
    simp only [decide_true, if_true, hat, Option.getD_none]
    have hstart : SameDef { name := d.1, conn := base.flatten.length + current.length }
        { conn := s.nextConn, file := d.2.file } := ⟨hnext, by simp⟩
    have hloop := prepareQueries_agree out tidx rfl hstart d.2.queries
    apply Built.Agrees.after
    generalize buildLoop (prepareQuery out tidx) _ _ = x at hloop ⊢
    generalize List.foldlM (Db.prepareQuery out.disk tidx d.1) _ _ = y at hloop ⊢
    obtain ⟨db, calls, failed⟩ := x
    cases failed with
    | some e =>
      obtain rfl : y = .error e.fail := hloop
      rfl
    | none =>
      obtain ⟨db', rfl, hsame, hname⟩ := hloop
      have hput (db'' : DbDef) (sync : Nat) (hconn : db''.conn = db'.conn) (hqueries : db''.queries = db'.queries) :
          SameTable (base ++ [current ++ [db]])
            (Build.put { s with nextConn := s.nextConn + 1, nextSync := sync } tidx d.1 db'') ∧
          (current ++ [db]).map Def.name = (pre ++ [d]).map Prod.fst := by
        refine ⟨sameTable_put h ?_ ⟨hconn ▸ hsame.conn, fun q => hqueries ▸ hsame.queries q⟩ ?_ rfl, ?_⟩
        · rw [hname, hnames]
          exact hd
        · rw [htidx, hname]
          rfl
        · rw [List.map_append, List.map_append, hnames, List.map_singleton, hname, List.map_singleton]
      apply Built.Agrees.after
      simp only [Built.into] at hname ⊢
      by_cases h0 : tidx = 0
      · rw [if_pos (Or.inl h0), if_pos h0]
        exact ⟨_, rfl, hput _ _ rfl rfl⟩
      · have hhead : (base ++ [current]).getD 0 [] = base.headD [] := by
          cases base with
          | nil => exact absurd htidx.symm h0
          | cons m rest => rfl
        have hentry := h.entry 0 d.1
        have hat0 (i j : Nat) : Build.at { s with nextConn := i, nextSync := j } 0 d.1 = s.at 0 d.1 := rfl
        rw [hhead] at hentry
        rw [if_neg h0, hat0]
        cases hfirst : s.at 0 d.1 with
        | none =>
          rw [hfirst] at hentry
          rw [if_neg]
          · rfl
          · rw [rel_isSome hentry]
            simp [h0]
        | some db0 =>
          rw [hfirst] at hentry
          rw [if_pos (Or.inr (by rw [rel_isSome hentry]; rfl))]
          exact ⟨_, rfl, hput _ _ rfl rfl⟩

end

theorem runThreads_eq (cfg : Option Cfg) (disk : Disk) (n : Nat) :
    runThreads cfg disk n = (List.range n).foldlM (fun s tidx => Db.addThread cfg disk tidx s) {} := by
  induction n with
  | zero => rfl
  | succ n ih =>
    rw [runThreads, ih, List.range_succ, List.foldlM_append]
    cases (List.range n).foldlM (fun s tidx => Db.addThread cfg disk tidx s) {} with
    | error e => rfl
    | ok s =>
      simp only [List.foldlM_cons, List.foldlM_nil]
      exact (bind_pure _).symm

theorem addThread_agrees (cfg : Option Cfg) (out : Outcomes) {tidx : Nat} {base : List (List Def)} {s : Build}
    (htidx : base.length = tidx) (h : SameTable base s) :
    (addThread cfg out base tidx).Agrees (fun databases s => SameTable databases s ∧ databases.length = tidx + 1) Failure.fail
      (Db.addThread cfg out.disk tidx s) := by
  have hnodup := cfgDbs_nodup cfg
  have hdbs : (buildLoop (openDb out tidx base) [] (cfgDbs cfg)).Agrees (fun current s => SameTable (base ++ [current]) s ∧
      current.map Def.name = (cfgDbs cfg).map Prod.fst) Failure.fail (Db.addThread cfg out.disk tidx s) := by
    refine buildLoop_agrees (fun pre current s => SameTable (base ++ [current]) s ∧
      current.map Def.name = pre.map Prod.fst) (fun pre d post hds current s h => ?_) ⟨sameTable_grow h, rfl⟩
    refine openDb_agrees htidx (fun hmem => ?_) h.2 h.1
    rw [hds, List.map_append, List.map_cons, List.nodup_append] at hnodup
    exact hnodup.2.2 d.1 hmem d.1 List.mem_cons_self rfl
  refine hdbs.into fun current s hs => ⟨hs.1, ?_⟩
  rw [List.length_append, List.length_singleton, htidx]

/-- **The same table.** `db_server::run` here and in `Table.lean`: they fail alike or make the same entries. -/
theorem run_agrees (cfg : Option Cfg) (out : Outcomes) (n : Nat) :
    (run cfg out n).Agrees SameTable Failure.fail (runThreads cfg out.disk n) := by
  have hloop : (run cfg out n).Agrees (fun databases s => SameTable databases s ∧ databases.length = (List.range n).length)
      Failure.fail (runThreads cfg out.disk n) := by
    rw [runThreads_eq]
    refine buildLoop_agrees (fun pre databases s => SameTable databases s ∧ databases.length = pre.length)
      (fun pre tidx post hrange base s h => ?_) ⟨⟨rfl, rfl, fun t d => .none⟩, rfl⟩
    have htidx := range_split hrange
    rw [List.length_append, List.length_singleton, htidx]
    exact addThread_agrees cfg out (h.2.trans htidx) h.1
  unfold Built.Agrees at hloop ⊢
  split at hloop
  · obtain ⟨s, hs, hsame, -⟩ := hloop
    exact ⟨s, hs, hsame⟩
  · exact hloop

end Acppsrv.Db.Handles
