import Acppsrv.Lib.Calls
import Acppsrv.Db.Outcome
import Acppsrv.Db.Pool
import Acppsrv.Http.Call
import Acppsrv.Http.Framing
import Acppsrv.Http.Server
/-!
# Queries across the pools (http_hnd_db.cpp:11-46, db_server_impl.hpp:9-19)

A connection in the `/db` handler is suspended on a thread of a main pool while its query is made by a thread
of the database pool. Two posts take it there and back: `db_server::query` posts the request to the database
pool, and the completion posts the response to the executor of the connection.

| here | there |
| --- | --- |
| `waiting`          | the connections suspended in `co_await call_query` (http_hnd_db.cpp:41), with their `*in` |
| `postQuery`        | the `init` of `call_query` (:15): `db_srv.query(std::move(request), …)` |
| `Calls.queue`      | the handlers posted to `workers.ctx` (db_server_impl.hpp:12), with the completion in their capture |
| `SysAct.take`      | a database thread runs such a handler: `run_query` begins |
| `SysAct.call`      | its next SQLite call |
| `SysAct.reply`     | `run_query` returned; `handler(std::move(response))` posts to `executor` (http_hnd_db.cpp:21) |
| `SysAct.resume`    | the posted completion resumes the coroutine |

The other steps are those of `Server.lean`. A request whose SQLite calls do not end leaves its thread busy
(`Pool.busy`), and one on a thread without an entry is given up: its exception leaves the handler.
-/
namespace Acppsrv.Http
open Lib

/-- The query the coroutine is suspended in. -/
def queryOf (c : Conn) : Option Db.Request :=
  match c.pc with
  | .handling _ (.query q _) => some q
  | _ => none

def waiting (srv : Srv) (i : Nat) : Option Db.Request := srv.conns[i]?.bind fun c => queryOf c.co

structure Sys where
  srv : Srv := {}
  pool : Db.Pool
  calls : Calls Nat Db.Request Db.Response

inductive SysAct where
  | srv (a : SrvAct)
  | take (t : Nat) (sqlite : Db.Sqlite)
  | call (t : Nat)
  | reply (t : Nat)
  | resume (k : Nat)

/-- Connection `i` moved: it has posted the query it is suspended in now. -/
def postQuery (calls : Calls Nat Db.Request Db.Response) (srv : Srv) (i : Nat) :
    Calls Nat Db.Request Db.Response :=
  match waiting srv i with
  | some q => calls.post i q
  | none => calls

/-- A step of the server, the resumption of a suspended handler apart. -/
def srvAct (cfg : SrvCfg) (s : Sys) : SrvAct → Option Sys
  | .conn _ (.answer _) => none
  | .conn i ca => (srvStep cfg s.srv (.conn i ca)).map fun srv => { s with srv, calls := postQuery s.calls srv i }
  | a => (srvStep cfg s.srv a).map fun srv => { s with srv }

def sysStep (cfg : SrvCfg) (n : Nat) (s : Sys) : SysAct → Option Sys
  | .srv a => srvAct cfg s a
  | .take t sqlite =>
    match s.calls.take t fun q => (Db.runQuery s.pool.databases t q sqlite).bind (·.result) with
    | none => none
    | some ((_, q), calls) =>
      (Db.poolStep n s.pool (.take t ⟨q, sqlite⟩)).map fun pool =>
        { s with pool, calls := if (Db.runQuery s.pool.databases t q sqlite).isNone then calls.drop t else calls }
  | .call t => (Db.poolStep n s.pool (.call t)).map fun pool => { s with pool }
  | .reply t => if s.pool.todo t = [] then (s.calls.reply t).map fun calls => { s with calls } else none
  | .resume k =>
    match s.calls.deliver k with
    | none => none
    | some (((i, _), a), calls) =>
      (srvStep cfg s.srv (.conn i (.answer a))).map fun srv => { s with srv, calls := postQuery calls srv i }

/-- The server and the database pool of `n` threads as they start. -/
def Sys.init (tbl : List (Db.Map Db.DbDef)) (n : Nat) : Sys :=
  { pool := { databases := tbl }, calls := { servers := List.replicate n none } }

/-- In the run of `as` a thread of the pool took the query `q` of connection `i`, and `a` is what it answers to it
just after `db_server::run`, with the SQLite outcomes it met. -/
def Served (cfg : SrvCfg) (n : Nat) (tbl : List (Db.Map Db.DbDef)) (as : List SysAct) (i : Nat) (q : Db.Request)
    (a : Db.Response) : Prop :=
  ∃ (pre post : List SysAct) (t : Nat) (sqlite : Db.Sqlite) (s : Sys) (dbs : Db.Map Db.DbDef),
    as = pre ++ .take t sqlite :: post ∧ exec (sysStep cfg n) (Sys.init tbl n) pre = some s ∧
    s.calls.queue.head? = some (i, q) ∧ tbl[t]? = some dbs ∧ (Db.runQueryOn dbs q sqlite).result = some a

/-! ## Who waits -/

section
variable {cfg : SrvCfg} {s s' : Srv}

theorem queryOf_eq_some {c : Conn} {q : Db.Request} (h : queryOf c = some q) :
    ∃ req k, c.pc = .handling req (.query q k) := by
  unfold queryOf at h
  split at h
  · rename_i req q' k hpc
    cases h
    exact ⟨req, k, hpc⟩
  · cases h

/-- A step resumes a suspended coroutine only with an answer. -/
theorem connStep_queryOf {cfg : ConnCfg} {sid : Nat} {st st' : Stat} {c c' : Conn} {ca : Act}
    (ha : ∀ a, ca ≠ .answer a) (h : connStep cfg sid st c ca = some (st', c')) : queryOf c = none := by
  cases hq : queryOf c with
  | none => rfl
  | some q =>
    obtain ⟨req, k, hpc⟩ := queryOf_eq_some hq
    cases ca with
    | answer a => exact absurd rfl (ha a)
    | run | header | wrote100 | readSome | wrote | wrote413 => simp [connStep, hpc] at h

/-- Connection `i` moves alone. -/
theorem srvStep_conn {i : Nat} {ca : Act} (h : srvStep cfg s (.conn i ca) = some s') :
    ∃ c st co, s.conns[i]? = some c ∧ connStep cfg.toConnCfg c.sid s.stat c.co ca = some (st, co) ∧
      s' = { s with stat := st, conns := s.conns.set i { c with co := co } } := by
  simp only [srvStep] at h
  split at h
  · cases h
  · rename_i c hc
    obtain ⟨⟨st, co⟩, hm, rfl⟩ := Option.map_eq_some_iff.1 h
    exact ⟨c, st, co, hc, hm, rfl⟩

theorem waiting_set {i : Nat} {c c' : ConnSt} (hi : s.conns[i]? = some c)
    (hs : s'.conns = s.conns.set i c') : waiting s' = Function.update (waiting s) i (queryOf c'.co) := by
  obtain ⟨hlt, -⟩ := List.getElem?_eq_some_iff.1 hi
  funext j
  unfold waiting
  rw [hs]
  by_cases hj : j = i
  · subst hj
    rw [List.getElem?_set_self hlt, Function.update_self]
    rfl
  · rw [List.getElem?_set_ne (Ne.symm hj), Function.update_of_ne hj]

/-- The accept loop and `active_connection_end` leave every coroutine where it is; a spawned one has not
started. -/
theorem srvMove_conns {a : SrvAct} (ha : ∀ i ca, a ≠ .conn i ca) (hm : SrvMove cfg s a s') :
    s'.conns.map (fun c => (c.sid, c.co)) = s.conns.map (fun c => (c.sid, c.co)) ∨
      ∃ sid pool, s'.conns = s.conns ++ [{ sid := sid, pool := pool }] := by
  cases hm with
  | conn => exact absurd rfl (ha _ _)
  | spawn h => exact Or.inr ⟨_, _, rfl⟩
  | endLock hc | endDec hc | endWake hc | endQuiet hc | endUnlock hc => exact Or.inl (map_set_eq _ hc rfl)
  | _ => exact Or.inl rfl

theorem waiting_move {a : SrvAct} (ha : ∀ i ca, a ≠ .conn i ca) (hm : SrvMove cfg s a s') :
    waiting s' = waiting s := by
  funext i
  unfold waiting
  rcases srvMove_conns ha hm with hco | ⟨sid, pool, hspawn⟩
  · have hi := congrArg (fun l => l[i]?) hco
    simp only [List.getElem?_map] at hi
    cases hc : s.conns[i]? with
    | none =>
      rw [hc] at hi
      rw [Option.map_eq_none_iff.1 hi]
    | some c =>
      rw [hc] at hi
      obtain ⟨c', hc', heq⟩ := Option.map_eq_some_iff.1 hi
      rw [hc', Option.bind_some, Option.bind_some, (Prod.mk.inj heq).2]
  · rw [hspawn, List.getElem?_append]
    split
    · rfl
    · rename_i hge
      rw [List.getElem?_eq_none (l := s.conns) (by omega), List.getElem?_singleton]
      split
      · rfl
      · rfl

end

/-! ## What a response is made of -/

/-- The responses a handler call can return when every query of it gets an answer that `P` allows. -/
inductive Handling.YieldsIf (P : Db.Request → Db.Response → Prop) : Handling → Response → Prop
  | ret (r : Response) : YieldsIf P (.ret r) r
  | exchange {c : Counter} {k : UInt64 → Handling} {r : Response} (v : UInt64) :
      YieldsIf P (k v) r → YieldsIf P (.exchange c k) r
  | load {c : Counter} {k : UInt64 → Handling} {r : Response} (v : UInt64) :
      YieldsIf P (k v) r → YieldsIf P (.load c k) r
  | query {q : Db.Request} {k : Db.Response → Handling} {r : Response} (a : Db.Response) :
      P q a → YieldsIf P (k a) r → YieldsIf P (.query q k) r

theorem Handling.YieldsIf.mono {P P' : Db.Request → Db.Response → Prop} (hP : ∀ q a, P q a → P' q a)
    {h : Handling} {r : Response} (hy : h.YieldsIf P r) : h.YieldsIf P' r := by
  induction hy with
  | ret r => exact .ret r
  | exchange v _ ih => exact .exchange v ih
  | load v _ ih => exact .load v ih
  | query a ha _ ih => exact .query a (hP _ _ ha) ih

theorem yieldsIf_ret (P : Db.Request → Db.Response → Prop) (r r' : Response) :
    (Handling.ret r).YieldsIf P r' ↔ r' = r := by
  constructor
  · intro h
    cases h
    rfl
  · rintro rfl
    exact .ret _

/-- Every response of the connection, written or in the making, is one its handler returns on answers that
`P` allows. The one in the making may still get answers that only a wider `P'` allows. -/
structure Answered (cfg : ConnCfg) (sid : Nat) (P : Db.Request → Db.Response → Prop) (c : Conn) : Prop where
  respond : ∀ j resp, .respond j resp ∈ c.log → ∃ req r, .body j req ∈ c.log ∧
    Dispatched (Handling.YieldsIf P) cfg sid j req r ∧ resp = finishResponse cfg req j r
  handling : ∀ req h, c.pc = .handling req h → .body c.reqN req ∈ c.log ∧
    ∀ P' : Db.Request → Db.Response → Prop, (∀ q a, P q a → P' q a) →
      ∀ r, h.YieldsIf P' r → Dispatched (Handling.YieldsIf P') cfg sid c.reqN req r

section
variable {cfg : ConnCfg} {sid : Nat} {P P' : Db.Request → Db.Response → Prop} {c c' : Conn}

theorem answered_init (cfg : ConnCfg) (sid : Nat) (P : Db.Request → Db.Response → Prop) : Answered cfg sid P {} where
  respond j resp h := by simp at h
  handling req h hpc := by cases hpc

theorem Answered.mono (h : Answered cfg sid P c) (hP : ∀ q a, P q a → P' q a) : Answered cfg sid P' c where
  respond j resp hm := by
    obtain ⟨req, r, hb, hd, hr⟩ := h.respond j resp hm
    rw [dispatched_iff (yieldsIf_ret P)] at hd
    exact ⟨req, r, hb, (dispatched_iff (yieldsIf_ret P') _ _ _ _ _).2 (hd.mono hP), hr⟩
  handling req hd hp := by
    obtain ⟨hb, hy⟩ := h.handling req hd hp
    exact ⟨hb, fun P'' hP' => hy P'' fun q a ha => hP' q a (hP q a ha)⟩

/-- A step outside the handler, which writes no response. -/
theorem Answered.extend (h : Answered cfg sid P c) (es : List Ev) (hlog : c'.log = c.log ++ es)
    (hes : ∀ j resp, .respond j resp ∉ es) (hpc : ∀ req h, c'.pc ≠ .handling req h) : Answered cfg sid P c' where
  respond j resp hm := by
    rw [hlog] at hm ⊢
    rcases List.mem_append.1 hm with hm | hm
    · obtain ⟨req, r, hb, hy, hr⟩ := h.respond j resp hm
      exact ⟨req, r, List.mem_append_left _ hb, hy, hr⟩
    · exact absurd hm (hes j resp)
  handling req hd hp := absurd hp (hpc req hd)

/-- A step of the handler. -/
theorem Answered.handler (h : Answered cfg sid P c) {req : Request} {hd hd' : Handling}
    (hpc : c.pc = .handling req hd) (es : List Ev) (hes : ∀ j resp, .respond j resp ∉ es)
    (hc' : c' = { c with pc := .handling req hd', log := c.log ++ es })
    (hy : ∀ P' : Db.Request → Db.Response → Prop, (∀ q a, P q a → P' q a) →
      ∀ r, hd'.YieldsIf P' r → hd.YieldsIf P' r) : Answered cfg sid P c' := by
  subst hc'
  obtain ⟨hbody, hyield⟩ := h.handling req hd hpc
  constructor
  · intro j resp hm
    rcases List.mem_append.1 hm with hm | hm
    · obtain ⟨req', r, hb, hy', hr⟩ := h.respond j resp hm
      exact ⟨req', r, List.mem_append_left _ hb, hy', hr⟩
    · exact absurd hm (hes j resp)
  · intro req' h' hp
    cases hp
    exact ⟨List.mem_append_left _ hbody, fun P' hP r hr => hyield P' hP r (hy P' hP r hr)⟩

theorem bodyLoop_pc (c : Conn) (req : Request) (done : Bool) (req' : Request) (h : Handling) :
    (bodyLoop c req done).pc ≠ .handling req' h := by
  unfold bodyLoop
  split
  · exact fun hp => by cases hp
  · exact fun hp => by cases hp

/-- **Every step keeps it**, as long as a resumed handler gets an answer that `P` allows. -/
theorem answered_step {st st' : Stat} {ca : Act} (hI : Answered cfg sid P c)
    (hstep : connStep cfg sid st c ca = some (st', c'))
    (ha : ∀ a, ca = .answer a → ∀ q, queryOf c = some q → P q a) : Answered cfg sid P c' := by
  have hm := connStep_move hstep
  cases hm with
  | start h => exact hI.extend _ rfl (by simp) (by simp)
  | header h => exact hI.extend _ rfl (by simp) (by simp)
  | continue100 h => exact hI.extend _ rfl (by simp) (by simp)
  | toBody h | wrote100 h => exact hI.extend [] (by rw [bodyLoop_log, List.append_nil]) (by simp) (bodyLoop_pc _ _ _)
  | chunk h => exact hI.extend _ (bodyLoop_log _ _ _) (by simp) (bodyLoop_pc _ _ _)
  | @body req h =>
    constructor
    · intro j resp hr
      have hold : .respond j resp ∈ c.log := by simpa using hr
      obtain ⟨req', r, hb, hy, hr⟩ := hI.respond j resp hold
      exact ⟨req', r, List.mem_append_left _ hb, hy, hr⟩
    · intro req' h' hp
      cases hp
      exact ⟨by simp, fun P' _ r hr => (dispatched_iff (yieldsIf_ret P') _ _ _ _ _).2 hr⟩
  | exchange h => exact hI.handler h _ (by simp) rfl fun _ _ r hr => .exchange _ hr
  | load h => exact hI.handler h [] (by simp) (by rw [List.append_nil]) fun _ _ r hr => .load _ hr
  | @answer req q k a h =>
    have hq : queryOf c = some q := by simp [queryOf, h]
    exact hI.handler h [] (by simp) (by rw [List.append_nil]) fun P' hP r hr => .query a (hP q a (ha a rfl q hq)) hr
  | @respond req r h =>
    obtain ⟨hbody, hyield⟩ := hI.handling req _ h
    constructor
    · intro j resp hr
      rcases List.mem_append.1 hr with hr | hr
      · obtain ⟨req', r', hb, hy, hr⟩ := hI.respond j resp hr
        exact ⟨req', r', List.mem_append_left _ hb, hy, hr⟩
      · obtain ⟨rfl, rfl⟩ : j = c.reqN ∧ resp = finishResponse cfg req c.reqN r := by simpa using hr
        exact ⟨req, r, List.mem_append_left _ hbody, hyield P (fun _ _ h => h) r (.ret r), rfl⟩
    · intro req' h' hp
      cases hp
  | throw h => exact hI.extend _ rfl (by simp) (by simp)
  | again h hk => exact hI.extend _ rfl (by simp) (by simp)
  | close h hk => exact hI.extend _ rfl (by simp) (by simp)
  | abort op h hop ha he =>
    unfold abortConnection
    split
    · exact hI.extend _ rfl (by simp) (by simp)
    · exact hI.extend _ rfl (by simp) (by simp)
  | wrote413 h => exact hI.extend [] (by simp) (by simp) (by simp)

end

/-! ## The two pools together -/

/-- `P i q a`: connection `i` may get the answer `a` to `q`. -/
structure SysInv (cfg : ConnCfg) (tbl : List (Db.Map Db.DbDef)) (n : Nat)
    (P : Nat → Db.Request → Db.Response → Prop) (s : Sys) : Prop where
  pool : Db.PoolInv tbl s.pool
  servers : s.calls.servers.length = n
  /-- a thread of the pool without a call is in no request -/
  idle : ∀ t, s.calls.servers[t]? = some none → s.pool.todo t = [] ∧ s.pool.busy t = false
  /-- and with a call it is stuck iff it will give no answer -/
  serving : ∀ (t : Nat) x r, s.calls.servers[t]? = some (some (x, r)) → s.pool.busy t = r.isNone
  calls : s.calls.Inv P (waiting s.srv)
  conns : ∀ (i : Nat) c, s.srv.conns[i]? = some c → Answered cfg c.sid (P i) c.co

section
variable {cfg : SrvCfg} {dbCfg : Option Db.Cfg} {tbl : List (Db.Map Db.DbDef)} {n : Nat} {s s' : Sys}
  {P P' : Nat → Db.Request → Db.Response → Prop}

theorem sysInv_init (cfg : ConnCfg) (tbl : List (Db.Map Db.DbDef)) (n : Nat)
    (P : Nat → Db.Request → Db.Response → Prop) : SysInv cfg tbl n P (Sys.init tbl n) where
  pool := ⟨rfl, by simp [Sys.init], by simp [Sys.init]⟩
  servers := by simp [Sys.init]
  idle t _ := ⟨rfl, rfl⟩
  serving t x r h := by
    have hmem := List.eq_of_mem_replicate (List.mem_of_getElem? h)
    cases hmem
  calls := Calls.inv_init P n
  conns i c h := by simp [Sys.init] at h

theorem SysInv.mono {cfg : ConnCfg} (hI : SysInv cfg tbl n P s) (hP : ∀ i q a, P i q a → P' i q a) :
    SysInv cfg tbl n P' s where
  pool := hI.pool
  servers := hI.servers
  idle := hI.idle
  serving := hI.serving
  calls := hI.calls.mono hP
  conns i c hc := (hI.conns i c hc).mono (hP i)

/-- What a thread of the pool answers is what it would answer as `db_server::run` left it. -/
theorem SysInv.answer {cfg : ConnCfg} (hI : SysInv cfg tbl n P s) {t : Nat} {q : Db.Request} {sqlite : Db.Sqlite} :
    ((Db.runQuery s.pool.databases t q sqlite).bind (·.result)) =
      (Db.runQuery tbl t q sqlite).bind (·.result) := by
  have hdefs := congrArg (fun l => l[t]?) hI.pool.defs
  simp only [List.getElem?_map] at hdefs
  unfold Db.runQuery
  cases hdbs : s.pool.databases[t]? with
  | none =>
    rw [hdbs] at hdefs
    rw [Option.map_eq_none_iff.1 hdefs.symm]
  | some dbs =>
    obtain ⟨dbs₀, h₀, hblank⟩ := hI.pool.entry hdbs
    simp only [h₀, Option.map_some, Option.bind_some]
    rw [(Db.runQueryOn_blank dbs q sqlite).1, hblank, ← (Db.runQueryOn_blank dbs₀ q sqlite).1]

/-- No thread of the pool fails to find its entry. -/
theorem SysInv.entry_isSome {cfg : ConnCfg} (hT : Db.TableOk dbCfg n tbl) (hI : SysInv cfg tbl n P s) {t : Nat}
    (ht : t < n) (q : Db.Request) (sqlite : Db.Sqlite) :
    ∃ r, Db.runQuery s.pool.databases t q sqlite = some r := by
  have hsize : s.pool.databases.length = n := by
    have := congrArg List.length hI.pool.defs
    simpa [hT.size] using this
  exact ⟨_, by simp [Db.runQuery, hsize, ht]; rfl⟩

/-- A move of connection `i` keeps what the connections owe. -/
theorem answered_set {cfg : ConnCfg} {srv srv' : Srv} {i : Nat} {c : ConnSt} {co : Conn}
    (h : ∀ (j : Nat) c, srv.conns[j]? = some c → Answered cfg c.sid (P j) c.co)
    (hs : srv'.conns = srv.conns.set i { c with co := co }) (hco : Answered cfg c.sid (P i) co) :
    ∀ (j : Nat) c, srv'.conns[j]? = some c → Answered cfg c.sid (P j) c.co := by
  rw [hs]
  exact forall_set (P := fun j c => Answered cfg c.sid (P j) c.co) (y := { c with co := co })
    (fun j x _ hx => h j x hx) hco

/-- The coroutine of connection `i` goes on: its next query, if there is one, is posted. -/
theorem postQuery_inv {w : Nat → Option Db.Request} {srv : Srv}
    {calls : Calls Nat Db.Request Db.Response} {i : Nat} {q : Option Db.Request}
    (h : calls.Inv P w) (hw : w i = none) (hsrv : waiting srv = Function.update w i q) :
    (postQuery calls srv i).Inv P (waiting srv) := by
  have hi : waiting srv i = q := by rw [hsrv, Function.update_self]
  unfold postQuery
  rw [hi]
  cases q with
  | some q =>
    rw [hsrv]
    exact h.post hw q
  | none =>
    have hsame : Function.update w i none = w := by rw [← hw, Function.update_eq_self]
    rw [hsrv, hsame]
    exact h

theorem postQuery_servers (calls : Calls Nat Db.Request Db.Response) (srv : Srv) (i : Nat) :
    (postQuery calls srv i).servers = calls.servers := by
  unfold postQuery
  split
  · rfl
  · rfl

/-- A step of the server: its threads leave the pool alone. -/
theorem SysInv.srv (hI : SysInv cfg.toConnCfg tbl n P s) {a : SrvAct} (h : srvAct cfg s a = some s') :
    SysInv cfg.toConnCfg tbl n P s' := by
  cases a with
  | conn i ca =>
    have hca : ∀ a, ca ≠ .answer a := by
      rintro a rfl
      cases h
    obtain ⟨srv, hsrv, rfl⟩ : ∃ srv, srvStep cfg s.srv (.conn i ca) = some srv ∧
        { s with srv, calls := postQuery s.calls srv i } = s' := by
      cases ca with
      | answer a => exact absurd rfl (hca a)
      | _ => exact Option.map_eq_some_iff.1 h
    obtain ⟨c, st, co, hc, hstep, hsrv'⟩ := srvStep_conn hsrv
    have hconns : srv.conns = s.srv.conns.set i { c with co := co } := by rw [hsrv']
    have hnone : waiting s.srv i = none := by
      rw [waiting, hc, Option.bind_some]
      exact connStep_queryOf hca hstep
    refine ⟨hI.pool, ?_, ?_, ?_, ?_, ?_⟩
    · rw [postQuery_servers]
      exact hI.servers
    · rw [postQuery_servers]
      exact hI.idle
    · rw [postQuery_servers]
      exact hI.serving
    · exact postQuery_inv hI.calls hnone (waiting_set hc hconns)
    · exact answered_set hI.conns hconns (answered_step (hI.conns i c hc) hstep fun a ha => absurd ha (hca a))
  | lock | check | register | unlock | resume | accept | endpoint | count | logEndpoint | spawn | endLock | endDec
  | endCheck | endUnlock =>
    obtain ⟨srv, hsrv, rfl⟩ := Option.map_eq_some_iff.1 h
    have hm := srvStep_move hsrv
    have hw := waiting_move (by simp) hm
    refine ⟨hI.pool, hI.servers, hI.idle, hI.serving, hw.symm ▸ hI.calls, ?_⟩
    intro i c hc
    rcases srvMove_conns (by simp) hm with hco | ⟨sid, pool, hspawn⟩
    · have hi := congrArg (fun l => l[i]?) hco
      simp only [List.getElem?_map, hc, Option.map_some] at hi
      obtain ⟨c', hc', heq⟩ := Option.map_eq_some_iff.1 hi.symm
      obtain ⟨hsid, hco⟩ := Prod.mk.inj heq
      rw [← hsid, ← hco]
      exact hI.conns i c' hc'
    · rw [hspawn] at hc
      exact forall_snoc (P := fun i c => Answered cfg.toConnCfg c.sid (P i) c.co) hI.conns
        (answered_init _ _ _) i c hc

/-- **Every step of the two pools keeps the invariant**, as long as `P` allows what a thread will answer to the call
it takes. -/
theorem sysInv_step (hT : Db.TableOk dbCfg n tbl) (hI : SysInv cfg.toConnCfg tbl n P s) {a : SysAct}
    (h : sysStep cfg n s a = some s') (hP : ∀ t sqlite, a = .take t sqlite → ∀ i q b,
      s.calls.queue.head? = some (i, q) → (Db.runQuery tbl t q sqlite).bind (·.result) = some b → P i q b) :
    SysInv cfg.toConnCfg tbl n P s' := by
  cases a with
  | srv a => exact hI.srv h
  | take t sqlite =>
    simp only [sysStep] at h
    split at h
    · cases h
    · rename_i i q calls hcalls
      obtain ⟨pool, hpool, rfl⟩ := Option.map_eq_some_iff.1 h
      have hIpool := Db.poolInv_step hT hI.pool hpool
      obtain ⟨queue, hidle, hqueue, heq⟩ := Calls.take_eq_some hcalls
      have hIcalls := hI.calls.take hcalls fun b hb => hP t sqlite rfl i q b (by rw [hqueue]; rfl) (hI.answer ▸ hb)
      have htn : t < n := by
        rw [← hI.servers]
        exact (List.getElem?_eq_some_iff.1 hidle).1
      obtain ⟨r, hr⟩ := hI.entry_isSome hT htn q sqlite
      have hguard : t ∈ Db.threadPoolRun n ∧ s.pool.todo t = [] ∧ s.pool.busy t = false :=
        ⟨List.mem_range.2 htn, hI.idle t hidle⟩
      simp only [Db.poolStep, hguard, and_self, ↓reduceIte, hr, Option.some.injEq] at hpool
      simp only [hr, Option.isNone_some, Bool.false_eq_true, ↓reduceIte]
      subst heq
      subst hpool
      refine ⟨hIpool, ?_, ?_, ?_, hIcalls, hI.conns⟩
      · rw [List.length_set]
        exact hI.servers
      · intro t' ht'
        by_cases htt : t' = t
        · subst htt
          rw [List.getElem?_set_self (by rw [hI.servers]; exact htn)] at ht'
          cases ht'
        · rw [List.getElem?_set_ne (Ne.symm htt)] at ht'
          simpa [Function.update_of_ne htt] using hI.idle t' ht'
      · intro t' x r' ht'
        by_cases htt : t' = t
        · subst htt
          rw [List.getElem?_set_self (by rw [hI.servers]; exact htn)] at ht'
          simp only [Option.some.injEq, Prod.mk.injEq] at ht'
          obtain ⟨-, rfl⟩ := ht'
          simp [hr]
        · rw [List.getElem?_set_ne (Ne.symm htt)] at ht'
          simpa [Function.update_of_ne htt] using hI.serving t' x r' ht'
  | call t =>
    simp only [sysStep] at h
    obtain ⟨pool, hpool, rfl⟩ := Option.map_eq_some_iff.1 h
    have hIpool := Db.poolInv_step hT hI.pool hpool
    simp only [Db.poolStep] at hpool
    split at hpool
    · cases hpool
    · rename_i u us hu
      cases hpool
      refine ⟨hIpool, hI.servers, ?_, hI.serving, hI.calls, hI.conns⟩
      intro t' ht'
      have hne : t' ≠ t := by
        rintro rfl
        rw [(hI.idle t' ht').1] at hu
        cases hu
      simpa [Function.update_of_ne hne] using hI.idle t' ht'
  | reply t =>
    simp only [sysStep] at h
    split at h
    · rename_i htodo
      obtain ⟨calls, hcalls, rfl⟩ := Option.map_eq_some_iff.1 h
      have hIcalls := hI.calls.reply hcalls
      obtain ⟨x, a, hserver, heq⟩ := Calls.reply_eq_some hcalls
      subst heq
      refine ⟨hI.pool, ?_, ?_, ?_, hIcalls, hI.conns⟩
      · rw [List.length_set]
        exact hI.servers
      · intro t' ht'
        by_cases htt : t' = t
        · subst htt
          exact ⟨htodo, hI.serving t' x (some a) hserver⟩
        · rw [List.getElem?_set_ne (Ne.symm htt)] at ht'
          exact hI.idle t' ht'
      · intro t' y r ht'
        by_cases htt : t' = t
        · subst htt
          rw [List.getElem?_set_self (List.getElem?_eq_some_iff.1 hserver).1] at ht'
          cases ht'
        · rw [List.getElem?_set_ne (Ne.symm htt)] at ht'
          exact hI.serving t' y r ht'
    · cases h
  | resume k =>
    simp only [sysStep] at h
    split at h
    · cases h
    · rename_i i q a calls hcalls
      obtain ⟨srv, hsrv, rfl⟩ := Option.map_eq_some_iff.1 h
      obtain ⟨hwait, hP, hIcalls⟩ := hI.calls.deliver hcalls
      obtain ⟨-, heq⟩ := Calls.deliver_eq_some hcalls
      obtain ⟨c, st, co, hc, hstep, hsrv'⟩ := srvStep_conn hsrv
      have hconns : srv.conns = s.srv.conns.set i { c with co := co } := by rw [hsrv']
      have hq : queryOf c.co = some q := by simpa [waiting, hc] using hwait
      refine ⟨hI.pool, ?_, ?_, ?_, ?_, ?_⟩
      · rw [postQuery_servers, heq]
        exact hI.servers
      · rw [postQuery_servers, heq]
        exact hI.idle
      · rw [postQuery_servers, heq]
        exact hI.serving
      · refine postQuery_inv (q := queryOf co) hIcalls (Function.update_self ..) ?_
        rw [Function.update_idem]
        exact waiting_set hc hconns
      · refine answered_set hI.conns hconns (answered_step (hI.conns i c hc) hstep fun b hb q' hq' => ?_)
        cases hb
        rw [hq] at hq'
        cases hq'
        exact hP

/-- What was served in a run was served in every longer one. -/
theorem Served.append {as : List SysAct} {i : Nat} {q : Db.Request} {a : Db.Response}
    (h : Served cfg n tbl as i q a) (bs : List SysAct) : Served cfg n tbl (as ++ bs) i q a := by
  obtain ⟨pre, post, t, sqlite, s, dbs, rfl, hpre, hq, hdbs, ha⟩ := h
  exact ⟨pre, post ++ bs, t, sqlite, s, dbs, by simp, hpre, hq, hdbs, ha⟩

theorem served_take {as : List SysAct} (h : exec (sysStep cfg n) (Sys.init tbl n) as = some s) {t i : Nat}
    {sqlite : Db.Sqlite} {q : Db.Request} {b : Db.Response} (hq : s.calls.queue.head? = some (i, q))
    (hb : (Db.runQuery tbl t q sqlite).bind (·.result) = some b) :
    Served cfg n tbl (as ++ [.take t sqlite]) i q b := by
  obtain ⟨r, hr, hres⟩ := Option.bind_eq_some_iff.1 hb
  obtain ⟨dbs, hdbs, rfl⟩ := Option.map_eq_some_iff.1 hr
  exact ⟨as, [], t, sqlite, s, dbs, rfl, h, hq, hdbs, hres⟩

theorem sysInv_run (hT : Db.TableOk dbCfg n tbl) {as : List SysAct}
    (h : exec (sysStep cfg n) (Sys.init tbl n) as = some s) :
    SysInv cfg.toConnCfg tbl n (Served cfg n tbl as) s := by
  have hrun : exec (sysStep cfg n) (Sys.init tbl n) as = some s ∧
      SysInv cfg.toConnCfg tbl n (Served cfg n tbl as) s := by
    refine exec_history (fun as s => exec (sysStep cfg n) (Sys.init tbl n) as = some s ∧
      SysInv cfg.toConnCfg tbl n (Served cfg n tbl as) s) ⟨rfl, sysInv_init _ _ _ _⟩ ?_ h
    rintro as s a s' ⟨has, hI⟩ hstep
    refine ⟨by simp [exec_append, has, exec, hstep], ?_⟩
    refine sysInv_step hT (hI.mono fun i q b hb => hb.append [a]) hstep ?_
    rintro t sqlite rfl i q b hq hb
    exact served_take has hq hb
  exact hrun.2

/-- **Queries across the pools.** In every interleaving of the main pools and the database pool: the calls in
flight are those of the suspended coroutines, one each with the query it is suspended in, whether the call is
queued, with a thread or on its way back; and every response of every connection is one the handler of its target
returns when each of its queries gets the answer of the database thread that took it. -/
theorem queries_answered (cfg : SrvCfg) (dbCfg : Option Db.Cfg) (disk : Db.Disk) (n : Nat)
    (tbl : List (Db.Map Db.DbDef)) (hrun : Db.run dbCfg disk n = .ok tbl) (as : List SysAct) (s : Sys)
    (h : exec (sysStep cfg n) (Sys.init tbl n) as = some s) :
    (s.calls.tokens.map Prod.fst).Nodup ∧ (∀ i q, (i, q) ∈ s.calls.tokens ↔ waiting s.srv i = some q) ∧
    (∀ x ∈ s.calls.replies, Served cfg n tbl as x.1.1 x.1.2 x.2) ∧
    ∀ (i : Nat) c, s.srv.conns[i]? = some c → ∀ j resp, .respond j resp ∈ c.co.log →
      ∃ req r, .body j req ∈ c.co.log ∧
        Dispatched (Handling.YieldsIf (Served cfg n tbl as i)) cfg.toConnCfg c.sid j req r ∧
        resp = finishResponse cfg.toConnCfg req j r := by
  have hI := sysInv_run (Db.run_tableOk hrun) h
  exact ⟨hI.calls.nodup, hI.calls.mem, hI.calls.replied, fun i c hc => (hI.conns i c hc).respond⟩

/-- A `/db` response, answered: made of an answer that `P` allows to the request that was parsed. -/
def DbResponse (cfg : ConnCfg) (decD : Decoder Db.Request) (encD : Encoder Db.Response)
    (P : Db.Request → Db.Response → Prop) (req : Request) (j : Nat) (resp : Response) : Prop :=
  match parse decD req with
  | (none, e) => resp = finishResponse cfg req j e
  | (some q, _) => ∃ a, P q a ∧ resp = finishResponse cfg req j (serialize encD req a okResponse).2

/-- What `db::handle_async` returns on answers that `P` allows. -/
theorem dbHandleAsync_yields {P : Db.Request → Db.Response → Prop} {dec : Decoder Db.Request}
    {enc : Encoder Db.Response} {req : Request} {sid reqN : Nat} {r : Response}
    (h : (dbHandleAsync dec enc req sid reqN).YieldsIf P r) :
    (∃ e, parse dec req = (none, e) ∧ r = e) ∨
      ∃ q a, parse dec req = (some q, okResponse) ∧ P q a ∧ r = (serialize enc req a okResponse).2 := by
  unfold dbHandleAsync at h
  rcases parse_cases dec req with ⟨q, hp⟩ | ⟨status, msg, hp, -⟩
  · rw [hp] at h
    cases h with
    | query a hP hk =>
      cases hk
      exact Or.inr ⟨q, a, hp, hP, rfl⟩
  · rw [hp] at h
    cases h
    exact Or.inl ⟨_, hp, rfl⟩

/-- **Every `/db` response is the client's own.** In every interleaving of the two pools, whatever the other
connections ask: a response to a `/db` request carries the answer that the database thread which took the message parsed from
this request gives to it as `db_server::run` left it, or the message that it could not be parsed. -/
theorem db_responses (cfg : SrvCfg) (decS : Decoder StatRequest) (encS : Encoder StatResponse)
    (decD : Decoder Db.Request) (encD : Encoder Db.Response) (hcfg : cfg.handlers = handlers decS encS decD encD)
    (dbCfg : Option Db.Cfg) (disk : Db.Disk) (n : Nat) (tbl : List (Db.Map Db.DbDef))
    (hrun : Db.run dbCfg disk n = .ok tbl) (as : List SysAct) (s : Sys)
    (h : exec (sysStep cfg n) (Sys.init tbl n) as = some s) (i : Nat) (c : ConnSt)
    (hc : s.srv.conns[i]? = some c) (j : Nat) (resp : Response) (hresp : .respond j resp ∈ c.co.log) :
    ∃ req, .body j req ∈ c.co.log ∧
      (req.target = "/db" → DbResponse cfg.toConnCfg decD encD (Served cfg n tbl as i) req j resp) := by
  have hI := sysInv_run (Db.run_tableOk hrun) h
  obtain ⟨req, r, hbody, hyield, hresp⟩ := (hI.conns i c hc).respond j resp hresp
  refine ⟨req, hbody, fun htarget => ?_⟩
  have hcall : callHandler cfg.toConnCfg c.sid j req = dbHandleAsync decD encD req c.sid j := by
    simp [callHandler, hcfg, handlers, htarget, db]
  rw [dispatched_iff (yieldsIf_ret _), hcall] at hyield
  unfold DbResponse
  rcases dbHandleAsync_yields hyield with ⟨e, hp, rfl⟩ | ⟨q, a, hp, hserved, rfl⟩
  · rw [hp]
    exact hresp
  · rw [hp]
    exact ⟨a, hserved, hresp⟩

end

/-- A client that names one query, in a format of its own. -/
def findDecoder : Decoder Db.Request where
  json _ := .ok (Db.find [])
  binary _ := none

def findEncoder : Encoder Db.Response where
  json a := (ascii a.msg, none)
  binary _ := ([], false)

/-- A server for it. -/
def findServer : SrvCfg where
  headerServer := "acppsrv/1"
  keepaliveRequests := some 1000
  keepalive_pos k hk := by cases hk; decide
  maxConnections := none
  useWorkers := 1
  handlers := handlers ⟨fun _ => .ok ⟨false⟩, fun _ => none⟩ ⟨fun _ => ([], none), fun _ => ([], false)⟩
    findDecoder findEncoder

/-- Two clients ask, and the thread that took the second request is done first. -/
def overtaken : List SysAct :=
  let accept : List SysAct :=
    ([.lock, .check, .unlock, .accept true, .endpoint true, .count, .logEndpoint true, .spawn] : List SrvAct).map .srv
  let ask (i : Nat) : List SysAct :=
    ([.run, .header (.ok (⟨.post, "/db", true, none, some "application/json", none, []⟩, true)), .run, .run] :
      List Act).map fun a => .srv (.conn i a)
  let sq : Db.Sqlite := { steps := [{ rc := 101 }] }
  accept ++ accept ++ ask 0 ++ ask 1 ++ [.take 0 sq, .take 1 sq, .call 1, .call 1, .call 1, .call 1, .reply 1]

/-- The second client has its response while the call of the first is still with a thread. -/
theorem overtaken_run : ∃ tbl s c, Db.run (some Db.twoDatabases) Db.readable 2 = .ok tbl ∧
    exec (sysStep findServer 2) (Sys.init tbl 2) (overtaken ++ [.resume 0, .srv (.conn 1 .run)]) = some s ∧
    s.srv.conns[1]? = some c ∧ s.calls.tokens = [(0, Db.find [])] ∧
    .respond 1 ⟨.ok, none, some "acppsrv/1", some 2, true, ascii "ok"⟩ ∈ c.co.log := by
  have hrun : ((Db.run (some Db.twoDatabases) Db.readable 2).toOption.bind fun tbl =>
      (exec (sysStep findServer 2) (Sys.init tbl 2) (overtaken ++ [.resume 0, .srv (.conn 1 .run)])).map fun s =>
        (s.calls.tokens, s.srv.conns[1]?.bind fun c => c.co.log.getLast?)) =
      some ([(0, Db.find [])], some (.respond 1 ⟨.ok, none, some "acppsrv/1", some 2, true, ascii "ok"⟩)) := by decide
  cases htbl : Db.run (some Db.twoDatabases) Db.readable 2 with
  | error e => rw [htbl] at hrun; cases hrun
  | ok tbl =>
    rw [htbl] at hrun
    obtain ⟨s, hs, heq⟩ := Option.map_eq_some_iff.1 hrun
    obtain ⟨htokens, hlast⟩ := Prod.mk.inj heq
    obtain ⟨c, hc, hlog⟩ := Option.bind_eq_some_iff.1 hlast
    exact ⟨tbl, s, c, rfl, hs, hc, htokens, List.mem_of_getLast? hlog⟩

theorem queries_answered_overtaken : ∃ tbl s, Db.run (some Db.twoDatabases) Db.readable 2 = .ok tbl ∧
    exec (sysStep findServer 2) (Sys.init tbl 2) (overtaken ++ [.resume 0, .srv (.conn 1 .run)]) = some s ∧
    s.calls.tokens = [(0, Db.find [])] ∧ (s.calls.tokens.map Prod.fst).Nodup ∧ waiting s.srv 0 = some (Db.find []) := by
  obtain ⟨tbl, s, c, htbl, hs, hc, htokens, hmem⟩ := overtaken_run
  obtain ⟨hnodup, hwait, -, -⟩ := queries_answered findServer (some Db.twoDatabases) Db.readable 2 tbl htbl _ s hs
  exact ⟨tbl, s, htbl, hs, htokens, hnodup, (hwait 0 _).1 (by simp [htokens])⟩

theorem db_responses_overtaken : ∃ tbl s c resp, Db.run (some Db.twoDatabases) Db.readable 2 = .ok tbl ∧
    exec (sysStep findServer 2) (Sys.init tbl 2) (overtaken ++ [.resume 0, .srv (.conn 1 .run)]) = some s ∧
    s.srv.conns[1]? = some c ∧ .respond 1 resp ∈ c.co.log ∧ resp.body = ascii "ok" ∧
    ∃ req, .body 1 req ∈ c.co.log ∧
      (req.target = "/db" → DbResponse findServer.toConnCfg findDecoder findEncoder
        (Served findServer 2 tbl (overtaken ++ [.resume 0, .srv (.conn 1 .run)]) 1) req 1 resp) := by
  obtain ⟨tbl, s, c, htbl, hs, hc, htokens, hmem⟩ := overtaken_run
  refine ⟨tbl, s, c, _, htbl, hs, hc, hmem, rfl, ?_⟩
  exact db_responses findServer _ _ findDecoder findEncoder rfl _ _ 2 tbl htbl _ s hs 1 c hc 1 _ hmem

end Acppsrv.Http
