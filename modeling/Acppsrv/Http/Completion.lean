import Acppsrv.Http.Queries
/-!
# A suspended coroutine can go on

The database threads alone can bring any reachable state of the two pools to one where the coroutine of a given
connection has its answer: they make the calls they owe and post their answers (`poolRun_reply`), and a thread
that is not stuck works off the queue in front of the call (`poolRun_queue`).
-/
namespace Acppsrv.Http
open Lib

section
variable {cfg : SrvCfg} {dbCfg : Option Db.Cfg} {tbl : List (Db.Map Db.DbDef)} {n : Nat} {s s' : Sys}

/-- A step of the database pool, with the outcomes that `sqlite` gives to the request it takes, or a resumption. -/
def Pooled (sqlite : Db.Request → Db.Sqlite) (s : Sys) : SysAct → Prop
  | .srv _ => False
  | .take _ sq => ∃ x, s.calls.queue.head? = some x ∧ sq = sqlite x.2
  | .call _ | .reply _ | .resume _ => True

/-- The threads of the pool, on their own, can come from `s` to `s'`. -/
def PoolRun (cfg : SrvCfg) (n : Nat) (sqlite : Db.Request → Db.Sqlite) (s s' : Sys) : Prop :=
  ∃ as, Along (sysStep cfg n) (Pooled sqlite) s as ∧ exec (sysStep cfg n) s as = some s'

/-- The invariant, with nothing said of the answers. -/
abbrev SysOk (cfg : ConnCfg) (tbl : List (Db.Map Db.DbDef)) (n : Nat) (s : Sys) : Prop :=
  SysInv cfg tbl n (fun _ _ _ => True) s

section
variable {sqlite : Db.Request → Db.Sqlite} {s'' : Sys}

theorem PoolRun.refl : PoolRun cfg n sqlite s s := ⟨[], trivial, rfl⟩

theorem PoolRun.trans (h : PoolRun cfg n sqlite s s') (h' : PoolRun cfg n sqlite s' s'') :
    PoolRun cfg n sqlite s s'' := by
  obtain ⟨as, has, hrun⟩ := h
  obtain ⟨bs, hbs, hrun'⟩ := h'
  exact ⟨as ++ bs, has.append hrun hbs, by rw [exec_append, hrun, Option.bind_some, hrun']⟩

theorem PoolRun.step {a : SysAct} (h : sysStep cfg n s a = some s') (ha : Pooled sqlite s a) :
    PoolRun cfg n sqlite s s' := by
  refine ⟨[a], ⟨ha, ?_⟩, by simp [exec, h]⟩
  simp only [h, Option.elim]
  trivial

theorem PoolRun.inv (hT : Db.TableOk dbCfg n tbl) (hI : SysOk cfg.toConnCfg tbl n s)
    (h : PoolRun cfg n sqlite s s') : SysOk cfg.toConnCfg tbl n s' := by
  obtain ⟨as, -, hrun⟩ := h
  refine exec_invariant (fun _ => True) (SysOk cfg.toConnCfg tbl n) ?_ (by simp) hI hrun
  intro s a s' _ hs hstep
  exact sysInv_step hT hs hstep fun _ _ _ _ _ _ _ _ => trivial

/-- A thread that has an answer makes the rest of its calls and posts it. -/
theorem poolRun_reply {t : Nat} {x : Nat × Db.Request} {a : Db.Response} {us : List Db.Used} :
    ∀ {s : Sys}, s.pool.todo t = us → s.calls.servers[t]? = some (some (x, some a)) →
      ∃ s', PoolRun cfg n sqlite s s' ∧ s'.srv = s.srv ∧ s'.pool.busy = s.pool.busy ∧
        s'.calls = { s.calls with servers := s.calls.servers.set t none, replies := s.calls.replies ++ [(x, a)] } := by
  induction us with
  | nil =>
    intro s htodo hserver
    have hreply : sysStep cfg n s (.reply t) = some { s with calls := { s.calls with
        servers := s.calls.servers.set t none, replies := s.calls.replies ++ [(x, a)] } } := by
      simp only [sysStep, htodo, ↓reduceIte, Calls.reply, hserver, Option.map_some]
    exact ⟨_, .step hreply trivial, rfl, rfl, rfl⟩
  | cons u us ih =>
    intro s htodo hserver
    have hcall : sysStep cfg n s (.call t) = some { s with pool := { s.pool with
        todo := Function.update s.pool.todo t us, log := s.pool.log ++ [(t, u.conn)] } } := by
      simp only [sysStep, Db.poolStep, htodo, Option.map_some]
    obtain ⟨s', hrun, hsrv, hbusy, hcalls⟩ := ih
      (s := { s with pool := { s.pool with
        todo := Function.update s.pool.todo t us, log := s.pool.log ++ [(t, u.conn)] } })
      (Function.update_self ..) hserver
    exact ⟨s', (PoolRun.step hcall trivial).trans hrun, hsrv, hbusy, hcalls⟩

/-- A thread that is not stuck becomes free. -/
theorem poolRun_free (hI : SysOk cfg.toConnCfg tbl n s) {t : Nat} (ht : t < n) (hfree : s.pool.busy t = false) :
    ∃ s', PoolRun cfg n sqlite s s' ∧ s'.srv = s.srv ∧ s'.pool.busy t = false ∧
      s'.calls.queue = s.calls.queue ∧ s'.calls.servers[t]? = some none := by
  have hlt : t < s.calls.servers.length := by rw [hI.servers]; exact ht
  cases hserver : s.calls.servers[t] with
  | none => exact ⟨s, .refl, rfl, hfree, rfl, by rw [List.getElem?_eq_getElem hlt, hserver]⟩
  | some y =>
    obtain ⟨y, r⟩ := y
    have hat : s.calls.servers[t]? = some (some (y, r)) := by rw [List.getElem?_eq_getElem hlt, hserver]
    have hr := hI.serving t y r hat
    rw [hfree] at hr
    cases r with
    | none => cases hr
    | some b =>
      obtain ⟨s', hrun, hsrv, hbusy, hcalls⟩ := poolRun_reply rfl hat
      refine ⟨s', hrun, hsrv, by rw [hbusy, hfree], by rw [hcalls], ?_⟩
      rw [hcalls, List.getElem?_set_self hlt]

/-- A free thread takes the first call, and its answer will be there. -/
theorem sysStep_take (hT : Db.TableOk dbCfg n tbl) (hI : SysOk cfg.toConnCfg tbl n s) {t : Nat} (ht : t < n)
    (hidle : s.calls.servers[t]? = some none) {x : Nat × Db.Request} {queue : List (Nat × Db.Request)}
    (hq : s.calls.queue = x :: queue) {a : Db.Response}
    (ha : (Db.runQuery tbl t x.2 (sqlite x.2)).bind (·.result) = some a) :
    ∃ s', sysStep cfg n s (.take t (sqlite x.2)) = some s' ∧ s'.srv = s.srv ∧ s'.pool.busy t = false ∧
      s'.calls.queue = queue ∧ s'.calls.servers[t]? = some (some (x, some a)) := by
  obtain ⟨i, q⟩ := x
  obtain ⟨r, hr⟩ := hI.entry_isSome hT ht q (sqlite q)
  have hres : r.result = some a := by
    have hanswer : (Db.runQuery s.pool.databases t q (sqlite q)).bind (·.result) = some a := hI.answer.trans ha
    rw [hr] at hanswer
    exact hanswer
  have hguard : t ∈ Db.threadPoolRun n ∧ s.pool.todo t = [] ∧ s.pool.busy t = false :=
    ⟨List.mem_range.2 ht, hI.idle t hidle⟩
  have hlt := (List.getElem?_eq_some_iff.1 hidle).1
  simp only [sysStep, Calls.take, hidle, hq, Db.poolStep, hguard, and_self, ↓reduceIte, hr, Option.map_some,
    Option.isNone_some, Bool.false_eq_true, Option.bind_some, hres]
  refine ⟨_, rfl, rfl, ?_, rfl, ?_⟩
  · simp
  · rw [List.getElem?_set_self hlt]

/-- A queued call is answered, after those before it. -/
theorem poolRun_queue (hT : Db.TableOk dbCfg n tbl) {t : Nat} (ht : t < n)
    (hret : ∀ q, ((Db.runQuery tbl t q (sqlite q)).bind (·.result)).isSome = true) {x : Nat × Db.Request}
    {post : List (Nat × Db.Request)} : ∀ (pre : List (Nat × Db.Request)) {s : Sys}, SysOk cfg.toConnCfg tbl n s →
      s.pool.busy t = false → s.calls.queue = pre ++ x :: post →
      ∃ s' a, PoolRun cfg n sqlite s s' ∧ s'.srv = s.srv ∧ (x, a) ∈ s'.calls.replies := by
  intro pre
  induction pre with
  | nil =>
    intro s hI hfree hqueue
    obtain ⟨s₁, hrun₁, hsrv₁, hfree₁, hqueue₁, hidle⟩ := poolRun_free hI ht hfree
    obtain ⟨a, ha⟩ := Option.isSome_iff_exists.1 (hret x.2)
    obtain ⟨s₂, htake, hsrv₂, -, -, hserver⟩ := sysStep_take hT (hrun₁.inv hT hI) ht hidle (hqueue₁.trans hqueue) ha
    obtain ⟨s₃, hrun₃, hsrv₃, -, hcalls⟩ := poolRun_reply rfl hserver
    have hhead : s₁.calls.queue.head? = some x := by rw [hqueue₁, hqueue]; rfl
    refine ⟨s₃, a, (hrun₁.trans (.step htake ⟨x, hhead, rfl⟩)).trans hrun₃, by rw [hsrv₃, hsrv₂, hsrv₁], ?_⟩
    rw [hcalls]
    exact List.mem_append_right _ List.mem_cons_self
  | cons y pre ih =>
    intro s hI hfree hqueue
    obtain ⟨s₁, hrun₁, hsrv₁, hfree₁, hqueue₁, hidle⟩ := poolRun_free hI ht hfree
    obtain ⟨b, hb⟩ := Option.isSome_iff_exists.1 (hret y.2)
    obtain ⟨s₂, htake, hsrv₂, hfree₂, hqueue₂, -⟩ :=
      sysStep_take hT (hrun₁.inv hT hI) ht hidle (hqueue₁.trans hqueue) hb
    have hhead : s₁.calls.queue.head? = some y := by rw [hqueue₁, hqueue]; rfl
    have hrun₂ := hrun₁.trans (.step htake ⟨y, hhead, rfl⟩)
    obtain ⟨s', a, hrun, hsrv, hmem⟩ := ih (hrun₂.inv hT hI) hfree₂ hqueue₂
    exact ⟨s', a, hrun₂.trans hrun, by rw [hsrv, hsrv₂, hsrv₁], hmem⟩

end

/-- A thread returns from a request whose executions yield finitely many rows each. -/
theorem runQuery_returns (hT : Db.TableOk dbCfg n tbl) {t : Nat} (ht : t < n) (sqlite : Db.Request → Db.Sqlite)
    {o : Db.Request → Nat → Db.StepRes} (ho : ∀ q j, ∃ m, j ≤ m ∧ (o q m).rc % 256 ≠ Db.sqliteRow) :
    ∃ N : Db.Request → Nat, ∀ q,
      ((Db.runQuery tbl t q { sqlite q with steps := Retry.upTo (o q) (N q) }).bind (·.result)).isSome = true := by
  have hlt : t < tbl.length := by rw [hT.size]; exact ht
  choose N r hN using fun q => Db.runQueryOn_returns tbl[t] q (sqlite q) (ho q)
  refine ⟨N, fun q => ?_⟩
  simp [Db.runQuery, hlt, hN q (N q) (Nat.le_refl _)]

/-- **Every query can complete.** Whatever state the pools are in and whatever SQLite returns, as long as its
executions yield finitely many rows: if a thread of the database pool is not stuck in a request, and the request
of the suspended coroutine `i` is not one that a thread is stuck in, then the database threads alone can answer
it and resume the coroutine, with no other connection moved. -/
theorem query_completes (cfg : SrvCfg) (dbCfg : Option Db.Cfg) (disk : Db.Disk) (n : Nat)
    (tbl : List (Db.Map Db.DbDef)) (hrun : Db.run dbCfg disk n = .ok tbl) (as : List SysAct) (s : Sys)
    (h : exec (sysStep cfg n) (Sys.init tbl n) as = some s) (t : Nat) (ht : t < n) (hfree : s.pool.busy t = false)
    (sqlite : Db.Request → Db.Sqlite) (o : Db.Request → Nat → Db.StepRes)
    (ho : ∀ q j, ∃ m, j ≤ m ∧ (o q m).rc % 256 ≠ Db.sqliteRow) (i : Nat) (c : ConnSt)
    (hc : s.srv.conns[i]? = some c) (req : Request) (q : Db.Request) (k : Db.Response → Handling)
    (hpc : c.co.pc = .handling req (.query q k))
    (hstuck : ∀ t' : Nat, s.calls.servers[t']? ≠ some (some ((i, q), none))) :
    ∃ (N : Db.Request → Nat) (bs : List SysAct) (s' : Sys) (a : Db.Response),
      Along (sysStep cfg n) (Pooled fun q => { sqlite q with steps := Retry.upTo (o q) (N q) }) s bs ∧
      exec (sysStep cfg n) s bs = some s' ∧ Served cfg n tbl (as ++ bs) i q a ∧
      s'.srv.conns = s.srv.conns.set i { c with co := { c.co with pc := .handling req (k a) } } := by
  have hT := Db.run_tableOk hrun
  have hI : SysOk cfg.toConnCfg tbl n s := (sysInv_run hT h).mono fun _ _ _ _ => trivial
  have hwait : waiting s.srv i = some q := by simp [waiting, hc, queryOf, hpc]
  obtain ⟨N, hret⟩ := runQuery_returns hT ht sqlite ho
  -- the answer gets on its way
  have hanswer : ∃ s₁ a, PoolRun cfg n (fun q => { sqlite q with steps := Retry.upTo (o q) (N q) }) s s₁ ∧
      s₁.srv = s.srv ∧ ((i, q), a) ∈ s₁.calls.replies := by
    rcases hI.calls.place hwait with hm | ⟨t', r, hr⟩ | ⟨j, a, ha⟩
    · obtain ⟨pre, post, hqueue⟩ := List.append_of_mem hm
      exact poolRun_queue hT ht hret pre hI hfree hqueue
    · cases r with
      | none => exact absurd hr (hstuck t')
      | some a =>
        obtain ⟨s₁, hrun₁, hsrv, -, hcalls⟩ := poolRun_reply rfl hr
        exact ⟨s₁, a, hrun₁, hsrv, by rw [hcalls]; exact List.mem_append_right _ List.mem_cons_self⟩
    · exact ⟨s, a, .refl, rfl, List.mem_of_getElem? ha⟩
  obtain ⟨s₁, a, ⟨bs, hbs, hrun₁⟩, hsrv, hmem⟩ := hanswer
  have hserved : Served cfg n tbl (as ++ bs) i q a := by
    have hwhole : exec (sysStep cfg n) (Sys.init tbl n) (as ++ bs) = some s₁ := by
      rw [exec_append, h, Option.bind_some, hrun₁]
    exact (sysInv_run hT hwhole).calls.replied _ hmem
  obtain ⟨j, hj⟩ := List.mem_iff_getElem?.1 hmem
  have hmove : srvStep cfg s.srv (.conn i (.answer a)) = some { s.srv with
      conns := s.srv.conns.set i { c with co := { c.co with pc := .handling req (k a) } } } := by
    simp only [srvStep, hc, connStep, hpc, Option.map_some]
  obtain ⟨s', hstep, hconns⟩ : ∃ s', sysStep cfg n s₁ (.resume j) = some s' ∧
      s'.srv.conns = s.srv.conns.set i { c with co := { c.co with pc := .handling req (k a) } } := by
    simp only [sysStep, Calls.deliver, hj, hsrv, hmove, Option.map_some]
    exact ⟨_, rfl, rfl⟩
  refine ⟨N, bs ++ [.resume j], s', a, ?_, ?_, ?_, hconns⟩
  · refine hbs.append hrun₁ ⟨trivial, ?_⟩
    simp only [hstep, Option.elim]
    trivial
  · rw [exec_append, hrun₁, Option.bind_some]
    simp [exec, hstep]
  · rw [← List.append_assoc]
    exact hserved.append _

end

/-- The first client can go on, with the answer of its thread. -/
theorem query_completes_overtaken : ∃ tbl s c req, ∃ k : Db.Response → Handling, Db.run (some Db.twoDatabases) Db.readable 2 = .ok tbl ∧
    exec (sysStep findServer 2) (Sys.init tbl 2) overtaken = some s ∧ s.srv.conns[0]? = some c ∧
    ∃ (N : Db.Request → Nat) (bs : List SysAct) (s' : Sys) (a : Db.Response),
      Along (sysStep findServer 2) (Pooled fun q => { steps := Retry.upTo (fun _ => { rc := 101 }) (N q) }) s bs ∧
      exec (sysStep findServer 2) s bs = some s' ∧
      Served findServer 2 tbl (overtaken ++ bs) 0 (Db.find []) a ∧
      s'.srv.conns = s.srv.conns.set 0 { c with co := { c.co with pc := .handling req (k a) } } := by
  have hrun : ((Db.run (some Db.twoDatabases) Db.readable 2).toOption.bind fun tbl =>
      (exec (sysStep findServer 2) (Sys.init tbl 2) overtaken).map fun s =>
        (waiting s.srv 0, s.pool.busy 1, s.calls.servers.map fun r => r.map fun x => x.2.isSome)) =
      some (some (Db.find []), false, [some true, none]) := by decide
  cases htbl : Db.run (some Db.twoDatabases) Db.readable 2 with
  | error e => rw [htbl] at hrun; cases hrun
  | ok tbl =>
    rw [htbl] at hrun
    obtain ⟨s, hs, heq⟩ := Option.map_eq_some_iff.1 hrun
    simp only [Prod.mk.injEq] at heq
    obtain ⟨hwait, hbusy, hservers⟩ := heq
    obtain ⟨c, hc, hq⟩ := Option.bind_eq_some_iff.1 hwait
    obtain ⟨req, k, hpc⟩ := queryOf_eq_some hq
    have hstuck (t : Nat) : s.calls.servers[t]? ≠ some (some ((0, Db.find []), none)) := by
      intro ht
      have hmem := List.mem_map_of_mem (f := fun r => r.map fun x => x.2.isSome) (List.mem_of_getElem? ht)
      rw [hservers] at hmem
      simp at hmem
    exact ⟨tbl, s, c, req, k, rfl, hs, hc, query_completes findServer _ _ 2 tbl htbl overtaken s hs 1 (by decide)
      hbusy (fun _ => { steps := [] }) (fun _ _ => { rc := 101 }) (fun _ j => ⟨j, Nat.le_refl j, by decide⟩)
      0 c hc req _ k hpc hstuck⟩

end Acppsrv.Http
