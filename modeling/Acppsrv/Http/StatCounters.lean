import Acppsrv.Http.Server
/-!
# The statistics counters (http_hnd_stat.cpp:14-26, http_server.cpp:197-267)

Every connection adds to the four atomic counters from its own thread, and a `/stat` request with
`reset` takes them out one by one with `exchange(0)`. Both leave a trace in the log of the connection
they are made by, so what a counter has to account for is a sum over the logs: nothing added is lost
and nothing is reported twice (`stat_conserved`). The counters are 64 bits wide and wrap, so this is
modulo `2^64`.
-/
namespace Acppsrv.Http
open Lib

/-- What an event adds to a counter: a connection started, a header read, the bytes of a body fully
read, the bytes of a response body after the HEAD clearing. -/
def Ev.adds : Counter → Ev → Nat
  | .connections, .started => 1
  | .requests, .header _ _ => 1
  | .dataReq, .body _ req => req.body.length
  | .dataResp, .respond _ resp => resp.body.length
  | _, _ => 0

/-- What a reset took out of a counter. -/
def Ev.takes (c : Counter) : Ev → Nat
  | .took c' v => if c' = c then v.toNat else 0
  | _ => 0

/-- The sum of `f` over the log of a connection. -/
def overLog (f : Ev → Nat) (c : ConnSt) : Nat := total f c.co.log

/-! ## The counters -/

@[simp] theorem Stat.get_put (s : Stat) (c d : Counter) (v : UInt64) :
    (s.put c v).get d = if c = d then v else s.get d := by
  cases c <;> cases d <;> rfl

theorem Stat.toNat_add (s : Stat) (c d : Counter) (n : Nat) :
    ((s.add c n).get d).toNat % 2 ^ 64 = ((s.get d).toNat + if c = d then n else 0) % 2 ^ 64 := by
  unfold Stat.add
  by_cases h : c = d
  · subst h; simp [UInt64.toNat_add]
  · simp [h]

/-- One step of a connection: what it adds to a counter it adds to its log, what it takes out it
takes into its log. -/
theorem stat_move {cfg : ConnCfg} {sid : Nat} {st st' : Stat} {c c' : Conn} {a : Act}
    (hm : Move cfg sid st c a st' c') (ctr : Counter) :
    (total (Ev.takes ctr) c'.log + (st'.get ctr).toNat + total (Ev.adds ctr) c.log) % 2 ^ 64 =
      (total (Ev.takes ctr) c.log + (st.get ctr).toNat + total (Ev.adds ctr) c'.log) % 2 ^ 64 := by
  cases hm with
  | start h =>
    have := st.toNat_add .connections ctr 1
    cases ctr <;> simp_all [total_append, Ev.takes, Ev.adds]; omega
  | header h =>
    have := st.toNat_add .requests ctr 1
    cases ctr <;> simp_all [total_append, Ev.takes, Ev.adds]; omega
  | @body req h =>
    have := st.toNat_add .dataReq ctr req.body.length
    cases ctr <;> simp_all [total_append, Ev.takes, Ev.adds]; omega
  | @respond req r h =>
    have := st.toNat_add .dataResp ctr (finishResponse cfg req c.reqN r).body.length
    cases ctr <;> simp_all [total_append, Ev.takes, Ev.adds]; omega
  | @exchange req ctr' k h =>
    by_cases he : ctr' = ctr
    · subst he
      cases ctr' <;> simp [total_append, Ev.takes, Ev.adds]
    · cases ctr <;> simp [total_append, Ev.takes, Ev.adds, he]
  | continue100 h | throw h | again h _ | close h _ =>
    cases ctr <;> simp [total_append, Ev.takes, Ev.adds]
  | load h | answer h | wrote413 h => rfl
  | @toBody req done h | @wrote100 req done h => cases done <;> rfl
  | @chunk req bytes done h => cases done <;> cases ctr <;> simp [bodyLoop, total_append, Ev.takes, Ev.adds]
  | abort op h hop ha he =>
    unfold abortConnection
    split <;> cases ctr <;> simp [total_append, Ev.takes, Ev.adds]

/-- What a counter has to account for. -/
def StatInv (s : Srv) : Prop := ∀ ctr,
  (total (overLog (Ev.takes ctr)) s.conns + (s.stat.get ctr).toNat) % 2 ^ 64 =
    total (overLog (Ev.adds ctr)) s.conns % 2 ^ 64

theorem overLog_set_fin {f : Ev → Nat} {l : List ConnSt} {i : Nat} {c : ConnSt} (hc : l[i]? = some c) (fin : Fin) :
    total (overLog f) (l.set i { c with fin := fin }) = total (overLog f) l := by
  have heq : overLog f { c with fin := fin } = overLog f c := rfl
  exact total_set_eq (overLog f) hc heq

theorem statInv_move {cfg : SrvCfg} {s s' : Srv} {a : SrvAct} (hI : StatInv s) (hm : SrvMove cfg s a s') :
    StatInv s' := by
  intro ctr
  have h := hI ctr
  cases hm with
  | lock | checkFull | checkFree | register | park | release | resume | accept | acceptFailed | endpoint
  | endpointFailed | count | logEndpoint | die => exact h
  | spawn _ => simpa [toTop, total_snoc, overLog] using h
  | @conn i ca c st co hc hm =>
    have hmove := stat_move hm ctr
    have ht := total_set (overLog (Ev.takes ctr)) { c with co := co } hc
    have ha := total_set (overLog (Ev.adds ctr)) { c with co := co } hc
    simp only [overLog] at ht ha h ⊢
    omega
  | endLock hc _ _ _ | endDec hc _ | endWake hc _ _ | endQuiet hc _ _ | endUnlock hc _ =>
    -- the end of a connection writes nothing into its log
    simp only [overLog_set_fin hc]
    exact h

/-- **Conservation.** For every interleaving of any number of connections, `/stat` requests among
them, each counter together with all that resets took out of it is what the connections added. -/
theorem stat_conserved (cfg : SrvCfg) (as : List SrvAct) (s : Srv) (h : exec (srvStep cfg) {} as = some s)
    (ctr : Counter) :
    (total (overLog (Ev.takes ctr)) s.conns + (s.stat.get ctr).toNat) % 2 ^ 64 =
      total (overLog (Ev.adds ctr)) s.conns % 2 ^ 64 :=
  exec_invariant (fun _ => True) StatInv (fun _ _ _ _ hs hstep => statInv_move hs (srvStep_move hstep))
    (by simp) (by intro ctr; cases ctr <;> rfl) h ctr

/-- Field `n` of a message, a varint of at most seven bits; a zero is not sent. -/
def smallField (n : Nat) (v : UInt64) : Bytes :=
  if v = 0 then [] else [UInt8.ofNat (n <<< 3), UInt8.ofNat v.toNat]

/-- A server with `/stat` for clients that talk protobuf, of the two requests of http_hnd_stat.proto
and of responses with small counters. -/
def statServer : SrvCfg where
  headerServer := "acppsrv/1"
  keepaliveRequests := none
  keepalive_pos := by simp
  maxConnections := none
  useWorkers := 1
  handlers t := if t == "/stat" then
      some (stat
        { json := fun _ => .error (3, [])
          binary := fun b => if b = [] then some ⟨false⟩ else if b = [8, 1] then some ⟨true⟩ else none }
        { json := fun _ => ([], some (13, []))
          binary := fun r => (smallField 1 r.connections ++ smallField 2 r.requests ++
            smallField 3 r.dataReq ++ smallField 4 r.dataResp, true) })
    else none

/-- A `/stat` request that asks for a reset. -/
def resetRequest : Request :=
  ⟨.post, "/stat", true, none, some "application/protobuf", none, [8, 1]⟩

/-- Two connections: the second starts and reads a header while the first is in the middle of a
reset, between the counters `requests` and `data_req`. -/
def resetOverlapped : List SrvAct :=
  let accept : List SrvAct :=
    [.lock, .check, .unlock, .accept true, .endpoint true, .count, .logEndpoint true, .spawn]
  let first : List Act := [.run, .header (.ok (resetRequest, true)), .run, .run, .run, .run]
  let second : List Act := [.run, .header (.ok (resetRequest, true))]
  accept ++ accept ++ first.map (.conn 0) ++ second.map (.conn 1) ++
    [.run, .run, .run, .wrote none].map (.conn 0)

theorem stat_conserved_resetOverlapped : ∃ s, exec (srvStep statServer) {} resetOverlapped = some s ∧
    s.stat = ⟨1, 1, 0, 6⟩ ∧
    (total (overLog (Ev.takes .requests)) s.conns + 1) % 2 ^ 64 =
      total (overLog (Ev.adds .requests)) s.conns % 2 ^ 64 := by
  have hrun : ((exec (srvStep statServer) {} resetOverlapped).map (·.stat)) = some ⟨1, 1, 0, 6⟩ := by decide
  obtain ⟨s, hs, hst⟩ := Option.map_eq_some_iff.1 hrun
  have hcons := stat_conserved statServer resetOverlapped s hs .requests
  rw [hst] at hcons
  exact ⟨s, hs, hst, hcons⟩

end Acppsrv.Http
