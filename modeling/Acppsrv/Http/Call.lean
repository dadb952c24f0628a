import Acppsrv.Http.Connection
import Acppsrv.Http.Negotiation
/-!
# A handler call from its start to its end

`Handling.eval` is a call that nobody interferes with: the counters are those of a `Stat` and every
query is answered by `ans`. `exec_eval` says that it is what the coroutine of `handle_connection`
does when no other connection steps in between. `statHandleSync_eval` and `dbHandleAsync_eval` are
all that the next modules need of the two handlers.
-/
namespace Acppsrv.Http
open Lib

/-- The counters after the call and the response; none when an exception leaves the handler. -/
def Handling.eval (ans : Db.Request → Db.Response) : Handling → Stat → Stat × Option Response
  | .ret r, st => (st, some r)
  | .throw, st => (st, none)
  | .exchange c k, st => (k (st.get c)).eval ans (st.put c 0)
  | .load c k, st => (k (st.get c)).eval ans st
  | .query q k, st => (k (ans q)).eval ans st

/-- A connection that has the server for itself. -/
def aloneStep (cfg : ConnCfg) (sid : Nat) (s : Stat × Conn) (a : Act) : Option (Stat × Conn) :=
  connStep cfg sid s.1 s.2 a

/-- **A call is what the coroutine does with it.** -/
theorem exec_eval {cfg : ConnCfg} {sid : Nat} {ans : Db.Request → Db.Response} {req : Request} {r : Response} :
    ∀ {h : Handling} {st st' : Stat} {c : Conn}, h.eval ans st = (st', some r) →
      ∃ as log, exec (aloneStep cfg sid) (st, { c with pc := .handling req h }) as =
        some (st', { c with pc := .handling req (.ret r), log := c.log ++ log }) := by
  intro h
  induction h with
  | ret r' =>
    intro st st' c he
    cases he
    exact ⟨[], [], by simp [exec]⟩
  | throw => intro st st' c he; cases he
  | exchange ctr k ih =>
    intro st st' c he
    obtain ⟨as, log, hrun⟩ := ih (st.get ctr) (c := { c with log := c.log ++ [.took ctr (st.get ctr)] }) he
    refine ⟨.run :: as, .took ctr (st.get ctr) :: log, ?_⟩
    simpa [exec, aloneStep, connStep] using hrun
  | load ctr k ih =>
    intro st st' c he
    obtain ⟨as, log, hrun⟩ := ih (st.get ctr) (c := c) he
    exact ⟨.run :: as, log, hrun⟩
  | query q k ih =>
    intro st st' c he
    obtain ⟨as, log, hrun⟩ := ih (ans q) (c := c) he
    exact ⟨.answer (ans q) :: as, log, hrun⟩

/-! ## The handlers -/

theorem decodeAs_cases {M : Type} (f : Format) (dec : Decoder M) (body : Bytes) :
    (∃ inp, decodeAs f dec body = (some inp, okResponse)) ∨
      ∃ msg, decodeAs f dec body = (none, errorResponse .badRequest msg) := by
  unfold decodeAs
  cases f with
  | json =>
    cases dec.json body with
    | error err => exact Or.inr ⟨_, rfl⟩
    | ok inp => exact Or.inl ⟨inp, rfl⟩
  | protobuf =>
    cases dec.binary body with
    | none => exact Or.inr ⟨_, rfl⟩
    | some inp => exact Or.inl ⟨inp, rfl⟩

/-- `parse` gives a message with a fresh 200 response, or no message with an error response. -/
theorem parse_cases {M : Type} (dec : Decoder M) (request : Request) :
    (∃ inp, parse dec request = (some inp, okResponse)) ∨
      ∃ status msg, parse dec request = (none, errorResponse status msg) ∧ 400 ≤ status.code := by
  rw [parse_eq]
  cases formatOf request true with
  | none => exact Or.inr ⟨_, _, rfl, by decide⟩
  | some f =>
    rcases decodeAs_cases f dec request.body with ⟨inp, h⟩ | ⟨msg, h⟩
    · exact Or.inl ⟨inp, h⟩
    · exact Or.inr ⟨_, msg, h, by decide⟩

/-- The counters as `out` takes them over (http_hnd_stat.cpp:16-19, :22-25). -/
def Stat.values (st : Stat) : StatResponse := ⟨st.connections, st.requests, st.dataReq, st.dataResp⟩

/-- `stat::handle_sync` answers with the counters it finds, and leaves zeros if asked to. -/
theorem statHandleSync_eval {dec : Decoder StatRequest} {request : Request} {inp : StatRequest}
    (hp : parse dec request = (some inp, okResponse)) (enc : Encoder StatResponse) (sid reqN : Nat)
    (ans : Db.Request → Db.Response) (st : Stat) :
    (statHandleSync dec enc request sid reqN).eval ans st =
      (if inp.reset then {} else st, some (serialize enc request st.values okResponse).2) := by
  simp only [statHandleSync, hp]
  split
  · rfl
  · rfl

theorem statHandleSync_error {dec : Decoder StatRequest} {request : Request} {e : Response}
    (hp : parse dec request = (none, e)) (enc : Encoder StatResponse) (sid reqN : Nat)
    (ans : Db.Request → Db.Response) (st : Stat) :
    (statHandleSync dec enc request sid reqN).eval ans st = (st, some e) := by
  simp only [statHandleSync, hp, Handling.eval]

/-- `db::handle_async` answers with what the query gives. -/
theorem dbHandleAsync_eval {dec : Decoder Db.Request} {request : Request} {inp : Db.Request}
    (hp : parse dec request = (some inp, okResponse)) (enc : Encoder Db.Response) (sid reqN : Nat)
    (ans : Db.Request → Db.Response) (st : Stat) :
    (dbHandleAsync dec enc request sid reqN).eval ans st =
      (st, some (serialize enc request (ans inp) okResponse).2) := by
  simp only [dbHandleAsync, hp, Handling.eval]

theorem dbHandleAsync_error {dec : Decoder Db.Request} {request : Request} {e : Response}
    (hp : parse dec request = (none, e)) (enc : Encoder Db.Response) (sid reqN : Nat)
    (ans : Db.Request → Db.Response) (st : Stat) :
    (dbHandleAsync dec enc request sid reqN).eval ans st = (st, some e) := by
  simp only [dbHandleAsync, hp, Handling.eval]

end Acppsrv.Http
