import Acppsrv.Http.StatReset
/-!
# What a response says of its body

A body is one of three things: the request's own bytes (`/echo`), an error text, or a message printed
in a format by `serialize`. `printed` tells which messages are printed for a request, `answer_returns`
what the response is in each case (`Backend.Returns`). Echo and `error_response` set Content-Type; `serialize` gets the
name of the negotiated type from `json_body` and `protobuf_body` (http_server_impl.hpp:66, :83) and
does not use it.
-/
namespace Acppsrv.Http

inductive Encoding where
  /-- the bytes of the request -/
  | own
  /-- an error text -/
  | text
  /-- a message -/
  | message (f : Format)
  deriving DecidableEq, Repr

/-- `ct` is a name for the encoding. -/
def Encoding.Names (request : Request) : Encoding → String → Prop
  | .own, ct => ct = request.contentType.getD "application/octet-stream"
  | .text, ct => ct = "text/plain"
  | .message f, ct => f.names ct = true

/-- A body, if there is one, comes with a Content-Type that names its encoding. -/
def Response.Typed (request : Request) (e : Encoding) (r : Response) : Prop :=
  r.body ≠ [] → ∃ ct, r.contentType = some ct ∧ e.Names request ct

/-- The message a handler prints: in the negotiated format, for a request that parses. -/
def printedBy {M N : Type} (dec : Decoder M) (enc : Encoder N) (reply : M → N) (request : Request) :
    Option (Format × Bytes) :=
  (parse dec request).1.bind fun inp =>
    (formatOf request false).map fun f => (f, (enc.print f (reply inp)).1)

/-- The libraries and the database behind the handlers, and the counters. -/
structure Backend where
  statDecoder : Decoder StatRequest
  statEncoder : Encoder StatResponse
  dbDecoder : Decoder Db.Request
  dbEncoder : Encoder Db.Response
  query : Db.Request → Db.Response
  stat : Stat

/-- The message printed for a request. -/
def Backend.printed (b : Backend) (request : Request) : Option (Format × Bytes) :=
  if request.target == "/db" then printedBy b.dbDecoder b.dbEncoder b.query request
  else if request.target == "/stat" then
    printedBy b.statDecoder b.statEncoder (fun _ => b.stat.values) request
  else none

/-- What the body of the response to a request is. -/
def Backend.encoding (b : Backend) (request : Request) : Encoding :=
  match b.printed request with
  | some (f, _) => .message f
  | none => if request.target == "/echo" then .own else .text

/-- A server with the handlers of the constructor. -/
def Backend.server (b : Backend) (cfg : ConnCfg) : ConnCfg :=
  { cfg with handlers := handlers b.statDecoder b.statEncoder b.dbDecoder b.dbEncoder }

/-- The response to a request, as it is written. -/
def Backend.answer (b : Backend) (cfg : ConnCfg) (sid reqN : Nat) (request : Request) : Option Response :=
  ((callHandler (b.server cfg) sid reqN request).eval b.query b.stat).2.map
    (finishResponse (b.server cfg) request reqN)

/-- What the handler returns: a printed message, the request's own bytes, or an error text. -/
def Backend.Returns (b : Backend) (request : Request) (r : Response) : Prop :=
  match b.printed request with
  | some (_, out) => r = { okResponse with body := out }
  | none => if request.target = "/echo" then r = echoResponse request
    else ∃ status msg, r = errorResponse status msg

/-! ## What the handlers return -/

section
variable {M N : Type} {dec : Decoder M} {request : Request}

/-- A handler that parses and serializes returns a printed message or an error text. -/
def ServiceReturns (p : Option (Format × Bytes)) (r : Response) : Prop :=
  match p with
  | some (_, out) => r = { okResponse with body := out }
  | none => ∃ status msg, r = errorResponse status msg

theorem serviceReturns_serialize {inp : M} (hp : parse dec request = (some inp, okResponse)) (enc : Encoder N)
    (reply : M → N) :
    ServiceReturns (printedBy dec enc reply request) (serialize enc request (reply inp) okResponse).2 := by
  rw [serialize_eq, printedBy, hp]
  cases formatOf request false with
  | none => exact ⟨_, _, rfl⟩
  | some f => rfl

theorem serviceReturns_error {status : Status} {msg : Bytes}
    (hp : parse dec request = (none, errorResponse status msg)) (enc : Encoder N) (reply : M → N) :
    ServiceReturns (printedBy dec enc reply request) (errorResponse status msg) := by
  rw [printedBy, hp]
  exact ⟨status, msg, rfl⟩

end

section
variable (b : Backend) (request : Request) (sid reqN : Nat)

theorem db_returns :
    ∃ r, ((dbHandleAsync b.dbDecoder b.dbEncoder request sid reqN).eval b.query b.stat).2 = some r ∧
      ServiceReturns (printedBy b.dbDecoder b.dbEncoder b.query request) r := by
  rcases parse_cases b.dbDecoder request with ⟨inp, hp⟩ | ⟨status, msg, hp, _⟩
  · rw [dbHandleAsync_eval hp]
    exact ⟨_, rfl, serviceReturns_serialize hp b.dbEncoder b.query⟩
  · rw [dbHandleAsync_error hp]
    exact ⟨_, rfl, serviceReturns_error hp b.dbEncoder b.query⟩

theorem stat_returns :
    ∃ r, ((statHandleSync b.statDecoder b.statEncoder request sid reqN).eval b.query b.stat).2 = some r ∧
      ServiceReturns (printedBy b.statDecoder b.statEncoder (fun _ => b.stat.values) request) r := by
  rcases parse_cases b.statDecoder request with ⟨inp, hp⟩ | ⟨status, msg, hp, _⟩
  · rw [statHandleSync_eval hp]
    exact ⟨_, rfl, serviceReturns_serialize hp b.statEncoder fun _ => b.stat.values⟩
  · rw [statHandleSync_error hp]
    exact ⟨_, rfl, serviceReturns_error hp b.statEncoder fun _ => b.stat.values⟩

variable {b request}

theorem returns_of_service {r : Response} (he : request.target ≠ "/echo") :
    ServiceReturns (b.printed request) r → b.Returns request r := by
  unfold ServiceReturns Backend.Returns
  intro h
  split at h
  · exact h
  · rw [if_neg he]
    exact h

variable (b request)

/-- Every request is answered, by the handler of its path or by an error. -/
theorem answer_returns (cfg : ConnCfg) :
    ∃ r, b.answer cfg sid reqN request = some (finishResponse (b.server cfg) request reqN r) ∧
      b.Returns request r := by
  by_cases hdb : request.target = "/db"
  · obtain ⟨r, hr, hs⟩ := db_returns b request sid reqN
    refine ⟨r, ?_, returns_of_service (by rw [hdb]; decide) ?_⟩
    · simp [Backend.answer, callHandler, Backend.server, handlers, hdb, db, hr]
    · simpa [Backend.printed, hdb] using hs
  · by_cases hecho : request.target = "/echo"
    · refine ⟨echoResponse request, ?_, ?_⟩
      · simp [Backend.answer, callHandler, Backend.server, handlers, hecho, echo, Handling.eval]
      · simp [Backend.Returns, Backend.printed, hecho]
    · by_cases hstat : request.target = "/stat"
      · obtain ⟨r, hr, hs⟩ := stat_returns b request sid reqN
        refine ⟨r, ?_, returns_of_service hecho ?_⟩
        · simp [Backend.answer, callHandler, Backend.server, handlers, hstat, stat, hr]
        · simpa [Backend.printed, hstat] using hs
      · refine ⟨errorResponse .badRequest (ascii "Unknown URI path"), ?_, ?_⟩
        · simp [Backend.answer, callHandler, Backend.server, handlers, hdb, hecho, hstat, Handling.eval]
        · simp only [Backend.Returns, Backend.printed, beq_iff_eq, if_neg hdb, if_neg hstat, if_neg hecho]
          exact ⟨_, _, rfl⟩

end

/-! ## Content-Type -/

/-- Printed bytes that reach the client have no name. -/
theorem typed_iff {b : Backend} {request : Request} {r : Response} (h : b.Returns request r) (cfg : ConnCfg)
    (reqN : Nat) :
    (finishResponse cfg request reqN r).Typed request (b.encoding request) ↔
      ∀ f out, b.printed request = some (f, out) → out = [] ∨ request.method = .head := by
  unfold Backend.Returns at h
  cases hp : b.printed request with
  | some p =>
    obtain ⟨f, out⟩ := p
    rw [hp] at h
    subst h
    constructor
    · intro ht f' out' hf
      cases hf
      by_contra hno
      obtain ⟨hout, hm⟩ := not_or.1 hno
      obtain ⟨ct, hct, _⟩ := ht (by simpa [finishResponse, hm] using hout)
      cases hct
    · intro hno hbody
      rcases hno f out rfl with hout | hm
      · exact absurd (by simp [finishResponse, hout]) hbody
      · exact absurd (by simp [finishResponse, hm]) hbody
  | none =>
    rw [hp] at h
    constructor
    · intro _ f out hf
      cases hf
    · intro _ _
      by_cases hecho : request.target = "/echo"
      · have hr : r = echoResponse request := by simpa [hecho] using h
        exact ⟨_, by rw [hr]; rfl, by simp [Backend.encoding, hp, hecho, Encoding.Names]⟩
      · obtain ⟨status, msg, hr⟩ : ∃ status msg, r = errorResponse status msg := by simpa [hecho] using h
        exact ⟨"text/plain", by rw [hr]; rfl, by simp [Backend.encoding, hp, hecho, Encoding.Names]⟩

/-- **Content types.** Every request is answered, and what is written for it names the encoding of its
body iff no message is printed for it, or an empty one, or the method is HEAD. -/
theorem responses_typed (b : Backend) (cfg : ConnCfg) (sid reqN : Nat) (request : Request) :
    (∃ resp, b.answer cfg sid reqN request = some resp ∧ resp.Typed request (b.encoding request)) ↔
      ∀ f out, b.printed request = some (f, out) → out = [] ∨ request.method = .head := by
  obtain ⟨r, ha, hr⟩ := answer_returns b request sid reqN cfg
  rw [← typed_iff hr (b.server cfg) reqN, ha]
  constructor
  · rintro ⟨resp, hresp, ht⟩
    cases hresp
    exact ht
  · intro ht
    exact ⟨_, rfl, ht⟩

/-- A client that asks in protobuf for the statistics; nothing listens on `/db`. -/
def statBackend : Backend where
  statDecoder := statDecoder
  statEncoder := statEncoder
  dbDecoder := ⟨fun _ => .error (3, []), fun _ => none⟩
  dbEncoder := ⟨fun _ => ([], some (13, [])), fun _ => ([], false)⟩
  query _ := {}
  stat := ⟨3, 5, 2, 40⟩

def statServerCfg : ConnCfg where
  headerServer := "acppsrv/1"
  keepaliveRequests := some 100
  handlers _ := none
  keepalive_pos k hk := by cases hk; decide

def statQuery : Request := ⟨.post, "/stat", true, none, some "application/protobuf", none, []⟩

/-- It gets a message without a type. -/
theorem message_untyped :
    statBackend.answer statServerCfg 0 1 statQuery =
      some ⟨.ok, none, some "acppsrv/1", some 8, true, [8, 3, 16, 5, 24, 2, 32, 40]⟩ ∧
    statBackend.encoding statQuery = .message .protobuf ∧
    ¬ ∃ resp, statBackend.answer statServerCfg 0 1 statQuery = some resp ∧
      resp.Typed statQuery (statBackend.encoding statQuery) := by
  have ha : statBackend.answer statServerCfg 0 1 statQuery =
      some ⟨.ok, none, some "acppsrv/1", some 8, true, [8, 3, 16, 5, 24, 2, 32, 40]⟩ := by decide
  refine ⟨ha, by decide, ?_⟩
  rintro ⟨resp, hresp, ht⟩
  rw [ha] at hresp
  cases hresp
  obtain ⟨ct, hct, _⟩ := ht (by decide)
  cases hct

end Acppsrv.Http
