import Acppsrv.Db.Message
/-!
# HTTP messages and `http_handler` (http_server.cpp:367-434, http_server_impl.hpp, http_hnd_*.cpp)

| here | there |
| --- | --- |
| `Request`, `Response`     | `http_request_type`, `http_response_type`: the fields the server reads and sets |
| `Handling`                | a handler call in progress, up to its next access to something shared |
| `jsonBody`, `protobufBody`| `http_handler::json_body`, `protobuf_body` (http_server.cpp:398, :418) |
| `parse`, `serialize`      | `http_handler::parse`, `serialize` (http_server_impl.hpp:11, :58) |
| `echo`, `stat`, `db`      | the three handlers (http_hnd_echo.cpp, http_hnd_stat.cpp, http_hnd_db.cpp) |

The protobuf library is not part of the repository: its parsers and printers are the fields of
`Decoder` and `Encoder`. A printer returns what it left in the output string and whether it failed.
-/
namespace Acppsrv.Http

abbrev Bytes := List UInt8

/-- The bytes of an ASCII literal. -/
def ascii (s : String) : Bytes := s.toList.map fun c => UInt8.ofNat c.toNat

inductive Verb where
  | get
  | head
  | post
  | other (name : String)
  deriving DecidableEq, Repr

structure Request where
  method : Verb
  target : String
  /-- `request.keep_alive()`: the protocol version and `Connection` combined. -/
  keepAlive : Bool
  expect : Option String := none
  contentType : Option String := none
  accept : Option String := none
  body : Bytes := []
  deriving DecidableEq, Repr

/-- The statuses the server uses (`boost::beast::http::status`). -/
inductive Status where
  | continue_
  | ok
  | badRequest
  | notAcceptable
  | payloadTooLarge
  | unsupportedMediaType
  | internalServerError
  deriving DecidableEq, Repr

def Status.code : Status → Nat
  | .continue_ => 100
  | .ok => 200
  | .badRequest => 400
  | .notAcceptable => 406
  | .payloadTooLarge => 413
  | .unsupportedMediaType => 415
  | .internalServerError => 500

/-- A response; a fresh one is `http_response_type{status, 11}`: no header set, and an HTTP/1.1
message without `Connection` is keep-alive. -/
structure Response where
  status : Status
  contentType : Option String := none
  server : Option String := none
  contentLength : Option Nat := none
  keepAlive : Bool := true
  body : Bytes := []
  deriving DecidableEq, Repr

/-- The four counters of `http_hnd::stat::data_t` (http_hnd_stat.hpp:11). -/
inductive Counter where
  | connections
  | requests
  | dataReq
  | dataResp
  deriving DecidableEq, Repr

/-- A handler call in progress. Everything local runs to the next node: a response returned, an
exception leaving the handler, an atomic access to a counter, or a query posted to the database
pool with the coroutine suspended until `call_query`'s completion (http_hnd_db.cpp:13) resumes it. -/
inductive Handling where
  | ret (r : Response)
  | throw
  | exchange (c : Counter) (k : UInt64 → Handling)
  | load (c : Counter) (k : UInt64 → Handling)
  | query (q : Db.Request) (k : Db.Response → Handling)

/-- The responses a handler call can return, over all values of the counters and all answers. -/
inductive Handling.Yields : Handling → Response → Prop
  | ret (r : Response) : Yields (.ret r) r
  | exchange {c : Counter} {k : UInt64 → Handling} {r : Response} (v : UInt64) :
      Yields (k v) r → Yields (.exchange c k) r
  | load {c : Counter} {k : UInt64 → Handling} {r : Response} (v : UInt64) :
      Yields (k v) r → Yields (.load c k) r
  | query {q : Db.Request} {k : Db.Response → Handling} {r : Response} (a : Db.Response) :
      Yields (k a) r → Yields (.query q k) r

/-- `class http_handler`: arguments are the request, `sid` and `req_n`. -/
structure Handler where
  async : Bool
  handleSync : Request → Nat → Nat → Handling
  handleAsync : Request → Nat → Nat → Handling

/-! ## `http_handler` -/

/-- `http_handler::error_response` (http_server.cpp:369). -/
def errorResponse (status : Status) (msg : Bytes) : Response :=
  { status, contentType := some "text/plain", body := msg ++ ascii "\n" }

/-- `http_handler::handle_sync` (http_server.cpp:391). -/
def okResponse : Response := { status := .ok }

/-- `boost::beast::iequals`. -/
def iequals (a b : String) : Bool := a.toList.map Char.toLower == b.toList.map Char.toLower

def contentTypeJson : List String := ["application/json"]

def contentTypeProtobuf : List String :=
  ["application/protobuf", "application/x-protobuf", "application/vnd.google.protobuf"]

/-- `http_handler::json_body` (http_server.cpp:398); `request[field]` of an absent field is empty. -/
def jsonBody (request : Request) (isReq : Bool) : Bool × String :=
  let ct := if isReq then "" else
    let accept := request.accept.getD ""
    if accept == "*" || accept == "*/*" then "" else accept
  let ct := if ct == "" then request.contentType.getD "" else ct
  (contentTypeJson.any (iequals ct ·), ct)

/-- `http_handler::protobuf_body` (http_server.cpp:418): no case for the wildcards. -/
def protobufBody (request : Request) (isReq : Bool) : Bool × String :=
  let ct := if isReq then "" else request.accept.getD ""
  let ct := if ct == "" then request.contentType.getD "" else ct
  (contentTypeProtobuf.any (iequals ct ·), ct)

/-- The protobuf parsers of a message type: `JsonStringToMessage` (error code and text on failure)
and `ParseFromString`. -/
structure Decoder (M : Type) where
  json : Bytes → Except (Nat × Bytes) M
  binary : Bytes → Option M

/-- The protobuf printers: `MessageToJsonString` and `SerializeToString`, each with what it left in
the output string. -/
structure Encoder (M : Type) where
  json : M → Bytes × Option (Nat × Bytes)
  binary : M → Bytes × Bool

/-- `"…: (" + std::to_string(code) + ") " + status.ToString()`. -/
def statusText (what : String) (err : Nat × Bytes) : Bytes :=
  ascii what ++ ascii ": (" ++ ascii (toString err.1) ++ ascii ") " ++ err.2

/-- `http_handler::parse` (http_server_impl.hpp:11). -/
def parse {M : Type} (dec : Decoder M) (request : Request) : Option M × Response :=
  if (jsonBody request true).1 then
    match dec.json request.body with
    | .error err => (none, errorResponse .badRequest (statusText "Cannot parse JSON request" err))
    | .ok parsed => (some parsed, okResponse)
  else if (protobufBody request true).1 then
    match dec.binary request.body with
    | none => (none, errorResponse .badRequest (ascii "Cannot parse protobuf request"))
    | some parsed => (some parsed, okResponse)
  else (none, errorResponse .unsupportedMediaType (ascii "Unsupported Content-Type"))

/-- `http_handler::serialize` (http_server_impl.hpp:58): the result and the response as it is left.
The two `error_response` calls after a failed printer discard their result (:78, :87). -/
def serialize {M : Type} (enc : Encoder M) (request : Request) (data : M) (response : Response) :
    Bool × Response :=
  if (jsonBody request false).1 then
    match enc.json data with
    | (out, some _) => (false, { response with body := out })
    | (out, none) => (true, { response with body := out })
  else if (protobufBody request false).1 then
    match enc.binary data with
    | (out, false) => (false, { response with body := out })
    | (out, true) => (true, { response with body := out })
  else
    (false, errorResponse .notAcceptable
      (ascii "Unsupported Content-Type requested by client for response"))

/-! ## The handlers -/

/-- `http_hnd::echo::handle_sync` (http_hnd_echo.cpp:5). -/
def echoResponse (request : Request) : Response :=
  { okResponse with
    contentType := some (request.contentType.getD "application/octet-stream")
    body := request.body }

def echo : Handler where
  async := false
  handleSync request _ _ := .ret (echoResponse request)
  handleAsync request _ _ := .ret (echoResponse request)

/-- `message Request` and `message Response` of http_hnd_stat.proto. -/
structure StatRequest where
  reset : Bool
  deriving DecidableEq, Repr

structure StatResponse where
  connections : UInt64
  requests : UInt64
  dataReq : UInt64
  dataResp : UInt64
  deriving DecidableEq, Repr

/-- `http_hnd::stat::handle_sync` (http_hnd_stat.cpp:7): the counters are exchanged or read one by
one, so other connections run between them. -/
def statHandleSync (dec : Decoder StatRequest) (enc : Encoder StatResponse) (request : Request)
    (_sid _reqN : Nat) : Handling :=
  match parse dec request with
  | (none, response) => .ret response
  | (some inp, response) =>
    let reply := fun c r q p => Handling.ret (serialize enc request ⟨c, r, q, p⟩ response).2
    if inp.reset then
      .exchange .connections fun c => .exchange .requests fun r =>
        .exchange .dataReq fun q => .exchange .dataResp fun p => reply c r q p
    else
      .load .connections fun c => .load .requests fun r =>
        .load .dataReq fun q => .load .dataResp fun p => reply c r q p

def stat (dec : Decoder StatRequest) (enc : Encoder StatResponse) : Handler where
  async := false
  handleSync := statHandleSync dec enc
  handleAsync := statHandleSync dec enc

/-- `http_hnd::db::handle_async` (http_hnd_db.cpp:34). -/
def dbHandleAsync (dec : Decoder Db.Request) (enc : Encoder Db.Response) (request : Request)
    (_sid _reqN : Nat) : Handling :=
  match parse dec request with
  | (none, response) => .ret response
  | (some inp, response) => .query inp fun out => .ret (serialize enc request out response).2

/-- `handle_sync` is inherited (http_server.cpp:391) and never called: `async()` is true. -/
def db (dec : Decoder Db.Request) (enc : Encoder Db.Response) : Handler where
  async := true
  handleSync _ _ _ := .ret okResponse
  handleAsync := dbHandleAsync dec enc

/-- The handlers the constructor registers (http_server.cpp:102-106). -/
def handlers (decS : Decoder StatRequest) (encS : Encoder StatResponse) (decD : Decoder Db.Request)
    (encD : Encoder Db.Response) (target : String) : Option Handler :=
  if target == "/db" then some (db decD encD)
  else if target == "/echo" then some echo
  else if target == "/stat" then some (stat decS encS)
  else none

end Acppsrv.Http
