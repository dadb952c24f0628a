import Acppsrv.Lib.Run
import Acppsrv.Http.Handler
/-!
# One connection: `http_server::handle_connection` (http_server.cpp:183-307)

The coroutine is a machine that moves when an asynchronous operation completes, or by itself between
two shared accesses (`Act.run`). The outcome of every operation is in the action, so a list of
actions is any sequence of client bytes and I/O outcomes: what `async_read_header` and
`async_read_some` deliver is what the parser made of the bytes. A list of actions that stops early
leaves the coroutine suspended where it is.

Each step makes at most one access to the statistics counters, which all connections share
(`Stat`); `Conn.log` keeps what the connection did, in order.
-/
namespace Acppsrv.Http

/-- The atomic counters `http_hnd::stat::data`. -/
structure Stat where
  connections : UInt64 := 0
  requests : UInt64 := 0
  dataReq : UInt64 := 0
  dataResp : UInt64 := 0
  deriving DecidableEq, Repr

def Stat.get (s : Stat) : Counter → UInt64
  | .connections => s.connections
  | .requests => s.requests
  | .dataReq => s.dataReq
  | .dataResp => s.dataResp

def Stat.put (s : Stat) : Counter → UInt64 → Stat
  | .connections, v => { s with connections := v }
  | .requests, v => { s with requests := v }
  | .dataReq, v => { s with dataReq := v }
  | .dataResp, v => { s with dataResp := v }

/-- `counter += n` of an `std::atomic<uint64_t>`. -/
def Stat.add (s : Stat) (c : Counter) (n : Nat) : Stat := s.put c (s.get c + UInt64.ofNat n)

/-- `boost::system::error_code` of a failed operation; only `body_limit` is told apart (:294). -/
inductive ErrorCode where
  | bodyLimit
  | other (n : Nat)
  deriving DecidableEq, Repr

/-- The values of the local `stage` (`""` at first). -/
inductive Stage where
  | none
  | readRequestHeaders
  | write100Continue
  | readRequestBody
  | writeResponse
  deriving DecidableEq, Repr

/-- What `handle_connection` reads of `http_server`. -/
structure ConnCfg where
  headerServer : String
  /-- `std::optional<uint32_t> keepalive_requests`; empty means unlimited. -/
  keepaliveRequests : Option UInt32
  handlers : String → Option Handler
  /-- The constructor leaves it empty for 0 (:94-95). -/
  keepalive_pos : ∀ k, keepaliveRequests = some k → 0 < k.toNat

/-- Where the coroutine is. -/
inductive Pc where
  /-- spawned, not yet started -/
  | spawned
  /-- suspended in `async_read_header` (:213) -/
  | readHeader
  /-- header read; `done` is `parser.is_done()` (:219-229) -/
  | gotHeader (req : Request) (done : Bool)
  /-- suspended in the `async_write` of the 100-continue (:236) -/
  | write100 (req : Request) (done : Bool)
  /-- suspended in `async_read_some` (:245) -/
  | readBody (req : Request)
  /-- body complete, before `data_req +=` (:254) -/
  | gotBody (req : Request)
  /-- in the handler (:257-263) -/
  | handling (req : Request) (h : Handling)
  /-- suspended in the `async_write` of the response (:274) -/
  | writing (resp : Response)
  /-- suspended in the `async_write` of the 413 (:299) -/
  | write413
  /-- the body of the coroutine was left, by `co_return` or by an exception; `at_end` runs next -/
  | left
  deriving Inhabited

/-- What a connection did. Requests are numbered from 1, by `req_n`. -/
inductive Ev where
  | started
  /-- `async_read_header` for request `i` begun -/
  | reading (i : Nat)
  /-- the header of request `i` read -/
  | header (i : Nat) (req : Request)
  /-- the write of a 100-continue begun -/
  | continue100 (i : Nat) (resp : Response)
  /-- some more of the body of request `i` read -/
  | chunk (i : Nat)
  /-- request `i` completely read -/
  | body (i : Nat) (req : Request)
  /-- `exchange(0)` of a counter took `v` out of it -/
  | took (c : Counter) (v : UInt64)
  /-- the write of the final response to request `i` begun -/
  | respond (i : Nat) (resp : Response)
  /-- response `i` written without error -/
  | written (i : Nat)
  /-- an operation completed with an error -/
  | failed (stage : Stage) (ec : ErrorCode)
  /-- the write of the error response of the abort path begun -/
  | abort (resp : Response)
  /-- an exception left the handler of request `i` -/
  | threw (i : Nat)
  deriving DecidableEq, Repr

structure Conn where
  pc : Pc := .spawned
  reqN : Nat := 0
  ec : Option ErrorCode := none
  stage : Stage := .none
  log : List Ev := []
  deriving Inhabited

/-- A completion the coroutine is resumed by, or `run`: it goes on by itself. -/
inductive Act where
  | run
  | header (r : Except ErrorCode (Request × Bool))
  | wrote100 (r : Option ErrorCode)
  | readSome (r : Except ErrorCode (Bytes × Bool))
  | answer (a : Db.Response)
  | wrote (r : Option ErrorCode)
  | wrote413 (r : Option ErrorCode)

/-- `{payload_too_large, 11}`, sent as it is (:295-301). -/
def tooLarge : Response := { status := .payloadTooLarge }

/-- The interim response (:231-234). -/
def continueResponse (cfg : ConnCfg) : Response :=
  { status := .continue_, server := some cfg.headerServer }

/-- The label `abort_connection` (:292-305), reached by a `goto` with `ec` set. -/
def abortConnection (c : Conn) (stage : Stage) (e : ErrorCode) : Conn :=
  if e = .bodyLimit then
    { c with pc := .write413, ec := some e, stage := stage,
             log := c.log ++ [.failed stage e, .abort tooLarge] }
  else { c with pc := .left, ec := some e, stage := stage, log := c.log ++ [.failed stage e] }

/-- The test of the body loop (:243): another `async_read_some`, or past the loop. -/
def bodyLoop (c : Conn) (req : Request) (done : Bool) : Conn :=
  if done then { c with pc := .gotBody req } else { c with pc := .readBody req }

/-- The handler's part of `Create a response` (:256-263). -/
def callHandler (cfg : ConnCfg) (sid reqN : Nat) (req : Request) : Handling :=
  match cfg.handlers req.target with
  | none => .ret (errorResponse .badRequest (ascii "Unknown URI path"))
  | some h => if h.async then h.handleAsync req sid reqN else h.handleSync req sid reqN

/-- `keepalive` after request `reqN` (:269). -/
def keepaliveAfter (cfg : ConnCfg) (req : Request) (reqN : Nat) : Bool :=
  req.keepAlive && (match cfg.keepaliveRequests with
    | none => true
    | some k => decide (reqN < k.toNat))

/-- The rest of `Create a response` (:264-271): `prepare_payload`, the HEAD clearing, the headers. -/
def finishResponse (cfg : ConnCfg) (req : Request) (reqN : Nat) (r : Response) : Response :=
  { r with
    contentLength := some r.body.length
    body := if req.method = .head then [] else r.body
    server := some cfg.headerServer
    keepAlive := keepaliveAfter cfg req reqN }

/-- A step of the coroutine. -/
def connStep (cfg : ConnCfg) (sid : Nat) (st : Stat) (c : Conn) : Act → Option (Stat × Conn)
  | .run =>
    match c.pc with
    | .spawned =>
      some (st.add .connections 1, { c with pc := .readHeader, log := c.log ++ [.started, .reading 1] })
    | .gotHeader req done =>
      if iequals (req.expect.getD "") "100-continue" then
        some (st, { c with pc := .write100 req done,
                           log := c.log ++ [.continue100 c.reqN (continueResponse cfg)] })
      else some (st, bodyLoop c req done)
    | .gotBody req =>
      some (st.add .dataReq req.body.length,
        { c with pc := .handling req (callHandler cfg sid c.reqN req),
                 log := c.log ++ [.body c.reqN req] })
    | .handling req (.ret r) =>
      let resp := finishResponse cfg req c.reqN r
      some (st.add .dataResp resp.body.length,
        { c with pc := .writing resp, log := c.log ++ [.respond c.reqN resp] })
    | .handling _ .throw => some (st, { c with pc := .left, log := c.log ++ [.threw c.reqN] })
    | .handling req (.exchange ctr k) =>
      some (st.put ctr 0,
        { c with pc := .handling req (k (st.get ctr)), log := c.log ++ [.took ctr (st.get ctr)] })
    | .handling req (.load ctr k) => some (st, { c with pc := .handling req (k (st.get ctr)) })
    | _ => none
  | .header r =>
    match c.pc, r with
    | .readHeader, .error e => some (st, abortConnection c .readRequestHeaders e)
    | .readHeader, .ok (req, done) =>
      some (st.add .requests 1,
        { c with pc := .gotHeader req done, reqN := c.reqN + 1, ec := none,
                 stage := .readRequestHeaders, log := c.log ++ [.header (c.reqN + 1) req] })
    | _, _ => none
  | .wrote100 r =>
    match c.pc, r with
    | .write100 _ _, some e => some (st, abortConnection c .write100Continue e)
    | .write100 req done, none => some (st, bodyLoop { c with ec := none, stage := .write100Continue } req done)
    | _, _ => none
  | .readSome r =>
    match c.pc, r with
    | .readBody _, .error e => some (st, abortConnection c .readRequestBody e)
    | .readBody req, .ok (bytes, done) =>
      some (st, bodyLoop { c with ec := none, stage := .readRequestBody, log := c.log ++ [.chunk c.reqN] }
        { req with body := req.body ++ bytes } done)
    | _, _ => none
  | .answer a =>
    match c.pc with
    | .handling req (.query _ k) => some (st, { c with pc := .handling req (k a) })
    | _ => none
  | .wrote r =>
    match c.pc, r with
    | .writing _, some e => some (st, abortConnection c .writeResponse e)
    | .writing resp, none =>
      if resp.keepAlive then
        some (st, { c with pc := .readHeader, ec := none, stage := .none,
                           log := c.log ++ [.written c.reqN, .reading (c.reqN + 1)] })
      else some (st, { c with pc := .left, ec := none, stage := .none, log := c.log ++ [.written c.reqN] })
    | _, _ => none
  | .wrote413 _ =>
    match c.pc with
    | .write413 => some (st, { c with pc := .left })
    | _ => none

/-- A connection alone: the counters it finds at each step are whatever the others made of them. -/
def connStep₁ (cfg : ConnCfg) (sid : Nat) (c : Conn) (a : Stat × Act) : Option Conn :=
  (connStep cfg sid a.1 c a.2).map Prod.snd

/-! ## Operations -/

/-- The asynchronous operations of the stream. -/
inductive Operation where
  | readHeader
  | write100
  | readSome
  | writeResponse
  | write413
  deriving DecidableEq, Repr

/-- The operation the coroutine is suspended in. -/
def Pc.operation : Pc → Option Operation
  | .readHeader => some .readHeader
  | .write100 _ _ => some .write100
  | .readBody _ => some .readSome
  | .writing _ => some .writeResponse
  | .write413 => some .write413
  | .spawned | .gotHeader _ _ | .gotBody _ | .handling _ _ | .left => none

/-- The operation an action completes. -/
def Act.operation : Act → Option Operation
  | .header _ => some .readHeader
  | .wrote100 _ => some .write100
  | .readSome _ => some .readSome
  | .wrote _ => some .writeResponse
  | .wrote413 _ => some .write413
  | .run | .answer _ => none

/-- `stage` once the operation is over; that of the 413 leaves it alone. -/
def Operation.stage : Operation → Stage
  | .readHeader => .readRequestHeaders
  | .write100 => .write100Continue
  | .readSome => .readRequestBody
  | .writeResponse => .writeResponse
  | .write413 => .none

/-- The error it completes with. The one of the 413 is in a variable of its own (:298). -/
def Act.error : Act → Option ErrorCode
  | .header (.error e) | .readSome (.error e) => some e
  | .wrote100 r | .wrote r => r
  | _ => none

/-! ## What a step can do -/

/-- The steps of `connStep`, one constructor per way the coroutine moves. -/
inductive Move (cfg : ConnCfg) (sid : Nat) (st : Stat) (c : Conn) : Act → Stat → Conn → Prop
  | start (h : c.pc = .spawned) :
      Move cfg sid st c .run (st.add .connections 1)
        { c with pc := .readHeader, log := c.log ++ [.started, .reading 1] }
  | header {req : Request} {done : Bool} (h : c.pc = .readHeader) :
      Move cfg sid st c (.header (.ok (req, done))) (st.add .requests 1)
        { c with pc := .gotHeader req done, reqN := c.reqN + 1, ec := none,
                 stage := .readRequestHeaders, log := c.log ++ [.header (c.reqN + 1) req] }
  | continue100 {req : Request} {done : Bool} (h : c.pc = .gotHeader req done)
      (hx : iequals (req.expect.getD "") "100-continue" = true) :
      Move cfg sid st c .run st
        { c with pc := .write100 req done,
                 log := c.log ++ [.continue100 c.reqN (continueResponse cfg)] }
  | toBody {req : Request} {done : Bool} (h : c.pc = .gotHeader req done) :
      Move cfg sid st c .run st (bodyLoop c req done)
  | wrote100 {req : Request} {done : Bool} (h : c.pc = .write100 req done) :
      Move cfg sid st c (.wrote100 none) st (bodyLoop { c with ec := none, stage := .write100Continue } req done)
  | chunk {req : Request} {bytes : Bytes} {done : Bool} (h : c.pc = .readBody req) :
      Move cfg sid st c (.readSome (.ok (bytes, done))) st
        (bodyLoop { c with ec := none, stage := .readRequestBody, log := c.log ++ [.chunk c.reqN] }
          { req with body := req.body ++ bytes } done)
  | body {req : Request} (h : c.pc = .gotBody req) :
      Move cfg sid st c .run (st.add .dataReq req.body.length)
        { c with pc := .handling req (callHandler cfg sid c.reqN req),
                 log := c.log ++ [.body c.reqN req] }
  | exchange {req : Request} {ctr : Counter} {k : UInt64 → Handling}
      (h : c.pc = .handling req (.exchange ctr k)) :
      Move cfg sid st c .run (st.put ctr 0)
        { c with pc := .handling req (k (st.get ctr)), log := c.log ++ [.took ctr (st.get ctr)] }
  | load {req : Request} {ctr : Counter} {k : UInt64 → Handling}
      (h : c.pc = .handling req (.load ctr k)) :
      Move cfg sid st c .run st { c with pc := .handling req (k (st.get ctr)) }
  | answer {req : Request} {q : Db.Request} {k : Db.Response → Handling}
      {a : Db.Response} (h : c.pc = .handling req (.query q k)) :
      Move cfg sid st c (.answer a) st { c with pc := .handling req (k a) }
  | respond {req : Request} {r : Response} (h : c.pc = .handling req (.ret r)) :
      Move cfg sid st c .run (st.add .dataResp (finishResponse cfg req c.reqN r).body.length)
        { c with pc := .writing (finishResponse cfg req c.reqN r),
                 log := c.log ++ [.respond c.reqN (finishResponse cfg req c.reqN r)] }
  | throw {req : Request} (h : c.pc = .handling req .throw) :
      Move cfg sid st c .run st { c with pc := .left, log := c.log ++ [.threw c.reqN] }
  | again {resp : Response} (h : c.pc = .writing resp) (hk : resp.keepAlive = true) :
      Move cfg sid st c (.wrote none) st
        { c with pc := .readHeader, ec := none, stage := .none,
                 log := c.log ++ [.written c.reqN, .reading (c.reqN + 1)] }
  | close {resp : Response} (h : c.pc = .writing resp) (hk : resp.keepAlive = false) :
      Move cfg sid st c (.wrote none) st
        { c with pc := .left, ec := none, stage := .none, log := c.log ++ [.written c.reqN] }
  | abort {a : Act} {e : ErrorCode} (op : Operation)
      (h : c.pc = .readHeader ∨ (∃ req done, c.pc = .write100 req done) ∨ (∃ req, c.pc = .readBody req) ∨
        ∃ resp, c.pc = .writing resp) (hop : c.pc.operation = some op) (ha : a.operation = some op)
      (he : a.error = some e) : Move cfg sid st c a st (abortConnection c op.stage e)
  | wrote413 {r : Option ErrorCode} (h : c.pc = .write413) :
      Move cfg sid st c (.wrote413 r) st { c with pc := .left }

theorem connStep_move {cfg : ConnCfg} {sid : Nat} {st st' : Stat} {c c' : Conn} {a : Act}
    (h : connStep cfg sid st c a = some (st', c')) : Move cfg sid st c a st' c' := by
  cases a with
  | run =>
    simp only [connStep] at h
    split at h
    · cases h; exact .start (by assumption)
    · split at h
      · cases h; exact .continue100 (by assumption) (by assumption)
      · cases h; exact .toBody (by assumption)
    · cases h; exact .body (by assumption)
    · cases h; exact .respond (by assumption)
    · cases h; exact .throw (by assumption)
    · cases h; exact .exchange (by assumption)
    · cases h; exact .load (by assumption)
    · cases h
  | header r =>
    simp only [connStep] at h
    split at h
    · rename_i e hpc
      cases h; exact .abort .readHeader (Or.inl hpc) (by rw [hpc]; rfl) rfl rfl
    · cases h; exact .header (by assumption)
    · cases h
  | wrote100 r =>
    simp only [connStep] at h
    split at h
    · rename_i req done e hpc
      cases h; exact .abort .write100 (Or.inr (Or.inl ⟨_, _, hpc⟩)) (by rw [hpc]; rfl) rfl rfl
    · cases h; exact .wrote100 (by assumption)
    · cases h
  | readSome r =>
    simp only [connStep] at h
    split at h
    · rename_i req e hpc
      cases h; exact .abort .readSome (Or.inr (Or.inr (Or.inl ⟨_, hpc⟩))) (by rw [hpc]; rfl) rfl rfl
    · cases h; exact .chunk (by assumption)
    · cases h
  | answer a =>
    simp only [connStep] at h
    split at h
    · cases h; exact .answer (by assumption)
    · cases h
  | wrote r =>
    simp only [connStep] at h
    split at h
    · rename_i resp e hpc
      cases h; exact .abort .writeResponse (Or.inr (Or.inr (Or.inr ⟨_, hpc⟩))) (by rw [hpc]; rfl) rfl rfl
    · split at h
      · cases h; exact .again (by assumption) (by assumption)
      · cases h; exact .close (by assumption) (by simp_all)
    · cases h
  | wrote413 r =>
    simp only [connStep] at h
    split at h
    · cases h; exact .wrote413 (by assumption)
    · cases h

/-- The coroutine goes on: with every outcome of the operation in progress, else by itself or with every answer to its
query. -/
def GoesOn (cfg : ConnCfg) (sid : Nat) (c : Conn) : Prop :=
  match c.pc.operation with
  | some op => ∀ st a, a.operation = some op → (connStep cfg sid st c a).isSome = true
  | none => (∀ st, (connStep cfg sid st c .run).isSome = true) ∨
      ∀ st a, (connStep cfg sid st c (.answer a)).isSome = true

theorem goesOn_of_ne_left (cfg : ConnCfg) (sid : Nat) {c : Conn} (h : c.pc ≠ .left) : GoesOn cfg sid c := by
  obtain ⟨pc, reqN, ec, stage, log⟩ := c
  cases pc with
  | left => exact absurd rfl h
  | readHeader =>
    intro st a ha
    cases a with
    | header r => cases r <;> rfl
    | _ => cases ha
  | write100 req done =>
    intro st a ha
    cases a with
    | wrote100 r => cases r <;> rfl
    | _ => cases ha
  | readBody req =>
    intro st a ha
    cases a with
    | readSome r => cases r <;> rfl
    | _ => cases ha
  | writing resp =>
    intro st a ha
    cases a with
    | wrote r =>
      cases r with
      | some e => rfl
      | none =>
        show (if resp.keepAlive then some _ else some _ : Option (Stat × Conn)).isSome = true
        split <;> rfl
    | _ => cases ha
  | write413 =>
    intro st a ha
    cases a with
    | wrote413 r => rfl
    | _ => cases ha
  | gotHeader req done =>
    left
    intro st
    show (if iequals (req.expect.getD "") "100-continue" then some _ else some _ : Option (Stat × Conn)).isSome = true
    split <;> rfl
  | handling req hnd =>
    cases hnd with
    | query q k => exact Or.inr fun _ _ => rfl
    | _ => exact Or.inl fun _ => rfl
  | spawned | gotBody req => exact Or.inl fun _ => rfl

/-- The loop leaves the log alone. -/
@[simp] theorem bodyLoop_log (c : Conn) (req : Request) (done : Bool) : (bodyLoop c req done).log = c.log := by
  cases done <;> rfl

/-- What the abort path adds to it. -/
theorem abortConnection_log (c : Conn) (stage : Stage) (e : ErrorCode) : (abortConnection c stage e).log =
    c.log ++ if e = .bodyLimit then [.failed stage e, .abort tooLarge] else [.failed stage e] := by
  unfold abortConnection
  split <;> rfl

@[simp] theorem bodyLoop_reqN (c : Conn) (req : Request) (done : Bool) : (bodyLoop c req done).reqN = c.reqN := by
  cases done <;> rfl

end Acppsrv.Http
