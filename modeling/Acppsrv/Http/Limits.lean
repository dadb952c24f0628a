import Acppsrv.Http.Server
/-!
# Limits: from the configuration to what is enforced (http_server.cpp:80-100, :207-211, :351)

| here | there |
| --- | --- |
| `HttpServer`  | `message HttpServer` (configuration.proto:59): its limits, `0 = unlimited` |
| `Limits`      | the `std::optional<uint32_t>` members (http_server.hpp:69-75) |
| `httpServer`  | `http_server::http_server` (:80-100) |
| `newParser`   | the parser of one request (:207-211) |
| `backlog`     | the argument of `acceptor.listen` (:351) |

`enforced` is the limit in force, none for no limit; `backlog_eq`, `limitReached_enforced`,
`keepaliveAfter_enforced`, `rejectsHeader_iff` and `rejectsBody_iff` say where. The two `uint64` values
are cut to 32 bits on their way, and for 0 the parser keeps its own limits.
-/
namespace Acppsrv.Http

structure HttpServer where
  listenQueue : UInt32 := 0
  maxConnections : UInt32 := 0
  keepaliveRequests : UInt32 := 0
  maxRequestHeaders : UInt64 := 0
  maxRequestBody : UInt64 := 0
  deriving DecidableEq, Repr

structure Limits where
  listenQueue : Option UInt32 := none
  maxConnections : Option UInt32 := none
  keepaliveRequests : Option UInt32 := none
  maxRequestHeaders : Option UInt32 := none
  maxRequestBody : Option UInt32 := none
  deriving DecidableEq, Repr

/-- The constructor; none when `has_http_server()` is false. The assignments of :97 and :99 convert
`uint64_t` to `uint32_t`. -/
def httpServer : Option HttpServer → Limits
  | none => {}
  | some http =>
    { listenQueue :=
        if http.listenQueue ≠ 0 then
          some (if 2147483647 < http.listenQueue then 2147483647 else http.listenQueue)
        else none
      maxConnections := if http.maxConnections ≠ 0 then some http.maxConnections else none
      keepaliveRequests := if http.keepaliveRequests ≠ 0 then some http.keepaliveRequests else none
      maxRequestHeaders := if http.maxRequestHeaders ≠ 0 then some http.maxRequestHeaders.toUInt32 else none
      maxRequestBody := if http.maxRequestBody ≠ 0 then some http.maxRequestBody.toUInt32 else none }

/-- `int(listen_queue.value_or(max_listen_connections))`. -/
def backlog (lim : Limits) (maxListenConnections : Int32) : Int32 :=
  (lim.listenQueue.getD maxListenConnections.toUInt32).toInt32

/-- The limits of a Beast `request_parser`, as it is constructed. -/
structure RequestParser where
  headerLimit : UInt32 := 8192
  bodyLimit : Option UInt64 := some 1048576
  deriving DecidableEq, Repr

/-- `header_limit` and `body_limit` are called for limits that are set. -/
def newParser (lim : Limits) : RequestParser :=
  let parser : RequestParser := {}
  let parser := match lim.maxRequestHeaders with
    | some v => { parser with headerLimit := v }
    | none => parser
  match lim.maxRequestBody with
  | some v => { parser with bodyLimit := some v.toUInt64 }
  | none => parser

/-- A header of `n` bytes is rejected. -/
def RequestParser.rejectsHeader (parser : RequestParser) (n : Nat) : Bool := decide (parser.headerLimit.toNat < n)

/-- A body of `n` bytes is rejected with `body_limit`. -/
def RequestParser.rejectsBody (parser : RequestParser) (n : Nat) : Bool :=
  match parser.bodyLimit with
  | some limit => decide (limit.toNat < n)
  | none => false

inductive Limit where
  | listenQueue
  | maxConnections
  | keepaliveRequests
  | maxRequestHeaders
  | maxRequestBody
  deriving DecidableEq, Repr

/-- The value in the configuration; an absent message has all fields 0. -/
def configured (cfg : Option HttpServer) (l : Limit) : Nat :=
  let http := cfg.getD {}
  match l with
  | .listenQueue => http.listenQueue.toNat
  | .maxConnections => http.maxConnections.toNat
  | .keepaliveRequests => http.keepaliveRequests.toNat
  | .maxRequestHeaders => http.maxRequestHeaders.toNat
  | .maxRequestBody => http.maxRequestBody.toNat

/-- The limit in force. -/
def enforced (cfg : Option HttpServer) : Limit → Option Nat
  | .listenQueue => (httpServer cfg).listenQueue.map fun v => v.toInt32.toInt.toNat
  | .maxConnections => (httpServer cfg).maxConnections.map UInt32.toNat
  | .keepaliveRequests => (httpServer cfg).keepaliveRequests.map UInt32.toNat
  | .maxRequestHeaders => some (newParser (httpServer cfg)).headerLimit.toNat
  | .maxRequestBody => (newParser (httpServer cfg)).bodyLimit.map UInt64.toNat

/-- The largest value of the type a limit is handed on in: `int` for `listen`, `uint32_t` for the rest. -/
def typeMax : Limit → Nat
  | .listenQueue => 2147483647
  | _ => 4294967295

theorem newParser_headerLimit (lim : Limits) : (newParser lim).headerLimit = lim.maxRequestHeaders.getD 8192 := by
  unfold newParser
  cases lim.maxRequestHeaders <;> cases lim.maxRequestBody <;> rfl

theorem newParser_bodyLimit (lim : Limits) :
    (newParser lim).bodyLimit = some (lim.maxRequestBody.getD 1048576).toUInt64 := by
  unfold newParser
  cases lim.maxRequestBody <;> cases lim.maxRequestHeaders <;> rfl

/-! ## Where the limits are in force -/

theorem toInt_toInt32 {v : UInt32} (h : v.toNat ≤ 2147483647) : v.toInt32.toInt = v.toNat := by
  have hv : v.toInt32.toInt = v.toBitVec.toInt := rfl
  rw [hv, BitVec.toInt_eq_toNat_of_lt]
  · rfl
  · have : v.toBitVec.toNat = v.toNat := rfl
    omega

theorem toNatClampNeg_toInt32 {v : UInt32} (h : v.toNat ≤ 2147483647) : v.toInt32.toNatClampNeg = v.toNat := by
  rw [Int32.toNatClampNeg, toInt_toInt32 h, Int.toNat_natCast]

/-- The cap of :87 is what the conversion of :351 relies on. -/
theorem listenQueue_le {cfg : Option HttpServer} {v : UInt32} (h : (httpServer cfg).listenQueue = some v) :
    v.toNat ≤ 2147483647 := by
  cases cfg with
  | none => cases h
  | some http =>
    simp only [httpServer] at h
    split at h
    · cases h
      split
      · decide
      · rename_i hv
        simpa [UInt32.lt_iff_toNat_lt] using hv
    · cases h

/-- `listen` gets the limit, or the system's default. -/
theorem backlog_eq (cfg : Option HttpServer) (maxListenConnections : Int32) :
    (backlog (httpServer cfg) maxListenConnections).toInt =
      match enforced cfg .listenQueue with
      | some n => (n : Int)
      | none => maxListenConnections.toInt := by
  unfold backlog enforced
  cases h : (httpServer cfg).listenQueue with
  | none => simp
  | some v =>
    have hle := listenQueue_le h
    simp [toInt_toInt32 hle, toNatClampNeg_toInt32 hle]

theorem keepaliveRequests_pos {cfg : Option HttpServer} {k : UInt32}
    (h : (httpServer cfg).keepaliveRequests = some k) : 0 < k.toNat := by
  cases cfg with
  | none => cases h
  | some http =>
    simp only [httpServer] at h
    split at h
    · cases h
      rename_i hk
      exact Nat.pos_of_ne_zero fun h0 => hk (UInt32.toNat_inj.1 h0)
    · cases h

/-- The server the constructor makes of a configuration. -/
def srvCfg (cfg : Option HttpServer) (headerServer : String) (handlers : String → Option Handler)
    (useWorkers : Nat) : SrvCfg where
  headerServer := headerServer
  keepaliveRequests := (httpServer cfg).keepaliveRequests
  handlers := handlers
  keepalive_pos _ h := keepaliveRequests_pos h
  maxConnections := (httpServer cfg).maxConnections
  useWorkers := useWorkers

section
variable (cfg : Option HttpServer) (headerServer : String) (handlers : String → Option Handler) (useWorkers : Nat)

/-- The accept loop stops at `max_connections` live connections. -/
theorem limitReached_enforced (s : Srv) :
    limitReached (srvCfg cfg headerServer handlers useWorkers) s = true ↔
      ∃ m, enforced cfg .maxConnections = some m ∧ m ≤ s.active := by
  simp only [limitReached, srvCfg, enforced]
  cases (httpServer cfg).maxConnections with
  | none => simp
  | some m => simp

/-- A connection goes on until `keepalive_requests` are answered. -/
theorem keepaliveAfter_enforced (req : Request) (reqN : Nat) :
    keepaliveAfter (srvCfg cfg headerServer handlers useWorkers).toConnCfg req reqN = true ↔
      req.keepAlive = true ∧ ∀ k, enforced cfg .keepaliveRequests = some k → reqN < k := by
  simp only [keepaliveAfter, srvCfg, enforced]
  cases (httpServer cfg).keepaliveRequests with
  | none => simp
  | some k => simp

end

theorem rejectsHeader_iff (cfg : Option HttpServer) (n : Nat) :
    (newParser (httpServer cfg)).rejectsHeader n = true ↔
      ∃ m, enforced cfg .maxRequestHeaders = some m ∧ m < n := by
  simp [RequestParser.rejectsHeader, enforced]

theorem rejectsBody_iff (cfg : Option HttpServer) (n : Nat) :
    (newParser (httpServer cfg)).rejectsBody n = true ↔
      ∃ m, enforced cfg .maxRequestBody = some m ∧ m < n := by
  unfold RequestParser.rejectsBody enforced
  cases (newParser (httpServer cfg)).bodyLimit with
  | none => simp
  | some m => simp

/-! ## What is enforced for a configured value -/

theorem ne_zero_iff (v : UInt32) : v ≠ 0 ↔ v.toNat ≠ 0 := not_congr UInt32.toNat_inj.symm

/-- A member assigned a value of its own type. -/
theorem map_toNat_set (v : UInt32) :
    (if v ≠ 0 then some v else none).map UInt32.toNat =
      if v.toNat = 0 then none else some (min v.toNat 4294967295) := by
  have hlt := UInt32.toNat_lt v
  have hmin : min v.toNat 4294967295 = v.toNat := by omega
  rw [hmin]
  by_cases hv : v.toNat = 0
  · simp [ne_zero_iff, hv]
  · simp [ne_zero_iff, hv]

theorem toNat_cap (v : UInt32) :
    (if 2147483647 < v then 2147483647 else v).toNat = min v.toNat 2147483647 := by
  have hm : (2147483647 : UInt32).toNat = 2147483647 := rfl
  simp only [UInt32.lt_iff_toNat_lt]
  split
  · omega
  · omega

/-- The limits with 32 bits in the configuration are enforced as they are, `listen_queue` capped. -/
theorem enforced_uint32 (cfg : Option HttpServer) {l : Limit} (hh : l ≠ .maxRequestHeaders)
    (hb : l ≠ .maxRequestBody) :
    enforced cfg l = if configured cfg l = 0 then none else some (min (configured cfg l) (typeMax l)) := by
  cases cfg with
  | none => cases l <;> first | rfl | contradiction
  | some http =>
    cases l with
    | listenQueue =>
      by_cases hv : configured (some http) .listenQueue = 0
      · have hz : http.listenQueue = 0 := UInt32.toNat_inj.1 hv
        rw [if_pos hv]
        simp [enforced, httpServer, hz]
      · have hz : http.listenQueue ≠ 0 := (ne_zero_iff _).2 hv
        have hcap := toNat_cap http.listenQueue
        have hint := toNatClampNeg_toInt32
          (v := if 2147483647 < http.listenQueue then 2147483647 else http.listenQueue) (by omega)
        rw [if_neg hv]
        simp only [enforced, httpServer, if_pos hz, Option.map_some]
        exact congrArg some (hint.trans hcap)
    | maxConnections => exact map_toNat_set http.maxConnections
    | keepaliveRequests => exact map_toNat_set http.keepaliveRequests
    | maxRequestHeaders => exact absurd rfl hh
    | maxRequestBody => exact absurd rfl hb

/-- A value assigned to a narrower member, or what stands in for 0. -/
theorem toNat_cut (v : UInt64) (d : UInt32) :
    ((if v ≠ 0 then some v.toUInt32 else none).getD d).toNat = if v.toNat = 0 then d.toNat else v.toNat % 2 ^ 32 := by
  by_cases hv : v.toNat = 0
  · rw [if_pos hv, if_neg (not_not.2 (UInt64.toNat_inj.1 hv))]
    rfl
  · rw [if_neg hv, if_pos (mt UInt64.toNat_inj.2 hv)]
    exact UInt64.toNat_toUInt32 v

/-- The limits with 64 bits lose their upper half. -/
theorem enforced_headers (cfg : Option HttpServer) :
    enforced cfg .maxRequestHeaders = if configured cfg .maxRequestHeaders = 0 then some 8192
      else some (configured cfg .maxRequestHeaders % 2 ^ 32) := by
  cases cfg with
  | none => rfl
  | some http =>
    simp only [enforced, newParser_headerLimit, httpServer, toNat_cut]
    exact apply_ite some _ _ _

theorem enforced_body (cfg : Option HttpServer) :
    enforced cfg .maxRequestBody = if configured cfg .maxRequestBody = 0 then some 1048576
      else some (configured cfg .maxRequestBody % 2 ^ 32) := by
  cases cfg with
  | none => rfl
  | some http =>
    simp only [enforced, newParser_bodyLimit, httpServer, Option.map_some, UInt32.toNat_toUInt64, toNat_cut]
    exact apply_ite some _ _ _

/-! ## What the configuration promises -/

/-- `0 = unlimited` (configuration.proto:61-68), and any other value is the limit, as far as the type
it is handed on in goes. -/
structure LimitsKept (cfg : Option HttpServer) : Prop where
  value : ∀ l, enforced cfg l =
    if configured cfg l = 0 then none else some (min (configured cfg l) (typeMax l))
  body : ∀ n, (newParser (httpServer cfg)).rejectsBody n = true ↔
    configured cfg .maxRequestBody ≠ 0 ∧ configured cfg .maxRequestBody < n

/-- The larger of two limits is not enforced as the smaller one. -/
def Ordered (cfg cfg' : Option HttpServer) : Prop :=
  ∀ l a b, configured cfg l ≠ 0 → configured cfg l ≤ configured cfg' l →
    enforced cfg l = some a → enforced cfg' l = some b → a ≤ b

/-- The two limits on requests are given and survive the cut to 32 bits. -/
structure Fits (cfg : Option HttpServer) : Prop where
  headers : configured cfg .maxRequestHeaders ≠ 0 ∧
    (configured cfg .maxRequestHeaders < 2 ^ 32 ∨ configured cfg .maxRequestHeaders % 2 ^ 32 = 2 ^ 32 - 1)
  body : configured cfg .maxRequestBody ≠ 0 ∧ configured cfg .maxRequestBody < 2 ^ 32

theorem LimitsKept.ordered {cfg cfg' : Option HttpServer} (h : LimitsKept cfg) (h' : LimitsKept cfg') :
    Ordered cfg cfg' := by
  intro l a b hne hle ha hb
  have hne' : configured cfg' l ≠ 0 := by omega
  rw [h.value l, if_neg hne] at ha
  rw [h'.value l, if_neg hne'] at hb
  cases ha
  cases hb
  omega

/-- Where the promise is kept, no limit is left to the parser. -/
theorem LimitsKept.given {cfg : Option HttpServer} (h : LimitsKept cfg) :
    configured cfg .maxRequestHeaders ≠ 0 ∧ configured cfg .maxRequestBody ≠ 0 := by
  constructor
  · intro h0
    have hv := h.value .maxRequestHeaders
    rw [enforced_headers, if_pos h0, if_pos h0] at hv
    cases hv
  · intro h0
    have hv := h.value .maxRequestBody
    rw [enforced_body, if_pos h0, if_pos h0] at hv
    cases hv

theorem LimitsKept.fits {cfg : Option HttpServer} (h : LimitsKept cfg) : Fits cfg := by
  obtain ⟨hh0, hb0⟩ := h.given
  refine ⟨⟨hh0, ?_⟩, hb0, ?_⟩
  · have hv := h.value .maxRequestHeaders
    rw [enforced_headers, if_neg hh0, if_neg hh0] at hv
    have hmin : configured cfg .maxRequestHeaders % 2 ^ 32 =
        min (configured cfg .maxRequestHeaders) 4294967295 := Option.some.inj hv
    omega
  · -- a body one byte over the limit in force
    have hrej := (rejectsBody_iff cfg (configured cfg .maxRequestBody % 2 ^ 32 + 1)).2
      ⟨configured cfg .maxRequestBody % 2 ^ 32, by rw [enforced_body, if_neg hb0], by omega⟩
    have hlt := ((h.body _).1 hrej).2
    omega

theorem Fits.kept {cfg : Option HttpServer} (h : Fits cfg) : LimitsKept cfg := by
  obtain ⟨⟨hh0, hh⟩, hb0, hb⟩ := h
  have hbody : enforced cfg .maxRequestBody = some (configured cfg .maxRequestBody) := by
    rw [enforced_body, if_neg hb0, Nat.mod_eq_of_lt hb]
  constructor
  · intro l
    by_cases hl : l = .maxRequestHeaders
    · subst hl
      have hmin : configured cfg .maxRequestHeaders % 2 ^ 32 =
          min (configured cfg .maxRequestHeaders) 4294967295 := by omega
      rw [enforced_headers, if_neg hh0, if_neg hh0, hmin]
      rfl
    · by_cases hl' : l = .maxRequestBody
      · subst hl'
        have hmin : configured cfg .maxRequestBody = min (configured cfg .maxRequestBody) 4294967295 := by omega
        rw [hbody, if_neg hb0]
        exact congrArg some hmin
      · exact enforced_uint32 cfg hl hl'
  · intro n
    rw [rejectsBody_iff, hbody]
    simp [hb0]

/-- **Limits.** What the configuration promises is kept iff both limits on requests are given, the
body limit is below `2^32`, and so is the header limit or else its lower half is all ones. -/
theorem limits_kept (cfg cfg' : Option HttpServer) :
    (LimitsKept cfg ∧ LimitsKept cfg' ∧ Ordered cfg cfg') ↔ Fits cfg ∧ Fits cfg' := by
  constructor
  · rintro ⟨h, h', _⟩
    exact ⟨h.fits, h'.fits⟩
  · rintro ⟨h, h'⟩
    exact ⟨h.kept, h'.kept, h.kept.ordered h'.kept⟩

/-- 4 GiB and a byte for the body. -/
def largeBody : HttpServer := { maxRequestHeaders := 8192, maxRequestBody := 4294967297 }

/-- The limit in force is one byte, less than for a configured limit of two; and "unlimited" is 1 MiB. -/
theorem limits_wrap : ¬ LimitsKept (some largeBody) ∧
    (newParser (httpServer (some largeBody))).rejectsBody 2 = true ∧
    ¬ Ordered (some { largeBody with maxRequestBody := 2 }) (some largeBody) ∧
    ¬ LimitsKept (some { largeBody with maxRequestBody := 0 }) ∧
    (newParser (httpServer (some { largeBody with maxRequestBody := 0 }))).rejectsBody 1048577 = true := by
  refine ⟨?_, by decide, ?_, ?_, by decide⟩
  · intro h
    exact absurd ((h.body 2).1 (by decide)).2 (by decide)
  · intro h
    exact absurd (h .maxRequestBody 2 1 (by decide) (by decide) (by decide) (by decide)) (by decide)
  · intro h
    exact absurd rfl ((h.body 1048577).1 (by decide)).1

end Acppsrv.Http
