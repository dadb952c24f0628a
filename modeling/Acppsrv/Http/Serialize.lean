import Acppsrv.Lib.Locals
import Acppsrv.Http.Call
/-!
# What a 200 promises (`http_handler::serialize`, http_server_impl.hpp:58-100)

Both callers of `serialize` ignore its result and return the response it was given, so the response
itself has to tell a failure: by the error status and text of `serializeError`. The refused Accept
does (:93); a failed printer does not, its `error_response` is made and dropped (:78, :87), and
what the printer left in the body goes out with the 200 of the caller.

`Reported` is the contract, `Prints` the condition under which it is kept; `DbAnswers` and
`StatAnswers` are the same at the two handlers.
-/
namespace Acppsrv.Http
open Lib

section
variable {M : Type}

/-- The error response made for a failed printer (:74-80, :85-89). -/
def printFailure (enc : Encoder M) (f : Format) (data : M) : Response :=
  match f with
  | .json => errorResponse .internalServerError
      (statusText "Cannot serialize response to JSON" ((enc.json data).2.getD (0, [])))
  | .protobuf => errorResponse .internalServerError (ascii "Cannot serialze response to protobuf")

/-- The error response of a `serialize` that fails. -/
def serializeError (enc : Encoder M) (request : Request) (data : M) : Response :=
  match formatOf request false with
  | none => notAcceptable
  | some f => printFailure enc f data

/-- The body is all of `data`, in the negotiated format. -/
def Complete (enc : Encoder M) (request : Request) (data : M) (r : Response) : Prop :=
  ∃ f, formatOf request false = some f ∧ enc.print f data = (r.body, true)

/-- The printer of the negotiated format succeeds, if there is one. -/
def Prints (enc : Encoder M) (request : Request) (data : M) : Prop :=
  ∀ f, formatOf request false = some f → (enc.print f data).2 = true

/-- What the response left by `serialize` tells its reader, for a caller that comes with a 200. -/
structure Reported (enc : Encoder M) (request : Request) (data : M) : Prop where
  failed : ∀ response, response.status = .ok → (serialize enc request data response).1 = false →
    (serialize enc request data response).2.status = (serializeError enc request data).status ∧
    (serialize enc request data response).2.body = (serializeError enc request data).body
  complete : ∀ response, response.status = .ok → (serialize enc request data response).2.status = .ok →
    Complete enc request data (serialize enc request data response).2

/-! ## Success and failure -/

theorem serializeError_status (enc : Encoder M) (request : Request) (data : M) :
    (serializeError enc request data).status = .notAcceptable ∨
      (serializeError enc request data).status = .internalServerError := by
  unfold serializeError printFailure
  split
  · exact Or.inl rfl
  · split
    · exact Or.inr rfl
    · exact Or.inr rfl

theorem serializeError_ne_ok (enc : Encoder M) (request : Request) (data : M) :
    (serializeError enc request data).status ≠ .ok := by
  intro h
  rcases serializeError_status enc request data with hs | hs
  · rw [hs] at h; cases h
  · rw [hs] at h; cases h

/-- A 200 left behind is complete iff no printer failed. -/
theorem complete_iff {enc : Encoder M} {request : Request} {data : M} (response : Response)
    (hs : response.status = .ok) :
    ((serialize enc request data response).2.status = .ok →
      Complete enc request data (serialize enc request data response).2) ↔ Prints enc request data := by
  rw [serialize_eq]
  constructor
  · intro hc f hf
    -- the status is the one of the caller, whatever the printer did
    rw [hf] at hc
    obtain ⟨f', hf', hprint⟩ := hc hs
    obtain rfl : f = f' := Option.some.inj (hf.symm.trans hf')
    rw [hprint]
  · intro hprints hok
    cases hf : formatOf request false with
    | none =>
      rw [hf] at hok
      cases hok
    | some f => exact ⟨f, hf, Prod.ext rfl (hprints f hf)⟩

theorem reported_iff (enc : Encoder M) (request : Request) (data : M) :
    Reported enc request data ↔ Prints enc request data := by
  constructor
  · intro h
    exact (complete_iff okResponse rfl).1 (h.complete okResponse rfl)
  · intro hprints
    refine ⟨?_, fun response hs => (complete_iff response hs).2 hprints⟩
    intro response _ hfail
    rw [serialize_eq] at hfail ⊢
    cases hf : formatOf request false with
    | none =>
      have herr : serializeError enc request data = notAcceptable := by
        unfold serializeError
        rw [hf]
      rw [herr]
      exact ⟨rfl, rfl⟩
    | some f =>
      rw [hf] at hfail
      have hok : (enc.print f data).2 = true := hprints f hf
      exact absurd (hfail.symm.trans hok) (by decide)

end

/-! ## The handlers -/

/-- A 200 of `/db` carries the whole answer to the query. -/
def DbAnswers (dec : Decoder Db.Request) (enc : Encoder Db.Response) (request : Request)
    (ans : Db.Request → Db.Response) : Prop :=
  ∀ sid reqN st st' r, (dbHandleAsync dec enc request sid reqN).eval ans st = (st', some r) → r.status = .ok →
    ∃ inp, (parse dec request).1 = some inp ∧ Complete enc request (ans inp) r

/-- A 200 of `/stat` carries the counters as the handler found them. -/
def StatAnswers (dec : Decoder StatRequest) (enc : Encoder StatResponse) (request : Request) (st : Stat) : Prop :=
  ∀ sid reqN ans st' r, (statHandleSync dec enc request sid reqN).eval ans st = (st', some r) → r.status = .ok →
    ∃ inp, (parse dec request).1 = some inp ∧ Complete enc request st.values r

theorem errorStatus_ne_ok {status : Status} (h : 400 ≤ status.code) : status ≠ .ok := by
  rintro rfl
  exact absurd h (by decide)

theorem dbAnswers_iff (dec : Decoder Db.Request) (enc : Encoder Db.Response) (request : Request)
    (ans : Db.Request → Db.Response) : DbAnswers dec enc request ans ↔
      ∀ inp, (parse dec request).1 = some inp → Prints enc request (ans inp) := by
  rcases parse_cases dec request with ⟨inp, hp⟩ | ⟨status, msg, hp, hst⟩
  · constructor
    · intro h inp' hi
      obtain rfl : inp = inp' := by simpa [hp] using hi
      refine (complete_iff okResponse rfl).1 ?_
      intro hok
      obtain ⟨inp', hi', hc⟩ := h 0 0 {} _ _ (dbHandleAsync_eval hp enc 0 0 ans {}) hok
      obtain rfl : inp = inp' := by simpa [hp] using hi'
      exact hc
    · intro h sid reqN st st' r he hok
      rw [dbHandleAsync_eval hp] at he
      cases he
      exact ⟨inp, by simp [hp], (complete_iff okResponse rfl).2 (h inp (by simp [hp])) hok⟩
  · constructor
    · intro _ inp hi
      simp [hp] at hi
    · intro _ sid reqN st st' r he hok
      rw [dbHandleAsync_error hp] at he
      cases he
      exact absurd hok (errorStatus_ne_ok hst)

theorem statAnswers_iff (dec : Decoder StatRequest) (enc : Encoder StatResponse) (request : Request) (st : Stat) :
    StatAnswers dec enc request st ↔
      ((parse dec request).1.isSome = true → Prints enc request st.values) := by
  rcases parse_cases dec request with ⟨inp, hp⟩ | ⟨status, msg, hp, hst⟩
  · constructor
    · intro h _
      refine (complete_iff okResponse rfl).1 ?_
      intro hok
      obtain ⟨_, _, hc⟩ := h 0 0 (fun _ => {}) _ _ (statHandleSync_eval hp enc 0 0 _ st) hok
      exact hc
    · intro h sid reqN ans st' r he hok
      rw [statHandleSync_eval hp] at he
      cases he
      exact ⟨inp, by simp [hp], (complete_iff okResponse rfl).2 (h (by simp [hp])) hok⟩
  · constructor
    · intro _ hi
      simp [hp] at hi
    · intro _ sid reqN ans st' r he hok
      rw [statHandleSync_error hp] at he
      cases he
      exact absurd hok (errorStatus_ne_ok hst)

/-- **A 200 is the whole message.** `serialize`, `/db` and `/stat` tell every failure by an error
response, and so answer 200 with complete messages only, iff the printer of the negotiated format
does not fail. -/
theorem serialize_reported {M : Type} (enc : Encoder M) (data : M) (decD : Decoder Db.Request)
    (encD : Encoder Db.Response) (ans : Db.Request → Db.Response) (decS : Decoder StatRequest)
    (encS : Encoder StatResponse) (st : Stat) (request : Request) :
    (Reported enc request data ↔ Prints enc request data) ∧
    (DbAnswers decD encD request ans ↔ ∀ inp, (parse decD request).1 = some inp → Prints encD request (ans inp)) ∧
    (StatAnswers decS encS request st ↔
      ((parse decS request).1.isSome = true → Prints encS request st.values)) :=
  ⟨reported_iff enc request data, dbAnswers_iff decD encD request ans, statAnswers_iff decS encS request st⟩

def valueBlobBytes : Db.Value → Nat
  | .vBlob b => b.length
  | _ => 0

/-- The bytes of the blobs in a `/db` response. -/
def blobBytes (r : Db.Response) : Nat := total valueBlobBytes r.rows.flatten

/-- The binary printer refuses a message of more than `INT_MAX` bytes and leaves nothing of it. -/
def limitedEncoder : Encoder Db.Response where
  json _ := ([], some (13, []))
  binary r := if blobBytes r ≤ 2147483647 then ([8, 1], true) else ([], false)

def zeroblob (n : Nat) : Bytes := List.replicate n 0

/-- The answer to `SELECT zeroblob(n) FROM t`, a table of `k` rows. -/
def blobRows (k n : Nat) : Db.Response := { ok := true, rows := List.replicate k [.vBlob (zeroblob n)] }

def blobRequest : Request := ⟨.post, "/db", true, none, some "application/protobuf", none, []⟩

theorem blobBytes_rows (k n : Nat) : blobBytes (blobRows k n) = k * n := by
  simp only [blobBytes, blobRows]
  induction k with
  | zero => simp
  | succ k ih =>
    rw [List.replicate_succ, List.flatten_cons, total_append, ih]
    simp [valueBlobBytes, zeroblob, Nat.succ_mul, Nat.add_comm]

theorem limitedEncoder_fails (k n : Nat) (h : 2147483647 < k * n) :
    limitedEncoder.print .protobuf (blobRows k n) = ([], false) := by
  have hsize : ¬ blobBytes (blobRows k n) ≤ 2147483647 := by
    rw [blobBytes_rows]; omega
  simp only [Encoder.print, limitedEncoder]
  rw [if_neg hsize]

/-- Three blobs of a gigabyte, the largest SQLite makes: an empty 200. -/
theorem printer_failure_hidden : ¬ Reported limitedEncoder blobRequest (blobRows 3 1000000000) ∧
    serialize limitedEncoder blobRequest (blobRows 3 1000000000) okResponse = (false, okResponse) := by
  have hf : formatOf blobRequest false = some .protobuf := by decide
  have hp := limitedEncoder_fails 3 1000000000 (by decide)
  have hs : serialize limitedEncoder blobRequest (blobRows 3 1000000000) okResponse = (false, okResponse) := by
    rw [serialize_eq, hf]
    simp only [encodeAs, hp]
    rfl
  refine ⟨?_, hs⟩
  intro h
  have hstatus := (h.failed okResponse rfl (by rw [hs])).1
  rw [hs] at hstatus
  exact serializeError_ne_ok limitedEncoder blobRequest _ hstatus.symm

end Acppsrv.Http
