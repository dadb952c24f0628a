import Acppsrv.Http.Handler
/-!
# Which format is spoken (http_server.cpp:398-434, http_server_impl.hpp)

`parse` and `serialize` both ask `json_body` first and `protobuf_body` second. `formatOf` is what the
two answers come to, and all that `parse` and `serialize` do with them (`parse_eq`, `serialize_eq`):
decode or encode in one format (`decodeAs`, `encodeAs`), or refuse.

For a request it is the format its Content-Type names. For a response it is the format Accept names,
and Content-Type stands in for an Accept that leaves the choice to the server: absent, empty, `*` or
`*/*` (:404). `protobuf_body` has the first two cases only (`formatOf_response`).
-/
namespace Acppsrv.Http

inductive Format where
  | json
  | protobuf
  deriving DecidableEq, Repr

/-- `content_type_json`, `content_type_protobuf` (http_server.hpp:91). -/
def Format.mediaTypes : Format → List String
  | .json => contentTypeJson
  | .protobuf => contentTypeProtobuf

/-- `ct` is a media type of the format, in any letter case. -/
def Format.names (f : Format) (ct : String) : Bool := f.mediaTypes.any (iequals ct ·)

/-- The format a header value names. -/
def formatNamed (ct : String) : Option Format :=
  if Format.json.names ct then some .json else if Format.protobuf.names ct then some .protobuf else none

/-- What `parse` (`isReq`) and `serialize` make of `json_body` and `protobuf_body`. -/
def formatOf (request : Request) (isReq : Bool) : Option Format :=
  if (jsonBody request isReq).1 then some .json
  else if (protobufBody request isReq).1 then some .protobuf else none

/-- A body read in a format. -/
def decodeAs {M : Type} (f : Format) (dec : Decoder M) (body : Bytes) : Option M × Response :=
  match f with
  | .json =>
    match dec.json body with
    | .error err => (none, errorResponse .badRequest (statusText "Cannot parse JSON request" err))
    | .ok parsed => (some parsed, okResponse)
  | .protobuf =>
    match dec.binary body with
    | none => (none, errorResponse .badRequest (ascii "Cannot parse protobuf request"))
    | some parsed => (some parsed, okResponse)

/-- The printer of a format: what it leaves in the output string and whether it succeeded. -/
def Encoder.print {M : Type} (enc : Encoder M) (f : Format) (data : M) : Bytes × Bool :=
  match f with
  | .json => ((enc.json data).1, (enc.json data).2.isNone)
  | .protobuf => enc.binary data

/-- A response written in a format: its body is the output string. -/
def encodeAs {M : Type} (f : Format) (enc : Encoder M) (data : M) (response : Response) : Bool × Response :=
  ((enc.print f data).2, { response with body := (enc.print f data).1 })

/-- The answer to an Accept the server cannot serve. -/
def notAcceptable : Response :=
  errorResponse .notAcceptable (ascii "Unsupported Content-Type requested by client for response")

/-- The answer to a Content-Type the server cannot read. -/
def unsupported : Response := errorResponse .unsupportedMediaType (ascii "Unsupported Content-Type")

/-! ## `parse` and `serialize` by format -/

theorem parse_eq {M : Type} (dec : Decoder M) (request : Request) :
    parse dec request = match formatOf request true with
      | none => (none, unsupported)
      | some f => decodeAs f dec request.body := by
  unfold parse formatOf
  split
  · rfl
  · split <;> rfl

theorem serialize_eq {M : Type} (enc : Encoder M) (request : Request) (data : M) (response : Response) :
    serialize enc request data response = match formatOf request false with
      | none => (false, notAcceptable)
      | some f => encodeAs f enc data response := by
  unfold serialize formatOf
  split
  · rcases h : enc.json data with ⟨out, err⟩
    cases err <;> simp [encodeAs, Encoder.print, h]
  · split
    · rcases h : enc.binary data with ⟨out, ok⟩
      cases ok <;> simp [encodeAs, Encoder.print, h]
    · rfl

/-! ## The format named by a header -/

theorem names_lower {f : Format} {ct : String} :
    f.names ct = true ↔ ∃ t ∈ f.mediaTypes, ct.toList.map Char.toLower = t.toList.map Char.toLower := by
  simp [Format.names, iequals]

/-- No media type is in both lists. -/
theorem names_unique {f g : Format} {ct : String} (hf : f.names ct = true) (hg : g.names ct = true) : f = g := by
  have hdisj : ∀ s ∈ contentTypeJson, ∀ t ∈ contentTypeProtobuf,
      s.toList.map Char.toLower ≠ t.toList.map Char.toLower := by decide
  obtain ⟨s, hs, hcs⟩ := names_lower.1 hf
  obtain ⟨t, ht, hct⟩ := names_lower.1 hg
  have hst := hcs.symm.trans hct
  cases f <;> cases g
  · rfl
  · exact absurd hst (hdisj s hs t ht)
  · exact absurd hst.symm (hdisj t ht s hs)
  · rfl

theorem formatNamed_eq_some {ct : String} {f : Format} : formatNamed ct = some f ↔ f.names ct = true := by
  unfold formatNamed
  constructor
  · intro h
    split at h
    · cases h; assumption
    · split at h
      · cases h; assumption
      · cases h
  · intro h
    cases f with
    | json => simp [h]
    | protobuf =>
      have hj : Format.json.names ct = false := by
        by_contra hj
        cases names_unique (by simpa using hj) h
      simp [h, hj]

theorem formatNamed_eq_none {ct : String} : formatNamed ct = none ↔ ∀ f : Format, f.names ct = false := by
  rw [Option.eq_none_iff_forall_ne_some]
  constructor
  · intro h f
    have := mt formatNamed_eq_some.2 (h f)
    simpa using this
  · intro h f hf
    rw [formatNamed_eq_some, h f] at hf
    cases hf

/-! ## The format of a request and of its response -/

/-- An Accept that takes any media type. -/
def Wildcard (accept : String) : Prop := accept = "*" ∨ accept = "*/*"

instance (accept : String) : Decidable (Wildcard accept) := inferInstanceAs (Decidable (_ ∨ _))

/-- An Accept that leaves the choice to the server. -/
def AnyFormat (request : Request) : Prop := request.accept.getD "" = "" ∨ Wildcard (request.accept.getD "")

instance (request : Request) : Decidable (AnyFormat request) := inferInstanceAs (Decidable (_ ∨ _))

theorem formatOf_request (request : Request) :
    formatOf request true = formatNamed (request.contentType.getD "") := rfl

theorem wildcard_ne {accept : String} (h : Wildcard accept) : accept ≠ "" := by
  rcases h with rfl | rfl
  · decide
  · decide

theorem wildcard_names {accept : String} (h : Wildcard accept) (f : Format) : f.names accept = false := by
  rcases h with rfl | rfl
  · cases f <;> decide
  · cases f <;> decide

theorem jsonBody_response (request : Request) :
    (jsonBody request false).1 = Format.json.names
      (if AnyFormat request then request.contentType.getD "" else request.accept.getD "") := by
  simp only [jsonBody, AnyFormat, Wildcard, Format.names, Format.mediaTypes]
  by_cases he : request.accept.getD "" = ""
  · simp [he]
  · by_cases hw : request.accept.getD "" = "*" ∨ request.accept.getD "" = "*/*"
    · simp [hw]
    · simp [he, hw]

/-- The sibling treats a wildcard as a media type like any other. -/
theorem protobufBody_response (request : Request) :
    (protobufBody request false).1 = Format.protobuf.names
      (if request.accept.getD "" = "" then request.contentType.getD "" else request.accept.getD "") := by
  simp only [protobufBody, Format.names, Format.mediaTypes]
  by_cases he : request.accept.getD "" = ""
  · simp [he]
  · simp [he]

/-- **The format of a response.** Behind a wildcard, only a JSON request gets an answer. -/
theorem formatOf_response (request : Request) :
    formatOf request false =
      if request.accept.getD "" = "" then formatNamed (request.contentType.getD "")
      else if Wildcard (request.accept.getD "") then
        if Format.json.names (request.contentType.getD "") then some .json else none
      else formatNamed (request.accept.getD "") := by
  simp only [formatOf, jsonBody_response, protobufBody_response, AnyFormat]
  by_cases he : request.accept.getD "" = ""
  · simp [he, formatNamed]
  · by_cases hw : Wildcard (request.accept.getD "")
    · simp [he, hw, wildcard_names hw]
    · simp [he, hw, formatNamed]

/-! ## Requests and responses in one format -/

/-- What a client can expect of the headers of a request it sends. -/
structure Negotiated (request : Request) : Prop where
  /-- Whoever leaves the choice to the server is answered in the format of the request. -/
  same : AnyFormat request → ∀ f : Format, f.names (request.contentType.getD "") = true →
    ∀ {M N : Type} (dec : Decoder M) (enc : Encoder N) (data : N) (response : Response),
      parse dec request = decodeAs f dec request.body ∧
      serialize enc request data response = encodeAs f enc data response ∧
      (serialize enc request data response).2.status = response.status
  /-- Any other Accept decides, whatever the Content-Type. -/
  accept : ¬ AnyFormat request → ∀ {N : Type} (enc : Encoder N) (data : N) (response : Response),
    (∀ f : Format, f.names (request.accept.getD "") = true →
      serialize enc request data response = encodeAs f enc data response) ∧
    ((∀ f : Format, f.names (request.accept.getD "") = false) →
      serialize enc request data response = (false, notAcceptable))

theorem explicit_accept {request : Request} (h : ¬ AnyFormat request) {N : Type} (enc : Encoder N) (data : N)
    (response : Response) :
    (∀ f : Format, f.names (request.accept.getD "") = true →
      serialize enc request data response = encodeAs f enc data response) ∧
    ((∀ f : Format, f.names (request.accept.getD "") = false) →
      serialize enc request data response = (false, notAcceptable)) := by
  obtain ⟨he, hw⟩ := not_or.1 h
  have hf : formatOf request false = formatNamed (request.accept.getD "") := by
    rw [formatOf_response, if_neg he, if_neg hw]
  rw [serialize_eq, hf]
  constructor
  · intro f hn
    rw [formatNamed_eq_some.2 hn]
  · intro hn
    rw [formatNamed_eq_none.2 hn]

/-- Content-Type decides over a missing Accept always, over a wildcard for JSON. -/
theorem formatOf_any {request : Request} {f : Format} (ha : AnyFormat request)
    (hf : f.names (request.contentType.getD "") = true)
    (hw : ¬ (Format.protobuf.names (request.contentType.getD "") = true ∧ Wildcard (request.accept.getD ""))) :
    formatOf request false = some f := by
  rw [formatOf_response]
  rcases ha with he | hwild
  · rw [if_pos he]
    exact formatNamed_eq_some.2 hf
  · rw [if_neg (wildcard_ne hwild), if_pos hwild]
    cases f with
    | json => rw [if_pos hf]
    | protobuf => exact absurd ⟨hf, hwild⟩ hw

/-- **Content negotiation.** A request is treated as its headers say unless it is a protobuf request
with a wildcard for Accept: that one is decoded and its answer refused. -/
theorem negotiation (request : Request) : Negotiated request ↔
    ¬ (Format.protobuf.names (request.contentType.getD "") = true ∧ Wildcard (request.accept.getD "")) := by
  constructor
  · rintro h ⟨hp, hw⟩
    have hj : Format.json.names (request.contentType.getD "") = false := by
      by_contra hj
      cases names_unique (by simpa using hj) hp
    have hf : formatOf request false = none := by
      rw [formatOf_response, if_neg (wildcard_ne hw), if_pos hw]
      simp [hj]
    -- a printer that succeeds would have to be used
    have hsame := (h.same (Or.inr hw) .protobuf hp
      (⟨fun _ => .ok (), fun _ => some ()⟩ : Decoder Unit) (⟨fun _ => ([], none), fun _ => ([], true)⟩ : Encoder Unit)
      () okResponse).2.1
    rw [serialize_eq, hf] at hsame
    have h1 := congrArg Prod.fst hsame
    cases h1
  · intro hw
    constructor
    · intro ha f hf M N dec enc data response
      have hreq : formatOf request true = some f := (formatOf_request request).trans (formatNamed_eq_some.2 hf)
      have hresp : formatOf request false = some f := formatOf_any ha hf hw
      rw [parse_eq, serialize_eq, hreq, hresp]
      exact ⟨rfl, rfl, rfl⟩
    · intro ha N enc data response
      exact explicit_accept ha enc data response

/-- A protobuf request of a client that accepts anything, the default of most clients. -/
def wildcardRequest : Request :=
  ⟨.post, "/db", true, none, some "application/x-protobuf", some "*/*", []⟩

/-- It is decoded as protobuf, and its answer is a 406, where the JSON request gets one. -/
theorem wildcard_refused : ¬ Negotiated wildcardRequest ∧
    formatOf wildcardRequest true = some .protobuf ∧
    (∀ (N : Type) (enc : Encoder N) (data : N),
      serialize enc wildcardRequest data okResponse = (false, notAcceptable)) ∧
    formatOf { wildcardRequest with contentType := some "application/json" } false = some .json := by
  have hp : Format.protobuf.names "application/x-protobuf" = true := by decide
  have hnone : formatOf wildcardRequest false = none := by decide
  refine ⟨?_, by decide, ?_, by decide⟩
  · intro h
    have hsame := (h.same (Or.inr (Or.inr rfl)) .protobuf hp
      (⟨fun _ => .ok (), fun _ => some ()⟩ : Decoder Unit) (⟨fun _ => ([], none), fun _ => ([], true)⟩ : Encoder Unit)
      () okResponse).2.2
    rw [serialize_eq, hnone] at hsame
    cases hsame
  · intro N enc data
    rw [serialize_eq, hnone]

end Acppsrv.Http
