import Acppsrv.Http.Transcript
/-!
# How responses are framed (http_server.cpp:255-279, :290-306)

A client finds the end of a response by its Content-Length, and by the close of a connection that was
announced. The responses of handlers get both, and the Server header, from the mutations of :264-271
(`finishResponse`), in an order that counts the body before HEAD drops it. The 413 of the abort path
is written as it is constructed.

`Framed` is said of the log of a connection, `connection_framed` of its runs.
-/
namespace Acppsrv.Http
open Lib

/-- Every final response of a connection can be told from what follows it. -/
structure Framed (cfg : ConnCfg) (sid : Nat) (log : List Ev) : Prop where
  /-- Headers and body of a response, given the one the handler returned. -/
  respond : ∀ i resp, .respond i resp ∈ log → ∃ req r, .body i req ∈ log ∧
    Dispatched Handling.Yields cfg sid i req r ∧
    resp.server = some cfg.headerServer ∧ resp.contentLength = some r.body.length ∧
    resp.body = if req.method = .head then [] else r.body
  /-- A response that was written and is not followed by a read says so. -/
  closes : ∀ i resp, .respond i resp ∈ log → .written i ∈ log → .reading (i + 1) ∉ log → resp.keepAlive = false
  /-- The error response of the abort path, after which nothing is read. -/
  abort : ∀ resp, .abort resp ∈ log → resp.server = some cfg.headerServer ∧
    resp.contentLength = some resp.body.length ∧ resp.keepAlive = false

/-! ## The abort path -/

/-- Whether the events end in the error response. -/
def Aborts (a : Act) (es : List Ev) : Prop :=
  (a.error = some .bodyLimit ∧ .abort tooLarge ∈ es) ∨ (a.error ≠ some .bodyLimit ∧ ∀ resp, .abort resp ∉ es)

theorem aborts_of_error (c : Conn) (stage : Stage) {a : Act} {e : ErrorCode} (ha : a.error = some e) :
    ∃ es, (abortConnection c stage e).log = c.log ++ es ∧ Aborts a es := by
  refine ⟨_, abortConnection_log c stage e, ?_⟩
  by_cases he : e = .bodyLimit
  · rw [if_pos he]
    exact Or.inl ⟨he ▸ ha, by simp⟩
  · rw [if_neg he]
    exact Or.inr ⟨by simp [ha, he], by simp⟩

/-- A step adds the 413 to the log iff its operation failed with `body_limit`. -/
theorem move_aborts {cfg : ConnCfg} {sid : Nat} {st st' : Stat} {c c' : Conn} {a : Act}
    (hm : Move cfg sid st c a st' c') : ∃ es, c'.log = c.log ++ es ∧ Aborts a es := by
  -- no other event is the 413
  have hquiet : a.error = none → (∃ es, c'.log = c.log ++ es ∧ ∀ resp, .abort resp ∉ es) →
      ∃ es, c'.log = c.log ++ es ∧ Aborts a es := by
    rintro ha ⟨es, hlog, hes⟩
    exact ⟨es, hlog, Or.inr ⟨by simp [ha], hes⟩⟩
  cases hm with
  | start | header | continue100 | body | exchange | respond | throw | again | close =>
    exact hquiet rfl ⟨_, rfl, by simp⟩
  | toBody | wrote100 => exact hquiet rfl ⟨[], by simp, by simp⟩
  | chunk => exact hquiet rfl ⟨_, bodyLoop_log _ _ _, by simp⟩
  | load | answer | wrote413 => exact hquiet rfl ⟨[], by simp, by simp⟩
  | abort op h hop ha he => exact aborts_of_error c _ he

/-- What the log has of the abort path, after the actions `as`. -/
structure AbortInv (as : List (Stat × Act)) (c : Conn) : Prop where
  hit : (∃ a ∈ as, a.2.error = some .bodyLimit) → .abort tooLarge ∈ c.log
  miss : (∀ a ∈ as, a.2.error ≠ some .bodyLimit) → ∀ resp, .abort resp ∉ c.log

theorem abortInv_step {as : List (Stat × Act)} {c c' : Conn} {a : Stat × Act} {es : List Ev}
    (hI : AbortInv as c) (hlog : c'.log = c.log ++ es) (ha : Aborts a.2 es) : AbortInv (as ++ [a]) c' := by
  constructor
  · rintro ⟨b, hb, he⟩
    rw [hlog, List.mem_append]
    rcases List.mem_append.1 hb with hb | hb
    · exact Or.inl (hI.hit ⟨b, hb, he⟩)
    · rw [List.mem_singleton.1 hb] at he
      rcases ha with ⟨_, hes⟩ | ⟨hne, _⟩
      · exact Or.inr hes
      · exact absurd he hne
  · intro hne resp
    rw [hlog, List.mem_append]
    rintro (hr | hr)
    · exact hI.miss (fun b hb => hne b (List.mem_append_left _ hb)) resp hr
    · rcases ha with ⟨he, _⟩ | ⟨_, hes⟩
      · exact hne a (by simp) he
      · exact hes resp hr

theorem abortInv_run {cfg : ConnCfg} {sid : Nat} {as : List (Stat × Act)} {c : Conn}
    (h : exec (connStep₁ cfg sid) {} as = some c) : AbortInv as c := by
  refine exec_history AbortInv ⟨by simp, by simp⟩ ?_ h
  intro as c a c' hI hstep
  obtain ⟨⟨st', c''⟩, hm, rfl⟩ := Option.map_eq_some_iff.1 hstep
  obtain ⟨es, hlog, ha⟩ := move_aborts (connStep_move hm)
  exact abortInv_step hI hlog ha

/-! ## The normal path -/

section
variable {cfg : ConnCfg} {sid : Nat} {c : Conn}

/-- Handler responses are framed by `finishResponse`. -/
theorem ConnInv.respond_framed (h : ConnInv cfg sid c) {i : Nat} {resp : Response} (hr : .respond i resp ∈ c.log) :
    ∃ req r, .body i req ∈ c.log ∧ Dispatched Handling.Yields cfg sid i req r ∧
      resp.server = some cfg.headerServer ∧ resp.contentLength = some r.body.length ∧
      resp.body = if req.method = .head then [] else r.body := by
  obtain ⟨a, b, hl⟩ := List.append_of_mem hr
  obtain ⟨_, _, req, _, hbody, ⟨r, hd, hsent⟩, _⟩ := h.past a _ b hl
  exact ⟨req, r, by simp [hl, hbody], hd, by rw [hsent], by rw [hsent], by rw [hsent]⟩

/-- A response flagged keep-alive and written is followed by a read. -/
theorem ConnInv.close_announced (h : ConnInv cfg sid c) {i : Nat} {resp : Response} (hr : .respond i resp ∈ c.log)
    (hw : .written i ∈ c.log) (hn : .reading (i + 1) ∉ c.log) : resp.keepAlive = false := by
  by_contra hk
  exact hn (h.next i resp hr (by simpa using hk) hw)

end

/-- **Framing.** After every run, every final response of the connection has the Server header, the
Content-Length of the body its handler produced, and announces the close it is followed by, iff no
operation of the run failed with `body_limit`. -/
theorem connection_framed (cfg : ConnCfg) (sid : Nat) (as : List (Stat × Act)) (c : Conn)
    (h : exec (connStep₁ cfg sid) {} as = some c) :
    Framed cfg sid c.log ↔ ∀ a ∈ as, a.2.error ≠ some .bodyLimit := by
  have hA := abortInv_run h
  have hC := connInv_run h
  constructor
  · intro hF a ha he
    have hs := (hF.abort tooLarge (hA.hit ⟨a, ha, he⟩)).1
    cases hs
  · intro hne
    constructor
    · intro i resp hr
      exact hC.respond_framed hr
    · intro i resp hr hw hn
      exact hC.close_announced hr hw hn
    · intro resp hr
      exact absurd hr (hA.miss hne resp)

theorem connection_framed_echoTwice : ∃ c,
    exec (connStep₁ echoTwice 7) {} (twoRequests.map fun a => ({}, a)) = some c ∧
    (Framed echoTwice 7 c.log ↔ ∀ a ∈ twoRequests.map fun a => (({} : Stat), a), a.2.error ≠ some .bodyLimit) ∧
    (responses c.log).map (·.contentLength) = [some 3, some 17] := by
  have hrun : ((exec (connStep₁ echoTwice 7) {} (twoRequests.map fun a => ({}, a))).map fun c =>
      (responses c.log).map (·.contentLength)) = some [some 3, some 17] := by decide
  obtain ⟨c, hc, hr⟩ := Option.map_eq_some_iff.1 hrun
  exact ⟨c, hc, connection_framed echoTwice 7 _ c hc, hr⟩

/-- A client that announces a body over the limit. -/
def oversized : List (Stat × Act) := [({}, .run), ({}, .header (.error .bodyLimit))]

/-- The 413 has neither Server nor Content-Length and leaves the client to wait for more. -/
theorem payload_too_large_unframed : ∃ c, exec (connStep₁ echoTwice 7) {} oversized = some c ∧
    .abort ⟨.payloadTooLarge, none, none, none, true, []⟩ ∈ c.log ∧ ¬ Framed echoTwice 7 c.log := by
  have hlog : ((exec (connStep₁ echoTwice 7) {} oversized).map (·.log)) = some
      [.started, .reading 1, .failed .readRequestHeaders .bodyLimit,
        .abort ⟨.payloadTooLarge, none, none, none, true, []⟩] := by decide
  obtain ⟨c, hc, hl⟩ := Option.map_eq_some_iff.1 hlog
  refine ⟨c, hc, by simp [hl], ?_⟩
  intro hF
  have hs := (hF.abort ⟨.payloadTooLarge, none, none, none, true, []⟩ (by simp [hl])).1
  cases hs

end Acppsrv.Http
