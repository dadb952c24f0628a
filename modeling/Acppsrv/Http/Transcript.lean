import Acppsrv.Http.Received
/-!
# What one connection does, request by request

`Transcript cfg sid acts c` says what a connection may have done when `acts` are the completions it
was resumed by, in its own terms: requests are numbered in the order they are read, each is answered at
most once and before the next is read, by the handler of its target, which is called with the bytes
that were read, the keep-alive limit is exact, an I/O error ends everything but the 413, and the connection
goes on until one of these ends it.
`connection_transcript` proves it of every run of `handle_connection`.

The invariant `ConnInv` has one part that only looks back from each event (`Good`, carried by
`Past`) and one that ties the place of the coroutine to the end of the log (`Link`).
-/
namespace Acppsrv.Http
open Lib

/-- The headers read, in order. -/
def headers : List Ev → List Request :=
  List.filterMap fun
    | .header _ req => some req
    | _ => none

/-- The final handler responses written, in order. -/
def responses : List Ev → List Response :=
  List.filterMap fun
    | .respond _ resp => some resp
    | _ => none

/-- The request an event after its header belongs to. -/
def Ev.part : Ev → Option Nat
  | .continue100 i _ | .chunk i | .body i _ | .respond i _ | .written i | .threw i => some i
  | _ => none

/-- The last event of a connection is one of these. -/
def Ev.ends : Ev → Bool
  | .written _ | .failed _ _ | .abort _ | .threw _ => true
  | _ => false

/-- `req` is the request whose header is `req0`, with its body. -/
def Completes (req0 req : Request) : Prop := ∃ body, req = { req0 with body := body }

/-- The response to request `i`, as far as `handlers` and the request decide it: of the handler of its
target, which is called in its own way and may yield (`Y`) `r`, or the error without one. -/
def Dispatched (Y : Handling → Response → Prop) (cfg : ConnCfg) (sid i : Nat) (req : Request) (r : Response) : Prop :=
  match cfg.handlers req.target with
  | some h => (h.async = true ∧ Y (h.handleAsync req sid i) r) ∨ (h.async = false ∧ Y (h.handleSync req sid i) r)
  | none => r = { status := .badRequest, contentType := some "text/plain", body := ascii "Unknown URI path\n" }

/-- `resp` is what is sent of `r`: the length is of its body, which HEAD drops. -/
def Sent (cfg : ConnCfg) (req : Request) (r resp : Response) : Prop :=
  resp = { r with
    contentLength := some r.body.length
    body := if req.method = .head then [] else r.body
    server := some cfg.headerServer
    keepAlive := resp.keepAlive }

/-- `resp` answers request `i`, which is `req`: it was read to the end, its handler was called with it. -/
def Answers (cfg : ConnCfg) (sid : Nat) (past : List Ev) (i : Nat) (req : Request) (resp : Response) : Prop :=
  (∃ req0, .header i req0 ∈ past ∧ Completes req0 req) ∧ .body i req ∈ past ∧
    (∃ r, Dispatched Handling.Yields cfg sid i req r ∧ Sent cfg req r resp) ∧
    (resp.keepAlive = true ↔
      req.keepAlive = true ∧ ∀ k, cfg.keepaliveRequests = some k → i < k.toNat)

/-- The behaviour of a connection. -/
structure Transcript (cfg : ConnCfg) (sid : Nat) (acts : List Act) (c : Conn) : Prop where
  /-- The log and the completions tell the same. -/
  told : Told acts c
  /-- The `i`-th header is read after `i - 1` responses, and there are at most `k` of them. -/
  header : ∀ a i req b, c.log = a ++ .header i req :: b →
    (headers a).length + 1 = i ∧ (responses a).length + 1 = i ∧ a.getLast? = some (.reading i)
  limit : ∀ k, cfg.keepaliveRequests = some k → (headers c.log).length ≤ k.toNat
  /-- A 100-continue directly follows a header that expects it, before anything of the body. -/
  continue100 : ∀ a i resp b, c.log = a ++ .continue100 i resp :: b →
    (∃ req, a.getLast? = some (.header i req) ∧ iequals (req.expect.getD "") "100-continue" = true) ∧
      (∀ e ∈ a, e.part ≠ some i) ∧ resp = { status := .continue_, server := some cfg.headerServer }
  /-- The `i`-th response written answers the `i`-th request that came in, and this one is complete. -/
  respond : ∀ a i resp b, c.log = a ++ .respond i resp :: b →
    (responses a).length + 1 = i ∧ (headers a).length = i ∧
      ∃ req, (received acts)[i - 1]? = some (req, true) ∧ Answers cfg sid a i req resp
  /-- Request `i + 1` is read iff response `i` was flagged keep-alive and written. -/
  reading : ∀ i, 0 < i →
    (.reading (i + 1) ∈ c.log ↔
      ∃ resp, .respond i resp ∈ c.log ∧ resp.keepAlive = true ∧ .written i ∈ c.log)
  /-- Nothing follows an error but the one 413, and that iff the error is `body_limit`. -/
  failed : ∀ a stage e b, c.log = a ++ .failed stage e :: b →
    b = if e = .bodyLimit then [.abort { status := .payloadTooLarge }] else []
  abort : ∀ a resp b, c.log = a ++ .abort resp :: b → ∃ a' stage, a = a' ++ [.failed stage .bodyLimit]
  /-- The connection never stops before a response, an error or an exception ends it. -/
  ended : c.pc = .left → ∃ e, c.log.getLast? = some e ∧ e.ends = true
  goesOn : c.pc ≠ .left → GoesOn cfg sid c

/-! ## Lists of events -/

@[simp] theorem headers_append (a b : List Ev) : headers (a ++ b) = headers a ++ headers b := by
  simp [headers]

@[simp] theorem responses_append (a b : List Ev) : responses (a ++ b) = responses a ++ responses b := by
  simp [responses]

@[simp] theorem headers_nil : headers [] = [] := rfl
@[simp] theorem responses_nil : responses [] = [] := rfl

@[simp] theorem headers_cons (e : Ev) (l : List Ev) :
    headers (e :: l) = (match e with | .header _ req => [req] | _ => []) ++ headers l := by
  cases e <;> rfl

@[simp] theorem responses_cons (e : Ev) (l : List Ev) :
    responses (e :: l) = (match e with | .respond _ resp => [resp] | _ => []) ++ responses l := by
  cases e <;> rfl

/-! ## The response -/

/-- What `callHandler` calls. -/
theorem dispatched_iff {Y : Handling → Response → Prop} (hY : ∀ r r', Y (.ret r) r' ↔ r' = r) (cfg : ConnCfg)
    (sid i : Nat) (req : Request) (r : Response) :
    Dispatched Y cfg sid i req r ↔ Y (callHandler cfg sid i req) r := by
  unfold Dispatched callHandler
  cases cfg.handlers req.target with
  | none =>
    have htext : errorResponse .badRequest (ascii "Unknown URI path") =
        { status := .badRequest, contentType := some "text/plain", body := ascii "Unknown URI path\n" } := by decide
    rw [hY, htext]
  | some h => cases hasync : h.async <;> simp [hasync]

theorem yields_ret (r r' : Response) : (Handling.ret r).Yields r' ↔ r' = r := by
  constructor
  · intro h
    cases h
    rfl
  · rintro rfl
    exact .ret _

theorem sent_finishResponse (cfg : ConnCfg) (req : Request) (i : Nat) (r : Response) :
    Sent cfg req r (finishResponse cfg req i r) := rfl

/-! ## The invariant -/

/-- What an event needs of the events before it. -/
def Good (cfg : ConnCfg) (sid : Nat) (a : List Ev) : Ev → Prop
  | .reading i => i = 1 ∨ ∃ j resp a', i = j + 1 ∧ a = a' ++ [.respond j resp, .written j] ∧
      resp.keepAlive = true
  | .header i _ => (headers a).length + 1 = i ∧ (responses a).length + 1 = i ∧ a.getLast? = some (.reading i)
  | .continue100 i resp =>
    (∃ req, a.getLast? = some (.header i req) ∧ iequals (req.expect.getD "") "100-continue" = true) ∧
      (∀ e ∈ a, e.part ≠ some i) ∧ resp = { status := .continue_, server := some cfg.headerServer }
  | .respond i resp =>
    (responses a).length + 1 = i ∧ (headers a).length = i ∧ ∃ req, Answers cfg sid a i req resp
  | .written i => ∃ a' resp, a = a' ++ [.respond i resp]
  | .abort _ => ∃ a' stage, a = a' ++ [.failed stage .bodyLimit]
  | _ => True

/-- No operation failed so far. -/
def Clean (log : List Ev) : Prop := ∀ stage e, .failed stage e ∉ log

/-- The request in hand: its header is the last one read and no response to it was written. -/
def InHand (c : Conn) (req : Request) : Prop :=
  (responses c.log).length + 1 = c.reqN ∧ Clean c.log ∧
    ∃ req0, .header c.reqN req0 ∈ c.log ∧ Completes req0 req

/-- The place of the coroutine and the end of its log. -/
def Link (cfg : ConnCfg) (sid : Nat) (c : Conn) : Prop :=
  match c.pc with
  | .spawned => c.log = [] ∧ c.reqN = 0
  | .readHeader => (responses c.log).length = c.reqN ∧ Clean c.log ∧
      (∀ k, cfg.keepaliveRequests = some k → c.reqN < k.toNat) ∧ c.log.getLast? = some (.reading (c.reqN + 1))
  | .gotHeader req _ => InHand c req ∧ c.log.getLast? = some (.header c.reqN req) ∧
      ∀ e ∈ c.log, e.part ≠ some c.reqN
  | .write100 req _ => InHand c req
  | .readBody req => InHand c req
  | .gotBody req => InHand c req
  | .handling req h => InHand c req ∧ .body c.reqN req ∈ c.log ∧
      ∀ r, h.Yields r → Dispatched Handling.Yields cfg sid c.reqN req r
  | .writing resp => (responses c.log).length = c.reqN ∧ Clean c.log ∧
      (∃ a, c.log = a ++ [.respond c.reqN resp]) ∧
      (resp.keepAlive = true → ∀ k, cfg.keepaliveRequests = some k → c.reqN < k.toNat)
  | .write413 => ∃ resp, c.log.getLast? = some (.abort resp)
  | .left => ∃ e, c.log.getLast? = some e ∧ e.ends = true

structure ConnInv (cfg : ConnCfg) (sid : Nat) (c : Conn) : Prop where
  past : Past (Good cfg sid) c.log
  link : Link cfg sid c
  count : (headers c.log).length = c.reqN
  limit : ∀ k, cfg.keepaliveRequests = some k → c.reqN ≤ k.toNat
  fresh : ∀ e ∈ c.log, ∀ i, e.part = some i → i ≤ c.reqN
  next : ∀ i resp, .respond i resp ∈ c.log → resp.keepAlive = true → .written i ∈ c.log →
    .reading (i + 1) ∈ c.log
  failed : ∀ a stage e b, c.log = a ++ .failed stage e :: b →
    b = if e = .bodyLimit then [.abort tooLarge] else []

section
variable {cfg : ConnCfg} {sid : Nat} {l : List Ev}

/-- Response `i` is the `i`-th one. -/
theorem responses_get (h : Past (Good cfg sid) l) {i : Nat} {resp : Response} (hm : .respond i resp ∈ l) :
    0 < i ∧ (responses l)[i - 1]? = some resp := by
  obtain ⟨a, b, rfl⟩ := List.append_of_mem hm
  have hi : (responses a).length + 1 = i := h.split.1
  refine ⟨by omega, ?_⟩
  rw [responses_append, responses_cons, List.getElem?_append_right (by omega)]
  simp [show i - 1 - (responses a).length = 0 by omega]

theorem respond_le (h : Past (Good cfg sid) l) {i : Nat} {resp : Response} (hm : .respond i resp ∈ l) :
    i ≤ (responses l).length := by
  have hg := (responses_get h hm).2
  have := (List.getElem?_eq_some_iff.1 hg).1
  omega

theorem respond_unique (h : Past (Good cfg sid) l) {i : Nat} {r r' : Response} (hm : .respond i r ∈ l)
    (hm' : .respond i r' ∈ l) : r = r' := by
  have h1 := (responses_get h hm).2
  rw [(responses_get h hm').2] at h1
  exact (Option.some.inj h1).symm

theorem written_respond (h : Past (Good cfg sid) l) {i : Nat} (hm : .written i ∈ l) :
    ∃ resp, .respond i resp ∈ l := by
  obtain ⟨a, b, rfl⟩ := List.append_of_mem hm
  obtain ⟨a', resp, rfl⟩ := h.split
  exact ⟨resp, by simp⟩

end

theorem past_concat₂ {P : List Ev → Ev → Prop} {l : List Ev} {e e' : Ev} (h : Past P l) (he : P l e)
    (he' : P (l ++ [e]) e') : Past P (l ++ [e, e']) := by
  have h2 := past_concat.2 ⟨past_concat.2 ⟨h, he⟩, he'⟩
  simpa using h2

/-- A log without errors has nothing to say about what follows one. -/
theorem clean_failed {log : List Ev} (h : Clean log) : ∀ a stage e b,
    log = a ++ .failed stage e :: b → b = if e = .bodyLimit then [.abort tooLarge] else [] := by
  intro a stage e b hl
  exact absurd (by simp [hl]) (h stage e)

/-- The one error of a log is where it is looked for. -/
theorem clean_split {stage stage' : Stage} {e e' : ErrorCode} {t b : List Ev} :
    ∀ {l a : List Ev}, Clean l → Clean t → l ++ .failed stage e :: t = a ++ .failed stage' e' :: b →
      e = e' ∧ t = b
  | [], [], _, _, h => by simp at h; exact ⟨h.1.2, h.2⟩
  | [], x :: a, _, ht, h => by
    obtain ⟨-, rfl⟩ := List.cons.inj h
    exact absurd (by simp) (ht stage' e')
  | x :: l, [], hl, _, h => by
    obtain ⟨rfl, -⟩ := List.cons.inj h
    exact absurd (by simp) (hl stage' e')
  | x :: l, y :: a, hl, ht, h =>
    clean_split (fun st er hm => hl st er (List.mem_cons_of_mem _ hm)) ht (List.cons.inj h).2

theorem Clean.append {log es : List Ev} (h : Clean log) (hes : Clean es) : Clean (log ++ es) := by
  intro stage e he
  rcases List.mem_append.1 he with he | he
  · exact h stage e he
  · exact hes stage e he

/-- The request in hand stays in hand while events of it are added that are not its response. -/
theorem InHand.extend {c c' : Conn} {req req' : Request} (h : InHand c req) (es : List Ev)
    (hlog : c'.log = c.log ++ es) (hn : c'.reqN = c.reqN) (hes : responses es = []) (hcl : Clean es)
    (hreq : Completes req req') : InHand c' req' := by
  obtain ⟨h1, h2, req0, h3, body, rfl⟩ := h
  obtain ⟨body', rfl⟩ := hreq
  exact ⟨by simp [hlog, hn, hes, h1], hlog ▸ h2.append hcl, req0, by simp [hlog, hn, h3], body', rfl⟩

theorem keepaliveAfter_iff (cfg : ConnCfg) (req : Request) (n : Nat) : keepaliveAfter cfg req n = true ↔
    req.keepAlive = true ∧ ∀ k, cfg.keepaliveRequests = some k → n < k.toNat := by
  unfold keepaliveAfter
  cases cfg.keepaliveRequests <;> simp

/-- `next` only concerns responses and their completions. -/
theorem next_extend {log : List Ev} (es : List Ev)
    (h : ∀ i resp, .respond i resp ∈ log → resp.keepAlive = true → .written i ∈ log → .reading (i + 1) ∈ log)
    (hr : ∀ i resp, .respond i resp ∉ es) (hw : ∀ i, .written i ∉ es) :
    ∀ i resp, .respond i resp ∈ log ++ es → resp.keepAlive = true → .written i ∈ log ++ es →
      .reading (i + 1) ∈ log ++ es := by
  intro i resp h1 h2 h3
  rcases List.mem_append.1 h1 with h1 | h1
  · rcases List.mem_append.1 h3 with h3 | h3
    · exact List.mem_append_left _ (h i resp h1 h2 h3)
    · exact absurd h3 (hw i)
  · exact absurd h1 (hr i resp)

theorem fresh_extend {log : List Ev} {n m : Nat} (es : List Ev)
    (h : ∀ e ∈ log, ∀ i, e.part = some i → i ≤ n)
    (hnm : n ≤ m) (hes : ∀ e ∈ es, ∀ i, e.part = some i → i ≤ m) :
    ∀ e ∈ log ++ es, ∀ i, e.part = some i → i ≤ m := by
  intro e he i hi
  rcases List.mem_append.1 he with he | he
  · exact Nat.le_trans (h e he i hi) hnm
  · exact hes e he i hi

/-- Events inside a request, which neither open nor answer nor end anything. -/
def Ev.quiet : Ev → Bool
  | .continue100 _ _ | .chunk _ | .body _ _ | .took _ _ | .threw _ => true
  | _ => false

/-- A quiet event keeps the invariant if it fits into the log and the place of the coroutine. -/
theorem ConnInv.quiet {cfg : ConnCfg} {sid : Nat} {c c' : Conn} {e : Ev} (h : ConnInv cfg sid c)
    (hlog : c'.log = c.log ++ [e]) (hreq : c'.reqN = c.reqN) (he : e.quiet = true) (hcl : Clean c.log)
    (hgood : Good cfg sid c.log e) (hpart : ∀ i, e.part = some i → i = c.reqN) (hlink : Link cfg sid c') :
    ConnInv cfg sid c' := by
  have hhead : headers [e] = [] := by cases e <;> first | rfl | cases he
  have hr : ∀ i resp, .respond i resp ∉ [e] := by
    intro i resp hm
    cases List.mem_singleton.1 hm
    cases he
  have hw : ∀ i, .written i ∉ [e] := by
    intro i hm
    cases List.mem_singleton.1 hm
    cases he
  have hfail : Clean [e] := by
    intro stage ec hm
    cases List.mem_singleton.1 hm
    cases he
  have hfresh : ∀ x ∈ [e], ∀ i, x.part = some i → i ≤ c.reqN := by
    intro x hx i hi
    rw [List.mem_singleton.1 hx] at hi
    exact Nat.le_of_eq (hpart i hi)
  constructor
  · rw [hlog]; exact past_concat.2 ⟨h.past, hgood⟩
  · exact hlink
  · rw [hlog, hreq, headers_append, hhead, List.append_nil]; exact h.count
  · rw [hreq]; exact h.limit
  · rw [hlog, hreq]; exact fresh_extend _ h.fresh (Nat.le_refl _) hfresh
  · rw [hlog]; exact next_extend _ h.next hr hw
  · rw [hlog]; exact clean_failed (hcl.append hfail)

/-- **Every step keeps the invariant.** -/
theorem connInv_move {cfg : ConnCfg} {sid : Nat} {st st' : Stat} {c c' : Conn} {a : Act} (hI : ConnInv cfg sid c)
    (hm : Move cfg sid st c a st' c') : ConnInv cfg sid c' := by
  have ⟨hp, hl, hc, hlim, hf, hn, hfail⟩ := hI
  cases hm with
  | start h =>
    simp only [Link, h] at hl
    obtain ⟨h1, h2⟩ := hl
    refine ⟨?_, ?_, ?_, hlim, ?_, ?_, ?_⟩
    · rw [h1]
      exact past_concat₂ (past_nil _) trivial (Or.inl rfl)
    · simp only [Link, h1, h2]
      exact ⟨by simp, by simp [Clean], cfg.keepalive_pos, by simp⟩
    · simp [h1, h2]
    · simp [h1, Ev.part]
    · simp [h1]
    · apply clean_failed; simp [h1, Clean]
  | @header req done h =>
    simp only [Link, h] at hl
    obtain ⟨h1, h2, h3, h4⟩ := hl
    refine ⟨past_concat.2 ⟨hp, by simp [Good, hc, h1, h4]⟩, ?_, by simp [hc], ?_, ?_, ?_, ?_⟩
    · refine ⟨⟨by simp [h1], h2.append (by simp [Clean]), req, by simp, req.body, rfl⟩, by simp, ?_⟩
      intro e he
      rcases List.mem_append.1 he with he | he
      · intro hpart
        have : c.reqN + 1 ≤ c.reqN := hf e he _ hpart
        omega
      · rw [List.mem_singleton.1 he]; simp [Ev.part]
    · intro k hk; exact h3 k hk
    · exact fresh_extend _ hf (by simp) (by simp [Ev.part])
    · exact next_extend _ hn (by simp) (by simp)
    · exact clean_failed (h2.append (by simp [Clean]))
  | @continue100 req done h hx =>
    simp only [Link, h] at hl
    obtain ⟨h1, h2, h3⟩ := hl
    refine hI.quiet rfl rfl rfl h1.2.1 ⟨⟨req, h2, hx⟩, h3, rfl⟩ (by simp [Ev.part]) ?_
    exact h1.extend [.continue100 c.reqN (continueResponse cfg)] rfl rfl rfl (by simp [Clean]) ⟨req.body, rfl⟩
  | @toBody req done h =>
    simp only [Link, h] at hl
    cases done with
    | true => exact ⟨hp, hl.1, hc, hlim, hf, hn, hfail⟩
    | false => exact ⟨hp, hl.1, hc, hlim, hf, hn, hfail⟩
  | @wrote100 req done h =>
    simp only [Link, h] at hl
    cases done with
    | true => exact ⟨hp, hl, hc, hlim, hf, hn, hfail⟩
    | false => exact ⟨hp, hl, hc, hlim, hf, hn, hfail⟩
  | @chunk req bytes done h =>
    simp only [Link, h] at hl
    have h1 : ∀ pc, InHand { c with pc := pc, ec := none, stage := .readRequestBody,
                                    log := c.log ++ [.chunk c.reqN] } { req with body := req.body ++ bytes } :=
      fun pc => InHand.extend hl [.chunk c.reqN] rfl rfl rfl (by simp [Clean]) ⟨_, rfl⟩
    cases done with
    | true => exact hI.quiet rfl rfl rfl hl.2.1 trivial (by simp [Ev.part]) (h1 _)
    | false => exact hI.quiet rfl rfl rfl hl.2.1 trivial (by simp [Ev.part]) (h1 _)
  | @body req h =>
    simp only [Link, h] at hl
    refine hI.quiet rfl rfl rfl hl.2.1 trivial (by simp [Ev.part])
      ⟨?_, by simp, fun r hr => (dispatched_iff yields_ret _ _ _ _ _).2 hr⟩
    exact InHand.extend hl [.body c.reqN req] rfl rfl rfl (by simp [Clean]) ⟨req.body, rfl⟩
  | @exchange req ctr k h =>
    simp only [Link, h] at hl
    obtain ⟨h1, h2, h3⟩ := hl
    refine hI.quiet rfl rfl rfl h1.2.1 trivial (by simp [Ev.part])
      ⟨?_, by simp [h2], fun r hr => h3 r (.exchange _ hr)⟩
    exact h1.extend [.took ctr (st.get ctr)] rfl rfl rfl (by simp [Clean]) ⟨req.body, rfl⟩
  | @load req ctr k h =>
    simp only [Link, h] at hl
    exact ⟨hp, ⟨hl.1, hl.2.1, fun r hr => hl.2.2 r (.load _ hr)⟩, hc, hlim, hf, hn, hfail⟩
  | @answer req q k a h =>
    simp only [Link, h] at hl
    exact ⟨hp, ⟨hl.1, hl.2.1, fun r hr => hl.2.2 r (.query _ hr)⟩, hc, hlim, hf, hn, hfail⟩
  | @respond req r h =>
    simp only [Link, h] at hl
    obtain ⟨⟨h1, h2, req0, h3, body, rfl⟩, h4, h5⟩ := hl
    have hk := keepaliveAfter_iff cfg { req0 with body := body } c.reqN
    have hanswers : Answers cfg sid c.log c.reqN { req0 with body := body }
        (finishResponse cfg { req0 with body := body } c.reqN r) :=
      ⟨⟨req0, h3, body, rfl⟩, h4, ⟨r, h5 r (.ret r), sent_finishResponse _ _ _ _⟩, hk⟩
    refine ⟨past_concat.2 ⟨hp, h1, hc, _, hanswers⟩, ?_, by simp [hc], hlim, ?_, ?_, ?_⟩
    · exact ⟨by simp [h1], h2.append (by simp [Clean]), ⟨c.log, rfl⟩, fun hka => (hk.1 hka).2⟩
    · exact fresh_extend _ hf (Nat.le_refl _) (by simp [Ev.part])
    · -- a completion of this response would have its response before it
      intro i resp hr hka hw
      have hw' : .written i ∈ c.log := by simpa using hw
      rcases List.mem_append.1 hr with hr | hr
      · exact List.mem_append_left _ (hn i resp hr hka hw')
      · obtain ⟨resp', hr'⟩ := written_respond hp hw'
        have := respond_le hp hr'
        simp at hr
        omega
    · exact clean_failed (h2.append (by simp [Clean]))
  | @throw req h =>
    simp only [Link, h] at hl
    exact hI.quiet rfl rfl rfl hl.1.2.1 trivial (by simp [Ev.part]) ⟨.threw c.reqN, by simp, rfl⟩
  | @again resp h hk =>
    simp only [Link, h] at hl
    obtain ⟨h1, h2, ⟨a, ha⟩, h3⟩ := hl
    have hg : Good cfg sid c.log (.written c.reqN) := ⟨a, resp, ha⟩
    have hr : Good cfg sid (c.log ++ [.written c.reqN]) (.reading (c.reqN + 1)) :=
      Or.inr ⟨c.reqN, resp, a, rfl, by simp [ha], hk⟩
    refine ⟨past_concat₂ hp hg hr, ?_, by simp [hc], hlim, ?_, ?_, ?_⟩
    · exact ⟨by simp [h1], h2.append (by simp [Clean]), h3 hk, by simp⟩
    · exact fresh_extend _ hf (Nat.le_refl _) (by simp [Ev.part])
    · intro i resp' hr' hka hw
      have hr' : .respond i resp' ∈ c.log := by simpa using hr'
      rcases List.mem_append.1 hw with hw | hw
      · exact List.mem_append_left _ (hn i resp' hr' hka hw)
      · have hi : i = c.reqN := by simpa using hw
        subst hi; simp
    · exact clean_failed (h2.append (by simp [Clean]))
  | @close resp h hk =>
    simp only [Link, h] at hl
    obtain ⟨h1, h2, ⟨a, ha⟩, h3⟩ := hl
    refine ⟨past_concat.2 ⟨hp, a, resp, ha⟩, ⟨.written c.reqN, by simp, rfl⟩, by simp [hc], hlim, ?_, ?_, ?_⟩
    · exact fresh_extend _ hf (Nat.le_refl _) (by simp [Ev.part])
    · intro i resp' hr' hka hw
      have hr' : .respond i resp' ∈ c.log := by simpa using hr'
      rcases List.mem_append.1 hw with hw | hw
      · exact List.mem_append_left _ (hn i resp' hr' hka hw)
      · -- the response in hand is not flagged
        have hi : i = c.reqN := by simpa using hw
        subst hi
        have hr : .respond c.reqN resp ∈ c.log := by simp [ha]
        rw [respond_unique hp hr' hr, hk] at hka
        cases hka
    · exact clean_failed (h2.append (by simp [Clean]))
  | @abort _ e op h hop ha herr =>
    have hcl : Clean c.log := by
      rcases h with h | ⟨req, done, h⟩ | ⟨req, h⟩ | ⟨resp, h⟩ <;> simp only [Link, h] at hl
      · exact hl.2.1
      · exact hl.2.1
      · exact hl.2.1
      · exact hl.2.1
    by_cases he : e = .bodyLimit
    · subst he
      simp only [abortConnection, ↓reduceIte]
      refine ⟨past_concat₂ hp trivial ⟨c.log, op.stage, rfl⟩, ⟨tooLarge, by simp⟩, by simp [hc], hlim, ?_, ?_, ?_⟩
      · exact fresh_extend _ hf (Nat.le_refl _) (by simp [Ev.part])
      · exact next_extend _ hn (by simp) (by simp)
      · intro a stage' e' b hab
        obtain ⟨rfl, rfl⟩ := clean_split hcl (by simp [Clean]) hab
        rfl
    · simp only [abortConnection, he, ↓reduceIte]
      refine ⟨past_concat.2 ⟨hp, trivial⟩, ⟨.failed op.stage e, by simp, rfl⟩, by simp [hc], hlim, ?_, ?_, ?_⟩
      · exact fresh_extend _ hf (Nat.le_refl _) (by simp [Ev.part])
      · exact next_extend _ hn (by simp) (by simp)
      · intro a stage' e' b hab
        obtain ⟨rfl, rfl⟩ := clean_split hcl (by simp [Clean]) hab
        simp [he]
  | wrote413 h =>
    simp only [Link, h] at hl
    obtain ⟨resp, hlast⟩ := hl
    exact ⟨hp, ⟨.abort resp, hlast, rfl⟩, hc, hlim, hf, hn, hfail⟩

theorem connInv_init (cfg : ConnCfg) (sid : Nat) : ConnInv cfg sid {} :=
  ⟨past_nil _, ⟨rfl, rfl⟩, rfl, fun _ _ => Nat.zero_le _, by simp, by simp, by simp⟩

/-- **Every run keeps the invariant.** -/
theorem connInv_run {cfg : ConnCfg} {sid : Nat} {as : List (Stat × Act)} {c : Conn}
    (h : exec (connStep₁ cfg sid) {} as = some c) : ConnInv cfg sid c := by
  refine exec_invariant (fun _ => True) (ConnInv cfg sid) ?_ (by simp) (connInv_init cfg sid) h
  intro s a s' _ hs hstep
  obtain ⟨⟨st', s''⟩, hm, rfl⟩ := Option.map_eq_some_iff.1 hstep
  exact connInv_move hs (connStep_move hm)

/-- What the invariants say together. -/
theorem ConnInv.transcript {cfg : ConnCfg} {sid : Nat} {acts : List Act} {c : Conn} (h : ConnInv cfg sid c)
    (ht : Told acts c) : Transcript cfg sid acts c where
  told := ht
  header a i req b hl := h.past a _ b hl
  limit k hk := h.count ▸ h.limit k hk
  continue100 a i resp b hl := h.past a _ b hl
  respond a i resp b hl := by
    obtain ⟨h1, h2, req, hans⟩ := h.past a _ b hl
    have hbody : .body i req ∈ c.log := by rw [hl]; exact List.mem_append_left _ hans.2.1
    exact ⟨h1, h2, req, (ht.body i req hbody).2, hans⟩
  reading i hi := by
    constructor
    · intro hm
      obtain ⟨a, b, hl⟩ := List.append_of_mem hm
      rcases h.past a _ b hl with h1 | ⟨j, resp, a', hj, rfl, hk⟩
      · omega
      · obtain rfl : i = j := by omega
        exact ⟨resp, by simp [hl], hk, by simp [hl]⟩
    · rintro ⟨resp, hr, hk, hw⟩
      exact h.next i resp hr hk hw
  failed := h.failed
  abort a resp b hl := h.past a _ b hl
  ended hpc := by
    have hlink := h.link
    rw [Link, hpc] at hlink
    exact hlink
  goesOn := goesOn_of_ne_left cfg sid

/-- **One connection.** Whatever the client sends and whatever the operations return, whatever the
handlers and the keep-alive setting: responses come in the order of the requests, one each and only
for requests read to the end, by the handlers of their targets; the keep-alive flag, the next read and
the limit agree; the first I/O error is the end, with one 413 iff it is `body_limit`. And the connection
takes every outcome of its operations, until one of these is its last event. -/
theorem connection_transcript (cfg : ConnCfg) (sid : Nat) (as : List (Stat × Act)) (c : Conn)
    (h : exec (connStep₁ cfg sid) {} as = some c) : Transcript cfg sid (as.map Prod.snd) c :=
  (connInv_run h).transcript (told_run h)

/-- A server with `/echo` that answers two requests per connection. -/
def echoTwice : ConnCfg where
  headerServer := "acppsrv/1"
  keepaliveRequests := some 2
  handlers t := if t == "/echo" then some echo else none
  keepalive_pos k hk := by cases hk; decide

/-- Two keep-alive requests to it: the first waits for a 100-continue and sends its body in two
pieces, the second has no body; a third one is not read. -/
def twoRequests : List Act :=
  [.run, .header (.ok (⟨.post, "/echo", true, some "100-Continue", none, none, []⟩, false)), .run,
   .wrote100 none, .readSome (.ok ([1, 2], false)), .readSome (.ok ([3], true)), .run, .run, .wrote none,
   .header (.ok (⟨.get, "/db", true, none, none, none, []⟩, true)), .run, .run, .run, .wrote none]

theorem connection_transcript_echoTwice : ∃ c,
    exec (connStep₁ echoTwice 7) {} (twoRequests.map fun a => ({}, a)) = some c ∧
    (responses c.log).map (fun r => (r.status.code, r.keepAlive)) = [(200, true), (400, false)] ∧
    (received twoRequests).map (fun r => (r.1.body, r.2)) = [([1, 2, 3], true), ([], true)] ∧
    Transcript echoTwice 7 twoRequests c := by
  have hrun : ((exec (connStep₁ echoTwice 7) {} (twoRequests.map fun a => ({}, a))).map fun c =>
      (responses c.log).map fun r => (r.status.code, r.keepAlive)) = some [(200, true), (400, false)] := by
    decide
  obtain ⟨c, hc, hr⟩ := Option.map_eq_some_iff.1 hrun
  refine ⟨c, hc, hr, by decide, ?_⟩
  have ht := connection_transcript echoTwice 7 _ c hc
  rwa [List.map_map, show (Prod.snd ∘ fun a => (({} : Stat), a)) = id from rfl, List.map_id] at ht

end Acppsrv.Http
