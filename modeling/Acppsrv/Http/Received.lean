import Acppsrv.Http.Connection
/-!
# What a connection was told (http_server.cpp:207-254)

What the client sent is known from the completions of the operations alone: `received` puts the requests together as the
parser does, without a look at the coroutine. `Told` ties the log of the coroutine to it.

* A body counts as read when the parser is done with it, and consists of the bytes that were read.
* The log has the outcomes of the operations, each one and no other.
* The operation in progress is the one begun last.
-/
namespace Acppsrv.Http
open Lib

/-! ## The client's side -/

/-- One more action, on the requests with `parser.is_done()` of each. -/
def receive (rs : List (Request × Bool)) : Act → List (Request × Bool)
  | .header (.ok (req, done)) => rs ++ [(req, done)]
  | .readSome (.ok (bytes, done)) =>
    rs.modify (rs.length - 1) fun r => ({ r.1 with body := r.1.body ++ bytes }, done)
  | _ => rs

/-- The requests that came in, in the order of their headers. -/
def received (acts : List Act) : List (Request × Bool) := acts.foldl receive []

/-- The outcome of an operation. -/
inductive Io where
  | header (req : Request)
  | chunk
  | written
  | failed (stage : Stage) (e : ErrorCode)
  deriving DecidableEq, Repr

def Act.io : Act → Option Io
  | .header (.ok (req, _)) => some (.header req)
  | .readSome (.ok _) => some .chunk
  | .wrote none => some .written
  | .header (.error e) => some (.failed .readRequestHeaders e)
  | .wrote100 (some e) => some (.failed .write100Continue e)
  | .readSome (.error e) => some (.failed .readRequestBody e)
  | .wrote (some e) => some (.failed .writeResponse e)
  | .wrote100 none | .wrote413 _ | .run | .answer _ => none

def Ev.io : Ev → Option Io
  | .header _ req => some (.header req)
  | .chunk _ => some .chunk
  | .written _ => some .written
  | .failed stage e => some (.failed stage e)
  | _ => none

/-- The operation an event is the beginning of; `async_read_some` leaves none. -/
def Ev.begins : Ev → Option Operation
  | .reading _ => some .readHeader
  | .continue100 _ _ => some .write100
  | .respond _ _ => some .writeResponse
  | .abort _ => some .write413
  | _ => none

/-- The operation begun last, unless the last action completed it. -/
def inProgress (acts : List Act) (log : List Ev) : Option Operation :=
  match log.getLast?.bind Ev.begins with
  | none => none
  | some op => if acts.getLast?.bind Act.operation = some op then none else some op

structure Told (acts : List Act) (c : Conn) : Prop where
  outcomes : c.log.filterMap Ev.io = acts.filterMap Act.io
  /-- Request `i` was read: the parser is done with it. -/
  body : ∀ i req, .body i req ∈ c.log → 0 < i ∧ (received acts)[i - 1]? = some (req, true)
  /-- Nothing is read beyond the end of a body. -/
  reads : c.pc.operation = some .readSome → ∃ req, (received acts)[c.reqN - 1]? = some (req, false)
  operation : ∀ op, op ≠ .readSome → (c.pc.operation = some op ↔ inProgress acts c.log = some op)

theorem received_concat (acts : List Act) (a : Act) : received (acts ++ [a]) = receive (received acts) a := by
  simp [received]

theorem io_of_error {a : Act} {op : Operation} {e : ErrorCode} (ha : a.operation = some op) (h : a.error = some e) :
    a.io = some (.failed op.stage e) := by
  cases a with
  | header r | readSome r =>
    cases ha
    cases r with
    | error e' => cases h; rfl
    | ok v => cases h
  | wrote100 r | wrote r =>
    cases ha
    obtain rfl : r = some e := h
    rfl
  | run | answer | wrote413 => cases h

theorem receive_of_error {a : Act} {e : ErrorCode} (h : a.error = some e) (rs : List (Request × Bool)) :
    receive rs a = rs := by
  cases a with
  | header r | readSome r =>
    cases r with
    | error e' => rfl
    | ok v => cases h
  | run | answer | wrote100 | wrote | wrote413 => rfl

/-! ## The requests -/

/-- The request in hand, with `parser.is_done()`. -/
def Pc.current : Pc → Option (Request × Bool)
  | .gotHeader req done | .write100 req done => some (req, done)
  | .readBody req => some (req, false)
  | .gotBody req | .handling req _ => some (req, true)
  | .spawned | .readHeader | .writing _ | .write413 | .left => none

/-- Its body does not count as read yet. -/
def Pc.unread : Pc → Bool
  | .gotHeader _ _ | .write100 _ _ | .readBody _ | .gotBody _ => true
  | _ => false

structure RecvInv (acts : List Act) (c : Conn) : Prop where
  outcomes : c.log.filterMap Ev.io = acts.filterMap Act.io
  count : (received acts).length = c.reqN
  current : ∀ r, c.pc.current = some r → (received acts)[c.reqN - 1]? = some r
  body : ∀ i req, .body i req ∈ c.log → 0 < i ∧ i ≤ c.reqN ∧ (received acts)[i - 1]? = some (req, true)
  unread : c.pc.unread = true → ∀ req, .body c.reqN req ∉ c.log

section
variable {cfg : ConnCfg} {sid : Nat} {acts : List Act} {c c' : Conn} {a : Act}

@[simp] theorem bodyLoop_current (c : Conn) (req : Request) (done : Bool) :
    (bodyLoop c req done).pc.current = some (req, done) := by
  cases done <;> rfl

theorem RecvInv.pos (h : RecvInv acts c) {r : Request × Bool} (hr : c.pc.current = some r) : 0 < c.reqN := by
  have hlt := (List.getElem?_eq_some_iff.1 (h.current r hr)).1
  rw [h.count] at hlt
  omega

theorem outcomes_concat {es : List Ev} (h : RecvInv acts c) (hlog : c'.log = c.log ++ es)
    (hio : es.filterMap Ev.io = a.io.toList) :
    c'.log.filterMap Ev.io = (acts ++ [a]).filterMap Act.io := by
  have hsingle : [a].filterMap Act.io = a.io.toList := by
    cases hai : a.io with
    | none => simp [hai]
    | some x => simp [hai]
  rw [hlog, List.filterMap_append, List.filterMap_append, h.outcomes, hio, hsingle]

/-- An action that brings no part of a request. -/
theorem RecvInv.keep (h : RecvInv acts c) (es : List Ev) (hrec : ∀ rs, receive rs a = rs)
    (hlog : c'.log = c.log ++ es) (hn : c'.reqN = c.reqN) (hio : es.filterMap Ev.io = a.io.toList)
    (hcur : ∀ r, c'.pc.current = some r → c.pc.current = some r)
    (hbody : ∀ i req, .body i req ∈ es → i = c.reqN ∧ c.pc.current = some (req, true))
    (hunread : c'.pc.unread = true → c.pc.unread = true ∧ ∀ i req, .body i req ∉ es) :
    RecvInv (acts ++ [a]) c' := by
  have hsame : received (acts ++ [a]) = received acts := by rw [received_concat, hrec]
  constructor
  · exact outcomes_concat h hlog hio
  · rw [hsame, hn, h.count]
  · intro r hr
    rw [hsame, hn]
    exact h.current r (hcur r hr)
  · intro i req hm
    rw [hlog] at hm
    rw [hsame, hn]
    rcases List.mem_append.1 hm with hm | hm
    · exact h.body i req hm
    · obtain ⟨rfl, hr⟩ := hbody i req hm
      exact ⟨h.pos hr, Nat.le_refl _, h.current _ hr⟩
  · intro hu req hm
    obtain ⟨hu, hes⟩ := hunread hu
    rw [hlog, hn] at hm
    rcases List.mem_append.1 hm with hm | hm
    · exact h.unread hu req hm
    · exact hes _ req hm

/-- The next header. -/
theorem RecvInv.header (h : RecvInv acts c) {req : Request} {done : Bool}
    (hlog : c'.log = c.log ++ [.header (c.reqN + 1) req]) (hn : c'.reqN = c.reqN + 1)
    (hcur : c'.pc.current = some (req, done)) : RecvInv (acts ++ [.header (.ok (req, done))]) c' := by
  have hrec : received (acts ++ [.header (.ok (req, done))]) = received acts ++ [(req, done)] :=
    received_concat _ _
  have hold : ∀ i r, .body i r ∈ c'.log → .body i r ∈ c.log := by
    intro i r hm
    simpa [hlog] using hm
  constructor
  · exact outcomes_concat h hlog rfl
  · rw [hrec, hn, List.length_append, h.count]
    rfl
  · intro r hr
    rw [hcur] at hr
    rw [hrec, hn, Nat.add_sub_cancel, ← h.count, List.getElem?_concat_length, Option.some.inj hr]
  · intro i r hm
    obtain ⟨hi, hle, hget⟩ := h.body i r (hold i r hm)
    rw [hn, hrec, List.getElem?_append_left (by rw [h.count]; omega)]
    exact ⟨hi, by omega, hget⟩
  · intro _ r hm
    have hle := (h.body _ r (hold _ r hm)).2.1
    rw [hn] at hle
    omega

/-- Some more of the body. -/
theorem RecvInv.chunk (h : RecvInv acts c) {req : Request} {bytes : Bytes} {done : Bool}
    (hpc : c.pc = .readBody req) (hlog : c'.log = c.log ++ [.chunk c.reqN]) (hn : c'.reqN = c.reqN)
    (hcur : c'.pc.current = some ({ req with body := req.body ++ bytes }, done)) :
    RecvInv (acts ++ [.readSome (.ok (bytes, done))]) c' := by
  have hreq : c.pc.current = some (req, false) := by rw [hpc]; rfl
  have hpos := h.pos hreq
  have hrec : ∀ j, (received (acts ++ [.readSome (.ok (bytes, done))]))[j]? =
      (received acts)[j]?.map fun r =>
        if c.reqN - 1 = j then ({ r.1 with body := r.1.body ++ bytes }, done) else r := by
    intro j
    rw [received_concat, receive, h.count, List.getElem?_modify]
    rfl
  have hold : ∀ i r, .body i r ∈ c'.log → .body i r ∈ c.log := by
    intro i r hm
    simpa [hlog] using hm
  have hunread := h.unread (by rw [hpc]; rfl)
  constructor
  · exact outcomes_concat h hlog rfl
  · rw [received_concat, receive, List.length_modify, hn, h.count]
  · intro r hr
    rw [hcur] at hr
    rw [hn, hrec, h.current _ hreq, ← Option.some.inj hr]
    simp
  · -- the requests before this one stay as they are
    intro i r hm
    obtain ⟨hi, hle, hget⟩ := h.body i r (hold i r hm)
    have hne : i ≠ c.reqN := by
      rintro rfl
      exact hunread r (hold _ r hm)
    rw [hn, hrec, hget, Option.map_some, if_neg (by omega)]
    exact ⟨hi, hle, rfl⟩
  · intro _ r hm
    rw [hn] at hm
    exact hunread r (hold _ r hm)

theorem recvInv_move {st st' : Stat} (h : RecvInv acts c) (hm : Move cfg sid st c a st' c') :
    RecvInv (acts ++ [a]) c' := by
  cases hm with
  | start hpc => exact h.keep _ (fun _ => rfl) rfl rfl rfl (by simp [Pc.current]) (by simp) (by simp [Pc.unread])
  | header hpc => exact h.header rfl rfl rfl
  | continue100 hpc hx =>
    exact h.keep _ (fun _ => rfl) rfl rfl rfl (by simp [hpc, Pc.current]) (by simp) (by simp [hpc, Pc.unread])
  | toBody hpc | wrote100 hpc =>
    refine h.keep [] (fun _ => rfl) (by simp) (by simp) rfl ?_ (by simp) (by simp [hpc, Pc.unread])
    intro r hr
    rw [bodyLoop_current] at hr
    rw [hpc]
    exact hr
  | chunk hpc => exact h.chunk hpc (by simp) (by simp) (by simp)
  | body hpc =>
    exact h.keep _ (fun _ => rfl) rfl rfl rfl (by simp [hpc, Pc.current]) (by simp [hpc, Pc.current])
      (by simp [Pc.unread])
  | exchange hpc =>
    exact h.keep _ (fun _ => rfl) rfl rfl rfl (by simp [hpc, Pc.current]) (by simp) (by simp [Pc.unread])
  | load hpc | answer hpc =>
    exact h.keep [] (fun _ => rfl) (by simp) rfl rfl (by simp [hpc, Pc.current]) (by simp) (by simp [Pc.unread])
  | respond hpc | throw hpc | again hpc hk | close hpc hk =>
    exact h.keep _ (fun _ => rfl) rfl rfl rfl (by simp [Pc.current]) (by simp) (by simp [Pc.unread])
  | @abort _ e op hpc hop ha he =>
    have hlog := abortConnection_log c op.stage e
    have hpc' : (abortConnection c op.stage e).pc.current = none ∧ (abortConnection c op.stage e).pc.unread = false ∧
        (abortConnection c op.stage e).reqN = c.reqN := by
      unfold abortConnection
      split
      · exact ⟨rfl, rfl, rfl⟩
      · exact ⟨rfl, rfl, rfl⟩
    refine h.keep _ (receive_of_error he) hlog hpc'.2.2 ?_ (by simp [hpc'.1]) ?_ (by simp [hpc'.2.1])
    · rw [io_of_error ha he]
      split <;> rfl
    · split <;> simp
  | wrote413 hpc => exact h.keep [] (fun _ => rfl) (by simp) rfl rfl (by simp [Pc.current]) (by simp) (by simp [Pc.unread])

/-! ## The operation in progress -/

/-- At these places nothing was begun last. -/
def Pc.computing : Pc → Bool
  | .gotHeader _ _ | .handling _ _ => true
  | _ => false

structure ProgressInv (acts : List Act) (c : Conn) : Prop where
  operation : ∀ op, op ≠ .readSome → (c.pc.operation = some op ↔ inProgress acts c.log = some op)
  computing : c.pc.computing = true → c.log.getLast?.bind Ev.begins = none

theorem inProgress_concat (acts : List Act) (a : Act) (log : List Ev) (e : Ev) :
    inProgress (acts ++ [a]) (log ++ [e]) =
      match e.begins with
      | none => none
      | some op => if a.operation = some op then none else some op := by
  simp [inProgress]

/-- An operation is only ended by its own completion. -/
theorem inProgress_same (acts : List Act) (a : Act) {log : List Ev} {op : Operation}
    (h : log.getLast?.bind Ev.begins = some op) :
    inProgress (acts ++ [a]) log = if a.operation = some op then none else some op := by
  simp [inProgress, h]

theorem inProgress_none (acts : List Act) {log : List Ev} (h : log.getLast?.bind Ev.begins = none) :
    inProgress acts log = none := by
  simp [inProgress, h]

theorem begins_of_inProgress {log : List Ev} {op : Operation} (h : inProgress acts log = some op) :
    log.getLast?.bind Ev.begins = some op := by
  unfold inProgress at h
  split at h
  · cases h
  · rename_i op' hop
    split at h
    · cases h
    · rw [hop]
      exact h

theorem bodyLoop_operation (c : Conn) (req : Request) (done : Bool) {op : Operation} (hop : op ≠ .readSome) :
    (bodyLoop c req done).pc.operation ≠ some op := by
  cases done with
  | true => exact fun h => by cases h
  | false =>
    intro h
    exact hop (Option.some.inj h).symm

theorem bodyLoop_computing (c : Conn) (req : Request) (done : Bool) : (bodyLoop c req done).pc.computing = false := by
  cases done <;> rfl

/-- An event that begins `op`, or nothing. -/
theorem ProgressInv.event {e : Ev} (log : List Ev) (hlog : c'.log = log ++ [e])
    (hop : ∀ op, op ≠ .readSome → (c'.pc.operation = some op ↔ e.begins = some op))
    (ha : ∀ op, e.begins = some op → a.operation ≠ some op)
    (hcomp : c'.pc.computing = true → e.begins = none) : ProgressInv (acts ++ [a]) c' := by
  constructor
  · intro op hne
    rw [hlog, inProgress_concat, hop op hne]
    cases he : e.begins with
    | none => simp
    | some op' => simp [ha op' he]
  · intro h
    simp [hlog, hcomp h]

theorem progressInv_move {st st' : Stat} (h : ProgressInv acts c) (hm : Move cfg sid st c a st' c') :
    ProgressInv (acts ++ [a]) c' := by
  cases hm with
  | start hpc =>
    exact .event (c.log ++ [.started]) (e := .reading 1) (by simp) (by simp [Pc.operation, Ev.begins])
      (by simp [Act.operation]) (by simp [Pc.computing])
  | header hpc =>
    exact .event c.log rfl (by simp [Pc.operation, Ev.begins]) (by simp [Ev.begins]) (by simp [Ev.begins])
  | continue100 hpc hx =>
    exact .event c.log rfl (by simp [Pc.operation, Ev.begins]) (by simp [Act.operation]) (by simp [Pc.computing])
  | toBody hpc =>
    have hnone := h.computing (by rw [hpc]; rfl)
    constructor
    · intro op hne
      rw [bodyLoop_log, inProgress_none _ hnone]
      simp [bodyLoop_operation c _ _ hne]
    · simp [bodyLoop_computing]
  | wrote100 hpc =>
    have hlast := begins_of_inProgress ((h.operation .write100 (by decide)).1 (by rw [hpc]; rfl))
    constructor
    · intro op hne
      rw [bodyLoop_log, inProgress_same _ _ hlast]
      simp [bodyLoop_operation _ _ _ hne, Act.operation]
    · simp [bodyLoop_computing]
  | chunk hpc =>
    refine .event c.log (by simp) (e := .chunk c.reqN) ?_ (by simp [Ev.begins]) (by simp [bodyLoop_computing])
    intro op hne
    simp [bodyLoop_operation _ _ _ hne, Ev.begins]
  | body hpc | exchange hpc =>
    exact .event c.log rfl (by simp [Pc.operation, Ev.begins]) (by simp [Ev.begins]) (by simp [Ev.begins])
  | load hpc | answer hpc =>
    have hnone := h.computing (by rw [hpc]; rfl)
    constructor
    · intro op hne
      rw [inProgress_none _ hnone]
      simp [Pc.operation]
    · intro _
      exact hnone
  | respond hpc =>
    exact .event c.log rfl (by simp [Pc.operation, Ev.begins]) (by simp [Act.operation]) (by simp [Pc.computing])
  | throw hpc | close hpc hk =>
    exact .event c.log rfl (by simp [Pc.operation, Ev.begins]) (by simp [Ev.begins]) (by simp [Ev.begins])
  | again hpc hk =>
    exact .event (c.log ++ [.written c.reqN]) (e := .reading (c.reqN + 1)) (by simp)
      (by simp [Pc.operation, Ev.begins]) (by simp [Ev.begins, Act.operation]) (by simp [Pc.computing])
  | @abort _ e op hpc hop ha he =>
    by_cases hlim : e = .bodyLimit
    · have hne : a.operation ≠ some .write413 := by
        rw [ha, ← hop]
        rcases hpc with hpc | ⟨req, done, hpc⟩ | ⟨req, hpc⟩ | ⟨resp, hpc⟩ <;> simp [hpc, Pc.operation]
      exact .event (c.log ++ [.failed op.stage e]) (e := .abort tooLarge) (by simp [abortConnection, hlim])
        (by simp [abortConnection, hlim, Pc.operation, Ev.begins]) (by simpa [Ev.begins] using hne)
        (by simp [abortConnection, hlim, Pc.computing])
    · exact .event c.log (e := .failed op.stage e) (by simp [abortConnection, hlim])
        (by simp [abortConnection, hlim, Pc.operation, Ev.begins]) (by simp [Ev.begins]) (by simp [Ev.begins])
  | wrote413 hpc =>
    have hlast := begins_of_inProgress ((h.operation .write413 (by decide)).1 (by rw [hpc]; rfl))
    constructor
    · intro op hne
      rw [inProgress_same _ _ hlast]
      simp [Pc.operation, Act.operation]
    · simp [Pc.computing]

end

/-- **What was told is what was done.** -/
theorem told_run {cfg : ConnCfg} {sid : Nat} {as : List (Stat × Act)} {c : Conn}
    (h : exec (connStep₁ cfg sid) {} as = some c) : Told (as.map Prod.snd) c := by
  have hI : RecvInv (as.map Prod.snd) c ∧ ProgressInv (as.map Prod.snd) c := by
    refine exec_history (fun as c => RecvInv (as.map Prod.snd) c ∧ ProgressInv (as.map Prod.snd) c)
      ⟨⟨rfl, rfl, by simp [Pc.current], by simp, by simp⟩, ⟨?_, by simp [Pc.computing]⟩⟩ ?_ h
    · simp [Pc.operation, inProgress]
    · rintro as c a c' ⟨hR, hP⟩ hstep
      obtain ⟨⟨st', c''⟩, hm, rfl⟩ := Option.map_eq_some_iff.1 hstep
      rw [List.map_append]
      exact ⟨recvInv_move hR (connStep_move hm), progressInv_move hP (connStep_move hm)⟩
  obtain ⟨hR, hP⟩ := hI
  refine ⟨hR.outcomes, fun i req hm => ⟨(hR.body i req hm).1, (hR.body i req hm).2.2⟩, ?_, hP.operation⟩
  intro hop
  cases hpc : c.pc with
  | readBody req => exact ⟨req, hR.current _ (by rw [hpc]; rfl)⟩
  | _ =>
    rw [hpc] at hop
    cases hop

end Acppsrv.Http
