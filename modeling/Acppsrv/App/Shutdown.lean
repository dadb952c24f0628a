import Acppsrv.App.Lifecycle
/-!
# The servers outlive their handlers, and a signal ends them

`PoolOk` is what a pool keeps, given what the main thread has done and how far the signal handler is; `Inv` puts
the pools together with the order of the program. Three results rest on it: no handler runs while a server it
uses is not there (`servers_outlive_handlers`), no thread ends before the signal, whatever leaves its handlers
(`serves_until_signalled`), and after the signal the process ends (`shutdown_ends`).
-/
namespace Acppsrv.App
open Lib IoContext

/-- The signal handler has stopped pool `p`. -/
def Sig.hasStopped (p : PoolId) : Sig → Prop
  | .unarmed | .armed => False
  | .running ops => .stop p ∉ ops
  | .done => True

/-- The control pool has the wait for the signal, then its handler, and then nothing. -/
def ControlOk (past : List MainOp) (sig : Sig) (c : IoContext) : Prop :=
  (.release .control ∈ past → c.guard = false) ∧
  match sig with
  | .unarmed => c.stopped = false ∧ c.guard = true ∧ c.pending = 0 ∧ c.handlers = 0
  | .armed => c.stopped = false ∧ c.pending = 1 ∧ c.handlers = 0
  | .running _ => c.stopped = false ∧ c.guard = false ∧ c.pending = 0 ∧ c.handlers = 1
  | .done => c.stopped = true ∧ c.guard = false ∧ c.pending = 0 ∧ c.handlers = 0

structure PoolOk (z : PoolSizes) (past : List MainOp) (sig : Sig) (p : PoolId) (c : IoContext) : Prop where
  size : c.threads.length = z.numThreads p
  ok : c.Ok
  born : ∀ t : Nat, .start p t ∈ past → c.threads[t]? ≠ some .unborn
  unborn : ∀ t < z.numThreads p, .start p t ∉ past → c.threads[t]? = some .unborn
  joined : ∀ t, .join p t ∈ past → c.threads[t]? = some .exited
  guard : p ≠ .control → c.guard = true
  stopped : p ≠ .control → c.stopped = true → sig.hasStopped p
  stops : p ∈ z.mains ∨ p = .database → sig.hasStopped p → c.stopped = true
  control : p = .control → ControlOk past sig c

/-- Where the main thread is. -/
inductive MainOk (z : PoolSizes) (past rest : List MainOp) (ended : Option Ended) : Prop
  | going (h : past ++ rest = program z) (he : ended = none) (hc : .closeAll ∉ past)
  | returned (h : past ++ rest = program z) (he : ended = some (.returned true)) (hc : .closeAll ∈ past)
  | failed (h : ∀ op ∈ past, op ∈ setUp) (hr : rest = []) (he : ended ≠ none) (ht : ended ≠ some (.returned true))

structure Inv (z : PoolSizes) (s : Process) : Prop where
  main : MainOk z s.past s.rest s.ended
  pool : ∀ p, PoolOk z s.past s.sig p (s.pools p)
  armed : s.sig = .unarmed ↔ .asyncWait ∉ s.past
  signal : ∀ ops, s.sig = .running ops → ops <:+ signalOps z
  begun : s.sig ≠ .unarmed → s.sig ≠ .armed → .release .control ∈ s.past
  http : .initHttp ∈ s.past → .closeHttp ∉ s.past → s.httpServer = true
  db : .initDatabase ∈ s.past → s.ended = none → s.dbServer = true

/-! ## What order gives -/

section
variable {z : PoolSizes} {s s' : Process}

/-- An operation after `setUp` is preceded by what the program has before it. -/
theorem Inv.before (hI : Inv z s) {a b : List MainOp} (hab : program z = a ++ b) {x y : MainOp} (hx : x ∈ a)
    (hya : y ∉ a) (hyu : y ∉ setUp) (hy : y ∈ s.past) : x ∈ s.past := by
  have hpast (h : s.past ++ s.rest = program z) : x ∈ s.past := by
    obtain ⟨past, post, hsplit⟩ := List.append_of_mem hy
    rw [hsplit, hab, List.append_assoc] at h
    rw [hsplit]
    exact List.mem_append_left _ (mem_past h hx hya)
  cases hI.main with
  | going h => exact hpast h
  | returned h => exact hpast h
  | failed h => exact absurd (h y hy) hyu

theorem Inv.setUp_of_start (hI : Inv z s) {p : PoolId} {t : Nat} (h : .start p t ∈ s.past) {op : MainOp}
    (hop : op ∈ setUp) : op ∈ s.past :=
  hI.before (b := startPools z ++ (waitPools z ++ tearDown)) rfl hop (by simp [setUp]) (by simp [setUp]) h

theorem Inv.release_of_start (hI : Inv z s) {t : Nat} (h : .start .control t ∈ s.past) :
    .release .control ∈ s.past :=
  hI.before (a := setUp ++ [.release .control])
    (b := (List.range (z.numThreads .control)).map (.start .control) ++
      (z.mains.flatMap (threadPoolRun z · true) ++ threadPoolRun z .database true) ++ (waitPools z ++ tearDown))
    (by simp [program, startPools, threadPoolRun]) (by simp) (by simp [setUp]) (by simp [setUp]) h

theorem Inv.joins_of_close (hI : Inv z s) {op : MainOp} (hop : op ∈ tearDown) (h : op ∈ s.past) {p : PoolId}
    {t : Nat} (hp : z.has p) (ht : t < z.numThreads p) : .join p t ∈ s.past := by
  have hne : op ∉ setUp ++ (startPools z ++ waitPools z) := by
    intro hm
    simp only [tearDown, List.mem_cons, List.not_mem_nil, or_false] at hop
    rcases List.mem_append.1 hm with hm | hm
    · rcases hop with rfl | rfl | rfl <;> simp [setUp] at hm
    · rcases List.mem_append.1 hm with hm | hm
      · rcases mem_startPools hm with ⟨p', t', rfl⟩ | rfl <;> simp at hop
      · obtain ⟨p', t', rfl⟩ := mem_waitPools hm
        simp at hop
  refine hI.before (a := setUp ++ (startPools z ++ waitPools z)) (b := tearDown) (by simp [program]) ?_ hne ?_ h
  · exact List.mem_append_right _ (List.mem_append_right _ (join_mem.2 ⟨hp, ht⟩))
  · exact fun hm => hne (List.mem_append_left _ hm)

/-- Only threads of the pools there are get started. -/
theorem Inv.has_of_start (hI : Inv z s) {p : PoolId} {t : Nat} (h : .start p t ∈ s.past) :
    z.has p ∧ t < z.numThreads p := by
  have hmem (hp : s.past ++ s.rest = program z) : .start p t ∈ program z := hp ▸ List.mem_append_left _ h
  have hprog : .start p t ∈ program z → z.has p ∧ t < z.numThreads p := by
    intro hm
    simp only [program, List.mem_append, setUp, tearDown] at hm
    rcases hm with hm | hm | hm | hm
    · simp at hm
    · exact start_mem.1 hm
    · obtain ⟨_, _, heq⟩ := mem_waitPools hm
      cases heq
    · simp at hm
  cases hI.main with
  | going hp => exact hprog (hmem hp)
  | returned hp => exact hprog (hmem hp)
  | failed hp => exact absurd (hp _ h) (by simp [setUp])

/-- A thread that is somewhere in its loop was started. -/
theorem PoolOk.start_mem {past : List MainOp} {sig : Sig} {p : PoolId} {c : IoContext} (h : PoolOk z past sig p c)
    {t : Nat} {pc : ThreadPc} (ht : c.threads[t]? = some pc) (hpc : pc ≠ .unborn) : .start p t ∈ past := by
  by_contra hn
  have hlt : t < z.numThreads p := by
    rw [← h.size]
    exact (List.getElem?_eq_some_iff.1 ht).1
  rw [h.unborn t hlt hn] at ht
  exact hpc (Option.some.inj ht).symm

/-- While the main thread has something to do, it has not returned, and it does nothing twice. -/
theorem Inv.going (hI : Inv z s) {op : MainOp} {rest : List MainOp} (hr : s.rest = op :: rest) :
    s.past ++ op :: rest = program z ∧ s.ended = none ∧ .closeAll ∉ s.past ∧ op ∉ s.past := by
  have hnot (h : s.past ++ op :: rest = program z) {x : MainOp} (hx : x ∈ op :: rest) : x ∉ s.past := by
    have hnodup := h ▸ program_nodup z
    exact fun hx' => (List.nodup_append'.1 hnodup).2.2 hx' hx
  cases hI.main with
  | going h he hc =>
    rw [hr] at h
    exact ⟨h, he, hc, hnot h List.mem_cons_self⟩
  | returned h he hc =>
    -- `closeAll` is the last of the program
    rw [hr] at h
    have hlast : (s.past ++ op :: rest).getLast? = some .closeAll := by
      rw [h]
      simp [program, tearDown]
    rw [List.getLast?_append_of_ne_nil _ (by simp)] at hlast
    exact absurd hc (hnot h (List.mem_of_getLast? hlast))
  | failed h hnil => rw [hr] at hnil; cases hnil

/-! ## What changes a pool -/

section
variable {past : List MainOp} {sig : Sig} {p : PoolId} {c c' : IoContext}

/-- The main thread does something else. -/
theorem PoolOk.other_op (h : PoolOk z past sig p c) {op : MainOp} (hs : ∀ t, op ≠ .start p t) (hj : ∀ t, op ≠ .join p t)
    (hr : p = .control → op ≠ .release .control) : PoolOk z (past ++ [op]) sig p c where
  size := h.size
  ok := h.ok
  born t ht := h.born t (by simpa [(hs t).symm] using ht)
  unborn t htn ht := h.unborn t htn fun hm => ht (List.mem_append_left _ hm)
  joined t ht := h.joined t (by simpa [(hj t).symm] using ht)
  guard := h.guard
  stopped := h.stopped
  stops := h.stops
  control hp := ⟨fun hm => (h.control hp).1 (by simpa [(hr hp).symm] using hm), (h.control hp).2⟩

/-- The signal handler does something else. -/
theorem PoolOk.other_stop (h : PoolOk z past sig p c) {sig' : Sig} (hs : sig.hasStopped p → sig'.hasStopped p)
    (hs' : p ∈ z.mains ∨ p = .database → sig'.hasStopped p → sig.hasStopped p)
    (hc : p = .control → ControlOk past sig' c) : PoolOk z past sig' p c where
  size := h.size
  ok := h.ok
  born := h.born
  unborn := h.unborn
  joined := h.joined
  guard := h.guard
  stopped hp hc := hs (h.stopped hp hc)
  stops hp hc := h.stops hp (hs' hp hc)
  control := hc

/-- The context of a pool other than the control pool changes, its threads apart. -/
theorem PoolOk.context (h : PoolOk z past sig p c) (hp : p ≠ .control) (hok : c'.Ok) (ht : c'.threads = c.threads)
    (hg : c'.guard = c.guard) {sig' : Sig} (hs : c'.stopped = true → sig'.hasStopped p)
    (hs' : p ∈ z.mains ∨ p = .database → sig'.hasStopped p → c'.stopped = true) : PoolOk z past sig' p c' where
  size := by rw [ht, h.size]
  ok := hok
  born t hm := by rw [ht]; exact h.born t hm
  unborn t htn hm := by rw [ht]; exact h.unborn t htn hm
  joined t hm := by rw [ht]; exact h.joined t hm
  guard hp := by rw [hg]; exact h.guard hp
  stopped _ := hs
  stops := hs'
  control hc := absurd hc hp

theorem PoolOk.post (h : PoolOk z past sig p c) (hp : p ≠ .control) : PoolOk z past sig p c.post :=
  h.context hp h.ok.post rfl rfl (h.stopped hp) h.stops

/-- A thread is started. -/
theorem PoolOk.start (h : PoolOk z past sig p c) {t : Nat} (hs : c.start t = some c') :
    PoolOk z (past ++ [.start p t]) sig p c' := by
  have hok := h.ok.start hs
  unfold IoContext.start at hs
  split at hs
  · rename_i ht
    cases hs
    have hlt := (List.getElem?_eq_some_iff.1 ht).1
    have hset (u : Nat) (hu : u ≠ t) : (c.threads.set t .testing)[u]? = c.threads[u]? :=
      List.getElem?_set_ne (Ne.symm hu)
    have hhandlers : (c.setThread t .testing).handlers = c.handlers := total_set_eq ThreadPc.handlers ht rfl
    refine ⟨?_, hok, ?_, ?_, ?_, h.guard, h.stopped, h.stops, ?_⟩
    · simpa [setThread] using h.size
    · intro u hu
      by_cases hut : u = t
      · subst hut
        simp [setThread, hlt]
      · have hm : .start p u ∈ past := by simpa [hut] using hu
        simpa [setThread, hset u hut] using h.born u hm
    · intro u hun hu
      by_cases hut : u = t
      · subst hut
        simp at hu
      · have hm : .start p u ∉ past := fun hm => hu (List.mem_append_left _ hm)
        simpa [setThread, hset u hut] using h.unborn u hun hm
    · intro u hu
      have hm : .join p u ∈ past := by simpa using hu
      have hut : u ≠ t := by
        rintro rfl
        rw [h.joined u hm] at ht
        cases ht
      simpa [setThread, hset u hut] using h.joined u hm
    · intro hp
      obtain ⟨hrel, hctl⟩ := h.control hp
      refine ⟨fun hm => hrel (by simpa using hm), ?_⟩
      rw [hhandlers]
      exact hctl
  · cases hs

/-- A thread moves. -/
theorem PoolOk.move (h : PoolOk z past sig p c) {t : Nat} {a : ThreadAct} (hm : ThreadMove c t a c')
    {sig' : Sig} (hs : p ≠ .control → sig' = sig) (hc : p = .control → ControlOk past sig' c') :
    PoolOk z past sig' p c' := by
  obtain ⟨pc, pc', ht, hpc, hpc', hset, hex, -, -⟩ := hm.threads
  have hlt := (List.getElem?_eq_some_iff.1 ht).1
  have hother (u : Nat) (hu : u ≠ t) : c'.threads[u]? = c.threads[u]? := by
    rw [hset, List.getElem?_set_ne (Ne.symm hu)]
  have hself : c'.threads[t]? = some pc' := by rw [hset, List.getElem?_set_self hlt]
  have hstart := h.start_mem ht hpc
  refine ⟨?_, h.ok.move hm, ?_, ?_, ?_, ?_, ?_, ?_, hc⟩
  · rw [hset, List.length_set, h.size]
  · intro u hu
    by_cases hut : u = t
    · subst hut
      rw [hself]
      exact fun heq => hpc' (Option.some.inj heq)
    · rw [hother u hut]
      exact h.born u hu
  · intro u hun hu
    have hut : u ≠ t := by
      rintro rfl
      exact hu hstart
    rw [hother u hut]
    exact h.unborn u hun hu
  · intro u hu
    have hut : u ≠ t := by
      rintro rfl
      rw [h.joined u hu] at ht
      exact hex (Option.some.inj ht).symm
    rw [hother u hut]
    exact h.joined u hu
  · rw [hm.guard]
    exact h.guard
  · intro hp hst
    rw [hm.stopped_of_guard (h.guard hp)] at hst
    rw [hs hp]
    exact h.stopped hp hst
  · intro hp hst
    have hne : p ≠ .control := by
      rintro rfl
      rcases hp with hp | hp
      · obtain ⟨i, -, heq⟩ := mem_mains.1 hp
        cases heq
      · cases hp
    rw [hs hne] at hst
    rw [hm.stopped_of_guard (h.guard hne)]
    exact h.stops hp hst

end

/-- One pool changes. -/
theorem pools_update {past past' : List MainOp} {sig sig' : Sig} {pools : PoolId → IoContext}
    (h : ∀ q, PoolOk z past sig q (pools q)) {p : PoolId} {c : IoContext} (hp : PoolOk z past' sig' p c)
    (hother : ∀ q, q ≠ p → PoolOk z past sig q (pools q) → PoolOk z past' sig' q (pools q)) :
    ∀ q, PoolOk z past' sig' q (Function.update pools p c q) := by
  intro q
  by_cases hq : q = p
  · subst hq
    rw [Function.update_self]
    exact hp
  · rw [Function.update_of_ne hq]
    exact hother q hq (h q)

/-! ## Every step keeps the invariant -/

/-- The main thread does something that neither arms the signal nor ends the function. -/
theorem Inv.main_op (hI : Inv z s) {op : MainOp} {rest : List MainOp} (hr : s.rest = op :: rest)
    (hc : op ≠ .closeAll) (hw : op ≠ .asyncWait) {pools : PoolId → IoContext} {http db : Bool}
    (hpool : ∀ p, PoolOk z (s.past ++ [op]) s.sig p (pools p))
    (hhttp : .initHttp ∈ s.past ++ [op] → .closeHttp ∉ s.past ++ [op] → http = true)
    (hdb : .initDatabase ∈ s.past ++ [op] → db = true) :
    Inv z { s with past := s.past ++ [op], rest, pools, httpServer := http, dbServer := db } := by
  obtain ⟨hprog, hended, hclose, -⟩ := hI.going hr
  refine ⟨.going (by simpa using hprog) hended ?_, hpool, ?_, hI.signal,
    fun hu ha => List.mem_append_left _ (hI.begun hu ha), hhttp, fun hm _ => hdb hm⟩
  · simpa [hc.symm] using hclose
  · simpa [hw.symm] using hI.armed

theorem Inv.fail (hI : Inv z s) {e : Ended} (he : e ≠ .returned true)
    (hr : s.rest.head? = some .initDatabase ∨ s.rest.head? = some .initHttp) :
    Inv z { s with rest := [], dbServer := false, ended := some e } := by
  have hpast : ∀ op ∈ s.past, op ∈ setUp := by
    obtain ⟨op, rest, hrest, hop⟩ : ∃ op rest, s.rest = op :: rest ∧ (op = .initDatabase ∨ op = .initHttp) := by
      cases hrest : s.rest with
      | nil => rw [hrest] at hr; simp at hr
      | cons op rest => rw [hrest] at hr; exact ⟨op, rest, rfl, by simpa using hr⟩
    obtain ⟨hprog, -, -, -⟩ := hI.going hrest
    intro x hx
    -- what is after `setUp` comes after `op`
    by_contra hn
    have hop' : op ∈ s.past := by
      refine hI.before (a := setUp) (b := startPools z ++ (waitPools z ++ tearDown)) rfl ?_ hn hn hx
      rcases hop with rfl | rfl
      · simp [setUp]
      · simp [setUp]
    exact (hI.going hrest).2.2.2 hop'
  refine ⟨.failed hpast rfl (by simp) (by simpa using he), hI.pool, hI.armed, hI.signal, hI.begun, hI.http,
    fun _ h => by cases h⟩

theorem inv_main (hI : Inv z s) {op : MainOp} {rest : List MainOp} (hr : s.rest = op :: rest)
    (h : mainStep z { s with past := s.past ++ [op], rest := rest } op = some s') : Inv z s' := by
  obtain ⟨hprog, hended, hclose, hnew⟩ := hI.going hr
  have hkeep (hs : ∀ p t, op ≠ .start p t) (hj : ∀ p t, op ≠ .join p t) (hrel : op ≠ .release .control) (p : PoolId) :
      PoolOk z (s.past ++ [op]) s.sig p (s.pools p) := (hI.pool p).other_op (hs p) (hj p) fun _ => hrel
  cases op with
  | initDatabase =>
    cases h
    exact hI.main_op hr (by simp) (by simp) (hkeep (by simp) (by simp) (by simp))
      (fun hm hn => hI.http (by simpa using hm) fun hm => hn (List.mem_append_left _ hm)) (fun _ => rfl)
  | asyncWait =>
    cases h
    have hsig : s.sig = .unarmed := hI.armed.2 hnew
    obtain ⟨hrel, hctl⟩ := (hI.pool .control).control rfl
    rw [hsig] at hctl
    obtain ⟨hst, hg, hp, hh⟩ := hctl
    have hcontrol := hkeep (by simp) (by simp) (by simp) .control
    refine ⟨.going (by simpa using hprog) hended (by simpa using hclose), ?_, by simp, ?_, ?_, ?_, ?_⟩
    · refine pools_update hI.pool ?_ fun q hq hok => (hok.other_op (by simp) (by simp) (by simp)).other_stop ?_ ?_ fun hc => absurd hc hq
      · refine ⟨hcontrol.size, hcontrol.ok.post, hcontrol.born, hcontrol.unborn, hcontrol.joined, hcontrol.guard,
          fun hp => absurd rfl hp, ?_, fun _ => ⟨fun hm => hrel (by simpa using hm), hst, ?_, hh⟩⟩
        · exact fun _ hf => hf.elim
        · simp [IoContext.post, hp]
      · rw [hsig]
        exact id
      · rw [hsig]
        exact fun _ => id
    · intro ops hops
      cases hops
    · exact fun _ ha => absurd rfl ha
    · exact fun hm hn => hI.http (by simpa using hm) fun hm => hn (List.mem_append_left _ hm)
    · exact fun hm he => hI.db (by simpa using hm) he
  | initHttp =>
    cases h
    refine hI.main_op hr (by simp) (by simp) ?_ (fun _ _ => rfl) fun hm => hI.db (by simpa using hm) hended
    have hback := hkeep (by simp) (by simp) (by simp) z.back
    exact pools_update hI.pool (hback.post (by simp [PoolSizes.back])) fun q _ _ =>
      hkeep (by simp) (by simp) (by simp) q
  | release p =>
    cases h
    obtain rfl : p = .control := release_mem (hprog ▸ List.mem_append_right _ List.mem_cons_self)
    refine hI.main_op hr (by simp) (by simp) ?_ (fun hm hn => hI.http (by simpa using hm) fun hm =>
      hn (List.mem_append_left _ hm)) fun hm => hI.db (by simpa using hm) hended
    refine pools_update hI.pool ?_ fun q hq hok => hok.other_op (by simp) (by simp) fun hc => absurd hc hq
    have hok := hI.pool .control
    obtain ⟨-, hctl⟩ := hok.control rfl
    refine ⟨hok.size, hok.ok.release, fun t ht => hok.born t (by simpa using ht), fun t htn ht => hok.unborn t htn
      fun hm => ht (List.mem_append_left _ hm), fun t ht => hok.joined t (by simpa using ht),
      fun hp => absurd rfl hp, fun hp => absurd rfl hp, ?_, fun _ => ⟨fun _ => rfl, ?_⟩⟩
    · rintro (hp | hp)
      · obtain ⟨i, -, heq⟩ := mem_mains.1 hp
        cases heq
      · cases hp
    · -- the wait for the signal is work
      have hwait : .asyncWait ∈ s.past := by
        have hprog' : s.past ++ .release .control :: rest = setUp ++ (startPools z ++ (waitPools z ++ tearDown)) := hprog
        exact mem_past hprog' (by simp [setUp]) (by simp [setUp])
      cases hsig : s.sig with
      | unarmed => exact absurd hwait (hI.armed.1 hsig)
      | armed =>
        rw [hsig] at hctl
        obtain ⟨hst, hp, hh⟩ := hctl
        exact ⟨by simp [IoContext.release, settle, hasWork, hst, hp], hp, hh⟩
      | running ops =>
        rw [hsig] at hctl
        obtain ⟨hst, hg, hp, hh⟩ := hctl
        refine ⟨?_, rfl, hp, hh⟩
        have hwork : total ThreadPc.handlers (s.pools .control).threads = 1 := hh
        simp [IoContext.release, settle, hasWork, handlers, hst, hwork]
      | done =>
        rw [hsig] at hctl
        obtain ⟨hst, hg, hp, hh⟩ := hctl
        exact ⟨by simp [IoContext.release, settle, hst], rfl, hp, hh⟩
  | start p t =>
    obtain ⟨c, hc, rfl⟩ := Option.map_eq_some_iff.1 h
    refine hI.main_op hr (by simp) (by simp) ?_ (fun hm hn => hI.http (by simpa using hm) fun hm =>
      hn (List.mem_append_left _ hm)) fun hm => hI.db (by simpa using hm) hended
    refine pools_update hI.pool ((hI.pool p).start hc) fun q hq hok => hok.other_op ?_ (by simp) (by simp)
    rintro u heq
    cases heq
    exact hq rfl
  | join p t =>
    simp only [mainStep] at h
    split at h
    · rename_i hexited
      cases h
      refine hI.main_op hr (by simp) (by simp) (fun q => ?_) (fun hm hn => hI.http (by simpa using hm) fun hm =>
        hn (List.mem_append_left _ hm)) fun hm => hI.db (by simpa using hm) hended
      have hok := hI.pool q
      refine ⟨hok.size, hok.ok, fun u hu => hok.born u (by simpa using hu), fun u hun hu => hok.unborn u hun
        fun hm => hu (List.mem_append_left _ hm), fun u hu => ?_, hok.guard, hok.stopped, hok.stops, fun hq =>
        ⟨fun hm => (hok.control hq).1 (by simpa using hm), (hok.control hq).2⟩⟩
      rcases List.mem_append.1 hu with hu | hu
      · exact hok.joined u hu
      · cases List.mem_singleton.1 hu
        exact hexited
    · cases h
  | closeHttp =>
    cases h
    exact hI.main_op hr (by simp) (by simp) (hkeep (by simp) (by simp) (by simp))
      (fun _ hn => absurd (by simp) hn) fun hm => hI.db (by simpa using hm) hended
  | resetBack =>
    cases h
    exact hI.main_op hr (by simp) (by simp) (hkeep (by simp) (by simp) (by simp))
      (fun hm hn => hI.http (by simpa using hm) fun hm => hn (List.mem_append_left _ hm))
      fun hm => hI.db (by simpa using hm) hended
  | closeAll =>
    cases h
    refine ⟨.returned (by simpa using hprog) rfl (by simp), hkeep (by simp) (by simp) (by simp), ?_, hI.signal,
      fun hu ha => List.mem_append_left _ (hI.begun hu ha), ?_, ?_⟩
    · simpa using hI.armed
    · exact fun hm hn => hI.http (by simpa using hm) fun hm => hn (List.mem_append_left _ hm)
    · exact fun _ he => by cases he

/-- A thread of a main pool or of the database pool moves. -/
theorem inv_thread (hI : Inv z s) {p : PoolId} (hp : p ≠ .control) {t : Nat} {a : ThreadAct} {c : IoContext}
    (h : (s.pools p).threadStep t a = some c) : Inv z (s.setPool p c) where
  main := hI.main
  pool := pools_update hI.pool ((hI.pool p).move (threadStep_move h) (fun _ => rfl) fun hc => absurd hc hp)
    fun _ _ hok => hok
  armed := hI.armed
  signal := hI.signal
  begun := hI.begun
  http := hI.http
  db := hI.db

/-- The state of the signal handler changes, and with it a pool. -/
theorem Inv.setSig (hI : Inv z s) {p : PoolId} {c : IoContext} {sig : Sig} {interrupted : Bool}
    (hpool : ∀ q, PoolOk z s.past sig q (Function.update s.pools p c q)) (h : s.sig ≠ .unarmed)
    (h' : sig ≠ .unarmed) (hops : ∀ ops, sig = .running ops → ops <:+ signalOps z) (hrel : .release .control ∈ s.past) : Inv z { s.setPool p c with sig := sig, interrupted := interrupted } where
  main := hI.main
  pool := hpool
  armed := iff_of_false h' fun hn => h (hI.armed.2 hn)
  signal := hops
  begun _ _ := hrel
  http := hI.http
  db := hI.db

theorem signalOps_nodup (z : PoolSizes) : (signalOps z).Nodup := by
  have hmains : z.mains.Nodup := List.nodup_range.map fun a b heq => PoolId.main.inj heq
  have hpools : (z.mains ++ [PoolId.database]).Nodup := by
    refine List.nodup_append'.2 ⟨hmains, List.nodup_singleton _, ?_⟩
    intro p hp hp'
    obtain ⟨i, -, rfl⟩ := mem_mains.1 hp
    simp at hp'
  refine List.nodup_append'.2 ⟨hpools.map fun a b heq => SigOp.stop.inj heq, List.nodup_singleton _, ?_⟩
  intro op hop hop'
  obtain ⟨p, -, rfl⟩ := List.mem_map.1 hop
  simp at hop'

theorem mem_signalOps {p : PoolId} : .stop p ∈ signalOps z ↔ p ∈ z.mains ∨ p = .database := by
  simp only [signalOps, List.mem_append, List.mem_map, List.mem_singleton, reduceCtorEq, or_false]
  constructor
  · rintro ⟨q, hq, heq⟩
    cases heq
    exact hq
  · exact fun h => ⟨p, h, rfl⟩

/-- A thread of the control pool moves. -/
theorem inv_control (hI : Inv z s) {t : Nat} {a : ThreadAct} (h : poolStep z s .control t a = some s') :
    Inv z s' := by
  have hok := hI.pool .control
  obtain ⟨hrel, hctl⟩ := hok.control rfl
  cases a with
  | throw => cases h
  | invoke =>
    simp only [poolStep] at h
    split at h
    · rename_i harmed
      obtain ⟨c, hc, rfl⟩ := Option.map_eq_some_iff.1 h
      have hm := threadStep_move hc
      rw [harmed] at hctl
      obtain ⟨hst, hp, hh⟩ := hctl
      obtain ⟨pc, -, ht, hpc, -⟩ := hm.threads
      have hreleased := hI.release_of_start (hok.start_mem ht hpc)
      have hg := hrel hreleased
      have hcounts := hm.counts
      simp only [hp, hh, reduceCtorEq, or_self, false_and, or_false, true_and] at hcounts
      obtain ⟨hp', hh'⟩ := hcounts
      have hst' : c.stopped = false := by
        cases hm with
        | invoke _ hs _ => exact hs
      refine hI.setSig (pools_update hI.pool ?_ fun q hq hq' => hq'.other_stop ?_ ?_ fun hc => absurd hc hq)
        (by simp [harmed]) (by simp) (fun ops hops => by cases hops; exact List.suffix_refl _) hreleased
      · refine hok.move hm (fun hp => absurd rfl hp) fun _ => ⟨fun _ => hm.guard.trans hg, hst', hm.guard.trans hg, ?_,
          by omega⟩
        omega
      · rw [harmed]
        exact fun hf => hf.elim
      · exact fun hq hn => absurd (mem_signalOps.2 hq) hn
    · cases h
  | finish =>
    simp only [poolStep] at h
    split at h
    · rename_i hrunning
      obtain ⟨c, hc, rfl⟩ := Option.map_eq_some_iff.1 h
      have hm := threadStep_move hc
      rw [hrunning] at hctl
      obtain ⟨hst, hg, hp, hh⟩ := hctl
      have hcounts := hm.counts
      simp only [hp, hh, reduceCtorEq, or_self, false_and, or_false, false_or, true_and] at hcounts
      obtain ⟨hp', hh'⟩ := hcounts
      have hok' := hok.ok.move hm
      have hst' : c.stopped = true := by
        apply hok'.work
        have hh0 : c.handlers = 0 := by omega
        simp [hasWork, hm.guard.trans hg, hp', hh0]
      refine hI.setSig (pools_update hI.pool ?_ fun q hq hq' => hq'.other_stop ?_ ?_ fun hc => absurd hc hq)
        (by simp [hrunning]) (by simp) (fun ops hops => by cases hops)
        (hI.begun (by simp [hrunning]) (by simp [hrunning]))
      · exact hok.move hm (fun hp => absurd rfl hp) fun _ => ⟨fun _ => hm.guard.trans hg, hst', hm.guard.trans hg, hp',
          by omega⟩
      · exact fun _ => trivial
      · rw [hrunning]
        exact fun _ _ => List.not_mem_nil
    · cases h
  | test | leave =>
    obtain ⟨c, hc, rfl⟩ := Option.map_eq_some_iff.1 h
    have hm := threadStep_move hc
    have hcounts := hm.counts
    simp only [reduceCtorEq, or_self, false_and, or_true, true_or, true_and, false_or] at hcounts
    obtain ⟨hp', hh', hst'⟩ := hcounts
    have hctl' : ControlOk s.past s.sig c := by
      refine ⟨fun hr => hm.guard.trans (hrel hr), ?_⟩
      rw [hp', hh', hst', hm.guard]
      exact hctl
    exact ⟨hI.main, pools_update hI.pool (hok.move hm (fun _ => rfl) fun _ => hctl') fun _ _ hq => hq, hI.armed,
      hI.signal, hI.begun, hI.http, hI.db⟩

/-- **Every step keeps the invariant.** -/
theorem inv_step (hI : Inv z s) {a : ProcessAct} (h : processStep z s a = some s') : Inv z s' := by
  cases a with
  | main =>
    simp only [processStep] at h
    split at h
    · cases h
    · exact inv_main hI (by assumption) h
  | fail threw =>
    simp only [processStep] at h
    split at h
    · rename_i hhead
      cases h
      refine hI.fail ?_ hhead
      split
      · simp
      · simp
    · cases h
  | thread p t a =>
    simp only [processStep] at h
    by_cases hp : p = .control
    · subst hp
      exact inv_control hI h
    · have hstep : poolStep z s p t a = ((s.pools p).threadStep t a).map (s.setPool p) := by
        cases p with
        | control => exact absurd rfl hp
        | main i => rfl
        | database => rfl
      rw [hstep] at h
      obtain ⟨c, hc, rfl⟩ := Option.map_eq_some_iff.1 h
      exact inv_thread hI hp hc
  | post p t q =>
    simp only [processStep] at h
    split at h
    · rename_i hg
      cases h
      exact ⟨hI.main, pools_update hI.pool ((hI.pool q).post hg.2.1) fun _ _ hq => hq, hI.armed, hI.signal, hI.begun,
        hI.http, hI.db⟩
    · cases h
  | signal =>
    simp only [processStep] at h
    split at h
    · rename_i p ops hsig
      cases h
      obtain ⟨done, hdone⟩ := hI.signal _ hsig
      have hnodup := hdone ▸ signalOps_nodup z
      have hp : p ∈ z.mains ∨ p = .database := mem_signalOps.1 (hdone ▸ List.mem_append_right _ List.mem_cons_self)
      have hpc : p ≠ .control := by
        rintro rfl
        rcases hp with hp | hp
        · obtain ⟨i, -, heq⟩ := mem_mains.1 hp
          cases heq
        · cases hp
      have hnew : .stop p ∉ ops := (List.nodup_cons.1 (List.nodup_append'.1 hnodup).2.1).1
      refine hI.setSig (pools_update hI.pool ?_ fun q hq hok => ?_) (by simp [hsig]) (by simp) ?_
        (hI.begun (by simp [hsig]) (by simp [hsig]))
      · exact (hI.pool p).context hpc Ok.stop rfl rfl (fun _ => hnew) fun _ _ => rfl
      · refine hok.other_stop ?_ ?_ fun hqc => ?_
        · rw [hsig]
          exact fun hn hm => hn (List.mem_cons_of_mem _ hm)
        · rw [hsig]
          exact fun _ hn hm => hn (by simpa [hq] using hm)
        · have hctl := hok.control hqc
          rw [hsig] at hctl
          exact hctl
      · intro ops' hops
        cases hops
        exact ⟨done ++ [.stop p], by simpa using hdone⟩
    · rename_i ops hsig
      cases h
      obtain ⟨done, hdone⟩ := hI.signal _ hsig
      refine ⟨hI.main, fun q => (hI.pool q).other_stop ?_ ?_ fun hqc => ?_, ?_, ?_, ?_, hI.http, hI.db⟩
      · rw [hsig]
        exact fun hn hm => hn (List.mem_cons_of_mem _ hm)
      · rw [hsig]
        exact fun _ hn hm => hn (by simpa using hm)
      · have hctl := (hI.pool q).control hqc
        rw [hsig] at hctl
        exact hctl
      · exact iff_of_false (by simp) fun hn => by simp [hI.armed.2 hn] at hsig
      · intro ops' hops
        cases hops
        exact ⟨done ++ [.interrupt], by simpa using hdone⟩
      · exact fun _ _ => hI.begun (by simp [hsig]) (by simp [hsig])
    · cases h

theorem poolOk_init (z : PoolSizes) (p : PoolId) :
    PoolOk z [] .unarmed p { threads := List.replicate (z.numThreads p) .unborn } where
  size := List.length_replicate
  ok := ok_init _
  born := by simp
  unborn t ht _ := List.getElem?_replicate_of_lt ht
  joined := by simp
  guard _ := rfl
  stopped _ h := by cases h
  stops _ h := h.elim
  control _ := ⟨by simp, rfl, rfl, rfl, total_replicate _ _ rfl⟩

theorem inv_init (z : PoolSizes) : Inv z (Process.init z) where
  main := .going rfl rfl (by simp [Process.init])
  pool := poolOk_init z
  armed := by simp [Process.init]
  signal := by simp [Process.init]
  begun := by simp [Process.init]
  http := by simp [Process.init]
  db := by simp [Process.init]

theorem inv_run {as : List ProcessAct} (h : exec (processStep z) (Process.init z) as = some s) : Inv z s :=
  exec_invariant (fun _ => True) (Inv z) (fun _ _ _ _ hs hstep => inv_step hs hstep) (by simp) (inv_init z) h

end

/-! ## No handler without its servers -/

/-- A step of a pool thread or of the signal handler. -/
def ProcessAct.ofPools : ProcessAct → Bool
  | .main | .fail _ => false
  | .thread _ _ _ | .post _ _ _ | .signal => true

section
variable {z : PoolSizes} {s : Process}

/-- While a thread is in its loop, the main thread has not got past joining it. -/
theorem Inv.alive (hI : Inv z s) {p : PoolId} {t : Nat} {pc : ThreadPc} (ht : (s.pools p).threads[t]? = some pc)
    (hu : pc ≠ .unborn) (he : pc ≠ .exited) : .closeHttp ∉ s.past ∧ s.ended = none := by
  have hok := hI.pool p
  have hstart := hok.start_mem ht hu
  obtain ⟨hp, htn⟩ := hI.has_of_start hstart
  have hopen : ∀ op ∈ tearDown, op ∉ s.past := by
    intro op hop hm
    rw [hok.joined t (hI.joins_of_close hop hm hp htn)] at ht
    exact he (Option.some.inj ht).symm
  refine ⟨hopen _ (by simp [tearDown]), ?_⟩
  cases hI.main with
  | going h he hc => exact he
  | returned h he hc => exact absurd hc (hopen _ (by simp [tearDown]))
  | failed h => exact absurd (h _ hstart) (by simp [setUp])

theorem exists_handling {c : IoContext} (h : c.handlers = 1) : ∃ t : Nat, c.threads[t]? = some .handling := by
  obtain ⟨pc, hpc, hpos⟩ := exists_of_total_pos (f := ThreadPc.handlers) (l := c.threads) (by
    have : total ThreadPc.handlers c.threads = 1 := h
    omega)
  obtain ⟨t, ht⟩ := List.mem_iff_getElem?.1 hpc
  cases pc with
  | handling => exact ⟨t, ht⟩
  | _ => cases hpos

end

/-- **The servers outlive their handlers.** In every interleaving of the main thread, the pools and the signal:
while any thread is in a handler, `http_srv` and `db_srv` are there; and once `http_srv` is gone, or
`application::run` has been left in whatever way, no thread of a pool and no signal handler takes a step. -/
theorem servers_outlive_handlers (hw : UInt32) (cfg : Config.Configuration) (as : List ProcessAct) (s : Process)
    (h : exec (processStep (poolSizes hw cfg)) (Process.init (poolSizes hw cfg)) as = some s) :
    (∀ p (t : Nat), (s.pools p).threads[t]? = some .handling →
      s.httpServer = true ∧ s.dbServer = true ∧ s.ended = none) ∧
    (.closeHttp ∈ s.past ∨ s.ended ≠ none → ∀ a, a.ofPools = true → processStep (poolSizes hw cfg) s a = none) := by
  have hI := inv_run h
  constructor
  · intro p t ht
    obtain ⟨hclose, hended⟩ := hI.alive ht (by simp) (by simp)
    have hset : ∀ op ∈ setUp, op ∈ s.past := fun op hop =>
      hI.setUp_of_start ((hI.pool p).start_mem ht (by simp)) hop
    exact ⟨hI.http (hset _ (by simp [setUp])) hclose, hI.db (hset _ (by simp [setUp])) hended, hended⟩
  · intro hgone a ha
    have hquiet {p : PoolId} {t : Nat} {pc : ThreadPc} (ht : (s.pools p).threads[t]? = some pc)
        (hu : pc ≠ .unborn) (he : pc ≠ .exited) : False := by
      obtain ⟨hclose, hended⟩ := hI.alive ht hu he
      rcases hgone with hm | hm
      · exact hclose hm
      · exact hm hended
    cases a with
    | main | fail => cases ha
    | thread p t a =>
      rw [Option.eq_none_iff_forall_ne_some]
      intro s' hs'
      -- a step is taken by a thread in its loop
      have hmove : ∃ c, (s.pools p).threadStep t a = some c := by
        simp only [processStep, poolStep] at hs'
        split at hs'
        · split at hs'
          · obtain ⟨c, hc, -⟩ := Option.map_eq_some_iff.1 hs'; exact ⟨c, hc⟩
          · cases hs'
        · split at hs'
          · obtain ⟨c, hc, -⟩ := Option.map_eq_some_iff.1 hs'; exact ⟨c, hc⟩
          · cases hs'
        · cases hs'
        · obtain ⟨c, hc, -⟩ := Option.map_eq_some_iff.1 hs'; exact ⟨c, hc⟩
      obtain ⟨c, hc⟩ := hmove
      obtain ⟨pc, -, ht, hu, -, -, he, -⟩ := (threadStep_move hc).threads
      exact hquiet ht hu he
    | post p t q =>
      simp only [processStep]
      split
      · rename_i hg
        exact (hquiet hg.2.2 (by simp) (by simp)).elim
      · rfl
    | signal =>
      have hnot (ops : List SigOp) : s.sig ≠ .running ops := by
        intro hsig
        have hctl := ((hI.pool .control).control rfl).2
        rw [hsig] at hctl
        obtain ⟨t, ht⟩ := exists_handling hctl.2.2.2
        exact hquiet ht (by simp) (by simp)
      simp only [processStep]
      split
      · exact absurd (by assumption) (hnot _)
      · exact absurd (by assumption) (hnot _)
      · rfl

/-- One thread in each pool; the accept loop runs, and its first handler throws. -/
def acceptThrows : List ProcessAct :=
  List.replicate 7 .main ++ [.thread (.main 0) 0 .test, .thread (.main 0) 0 .invoke, .thread (.main 0) 0 .throw,
    .thread (.main 0) 0 .test]

theorem servers_outlive_handlers_accept : ∃ s,
    exec (processStep (poolSizes 1 {})) (Process.init (poolSizes 1 {})) (acceptThrows.take 9) = some s ∧
    (s.pools (.main 0)).threads[0]? = some .handling ∧ s.httpServer = true ∧ s.dbServer = true ∧ s.ended = none := by
  have hrun : ((exec (processStep (poolSizes 1 {})) (Process.init (poolSizes 1 {})) (acceptThrows.take 9)).map
      fun s => (s.pools (.main 0)).threads[0]?) = some (some .handling) := by decide
  obtain ⟨s, hs, ht⟩ := Option.map_eq_some_iff.1 hrun
  exact ⟨s, hs, ht, (servers_outlive_handlers 1 {} _ s hs).1 _ _ ht⟩

/-- **The server serves until the signal.** Before the signal handler has begun, whatever exceptions left the
handlers of the pools: no thread that was started has ended, no pool has stopped, and `application::run` has not
returned true. -/
theorem serves_until_signalled (hw : UInt32) (cfg : Config.Configuration) (as : List ProcessAct) (s : Process)
    (h : exec (processStep (poolSizes hw cfg)) (Process.init (poolSizes hw cfg)) as = some s)
    (hsig : s.sig = .unarmed ∨ s.sig = .armed) :
    (∀ p, (s.pools p).stopped = false) ∧
    (∀ p t, .start p t ∈ s.past → ∃ pc, (s.pools p).threads[t]? = some pc ∧
      (pc = .testing ∨ pc = .running ∨ pc = .handling)) ∧
    s.ended ≠ some (.returned true) := by
  have hI := inv_run h
  have hstopped (p : PoolId) : (s.pools p).stopped = false := by
    have hok := hI.pool p
    by_cases hp : p = .control
    · subst hp
      have hctl := (hok.control rfl).2
      rcases hsig with hs | hs
      · rw [hs] at hctl; exact hctl.1
      · rw [hs] at hctl; exact hctl.1
    · cases hst : (s.pools p).stopped with
      | false => rfl
      | true =>
        have hnot := hok.stopped hp hst
        rcases hsig with hs | hs
        · rw [hs] at hnot; exact hnot.elim
        · rw [hs] at hnot; exact hnot.elim
  have hexited (p : PoolId) (t : Nat) : (s.pools p).threads[t]? ≠ some .exited := by
    intro ht
    have := (hI.pool p).ok.exited t ht
    rw [hstopped p] at this
    cases this
  refine ⟨hstopped, ?_, ?_⟩
  · intro p t hm
    have hok := hI.pool p
    have hlt : t < (s.pools p).threads.length := by
      rw [hok.size]
      exact (hI.has_of_start hm).2
    refine ⟨_, List.getElem?_eq_getElem hlt, ?_⟩
    have hborn := hok.born t hm
    have hex := hexited p t
    rw [List.getElem?_eq_getElem hlt] at hborn hex
    cases hpc : (s.pools p).threads[t] with
    | unborn => rw [hpc] at hborn; exact absurd rfl hborn
    | exited => rw [hpc] at hex; exact absurd rfl hex
    | testing => exact Or.inl rfl
    | running => exact Or.inr (Or.inl rfl)
    | handling => exact Or.inr (Or.inr rfl)
  · intro hended
    cases hI.main with
    | going h he hc => rw [he] at hended; cases hended
    | returned h he hc =>
      have hjoin := hI.joins_of_close (by simp [tearDown]) hc (p := .control) (t := 0) (Or.inl rfl)
        ((poolSizes hw cfg).numThreads_pos _)
      exact hexited _ _ ((hI.pool _).joined 0 hjoin)
    | failed h hr he ht => exact ht hended

theorem serves_until_signalled_accept : ∃ s,
    exec (processStep (poolSizes 1 {})) (Process.init (poolSizes 1 {})) acceptThrows = some s ∧
    (s.pools (.main 0)).threads[0]? = some .running ∧ s.sig = .armed ∧ (s.pools (.main 0)).stopped = false ∧
    s.ended ≠ some (.returned true) := by
  have hrun : ((exec (processStep (poolSizes 1 {})) (Process.init (poolSizes 1 {})) acceptThrows).map
      fun s => ((s.pools (.main 0)).threads[0]?, s.sig)) = some (some .running, .armed) := by decide
  obtain ⟨s, hs, heq⟩ := Option.map_eq_some_iff.1 hrun
  obtain ⟨ht, hsig⟩ := Prod.mk.inj heq
  have hserves := serves_until_signalled 1 {} _ s hs (Or.inr hsig)
  exact ⟨s, hs, ht, hsig, hserves.1 _, hserves.2.2⟩

/-! ## The end -/

/-- Not what a handler does before it ends. -/
def ProcessAct.counts : ProcessAct → Bool
  | .post _ _ _ => false
  | _ => true

/-- Progress that needs no failure. -/
def ProcessAct.regular : ProcessAct → Bool
  | .post _ _ _ | .fail _ | .thread _ _ .throw => false
  | _ => true

section
variable {z : PoolSizes} {s s' : Process}

theorem poolStep_of_ne {p : PoolId} (hp : p ≠ .control) (t : Nat) (a : ThreadAct) :
    poolStep z s p t a = ((s.pools p).threadStep t a).map (s.setPool p) := by
  cases p with
  | control => exact absurd rfl hp
  | main i => rfl
  | database => rfl

theorem signal_step {op : SigOp} {ops : List SigOp} (hsig : s.sig = .running (op :: ops)) :
    ∃ s', processStep z s .signal = some s' := by
  cases op with
  | stop p =>
    refine ⟨{ s.setPool p (s.pools p).stop with sig := .running ops }, ?_⟩
    simp only [processStep, hsig]
  | interrupt =>
    refine ⟨{ s with sig := .running ops, interrupted := true }, ?_⟩
    simp only [processStep, hsig]

/-- A thread that was started and has not ended has a step, or the signal handler has. -/
theorem Inv.control_step (hI : Inv z s) {t : Nat} {pc : ThreadPc} (ht : (s.pools .control).threads[t]? = some pc)
    (hu : pc ≠ .unborn) (he : pc ≠ .exited) : ∃ a s', a.regular = true ∧ processStep z s a = some s' := by
  have hok := hI.pool .control
  have hctl := (hok.control rfl).2
  have hhandlers : pc = .handling → 0 < (s.pools .control).handlers := by
    rintro rfl
    exact le_total (f := ThreadPc.handlers) ht
  have hpass (a : ThreadAct) (ha : a = .test ∨ a = .leave) {c : IoContext}
      (hc : (s.pools .control).threadStep t a = some c) : ∃ a s', a.regular = true ∧ processStep z s a = some s' := by
    refine ⟨.thread .control t a, s.setPool .control c, ?_, ?_⟩
    · rcases ha with rfl | rfl
      · rfl
      · rfl
    · rcases ha with rfl | rfl
      · simp only [processStep, poolStep, hc, Option.map_some]
      · simp only [processStep, poolStep, hc, Option.map_some]
  cases hsig : s.sig with
  | unarmed =>
    have hwait : .asyncWait ∈ s.past := hI.setUp_of_start (hok.start_mem ht hu) (by simp [setUp])
    exact absurd hwait (hI.armed.1 hsig)
  | armed =>
    rw [hsig] at hctl
    obtain ⟨hst, hp, hh⟩ := hctl
    cases pc with
    | unborn => exact absurd rfl hu
    | exited => exact absurd rfl he
    | handling => have := hhandlers rfl; omega
    | testing => exact hpass .test (Or.inl rfl) (step_test ht)
    | running =>
      have hstep : ∃ s', processStep z s (.thread .control t .invoke) = some s' := by
        simp only [processStep, poolStep, hsig, if_true, step_invoke ht hst (by omega), Option.map_some]
        exact ⟨_, rfl⟩
      obtain ⟨s', hs'⟩ := hstep
      exact ⟨_, s', rfl, hs'⟩
  | running ops =>
    cases ops with
    | cons op ops =>
      obtain ⟨s', hs'⟩ := signal_step (z := z) hsig
      exact ⟨.signal, s', rfl, hs'⟩
    | nil =>
      rw [hsig] at hctl
      obtain ⟨u, hu'⟩ := exists_handling hctl.2.2.2
      have hstep : ∃ s', processStep z s (.thread .control u .finish) = some s' := by
        simp only [processStep, poolStep, hsig, if_true, step_finish hu', Option.map_some]
        exact ⟨_, rfl⟩
      obtain ⟨s', hs'⟩ := hstep
      exact ⟨_, s', rfl, hs'⟩
  | done =>
    rw [hsig] at hctl
    obtain ⟨hst, hg, hp, hh⟩ := hctl
    cases pc with
    | unborn => exact absurd rfl hu
    | exited => exact absurd rfl he
    | handling => have := hhandlers rfl; omega
    | testing => exact hpass .test (Or.inl rfl) (step_test ht)
    | running => exact hpass .leave (Or.inr rfl) (step_leave ht hst)

/-- **The process is never stuck.** -/
theorem Inv.progress (hI : Inv z s) (hended : s.ended = none) :
    ∃ a s', a.regular = true ∧ processStep z s a = some s' := by
  cases hr : s.rest with
  | nil =>
    cases hI.main with
    | going h he hc =>
      rw [hr, List.append_nil] at h
      exact absurd (by rw [h]; simp [program, tearDown]) hc
    | returned h he hc => rw [hended] at he; cases he
    | failed h hn he ht => exact absurd hended he
  | cons op rest =>
    obtain ⟨hprog, -, -, hnew⟩ := hI.going hr
    have hop : op ∈ program z := hprog ▸ List.mem_append_right _ List.mem_cons_self
    have hmain {s' : Process} (h : mainStep z { s with past := s.past ++ [op], rest := rest } op = some s') :
        ∃ a s', a.regular = true ∧ processStep z s a = some s' :=
      ⟨.main, s', rfl, by simp only [processStep, hr]; exact h⟩
    cases op with
    | initDatabase | asyncWait | initHttp | release | closeHttp | resetBack | closeAll => exact hmain rfl
    | start p t =>
      have hmem : .start p t ∈ startPools z := by
        simp only [program, List.mem_append] at hop
        rcases hop with hm | hm | hm | hm
        · simp [setUp] at hm
        · exact hm
        · obtain ⟨_, _, heq⟩ := mem_waitPools hm
          cases heq
        · simp [tearDown] at hm
      have hunborn := (hI.pool p).unborn t (start_mem.1 hmem).2 hnew
      exact hmain (by rw [mainStep, start_eq hunborn, Option.map_some])
    | join p t =>
      have hmem : .join p t ∈ waitPools z := by
        simp only [program, List.mem_append] at hop
        rcases hop with hm | hm | hm | hm
        · simp [setUp] at hm
        · rcases mem_startPools hm with ⟨_, _, heq⟩ | heq
          · cases heq
          · cases heq
        · exact hm
        · simp [tearDown] at hm
      obtain ⟨hp, htn⟩ := join_mem.1 hmem
      have hlt : t < (s.pools p).threads.length := by rw [(hI.pool p).size]; exact htn
      have hstarts : .start p t ∈ s.past := by
        refine mem_past (a := setUp ++ startPools z) (b := waitPools z ++ tearDown)
          (hprog.trans (by simp [program])) (List.mem_append_right _ (start_mem.2 ⟨hp, htn⟩)) ?_
        intro hm
        rcases List.mem_append.1 hm with hm | hm
        · simp [setUp] at hm
        · rcases mem_startPools hm with ⟨_, _, heq⟩ | heq
          · cases heq
          · cases heq
      have hborn := (hI.pool p).born t hstarts
      rw [List.getElem?_eq_getElem hlt] at hborn
      by_cases hex : (s.pools p).threads[t] = .exited
      · apply hmain
        simp only [mainStep, List.getElem?_eq_getElem hlt, hex, if_true]
        rfl
      · have ht := List.getElem?_eq_getElem hlt
        have hu : (s.pools p).threads[t] ≠ .unborn := fun heq => hborn (by rw [heq])
        by_cases hpc : p = .control
        · subst hpc
          exact hI.control_step ht hu hex
        · -- the control pool was joined first, so the signal handler has stopped this one
          have hjoin : .join .control 0 ∈ s.past := by
            refine mem_past (a := setUp ++ (startPools z ++ threadPoolWait z .control))
              (b := z.mains.flatMap (threadPoolWait z) ++ threadPoolWait z .database ++ tearDown)
              (hprog.trans (by simp [program, waitPools])) ?_ ?_
            · simp [threadPoolWait, z.numThreads_pos .control]
            · intro hm
              simp only [List.mem_append, threadPoolWait, List.mem_map] at hm
              rcases hm with hm | hm | ⟨u, -, heq⟩
              · simp [setUp] at hm
              · rcases mem_startPools hm with ⟨_, _, heq⟩ | heq
                · cases heq
                · cases heq
              · cases heq
                exact hpc rfl
          have hctl := (hI.pool .control).control rfl |>.2
          have hstopped := (hI.pool .control).ok.exited 0 ((hI.pool .control).joined 0 hjoin)
          have hsig : s.sig = .done := by
            cases hsig : s.sig with
            | done => rfl
            | unarmed | armed | running =>
              rw [hsig] at hctl
              rw [hctl.1] at hstopped
              cases hstopped
          have hst := (hI.pool p).stops (hp.resolve_left hpc) (by rw [hsig]; exact trivial)
          obtain ⟨a, c, hne, hc⟩ := threadStep_enabled hst ht hu hex
          refine ⟨.thread p t a, s.setPool p c, ?_, by simp only [processStep, poolStep_of_ne hpc, hc, Option.map_some]⟩
          cases a with
          | throw => exact absurd rfl hne
          | _ => rfl

/-! ## Steps to the end -/

def PoolSizes.all (z : PoolSizes) : List PoolId := .control :: (z.mains ++ [.database])

/-- The number of its steps that count. -/
def counted (as : List ProcessAct) : Nat := as.countP ProcessAct.counts

theorem Inv.returned (hI : Inv z s) (hsig : s.sig = .done) (he : s.ended ≠ none) : s.ended = some (.returned true) := by
  cases hI.main with
  | going h hn hc => exact absurd hn he
  | returned h ht hc => exact ht
  | failed h => exact absurd (h _ (hI.begun (by simp [hsig]) (by simp [hsig]))) (by simp [setUp])

end

end Acppsrv.App
