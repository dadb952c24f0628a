import Mathlib.Algebra.BigOperators.Ring.List
import Mathlib.Algebra.Order.BigOperators.Group.List
import Mathlib.Algebra.Order.Ring.Nat
import Acppsrv.Benchmark.Requests
/-!
# How long `requests` runs (benchmark.cpp:693-723, :778, :788, :816)

`is_done` compares the time since `worker::init` with TIME, and its caller posts the next request or none.
Nothing else ends a run: the handlers posted at the beginning stand for chains of requests, and a chain stops
with a handler that has read the clock after TIME.

* `Inv.chains`: no chain is lost, and none stops early.
* `left`: what the handlers have still to do once TIME has passed. Each step takes one off, since no reading of
  the clock can be an early one any more.
-/
namespace Acppsrv.Benchmark.Requests
open Lib

/-! ## Where handlers are -/

section
variable (deadline now : Int)

/-- The place of a handler, and of its thread in `is_done`. -/
inductive At : Pc → DonePc → Prop
  | idle : At .idle .outside
  | handled (kind : RequestKind) : At (.handled kind) .outside
  | counting (x : Increment) (todo : List Increment) (hlen : todo.length < 4) :
      At (.inDone none) (.counting (x :: todo))
  | unread : At (.inDone none) (.testing .outside)
  | read {t : Int} (t' : Int) (h : t ≤ now) : At (.inDone (some t)) (.testing (.read t'))
  | took {t : Int} (t' t'' : Int) (h : t ≤ now) : At (.inDone (some t)) (.testing (.took t' t''))
  | loading {t : Int} (vals : Counts) (c : Count) (todo : List Count) (hlen : todo.length < 4) (h : t ≤ now) :
      At (.inDone (some t)) (.loading vals (c :: todo))
  | clearing {t : Int} (vals : Counts) (c : Count) (todo : List Count) (hlen : todo.length < 4) (h : t ≤ now) :
      At (.inDone (some t)) (.clearing vals (c :: todo))
  | returned (done : Bool) (h : done = true → deadline ≤ now) : At (.returned done) .outside

/-- The steps of a thread in `is_done`, at most. -/
def threadLeft : DonePc → Nat
  | .outside => 0
  | .counting todo => todo.length + 11
  | .testing .outside => 11
  | .testing (.read _) => 10
  | .testing (.took _ _) => 9
  | .loading _ todo => todo.length + 4
  | .clearing _ todo => todo.length

/-- The steps of a handler besides these, and of the one it posts, when no clock is read before the deadline. -/
def pcLeft : Pc → Nat
  | .idle => 0
  | .handled _ => 17
  | .inDone none => 1
  | .inDone (some t) => if deadline ≤ t then 1 else 19
  | .returned done => if done then 1 else 19

/-- The handler will post another one. -/
def posts : Pc → Nat
  | .inDone (some t) => if deadline ≤ t then 0 else 1
  | .returned false => 1
  | _ => 0

end

section
variable {deadline now : Int}

theorem At.mono {now' : Int} {pc : Pc} {thread : DonePc} (h : At deadline now pc thread) (hle : now ≤ now') :
    At deadline now' pc thread := by
  cases h with
  | idle => exact .idle
  | handled kind => exact .handled kind
  | counting x todo hlen => exact .counting x todo hlen
  | unread => exact .unread
  | read t h => exact .read t (Int.le_trans h hle)
  | took t t' h => exact .took t t' (Int.le_trans h hle)
  | loading vals c todo hlen h => exact .loading vals c todo hlen (Int.le_trans h hle)
  | clearing vals c todo hlen h => exact .clearing vals c todo hlen (Int.le_trans h hle)
  | returned done h => exact .returned done fun hd => Int.le_trans (h hd) hle

theorem reading_le {pc pc' : Pc} {a : DoneAct} (h : pc.next now a = some pc') : now ≤ reading now a := by
  unfold reading
  split
  · rename_i t
    cases pc with
    | inDone tnow =>
      simp only [Pc.next, Option.ite_none_right_eq_some] at h
      exact h.1
    | idle | handled | returned => cases h
  · exact Int.le_refl now

end

section
variable {D : Type} {cfg : Cfg D} {t0 now : Int}

/-- One step of `is_done`: the places still fit, and once the deadline has passed there is less to do. -/
structure Progress (cfg : Cfg D) (t0 now : Int) (pc : Pc) (a : DoneAct) (thread : DonePc) (pc' : Pc) (thread' : DonePc) :
    Prop where
  fits : At (t0 + cfg.time) (reading now a) pc' thread'
  left : t0 + cfg.time ≤ now →
    pcLeft (t0 + cfg.time) pc' + threadLeft thread' < pcLeft (t0 + cfg.time) pc + threadLeft thread
  posts : t0 + cfg.time ≤ now → posts (t0 + cfg.time) pc' = posts (t0 + cfg.time) pc
  busy : pc ≠ .idle ∧ pc' ≠ .idle

theorem settle_inside {thread : DonePc} (h : thread ≠ .outside) (pc : Pc) : pc.settle cfg t0 thread = pc := by
  cases thread with
  | outside => exact absurd rfl h
  | counting | testing | loading | clearing => rfl

theorem settle_outside (t : Int) :
    Pc.settle cfg t0 .outside (.inDone (some t)) = .returned (decide (t0 + cfg.time ≤ t)) := by
  have hiff : cfg.time ≤ t - t0 ↔ t0 + cfg.time ≤ t := by omega
  simp only [Pc.settle, hiff]

/-- `is_done` returns with the reading it made. -/
theorem progress_return {t : Int} {a : DoneAct} {thread : DonePc} (ht : t ≤ now) (ha : reading now a = now)
    (hthread : 0 < threadLeft thread) :
    Progress cfg t0 now (.inDone (some t)) a thread (Pc.settle cfg t0 .outside (.inDone (some t))) .outside := by
  rw [settle_outside]
  refine ⟨.returned _ fun hd => ?_, fun _ => ?_, fun _ => ?_, by simp, by simp⟩
  · rw [ha]
    exact Int.le_trans (of_decide_eq_true hd) ht
  · have hout : threadLeft .outside = 0 := rfl
    by_cases hle : t0 + cfg.time ≤ t
    · simp [pcLeft, hout, hle, hthread]
    · simp [pcLeft, hout, hle, hthread]
  · by_cases hle : t0 + cfg.time ≤ t
    · simp [Requests.posts, hle]
    · simp [Requests.posts, hle]

/-- It goes on. -/
theorem progress_inside {tnow : Option Int} {a : DoneAct} {thread thread' : DonePc} (hne : thread' ≠ .outside)
    (hfits : At (t0 + cfg.time) (reading now a) (.inDone tnow) thread') (hleft : threadLeft thread' < threadLeft thread) :
    Progress cfg t0 now (.inDone tnow) a thread (Pc.settle cfg t0 thread' (.inDone tnow)) thread' := by
  rw [settle_inside hne]
  exact ⟨hfits, fun _ => by omega, fun _ => rfl, by simp, by simp⟩

theorem progress {info : Bool} {pc pc' : Pc} {a : DoneAct} {thread thread' : DonePc}
    (hat : At (t0 + cfg.time) now pc thread) (hpc : pc.next now a = some pc') (hm : DoneNext info thread a thread') :
    Progress cfg t0 now pc a thread (pc'.settle cfg t0 thread') thread' := by
  cases hm with
  | enter req =>
    cases hat with
    | handled kind =>
      simp only [Pc.next, Option.ite_none_right_eq_some, Option.some.injEq] at hpc
      obtain ⟨rfl, rfl⟩ := hpc
      refine ⟨.counting _ _ (by simp), fun _ => ?_, fun _ => rfl, by simp, by simp [Pc.settle]⟩
      simp [Pc.settle, pcLeft, threadLeft, increments]
    | idle | returned => cases hpc
  | increment x todo =>
    cases hat with
    | counting _ _ hlen =>
      cases hpc
      cases todo with
      | nil => exact progress_inside (by simp [counted]) .unread (by simp [counted, threadLeft])
      | cons y todo =>
        have hlen' : todo.length < 4 := Nat.lt_of_succ_lt hlen
        exact progress_inside (by simp [counted]) (.counting y todo hlen') (by simp [counted, threadLeft])
  | clock t =>
    cases hat with
    | unread =>
      simp only [Pc.next, Option.ite_none_right_eq_some, Option.some.injEq] at hpc
      obtain ⟨hle, rfl⟩ := hpc
      rw [settle_inside (by simp)]
      -- a reading after the deadline
      have hlate (hd : t0 + cfg.time ≤ now) : t0 + cfg.time ≤ t := by omega
      exact ⟨.read t (Int.le_refl t), fun hd => by simp [pcLeft, threadLeft, hlate hd],
        fun hd => by simp [Requests.posts, hlate hd], by simp, by simp⟩
  | busy tnow =>
    cases hat with
    | read t h => cases hpc; exact progress_return h rfl (by simp [threadLeft])
  | take tnow t =>
    cases hat with
    | read t' h => cases hpc; exact progress_inside (by simp) (.took _ _ h) (by simp [threadLeft])
  | pass tnow t hi =>
    cases hat with
    | took _ _ h => cases hpc; exact progress_inside (by simp) (.loading _ _ _ (by simp) h) (by simp [threadLeft, Count.all])
  | passSilent tnow t hi =>
    cases hat with
    | took _ _ h => cases hpc; exact progress_inside (by simp) (.clearing _ _ _ (by simp) h) (by simp [threadLeft, Count.all])
  | giveBack tnow t =>
    cases hat with
    | took _ _ h => cases hpc; exact progress_return h rfl (by simp [threadLeft])
  | load vals vals' c d todo =>
    cases hat with
    | loading _ _ _ hlen h =>
      cases hpc
      exact progress_inside (by simp) (.loading _ _ _ (Nat.lt_of_succ_lt hlen) h) (by simp [threadLeft])
  | logged vals vals' c =>
    cases hat with
    | loading _ _ _ hlen h => cases hpc; exact progress_inside (by simp) (.clearing _ _ _ (by simp) h) (by simp [threadLeft, Count.all])
  | clear vals c todo =>
    cases hat with
    | clearing _ _ _ hlen h =>
      cases hpc
      cases todo with
      | nil => exact progress_return h rfl (by simp [threadLeft])
      | cons d todo =>
        have hlen' : todo.length < 4 := Nat.lt_of_succ_lt hlen
        exact progress_inside (by simp [cleared]) (.clearing _ _ _ hlen' h) (by simp [cleared, threadLeft])

end

/-! ## Chains of requests -/

/-- Every handler, queued or running, is the present one of its chain. -/
def Strand.chains (st : Strand) : Nat := st.queue.length + if st.pc = .idle then 0 else 1

def Strand.left (deadline : Int) (st : Strand) : Nat := 18 * st.queue.length + pcLeft deadline st.pc

/-- The handlers of the strand that are still to begin, and those they post. -/
def Strand.toStart (deadline : Int) (st : Strand) : Nat := st.queue.length + posts deadline st.pc

section
variable {D : Type} {cfg : Cfg D} {s s' : State}

def left (cfg : Cfg D) (s : State) : Nat :=
  total (Strand.left (s.t0 + cfg.time)) s.strands + total threadLeft s.wrk.threads

/-- The requests handled, and to be handled once TIME has passed. -/
def handlings (cfg : Cfg D) (s : State) : Nat := s.log.length + total (Strand.toStart (s.t0 + cfg.time)) s.strands

structure Inv (cfg : Cfg D) (n : Nat) (s : State) : Prop where
  size : s.strands.length = cfg.partitions
  threads : s.wrk.threads.length = cfg.partitions
  here : ∀ (p : Nat) st thread, s.strands[p]? = some st → s.wrk.threads[p]? = some thread →
    At (s.t0 + cfg.time) s.now st.pc thread
  chains : total Strand.chains s.strands ≤ n
  stopped : total Strand.chains s.strands < n → s.t0 + cfg.time ≤ s.now

/-- A strand has a thread in `is_done`. -/
theorem Inv.thread {n : Nat} (hI : Inv cfg n s) {p : Nat} {st : Strand} (hp : s.strands[p]? = some st) :
    ∃ thread, s.wrk.threads[p]? = some thread ∧ At (s.t0 + cfg.time) s.now st.pc thread := by
  have hlt := (List.getElem?_eq_some_iff.1 hp).1
  rw [hI.size, ← hI.threads] at hlt
  exact ⟨_, List.getElem?_eq_getElem hlt, hI.here p st _ hp (List.getElem?_eq_getElem hlt)⟩

/-- Posting replaces one strand. -/
theorem post_eq {q : Nat} (req : Request) {st : Strand} (hq : s.strands[q]? = some st) :
    s.post q req = s.put q { st with queue := st.queue ++ [req] } := by
  obtain ⟨hlt, rfl⟩ := List.getElem?_eq_some_iff.1 hq
  simp only [State.post, State.put, State.mk.injEq, and_true]
  apply List.ext_getElem?
  intro j
  rw [List.getElem?_modify, List.getElem?_set]
  by_cases hj : q = j
  · subst hj
    simp [hlt]
  · simp [hj]

theorem total_post {f : Strand → Nat} {k q : Nat} (req : Request)
    (hf : ∀ st : Strand, f { st with queue := st.queue ++ [req] } = f st + k) (hq : q < s.strands.length) :
    total f (s.post q req).strands = total f s.strands + k := by
  obtain ⟨st, hst⟩ : ∃ st, s.strands[q]? = some st := ⟨_, List.getElem?_eq_getElem hq⟩
  have hset := total_set f { st with queue := st.queue ++ [req] } hst
  rw [hf] at hset
  rw [post_eq req hst]
  simp only [State.put]
  omega

/-- A strand moves, without its thread. -/
theorem Inv.of_strand {n k p : Nat} {st st' : Strand} (hI : Inv cfg n s) (hp : s.strands[p]? = some st)
    (hstrands : s'.strands = s.strands.set p st') (hwrk : s'.wrk = s.wrk) (ht0 : s'.t0 = s.t0) (hnow : s'.now = s.now)
    (hat : ∀ thread, At (s.t0 + cfg.time) s.now st.pc thread → At (s.t0 + cfg.time) s.now st'.pc thread)
    (hk : total Strand.chains s'.strands ≤ k)
    (hstop : total Strand.chains s'.strands < k → s.t0 + cfg.time ≤ s.now) : Inv cfg k s' := by
  refine ⟨by simpa [hstrands] using hI.size, hwrk ▸ hI.threads, ?_, hk, by rwa [ht0, hnow]⟩
  intro q x thread hq ht
  rw [hstrands] at hq
  rw [hwrk] at ht
  rw [ht0, hnow]
  refine forall_set (P := fun j x => ∀ thread, s.wrk.threads[j]? = some thread → At (s.t0 + cfg.time) s.now x.pc thread)
    (fun j x _ hx thread => hI.here j x thread hx) ?_ q x hq thread ht
  exact fun thread hthread => hat thread (hI.here p st thread hp hthread)

theorem Inv.post {n k q : Nat} (hI : Inv cfg n s) (req : Request) (hq : q < cfg.partitions)
    (hk : total Strand.chains s.strands + 1 ≤ k) (hstop : total Strand.chains s.strands + 1 < k → s.t0 + cfg.time ≤ s.now) :
    Inv cfg k (s.post q req) := by
  have hlt : q < s.strands.length := hI.size ▸ hq
  have hst := List.getElem?_eq_getElem hlt
  have hchains : total Strand.chains (s.post q req).strands = total Strand.chains s.strands + 1 :=
    total_post req (fun st => by simp only [Strand.chains, List.length_append, List.length_singleton]; omega) hlt
  refine ⟨?_, hI.threads, ?_, by omega, fun hlt => hstop (by omega)⟩
  · rw [post_eq req hst]
    simpa [State.put] using hI.size
  · rw [post_eq req hst]
    intro p st thread hp ht
    obtain ⟨thread', ht', hat⟩ := hI.thread hst
    refine forall_set (P := fun j x => ∀ thread, s.wrk.threads[j]? = some thread → At (s.t0 + cfg.time) s.now x.pc thread)
      (fun j x _ hx thread => hI.here j x thread hx) ?_ p st hp thread ht
    intro thread hthread
    rw [ht'] at hthread
    cases hthread
    exact hat

theorem inv_opened (cfg : Cfg D) (rows : Nat → List Row) (t0 : Int) : Inv cfg 0 (opened cfg rows t0) := by
  have hzero : total Strand.chains (opened cfg rows t0).strands = 0 := by
    refine total_eq_zero _ fun st hst => ?_
    obtain ⟨p, -, rfl⟩ := List.mem_map.1 hst
    rfl
  refine ⟨by simp [opened], by simp [opened, initWorker], ?_, hzero.le, fun hlt => by omega⟩
  intro p st thread hp ht
  obtain ⟨q, -, rfl⟩ := List.mem_map.1 (List.mem_of_getElem? hp)
  obtain rfl := List.eq_of_mem_replicate (List.mem_of_getElem? ht)
  exact .idle

/-- All chains have stopped, so one has. -/
theorem Inv.complete {n : Nat} (hI : Inv cfg n s) (hn : 0 < n) (hc : Complete s) : s.t0 + cfg.time ≤ s.now := by
  have hzero : total Strand.chains s.strands = 0 := by
    refine total_eq_zero _ fun st hst => ?_
    obtain ⟨hpc, hq⟩ := hc st hst
    simp [Strand.chains, hpc, hq]
  exact hI.stopped (by omega)

/-- A handler and its thread have at most 29 steps left, the next handler's included. -/
theorem left_le {n : Nat} (hI : Inv cfg n s) : left cfg s ≤ 29 * n := by
  have hlen : s.strands.length = s.wrk.threads.length := hI.size.trans hI.threads.symm
  have hle : left cfg s ≤ total (fun st : Strand => 29 * st.chains) s.strands := by
    refine total_add_le hlen fun p st thread hp ht => ?_
    have hat := hI.here p st thread hp ht
    obtain ⟨queue, pc, rows⟩ := st
    simp only [Strand.left, Strand.chains]
    cases hat with
    | idle | handled | unread | counting => simp [pcLeft, threadLeft]; omega
    | read | took | loading | clearing =>
      simp only [pcLeft, threadLeft, List.length_cons, reduceCtorEq, if_false]
      split
      · omega
      · omega
    | returned done =>
      cases done with
      | true => simp [pcLeft, threadLeft]; omega
      | false => simp [pcLeft, threadLeft]; omega
  have hmul : total (fun st : Strand => 29 * st.chains) s.strands = 29 * total Strand.chains s.strands := by
    exact List.sum_map_mul_left ..
  have hchains := hI.chains
  omega

/-- Of a chain, one request at most is still to begin. -/
theorem handlings_le {n : Nat} (hI : Inv cfg n s) : handlings cfg s ≤ s.log.length + n := by
  have hle : total (Strand.toStart (s.t0 + cfg.time)) s.strands ≤ total Strand.chains s.strands := by
    refine List.sum_le_sum fun st _ => ?_
    obtain ⟨queue, pc, rows⟩ := st
    simp only [Strand.toStart, Strand.chains, Nat.add_le_add_iff_left]
    cases pc with
    | idle | handled => simp [posts]
    | inDone tnow =>
      cases tnow with
      | none => simp [posts]
      | some t => simp only [posts, reduceCtorEq, if_false]; split <;> omega
    | returned done =>
      cases done with
      | true => simp [posts]
      | false => simp [posts]
  have hchains := hI.chains
  unfold handlings
  omega

/-- A strand moves; what it has still to do, and the requests to come, move with it. -/
theorem late_strand (cfg : Cfg D) (s' : State) {p : Nat} {st st' : Strand} (hp : s.strands[p]? = some st)
    (hstrands : s'.strands = s.strands.set p st') (hwrk : s'.wrk = s.wrk) (ht0 : s'.t0 = s.t0) :
    left cfg s' + st.left (s.t0 + cfg.time) = left cfg s + st'.left (s.t0 + cfg.time) ∧
    handlings cfg s' + st.toStart (s.t0 + cfg.time) + s.log.length =
      handlings cfg s + st'.toStart (s.t0 + cfg.time) + s'.log.length := by
  have hl := total_set (Strand.left (s.t0 + cfg.time)) st' hp
  have ht := total_set (Strand.toStart (s.t0 + cfg.time)) st' hp
  unfold left handlings
  rw [hstrands, hwrk, ht0]
  omega

end

section
variable {D : Type} [LT D] [DecidableLT D] [Add D] {cfg : Cfg D} {s s' : State} {n : Nat}

theorem requestOf_lt {d : Draw D} {q : Nat} {req : Request} (h : requestOf cfg d = some (q, req)) : q < cfg.partitions := by
  unfold requestOf at h
  split at h
  · cases h
    exact Nat.mod_lt _ cfg.partitions_min
  · split at h
    · obtain ⟨l, hl, hpair⟩ := Option.map_eq_some_iff.1 h
      cases hpair
      obtain ⟨key, -, hkey⟩ := Option.bind_eq_some_iff.1 hl
      split at hkey
      · cases hkey; assumption
      · cases hkey
    · obtain ⟨l, hl, hpair⟩ := Option.map_eq_some_iff.1 h
      cases hpair
      obtain ⟨key, -, hkey⟩ := Option.bind_eq_some_iff.1 hl
      split at hkey
      · cases hkey; assumption
      · cases hkey

theorem inv_move {a : Act D} (hI : Inv cfg n s) (hm : Move cfg s a s') : Inv cfg n s' := by
  cases hm with
  | @start p st req queue hp hpc hq =>
    have hsame : total Strand.chains (s.strands.set p ⟨queue, .handled req.kind, (req.execute st.rows).1⟩) =
        total Strand.chains s.strands := total_set_eq _ hp (by simp [Strand.chains, hpc, hq])
    refine hI.of_strand hp rfl rfl rfl rfl ?_ (hsame.le.trans hI.chains) fun hlt => hI.stopped (hsame ▸ hlt)
    intro thread hat
    rw [hpc] at hat
    cases hat
    exact .handled _
  | @isDone p st a pc wrk thread hp hpc hm ht =>
    obtain ⟨th, th', hth, hthreads, hnext⟩ := done_next hm
    have hlt := (List.getElem?_eq_some_iff.1 hth).1
    obtain rfl : th' = thread := by
      rw [hthreads, List.getElem?_set_self hlt] at ht
      exact Option.some.inj ht
    have hprog := progress (hI.here p st th hp hth) hpc hnext
    have hle := reading_le hpc
    have hsame : total Strand.chains (s.strands.set p { st with pc := pc.settle cfg s.t0 th' }) =
        total Strand.chains s.strands :=
      total_set_eq _ hp (by simp only [Strand.chains, if_neg hprog.busy.1, if_neg hprog.busy.2])
    refine ⟨by simpa [State.put] using hI.size, by simpa [State.put, hthreads] using hI.threads, ?_,
      hsame.le.trans hI.chains, fun hlt => Int.le_trans (hI.stopped (hsame ▸ hlt)) hle⟩
    intro q x thread hq ht
    simp only [State.put] at hq ht ⊢
    by_cases hqp : p = q
    · subst hqp
      rw [List.getElem?_set_self (List.getElem?_eq_some_iff.1 hp).1] at hq
      rw [hthreads, List.getElem?_set_self hlt] at ht
      cases hq
      cases ht
      exact hprog.fits
    · rw [List.getElem?_set_ne hqp] at hq
      rw [hthreads, List.getElem?_set_ne hqp] at ht
      exact (hI.here q x thread hq ht).mono hle
  | @stop p st d hp hpc =>
    obtain ⟨thread, hthread, hat⟩ := hI.thread hp
    rw [hpc] at hat
    have hlate : s.t0 + cfg.time ≤ s.now := by
      cases hat with
      | returned _ h => exact h rfl
    have hset := total_set Strand.chains { st with pc := .idle } hp
    have hle : Strand.chains { st with pc := .idle } ≤ st.chains := by simp [Strand.chains]
    refine hI.of_strand hp rfl rfl rfl rfl ?_ ?_ fun _ => hlate
    · intro thread hat
      rw [hpc] at hat
      cases hat
      exact .idle
    · have := hI.chains
      simp only [State.put]
      omega
  | @next p q st d req hp hpc hd =>
    have hset := total_set Strand.chains { st with pc := .idle } hp
    have hone : st.chains = Strand.chains { st with pc := .idle } + 1 := by simp [Strand.chains, hpc]
    have hchains := hI.chains
    have hput : Inv cfg (n - 1) (s.put p { st with pc := .idle }) := by
      refine hI.of_strand hp rfl rfl rfl rfl ?_ (by simp only [State.put]; omega) ?_
      · intro thread hat
        rw [hpc] at hat
        cases hat
        exact .idle
      · intro hlt
        apply hI.stopped
        simp only [State.put] at hlt
        omega
    refine hput.post req (requestOf_lt hd) (by simp only [State.put]; omega) fun hlt => hI.stopped ?_
    simp only [State.put] at hlt
    omega

/-! ## After the deadline -/

theorem move_now {a : Act D} (hm : Move cfg s a s') : s'.t0 = s.t0 ∧ s.now ≤ s'.now := by
  cases hm with
  | start | stop | next => exact ⟨rfl, Int.le_refl _⟩
  | isDone hp hpc hm ht => exact ⟨rfl, reading_le hpc⟩

/-- Each step takes one off, and no request is begun that was not to come. -/
theorem late_move {a : Act D} (hI : Inv cfg n s) (hlate : s.t0 + cfg.time ≤ s.now) (hm : Move cfg s a s') :
    left cfg s' < left cfg s ∧ handlings cfg s' = handlings cfg s := by
  cases hm with
  | @start p st req queue hp hpc hq =>
    obtain ⟨hl, ht⟩ := late_strand cfg (State.put { s with log := s.log ++ [⟨p, req, (req.execute st.rows).2⟩] } p
      ⟨queue, .handled req.kind, (req.execute st.rows).1⟩) hp rfl rfl rfl
    simp only [Strand.left, Strand.toStart, hpc, hq, pcLeft, posts, List.length_cons, State.put, List.length_append,
      List.length_nil] at hl ht ⊢
    omega
  | @isDone p st a pc wrk thread hp hpc hm ht =>
    obtain ⟨th, th', hth, hthreads, hnext⟩ := done_next hm
    obtain rfl : th' = thread := by
      rw [hthreads, List.getElem?_set_self (List.getElem?_eq_some_iff.1 hth).1] at ht
      exact Option.some.inj ht
    have hprog := progress (hI.here p st th hp hth) hpc hnext
    have hl := total_set (Strand.left (s.t0 + cfg.time)) { st with pc := pc.settle cfg s.t0 th' } hp
    have hs := total_set (Strand.toStart (s.t0 + cfg.time)) { st with pc := pc.settle cfg s.t0 th' } hp
    have hw := total_set threadLeft th' hth
    have hpcl := hprog.left hlate
    have hpcp := hprog.posts hlate
    rw [← hthreads] at hw
    simp only [left, handlings, State.put, Strand.left, Strand.toStart] at hl hs ⊢
    omega
  | @stop p st d hp hpc =>
    obtain ⟨hl, ht⟩ := late_strand cfg (s.put p { st with pc := .idle }) hp rfl rfl rfl
    simp only [Strand.left, Strand.toStart, hpc, pcLeft, posts, if_true] at hl ht
    simp only [State.put] at hl ht ⊢
    omega
  | @next p q st d req hp hpc hd =>
    obtain ⟨hl, ht⟩ := late_strand cfg (s.put p { st with pc := .idle }) hp rfl rfl rfl
    have hq : q < (s.put p { st with pc := .idle }).strands.length := by
      simpa [State.put, hI.size] using requestOf_lt hd
    have hpl := total_post (f := Strand.left (s.t0 + cfg.time)) (k := 18) req
      (fun st => by simp only [Strand.left, List.length_append, List.length_singleton]; omega) hq
    have hps := total_post (f := Strand.toStart (s.t0 + cfg.time)) (k := 1) req
      (fun st => by simp only [Strand.toStart, List.length_append, List.length_singleton]; omega) hq
    simp only [Strand.left, Strand.toStart, hpc, pcLeft, posts, Bool.false_eq_true, if_false] at hl ht
    simp only [left, handlings, State.put, State.post] at hl ht hpl hps ⊢
    omega

theorem late_run {as : List (Act D)} : ∀ {s s' : State}, Inv cfg n s → s.t0 + cfg.time ≤ s.now →
    exec (requestsStep cfg) s as = some s' → as.length + left cfg s' ≤ left cfg s ∧ handlings cfg s' = handlings cfg s := by
  induction as with
  | nil => intro s s' _ _ h; cases h; exact ⟨by simp, rfl⟩
  | cons a as ih =>
    intro s s' hI hlate h
    obtain ⟨t, ht, hrun⟩ := Option.bind_eq_some_iff.1 h
    have hm := requestsStep_move ht
    obtain ⟨ht0, hnow⟩ := move_now hm
    obtain ⟨hleft, hsame⟩ := late_move hI hlate hm
    obtain ⟨hleft', hsame'⟩ := ih (inv_move hI hm) (by omega) hrun
    refine ⟨?_, hsame'.trans hsame⟩
    rw [List.length_cons]
    omega

/-! ## Until the deadline -/

theorem inv_init {rows : Nat → List Row} {draws : Nat → Draw D} {t0 : Int} {s₀ : State}
    (h : init cfg rows n draws t0 = some s₀) : Inv cfg n s₀ :=
  init_rule (Inv cfg) (inv_opened cfg rows t0)
    (fun _ _ _ req _ hI hd => hI.post req (requestOf_lt hd) (Nat.succ_le_succ hI.chains)
      fun hlt => hI.stopped (Nat.lt_of_succ_lt_succ hlt)) h

theorem inv_run {s₀ : State} {as : List (Act D)} (hI : Inv cfg n s₀) (h : exec (requestsStep cfg) s₀ as = some s) :
    Inv cfg n s :=
  exec_invariant (fun _ => True) (Inv cfg n) (fun _ _ _ _ hI hstep => inv_move hI (requestsStep_move hstep))
    (fun _ _ => trivial) hI h

theorem t0_run {rows : Nat → List Row} {draws : Nat → Draw D} {t0 : Int} {s₀ : State} {as : List (Act D)}
    (h₀ : init cfg rows n draws t0 = some s₀) (h : exec (requestsStep cfg) s₀ as = some s) : s.t0 = t0 := by
  have hinit : s₀.t0 = t0 := init_rule (fun _ s => s.t0 = t0) rfl (fun _ _ _ _ _ hs _ => hs) h₀
  exact exec_invariant (fun _ => True) (fun s => s.t0 = t0)
    (fun _ _ _ _ hs hstep => (move_now (requestsStep_move hstep)).1.trans hs) (fun _ _ => trivial) hinit h

theorem done_enabled {info : Bool} {deadline now : Int} {w : Worker} {i : Nat} {tnow : Option Int} {thread : DonePc}
    (hat : At deadline now (.inDone tnow) thread) (ht : w.threads[i]? = some thread) :
    ∃ a, (Pc.next now (.inDone tnow) a).isSome = true ∧ (doneStep info w (i, a)).isSome = true := by
  cases hat with
  | counting x todo => exact ⟨.increment, rfl, by simp [doneStep, ht]⟩
  | unread => exact ⟨.test (.clock now), by simp [Pc.next], by simp [doneStep, ht, testStep]⟩
  | read t' h =>
    refine ⟨.test .exchange, rfl, ?_⟩
    simp only [doneStep, ht, testStep, Option.isSome_map]
    split
    · rfl
    · rfl
  | took t' t'' h =>
    refine ⟨.test .store, rfl, ?_⟩
    simp only [doneStep, ht, testStep, Option.isSome_map]
    split
    · rfl
    · rfl
  | loading vals c todo => exact ⟨.load, rfl, by simp [doneStep, ht]⟩
  | clearing vals c todo => exact ⟨.clear, rfl, by simp [doneStep, ht]⟩

/-- A handler never waits. -/
theorem Inv.goes (hI : Inv cfg n s) (hd : ∀ d, (requestOf cfg d).isSome = true) {p : Nat} {st : Strand}
    (hp : s.strands[p]? = some st) (hidle : st.pc ≠ .idle) :
    ∃ a, a.strand = p ∧ a.starts = false ∧ (requestsStep cfg s a).isSome = true := by
  obtain ⟨thread, ht, hat⟩ := hI.thread hp
  have hdone (a : DoneAct) (hpc : (st.pc.next s.now a).isSome = true)
      (hstep : (doneStep cfg.info s.wrk (p, a)).isSome = true) :
      ∃ a, a.strand = p ∧ a.starts = false ∧ (requestsStep cfg s a).isSome = true := by
    obtain ⟨pc, hpc⟩ := Option.isSome_iff_exists.1 hpc
    obtain ⟨w, hstep⟩ := Option.isSome_iff_exists.1 hstep
    obtain ⟨th, th', hth, hthreads, -⟩ := done_next (doneStep_move hstep)
    have ht' : w.threads[p]? = some th' := by
      rw [hthreads, List.getElem?_set_self (List.getElem?_eq_some_iff.1 hth).1]
    exact ⟨.isDone p a, rfl, rfl, by simp [requestsStep, hp, hpc, hstep, ht']⟩
  cases hpc : st.pc with
  | idle => exact absurd hpc hidle
  | handled kind =>
    rw [hpc] at hat
    cases hat
    exact hdone (.enter kind) (by simp [hpc, Pc.next]) (by simp [doneStep, ht])
  | inDone tnow =>
    rw [hpc] at hat
    obtain ⟨a, hnext, hstep⟩ := done_enabled hat ht
    exact hdone a (hpc ▸ hnext) hstep
  | returned done =>
    obtain ⟨x, hx⟩ := Option.isSome_iff_exists.1 (hd ⟨cfg.inserts, 0, keyOf 0⟩)
    refine ⟨.finish p ⟨cfg.inserts, 0, keyOf 0⟩, rfl, rfl, ?_⟩
    simp only [requestsStep, hp, hpc]
    split
    · rfl
    · simp only [createRequest, hx, Option.map_some, Option.isSome_some]

/-- A run that is not complete goes on: the strand of any handler that is left can take a step. -/
theorem Inv.enabled (hI : Inv cfg n s) (hd : ∀ d, (requestOf cfg d).isSome = true) (hc : ¬Complete s) :
    ∃ a, (requestsStep cfg s a).isSome = true := by
  simp only [Complete, not_forall, exists_prop] at hc
  obtain ⟨st, hst, hbusy⟩ := hc
  obtain ⟨p, hp⟩ := List.mem_iff_getElem?.1 hst
  by_cases hpc : st.pc = .idle
  · cases hq : st.queue with
    | nil => exact absurd ⟨hpc, hq⟩ hbusy
    | cons req queue => exact ⟨.start p, by simp [requestsStep, hp, hpc, hq]⟩
  · obtain ⟨a, -, -, ha⟩ := hI.goes hd hp hpc
    exact ⟨a, ha⟩

/-- Every draw from a good file makes a request. -/
theorem requestOf_isSome {data : Bytes} (hkeys : cfg.keys = ⟨data, data.length / keySz, []⟩)
    (hdata : DrawsOk cfg.partitions data []) (d : Draw D) : (requestOf cfg d).isSome = true := by
  have hsafe := hdata.safe d.rnd
  rw [← hkeys] at hsafe
  unfold requestOf
  split
  · rfl
  · split
    · simpa using hsafe.update
    · simpa using hsafe.get

end

/-- **The time of a run.** With a keys file whose keys are all in range: a complete run has lasted TIME, and a
run that is not complete goes on. Once some thread has read the clock after TIME, at most one more request of
each chain is begun, and the run is complete after a bounded number of steps, whatever the interleaving. -/
theorem requests_end {D : Type} [LT D] [DecidableLT D] [Add D] (cfg : Cfg D) (rows : Nat → List Row) (requests : Nat)
    (hreq : 0 < requests) (draws : Nat → Draw D) (t0 : Int) (data : Bytes)
    (hkeys : knownKeyGenerator data = some cfg.keys) (hdata : DrawsOk cfg.partitions data []) (s₀ : State)
    (h₀ : init cfg rows requests draws t0 = some s₀) (as : List (Act D)) (s : State)
    (h : exec (requestsStep cfg) s₀ as = some s) :
    (Complete s → t0 + cfg.time ≤ s.now) ∧
    (¬Complete s → ∃ a s', requestsStep cfg s a = some s') ∧
    (t0 + cfg.time ≤ s.now → ∀ bs s', exec (requestsStep cfg) s bs = some s' →
      bs.length ≤ 29 * requests ∧ s'.log.length ≤ s.log.length + requests) := by
  have hI := inv_run (inv_init h₀) h
  have ht0 : s.t0 = t0 := t0_run h₀ h
  have henabled (hc : ¬Complete s) := hI.enabled (requestOf_isSome (knownKeyGenerator_adds hkeys []) hdata) hc
  refine ⟨fun hc => ht0 ▸ hI.complete hreq hc, fun hc => ?_, fun hlate bs s' hrun => ?_⟩
  · obtain ⟨a, ha⟩ := henabled hc
    exact ⟨a, Option.isSome_iff_exists.1 ha⟩
  obtain ⟨hleft, hsame⟩ := late_run hI (ht0.symm ▸ hlate) hrun
  have hle := left_le hI
  have hle' := handlings_le hI
  have hlog : s'.log.length ≤ handlings cfg s' := Nat.le_add_right _ _
  constructor
  · omega
  · omega

/-- Two partitions, and a keys file with one entry; every request is an update, and TIME is 3. -/
def updatesOnly : Cfg Int where
  partitions := 2
  partitions_min := twoRecords.partitions_min
  keys := ⟨[1, 7, 0, 0, 0], 1, []⟩
  inserts := 0
  updates := 1
  time := 3
  info := true

def oneRow (p : Nat) : List Row := if p = 1 then [⟨keyOf 0, 7, 0⟩] else []

def zeroDraw : Draw Int := ⟨0, 0, keyOf 0⟩

/-- A handler of partition `p`, with the reading `t` of the clock. -/
def handler (p : Nat) (t : Int) : List (Act Int) :=
  .start p :: ([.enter .update, .increment, .increment, .increment, .increment, .test (.clock t), .test .exchange,
    .test .store].map (.isDone p)) ++ [.finish p zeroDraw]

/-- The first handler has read the clock too early, and the next one has stopped. -/
theorem requests_end_twoUpdates : ∃ s₀ s,
    init updatesOnly oneRow 2 (fun _ => zeroDraw) 1 = some s₀ ∧
    exec (requestsStep updatesOnly) s₀ (handler 1 3 ++ handler 1 4) = some s ∧
    (∃ a s', requestsStep updatesOnly s a = some s') ∧
    ∀ bs s', exec (requestsStep updatesOnly) s bs = some s' → bs.length ≤ 58 ∧ s'.log.length ≤ s.log.length + 2 := by
  have hrun : ((init updatesOnly oneRow 2 (fun _ => zeroDraw) 1).bind fun s₀ =>
      (exec (requestsStep updatesOnly) s₀ (handler 1 3 ++ handler 1 4)).map fun s => (decide (Complete s), s.now)) =
        some (false, 4) := by decide
  obtain ⟨s₀, h₀, hmap⟩ := Option.bind_eq_some_iff.1 hrun
  obtain ⟨s, hs, heq⟩ := Option.map_eq_some_iff.1 hmap
  simp only [Prod.mk.injEq, decide_eq_false_iff_not] at heq
  obtain ⟨hc, hnow⟩ := heq
  obtain ⟨-, hgo, hend⟩ := requests_end updatesOnly _ 2 (by decide) _ 1 [1, 7, 0, 0, 0] rfl
    ⟨by decide, by decide, by decide⟩ s₀ h₀ _ s hs
  exact ⟨s₀, s, h₀, hs, hgo hc, hend (by rw [hnow]; decide)⟩

end Acppsrv.Benchmark.Requests
