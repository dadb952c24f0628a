import Mathlib.Data.List.Nodup
import Mathlib.Data.List.Perm.Basic
import Mathlib.Logic.Function.Basic
/-!
# Calls that cross threads

Clients `ι` ask for something and wait for the answer; servers take the requests from one queue and post the
answers back. A call in flight is in the queue, with a server, or on its way back (`Calls.tokens`).

`Calls.Inv P waiting` says that the calls in flight are those of the waiting clients, one each, and that every
answer on its way satisfies `P` with the client and the request it answers. The four moves keep it, so no call is lost, made
twice, or answered with the answer of another one.
-/
namespace Lib

structure Calls (ι Q A : Type*) where
  queue : List (ι × Q) := []
  /-- the call a server is at, and the answer it will give; `none` when it will give none -/
  servers : List (Option ((ι × Q) × Option A))
  replies : List ((ι × Q) × A) := []

namespace Calls
variable {ι Q A : Type*}

/-- The calls in flight. -/
def tokens (c : Calls ι Q A) : List (ι × Q) :=
  c.queue ++ (c.servers.filterMap (·.map Prod.fst) ++ c.replies.map Prod.fst)

def post (c : Calls ι Q A) (i : ι) (q : Q) : Calls ι Q A := { c with queue := c.queue ++ [(i, q)] }

/-- Server `s` takes the next call. -/
def take (c : Calls ι Q A) (s : Nat) (answer : Q → Option A) : Option ((ι × Q) × Calls ι Q A) :=
  match c.servers[s]?, c.queue with
  | some none, x :: queue =>
    some (x, { c with queue := queue, servers := c.servers.set s (some (x, answer x.2)) })
  | _, _ => none

/-- Server `s` posts its answer back. -/
def reply (c : Calls ι Q A) (s : Nat) : Option (Calls ι Q A) :=
  match c.servers[s]? with
  | some (some (x, some a)) => some { c with servers := c.servers.set s none, replies := c.replies ++ [(x, a)] }
  | _ => none

/-- Server `s` gives up its call. -/
def drop (c : Calls ι Q A) (s : Nat) : Calls ι Q A := { c with servers := c.servers.set s none }

/-- The `k`-th answer on its way arrives. -/
def deliver (c : Calls ι Q A) (k : Nat) : Option (((ι × Q) × A) × Calls ι Q A) :=
  match c.replies[k]? with
  | some r => some (r, { c with replies := c.replies.eraseIdx k })
  | none => none

structure Inv (P : ι → Q → A → Prop) (waiting : ι → Option Q) (c : Calls ι Q A) : Prop where
  nodup : (c.tokens.map Prod.fst).Nodup
  mem : ∀ i q, (i, q) ∈ c.tokens ↔ waiting i = some q
  served : ∀ (s : Nat) x a, c.servers[s]? = some (some (x, some a)) → P x.1 x.2 a
  replied : ∀ r ∈ c.replies, P r.1.1 r.1.2 r.2

/-! ## What a move does -/

theorem take_eq_some {c c' : Calls ι Q A} {s : Nat} {answer : Q → Option A} {x : ι × Q}
    (h : c.take s answer = some (x, c')) :
    ∃ queue, c.servers[s]? = some none ∧ c.queue = x :: queue ∧
      c' = { c with queue := queue, servers := c.servers.set s (some (x, answer x.2)) } := by
  unfold take at h
  split at h
  · rename_i y queue hs hq
    cases h
    exact ⟨queue, hs, hq, rfl⟩
  · cases h

theorem reply_eq_some {c c' : Calls ι Q A} {s : Nat} (h : c.reply s = some c') :
    ∃ x a, c.servers[s]? = some (some (x, some a)) ∧
      c' = { c with servers := c.servers.set s none, replies := c.replies ++ [(x, a)] } := by
  unfold reply at h
  split at h
  · rename_i x a hs
    cases h
    exact ⟨x, a, hs, rfl⟩
  · cases h

theorem deliver_eq_some {c c' : Calls ι Q A} {k : Nat} {r : (ι × Q) × A} (h : c.deliver k = some (r, c')) :
    c.replies[k]? = some r ∧ c' = { c with replies := c.replies.eraseIdx k } := by
  unfold deliver at h
  split at h
  · rename_i r' hr
    cases h
    exact ⟨hr, rfl⟩
  · cases h

/-- A server that takes a call adds it to those with the servers, and its reply takes it out again. -/
theorem filterMap_set_perm {α β : Type*} {f : α → Option β} {l : List α} {i : Nat} {x y : α} {b : β}
    (h : l[i]? = some x) (hx : f x = none) (hy : f y = some b) :
    ((l.set i y).filterMap f).Perm (b :: l.filterMap f) := by
  obtain ⟨hlt, rfl⟩ := List.getElem?_eq_some_iff.1 h
  have hset := (List.set_perm_cons_eraseIdx hlt y).filterMap f
  have hold := (List.getElem_cons_eraseIdx_perm hlt).filterMap f
  rw [List.filterMap_cons, hx] at hold
  rw [List.filterMap_cons, hy] at hset
  exact hset.trans (hold.cons b)

theorem filterMap_unset_perm {α β : Type*} {f : α → Option β} {l : List α} {i : Nat} {x y : α} {b : β}
    (h : l[i]? = some x) (hx : f x = some b) (hy : f y = none) :
    (l.filterMap f).Perm (b :: (l.set i y).filterMap f) := by
  obtain ⟨hlt, rfl⟩ := List.getElem?_eq_some_iff.1 h
  have hset := (List.set_perm_cons_eraseIdx hlt y).filterMap f
  have hold := (List.getElem_cons_eraseIdx_perm hlt).filterMap f
  rw [List.filterMap_cons, hx] at hold
  rw [List.filterMap_cons, hy] at hset
  exact hold.symm.trans (hset.symm.cons b)

theorem tokens_post (c : Calls ι Q A) (i : ι) (q : Q) : (c.post i q).tokens.Perm ((i, q) :: c.tokens) := by
  simp only [tokens, post, List.append_assoc, List.singleton_append]
  exact List.perm_middle

theorem tokens_take {c c' : Calls ι Q A} {s : Nat} {answer : Q → Option A} {x : ι × Q}
    (h : c.take s answer = some (x, c')) : c'.tokens.Perm c.tokens := by
  obtain ⟨queue, hs, hq, rfl⟩ := take_eq_some h
  have hset := filterMap_set_perm (f := (·.map Prod.fst)) (y := some (x, answer x.2)) hs rfl rfl
  simp only [tokens, hq]
  refine ((hset.append_right _).append_left queue).trans ?_
  exact List.perm_middle

theorem tokens_reply {c c' : Calls ι Q A} {s : Nat} (h : c.reply s = some c') : c'.tokens.Perm c.tokens := by
  obtain ⟨x, a, hs, rfl⟩ := reply_eq_some h
  have hunset := filterMap_unset_perm (f := (·.map Prod.fst)) (y := none) hs rfl rfl
  simp only [tokens, List.map_append, List.map_cons, List.map_nil]
  refine List.Perm.append_left _ ?_
  refine List.Perm.trans ?_ (hunset.symm.append_right _)
  rw [← List.append_assoc]
  exact List.perm_append_singleton _ _

theorem tokens_deliver {c c' : Calls ι Q A} {k : Nat} {r : (ι × Q) × A} (h : c.deliver k = some (r, c')) :
    c.tokens.Perm (r.1 :: c'.tokens) := by
  obtain ⟨hr, rfl⟩ := deliver_eq_some h
  obtain ⟨hlt, rfl⟩ := List.getElem?_eq_some_iff.1 hr
  have herase : c.replies.Perm (c.replies[k] :: c.replies.eraseIdx k) := (List.getElem_cons_eraseIdx_perm hlt).symm
  simp only [tokens]
  refine (((herase.map Prod.fst).append_left _).append_left _).trans ?_
  refine ((List.perm_middle).append_left _).trans ?_
  exact List.perm_middle

/-! ## The moves keep the invariant -/

section
variable {P P' : ι → Q → A → Prop} {waiting : ι → Option Q} {c c' : Calls ι Q A}

/-- Nobody waits and no server is busy. -/
theorem inv_init (P : ι → Q → A → Prop) (n : Nat) :
    Inv P (fun _ : ι => none) ({ servers := List.replicate n none } : Calls ι Q A) := by
  have htokens : ({ servers := List.replicate n none } : Calls ι Q A).tokens = [] := by
    simp [tokens]
  constructor
  · simp [htokens]
  · simp [htokens]
  · intro s x a h
    have hmem := List.eq_of_mem_replicate (List.mem_of_getElem? h)
    cases hmem
  · simp

/-- What is said of an answer may be weakened. -/
theorem Inv.mono (h : Inv P waiting c) (hP : ∀ i q a, P i q a → P' i q a) : Inv P' waiting c where
  nodup := h.nodup
  mem := h.mem
  served s x a hx := hP _ _ _ (h.served s x a hx)
  replied r hr := hP _ _ _ (h.replied r hr)

variable [DecidableEq ι]

theorem Inv.post {i : ι} (h : Inv P waiting c) (hi : waiting i = none) (q : Q) :
    Inv P (Function.update waiting i (some q)) (c.post i q) := by
  have hperm := tokens_post c i q
  have hnew : i ∉ c.tokens.map Prod.fst := by
    intro hm
    obtain ⟨⟨j, q'⟩, hj, rfl⟩ := List.mem_map.1 hm
    rw [(h.mem j q').1 hj] at hi
    cases hi
  refine ⟨?_, ?_, h.served, h.replied⟩
  · rw [(hperm.map Prod.fst).nodup_iff]
    exact List.nodup_cons.2 ⟨hnew, h.nodup⟩
  · intro j q'
    rw [hperm.mem_iff, List.mem_cons]
    by_cases hij : j = i
    · subst hij
      rw [Function.update_self]
      constructor
      · rintro (heq | hm)
        · rw [(Prod.mk.inj heq).2]
        · exact absurd (List.mem_map.2 ⟨_, hm, rfl⟩) hnew
      · intro heq
        exact Or.inl (by rw [Option.some.inj heq])
    · rw [Function.update_of_ne hij, ← h.mem]
      simp [hij]

omit [DecidableEq ι] in
theorem Inv.take {s : Nat} {answer : Q → Option A} {x : ι × Q} (h : Inv P waiting c)
    (ht : c.take s answer = some (x, c')) (hP : ∀ a, answer x.2 = some a → P x.1 x.2 a) : Inv P waiting c' := by
  have hperm := tokens_take ht
  obtain ⟨queue, hs, hq, rfl⟩ := take_eq_some ht
  refine ⟨?_, ?_, ?_, h.replied⟩
  · rw [(hperm.map Prod.fst).nodup_iff]
    exact h.nodup
  · intro i q
    rw [hperm.mem_iff, h.mem]
  · intro t y a hy
    rw [List.getElem?_set] at hy
    split at hy
    · split at hy
      · simp only [Option.some.injEq, Prod.mk.injEq] at hy
        obtain ⟨rfl, ha⟩ := hy
        exact hP a ha
      · cases hy
    · exact h.served t y a hy

omit [DecidableEq ι] in
theorem Inv.reply {s : Nat} (h : Inv P waiting c) (hr : c.reply s = some c') : Inv P waiting c' := by
  have hperm := tokens_reply hr
  obtain ⟨x, a, hs, rfl⟩ := reply_eq_some hr
  refine ⟨?_, ?_, ?_, ?_⟩
  · rw [(hperm.map Prod.fst).nodup_iff]
    exact h.nodup
  · intro i q
    rw [hperm.mem_iff, h.mem]
  · intro t y b hy
    rw [List.getElem?_set] at hy
    split at hy
    · split at hy
      · cases hy
      · cases hy
    · exact h.served t y b hy
  · intro r hmem
    rcases List.mem_append.1 hmem with hmem | hmem
    · exact h.replied r hmem
    · obtain rfl : r = (x, a) := by simpa using hmem
      exact h.served s x a hs

/-- The answer that arrives is to what the client asked. -/
theorem Inv.deliver {k : Nat} {i : ι} {q : Q} {a : A} (h : Inv P waiting c)
    (hd : c.deliver k = some (((i, q), a), c')) :
    waiting i = some q ∧ P i q a ∧ Inv P (Function.update waiting i none) c' := by
  have hperm := tokens_deliver hd
  obtain ⟨hr, rfl⟩ := deliver_eq_some hd
  have hP : P i q a := h.replied _ (List.mem_of_getElem? hr)
  have hwait : waiting i = some q := (h.mem i q).1 (hperm.mem_iff.2 List.mem_cons_self)
  have hnodup := (hperm.map Prod.fst).nodup_iff.1 h.nodup
  obtain ⟨hnew, hrest⟩ := List.nodup_cons.1 hnodup
  refine ⟨hwait, hP, hrest, ?_, h.served, ?_⟩
  · intro j q'
    by_cases hij : j = i
    · subst hij
      rw [Function.update_self]
      refine iff_of_false ?_ (by simp)
      exact fun hm => hnew (List.mem_map.2 ⟨_, hm, rfl⟩)
    · rw [Function.update_of_ne hij, ← h.mem, hperm.mem_iff]
      simp [hij]
  · intro r hm
    exact h.replied r (List.mem_of_mem_eraseIdx hm)

omit [DecidableEq ι] in
/-- Where the call of a waiting client is. -/
theorem Inv.place {i : ι} {q : Q} (h : Inv P waiting c) (hw : waiting i = some q) :
    (i, q) ∈ c.queue ∨ (∃ (s : Nat) (r : Option A), c.servers[s]? = some (some ((i, q), r))) ∨
      ∃ (k : Nat) (a : A), c.replies[k]? = some ((i, q), a) := by
  have hm := (h.mem i q).2 hw
  simp only [tokens, List.mem_append] at hm
  rcases hm with hm | hm | hm
  · exact Or.inl hm
  · obtain ⟨s, hs, hx⟩ := List.mem_filterMap.1 hm
    obtain ⟨⟨x, r⟩, rfl, rfl⟩ := Option.map_eq_some_iff.1 hx
    obtain ⟨t, ht⟩ := List.mem_iff_getElem?.1 hs
    exact Or.inr (Or.inl ⟨t, r, ht⟩)
  · obtain ⟨⟨x, a⟩, hr, rfl⟩ := List.mem_map.1 hm
    obtain ⟨k, hk⟩ := List.mem_iff_getElem?.1 hr
    exact Or.inr (Or.inr ⟨k, a, hk⟩)

end

end Calls

end Lib
