import Mathlib.Data.List.DropRight
/-!
# Traces of a computation that is retried from the start

A computation yields items one by one until it is done; it may fail, and it may report that it is
locked, which asks for another execution from the start while a budget lasts. A trace is the list of
these outcomes over all executions.

* `Reaches R os`: the trace comes to `done` within `R` locks.
* `items`, `lastExecution`: the items of all executions, and the outcomes after the last lock. They
  give the same items iff no execution yielded anything before it was locked (`LocksFirst`, `items_last_iff`).
* `exists_countP_le`: a property that holds again and again holds any number of times in a long
  enough prefix, which is what bounds the executions of an unbounded trace.
-/
namespace Lib.Retry

universe u
variable {α : Type u}

inductive Outcome (α : Type u) where
  | item (a : α)
  | done
  | locked
  | failed
  deriving DecidableEq, Repr

def Outcome.isDone : Outcome α → Bool
  | .done => true
  | _ => false

def Outcome.isLocked : Outcome α → Bool
  | .locked => true
  | _ => false

def Outcome.isItem : Outcome α → Bool
  | .item _ => true
  | _ => false

def locks (os : List (Outcome α)) : Nat := os.countP Outcome.isLocked

/-- Items and at most `R` locks, then `done`. -/
def Reaches (R : Nat) (os : List (Outcome α)) : Prop :=
  ∃ pre post, os = pre ++ .done :: post ∧ (∀ o ∈ pre, o.isItem = true ∨ o.isLocked = true) ∧ locks pre ≤ R

/-- The items of all executions, in order. -/
def items (os : List (Outcome α)) : List α := os.filterMap fun
  | .item a => some a
  | _ => none

/-- The outcomes up to `done`. -/
def upToDone (os : List (Outcome α)) : List (Outcome α) := os.takeWhile fun o => !o.isDone

/-- The outcomes after the last lock. -/
def lastExecution (os : List (Outcome α)) : List (Outcome α) := os.rtakeWhile fun o => !o.isLocked

/-! ## Reaching `done`, outcome by outcome -/

theorem not_reaches_nil (R : Nat) : ¬ Reaches R ([] : List (Outcome α)) := by
  rintro ⟨pre, post, h, -⟩
  simp at h

theorem reaches_done (R : Nat) (os : List (Outcome α)) : Reaches R (.done :: os) :=
  ⟨[], os, rfl, by simp, Nat.zero_le _⟩

theorem reaches_item (R : Nat) (a : α) (os : List (Outcome α)) : Reaches R (.item a :: os) ↔ Reaches R os := by
  constructor
  · rintro ⟨pre, post, h, hpre, hlocks⟩
    cases pre with
    | nil => simp at h
    | cons o pre =>
      obtain ⟨rfl, rfl⟩ := List.cons.inj h
      exact ⟨pre, post, rfl, fun o ho => hpre o (List.mem_cons_of_mem _ ho), by simpa [locks, Outcome.isLocked] using hlocks⟩
  · rintro ⟨pre, post, rfl, hpre, hlocks⟩
    refine ⟨.item a :: pre, post, rfl, ?_, by simpa [locks, Outcome.isLocked] using hlocks⟩
    intro o ho
    rcases List.mem_cons.1 ho with rfl | ho
    · exact Or.inl rfl
    · exact hpre o ho

theorem reaches_locked (R : Nat) (os : List (Outcome α)) :
    Reaches R (.locked :: os) ↔ 0 < R ∧ Reaches (R - 1) os := by
  constructor
  · rintro ⟨pre, post, h, hpre, hlocks⟩
    cases pre with
    | nil => simp at h
    | cons o pre =>
      obtain ⟨rfl, rfl⟩ := List.cons.inj h
      simp only [locks, List.countP_cons, Outcome.isLocked, ↓reduceIte] at hlocks
      refine ⟨by omega, pre, post, rfl, fun o ho => hpre o (List.mem_cons_of_mem _ ho), ?_⟩
      unfold locks
      omega
  · rintro ⟨hR, pre, post, rfl, hpre, hlocks⟩
    refine ⟨.locked :: pre, post, rfl, ?_, ?_⟩
    · intro o ho
      rcases List.mem_cons.1 ho with rfl | ho
      · exact Or.inr rfl
      · exact hpre o ho
    · unfold locks at hlocks
      simp only [locks, List.countP_cons, Outcome.isLocked, ↓reduceIte]
      omega

theorem not_reaches_failed (R : Nat) (os : List (Outcome α)) : ¬ Reaches R (.failed :: os) := by
  rintro ⟨pre, post, h, hpre, -⟩
  cases pre with
  | nil => simp at h
  | cons o pre =>
    obtain ⟨rfl, -⟩ := List.cons.inj h
    simpa [Outcome.isItem, Outcome.isLocked] using hpre _ List.mem_cons_self

/-! ## Items -/

@[simp] theorem items_nil : items ([] : List (Outcome α)) = [] := rfl

@[simp] theorem items_item (a : α) (os : List (Outcome α)) : items (.item a :: os) = a :: items os := rfl

@[simp] theorem items_locked (os : List (Outcome α)) : items (.locked :: os) = items os := rfl

@[simp] theorem upToDone_done (os : List (Outcome α)) : upToDone (.done :: os) = [] := rfl

@[simp] theorem upToDone_item (a : α) (os : List (Outcome α)) :
    upToDone (.item a :: os) = .item a :: upToDone os := rfl

@[simp] theorem upToDone_locked (os : List (Outcome α)) : upToDone (.locked :: os) = .locked :: upToDone os := rfl

theorem mem_items {a : α} {os : List (Outcome α)} : a ∈ items os ↔ .item a ∈ os := by
  constructor
  · intro h
    obtain ⟨o, ho, ha⟩ := List.mem_filterMap.1 h
    cases o with
    | item b =>
      cases ha
      exact ho
    | done | locked | failed => cases ha
  · intro h
    exact List.mem_filterMap.2 ⟨_, h, rfl⟩

theorem items_append (a b : List (Outcome α)) : items (a ++ b) = items a ++ items b := by
  simp [items]

/-- No execution yielded anything before it was locked. -/
def LocksFirst (os : List (Outcome α)) : Prop := ∀ pre post, os = pre ++ .locked :: post → items pre = []

theorem locksFirst_locked (os : List (Outcome α)) : LocksFirst (os ++ [.locked]) ↔ items os = [] := by
  constructor
  · intro h
    exact h os [] rfl
  · intro h pre post hos
    have hpre : pre <+: os := by
      have hlen := congrArg List.length hos
      simp only [List.length_append, List.length_cons, List.length_nil] at hlen
      exact List.prefix_of_prefix_length_le ⟨_, hos.symm⟩ (List.prefix_append os [.locked]) (by omega)
    obtain ⟨t, rfl⟩ := hpre
    rw [items_append] at h
    exact (List.append_eq_nil_iff.1 h).1

theorem locksFirst_concat {o : Outcome α} (os : List (Outcome α)) (ho : o.isLocked = false) :
    LocksFirst (os ++ [o]) ↔ LocksFirst os := by
  constructor
  · intro h pre post hos
    exact h pre (post ++ [o]) (by simp [hos])
  · intro h pre post hos
    rcases List.eq_nil_or_concat post with rfl | ⟨post, x, rfl⟩
    · obtain ⟨-, h1⟩ := List.append_inj' hos rfl
      cases h1
      cases ho
    · have hos' : os ++ [o] = (pre ++ .locked :: post) ++ [x] := by simpa using hos
      exact h pre post (List.append_inj' hos' rfl).1

/-- Only the last execution yielded anything iff nothing was yielded before a lock. -/
theorem items_last_iff (os : List (Outcome α)) : items os = items (lastExecution os) ↔ LocksFirst os := by
  induction os using List.reverseRecOn with
  | nil => exact ⟨fun _ pre post h => by simp at h, fun _ => rfl⟩
  | append_singleton os o ih =>
    cases ho : o.isLocked with
    | true =>
      obtain rfl : o = .locked := by
        cases o <;> first | rfl | cases ho
      rw [locksFirst_locked, lastExecution, List.rtakeWhile_concat_neg _ _ _ (by simp [ho]), items_append]
      simp
    | false =>
      rw [locksFirst_concat os ho, ← ih, lastExecution, List.rtakeWhile_concat_pos _ _ _ (by simp [ho]),
        items_append, items_append]
      exact List.append_left_inj _

/-! ## Unbounded traces -/

/-- The first `n` outcomes of an unbounded trace. -/
def upTo {β : Type u} (o : Nat → β) (n : Nat) : List β := (List.range n).map o

theorem upTo_succ {β : Type u} (o : Nat → β) (n : Nat) : upTo o (n + 1) = upTo o n ++ [o n] := by
  simp [upTo, List.range_succ]

theorem upTo_mono {β : Type u} (o : Nat → β) {n m : Nat} (h : n ≤ m) : upTo o n <+: upTo o m := by
  induction h with
  | refl => exact List.prefix_rfl
  | step _ ih =>
    rw [upTo_succ]
    exact ih.trans (List.prefix_append _ _)

/-- What happens again and again happens any number of times. -/
theorem exists_countP_le {β : Type u} {o : Nat → β} {p : β → Bool} (h : ∀ n, ∃ m, n ≤ m ∧ p (o m) = true) (k : Nat) :
    ∃ n, k ≤ (upTo o n).countP p := by
  induction k with
  | zero => exact ⟨0, Nat.zero_le _⟩
  | succ k ih =>
    obtain ⟨n, hn⟩ := ih
    obtain ⟨m, hm, hp⟩ := h n
    refine ⟨m + 1, ?_⟩
    have hle : (upTo o n).countP p ≤ (upTo o m).countP p := (upTo_mono o hm).sublist.countP_le
    rw [upTo_succ, List.countP_append, List.countP_singleton, if_pos hp]
    omega

end Lib.Retry
