import Mathlib.Algebra.BigOperators.Group.List.Basic
import Mathlib.Logic.Function.Basic
/-!
# Local states of the parties of a system

The parties (threads, connections, partitions) are a list of local states and a step replaces one
of them. What a global counter stands for is a sum over the parties; `total_set` and `total_snoc`
say how such a sum moves.
-/
namespace Lib

universe u
variable {τ : Type u} {M : Type*} [AddCommMonoid M]

/-- What a party keeps when it is replaced, the parties keep. -/
theorem map_set_eq {β : Type*} (f : τ → β) {l : List τ} {i : Nat} {x y : τ} (h : l[i]? = some x)
    (hf : f y = f x) : (l.set i y).map f = l.map f := by
  obtain ⟨hlt, hx⟩ := List.getElem?_eq_some_iff.1 h
  have hlen : i < (l.map f).length := by simpa using hlt
  have hfx : (l.map f)[i] = f x := by rw [List.getElem_map, hx]
  rw [List.map_set, hf, ← hfx, List.set_getElem_self hlen]

/-- The sum of `f` over the parties. -/
def total (f : τ → M) (l : List τ) : M := (l.map f).sum

@[simp] theorem total_nil (f : τ → M) : total f [] = 0 := rfl

@[simp] theorem total_cons (f : τ → M) (x : τ) (l : List τ) : total f (x :: l) = f x + total f l := by
  simp [total]

theorem total_append (f : τ → M) (a b : List τ) : total f (a ++ b) = total f a + total f b := by
  simp [total]

theorem total_snoc (f : τ → M) (l : List τ) (x : τ) : total f (l ++ [x]) = total f l + f x := by
  simp [total]

/-- Replacing party `i` moves the sum by the difference of its contributions. -/
theorem total_set (f : τ → M) : ∀ {l : List τ} {i : Nat} {x : τ} (y : τ), l[i]? = some x →
    total f (l.set i y) + f x = total f l + f y
  | [], _, _, _, h => by simp at h
  | a :: l, 0, x, y, h => by
    obtain rfl : a = x := by simpa using h
    simp only [List.set_cons_zero, total_cons]
    rw [add_comm (f y), add_assoc, add_comm (f y), ← add_assoc, add_comm (total f l)]
  | a :: l, i + 1, x, y, h => by
    simp only [List.set_cons_succ, total_cons, add_assoc]
    rw [total_set f y (by simpa using h)]

/-- A party that contributes the same keeps the sum. -/
theorem total_set_eq (f : τ → M) {l : List τ} {i : Nat} {x y : τ} (h : l[i]? = some x) (hf : f y = f x) :
    total f (l.set i y) = total f l := by
  rw [total, total, map_set_eq f h hf]

theorem total_eq_zero (f : τ → M) {l : List τ} (h : ∀ x ∈ l, f x = 0) : total f l = 0 := by
  apply List.sum_eq_zero
  intro m hm
  obtain ⟨x, hx, rfl⟩ := List.mem_map.1 hm
  exact h x hx

/-- Parties in a state that contributes nothing. -/
theorem total_replicate (f : τ → M) (n : Nat) {x : τ} (h : f x = 0) : total f (List.replicate n x) = 0 := by
  apply total_eq_zero
  intro y hy
  rw [List.eq_of_mem_replicate hy, h]

/-- A positive sum has a party behind it. -/
theorem exists_of_total_pos {f : τ → Nat} : ∀ {l : List τ}, 0 < total f l → ∃ x ∈ l, 0 < f x
  | [], h => by simp at h
  | a :: l, h => by
    by_cases ha : 0 < f a
    · exact ⟨a, List.mem_cons_self, ha⟩
    · have hl : 0 < total f l := by simp at h; omega
      obtain ⟨x, hx, hp⟩ := exists_of_total_pos hl
      exact ⟨x, List.mem_cons_of_mem _ hx, hp⟩

/-- One party's contribution is part of the sum. -/
theorem le_total {f : τ → Nat} {x : τ} : ∀ {l : List τ} {i : Nat}, l[i]? = some x → f x ≤ total f l
  | [], _, h => by simp at h
  | a :: l, 0, h => by
    obtain rfl : a = x := by simpa using h
    simp
  | a :: l, i + 1, h => by
    have := le_total (f := f) (l := l) (i := i) (by simpa using h)
    simp; omega

/-- Parties that come in two parts, bounded one by one. -/
theorem total_add_le {υ : Type*} {f : τ → Nat} {g : υ → Nat} {k : τ → Nat} : ∀ {l : List τ} {m : List υ},
    l.length = m.length → (∀ (i : Nat) x y, l[i]? = some x → m[i]? = some y → f x + g y ≤ k x) →
    total f l + total g m ≤ total k l
  | [], [], _, _ => by simp
  | x :: l, y :: m, hlen, h => by
    have hxy := h 0 x y rfl rfl
    have hrest : total f l + total g m ≤ total k l :=
      total_add_le (Nat.succ.inj hlen) fun i a b ha hb => h (i + 1) a b ha hb
    simp only [total_cons]
    omega

/-- When the contributions come to one at most, one party at most makes one. -/
theorem eq_of_total_le_one {f : τ → Nat} {l : List τ} (h : total f l ≤ 1) {i j : Nat} {x y : τ}
    (hx : l[i]? = some x) (hy : l[j]? = some y) (hfx : 0 < f x) (hfy : 0 < f y) : i = j := by
  induction l generalizing i j with
  | nil => simp at hx
  | cons a l ih =>
    rw [total_cons] at h
    cases i with
    | zero =>
      cases j with
      | zero => rfl
      | succ j =>
        obtain rfl : a = x := by simpa using hx
        have hle := le_total (f := f) (l := l) (i := j) (by simpa using hy)
        omega
    | succ i =>
      cases j with
      | zero =>
        obtain rfl : a = y := by simpa using hy
        have hle := le_total (f := f) (l := l) (i := i) (by simpa using hx)
        omega
      | succ j =>
        have hij : i = j := ih (by omega) (by simpa using hx) (by simpa using hy)
        rw [hij]

/-- A property of all parties survives a step that keeps it for the others and establishes it for the
party it replaces. -/
theorem forall_set {P : Nat → τ → Prop} {l : List τ} {i : Nat} {y : τ}
    (h : ∀ j x, j ≠ i → l[j]? = some x → P j x) (hy : P i y) :
    ∀ j x, (l.set i y)[j]? = some x → P j x := by
  intro j x hj
  by_cases hij : i = j
  · subst hij
    rw [List.getElem?_set] at hj
    simp only [↓reduceIte] at hj
    split at hj
    · cases hj; exact hy
    · cases hj
  · rw [List.getElem?_set_ne hij] at hj; exact h j x (Ne.symm hij) hj

theorem forall_replicate {P : Nat → τ → Prop} {n : Nat} {x : τ} (h : ∀ j, P j x) :
    ∀ j y, (List.replicate n x)[j]? = some y → P j y := by
  intro j y hj
  obtain rfl := List.eq_of_mem_replicate (List.mem_of_getElem? hj)
  exact h j

theorem forall_snoc {P : Nat → τ → Prop} {l : List τ} {y : τ} (h : ∀ j x, l[j]? = some x → P j x)
    (hy : P l.length y) : ∀ j x, (l ++ [y])[j]? = some x → P j x := by
  intro j x hj
  rw [List.getElem?_append] at hj
  split at hj
  · exact h j x hj
  · have hl : j = l.length := by
      have := (List.getElem?_eq_some_iff.1 hj).1
      simp at this; omega
    subst hl
    simp at hj; exact hj ▸ hy

end Lib
