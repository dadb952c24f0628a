import Mathlib.Data.List.Basic
/-!
# Files of records of one size

A `Codec` encodes a value in a fixed number of units. A file of records is the concatenation of their
encodings; it has no header and no separators, so a reader finds record `i` by index arithmetic alone
(`entry_file`) and files can be concatenated in any order (`file_flatMap`).
-/
namespace Lib

universe u v
variable {α : Type u} {β : Type v}

structure Codec (α : Type u) (β : Type v) where
  width : Nat
  encode : α → List β
  decode : List β → α
  width_pos : 0 < width
  length_encode : ∀ a, (encode a).length = width
  decode_encode : ∀ a rest, decode (encode a ++ rest) = a

namespace Codec
variable (c : Codec α β)

/-- The records one after the other. -/
def file (l : List α) : List β := l.flatMap c.encode

/-- How many records a file holds. -/
def count (data : List β) : Nat := data.length / c.width

/-- Record `i` of a file, by its offset. -/
def entry (data : List β) (i : Nat) : α := c.decode (data.drop (i * c.width))

theorem length_file (l : List α) : (c.file l).length = l.length * c.width := by
  induction l with
  | nil => simp [file]
  | cons a l ih =>
    simp only [file, List.flatMap_cons, List.length_append, c.length_encode, List.length_cons] at ih ⊢
    rw [ih, Nat.succ_mul, Nat.add_comm]

theorem count_file (l : List α) : c.count (c.file l) = l.length := by
  rw [count, length_file, Nat.mul_div_cancel _ c.width_pos]

/-- Reading by index arithmetic gives back what was written. -/
theorem entry_file {l : List α} {i : Nat} {a : α} (h : l[i]? = some a) : c.entry (c.file l) i = a := by
  induction l generalizing i with
  | nil => simp at h
  | cons b l ih =>
    cases i with
    | zero =>
      obtain rfl : b = a := by simpa using h
      simp [entry, file, c.decode_encode]
    | succ i =>
      have hdrop : (c.file (b :: l)).drop ((i + 1) * c.width) = (c.file l).drop (i * c.width) := by
        rw [file, List.flatMap_cons, Nat.succ_mul, Nat.add_comm, ← List.drop_drop,
          List.drop_left' (c.length_encode b)]
        rfl
      rw [entry, hdrop]
      exact ih (by simpa using h)

/-- Concatenated files are one file. -/
theorem file_flatMap {ι : Type*} (is : List ι) (f : ι → List α) :
    is.flatMap (fun i => c.file (f i)) = c.file (is.flatMap f) := by
  simp [file, List.flatMap_assoc]

end Codec

end Lib
