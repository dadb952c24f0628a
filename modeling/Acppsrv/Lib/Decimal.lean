import Mathlib.Data.List.TakeWhile
/-!
# Decimal numerals at the start of a string

`fromChars max s` reads the longest prefix of digits of `s`, as `std::from_chars` does for an unsigned type
with largest value `max`: it returns the value and what is left. There is no value when there is no digit, or
when it is too large. A string is a numeral as a whole (`Numeral`) exactly when nothing is left.
-/
namespace Lib

def decimal (digits : List Char) : Nat := digits.foldl (fun n c => n * 10 + (c.toNat - '0'.toNat)) 0

def leading (s : List Char) : List Char := s.takeWhile Char.isDigit

def fromChars (max : Nat) (s : List Char) : Option (Nat × List Char) :=
  if leading s = [] then none
  else if max < decimal (leading s) then none
  else some (decimal (leading s), s.dropWhile Char.isDigit)

def Numeral (s : List Char) : Prop := s ≠ [] ∧ ∀ c ∈ s, c.isDigit = true

theorem fromChars_eq_some {max v : Nat} {s rest : List Char} :
    fromChars max s = some (v, rest) ↔
      leading s ≠ [] ∧ decimal (leading s) = v ∧ v ≤ max ∧ s.dropWhile Char.isDigit = rest := by
  unfold fromChars
  by_cases hd : leading s = []
  · simp [hd]
  · by_cases hm : max < decimal (leading s)
    · rw [if_neg hd, if_pos hm]
      constructor
      · intro h
        cases h
      · rintro ⟨-, rfl, hle, -⟩
        omega
    · rw [if_neg hd, if_neg hm]
      constructor
      · intro h
        cases h
        exact ⟨hd, rfl, by omega, rfl⟩
      · rintro ⟨-, rfl, -, rfl⟩
        rfl

theorem leading_eq_self {s : List Char} (h : ∀ c ∈ s, c.isDigit = true) : leading s = s :=
  List.takeWhile_eq_self_iff.2 h

theorem decimal_numeral {s : List Char} (h : Numeral s) : leading s ≠ [] ∧ decimal (leading s) = decimal s := by
  rw [leading_eq_self h.2]
  exact ⟨h.1, rfl⟩

/-- Digits to the end make a numeral of a string that starts with one. -/
theorem numeral_of_leading {s : List Char} (hd : leading s ≠ []) (h : ∀ c ∈ s, c.isDigit = true) : Numeral s := by
  refine ⟨?_, h⟩
  rintro rfl
  exact hd rfl

end Lib
