/-!
# Programs that move a cursor and may stop

`Reader σ ε α`: a program with a state `σ` that returns an `α` or stops with an `ε`, and keeps the state when
it stops. Two ways to reason about one: `bind_ok` takes a program that returned apart, and `Triple P p Q E`
says that `p`, started in `P`, returns in `Q` or stops in `E`.
-/
namespace Lib

universe u
variable {σ ε : Type u} {α β : Type u}

def Reader (σ ε α : Type u) : Type u := σ → Except ε α × σ

namespace Reader

def ret (a : α) : Reader σ ε α := fun s => (.ok a, s)

def andThen (p : Reader σ ε α) (f : α → Reader σ ε β) : Reader σ ε β := fun s =>
  match p s with
  | (.ok a, s') => f a s'
  | (.error e, s') => (.error e, s')

instance : Monad (Reader σ ε) where
  pure := ret
  bind := andThen

/-- A computation that does not look at the state. -/
def lift (r : Except ε α) : Reader σ ε α := fun s => (r, s)

def stop (e : ε) : Reader σ ε α := fun s => (.error e, s)

theorem bind_eq (p : Reader σ ε α) (f : α → Reader σ ε β) (s : σ) :
    (p >>= f) s = match p s with
      | (.ok a, s') => f a s'
      | (.error e, s') => (.error e, s') := rfl

theorem bind_ok {p : Reader σ ε α} {f : α → Reader σ ε β} {s s' : σ} {b : β} :
    (p >>= f) s = (.ok b, s') ↔ ∃ a t, p s = (.ok a, t) ∧ f a t = (.ok b, s') := by
  rw [bind_eq]
  cases h : p s with
  | mk r t =>
    cases r with
    | ok a =>
      constructor
      · exact fun hf => ⟨a, t, rfl, hf⟩
      · rintro ⟨_, _, heq, hf⟩
        cases heq
        exact hf
    | error e =>
      constructor
      · intro hf
        cases hf
      · rintro ⟨_, _, heq, -⟩
        cases heq

theorem pure_ok {a b : α} {s s' : σ} : (pure a : Reader σ ε α) s = (.ok b, s') ↔ a = b ∧ s = s' := by
  show ((.ok a, s) : Except ε α × σ) = (.ok b, s') ↔ _
  simp

theorem lift_ok {r : Except ε α} {b : α} {s s' : σ} :
    (lift r : Reader σ ε α) s = (.ok b, s') ↔ r = .ok b ∧ s = s' := by
  simp [lift]

theorem lift_bind_ok {r : Except ε α} {f : α → Reader σ ε β} {s s' : σ} {b : β} :
    ((lift r : Reader σ ε α) >>= f) s = (.ok b, s') ↔ ∃ a, r = .ok a ∧ f a s = (.ok b, s') := by
  rw [bind_ok]
  constructor
  · rintro ⟨a, t, hlift, hf⟩
    obtain ⟨hr, rfl⟩ := lift_ok.1 hlift
    exact ⟨a, hr, hf⟩
  · rintro ⟨a, hr, hf⟩
    exact ⟨a, s, lift_ok.2 ⟨hr, rfl⟩, hf⟩

/-! ## Triples -/

/-- What holds when a program is over. -/
def Ends (Q : α → σ → Prop) (E : ε → σ → Prop) : Except ε α × σ → Prop
  | (.ok a, s) => Q a s
  | (.error e, s) => E e s

def Triple (P : σ → Prop) (p : Reader σ ε α) (Q : α → σ → Prop) (E : ε → σ → Prop) : Prop :=
  ∀ s, P s → Ends Q E (p s)

section
variable {P : σ → Prop} {E : ε → σ → Prop}

theorem Triple.pure {Q : α → σ → Prop} {a : α} (h : ∀ s, P s → Q a s) :
    Triple P (Pure.pure a : Reader σ ε α) Q E := h

theorem Triple.lift {r : Except ε α} (h : ∀ e s, r = .error e → P s → E e s) :
    Triple P (Reader.lift r) (fun _ => P) E := by
  intro s hs
  cases r with
  | ok a => exact hs
  | error e => exact h e s rfl hs

theorem Triple.bind {p : Reader σ ε α} {f : α → Reader σ ε β} {Q : α → σ → Prop} {R : β → σ → Prop}
    (hp : Triple P p Q E) (hf : ∀ a, Triple (Q a) (f a) R E) : Triple P (p >>= f) R E := by
  intro s hs
  have hpost := hp s hs
  rw [bind_eq]
  cases h : p s with
  | mk r t =>
    rw [h] at hpost
    cases r with
    | ok a => exact hf a t hpost
    | error e => exact hpost

end

end Reader

end Lib
