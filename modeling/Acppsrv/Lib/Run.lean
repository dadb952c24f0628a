import Mathlib.Data.List.Basic
import Mathlib.Data.List.Induction
/-!
# Runs of a partial step function, and properties of what came before

A system is a step function `σ → α → Option σ`; `none` means that the action is not enabled in
the state. `exec` runs a list of actions, so every prefix of a run is again a run and a statement
about the state after every list of actions is a statement about every state a run goes through.

`Past P l`: every element of the list `l` satisfies `P` relative to the elements before it. A log
only ever grows at its end, so a step owes `P` for the elements it appends and nothing else
(`past_concat`).
-/
namespace Lib

universe u v
variable {σ : Type u} {α : Type v}

/-- The state after the actions `as`; `none` when one of them is not enabled. -/
def exec (step : σ → α → Option σ) : σ → List α → Option σ
  | s, [] => some s
  | s, a :: as => (step s a).bind (exec step · as)

theorem exec_append (step : σ → α → Option σ) : ∀ (as bs : List α) (s : σ),
    exec step s (as ++ bs) = (exec step s as).bind (exec step · bs)
  | [], _, _ => rfl
  | a :: as, bs, s => by
    simp only [List.cons_append, exec]
    cases step s a with
    | none => rfl
    | some t => simp only [Option.bind_some]; exact exec_append step as bs t

/-- The last step of a run. -/
theorem exec_concat {step : σ → α → Option σ} {s u : σ} {as : List α} {a : α}
    (h : exec step s (as ++ [a]) = some u) : ∃ t, exec step s as = some t ∧ step t a = some u := by
  rw [exec_append] at h
  cases ht : exec step s as with
  | none => simp [ht] at h
  | some t =>
    refine ⟨t, rfl, ?_⟩
    simp only [ht, Option.bind_some, exec] at h
    cases hu : step t a with
    | none => simp [hu] at h
    | some u' => simpa [hu] using h

/-- A run with something in the middle, cut before and after it. -/
theorem exec_split {step : σ → α → Option σ} {s u : σ} {as bs : List α} {a : α}
    (h : exec step s (as ++ a :: bs) = some u) :
    ∃ t t', exec step s as = some t ∧ step t a = some t' ∧ exec step t' bs = some u := by
  rw [exec_append] at h
  cases ht : exec step s as with
  | none => simp [ht] at h
  | some t =>
    simp only [ht, Option.bind_some, exec] at h
    cases hu : step t a with
    | none => simp [hu] at h
    | some t' => exact ⟨t, t', rfl, hu, by simpa [hu] using h⟩

/-- **Invariant rule.** What every enabled action allowed by `C` preserves holds after every run
made of such actions. -/
theorem exec_invariant {step : σ → α → Option σ} (C : α → Prop) (I : σ → Prop)
    (hstep : ∀ s a s', C a → I s → step s a = some s' → I s') :
    ∀ {as : List α} {s s' : σ}, (∀ a ∈ as, C a) → I s → exec step s as = some s' → I s'
  | [], s, s', _, hs, h => by cases h; exact hs
  | a :: as, s, s', hC, hs, h => by
    simp only [exec] at h
    cases ht : step s a with
    | none => simp [ht] at h
    | some t =>
      simp only [ht, Option.bind_some] at h
      exact exec_invariant C I hstep (fun b hb => hC b (List.mem_cons_of_mem _ hb))
        (hstep s a t (hC a List.mem_cons_self) hs ht) h

/-- The invariant rule with the actions so far in the invariant. -/
theorem exec_history {step : σ → α → Option σ} {s₀ : σ} (I : List α → σ → Prop) (h0 : I [] s₀)
    (hstep : ∀ as s a s', I as s → step s a = some s' → I (as ++ [a]) s') :
    ∀ {as : List α} {s : σ}, exec step s₀ as = some s → I as s := by
  intro as
  induction as using List.reverseRecOn with
  | nil => intro s h; cases h; exact h0
  | append_singleton as a ih =>
    intro s h
    obtain ⟨t, ht, hs⟩ := exec_concat h
    exact hstep as t a s (ih ht) hs

/-- Along the run of `as` from `s`, every action meets `C` in the state it is taken in. -/
def Along (step : σ → α → Option σ) (C : σ → α → Prop) : σ → List α → Prop
  | _, [] => True
  | s, a :: as => C s a ∧ (step s a).elim True (Along step C · as)

instance decidableAlong (step : σ → α → Option σ) (C : σ → α → Prop) [∀ s a, Decidable (C s a)] :
    ∀ (s : σ) (as : List α), Decidable (Along step C s as)
  | _, [] => isTrue trivial
  | s, a :: as =>
    have : Decidable ((step s a).elim True (Along step C · as)) :=
      match step s a with
      | none => isTrue trivial
      | some t => decidableAlong step C t as
    inferInstanceAs (Decidable (C s a ∧ _))

theorem Along.append {step : σ → α → Option σ} {C : σ → α → Prop} {as bs : List α} :
    ∀ {s t : σ}, Along step C s as → exec step s as = some t → Along step C t bs → Along step C s (as ++ bs) := by
  induction as with
  | nil =>
    intro s t _ h hbs
    cases h
    exact hbs
  | cons a as ih =>
    intro s t has h hbs
    obtain ⟨ha, has⟩ := has
    obtain ⟨u, hu, hrest⟩ := Option.bind_eq_some_iff.1 h
    simp only [hu, Option.elim] at has
    refine ⟨ha, ?_⟩
    simp only [List.append_eq, hu, Option.elim]
    exact ih has hrest hbs

/-- The invariant rule for runs whose actions meet a condition on the state they are taken in. -/
theorem exec_along {step : σ → α → Option σ} {C : σ → α → Prop} (I : σ → Prop)
    (hstep : ∀ s a s', C s a → I s → step s a = some s' → I s') {as : List α} :
    ∀ {s s' : σ}, Along step C s as → I s → exec step s as = some s' → I s' := by
  induction as with
  | nil =>
    intro s s' _ hs h
    cases h
    exact hs
  | cons a as ih =>
    intro s s' hC hs h
    simp only [exec] at h
    cases ht : step s a with
    | none => simp [ht] at h
    | some t =>
      obtain ⟨hCa, hCas⟩ := hC
      simp only [ht, Option.bind_some, Option.elim] at h hCas
      exact ih hCas (hstep s a t hCa hs ht) h

/-- **Completion rule.** When runs are no longer than `n` and go on until a final state, every run can be
completed. -/
theorem exec_finish {step : σ → α → Option σ} (I : List α → σ → Prop) (final : σ → Prop) {n : Nat}
    (hbound : ∀ as s, I as s → as.length ≤ n)
    (hstep : ∀ as s, I as s → ¬final s → ∃ a s', step s a = some s' ∧ I (as ++ [a]) s') {k : Nat} :
    ∀ {as : List α} {s : σ}, I as s → n - as.length < k → ∃ bs s', exec step s bs = some s' ∧ final s' := by
  induction k with
  | zero => intro as s _ hlt; omega
  | succ k ih =>
    intro as s hs hlt
    by_cases hf : final s
    · exact ⟨[], s, rfl, hf⟩
    · obtain ⟨a, s', ha, hs'⟩ := hstep as s hs hf
      have hlen := hbound _ _ hs'
      rw [List.length_append, List.length_singleton] at hlen
      obtain ⟨bs, t, hrun, ht⟩ := ih hs' (by rw [List.length_append, List.length_singleton]; omega)
      exact ⟨a :: bs, t, by simp [exec, ha, hrun], ht⟩

/-! ## Loops that throw -/

/-- **Loop rule.** What holds before a loop over `l` and is kept by every round that does not throw,
given the elements `pre` already done, holds at its end. -/
theorem foldlM_loop {ε β : Type*} {f : β → α → Except ε β} {l : List α} (I : List α → β → Prop)
    (hstep : ∀ pre a post b b', l = pre ++ a :: post → I pre b → f b a = .ok b' → I (pre ++ [a]) b') :
    ∀ {b r : β}, I [] b → l.foldlM f b = .ok r → I l r := by
  suffices h : ∀ (post pre : List α) (b r : β), l = pre ++ post → I pre b → post.foldlM f b = .ok r → I l r from
    fun {b r} hb hr => h l [] b r rfl hb hr
  intro post
  induction post with
  | nil =>
    intro pre b r hl hb hr
    obtain rfl : b = r := by simpa [pure, Except.pure] using hr
    rw [hl, List.append_nil]; exact hb
  | cons a post ih =>
    intro pre b r hl hb hr
    rw [List.foldlM_cons] at hr
    cases hfa : f b a with
    | error e => rw [hfa] at hr; cases hr
    | ok b' =>
      rw [hfa] at hr
      exact ih (pre ++ [a]) b' r (by simp [hl]) (hstep pre a post b b' hl hb hfa) hr

/-! ## Logs -/

variable {ε : Type u}

/-- Every element of `l` satisfies `P` relative to the elements before it. -/
def Past (P : List ε → ε → Prop) (l : List ε) : Prop := ∀ a x b, l = a ++ x :: b → P a x

theorem past_nil (P : List ε → ε → Prop) : Past P [] := by intro a x b h; simp at h

theorem past_concat {P : List ε → ε → Prop} {l : List ε} {e : ε} :
    Past P (l ++ [e]) ↔ Past P l ∧ P l e := by
  constructor
  · intro h
    refine ⟨fun a x b hl => h a x (b ++ [e]) (by simp [hl]), h l e [] rfl⟩
  · rintro ⟨hl, he⟩ a x b h
    rcases List.eq_nil_or_concat b with rfl | ⟨b', y, rfl⟩
    · obtain ⟨rfl, h2⟩ := List.append_inj' h rfl
      cases h2; exact he
    · have h' : l ++ [e] = (a ++ x :: b') ++ [y] := by simpa using h
      exact hl a x b' (List.append_inj' h' rfl).1

/-- A log that was already there is the past of what follows it. -/
theorem past_append {P : List ε → ε → Prop} {l m : List ε} :
    Past P (l ++ m) ↔ Past P l ∧ Past (fun a => P (l ++ a)) m := by
  constructor
  · intro h
    refine ⟨fun a x b hl => h a x (b ++ m) (by simp [hl]), ?_⟩
    intro a x b hm
    exact h (l ++ a) x b (by simp [hm])
  · rintro ⟨hl, hm⟩ a x b h
    rcases List.append_eq_append_iff.1 h with ⟨c, rfl, hc⟩ | ⟨c, hlc, hc⟩
    · exact hm c x b hc
    · cases c with
      | nil =>
        have hx := hm [] x b (by simpa using hc.symm)
        simpa [hlc] using hx
      | cons y c =>
        obtain ⟨rfl, -⟩ := List.cons.inj hc
        exact hl a x c hlc

/-- What holds of every element relative to its past holds of it in particular. -/
theorem Past.split {P : List ε → ε → Prop} {a b : List ε} {x : ε} (h : Past P (a ++ x :: b)) : P a x :=
  h a x b rfl

end Lib
