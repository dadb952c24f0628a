import Mathlib.Data.Finset.Basic
import Acppsrv.Lib.Run
/-!
# Handles of a C interface, and objects that own them

A handle is acquired, used and released by calls. It may have an owner, another handle that must be there when
it is acquired and must not be released before it. `handleStep` refuses every other call, so
`exec (handleStep owner) live calls = some live'` says that `calls` are legal, and what they leave.

`Built` is a C++ object as far as its construction came, and `buildLoop` a loop that constructs parts of it: an
exception leaves what has been constructed.
-/
namespace Lib

universe u
variable {α : Type u}

inductive HandleCall (α : Type u) where
  | acquire (h : α)
  | use (h : α)
  | release (h : α)
  deriving DecidableEq, Repr

/-! ## Legal calls -/

section
variable [DecidableEq α] {owner : α → Option α} {live : Finset α}

def handleStep (owner : α → Option α) (live : Finset α) : HandleCall α → Option (Finset α)
  | .acquire h => if h ∉ live ∧ ∀ o ∈ owner h, o ∈ live then some (insert h live) else none
  | .use h => if h ∈ live then some live else none
  | .release h => if h ∈ live ∧ ∀ k ∈ live, owner k ≠ some h then some (live.erase h) else none

variable (owner) in
theorem step_acquire {h : α} (hnew : h ∉ live) (howner : ∀ o ∈ owner h, o ∈ live) :
    handleStep owner live (.acquire h) = some (insert h live) := if_pos ⟨hnew, howner⟩

variable (owner) in
theorem step_use {h : α} (hlive : h ∈ live) : handleStep owner live (.use h) = some live := if_pos hlive

variable (owner) in
theorem step_release {h : α} (hlive : h ∈ live) (hlast : ∀ k ∈ live, owner k ≠ some h) :
    handleStep owner live (.release h) = some (live.erase h) := if_pos ⟨hlive, hlast⟩

/-- Uses of what is there change nothing. -/
theorem exec_uses {calls : List (HandleCall α)} (h : ∀ c ∈ calls, ∃ k ∈ live, c = .use k) :
    exec (handleStep owner) live calls = some live := by
  induction calls with
  | nil => rfl
  | cons c calls ih =>
    obtain ⟨k, hk, rfl⟩ := h c List.mem_cons_self
    rw [exec, step_use owner hk, Option.bind_some]
    exact ih fun c' hc' => h c' (List.mem_cons_of_mem _ hc')

/-- Releases of handles that own nothing, in any order. -/
theorem exec_releases {hs : List α} : ∀ {live : Finset α}, hs.Nodup → (∀ h ∈ hs, h ∈ live) →
    (∀ h ∈ hs, ∀ k ∈ live, owner k ≠ some h) →
    exec (handleStep owner) live (hs.map .release) = some (live \ hs.toFinset) := by
  induction hs with
  | nil => intro live _ _ _; simp [exec]
  | cons h hs ih =>
    intro live hnd hlive hfree
    obtain ⟨hnew, hnd⟩ := List.nodup_cons.1 hnd
    rw [List.map_cons, exec, step_release owner (hlive h List.mem_cons_self) (hfree h List.mem_cons_self), Option.bind_some,
      ih hnd]
    · congr 1
      ext k
      simp only [Finset.mem_sdiff, Finset.mem_erase, List.toFinset_cons, Finset.mem_insert]
      tauto
    · intro k hk
      refine Finset.mem_erase.2 ⟨?_, hlive k (List.mem_cons_of_mem _ hk)⟩
      rintro rfl
      exact hnew hk
    · intro k hk l hl
      exact hfree k (List.mem_cons_of_mem _ hk) l (Finset.mem_of_mem_erase hl)

end

/-! ## Objects under construction -/

/-- The object as far as it is built, the calls for it, and the exception that ended this. -/
structure Built (α : Type u) (ε β : Type*) where
  object : β
  calls : List (HandleCall α)
  failed : Option ε := none

section
variable {ε β γ δ : Type*}

def Built.after (calls : List (HandleCall α)) (x : Built α ε β) : Built α ε β := { x with calls := calls ++ x.calls }

/-- The part becomes one of the whole. -/
def Built.into (f : β → γ) (x : Built α ε β) : Built α ε γ := { x with object := f x.object }

/-- What is still to do when nothing has been thrown. -/
def Built.andThen (x : Built α ε β) (f : β → Built α ε β) : Built α ε β :=
  match x.failed with
  | some _ => x
  | none => (f x.object).after x.calls

def buildLoop (f : β → δ → Built α ε β) : β → List δ → Built α ε β
  | b, [] => ⟨b, [], none⟩
  | b, d :: ds => (f b d).andThen fun b' => buildLoop f b' ds

variable [DecidableEq α] (owner : α → Option α)

/-- The calls are legal from `live` on. `I` holds of the object and the handles when it is built, `E` when an
exception has left the construction. -/
def Built.Legal (live : Finset α) (I : Finset α → β → Prop) (E : ε → Finset α → β → Prop) (x : Built α ε β) : Prop :=
  ∃ live', exec (handleStep owner) live x.calls = some live' ∧
    match x.failed with
    | none => I live' x.object
    | some e => E e live' x.object

variable {owner} {live : Finset α} {I : Finset α → β → Prop} {E : ε → Finset α → β → Prop}

theorem Built.Legal.mono {x : Built α ε β} {I' : Finset α → β → Prop} {E' : ε → Finset α → β → Prop}
    (h : x.Legal owner live I E) (hI : ∀ live b, I live b → I' live b) (hE : ∀ e live b, E e live b → E' e live b) :
    x.Legal owner live I' E' := by
  obtain ⟨live', hexec, hres⟩ := h
  refine ⟨live', hexec, ?_⟩
  cases hf : x.failed with
  | none => rw [hf] at hres; exact hI _ _ hres
  | some e => rw [hf] at hres; exact hE _ _ _ hres

theorem Built.Legal.after {x : Built α ε β} {calls : List (HandleCall α)} {live' : Finset α}
    (hcalls : exec (handleStep owner) live calls = some live') (h : x.Legal owner live' I E) :
    (x.after calls).Legal owner live I E := by
  obtain ⟨live'', hexec, hres⟩ := h
  refine ⟨live'', ?_, hres⟩
  rw [Built.after, exec_append, hcalls, Option.bind_some, hexec]

theorem Built.Legal.into {x : Built α ε β} {f : β → γ} {I : Finset α → γ → Prop} {E : ε → Finset α → γ → Prop}
    (h : x.Legal owner live (fun live b => I live (f b)) fun e live b => E e live (f b)) :
    (x.into f).Legal owner live I E := h

theorem Built.Legal.andThen {x : Built α ε β} {f : β → Built α ε β} {J : Finset α → β → Prop}
    (h : x.Legal owner live J E) (hf : ∀ live' b, J live' b → (f b).Legal owner live' I E) :
    (x.andThen f).Legal owner live I E := by
  obtain ⟨live', hexec, hres⟩ := h
  unfold Built.andThen
  cases hx : x.failed with
  | none =>
    rw [hx] at hres
    exact .after hexec (hf live' x.object hres)
  | some e =>
    refine ⟨live', hexec, ?_⟩
    rw [hx] at hres ⊢
    exact hres

/-- **Loop rule.** What holds of the rounds done, and `E` of a round that throws. -/
theorem buildLoop_legal {f : β → δ → Built α ε β} {ds : List δ} (I : List δ → Finset α → β → Prop)
    (hf : ∀ pre d post, ds = pre ++ d :: post → ∀ live b, I pre live b → (f b d).Legal owner live (I (pre ++ [d])) E)
    {live : Finset α} {b : β} (h : I [] live b) : (buildLoop f b ds).Legal owner live (I ds) E := by
  suffices hpost : ∀ (post pre : List δ) (live : Finset α) (b : β), ds = pre ++ post → I pre live b →
      (buildLoop f b post).Legal owner live (I ds) E from hpost ds [] live b rfl h
  intro post
  induction post with
  | nil =>
    intro pre live b hds hI
    rw [List.append_nil] at hds
    exact ⟨live, rfl, hds ▸ hI⟩
  | cons d post ih =>
    intro pre live b hds hI
    refine (hf pre d post hds live b hI).andThen fun live' b' hI' => ?_
    exact ih (pre ++ [d]) live' b' (by rw [hds, List.append_assoc, List.singleton_append]) hI'

end

/-! ## The same construction without its calls -/

section
variable {ε β γ δ : Type*}

/-- `y` is built in the same way, with the exceptions of `fail`. -/
def Built.Agrees {ε' : Type*} (R : β → γ → Prop) (fail : ε → ε') (x : Built α ε β) (y : Except ε' γ) : Prop :=
  match x.failed with
  | none => ∃ c, y = .ok c ∧ R x.object c
  | some e => y = .error (fail e)

variable {ε' : Type*} {R : β → γ → Prop} {fail : ε → ε'}

theorem Built.Agrees.after {x : Built α ε β} {y : Except ε' γ} (h : x.Agrees R fail y) (calls : List (HandleCall α)) :
    (x.after calls).Agrees R fail y := h

theorem Built.Agrees.into {x : Built α ε δ} {y : Except ε' γ} {f : δ → β} {S : δ → γ → Prop} (h : x.Agrees S fail y)
    (hR : ∀ b c, S b c → R (f b) c) : (x.into f).Agrees R fail y := by
  unfold Built.Agrees at h ⊢
  cases hx : x.failed with
  | none =>
    rw [hx] at h
    obtain ⟨c, rfl, hS⟩ := h
    rw [Built.into, hx]
    exact ⟨c, rfl, hR _ _ hS⟩
  | some e =>
    rw [hx] at h
    rw [Built.into, hx]
    exact h

theorem Built.Agrees.andThen {x : Built α ε β} {y : Except ε' γ} {f : β → Built α ε β} {g : γ → Except ε' γ}
    {S : β → γ → Prop} (h : x.Agrees S fail y) (hf : ∀ b c, S b c → (f b).Agrees R fail (g c)) :
    (x.andThen f).Agrees R fail (y.bind g) := by
  unfold Built.Agrees at h
  unfold Built.andThen
  cases hx : x.failed with
  | none =>
    rw [hx] at h
    obtain ⟨c, rfl, hS⟩ := h
    exact (hf x.object c hS).after x.calls
  | some e =>
    rw [hx] at h
    unfold Built.Agrees
    rw [hx, h]
    rfl

theorem buildLoop_agrees {f : β → δ → Built α ε β} {g : γ → δ → Except ε' γ} {ds : List δ} (R : List δ → β → γ → Prop)
    (hf : ∀ pre d post, ds = pre ++ d :: post → ∀ b c, R pre b c → (f b d).Agrees (R (pre ++ [d])) fail (g c d))
    {b : β} {c : γ} (h : R [] b c) : (buildLoop f b ds).Agrees (R ds) fail (ds.foldlM g c) := by
  suffices hpost : ∀ (post pre : List δ) (b : β) (c : γ), ds = pre ++ post → R pre b c →
      (buildLoop f b post).Agrees (R ds) fail (post.foldlM g c) from hpost ds [] b c rfl h
  intro post
  induction post with
  | nil =>
    intro pre b c hds hR
    rw [List.append_nil] at hds
    exact ⟨c, rfl, hds ▸ hR⟩
  | cons d post ih =>
    intro pre b c hds hR
    refine (hf pre d post hds b c hR).andThen fun b' c' hR' => ?_
    exact ih (pre ++ [d]) b' c' (by rw [hds, List.append_assoc, List.singleton_append]) hR'

end

end Lib
