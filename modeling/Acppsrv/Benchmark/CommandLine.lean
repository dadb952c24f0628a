import Acppsrv.Lib.Decimal
import Acppsrv.Lib.Reader
import Acppsrv.Benchmark.Create
import Mathlib.Data.List.Forall2
/-!
# The arguments of `create` and `requests` (benchmark.cpp:464-508, :822-905)

| here | there |
| --- | --- |
| `IntArg`              | an unsigned argument: the largest value of its type and its bounds |
| `IntArg.read`         | `std::from_chars` into it, with the test of `r.ec` and of the bounds, and the message |
| `create`              | `cmd::create` (:464) up to the message "Creating database", indexing `args` |
| `Cursor`              | the iterator `it` of `cmd::requests`, as an index, and the positions dereferenced so far |
| `nextArg`, `advance`  | the lambda `next_arg` (:830) and `++it` |
| `readArgs`            | the `try` block (:839-902) |
| `requests`            | `cmd::requests` (:822) up to "Open database files"; it catches `args_count` |
| `Doubles`             | the operations on `double` used for INSERTS and UPDATES, which may be any |

`r.ptr` is never looked at, so an argument is read up to its first character that is not a digit. The
asserts are compiled in (CMakeLists.txt:104).
-/
namespace Acppsrv.Benchmark
open Lib

/-- A command line argument. -/
abbrev Arg := List Char

inductive Stop where
  /-- `return usage(argv0)`, after the message -/
  | usage (crit : Option String)
  /-- `throw args_count{}` -/
  | argsCount
  /-- the `assert` of a number of threads -/
  | assertion
  /-- an access outside of the arguments -/
  | outside
  deriving DecidableEq, Repr

structure IntArg where
  max : Nat
  lo : Nat
  hi : Nat
  hi_le : hi ≤ max
  deriving DecidableEq, Repr

def partitionsArg : IntArg := ⟨4294967295, 1, 256, by decide⟩
def recordsArg : IntArg := ⟨18446744073709551615, 1, 18446744073709551615, Nat.le_refl _⟩
def timeArg : IntArg := ⟨4294967295, 1, 4294967295, Nat.le_refl _⟩
def valueSzArg : IntArg := ⟨18446744073709551615, 1, 18446744073709551615, Nat.le_refl _⟩
def cacheKibArg : IntArg := ⟨4294967295, 0, 4294967295, Nat.le_refl _⟩
def threadsArg : IntArg := ⟨4294967295, 1, 4294967295, Nat.le_refl _⟩

def IntArg.read (spec : IntArg) (crit : String) (s : Arg) : Except Stop Nat :=
  match fromChars spec.max s with
  | some (v, _) => if v < spec.lo ∨ spec.hi < v then .error (.usage (some crit)) else .ok v
  | none => .error (.usage (some crit))

/-- `std::thread::hardware_concurrency()` and the assert after it. -/
def hardwareThreads (hw : UInt32) : Except Stop Nat := if 0 < hw.toNat then .ok hw.toNat else .error .assertion

def partitionsText : String := "Number of partitions (PARTITIONS) must be between 1 and 256"
def cacheKibText : String := "Invalid number of KiB of memory to use as the page cache"
def threadsText : String := "Number of threads (THREADS) must be at least 1"

/-! ## `create` -/

structure CreateArgs where
  path : Arg
  partitions : Nat
  records : Nat
  valueSz : Nat
  cacheKib : Nat
  threads : Nat
  deriving DecidableEq, Repr

/-- `args[i]`. -/
def argAt (args : List Arg) (i : Nat) : Except Stop Arg :=
  match args[i]? with
  | some s => .ok s
  | none => .error .outside

/-- THREADS, or the number of CPUs (:498-508). -/
def createThreads (hw : UInt32) (args : List Arg) : Except Stop Nat :=
  if 6 ≤ args.length then do threadsArg.read threadsText (← argAt args 5) else hardwareThreads hw

def create (hw : UInt32) (args : List Arg) : Except Stop CreateArgs :=
  if args.length < 5 ∨ 6 < args.length then .error (.usage none)
  else do
    let path ← argAt args 0
    let partitions ← partitionsArg.read partitionsText (← argAt args 1)
    let records ← recordsArg.read "Number of records (RECORDS) must be at least 1" (← argAt args 2)
    let valueSz ← valueSzArg.read "Value size (VALUE_SZ) must at least 1" (← argAt args 3)
    let cacheKib ← cacheKibArg.read cacheKibText (← argAt args 4)
    let threads ← createThreads hw args
    pure { path, partitions, records, valueSz, cacheKib, threads }

/-! ## `requests` -/

structure Doubles (F : Type) where
  fromChars : Arg → Option F
  ltZero : F → Bool
  gtOne : F → Bool
  add : F → F → F

/-- INSERTS or UPDATES. -/
def Doubles.read {F : Type} (dbl : Doubles F) (crit : String) (s : Arg) : Except Stop F :=
  match dbl.fromChars s with
  | some x => if dbl.ltZero x || dbl.gtOne x then .error (.usage (some crit)) else .ok x
  | none => .error (.usage (some crit))

def Doubles.checkSum {F : Type} (dbl : Doubles F) (inserts updates : F) : Except Stop Unit :=
  if dbl.gtOne (dbl.add inserts updates) then .error (.usage (some "Sum of INSERT and UPDATE must be at most 1.0"))
  else .ok ()

structure RequestsArgs (F : Type) where
  path : Arg
  keys : Arg
  partitions : Nat
  /-- in seconds; the `duration_cast` of 32 bits of these to nanoseconds is exact -/
  time : Nat
  inserts : F
  updates : F
  valueSz : Nat
  cacheKib : Nat
  threads : Nat
  deriving DecidableEq, Repr

structure Cursor where
  it : Nat
  reads : List Nat := []
  deriving DecidableEq, Repr

section
variable (args : List Arg)

/-- At the end it goes to the beginning: that is where it starts. -/
def nextArg : Reader Cursor Stop Unit := fun c =>
  let it := if c.it = args.length then 0 else c.it + 1
  if it = args.length then (.error .argsCount, { c with it := it }) else (.ok (), { c with it := it })

/-- `*it`. -/
def deref : Reader Cursor Stop Arg := fun c =>
  let c' := { c with reads := c.reads ++ [c.it] }
  match args[c.it]? with
  | some s => (.ok s, c')
  | none => (.error .outside, c')

/-- `++it`, which the end does not allow. -/
def advance : Reader Cursor Stop Unit := fun c =>
  if c.it = args.length then (.error .outside, c) else (.ok (), { c with it := c.it + 1 })

def atEnd : Reader Cursor Stop Bool := fun c => (.ok (decide (c.it = args.length)), c)

/-- `*next_arg()`, or `next_arg()` and the uses of `it` after it. -/
def arg : Reader Cursor Stop Arg := do
  nextArg args
  deref args

/-- THREADS, or the number of CPUs (:889-900). -/
def lastThreads (hw : UInt32) : Reader Cursor Stop Nat := do
  advance args
  if ← atEnd args then Reader.lift (hardwareThreads hw)
  else
    let threads ← Reader.lift (threadsArg.read threadsText (← deref args))
    advance args
    pure threads

/-- Nothing may follow (:901). -/
def endOfArgs : Reader Cursor Stop Unit := do
  if ← atEnd args then pure () else Reader.stop .argsCount

def readArgs {F : Type} (dbl : Doubles F) (hw : UInt32) : Reader Cursor Stop (RequestsArgs F) := do
  let path ← arg args
  let keys ← arg args
  let partitions ← Reader.lift (partitionsArg.read partitionsText (← arg args))
  let time ← Reader.lift (timeArg.read "Invalid number of seconds for test duration" (← arg args))
  let inserts ← Reader.lift (dbl.read "Fraction of INSERT requests must be between 0.0 and 1.0" (← arg args))
  let updates ← Reader.lift (dbl.read "Fraction of UPDATE requests must be between 0.0 and 1.0" (← arg args))
  Reader.lift (dbl.checkSum inserts updates)
  let valueSz ← Reader.lift (valueSzArg.read "Value size (VALUE_SZ) must be at least 1" (← arg args))
  let cacheKib ← Reader.lift (cacheKibArg.read cacheKibText (← arg args))
  let threads ← lastThreads args hw
  endOfArgs args
  pure { path, keys, partitions, time, inserts, updates, valueSz, cacheKib, threads }

def requests {F : Type} (dbl : Doubles F) (hw : UInt32) : Except Stop (RequestsArgs F) × Cursor :=
  match readArgs args dbl hw { it := args.length } with
  | (.error .argsCount, c) => (.error (.usage none), c)
  | res => res

end

/-! ## The integer arguments and where they are -/

/-- The argument starts with a numeral within the bounds. -/
def IntArg.Fits (spec : IntArg) (s : Arg) : Prop :=
  leading s ≠ [] ∧ spec.lo ≤ decimal (leading s) ∧ decimal (leading s) ≤ spec.hi

/-- It starts with the numeral of `v`. -/
def IntArg.Reads (spec : IntArg) (s : Arg) (v : Nat) : Prop := spec.Fits s ∧ decimal (leading s) = v

/-- It is the numeral of `v`. -/
def IntArg.Whole (spec : IntArg) (s : Arg) (v : Nat) : Prop :=
  Numeral s ∧ decimal s = v ∧ spec.lo ≤ v ∧ v ≤ spec.hi

section
variable (args : List Arg) (e : IntArg × Nat)

def FitsAt : Prop := ∃ s, args[e.2]? = some s ∧ e.1.Fits s
def ReadsAt (v : Nat) : Prop := ∃ s, args[e.2]? = some s ∧ e.1.Reads s v
def WholeAt (v : Nat) : Prop := ∃ s, args[e.2]? = some s ∧ e.1.Whole s v

/-- No character but digits. -/
def DigitsAt : Prop := ∀ s, args[e.2]? = some s → ∀ c ∈ s, c.isDigit = true

end

/-- The integer arguments of `create`, when `n` are given. -/
def createInts (n : Nat) : List (IntArg × Nat) :=
  [(partitionsArg, 1), (recordsArg, 2), (valueSzArg, 3), (cacheKibArg, 4)] ++ if n = 6 then [(threadsArg, 5)] else []

def CreateArgs.ints (a : CreateArgs) (n : Nat) : List Nat :=
  [a.partitions, a.records, a.valueSz, a.cacheKib] ++ if n = 6 then [a.threads] else []

def requestsInts (n : Nat) : List (IntArg × Nat) :=
  [(partitionsArg, 2), (timeArg, 3), (valueSzArg, 6), (cacheKibArg, 7)] ++ if n = 9 then [(threadsArg, 8)] else []

def RequestsArgs.ints {F : Type} (r : RequestsArgs F) (n : Nat) : List Nat :=
  [r.partitions, r.time, r.valueSz, r.cacheKib] ++ if n = 9 then [r.threads] else []

theorem IntArg.read_ok {spec : IntArg} {crit : String} {s : Arg} {v : Nat} :
    spec.read crit s = .ok v ↔ spec.Reads s v := by
  have hle := spec.hi_le
  unfold IntArg.read IntArg.Reads IntArg.Fits
  cases h : fromChars spec.max s with
  | none =>
    simp only [reduceCtorEq, false_iff]
    rintro ⟨⟨hd, hlo, hhi⟩, -⟩
    have hsome := fromChars_eq_some.2 ⟨hd, rfl, Nat.le_trans hhi hle, rfl⟩
    rw [h] at hsome
    cases hsome
  | some p =>
    obtain ⟨u, rest⟩ := p
    obtain ⟨hd, hu, -, -⟩ := fromChars_eq_some.1 h
    simp only
    by_cases hb : u < spec.lo ∨ spec.hi < u
    · rw [if_pos hb]
      simp only [reduceCtorEq, false_iff]
      omega
    · rw [if_neg hb]
      simp only [Except.ok.injEq, hu]
      constructor
      · rintro rfl
        exact ⟨⟨hd, by omega, by omega⟩, rfl⟩
      · rintro ⟨-, rfl⟩
        rfl

/-- Whole numerals are those read with nothing but digits. -/
theorem forall₂_whole {args : List Arg} {es : List (IntArg × Nat)} {vs : List Nat} :
    List.Forall₂ (WholeAt args) es vs ↔
      List.Forall₂ (ReadsAt args) es vs ∧ ∀ e ∈ es, DigitsAt args e := by
  have hone (e : IntArg × Nat) (v : Nat) : WholeAt args e v ↔ ReadsAt args e v ∧ DigitsAt args e := by
    constructor
    · rintro ⟨s, hs, hnum, rfl, hlo, hhi⟩
      obtain ⟨hd, hval⟩ := decimal_numeral hnum
      refine ⟨⟨s, hs, ⟨hd, by omega, by omega⟩, hval⟩, ?_⟩
      intro t ht
      rw [hs] at ht
      cases ht
      exact hnum.2
    · rintro ⟨⟨s, hs, ⟨hd, hlo, hhi⟩, rfl⟩, hdigits⟩
      have hnum := numeral_of_leading hd (hdigits s hs)
      exact ⟨s, hs, hnum, (decimal_numeral hnum).2.symm, hlo, hhi⟩
  induction es generalizing vs with
  | nil => simp
  | cons e es ih =>
    cases vs with
    | nil => simp
    | cons v vs =>
      have ih := @ih vs
      simp only [List.forall₂_cons, hone, ih, List.forall_mem_cons]
      tauto

/-- The value at the start of argument `i`. -/
def valueAt (args : List Arg) (i : Nat) : Nat := decimal (leading (args.getD i []))

theorem FitsAt.reads {args : List Arg} {e : IntArg × Nat} (h : FitsAt args e) : ReadsAt args e (valueAt args e.2) := by
  obtain ⟨s, hs, hfits⟩ := h
  refine ⟨s, hs, hfits, ?_⟩
  rw [valueAt, List.getD_eq_getElem?_getD, hs]
  rfl

theorem forall₂_fits {args : List Arg} {es : List (IntArg × Nat)} {vs : List Nat}
    (h : List.Forall₂ (ReadsAt args) es vs) : ∀ e ∈ es, FitsAt args e := by
  induction h with
  | nil => simp
  | cons hread _ ih =>
    obtain ⟨s, hs, hfits, -⟩ := hread
    exact List.forall_mem_cons.2 ⟨⟨s, hs, hfits⟩, ih⟩

/-- When what is accepted was read from the arguments, it is all whole numerals exactly when, as soon as
something is accepted, the integer arguments are nothing but digits. -/
theorem accepted_whole_iff {A : Type} {args : List Arg} {es : List (IntArg × Nat)} {Accepted : A → Prop}
    {ints : A → List Nat} (h : ∀ a, Accepted a → List.Forall₂ (ReadsAt args) es (ints a)) :
    (∀ a, Accepted a → List.Forall₂ (WholeAt args) es (ints a)) ↔
      ((∃ a, Accepted a) → ∀ e ∈ es, DigitsAt args e) := by
  constructor
  · rintro hwhole ⟨a, ha⟩
    exact (forall₂_whole.1 (hwhole a ha)).2
  · intro hdigits a ha
    exact forall₂_whole.2 ⟨h a ha, hdigits ⟨a, ha⟩⟩

/-! ## What `create` accepts -/

theorem except_bind_ok {ε α β : Type} {x : Except ε α} {f : α → Except ε β} {b : β} :
    (x >>= f) = .ok b ↔ ∃ a, x = .ok a ∧ f a = .ok b := by
  cases x with
  | error e =>
    constructor
    · intro h
      cases h
    · rintro ⟨a, h, -⟩
      cases h
  | ok a =>
    constructor
    · exact fun h => ⟨a, rfl, h⟩
    · rintro ⟨_, h, hf⟩
      cases h
      exact hf

theorem argAt_ok {args : List Arg} {i : Nat} {s : Arg} : argAt args i = .ok s ↔ args[i]? = some s := by
  unfold argAt
  cases args[i]? with
  | none => simp
  | some t => simp

theorem hardwareThreads_ok {hw : UInt32} {v : Nat} : hardwareThreads hw = .ok v ↔ 0 < hw.toNat ∧ hw.toNat = v := by
  unfold hardwareThreads
  by_cases h : 0 < hw.toNat
  · simp [h]
  · simp [h]

theorem createThreads_ok {hw : UInt32} {args : List Arg} {v : Nat} :
    createThreads hw args = .ok v ↔
      if 6 ≤ args.length then ReadsAt args (threadsArg, 5) v else 0 < hw.toNat ∧ hw.toNat = v := by
  unfold createThreads
  split
  · simp only [except_bind_ok, argAt_ok, IntArg.read_ok, ReadsAt]
  · exact hardwareThreads_ok

/-- The integer arguments that are always there, and THREADS. -/
theorem forall₂_createInts {args : List Arg} {a : CreateArgs} {n : Nat} (hn : n = 5 ∨ n = 6) :
    List.Forall₂ (ReadsAt args) (createInts n) (a.ints n) ↔
      ReadsAt args (partitionsArg, 1) a.partitions ∧ ReadsAt args (recordsArg, 2) a.records ∧
      ReadsAt args (valueSzArg, 3) a.valueSz ∧ ReadsAt args (cacheKibArg, 4) a.cacheKib ∧
      (n = 6 → ReadsAt args (threadsArg, 5) a.threads) := by
  rcases hn with rfl | rfl
  · simp [createInts, CreateArgs.ints]
  · simp [createInts, CreateArgs.ints]

theorem create_ok {hw : UInt32} {args : List Arg} {a : CreateArgs} :
    create hw args = .ok a ↔
      (args.length = 5 ∨ args.length = 6) ∧ args[0]? = some a.path ∧
      List.Forall₂ (ReadsAt args) (createInts args.length) (a.ints args.length) ∧
      (args.length = 5 → 0 < hw.toNat ∧ hw.toNat = a.threads) := by
  unfold create
  by_cases hcount : args.length < 5 ∨ 6 < args.length
  · rw [if_pos hcount]
    simp only [reduceCtorEq, false_iff]
    omega
  · rw [if_neg hcount]
    have hlen : args.length = 5 ∨ args.length = 6 := by omega
    rw [forall₂_createInts hlen]
    simp only [except_bind_ok, argAt_ok, IntArg.read_ok, createThreads_ok]
    constructor
    · rintro ⟨path, hpath, s₁, hs₁, v₁, h₁, s₂, hs₂, v₂, h₂, s₃, hs₃, v₃, h₃, s₄, hs₄, v₄, h₄, v₅, h₅, heq⟩
      cases heq
      refine ⟨hlen, hpath, ⟨⟨s₁, hs₁, h₁⟩, ⟨s₂, hs₂, h₂⟩, ⟨s₃, hs₃, h₃⟩, ⟨s₄, hs₄, h₄⟩, ?_⟩, ?_⟩
      · intro h6
        rwa [if_pos (by omega)] at h₅
      · intro h5
        rwa [if_neg (by omega)] at h₅
    · rintro ⟨-, hpath, ⟨⟨s₁, hs₁, h₁⟩, ⟨s₂, hs₂, h₂⟩, ⟨s₃, hs₃, h₃⟩, ⟨s₄, hs₄, h₄⟩, h6⟩, h5⟩
      refine ⟨_, hpath, s₁, hs₁, _, h₁, s₂, hs₂, _, h₂, s₃, hs₃, _, h₃, s₄, hs₄, _, h₄, a.threads, ?_, rfl⟩
      split
      · exact h6 (by omega)
      · exact h5 (by omega)

/-- The arguments `create` goes on with: their number, what they start with, and the CPUs if it needs them. -/
structure CreateAdmits (hw : UInt32) (args : List Arg) : Prop where
  count : args.length = 5 ∨ args.length = 6
  ints : ∀ e ∈ createInts args.length, FitsAt args e
  cpus : args.length = 5 → 0 < hw.toNat

theorem create_admits {hw : UInt32} {args : List Arg} :
    (∃ a, create hw args = .ok a) ↔ CreateAdmits hw args := by
  constructor
  · rintro ⟨a, ha⟩
    obtain ⟨hcount, -, hints, hcpus⟩ := create_ok.1 ha
    exact ⟨hcount, forall₂_fits hints, fun h5 => (hcpus h5).1⟩
  · rintro ⟨hcount, hints, hcpus⟩
    have hread (e : IntArg × Nat) (he : e ∈ createInts args.length) := (hints e he).reads
    obtain ⟨path, hpath⟩ : ∃ path, args[0]? = some path := ⟨args[0], List.getElem?_eq_getElem (by omega)⟩
    refine ⟨⟨path, valueAt args 1, valueAt args 2, valueAt args 3, valueAt args 4,
      if args.length = 6 then valueAt args 5 else hw.toNat⟩, create_ok.2 ⟨hcount, hpath, ?_, ?_⟩⟩
    · rw [forall₂_createInts hcount]
      refine ⟨hread _ (by simp [createInts]), hread _ (by simp [createInts]), hread _ (by simp [createInts]),
        hread _ (by simp [createInts]), ?_⟩
      intro h6
      rw [if_pos h6]
      exact hread _ (by simp [createInts, h6])
    · intro h5
      rw [if_neg (by omega)]
      exact ⟨hcpus h5, rfl⟩

theorem bind_inside {α β : Type} {x : Except Stop α} {f : α → Except Stop β} (hx : x ≠ .error .outside)
    (hf : ∀ a, f a ≠ .error .outside) : (x >>= f) ≠ .error .outside := by
  cases x with
  | ok a => exact hf a
  | error e => exact fun h => hx (by cases h; rfl)

theorem argAt_inside {args : List Arg} {i : Nat} (h : i < args.length) : argAt args i ≠ .error .outside := by
  simp [argAt, List.getElem?_eq_getElem h]

theorem IntArg.read_inside (spec : IntArg) (crit : String) (s : Arg) : spec.read crit s ≠ .error .outside := by
  unfold IntArg.read
  split
  · split
    · simp
    · simp
  · simp

theorem hardwareThreads_inside (hw : UInt32) : hardwareThreads hw ≠ .error .outside := by
  unfold hardwareThreads
  split
  · simp
  · simp

/-- `create` never indexes outside of the arguments. -/
theorem create_inside (hw : UInt32) (args : List Arg) : create hw args ≠ .error .outside := by
  unfold create
  by_cases hcount : args.length < 5 ∨ 6 < args.length
  · rw [if_pos hcount]
    simp
  · rw [if_neg hcount]
    refine bind_inside (argAt_inside (by omega)) fun path => ?_
    refine bind_inside (argAt_inside (by omega)) fun s => bind_inside (IntArg.read_inside _ _ _) fun partitions => ?_
    refine bind_inside (argAt_inside (by omega)) fun s => bind_inside (IntArg.read_inside _ _ _) fun records => ?_
    refine bind_inside (argAt_inside (by omega)) fun s => bind_inside (IntArg.read_inside _ _ _) fun valueSz => ?_
    refine bind_inside (argAt_inside (by omega)) fun s => bind_inside (IntArg.read_inside _ _ _) fun cacheKib => ?_
    refine bind_inside ?_ fun threads => by simp [pure, Except.pure]
    unfold createThreads
    split
    · exact bind_inside (argAt_inside (by omega)) fun s => IntArg.read_inside _ _ _
    · exact hardwareThreads_inside hw

/-! ## The iterator of `requests` -/

section
variable {args : List Arg}

/-- Where the iterator is when `k` arguments have been read; past the end it stays on the last one. -/
def before (args : List Arg) (k : Nat) : Cursor where
  it := if k = 0 then args.length else min k args.length - 1
  reads := List.range k

/-- `k` arguments have been read in order, and the iterator is on the next one, or at the end. -/
def pending (k : Nat) : Cursor := { it := k, reads := List.range k }

theorem before_it {k : Nat} (h0 : 0 < k) : (before args k).it = min k args.length - 1 := if_neg (by omega)

/-- `next_arg` once the position it moves to is known. -/
theorem nextArg_eq {c : Cursor} {i : Nat} (h : (if c.it = args.length then 0 else c.it + 1) = i) :
    nextArg args c =
      if i = args.length then (.error .argsCount, { c with it := i }) else (.ok (), { c with it := i }) := by
  unfold nextArg
  simp only [h]

theorem nextArg_before (k : Nat) :
    nextArg args (before args k) =
      if k < args.length then (.ok (), pending k)
      else (.error .argsCount, { it := args.length, reads := List.range k }) := by
  have hnext : (if (before args k).it = args.length then 0 else (before args k).it + 1) = min k args.length := by
    rcases Nat.eq_zero_or_pos k with rfl | h0
    · simp [before]
    · rw [before_it h0]
      split
      · omega
      · omega
  rw [nextArg_eq hnext]
  by_cases hk : k < args.length
  · have hmin : min k args.length = k := by omega
    rw [if_pos hk, hmin, if_neg (by omega)]
    rfl
  · have hmin : min k args.length = args.length := by omega
    rw [if_neg hk, hmin, if_pos rfl]
    rfl

theorem deref_pending {k : Nat} (hk : k < args.length) :
    deref args (pending k) = (.ok args[k], before args (k + 1)) := by
  have hmin : min (k + 1) args.length - 1 = k := by omega
  simp [deref, List.getElem?_eq_getElem hk, before, pending, List.range_succ, hmin]

theorem advance_before {k : Nat} (h0 : 0 < k) (hk : k ≤ args.length) :
    advance args (before args k) = (.ok (), pending k) := by
  have hit := @before_it args k h0
  have hnext : min k args.length - 1 + 1 = k := by omega
  unfold advance
  rw [if_neg (by omega), hit, hnext]
  rfl

theorem arg_before (k : Nat) :
    arg args (before args k) =
      match args[k]? with
      | some s => (.ok s, before args (k + 1))
      | none => (.error .argsCount, { it := args.length, reads := List.range k }) := by
  unfold arg
  rw [Reader.bind_eq, nextArg_before]
  by_cases hk : k < args.length
  · simp only [hk, if_true, deref_pending, List.getElem?_eq_getElem]
  · rw [if_neg hk, List.getElem?_eq_none (by omega)]

/-- A program that goes on after reading argument `k`. -/
theorem arg_bind_ok {α : Type} {k : Nat} {f : Arg → Reader Cursor Stop α} {b : α} {c : Cursor} :
    (arg args >>= f) (before args k) = (.ok b, c) ↔
      ∃ s, args[k]? = some s ∧ f s (before args (k + 1)) = (.ok b, c) := by
  rw [Reader.bind_eq, arg_before]
  cases args[k]? with
  | none => simp
  | some s => simp

theorem atEnd_pending (k : Nat) : atEnd args (pending k) = (.ok (decide (k = args.length)), pending k) := rfl

theorem lastThreads_ok {hw : UInt32} {k v : Nat} {c : Cursor} (h0 : 0 < k) (hk : k ≤ args.length) :
    lastThreads args hw (before args k) = (.ok v, c) ↔
      if k = args.length then (0 < hw.toNat ∧ hw.toNat = v) ∧ pending k = c
      else ReadsAt args (threadsArg, k) v ∧ pending (k + 1) = c := by
  unfold lastThreads
  rw [Reader.bind_eq, advance_before h0 hk]
  simp only [Reader.bind_eq, atEnd_pending]
  by_cases hend : k = args.length
  · rw [if_pos hend, if_pos (decide_eq_true hend), Reader.lift_ok, hardwareThreads_ok]
  · have hlt : k < args.length := by omega
    have hget : args[k]? = some args[k] := List.getElem?_eq_getElem hlt
    rw [if_neg hend, if_neg (by simpa using hend)]
    rw [Reader.bind_eq, deref_pending hlt]
    simp only [Reader.bind_ok, Reader.lift_ok, Reader.pure_ok, IntArg.read_ok]
    constructor
    · rintro ⟨u, t, ⟨hread, rfl⟩, _, t', hadv, rfl, rfl⟩
      rw [advance_before (Nat.succ_pos k) hlt] at hadv
      cases hadv
      exact ⟨⟨_, hget, hread⟩, rfl⟩
    · rintro ⟨⟨s, hs, hread⟩, rfl⟩
      rw [hget] at hs
      cases hs
      exact ⟨v, _, ⟨hread, rfl⟩, (), _, advance_before (Nat.succ_pos k) hlt, rfl, rfl⟩

theorem endOfArgs_ok {k : Nat} {c : Cursor} :
    endOfArgs args (pending k) = (.ok (), c) ↔ k = args.length ∧ pending k = c := by
  unfold endOfArgs
  rw [Reader.bind_eq, atEnd_pending]
  by_cases hend : k = args.length
  · simp only [hend, decide_true, if_true, Reader.pure_ok, true_and]
  · simp [hend, Reader.stop]

end

/-! ## What `requests` accepts -/

section
variable {F : Type} {dbl : Doubles F} {args : List Arg} {hw : UInt32} {r : RequestsArgs F}

/-- The argument is read as `x`, between 0 and 1 as far as `double` can tell. -/
def Doubles.Reads (dbl : Doubles F) (s : Arg) (x : F) : Prop :=
  dbl.fromChars s = some x ∧ dbl.ltZero x = false ∧ dbl.gtOne x = false

theorem Doubles.read_ok {crit : String} {s : Arg} {x : F} : dbl.read crit s = .ok x ↔ dbl.Reads s x := by
  unfold Doubles.read Doubles.Reads
  cases dbl.fromChars s with
  | none => simp
  | some y =>
    simp only [Option.some.injEq]
    cases h : (dbl.ltZero y || dbl.gtOne y) with
    | true =>
      simp only [if_true, reduceCtorEq, false_iff]
      rintro ⟨rfl, hlt, hgt⟩
      simp [hlt, hgt] at h
    | false =>
      rw [Bool.or_eq_false_iff] at h
      simp only [Bool.false_eq_true, if_false, Except.ok.injEq]
      constructor
      · rintro rfl
        exact ⟨rfl, h⟩
      · exact fun hx => hx.1

/-- INSERTS and UPDATES, and their sum. -/
def FractionsAt (dbl : Doubles F) (args : List Arg) (x y : F) : Prop :=
  (∃ s, args[4]? = some s ∧ dbl.Reads s x) ∧ (∃ s, args[5]? = some s ∧ dbl.Reads s y) ∧
    dbl.gtOne (dbl.add x y) = false

theorem forall₂_requestsInts {n : Nat} (hn : n = 8 ∨ n = 9) :
    List.Forall₂ (ReadsAt args) (requestsInts n) (r.ints n) ↔
      ReadsAt args (partitionsArg, 2) r.partitions ∧ ReadsAt args (timeArg, 3) r.time ∧
      ReadsAt args (valueSzArg, 6) r.valueSz ∧ ReadsAt args (cacheKibArg, 7) r.cacheKib ∧
      (n = 9 → ReadsAt args (threadsArg, 8) r.threads) := by
  rcases hn with rfl | rfl
  · simp [requestsInts, RequestsArgs.ints]
  · simp [requestsInts, RequestsArgs.ints]

theorem Doubles.checkSum_ok {x y : F} {u : Unit} : dbl.checkSum x y = .ok u ↔ dbl.gtOne (dbl.add x y) = false := by
  unfold Doubles.checkSum
  cases dbl.gtOne (dbl.add x y) with
  | false => simp
  | true => simp

theorem readArgs_ok {c : Cursor} :
    readArgs args dbl hw { it := args.length } = (.ok r, c) ↔
      (args.length = 8 ∨ args.length = 9) ∧ args[0]? = some r.path ∧ args[1]? = some r.keys ∧
      List.Forall₂ (ReadsAt args) (requestsInts args.length) (r.ints args.length) ∧
      FractionsAt dbl args r.inserts r.updates ∧ (args.length = 8 → 0 < hw.toNat ∧ hw.toNat = r.threads) ∧
      pending args.length = c := by
  have hstart : ({ it := args.length } : Cursor) = before args 0 := rfl
  rw [hstart]
  unfold readArgs
  simp only [arg_bind_ok, Reader.lift_bind_ok, IntArg.read_ok, Doubles.read_ok, Doubles.checkSum_ok]
  constructor
  · rintro ⟨path, hpath, keys, hkeys, s₂, hs₂, v₂, h₂, s₃, hs₃, v₃, h₃, s₄, hs₄, x, hx, s₅, hs₅, y, hy, _, hsum,
      s₆, hs₆, v₆, h₆, s₇, hs₇, v₇, h₇, hlast⟩
    have h8 := (List.getElem?_eq_some_iff.1 hs₇).1
    obtain ⟨v₈, c', hthreads, hrest⟩ := Reader.bind_ok.1 hlast
    obtain ⟨_, c'', hend, hpure⟩ := Reader.bind_ok.1 hrest
    obtain ⟨rfl, rfl⟩ := Reader.pure_ok.1 hpure
    rw [lastThreads_ok (by omega) h8] at hthreads
    have hfractions : FractionsAt dbl args x y := ⟨⟨s₄, hs₄, hx⟩, ⟨s₅, hs₅, hy⟩, hsum⟩
    split at hthreads
    · rename_i hlen
      obtain ⟨hcpus, rfl⟩ := hthreads
      obtain ⟨-, rfl⟩ := endOfArgs_ok.1 hend
      have hcount : args.length = 8 ∨ args.length = 9 := by omega
      refine ⟨hcount, hpath, hkeys, ?_, hfractions, fun _ => hcpus, by rw [← hlen]⟩
      rw [forall₂_requestsInts hcount]
      exact ⟨⟨s₂, hs₂, h₂⟩, ⟨s₃, hs₃, h₃⟩, ⟨s₆, hs₆, h₆⟩, ⟨s₇, hs₇, h₇⟩, fun h9 => by omega⟩
    · obtain ⟨hread, rfl⟩ := hthreads
      obtain ⟨hlen, rfl⟩ := endOfArgs_ok.1 hend
      have hcount : args.length = 8 ∨ args.length = 9 := by omega
      refine ⟨hcount, hpath, hkeys, ?_, hfractions, fun h => by omega, by rw [← hlen]⟩
      rw [forall₂_requestsInts hcount]
      exact ⟨⟨s₂, hs₂, h₂⟩, ⟨s₃, hs₃, h₃⟩, ⟨s₆, hs₆, h₆⟩, ⟨s₇, hs₇, h₇⟩, fun _ => hread⟩
  · rintro ⟨hcount, hpath, hkeys, hints, ⟨⟨s₄, hs₄, hx⟩, ⟨s₅, hs₅, hy⟩, hsum⟩, hcpus, rfl⟩
    rw [forall₂_requestsInts hcount] at hints
    obtain ⟨⟨s₂, hs₂, h₂⟩, ⟨s₃, hs₃, h₃⟩, ⟨s₆, hs₆, h₆⟩, ⟨s₇, hs₇, h₇⟩, hthreads⟩ := hints
    refine ⟨_, hpath, _, hkeys, s₂, hs₂, _, h₂, s₃, hs₃, _, h₃, s₄, hs₄, _, hx, s₅, hs₅, _, hy, (), hsum,
      s₆, hs₆, _, h₆, s₇, hs₇, _, h₇, ?_⟩
    have hlast : lastThreads args hw (before args 8) = (.ok r.threads, pending args.length) := by
      rw [lastThreads_ok (by omega) (by omega)]
      split
      · exact ⟨hcpus (by omega), by congr⟩
      · exact ⟨hthreads (by omega), by congr; omega⟩
    exact Reader.bind_ok.2 ⟨_, _, hlast, Reader.bind_ok.2 ⟨_, _, endOfArgs_ok.2 ⟨rfl, rfl⟩, rfl⟩⟩

theorem requests_ok :
    (requests args dbl hw).1 = .ok r ↔ ∃ c, readArgs args dbl hw { it := args.length } = (.ok r, c) := by
  unfold requests
  cases readArgs args dbl hw { it := args.length } with
  | mk res c =>
    cases res with
    | ok a => simp
    | error e => cases e with
      | argsCount => simp
      | usage | assertion | outside => simp

structure RequestsAdmits (dbl : Doubles F) (hw : UInt32) (args : List Arg) : Prop where
  count : args.length = 8 ∨ args.length = 9
  ints : ∀ e ∈ requestsInts args.length, FitsAt args e
  fractions : ∃ x y, FractionsAt dbl args x y
  cpus : args.length = 8 → 0 < hw.toNat

theorem requests_admits : (∃ r, (requests args dbl hw).1 = .ok r) ↔ RequestsAdmits dbl hw args := by
  constructor
  · rintro ⟨r, hr⟩
    obtain ⟨c, hc⟩ := requests_ok.1 hr
    obtain ⟨hcount, -, -, hints, hfractions, hcpus, -⟩ := readArgs_ok.1 hc
    exact ⟨hcount, forall₂_fits hints, ⟨_, _, hfractions⟩, fun h8 => (hcpus h8).1⟩
  · rintro ⟨hcount, hints, ⟨x, y, hfractions⟩, hcpus⟩
    have hread (e : IntArg × Nat) (he : e ∈ requestsInts args.length) := (hints e he).reads
    have hget (i : Nat) (hi : i < 8) : ∃ s, args[i]? = some s := ⟨args[i], List.getElem?_eq_getElem (by omega)⟩
    obtain ⟨path, hpath⟩ := hget 0 (by omega)
    obtain ⟨keys, hkeys⟩ := hget 1 (by omega)
    refine ⟨⟨path, keys, valueAt args 2, valueAt args 3, x, y, valueAt args 6, valueAt args 7,
      if args.length = 9 then valueAt args 8 else hw.toNat⟩,
      requests_ok.2 ⟨_, readArgs_ok.2 ⟨hcount, hpath, hkeys, ?_, hfractions, ?_, rfl⟩⟩⟩
    · rw [forall₂_requestsInts hcount]
      refine ⟨hread _ (by simp [requestsInts]), hread _ (by simp [requestsInts]), hread _ (by simp [requestsInts]),
        hread _ (by simp [requestsInts]), ?_⟩
      intro h9
      rw [if_pos h9]
      exact hread _ (by simp [requestsInts, h9])
    · intro h8
      rw [if_neg (by omega)]
      exact ⟨hcpus h8, rfl⟩

end

/-! ## The order of the reads -/

section
variable {F : Type} {args : List Arg}

/-- The arguments dereferenced are the first ones, each once. -/
def InOrder (args : List Arg) (c : Cursor) : Prop := ∃ k ≤ args.length, c.reads = List.range k

/-- What holds however the processing stops. -/
def Stopped (args : List Arg) (e : Stop) (c : Cursor) : Prop := e ≠ .outside ∧ InOrder args c

def Between (args : List Arg) (k : Nat) (c : Cursor) : Prop := k ≤ args.length ∧ c = before args k

theorem Between.inOrder {k : Nat} {c : Cursor} (h : Between args k c) : InOrder args c := ⟨k, h.1, by rw [h.2]; rfl⟩

theorem arg_triple (k : Nat) :
    Reader.Triple (Between args k) (arg args) (fun _ => Between args (k + 1)) (Stopped args) := by
  rintro _ ⟨hk, rfl⟩
  rw [arg_before]
  cases hs : args[k]? with
  | none => exact ⟨by simp, k, hk, rfl⟩
  | some s => exact ⟨(List.getElem?_eq_some_iff.1 hs).1, rfl⟩

theorem lift_triple {α : Type} {k : Nat} {r : Except Stop α} (h : r ≠ .error .outside) :
    Reader.Triple (Between args k) (Reader.lift r) (fun _ => Between args k) (Stopped args) := by
  apply Reader.Triple.lift
  rintro e c rfl hc
  exact ⟨fun he => h (by rw [he]), hc.inOrder⟩

theorem Doubles.read_inside (dbl : Doubles F) (crit : String) (s : Arg) : dbl.read crit s ≠ .error .outside := by
  unfold Doubles.read
  split
  · split
    · simp
    · simp
  · simp

theorem Doubles.checkSum_inside (dbl : Doubles F) (x y : F) : dbl.checkSum x y ≠ .error .outside := by
  unfold Doubles.checkSum
  split
  · simp
  · simp

theorem lastThreads_triple (hw : UInt32) {k : Nat} (h0 : 0 < k) :
    Reader.Triple (Between args k) (lastThreads args hw) (fun _ c => ∃ j ≤ args.length, c = pending j) (Stopped args) := by
  rintro _ ⟨hk, rfl⟩
  unfold lastThreads
  rw [Reader.bind_eq, advance_before h0 hk]
  simp only [Reader.bind_eq, atEnd_pending]
  by_cases hend : k = args.length
  · rw [if_pos (decide_eq_true hend)]
    cases hr : hardwareThreads hw with
    | ok v => exact ⟨k, hk, rfl⟩
    | error e => exact ⟨fun he => hardwareThreads_inside hw (by rw [hr, he]), k, hk, rfl⟩
  · have hlt : k < args.length := by omega
    rw [if_neg (by simpa using hend), Reader.bind_eq, deref_pending hlt]
    -- after THREADS the iterator moves on by one
    refine Reader.Triple.bind (lift_triple (IntArg.read_inside _ _ _)) (fun v => ?_) _ ⟨hlt, rfl⟩
    rintro _ ⟨-, rfl⟩
    rw [Reader.bind_eq, advance_before (Nat.succ_pos k) hlt]
    exact ⟨k + 1, hlt, rfl⟩

theorem endOfArgs_triple :
    Reader.Triple (fun c => ∃ j ≤ args.length, c = pending j) (endOfArgs args) (fun _ => InOrder args) (Stopped args) := by
  rintro _ ⟨j, hj, rfl⟩
  unfold endOfArgs
  rw [Reader.bind_eq, atEnd_pending]
  simp only
  split
  · exact ⟨j, hj, rfl⟩
  · exact ⟨by simp, j, hj, rfl⟩

theorem readArgs_triple (dbl : Doubles F) (hw : UInt32) :
    Reader.Triple (Between args 0) (readArgs args dbl hw) (fun _ => InOrder args) (Stopped args) := by
  unfold readArgs
  refine (arg_triple 0).bind fun path => (arg_triple 1).bind fun keys => ?_
  refine (arg_triple 2).bind fun s => (lift_triple (IntArg.read_inside _ _ _)).bind fun partitions => ?_
  refine (arg_triple 3).bind fun s => (lift_triple (IntArg.read_inside _ _ _)).bind fun time => ?_
  refine (arg_triple 4).bind fun s => (lift_triple (dbl.read_inside _ _)).bind fun inserts => ?_
  refine (arg_triple 5).bind fun s => (lift_triple (dbl.read_inside _ _)).bind fun updates => ?_
  refine (lift_triple (dbl.checkSum_inside _ _)).bind fun _ => ?_
  refine (arg_triple 6).bind fun s => (lift_triple (IntArg.read_inside _ _ _)).bind fun valueSz => ?_
  refine (arg_triple 7).bind fun s => (lift_triple (IntArg.read_inside _ _ _)).bind fun cacheKib => ?_
  refine (lastThreads_triple hw (by omega)).bind fun threads => endOfArgs_triple.bind fun _ => ?_
  exact Reader.Triple.pure fun _ h => h

/-- For any number of arguments. -/
theorem requests_inOrder (args : List Arg) (dbl : Doubles F) (hw : UInt32) :
    (requests args dbl hw).1 ≠ .error .outside ∧ InOrder args (requests args dbl hw).2 := by
  have htriple := readArgs_triple dbl hw { it := args.length } (⟨Nat.zero_le _, rfl⟩ : Between args 0 _)
  unfold requests
  cases hres : readArgs args dbl hw { it := args.length } with
  | mk res c =>
    rw [hres] at htriple
    cases res with
    | ok r => exact ⟨by simp, htriple⟩
    | error e =>
      obtain ⟨hinside, horder⟩ := htriple
      cases e with
      | argsCount => exact ⟨by simp, horder⟩
      | usage | assertion => exact ⟨by simp, horder⟩
      | outside => exact absurd rfl hinside

end

/-! ## Whole arguments -/

/-- `create` goes on only with 5 or 6 arguments, and with the values of whole numerals. -/
def CreateOk (hw : UInt32) (args : List Arg) : Prop :=
  ∀ a, create hw args = .ok a → (args.length = 5 ∨ args.length = 6) ∧
    List.Forall₂ (WholeAt args) (createInts args.length) (a.ints args.length)

structure RequestsOk {F : Type} (dbl : Doubles F) (hw : UInt32) (args : List Arg) : Prop where
  inside : (requests args dbl hw).1 ≠ .error .outside
  inOrder : InOrder args (requests args dbl hw).2
  whole : ∀ r, (requests args dbl hw).1 = .ok r → (args.length = 8 ∨ args.length = 9) ∧
    (requests args dbl hw).2.reads = List.range args.length ∧
    List.Forall₂ (WholeAt args) (requestsInts args.length) (r.ints args.length)

theorem createOk_iff (hw : UInt32) (args : List Arg) :
    CreateOk hw args ↔ (CreateAdmits hw args → ∀ e ∈ createInts args.length, DigitsAt args e) := by
  rw [← create_admits, ← accepted_whole_iff fun a ha => (create_ok.1 ha).2.2.1]
  exact forall₂_congr fun a ha => and_iff_right (create_ok.1 ha).1

theorem requestsOk_iff {F : Type} (dbl : Doubles F) (hw : UInt32) (args : List Arg) :
    RequestsOk dbl hw args ↔
      (RequestsAdmits dbl hw args → ∀ e ∈ requestsInts args.length, DigitsAt args e) := by
  have hok (r : RequestsArgs F) (hr : (requests args dbl hw).1 = .ok r) :
      (args.length = 8 ∨ args.length = 9) ∧ (requests args dbl hw).2.reads = List.range args.length ∧
        List.Forall₂ (ReadsAt args) (requestsInts args.length) (r.ints args.length) := by
    obtain ⟨c, hc⟩ := requests_ok.1 hr
    obtain ⟨hcount, -, -, hints, -, -, rfl⟩ := readArgs_ok.1 hc
    refine ⟨hcount, ?_, hints⟩
    unfold requests
    rw [hc]
    rfl
  rw [← requests_admits, ← accepted_whole_iff fun r hr => (hok r hr).2.2]
  constructor
  · exact fun h r hr => (h.whole r hr).2.2
  · intro h
    obtain ⟨hinside, horder⟩ := requests_inOrder args dbl hw
    exact ⟨hinside, horder, fun r hr => ⟨(hok r hr).1, (hok r hr).2.1, h r hr⟩⟩

/-- **Arguments.** `create` and `requests` go on with what the command line says exactly unless every integer
argument starts with a numeral within its bounds, nothing else is wrong, and one of them does not end there. -/
theorem arguments_whole_iff {F : Type} (dbl : Doubles F) (hw : UInt32) (args : List Arg) :
    (CreateOk hw args ↔ (CreateAdmits hw args → ∀ e ∈ createInts args.length, DigitsAt args e)) ∧
    (RequestsOk dbl hw args ↔
      (RequestsAdmits dbl hw args → ∀ e ∈ requestsInts args.length, DigitsAt args e)) :=
  ⟨createOk_iff hw args, requestsOk_iff dbl hw args⟩

/-- RECORDS `1e9` is taken for 1, and a TIME of `10x` for 10. -/
theorem arguments_prefix :
    (∃ a, create 4 [['p'], ['2'], ['1', 'e', '9'], ['1', '6'], ['6', '4']] = .ok a ∧ a.records = 1 ∧
      ¬CreateOk 4 [['p'], ['2'], ['1', 'e', '9'], ['1', '6'], ['6', '4']]) ∧
    ∃ dbl : Doubles Nat, ∃ r,
      (requests [['p'], ['k'], ['2'], ['1', '0', 'x'], ['0'], ['0'], ['1', '6'], ['6', '4']] dbl 4).1 = .ok r ∧
      r.time = 10 ∧
      ¬RequestsOk dbl 4 [['p'], ['k'], ['2'], ['1', '0', 'x'], ['0'], ['0'], ['1', '6'], ['6', '4']] := by
  constructor
  · refine ⟨⟨['p'], 2, 1, 16, 64, 4⟩, by decide, rfl, ?_⟩
    intro h
    have hwhole := (h ⟨['p'], 2, 1, 16, 64, 4⟩ (by decide)).2
    have hdigits := (forall₂_whole.1 hwhole).2 (recordsArg, 2) (by simp [createInts]) _ rfl 'e' (by simp)
    exact absurd hdigits (by decide)
  · refine ⟨⟨fun s => (fromChars 1 s).map Prod.fst, fun _ => false, fun x => decide (1 < x), (· + ·)⟩,
      ⟨['p'], ['k'], 2, 10, 0, 0, 16, 64, 4⟩, by decide, rfl, ?_⟩
    intro h
    have hwhole := (h.whole ⟨['p'], ['k'], 2, 10, 0, 0, 16, 64, 4⟩ (by decide)).2.2
    have hdigits := (forall₂_whole.1 hwhole).2 (timeArg, 3) (by simp [requestsInts]) _ rfl 'x' (by simp)
    exact absurd hdigits (by decide)

/-- The values `create` goes on with are those its records are made for (`Args`). -/
theorem create_args {hw : UInt32} {args : List Arg} {a : CreateArgs} (h : create hw args = .ok a) :
    ∃ made : Args, made.partitions = a.partitions ∧ made.records.toNat = a.records := by
  obtain ⟨hcount, -, hints, -⟩ := create_ok.1 h
  obtain ⟨⟨_, -, ⟨-, hplo, hphi⟩, hp⟩, ⟨_, -, ⟨-, hrlo, hrhi⟩, hr⟩, -⟩ := (forall₂_createInts hcount).1 hints
  rw [hp] at hplo hphi
  rw [hr] at hrlo hrhi
  have hnat : (UInt64.ofNat a.records).toNat = a.records :=
    UInt64.toNat_ofNat_of_lt' (Nat.lt_of_le_of_lt hrhi (by decide))
  exact ⟨⟨UInt64.ofNat a.records, a.partitions, by rw [hnat]; exact hrlo, hplo, hphi⟩, rfl, hnat⟩

end Acppsrv.Benchmark
