import Acppsrv.Benchmark.KnownKeys
/-!
# Drawing a key from any keys file (benchmark.cpp:557-595, :622-662, :725-751)

`KnownKeys.lean` follows the files that `create` writes. Nothing makes the file given to `requests` one of
these: the constructor takes what `mmap` can map, and `request_get` and `request_update` index the
partitions by the byte they find in it (`request_insert` reduces modulo `parts.size()`, :737).

| here | there |
| --- | --- |
| `add`      | `known_key_generator::add` (:570) |
| `drawn`    | `i` of `get_key` (:651); the division itself is `DrawSafe.divisor` |
| `DrawSafe` | what `get_key` and its two callers rely on, for one value of `rnd()` |

`drawSafe_iff` says for which files, which keys added and which PARTITIONS they may; entries cut short at the
end of the file are no danger (`drawn_inFile`).
-/
namespace Acppsrv.Benchmark
open Lib

def add (g : KnownKeys) (k : KnownKey) : KnownKeys := { g with added := g.added ++ [k] }

def drawn (g : KnownKeys) (rnd : UInt64) : Nat := rnd.toNat % (g.sz + g.added.length)

structure DrawSafe (parts : Nat) (g : KnownKeys) (rnd : UInt64) : Prop where
  divisor : g.sz + g.added.length ≠ 0
  /-- All bytes of the entry are mapped. -/
  inFile : drawn g rnd < g.sz → drawn g rnd * keySz + keySz ≤ g.data.length
  inAdded : g.sz ≤ drawn g rnd → drawn g rnd - g.sz < g.added.length
  get : (requestGet parts g rnd).isSome = true
  update : (requestUpdate parts g rnd).isSome = true

/-- The files, keys and PARTITIONS with which nothing goes wrong. -/
structure DrawsOk (parts : Nat) (data : Bytes) (adds : List KnownKey) : Prop where
  some_key : keySz ≤ data.length ∨ adds ≠ []
  /-- The partition bytes of the complete entries. -/
  file : ∀ i < data.length / keySz, (data.getD (i * keySz) 0).toNat < parts
  added : ∀ k ∈ adds, k.partition < parts

/-! ## The generator after any number of `add` calls -/

theorem foldl_add (adds : List KnownKey) (g : KnownKeys) :
    adds.foldl add g = { g with added := g.added ++ adds } := by
  induction adds generalizing g with
  | nil => simp
  | cons k adds ih => simp [ih, add]

theorem knownKeyGenerator_adds {data : Bytes} {g : KnownKeys} (hg : knownKeyGenerator data = some g)
    (adds : List KnownKey) : adds.foldl add g = ⟨data, data.length / keySz, adds⟩ := by
  unfold knownKeyGenerator at hg
  split at hg
  · cases hg
  · cases hg
    rw [foldl_add]
    rfl

/-! ## One draw -/

section
variable {parts : Nat} {g : KnownKeys} {rnd : UInt64}

/-- `get_key` returns the key at `drawn`. -/
theorem getKey_file (h : drawn g rnd < g.sz) : getKey g rnd = some (readKey g.data (drawn g rnd)) := by
  show (if g.sz ≤ drawn g rnd then _ else _) = _
  rw [if_neg (by omega)]
  rfl

theorem getKey_added (h : g.sz ≤ drawn g rnd) : getKey g rnd = g.added[drawn g rnd - g.sz]? := by
  show (if g.sz ≤ drawn g rnd then _ else _) = _
  rw [if_pos h]
  rfl

/-- Both callers index by the partition of the key. -/
theorem request_isSome {key : KnownKey} (h : getKey g rnd = some key) :
    ((requestGet parts g rnd).isSome = true ↔ key.partition < parts) ∧
    ((requestUpdate parts g rnd).isSome = true ↔ key.partition < parts) := by
  constructor
  · simp [requestGet, h]
  · simp [requestUpdate, h]

theorem drawn_lt (h : g.sz + g.added.length ≠ 0) (rnd : UInt64) : drawn g rnd < g.sz + g.added.length :=
  Nat.mod_lt _ (Nat.pos_of_ne_zero h)

/-- Every index below the number of keys is drawn by some `rnd()`. -/
theorem exists_drawn {i : Nat} (hi : i < g.sz + g.added.length)
    (hfit : g.sz + g.added.length ≤ 18446744073709551616) : ∃ rnd, drawn g rnd = i := by
  refine ⟨UInt64.ofNat i, ?_⟩
  have hnat : (UInt64.ofNat i).toNat = i := UInt64.toNat_ofNat_of_lt' (Nat.lt_of_lt_of_le hi hfit)
  rw [drawn, hnat, Nat.mod_eq_of_lt hi]

end

/-- The entries counted by `sz` are complete. -/
theorem drawn_inFile {data : Bytes} {i : Nat} (h : i < data.length / keySz) :
    i * keySz + keySz ≤ data.length := by
  simp only [keySz] at h ⊢
  omega

theorem DrawsOk.safe {parts : Nat} {data : Bytes} {adds : List KnownKey} (h : DrawsOk parts data adds)
    (rnd : UInt64) : DrawSafe parts ⟨data, data.length / keySz, adds⟩ rnd := by
  obtain ⟨hsome, hfile, hadded⟩ := h
  have hdiv : data.length / keySz + adds.length ≠ 0 := by
    rcases hsome with hlen | hne
    · simp only [keySz] at hlen ⊢
      omega
    · exact Nat.ne_of_gt (Nat.add_pos_right _ (List.length_pos_of_ne_nil hne))
  have hlt : drawn ⟨data, data.length / keySz, adds⟩ rnd < data.length / keySz + adds.length := drawn_lt hdiv rnd
  have hbound : data.length / keySz ≤ drawn ⟨data, data.length / keySz, adds⟩ rnd →
      drawn ⟨data, data.length / keySz, adds⟩ rnd - data.length / keySz < adds.length := by
    intro hle
    omega
  -- the key that is returned is from the file, or was added
  have hkey : ∃ key, getKey ⟨data, data.length / keySz, adds⟩ rnd = some key ∧ key.partition < parts := by
    by_cases hi : drawn ⟨data, data.length / keySz, adds⟩ rnd < data.length / keySz
    · exact ⟨_, getKey_file hi, hfile _ hi⟩
    · have hj := hbound (Nat.le_of_not_lt hi)
      refine ⟨_, (getKey_added (Nat.le_of_not_lt hi)).trans (List.getElem?_eq_getElem hj), ?_⟩
      exact hadded _ (List.getElem_mem hj)
  obtain ⟨key, hget, hpart⟩ := hkey
  obtain ⟨hreqGet, hreqUpdate⟩ := @request_isSome parts _ _ _ hget
  exact ⟨hdiv, drawn_inFile, hbound, hreqGet.2 hpart, hreqUpdate.2 hpart⟩

theorem drawsOk_of_safe {parts : Nat} {data : Bytes} {adds : List KnownKey}
    (hfit : data.length + adds.length ≤ 18446744073709551616)
    (h : ∀ rnd, DrawSafe parts ⟨data, data.length / keySz, adds⟩ rnd) : DrawsOk parts data adds := by
  have hdiv := (h 0).divisor
  have hsz : data.length / keySz ≤ data.length := Nat.div_le_self ..
  -- every index is drawn, so every key is looked up
  have hpart : ∀ i < data.length / keySz + adds.length, ∀ key,
      (∀ rnd, drawn ⟨data, data.length / keySz, adds⟩ rnd = i →
        getKey ⟨data, data.length / keySz, adds⟩ rnd = some key) → key.partition < parts := by
    intro i hi key hget
    obtain ⟨rnd, hrnd⟩ := exists_drawn (g := ⟨data, data.length / keySz, adds⟩) hi (by simp only; omega)
    exact (request_isSome (hget rnd hrnd)).1.1 (h rnd).get
  constructor
  · simp only [keySz] at hdiv ⊢
    by_cases hne : adds = []
    · subst hne
      simp only [List.length_nil] at hdiv
      omega
    · exact Or.inr hne
  · intro i hi
    have hlookup := hpart i (by omega) (readKey data i)
    apply hlookup
    intro rnd hrnd
    subst hrnd
    exact getKey_file hi
  · intro k hk
    obtain ⟨j, hj, rfl⟩ := List.mem_iff_getElem.1 hk
    apply hpart (data.length / keySz + j) (by omega)
    intro rnd hrnd
    rw [getKey_added (by simp [hrnd]), hrnd]
    simp [hj]

/-- **Draws.** `get_key` and the requests that use its key stay within bounds for every value of `rnd()`
exactly when there is a key at all, and the partition of every key, read from the file or added, is one of
the PARTITIONS. What the file and the keys take is counted by a `size_t`. -/
theorem drawSafe_iff (parts : Nat) (data : Bytes) (adds : List KnownKey) (g : KnownKeys)
    (hg : knownKeyGenerator data = some g) (hfit : data.length + adds.length ≤ 18446744073709551616) :
    (∀ rnd, DrawSafe parts (adds.foldl add g) rnd) ↔ DrawsOk parts data adds := by
  rw [knownKeyGenerator_adds hg adds]
  constructor
  · exact drawsOk_of_safe hfit
  · exact fun h rnd => h.safe rnd

/-- One entry, of partition 1, and a byte too many; a key of partition 0 added. -/
theorem drawSafe_iff_oneEntry :
    (∀ rnd, DrawSafe 2 ([⟨0, 7⟩].foldl add ⟨[1, 0, 0, 0, 0, 9], 1, []⟩) rnd) ∧
    ¬∀ rnd, DrawSafe 1 ([⟨0, 7⟩].foldl add ⟨[1, 0, 0, 0, 0, 9], 1, []⟩) rnd := by
  have hiff (parts : Nat) := drawSafe_iff parts [1, 0, 0, 0, 0, 9] [⟨0, 7⟩] ⟨[1, 0, 0, 0, 0, 9], 1, []⟩ rfl (by decide)
  constructor
  · exact (hiff 2).2 ⟨by decide, by decide, by decide⟩
  · intro h
    exact absurd ((hiff 1).1 h).file (by decide)

/-- A file of three bytes is mapped, and every draw divides by zero; a file with an entry for partition
4 is mapped as well, and with PARTITIONS 4 every draw indexes beyond the partitions. -/
theorem get_key_outside :
    (∃ g, knownKeyGenerator [0, 1, 2] = some g ∧ ∀ rnd, ¬(DrawSafe 4 g rnd)) ∧
    ∃ g, knownKeyGenerator [4, 0, 0, 0, 0] = some g ∧ ∀ rnd, ¬(DrawSafe 4 g rnd) := by
  refine ⟨⟨_, rfl, ?_⟩, _, rfl, ?_⟩
  · intro rnd h
    exact h.divisor rfl
  · intro rnd h
    have hzero : drawn ⟨[4, 0, 0, 0, 0], 1, []⟩ rnd = 0 := Nat.mod_one _
    have hget : getKey ⟨[4, 0, 0, 0, 0], 1, []⟩ rnd = some ⟨4, 0⟩ := by
      rw [getKey_file (by rw [hzero]; decide), hzero]
      rfl
    exact absurd ((request_isSome hget).1.1 h.get) (by decide)

/-! ## Matching arguments -/

/-- The keys files of a run of `create` with the same PARTITIONS are safe, once there is a record. -/
theorem drawsOk_keysFiles {args : Args} {s : State} (hI : KeysInv args s) {order : List Nat}
    (hne : written s order ≠ []) : DrawsOk args.partitions (keysFiles s order) [] := by
  have hsz := keysFiles_sz hI order
  constructor
  · left
    rw [written_eq] at hne
    have hpos : 0 < (recsOf s order).length := List.length_pos_of_ne_nil (by simpa using hne)
    rw [← hsz] at hpos
    simp only [keySz] at hpos ⊢
    omega
  · intro i hi
    rw [hsz] at hi
    have hread := readKey_keysFiles hI (List.getElem?_eq_getElem hi)
    have hpartition : ((keysFiles s order).getD (i * keySz) 0).toNat = ((recsOf s order)[i]).partition :=
      congrArg KnownKey.partition hread
    rw [hpartition]
    exact (mem_recsOf hI (List.getElem_mem hi)).1
  · simp

/-- With the largest PARTITIONS no byte is out of range, and only a file without an entry is refused. -/
theorem drawsOk_max (data : Bytes) : DrawsOk 256 data [] ↔ keySz ≤ data.length := by
  constructor
  · intro h
    exact h.some_key.resolve_right (by simp)
  · intro h
    exact ⟨Or.inl h, fun i _ => UInt8.toNat_lt _, by simp⟩

end Acppsrv.Benchmark
