import Acppsrv.Lib.Codec
import Acppsrv.Benchmark.RecordCount
/-!
# The keys files, from `create` to `requests` (benchmark.cpp:402-410, :557-662, :725-751)

`create` writes for each record its partition and its hash to the keys file of the partition.
`requests` maps a concatenation of these files and picks entries from it, to look up records that exist.

| here | there |
| --- | --- |
| `KnownKey`, `KnownKeys`       | `known_key_generator::key`, `known_key_generator` (:557) |
| `knownKeyGenerator`           | its constructor (:622) on the contents of the file; `mmap` refuses an empty one |
| `getKey`                      | `known_key_generator::get_key` (:648), with what `rnd()` returns; `data` is read by index arithmetic |
| `requestGet`, `requestUpdate` | `worker::request_get` (:725), `request_update` (:744): the partition posted to and the hash it binds |
| `insertHash`                  | the hash `handle_create` and `handle_insert` bind (:403) |

`KeysInv` holds all along a run: every partition's keys file is a `keyCodec` file of the records it
inserted, and these belong to it. `known_keys_roundtrip` follows from `Codec.entry_file`.
-/
namespace Acppsrv.Benchmark
open Lib

/-- `key_sz` of `known_key_generator` (:575). -/
def keySz : Nat := 5

structure KnownKey where
  partition : Nat
  hash : UInt64
  deriving DecidableEq, Repr

structure KnownKeys where
  data : Bytes
  sz : Nat
  /-- nothing calls `add` -/
  added : List KnownKey := []
  deriving DecidableEq, Repr

def knownKeyGenerator (data : Bytes) : Option KnownKeys :=
  if data = [] then none else some { data := data, sz := data.length / keySz }

/-- `memcpy` into a `uint32_t`. -/
def loadHash : Bytes → UInt32
  | a :: b :: c :: d :: _ => UInt32.ofNat (a.toNat + 2 ^ 8 * b.toNat + 2 ^ 16 * c.toNat + 2 ^ 24 * d.toNat)
  | _ => 0

/-- Entry `i` of the mapped file (:655-660). -/
def readKey (data : Bytes) (i : Nat) : KnownKey :=
  { partition := (data.getD (i * keySz) 0).toNat
    hash := (loadHash (data.drop (i * keySz + 1))).toUInt64 }

def getKey (g : KnownKeys) (rnd : UInt64) : Option KnownKey :=
  let i := rnd.toNat % (g.sz + g.added.length)
  if g.sz ≤ i then g.added[i - g.sz]? else some (readKey g.data i)

/-- A request on its way: the partition object and the value of parameter `?1`. -/
structure Lookup where
  partition : Nat
  hash : Int64
  deriving DecidableEq, Repr

/-- `parts` is the number of partition objects; `none` when the index is beyond them. -/
def requestGet (parts : Nat) (g : KnownKeys) (rnd : UInt64) : Option Lookup :=
  (getKey g rnd).bind fun key => if key.partition < parts then some ⟨key.partition, key.hash.toInt64⟩ else none

def requestUpdate (parts : Nat) (g : KnownKeys) (rnd : UInt64) : Option Lookup :=
  (getKey g rnd).bind fun key => if key.partition < parts then some ⟨key.partition, key.hash.toInt64⟩ else none

/-- `int64_t(rec.hash)`. -/
def insertHash (rec : Rec) : Int64 := Int64.ofNat rec.hash.toNat

/-! ## The format of an entry -/

theorem loadHash_hashBytes (h : UInt32) (rest : Bytes) : loadHash (hashBytes h ++ rest) = h := by
  have hlt := h.toNat_lt
  apply UInt32.toNat_inj.1
  simp only [hashBytes, loadHash, List.cons_append, UInt32.toNat_toUInt8, UInt32.toNat_shiftRight,
    UInt32.toNat_ofNat', UInt32.reduceToNat, Nat.shiftRight_eq_div_pow, Nat.reduceMod, Nat.reducePow]
  omega

/-- One byte for the partition, four for the hash. -/
def keyCodec : Codec (UInt8 × UInt32) UInt8 where
  width := keySz
  encode e := e.1 :: hashBytes e.2
  decode data := (data.headD 0, loadHash (data.drop 1))
  width_pos := by decide
  length_encode _ := rfl
  decode_encode e rest := by simp [loadHash_hashBytes]

theorem readKey_eq (data : Bytes) (i : Nat) :
    readKey data i = ⟨(keyCodec.entry data i).1.toNat, (keyCodec.entry data i).2.toUInt64⟩ := by
  simp [readKey, Codec.entry, keyCodec, List.head?_drop]

/-- The entry of a record. -/
def entryOf (rec : Rec) : UInt8 × UInt32 := (UInt8.ofNat rec.partition, rec.hash)

theorem keysEntry_eq (rec : Rec) : keysEntry rec = keyCodec.encode (entryOf rec) := rfl

theorem insertHash_toInt (rec : Rec) : (insertHash rec).toInt = rec.hash.toNat := by
  have hlt := rec.hash.toNat_lt
  exact Int64.toInt_ofNat_of_lt (by omega)

/-- The conversions of a lookup, `uint32_t` to `size_t` to `int64_t`, end where that of an insert does. -/
theorem lookupHash_eq (rec : Rec) : rec.hash.toUInt64.toInt64 = insertHash rec := by
  apply Int64.toBitVec_inj.1
  apply BitVec.eq_of_toNat_eq
  simp [insertHash]

/-! ## What a run keeps -/

/-- A partition's keys file is a file of its records. -/
structure PartKeys (p : Nat) (part : Part) : Prop where
  file : part.keysFile = keyCodec.file (part.rows.map entryOf)
  posted : ∀ r ∈ part.queue, r.partition = p
  stored : ∀ r ∈ part.rows, r.partition = p
  /-- Nothing is executed before the first insert but its BEGIN. -/
  begun : part.rows = [] → part.sql = [] ∧ part.pc = .idle

theorem PartKeys.insertRecord {p : Nat} {part : Part} {rec : Rec} {queue : List Rec} (h : PartKeys p part)
    (hq : part.queue = rec :: queue) (sql : List Sql) :
    PartKeys p (insertRecord { part with queue := queue, sql := sql } rec) where
  file := by simp [Benchmark.insertRecord, h.file, keysEntry_eq, Codec.file]
  posted r hr := h.posted r (by rw [hq]; exact List.mem_cons_of_mem _ hr)
  stored r hr := by
    rcases List.mem_append.1 hr with hr | hr
    · exact h.stored r hr
    · obtain rfl : r = rec := by simpa using hr
      exact h.posted r (by rw [hq]; exact List.mem_cons_self)
  begun hrows := by simp [Benchmark.insertRecord] at hrows

/-- A step that inserts nothing, on a partition that has records. -/
theorem PartKeys.keep {p : Nat} {part part' : Part} (h : PartKeys p part) (hne : part.rows ≠ [])
    (hrows : part'.rows = part.rows) (hfile : part'.keysFile = part.keysFile) (hq : part'.queue ⊆ part.queue) :
    PartKeys p part' where
  file := by rw [hfile, hrows]; exact h.file
  posted r hr := h.posted r (hq hr)
  stored r hr := h.stored r (hrows ▸ hr)
  begun he := absurd (hrows ▸ he) hne

/-- A partition in the middle of a handler, or of a transaction, has records. -/
theorem PartKeys.rows_ne {p : Nat} {part : Part} (h : PartKeys p part)
    (hb : part.pc ≠ .idle ∨ (openTx part.sql).isSome = true) : part.rows ≠ [] := by
  intro hrows
  obtain ⟨hsql, hpc⟩ := h.begun hrows
  rcases hb with hb | hb
  · exact hb hpc
  · rw [hsql] at hb; cases hb

structure KeysInv (args : Args) (s : State) : Prop where
  size : s.parts.length = args.partitions
  parts : ∀ p part, s.parts[p]? = some part → PartKeys p part

/-- A run has a record, or is about to. -/
def Begun (s : State) : Prop := 0 < total queued s.parts + total stored s.parts

theorem KeysInv.put {args : Args} {s : State} {p : Nat} {part part' : Part} (hI : KeysInv args s)
    (hp : s.parts[p]? = some part) (h : PartKeys p part') (hne : part'.rows ≠ []) :
    KeysInv args (s.put p part') ∧ Begun (s.put p part') := by
  have hlt := (List.getElem?_eq_some_iff.1 hp).1
  refine ⟨⟨by simpa using hI.size, forall_set (fun j x _ hx => hI.parts j x hx) h⟩, ?_⟩
  have hle : stored part' ≤ total stored (s.put p part').parts := le_total (List.getElem?_set_self hlt)
  have hpos : 0 < stored part' := List.length_pos_of_ne_nil hne
  unfold Begun
  omega

theorem KeysInv.createRecord {args : Args} {s : State} (hI : KeysInv args s) (key : Key) :
    KeysInv args (createRecord args s key) := by
  obtain ⟨part, hp, heq⟩ := createRecord_eq key hI.size
  rw [heq]
  refine ⟨by simpa using hI.size, forall_set (fun j x _ hx => hI.parts j x hx) ?_⟩
  obtain ⟨hfile, hposted, hstored, hbegun⟩ := hI.parts _ part hp
  refine ⟨hfile, ?_, hstored, hbegun⟩
  intro r hr
  rcases List.mem_append.1 hr with hr | hr
  · exact hposted r hr
  · obtain rfl : r = _ := by simpa using hr
    rfl

theorem keysInv_post {args : Args} {s : State} (h : KeysInv args s ∧ Begun s) (key : Key) :
    KeysInv args (createRecord args s key) ∧ Begun (createRecord args s key) := by
  obtain ⟨hI, hB⟩ := h
  refine ⟨hI.createRecord key, ?_⟩
  obtain ⟨hq, hs, -, -⟩ := createRecord_total key hI.size
  unfold Begun at hB ⊢
  omega

theorem keysInv_move {args : Args} {s s' : State} {a : Act} (hI : KeysInv args s) (hm : Move args s a s') :
    KeysInv args s' ∧ Begun s' := by
  cases hm with
  | rejectBegin hp hpc hq hc ho =>
    have hk := hI.parts _ _ hp
    have hne := hk.rows_ne (Or.inr ho)
    exact hI.put hp (hk.keep hne rfl rfl (by rw [hq]; exact List.subset_cons_self ..)) hne
  | begin hp hpc hq hc ho =>
    exact hI.put hp ((hI.parts _ _ hp).insertRecord hq _) (by simp [Benchmark.insertRecord])
  | @insert p part rec queue hp hpc hq hc =>
    exact hI.put hp ((hI.parts _ _ hp).insertRecord hq part.sql) (by simp [Benchmark.insertRecord])
  | count hp hpc =>
    have hk := hI.parts _ _ hp
    have hne := hk.rows_ne (Or.inl (by simp [hpc]))
    exact KeysInv.put (s := { s with records := s.records + 1 }) ⟨hI.size, hI.parts⟩ hp
      (hk.keep hne rfl rfl (List.Subset.refl _)) hne
  | stop hp hpc | rejectCommit hp hpc _ _ =>
    have hk := hI.parts _ _ hp
    have hne := hk.rows_ne (Or.inl (by simp [hpc]))
    exact hI.put hp (hk.keep hne rfl rfl (List.Subset.refl _)) hne
  | commit hp hpc _ _ | next hp hpc _ =>
    have hk := hI.parts _ _ hp
    have hne := hk.rows_ne (Or.inl (by simp [hpc]))
    refine keysInv_post ?_ _
    exact hI.put hp (hk.keep hne rfl rfl (List.Subset.refl _)) hne

theorem keysInv_init (args : Args) (keys : Nat → Key) :
    KeysInv args (init args keys) ∧ Begun (init args keys) := by
  have hempty : KeysInv args { parts := List.replicate args.partitions {} } := by
    refine ⟨by simp, forall_replicate ?_⟩
    intro p
    exact ⟨rfl, by simp, by simp, fun _ => ⟨rfl, rfl⟩⟩
  constructor
  · unfold init
    generalize List.range (min requestQueueMax args.records.toNat) = l
    generalize ({ parts := List.replicate args.partitions {} } : State) = s at hempty
    induction l generalizing s with
    | nil => exact hempty
    | cons r l ih => exact ih _ (hempty.createRecord (keys r))
  · obtain ⟨-, -, hq, -⟩ := init_posts args keys
      (List.range (min requestQueueMax args.records.toNat)) { parts := List.replicate args.partitions {} } (by simp)
    have hmin := args.records_min
    rw [List.length_range, requestQueueMax] at hq
    unfold Begun init
    rw [requestQueueMax, hq]
    omega

theorem keysInv_run {args : Args} {keys : Nat → Key} {as : List Act} {s : State}
    (h : exec (createStep args) (init args keys) as = some s) : KeysInv args s ∧ Begun s :=
  exec_invariant (fun _ => True) (fun s => KeysInv args s ∧ Begun s)
    (fun _ _ _ _ hI hstep => keysInv_move hI.1 (createStep_move hstep)) (by simp) (keysInv_init args keys) h

/-! ## The file that `requests` maps -/

/-- The keys files of the partitions, one after the other. -/
def keysFiles (s : State) (order : List Nat) : Bytes := order.flatMap fun p => (s.parts.getD p {}).keysFile

/-- The pairs written, in the order of the file. -/
def written (s : State) (order : List Nat) : List (Nat × UInt32) :=
  order.flatMap fun p => (s.parts.getD p {}).rows.map fun rec => (rec.partition, rec.hash)

/-- What `requests` finds in the file `create` left. -/
structure KeysOk (args : Args) (s : State) (order : List Nat) (g : KnownKeys) : Prop where
  sz : g.sz = (written s order).length
  /-- Entry `i` is the pair written `i`-th. -/
  entry : ∀ i p h, (written s order)[i]? = some (p, h) → readKey g.data i = ⟨p, h.toUInt64⟩
  /-- Every key chosen is one of the entries. -/
  chosen : ∀ rnd, ∃ i < g.sz, getKey g rnd = some (readKey g.data i)
  /-- A lookup goes to the partition that has a record with this hash, and binds what was inserted. -/
  lookup : ∀ rnd, ∃ p part rec, s.parts[p]? = some part ∧ rec ∈ part.rows ∧
    getKey g rnd = some ⟨p, rec.hash.toUInt64⟩ ∧
    requestGet args.partitions g rnd = some ⟨p, insertHash rec⟩ ∧
    requestUpdate args.partitions g rnd = some ⟨p, insertHash rec⟩ ∧
    (insertHash rec).toInt = rec.hash.toNat

/-- The records behind the file. -/
def recsOf (s : State) (order : List Nat) : List Rec := order.flatMap fun p => (s.parts.getD p {}).rows

theorem KeysInv.getD {args : Args} {s : State} (hI : KeysInv args s) (p : Nat) : PartKeys p (s.parts.getD p {}) := by
  rw [List.getD_eq_getElem?_getD]
  cases hp : s.parts[p]? with
  | none => exact ⟨rfl, by simp, by simp, fun _ => ⟨rfl, rfl⟩⟩
  | some part => exact hI.parts p part hp

theorem written_eq (s : State) (order : List Nat) :
    written s order = (recsOf s order).map fun rec => (rec.partition, rec.hash) := by
  simp [written, recsOf, List.map_flatMap]

theorem keysFiles_eq {args : Args} {s : State} (hI : KeysInv args s) (order : List Nat) :
    keysFiles s order = keyCodec.file ((recsOf s order).map entryOf) := by
  have hfile : (fun p => (s.parts.getD p {}).keysFile) =
      fun p => keyCodec.file ((s.parts.getD p {}).rows.map entryOf) := funext fun p => (hI.getD p).file
  rw [keysFiles, hfile, keyCodec.file_flatMap, recsOf, List.map_flatMap]

theorem mem_recsOf {args : Args} {s : State} (hI : KeysInv args s) {order : List Nat} {rec : Rec}
    (h : rec ∈ recsOf s order) : rec.partition < args.partitions ∧
      ∃ part, s.parts[rec.partition]? = some part ∧ rec ∈ part.rows := by
  obtain ⟨p, -, hrec⟩ := List.mem_flatMap.1 h
  obtain rfl : rec.partition = p := (hI.getD p).stored rec hrec
  rw [List.getD_eq_getElem?_getD] at hrec
  cases hp : s.parts[rec.partition]? with
  | none => rw [hp] at hrec; cases hrec
  | some part =>
    rw [hp] at hrec
    exact ⟨hI.size ▸ (List.getElem?_eq_some_iff.1 hp).1, part, rfl, hrec⟩

/-- An entry of the file, read back. -/
theorem readKey_keysFiles {args : Args} {s : State} (hI : KeysInv args s) {order : List Nat} {i : Nat} {rec : Rec}
    (h : (recsOf s order)[i]? = some rec) :
    readKey (keysFiles s order) i = ⟨rec.partition, rec.hash.toUInt64⟩ := by
  obtain ⟨hlt, -⟩ := mem_recsOf hI (List.mem_of_getElem? h)
  have hmax := args.partitions_max
  have hentry : keyCodec.entry (keysFiles s order) i = entryOf rec := by
    rw [keysFiles_eq hI]
    exact keyCodec.entry_file (by simp [h])
  rw [readKey_eq, hentry]
  simp only [entryOf, UInt8.toNat_ofNat', KnownKey.mk.injEq, and_true]
  exact Nat.mod_eq_of_lt (by omega)

/-- A complete run leaves records, and any order of all partitions goes through them. -/
theorem written_ne_nil {args : Args} {s : State} (hI : KeysInv args s) (hB : Begun s) (hc : Complete s)
    {order : List Nat} (horder : order.Perm (List.range args.partitions)) : written s order ≠ [] := by
  intro hnil
  have hq : total queued s.parts = 0 := total_eq_zero _ fun x hx => by simp [queued, (hc x hx).2]
  have hs : 0 < total stored s.parts := by
    unfold Begun at hB
    omega
  obtain ⟨part, hpart, hpos⟩ := exists_of_total_pos hs
  obtain ⟨p, hp⟩ := List.mem_iff_getElem?.1 hpart
  have hlt := (List.getElem?_eq_some_iff.1 hp).1
  rw [hI.size] at hlt
  have hmem : p ∈ order := horder.mem_iff.2 (List.mem_range.2 hlt)
  rw [written, List.flatMap_eq_nil_iff] at hnil
  have hrows := hnil p hmem
  rw [List.getD_eq_getElem?_getD, hp] at hrows
  simp only [Option.getD_some, List.map_eq_nil_iff] at hrows
  simp [stored, hrows] at hpos

/-- `sz` is the number of records. -/
theorem keysFiles_sz {args : Args} {s : State} (hI : KeysInv args s) (order : List Nat) :
    (keysFiles s order).length / keySz = (recsOf s order).length := by
  have hcount := keyCodec.count_file ((recsOf s order).map entryOf)
  rwa [← keysFiles_eq hI, List.length_map] at hcount

/-- `get_key` never leaves the file. -/
theorem getKey_chosen {data : Bytes} {sz : Nat} (hpos : 0 < sz) (rnd : UInt64) :
    ∃ i < sz, getKey ⟨data, sz, []⟩ rnd = some (readKey data i) := by
  have hlt := Nat.mod_lt rnd.toNat hpos
  refine ⟨rnd.toNat % sz, hlt, ?_⟩
  simp only [getKey, List.length_nil, Nat.add_zero]
  rw [if_neg (by omega)]

theorem keysOk {args : Args} {s : State} (hI : KeysInv args s) {order : List Nat}
    (hpos : 0 < (recsOf s order).length) :
    KeysOk args s order ⟨keysFiles s order, (recsOf s order).length, []⟩ where
  sz := by rw [written_eq, List.length_map]
  entry := by
    intro i p hash hi
    rw [written_eq, List.getElem?_map, Option.map_eq_some_iff] at hi
    obtain ⟨rec, hrec, hpair⟩ := hi
    cases hpair
    exact readKey_keysFiles hI hrec
  chosen := getKey_chosen hpos
  lookup := by
    intro rnd
    obtain ⟨i, hi, hget⟩ := @getKey_chosen (keysFiles s order) _ hpos rnd
    rw [readKey_keysFiles hI (List.getElem?_eq_getElem hi)] at hget
    obtain ⟨hlt, part, hp, hmem⟩ := mem_recsOf hI (List.getElem_mem hi)
    refine ⟨_, part, _, hp, hmem, hget, ?_, ?_, insertHash_toInt _⟩
    · simp [requestGet, hget, hlt, lookupHash_eq]
    · simp [requestUpdate, hget, hlt, lookupHash_eq]

/-- **Known keys.** Whatever a run of `create` wrote, and in whatever order its keys files are
concatenated, `requests` reads back exactly the entries written, and looks each up in the partition
that has its record, with the value that was inserted. A complete run wrote something. -/
theorem known_keys_roundtrip (args : Args) (keys : Nat → Key) (as : List Act) (s : State)
    (h : exec (createStep args) (init args keys) as = some s) (order : List Nat)
    (horder : order.Perm (List.range args.partitions)) :
    (Complete s → written s order ≠ []) ∧
    (written s order ≠ [] → ∃ g, knownKeyGenerator (keysFiles s order) = some g ∧ KeysOk args s order g) := by
  obtain ⟨hI, hB⟩ := keysInv_run h
  refine ⟨fun hc => written_ne_nil hI hB hc horder, ?_⟩
  intro hne
  have hpos : 0 < (recsOf s order).length := by
    rw [written_eq] at hne
    exact List.length_pos_of_ne_nil (by simpa using hne)
  have hsz := keysFiles_sz hI order
  have hdata : keysFiles s order ≠ [] := by
    intro hnil
    rw [hnil, List.length_nil, Nat.zero_div] at hsz
    omega
  refine ⟨_, ?_, keysOk hI hpos⟩
  rw [knownKeyGenerator, if_neg hdata, hsz]

/-- Two records in two partitions and one more, the files concatenated backwards. -/
theorem known_keys_roundtrip_threeInserts : ∃ s g,
    exec (createStep twoRecords) (init twoRecords fun r => keyOf (UInt8.ofNat r)) threeInserts = some s ∧
    knownKeyGenerator (keysFiles s [1, 0]) = some g ∧ g.sz = 3 ∧ KeysOk twoRecords s [1, 0] g := by
  have hrun : ((exec (createStep twoRecords) (init twoRecords fun r => keyOf (UInt8.ofNat r)) threeInserts).map
      fun s => (decide (Complete s), (written s [1, 0]).length)) = some (true, 3) := by decide
  obtain ⟨s, hs, hp⟩ := Option.map_eq_some_iff.1 hrun
  simp only [Prod.mk.injEq, decide_eq_true_eq] at hp
  obtain ⟨hc, hlen⟩ := hp
  obtain ⟨hwrote, hread⟩ := known_keys_roundtrip twoRecords _ _ s hs [1, 0] (List.Perm.swap 0 1 [])
  obtain ⟨g, hg, hok⟩ := hread (hwrote hc)
  exact ⟨s, g, hs, hg, hok.sz.trans hlen, hok⟩

end Acppsrv.Benchmark
