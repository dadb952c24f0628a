import Mathlib.Data.List.Nodup
import Acppsrv.Config.Configuration
import Acppsrv.Lib.IoContext
import Acppsrv.Lib.Run
/-!
# The life of the server (application.cpp:12-98, worker.cpp:24-86)

| here | there |
| --- | --- |
| `program`      | the statements of `application::run` that other threads can see, in their order |
| `threadPoolRun`, `threadPoolWait` | `thread_pool::run` and `thread_pool::wait` |
| `fail`         | `db_srv.run()` or `http_srv.run()` returns false or throws |
| `signalOps`    | what the handler of `termsig` does (:59-62) |
| `Process.pools`    | the pools with their `io_context` |
| `ProcessAct.post`  | a handler posts to a pool or begins an operation on its context |

The main thread, the pool threads and the signal handler interleave. A handler ends, or an exception leaves it;
what it does in between is its own. Log messages, `std::thread` and the memory for them do not fail.
-/
namespace Acppsrv.App
open Lib

inductive PoolId where
  | control
  | main (i : Nat)
  | database
  deriving DecidableEq, Repr

/-- The pools that `application::run` makes. -/
structure PoolSizes where
  mainPools : Nat
  numThreads : PoolId → Nat
  mainPools_pos : 0 < mainPools
  numThreads_pos : ∀ p, 0 < numThreads p

def PoolId.name : PoolId → Config.PoolName
  | .control => .control
  | .main _ => .main
  | .database => .database

/-- Those of a configuration. -/
def poolSizes (hw : UInt32) (cfg : Config.Configuration) : PoolSizes where
  mainPools := (Config.mainPools cfg).toInt.toNat
  numThreads p := (Config.numThreads hw (cfg.pool p.name)).toInt.toNat
  mainPools_pos := by
    have h1 : (1 : Int32).toInt = 1 := rfl
    unfold Config.mainPools
    split
    · rw [Config.toInt_max, h1]
      omega
    · rw [h1]
      omega
  numThreads_pos p := by
    have := Config.numThreads_pos hw (cfg.pool p.name)
    omega

inductive MainOp where
  /-- `db_srv` with its `run()` -/
  | initDatabase
  /-- `termsig.async_wait` -/
  | asyncWait
  /-- `http_srv` with its `run()`, which spawns the accept loop -/
  | initHttp
  /-- `work.reset()` -/
  | release (p : PoolId)
  | start (p : PoolId) (t : Nat)
  | join (p : PoolId) (t : Nat)
  /-- the end of the block of `http_srv` -/
  | closeHttp
  /-- `main_pools.back().reset()` -/
  | resetBack
  /-- `return true`: `termsig`, `db_srv` and the other pools go -/
  | closeAll
  deriving DecidableEq, Repr

inductive SigOp where
  | stop (p : PoolId)
  | interrupt
  deriving DecidableEq, Repr

section
variable (z : PoolSizes)

def PoolSizes.mains : List PoolId := (List.range z.mainPools).map .main

/-- `thread_pool::run` (worker.cpp:30). -/
def threadPoolRun (p : PoolId) (persistent : Bool) : List MainOp :=
  (if persistent then [] else [.release p]) ++ (List.range (z.numThreads p)).map (.start p)

/-- `thread_pool::wait` of a pool that was started (worker.cpp:76). -/
def threadPoolWait (p : PoolId) : List MainOp := (List.range (z.numThreads p)).map (.join p)

def setUp : List MainOp := [.initDatabase, .asyncWait, .initHttp]

def startPools : List MainOp :=
  threadPoolRun z .control false ++ (z.mains.flatMap (threadPoolRun z · true) ++ threadPoolRun z .database true)

def waitPools : List MainOp :=
  threadPoolWait z .control ++ (z.mains.flatMap (threadPoolWait z) ++ threadPoolWait z .database)

def tearDown : List MainOp := [.closeHttp, .resetBack, .closeAll]

/-- `application::run`, as far as it succeeds. -/
def program : List MainOp := setUp ++ (startPools z ++ (waitPools z ++ tearDown))

/-- The handler of `termsig`. -/
def signalOps : List SigOp := (z.mains ++ [PoolId.database]).map SigOp.stop ++ [.interrupt]

end

inductive Sig where
  | unarmed
  | armed
  /-- the handler runs, with this left to do -/
  | running (ops : List SigOp)
  | done
  deriving DecidableEq, Repr

/-- How `application::run` ended. -/
inductive Ended where
  | returned (ok : Bool)
  | threw
  deriving DecidableEq, Repr

structure Process where
  /-- what the main thread has done -/
  past : List MainOp := []
  /-- and what it has left to do -/
  rest : List MainOp
  pools : PoolId → IoContext
  sig : Sig := .unarmed
  interrupted : Bool := false
  dbServer : Bool := false
  httpServer : Bool := false
  ended : Option Ended := none

inductive ProcessAct where
  | main
  | fail (threw : Bool)
  | thread (p : PoolId) (t : Nat) (a : ThreadAct)
  | post (p : PoolId) (t : Nat) (q : PoolId)
  | signal
  deriving DecidableEq, Repr

def Process.setPool (s : Process) (p : PoolId) (c : IoContext) : Process := { s with pools := Function.update s.pools p c }

section
variable (s : Process) (p : PoolId) (c : IoContext)

@[simp] theorem setPool_past : (s.setPool p c).past = s.past := rfl
@[simp] theorem setPool_rest : (s.setPool p c).rest = s.rest := rfl
@[simp] theorem setPool_sig : (s.setPool p c).sig = s.sig := rfl
@[simp] theorem setPool_ended : (s.setPool p c).ended = s.ended := rfl
@[simp] theorem setPool_self : (s.setPool p c).pools p = c := Function.update_self ..

end

/-- `main_pools.back()`. -/
def PoolSizes.back (z : PoolSizes) : PoolId := .main (z.mainPools - 1)

/-- The main thread does `op`. -/
def mainStep (z : PoolSizes) (s : Process) : MainOp → Option Process
  | .initDatabase => some { s with dbServer := true }
  | .asyncWait => some { s.setPool .control (s.pools .control).post with sig := .armed }
  | .initHttp => some { s.setPool z.back (s.pools z.back).post with httpServer := true }
  | .release p => some (s.setPool p (s.pools p).release)
  | .start p t => ((s.pools p).start t).map (s.setPool p)
  | .join p t => if (s.pools p).threads[t]? = some .exited then some s else none
  | .closeHttp => some { s with httpServer := false }
  | .resetBack => some s
  | .closeAll => some { s with dbServer := false, ended := some (.returned true) }

/-- A step of a thread of pool `p`. The control pool has the one handler of `termsig`. -/
def poolStep (z : PoolSizes) (s : Process) (p : PoolId) (t : Nat) (a : ThreadAct) : Option Process :=
  match p, a with
  | .control, .invoke =>
    if s.sig = .armed then
      ((s.pools p).threadStep t a).map fun c => { s.setPool p c with sig := .running (signalOps z) }
    else none
  | .control, .finish =>
    if s.sig = .running [] then ((s.pools p).threadStep t a).map fun c => { s.setPool p c with sig := .done }
    else none
  | .control, .throw => none
  | _, _ => ((s.pools p).threadStep t a).map (s.setPool p)

def processStep (z : PoolSizes) (s : Process) : ProcessAct → Option Process
  | .main =>
    match s.rest with
    | [] => none
    | op :: rest => mainStep z { s with past := s.past ++ [op], rest := rest } op
  | .fail threw =>
    if s.rest.head? = some .initDatabase ∨ s.rest.head? = some .initHttp then
      some { s with rest := [], dbServer := false, ended := some (if threw then .threw else .returned false) }
    else none
  | .thread p t a => poolStep z s p t a
  | .post p t q =>
    if p ≠ .control ∧ q ≠ .control ∧ (s.pools p).threads[t]? = some .handling then
      some (s.setPool q (s.pools q).post)
    else none
  | .signal =>
    match s.sig with
    | .running (.stop p :: ops) => some { s.setPool p (s.pools p).stop with sig := .running ops }
    | .running (.interrupt :: ops) => some { s with sig := .running ops, interrupted := true }
    | _ => none

def Process.init (z : PoolSizes) : Process where
  rest := program z
  pools p := { threads := List.replicate (z.numThreads p) .unborn }

/-! ## The order of the program -/

section
variable {z : PoolSizes}

/-- What is due is preceded by what the program has before it. -/
theorem mem_past {α : Type*} {a b past rest : List α} {x y : α} (h : past ++ y :: rest = a ++ b) (hx : x ∈ a)
    (hy : y ∉ a) : x ∈ past := by
  rcases List.append_eq_append_iff.1 h with ⟨c, rfl, hc⟩ | ⟨c, rfl, -⟩
  · cases c with
    | nil => simpa using hx
    | cons d c =>
      obtain ⟨rfl, -⟩ := List.cons.inj hc
      exact absurd (by simp) hy
  · exact List.mem_append_left _ hx

theorem mem_mains {p : PoolId} : p ∈ z.mains ↔ ∃ i < z.mainPools, p = .main i := by
  simp only [PoolSizes.mains, List.mem_map, List.mem_range]
  constructor
  · rintro ⟨i, hi, rfl⟩; exact ⟨i, hi, rfl⟩
  · rintro ⟨i, hi, rfl⟩; exact ⟨i, hi, rfl⟩

/-- The pools there are. -/
def PoolSizes.has (z : PoolSizes) (p : PoolId) : Prop := p = .control ∨ p ∈ z.mains ∨ p = .database

theorem start_mem {p : PoolId} {t : Nat} : .start p t ∈ startPools z ↔ z.has p ∧ t < z.numThreads p := by
  simp only [startPools, threadPoolRun, List.mem_append, List.mem_flatMap, List.mem_map, List.mem_range,
    PoolSizes.has]
  constructor
  · rintro ((h | ⟨u, hu, heq⟩) | (⟨q, hq, h | ⟨u, hu, heq⟩⟩ | (h | ⟨u, hu, heq⟩)))
    · simp at h
    · cases heq; exact ⟨Or.inl rfl, hu⟩
    · simp at h
    · cases heq; exact ⟨Or.inr (Or.inl hq), hu⟩
    · simp at h
    · cases heq; exact ⟨Or.inr (Or.inr rfl), hu⟩
  · rintro ⟨rfl | hp | rfl, ht⟩
    · exact Or.inl (Or.inr ⟨t, ht, rfl⟩)
    · exact Or.inr (Or.inl ⟨p, hp, Or.inr ⟨t, ht, rfl⟩⟩)
    · exact Or.inr (Or.inr (Or.inr ⟨t, ht, rfl⟩))

theorem join_mem {p : PoolId} {t : Nat} : .join p t ∈ waitPools z ↔ z.has p ∧ t < z.numThreads p := by
  simp only [waitPools, threadPoolWait, List.mem_append, List.mem_flatMap, List.mem_map, List.mem_range,
    PoolSizes.has]
  constructor
  · rintro (⟨u, hu, heq⟩ | (⟨q, hq, u, hu, heq⟩ | ⟨u, hu, heq⟩))
    · cases heq; exact ⟨Or.inl rfl, hu⟩
    · cases heq; exact ⟨Or.inr (Or.inl hq), hu⟩
    · cases heq; exact ⟨Or.inr (Or.inr rfl), hu⟩
  · rintro ⟨rfl | hp | rfl, ht⟩
    · exact Or.inl ⟨t, ht, rfl⟩
    · exact Or.inr (Or.inl ⟨p, hp, t, ht, rfl⟩)
    · exact Or.inr (Or.inr ⟨t, ht, rfl⟩)

theorem release_mem {p : PoolId} (h : .release p ∈ program z) : p = .control := by
  simp [program, setUp, startPools, waitPools, tearDown, threadPoolRun, threadPoolWait] at h
  exact h

theorem mem_startPools {op : MainOp} (h : op ∈ startPools z) : (∃ p t, op = .start p t) ∨ op = .release .control := by
  simp only [startPools, threadPoolRun, List.mem_append, List.mem_flatMap, List.mem_map] at h
  rcases h with ((h | ⟨u, -, rfl⟩) | (⟨q, -, h | ⟨u, -, rfl⟩⟩ | (h | ⟨u, -, rfl⟩)))
  · exact Or.inr (by simpa using h)
  · exact Or.inl ⟨_, _, rfl⟩
  · simp at h
  · exact Or.inl ⟨_, _, rfl⟩
  · simp at h
  · exact Or.inl ⟨_, _, rfl⟩

theorem mem_waitPools {op : MainOp} (h : op ∈ waitPools z) : ∃ p t, op = .join p t := by
  simp only [waitPools, threadPoolWait, List.mem_append, List.mem_flatMap, List.mem_map] at h
  rcases h with ⟨u, -, rfl⟩ | ⟨q, -, u, -, rfl⟩ | ⟨u, -, rfl⟩
  · exact ⟨_, _, rfl⟩
  · exact ⟨_, _, rfl⟩
  · exact ⟨_, _, rfl⟩

/-- The parts of a program for the control pool, the main pools and the database pool. -/
theorem nodup_pools {f g h : PoolId → List MainOp} (hf : (f .control).Nodup) (hg : ∀ p, (g p).Nodup)
    (hh : (h .database).Nodup) (hfg : ∀ p q, p ≠ q → (f p).Disjoint (g q)) (hfh : (f .control).Disjoint (h .database))
    (hgh : ∀ p q, p ≠ q → (g p).Disjoint (h q)) (hgg : ∀ p q, p ≠ q → (g p).Disjoint (g q)) :
    (f .control ++ (z.mains.flatMap g ++ h .database)).Nodup := by
  have hmains : z.mains.Nodup := List.nodup_range.map fun a b heq => PoolId.main.inj heq
  have hne {p q : PoolId} (hp : p ∈ z.mains) (hq : q = .control ∨ q = .database) : p ≠ q := by
    obtain ⟨i, -, rfl⟩ := mem_mains.1 hp
    rcases hq with rfl | rfl
    · simp
    · simp
  refine List.nodup_append'.2 ⟨hf, List.nodup_append'.2 ⟨?_, hh, ?_⟩, ?_⟩
  · exact List.nodup_flatMap.2 ⟨fun p _ => hg p, hmains.imp fun {p q} hpq => hgg p q hpq⟩
  · intro x hx hx'
    obtain ⟨p, hp, hx⟩ := List.mem_flatMap.1 hx
    exact hgh p _ (hne hp (Or.inr rfl)) hx hx'
  · intro x hx hx'
    rcases List.mem_append.1 hx' with hx' | hx'
    · obtain ⟨p, hp, hx'⟩ := List.mem_flatMap.1 hx'
      exact hfg _ p (hne hp (Or.inl rfl)).symm hx hx'
    · exact hfh hx hx'

theorem nodup_starts (p : PoolId) (persistent : Bool) : (threadPoolRun z p persistent).Nodup := by
  have hmap : ((List.range (z.numThreads p)).map (MainOp.start p)).Nodup :=
    List.nodup_range.map fun a b heq => (MainOp.start.inj heq).2
  cases persistent with
  | true => simpa [threadPoolRun] using hmap
  | false => simpa [threadPoolRun] using hmap

theorem disjoint_starts {p q : PoolId} (h : p ≠ q) (persistent : Bool) :
    (threadPoolRun z p persistent).Disjoint (threadPoolRun z q true) := by
  intro x hx hx'
  simp only [threadPoolRun, if_true, List.nil_append, List.mem_map] at hx'
  obtain ⟨u, -, rfl⟩ := hx'
  cases persistent with
  | true => simp [threadPoolRun] at hx; exact h hx.2
  | false => simp [threadPoolRun] at hx; exact h hx.2

theorem disjoint_joins {p q : PoolId} (h : p ≠ q) : (threadPoolWait z p).Disjoint (threadPoolWait z q) := by
  intro x hx hx'
  obtain ⟨u, -, rfl⟩ := List.mem_map.1 hx
  obtain ⟨v, -, heq⟩ := List.mem_map.1 hx'
  exact h (MainOp.join.inj heq).1.symm

/-- Nothing is done twice. -/
theorem program_nodup (z : PoolSizes) : (program z).Nodup := by
  have hjoin (p : PoolId) : (threadPoolWait z p).Nodup := List.nodup_range.map fun a b heq => (MainOp.join.inj heq).2
  have hstarts : (startPools z).Nodup := by
    refine nodup_pools (f := (threadPoolRun z · false)) (g := (threadPoolRun z · true)) (h := (threadPoolRun z · true))
      (nodup_starts _ _) (fun p => nodup_starts p _) (nodup_starts _ _) (fun p q h => disjoint_starts h _)
      (disjoint_starts (by simp) _) (fun p q h => disjoint_starts h _) (fun p q h => disjoint_starts h _)
  have hjoins : (waitPools z).Nodup :=
    nodup_pools (hjoin _) hjoin (hjoin _) (fun p q h => disjoint_joins h) (disjoint_joins (by simp))
      (fun p q h => disjoint_joins h) (fun p q h => disjoint_joins h)
  refine List.nodup_append'.2 ⟨by decide, List.nodup_append'.2 ⟨hstarts, List.nodup_append'.2 ⟨hjoins, by decide, ?_⟩,
    ?_⟩, ?_⟩
  · intro x hx hx'
    obtain ⟨p, t, rfl⟩ := mem_waitPools hx
    simp [tearDown] at hx'
  · intro x hx hx'
    rcases mem_startPools hx with ⟨p, t, rfl⟩ | rfl
    · rcases List.mem_append.1 hx' with hx' | hx'
      · obtain ⟨q, u, heq⟩ := mem_waitPools hx'
        cases heq
      · simp [tearDown] at hx'
    · rcases List.mem_append.1 hx' with hx' | hx'
      · obtain ⟨q, u, heq⟩ := mem_waitPools hx'
        cases heq
      · simp [tearDown] at hx'
  · intro x hx hx'
    rcases List.mem_append.1 hx' with hx' | hx'
    · rcases mem_startPools hx' with ⟨p, t, rfl⟩ | rfl
      · simp [setUp] at hx
      · simp [setUp] at hx
    · rcases List.mem_append.1 hx' with hx' | hx'
      · obtain ⟨q, u, rfl⟩ := mem_waitPools hx'
        simp [setUp] at hx
      · simp only [setUp, tearDown, List.mem_cons, List.not_mem_nil, or_false] at hx hx'
        rcases hx with rfl | rfl | rfl
        · simp at hx'
        · simp at hx'
        · simp at hx'

end

end Acppsrv.App
