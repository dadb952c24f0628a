import Acppsrv.Http.Limits
/-!
# Validation of the configuration (configuration.cpp:61-141)

| here | there |
| --- | --- |
| `Configuration`      | the message of configuration.proto:85, with the fields read here |
| `Single`             | a `float`, by its IEEE 754 bits; `ltZero` is `t < 0` |
| `LogLevel`           | `log_level` (log.hpp:15); the cast from `int` takes any value |
| `httpPort`, `mainPools`, `numThreads` | the accessors (:61-93); `hw` is `std::thread::hardware_concurrency()` |
| `validate`           | `configuration::validate` (:95): its result, `_log_level` and the texts it logs |
| `getLogLevel`        | `get_log_level` once `validate` has run |

`Setting` lists what has a legal range. `validate` looks at `Setting.validated` ones only: the lambda
`test` is applied to `main` and `control` and not to `database`, and no `retry_wait` is read
(`db_server::run` takes a negative one for 0). The accessors clamp, so the values in use agree with the
configured ones whenever a configuration is accepted (`effective_of_accepted`).
-/
namespace Acppsrv.Config

structure Single where
  bits : UInt32
  deriving DecidableEq, Repr

/-- The sign is set, and it is neither a zero nor a NaN. -/
def Single.ltZero (t : Single) : Bool := decide (0x80000000 < t.bits ∧ t.bits ≤ 0xFF800000)

structure LogLevel where
  code : Int32
  deriving DecidableEq, Repr

/-- From `off` to `debug` (log.hpp:27). -/
def LogLevel.valid (l : LogLevel) : Bool := decide (-1 ≤ l.code ∧ l.code ≤ 7)

structure Log where
  /-- an open enumeration: any `int` can be set -/
  level : Int32 := 0
  deriving DecidableEq, Repr

structure ThreadPool where
  threads : Int32 := 0
  deriving DecidableEq, Repr

structure ThreadPools where
  main : Option ThreadPool := none
  control : Option ThreadPool := none
  database : Option ThreadPool := none
  mainPools : Int32 := 0
  acceptPool : Bool := false
  deriving DecidableEq, Repr

structure HttpServer extends Http.HttpServer where
  port : UInt32 := 0
  idleTimeout : Single := ⟨0⟩
  keepaliveTimeout : Single := ⟨0⟩
  deriving DecidableEq, Repr

structure SQLite3Db where
  retryWait : Single := ⟨0⟩
  deriving DecidableEq, Repr

structure Configuration where
  log : Option Log := none
  threadPools : Option ThreadPools := none
  httpServer : Option HttpServer := none
  /-- the map of message `SQLite3` -/
  databases : List (String × SQLite3Db) := []
  deriving DecidableEq, Repr

/-! ## The accessors -/

def httpPortDefault : UInt16 := 80

def httpPort (cfg : Configuration) : UInt16 :=
  match cfg.httpServer with
  | some http => if 1 ≤ http.port ∧ http.port ≤ 65535 then http.port.toUInt16 else httpPortDefault
  | none => httpPortDefault

def mainPools (cfg : Configuration) : Int32 :=
  match cfg.threadPools with
  | some tp => max 1 tp.mainPools
  | none => 1

def numThreads (hw : UInt32) (cfg : Option ThreadPool) : Int32 :=
  let n := match cfg with
    | some p => p.threads
    | none => 0
  let n := if n = 0 then hw.toInt32 else n
  max n 1

/-! ## `validate` -/

structure Validation where
  result : Bool := true
  logLevel : Option LogLevel := none
  errors : List String := []
  deriving DecidableEq, Repr

/-- `log_err` and `result = false`. -/
def Validation.fail (v : Validation) (text : String) : Validation :=
  { v with result := false, errors := v.errors ++ [text] }

/-- The `if` of one check. -/
def Validation.check (v : Validation) (bad : Bool) (text : String) : Validation := if bad then v.fail text else v

def validateLog (v : Validation) : Option Log → Validation
  | some log =>
    if log.level ≠ 0 then
      let ll : LogLevel := ⟨log.level - 2⟩
      if ll.valid = true then { v with logLevel := some ll }
      else v.fail ("Invalid log level " ++ toString log.level.toInt)
    else v
  | none => v

/-- `!test(p, name)` of a pool that is there (:107-116). -/
def negativeThreads : Option ThreadPool → Bool
  | some p => decide (p.threads < 0)
  | none => false

def validateThreadPools (v : Validation) : Option ThreadPools → Validation
  | some tp =>
    -- the second pool is not tested when the first one fails
    if negativeThreads tp.main = true then v.fail "Negative number of threads in pool main"
    else if negativeThreads tp.control = true then v.fail "Negative number of threads in pool control"
    else v
  | none => v

def validateHttpServer (v : Validation) : Option HttpServer → Validation
  | some http =>
    let v := v.check (decide (65535 < http.port)) ("Invalid HTTP server port number " ++ toString http.port.toNat)
    let v := v.check http.idleTimeout.ltZero "Negative HTTP server idle timeout"
    -- the text of :135 names the idle timeout again
    v.check http.keepaliveTimeout.ltZero "Negative HTTP server idle timeout"
  | none => v

def validate (cfg : Configuration) : Validation :=
  let v := validateLog {} cfg.log
  let v := validateThreadPools v cfg.threadPools
  validateHttpServer v cfg.httpServer

def getLogLevel (cfg : Configuration) : Option LogLevel := (validate cfg).logLevel

/-! ## The legal ranges -/

inductive PoolName where
  | main
  | control
  | database
  deriving DecidableEq, Repr

/-- The pools as `application::run` looks them up (application.cpp:15-26). -/
def Configuration.pool (cfg : Configuration) (p : PoolName) : Option ThreadPool :=
  cfg.threadPools.bind fun tp =>
    match p with
    | .main => tp.main
    | .control => tp.control
    | .database => tp.database

inductive Setting where
  | logLevel
  | threads (p : PoolName)
  | port
  | idleTimeout
  | keepaliveTimeout
  | retryWait (db : String)
  deriving DecidableEq, Repr

/-- The setting is absent, or in its range. The levels of configuration.proto are 1 to 9. -/
def Setting.Legal (cfg : Configuration) : Setting → Prop
  | .logLevel => ∀ log, cfg.log = some log → log.level.toInt = 0 ∨ 1 ≤ log.level.toInt ∧ log.level.toInt ≤ 9
  | .threads p => ∀ pool, cfg.pool p = some pool → 0 ≤ pool.threads.toInt
  | .port => ∀ http, cfg.httpServer = some http → http.port.toNat ≤ 65535
  | .idleTimeout => ∀ http, cfg.httpServer = some http → http.idleTimeout.ltZero = false
  | .keepaliveTimeout => ∀ http, cfg.httpServer = some http → http.keepaliveTimeout.ltZero = false
  | .retryWait name => ∀ db, (name, db) ∈ cfg.databases → db.retryWait.ltZero = false

/-- The settings `validate` looks at. -/
def Setting.validated : Setting → Bool
  | .threads .database | .retryWait _ => false
  | _ => true

/-- The values in use and the configured ones. -/
structure Effective (hw : UInt32) (cfg : Configuration) : Prop where
  threads : ∀ p pool, cfg.pool p = some pool → 0 < pool.threads.toInt →
    numThreads hw (cfg.pool p) = pool.threads
  /-- Also for a pool that is not there, and for a count of 0 or less. -/
  threads_pos : ∀ p, 1 ≤ (numThreads hw (cfg.pool p)).toInt
  port : ∀ http, cfg.httpServer = some http → http.port.toNat ≠ 0 → (httpPort cfg).toNat = http.port.toNat
  logLevel : ∀ log, cfg.log = some log → log.level.toInt ≠ 0 →
    ∃ l, getLogLevel cfg = some l ∧ l.code.toInt = log.level.toInt - 2
  unspec : (∀ log, cfg.log = some log → log.level.toInt = 0) → getLogLevel cfg = none

/-! ## What `validate` checks -/

@[simp] theorem fail_result (v : Validation) (text : String) : (v.fail text).result = false := rfl

@[simp] theorem check_result (v : Validation) (bad : Bool) (text : String) :
    (v.check bad text).result = true ↔ v.result = true ∧ bad = false := by
  cases bad with
  | false => simp [Validation.check]
  | true => simp [Validation.check]

@[simp] theorem check_logLevel (v : Validation) (bad : Bool) (text : String) :
    (v.check bad text).logLevel = v.logLevel := by
  cases bad with
  | false => rfl
  | true => rfl

/-- `valid(log_level(l - 2))`; near the smallest `int` the difference wraps to a large one. -/
theorem valid_shift (l : Int32) : (LogLevel.mk (l - 2)).valid = true ↔ 1 ≤ l.toInt ∧ l.toInt ≤ 9 := by
  have hlo := l.le_toInt
  have hhi := l.toInt_lt
  have hm1 : (-1 : Int32).toInt = -1 := rfl
  have h7 : (7 : Int32).toInt = 7 := rfl
  have h2 : (2 : Int32).toInt = 2 := rfl
  simp only [LogLevel.valid, Int32.le_iff_toInt_le, Int32.toInt_sub, hm1, h7, h2, decide_eq_true_eq]
  simp only [Int.bmod] at *
  omega

theorem shift_toInt {l : Int32} (h : 1 ≤ l.toInt ∧ l.toInt ≤ 9) : (l - 2).toInt = l.toInt - 2 := by
  have h2 : (2 : Int32).toInt = 2 := rfl
  rw [Int32.toInt_sub, h2, Int.bmod_eq_of_le (by omega) (by omega)]

theorem level_ne_zero (l : Int32) : l ≠ 0 ↔ l.toInt ≠ 0 := not_congr Int32.toInt_inj.symm

theorem negativeThreads_iff (p : ThreadPool) : negativeThreads (some p) = true ↔ ¬0 ≤ p.threads.toInt := by
  have h0 : (0 : Int32).toInt = 0 := rfl
  simp [negativeThreads, Int32.lt_iff_toInt_lt, h0]

section
variable (cfg : Configuration) (v : Validation)

theorem validateLog_result :
    (validateLog v cfg.log).result = true ↔ v.result = true ∧ Setting.logLevel.Legal cfg := by
  simp only [Setting.Legal]
  cases cfg.log with
  | none => simp [validateLog]
  | some log =>
    unfold validateLog
    by_cases h0 : log.level = 0
    · simp [h0]
    · have hne := (level_ne_zero _).1 h0
      by_cases hv : (LogLevel.mk (log.level - 2)).valid = true
      · have hrange := (valid_shift _).1 hv
        simp [h0, hv, hrange]
      · have hrange := mt (valid_shift _).2 hv
        simp [h0, hv, hne]
        omega

theorem pool_legal (p : PoolName) :
    (Setting.threads p).Legal cfg ↔ negativeThreads (cfg.pool p) = false := by
  simp only [Setting.Legal]
  cases h : cfg.pool p with
  | none => simp [negativeThreads]
  | some pool =>
    rw [← Bool.not_eq_true, negativeThreads_iff]
    simp

theorem validateThreadPools_result :
    (validateThreadPools v cfg.threadPools).result = true ↔
      v.result = true ∧ (Setting.threads .main).Legal cfg ∧ (Setting.threads .control).Legal cfg := by
  simp only [pool_legal, Configuration.pool]
  cases cfg.threadPools with
  | none => simp [validateThreadPools, negativeThreads]
  | some tp =>
    unfold validateThreadPools
    by_cases hm : negativeThreads tp.main = true
    · simp [hm]
    · by_cases hc : negativeThreads tp.control = true
      · simp [hm, hc]
      · simp [hm, hc]

theorem validateHttpServer_result :
    (validateHttpServer v cfg.httpServer).result = true ↔
      v.result = true ∧ Setting.port.Legal cfg ∧ Setting.idleTimeout.Legal cfg ∧
        Setting.keepaliveTimeout.Legal cfg := by
  simp only [Setting.Legal]
  cases cfg.httpServer with
  | none => simp [validateHttpServer]
  | some http =>
    simp [validateHttpServer, UInt32.lt_iff_toNat_lt, and_assoc]

theorem validateThreadPools_logLevel : (validateThreadPools v cfg.threadPools).logLevel = v.logLevel := by
  unfold validateThreadPools
  cases cfg.threadPools with
  | none => rfl
  | some tp =>
    simp only
    split
    · rfl
    · split
      · rfl
      · rfl

theorem validateHttpServer_logLevel : (validateHttpServer v cfg.httpServer).logLevel = v.logLevel := by
  unfold validateHttpServer
  cases cfg.httpServer with
  | none => rfl
  | some http => simp

end

/-- `validate` accepts what is legal among the settings it looks at. -/
theorem validate_result (cfg : Configuration) :
    (validate cfg).result = true ↔ ∀ s : Setting, s.validated = true → s.Legal cfg := by
  simp only [validate, validateHttpServer_result, validateThreadPools_result, validateLog_result, true_and]
  constructor
  · rintro ⟨⟨hlog, hmain, hcontrol⟩, hport, hidle, hkeepalive⟩ s hs
    cases s with
    | logLevel => exact hlog
    | threads p =>
      cases p with
      | main => exact hmain
      | control => exact hcontrol
      | database => cases hs
    | port => exact hport
    | idleTimeout => exact hidle
    | keepaliveTimeout => exact hkeepalive
    | retryWait db => cases hs
  · intro h
    exact ⟨⟨h _ rfl, h _ rfl, h _ rfl⟩, h _ rfl, h _ rfl, h _ rfl⟩

theorem getLogLevel_eq (cfg : Configuration) : getLogLevel cfg = (validateLog {} cfg.log).logLevel := by
  rw [getLogLevel, validate, validateHttpServer_logLevel, validateThreadPools_logLevel]

/-! ## The texts -/

/-- The result is what the log tells. -/
def Validation.Told (v : Validation) : Prop := v.result = true ↔ v.errors = []

theorem told_fail (v : Validation) (text : String) : (v.fail text).Told := by
  simp [Validation.Told, Validation.fail]

theorem Validation.Told.check {v : Validation} (h : v.Told) (bad : Bool) (text : String) :
    (v.check bad text).Told := by
  cases bad with
  | false => exact h
  | true => exact told_fail v text

/-- A configuration is refused exactly when an error is logged. -/
theorem validate_told (cfg : Configuration) : (validate cfg).Told := by
  have hlog : (validateLog {} cfg.log).Told := by
    unfold validateLog
    split
    · simp only
      split
      · split
        · simp [Validation.Told]
        · exact told_fail _ _
      · simp [Validation.Told]
    · simp [Validation.Told]
  have hpools : (validateThreadPools (validateLog {} cfg.log) cfg.threadPools).Told := by
    unfold validateThreadPools
    split
    · split
      · exact told_fail _ _
      · split
        · exact told_fail _ _
        · exact hlog
    · exact hlog
  unfold validate validateHttpServer
  simp only
  split
  · exact ((hpools.check _ _).check _ _).check _ _
  · exact hpools

/-! ## The values in use -/

theorem toInt_max (a b : Int32) : (max a b).toInt = max a.toInt b.toInt := by
  show (if a ≤ b then b else a).toInt = _
  by_cases h : a ≤ b
  · have hle := Int32.le_iff_toInt_le.1 h
    rw [if_pos h]
    omega
  · have hle := mt Int32.le_iff_toInt_le.2 h
    rw [if_neg h]
    omega

theorem numThreads_pos (hw : UInt32) (cfg : Option ThreadPool) : 1 ≤ (numThreads hw cfg).toInt := by
  have h1 : (1 : Int32).toInt = 1 := rfl
  unfold numThreads
  rw [toInt_max, h1]
  omega

/-- A positive count is used as it is. -/
theorem numThreads_eq (hw : UInt32) {pool : ThreadPool} (h : 0 < pool.threads.toInt) :
    numThreads hw (some pool) = pool.threads := by
  have hne : pool.threads ≠ 0 := (level_ne_zero _).2 (by omega)
  have h1 : (1 : Int32).toInt = 1 := rfl
  apply Int32.toInt_inj.1
  simp only [numThreads, hne, if_false, toInt_max, h1]
  omega

theorem httpPort_eq {cfg : Configuration} {http : HttpServer} (h : cfg.httpServer = some http)
    (hpos : http.port.toNat ≠ 0) (hmax : http.port.toNat ≤ 65535) : (httpPort cfg).toNat = http.port.toNat := by
  have hrange : 1 ≤ http.port ∧ http.port ≤ 65535 := by
    simp only [UInt32.le_iff_toNat_le, UInt32.reduceToNat]
    omega
  unfold httpPort
  simp only [h]
  rw [if_pos hrange, UInt32.toNat_toUInt16]
  omega

theorem effective_of_accepted (hw : UInt32) {cfg : Configuration} (h : (validate cfg).result = true) :
    Effective hw cfg := by
  have hlegal := (validate_result cfg).1 h
  constructor
  · intro p pool hpool hpos
    rw [hpool]
    exact numThreads_eq hw hpos
  · exact fun p => numThreads_pos hw _
  · intro http hhttp hne
    exact httpPort_eq hhttp hne (hlegal .port rfl http hhttp)
  · intro log hlog hne
    have hrange := (hlegal .logLevel rfl log hlog).resolve_left hne
    refine ⟨⟨log.level - 2⟩, ?_, shift_toInt hrange⟩
    rw [getLogLevel_eq, hlog, validateLog, if_pos ((level_ne_zero _).2 hne)]
    simp [(valid_shift _).2 hrange]
  · intro hall
    rw [getLogLevel_eq]
    cases hlog : cfg.log with
    | none => rfl
    | some log =>
      have hzero : log.level = 0 := Int32.toInt_inj.1 (hall log hlog)
      rw [validateLog, if_neg (not_not.2 hzero)]

/-- **Validation.** `validate` accepts exactly the configurations with every setting in its range, and the
values in use agree with these, unless the only settings out of range are the database threads and retry
waits it does not look at. -/
theorem validate_legal_iff (hw : UInt32) (cfg : Configuration) :
    (((validate cfg).result = true ↔ ∀ s : Setting, s.Legal cfg) ∧
      ((validate cfg).result = true → Effective hw cfg)) ↔
    ((∀ s : Setting, s.validated = true → s.Legal cfg) → ∀ s : Setting, s.Legal cfg) := by
  constructor
  · rintro ⟨hiff, -⟩ hchecked
    exact hiff.1 ((validate_result cfg).2 hchecked)
  · intro h
    refine ⟨⟨fun hr => h ((validate_result cfg).1 hr), ?_⟩, effective_of_accepted hw⟩
    intro hlegal
    exact (validate_result cfg).2 fun s _ => hlegal s

/-- A database pool of -1 threads is accepted, and so is a retry wait of -1.0. -/
theorem validate_negative :
    (∃ cfg, (validate cfg).result = true ∧ cfg.threadPools = some { database := some ⟨-1⟩ } ∧
      ¬(Setting.threads .database).Legal cfg) ∧
    ∃ cfg, (validate cfg).result = true ∧ cfg.databases = [("db", ⟨⟨0xBF800000⟩⟩)] ∧
      ¬(Setting.retryWait "db").Legal cfg := by
  refine ⟨⟨{ threadPools := some { database := some ⟨-1⟩ } }, rfl, rfl, ?_⟩,
    ⟨{ databases := [("db", ⟨⟨0xBF800000⟩⟩)] }, rfl, rfl, ?_⟩⟩
  · intro h
    exact absurd (h ⟨-1⟩ rfl) (by decide)
  · intro h
    exact absurd (h ⟨⟨0xBF800000⟩⟩ (by simp)) (by decide)

end Acppsrv.Config
