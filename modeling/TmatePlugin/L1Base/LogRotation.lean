import Mathlib.Algebra.Order.Ring.Nat
import Mathlib.Data.List.DropRight
import Mathlib.Data.List.Sort
import TmatePlugin.Lib.CString

/-!
# Rotation of the log files

`Util/src/Utl_Log.cpp` writes the log to a file under the log root, one
directory for each process name. `UTL_log_redirect` is called before every line:
it opens a new file when the day has changed or the file is full, and then
deletes old files of the directory.

What the file system answers is a parameter, one `RotationEnv` for each call.
The lines `UTL_log_redirect` itself writes to the log are left out; they change
the sizes that the next call is given.
-/
namespace TmatePlugin.L1.Log

open CString

def UTL_LOG_NUM_LEVELS : Nat := 7
def UTL_LOG_MAX_FILE_SIZE : Nat := 512 * 1024
def UTL_LOG_MIN_MAX_TOTAL_SIZE : Nat := 5 * 512 * 1024
def UTL_LOG_DEFAULT_PRC : Bytes := str "null"

/-- mirrors Util/include/Utl_time.h:14-24, with the ranges given there; what is
left out is a second unit for `usec` -/
structure CalendarTime where
  year : Int
  month : Nat
  day : Nat
  hour : Nat
  min : Nat
  sec : Nat
  usec : Nat
  month_range : 1 ≤ month ∧ month ≤ 12
  day_range : 1 ≤ day ∧ day ≤ 31
  hour_range : hour ≤ 23
  min_range : min ≤ 59
  sec_range : sec ≤ 61
  usec_range : usec ≤ 999999
  deriving DecidableEq, Repr

/-- The types `UTLFS_Readdir` tells apart: Util/src/Utl_file.cpp:214-224. -/
inductive FileType where
  | file
  | dir
  | other
  deriving DecidableEq, Repr

structure Dirent where
  filename : Bytes
  type : FileType
  deriving DecidableEq, Repr

/-- The static variables. A handle that is not valid is `none`.
mirrors Util/src/Utl_Log.cpp:60-77 -/
structure LogState where
  logEnabled : List Bool
  logInit : Bool
  logProcessName : Bytes
  rootDir : Bytes
  logDay : Int
  logProcessFd : Option Nat
  enableInMemoryLogging : Bool
  maxTotalLogSize : Nat
  maxNumFiles : Nat
  setmax : Bool
  logProcessFilename : Bytes
  deriving DecidableEq, Repr

/-- The values the variables start with. -/
def initialLog : LogState where
  logEnabled := [false, false, true, true, true, true, true]
  logInit := false
  logProcessName := UTL_LOG_DEFAULT_PRC
  rootDir := []
  logDay := -1
  logProcessFd := none
  enableInMemoryLogging := false
  maxTotalLogSize := UTL_LOG_MIN_MAX_TOTAL_SIZE
  maxNumFiles := UTL_LOG_MIN_MAX_TOTAL_SIZE / UTL_LOG_MAX_FILE_SIZE
  setmax := false
  logProcessFilename := []

/-! ## Settings -/

/-- What follows the last slash or backslash.
mirrors Util/src/Utl_Log.cpp:132-153 -/
def getFilenamePart (s : Bytes) : Bytes := s.rtakeWhile fun c => c ≠ 47 && c ≠ 92

/-- `UTL_LOGInit`; an argument that is NULL is `none`. The two `snprintf`s cut
what does not fit.
mirrors Util/src/Utl_Log.cpp:627-661 -/
def init (processName root : Option Bytes) (s : LogState) : LogState :=
  if s.logInit then s
  else
    let name := match processName with
      | none => UTL_LOG_DEFAULT_PRC
      | some processName => getFilenamePart (cStr processName)
    { s with
      logProcessName := name.take 63
      rootDir := match root with
        | none => s.rootDir
        | some root => (cStr root ++ str "/logs").take 517
      logDay := -1
      logInit := true }

/-- mirrors Util/src/Utl_Log.cpp:336-343 -/
def checkInit (s : LogState) : LogState := if s.logInit then s else init none none s

/-- mirrors Util/src/Utl_Log.cpp:663-671 -/
def setLevel (level : Nat) (enable : Bool) (s : LogState) : LogState :=
  let s := checkInit s
  if level < UTL_LOG_NUM_LEVELS then { s with logEnabled := s.logEnabled.set level enable } else s

/-- mirrors Util/src/Utl_Log.cpp:764-786 -/
def setMax (maxSize : UInt32) (s : LogState) : LogState :=
  if !s.logInit then s
  else if maxSize ≠ 0 then
    let total := if maxSize.toNat > UTL_LOG_MIN_MAX_TOTAL_SIZE then maxSize.toNat
      else UTL_LOG_MIN_MAX_TOTAL_SIZE
    { s with
      maxTotalLogSize := total
      maxNumFiles := total / UTL_LOG_MAX_FILE_SIZE
      setmax := true }
  else { s with maxTotalLogSize := 0, maxNumFiles := 3 }

/-! ## File names -/

/-- `%d` of a number that is not negative. -/
def decimal (n : Nat) : Bytes := (Nat.toDigits 10 n).map fun c => c.toNat.toUInt8

/-- `%0*d` of a number that is not negative. -/
def padded (width n : Nat) : Bytes := (decimal n).leftpad width 48

/-- `%d` -/
def signed (n : Int) : Bytes := if n < 0 then 45 :: decimal n.natAbs else decimal n.natAbs

/-- The last component of `utl_logProcessFilename`. -/
def logFilename (s : LogState) (t : CalendarTime) : Bytes :=
  s.logProcessName ++ str "." ++ signed t.year ++ padded 2 t.month ++ padded 2 t.day ++ str "_"
    ++ padded 2 t.hour ++ padded 2 t.min ++ padded 2 t.sec ++ str "_" ++ padded 6 t.usec
    ++ str ".log"

/-- mirrors Util/src/Utl_Log.cpp:481 -/
def logPath (s : LogState) : Bytes := s.rootDir ++ str "/" ++ s.logProcessName

/-- `"%s/%s"` with the log directory; the buffer of 1024 bytes is never full. -/
def fullPath (s : LogState) (filename : Bytes) : Bytes := logPath s ++ str "/" ++ filename

/-! ## Rotation -/

/-- The answers of the file system during one call of `UTL_log_redirect`: the
sizes `UTLFS_FStat` finds before and under the write lock, the handle
`UTLFile_Open` returns, the size of the file just opened, the entries in the
order of `UTLFS_Readdir` and the sizes `UTLFS_Stat` finds. A failed call is
`none`. -/
structure RotationEnv where
  fstat : Option Nat
  fstatLocked : Option Nat
  openFile : Option Nat
  fstatOpened : Option Nat
  readdir : Option (List Dirent)
  stat : Bytes → Option Nat

/-- What a rotation has done: the name it tried to open, and the names it asked
to delete, in this order. -/
structure Rotation where
  filename : Bytes
  deleted : List Bytes
  deriving DecidableEq, Repr

/-- `currentFileSz` after an `UTLFS_FStat`: it stays as it was when there is no
valid handle or the call fails. -/
def fileSize (s : LogState) (fstat : Option Nat) (currentFileSz : Nat) : Nat :=
  if s.logProcessFd.isSome then fstat.getD currentFileSz else currentFileSz

/-- The test before the write lock.
mirrors Util/src/Utl_Log.cpp:420 -/
def upToDate (s : LogState) (t : CalendarTime) (currentFileSz : Nat) : Bool :=
  s.logDay == t.day && (currentFileSz < UTL_LOG_MAX_FILE_SIZE || s.maxTotalLogSize == 0)

/-- The test under the write lock.
mirrors Util/src/Utl_Log.cpp:442 -/
def rotationDue (s : LogState) (t : CalendarTime) (currentFileSz : Nat) : Bool :=
  s.logDay != t.day || (currentFileSz ≥ UTL_LOG_MAX_FILE_SIZE && s.maxTotalLogSize != 0)

/-- Closes the log file and opens the next one; the day is recorded whether the
handle is valid or not.
mirrors Util/src/Utl_Log.cpp:443-463 -/
def switchFile (env : RotationEnv) (s : LogState) (t : CalendarTime) : LogState :=
  { s with
    logProcessFilename := fullPath s (logFilename s t)
    logProcessFd := env.openFile
    logDay := t.day }

/-- `dirent.type == UTLFS_TYPE_FILE && UTLString_StartsWith(dirent.filename, utl_logProcessName)` -/
def isLogFile (s : LogState) (e : Dirent) : Bool :=
  e.type == .file && s.logProcessName.isPrefixOf e.filename

/-- The local variables of the scan of the log directory. -/
structure Scan where
  buffer : List Bytes
  totalSize : Nat
  totalsizeTooMuch : Bool

/-- mirrors Util/src/Utl_Log.cpp:505-518 -/
def scanEntry (s : LogState) (stat : Bytes → Option Nat) (scan : Scan) (e : Dirent) : Scan :=
  if isLogFile s e then
    let path := fullPath s e.filename
    let scan := { scan with buffer := scan.buffer ++ [path] }
    if scan.totalsizeTooMuch then scan
    else
      match stat path with
      | none => scan
      | some size =>
        let totalSize := (scan.totalSize + size) % 2 ^ 32
        { scan with
          totalSize := totalSize
          totalsizeTooMuch := s.maxTotalLogSize != 0 && totalSize > s.maxTotalLogSize }
  else scan

/-- The deletions from `buffer[i]` down, where the argument is `i + 1`.
mirrors Util/src/Utl_Log.cpp:526-537 -/
def deleteFrom (s : LogState) (totalsizeTooMuch : Bool) (buffer : List Bytes) : Nat → List Bytes
  | 0 => []
  | i + 1 =>
    if i < s.maxNumFiles then []
    else
      buffer.getD i [] ::
        if s.setmax || totalsizeTooMuch then deleteFrom s totalsizeTooMuch buffer i else []

/-- The names deleted after a file has been opened: none when the new file or the
directory cannot be read.
mirrors Util/src/Utl_Log.cpp:474-540 -/
def purge (env : RotationEnv) (s : LogState) : List Bytes :=
  if s.logProcessFd.isSome && env.fstatOpened.isSome then
    match env.readdir with
    | none => []
    | some entries =>
      let scan := entries.foldl (scanEntry s env.stat) ⟨[], 0, false⟩
      let buffer := (scan.buffer.insertionSort (· ≤ ·)).reverse
      deleteFrom s scan.totalsizeTooMuch buffer buffer.length
  else []

/-- mirrors Util/src/Utl_Log.cpp:443-540 -/
def rotate (env : RotationEnv) (s : LogState) (t : CalendarTime) : LogState × Rotation :=
  let s' := switchFile env s t
  (s', { filename := s'.logProcessFilename, deleted := purge env s' })

/-- `UTL_log_redirect`, when no other thread rotates between its two tests; the
second component is `none` when it has not tried to open a file.
mirrors Util/src/Utl_Log.cpp:403-547 -/
def redirect (env : RotationEnv) (s : LogState) (t : CalendarTime) : LogState × Option Rotation :=
  if !s.logInit || s.rootDir = [] then (s, none)
  else
    let currentFileSz := fileSize s env.fstat 0
    if upToDate s t currentFileSz then (s, none)
    else
      let currentFileSz := fileSize s env.fstatLocked currentFileSz
      if rotationDue s t currentFileSz then
        let r := rotate env s t
        (r.1, some r.2)
      else (s, none)

/-- `level < UTL_LOG_NUM_LEVELS && utl_logEnabled[level]` -/
def enabled (s : LogState) (level : Nat) : Bool :=
  level < UTL_LOG_NUM_LEVELS && s.logEnabled.getD level false

/-- `UTL_LOGVPrint` as far as it opens files: writing the line changes none of the
variables.
mirrors Util/src/Utl_Log.cpp:829-849 -/
def vPrint (env : RotationEnv) (s : LogState) (level : Nat) (t : CalendarTime) :
    LogState × Option Rotation :=
  if !enabled s level then (s, none)
  else
    let s := checkInit s
    if s.enableInMemoryLogging then (s, none) else redirect env s t

/-! ## What a rotation does -/

/-- The two tests of `UTL_log_redirect` are each other's negation. -/
theorem upToDate_eq_not_rotationDue (s : LogState) (t : CalendarTime) (currentFileSz : Nat) :
    upToDate s t currentFileSz = !rotationDue s t currentFileSz := by
  have hsize : decide (currentFileSz < UTL_LOG_MAX_FILE_SIZE) =
      !decide (currentFileSz ≥ UTL_LOG_MAX_FILE_SIZE) := by
    by_cases h : currentFileSz < UTL_LOG_MAX_FILE_SIZE
    · simp [h]
    · simp [h, Nat.le_of_not_lt h]
  simp [upToDate, rotationDue, hsize, bne]

/-- A call that has tried to open a file has rotated. -/
theorem redirect_eq_some {env : RotationEnv} {s s' : LogState} {t : CalendarTime} {r : Rotation}
    (h : redirect env s t = (s', some r)) : rotate env s t = (s', r) := by
  simp only [redirect] at h
  split at h
  · cases h
  · split at h
    · cases h
    · split at h
      · cases h
        rfl
      · cases h

/-- A call that has not tried to open a file has changed nothing. -/
theorem redirect_eq_none {env : RotationEnv} {s s' : LogState} {t : CalendarTime}
    (h : redirect env s t = (s', none)) : s' = s := by
  simp only [redirect] at h
  split at h
  · cases h
    rfl
  · split at h
    · cases h
      rfl
    · split at h
      · cases h
      · cases h
        rfl

/-- Midnight and some seconds, on a day of January 2024. -/
def exampleTime (day : Fin 31) (sec : Fin 60) : CalendarTime where
  year := 2024
  month := 1
  day := day + 1
  hour := 0
  min := 0
  sec := sec
  usec := 0
  month_range := by decide
  day_range := by omega
  hour_range := by decide
  min_range := by decide
  sec_range := by omega
  usec_range := by decide

end TmatePlugin.L1.Log
