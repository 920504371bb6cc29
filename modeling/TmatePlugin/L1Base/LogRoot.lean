import TmatePlugin.L1Base.LogRotation

/-!
# The log root

`Log::init` of `MainSrc/Log.cpp` makes the log root from the path of the executable:
everything up to the end of the first "/opt/allxon/plugIN" in it is replaced.

* `rewritePath_eq`: when the pattern is absent, `npos` plus its length wraps around to
  17, and the first 17 bytes are replaced, whatever they are.
* `log_root_iff`: exactly when what follows the replaced part is nothing or a slash
  is the log root at or below /var/log/allxon/plugIN.
-/
namespace TmatePlugin.L1.LogRoot

open CString

def PATH_MAX : Nat := 4096
def UTL_LOG_LEVEL_DEBUG : Nat := 1

def appPath : Bytes := str "/opt/allxon/plugIN"
def LOG_ROOT : Bytes := str "/var/log/allxon/plugIN"

/-- `std::string::npos`, a `size_t`. -/
def npos : Nat := 2 ^ 64 - 1

/-- mirrors MainSrc/Log.h:22-24; `maxsize_` is an `unsigned int` -/
structure Log where
  path_ : Bytes
  titlefilename_ : Bytes
  maxsize_ : UInt32

/-- The default arguments of the constructor.
mirrors MainSrc/Log.h:8-12 -/
def Log.default : Log := ⟨[], str "plugIN-tmate", 5 * 512 * 1024⟩

/-- `readlink` is what /proc/self/exe points to, `none` when the call fails; the
buffer takes `PATH_MAX - 1` bytes of it.
mirrors MainSrc/Log.cpp:19-27 -/
def getSelfPath (readlink : Option Bytes) : Bytes :=
  match readlink with
  | some target => cStr (target.take (PATH_MAX - 1))
  | none => []

/-- `path.find(appPath) + appPath.length()` -/
def replacedLength (path : Bytes) : Nat := ((findSub appPath path).getD npos + appPath.length) % 2 ^ 64

/-- `replace` takes no more than the string has.
mirrors MainSrc/Log.cpp:6-7 -/
def rewritePath (path : Bytes) : Bytes := LOG_ROOT ++ path.drop (replacedLength path)

/-- What `init` does to the members and to the variables of the log.
mirrors MainSrc/Log.cpp:3-17 -/
def Log.init (start : Log) (selfPath : Bytes) (s : L1.Log.LogState) : Log × L1.Log.LogState :=
  let start := { start with path_ := rewritePath selfPath }
  if start.path_ = [] ∨ start.titlefilename_ = [] ∨ start.maxsize_ = 0 then (start, s)
  else
    let s := L1.Log.init (some start.titlefilename_) (some start.path_) s
    (start, L1.Log.setLevel UTL_LOG_LEVEL_DEBUG false (L1.Log.setMax start.maxsize_ s))

/-- The log root itself, or a path below it. -/
def UnderLogRoot (path : Bytes) : Prop := path = LOG_ROOT ∨ ∃ below, path = LOG_ROOT ++ 47 :: below

/-- The path ends, or goes on with a slash, behind the first "/opt/allxon/plugIN" in
it, or behind its first 17 bytes when that is absent. -/
def Mapped (path : Bytes) : Prop :=
  let next := match findSub appPath path with
    | some n => path[n + appPath.length]?
    | none => path[17]?
  next = none ∨ next = some 47

/-! ## What is replaced -/

theorem getSelfPath_length (readlink : Option Bytes) : (getSelfPath readlink).length < PATH_MAX := by
  cases readlink with
  | none => decide
  | some target =>
    have hshort := cStr_length_le (target.take (PATH_MAX - 1))
    rw [List.length_take] at hshort
    have hmax : PATH_MAX = 4096 := rfl
    rw [getSelfPath]
    omega

theorem replacedLength_eq {path : Bytes} (hsize : path.length < 2 ^ 64) :
    replacedLength path = match findSub appPath path with
      | some n => n + appPath.length
      | none => 17 := by
  rw [replacedLength]
  cases hfind : findSub appPath path with
  | none => decide
  | some n =>
    have hle := findSub_length_le hfind
    rw [Option.getD_some, Nat.mod_eq_of_lt (by omega)]

theorem head_iff (rest : Bytes) : (rest = [] ∨ ∃ below, rest = 47 :: below) ↔
    rest.head? = none ∨ rest.head? = some 47 := by
  cases rest with
  | nil => simp
  | cons c below => simp

/-- The new path is as good as what follows the part that is replaced. -/
theorem underLogRoot_iff (path : Bytes) : UnderLogRoot (rewritePath path) ↔
    path[replacedLength path]? = none ∨ path[replacedLength path]? = some 47 := by
  rw [← List.head?_drop, ← head_iff, UnderLogRoot, rewritePath]
  simp only [List.append_cancel_left_eq, List.append_right_eq_self]

theorem init_path (start : Log) (selfPath : Bytes) (s : L1.Log.LogState) :
    (start.init selfPath s).1.path_ = rewritePath selfPath := by
  rw [Log.init]
  dsimp only
  split <;> rfl

/-- The rewritten path is the log root or goes on with a slash exactly when the path
is mapped; an installed path keeps what follows the pattern. -/
theorem log_root_iff (start : Log) (s : L1.Log.LogState) (selfPath : Bytes)
    (hsize : selfPath.length < 2 ^ 64) :
    (UnderLogRoot (start.init selfPath s).1.path_ ↔ Mapped selfPath) ∧
    ∀ below, selfPath = appPath ++ 47 :: below →
      (start.init selfPath s).1.path_ = LOG_ROOT ++ 47 :: below := by
  rw [init_path]
  constructor
  · rw [underLogRoot_iff, replacedLength_eq hsize, Mapped]
    cases findSub appPath selfPath <;> rfl
  · intro below hselfPath
    have hfind : findSub appPath selfPath = some 0 := by
      obtain ⟨n, hn, hle⟩ := findSub_append_le appPath [] (47 :: below)
      rw [hselfPath, ← List.nil_append (appPath ++ 47 :: below), hn, Nat.le_zero.mp hle]
    have hlength : replacedLength selfPath = appPath.length := by
      rw [replacedLength_eq hsize, hfind]
      exact Nat.zero_add _
    rw [rewritePath, hlength, hselfPath, List.drop_left]

/-- The path of this plugin where it is installed. -/
def installedPath : Bytes := str "/opt/allxon/plugIN/plugIN-tmate/plugIN-tmate"

theorem log_root_installed :
    (UnderLogRoot (Log.default.init installedPath L1.Log.initialLog).1.path_ ↔ Mapped installedPath) ∧
    ∀ below, installedPath = appPath ++ 47 :: below →
      (Log.default.init installedPath L1.Log.initialLog).1.path_ = LOG_ROOT ++ 47 :: below :=
  log_root_iff Log.default L1.Log.initialLog installedPath (by decide)

/-- The log of /usr/local/bin/plugIN-tmate goes to "/var/log/allxon/plugINugIN-tmate". -/
theorem other_directory :
    ¬ ∀ readlink, UnderLogRoot (Log.default.init (getSelfPath readlink) L1.Log.initialLog).1.path_ := by
  intro h
  have hself : getSelfPath (some (str "/usr/local/bin/plugIN-tmate")) =
      str "/usr/local/bin/plugIN-tmate" := by
    decide
  have hunder := h (some (str "/usr/local/bin/plugIN-tmate"))
  rw [hself, init_path, underLogRoot_iff] at hunder
  exact absurd hunder (by decide)

end TmatePlugin.L1.LogRoot
