import TmatePlugin.L1Base.LogRotation
import TmatePlugin.Lib.Transition

/-!
# Opening the log file again

`UTL_log_redirect` closes the old log file, opens the next one and records the
day (`// Success; update logDay.`) before it looks at the handle. A call of the
same day then finds the day up to date and an invalid handle, whose size counts
as zero, and returns.

The system is a log with a root under any sequence of calls, where each rotation
gets any answers of the file system. `lastAttempt` records the last rotation.
-/
namespace TmatePlugin.L1.LogReopen

open CString Transition
open TmatePlugin.L1.Log

/-- A rotation that has called `UTLFile_Open`: its day, and whether the handle is
valid. -/
structure Attempt where
  day : Nat
  valid : Bool
  deriving DecidableEq, Repr

structure State where
  log : LogState
  lastAttempt : Option Attempt
  deriving DecidableEq, Repr

/-- A call of `UTL_LOGVPrint`. -/
structure Call where
  level : Nat
  time : CalendarTime
  env : RotationEnv

inductive Op where
  | print (c : Call)
  | setLevel (level : Nat) (enable : Bool)
  | setMax (maxSize : UInt32)

/-- The call tries to open a log file. -/
def attempts (s : State) (c : Call) : Bool := (vPrint c.env s.log c.level c.time).2.isSome

def printed (s : State) (c : Call) : State :=
  let log := (vPrint c.env s.log c.level c.time).1
  { log := log
    lastAttempt :=
      if attempts s c then some ⟨c.time.day, log.logProcessFd.isSome⟩ else s.lastAttempt }

def step (s : State) : Op → State
  | .print c => printed s c
  | .setLevel level enable => { s with log := setLevel level enable s.log }
  | .setMax maxSize => { s with log := setMax maxSize s.log }

/-- After `UTL_LOGInit` with a root, and before the first line. -/
def Initial (s : State) : Prop :=
  (∃ processName root, s.log = init processName (some root) initialLog) ∧ s.lastAttempt = none

def logCalls : System State Op := .ofFn Initial fun s op => some (step s op)

/-- The day of the last rotation, when its open has failed. -/
def failedOn (s : State) : Option Nat := (s.lastAttempt.filter (!·.valid)).map (·.day)

/-! ## The invariant -/

/-- The log knows the day of the last rotation, and has a valid handle exactly
when its open has succeeded. -/
structure Tracked (s : State) : Prop where
  logInit : s.log.logInit = true
  root : s.log.rootDir ≠ []
  onDisk : s.log.enableInMemoryLogging = false
  day : s.log.logDay = (s.lastAttempt.map (fun a => (a.day : Int))).getD (-1)
  handle : s.log.logProcessFd.isSome = s.lastAttempt.any (·.valid)

theorem tracked_initial {s : State} (hs : Initial s) : Tracked s := by
  obtain ⟨⟨processName, root, hlog⟩, hlast⟩ := hs
  have hroot : (cStr root ++ str "/logs").take 517 ≠ [] := by
    have hlen : (str "/logs").length = 5 := by decide
    intro hnil
    have hshort := congrArg List.length hnil
    rw [List.length_take, List.length_append, List.length_nil] at hshort
    omega
  refine ⟨?_, ?_, ?_, ?_, ?_⟩
  · rw [hlog]; rfl
  · rw [hlog]; exact hroot
  · rw [hlog]; rfl
  · rw [hlog, hlast]; rfl
  · rw [hlog, hlast]; rfl

/-- Once the log is initialised, an enabled call rotates as `redirect` does. -/
theorem vPrint_eq {s : State} (hs : Tracked s) {c : Call} (hc : enabled s.log c.level = true) :
    vPrint c.env s.log c.level c.time = redirect c.env s.log c.time := by
  have hinit : checkInit s.log = s.log := by simp [checkInit, hs.logInit]
  simp only [vPrint, hc, hinit, hs.onDisk]
  rfl

theorem tracked_printed {s : State} (hs : Tracked s) (c : Call) : Tracked (printed s c) := by
  by_cases hc : enabled s.log c.level = true
  · have heq := vPrint_eq hs hc
    cases hr : redirect c.env s.log c.time with
    | mk log rotation =>
      rw [hr] at heq
      cases rotation with
      | none =>
        -- nothing has been opened
        have hlog : log = s.log := redirect_eq_none hr
        have hsame : printed s c = s := by simp [printed, attempts, heq, hlog]
        rw [hsame]
        exact hs
      | some r =>
        have hlog : log = switchFile c.env s.log c.time :=
          (congrArg Prod.fst (redirect_eq_some hr)).symm
        have hnext : printed s c =
            ⟨switchFile c.env s.log c.time, some ⟨c.time.day, c.env.openFile.isSome⟩⟩ := by
          simp [printed, attempts, heq, hlog, switchFile]
        rw [hnext]
        exact ⟨hs.logInit, hs.root, hs.onDisk, rfl, rfl⟩
  · have hoff : vPrint c.env s.log c.level c.time = (s.log, none) := by simp [vPrint, hc]
    have hsame : printed s c = s := by simp [printed, attempts, hoff]
    rw [hsame]
    exact hs

theorem tracked_setLevel {s : State} (hs : Tracked s) (level : Nat) (enable : Bool) :
    Tracked { s with log := setLevel level enable s.log } := by
  have hinit : checkInit s.log = s.log := by simp [checkInit, hs.logInit]
  unfold setLevel
  simp only [hinit]
  split
  · exact ⟨hs.logInit, hs.root, hs.onDisk, hs.day, hs.handle⟩
  · exact hs

theorem tracked_setMax {s : State} (hs : Tracked s) (maxSize : UInt32) :
    Tracked { s with log := setMax maxSize s.log } := by
  unfold setMax
  split
  · exact hs
  · split
    · exact ⟨hs.logInit, hs.root, hs.onDisk, hs.day, hs.handle⟩
    · exact ⟨hs.logInit, hs.root, hs.onDisk, hs.day, hs.handle⟩

theorem tracked_step {s : State} (hs : Tracked s) (op : Op) : Tracked (step s op) := by
  cases op with
  | print c => exact tracked_printed hs c
  | setLevel level enable => exact tracked_setLevel hs level enable
  | setMax maxSize => exact tracked_setMax hs maxSize

theorem tracked_inductive : logCalls.Inductive Tracked where
  init _ hs := tracked_initial hs
  step s op s' hs h := by
    have hnext : s' = step s op := (Option.some.inj h).symm
    rw [hnext]
    exact tracked_step hs op

/-! ## What a call does without a handle -/

/-- Without a valid handle the file counts as empty, and only the day decides. -/
theorem redirect_isSome_iff {s : LogState} (hinit : s.logInit = true) (hroot : s.rootDir ≠ [])
    (hfd : s.logProcessFd = none) (env : RotationEnv) (t : CalendarTime) :
    (redirect env s t).2.isSome = true ↔ s.logDay ≠ t.day := by
  have hsize : ∀ fstat, fileSize s fstat 0 = 0 := fun fstat => by simp [fileSize, hfd]
  have hdue : rotationDue s t 0 = (s.logDay != t.day) := by
    simp [rotationDue, UTL_LOG_MAX_FILE_SIZE]
  simp only [redirect, hinit, hroot, hsize, upToDate_eq_not_rotationDue, hdue]
  by_cases hday : s.logDay = t.day
  · simp [hday]
  · simp [hday]

/-- In every run with a log root, a call made while there is no valid handle tries
to open a log file exactly when its day is not that of the last rotation; and
the recorded day is that of a failed rotation until a later one succeeds. -/
theorem reopens_iff (s : State) (hs : logCalls.Reachable s) :
    (s.log.logProcessFd = none → ∀ c, enabled s.log c.level = true →
      (attempts s c = true ↔ failedOn s ≠ some c.time.day)) ∧
    ((∀ a, s.lastAttempt = some a → s.log.logDay = a.day → s.log.logProcessFd.isSome = true) ↔
      failedOn s = none) := by
  have hT := tracked_inductive.reachable hs
  have hday := hT.day
  have hhandle := hT.handle
  constructor
  · intro hfd c hc
    rw [attempts, vPrint_eq hT hc, redirect_isSome_iff hT.logInit hT.root hfd]
    rw [hfd] at hhandle
    cases hlast : s.lastAttempt with
    | none =>
      rw [hlast] at hday
      have hnever : s.log.logDay ≠ c.time.day := by
        rw [hday]
        simp only [Option.map_none, Option.getD_none]
        omega
      simp [failedOn, hlast, hnever]
    | some a =>
      rw [hlast] at hday hhandle
      have hinvalid : a.valid = false := hhandle.symm
      have hdayEq : s.log.logDay = a.day := hday
      rw [hdayEq]
      simp only [failedOn, hlast, hinvalid, Option.filter, Bool.not_false, if_true, Option.map_some, ne_eq,
        Option.some.injEq, Int.natCast_inj]
  · cases hlast : s.lastAttempt with
    | none => simp [failedOn, hlast]
    | some a =>
      rw [hlast] at hday hhandle
      have hdayEq : s.log.logDay = a.day := hday
      have hvalid : s.log.logProcessFd.isSome = a.valid := hhandle
      cases ha : a.valid <;> simp [failedOn, hlast, hdayEq, hvalid, ha, Option.filter]

/-! ## A failed open -/

/-- A line at level INFO, in an environment in which no call succeeds. -/
def exampleCall (day : Fin 31) : Call where
  level := 2
  time := exampleTime day (Fin.last 59)
  env := ⟨none, none, none, none, none, fun _ => none⟩

def exampleState : State where
  log := init (some (str "p")) (some (str "/l")) initialLog
  lastAttempt := none

theorem exampleState_initial : Initial exampleState :=
  ⟨⟨some (str "p"), str "/l", rfl⟩, rfl⟩

/-- Of two lines of one day, the first of which could not open the log file, the
second does not try to. -/
theorem not_reopened :
    ¬ ∀ s, logCalls.Reachable s → s.log.logProcessFd = none → ∀ c,
      enabled s.log c.level = true → attempts s c = true := by
  intro h
  have hreach : logCalls.Reachable (step exampleState (.print (exampleCall 1))) :=
    ⟨exampleState, [.print (exampleCall 1)], exampleState_initial, .cons rfl (.nil _)⟩
  have hattempts := h _ hreach (by decide) (exampleCall 1) (by decide)
  exact absurd hattempts (by decide)

/-- The next day it does. -/
theorem reopened_next_day :
    attempts (step exampleState (.print (exampleCall 1))) (exampleCall 2) = true := by
  have hreach : logCalls.Reachable (step exampleState (.print (exampleCall 1))) :=
    ⟨exampleState, [.print (exampleCall 1)], exampleState_initial, .cons rfl (.nil _)⟩
  exact ((reopens_iff _ hreach).1 (by decide) _ (by decide)).mpr (by decide)

end TmatePlugin.L1.LogReopen
