import Mathlib.Logic.Function.Basic
import Mathlib.Tactic.Common

/-!
# The five state output files and their recorded times

`CTmatePlugin` remembers, for each output file of scripts/states, the
modification time it last saw (`statusTime`, `versionTime`, `webTime`,
`sshTime`, `sshStringTime`). `IsStateFilesChanged` compares the files with
these times one after the other, records the newer ones and returns the mask
of the files that were newer.

* `isStateFilesChanged_some`: what one call reports and records, for each file.
* `isStateFilesChanged_none`: it ends the process exactly when a file is
  missing.
* `isStateFilesChanged_again`: a change is reported once; it is consumed by
  the call, whatever the caller does with the mask.
* `change_detection`: these together, for every outcome of the five `stat`.
-/
namespace TmatePlugin.L2.StateFiles

/-- The names of `TmateStates`.
mirrors Plugins/TmatePlugin.h:31-39 -/
inductive TmateState where
  | status
  | version
  | web
  | ssh
  | sshString
  deriving DecidableEq, Repr

/-- mirrors Plugins/TmatePlugin.cpp:9-13 -/
def StateUpdated : TmateState → BitVec 5
  | .status => 0b00001#5
  | .version => 0b00010#5
  | .web => 0b00100#5
  | .ssh => 0b01000#5
  | .sshString => 0b10000#5

/-- mirrors Plugins/TmatePlugin.cpp:14 -/
def StateUpdated.none : BitVec 5 := 0b00000#5

/-- The test `(mask & StateUpdated::f) == StateUpdated::f`. -/
def hasState (mask : BitVec 5) (f : TmateState) : Bool := mask &&& StateUpdated f == StateUpdated f

@[simp] theorem hasState_none (f : TmateState) : hasState StateUpdated.none f = false := by
  cases f <;> rfl

@[simp] theorem hasState_or (mask : BitVec 5) (f g : TmateState) :
    hasState (mask ||| StateUpdated g) f = (hasState mask f || f = g) := by
  cases f <;> cases g <;> revert mask <;> decide

theorem eq_none_iff (mask : BitVec 5) :
    mask = StateUpdated.none ↔ ∀ f, hasState mask f = false := by
  constructor
  · intro h f
    rw [h, hasState_none]
  · intro h
    have hbits : ∀ m : BitVec 5,
        (∀ f ∈ [TmateState.status, .version, .web, .ssh, .sshString], hasState m f = false) →
          m = StateUpdated.none := by decide
    exact hbits mask fun f _ => h f

/-- statusTime, versionTime, webTime, sshTime, sshStringTime.
mirrors Plugins/TmatePlugin.h:114-118 -/
abbrev Times := TmateState → Int

/-- `none`: the file cannot be stat'ed and the process exits. Otherwise the
result and `newMTime`.
mirrors Plugins/TmatePlugin.cpp:487-500 -/
def fileIsModified (stat : Option Int) (oldMTime : Int) : Option (Bool × Int) :=
  stat.map fun mtime => (decide (oldMTime < mtime), mtime)

/-- One of the five blocks of `IsStateFilesChanged`.
mirrors Plugins/TmatePlugin.cpp:222-230 -/
def checkOutput (stat : Option Int) (f : TmateState) (times : Times) (result : BitVec 5) :
    Option (Times × BitVec 5) :=
  match fileIsModified stat (times f) with
  | Option.none => Option.none
  | some (true, newMTime) => some (Function.update times f newMTime, result ||| StateUpdated f)
  | some (false, _) => some (times, result)

/-- The order of the blocks. -/
def checkOrder : List TmateState := [.status, .version, .web, .ssh, .sshString]

/-- The order in which the states are added to a notification or an ack.
mirrors MainSrc/WebSocketClient.cpp:30-34,100-104 -/
def sendOrder : List TmateState := [.version, .status, .web, .ssh, .sshString]

theorem mem_sendOrder (f : TmateState) : f ∈ sendOrder := by cases f <;> decide

def checkOutputs (stat : TmateState → Option Int) :
    List TmateState → Times → BitVec 5 → Option (Times × BitVec 5)
  | [], times, result => some (times, result)
  | f :: fs, times, result =>
    (checkOutput (stat f) f times result).bind fun r => checkOutputs stat fs r.1 r.2

/-- mirrors Plugins/TmatePlugin.cpp:218-269 -/
def isStateFilesChanged (stat : TmateState → Option Int) (times : Times) :
    Option (Times × BitVec 5) :=
  checkOutputs stat checkOrder times StateUpdated.none

/-! ## One block -/

/-- The time recorded for a file after its block. -/
def recordedTime (mtime old : Int) : Int := if old < mtime then mtime else old

theorem checkOutput_some {stat : Option Int} {f : TmateState} {times times' : Times}
    {result result' : BitVec 5} (h : checkOutput stat f times result = some (times', result')) :
    ∃ mtime, stat = some mtime ∧ times' f = recordedTime mtime (times f) ∧
      hasState result' f = (hasState result f || decide (times f < mtime)) ∧
      ∀ g, g ≠ f → times' g = times g ∧ hasState result' g = hasState result g := by
  cases stat with
  | none => cases h
  | some mtime =>
    refine ⟨mtime, rfl, ?_⟩
    by_cases hlt : times f < mtime
    · simp only [checkOutput, fileIsModified, Option.map_some, hlt, decide_true, Option.some.injEq,
        Prod.mk.injEq] at h
      obtain ⟨rfl, rfl⟩ := h
      refine ⟨by simp [recordedTime, hlt], by simp [hlt], fun g hg => ?_⟩
      simp [hg]
    · simp only [checkOutput, fileIsModified, Option.map_some, hlt, decide_false, Option.some.injEq,
        Prod.mk.injEq] at h
      obtain ⟨rfl, rfl⟩ := h
      exact ⟨by simp [recordedTime, hlt], by simp [hlt], fun g _ => ⟨rfl, rfl⟩⟩

theorem checkOutput_none_iff {stat : Option Int} {f : TmateState} {times : Times}
    {result : BitVec 5} : checkOutput stat f times result = Option.none ↔ stat = Option.none := by
  cases stat with
  | none => simp [checkOutput, fileIsModified]
  | some mtime =>
    by_cases hlt : times f < mtime <;> simp [checkOutput, fileIsModified, hlt]

/-! ## The whole check -/

/-- What the remaining blocks report and record: a file among them like its
block, every other file is left alone. -/
theorem checkOutputs_some {stat : TmateState → Option Int} {fs : List TmateState}
    {times times' : Times} {result result' : BitVec 5} (hfs : fs.Nodup)
    (h : checkOutputs stat fs times result = some (times', result')) (f : TmateState) :
    if f ∈ fs then
      ∃ mtime, stat f = some mtime ∧ times' f = recordedTime mtime (times f) ∧
        hasState result' f = (hasState result f || decide (times f < mtime))
    else times' f = times f ∧ hasState result' f = hasState result f := by
  induction fs generalizing times result with
  | nil =>
    simp only [checkOutputs, Option.some.injEq, Prod.mk.injEq] at h
    obtain ⟨rfl, rfl⟩ := h
    simp
  | cons g fs ih =>
    simp only [checkOutputs, Option.bind_eq_some_iff] at h
    obtain ⟨⟨times₁, result₁⟩, h₁, h⟩ := h
    obtain ⟨mtime, hstat, ht, hr, hother⟩ := checkOutput_some h₁
    obtain ⟨hg, hnodup⟩ := List.nodup_cons.mp hfs
    have ih := ih hnodup h
    by_cases hfg : f = g
    · subst hfg
      rw [if_neg hg] at ih
      rw [if_pos List.mem_cons_self]
      exact ⟨mtime, hstat, ih.1.trans ht, ih.2.trans hr⟩
    · obtain ⟨ht', hr'⟩ := hother f hfg
      simp only [List.mem_cons, hfg, false_or]
      simp only [ht', hr'] at ih
      exact ih

theorem mem_checkOrder (f : TmateState) : f ∈ checkOrder := by cases f <;> decide

/-- One call reports exactly the files that are newer than their recorded
time, and records their times. -/
theorem isStateFilesChanged_some {stat : TmateState → Option Int} {times times' : Times}
    {changed : BitVec 5} (h : isStateFilesChanged stat times = some (times', changed))
    (f : TmateState) :
    ∃ mtime, stat f = some mtime ∧ times' f = recordedTime mtime (times f) ∧
      hasState changed f = decide (times f < mtime) := by
  have := checkOutputs_some (by decide) h f
  rw [if_pos (mem_checkOrder f)] at this
  simpa using this

theorem checkOutputs_none_iff {stat : TmateState → Option Int} {fs : List TmateState}
    {times : Times} {result : BitVec 5} :
    checkOutputs stat fs times result = Option.none ↔ ∃ f ∈ fs, stat f = Option.none := by
  induction fs generalizing times result with
  | nil => simp [checkOutputs]
  | cons g fs ih =>
    cases hg : checkOutput (stat g) g times result with
    | none =>
      have hstat := checkOutput_none_iff.mp hg
      rw [checkOutputs, hg]
      simp [hstat]
    | some r =>
      have hstat : stat g ≠ Option.none := fun hn => by
        rw [checkOutput_none_iff.mpr hn] at hg; cases hg
      rw [checkOutputs, hg]
      simp [ih, hstat]

/-- The process exits exactly when one of the files is missing. -/
theorem isStateFilesChanged_none {stat : TmateState → Option Int} {times : Times} :
    isStateFilesChanged stat times = Option.none ↔ ∃ f, stat f = Option.none := by
  rw [isStateFilesChanged, checkOutputs_none_iff]
  exact ⟨fun ⟨f, _, h⟩ => ⟨f, h⟩, fun ⟨f, h⟩ => ⟨f, mem_checkOrder f, h⟩⟩

theorem recordedTime_not_lt (mtime old : Int) : ¬ recordedTime mtime old < mtime := by
  unfold recordedTime; split <;> omega

/-- A second call on the same files reports nothing. -/
theorem isStateFilesChanged_again {stat : TmateState → Option Int} {times times' times'' : Times}
    {changed changed' : BitVec 5} (h : isStateFilesChanged stat times = some (times', changed))
    (h' : isStateFilesChanged stat times' = some (times'', changed')) (f : TmateState) :
    hasState changed' f = false := by
  obtain ⟨mtime, hstat, ht, -⟩ := isStateFilesChanged_some h f
  obtain ⟨mtime', hstat', -, hr⟩ := isStateFilesChanged_some h' f
  rw [hstat, Option.some.injEq] at hstat'
  rw [hr, ht, ← hstat']
  simp [recordedTime_not_lt]

/-- What one call reports and records when every file is there. -/
def Detected (stat : TmateState → Option Int) (times times' : Times) (changed : BitVec 5) : Prop :=
  ∀ f, (hasState changed f = true ↔ ∃ mtime, stat f = some mtime ∧ times f < mtime) ∧
    (if hasState changed f then stat f = some (times' f) else times' f = times f)

theorem detected_of_some {stat : TmateState → Option Int} {times times' : Times}
    {changed : BitVec 5} (h : isStateFilesChanged stat times = some (times', changed)) :
    Detected stat times times' changed := by
  intro f
  obtain ⟨mtime, hstat, ht, hbit⟩ := isStateFilesChanged_some h f
  rw [hbit, hstat, ht, recordedTime]
  by_cases hlt : times f < mtime
  · simp [hlt]
  · simp [hlt]

/-- A missing file ends the process; otherwise the mask and the recorded times
are exact, and the next call on the same files reports nothing. -/
theorem change_detection (stat : TmateState → Option Int) (times : Times) :
    ((∃ f, stat f = Option.none) ∧ isStateFilesChanged stat times = Option.none) ∨
      ((∀ f, ∃ mtime, stat f = some mtime) ∧
        ∃ times' changed, isStateFilesChanged stat times = some (times', changed) ∧
          Detected stat times times' changed ∧
          ∃ times'', isStateFilesChanged stat times' = some (times'', StateUpdated.none)) := by
  cases h : isStateFilesChanged stat times with
  | none => exact .inl ⟨isStateFilesChanged_none.mp h, rfl⟩
  | some r =>
    obtain ⟨times', changed⟩ := r
    have hthere : ∀ f, ∃ mtime, stat f = some mtime := fun f => by
      obtain ⟨mtime, hstat, -⟩ := isStateFilesChanged_some h f
      exact ⟨mtime, hstat⟩
    refine .inr ⟨hthere, times', changed, rfl, detected_of_some h, ?_⟩
    cases h' : isStateFilesChanged stat times' with
    | none =>
      obtain ⟨f, hmissing⟩ := isStateFilesChanged_none.mp h'
      obtain ⟨mtime, hstat⟩ := hthere f
      rw [hmissing] at hstat
      cases hstat
    | some r' =>
      obtain ⟨times'', changed'⟩ := r'
      have hnone : changed' = StateUpdated.none :=
        (eq_none_iff changed').mpr (isStateFilesChanged_again h h')
      exact ⟨times'', by rw [hnone]⟩

/-- Without the output files there is no mask. -/
theorem missing_file_exits :
    ¬ ∀ (stat : TmateState → Option Int) (times : Times), ∃ times' changed,
      isStateFilesChanged stat times = some (times', changed) ∧
        Detected stat times times' changed := by
  intro h
  obtain ⟨times', changed, hsome, -⟩ := h (fun _ => Option.none) (fun _ => 0)
  cases hsome

end TmatePlugin.L2.StateFiles
