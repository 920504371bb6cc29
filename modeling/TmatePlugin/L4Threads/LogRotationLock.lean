import Mathlib.Algebra.Order.Ring.Int
import Mathlib.Data.List.Chain
import Mathlib.Data.Prod.Lex
import TmatePlugin.L1Base.LogRotation
import TmatePlugin.Lib.History
import TmatePlugin.Lib.RWLock
import TmatePlugin.Lib.Transition

/-!
# Threads that rotate the log

`UTL_LOGVPrint` takes the time and tests whether a new file is due with the read
lock. If so `UTL_log_redirect` releases it, takes the write lock and tests again
(`Now that we have the write lock, make sure that things haven't changed`), with the
time and, when `UTLFS_FStat` fails, the size it had before.

Any number of threads are in `UTL_LOGVPrint`, after `UTL_LOGInit`; opens succeed.
A step is one call of the lock, of `UTLFS_FStat`, `UTLFile_Close` or `UTLFile_Open`,
and what the thread does until the next. `switches` is the history of the files that
were opened, the last of which is the open one. A descriptor is named by its number
among the opens; lines that one thread writes one after another count as one access.
Deleting old files (`purge`) leaves the descriptors alone.

* `inv_step`: who has the lock, and that the descriptor in the variable is open
  except between the close and the open.
* `recheck_follows`: exactly when the second test lets the open file be replaced
  as it should.
* `rotation_once`: lines go to open descriptors in every run; a file is replaced
  only when it is full or of an earlier day, and never by one stamped before it, in
  every run in which the second test is `Current`.
-/
namespace TmatePlugin.L4.LogRotationLock

open CString History Transition
open TmatePlugin.L1.Log
open RWLock (Mode)

/-! ## Timestamps -/

def date (t : CalendarTime) : Int ×ₗ Nat ×ₗ Nat := toLex (t.year, toLex (t.month, t.day))

/-- What a log file is named with, in the order of time. -/
def stamp (t : CalendarTime) : (Int ×ₗ Nat ×ₗ Nat) ×ₗ Nat ×ₗ Nat ×ₗ Nat ×ₗ Nat :=
  toLex (date t, toLex (t.hour, toLex (t.min, toLex (t.sec, t.usec))))

theorem date_le_of_stamp_le {t u : CalendarTime} (h : stamp t ≤ stamp u) : date t ≤ date u := by
  rcases Prod.Lex.le_iff.mp h with hlt | ⟨heq, -⟩
  · exact le_of_lt hlt
  · exact le_of_eq heq

theorem day_eq_of_date_eq {t u : CalendarTime} (h : date t = date u) : t.day = u.day :=
  congrArg (fun d => (ofLex (ofLex d).2).2) h

/-! ## The threads -/

/-- A log file that was opened: the time of the thread that opened it, and whether the
file it replaced was full. -/
structure Switch where
  time : CalendarTime
  full : Bool
  deriving DecidableEq, Repr

/-- The next call of a thread, with its time and `currentFileSz`.
mirrors Util/src/Utl_Log.cpp:403-547,829-849 -/
inductive Pc where
  | outside
  | lockRead
  | getTime
  | stat (time : CalendarTime)
  | unlockRead (time : CalendarTime) (currentFileSz : Nat)
  | lockWrite (time : CalendarTime) (currentFileSz : Nat)
  | restat (time : CalendarTime) (currentFileSz : Nat)
  | close (next : Switch)
  | reopen (next : Switch)
  | unlockWrite
  | relockRead
  | print
  | leave
  deriving DecidableEq, Repr

/-- How a thread has the lock. -/
def Pc.mode : Pc → Mode
  | .outside | .lockRead | .lockWrite _ _ | .relockRead => .free
  | .getTime | .stat _ | .unlockRead _ _ | .print | .leave => .read
  | .restat _ _ | .close _ | .reopen _ | .unlockWrite => .write

/-- `time` is what `UTLTime_GetCalendarTimeLocal` gives; `stat` is about the size of the
open file, and whether `UTLFS_FStat` succeeds. -/
inductive Action where
  | run
  | time (time : CalendarTime)
  | stat (size : Nat) (ok : Bool)
  deriving DecidableEq, Repr

structure Label (Tid : Type) where
  thread : Tid
  action : Action

variable {Tid : Type}

structure State (Tid : Type) where
  log : LogState
  writeToFile : Bool
  lock : RWLock Tid
  pc : Tid → Pc
  opened : Nat
  accesses : List (Access Nat)
  switches : List Switch

/-- The file is full, when there is a limit. -/
def isFull (log : LogState) (size : Nat) : Bool :=
  size ≥ UTL_LOG_MAX_FILE_SIZE && log.maxTotalLogSize != 0

/-- `UTL_LOGVPrint` calls `UTL_log_redirect`, and that does not return at once. -/
def redirects (log : LogState) : Bool :=
  !log.enableInMemoryLogging && log.logInit && !log.rootDir.isEmpty

/-- A line goes to the log file.
mirrors Util/src/Utl_Log.cpp:280-284 -/
def writeLine (s : State Tid) : State Tid :=
  let fd := if s.writeToFile && !s.log.enableInMemoryLogging then s.log.logProcessFd else none
  { s with accesses := s.accesses ++ fd.toList.map .use }

/-- A line and the close, neither of them when no file is open; the variable keeps the
descriptor.
mirrors Util/src/Utl_Log.cpp:452-456 -/
def closeFile (s : State Tid) : State Tid :=
  let s := writeLine s
  { s with accesses := s.accesses ++ s.log.logProcessFd.toList.map .delete }

/-- `UTLFile_Open` returns `fd`. -/
def opens (fd : Nat) : RotationEnv := ⟨none, none, some fd, none, none, fun _ => none⟩

/-- mirrors Util/src/Utl_Log.cpp:443-446,458-472 -/
def openFile (s : State Tid) (next : Switch) : State Tid :=
  writeLine { s with
    log := switchFile (opens s.opened) s.log next.time
    opened := s.opened + 1
    accesses := s.accesses ++ [.new s.opened]
    switches := s.switches ++ [next] }

/-- What `UTLFS_FStat` gives. -/
def fstatResult (size : Nat) (ok : Bool) : Option Nat := if ok then some size else none

/-- mirrors Util/src/Utl_Log.cpp:408-409,840-845 -/
def afterTime (log : LogState) (time : CalendarTime) : Pc := if redirects log then .stat time else .print

/-- The test with the read lock.
mirrors Util/src/Utl_Log.cpp:412-422 -/
def firstTest (log : LogState) (time : CalendarTime) (size : Nat) (ok : Bool) : Pc :=
  let currentFileSz := fileSize log (fstatResult size ok) 0
  if upToDate log time currentFileSz then .print else .unlockRead time currentFileSz

/-- The test with the write lock.
mirrors Util/src/Utl_Log.cpp:429-442 -/
def secondTest (log : LogState) (time : CalendarTime) (currentFileSz size : Nat) (ok : Bool) : Pc :=
  if rotationDue log time (fileSize log (fstatResult size ok) currentFileSz) then
    .close ⟨time, log.logProcessFd.isSome && isFull log size⟩
  else .unlockWrite

/-- `Failed to stat` is a line of the log.
mirrors Util/src/Utl_Log.cpp:434-439 -/
def warnStat (s : State Tid) (ok : Bool) : State Tid := if ok then s else writeLine s

variable [DecidableEq Tid]

def goto (s : State Tid) (t : Tid) (pc : Pc) : State Tid := { s with pc := Function.update s.pc t pc }

/-- The next call of thread `t`. -/
def turn (s : State Tid) (t : Tid) (action : Action) : Option (State Tid) :=
  match s.pc t, action with
  | .outside, .run => some (goto s t .lockRead)
  | .lockRead, .run => (s.lock.lockRead t).map fun lock => goto { s with lock := lock } t .getTime
  | .getTime, .time time => some (goto s t (afterTime s.log time))
  | .stat time, .stat size ok => some (goto s t (firstTest s.log time size ok))
  | .unlockRead time currentFileSz, .run =>
    some (goto { s with lock := s.lock.unlockRead t } t (.lockWrite time currentFileSz))
  | .lockWrite time currentFileSz, .run =>
    (s.lock.lockWrite t).map fun lock => goto { s with lock := lock } t (.restat time currentFileSz)
  | .restat time currentFileSz, .stat size ok =>
    some (goto (warnStat s ok) t (secondTest s.log time currentFileSz size ok))
  | .close next, .run => some (goto (closeFile s) t (.reopen next))
  | .reopen next, .run => some (goto (openFile s next) t .unlockWrite)
  | .unlockWrite, .run => some (goto { s with lock := s.lock.unlockWrite } t .relockRead)
  | .relockRead, .run => (s.lock.lockRead t).map fun lock => goto { s with lock := lock } t .print
  | .print, .run => some (goto (writeLine s) t .leave)
  | .leave, .run => some (goto { s with lock := s.lock.unlockRead t } t .outside)
  | _, _ => none

def step (s : State Tid) (l : Label Tid) : Option (State Tid) := turn s l.thread l.action

/-- After `UTL_LOGInit`, with any settings, before the first line. -/
structure Initial (s : State Tid) : Prop where
  logInit : s.log.logInit = true
  logDay : s.log.logDay = -1
  logProcessFd : s.log.logProcessFd = none
  lock : s.lock = .unlocked
  pc : ∀ t, s.pc t = .outside
  opened : s.opened = 0
  accesses : s.accesses = []
  switches : s.switches = []

def logThreads : System (State Tid) (Label Tid) := .ofFn Initial step

/-- `next` may replace `last`: that is full or of an earlier day, and not stamped after
it. -/
def Follows (last next : Switch) : Prop :=
  (next.full = true ∨ date last.time < date next.time) ∧ stamp last.time ≤ stamp next.time

/-- The time and the size of the second test are not stale: when the time is before
that of the open file, it is on a day of the same number and the file is not full;
when they are of the same day and the size is the one from the first test, the file is
full if the size is. -/
def CurrentFor (log : LogState) (last time : CalendarTime) (currentFileSz size : Nat) (ok : Bool) : Prop :=
  (stamp time < stamp last → last.day = time.day ∧ ¬ isFull log (if ok then size else currentFileSz)) ∧
    (date last = date time → ok = false → isFull log currentFileSz → isFull log size)

/-- A step that is a second test is one with a time and a size that are not stale. -/
def Current (s : State Tid) (l : Label Tid) : Prop :=
  match s.pc l.thread, l.action with
  | .restat time currentFileSz, .stat size ok =>
    ∀ last ∈ s.switches.getLast?, CurrentFor s.log last.time time currentFileSz size ok
  | _, _ => True

/-! ## Who has the lock, and what is open -/

/-- `last` is about the variables the second test reads, and the name of the open file. -/
structure Inv (s : State Tid) : Prop where
  lock : s.lock.Agrees (Pc.mode ∘ s.pc)
  safe : Safe s.accesses
  fresh : ∀ fd, .new fd ∈ s.accesses → fd < s.opened
  handle : (∀ t next, s.pc t ≠ .reopen next) → ∀ fd ∈ s.log.logProcessFd, live s.accesses fd
  last : ∀ last ∈ s.switches.getLast?, s.log.logProcessFd.isSome = true ∧
    s.log.logDay = last.time.day ∧ s.log.logProcessFilename = fullPath s.log (logFilename s.log last.time)

variable {s s' : State Tid} {t : Tid} {l : Label Tid}

theorem inv_initial (hs : Initial s) : Inv s := by
  refine ⟨?_, ?_, fun fd hfd => ?_, fun _ fd hfd => ?_, fun last hlast => ?_⟩
  · have hmode : Pc.mode ∘ s.pc = fun _ => .free := by
      funext t
      show (s.pc t).mode = .free
      rw [hs.pc]
      rfl
    rw [hs.lock, hmode]
    exact RWLock.agrees_unlocked
  · rw [hs.accesses]
    exact each_nil Allowed
  · rw [hs.accesses] at hfd
    cases hfd
  · rw [hs.logProcessFd] at hfd
    cases hfd
  · rw [hs.switches] at hlast
    cases hlast

/-- While a thread has the lock, no other thread is about to open a file. -/
theorem Inv.no_reopen (h : Inv s) (hmode : (s.pc t).mode ≠ .free) (hfrom : ∀ next, s.pc t ≠ .reopen next) :
    ∀ u next, s.pc u ≠ .reopen next := by
  intro u next hu
  have hwrite : (Pc.mode ∘ s.pc) u = .write := by
    show (s.pc u).mode = .write
    rw [hu]
    rfl
  by_cases htu : t = u
  · subst htu
    exact hfrom next hu
  · exact hmode (h.lock.alone hwrite htu)

theorem afterTime_mode (log : LogState) (time : CalendarTime) : (afterTime log time).mode = .read := by
  unfold afterTime
  split <;> rfl

theorem firstTest_mode (log : LogState) (time : CalendarTime) (size : Nat) (ok : Bool) :
    (firstTest log time size ok).mode = .read := by
  simp only [firstTest]
  split <;> rfl

theorem secondTest_mode (log : LogState) (time : CalendarTime) (currentFileSz size : Nat) (ok : Bool) :
    (secondTest log time currentFileSz size ok).mode = .write := by
  unfold secondTest
  split <;> rfl

omit [DecidableEq Tid] in
theorem warnStat_pc (s : State Tid) (ok : Bool) : (warnStat s ok).pc = s.pc := by
  unfold warnStat
  split <;> rfl

theorem goto_pc (s : State Tid) (t : Tid) (pc : Pc) : (goto s t pc).pc t = pc := by
  show Function.update s.pc t pc t = pc
  rw [Function.update_self]

omit [DecidableEq Tid] in
theorem not_reopen {pc : Pc} (hpc : s.pc t = pc) (hne : ∀ next, pc ≠ .reopen next) :
    ∀ next, s.pc t ≠ .reopen next := by
  rw [hpc]
  exact hne

/-- A thread takes or releases the lock. -/
theorem inv_move (h : Inv s) {lock : RWLock Tid} {pc : Pc}
    (hlock : lock.Agrees (Function.update (Pc.mode ∘ s.pc) t pc.mode)) (hfrom : ∀ next, s.pc t ≠ .reopen next) :
    Inv (goto { s with lock := lock } t pc) := by
  refine ⟨?_, h.safe, h.fresh, fun hopen => h.handle fun u next hu => ?_, h.last⟩
  · show lock.Agrees (Pc.mode ∘ Function.update s.pc t pc)
    rw [Function.comp_update]
    exact hlock
  · by_cases hut : u = t
    · subst hut
      exact hfrom next hu
    · refine hopen u next ?_
      show Function.update s.pc t pc u = _
      rw [Function.update_of_ne hut]
      exact hu

/-- The lock agrees as before when a thread goes on with it. -/
theorem Inv.agrees (h : Inv s) {pc : Pc} (hmode : pc.mode = (s.pc t).mode) :
    s.lock.Agrees (Function.update (Pc.mode ∘ s.pc) t pc.mode) := by
  have hsame : Function.update (Pc.mode ∘ s.pc) t pc.mode = Pc.mode ∘ s.pc := by
    rw [hmode]
    exact Function.update_eq_self t _
  rw [hsame]
  exact h.lock

theorem inv_goto (h : Inv s) {pc : Pc} (hmode : pc.mode = (s.pc t).mode)
    (hfrom : ∀ next, s.pc t ≠ .reopen next) : Inv (goto s t pc) :=
  inv_move h (h.agrees hmode) hfrom

theorem inv_writeLine (h : Inv s) (hopen : ∀ u next, s.pc u ≠ .reopen next) : Inv (writeLine s) := by
  refine ⟨h.lock, h.safe.useAll fun fd hfd => ?_, fun fd hfd => ?_,
    fun _ fd hfd => live_useAll.mpr (h.handle hopen fd hfd), h.last⟩
  · split at hfd
    · exact h.handle hopen fd (Option.mem_toList.mp hfd)
    · cases hfd
  · refine h.fresh fd ?_
    simpa [writeLine] using hfd

theorem inv_closeFile (h : Inv s) {next : Switch} (hpc : s.pc t = .close next) :
    Inv (goto (closeFile s) t (.reopen next)) := by
  have hmode : (Pc.reopen next).mode = (s.pc t).mode := by rw [hpc]; rfl
  have hopen : ∀ u next, s.pc u ≠ .reopen next :=
    h.no_reopen (by rw [← hmode]; exact fun heq => nomatch heq) (not_reopen hpc fun _ heq => nomatch heq)
  have hline := inv_writeLine h hopen
  refine ⟨?_, ?_, fun fd hfd => ?_, fun hnone => ?_, h.last⟩
  · show s.lock.Agrees (Pc.mode ∘ Function.update s.pc t (.reopen next))
    rw [Function.comp_update]
    exact h.agrees hmode
  · refine hline.safe.deleteAll (fun fd hfd => ?_) ?_
    · exact hline.handle hopen fd (Option.mem_toList.mp hfd)
    · show s.log.logProcessFd.toList.Nodup
      cases s.log.logProcessFd <;> simp
  · refine hline.fresh fd ?_
    simpa [goto, closeFile] using hfd
  · exact absurd (Function.update_self t _ s.pc) (hnone t next)

theorem inv_openFile (h : Inv s) {next : Switch} (hpc : s.pc t = .reopen next) :
    Inv (goto (openFile s next) t .unlockWrite) := by
  have hmode : Pc.unlockWrite.mode = (s.pc t).mode := by rw [hpc]; rfl
  have hnew : .new s.opened ∉ s.accesses := fun hmem => Nat.lt_irrefl _ (h.fresh _ hmem)
  have hopened : Inv (goto { s with
      log := switchFile (opens s.opened) s.log next.time
      opened := s.opened + 1
      accesses := s.accesses ++ [.new s.opened]
      switches := s.switches ++ [next] } t .unlockWrite) := by
    refine ⟨?_, h.safe.append hnew, fun fd hfd => ?_, fun _ fd hfd => ?_, fun last hlast => ?_⟩
    · show s.lock.Agrees (Pc.mode ∘ Function.update s.pc t .unlockWrite)
      rw [Function.comp_update]
      exact h.agrees hmode
    · show fd < s.opened + 1
      have hmem : .new fd ∈ s.accesses ∨ fd = s.opened := by simpa [goto] using hfd
      rcases hmem with hold | rfl
      · exact Nat.lt_succ_of_lt (h.fresh fd hold)
      · exact Nat.lt_succ_self _
    · have hfd' : fd = s.opened := by simpa [goto, switchFile, opens] using hfd.symm
      rw [hfd']
      exact h.safe.live_new hnew
    · have hlast' : last = next := by simpa [goto] using hlast.symm
      rw [hlast']
      exact ⟨rfl, rfl, rfl⟩
  -- the line comes after the open, when the descriptor is the new one
  refine inv_writeLine hopened (hopened.no_reopen (t := t) ?_ ?_)
  · rw [goto_pc]
    decide
  · rw [goto_pc]
    exact fun _ heq => nomatch heq

theorem inv_step (h : Inv s) (hstep : step s l = some s') : Inv s' := by
  unfold step turn at hstep
  split at hstep
  case h_1 hpc _ =>
    cases hstep
    exact inv_goto h (by rw [hpc]; rfl) (not_reopen hpc fun _ heq => nomatch heq)
  case h_2 hpc _ =>
    obtain ⟨lock, hlock, rfl⟩ := Option.map_eq_some_iff.mp hstep
    exact inv_move h (h.lock.lockRead hlock (congrArg Pc.mode hpc)) (not_reopen hpc fun _ heq => nomatch heq)
  case h_3 time hpc _ =>
    cases hstep
    exact inv_goto h (by rw [hpc, afterTime_mode]; rfl) (not_reopen hpc fun _ heq => nomatch heq)
  case h_4 time size ok hpc _ =>
    cases hstep
    exact inv_goto h (by rw [hpc, firstTest_mode]; rfl) (not_reopen hpc fun _ heq => nomatch heq)
  case h_5 hpc _ =>
    cases hstep
    exact inv_move h (h.lock.unlockRead (congrArg Pc.mode hpc)) (not_reopen hpc fun _ heq => nomatch heq)
  case h_6 hpc _ =>
    obtain ⟨lock, hlock, rfl⟩ := Option.map_eq_some_iff.mp hstep
    exact inv_move h (h.lock.lockWrite hlock (congrArg Pc.mode hpc)) (not_reopen hpc fun _ heq => nomatch heq)
  case h_7 time currentFileSz size ok hpc _ =>
    cases hstep
    have hwarn : Inv (warnStat s ok) := by
      unfold warnStat
      split
      · exact h
      · exact inv_writeLine h (h.no_reopen (by rw [hpc]; exact fun heq => nomatch heq)
          (not_reopen hpc fun _ heq => nomatch heq))
    have hpc' : (warnStat s ok).pc l.thread = .restat time currentFileSz := (warnStat_pc s ok) ▸ hpc
    exact inv_goto hwarn (by rw [hpc', secondTest_mode]; rfl) (not_reopen hpc' fun _ heq => nomatch heq)
  case h_8 hpc _ =>
    cases hstep
    exact inv_closeFile h hpc
  case h_9 hpc _ =>
    cases hstep
    exact inv_openFile h hpc
  case h_10 hpc _ =>
    cases hstep
    exact inv_move h (h.lock.unlockWrite (congrArg Pc.mode hpc)) (not_reopen hpc fun _ heq => nomatch heq)
  case h_11 hpc _ =>
    obtain ⟨lock, hlock, rfl⟩ := Option.map_eq_some_iff.mp hstep
    exact inv_move h (h.lock.lockRead hlock (congrArg Pc.mode hpc)) (not_reopen hpc fun _ heq => nomatch heq)
  case h_12 hpc _ =>
    cases hstep
    have hline : Inv (writeLine s) := inv_writeLine h (h.no_reopen (by rw [hpc]; exact fun heq => nomatch heq)
      (not_reopen hpc fun _ heq => nomatch heq))
    exact inv_goto hline (by show Pc.leave.mode = (s.pc l.thread).mode; rw [hpc]; rfl)
      (not_reopen (s := writeLine s) hpc fun _ heq => nomatch heq)
  case h_13 hpc _ =>
    cases hstep
    exact inv_move h (h.lock.unlockRead (congrArg Pc.mode hpc)) (not_reopen hpc fun _ heq => nomatch heq)
  case h_14 => cases hstep

theorem inv_inductive : (logThreads : System (State Tid) (Label Tid)).Inductive Inv where
  init _ hs := inv_initial hs
  step _ _ _ h hstep := inv_step h hstep

/-! ## Which file comes after which -/

/-- The file that a thread is about to open. -/
def Pc.next : Pc → Option Switch
  | .close next | .reopen next => some next
  | _ => none

/-- It is about to with the write lock only. -/
theorem next_eq_none {pc : Pc} (h : pc.mode ≠ .write) : pc.next = none := by
  cases pc with
  | close | reopen => exact absurd rfl h
  | _ => rfl

/-- The history grows when a file is opened, by the file the thread had decided on in
the second test. -/
theorem step_cases (hstep : step s l = some s') :
    (s'.switches = s.switches ∧ ∃ pc, s'.pc = Function.update s.pc l.thread pc ∧
      (pc.next = none ∨ pc.next = (s.pc l.thread).next)) ∨
    (∃ time currentFileSz size ok, s.pc l.thread = .restat time currentFileSz ∧ l.action = .stat size ok ∧
      s'.switches = s.switches ∧
      s'.pc = Function.update s.pc l.thread (secondTest s.log time currentFileSz size ok)) ∨
    (∃ next, s.pc l.thread = .reopen next ∧ s'.switches = s.switches ++ [next] ∧
      s'.pc = Function.update s.pc l.thread .unlockWrite) := by
  unfold step turn at hstep
  split at hstep
  case h_1 =>
    cases hstep
    exact .inl ⟨rfl, .lockRead, rfl, .inl rfl⟩
  case h_2 =>
    obtain ⟨lock, -, rfl⟩ := Option.map_eq_some_iff.mp hstep
    exact .inl ⟨rfl, .getTime, rfl, .inl rfl⟩
  case h_3 time _ _ =>
    cases hstep
    exact .inl ⟨rfl, afterTime s.log time, rfl, .inl (next_eq_none (by rw [afterTime_mode]; decide))⟩
  case h_4 time size ok _ _ =>
    cases hstep
    exact .inl ⟨rfl, firstTest s.log time size ok, rfl, .inl (next_eq_none (by rw [firstTest_mode]; decide))⟩
  case h_5 time currentFileSz _ _ =>
    cases hstep
    exact .inl ⟨rfl, .lockWrite time currentFileSz, rfl, .inl rfl⟩
  case h_6 time currentFileSz _ _ =>
    obtain ⟨lock, -, rfl⟩ := Option.map_eq_some_iff.mp hstep
    exact .inl ⟨rfl, .restat time currentFileSz, rfl, .inl rfl⟩
  case h_7 time currentFileSz size ok hpc haction =>
    cases hstep
    refine .inr (.inl ⟨time, currentFileSz, size, ok, hpc, haction, ?_, ?_⟩)
    · show (warnStat s ok).switches = s.switches
      unfold warnStat
      split <;> rfl
    · show Function.update (warnStat s ok).pc l.thread _ = _
      rw [warnStat_pc]
  case h_8 next hpc _ =>
    cases hstep
    exact .inl ⟨rfl, .reopen next, rfl, .inr (by rw [hpc]; rfl)⟩
  case h_9 next hpc _ =>
    cases hstep
    exact .inr (.inr ⟨next, hpc, rfl, rfl⟩)
  case h_10 =>
    cases hstep
    exact .inl ⟨rfl, .relockRead, rfl, .inl rfl⟩
  case h_11 =>
    obtain ⟨lock, -, rfl⟩ := Option.map_eq_some_iff.mp hstep
    exact .inl ⟨rfl, .print, rfl, .inl rfl⟩
  case h_12 =>
    cases hstep
    exact .inl ⟨rfl, .leave, rfl, .inl rfl⟩
  case h_13 =>
    cases hstep
    exact .inl ⟨rfl, .outside, rfl, .inl rfl⟩
  case h_14 => cases hstep

theorem secondTest_next {log : LogState} {time : CalendarTime} {currentFileSz size : Nat} {ok : Bool}
    {next : Switch} : (secondTest log time currentFileSz size ok).next = some next ↔
      rotationDue log time (fileSize log (fstatResult size ok) currentFileSz) = true ∧
        ⟨time, log.logProcessFd.isSome && isFull log size⟩ = next := by
  unfold secondTest
  split
  · rename_i hdue
    simp [Pc.next, hdue]
  · rename_i hdue
    simp [Pc.next, hdue]

/-- The second test does what it should exactly when its time and size are not stale. -/
theorem recheck_follows (h : Inv s) {last : Switch} (hlast : last ∈ s.switches.getLast?)
    (time : CalendarTime) (currentFileSz size : Nat) (ok : Bool) :
    CurrentFor s.log last.time time currentFileSz size ok ↔
      ∀ next, (secondTest s.log time currentFileSz size ok).next = some next → Follows last next := by
  obtain ⟨hfd, hday, -⟩ := h.last last hlast
  have hfile : fileSize s.log (fstatResult size ok) currentFileSz = if ok then size else currentFileSz := by
    rw [fileSize, if_pos hfd]
    cases ok <;> rfl
  have hdue : rotationDue s.log time (if ok then size else currentFileSz) = true ↔
      last.time.day ≠ time.day ∨ isFull s.log (if ok then size else currentFileSz) = true := by
    simp [rotationDue, isFull, hday]
  simp only [secondTest_next, hfile, hdue, hfd, Bool.true_and]
  constructor
  · rintro ⟨hearlier, hsize⟩ next ⟨hrotates, rfl⟩
    have hstamp : stamp last.time ≤ stamp time := by
      by_contra hlt
      obtain ⟨hsame, hnot⟩ := hearlier (not_le.mp hlt)
      exact hrotates.elim (fun hne => hne hsame) hnot
    refine ⟨?_, hstamp⟩
    rcases lt_or_eq_of_le (date_le_of_stamp_le hstamp) with hdate | hdate
    · exact .inr hdate
    · -- on one day only the size counts
      have hfull := hrotates.resolve_left (not_not_intro (day_eq_of_date_eq hdate))
      cases ok with
      | true => exact .inl hfull
      | false => exact .inl (hsize hdate rfl hfull)
  · intro hfollows
    constructor
    · intro hlt
      by_contra hnot
      rw [not_and_or, not_not] at hnot
      exact absurd (hfollows _ ⟨hnot, rfl⟩).2 (not_le.mpr hlt)
    · rintro hdate rfl hfull
      have hnext := (hfollows _ ⟨.inr hfull, rfl⟩).1
      exact hnext.resolve_right (hdate ▸ lt_irrefl _)

/-- Every file was opened as it should be, and so is the one that a thread is about to
open. -/
structure Ordered (s : State Tid) : Prop where
  chain : s.switches.IsChain Follows
  next : ∀ t next, (s.pc t).next = some next → ∀ last ∈ s.switches.getLast?, Follows last next

omit [DecidableEq Tid] in
theorem ordered_initial (hs : Initial s) : Ordered s := by
  refine ⟨?_, fun t next ht => ?_⟩
  · rw [hs.switches]
    exact .nil
  · rw [hs.pc] at ht
    cases ht

theorem ordered_step (h : Inv s) (hordered : Ordered s) (hcurrent : Current s l)
    (hstep : step s l = some s') : Ordered s' := by
  rcases step_cases hstep with ⟨hsame, pc, hpc', hnext⟩ |
    ⟨time, currentFileSz, size, ok, hpc, haction, hsame, hpc'⟩ | ⟨opened, hpc, hgrown, hpc'⟩
  · refine ⟨hsame ▸ hordered.chain, fun u next hu => ?_⟩
    rw [hsame]
    rw [hpc'] at hu
    by_cases hut : u = l.thread
    · subst hut
      rw [Function.update_self] at hu
      rcases hnext with hnone | hkept
      · rw [hnone] at hu
        cases hu
      · exact hordered.next _ next (hkept ▸ hu)
    · rw [Function.update_of_ne hut] at hu
      exact hordered.next u next hu
  · refine ⟨hsame ▸ hordered.chain, fun u next hu last hlast => ?_⟩
    rw [hsame] at hlast
    rw [hpc'] at hu
    by_cases hut : u = l.thread
    · subst hut
      rw [Function.update_self] at hu
      unfold Current at hcurrent
      rw [hpc, haction] at hcurrent
      exact (recheck_follows h hlast time currentFileSz size ok).mp (hcurrent last hlast) next hu
    · rw [Function.update_of_ne hut] at hu
      exact hordered.next u next hu last hlast
  · refine ⟨?_, fun u next hu => ?_⟩
    · rw [hgrown]
      refine List.isChain_append.mpr ⟨hordered.chain, .singleton _, fun last hlast y hy => ?_⟩
      cases hy
      exact hordered.next l.thread opened (by rw [hpc]; rfl) last hlast
    · -- nobody else has the write lock
      have hnone : (s'.pc u).next = none := by
        rw [hpc']
        by_cases hut : u = l.thread
        · subst hut
          rw [Function.update_self]
          rfl
        · rw [Function.update_of_ne hut]
          have hfree := h.lock.alone (congrArg Pc.mode hpc) hut
          exact next_eq_none (by show (Pc.mode ∘ s.pc) u ≠ .write; rw [hfree]; decide)
      rw [hnone] at hu
      cases hu

theorem ordered_inductive : ((logThreads : System (State Tid) (Label Tid)).guard Current).Inductive
    (fun s => Inv s ∧ Ordered s) :=
  inv_inductive.guarded (fun _ hs => ordered_initial hs)
    fun _ _ _ h hordered hcurrent hstep => ordered_step h hordered hcurrent hstep

/-- In every run of any number of threads, each line goes to a descriptor that is open
then. In a run in which no second test has a stale time or size, a file is replaced only
when it is full or of an earlier day than the time of the thread that replaces it, and
never by a file stamped before it. -/
theorem rotation_once (s₀ s : State Tid) (ls : List (Label Tid)) (hinit : Initial s₀) :
    (logThreads.Run s₀ ls s → Safe s.accesses) ∧
    ((logThreads.guard Current).Run s₀ ls s → s.switches.IsChain Follows) := by
  constructor
  · intro hrun
    exact (inv_inductive.run hrun (inv_initial hinit)).safe
  · intro hrun
    exact (ordered_inductive.run hrun ⟨inv_initial hinit, ordered_initial hinit⟩).2.chain

instance (log : LogState) (last time : CalendarTime) (currentFileSz size : Nat) (ok : Bool) :
    Decidable (CurrentFor log last time currentFileSz size ok) := by
  unfold CurrentFor
  exact inferInstance

instance (s : State Tid) (l : Label Tid) : Decidable (Current s l) := by
  unfold Current
  split <;> exact inferInstance

instance (last next : Switch) : Decidable (Follows last next) := by
  unfold Follows
  exact inferInstance

/-- Two threads, and a log on which no line was written. -/
def freshLog : State Bool where
  log := init (some (str "plugin")) (some (str "/var")) initialLog
  writeToFile := true
  lock := .unlocked
  pc := fun _ => .outside
  opened := 0
  accesses := []
  switches := []

theorem freshLog_initial : Initial freshLog := ⟨rfl, rfl, rfl, rfl, fun _ => rfl, rfl, rfl, rfl⟩

/-- A thread finds that a file has to be opened, and gives the read lock up. -/
def findsDue (t : Bool) (time : CalendarTime) : List (Label Bool) :=
  [⟨t, .run⟩, ⟨t, .run⟩, ⟨t, .time time⟩, ⟨t, .stat 0 true⟩, ⟨t, .run⟩]

/-- A thread takes the write lock, tests, opens a file and releases the lock. -/
def rotates (t : Bool) : List (Label Bool) :=
  [⟨t, .run⟩, ⟨t, .stat 0 true⟩, ⟨t, .run⟩, ⟨t, .run⟩, ⟨t, .run⟩]

/-- The thread with the time `second` rotates for both, and the other one does so the
day after. -/
def twoDays (first second tomorrow : CalendarTime) : List (Label Bool) :=
  findsDue true first ++ findsDue false second ++ rotates false ++
    [⟨true, .run⟩, ⟨true, .stat 0 true⟩, ⟨true, .run⟩, ⟨true, .run⟩, ⟨true, .run⟩, ⟨true, .run⟩] ++
    findsDue true tomorrow ++ rotates true

theorem rotation_once_twoDays :
    ∃ s, (logThreads.guard Current).Run freshLog
        (twoDays (exampleTime 0 3) (exampleTime 0 5) (exampleTime 1 0)) s ∧
      s.switches.length = 2 ∧ s.switches.IsChain Follows ∧ Safe s.accesses := by
  have hp : ((exec (guardFn Current step) freshLog (twoDays (exampleTime 0 3) (exampleTime 0 5)
      (exampleTime 1 0))).any fun s => s.switches.length = 2) = true := by
    decide +kernel
  simp only [Option.any_eq_true, decide_eq_true_eq] at hp
  obtain ⟨s, hs, hlength⟩ := hp
  have hrun : (logThreads.guard Current).Run freshLog
      (twoDays (exampleTime 0 3) (exampleTime 0 5) (exampleTime 1 0)) s := run_guard_of_exec hs
  have honce := rotation_once freshLog s (twoDays (exampleTime 0 3) (exampleTime 0 5) (exampleTime 1 0))
    freshLog_initial
  exact ⟨s, hrun, hlength, honce.2 hrun, honce.1 hrun.of_guard⟩

/-! ## Around midnight -/

/-- Before the first line, one thread takes a time before midnight and the other one
after it; the latter gets the write lock first. -/
def acrossMidnight (before after : CalendarTime) : List (Label Bool) :=
  findsDue true before ++ findsDue false after ++ rotates false ++ rotates true

/-- The thread with the earlier time finds `utl_logDay != currTime->day` and goes back to
a file of the day before. -/
theorem goes_back :
    ¬ ∀ s : State Bool, logThreads.Reachable s → s.switches.IsChain Follows ∧ Safe s.accesses := by
  intro h
  obtain ⟨s, hs, hback⟩ := exists_reachable_of_exec (f := step)
    (acrossMidnight (exampleTime 0 59) (exampleTime 1 0))
    (fun s => s.switches = [⟨exampleTime 1 0, false⟩, ⟨exampleTime 0 59, false⟩]) freshLog_initial
    (by decide +kernel)
  have hchain := (h s hs).1
  rw [of_decide_eq_true hback] at hchain
  exact absurd hchain (by decide)

end TmatePlugin.L4.LogRotationLock
