import TmatePlugin.L1Base.LogRotation
import TmatePlugin.Lib.History
import TmatePlugin.Lib.Transition

/-!
# Special logs

The list `utl_specialLogFileList` of `Util/src/Utl_Log.cpp`: `UTL_LOGStartSpecialLog`
opens a file and enters it, a line that is logged goes to every enabled entry and
disables those that are full, and `UTL_LOGStopSpecialLogs` empties the list.

A descriptor is named by its number among the successful opens, so that one whose
number the kernel gives out again is another one. `accesses` is the history of what
is done to the descriptors.

* `holds_logLine`, `holds_cleanUp`: the descriptors that are open are those of the
  entries, before and after.
* `descriptors_kept`: when `UTL_LOGStopSpecialLogs` finds no disabled entry with a
  descriptor, none is leaked or closed twice. It closes the enabled ones only
  (`descriptor_leaked`).
-/
namespace TmatePlugin.L1.SpecialLogs

open CString History Transition

/-- mirrors Util/src/Utl_Log.cpp:37-42 -/
structure SpecialLogFile where
  maxSize : UInt32
  fd : Option Nat
  filename : Bytes
  disabled : Bool
  deriving DecidableEq, Repr

/-- The entry `UTL_LOGInit` makes; its size and its name are not initialized, and not
read as long as it is disabled.
mirrors Util/src/Utl_Log.cpp:653-656 -/
def initEntry : SpecialLogFile := ⟨0, none, [], true⟩

/-- `log` has the names of the process and of the root directory. -/
structure State where
  log : Log.LogState
  writeToFile : Bool
  files : List SpecialLogFile
  opened : Nat
  accesses : List (Access Nat)

def handles (files : List SpecialLogFile) : List Nat := files.filterMap (·.fd)

def enabled (files : List SpecialLogFile) : List SpecialLogFile := files.filter (!·.disabled)

/-- The sizes `UTLFS_FStat` finds while a line is logged; `none` when it fails. -/
abbrev FStat := Nat → Option Nat

/-- mirrors Util/src/Utl_Log.cpp:260-275 -/
def logged (fstat : FStat) (f : SpecialLogFile) : SpecialLogFile :=
  if f.disabled then f
  else match f.fd.bind fstat with
    | some size => if size < f.maxSize.toNat then f else { f with disabled := true }
    | none => { f with disabled := true }

/-- What `UTL_log_vprint` does with the special logs.
mirrors Util/src/Utl_Log.cpp:255-278 -/
def logLine (fstat : FStat) (s : State) : State :=
  if s.writeToFile then
    { s with
      files := s.files.map (logged fstat)
      accesses := s.accesses ++ (handles (enabled s.files)).map .use }
  else s

/-- mirrors Util/src/Utl_Log.cpp:688 -/
def specialLogFilename (log : Log.LogState) (logName : Bytes) : Bytes :=
  (log.rootDir ++ str "/" ++ log.logProcessName ++ str "/special_logs/" ++ cStr logName).take 1023

/-- Enabled, and another file.
mirrors Util/src/Utl_Log.cpp:694-701 -/
def stays (filename : Bytes) (f : SpecialLogFile) : Bool := !f.disabled && f.filename != filename

/-- Entries that do not stay are closed and erased; `UTLFile_Close` of an invalid
handle closes nothing.
mirrors Util/src/Utl_Log.cpp:692-707 -/
def cleanUp (filename : Bytes) (s : State) : State :=
  { s with
    files := s.files.filter (stays filename)
    accesses := s.accesses ++ (handles (s.files.filter (!stays filename ·))).map .delete }

/-- Whether the open and the allocation succeed, and the sizes found while the lines
about the open and about the allocation are logged. -/
structure StartEnv where
  openFile : Bool
  malloc : Bool
  fstat : FStat
  fstatFailed : FStat

/-- `UTL_LOGStartSpecialLog`; a name that is NULL is `none`.
mirrors Util/src/Utl_Log.cpp:673-740 -/
def startSpecialLog (env : StartEnv) (logName : Option Bytes) (max : UInt32) (s : State) : State :=
  match logName with
  | none => s
  | some logName =>
    if !s.log.logInit then s
    else
      let filename := specialLogFilename s.log logName
      let s := cleanUp filename s
      if env.openFile then
        let fd := s.opened
        let s := logLine env.fstat { s with opened := fd + 1, accesses := s.accesses ++ [.new fd] }
        if env.malloc then { s with files := s.files ++ [⟨max, some fd, filename, false⟩] }
        else
          let s := logLine env.fstatFailed s
          { s with accesses := s.accesses ++ [.delete fd] }
      else logLine env.fstat s

/-- mirrors Util/src/Utl_Log.cpp:742-762 -/
def stopSpecialLogs (s : State) : State :=
  if !s.log.logInit then s
  else { s with files := [], accesses := s.accesses ++ (handles (enabled s.files)).map .delete }

inductive Op where
  | start (env : StartEnv) (logName : Option Bytes) (max : UInt32)
  | log (fstat : FStat)
  | stop
  | setWriteToFile (write : Bool)

def step (s : State) : Op → State
  | .start env logName max => startSpecialLog env logName max s
  | .log fstat => logLine fstat s
  | .stop => stopSpecialLogs s
  | .setWriteToFile write => { s with writeToFile := write }

/-- After `UTL_LOGInit`. -/
structure Initial (s : State) : Prop where
  log : ∃ processName root, s.log = Log.init processName root Log.initialLog
  files : s.files = [initEntry]
  opened : s.opened = 0
  accesses : s.accesses = []

def specialLogs : System State Op := .ofFn Initial fun s op => some (step s op)

/-- No entry is freed that is disabled and has a descriptor. -/
def StopClosesAll (s : State) : Op → Prop
  | .stop => ∀ f ∈ s.files, f.disabled = true → f.fd = none
  | _ => True

/-! ## The entries -/

@[simp] theorem logged_fd (fstat : FStat) (f : SpecialLogFile) : (logged fstat f).fd = f.fd := by
  unfold logged
  split
  · rfl
  · split
    · split <;> rfl
    · rfl

@[simp] theorem logged_filename (fstat : FStat) (f : SpecialLogFile) :
    (logged fstat f).filename = f.filename := by
  unfold logged
  split
  · rfl
  · split
    · split <;> rfl
    · rfl

theorem disabled_logged (fstat : FStat) {f : SpecialLogFile} (h : f.disabled = true) :
    (logged fstat f).disabled = true := by
  rw [logged, if_pos h]
  exact h

theorem handles_logged (fstat : FStat) (files : List SpecialLogFile) :
    handles (files.map (logged fstat)) = handles files := by
  rw [handles, List.filterMap_map]
  exact List.filterMap_congr fun f _ => logged_fd fstat f

/-- The names of the enabled entries after a line are among those before. -/
theorem enabled_logged (fstat : FStat) (files : List SpecialLogFile) :
    ((enabled (files.map (logged fstat))).map (·.filename)).Sublist ((enabled files).map (·.filename)) := by
  induction files with
  | nil => exact .refl _
  | cons f files ih =>
    rw [List.map_cons]
    cases hlogged : (logged fstat f).disabled with
    | true =>
      rw [enabled, List.filter_cons_of_neg (by simp [hlogged])]
      refine ih.trans (List.Sublist.map _ ?_)
      exact List.Sublist.filter _ (List.sublist_cons_self f files)
    | false =>
      have hf : f.disabled = false := by
        by_contra h
        have hdisabled := disabled_logged fstat (Bool.eq_true_of_not_eq_false h)
        rw [hlogged] at hdisabled
        cases hdisabled
      rw [enabled, enabled, List.filter_cons_of_pos (by simp [hlogged]), List.filter_cons_of_pos (by simp [hf]),
        List.map_cons, List.map_cons, logged_filename]
      exact ih.cons_cons _

theorem handles_append (files files' : List SpecialLogFile) :
    handles (files ++ files') = handles files ++ handles files' := List.filterMap_append

theorem mem_handles {files : List SpecialLogFile} {fd : Nat} :
    fd ∈ handles files ↔ ∃ f ∈ files, f.fd = some fd := List.mem_filterMap

/-- Which of the entries stay does not change what descriptors there are. -/
theorem handles_split (files : List SpecialLogFile) (p : SpecialLogFile → Bool) :
    (handles (files.filter p) ++ handles (files.filter (!p ·))).Perm (handles files) := by
  rw [← handles_append]
  exact (List.filter_append_perm p files).filterMap _

/-! ## The invariant -/

/-- The descriptors that are open are those of the entries and of `others`, each once. -/
structure Holds (s : State) (others : List Nat) : Prop where
  logInit : s.log.logInit = true
  safe : Safe s.accesses
  held : ∀ fd, live s.accesses fd ↔ fd ∈ handles s.files ++ others
  nodup : (handles s.files ++ others).Nodup
  fresh : ∀ fd, .new fd ∈ s.accesses → fd < s.opened
  handle : ∀ f ∈ s.files, f.disabled = false → f.fd.isSome = true
  names : ((enabled s.files).map (·.filename)).Nodup

theorem enabled_live {s : State} {others : List Nat} (h : Holds s others) :
    ∀ fd ∈ handles (enabled s.files), live s.accesses fd := by
  intro fd hfd
  obtain ⟨f, hf, hfd⟩ := mem_handles.mp hfd
  refine (h.held fd).mpr (List.mem_append_left _ (mem_handles.mpr ⟨f, ?_, hfd⟩))
  exact List.mem_of_mem_filter hf

theorem holds_logLine {s : State} {others : List Nat} (h : Holds s others) (fstat : FStat) :
    Holds (logLine fstat s) others := by
  unfold logLine
  split
  · refine ⟨h.logInit, h.safe.useAll (enabled_live h), fun fd => ?_, ?_, fun fd hfd => ?_, ?_, ?_⟩
    · rw [live_useAll, handles_logged]
      exact h.held fd
    · rw [handles_logged]
      exact h.nodup
    · exact h.fresh fd (by simpa using hfd)
    · intro f hf hdisabled
      obtain ⟨g, hg, rfl⟩ := List.mem_map.mp hf
      rw [logged_fd]
      refine h.handle g hg ?_
      by_contra henabled
      rw [disabled_logged fstat (Bool.eq_true_of_not_eq_false henabled)] at hdisabled
      cases hdisabled
    · exact h.names.sublist (enabled_logged fstat s.files)
  · exact h

/-- After the clean-up all entries are enabled, none of them has the name. -/
theorem holds_cleanUp {s : State} (h : Holds s []) (filename : Bytes) :
    Holds (cleanUp filename s) [] ∧ filename ∉ (enabled (cleanUp filename s).files).map (·.filename) := by
  have hnodup := h.nodup
  rw [List.append_nil] at hnodup
  have hperm := handles_split s.files (stays filename)
  have hboth := hperm.nodup_iff.mpr hnodup
  have hheld : ∀ fd, live s.accesses fd ↔
      fd ∈ handles (s.files.filter (stays filename)) ∨ fd ∈ handles (s.files.filter (!stays filename ·)) := by
    intro fd
    rw [h.held, List.append_nil, ← hperm.mem_iff, List.mem_append]
  constructor
  · refine ⟨h.logInit, ?_, fun fd => ?_, ?_, fun fd hfd => ?_, ?_, ?_⟩
    · exact h.safe.deleteAll (fun fd hfd => (hheld fd).mpr (.inr hfd)) (List.nodup_append.mp hboth).2.1
    · simp only [cleanUp, live_deleteAll, hheld, List.append_nil]
      constructor
      · rintro ⟨hstays | hgoes, hnot⟩
        · exact hstays
        · exact absurd hgoes hnot
      · intro hstays
        refine ⟨.inl hstays, fun hgoes => ?_⟩
        exact (List.nodup_append.mp hboth).2.2 fd hstays fd hgoes rfl
    · rw [List.append_nil]
      exact (List.nodup_append.mp hboth).1
    · exact h.fresh fd (by simpa [cleanUp] using hfd)
    · exact fun f hf => h.handle f (List.mem_of_mem_filter hf)
    · refine h.names.sublist (List.Sublist.map _ (List.Sublist.filter _ ?_))
      exact List.filter_sublist
  · intro hmem
    obtain ⟨f, hf, hname⟩ := List.mem_map.mp hmem
    have hstays := (List.mem_filter.mp (List.mem_of_mem_filter hf)).2
    simp [stays, hname] at hstays

theorem logLine_names (fstat : FStat) (s : State) :
    ((enabled (logLine fstat s).files).map (·.filename)).Sublist ((enabled s.files).map (·.filename)) := by
  unfold logLine
  split
  · exact enabled_logged fstat s.files
  · exact .refl _

/-- A descriptor that is just opened belongs to no entry yet. -/
theorem holds_open {s : State} (h : Holds s []) :
    Holds { s with opened := s.opened + 1, accesses := s.accesses ++ [.new s.opened] } [s.opened] := by
  have hnew : .new s.opened ∉ s.accesses := fun hmem => Nat.lt_irrefl _ (h.fresh _ hmem)
  have hnot : s.opened ∉ handles s.files := by
    intro hmem
    exact hnew ((h.held s.opened).mpr (List.mem_append_left [] hmem)).1
  have hnodup := h.nodup
  rw [List.append_nil] at hnodup
  refine ⟨h.logInit, h.safe.append hnew, fun fd => ?_, ?_, fun fd hfd => ?_, h.handle, h.names⟩
  · have hheld := h.held fd
    rw [List.append_nil] at hheld
    rw [List.mem_append, List.mem_singleton, ← hheld]
    constructor
    · intro hlive
      by_cases hfd : fd = s.opened
      · exact .inr hfd
      · refine .inl ⟨?_, fun hd => hlive.2 (List.mem_append_left _ hd)⟩
        simpa [hfd] using hlive.1
    · rintro (hlive | rfl)
      · exact live_append_new hlive
      · exact h.safe.live_new hnew
  · refine List.nodup_append.mpr ⟨hnodup, List.nodup_singleton _, ?_⟩
    rintro a ha b hb rfl
    exact hnot (List.mem_singleton.mp hb ▸ ha)
  · rw [List.mem_append, List.mem_singleton] at hfd
    rcases hfd with hold | hnow
    · exact Nat.lt_succ_of_lt (h.fresh fd hold)
    · cases hnow
      exact Nat.lt_succ_self _

/-- It becomes that of a new entry, unless another enabled one has the name. -/
theorem holds_push {s : State} {fd : Nat} (h : Holds s [fd]) (max : UInt32) {filename : Bytes}
    (hname : filename ∉ (enabled s.files).map (·.filename)) :
    Holds { s with files := s.files ++ [⟨max, some fd, filename, false⟩] } [] := by
  have hhandles : handles (s.files ++ [⟨max, some fd, filename, false⟩]) ++ [] = handles s.files ++ [fd] := by
    rw [List.append_nil, handles_append]
    rfl
  refine ⟨h.logInit, h.safe, fun a => ?_, ?_, h.fresh, ?_, ?_⟩
  · rw [hhandles]
    exact h.held a
  · rw [hhandles]
    exact h.nodup
  · intro f hf hdisabled
    rcases List.mem_append.mp hf with hf | hf
    · exact h.handle f hf hdisabled
    · rw [List.mem_singleton.mp hf]
      rfl
  · rw [enabled, List.filter_append, List.map_append]
    refine List.nodup_append.mpr ⟨h.names, List.nodup_singleton _, ?_⟩
    rintro a ha b hb rfl
    cases List.mem_singleton.mp hb
    exact hname ha

/-- Or it is closed again. -/
theorem holds_close {s : State} {fd : Nat} (h : Holds s [fd]) :
    Holds { s with accesses := s.accesses ++ [.delete fd] } [] := by
  have hlive : live s.accesses fd := (h.held fd).mpr (List.mem_append_right _ List.mem_cons_self)
  have hnodup := List.nodup_append.mp h.nodup
  refine ⟨h.logInit, h.safe.append hlive, fun a => ?_, ?_, fun a ha => ?_, h.handle, h.names⟩
  · have hdelete : live (s.accesses ++ [fd].map .delete) a ↔ live s.accesses a ∧ a ∉ [fd] := live_deleteAll
    rw [List.map_singleton] at hdelete
    rw [hdelete, h.held, List.append_nil, List.mem_append]
    constructor
    · rintro ⟨hfiles | hother, hnot⟩
      · exact hfiles
      · exact absurd hother hnot
    · exact fun hfiles => ⟨.inl hfiles, fun hother => hnodup.2.2 a hfiles a hother rfl⟩
  · rw [List.append_nil]
    exact hnodup.1
  · exact h.fresh a (by simpa using ha)

theorem holds_start {s : State} (h : Holds s []) (env : StartEnv) (logName : Option Bytes) (max : UInt32) :
    Holds (startSpecialLog env logName max s) [] := by
  unfold startSpecialLog
  cases logName with
  | none => exact h
  | some logName =>
    simp only [h.logInit]
    obtain ⟨hclean, hname⟩ := holds_cleanUp h (specialLogFilename s.log logName)
    generalize cleanUp (specialLogFilename s.log logName) s = t at hclean hname ⊢
    have hopen := holds_logLine (holds_open hclean) env.fstat
    have hfirst := logLine_names env.fstat
      { t with opened := t.opened + 1, accesses := t.accesses ++ [.new t.opened] }
    cases env.openFile with
    | false => exact holds_logLine hclean env.fstat
    | true =>
      cases env.malloc with
      | true => exact holds_push hopen max fun hmem => hname (hfirst.subset hmem)
      | false => exact holds_close (holds_logLine hopen env.fstatFailed)

theorem holds_stop {s : State} (h : Holds s []) (hstop : ∀ f ∈ s.files, f.disabled = true → f.fd = none) :
    Holds (stopSpecialLogs s) [] := by
  have hnodup := h.nodup
  rw [List.append_nil] at hnodup
  have hall : ∀ fd, fd ∈ handles s.files → fd ∈ handles (enabled s.files) := by
    intro fd hfd
    obtain ⟨f, hf, hfd⟩ := mem_handles.mp hfd
    refine mem_handles.mpr ⟨f, List.mem_filter.mpr ⟨hf, ?_⟩, hfd⟩
    by_contra hdisabled
    rw [hstop f hf (by simpa using hdisabled)] at hfd
    cases hfd
  have hsub : (handles (enabled s.files)).Sublist (handles s.files) :=
    List.Sublist.filterMap _ List.filter_sublist
  have hstopped : stopSpecialLogs s =
      { s with files := [], accesses := s.accesses ++ (handles (enabled s.files)).map .delete } := by
    rw [stopSpecialLogs, h.logInit]
    rfl
  rw [hstopped]
  refine ⟨h.logInit, h.safe.deleteAll (enabled_live h) (hnodup.sublist hsub), fun fd => ?_, ?_,
    fun fd hfd => ?_, ?_, ?_⟩
  · simp only [live_deleteAll, h.held, List.append_nil]
    constructor
    · exact fun hfd => absurd (hall fd hfd.1) hfd.2
    · exact fun hfd => nomatch hfd
  · exact List.nodup_nil
  · exact h.fresh fd (by simpa using hfd)
  · exact fun f hf => nomatch hf
  · exact List.nodup_nil

theorem holds_inductive : (specialLogs.guard StopClosesAll).Inductive fun s => Holds s [] where
  init s hs := by
    obtain ⟨processName, root, hlog⟩ := hs.log
    have hhandles : handles s.files = [] := by
      rw [hs.files]
      rfl
    refine ⟨?_, ?_, fun fd => ?_, ?_, fun fd hfd => ?_, fun f hf hdisabled => ?_, ?_⟩
    · rw [hlog]
      rfl
    · rw [hs.accesses]
      exact each_nil _
    · rw [hs.accesses, hhandles]
      simp [live]
    · rw [hhandles]
      exact List.nodup_nil
    · rw [hs.accesses] at hfd
      cases hfd
    · rw [hs.files] at hf
      rw [List.mem_singleton.mp hf] at hdisabled
      cases hdisabled
    · rw [hs.files]
      exact List.nodup_nil
  step s op s' h hstep := by
    obtain ⟨hguard, hstep⟩ := hstep
    cases hstep
    cases op with
    | start env logName max => exact holds_start h env logName max
    | log fstat => exact holds_logLine h fstat
    | stop => exact holds_stop h hguard
    | setWriteToFile write => exact ⟨h.logInit, h.safe, h.held, h.nodup, h.fresh, h.handle, h.names⟩

/-- In every run in which `UTL_LOGStopSpecialLogs` is only called when no disabled entry
has a descriptor: a descriptor is used while it is open; one that no entry has
any more has been closed, once; every enabled entry has an open one; and no two
enabled entries have one name. -/
theorem descriptors_kept (s₀ s : State) (ops : List Op) (hinit : Initial s₀)
    (hrun : (specialLogs.guard StopClosesAll).Run s₀ ops s) :
    Safe s.accesses ∧
    (∀ fd, .new fd ∈ s.accesses → (∀ f ∈ s.files, f.fd ≠ some fd) → s.accesses.count (.delete fd) = 1) ∧
    (∀ fd, s.accesses.count (.delete fd) ≤ 1) ∧
    (∀ f ∈ s.files, f.disabled = false → ∃ fd, f.fd = some fd ∧ live s.accesses fd) ∧
    ∀ filename, (s.files.filter fun f => !f.disabled && f.filename == filename).length ≤ 1 := by
  have h : Holds s [] := holds_inductive.run hrun (holds_inductive.init s₀ hinit)
  refine ⟨h.safe, fun fd hnew hnone => ?_, fun fd => h.safe.count_delete_le fd, fun f hf henabled => ?_,
    fun filename => ?_⟩
  · have hdelete : .delete fd ∈ s.accesses := by
      by_contra hnot
      have hmem := (h.held fd).mp ⟨hnew, hnot⟩
      rw [List.append_nil] at hmem
      obtain ⟨f, hf, hfd⟩ := mem_handles.mp hmem
      exact hnone f hf hfd
    have hone := h.safe.count_delete_le fd
    have hpos := List.count_pos_iff.mpr hdelete
    omega
  · obtain ⟨fd, hfd⟩ := Option.isSome_iff_exists.mp (h.handle f hf henabled)
    exact ⟨fd, hfd, (h.held fd).mpr (List.mem_append_left _ (mem_handles.mpr ⟨f, hf, hfd⟩))⟩
  · have hcount := List.nodup_iff_count_le_one.mp h.names filename
    rw [List.count_eq_countP, List.countP_map, enabled, List.countP_filter, List.countP_eq_length_filter] at hcount
    refine Nat.le_trans (Nat.le_of_eq ?_) hcount
    congr 2
    funext f
    exact Bool.and_comm _ _

def exampleState : State where
  log := Log.init (some (str "tmate")) (some (str "/var/log")) Log.initialLog
  writeToFile := true
  files := [initEntry]
  opened := 0
  accesses := []

theorem exampleState_initial : Initial exampleState :=
  ⟨⟨some (str "tmate"), some (str "/var/log"), rfl⟩, rfl, rfl, rfl⟩

/-- Starts a log of at most 4096 bytes, empty at first. -/
def startExample : Op := .start ⟨true, true, fun _ => some 0, fun _ => some 0⟩ (some (str "http")) 4096

theorem descriptor_kept_until_stop :
    ∃ s, (specialLogs.guard StopClosesAll).Run exampleState [startExample, .stop] s ∧
      s.accesses.count (.delete 0) = 1 := by
  have hstop : StopClosesAll (step exampleState startExample) .stop := by
    show ∀ f ∈ (step exampleState startExample).files, f.disabled = true → f.fd = none
    decide
  have hrun : (specialLogs.guard StopClosesAll).Run exampleState [startExample, .stop]
      (step (step exampleState startExample) .stop) :=
    .cons ⟨trivial, rfl⟩ (.cons ⟨hstop, rfl⟩ (.nil _))
  exact ⟨_, hrun, (descriptors_kept exampleState _ _ exampleState_initial hrun).2.1 0 (by decide) (by decide)⟩

/-- The log is full, the next line disables it, and it is stopped: the entry is freed
and its descriptor is still open. -/
theorem descriptor_leaked :
    ¬ ∀ s₀ s ops, Initial s₀ → specialLogs.Run s₀ ops s → ∀ fd, .new fd ∈ s.accesses →
      (∀ f ∈ s.files, f.fd ≠ some fd) → s.accesses.count (.delete fd) = 1 := by
  intro h
  have hrun : specialLogs.Run exampleState [startExample, .log fun _ => some 4096, .stop]
      (step (step (step exampleState startExample) (.log fun _ => some 4096)) .stop) :=
    .cons rfl (.cons rfl (.cons rfl (.nil _)))
  have hclosed := h exampleState _ _ exampleState_initial hrun 0 (by decide) (by decide)
  exact absurd hclosed (by decide)

end TmatePlugin.L1.SpecialLogs
