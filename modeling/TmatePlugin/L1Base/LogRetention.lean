import TmatePlugin.L1Base.LogRotation
import TmatePlugin.Lib.Retention

/-!
# Retention of the log files

After a rotation `UTL_log_redirect` sorts the names of the log files and deletes
all behind the `utl_maxNumFiles`-th. The names hold the local time at which the
files were opened, and the clock can be set back: then a name says less than the
order in which the files were created.

A `Directory` lists its entries in the order of their creation. `Retains` says
what the rule is for: no more than `utl_maxNumFiles` files are left, the oldest
ones have been deleted, and the file that is open is not among them.
`retention_iff` says exactly when a rotation does so.
-/
namespace TmatePlugin.L1.Log

open CString

/-- The entries of a directory in the order of their creation. -/
structure Directory where
  entries : List Dirent
  nodup : (entries.map (·.filename)).Nodup

/-- `open` with `O_CREAT`: an entry of that name is opened, else one is created. -/
def Directory.create (d : Directory) (filename : Bytes) : Directory :=
  if h : filename ∈ d.entries.map (·.filename) then d
  else
    { entries := d.entries ++ [⟨filename, .file⟩]
      nodup := by
        rw [List.map_append]
        refine List.nodup_append.mpr ⟨d.nodup, List.nodup_singleton _, ?_⟩
        intro x hx y hy heq
        have hy' : y = filename := List.mem_singleton.mp hy
        exact h (hy' ▸ heq ▸ hx) }

/-- The directory after the entries with some names have been deleted. -/
def Directory.delete (d : Directory) (p : Bytes → Bool) : Directory where
  entries := d.entries.filter fun e => !p e.filename
  nodup := d.nodup.sublist (List.filter_sublist.map _)

/-- The names of the log files, in the order of their creation. -/
def logFiles (s : LogState) (d : Directory) : List Bytes :=
  (d.entries.filter (isLogFile s)).map (·.filename)

/-- The log directory after the rotation has called `UTLFile_Open`. -/
def openedIn (env : RotationEnv) (s : LogState) (t : CalendarTime) (d : Directory) : Directory :=
  if env.openFile.isSome then d.create (logFilename s t) else d

/-- The log directory after the rotation, when every deletion succeeds. -/
def purgedIn (env : RotationEnv) (s : LogState) (t : CalendarTime) (d : Directory) (r : Rotation) :
    Directory :=
  (openedIn env s t d).delete fun filename => r.deleted.contains (fullPath s filename)

/-- What retention is for. -/
structure Retains (env : RotationEnv) (s : LogState) (t : CalendarTime) (d : Directory)
    (r : Rotation) : Prop where
  atMost : (logFiles s (purgedIn env s t d r)).length ≤ s.maxNumFiles
  oldest : ∀ path, path ∈ r.deleted ↔
    path ∈ (Retention.oldest s.maxNumFiles (logFiles s (openedIn env s t d))).map (fullPath s)
  current : env.openFile.isSome → r.filename ∉ r.deleted

/-- The names put the files that are to be deleted below those that are to be
kept, and the file just opened is one of the latter. -/
def NamesInOrder (s : LogState) (t : CalendarTime) (files : List Bytes) : Prop :=
  (∀ old ∈ Retention.oldest s.maxNumFiles files, ∀ new ∈ Retention.newest s.maxNumFiles files,
    old < new) ∧ logFilename s t ∉ Retention.oldest s.maxNumFiles files

/-! ## Paths -/

theorem fullPath_lt_iff {s : LogState} {x y : Bytes} : fullPath s x < fullPath s y ↔ x < y := by
  unfold fullPath
  generalize logPath s ++ str "/" = dir
  induction dir with
  | nil => rfl
  | cons c dir ih => rw [List.cons_append, List.cons_append, List.cons_lt_cons_self, ih]

theorem fullPath_injective (s : LogState) : Function.Injective (fullPath s) := fun _ _ h =>
  List.append_cancel_left h

theorem logFiles_nodup (s : LogState) (d : Directory) : (logFiles s d).Nodup :=
  d.nodup.sublist (List.filter_sublist.map _)

/-! ## The scan and the deletions -/

theorem scanEntry_buffer (s : LogState) (stat : Bytes → Option Nat) (scan : Scan) (e : Dirent) :
    (scanEntry s stat scan e).buffer =
      scan.buffer ++ if isLogFile s e then [fullPath s e.filename] else [] := by
  simp only [scanEntry]
  split
  · split
    · rfl
    · split
      · rfl
      · rfl
  · exact (List.append_nil _).symm

/-- The scan collects the paths of the log files. -/
theorem scan_buffer (s : LogState) (stat : Bytes → Option Nat) (entries : List Dirent) (scan : Scan) :
    (entries.foldl (scanEntry s stat) scan).buffer =
      scan.buffer ++ ((entries.filter (isLogFile s)).map (·.filename)).map (fullPath s) := by
  induction entries generalizing scan with
  | nil => exact (List.append_nil _).symm
  | cons e entries ih =>
    rw [List.foldl_cons, ih, scanEntry_buffer, List.append_assoc]
    by_cases he : isLogFile s e = true
    · simp [he]
    · simp [he]

/-- Once `UTL_LOGSetMax` has set a limit, the deletions go on to the end. -/
theorem deleteFrom_setmax {s : LogState} (hset : s.setmax = true) (tooMuch : Bool)
    (buffer : List Bytes) {n : Nat} (hn : n ≤ buffer.length) :
    deleteFrom s tooMuch buffer n = ((buffer.take n).drop s.maxNumFiles).reverse := by
  induction n with
  | zero => simp [deleteFrom]
  | succ i ih =>
    have htake : buffer.take (i + 1) = buffer.take i ++ [buffer.getD i []] := by
      rw [List.take_add_one, List.getD_eq_getElem?_getD, List.getElem?_eq_getElem (by omega)]
      rfl
    have hlength : (buffer.take i).length = i := by
      rw [List.length_take]
      omega
    rw [deleteFrom, hset, htake]
    split
    · rename_i hlt
      rw [List.drop_eq_nil_of_le, List.reverse_nil]
      rw [List.length_append, hlength, List.length_singleton]
      omega
    · rename_i hge
      rw [List.drop_append_of_le_length (by omega), List.reverse_append, Bool.true_or, if_pos rfl,
        ih (by omega)]
      rfl

/-- Whether the rotation gets to delete files. -/
def purges (env : RotationEnv) : Bool :=
  env.openFile.isSome && env.fstatOpened.isSome && env.readdir.isSome

/-- What a rotation deletes: the surplus of the directory in the order of the
names, or nothing. -/
theorem mem_deleted_iff {env : RotationEnv} {s : LogState} {t : CalendarTime} {d : Directory}
    (hset : s.setmax = true)
    (hread : ∀ entries, env.readdir = some entries → entries.Perm (openedIn env s t d).entries)
    (path : Bytes) :
    path ∈ (rotate env s t).2.deleted ↔ purges env = true ∧
      path ∈ Retention.surplus s.maxNumFiles
        ((logFiles s (openedIn env s t d)).map (fullPath s)) := by
  show path ∈ purge env (switchFile env s t) ↔ _
  unfold purge purges
  have hfd : (switchFile env s t).logProcessFd = env.openFile := rfl
  rw [hfd]
  cases hopen : env.openFile.isSome with
  | false => simp
  | true =>
    cases hstat : env.fstatOpened.isSome with
    | false => simp
    | true =>
      cases hdir : env.readdir with
      | none => simp
      | some entries =>
        have hperm := ((hread entries hdir).filter (isLogFile s)).map (·.filename)
        have hpaths := hperm.map (fullPath s)
        -- the state after the switch has the same directory and the same limits
        have hset' : (switchFile env s t).setmax = true := hset
        simp only [Bool.and_self, if_true, Option.isSome_some, true_and]
        rw [deleteFrom_setmax hset' _ _ (Nat.le_refl _), List.take_length, List.mem_reverse,
          scan_buffer, List.nil_append]
        exact Iff.of_eq (congrArg (path ∈ ·) (Retention.surplus_perm hpaths))

/-- The files left are those that the rotation has not deleted. -/
theorem logFiles_purgedIn (env : RotationEnv) (s : LogState) (t : CalendarTime) (d : Directory)
    (r : Rotation) :
    logFiles s (purgedIn env s t d r) =
      (logFiles s (openedIn env s t d)).filter fun f => !r.deleted.contains (fullPath s f) := by
  unfold logFiles purgedIn Directory.delete
  rw [List.filter_filter, List.filter_map, List.filter_filter]
  simp only [Function.comp_def, Bool.and_comm]

/-! ## Exactness -/

section
variable {env : RotationEnv} {s : LogState} {t : CalendarTime} {d : Directory} {r : Rotation}

theorem mem_map_fullPath_iff {s : LogState} {f : Bytes} {files : List Bytes} :
    fullPath s f ∈ files.map (fullPath s) ↔ f ∈ files :=
  List.mem_map_of_injective (fullPath_injective s)

/-- When the oldest files have been deleted, no more than the limit are left. -/
theorem atMost_of_oldest
    (hold : ∀ path, path ∈ r.deleted ↔
      path ∈ (Retention.oldest s.maxNumFiles (logFiles s (openedIn env s t d))).map (fullPath s)) :
    (logFiles s (purgedIn env s t d r)).length ≤ s.maxNumFiles := by
  have hkept : ∀ f, (!r.deleted.contains (fullPath s f)) = true ↔
      f ∉ Retention.oldest s.maxNumFiles (logFiles s (openedIn env s t d)) := by
    intro f
    rw [Bool.not_eq_true', ← Bool.not_eq_true, List.contains_iff_mem, hold, mem_map_fullPath_iff]
  rw [logFiles_purgedIn, Retention.filter_eq_newest (logFiles_nodup s _) hkept]
  exact Retention.length_newest_le _ _

/-- The order of the paths is the order of the names. -/
theorem surplus_paths_iff {files : List Bytes} (hfiles : files.Nodup) (k : Nat) :
    (∀ path, path ∈ Retention.surplus k (files.map (fullPath s)) ↔
      path ∈ (Retention.oldest k files).map (fullPath s)) ↔
    ∀ old ∈ Retention.oldest k files, ∀ new ∈ Retention.newest k files, old < new := by
  have hpaths := (List.nodup_map_iff (fullPath_injective s)).mpr hfiles
  rw [← Retention.oldest_map, Retention.surplus_exact_iff hpaths, Retention.oldest_map,
    Retention.newest_map]
  simp only [List.mem_map, forall_exists_index, and_imp, forall_apply_eq_imp_iff₂, fullPath_lt_iff]

end

/-- A rotation after `UTL_LOGSetMax` with a limit deletes exactly the oldest files
beyond `utl_maxNumFiles`, and not the one it has just opened, if and only if
there are no such files, or the new file and the directory can be read and the
names are in the order of creation. -/
theorem retention_iff (env : RotationEnv) (s s' : LogState) (t : CalendarTime) (d : Directory)
    (r : Rotation) (hset : s.setmax = true) (hrotated : redirect env s t = (s', some r))
    (hread : ∀ entries, env.readdir = some entries → entries.Perm (openedIn env s t d).entries) :
    Retains env s t d r ↔
      (logFiles s (openedIn env s t d)).length ≤ s.maxNumFiles ∨
        purges env = true ∧ NamesInOrder s t (logFiles s (openedIn env s t d)) := by
  have hr : r = (rotate env s t).2 := by rw [redirect_eq_some hrotated]
  have hname : r.filename = fullPath s (logFilename s t) := by rw [hr]; rfl
  have hdeleted := mem_deleted_iff (t := t) (d := d) hset hread
  rw [← hr] at hdeleted
  have hexact := surplus_paths_iff (s := s) (logFiles_nodup s (openedIn env s t d)) s.maxNumFiles
  constructor
  · intro h
    by_cases hfew : (logFiles s (openedIn env s t d)).length ≤ s.maxNumFiles
    · exact .inl hfew
    · -- something is to be deleted, so the scan takes place
      have hsome := mt Retention.oldest_eq_nil_iff.mp hfew
      obtain ⟨f, hf⟩ := List.exists_mem_of_ne_nil _ hsome
      have hpurges : purges env = true :=
        ((hdeleted _).mp ((h.oldest _).mpr (mem_map_fullPath_iff.mpr hf))).1
      refine .inr ⟨hpurges, hexact.mp fun path => ?_, fun hcurrent => ?_⟩
      · rw [← h.oldest, hdeleted]
        exact (and_iff_right hpurges).symm
      · have hopen : env.openFile.isSome = true := by
          simp only [purges, Bool.and_eq_true] at hpurges
          exact hpurges.1.1
        apply h.current hopen
        rw [hname, h.oldest]
        exact mem_map_fullPath_iff.mpr hcurrent
  · intro h
    have hold : ∀ path, path ∈ r.deleted ↔
        path ∈ (Retention.oldest s.maxNumFiles (logFiles s (openedIn env s t d))).map (fullPath s) := by
      intro path
      rw [hdeleted]
      rcases h with hfew | ⟨hpurges, horder, -⟩
      · have hnone : Retention.surplus s.maxNumFiles
            ((logFiles s (openedIn env s t d)).map (fullPath s)) = [] := by
          rw [← List.length_eq_zero_iff, Retention.surplus_length, List.length_map]
          omega
        rw [hnone, Retention.oldest_eq_nil_iff.mpr hfew]
        simp
      · rw [← hexact.mpr horder path]
        exact and_iff_right hpurges
    refine ⟨atMost_of_oldest hold, hold, fun _ hcurrent => ?_⟩
    rw [hname, hold, mem_map_fullPath_iff] at hcurrent
    rcases h with hfew | ⟨-, -, hkept⟩
    · rw [Retention.oldest_eq_nil_iff.mpr hfew] at hcurrent
      cases hcurrent
    · exact hkept hcurrent

/-- A log in `/l/logs/p` with the smallest limit, which is five files. -/
def exampleLog : LogState := setMax 1 (init (some (str "p")) (some (str "/l")) initialLog)

/-- Five log files of 2 January. -/
def exampleDirectory : Directory where
  entries := [0, 1, 2, 3, 4].map fun sec => ⟨logFilename exampleLog (exampleTime 1 sec), .file⟩
  nodup := by decide

/-- Every call succeeds; the directory is read in the order of creation. -/
def exampleEnv (t : CalendarTime) : RotationEnv where
  fstat := none
  fstatLocked := none
  openFile := some 3
  fstatOpened := some 0
  readdir := some (exampleDirectory.create (logFilename exampleLog t)).entries
  stat := fun _ => some 1000

/-- On 3 January the oldest file is deleted. -/
theorem retention_next_day : ∃ s' r,
    redirect (exampleEnv (exampleTime 2 0)) exampleLog (exampleTime 2 0) = (s', some r) ∧
    Retains (exampleEnv (exampleTime 2 0)) exampleLog (exampleTime 2 0) exampleDirectory r := by
  refine ⟨_, _, rfl, (retention_iff _ _ _ _ _ _ rfl rfl ?_).mpr (.inr ⟨rfl, ?_⟩)⟩
  · intro entries h
    cases h
    exact .refl _
  · unfold NamesInOrder
    decide

/-- The clock has been set back to 1 January: the file just opened is deleted. -/
theorem current_file_deleted :
    ¬ ∀ env s s' t d r, s.setmax = true → redirect env s t = (s', some r) →
      (∀ entries, env.readdir = some entries → entries.Perm (openedIn env s t d).entries) →
      Retains env s t d r := by
  intro h
  have hretains := h (exampleEnv (exampleTime 0 0)) exampleLog _ (exampleTime 0 0) exampleDirectory _
    rfl rfl (by intro entries h; cases h; exact .refl _)
  exact hretains.current rfl (by decide)

end TmatePlugin.L1.Log
