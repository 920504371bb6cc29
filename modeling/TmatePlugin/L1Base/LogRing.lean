import TmatePlugin.L1Base.LogRotation
import TmatePlugin.Lib.Buffer
import TmatePlugin.Lib.CInt
import TmatePlugin.Lib.Loop
import TmatePlugin.Lib.Ring

/-!
# Logging to memory

With in-memory logging, `UTL_log_vprint` writes its lines to a ring behind a
header in shared memory, and `UTL_logFlushInMemoryLogsHelper` writes the ring to
the log file. Offsets count from the header.

An access outside the part behind the header is a fault. `logSize` is an `int`
that grows with every line; when it overflows it wraps around. The lines that
`UTL_log_redirect` writes during a flush are left out (`LogRotation`).

* `toFile_holds`: a line that is not longer than the ring is appended to what the
  ring holds (`Ring.Holds`).
* `ring_keeps_newest`: after any lines, a flush writes the newest bytes of them
  and resets the ring.
-/
namespace TmatePlugin.L1.LogRing

open CString CInt Outcome
open TmatePlugin.L1.Log

def UTL_LOG_SHM_OBJECT_SIZE : Nat := 512 * 1024
def UTL_LOG_SHM_MAGIC_SIZE : Nat := 16

/-- `sizeof(UTL_LOGShmHeader)`: `version`, `magic`, `readOff`, `writeOff`, `wrapped` with
its padding, `logSize`, `reserve`. -/
def SHM_HEADER_SIZE : Nat := 4 + UTL_LOG_SHM_MAGIC_SIZE + 4 + 4 + 4 + 4 + 128

/-- The bytes behind the header. -/
def SHM_DATA_SIZE : Nat := UTL_LOG_SHM_OBJECT_SIZE - SHM_HEADER_SIZE

def shmMagic : Bytes :=
  [0x0a, 0x0a, 0x9a, 0xfd, 0xd0, 0xa4, 0x76, 0xec, 0xaa, 0xb3, 0x6a, 0x2d, 0x9a, 0xba, 0x67, 0x26]

/-- The shared memory; `data` are the bytes behind the header.
mirrors Util/src/Utl_Log.cpp:20-28 -/
structure Shm where
  magic : Bytes
  readOff : Int
  writeOff : Int
  wrapped : Bool
  logSize : Int
  data : Bytes

structure RingLog where
  log : LogState
  writeToFile : Bool
  shm : Shm

/-- `n` bytes at the offset `off`. -/
def loadShm (data : Bytes) (off n : Int) : Outcome Bytes :=
  if SHM_HEADER_SIZE ≤ off ∧ 0 ≤ n then
    Buffer.load data (off - SHM_HEADER_SIZE).toNat n.toNat
  else fault

def storeShm (data : Bytes) (off : Int) (bytes : Bytes) : Outcome Bytes :=
  if SHM_HEADER_SIZE ≤ off then Buffer.store data (off - SHM_HEADER_SIZE).toNat bytes else fault

/-! ## Lines -/

/-- mirrors Util/src/Utl_Log.cpp:289-319 -/
def writeRing (shm : Shm) (line : Bytes) : Outcome Shm :=
  let pos := line.length
  if pos ≤ UTL_LOG_SHM_OBJECT_SIZE - SHM_HEADER_SIZE then
    let logSize := wrapInt (shm.logSize + pos)
    let nBytesToEnd := UTL_LOG_SHM_OBJECT_SIZE - shm.writeOff
    if toSize nBytesToEnd ≥ pos then do
      let data ← storeShm shm.data shm.writeOff line
      let writeOff := shm.writeOff + pos
      let readOff := if shm.wrapped then writeOff else shm.readOff
      pure { shm with magic := shmMagic, readOff, writeOff, logSize, data }
    else do
      let data ← storeShm shm.data shm.writeOff (line.take nBytesToEnd.toNat)
      let data ← storeShm data SHM_HEADER_SIZE (line.drop nBytesToEnd.toNat)
      let writeOff := SHM_HEADER_SIZE + pos - nBytesToEnd
      pure { magic := shmMagic, readOff := writeOff, writeOff, wrapped := true, logSize, data }
  else pure { shm with magic := shmMagic }

/-- What is written to the log file: a line, bytes of the ring, or the notice
"%d bytes of logging were dropped here". -/
inductive FileOutput where
  | line (text : Bytes)
  | flushed (bytes : Bytes)
  | dropped (n : Int)
  deriving DecidableEq, Repr

/-- `UTL_log_vprint` from the finished line on, to the log file or the ring.
mirrors Util/src/Utl_Log.cpp:280-322 -/
def toFile (s : RingLog) (line : Bytes) : Outcome (RingLog × List FileOutput) :=
  if s.writeToFile && s.log.logProcessFd.isSome then
    if !s.log.enableInMemoryLogging then pure (s, [.line line])
    else do
      let shm ← writeRing s.shm line
      pure ({ s with shm }, [])
  else pure (s, [])

/-- The lines of one call after the other. -/
def toFileAll : RingLog → List Bytes → Outcome (RingLog × List FileOutput)
  | s, [] => pure (s, [])
  | s, line :: lines => do
    let (s, out) ← toFile s line
    let (s, outs) ← toFileAll s lines
    pure (s, out ++ outs)

/-! ## The flush -/

/-- The local variables of the loop; `round` counts its rounds. -/
structure Flush where
  log : LogState
  readOff : Int
  nBytesToFlush : Int
  round : Nat
  output : List FileOutput

/-- One round of the loop; `envs k` are the answers of the file system and the time
in its round `k`.
mirrors Util/src/Utl_Log.cpp:581-609 -/
def flushRound (envs : Nat → RotationEnv × CalendarTime) (data : Bytes) (f : Flush) :
    Outcome (Flush ⊕ Flush) :=
  if f.nBytesToFlush > 0 then do
    let log := (redirect (envs f.round).1 f.log (envs f.round).2).1
    let nBytesThisRound := min f.nBytesToFlush UTL_LOG_MAX_FILE_SIZE
    let atEnd : Bool := UTL_LOG_SHM_OBJECT_SIZE - f.readOff = 0
    let nBytesToEnd : Int :=
      if atEnd then UTL_LOG_SHM_OBJECT_SIZE - SHM_HEADER_SIZE else UTL_LOG_SHM_OBJECT_SIZE - f.readOff
    let readOff : Int := if atEnd then SHM_HEADER_SIZE else f.readOff
    let nBytesThisRound := if nBytesThisRound > nBytesToEnd then nBytesToEnd else nBytesThisRound
    let output ← if log.logProcessFd.isSome then do
        let bytes ← loadShm data readOff nBytesThisRound
        pure (f.output ++ [.flushed bytes])
      else pure f.output
    pure (.inl { log, readOff := readOff + nBytesThisRound,
                 nBytesToFlush := f.nBytesToFlush - nBytesThisRound,
                 round := f.round + 1, output })
  else pure (.inr f)

/-- `UTL_logFlushInMemoryLogsHelper`; a round flushes at least one byte.
mirrors Util/src/Utl_Log.cpp:550-623 -/
def flush (envs : Nat → RotationEnv × CalendarTime) (s : RingLog) :
    Outcome (RingLog × List FileOutput) :=
  if !s.log.enableInMemoryLogging then pure (s, [])
  else do
    let log := { s.log with enableInMemoryLogging := false }
    let nBytesToFlush : Int :=
      if s.shm.wrapped then UTL_LOG_SHM_OBJECT_SIZE - SHM_HEADER_SIZE else s.shm.logSize
    let notices : List FileOutput :=
      if s.shm.wrapped && (s.writeToFile && log.logProcessFd.isSome) then
        [.dropped (wrapInt (s.shm.logSize - (UTL_LOG_SHM_OBJECT_SIZE - SHM_HEADER_SIZE)))]
      else []
    let f ← Loop.run (flushRound envs s.shm.data) (nBytesToFlush.toNat + 1)
      { log, readOff := s.shm.readOff, nBytesToFlush, round := 0, output := notices }
    pure ({ s with
        log := { f.log with enableInMemoryLogging := true }
        shm := { s.shm with magic := shmMagic, readOff := SHM_HEADER_SIZE, writeOff := SHM_HEADER_SIZE,
                            wrapped := false, logSize := 0 } }, f.output)

/-! ## Sizes -/

theorem sizes : UTL_LOG_SHM_OBJECT_SIZE = SHM_HEADER_SIZE + SHM_DATA_SIZE ∧ 0 < SHM_DATA_SIZE ∧
    SHM_DATA_SIZE ≤ UTL_LOG_MAX_FILE_SIZE ∧ UTL_LOG_MAX_FILE_SIZE < 2 ^ 31 := by decide

/-- The bytes behind the header, as the code writes it. -/
theorem data_size : UTL_LOG_SHM_OBJECT_SIZE - SHM_HEADER_SIZE = SHM_DATA_SIZE := rfl

theorem storeShm_eq (data : Bytes) (w : Nat) (bytes : Bytes) :
    storeShm data (SHM_HEADER_SIZE + w) bytes = Buffer.store data w bytes := by
  rw [storeShm, if_pos (by omega)]
  congr 1
  omega

theorem loadShm_eq (data : Bytes) (r n : Nat) :
    loadShm data (SHM_HEADER_SIZE + r) n = Buffer.load data r n := by
  rw [loadShm, if_pos (by omega)]
  congr 1
  omega

/-! ## What the ring holds -/

/-- The ring holds the newest bytes of the history, and the offsets say where. -/
structure Holds (shm : Shm) (history : Bytes) : Prop where
  ring : ∃ w : Nat, shm.writeOff = SHM_HEADER_SIZE + w ∧
    Ring.Holds SHM_DATA_SIZE shm.data w shm.wrapped history
  readOff : shm.readOff = if shm.wrapped then shm.writeOff else SHM_HEADER_SIZE
  logSize : shm.wrapped = false → shm.logSize = history.length

/-- The state that a flush leaves. -/
structure Reset (shm : Shm) : Prop where
  readOff : shm.readOff = SHM_HEADER_SIZE
  writeOff : shm.writeOff = SHM_HEADER_SIZE
  wrapped : shm.wrapped = false
  logSize : shm.logSize = 0
  size : shm.data.length = SHM_DATA_SIZE

/-- The offsets lie in the shared memory, behind the header. -/
structure InRegion (shm : Shm) : Prop where
  readOff : SHM_HEADER_SIZE ≤ shm.readOff ∧ shm.readOff ≤ UTL_LOG_SHM_OBJECT_SIZE
  writeOff : SHM_HEADER_SIZE ≤ shm.writeOff ∧ shm.writeOff ≤ UTL_LOG_SHM_OBJECT_SIZE

theorem Holds.inRegion {shm : Shm} {history : Bytes} (h : Holds shm history) : InRegion shm := by
  obtain ⟨w, hw, hring⟩ := h.ring
  have hsize := sizes.1
  have hposition := hring.position
  have hwrite : SHM_HEADER_SIZE ≤ shm.writeOff ∧ shm.writeOff ≤ UTL_LOG_SHM_OBJECT_SIZE := by omega
  refine ⟨?_, hwrite⟩
  rw [h.readOff]
  split
  · exact hwrite
  · omega

theorem holds_of_reset {shm : Shm} (h : Reset shm) : Holds shm [] where
  ring := ⟨0, by rw [h.writeOff]; omega, by rw [h.wrapped]; exact Ring.holds_empty h.size⟩
  readOff := by rw [h.readOff, h.wrapped]; rfl
  logSize _ := h.logSize

/-- The history of the ring: lines that are longer than it are skipped. -/
def accepted (lines : List Bytes) : Bytes := (lines.filter (·.length ≤ SHM_DATA_SIZE)).flatten

theorem writeRing_skips {shm : Shm} {line : Bytes} (h : ¬ line.length ≤ SHM_DATA_SIZE) :
    writeRing shm line = .ok { shm with magic := shmMagic } := by
  rw [writeRing, data_size, if_neg h]
  rfl

theorem writeRing_holds {shm : Shm} {history line : Bytes} (h : Holds shm history)
    (hline : line.length ≤ SHM_DATA_SIZE) :
    ∃ shm', writeRing shm line = .ok shm' ∧ Holds shm' (history ++ line) := by
  obtain ⟨w, hw, hring⟩ := h.ring
  obtain ⟨hsize, -, hmax, hint⟩ := sizes
  have hposition := hring.position
  have hend : (UTL_LOG_SHM_OBJECT_SIZE : Int) - shm.writeOff = (SHM_DATA_SIZE - w : Nat) := by omega
  have hcast : toSize ((SHM_DATA_SIZE - w : Nat) : Int) = SHM_DATA_SIZE - w :=
    toSize_natCast (by omega)
  rw [writeRing, data_size, if_pos hline]
  simp only [hend, hcast, Int.toNat_natCast]
  by_cases hfit : SHM_DATA_SIZE - w ≥ line.length
  · have hstore : Buffer.store shm.data w line =
        .ok (shm.data.take w ++ line ++ shm.data.drop (w + line.length)) :=
      Buffer.store_eq_ok (by rw [hring.size]; omega)
    rw [if_pos hfit, hw, storeShm_eq, hstore, bind_ok]
    refine ⟨_, rfl, ⟨w + line.length, by simp only; omega, hring.fits (by omega)⟩, ?_, ?_⟩
    · have hread := h.readOff
      cases hwrapped : shm.wrapped with
      | false => simpa [hwrapped] using hread
      | true => rfl
    · intro hwrapped
      have hall := hring.all hwrapped
      simp only [h.logSize hwrapped, List.length_append]
      rw [wrapInt_of_range (by unfold intMin intMax; omega)]
      omega
  · -- the line runs over the end of the memory
    have hsplit := List.take_append_drop (SHM_DATA_SIZE - w) line
    have hfirst : (line.take (SHM_DATA_SIZE - w)).length = SHM_DATA_SIZE - w := by
      rw [List.length_take, Nat.min_eq_left (by omega)]
    have hsecond : (line.drop (SHM_DATA_SIZE - w)).length = line.length - (SHM_DATA_SIZE - w) :=
      List.length_drop
    generalize line.take (SHM_DATA_SIZE - w) = first at hsplit hfirst
    generalize line.drop (SHM_DATA_SIZE - w) = second at hsplit hsecond
    have htake : (shm.data.take w).length = w := by
      rw [List.length_take, hring.size, Nat.min_eq_left hposition]
    have hstore₁ : Buffer.store shm.data w first = .ok (shm.data.take w ++ first) := by
      rw [Buffer.store_eq_ok (by rw [hring.size]; omega), List.drop_eq_nil_of_le (by rw [hring.size]; omega),
        List.append_nil]
    have hstore₂ : Buffer.store (shm.data.take w ++ first) 0 second =
        .ok (second ++ (shm.data.take w).drop second.length ++ first) := by
      rw [Buffer.store_eq_ok (by rw [List.length_append]; omega), List.take_zero, List.nil_append,
        Nat.zero_add, List.drop_append_of_le_length (by omega), List.append_assoc]
    have hzero : storeShm (shm.data.take w ++ first) SHM_HEADER_SIZE second =
        .ok (second ++ (shm.data.take w).drop second.length ++ first) := by
      rw [← hstore₂, ← storeShm_eq]
      simp
    rw [if_neg hfit, hw, storeShm_eq, hstore₁, bind_ok, hzero, bind_ok, ← hsplit]
    refine ⟨_, rfl, ⟨second.length, ?_, hring.wraps (by omega) (by omega)⟩, rfl, ?_⟩
    · simp only [List.length_append]
      omega
    · intro hwrapped
      cases hwrapped

/-- Any lines, with logging to memory: nothing goes to the file. -/
theorem toFileAll_holds {s : RingLog} {history : Bytes} (hmemory : s.log.enableInMemoryLogging = true)
    (hfile : s.writeToFile = true) (hvalid : s.log.logProcessFd.isSome = true)
    (h : Holds s.shm history) (lines : List Bytes) :
    ∃ shm', toFileAll s lines = .ok ({ s with shm := shm' }, []) ∧
      Holds shm' (history ++ accepted lines) := by
  induction lines generalizing s history with
  | nil => exact ⟨s.shm, rfl, by simpa [accepted] using h⟩
  | cons line lines ih =>
    have hwrite : ∃ shm₁, writeRing s.shm line = .ok shm₁ ∧ Holds shm₁ (history ++ accepted [line]) := by
      by_cases hline : line.length ≤ SHM_DATA_SIZE
      · simpa [accepted, hline] using writeRing_holds h hline
      · refine ⟨_, writeRing_skips hline, ?_⟩
        have hskip : accepted [line] = [] := by simp [accepted, hline]
        rw [hskip, List.append_nil]
        exact ⟨h.ring, h.readOff, h.logSize⟩
    obtain ⟨shm₁, hwrite, h₁⟩ := hwrite
    have hline : toFile s line = .ok ({ s with shm := shm₁ }, []) := by
      rw [toFile, hfile, hvalid, hmemory, hwrite]
      rfl
    obtain ⟨shm', hlines, h'⟩ := ih (s := { s with shm := shm₁ }) hmemory hfile hvalid h₁
    refine ⟨shm', ?_, ?_⟩
    · rw [toFileAll, hline, bind_ok]
      simp only [hlines, bind_ok]
      rfl
    · have hall : accepted (line :: lines) = accepted [line] ++ accepted lines := by
        rw [accepted, accepted, accepted, ← List.flatten_append, ← List.filter_append]
        rfl
      rwa [hall, ← List.append_assoc]

/-! ## Flushing it -/

/-- Without the notices. -/
def FileOutput.content : FileOutput → Bytes
  | .line text => text
  | .flushed bytes => bytes
  | .dropped _ => []

def written (output : List FileOutput) : Bytes := output.flatMap (·.content)

/-- What has been written, and what is still to be read, is the window. -/
structure Flushing (data window : Bytes) (f : Flush) : Prop where
  valid : f.log.logProcessFd.isSome = true
  rest : ∃ r n : Nat, f.readOff = SHM_HEADER_SIZE + r ∧ f.nBytesToFlush = n ∧ r ≤ SHM_DATA_SIZE ∧
    n ≤ SHM_DATA_SIZE ∧ written f.output ++ Ring.readFrom data r n = window

/-- A rotation whose open succeeds leaves a valid handle. -/
theorem redirect_valid {env : RotationEnv} {s : LogState} {t : CalendarTime}
    (hs : s.logProcessFd.isSome = true) (hopen : env.openFile.isSome = true) :
    (redirect env s t).1.logProcessFd.isSome = true := by
  cases hr : redirect env s t with
  | mk s' rotation =>
    cases rotation with
    | none => rwa [redirect_eq_none hr]
    | some r =>
      have hlog : s' = switchFile env s t := (congrArg Prod.fst (redirect_eq_some hr)).symm
      rw [hlog]
      exact hopen

/-- A round reads from `r`, or from the first byte when `r` is behind the last one,
up to the end of the memory or of what is left. -/
theorem flushRound_more {envs : Nat → RotationEnv × CalendarTime} {data : Bytes} {f : Flush} {r n : Nat}
    (hdata : data.length = SHM_DATA_SIZE)
    (hvalid : (redirect (envs f.round).1 f.log (envs f.round).2).1.logProcessFd.isSome = true)
    (hr : f.readOff = SHM_HEADER_SIZE + r) (hn : f.nBytesToFlush = n) (hrle : r ≤ SHM_DATA_SIZE)
    (hnle : n ≤ SHM_DATA_SIZE) (hmore : 0 < n) :
    ∃ r₀ k : Nat, r₀ < SHM_DATA_SIZE ∧ k = min n (SHM_DATA_SIZE - r₀) ∧
      Ring.readFrom data r n = Ring.readFrom data r₀ n ∧
      flushRound envs data f = .ok (.inl
        { log := (redirect (envs f.round).1 f.log (envs f.round).2).1
          readOff := SHM_HEADER_SIZE + r₀ + k
          nBytesToFlush := n - k
          round := f.round + 1
          output := f.output ++ [.flushed ((data.drop r₀).take k)] }) := by
  obtain ⟨hsize, hpos, hmax, -⟩ := sizes
  obtain ⟨r₀, hlt, hread, hoff, hend⟩ : ∃ r₀ : Nat, r₀ < SHM_DATA_SIZE ∧
      Ring.readFrom data r n = Ring.readFrom data r₀ n ∧
      (if (UTL_LOG_SHM_OBJECT_SIZE : Int) - f.readOff = 0 then (SHM_HEADER_SIZE : Int) else f.readOff) =
        SHM_HEADER_SIZE + r₀ ∧
      (if (UTL_LOG_SHM_OBJECT_SIZE : Int) - f.readOff = 0 then
          (UTL_LOG_SHM_OBJECT_SIZE : Int) - SHM_HEADER_SIZE
        else UTL_LOG_SHM_OBJECT_SIZE - f.readOff) = (SHM_DATA_SIZE - r₀ : Nat) := by
    by_cases hlast : r = SHM_DATA_SIZE
    · have hzero : (UTL_LOG_SHM_OBJECT_SIZE : Int) - f.readOff = 0 := by omega
      refine ⟨0, hpos, by rw [hlast, ← hdata, Ring.readFrom_end], ?_, ?_⟩
      · rw [if_pos hzero]
        omega
      · rw [if_pos hzero]
        omega
    · have hzero : ¬ (UTL_LOG_SHM_OBJECT_SIZE : Int) - f.readOff = 0 := by omega
      refine ⟨r, by omega, rfl, ?_, ?_⟩
      · rw [if_neg hzero, hr]
      · rw [if_neg hzero]
        omega
  have hround : (if min (n : Int) UTL_LOG_MAX_FILE_SIZE > ((SHM_DATA_SIZE - r₀ : Nat) : Int) then
      ((SHM_DATA_SIZE - r₀ : Nat) : Int) else min (n : Int) UTL_LOG_MAX_FILE_SIZE) =
      (min n (SHM_DATA_SIZE - r₀) : Nat) := by
    split <;> omega
  have hload : loadShm data (SHM_HEADER_SIZE + r₀) (min n (SHM_DATA_SIZE - r₀) : Nat) =
      .ok ((data.drop r₀).take (min n (SHM_DATA_SIZE - r₀))) := by
    rw [loadShm_eq, Buffer.load_eq_ok (by omega)]
  refine ⟨r₀, _, hlt, rfl, hread, ?_⟩
  rw [flushRound, if_pos (by omega)]
  simp only [decide_eq_true_eq, hoff, hend, hround, hvalid, if_true, hload, bind_ok, hn]
  rfl

theorem flushRound_flushing {envs : Nat → RotationEnv × CalendarTime} {data window : Bytes} {f : Flush}
    (hdata : data.length = SHM_DATA_SIZE) (hopen : ∀ k, (envs k).1.openFile.isSome = true)
    (h : Flushing data window f) :
    (∃ f', flushRound envs data f = .ok (.inl f') ∧ Flushing data window f' ∧
      f'.nBytesToFlush.toNat < f.nBytesToFlush.toNat) ∨
    ∃ f', flushRound envs data f = .ok (.inr f') ∧ written f'.output = window := by
  obtain ⟨r, n, hr, hn, hrle, hnle, hrest⟩ := h.rest
  have hvalid := redirect_valid (t := (envs f.round).2) h.valid (hopen f.round)
  by_cases hmore : 0 < n
  · obtain ⟨r₀, k, hlt, hk, hread, hround⟩ := flushRound_more hdata hvalid hr hn hrle hnle hmore
    have hsplit : Ring.readFrom data r₀ n =
        (data.drop r₀).take k ++ Ring.readFrom data (r₀ + k) (n - k) :=
      Ring.readFrom_split (by omega) (by omega) (by omega) (by omega)
    refine .inl ⟨_, hround, ⟨hvalid, r₀ + k, n - k, ?_, ?_, by omega, by omega, ?_⟩, ?_⟩
    · simp only
      omega
    · simp only
      omega
    · rw [← hrest, hread, hsplit]
      simp [written, FileOutput.content]
    · simp only
      omega
  · have hzero : n = 0 := by omega
    refine .inr ⟨f, by rw [flushRound, if_neg (by omega)]; rfl, ?_⟩
    simpa [hzero, Ring.readFrom] using hrest

/-- The loop starts at the oldest byte. -/
theorem flushing_start {s : RingLog} {history : Bytes} (hvalid : s.log.logProcessFd.isSome = true)
    (h : Holds s.shm history) {notices : List FileOutput} (hnotices : written notices = []) :
    Flushing s.shm.data (Ring.newest SHM_DATA_SIZE history)
      { log := { s.log with enableInMemoryLogging := false }
        readOff := s.shm.readOff
        nBytesToFlush := if s.shm.wrapped then UTL_LOG_SHM_OBJECT_SIZE - SHM_HEADER_SIZE else s.shm.logSize
        round := 0
        output := notices } := by
  obtain ⟨w, hw, hring⟩ := h.ring
  have hread := h.readOff
  have hsize := sizes.1
  have hwindow := hring.newest
  rw [Ring.window_eq_readFrom] at hwindow
  refine ⟨hvalid, ?_⟩
  simp only [hnotices, List.nil_append]
  cases hwrapped : s.shm.wrapped with
  | false =>
    rw [hwrapped] at hread hwindow
    have hall := hring.all hwrapped
    exact ⟨0, w, by rw [hread]; simp, by simp [h.logSize hwrapped, hall], Nat.zero_le _, hring.position,
      hwindow⟩
  | true =>
    rw [hwrapped, if_pos rfl] at hread hwindow
    rw [hring.size] at hwindow
    exact ⟨w, SHM_DATA_SIZE, by rw [hread, hw], by rw [if_pos rfl]; omega, hring.position, Nat.le_refl _,
      hwindow⟩

/-- The flush of a ring writes its window. -/
theorem flush_holds {s : RingLog} {history : Bytes} (hmemory : s.log.enableInMemoryLogging = true)
    (hvalid : s.log.logProcessFd.isSome = true) (h : Holds s.shm history)
    {envs : Nat → RotationEnv × CalendarTime} (hopen : ∀ k, (envs k).1.openFile.isSome = true) :
    ∃ s' output, flush envs s = .ok (s', output) ∧
      written output = Ring.newest SHM_DATA_SIZE history ∧
      Reset s'.shm ∧ s'.log.enableInMemoryLogging = true := by
  obtain ⟨w, -, hring⟩ := h.ring
  have hnotices : ∀ (p : Bool) (d : Int), written (if p then [.dropped d] else []) = [] := by
    intro p d
    cases p <;> rfl
  obtain ⟨f, hrun, houtput⟩ := Loop.run_of_measure (fun f : Flush => f.nBytesToFlush.toNat)
    (fun f hf => flushRound_flushing hring.size hopen hf)
    (flushing_start hvalid h (hnotices (s.shm.wrapped && (s.writeToFile && s.log.logProcessFd.isSome))
      (wrapInt (s.shm.logSize - (UTL_LOG_SHM_OBJECT_SIZE - SHM_HEADER_SIZE)))))
    (Nat.lt_succ_self _)
  have hflush : flush envs s = .ok ({ s with
      log := { f.log with enableInMemoryLogging := true }
      shm := { s.shm with magic := shmMagic, readOff := SHM_HEADER_SIZE, writeOff := SHM_HEADER_SIZE,
                          wrapped := false, logSize := 0 } }, f.output) := by
    rw [flush, hmemory, if_neg (by simp)]
    simp only [hrun, bind_ok]
    rfl
  exact ⟨_, f.output, hflush, houtput, ⟨rfl, rfl, rfl, rfl, hring.size⟩, rfl⟩

/-! ## The newest bytes -/

/-- Logging to memory from the reset state: whatever the lines, the offsets stay in the
shared memory; and a flush that finds a valid handle, whose rotations succeed, ends
and writes the newest bytes of the lines that are not longer than the ring, and
leaves the ring reset. -/
theorem ring_keeps_newest (s : RingLog) (hreset : Reset s.shm)
    (hmemory : s.log.enableInMemoryLogging = true) (hfile : s.writeToFile = true)
    (hvalid : s.log.logProcessFd.isSome = true) (lines : List Bytes)
    (envs : Nat → RotationEnv × CalendarTime) (hopen : ∀ k, (envs k).1.openFile.isSome = true) :
    ∃ s', toFileAll s lines = .ok (s', []) ∧ InRegion s'.shm ∧
      ∃ s'' output, flush envs s' = .ok (s'', output) ∧
        written output = Ring.newest SHM_DATA_SIZE (accepted lines) ∧
        Reset s''.shm ∧ s''.log.enableInMemoryLogging = true := by
  obtain ⟨shm', hlines, hshm⟩ :=
    toFileAll_holds hmemory hfile hvalid (holds_of_reset hreset) lines
  rw [List.nil_append] at hshm
  obtain ⟨s'', output, hflush, hwritten, hreset', hmemory'⟩ :=
    flush_holds (s := { s with shm := shm' }) hmemory hvalid hshm hopen
  exact ⟨_, hlines, hshm.inRegion, s'', output, hflush, hwritten, hreset', hmemory'⟩

/-- A new ring, and a log file that is open. -/
def exampleRing : RingLog where
  log := { initialLog with enableInMemoryLogging := true, logProcessFd := some 3 }
  writeToFile := true
  shm :=
    { magic := shmMagic, readOff := SHM_HEADER_SIZE, writeOff := SHM_HEADER_SIZE, wrapped := false
      logSize := 0, data := List.replicate SHM_DATA_SIZE 0 }

theorem ring_keeps_two_lines :
    ∃ s', toFileAll exampleRing [str "a\n", str "b\n"] = .ok (s', []) ∧ InRegion s'.shm ∧
      ∃ s'' output,
        flush (fun _ => (⟨none, none, some 4, none, none, fun _ => none⟩, exampleTime 1 0)) s' =
          .ok (s'', output) ∧
        written output = Ring.newest SHM_DATA_SIZE (accepted [str "a\n", str "b\n"]) ∧
        Reset s''.shm ∧ s''.log.enableInMemoryLogging = true :=
  ring_keeps_newest exampleRing ⟨rfl, rfl, rfl, rfl, List.length_replicate⟩ rfl rfl rfl _ _
    (fun _ => rfl)

end TmatePlugin.L1.LogRing
