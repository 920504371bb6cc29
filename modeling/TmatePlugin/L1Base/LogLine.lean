import TmatePlugin.L1Base.LogRotation
import TmatePlugin.Lib.Buffer

/-!
# A line of the log

`UTL_log_vprint` formats the prefix and the message into a buffer of 256 bytes
on the stack; when they do not fit it does so again into one from `malloc`, or,
when there is none, ends what has fit with three dots. A newline goes behind the
text if it has none.

`snprintf` and `vsnprintf` return the length of the whole text and write what
fits of it, with a NUL behind. The bytes of a new buffer are not initialised
(`fill`). Accesses outside a buffer, a subtraction of `size_t`s that would wrap
around and an `assert` that fails are faults.

* `vprint_line`: the line is the text with its newline, or, without memory, 252
  bytes of it with the dots.
-/
namespace TmatePlugin.L1.LogLine

open CString Outcome
open TmatePlugin.L1.Log

def UTL_LOG_MAX_LINE : Nat := 256

/-- mirrors Util/src/Utl_Log.cpp:50-58 -/
def logLevelNames : List Bytes :=
  [str " TRACE ", str " DBG   ", str " INFO  ", str "!!WRN!!", str "##ERR##", str "##CRITICAL##",
    str " ALWAYS"]

/-- The arguments of `UTL_log_vprint` that go into the prefix, and the thread's id.
A NULL is `none`. -/
structure LineArgs where
  level : Fin UTL_LOG_NUM_LEVELS
  file : Option Bytes
  line : Int
  function : Option Bytes
  currTime : CalendarTime
  thread : UInt64

/-- `UTL_LOG_LINE_FORMAT` with its arguments.
mirrors Util/src/Utl_Log.cpp:49,147-153,179-193 -/
def linePrefix (args : LineArgs) : Bytes :=
  let shortFilename := match args.file with
    | none => str "*"
    | some file => getFilenamePart (cStr file)
  let function := match args.function with
    | none => str "<n/a>"
    | some function => cStr function
  padded 2 args.currTime.hour ++ str ":" ++ padded 2 args.currTime.min ++ str ":"
    ++ padded 2 args.currTime.sec ++ str "." ++ padded 6 args.currTime.usec
    ++ logLevelNames.getD args.level [] ++ str "|" ++ decimal args.thread.toNat ++ str "|"
    ++ shortFilename ++ str ":" ++ signed args.line ++ str ":" ++ function ++ str "| "

/-! ## The buffers -/

/-- A buffer that has not been initialised. -/
def newBuffer (fill : Nat → UInt8) (size : Nat) : Bytes := (List.range size).map fill

/-- What `snprintf(buf + pos, n, ..)` writes of the text. -/
def snprintf (buf : Bytes) (pos n : Nat) (text : Bytes) : Outcome Bytes :=
  if n = 0 then pure buf else Buffer.store buf pos (text.take (n - 1) ++ [0])

/-- `a - b` as a `size_t`. -/
def sizeSub (a b : Nat) : Outcome Nat := if b ≤ a then .ok (a - b) else fault

def assert (p : Bool) : Outcome Unit := if p then .ok () else fault

/-- Both passes: the text into `logline`, and into a larger buffer if it does not
fit. The second component is `pos`.
mirrors Util/src/Utl_Log.cpp:185-233 -/
def formatLine (stack heap : Nat → UInt8) (malloc : Bool) (linePrefix message : Bytes) :
    Outcome (Bytes × Nat) := do
  let logline ← snprintf (newBuffer stack UTL_LOG_MAX_LINE) 0 UTL_LOG_MAX_LINE linePrefix
  let pos := linePrefix.length
  let bufRemaining := if pos < UTL_LOG_MAX_LINE then UTL_LOG_MAX_LINE - pos else 0
  let logline ← snprintf logline pos bufRemaining message
  let pos := pos + message.length
  if pos ≥ UTL_LOG_MAX_LINE then
    if malloc then
      let actualLoglineLen := pos + 1
      let bigLogline ← snprintf (newBuffer heap actualLoglineLen) 0 actualLoglineLen linePrefix
      let pos := linePrefix.length
      assert (pos < actualLoglineLen)
      let remaining ← sizeSub actualLoglineLen pos
      let bigLogline ← snprintf bigLogline pos remaining message
      let pos := pos + message.length
      assert (pos + 1 = actualLoglineLen)
      pure (bigLogline, pos)
    else
      let pos := UTL_LOG_MAX_LINE - 4
      let logline ← Buffer.store logline pos [46]
      let logline ← Buffer.store logline (pos + 1) [46]
      let logline ← Buffer.store logline (pos + 2) [46]
      pure (logline, pos + 3)
  else pure (logline, pos)

/-- The newline, and the bytes that are written everywhere.
mirrors Util/src/Utl_Log.cpp:235-240,252 -/
def endLine (actualLogline : Bytes) (pos : Nat) : Outcome Bytes := do
  assert (pos > 0)
  let last ← Buffer.load actualLogline (pos - 1) 1
  if last ≠ [10] then
    let actualLogline ← Buffer.store actualLogline pos [10]
    Buffer.load actualLogline 0 (pos + 1)
  else Buffer.load actualLogline 0 pos

/-- The bytes `UTL_log_vprint` writes.
mirrors Util/src/Utl_Log.cpp:161-252 -/
def vprint (stack heap : Nat → UInt8) (malloc : Bool) (args : LineArgs) (message : Bytes) :
    Outcome Bytes := do
  let (actualLogline, pos) ← formatLine stack heap malloc (linePrefix args) message
  endLine actualLogline pos

/-! ## What the buffer holds -/

theorem newBuffer_length (fill : Nat → UInt8) (size : Nat) : (newBuffer fill size).length = size := by
  rw [newBuffer, List.length_map, List.length_range]

/-- A call whose bounds are those of the buffer writes what fits. -/
theorem snprintf_eq (buf : Bytes) (pos n : Nat) (text : Bytes) (h : n = 0 ∨ pos + n ≤ buf.length) :
    ∃ buf', snprintf buf pos n text = .ok buf' ∧ buf'.length = buf.length ∧
      buf'.take (pos + min (n - 1) text.length) = buf.take pos ++ text.take (n - 1) := by
  by_cases hn : n = 0
  · refine ⟨buf, by rw [snprintf, if_pos hn]; rfl, rfl, ?_⟩
    simp [hn]
  · have hcells : (text.take (n - 1) ++ [0]).length = min (n - 1) text.length + 1 := by
      rw [List.length_append, List.length_take, List.length_singleton]
    obtain ⟨buf', hstore, hlen, htake⟩ :=
      Buffer.store_take buf pos (text.take (n - 1) ++ [0]) (by omega)
    refine ⟨buf', by rw [snprintf, if_neg hn, hstore], hlen, ?_⟩
    have hfit : min (n - 1) text.length = (text.take (n - 1)).length := List.length_take.symm
    rw [htake _ (by omega), hfit, List.take_left]

/-- The two calls of one pass leave the text in the buffer, but for what does not fit
before the last NUL. -/
theorem pass_eq {buf : Bytes} {size : Nat} (hbuf : buf.length = size) (hsize : 0 < size)
    (linePrefix message : Bytes) :
    ∃ buf₁ buf₂, snprintf buf 0 size linePrefix = .ok buf₁ ∧
      snprintf buf₁ linePrefix.length
        (if linePrefix.length < size then size - linePrefix.length else 0) message = .ok buf₂ ∧
      buf₂.length = size ∧
      buf₂.take (min (size - 1) (linePrefix ++ message).length) =
        (linePrefix ++ message).take (size - 1) := by
  obtain ⟨buf₁, hfirst, hlen₁, htake₁⟩ :=
    snprintf_eq buf 0 size linePrefix (by omega)
  rw [Nat.zero_add, List.take_zero, List.nil_append] at htake₁
  obtain ⟨buf₂, hsecond, hlen₂, htake₂⟩ := snprintf_eq buf₁ linePrefix.length
    (if linePrefix.length < size then size - linePrefix.length else 0) message
    (by split <;> omega)
  refine ⟨buf₁, buf₂, hfirst, hsecond, by omega, ?_⟩
  rw [List.length_append]
  by_cases hfit : linePrefix.length < size
  · have hwhole : linePrefix.take (size - 1) = linePrefix := List.take_of_length_le (by omega)
    have hmin : min (size - 1) (linePrefix.length + message.length) =
        linePrefix.length + min (size - linePrefix.length - 1) message.length := by omega
    have hrest : size - 1 - linePrefix.length = size - linePrefix.length - 1 := by omega
    rw [if_pos hfit] at htake₂
    rw [Nat.min_eq_right (by omega), hwhole] at htake₁
    rw [hmin, htake₂, htake₁, List.take_append, hwhole, hrest]
  · rw [if_neg hfit] at hsecond
    have hsame : buf₂ = buf₁ := by
      rw [snprintf, if_pos rfl] at hsecond
      cases hsecond
      rfl
    rw [Nat.min_eq_left (by omega)] at htake₁
    rw [hsame, Nat.min_eq_left (by omega), htake₁, List.take_append_of_le_length (by omega)]

/-- The text before the newline. -/
def formatted (malloc : Bool) (text : Bytes) : Bytes :=
  if text.length < UTL_LOG_MAX_LINE ∨ malloc = true then text
  else text.take (UTL_LOG_MAX_LINE - 4) ++ str "..."

/-- The text with a newline behind it. -/
def terminated (text : Bytes) : Bytes := if text.getLast? = some 10 then text else text ++ [10]

/-- The three dots. -/
theorem dots_eq (buf : Bytes) (pos : Nat) (h : pos + 3 ≤ buf.length) :
    ∃ buf₁ buf₂ buf₃, Buffer.store buf pos [46] = .ok buf₁ ∧
      Buffer.store buf₁ (pos + 1) [46] = .ok buf₂ ∧ Buffer.store buf₂ (pos + 2) [46] = .ok buf₃ ∧
      buf₃.length = buf.length ∧ buf₃.take (pos + 3) = buf.take pos ++ str "..." := by
  obtain ⟨buf₁, hstore₁, hlen₁, htake₁⟩ :=
    Buffer.store_take buf pos [46] (by simp; omega)
  obtain ⟨buf₂, hstore₂, hlen₂, htake₂⟩ :=
    Buffer.store_take buf₁ (pos + 1) [46] (by simp; omega)
  obtain ⟨buf₃, hstore₃, hlen₃, htake₃⟩ :=
    Buffer.store_take buf₂ (pos + 2) [46] (by simp; omega)
  refine ⟨buf₁, buf₂, buf₃, hstore₁, hstore₂, hstore₃, by omega, ?_⟩
  have h₁ := htake₁ 1 (Nat.le_refl 1)
  have h₂ := htake₂ 1 (Nat.le_refl 1)
  have h₃ := htake₃ 1 (Nat.le_refl 1)
  rw [h₃, h₂, h₁]
  simp only [List.append_assoc]
  rfl

/-- Whichever buffer is used, the text is at its beginning, and there is room for one
more byte. -/
theorem formatLine_eq (stack heap : Nat → UInt8) (malloc : Bool) (linePrefix message : Bytes) :
    ∃ buf, formatLine stack heap malloc linePrefix message =
        .ok (buf, (formatted malloc (linePrefix ++ message)).length) ∧
      (formatted malloc (linePrefix ++ message)).length < buf.length ∧
      buf.take (formatted malloc (linePrefix ++ message)).length =
        formatted malloc (linePrefix ++ message) := by
  obtain ⟨small₁, small₂, hfirst, hsecond, hlen, htake⟩ :=
    pass_eq (newBuffer_length stack UTL_LOG_MAX_LINE) (by decide) linePrefix message
  have htotal : (linePrefix ++ message).length = linePrefix.length + message.length :=
    List.length_append
  simp only [formatLine, hfirst, bind_ok, hsecond]
  by_cases hfits : (linePrefix ++ message).length < UTL_LOG_MAX_LINE
  · have hpos : ¬ linePrefix.length + message.length ≥ UTL_LOG_MAX_LINE := by omega
    have hform : formatted malloc (linePrefix ++ message) = linePrefix ++ message :=
      if_pos (.inl hfits)
    have hwhole : (linePrefix ++ message).take (UTL_LOG_MAX_LINE - 1) = linePrefix ++ message :=
      List.take_of_length_le (by omega)
    rw [Nat.min_eq_right (by omega), hwhole] at htake
    rw [if_neg hpos, hform]
    exact ⟨small₂, by rw [htotal]; rfl, by omega, htake⟩
  · have hpos : linePrefix.length + message.length ≥ UTL_LOG_MAX_LINE := by omega
    rw [if_pos hpos]
    cases malloc with
    | true =>
      obtain ⟨big₁, big₂, hbig₁, hbig₂, hbiglen, hbigtake⟩ :=
        pass_eq (newBuffer_length heap (linePrefix.length + message.length + 1)) (by omega)
          linePrefix message
      have hlt : linePrefix.length < linePrefix.length + message.length + 1 := by omega
      have hsub : sizeSub (linePrefix.length + message.length + 1) linePrefix.length =
          .ok (linePrefix.length + message.length + 1 - linePrefix.length) := if_pos (by omega)
      have hassert : ∀ p : Bool, p = true → assert p = .ok () := fun p hp => if_pos hp
      have hform : formatted true (linePrefix ++ message) = linePrefix ++ message := if_pos (.inr rfl)
      rw [if_pos hlt] at hbig₂
      rw [htotal, Nat.add_sub_cancel, Nat.min_self, ← htotal, List.take_length, htotal] at hbigtake
      rw [if_pos rfl, hbig₁, bind_ok, hassert _ (decide_eq_true hlt), bind_ok, hsub, bind_ok, hbig₂,
        bind_ok, hassert _ (by simp), bind_ok, hform, htotal]
      exact ⟨big₂, rfl, by omega, hbigtake⟩
    | false =>
      obtain ⟨dot₁, dot₂, dot₃, hdot₁, hdot₂, hdot₃, hdotlen, hdottake⟩ :=
        dots_eq small₂ (UTL_LOG_MAX_LINE - 4) (by rw [hlen]; decide)
      have hform : formatted false (linePrefix ++ message) =
          (linePrefix ++ message).take (UTL_LOG_MAX_LINE - 4) ++ str "..." := by
        rw [formatted, if_neg (by simpa using hfits)]
      have hformlen : (formatted false (linePrefix ++ message)).length = UTL_LOG_MAX_LINE - 4 + 3 := by
        rw [hform, List.length_append, List.length_take, Nat.min_eq_left (by omega)]
        rfl
      have hstart : small₂.take (UTL_LOG_MAX_LINE - 4) =
          (linePrefix ++ message).take (UTL_LOG_MAX_LINE - 4) := by
        have h := congrArg (List.take (UTL_LOG_MAX_LINE - 4)) htake
        rwa [List.take_take, List.take_take, Nat.min_eq_left (by omega), Nat.min_eq_left (by decide)] at h
      rw [if_neg (by decide), hdot₁, bind_ok, hdot₂, bind_ok, hdot₃, bind_ok, hformlen]
      exact ⟨dot₃, rfl, by rw [hdotlen, hlen]; decide, by rw [hdottake, hstart, hform]⟩

theorem endLine_eq {text rest : Bytes} (hne : text ≠ []) (hrest : rest ≠ []) :
    endLine (text ++ rest) text.length = .ok (terminated text) := by
  have hpos : 0 < text.length := List.length_pos_iff.mpr hne
  have hassert : assert (decide (text.length > 0)) = .ok () := if_pos (by simpa using hpos)
  have hload : Buffer.load (text ++ rest) (text.length - 1) 1 = .ok [text.getLast hne] := by
    have h := Buffer.load_append text.dropLast [text.getLast hne] rest
    rwa [← List.append_assoc, List.dropLast_append_getLast, List.length_dropLast] at h
  rw [endLine, hassert, bind_ok, hload, bind_ok, terminated, List.getLast?_eq_some_getLast hne]
  by_cases hlast : text.getLast hne = 10
  · have hall := Buffer.load_append [] text rest
    rw [if_neg (by simp [hlast]), if_pos (by rw [hlast])]
    exact hall
  · obtain ⟨c, rest, rfl⟩ := List.exists_cons_of_ne_nil hrest
    have hstore : Buffer.store (text ++ ([c] ++ rest)) text.length [10] = .ok (text ++ ([10] ++ rest)) :=
      Buffer.store_append text rest rfl
    have hall := Buffer.load_append [] (text ++ [10]) rest
    rw [if_pos (by simp [hlast]), if_neg (by simp [hlast])]
    rw [List.singleton_append] at hstore
    rw [hstore, bind_ok, ← List.append_assoc]
    rwa [List.length_append] at hall

/-! ## The line -/

theorem formatted_ne_nil {malloc : Bool} {text : Bytes} (h : text ≠ []) : formatted malloc text ≠ [] := by
  have hdots : str "..." ≠ [] := by decide
  unfold formatted
  split
  · exact h
  · exact fun hnil => hdots (List.append_eq_nil_iff.mp hnil).2

/-- The dots get a newline. -/
theorem terminated_formatted (malloc : Bool) (text : Bytes) :
    terminated (formatted malloc text) =
      if text.length < UTL_LOG_MAX_LINE ∨ malloc = true then terminated text
      else text.take (UTL_LOG_MAX_LINE - 4) ++ str "...\n" := by
  have hdots : (str "...").getLast? = some 46 := by decide
  have hnewline : str "..." ++ [10] = str "...\n" := by decide
  unfold formatted
  split
  · rfl
  · rw [terminated, List.getLast?_append, hdots, if_neg (by simp), List.append_assoc, hnewline]

theorem linePrefix_ne_nil (args : LineArgs) : linePrefix args ≠ [] := by
  have hend : str "| " ≠ [] := by decide
  intro h
  exact hend (List.append_eq_nil_iff.mp h).2

/-- What is written is the whole text, ended by a newline; or, when it does not fit
and there is no memory, its first 252 bytes, three dots and a newline. -/
theorem vprint_line (stack heap : Nat → UInt8) (malloc : Bool) (args : LineArgs) (message : Bytes) :
    vprint stack heap malloc args message =
      .ok (if (linePrefix args ++ message).length < 256 ∨ malloc = true then
          terminated (linePrefix args ++ message)
        else (linePrefix args ++ message).take 252 ++ str "...\n") := by
  obtain ⟨buf, hformat, hroom, htake⟩ := formatLine_eq stack heap malloc (linePrefix args) message
  have hsplit := List.take_append_drop (formatted malloc (linePrefix args ++ message)).length buf
  rw [htake] at hsplit
  have hrest : buf.drop (formatted malloc (linePrefix args ++ message)).length ≠ [] := by
    rw [Ne, List.drop_eq_nil_iff]
    omega
  rw [vprint, hformat, bind_ok]
  simp only
  rw [← hsplit, endLine_eq (formatted_ne_nil (by simp [linePrefix_ne_nil])) hrest,
    terminated_formatted]
  rfl

end TmatePlugin.L1.LogLine
