import Mathlib.Algebra.Order.Ring.Nat
import Mathlib.Data.List.Infix
import TmatePlugin.Lib.CString

/-!
# POSIX token recognition

`splitWords s` is what `sh -c s` makes of `s` when it is nothing but a list of
words: the words, after quote removal. It is `none` when `s` contains an
unquoted operator, a newline, an expansion, or a quote that is not closed, and
when a word contains an unquoted pattern, so that pathname expansion applies to
it.

What only matters at the beginning of a word or of the command (`~`, `=`, `{`,
`!`, reserved words, aliases) is left to the caller; inside a word these bytes
stand for themselves.

The scanner reads one byte at a time and remembers which bytes of a word were
quoted. `Moves` says once what a step can do.

* `plain_run`: unquoted plain text goes into the current word.
* `readWords_size`: a scanner cannot emit more than it reads, and
  `plain_of_size`: it emits as much as it reads only from plain text.
* `splitWords_unwords_iff`: words joined by blanks are read back exactly when
  each of them is literal.
* `splitWords_first`: a text cannot come out as one word when a blank follows
  it.
-/
namespace Shell

open CString

/-- Space and tab. -/
def isBlank (c : UInt8) : Bool := c = 32 || c = 9

/-- The bytes that, unquoted, begin an operator or an expansion, and newline
and NUL: `| & ; < > ( ) $ ``. -/
def isSpecial (c : UInt8) : Bool := c ∈ str "|&;<>()$`\n" || c = 0

/-- Backslash, single and double quote. -/
def isQuote (c : UInt8) : Bool := c ∈ str "\\'\""

/-- A byte that does not end a word and is not a quote. -/
def isPlain (c : UInt8) : Bool := !isBlank c && !isSpecial c && !isQuote c

/-! ## Words -/

/-- The bytes of a word, each with whether it was quoted. -/
abbrev Word := List (UInt8 × Bool)

/-- An unquoted word. -/
def bare (w : Bytes) : Word := w.map fun c => (c, false)

def removeQuotes (w : Word) : Bytes := w.map Prod.fst

@[simp] theorem bare_nil : bare [] = [] := rfl
@[simp] theorem bare_cons (c : UInt8) (w : Bytes) : bare (c :: w) = (c, false) :: bare w := rfl
@[simp] theorem bare_append (w v : Bytes) : bare (w ++ v) = bare w ++ bare v := List.map_append
@[simp] theorem removeQuotes_append (w v : Word) :
    removeQuotes (w ++ v) = removeQuotes w ++ removeQuotes v := List.map_append
@[simp] theorem removeQuotes_bare (w : Bytes) : removeQuotes (bare w) = w := by
  simp [removeQuotes, bare, Function.comp_def]

/-- Past the first byte of a bracket expression: an unquoted `]` comes before a
slash. -/
def bracketEnds : Word → Bool
  | [] => false
  | (c, quoted) :: w => c ≠ 47 && (c = 93 && !quoted || bracketEnds w)

/-- A bracket expression is not empty; a slash ends it. -/
def bracketItems : Word → Bool
  | [] => false
  | (c, _) :: w => c ≠ 47 && bracketEnds w

/-- What follows `[` makes it a bracket expression; a `!` may come first. -/
def isBracket : Word → Bool
  | (33, false) :: w => bracketItems w
  | w => bracketItems w

/-- The word contains an unquoted `*`, `?` or bracket expression. -/
def isPattern : Word → Bool
  | [] => false
  | (c, quoted) :: w => !quoted && (c = 42 || c = 63 || c = 91 && isBracket w) || isPattern w

/-- An unquoted word that stands for itself. -/
def Literal (w : Bytes) : Prop := (∀ c ∈ w, isPlain c = true) ∧ isPattern (bare w) = false

theorem literal_nil : Literal [] := ⟨fun _ h => (List.not_mem_nil h).elim, rfl⟩

instance (w : Bytes) : Decidable (Literal w) :=
  decidable_of_iff (w.all isPlain = true ∧ isPattern (bare w) = false)
    (and_congr_left' List.all_eq_true)

/-- A plain byte that begins no pattern. -/
def isInert (c : UInt8) : Bool := isPlain c && c ≠ 42 && c ≠ 63 && c ≠ 91

example : isPattern (bare (str "a[12]")) = true := by decide

example : isPattern (bare (str "[]a/[!]/[b/c]")) = false := by decide

theorem isInert_iff {c : UInt8} :
    isInert c = true ↔ isPlain c = true ∧ c ≠ 42 ∧ c ≠ 63 ∧ c ≠ 91 := by
  simp [isInert, and_assoc]

/-- Inert bytes before a word do not make it a pattern. -/
theorem isPattern_inert_append {p : Bytes} (hp : ∀ c ∈ p, isInert c = true) (w : Word) :
    isPattern (bare p ++ w) = isPattern w := by
  induction p with
  | nil => rfl
  | cons c p ih =>
    obtain ⟨-, h42, h63, h91⟩ := isInert_iff.mp (hp c List.mem_cons_self)
    have ih := ih fun d hd => hp d (List.mem_cons_of_mem _ hd)
    simp [isPattern, h42, h63, h91, ih]

theorem bracketEnds_append_slash (w v : Word) (quoted : Bool) :
    bracketEnds (w ++ (47, quoted) :: v) = bracketEnds w := by
  induction w with
  | nil => simp [bracketEnds]
  | cons x w ih => simp only [List.cons_append, bracketEnds, ih]

theorem bracketItems_append_slash (w v : Word) (quoted : Bool) :
    bracketItems (w ++ (47, quoted) :: v) = bracketItems w := by
  cases w with
  | nil => simp [bracketItems]
  | cons x w => simp only [List.cons_append, bracketItems, bracketEnds_append_slash]

/-- A bracket expression does not go past a slash. -/
theorem isBracket_append_slash (w v : Word) (quoted : Bool) :
    isBracket (w ++ (47, quoted) :: v) = isBracket w := by
  unfold isBracket
  split
  · rename_i u heq
    cases w with
    | nil => cases heq
    | cons x w => cases heq; exact bracketItems_append_slash _ _ _
  · rename_i hne
    rw [bracketItems_append_slash]
    split
    · rename_i u; exact absurd rfl (hne _)
    · rfl

/-- A slash and inert bytes after a word do not make it a pattern. -/
theorem isPattern_append_slash (w : Word) {q : Bytes} (hq : ∀ c ∈ q, isInert c = true) :
    isPattern (w ++ bare (47 :: q)) = isPattern w := by
  have htail : isPattern (bare (47 :: q)) = false := by
    have := isPattern_inert_append (p := 47 :: q)
      (List.forall_mem_cons.mpr ⟨by decide, hq⟩) []
    rwa [List.append_nil] at this
  induction w with
  | nil => exact htail
  | cons x w ih =>
    rw [List.cons_append, isPattern, isPattern, ih, bare_cons, isBracket_append_slash]

theorem literal_inert_append {p w : Bytes} (hp : ∀ c ∈ p, isInert c = true) :
    Literal (p ++ w) ↔ Literal w := by
  rw [Literal, Literal, List.forall_mem_append, bare_append, isPattern_inert_append hp]
  have hplain : ∀ c ∈ p, isPlain c = true := fun c hc => (isInert_iff.mp (hp c hc)).1
  exact ⟨fun h => ⟨h.1.2, h.2⟩, fun h => ⟨⟨hplain, h.1⟩, h.2⟩⟩

theorem literal_append_slash {w q : Bytes} (hq : ∀ c ∈ q, isInert c = true) :
    Literal (w ++ 47 :: q) ↔ Literal w := by
  rw [Literal, Literal, List.forall_mem_append, bare_append, isPattern_append_slash _ hq]
  have hplain : ∀ c ∈ (47 : UInt8) :: q, isPlain c = true :=
    List.forall_mem_cons.mpr ⟨by decide, fun c hc => (isInert_iff.mp (hq c hc)).1⟩
  exact ⟨fun h => ⟨h.1.1, h.2⟩, fun h => ⟨⟨h.1, hplain⟩, h.2⟩⟩

/-! ## The scanner -/

inductive Mode where
  | unquoted
  | escaped
  | single
  | double
  | doubleEscaped
  | comment
  deriving DecidableEq, Repr

/-- `cur` is the word being read, `words` the words before it. -/
structure Scan where
  mode : Mode
  cur : Option Word
  words : List Word
  deriving DecidableEq, Repr

namespace Scan

def init : Scan := ⟨.unquoted, none, []⟩

def text (st : Scan) : Word := st.cur.getD []

def push (st : Scan) (c : UInt8) (quoted : Bool) (m : Mode) : Scan :=
  ⟨m, some (st.text ++ [(c, quoted)]), st.words⟩

def flush (st : Scan) : Scan := ⟨.unquoted, none, st.words ++ st.cur.toList⟩

/-- A quote begins a word even when nothing follows it. -/
def openQuote (st : Scan) (m : Mode) : Scan := ⟨m, some st.text, st.words⟩

def setMode (st : Scan) (m : Mode) : Scan := { st with mode := m }

end Scan

/-- Inside double quotes a backslash escapes these and newline only. -/
def escapable (c : UInt8) : Bool := c ∈ str "$`\"\\"

def step (st : Scan) (c : UInt8) : Option Scan :=
  match st.mode with
  | .unquoted =>
    if isBlank c then some st.flush
    else if c = 39 then some (st.openQuote .single)
    else if c = 34 then some (st.openQuote .double)
    else if c = 92 then some (st.setMode .escaped)
    -- a comment starts where a token could
    else if c = 35 ∧ st.cur = none then some (st.setMode .comment)
    else if isSpecial c then none
    else some (st.push c false .unquoted)
  | .escaped =>
    if c = 10 then some (st.setMode .unquoted) else some (st.push c true .unquoted)
  | .single =>
    if c = 39 then some (st.setMode .unquoted) else some (st.push c true .single)
  | .double =>
    if c = 34 then some (st.setMode .unquoted)
    else if c = 92 then some (st.setMode .doubleEscaped)
    else if c = 36 ∨ c = 96 then none
    else some (st.push c true .double)
  | .doubleEscaped =>
    if c = 10 then some (st.setMode .double)
    else if escapable c then some (st.push c true .double)
    else some ((st.push 92 true .double).push c true .double)
  | .comment => if c = 10 then none else some st

def run (st : Scan) : Bytes → Option Scan
  | [] => some st
  | c :: s => (step st c).bind fun st' => run st' s

/-- The words of a finished scan. -/
def finish (st : Scan) : Option (List Word) :=
  match st.mode with
  | .unquoted | .comment => some (st.words ++ st.cur.toList)
  | _ => none

def readWords (s : Bytes) : Option (List Word) := (run .init s).bind finish

def splitWords (s : Bytes) : Option (List Bytes) :=
  (readWords s).bind fun ws => if ws.any isPattern then none else some (ws.map removeQuotes)

example : splitWords (str "a 'b*c' \"d\"e\\ f # g") = some [str "a", str "b*c", str "de f"] := by
  decide

example : splitWords (str "a; b") = none := by decide

theorem splitWords_some {s : Bytes} {ws : List Bytes} (h : splitWords s = some ws) :
    ∃ Ws, readWords s = some Ws ∧ (∀ w ∈ Ws, isPattern w = false) ∧ ws = Ws.map removeQuotes := by
  obtain ⟨Ws, hread, h⟩ := Option.bind_eq_some_iff.mp h
  split at h
  · cases h
  · rename_i hpat
    cases h
    exact ⟨Ws, hread, by simpa using hpat, rfl⟩

theorem finish_words {st : Scan} {ws : List Word} (h : finish st = some ws) :
    ws = st.words ++ st.cur.toList := by
  unfold finish at h
  split at h <;> cases h <;> rfl

theorem run_append (st : Scan) (s t : Bytes) :
    run st (s ++ t) = (run st s).bind fun st' => run st' t := by
  induction s generalizing st with
  | nil => rfl
  | cons c s ih =>
    simp only [List.cons_append, run]
    cases step st c with
    | none => rfl
    | some st' => exact ih st'

/-! ## What a step does -/

/-- The moves of the scanner on the byte `c`. -/
inductive Moves (st : Scan) (c : UInt8) : Scan → Prop
  | quiet (m : Mode) (hm : m ≠ .comment ∨ st.mode = .comment ∨ st.cur = none)
      (hc : isBlank c = false ∨ st.mode = .comment) : Moves st c (st.setMode m)
  | openQuote (m : Mode) (hm : m = .single ∨ m = .double) (hc : isBlank c = false) :
      Moves st c (st.openQuote m)
  | push (quoted : Bool) (m : Mode) (hm : m ≠ .comment ∧ m ≠ .doubleEscaped) :
      Moves st c (st.push c quoted m)
  | pushBoth (h : st.mode = .doubleEscaped) :
      Moves st c ((st.push 92 true .double).push c true .double)
  | flush (hc : isBlank c = true) : Moves st c st.flush

theorem step_moves {st st' : Scan} {c : UInt8} (h : step st c = some st') : Moves st c st' := by
  unfold step at h
  split at h
  · rename_i hmode
    split at h
    · rename_i hb; cases h; exact .flush hb
    · rename_i hb
      have hb : isBlank c = false := by simpa using hb
      split at h
      · cases h; exact .openQuote _ (.inl rfl) hb
      · split at h
        · cases h; exact .openQuote _ (.inr rfl) hb
        · split at h
          · cases h; exact .quiet _ (.inl (by decide)) (.inl hb)
          · split at h
            · rename_i hc; cases h; exact .quiet _ (.inr (.inr hc.2)) (.inl hb)
            · split at h
              · cases h
              · cases h; exact .push _ _ (by decide)
  · split at h
    · rename_i hc; cases h; exact .quiet _ (.inl (by decide)) (.inl (by rw [hc]; decide))
    · cases h; exact .push _ _ (by decide)
  · split at h
    · rename_i hc; cases h; exact .quiet _ (.inl (by decide)) (.inl (by rw [hc]; decide))
    · cases h; exact .push _ _ (by decide)
  · split at h
    · rename_i hc; cases h; exact .quiet _ (.inl (by decide)) (.inl (by rw [hc]; decide))
    · split at h
      · rename_i hc; cases h; exact .quiet _ (.inl (by decide)) (.inl (by rw [hc]; decide))
      · split at h
        · cases h
        · cases h; exact .push _ _ (by decide)
  · rename_i hmode
    split at h
    · rename_i hc; cases h; exact .quiet _ (.inl (by decide)) (.inl (by rw [hc]; decide))
    · split at h
      · cases h; exact .push _ _ (by decide)
      · cases h; exact .pushBoth hmode
  · rename_i hmode
    split at h
    · cases h
    · cases h
      exact .quiet _ (.inr (.inl hmode)) (.inr hmode)

/-! ## Plain text -/

theorem isPlain_iff {c : UInt8} :
    isPlain c = true ↔ isBlank c = false ∧ isSpecial c = false ∧ isQuote c = false := by
  simp [isPlain, and_assoc]

/-- Outside quotes, only quotes are neither blank, special nor pushed; `#` is
pushed inside a word. -/
theorem step_plain (st : Scan) {c : UInt8} (hm : st.mode = .unquoted) (hc : isPlain c = true)
    (hs : c ≠ 35 ∨ st.cur ≠ none) : step st c = some (st.push c false .unquoted) := by
  obtain ⟨hb, hsp, hq⟩ := isPlain_iff.mp hc
  have hquotes : str "\\'\"" = [92, 39, 34] := by decide
  have h39 : c ≠ 39 := by intro h; simp [isQuote, hquotes, h] at hq
  have h34 : c ≠ 34 := by intro h; simp [isQuote, hquotes, h] at hq
  have h92 : c ≠ 92 := by intro h; simp [isQuote, hquotes, h] at hq
  have h35 : ¬ (c = 35 ∧ st.cur = none) := fun h => hs.elim (· h.1) (· h.2)
  simp only [step, hm, hb, h39, h34, h92, h35, hsp, Bool.false_eq_true, if_false]

theorem plain_run {b : Word} {p : Bytes} {ws : List Word} (hp : ∀ c ∈ p, isPlain c = true) :
    run ⟨.unquoted, some b, ws⟩ p = some ⟨.unquoted, some (b ++ bare p), ws⟩ := by
  induction p generalizing b with
  | nil => simp [run, bare]
  | cons c p ih =>
    have hstep := step_plain ⟨.unquoted, some b, ws⟩ rfl (hp c List.mem_cons_self)
      (.inr (by simp))
    rw [run, hstep, Option.bind_some]
    have := ih (b := b ++ [(c, false)]) fun c hc => hp c (List.mem_cons_of_mem _ hc)
    rw [List.append_assoc, List.singleton_append] at this
    exact this

/-- A plain word after others, not beginning with `#`. -/
theorem plain_word_run {c : UInt8} {p : Bytes} {ws : List Word} (hc : c ≠ 35)
    (hp : ∀ d ∈ c :: p, isPlain d = true) :
    run ⟨.unquoted, none, ws⟩ (c :: p) = some ⟨.unquoted, some (bare (c :: p)), ws⟩ := by
  have hstep := step_plain ⟨.unquoted, none, ws⟩ rfl (hp c List.mem_cons_self) (.inl hc)
  rw [run, hstep, Option.bind_some]
  exact plain_run (b := [(c, false)]) fun d hd => hp d (List.mem_cons_of_mem _ hd)

/-! ## Size -/

/-- Bytes emitted, with one more for each word. -/
def size {α : Type} (ws : List (List α)) : Nat := (ws.map fun w => w.length + 1).sum

@[simp] theorem size_nil {α : Type} : size ([] : List (List α)) = 0 := rfl
@[simp] theorem size_cons {α : Type} (w : List α) (ws : List (List α)) :
    size (w :: ws) = w.length + 1 + size ws := by
  simp [size]
@[simp] theorem size_append {α : Type} (ws ws' : List (List α)) :
    size (ws ++ ws') = size ws + size ws' := by
  simp [size]

theorem size_removeQuotes (ws : List Word) : size (ws.map removeQuotes) = size ws := by
  simp [size, removeQuotes, Function.comp_def]

/-- A backslash inside double quotes may still be emitted. -/
def pending (m : Mode) : Nat := if m = .doubleEscaped then 1 else 0

theorem pending_le (m : Mode) : pending m ≤ 1 := by unfold pending; split <;> omega

def Scan.size (st : Scan) : Nat := Shell.size st.words + st.text.length + 1 + pending st.mode

theorem init_size : Scan.init.size = 1 := rfl

theorem flush_text (st : Scan) : Shell.size st.cur.toList ≤ st.text.length + 1 := by
  cases h : st.cur <;> simp [Scan.text, h]

theorem step_size {st st' : Scan} {c : UInt8} (h : step st c = some st') : st'.size ≤ st.size + 1 := by
  have hflush := flush_text st
  cases step_moves h with
  | quiet m =>
    have := pending_le m
    simp only [Scan.size, Scan.setMode, Scan.text]
    omega
  | openQuote m =>
    have := pending_le m
    simp only [Scan.size, Scan.openQuote, Scan.text, Option.getD_some]
    omega
  | push quoted m hm =>
    simp only [Scan.size, Scan.push, Scan.text, Option.getD_some, pending, hm.2, if_false,
      List.length_append, List.length_singleton]
    omega
  | pushBoth hmode =>
    simp only [Scan.size, Scan.push, Scan.text, Option.getD_some, pending, hmode, reduceCtorEq,
      if_false, if_true, List.length_append, List.length_singleton]
    omega
  | flush =>
    simp only [Scan.size, Scan.flush, Scan.text, Option.getD_none, List.length_nil, pending,
      reduceCtorEq, if_false, size_append] at hflush ⊢
    omega

theorem run_size {st st' : Scan} {s : Bytes} (h : run st s = some st') :
    st'.size ≤ st.size + s.length := by
  induction s generalizing st with
  | nil => cases h; simp
  | cons c s ih =>
    obtain ⟨st₁, h₁, h⟩ := Option.bind_eq_some_iff.mp h
    have := ih h
    have := step_size h₁
    rw [List.length_cons]
    omega

theorem finish_size {st : Scan} {ws : List Word} (h : finish st = some ws) :
    size ws ≤ st.size := by
  have hflush := flush_text st
  rw [finish_words h, size_append, Scan.size]
  omega

/-- A scanner emits at most what it reads. -/
theorem readWords_size {s : Bytes} {ws : List Word} (h : readWords s = some ws) :
    size ws ≤ s.length + 1 := by
  obtain ⟨st, hrun, hfin⟩ := Option.bind_eq_some_iff.mp h
  have h₁ := run_size hrun
  have h₂ := finish_size hfin
  have := init_size
  omega

theorem splitWords_size {s : Bytes} {ws : List Bytes} (h : splitWords s = some ws) :
    size ws ≤ s.length + 1 := by
  obtain ⟨Ws, hread, -, rfl⟩ := splitWords_some h
  rw [size_removeQuotes]
  exact readWords_size hread

/-! ## Emitting everything that is read -/

/-- A word of unquoted plain bytes. -/
def PlainWord (w : Word) : Prop := ∀ x ∈ w, isPlain x.1 = true ∧ x.2 = false

theorem PlainWord.eq_bare {w : Word} (h : PlainWord w) : w = bare (removeQuotes w) := by
  induction w with
  | nil => rfl
  | cons x w ih =>
    have hx : x = (x.1, false) := Prod.ext rfl (h x List.mem_cons_self).2
    have htail := ih fun y hy => h y (List.mem_cons_of_mem _ hy)
    rw [removeQuotes, List.map_cons, bare_cons, ← hx]
    exact congrArg (x :: ·) htail

/-- Outside quotes, with plain words so far. -/
structure PlainScan (st : Scan) : Prop where
  mode : st.mode = .unquoted
  words : ∀ w ∈ st.words, PlainWord w
  text : PlainWord st.text

theorem plainScan_flush {st : Scan} (h : PlainScan st) : PlainScan st.flush where
  mode := rfl
  words w hw := by
    rcases List.mem_append.mp hw with hw | hw
    · exact h.words w hw
    · have := h.text
      rw [Option.mem_toList] at hw
      simpa [Scan.text, hw] using this
  text x hx := by cases hx

theorem plainScan_push {st : Scan} {c : UInt8} (h : PlainScan st) (hc : isPlain c = true) :
    PlainScan (st.push c false .unquoted) where
  mode := rfl
  words := h.words
  text x hx := by
    rcases List.mem_append.mp hx with hx | hx
    · exact h.text x hx
    · rw [List.mem_singleton.mp hx]; exact ⟨hc, rfl⟩

/-- A step that emits a byte outside quotes ends a word or pushes a plain byte. -/
theorem plainScan_step {st st' : Scan} {c : UInt8} (h : PlainScan st) (hstep : step st c = some st')
    (hsize : st'.size = st.size + 1) : PlainScan st' := by
  have same : ∀ m : Mode, m ≠ .doubleEscaped → (st.setMode m).size ≠ st.size + 1 := by
    intro m hm he
    simp only [Scan.size, Scan.setMode, Scan.text, pending, hm, if_false] at he
    omega
  have same' : ∀ m : Mode, m ≠ .doubleEscaped → (st.openQuote m).size ≠ st.size + 1 := by
    intro m hm he
    simp only [Scan.size, Scan.openQuote, Scan.text, Option.getD_some, pending, hm, if_false] at he
    omega
  simp only [step, h.mode] at hstep
  split at hstep
  · cases hstep; exact plainScan_flush h
  · rename_i hb
    split at hstep
    · cases hstep; exact absurd hsize (same' _ (by decide))
    · split at hstep
      · cases hstep; exact absurd hsize (same' _ (by decide))
      · split at hstep
        · cases hstep; exact absurd hsize (same _ (by decide))
        · split at hstep
          · cases hstep; exact absurd hsize (same _ (by decide))
          · split at hstep
            · cases hstep
            · rename_i h39 h34 h92 _ hsp
              cases hstep
              refine plainScan_push h (isPlain_iff.mpr ⟨by simpa using hb, by simpa using hsp, ?_⟩)
              have hquotes : str "\\'\"" = [92, 39, 34] := by decide
              simp [isQuote, hquotes, h39, h34, h92]

theorem plainScan_run {st st' : Scan} {s : Bytes} (h : PlainScan st) (hrun : run st s = some st')
    (hsize : st'.size = st.size + s.length) : PlainScan st' := by
  induction s generalizing st with
  | nil => cases hrun; exact h
  | cons c s ih =>
    obtain ⟨st₁, h₁, hrun⟩ := Option.bind_eq_some_iff.mp hrun
    have hstep := step_size h₁
    have hrest := run_size hrun
    rw [List.length_cons] at hsize
    exact ih (plainScan_step h h₁ (by omega)) hrun (by omega)

/-- A scanner that emits all it reads has read plain words. -/
theorem plain_of_size {s : Bytes} {ws : List Word} (h : readWords s = some ws)
    (hsize : size ws = s.length + 1) : ∀ w ∈ ws, PlainWord w := by
  obtain ⟨st, hrun, hfin⟩ := Option.bind_eq_some_iff.mp h
  have h₁ := run_size hrun
  have h₂ := finish_size hfin
  have h₀ := init_size
  have hst : PlainScan st := plainScan_run ⟨rfl, by simp [Scan.init], fun x hx => by cases hx⟩
    hrun (by omega)
  rw [finish_words hfin]
  exact (plainScan_flush hst).words

/-! ## Words and back -/

/-- The words with one blank between them. -/
def unwords : List Bytes → Bytes
  | [] => []
  | [w] => w
  | w :: ws => w ++ 32 :: unwords ws

theorem unwords_cons (w w' : Bytes) (ws : List Bytes) :
    unwords (w :: w' :: ws) = w ++ 32 :: unwords (w' :: ws) := rfl

/-- A word that does not start a comment. -/
def Begins (w : Bytes) : Prop := ∃ c p, w = c :: p ∧ c ≠ 35

theorem run_unwords {ws : List Bytes} (acc : List Word) (hbegins : ∀ w ∈ ws, Begins w)
    (hplain : ∀ w ∈ ws, ∀ c ∈ w, isPlain c = true) :
    ∃ st, run ⟨.unquoted, none, acc⟩ (unwords ws) = some st ∧
      finish st = some (acc ++ ws.map bare) := by
  induction ws generalizing acc with
  | nil => exact ⟨_, rfl, by simp [finish]⟩
  | cons w ws ih =>
    obtain ⟨c, p, rfl, hc⟩ := hbegins w List.mem_cons_self
    have hword : run ⟨.unquoted, none, acc⟩ (c :: p) =
        some ⟨.unquoted, some (bare (c :: p)), acc⟩ :=
      plain_word_run hc (hplain _ List.mem_cons_self)
    cases ws with
    | nil => exact ⟨_, hword, by simp [finish]⟩
    | cons w' ws =>
      obtain ⟨st, hrun, hfin⟩ := ih (acc ++ [bare (c :: p)])
        (fun w hw => hbegins w (List.mem_cons_of_mem _ hw))
        (fun w hw => hplain w (List.mem_cons_of_mem _ hw))
      refine ⟨st, ?_, by simpa using hfin⟩
      rw [unwords_cons, run_append, hword, Option.bind_some, run]
      exact hrun

theorem size_unwords {ws : List Bytes} (h : ws ≠ []) : size ws = (unwords ws).length + 1 := by
  induction ws with
  | nil => exact absurd rfl h
  | cons w ws ih =>
    cases ws with
    | nil => simp [unwords]
    | cons w' ws =>
      rw [size_cons, ih (by simp), unwords_cons, List.length_append, List.length_cons]
      omega

/-- Words joined by blanks are read back exactly when each is literal. -/
theorem splitWords_unwords_iff {ws : List Bytes} (hne : ws ≠ []) (hbegins : ∀ w ∈ ws, Begins w) :
    splitWords (unwords ws) = some ws ↔ ∀ w ∈ ws, Literal w := by
  constructor
  · intro h
    obtain ⟨Ws, hread, hpat, hws⟩ := splitWords_some h
    have hsize : size Ws = (unwords ws).length + 1 := by
      rw [← size_removeQuotes, ← hws, size_unwords hne]
    have hplain := plain_of_size hread hsize
    intro w hw
    rw [hws] at hw
    obtain ⟨W, hW, rfl⟩ := List.mem_map.mp hw
    refine ⟨fun c hc => ?_, by rw [← (hplain W hW).eq_bare]; exact hpat W hW⟩
    obtain ⟨x, hx, rfl⟩ := List.mem_map.mp hc
    exact (hplain W hW x hx).1
  · intro hlit
    obtain ⟨st, hrun, hfin⟩ := run_unwords [] hbegins fun w hw => (hlit w hw).1
    have hread : readWords (unwords ws) = some (ws.map bare) := by
      rw [readWords, Scan.init, hrun, Option.bind_some, hfin, List.nil_append]
    have hpat : (ws.map bare).any isPattern = false := by
      rw [List.any_map, List.any_eq_false]
      intro w hw
      simpa using (hlit w hw).2
    have hback : (ws.map bare).map removeQuotes = ws := by
      simp [Function.comp_def]
    rw [splitWords, hread, Option.bind_some, hpat, hback]
    rfl

theorem not_mem_unwords {c : UInt8} {ws : List Bytes} (hc : c ≠ 32) (h : ∀ w ∈ ws, c ∉ w) :
    c ∉ unwords ws := by
  induction ws with
  | nil => simp [unwords]
  | cons w ws ih =>
    have hw := h w List.mem_cons_self
    cases ws with
    | nil => exact hw
    | cons w' ws =>
      have hrest := ih fun w hw => h w (List.mem_cons_of_mem _ hw)
      rw [unwords_cons, List.mem_append, List.mem_cons]
      rintro (hmem | rfl | hmem)
      · exact hw hmem
      · exact hc rfl
      · exact hrest hmem

/-- The same for the C string that `sh -c` gets. -/
theorem splitWords_cStr_unwords_iff (ws : List Bytes) (hne : ws ≠ [])
    (hbegins : ∀ w ∈ ws, Begins w) :
    splitWords (cStr (unwords ws)) = some ws ↔ ∀ w ∈ ws, Literal w := by
  constructor
  · intro h
    -- a string that was cut off is too short for the words
    have hsize := splitWords_size h
    rw [size_unwords hne] at hsize
    rw [(cStr_initial _).eq_of_length_le (by omega)] at h
    exact (splitWords_unwords_iff hne hbegins).mp h
  · intro hlit
    have hnul : (0 : UInt8) ∉ unwords ws := by
      refine not_mem_unwords (by decide) fun w hw h0 => ?_
      have := (hlit w hw).1 0 h0
      revert this; decide
    rw [cStr_eq_self_iff.mpr hnul]
    exact (splitWords_unwords_iff hne hbegins).mpr hlit

/-! ## A word does not come out of a longer text -/

/-- The number of words begun. -/
def Scan.count (st : Scan) : Nat := st.words.length + st.cur.toList.length

/-- The first word as far as it was read. -/
def Scan.first (st : Scan) : Option Word := (st.words ++ st.cur.toList).head?

theorem step_count {st st' : Scan} {c : UInt8} (h : step st c = some st') : st.count ≤ st'.count := by
  have hcur : st.cur.toList.length ≤ 1 := by cases st.cur <;> simp
  cases step_moves h with
  | quiet m => exact Nat.le_refl _
  | openQuote m => exact Nat.add_le_add_left hcur _
  | push m => exact Nat.add_le_add_left hcur _
  | pushBoth => exact Nat.add_le_add_left hcur _
  | flush => simp [Scan.count, Scan.flush]

theorem run_count {st st' : Scan} {s : Bytes} (h : run st s = some st') : st.count ≤ st'.count := by
  induction s generalizing st with
  | nil => cases h; exact Nat.le_refl _
  | cons c s ih =>
    obtain ⟨st₁, h₁, h⟩ := Option.bind_eq_some_iff.mp h
    exact (step_count h₁).trans (ih h)

theorem first_of_words (st : Scan) {m : Mode} {b x : Word} (hx : st.first = some x)
    (hb : st.text <+: b) : ∃ y, Scan.first ⟨m, some b, st.words⟩ = some y ∧ x <+: y := by
  cases hw : st.words with
  | nil =>
    cases hc : st.cur with
    | none => simp [Scan.first, hw, hc] at hx
    | some a =>
      simp only [Scan.first, hw, hc, Option.toList_some, List.nil_append, List.head?_cons,
        Option.some.injEq] at hx
      subst hx
      exact ⟨b, rfl, by simpa [Scan.text, hc] using hb⟩
  | cons w ws =>
    simp only [Scan.first, hw, List.cons_append, List.head?_cons, Option.some.injEq] at hx
    exact ⟨w, rfl, hx ▸ List.prefix_refl _⟩

theorem step_first {st st' : Scan} {c : UInt8} {x : Word} (h : step st c = some st')
    (hx : st.first = some x) : ∃ y, st'.first = some y ∧ x <+: y := by
  cases step_moves h with
  | quiet m => exact ⟨x, hx, List.prefix_refl _⟩
  | openQuote m => exact first_of_words st hx (List.prefix_refl _)
  | push m => exact first_of_words st hx (List.prefix_append _ _)
  | pushBoth =>
    have hpre : st.text <+: st.text ++ [(92, true)] ++ [(c, true)] := by
      rw [List.append_assoc]; exact List.prefix_append _ _
    exact first_of_words st hx hpre
  | flush => exact ⟨x, by simpa [Scan.first, Scan.flush] using hx, List.prefix_refl _⟩

theorem run_first {st st' : Scan} {s : Bytes} {x : Word} (h : run st s = some st')
    (hx : st.first = some x) : ∃ y, st'.first = some y ∧ x <+: y := by
  induction s generalizing st x with
  | nil => cases h; exact ⟨x, hx, List.prefix_refl _⟩
  | cons c s ih =>
    obtain ⟨st₁, h₁, h⟩ := Option.bind_eq_some_iff.mp h
    obtain ⟨y, hy, hxy⟩ := step_first h₁ hx
    obtain ⟨z, hz, hyz⟩ := ih h hy
    exact ⟨z, hz, hxy.trans hyz⟩

def blanks (s : Bytes) : Nat := s.countP isBlank

theorem blanks_append (s t : Bytes) : blanks (s ++ t) = blanks s + blanks t := List.countP_append

/-- Inside its first word the scanner emits every blank it reads. -/
structure InFirst (st : Scan) : Prop where
  words : st.words = []
  cur : st.cur ≠ none
  mode : st.mode ≠ .comment

theorem inFirst_step {st st' : Scan} {c : UInt8} (hst : InFirst st) (h : step st c = some st') :
    (InFirst st' ∧
      blanks (removeQuotes st.text) + blanks [c] ≤ blanks (removeQuotes st'.text)) ∨ st' = st.flush := by
  cases step_moves h with
  | quiet m hm hc =>
    have hblank : isBlank c = false := hc.resolve_right hst.mode
    refine .inl ⟨⟨hst.words, hst.cur, ?_⟩, ?_⟩
    · rcases hm with hm | hm | hm
      · exact hm
      · exact absurd hm hst.mode
      · exact absurd hm hst.cur
    · simp [blanks, hblank, Scan.setMode, Scan.text]
  | openQuote m hm hc =>
    refine .inl ⟨⟨hst.words, by simp [Scan.openQuote], ?_⟩, ?_⟩
    · rcases hm with rfl | rfl <;> simp [Scan.openQuote]
    · simp [blanks, hc, Scan.openQuote, Scan.text]
  | push quoted m hm =>
    refine .inl ⟨⟨hst.words, by simp [Scan.push], hm.1⟩, ?_⟩
    simp only [Scan.push, Scan.text, Option.getD_some, removeQuotes_append, blanks_append]
    exact Nat.le_refl _
  | pushBoth =>
    refine .inl ⟨⟨hst.words, by simp [Scan.push], by simp [Scan.push]⟩, ?_⟩
    have hc : blanks (removeQuotes [(c, true)]) = blanks [c] := rfl
    simp only [Scan.push, Scan.text, Option.getD_some, removeQuotes_append, blanks_append, hc]
    omega
  | flush => exact .inr rfl

theorem step_words {st st' : Scan} {c : UInt8} (h : step st c = some st') : st.words <+: st'.words := by
  cases step_moves h with
  | quiet | openQuote | push | pushBoth => exact List.prefix_refl _
  | flush => exact List.prefix_append _ _

theorem run_words {st st' : Scan} {s : Bytes} (h : run st s = some st') : st.words <+: st'.words := by
  induction s generalizing st with
  | nil => cases h; exact List.prefix_refl _
  | cons c s ih =>
    obtain ⟨st₁, h₁, h⟩ := Option.bind_eq_some_iff.mp h
    exact (step_words h₁).trans (ih h)

theorem inFirst_run {st st' : Scan} {s : Bytes} (hst : InFirst st) (h : run st s = some st') :
    (InFirst st' ∧
      blanks (removeQuotes st.text) + blanks s ≤ blanks (removeQuotes st'.text)) ∨ st'.words ≠ [] := by
  induction s generalizing st with
  | nil => cases h; exact .inl ⟨hst, by simp [blanks]⟩
  | cons c s ih =>
    obtain ⟨st₁, h₁, h⟩ := Option.bind_eq_some_iff.mp h
    rcases inFirst_step hst h₁ with ⟨hst₁, hb⟩ | rfl
    · rcases ih hst₁ h with ⟨hst', hb'⟩ | hne
      · refine .inl ⟨hst', ?_⟩
        have hsplit : blanks (c :: s) = blanks [c] + blanks s := blanks_append [c] s
        omega
      · exact .inr hne
    · refine .inr fun hnil => ?_
      have hpre := run_words h
      rw [hnil, List.prefix_nil] at hpre
      have hcur : st.cur.toList = [] := by
        simpa [Scan.flush, hst.words] using hpre
      exact hst.cur (by simpa using hcur)

theorem inFirst_first {st : Scan} (h : InFirst st) : st.first = some st.text := by
  obtain ⟨b, hb⟩ := Option.ne_none_iff_exists'.mp h.cur
  simp [Scan.first, Scan.text, h.words, hb]

/-- After a first word that began with a plain byte: another word has begun, or
every blank was emitted. -/
theorem first_word_run {c : UInt8} {p : Bytes} {st : Scan} (hc : isPlain c = true) (hc35 : c ≠ 35)
    (h : run .init (c :: p) = some st) :
    (InFirst st ∧ blanks (c :: p) ≤ blanks (removeQuotes st.text)) ∨ st.words ≠ [] := by
  have hstep : step .init c = some (Scan.init.push c false .unquoted) := step_plain _ rfl hc (.inl hc35)
  rw [run, hstep, Option.bind_some] at h
  have hin : InFirst (Scan.init.push c false .unquoted) := ⟨rfl, by simp [Scan.push], by simp [Scan.push]⟩
  refine (inFirst_run hin h).imp_left fun ⟨hst, hb⟩ => ⟨hst, ?_⟩
  have hsplit : blanks (c :: p) = blanks [c] + blanks p := blanks_append [c] p
  have htext : removeQuotes (Scan.init.push c false .unquoted).text = [c] := rfl
  rw [htext] at hb
  omega

/-- A text beginning with a plain byte is not the only word when a blank and
another plain byte follow it. -/
theorem splitWords_first {c d b : UInt8} {p t : Bytes} (hc : isPlain c = true) (hc35 : c ≠ 35)
    (hb : isBlank b = true) (hd : isPlain d = true) (hd35 : d ≠ 35) :
    splitWords (c :: p ++ b :: d :: t) ≠ some [c :: p] := by
  intro h
  obtain ⟨ws, hread, -, hbytes⟩ := splitWords_some h
  obtain ⟨w, rfl, hw⟩ := List.map_eq_singleton_iff.mp hbytes.symm
  obtain ⟨st', hrun, hfin⟩ := Option.bind_eq_some_iff.mp hread
  rw [run_append] at hrun
  obtain ⟨st₁, hword, hrest⟩ := Option.bind_eq_some_iff.mp hrun
  have hws := finish_words hfin
  rcases first_word_run hc hc35 hword with ⟨hin, hblanks⟩ | hne
  · obtain ⟨st₂, hstep, hrest⟩ := Option.bind_eq_some_iff.mp hrest
    rcases inFirst_step hin hstep with ⟨hin₂, hblanks₂⟩ | rfl
    · -- the blank was quoted: one blank too many in the word
      obtain ⟨y, hy, hpre⟩ := run_first hrest (inFirst_first hin₂)
      rw [Scan.first, ← hws] at hy
      cases hy
      have hle : blanks (removeQuotes st₂.text) ≤ blanks (c :: p) :=
        hw ▸ (hpre.map Prod.fst).sublist.countP_le
      have hone : blanks [b] = 1 := by simp [blanks, hb]
      omega
    · -- the blank ended the word: a second one begins
      obtain ⟨st₃, hstep₃, hrest⟩ := Option.bind_eq_some_iff.mp hrest
      rw [step_plain _ rfl hd (.inl hd35), Option.some.injEq] at hstep₃
      subst hstep₃
      have hcount := run_count hrest
      have hone : st₁.cur.toList.length = 1 := by
        obtain ⟨x, hx⟩ := Option.ne_none_iff_exists'.mp hin.cur
        simp [hx]
      have htotal : st'.count = 1 := by
        have := congrArg List.length hws
        simpa [Scan.count] using this.symm
      simp only [Scan.count, Scan.push, Scan.flush, List.length_append, Option.toList_some,
        List.length_singleton] at hcount htotal
      omega
  · -- the word ended early, so it is shorter
    obtain ⟨v, vs, hv⟩ := List.exists_cons_of_ne_nil hne
    obtain ⟨rest, hpre⟩ := run_words hrest
    rw [← hpre, hv] at hws
    have hvw : v.length = (c :: p).length := by
      simp only [List.cons_append, List.cons.injEq] at hws
      rw [← hws.1, ← hw, removeQuotes, List.length_map]
    have hsize := run_size hword
    have h₀ := init_size
    simp only [Scan.size, hv, size_cons, hvw] at hsize h₀
    omega

theorem splitWords_cStr_first {c d b : UInt8} {p t : Bytes} (hc : isPlain c = true) (hc35 : c ≠ 35)
    (hb : isBlank b = true) (hd : isPlain d = true) (hd35 : d ≠ 35) :
    splitWords (cStr (c :: p ++ b :: d :: t)) ≠ some [c :: p] := by
  intro h
  have hsize := splitWords_size h
  rw [size_cons, size_nil] at hsize
  have hb0 : b ≠ 0 := by intro h0; subst h0; cases hb
  have hd0 : d ≠ 0 := by intro h0; subst h0; cases hd
  have hcut : cStr (b :: d :: t) = b :: d :: cStr t := by simp [cStr, hb0, hd0]
  rw [cStr_append_of_length (by omega), hcut] at h
  exact splitWords_first hc hc35 hb hd hd35 h

end Shell
