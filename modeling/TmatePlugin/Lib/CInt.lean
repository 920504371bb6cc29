import Mathlib.Algebra.Order.Ring.Int
import TmatePlugin.Lib.CString

/-!
# `stoi`, `abs` and conversions

The C++ `int` (32 bits) read from a string.

* `strtol`: white space, a sign, and the longest run of decimal digits; what
  follows is ignored. `strtol_eq_some_iff` says the same of the parts of the
  string (`Reads`).
* `stoi`: the value, if there is a digit and the value is an int.
* `abs?`: `-INT_MIN` is not an int.
* `wrapInt`, `toSize`: a value brought back into the range of an `int` or of a
  `size_t`.
-/
namespace CInt

open CString

def intMin : Int := -2 ^ 31

def intMax : Int := 2 ^ 31 - 1

/-- `isspace` in the C locale. -/
def isSpace (c : UInt8) : Bool := c = 32 || (9 ≤ c && c ≤ 13)

def isDigit (c : UInt8) : Bool := 48 ≤ c && c ≤ 57

/-- The number a run of digits stands for. -/
def digitsValue (digits : Bytes) : Nat := digits.foldl (fun n c => 10 * n + (c.toNat - 48)) 0

inductive Sign where
  | none
  | plus
  | minus
  deriving DecidableEq, Repr

def Sign.text : Sign → Bytes
  | .none => []
  | .plus => [43]
  | .minus => [45]

def Sign.apply (n : Nat) : Sign → Int
  | .none => n
  | .plus => n
  | .minus => -n

/-- The sign at the beginning, and what follows it. -/
def splitSign : Bytes → Sign × Bytes
  | [] => (.none, [])
  | c :: s => if c = 43 then (.plus, s) else if c = 45 then (.minus, s) else (.none, c :: s)

/-- The number without its range; `none` when there is no digit. -/
def strtol (s : Bytes) : Option Int :=
  let signed := splitSign ((cStr s).dropWhile isSpace)
  let digits := signed.2.takeWhile isDigit
  if digits = [] then none else some (signed.1.apply (digitsValue digits))

/-- The exceptions of `stoi`; the text of both is the function's name. -/
inductive StoiError where
  | invalidArgument
  | outOfRange
  deriving DecidableEq, Repr

def StoiError.what (_ : StoiError) : Bytes := str "stoi"

def stoi (s : Bytes) : Except StoiError Int :=
  match strtol s with
  | none => .error .invalidArgument
  | some v => if intMin ≤ v ∧ v ≤ intMax then .ok v else .error .outOfRange

/-- `abs`, `none` where it overflows. -/
def abs? (v : Int) : Option Nat := if v = intMin then none else some v.natAbs

/-- The `int` that the hardware leaves when the value has overflowed. -/
def wrapInt (v : Int) : Int := v.bmod (2 ^ 32)

theorem wrapInt_of_range {v : Int} (h : intMin ≤ v ∧ v ≤ intMax) : wrapInt v = v := by
  unfold intMin intMax at h
  exact Int.bmod_eq_of_le (by omega) (by omega)

/-- An `int` as a `size_t`. -/
def toSize (v : Int) : Nat := (v % 2 ^ 64).toNat

theorem toSize_natCast {n : Nat} (h : n < 2 ^ 64) : toSize n = n := by
  rw [toSize]
  omega

/-! ## The parts of a number -/

/-- The string starts with the number `v`. -/
def Reads (s : Bytes) (v : Int) : Prop :=
  ∃ (blanks digits rest : Bytes) (sign : Sign),
    cStr s = blanks ++ (sign.text ++ (digits ++ rest)) ∧ (∀ c ∈ blanks, isSpace c = true) ∧
    digits ≠ [] ∧ (∀ c ∈ digits, isDigit c = true) ∧ (∀ c ∈ rest.head?, isDigit c = false) ∧
    v = sign.apply (digitsValue digits)

theorem splitSign_text (s : Bytes) : (splitSign s).1.text ++ (splitSign s).2 = s := by
  cases s with
  | nil => rfl
  | cons c s =>
    rw [splitSign]
    by_cases hplus : c = 43
    · rw [if_pos hplus, hplus]; rfl
    · rw [if_neg hplus]
      by_cases hminus : c = 45
      · rw [if_pos hminus, hminus]; rfl
      · rw [if_neg hminus]; rfl

/-- A digit is neither a sign nor white space. -/
theorem digit_facts {c : UInt8} (h : isDigit c = true) : c ≠ 43 ∧ c ≠ 45 ∧ isSpace c = false := by
  simp only [isDigit, Bool.and_eq_true, decide_eq_true_eq, UInt8.le_iff_toNat_le] at h
  simp only [isSpace, Bool.or_eq_false_iff, Bool.and_eq_false_iff, decide_eq_false_iff_not,
    UInt8.le_iff_toNat_le, ne_eq, ← UInt8.toNat_inj]
  simp only [UInt8.reduceToNat] at h ⊢
  omega

/-- A run ends where its predicate fails. -/
theorem span_exact {p : UInt8 → Bool} {run rest : Bytes} (hrun : ∀ c ∈ run, p c = true)
    (hrest : ∀ c ∈ rest.head?, p c = false) :
    (run ++ rest).takeWhile p = run ∧ (run ++ rest).dropWhile p = rest := by
  rw [List.takeWhile_append_of_pos hrun, List.dropWhile_append_of_pos hrun]
  cases rest with
  | nil => simp
  | cons c rest => simp [hrest c rfl]

/-- What follows the white space starts with a sign or a digit. -/
theorem signed_head {sign : Sign} {digits rest : Bytes} (hne : digits ≠ [])
    (hdigits : ∀ c ∈ digits, isDigit c = true) :
    (∀ c ∈ (sign.text ++ (digits ++ rest)).head?, isSpace c = false) ∧
      splitSign (sign.text ++ (digits ++ rest)) = (sign, digits ++ rest) := by
  obtain ⟨d, digits', rfl⟩ := List.exists_cons_of_ne_nil hne
  obtain ⟨hplus, hminus, hspace⟩ := digit_facts (hdigits d List.mem_cons_self)
  cases sign with
  | none => exact ⟨fun c hc => by cases hc; exact hspace, by
      show splitSign (d :: (digits' ++ rest)) = _
      rw [splitSign, if_neg hplus, if_neg hminus]; rfl⟩
  | plus => exact ⟨fun c hc => by cases hc; rfl, rfl⟩
  | minus => exact ⟨fun c hc => by cases hc; rfl, rfl⟩

theorem strtol_eq_some_iff {s : Bytes} {v : Int} : strtol s = some v ↔ Reads s v := by
  constructor
  · intro h
    simp only [strtol] at h
    split at h
    · cases h
    rename_i hdigits
    refine ⟨(cStr s).takeWhile isSpace, _, (splitSign ((cStr s).dropWhile isSpace)).2.dropWhile isDigit,
      (splitSign ((cStr s).dropWhile isSpace)).1, ?_, fun c hc => List.mem_takeWhile_imp hc, hdigits,
      fun c hc => List.mem_takeWhile_imp hc, ?_, (Option.some.inj h).symm⟩
    · rw [List.takeWhile_append_dropWhile, splitSign_text, List.takeWhile_append_dropWhile]
    · intro c hc
      have hnot := List.head?_dropWhile_not isDigit (splitSign ((cStr s).dropWhile isSpace)).2
      rw [hc] at hnot
      exact hnot
  · intro h
    obtain ⟨blanks, digits, rest, sign, hs, hblanks, hne, hdigits, hrest, rfl⟩ := h
    obtain ⟨hspace, hsign⟩ := @signed_head sign digits rest hne hdigits
    unfold strtol
    rw [hs, (span_exact hblanks hspace).2, hsign]
    simp only [(span_exact hdigits hrest).1, if_neg hne]

theorem stoi_eq_ok_iff {s : Bytes} {v : Int} :
    stoi s = .ok v ↔ Reads s v ∧ intMin ≤ v ∧ v ≤ intMax := by
  rw [← strtol_eq_some_iff]
  unfold stoi
  split
  · rename_i h; simp [h]
  · rename_i w h
    rw [h]
    by_cases hrange : intMin ≤ w ∧ w ≤ intMax
    · rw [if_pos hrange]
      constructor
      · intro heq; cases heq; exact ⟨rfl, hrange⟩
      · intro heq; cases heq.1; rfl
    · rw [if_neg hrange]
      constructor
      · intro heq; cases heq
      · intro heq; cases heq.1; exact absurd heq.2 hrange

example : stoi (str " -32000: offline") = .ok (-32000) := by decide

theorem abs?_eq_some_iff {v : Int} {n : Nat} : abs? v = some n ↔ v ≠ intMin ∧ v.natAbs = n := by
  unfold abs?
  by_cases h : v = intMin <;> simp [h]

end CInt
