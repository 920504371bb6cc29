import Mathlib.Data.List.Basic
import Mathlib.Tactic.Common

/-!
# A ring that keeps the newest of a history

A ring of `n` cells is written at a position `w` that goes back to the first cell
behind the last one; `wrapped` records that it has done so. `window` is what the
ring holds, oldest first.

* `Holds.fits`, `Holds.wraps`: the two ways to write a piece of at most `n`
  elements keep `Holds`, that the window is the newest part of the history.
* `readFrom`, `readFrom_split`: reading a window in pieces, none of which runs
  over the end of the ring.
-/
namespace Ring

variable {α : Type}

/-- The last `n` elements. -/
def newest (n : Nat) (history : List α) : List α := history.drop (history.length - n)

theorem newest_of_le {n : Nat} {history : List α} (h : history.length ≤ n) :
    newest n history = history := by
  rw [newest, Nat.sub_eq_zero_of_le h, List.drop_zero]

/-- A full window moves on by what is appended. -/
theorem newest_append {n : Nat} {history piece : List α} (h : n ≤ history.length) :
    newest n (history ++ piece) = (newest n history ++ piece).drop piece.length := by
  have hsub : history.length - n ≤ history.length := Nat.sub_le _ _
  rw [newest, newest, ← List.drop_append_of_le_length hsub, List.drop_drop, List.length_append]
  congr 1
  omega

def window (cells : List α) (w : Nat) (wrapped : Bool) : List α :=
  if wrapped then cells.drop w ++ cells.take w else cells.take w

/-- The ring holds the newest part of the history, and has wrapped only when that
fills it. -/
structure Holds (n : Nat) (cells : List α) (w : Nat) (wrapped : Bool) (history : List α) : Prop where
  size : cells.length = n
  position : w ≤ n
  newest : window cells w wrapped = newest n history
  full : wrapped = true → n ≤ history.length
  all : wrapped = false → history.length = w

theorem holds_empty {n : Nat} {cells : List α} (h : cells.length = n) : Holds n cells 0 false [] where
  size := h
  position := Nat.zero_le n
  newest := by simp [window, Ring.newest]
  full hw := by cases hw
  all _ := rfl

namespace Holds

variable {n : Nat} {cells : List α} {w : Nat} {wrapped : Bool} {history : List α}

/-- A piece that fits before the end. -/
theorem fits (h : Holds n cells w wrapped history) {piece : List α} (hfit : w + piece.length ≤ n) :
    Holds n (cells.take w ++ piece ++ cells.drop (w + piece.length)) (w + piece.length) wrapped
      (history ++ piece) where
  size := by
    have := h.size
    simp only [List.length_append, List.length_take, List.length_drop]
    omega
  position := hfit
  newest := by
    have hlen : (cells.take w ++ piece).length = w + piece.length := by
      rw [List.length_append, List.length_take, Nat.min_eq_left (by have := h.size; omega)]
    have hnewest := h.newest
    cases wrapped with
    | false =>
      have hall := h.all rfl
      simp only [window, Bool.false_eq_true, if_false] at hnewest ⊢
      rw [newest_of_le (by omega)] at hnewest
      rw [newest_of_le (by rw [List.length_append]; omega), ← hnewest, ← hlen, List.take_left]
    | true =>
      have hfull := h.full rfl
      simp only [window, if_true] at hnewest ⊢
      rw [newest_append hfull, ← hnewest]
      have hdrop : piece.length ≤ (cells.drop w).length := by
        rw [List.length_drop, h.size]
        omega
      rw [← hlen, List.drop_left, List.take_left, List.append_assoc,
        List.drop_append_of_le_length hdrop, List.drop_drop, hlen]
  full hw := by
    have := h.full hw
    rw [List.length_append]
    omega
  all hw := by rw [List.length_append, h.all hw]

/-- A piece that runs over the end: its first part fills the ring, the second
starts again at the first cell. -/
theorem wraps (h : Holds n cells w wrapped history) {first second : List α}
    (hfirst : w + first.length = n) (hsecond : second.length ≤ w) :
    Holds n (second ++ (cells.take w).drop second.length ++ first) second.length true
      (history ++ (first ++ second)) where
  size := by
    have := h.size
    simp only [List.length_append, List.length_take, List.length_drop]
    omega
  position := by omega
  newest := by
    have htake : (cells.take w).length = w := by
      rw [List.length_take, Nat.min_eq_left (by have := h.size; omega)]
    have hnewest := h.newest
    simp only [window, if_true, List.append_assoc, List.drop_left, List.take_left]
    cases wrapped with
    | false =>
      have hall := h.all rfl
      simp only [window, Bool.false_eq_true, if_false] at hnewest
      rw [newest_of_le (by omega)] at hnewest
      rw [Ring.newest, ← hnewest, ← List.drop_append_of_le_length (by omega)]
      congr 1
      simp only [List.length_append]
      omega
    | true =>
      have hfull := h.full rfl
      simp only [window, if_true] at hnewest
      have hdrop : (cells.drop w).length = first.length := by
        rw [List.length_drop, h.size]
        omega
      rw [newest_append hfull, ← hnewest, List.length_append, ← List.drop_drop, ← hdrop, List.append_assoc,
        List.drop_left, List.drop_append_of_le_length (by omega)]
  full _ := by
    have hlen := h.size
    simp only [List.length_append]
    cases wrapped with
    | false => have := h.all rfl; omega
    | true => have := h.full rfl; omega
  all hw := by cases hw

end Holds

/-! ## Reading -/

/-- The `k` elements from position `r` on, around the ring. -/
def readFrom (cells : List α) (r k : Nat) : List α := (cells.drop r ++ cells.take r).take k

/-- The first position is behind the last one. -/
theorem readFrom_end (cells : List α) (k : Nat) : readFrom cells cells.length k = readFrom cells 0 k := by
  simp [readFrom]

theorem readFrom_split {cells : List α} {r k k' : Nat} (hk : k ≤ cells.length) (hk' : k' ≤ k)
    (hend : r + k' ≤ cells.length) (hlast : k' = k ∨ r + k' = cells.length) :
    readFrom cells r k = (cells.drop r).take k' ++ readFrom cells (r + k') (k - k') := by
  have hdrop : (cells.drop r).length = cells.length - r := List.length_drop
  rcases hlast with rfl | hlast
  · rw [readFrom, List.take_append_of_le_length (by omega), readFrom, Nat.sub_self, List.take_zero,
      List.append_nil]
  · have hk'len : k' = (cells.drop r).length := by omega
    rw [hlast, readFrom_end, readFrom, List.take_append, List.take_of_length_le (by omega), readFrom,
      List.drop_zero, List.take_zero, List.append_nil, hk'len, List.take_length, List.take_take]
    congr 2
    omega

/-- The window is read from the oldest element on. -/
theorem window_eq_readFrom {cells : List α} {w : Nat} {wrapped : Bool} :
    window cells w wrapped =
      if wrapped then readFrom cells w cells.length else readFrom cells 0 w := by
  cases wrapped with
  | false => simp [window, readFrom]
  | true =>
    have hlen : (cells.drop w ++ cells.take w).length ≤ cells.length := by
      simp only [List.length_append, List.length_drop, List.length_take]
      omega
    simp only [window, if_true, readFrom, List.take_of_length_le hlen]

end Ring
