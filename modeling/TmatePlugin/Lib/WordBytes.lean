import Mathlib.Algebra.Order.Ring.Nat
import Mathlib.Data.Nat.Bitwise
import Mathlib.Data.List.Rotate
import Mathlib.Tactic.Common

/-!
# The bytes of machine words, and masks over bytes

A word is the list of its bytes, the lowest first.

* `bytesOf`, `valueOf`: a word of `n` bytes and its value; `valueOf_bytesOf` and
  `bytesOf_valueOf` are the round trips, `getElem?_bytesOf` one byte.
* `xorFrom`: bytes under a key stream, from a position of the stream on. It
  undoes itself (`xorFrom_xorFrom`) and can be done in pieces (`xorFrom_append`).
-/
namespace WordBytes

/-! ## Words -/

/-- The `n` low bytes of `x`. -/
def bytesOf : Nat → Nat → List UInt8
  | 0, _ => []
  | n + 1, x => UInt8.ofNat x :: bytesOf n (x / 256)

def valueOf : List UInt8 → Nat
  | [] => 0
  | b :: s => b.toNat + 256 * valueOf s

@[simp] theorem length_bytesOf (n x : Nat) : (bytesOf n x).length = n := by
  induction n generalizing x with
  | zero => rfl
  | succ n ih => rw [bytesOf, List.length_cons, ih]

/-- The value of the low bytes. -/
theorem valueOf_bytesOf {n x : Nat} (h : x < 256 ^ n) : valueOf (bytesOf n x) = x := by
  induction n generalizing x with
  | zero =>
    have hx : x = 0 := by simpa using h
    rw [hx]
    rfl
  | succ n ih =>
    have hx : x / 256 < 256 ^ n := Nat.div_lt_of_lt_mul (by rwa [Nat.pow_succ, Nat.mul_comm] at h)
    rw [bytesOf, valueOf, ih hx, UInt8.toNat_ofNat']
    omega

theorem bytesOf_valueOf (s : List UInt8) : bytesOf s.length (valueOf s) = s := by
  induction s with
  | nil => rfl
  | cons b s ih =>
    have hb : b.toNat < 256 := b.toNat_lt
    have hlow : UInt8.ofNat (b.toNat + 256 * valueOf s) = b := by
      apply UInt8.toNat_inj.mp
      rw [UInt8.toNat_ofNat']
      omega
    have hhigh : (b.toNat + 256 * valueOf s) / 256 = valueOf s := by omega
    rw [List.length_cons, valueOf, bytesOf, hlow, hhigh, ih]

/-- Only the low bytes matter. -/
theorem bytesOf_congr {n x y : Nat} (h : x % 256 ^ n = y % 256 ^ n) : bytesOf n x = bytesOf n y := by
  induction n generalizing x y with
  | zero => rfl
  | succ n ih =>
    rw [Nat.pow_succ, Nat.mul_comm, Nat.mod_mul, Nat.mod_mul] at h
    have hx := Nat.mod_lt x (by decide : 0 < 256)
    have hy := Nat.mod_lt y (by decide : 0 < 256)
    have hlow : UInt8.ofNat x = UInt8.ofNat y := by
      apply UInt8.toNat_inj.mp
      rw [UInt8.toNat_ofNat', UInt8.toNat_ofNat']
      omega
    have hhigh : x / 256 % 256 ^ n = y / 256 % 256 ^ n := by omega
    rw [bytesOf, bytesOf, hlow, ih hhigh]

theorem bytesOf_add (m n x : Nat) : bytesOf (m + n) x = bytesOf m x ++ bytesOf n (x / 256 ^ m) := by
  induction m generalizing x with
  | zero => simp [bytesOf]
  | succ m ih =>
    have hdiv : x / 256 / 256 ^ m = x / 256 ^ (m + 1) := by
      rw [Nat.div_div_eq_div_mul, Nat.pow_succ, Nat.mul_comm]
    rw [Nat.succ_add, bytesOf, ih, hdiv]
    rfl

theorem getElem?_bytesOf {n i : Nat} (h : i < n) (x : Nat) :
    (bytesOf n x)[i]? = some (UInt8.ofNat (x / 256 ^ i)) := by
  induction n generalizing i x with
  | zero => omega
  | succ n ih =>
    cases i with
    | zero => simp [bytesOf]
    | succ i =>
      rw [bytesOf, List.getElem?_cons_succ, ih (by omega), Nat.div_div_eq_div_mul, Nat.pow_succ,
        Nat.mul_comm]

/-! ## Masks -/

/-- `s` under the bytes of the key stream from position `i` on. -/
def xorFrom (key : Nat → UInt8) : Nat → List UInt8 → List UInt8
  | _, [] => []
  | i, b :: s => (b ^^^ key i) :: xorFrom key (i + 1) s

@[simp] theorem length_xorFrom (key : Nat → UInt8) (i : Nat) (s : List UInt8) :
    (xorFrom key i s).length = s.length := by
  induction s generalizing i with
  | nil => rfl
  | cons b s ih => rw [xorFrom, List.length_cons, ih, List.length_cons]

theorem xorFrom_append (key : Nat → UInt8) (i : Nat) (s t : List UInt8) :
    xorFrom key i (s ++ t) = xorFrom key i s ++ xorFrom key (i + s.length) t := by
  induction s generalizing i with
  | nil => rfl
  | cons b s ih =>
    have hi : i + 1 + s.length = i + (b :: s).length := by rw [List.length_cons]; omega
    rw [List.cons_append, xorFrom, ih, hi]
    rfl

theorem xorFrom_xorFrom (key : Nat → UInt8) (i : Nat) (s : List UInt8) :
    xorFrom key i (xorFrom key i s) = s := by
  induction s generalizing i with
  | nil => rfl
  | cons b s ih =>
    have hb : b ^^^ key i ^^^ key i = b := by rw [UInt8.xor_assoc, UInt8.xor_self, UInt8.xor_zero]
    rw [xorFrom, xorFrom, ih, hb]

theorem mapIdx_xor (key : Nat → UInt8) (i : Nat) (s : List UInt8) :
    (s.mapIdx fun j b => b ^^^ key (i + j)) = xorFrom key i s := by
  induction s generalizing i with
  | nil => rfl
  | cons b s ih =>
    rw [List.mapIdx_cons, xorFrom, ← ih (i + 1)]
    simp only [Nat.add_zero, Nat.add_right_comm i 1, Nat.add_assoc]

end WordBytes
