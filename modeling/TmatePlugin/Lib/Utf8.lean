import TmatePlugin.Lib.CString
import TmatePlugin.Lib.CodeWords
import Mathlib.Data.List.Forall2

/-!
# UTF-8 byte strings

Validity is that of `String`: the bytes of a list of Unicode scalar values. A
byte begins a character when it is no continuation byte
(`UInt8.IsUTF8FirstByte`).

* `valid_take_iff`: a prefix of valid bytes is valid exactly when it ends
  between two characters, which the byte behind it tells.
* `valid_append_right_iff`: valid bytes at the end do not change anything.
* `valid_iff_concat`: the valid bytes are the sequences of encoded characters.
* `word_cons_iff`: the bytes of a character, by ranges that the first byte gives.
-/
namespace Utf8

open CString

def Valid (s : Bytes) : Prop := s.toByteArray.IsValidUTF8

/-- The byte at `n` is the end of `s` or begins a character. -/
def Boundary (s : Bytes) (n : Nat) : Prop := ∀ c ∈ s[n]?, c.IsUTF8FirstByte

instance (s : Bytes) (n : Nat) : Decidable (Boundary s n) :=
  match h : s[n]? with
  | none => .isTrue fun c hc => by rw [h] at hc; cases hc
  | some c => decidable_of_iff c.IsUTF8FirstByte (by simp [Boundary, h])

theorem valid_nil : Valid [] := ByteArray.isValidUTF8_empty

theorem Valid.append {s t : Bytes} (hs : Valid s) (ht : Valid t) : Valid (s ++ t) := by
  unfold Valid
  rw [List.toByteArray_append]
  exact ByteArray.IsValidUTF8.append hs ht

/-- The bytes of a literal. -/
theorem valid_str (s : String) : Valid (str s) := by
  have h : (str s).toByteArray = s.toByteArray := ByteArray.ext (by simp [str])
  unfold Valid
  rw [h]
  exact s.isValidUTF8

theorem toByteArray_take (s : Bytes) (n : Nat) : (s.take n).toByteArray = s.toByteArray.extract 0 n :=
  ByteArray.ext (by simp)

/-- A prefix is valid exactly when it does not end inside a character. -/
theorem valid_take_iff {s : Bytes} (hs : Valid s) (n : Nat) : Valid (s.take n) ↔ Boundary s n := by
  by_cases hn : n < s.length
  · let text : String := .ofByteArray s.toByteArray hs
    have hsize : text.rawEndPos.byteIdx = s.length := by
      simp [text, String.rawEndPos, String.utf8ByteSize]
    have hvalid : Valid (s.take n) ↔ (String.Pos.Raw.mk n).IsValid text := by
      rw [String.Pos.Raw.isValid_iff_isValidUTF8_extract_zero, Valid, toByteArray_take]
      refine ⟨fun h => ⟨?_, h⟩, fun h => h.2⟩
      rw [String.Pos.Raw.le_iff, hsize]
      exact hn.le
    rw [hvalid, String.Pos.Raw.isValid_iff_isUTF8FirstByte]
    constructor
    · intro h c hc
      rcases h with hend | ⟨hlt, hfirst⟩
      · have hlength : n = s.length := (congrArg String.Pos.Raw.byteIdx hend).trans hsize
        omega
      · rw [List.getElem?_eq_getElem hn] at hc
        cases hc
        simpa [text, String.getUTF8Byte] using hfirst
    · intro h
      refine .inr ⟨?_, ?_⟩
      · rw [String.Pos.Raw.lt_iff, hsize]
        exact hn
      · simpa [text, String.getUTF8Byte] using h _ (List.getElem?_eq_getElem hn)
  · have hall : s.take n = s := List.take_of_length_le (Nat.le_of_not_lt hn)
    rw [hall]
    refine ⟨fun _ c hc => ?_, fun _ => hs⟩
    rw [List.getElem?_eq_none (Nat.le_of_not_lt hn)] at hc
    cases hc

/-- Valid bytes begin with the first byte of a character. -/
theorem Valid.boundary_zero {s : Bytes} (hs : Valid s) : Boundary s 0 :=
  (valid_take_iff hs 0).mp valid_nil

/-- Valid bytes at the end can be taken off. -/
theorem valid_append_right_iff {s t : Bytes} (ht : Valid t) : Valid (s ++ t) ↔ Valid s := by
  refine ⟨fun h => ?_, fun h => h.append ht⟩
  have hs : (s ++ t).take s.length = s := List.take_left
  rw [← hs]
  refine (valid_take_iff h s.length).mpr fun c hc => ?_
  rw [List.getElem?_append_right (Nat.le_refl _), Nat.sub_self] at hc
  exact ht.boundary_zero c hc

/-! ## Characters -/

/-- The bytes of one character. -/
def Word (w : Bytes) : Prop := ∃ c : Char, w = String.utf8EncodeChar c

theorem not_word_nil : ¬ Word [] := by
  rintro ⟨c, hc⟩
  have hlength := congrArg List.length hc
  rw [String.length_utf8EncodeChar] at hlength
  exact absurd hlength.symm c.utf8Size_pos.ne'

theorem valid_iff_concat {s : Bytes} : Valid s ↔ CodeWords.Concat Word s := by
  constructor
  · rintro ⟨cs, hcs⟩
    have hs : s = cs.flatMap String.utf8EncodeChar := List.toByteArray_inj.mp hcs
    refine ⟨cs.map String.utf8EncodeChar, fun w hw => ?_, by rw [hs, List.flatMap_def]⟩
    obtain ⟨c, -, rfl⟩ := List.mem_map.mp hw
    exact ⟨c, rfl⟩
  · rintro ⟨ws, hws, rfl⟩
    induction ws with
    | nil => exact valid_nil
    | cons w ws ih =>
      obtain ⟨c, rfl⟩ := hws w List.mem_cons_self
      have hc : Valid (String.utf8EncodeChar c) := ⟨[c], by simp [List.utf8Encode]⟩
      exact hc.append (ih fun w hw => hws w (List.mem_cons_of_mem _ hw))

/-- The bytes of a code point, as numbers. -/
def codeBytes (v : Nat) : List Nat :=
  if v ≤ 0x7f then [v]
  else if v ≤ 0x7ff then [v / 64 % 32 + 0xc0, v % 64 + 0x80]
  else if v ≤ 0xffff then [v / 4096 % 16 + 0xe0, v / 64 % 64 + 0x80, v % 64 + 0x80]
  else [v / 262144 % 8 + 0xf0, v / 4096 % 64 + 0x80, v / 64 % 64 + 0x80, v % 64 + 0x80]

theorem codeBytes_eq (c : Char) : codeBytes c.toNat = (String.utf8EncodeChar c).map UInt8.toNat := by
  have hv : c.toNat = c.val.toNat := rfl
  unfold codeBytes String.utf8EncodeChar
  rw [hv]
  dsimp only
  split_ifs <;> simp only [List.map_cons, List.map_nil, UInt8.toNat_ofNat', List.cons.injEq, and_true] <;> omega

theorem word_iff {w : Bytes} : Word w ↔ ∃ v : Nat, v.isValidChar ∧ w.map UInt8.toNat = codeBytes v := by
  constructor
  · rintro ⟨c, rfl⟩
    exact ⟨c.toNat, c.valid, (codeBytes_eq c).symm⟩
  · rintro ⟨v, hv, hw⟩
    refine ⟨Char.ofNatAux v hv, ?_⟩
    have hc : w.map UInt8.toNat = (String.utf8EncodeChar (Char.ofNatAux v hv)).map UInt8.toNat :=
      hw.trans (codeBytes_eq (Char.ofNatAux v hv))
    exact List.map_injective_iff.mpr (fun a b h => UInt8.toNat_inj.mp h) hc

/-- The range of a continuation byte. -/
def tail : Nat × Nat := (0x80, 0xbf)

/-- The ranges of the bytes that follow a first byte. -/
def ranges (b : Nat) : Option (List (Nat × Nat)) :=
  if b ≤ 0x7f then some []
  else if b < 0xc2 then none
  else if b ≤ 0xdf then some [tail]
  else if b = 0xe0 then some [(0xa0, 0xbf), tail]
  else if b = 0xed then some [(0x80, 0x9f), tail]
  else if b ≤ 0xef then some [tail, tail]
  else if b = 0xf0 then some [(0x90, 0xbf), tail, tail]
  else if b ≤ 0xf3 then some [tail, tail, tail]
  else if b = 0xf4 then some [(0x80, 0x8f), tail, tail]
  else none

/-- The bytes are in their ranges, one for one. -/
abbrev Within : List (Nat × Nat) → List Nat → Prop := List.Forall₂ fun r c => r.1 ≤ c ∧ c ≤ r.2

theorem within_tail (x : Nat) : tail.1 ≤ x % 64 + 0x80 ∧ x % 64 + 0x80 ≤ tail.2 :=
  ⟨Nat.le_add_left _ _, by have := Nat.mod_lt x (by decide : 0 < 64); simp only [tail]; omega⟩

theorem ranges_tails {b : Nat} :
    (b ≤ 0x7f → ranges b = some []) ∧
    (0xc2 ≤ b → b ≤ 0xdf → ranges b = some [tail]) ∧
    (0xe1 ≤ b → b ≤ 0xef → b ≠ 0xed → ranges b = some [tail, tail]) ∧
    (0xf1 ≤ b → b ≤ 0xf3 → ranges b = some [tail, tail, tail]) := by
  unfold ranges
  refine ⟨fun h => if_pos h, fun _ _ => ?_, fun _ _ _ => ?_, fun _ _ => ?_⟩
  all_goals split_ifs <;> first | rfl | omega

theorem codeBytes_within {v b : Nat} {u : List Nat} (hv : v.isValidChar) (hw : b :: u = codeBytes v) :
    ∃ rs, ranges b = some rs ∧ Within rs u := by
  have hv : v < 0xd800 ∨ 0xdfff < v ∧ v < 0x110000 := hv
  obtain ⟨hone, htwo, hthree, hfour⟩ := ranges_tails (b := b)
  unfold codeBytes at hw
  split_ifs at hw with h1 h2 h3
  · cases hw
    exact ⟨[], hone h1, .nil⟩
  · cases hw
    exact ⟨_, htwo (by omega) (by omega), .cons (within_tail _) .nil⟩
  · obtain ⟨hb, rfl⟩ := List.cons.inj hw
    have hrest := List.Forall₂.cons (R := fun (r : Nat × Nat) c => r.1 ≤ c ∧ c ≤ r.2) (within_tail v) .nil
    by_cases hlow : v < 0x1000
    · have hb : b = 0xe0 := by omega
      exact ⟨[(0xa0, 0xbf), tail], by rw [hb]; rfl, .cons (by omega) hrest⟩
    · by_cases hsurrogate : 0xd000 ≤ v ∧ v < 0xe000
      · have hb : b = 0xed := by omega
        exact ⟨[(0x80, 0x9f), tail], by rw [hb]; rfl, .cons (by omega) hrest⟩
      · exact ⟨_, hthree (by omega) (by omega) (by omega), .cons (within_tail _) hrest⟩
  · obtain ⟨hb, rfl⟩ := List.cons.inj hw
    have hrest := List.Forall₂.cons (R := fun (r : Nat × Nat) c => r.1 ≤ c ∧ c ≤ r.2) (within_tail (v / 64))
      (.cons (within_tail v) .nil)
    by_cases hlow : v < 0x40000
    · have hb : b = 0xf0 := by omega
      exact ⟨[(0x90, 0xbf), tail, tail], by rw [hb]; rfl, .cons (by omega) hrest⟩
    · by_cases hhigh : 0x100000 ≤ v
      · have hb : b = 0xf4 := by omega
        exact ⟨[(0x80, 0x8f), tail, tail], by rw [hb]; rfl, .cons (by omega) hrest⟩
      · exact ⟨_, hfour (by omega) (by omega), .cons (within_tail _) hrest⟩

/-! The code point of bytes in these ranges. -/

theorem codeBytes_two {b c : Nat} (hb : 0xc2 ≤ b ∧ b ≤ 0xdf) (hc : 0x80 ≤ c ∧ c ≤ 0xbf) :
    codeBytes ((b - 0xc0) * 64 + (c - 0x80)) = [b, c] := by
  unfold codeBytes
  rw [if_neg (by omega), if_pos (by omega)]
  simp only [List.cons.injEq, and_true]
  omega

theorem codeBytes_three {b c d : Nat} (hb : 0xe0 ≤ b ∧ b ≤ 0xef) (hc : 0x80 ≤ c ∧ c ≤ 0xbf)
    (hd : 0x80 ≤ d ∧ d ≤ 0xbf) (hlow : b = 0xe0 → 0xa0 ≤ c) :
    codeBytes ((b - 0xe0) * 4096 + (c - 0x80) * 64 + (d - 0x80)) = [b, c, d] := by
  unfold codeBytes
  rw [if_neg (by omega), if_neg (by omega), if_pos (by omega)]
  simp only [List.cons.injEq, and_true]
  omega

theorem codeBytes_four {b c d e : Nat} (hb : 0xf0 ≤ b ∧ b ≤ 0xf4) (hc : 0x80 ≤ c ∧ c ≤ 0xbf)
    (hd : 0x80 ≤ d ∧ d ≤ 0xbf) (he : 0x80 ≤ e ∧ e ≤ 0xbf) (hlow : b = 0xf0 → 0x90 ≤ c) :
    codeBytes ((b - 0xf0) * 262144 + (c - 0x80) * 4096 + (d - 0x80) * 64 + (e - 0x80)) = [b, c, d, e] := by
  unfold codeBytes
  rw [if_neg (by omega), if_neg (by omega), if_neg (by omega)]
  simp only [List.cons.injEq, and_true]
  omega

theorem isValidChar_of {v : Nat} (h : v < 0xd800 ∨ 0xdfff < v ∧ v < 0x110000) : v.isValidChar := h

theorem exists_of_within {b : Nat} {u : List Nat} {rs : List (Nat × Nat)} (hrs : ranges b = some rs)
    (hu : Within rs u) : ∃ v : Nat, v.isValidChar ∧ b :: u = codeBytes v := by
  unfold ranges at hrs
  split_ifs at hrs
  all_goals cases hrs
  · cases hu
    exact ⟨b, isValidChar_of (by omega), (if_pos (by assumption)).symm⟩
  · obtain _ | ⟨hc, _ | _⟩ := hu
    exact ⟨_, isValidChar_of (by simp only [tail] at hc; omega), (codeBytes_two (by omega) hc).symm⟩
  · obtain _ | ⟨hc, _ | ⟨hd, _ | _⟩⟩ := hu
    refine ⟨_, isValidChar_of ?_, (codeBytes_three (by omega) (by omega) hd (by omega)).symm⟩
    simp only [tail] at hd
    omega
  · obtain _ | ⟨hc, _ | ⟨hd, _ | _⟩⟩ := hu
    refine ⟨_, isValidChar_of ?_, (codeBytes_three (by omega) (by omega) hd (by omega)).symm⟩
    simp only [tail] at hd
    omega
  · obtain _ | ⟨hc, _ | ⟨hd, _ | _⟩⟩ := hu
    refine ⟨_, isValidChar_of ?_, (codeBytes_three (by omega) hc hd (by omega)).symm⟩
    simp only [tail] at hc hd
    omega
  · obtain _ | ⟨hc, _ | ⟨hd, _ | ⟨he, _ | _⟩⟩⟩ := hu
    refine ⟨_, isValidChar_of ?_, (codeBytes_four (by omega) (by omega) hd he (by omega)).symm⟩
    simp only [tail] at hd he
    omega
  · obtain _ | ⟨hc, _ | ⟨hd, _ | ⟨he, _ | _⟩⟩⟩ := hu
    refine ⟨_, isValidChar_of ?_, (codeBytes_four (by omega) hc hd he (by omega)).symm⟩
    simp only [tail] at hc hd he
    omega
  · obtain _ | ⟨hc, _ | ⟨hd, _ | ⟨he, _ | _⟩⟩⟩ := hu
    refine ⟨_, isValidChar_of ?_, (codeBytes_four (by omega) (by omega) hd he (by omega)).symm⟩
    simp only [tail] at hd he
    omega

theorem word_cons_iff {b : UInt8} {u : Bytes} :
    Word (b :: u) ↔ ∃ rs, ranges b.toNat = some rs ∧ Within rs (u.map UInt8.toNat) := by
  rw [word_iff]
  constructor
  · rintro ⟨v, hv, hw⟩
    exact codeBytes_within hv hw
  · rintro ⟨rs, hrs, hu⟩
    exact exists_of_within hrs hu

end Utf8
