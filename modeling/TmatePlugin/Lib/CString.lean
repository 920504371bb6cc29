import Mathlib.Data.List.Infix
import Mathlib.Data.List.TakeWhile

/-!
# Byte strings

`std::string` and `char *` values as lists of bytes.

* `str`: the bytes of a literal.
* `cStr`: what a C function sees of `s.c_str()`, the bytes before the first NUL.
* `findSub`, `substrBefore`: `s.find(sub)` and `s.substr(0, s.find(sub))`.
* `substrBefore_append_self_iff`: an extension is cut off at the end exactly
  when it does not occur before.
* `getlines`: the lines a `getline` loop reads (a final newline ends the last
  line, it does not start another).
-/
namespace CString

abbrev Bytes := List UInt8

/-- The bytes of a literal. -/
def str (s : String) : Bytes := s.toByteArray.data.toList

/-- `s.c_str()` as a C function reads it. -/
def cStr (s : Bytes) : Bytes := s.takeWhile (· ≠ 0)

theorem cStr_initial (s : Bytes) : cStr s <+: s := List.takeWhile_prefix _

theorem cStr_length_le (s : Bytes) : (cStr s).length ≤ s.length := (cStr_initial s).length_le

theorem cStr_eq_self_iff {s : Bytes} : cStr s = s ↔ (0 : UInt8) ∉ s := by
  rw [cStr, List.takeWhile_eq_self_iff]
  constructor
  · intro h h0
    simpa using h 0 h0
  · intro h c hc
    simpa using fun h0 : c = 0 => h (h0 ▸ hc)

theorem cStr_no_nul (s : Bytes) : (0 : UInt8) ∉ cStr s := fun h => by
  simpa using List.mem_takeWhile_imp h

theorem cStr_append {s : Bytes} (hs : (0 : UInt8) ∉ s) (t : Bytes) : cStr (s ++ t) = s ++ cStr t := by
  rw [cStr, List.takeWhile_append_of_pos]
  · rfl
  · intro c hc
    simpa using fun h0 : c = 0 => hs (h0 ▸ hc)

/-- When nothing of `s` is cut off, nothing of it is in a longer string. -/
theorem cStr_append_of_length {s t : Bytes} (h : s.length ≤ (cStr (s ++ t)).length) :
    cStr (s ++ t) = s ++ cStr t := by
  have hpre : s <+: cStr (s ++ t) :=
    List.prefix_of_prefix_length_le (List.prefix_append s t) (cStr_initial _) h
  exact cStr_append (fun h0 => cStr_no_nul (s ++ t) (hpre.subset h0)) t

/-- `s.find(sub)`; `none` is `std::string::npos`. -/
def findSub (sub : Bytes) : Bytes → Option Nat
  | [] => if sub = [] then some 0 else none
  | c :: s => if sub <+: c :: s then some 0 else (findSub sub s).map (· + 1)

/-- `s.substr(0, s.find(sub))`; the whole of `s` when `sub` does not occur. -/
def substrBefore (sub s : Bytes) : Bytes :=
  match findSub sub s with
  | some n => s.take n
  | none => s

/-- The lines a `getline` loop reads after the bytes `cur` of the current one. -/
def getlinesFrom (cur : Bytes) : Bytes → List Bytes
  | [] => if cur = [] then [] else [cur]
  | c :: s => if c = 10 then cur :: getlinesFrom [] s else getlinesFrom (cur ++ [c]) s

/-- The lines read by `while (getline(file, str))`. -/
def getlines (content : Bytes) : List Bytes := getlinesFrom [] content

/-! ## Finding an extension -/

/-- A string with an occurrence in it is cut at or before its end. -/
theorem findSub_append_le (sub s t : Bytes) : ∃ n, findSub sub (s ++ (sub ++ t)) = some n ∧ n ≤ s.length := by
  induction s with
  | nil =>
    refine ⟨0, ?_, Nat.le_refl 0⟩
    have hpre : sub <+: sub ++ t := List.prefix_append sub t
    rw [List.nil_append]
    generalize sub ++ t = text at hpre
    cases text with
    | nil => rw [findSub, if_pos (List.prefix_nil.mp hpre)]
    | cons c text => rw [findSub, if_pos hpre]
  | cons c s ih =>
    obtain ⟨n, hn, hle⟩ := ih
    rw [List.cons_append, findSub]
    split
    · exact ⟨0, rfl, Nat.zero_le _⟩
    · rw [hn]
      exact ⟨n + 1, rfl, Nat.succ_le_succ hle⟩

/-- An occurrence lies in the string. -/
theorem findSub_length_le {sub s : Bytes} {n : Nat} (h : findSub sub s = some n) :
    n + sub.length ≤ s.length := by
  induction s generalizing n with
  | nil =>
    rw [findSub] at h
    split at h
    · rename_i hsub
      cases h
      simp [hsub]
    · cases h
  | cons c s ih =>
    rw [findSub] at h
    split at h
    · rename_i hpre
      cases h
      simpa using hpre.length_le
    · obtain ⟨m, hm, hmn⟩ := Option.map_eq_some_iff.mp h
      have hle := ih hm
      rw [List.length_cons]
      omega

/-- No end of `sub` is a beginning of it. -/
def Borderless (sub : Bytes) : Prop := ∀ k < sub.length, 0 < k → ¬ sub.drop k <+: sub

instance (sub : Bytes) : Decidable (Borderless sub) := by unfold Borderless; exact inferInstance

/-- An occurrence that begins before a borderless end lies before it. -/
theorem Borderless.prefix_of_append {sub t : Bytes} (hb : Borderless sub) (ht : t ≠ [])
    (h : sub <+: t ++ sub) : sub <+: t := by
  by_cases hlen : sub.length ≤ t.length
  · exact List.prefix_of_prefix_length_le h (List.prefix_append t sub) hlen
  · obtain ⟨rest, hrest⟩ := h
    have hshort : t.length ≤ sub.length := by omega
    have hdrop := congrArg (List.drop t.length) hrest
    rw [List.drop_append_of_le_length hshort, List.drop_left] at hdrop
    exact absurd ⟨rest, hdrop⟩ (hb t.length (by omega) (List.length_pos_iff.mpr ht))

/-- The first occurrence is the one at the end exactly when there is none before
it. -/
theorem findSub_append_self_iff {sub : Bytes} (hb : Borderless sub) (s : Bytes) (hne : sub ≠ []) :
    findSub sub (s ++ sub) = some s.length ↔ ¬ sub <:+: s := by
  induction s with
  | nil =>
    obtain ⟨n, hn, hle⟩ := findSub_append_le sub [] []
    rw [List.append_nil] at hn
    have hzero : n = 0 := Nat.le_zero.mp hle
    rw [hn, hzero]
    simp [hne]
  | cons c s ih =>
    rw [List.cons_append, findSub, List.infix_cons_iff, not_or, ← ih]
    split
    · rename_i h
      have hpre : sub <+: c :: s := hb.prefix_of_append (by simp) h
      simp [hpre]
    · rename_i h
      have hpre : ¬ sub <+: c :: s := fun hp => h (hp.trans (List.prefix_append (c :: s) sub))
      simp [hpre]

/-- Cutting at the first occurrence takes off the one at the end exactly when
there is no other. -/
theorem substrBefore_append_self_iff {sub : Bytes} (hb : Borderless sub) (hne : sub ≠ []) (s : Bytes) :
    substrBefore sub (s ++ sub) = s ↔ ¬ sub <:+: s := by
  rw [← findSub_append_self_iff hb s hne]
  obtain ⟨n, hn, hle⟩ := findSub_append_le sub s []
  rw [List.append_nil] at hn
  rw [substrBefore, hn, Option.some.injEq]
  constructor
  · intro h
    have hlength := congrArg List.length h
    rw [List.length_take, List.length_append] at hlength
    omega
  · intro h
    rw [h]
    exact List.take_left

/-- A text without the separator occurs on one side of it. -/
theorem infix_append_cons_iff {α : Type} {sub a b : List α} {c : α} (hc : c ∉ sub) :
    sub <:+: a ++ c :: b ↔ sub <:+: a ∨ sub <:+: b := by
  constructor
  · intro h
    obtain ⟨l, r, h⟩ := h
    rw [List.append_assoc, List.append_eq_append_iff] at h
    rcases h with ⟨a', rfl, h⟩ | ⟨c', rfl, h⟩
    · -- it begins before the separator
      rcases List.append_eq_append_iff.mp h with ⟨x, rfl, -⟩ | ⟨y, rfl, hy⟩
      · exact .inl ⟨l, x, by rw [List.append_assoc]⟩
      · cases y with
        | nil => exact .inl ⟨l, [], by simp⟩
        | cons d y =>
          cases hy
          exact absurd (List.mem_append_right _ List.mem_cons_self) hc
    · cases c' with
      | nil =>
        cases sub with
        | nil => exact .inl (List.nil_infix)
        | cons d sub => cases h; exact absurd List.mem_cons_self hc
      | cons d c' =>
        cases h
        exact .inr ⟨c', r, List.append_assoc c' sub r⟩
  · intro h
    rcases h with h | h
    · exact h.trans (List.prefix_append a (c :: b)).isInfix
    · exact h.trans ((List.suffix_cons c b).trans (List.suffix_append a (c :: b))).isInfix

end CString
