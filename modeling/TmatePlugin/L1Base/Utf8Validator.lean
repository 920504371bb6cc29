import TmatePlugin.Lib.Utf8

/-!
# The streaming UTF-8 validator (websocketpp/utf8_validator.hpp)

`utf8_validator::validator` runs a table-driven automaton over the bytes it is
given, in as many calls of `decode` as there are chunks. A text message is
checked with it before it is sent, and while it is received.

* `decode_append`: two calls are one call with both chunks.
* `next_pending`: the table, as what each state still expects of a character.
* `validate_iff`: a text is accepted exactly when it is valid UTF-8.
* `decodeChunks_valid`: so it is however the text is cut into chunks, and it is
  refused at the first byte behind which it can no longer become valid.
-/
namespace TmatePlugin.L1.Utf8Validator

open CString Utf8

/-- mirrors websocket/websocketpp/utf8_validator.hpp:39-41 (`utf8_accept`) -/
def utf8Accept : Nat := 0

/-- mirrors websocket/websocketpp/utf8_validator.hpp:41-42 (`utf8_reject`) -/
def utf8Reject : Nat := 1

/-- The classes of the bytes, then a row of 16 classes for each state.
mirrors websocket/websocketpp/utf8_validator.hpp:45-60 (`utf8d`) -/
def utf8d : List Nat := [
  0,0,0,0,0,0,0,0,0,0,0,0,0,0,0,0,0,0,0,0,0,0,0,0,0,0,0,0,0,0,0,0, -- 00..1f
  0,0,0,0,0,0,0,0,0,0,0,0,0,0,0,0,0,0,0,0,0,0,0,0,0,0,0,0,0,0,0,0, -- 20..3f
  0,0,0,0,0,0,0,0,0,0,0,0,0,0,0,0,0,0,0,0,0,0,0,0,0,0,0,0,0,0,0,0, -- 40..5f
  0,0,0,0,0,0,0,0,0,0,0,0,0,0,0,0,0,0,0,0,0,0,0,0,0,0,0,0,0,0,0,0, -- 60..7f
  1,1,1,1,1,1,1,1,1,1,1,1,1,1,1,1,9,9,9,9,9,9,9,9,9,9,9,9,9,9,9,9, -- 80..9f
  7,7,7,7,7,7,7,7,7,7,7,7,7,7,7,7,7,7,7,7,7,7,7,7,7,7,7,7,7,7,7,7, -- a0..bf
  8,8,2,2,2,2,2,2,2,2,2,2,2,2,2,2,2,2,2,2,2,2,2,2,2,2,2,2,2,2,2,2, -- c0..df
  0xa,0x3,0x3,0x3,0x3,0x3,0x3,0x3,0x3,0x3,0x3,0x3,0x3,0x4,0x3,0x3, -- e0..ef
  0xb,0x6,0x6,0x6,0x5,0x8,0x8,0x8,0x8,0x8,0x8,0x8,0x8,0x8,0x8,0x8, -- f0..ff
  0x0,0x1,0x2,0x3,0x5,0x8,0x7,0x1,0x1,0x1,0x4,0x6,0x1,0x1,0x1,0x1, -- s0..s0
  1,1,1,1,1,1,1,1,1,1,1,1,1,1,1,1,1,0,1,1,1,1,1,0,1,0,1,1,1,1,1,1, -- s1..s2
  1,2,1,1,1,1,1,2,1,2,1,1,1,1,1,1,1,1,1,1,1,1,1,2,1,1,1,1,1,1,1,1, -- s3..s4
  1,2,1,1,1,1,1,1,1,2,1,1,1,1,1,1,1,1,1,1,1,1,1,3,1,3,1,1,1,1,1,1, -- s5..s6
  1,3,1,1,1,1,1,3,1,3,1,1,1,1,1,1,1,3,1,1,1,1,1,1,1,1,1,1,1,1,1,1] -- s7..s8

/-- The state behind a byte; outside the table (never reached: `next_lt`) it is
`utf8_reject`. -/
def next (state : Nat) (byte : UInt8) : Nat :=
  utf8d.getD (256 + state * 16 + utf8d.getD byte.toNat 0) utf8Reject

structure Validator where
  state : Nat
  codepoint : UInt32
  deriving DecidableEq

namespace Validator

/-- mirrors websocket/websocketpp/utf8_validator.hpp:86 (`validator()`), 132-135 (`reset`) -/
def new : Validator := { state := utf8Accept, codepoint := 0 }

/-- mirrors websocket/websocketpp/utf8_validator.hpp:69-80 (`utf8_validator::decode`) -/
def decodeByte (v : Validator) (byte : UInt8) : Validator :=
  let type := utf8d.getD byte.toNat 0
  { codepoint :=
      if v.state ≠ utf8Accept then (byte &&& 0x3f).toUInt32 ||| (v.codepoint <<< 6)
      else ((0xff : UInt32) >>> UInt32.ofNat type) &&& byte.toUInt32
    state := utf8d.getD (256 + v.state * 16 + type) utf8Reject }

/-- `none`: the call returned false.
mirrors websocket/websocketpp/utf8_validator.hpp:106-122 (`validator::decode`) -/
def decode (v : Validator) : Bytes → Option Validator
  | [] => some v
  | byte :: s => if (v.decodeByte byte).state = utf8Reject then none else decode (v.decodeByte byte) s

/-- mirrors websocket/websocketpp/utf8_validator.hpp:127-129 (`complete`) -/
def complete (v : Validator) : Bool := v.state == utf8Accept

end Validator

/-- mirrors websocket/websocketpp/utf8_validator.hpp:146-152 (`validate`) -/
def validate (s : Bytes) : Bool :=
  match Validator.new.decode s with
  | none => false
  | some v => v.complete

/-! ## Chunks -/

@[simp] theorem decodeByte_state (v : Validator) (byte : UInt8) :
    (v.decodeByte byte).state = next v.state byte := rfl

/-- A call with one chunk after another, as long as none is refused. -/
def decodeChunks (chunks : List Bytes) : Option Validator :=
  chunks.foldlM Validator.decode Validator.new

theorem decode_append (v : Validator) (s t : Bytes) :
    v.decode (s ++ t) = (v.decode s).bind fun v => v.decode t := by
  induction s generalizing v with
  | nil => rfl
  | cons byte s ih =>
    simp only [List.cons_append, Validator.decode]
    split
    · rfl
    · exact ih _

theorem foldlM_decode (v : Validator) (chunks : List Bytes) :
    chunks.foldlM Validator.decode v = v.decode chunks.flatten := by
  induction chunks generalizing v with
  | nil => rfl
  | cons s chunks ih =>
    rw [List.foldlM_cons, List.flatten_cons, decode_append]
    exact congrArg _ (funext ih)

/-! ## The table -/

/-- What a state still expects of the character it is in; `none` in `utf8_reject`. -/
def pending : Nat → Option (List (Nat × Nat))
  | 0 => some []
  | 2 => some [tail]
  | 3 => some [tail, tail]
  | 4 => some [(0xa0, 0xbf), tail]
  | 5 => some [(0x80, 0x9f), tail]
  | 6 => some [(0x90, 0xbf), tail, tail]
  | 7 => some [tail, tail, tail]
  | 8 => some [(0x80, 0x8f), tail, tail]
  | _ => none

theorem next_lt (state : Nat) (byte : UInt8) : next state byte < 9 := by
  have hall : ((utf8d.drop 256).all fun n => decide (n < 9)) = true := by decide +kernel
  rw [List.all_eq_true] at hall
  unfold next
  rw [List.getD_eq_getElem?_getD, Nat.add_assoc]
  rcases h : utf8d[256 + (state * 16 + utf8d.getD byte.toNat 0)]? with _ | n
  · decide
  · rw [← List.getElem?_drop] at h
    exact of_decide_eq_true (hall n (List.mem_of_getElem? h))

/-- Between two characters the byte says what else the character has. -/
theorem pending_first (byte : UInt8) : pending (next 0 byte) = ranges byte.toNat := by
  have hall : ∀ n : Fin 256, pending (next 0 (UInt8.ofFin n)) = ranges (UInt8.ofFin n).toNat := by
    decide +kernel
  exact hall byte.toFin

/-- Inside a character the byte has to be in the next range. -/
theorem next_pending {state : Nat} {r : Nat × Nat} {rs : List (Nat × Nat)}
    (h : pending state = some (r :: rs)) (byte : UInt8) :
    pending (next state byte) = if r.1 ≤ byte.toNat ∧ byte.toNat ≤ r.2 then some rs else none := by
  have hall : ∀ q : Fin 9, ∀ n : Fin 256, ∀ p ∈ (pending q.val).bind List.head?,
      pending (next q.val (UInt8.ofFin n)) =
        if p.1 ≤ (UInt8.ofFin n).toNat ∧ (UInt8.ofFin n).toNat ≤ p.2
        then (pending q.val).map List.tail else none := by
    decide +kernel
  have hlt : state < 9 := by
    unfold pending at h
    split at h <;> first | omega | cases h
  have hq := hall ⟨state, hlt⟩ byte.toFin r (by rw [h]; rfl)
  rw [h] at hq
  exact hq

theorem pending_eq_nil_iff {state : Nat} : pending state = some [] ↔ state = 0 := by
  unfold pending
  split <;> simp_all

theorem pending_isSome {state : Nat} (hlt : state < 9) (hne : state ≠ utf8Reject) :
    (pending state).isSome = true := by
  have hall : ∀ q : Fin 9, q.val ≠ utf8Reject → (pending q.val).isSome = true := by decide
  exact hall ⟨state, hlt⟩ hne

/-- `utf8_reject` is not left. -/
theorem next_of_pending_none {state : Nat} (h : pending state = none) (byte : UInt8) :
    next state byte = utf8Reject := by
  by_cases hstate : state = 1
  · subst hstate
    have hall : ∀ n : Fin 256, next 1 (UInt8.ofFin n) = utf8Reject := by decide +kernel
    exact hall byte.toFin
  · have hge : 9 ≤ state := by
      by_contra hlt
      have hsome := pending_isSome (Nat.lt_of_not_le hlt) hstate
      rw [h] at hsome
      cases hsome
    have hlength : utf8d.length = 400 := by decide +kernel
    rw [next, List.getD_eq_getElem?_getD, List.getElem?_eq_none (by omega)]
    rfl

/-! ## The characters -/

theorem returns_pending_iff (u : Bytes) (state : Nat) :
    CodeWords.Returns next 0 state u ↔ ∃ rs, pending state = some rs ∧ Within rs (u.map UInt8.toNat) := by
  induction u generalizing state with
  | nil =>
    rw [CodeWords.returns_nil_iff, ← pending_eq_nil_iff]
    constructor
    · intro h
      exact ⟨[], h, .nil⟩
    · rintro ⟨rs, h, hrs⟩
      cases hrs
      exact h
  | cons b u ih =>
    rw [CodeWords.returns_cons_iff, ih, List.map_cons]
    rcases hstate : pending state with _ | _ | ⟨r, rs⟩
    · rw [next_of_pending_none hstate]
      simp [pending, utf8Reject]
    · simp [pending_eq_nil_iff.mp hstate]
    · have hne : state ≠ 0 := by
        rintro rfl
        cases hstate
      rw [next_pending hstate]
      constructor
      · rintro ⟨-, rs', hrs', hu⟩
        split at hrs'
        · rename_i hb
          cases hrs'
          exact ⟨r :: rs, rfl, .cons hb hu⟩
        · cases hrs'
      · rintro ⟨_, hrs, hu⟩
        cases hrs
        obtain _ | ⟨hb, hu⟩ := hu
        exact ⟨hne, rs, if_pos hb, hu⟩

theorem reads_characters : CodeWords.Reads next 0 Word := by
  refine ⟨not_word_nil, fun b u => ?_⟩
  rw [returns_pending_iff, pending_first, word_cons_iff]

/-- Every state but `utf8_reject` has bytes that complete the character. -/
theorem exists_returns {state : Nat} (hlt : state < 9) (hne : state ≠ utf8Reject) :
    ∃ u, CodeWords.Returns next 0 state u := by
  have hall : ∀ q : Fin 9, ∀ r ∈ (pending q.val).getD [], r.1 < 256 ∧ r.1 ≤ r.2 := by decide
  have hfill := hall ⟨state, hlt⟩
  obtain ⟨rs, hrs⟩ := Option.isSome_iff_exists.mp (pending_isSome hlt hne)
  simp only [hrs, Option.getD_some] at hfill
  refine ⟨rs.map fun r => UInt8.ofNat r.1, (returns_pending_iff _ _).mpr ⟨rs, hrs, ?_⟩⟩
  rw [List.map_map]
  refine List.forall₂_map_right_iff.mpr (List.forall₂_same.mpr ?_)
  intro r hr
  have hbyte : (UInt8.ofNat r.1).toNat = r.1 := UInt8.toNat_ofNat_of_lt' (hfill r hr).1
  simp only [Function.comp_apply, hbyte]
  exact ⟨le_refl _, (hfill r hr).2⟩

theorem run_lt (s : Bytes) {state : Nat} (hlt : state < 9) : CodeWords.run next state s < 9 := by
  induction s generalizing state with
  | nil => exact hlt
  | cons b s ih => exact ih (next_lt state b)

/-! ## Any text -/

/-- A call follows the table up to `utf8_reject`. -/
theorem decode_state (s : Bytes) (v : Validator) (hv : v.state ≠ utf8Reject) :
    (v.decode s).map Validator.state =
      if CodeWords.run next v.state s = utf8Reject then none
      else some (CodeWords.run next v.state s) := by
  induction s generalizing v with
  | nil => exact (if_neg hv).symm
  | cons b s ih =>
    have hrun : CodeWords.run next v.state (b :: s) = CodeWords.run next (v.decodeByte b).state s := rfl
    rw [hrun, Validator.decode]
    split
    · rename_i hreject
      rw [hreject, CodeWords.run_dead fun b => next_of_pending_none rfl b, if_pos rfl]
      rfl
    · rename_i hne
      exact ih (v.decodeByte b) hne

theorem isSome_decode_iff (s : Bytes) :
    (Validator.new.decode s).isSome = true ↔ ∃ t, Valid (s ++ t) := by
  have hstate := decode_state s Validator.new (by decide)
  have hrun : CodeWords.run next 0 s ≠ utf8Reject ↔ ∃ t, Valid (s ++ t) := by
    simp only [valid_iff_concat]
    refine CodeWords.run_ne_dead_iff reads_characters (by decide) (fun b => next_of_pending_none rfl b) ?_ s
    intro s hs
    exact exists_returns (run_lt s (by decide)) hs
  rw [← hrun, ← Option.isSome_map (f := Validator.state), hstate]
  split <;> simp_all [Validator.new, utf8Accept]

theorem any_complete_decode_iff (s : Bytes) :
    (Validator.new.decode s).any Validator.complete = true ↔ Valid s := by
  have hstate := decode_state s Validator.new (by decide)
  rw [valid_iff_concat, ← CodeWords.run_eq_start_iff reads_characters]
  have hany : (Validator.new.decode s).any Validator.complete =
      ((Validator.new.decode s).map Validator.state).any (· == utf8Accept) := by
    rw [Option.any_map]
    rfl
  rw [hany, hstate]
  split
  · rename_i hreject
    have hne : CodeWords.run next 0 s ≠ 0 := by
      intro h
      exact absurd (h.symm.trans hreject) (by decide)
    simpa using hne
  · exact beq_iff_eq

theorem validate_iff (s : Bytes) : validate s = true ↔ Valid s := by
  rw [← any_complete_decode_iff, validate]
  cases Validator.new.decode s <;> rfl

/-- A text cut into chunks is refused where it can no longer become valid, and
complete at its end when it is valid. -/
theorem decodeChunks_valid (chunks : List Bytes) :
    ((decodeChunks chunks).isSome = true ↔ ∃ t, Valid (chunks.flatten ++ t)) ∧
      ((decodeChunks chunks).any Validator.complete = true ↔ Valid chunks.flatten) := by
  have hflat : decodeChunks chunks = Validator.new.decode chunks.flatten := foldlM_decode _ _
  rw [hflat]
  exact ⟨isSome_decode_iff _, any_complete_decode_iff _⟩

end TmatePlugin.L1.Utf8Validator
