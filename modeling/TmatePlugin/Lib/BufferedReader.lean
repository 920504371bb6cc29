import Mathlib.Data.List.Basic
import Mathlib.Tactic.Common

/-!
# Readers of a stream in buffers

A reader needs a number of items before it can go on. It takes up what a buffer
has of them, and when it has them all it advances: it passes messages on and
needs something else.

* `read`: a buffer of any length; what is passed on, and the reader behind it or
  the error that ends the stream.
* `Lawful`: taking up items in two parts is taking them up at once, in the
  states that meet an invariant.
* `read_append`, `readAll_eq`: the buffers into which a stream is cut do not
  matter.
* `read_fill`: a buffer that begins with what the reader needs.
* `read_keeps`: an invariant of the rounds is one of the buffers.
* `read_prefix`, `read_ok_of_prefix`: a part of a stream against all of it.
-/

/-- `need`: how many items; `absorb`: taking some of them up; `advance`: what is
done when none is missing. -/
structure BufferedReader (σ α M E : Type) where
  need : σ → Nat
  absorb : σ → List α → Except E σ
  advance : σ → Except E (σ × List M)

namespace BufferedReader

variable {σ α M E : Type}

/-- What is passed on, and how it ends. -/
abbrev Delivery (σ M E : Type) := List M × Except E σ

/-- Going on behind a delivery that has not ended the stream. -/
def andThen (r : Delivery σ M E) (f : σ → Delivery σ M E) : Delivery σ M E :=
  match r.2 with
  | .error e => (r.1, .error e)
  | .ok q => (r.1 ++ (f q).1, (f q).2)

def pass (ms : List M) (r : Delivery σ M E) : Delivery σ M E := (ms ++ r.1, r.2)

@[simp] theorem andThen_ok (ms : List M) (q : σ) (f : σ → Delivery σ M E) :
    andThen (ms, .ok q) f = pass ms (f q) := rfl

@[simp] theorem andThen_error (ms : List M) (e : E) (f : σ → Delivery σ M E) :
    andThen (ms, .error e) f = (ms, .error e) := rfl

@[simp] theorem pass_nil (r : Delivery σ M E) : pass [] r = r := rfl

theorem pass_pass (ms ms' : List M) (r : Delivery σ M E) : pass ms (pass ms' r) = pass (ms ++ ms') r := by
  simp [pass]

theorem andThen_pass (ms : List M) (r : Delivery σ M E) (f : σ → Delivery σ M E) :
    andThen (pass ms r) f = pass ms (andThen r f) := by
  obtain ⟨ms', q⟩ := r
  cases q <;> simp [pass, andThen]

variable (R : BufferedReader σ α M E)

/-- A buffer. A reader that needs nothing would not read. -/
def read (q : σ) (s : List α) : Delivery σ M E :=
  if _hread : s = [] ∨ R.need q = 0 then ([], .ok q)
  else
    match R.absorb q (s.take (R.need q)) with
    | .error e => ([], .error e)
    | .ok q' =>
      if s.length < R.need q then ([], .ok q')
      else
        match R.advance q' with
        | .error e => ([], .error e)
        | .ok (q'', ms) => pass ms (read q'' (s.drop (R.need q)))
termination_by s.length
decreasing_by
  rw [not_or, ← List.length_eq_zero_iff] at _hread
  rw [List.length_drop]
  omega

/-- One buffer after the other. -/
def readAll (q : σ) : List (List α) → Delivery σ M E
  | [] => ([], .ok q)
  | s :: buffers => andThen (R.read q s) fun q => readAll q buffers

/-- The states that meet `Ok` need something, and taking items up in two parts is
taking them up at once. -/
structure Lawful (Ok : σ → Prop) : Prop where
  need_pos : ∀ q, Ok q → 0 < R.need q
  absorb_append : ∀ q u v, Ok q → (u ++ v).length ≤ R.need q →
    R.absorb q (u ++ v) = R.absorb q u >>= fun q => R.absorb q v
  absorb_ok : ∀ q u q', Ok q → u.length < R.need q → R.absorb q u = .ok q' →
    R.need q' = R.need q - u.length ∧ Ok q'
  advance_ok : ∀ q u q₁ q₂ ms, Ok q → u.length = R.need q → R.absorb q u = .ok q₁ →
    R.advance q₁ = .ok (q₂, ms) → Ok q₂

section Lawful

variable {R} {Ok : σ → Prop}

@[simp] theorem read_nil (q : σ) : R.read q [] = ([], .ok q) := by
  rw [read, dif_pos (.inl rfl)]

/-- Fewer items than the reader needs. -/
theorem read_short (hR : R.Lawful Ok) {q : σ} (hq : Ok q) {s : List α} (hs : s ≠ [])
    (h : s.length < R.need q) : R.read q s = ([], R.absorb q s) := by
  rw [read, dif_neg (not_or.mpr ⟨hs, Nat.pos_iff_ne_zero.mp (hR.need_pos q hq)⟩), List.take_of_length_le (Nat.le_of_lt h)]
  cases R.absorb q s with
  | error e => rfl
  | ok q' => exact if_pos h

/-- What the reader needs, and more. -/
theorem read_fill (hR : R.Lawful Ok) {q : σ} (hq : Ok q) {u : List α} (s : List α)
    (h : u.length = R.need q) :
    R.read q (u ++ s) =
      match R.absorb q u >>= R.advance with
      | .error e => ([], .error e)
      | .ok (q', ms) => pass ms (R.read q' s) := by
  have hpos := hR.need_pos q hq
  have hne : u ++ s ≠ [] := by
    intro hnil
    have := congrArg List.length hnil
    rw [List.length_append, List.length_nil] at this
    omega
  rw [read, dif_neg (not_or.mpr ⟨hne, Nat.pos_iff_ne_zero.mp hpos⟩), List.take_left' h, List.drop_left' h]
  cases R.absorb q u with
  | error e => rfl
  | ok q' => exact if_neg (by rw [List.length_append]; omega)

/-- Any buffer: nothing, too little, or what the reader needs and a rest. -/
theorem Lawful.induction (hR : R.Lawful Ok) {motive : (s : List α) → (q : σ) → Ok q → Prop}
    (nil : ∀ q hq, motive [] q hq)
    (short : ∀ q s hq, s ≠ [] → s.length < R.need q → motive s q hq)
    (fill : ∀ q u s hq, u.length = R.need q → (∀ q hq, motive s q hq) → motive (u ++ s) q hq)
    (s : List α) (q : σ) (hq : Ok q) : motive s q hq := by
  induction hn : s.length using Nat.strongRecOn generalizing s q with
  | ind n ih =>
    subst hn
    by_cases hs : s = []
    · exact hs ▸ nil q hq
    by_cases hshort : s.length < R.need q
    · exact short q s hq hs hshort
    · have hfill : (s.take (R.need q)).length = R.need q := by rw [List.length_take]; omega
      have hmotive := fill q (s.take (R.need q)) (s.drop (R.need q)) hq hfill
      rw [List.take_append_drop] at hmotive
      refine hmotive fun q' hq' => ih _ ?_ _ q' hq' rfl
      have hpos := hR.need_pos q hq
      have hlen := List.length_pos_iff.mpr hs
      rw [List.length_drop]
      omega

/-- The invariant holds behind every buffer. -/
theorem read_ok (hR : R.Lawful Ok) (s : List α) (q : σ) (hq : Ok q) :
    ∀ q', (R.read q s).2 = .ok q' → Ok q' := by
  induction s, q, hq using hR.induction with
  | nil q hq =>
    intro q' h
    rw [read_nil] at h
    cases h
    exact hq
  | short q s hq hs hshort =>
    intro q' h
    rw [read_short hR hq hs hshort] at h
    exact (hR.absorb_ok q s q' hq hshort h).2
  | fill q u s hq hu ih =>
    intro q' h
    rw [read_fill hR hq s hu] at h
    rcases habs : R.absorb q u with e | q₁
    · rw [habs] at h
      cases h
    rcases hadv : R.advance q₁ with e | ⟨q₂, ms⟩
    · rw [habs] at h
      simp only [bind, Except.bind, hadv] at h
      cases h
    · rw [habs] at h
      simp only [bind, Except.bind, hadv] at h
      exact ih q₂ (hR.advance_ok q u q₁ q₂ ms hq hu habs hadv) q' h

/-- What both parts of a round keep, every buffer keeps; what holds of all that
is passed on at an advance holds of all that a buffer passes on. -/
theorem read_keeps (hR : R.Lawful Ok) {I : σ → Prop} {P : M → Prop}
    (habsorb : ∀ q u q', Ok q → I q → u.length ≤ R.need q → R.absorb q u = .ok q' → I q')
    (hadvance : ∀ q u q₁ q₂ ms, Ok q → I q → u.length = R.need q → R.absorb q u = .ok q₁ →
      R.advance q₁ = .ok (q₂, ms) → I q₂ ∧ ∀ m ∈ ms, P m)
    (s : List α) (q : σ) (hq : Ok q) (hI : I q) :
    (∀ m ∈ (R.read q s).1, P m) ∧ ∀ q', (R.read q s).2 = .ok q' → I q' := by
  induction s, q, hq using hR.induction with
  | nil q hq =>
    rw [read_nil]
    exact ⟨nofun, fun q' h => Except.ok.inj h ▸ hI⟩
  | short q s hq hs hshort =>
    rw [read_short hR hq hs hshort]
    exact ⟨nofun, fun q' h => habsorb q s q' hq hI (Nat.le_of_lt hshort) h⟩
  | fill q u s hq hu ih =>
    rw [read_fill hR hq s hu]
    rcases habs : R.absorb q u with e | q₁
    · exact ⟨nofun, nofun⟩
    rcases hadv : R.advance q₁ with e | ⟨q₂, ms⟩
    · simp only [bind, Except.bind, hadv]
      exact ⟨nofun, nofun⟩
    · obtain ⟨hI₂, hms⟩ := hadvance q u q₁ q₂ ms hq hI hu habs hadv
      obtain ⟨hmsgs, hend⟩ := ih q₂ (hR.advance_ok q u q₁ q₂ ms hq hu habs hadv) hI₂
      simp only [bind, Except.bind, hadv]
      refine ⟨fun m hm => ?_, hend⟩
      rcases List.mem_append.mp hm with hm | hm
      · exact hms m hm
      · exact hmsgs m hm

/-- Two buffers are one. -/
theorem read_append (hR : R.Lawful Ok) (s : List α) (q : σ) (hq : Ok q) (t : List α) :
    R.read q (s ++ t) = andThen (R.read q s) fun q => R.read q t := by
  induction s, q, hq using hR.induction with
  | nil q hq =>
    rw [read_nil]
    rfl
  | short q s hq hs hshort =>
    rw [read_short hR hq hs hshort]
    by_cases ht : t = []
    · subst ht
      rw [List.append_nil, read_short hR hq hs hshort]
      cases R.absorb q s <;> simp [andThen]
    by_cases hlong : (s ++ t).length < R.need q
    · rw [read_short hR hq (by simp [hs]) hlong, hR.absorb_append q s t hq (Nat.le_of_lt hlong)]
      rcases habs : R.absorb q s with e | q₁
      · rfl
      · obtain ⟨hneed, hq₁⟩ := hR.absorb_ok q s q₁ hq hshort habs
        rw [List.length_append] at hlong
        rw [andThen_ok, pass_nil, read_short hR hq₁ ht (by omega)]
        rfl
    · rw [List.length_append] at hlong
      -- the rest of what the reader needs is in front of the second buffer
      have hlen : (t.take (R.need q - s.length)).length = R.need q - s.length := by
        rw [List.length_take]
        omega
      have hfill : (s ++ t.take (R.need q - s.length)).length = R.need q := by
        rw [List.length_append, hlen]
        omega
      conv_lhs => rw [← List.take_append_drop (R.need q - s.length) t, ← List.append_assoc]
      rw [read_fill hR hq _ hfill, hR.absorb_append q s _ hq (Nat.le_of_eq hfill)]
      rcases habs : R.absorb q s with e | q₁
      · rfl
      · obtain ⟨hneed, hq₁⟩ := hR.absorb_ok q s q₁ hq hshort habs
        rw [andThen_ok, pass_nil]
        conv_rhs => rw [← List.take_append_drop (R.need q - s.length) t]
        rw [read_fill hR hq₁ _ (hlen.trans hneed.symm)]
        rfl
  | fill q u s hq hu ih =>
    rw [List.append_assoc, read_fill hR hq _ hu, read_fill hR hq _ hu]
    rcases habs : R.absorb q u with e | q₁
    · rfl
    rcases hadv : R.advance q₁ with e | ⟨q₂, ms⟩
    · simp only [bind, Except.bind, hadv]
      rfl
    · simp only [bind, Except.bind, hadv]
      rw [ih q₂ (hR.advance_ok q u q₁ q₂ ms hq hu habs hadv), andThen_pass]

/-- What is passed on of a part of a stream is passed on of the stream first. -/
theorem read_prefix (hR : R.Lawful Ok) {q : σ} (hq : Ok q) {s t : List α} (h : s <+: t) :
    (R.read q s).1 <+: (R.read q t).1 := by
  obtain ⟨rest, rfl⟩ := h
  rw [read_append hR s q hq rest]
  generalize R.read q s = r
  obtain ⟨ms, e | q'⟩ := r
  · exact List.prefix_refl _
  · exact List.prefix_append ms _

/-- What ends no stream ends no part of it. -/
theorem read_ok_of_prefix (hR : R.Lawful Ok) {q q' : σ} (hq : Ok q) {s t : List α} (h : s <+: t)
    (ht : (R.read q t).2 = .ok q') : ∃ q₁, (R.read q s).2 = .ok q₁ := by
  obtain ⟨rest, rfl⟩ := h
  rw [read_append hR s q hq rest] at ht
  generalize R.read q s = r at ht
  obtain ⟨ms, e | q₁⟩ := r
  · cases ht
  · exact ⟨q₁, rfl⟩

/-- The cuts of a stream into buffers do not matter. -/
theorem readAll_eq (hR : R.Lawful Ok) {q : σ} (hq : Ok q) (buffers : List (List α)) :
    R.readAll q buffers = R.read q buffers.flatten := by
  induction buffers generalizing q with
  | nil => exact (read_nil q).symm
  | cons s buffers ih =>
    rw [readAll, List.flatten_cons, read_append hR s q hq]
    have hok := read_ok hR s q hq
    generalize R.read q s = r at hok
    obtain ⟨ms, e | q'⟩ := r
    · rfl
    · rw [andThen_ok, andThen_ok, ih (hok q' rfl)]

end Lawful

end BufferedReader
