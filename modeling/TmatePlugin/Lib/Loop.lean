import TmatePlugin.Lib.Outcome

/-!
# Loops

A loop whose body either goes on with a new state (`inl`) or ends with a result
(`inr`); `break` is an `inr` in the middle of the body. `run body n` performs at
most `n` rounds, and faults if the loop has not ended by then: a run that is
`ok` has ended.

* `run_of_measure`: a loop each of whose rounds keeps an invariant and lowers a measure
  ends, with what its last round establishes.
* `Reaches`, `Reaches.keeps`: the states at the beginning of a round, and what every
  round keeps; `run_reaches`: a run that has ended did so in a round that is reached.
-/
namespace Loop

open Outcome

variable {S R : Type}

def run (body : S → Outcome (S ⊕ R)) : Nat → S → Outcome R
  | 0, _ => fault
  | n + 1, s => do
    match ← body s with
    | .inl s' => run body n s'
    | .inr r => pure r

variable {body : S → Outcome (S ⊕ R)}

theorem run_next {n : Nat} {s s' : S} (h : body s = .ok (.inl s')) :
    run body (n + 1) s = run body n s' := by
  rw [run, h, bind_ok]

theorem run_last {n : Nat} {s : S} {r : R} (h : body s = .ok (.inr r)) :
    run body (n + 1) s = .ok r := by
  rw [run, h, bind_ok]
  rfl

/-- The rule for a loop that ends: from a state that meets the invariant, a round
either keeps it and lowers the measure, or ends the loop. -/
theorem run_of_measure {I : S → Prop} {P : R → Prop} (μ : S → Nat)
    (hround : ∀ s, I s → (∃ s', body s = .ok (.inl s') ∧ I s' ∧ μ s' < μ s) ∨
      ∃ r, body s = .ok (.inr r) ∧ P r)
    {n : Nat} {s : S} (hs : I s) (hn : μ s < n) : ∃ r, run body n s = .ok r ∧ P r := by
  induction n generalizing s with
  | zero => omega
  | succ n ih =>
    rcases hround s hs with ⟨s', hbody, hs', hlt⟩ | ⟨r, hbody, hr⟩
    · rw [run_next hbody]
      exact ih hs' (by omega)
    · exact ⟨r, run_last hbody, hr⟩

theorem run_isOk (I : S → Prop) (μ : S → Nat)
    (hround : ∀ s, I s → (∃ s', body s = .ok (.inl s') ∧ I s' ∧ μ s' < μ s) ∨ ∃ r, body s = .ok (.inr r))
    {n : Nat} {s : S} (hs : I s) (hn : μ s < n) : ∃ r, run body n s = .ok r := by
  obtain ⟨r, hr, -⟩ := run_of_measure (P := fun _ => True) μ
    (fun s hs => (hround s hs).imp_right fun ⟨r, hr⟩ => ⟨r, hr, trivial⟩) hs hn
  exact ⟨r, hr⟩

/-- Rounds lead from the first state to the second. -/
inductive Reaches (body : S → Outcome (S ⊕ R)) (s : S) : S → Prop
  | refl : Reaches body s s
  | round {t t' : S} : Reaches body s t → body t = .ok (.inl t') → Reaches body s t'

theorem Reaches.keeps {I : S → Prop} (hround : ∀ t t', I t → body t = .ok (.inl t') → I t') {s t : S}
    (h : Reaches body s t) (hs : I s) : I t := by
  induction h with
  | refl => exact hs
  | round _ hbody ih => exact hround _ _ ih hbody

theorem Reaches.head {s t u : S} (hbody : body s = .ok (.inl t)) (h : Reaches body t u) : Reaches body s u := by
  induction h with
  | refl => exact .round .refl hbody
  | round _ hround ih => exact ih.round hround

theorem run_reaches {n : Nat} {s : S} {r : R} (h : run body n s = .ok r) :
    ∃ t, Reaches body s t ∧ body t = .ok (.inr r) := by
  induction n generalizing s with
  | zero => cases h
  | succ n ih =>
    rw [run] at h
    obtain ⟨next, hbody, h⟩ := bind_eq_ok.mp h
    cases next with
    | inl s' =>
      obtain ⟨t, hreach, hlast⟩ := ih h
      exact ⟨t, hreach.head hbody, hlast⟩
    | inr r' =>
      cases h
      exact ⟨s, .refl, hbody⟩

end Loop
