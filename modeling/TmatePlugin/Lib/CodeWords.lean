import Mathlib.Data.List.Basic
import Mathlib.Tactic.Common

/-!
# Automata that read the words of a code

A text over a code is a sequence of words. An automaton reads the code when the
ways from its start back to its start are the words.

* `Concat`: a sequence of words; `concat_cons_iff` takes the first word off.
* `Returns`: the automaton comes to its start at the end and not before.
* `run_eq_start_iff`: it is at its start exactly behind a sequence of words.
* `run_ne_dead_iff`: when every state but a sink has a way back, a text that has
  not led into the sink can be continued to a sequence of words.
-/
namespace CodeWords

variable {α σ : Type}

/-! ## Sequences of words -/

def Concat (W : List α → Prop) (s : List α) : Prop :=
  ∃ ws : List (List α), (∀ w ∈ ws, W w) ∧ s = ws.flatten

theorem concat_nil (W : List α → Prop) : Concat W [] := ⟨[], by simp, rfl⟩

theorem Concat.cons {W : List α → Prop} {w s : List α} (hw : W w) (hs : Concat W s) :
    Concat W (w ++ s) := by
  obtain ⟨ws, hws, rfl⟩ := hs
  exact ⟨w :: ws, by simpa using ⟨hw, hws⟩, rfl⟩

/-- The first word of a text that is not empty. -/
theorem concat_cons_iff {W : List α → Prop} (hne : ¬ W []) {b : α} {s : List α} :
    Concat W (b :: s) ↔ ∃ u v, s = u ++ v ∧ W (b :: u) ∧ Concat W v := by
  constructor
  · rintro ⟨ws, hws, hflat⟩
    cases ws with
    | nil => cases hflat
    | cons w ws =>
      have hw : W w := hws w List.mem_cons_self
      cases w with
      | nil => exact absurd hw hne
      | cons c u =>
        cases hflat
        exact ⟨u, ws.flatten, rfl, hw, ws, fun w h => hws w (List.mem_cons_of_mem _ h), rfl⟩
  · rintro ⟨u, v, rfl, hw, hv⟩
    exact Concat.cons hw hv

/-! ## Ways back to the start -/

section Automaton

variable (step : σ → α → σ) (start : σ)

def run (q : σ) (s : List α) : σ := s.foldl step q

/-- The automaton comes from `q` to its start at the end of the text, and not before. -/
inductive Returns : σ → List α → Prop
  | here : Returns start []
  | next {q : σ} {b : α} {u : List α} : q ≠ start → Returns (step q b) u → Returns q (b :: u)

/-- The ways from the start back to it are the words. -/
def Reads (W : List α → Prop) : Prop :=
  ¬ W [] ∧ ∀ b u, W (b :: u) ↔ Returns step start (step start b) u

variable {step start}

theorem run_append (q : σ) (s t : List α) : run step q (s ++ t) = run step (run step q s) t :=
  List.foldl_append

theorem returns_nil_iff {q : σ} : Returns step start q [] ↔ q = start := by
  constructor
  · rintro ⟨⟩
    rfl
  · rintro rfl
    exact .here

theorem returns_cons_iff {q : σ} {b : α} {u : List α} :
    Returns step start q (b :: u) ↔ q ≠ start ∧ Returns step start (step q b) u := by
  constructor
  · rintro (_ | ⟨hq, h⟩)
    exact ⟨hq, h⟩
  · rintro ⟨hq, h⟩
    exact .next hq h

theorem Returns.run {q : σ} {u : List α} (h : Returns step start q u) : run step q u = start := by
  induction h with
  | here => rfl
  | next _ _ ih => exact ih

/-- From any state: a way back, and then words. -/
theorem run_eq_start_from {W : List α → Prop} (hW : Reads step start W) (s : List α) (q : σ) :
    run step q s = start ↔ ∃ u v, s = u ++ v ∧ Returns step start q u ∧ Concat W v := by
  induction s generalizing q with
  | nil =>
    constructor
    · rintro rfl
      exact ⟨[], [], rfl, .here, concat_nil W⟩
    · rintro ⟨u, v, hs, hu, -⟩
      obtain ⟨rfl, rfl⟩ := List.append_eq_nil_iff.mp hs.symm
      exact returns_nil_iff.mp hu
  | cons b s ih =>
    have hnext : run step q (b :: s) = run step (step q b) s := rfl
    rw [hnext, ih (step q b)]
    by_cases hq : q = start
    · subst hq
      -- the way back is empty: the first word begins here
      constructor
      · rintro ⟨u, v, rfl, hu, hv⟩
        exact ⟨[], b :: (u ++ v), rfl, .here, Concat.cons ((hW.2 b u).mpr hu) hv⟩
      · rintro ⟨u, v, hs, hu, hv⟩
        cases hu with
        | here =>
          cases hs
          obtain ⟨u, v, hs, hu, hv⟩ := (concat_cons_iff hW.1).mp hv
          exact ⟨u, v, hs, (hW.2 b u).mp hu, hv⟩
        | next h _ => exact absurd rfl h
    · constructor
      · rintro ⟨u, v, rfl, hu, hv⟩
        exact ⟨b :: u, v, rfl, .next hq hu, hv⟩
      · rintro ⟨u, v, hs, hu, hv⟩
        cases hu with
        | here => exact absurd rfl hq
        | next _ hu =>
          cases hs
          exact ⟨_, v, rfl, hu, hv⟩

theorem run_eq_start_iff {W : List α → Prop} (hW : Reads step start W) (s : List α) :
    run step start s = start ↔ Concat W s := by
  rw [run_eq_start_from hW]
  constructor
  · rintro ⟨u, v, rfl, hu, hv⟩
    cases hu with
    | here => exact hv
    | next h _ => exact absurd rfl h
  · intro h
    exact ⟨[], s, rfl, .here, h⟩

/-! ## The sink -/

theorem run_dead {dead : σ} (hdead : ∀ b, step dead b = dead) (s : List α) :
    run step dead s = dead := by
  induction s with
  | nil => rfl
  | cons b s ih => exact (congrArg (run step · s) (hdead b)).trans ih

/-- Short of the sink a text can be continued to a sequence of words. -/
theorem run_ne_dead_iff {W : List α → Prop} (hW : Reads step start W) {dead : σ}
    (hstart : dead ≠ start) (hdead : ∀ b, step dead b = dead)
    (hback : ∀ s, run step start s ≠ dead → ∃ u, Returns step start (run step start s) u)
    (s : List α) : run step start s ≠ dead ↔ ∃ t, Concat W (s ++ t) := by
  constructor
  · intro h
    obtain ⟨u, hu⟩ := hback s h
    exact ⟨u, (run_eq_start_iff hW _).mp ((run_append start s u).trans hu.run)⟩
  · rintro ⟨t, ht⟩ h
    have hend := (run_eq_start_iff hW _).mpr ht
    rw [run_append, h, run_dead hdead] at hend
    exact hstart hend

end Automaton

end CodeWords
