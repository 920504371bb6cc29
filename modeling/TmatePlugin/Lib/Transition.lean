import Mathlib.Logic.Relation

/-!
# Labelled transition systems

A `System S L` has a set of initial states and a labelled step relation. The
module collects what a safety proof about such a system needs:

* `Run`, `Reachable`: finite runs with their label lists, and the states they
  reach from an initial state.
* `Inductive`, `Inductive.reachable`: a predicate that holds initially and is
  preserved by every step holds in every reachable state. `Run.preserves` is
  the same for one run segment whose labels all satisfy a predicate.
* `guard`: the system whose runs take only steps allowed by a condition on
  the state before the step and the label. A guarded run is a run
  (`Run.of_guard`), so a guarded theorem is about the runs of the original
  system whose steps all meet the condition.
* `Simulation`: a relation that matches every step of one system by a run of
  another; it carries reachability over (`Simulation.reachable`).
* `ofFn`, `exec`: systems given by a partial step function, and their
  executable runs (`run_of_exec`, `run_guard_of_exec`), used for concrete runs.
-/
namespace Transition

/-- Initial states and a labelled step relation. -/
structure System (S L : Type) where
  init : S → Prop
  step : S → L → S → Prop

namespace System

variable {S L S' L' : Type}

/-- `T.Run s ls s'`: performing the labels `ls` in order leads from `s` to `s'`. -/
inductive Run (T : System S L) : S → List L → S → Prop
  | nil (s : S) : Run T s [] s
  | cons {s₁ s₂ s₃ : S} {l : L} {ls : List L} :
      T.step s₁ l s₂ → Run T s₂ ls s₃ → Run T s₁ (l :: ls) s₃

def Reachable (T : System S L) (s : S) : Prop := ∃ s₀ ls, T.init s₀ ∧ T.Run s₀ ls s

/-- `I` holds initially and every step preserves it. -/
structure Inductive (T : System S L) (I : S → Prop) : Prop where
  init : ∀ s, T.init s → I s
  step : ∀ s l s', I s → T.step s l s' → I s'

variable {T : System S L}

theorem run_nil_iff {s s' : S} : T.Run s [] s' ↔ s' = s :=
  ⟨fun h => by cases h; rfl, fun h => h ▸ .nil _⟩

theorem run_cons_iff {s s' : S} {l : L} {ls : List L} :
    T.Run s (l :: ls) s' ↔ ∃ t, T.step s l t ∧ T.Run t ls s' :=
  ⟨fun h => by cases h with | cons h₁ h₂ => exact ⟨_, h₁, h₂⟩, fun ⟨_, h₁, h₂⟩ => .cons h₁ h₂⟩

theorem run_append_iff {s s' : S} {ls₁ ls₂ : List L} :
    T.Run s (ls₁ ++ ls₂) s' ↔ ∃ t, T.Run s ls₁ t ∧ T.Run t ls₂ s' := by
  induction ls₁ generalizing s with
  | nil => simp [run_nil_iff]
  | cons l ls ih =>
    simp only [List.cons_append, run_cons_iff, ih]
    constructor
    · intro h
      obtain ⟨t, ht, u, hu, hs⟩ := h
      exact ⟨u, ⟨t, ht, hu⟩, hs⟩
    · intro h
      obtain ⟨u, ⟨t, ht, hu⟩, hs⟩ := h
      exact ⟨t, ht, u, hu, hs⟩

theorem Reachable.run {s s' : S} {ls : List L} (h : T.Reachable s) (hr : T.Run s ls s') :
    T.Reachable s' := by
  obtain ⟨s₀, ls₀, hi, h₀⟩ := h
  exact ⟨s₀, ls₀ ++ ls, hi, run_append_iff.mpr ⟨s, h₀, hr⟩⟩

theorem Reachable.step {s s' : S} {l : L} (h : T.Reachable s) (hs : T.step s l s') :
    T.Reachable s' :=
  h.run (.cons hs (.nil _))

/-- A predicate preserved by the steps with labels in `P` is preserved by a
run all of whose labels are in `P`. -/
theorem Run.preserves {I : S → Prop} {P : L → Prop} {s s' : S} {ls : List L} (h : T.Run s ls s')
    (hP : ∀ l ∈ ls, P l) (hstep : ∀ s l s', P l → I s → T.step s l s' → I s') (hs : I s) : I s' := by
  induction h with
  | nil => exact hs
  | cons h₁ _ ih =>
    exact ih (fun l hl => hP l (List.mem_cons_of_mem _ hl))
      (hstep _ _ _ (hP _ List.mem_cons_self) hs h₁)

theorem Inductive.run {I : S → Prop} (hI : T.Inductive I) {s s' : S} {ls : List L}
    (h : T.Run s ls s') (hs : I s) : I s' :=
  h.preserves (P := fun _ => True) (fun _ _ => trivial) (fun s l s' _ => hI.step s l s') hs

theorem Inductive.reachable {I : S → Prop} (hI : T.Inductive I) {s : S} (h : T.Reachable s) : I s := by
  obtain ⟨s₀, ls, hi, hr⟩ := h
  exact hI.run hr (hI.init s₀ hi)

/-! ## Guarded runs -/

/-- The runs in which every step `l` from `s` satisfies `C s l`. -/
def guard (T : System S L) (C : S → L → Prop) : System S L where
  init := T.init
  step s l s' := C s l ∧ T.step s l s'

theorem Run.of_guard {C : S → L → Prop} {s s' : S} {ls : List L} (h : (T.guard C).Run s ls s') :
    T.Run s ls s' := by
  induction h with
  | nil => exact .nil _
  | cons h₁ _ ih => exact .cons h₁.2 ih

theorem Reachable.of_guard {C : S → L → Prop} {s : S} (h : (T.guard C).Reachable s) :
    T.Reachable s := by
  obtain ⟨s₀, ls, hi, hr⟩ := h
  exact ⟨s₀, ls, hi, hr.of_guard⟩

/-- A property of all runs is, in particular, one of the guarded runs, where
it may be used to prove another predicate inductive. -/
theorem Inductive.guarded {C : S → L → Prop} {I J : S → Prop} (hI : T.Inductive I)
    (hinit : ∀ s, T.init s → J s)
    (hstep : ∀ s l s', I s → J s → C s l → T.step s l s' → J s') :
    (T.guard C).Inductive (fun s => I s ∧ J s) where
  init s hs := ⟨hI.init s hs, hinit s hs⟩
  step s l s' h hs := ⟨hI.step s l s' h.1 hs.2, hstep s l s' h.1 h.2 hs.1 hs.2⟩

/-! ## Simulation -/

/-- Every initial state of `A` is related to an initial state of `B`, and
every step of `A` from a related state is matched by a run of `B`. -/
structure Simulation (A : System S L) (B : System S' L') (R : S → S' → Prop) : Prop where
  init : ∀ s, A.init s → ∃ t, B.init t ∧ R s t
  step : ∀ s l s' t, R s t → A.step s l s' → ∃ ls t', B.Run t ls t' ∧ R s' t'

theorem Simulation.reachable {A : System S L} {B : System S' L'} {R : S → S' → Prop}
    (h : Simulation A B R) {s : S} (hs : A.Reachable s) : ∃ t, B.Reachable t ∧ R s t := by
  have hind : A.Inductive (fun s => ∃ t, B.Reachable t ∧ R s t) := by
    refine ⟨fun s hs => ?_, fun s l s' ⟨t, ht, hR⟩ hl => ?_⟩
    · obtain ⟨t, ht, hR⟩ := h.init s hs
      exact ⟨t, ⟨t, [], ht, .nil _⟩, hR⟩
    · obtain ⟨ls, t', hrun, hR'⟩ := h.step s l s' t hR hl
      exact ⟨t', ht.run hrun, hR'⟩
  exact hind.reachable hs

/-! ## Systems given by a step function -/

/-- The system of a partial step function. -/
def ofFn (init : S → Prop) (f : S → L → Option S) : System S L where
  init := init
  step s l s' := f s l = some s'

end System

variable {S L : Type}

/-- Performs a list of labels, failing on the first one that is not enabled. -/
def exec (f : S → L → Option S) : S → List L → Option S
  | s, [] => some s
  | s, l :: ls => (f s l).bind fun s' => exec f s' ls

theorem run_of_exec {init : S → Prop} {f : S → L → Option S} {s s' : S} {ls : List L}
    (h : exec f s ls = some s') : (System.ofFn init f).Run s ls s' := by
  induction ls generalizing s with
  | nil => simp only [exec, Option.some.injEq] at h; subst h; exact .nil _
  | cons l ls ih =>
    simp only [exec, Option.bind_eq_some_iff] at h
    obtain ⟨t, ht, hr⟩ := h
    exact .cons ht (ih hr)

theorem reachable_of_exec {init : S → Prop} {f : S → L → Option S} {s s' : S} {ls : List L}
    (hi : init s) (h : exec f s ls = some s') : (System.ofFn init f).Reachable s' :=
  ⟨s, ls, hi, run_of_exec h⟩

/-- A concrete run ends in a reachable state with the tested property. -/
theorem exists_reachable_of_exec {init : S → Prop} {f : S → L → Option S} {s : S} (ls : List L)
    (p : S → Bool) (hi : init s) (h : (exec f s ls).any p = true) :
    ∃ s', (System.ofFn init f).Reachable s' ∧ p s' = true := by
  cases he : exec f s ls with
  | none => rw [he] at h; cases h
  | some s' => rw [he] at h; exact ⟨s', reachable_of_exec hi he, h⟩

/-- `f` restricted to the steps that meet `C`. -/
def guardFn (C : S → L → Prop) [∀ s l, Decidable (C s l)] (f : S → L → Option S) (s : S) (l : L) :
    Option S :=
  if C s l then f s l else none

theorem run_guard_of_exec {init : S → Prop} {f : S → L → Option S} {C : S → L → Prop}
    [∀ s l, Decidable (C s l)] {s s' : S} {ls : List L} (h : exec (guardFn C f) s ls = some s') :
    ((System.ofFn init f).guard C).Run s ls s' := by
  induction ls generalizing s with
  | nil => simp only [exec, Option.some.injEq] at h; subst h; exact .nil _
  | cons l ls ih =>
    simp only [exec, Option.bind_eq_some_iff, guardFn] at h
    obtain ⟨t, ht, hr⟩ := h
    split at ht
    · rename_i hC; exact .cons ⟨hC, ht⟩ (ih hr)
    · cases ht

/-- A concrete guarded run ends in a reachable state with the tested property. -/
theorem exists_reachable_guard_of_exec {init : S → Prop} {f : S → L → Option S}
    {C : S → L → Prop} [∀ s l, Decidable (C s l)] {s : S} (ls : List L) (p : S → Bool)
    (hi : init s) (h : (exec (guardFn C f) s ls).any p = true) :
    ∃ s', ((System.ofFn init f).guard C).Reachable s' ∧ p s' = true := by
  cases he : exec (guardFn C f) s ls with
  | none => rw [he] at h; cases h
  | some s' => rw [he] at h; exact ⟨s', ⟨s, ls, hi, run_guard_of_exec he⟩, h⟩

end Transition
