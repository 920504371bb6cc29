import Mathlib.Data.List.Basic
import Mathlib.Tactic.Common

/-!
# Functions that may break off

A C++ function reads its input in some order and can end before its last
statement: by a `fault` (a null dereference, or an exception it does not
catch), or by an early `ret`urn.

* `Exits x places`: `places` lists, in the order they are passed, the places
  that would end `x` if it got there; `x` ends at the first one. The rules
  follow the statements: sequence (`Exits.bind`), loop (`Exits.mapM`).
* `CutShort x y`: `x` is `y`, or returns early somewhere on the way.
* `Passes all x places`: the same for code that calls other code, whose
  behaviours are the indices of `x`. It faults under none of them exactly when
  the first place is not a fault (`Passes.ne_fault_iff`).
-/

/-- How a function ends before its last statement. -/
inductive Exit where
  | fault
  | ret
  deriving DecidableEq, Repr

abbrev Outcome := Except Exit

namespace Outcome

variable {α β : Type}

def fault : Outcome α := .error .fault

def ret : Outcome α := .error .ret

/-- The value a pointer or iterator leads to, if any. -/
def deref : Option α → Outcome α
  | some a => .ok a
  | none => fault

def exit? : Outcome α → Option Exit
  | .ok _ => none
  | .error e => some e

theorem eq_fault_iff {x : Outcome α} : x = fault ↔ exit? x = some .fault := by
  cases x with
  | ok a => simp [fault, exit?]
  | error e => simp [fault, exit?]

theorem deref_eq_ok {x : Option α} {a : α} : deref x = .ok a ↔ x = some a := by
  cases x <;> simp [deref, fault]

theorem bind_ok (a : α) (f : α → Outcome β) : (Except.ok a : Outcome α) >>= f = f a := rfl

theorem bind_error (e : Exit) (f : α → Outcome β) :
    (Except.error e : Outcome α) >>= f = .error e := rfl

theorem bind_eq_ok {x : Outcome α} {f : α → Outcome β} {b : β} :
    x >>= f = .ok b ↔ ∃ a, x = .ok a ∧ f a = .ok b := by
  cases x with
  | ok a => simp [bind_ok]
  | error e => simp [bind_error]

/-- A loop that completes has completed every round. -/
theorem mapM_eq_ok {f : α → Outcome β} {xs : List α} {ys : List β} :
    xs.mapM f = .ok ys ↔ List.Forall₂ (fun x y => f x = .ok y) xs ys := by
  induction xs generalizing ys with
  | nil =>
    rw [List.mapM_nil]
    constructor
    · intro h; cases h; exact .nil
    · intro h; cases h; rfl
  | cons x xs ih =>
    rw [List.mapM_cons]
    constructor
    · intro h
      obtain ⟨y, hy, h⟩ := bind_eq_ok.mp h
      obtain ⟨ys', hys, h⟩ := bind_eq_ok.mp h
      cases h
      exact .cons hy (ih.mp hys)
    · intro h
      cases h with
      | cons hy hys => rw [hy, bind_ok, ih.mpr hys, bind_ok]; rfl

theorem mapM_isOk_iff {f : α → Outcome β} {xs : List α} :
    (∃ ys, xs.mapM f = .ok ys) ↔ ∀ x ∈ xs, ∃ y, f x = .ok y := by
  induction xs with
  | nil => exact ⟨fun _ x hx => (by cases hx), fun _ => ⟨[], rfl⟩⟩
  | cons x xs ih =>
    simp only [mapM_eq_ok] at ih ⊢
    rw [List.forall_mem_cons]
    constructor
    · intro h
      obtain ⟨ys, hys⟩ := h
      cases hys with
      | cons hy hys => exact ⟨⟨_, hy⟩, ih.mp ⟨_, hys⟩⟩
    · intro h
      obtain ⟨⟨y, hy⟩, h⟩ := h
      obtain ⟨ys, hys⟩ := ih.mpr h
      exact ⟨y :: ys, .cons hy hys⟩

/-! ## The first place that ends a run -/

/-- A pointer that is followed. -/
def nullPlace (x : Option α) : List Exit := if x.isSome then [] else [.fault]

def Exits (x : Outcome α) (places : List Exit) : Prop := exit? x = places.head?

namespace Exits

theorem ok (a : α) : Exits (.ok a) [] := rfl

theorem pure (a : α) : Exits (Pure.pure a : Outcome α) [] := rfl

theorem error (e : Exit) (places : List Exit) : Exits (.error e : Outcome α) (e :: places) := rfl

theorem deref (x : Option α) : Exits (Outcome.deref x) (nullPlace x) := by
  cases x <;> rfl

theorem bind {x : Outcome α} {f : α → Outcome β} {places places' : List Exit} (hx : Exits x places)
    (hf : ∀ a, x = .ok a → Exits (f a) places') : Exits (x >>= f) (places ++ places') := by
  cases x with
  | ok a =>
    have hnil : places = [] := List.head?_eq_none_iff.mp hx.symm
    rw [hnil, bind_ok]
    exact hf a rfl
  | error e =>
    show some e = (places ++ places').head?
    rw [List.head?_append, ← hx]
    rfl

/-- What follows has no place. -/
theorem andThen {x : Outcome α} {f : α → Outcome β} {places : List Exit} (hx : Exits x places)
    (hf : ∀ a, x = .ok a → Exits (f a) []) : Exits (x >>= f) places := by
  rw [← List.append_nil places]
  exact hx.bind hf

theorem mapM {f : α → Outcome β} {places : α → List Exit} {xs : List α}
    (h : ∀ x ∈ xs, Exits (f x) (places x)) : Exits (xs.mapM f) (xs.flatMap places) := by
  induction xs with
  | nil => exact .pure _
  | cons x xs ih =>
    rw [List.mapM_cons, List.flatMap_cons]
    refine (h x List.mem_cons_self).bind fun y _ => ?_
    exact (ih fun x' hx' => h x' (List.mem_cons_of_mem _ hx')).andThen fun _ _ => .pure _

theorem isOk_iff {x : Outcome α} {places : List Exit} (h : Exits x places) :
    (∃ a, x = .ok a) ↔ places = [] := by
  rw [← List.head?_eq_none_iff, ← h]
  cases x <;> simp [exit?]

theorem eq_fault_iff {x : Outcome α} {places : List Exit} (h : Exits x places) :
    x = fault ↔ places.head? = some .fault := by
  rw [Outcome.eq_fault_iff, h]

end Exits

/-! ## Cutting a run short -/

def CutShort (x y : Outcome α) : Prop := x = ret ∨ x = y

namespace CutShort

theorem refl (x : Outcome α) : CutShort x x := .inr rfl

theorem bind {x y : Outcome α} {f g : α → Outcome β} (hxy : CutShort x y)
    (hfg : ∀ a, y = .ok a → CutShort (f a) (g a)) : CutShort (x >>= f) (y >>= g) := by
  rcases hxy with rfl | rfl
  · exact .inl rfl
  · cases x with
    | ok a => exact hfg a rfl
    | error e => exact .inr rfl

theorem ne_fault {x y : Outcome α} (h : CutShort x y) (hy : y ≠ fault) : x ≠ fault := by
  rcases h with rfl | rfl
  · simp [ret, fault]
  · exact hy

end CutShort

/-! ## The same code over every behaviour of what it calls -/

/-- `x i` is the run when the code it calls behaves like `i`, and `all` is the
behaviour that never breaks off: the places are those of `x all`, and every
other run is that run, or returns early. -/
structure Passes {ι : Type} (all : ι) (x : ι → Outcome α) (places : List Exit) : Prop where
  cutShort : ∀ i, CutShort (x i) (x all)
  exits : Exits (x all) places

namespace Passes

variable {ι : Type} {all : ι}

theorem const {x : Outcome α} {places : List Exit} (h : Exits x places) :
    Passes all (fun _ => x) places := ⟨fun _ => .refl x, h⟩

theorem pure (a : α) : Passes all (fun _ => Pure.pure a) [] := const (.pure a)

theorem bind {x : ι → Outcome α} {f : ι → α → Outcome β} {places places' : List Exit}
    (hx : Passes all x places) (hf : ∀ a, x all = .ok a → Passes all (fun i => f i a) places') :
    Passes all (fun i => x i >>= f i) (places ++ places') where
  cutShort i := (hx.cutShort i).bind fun a ha => (hf a ha).cutShort i
  exits := hx.exits.bind fun a ha => (hf a ha).exits

/-- What follows has no place. -/
theorem andThen {x : ι → Outcome α} {f : ι → α → Outcome β} {places : List Exit}
    (hx : Passes all x places) (hf : ∀ a, x all = .ok a → Passes all (fun i => f i a) []) :
    Passes all (fun i => x i >>= f i) places := by
  rw [← List.append_nil places]
  exact hx.bind hf

theorem map {x : ι → Outcome α} {places : List Exit} (hx : Passes all x places) (g : α → β) :
    Passes all (fun i => x i >>= fun a => Pure.pure (g a)) places :=
  hx.andThen fun a _ => .pure (g a)

theorem mapM {f : ι → α → Outcome β} {places : α → List Exit} {xs : List α}
    (h : ∀ x ∈ xs, Passes all (fun i => f i x) (places x)) :
    Passes all (fun i => xs.mapM (f i)) (xs.flatMap places) := by
  induction xs with
  | nil => exact .pure []
  | cons x xs ih =>
    simp only [List.mapM_cons, List.flatMap_cons]
    refine (h x List.mem_cons_self).bind fun y _ => ?_
    exact (ih fun x' hx' => h x' (List.mem_cons_of_mem _ hx')).map (y :: ·)

theorem ne_fault_iff {x : ι → Outcome α} {places : List Exit} (h : Passes all x places) :
    (∀ i, x i ≠ fault) ↔ places.head? ≠ some .fault := by
  constructor
  · intro hne hplaces
    exact hne all (h.exits.eq_fault_iff.mpr hplaces)
  · intro hplaces i
    exact (h.cutShort i).ne_fault fun hfault => hplaces (h.exits.eq_fault_iff.mp hfault)

end Passes

end Outcome
