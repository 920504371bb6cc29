import Mathlib.Data.List.Basic
import Mathlib.Tactic.Common

/-!
# Histories

A history is the list of what has happened so far, oldest first. `Each P t`
says that everything in `t` was allowed by what came before it.

For objects that are created, used and deleted, the history of the accesses
is `Safe` when an object is created once and is `live` at each of its uses
and at its deletion. What follows is the absence of a use after the deletion
and of a second deletion (`Safe.after_delete`, `Safe.count_delete_le`).
`Safe.useAll` and `Safe.deleteAll` do the same to several live objects.
-/
namespace History

variable {α : Type}

/-- Every element is allowed by the elements before it. -/
def Each (P : List α → α → Prop) (t : List α) : Prop :=
  ∀ earlier x later, t = earlier ++ x :: later → P earlier x

theorem each_nil (P : List α → α → Prop) : Each P [] := by
  intro earlier x later h
  simp at h

/-- What is in a longer history is its last element, or was there before. -/
theorem split_append {t earlier later : List α} {x y : α} (h : t ++ [x] = earlier ++ y :: later) :
    (later = [] ∧ t = earlier ∧ x = y) ∨ ∃ later', t = earlier ++ y :: later' := by
  rcases List.eq_nil_or_concat later with rfl | ⟨later', z, rfl⟩
  · obtain ⟨ht, hx⟩ := List.append_inj' h rfl
    exact .inl ⟨rfl, ht, List.singleton_inj.mp hx⟩
  · rw [List.concat_eq_append, ← List.cons_append, ← List.append_assoc] at h
    exact .inr ⟨later', (List.append_inj' h rfl).1⟩

/-- A history grows by what it allows. -/
theorem Each.append {P : List α → α → Prop} {t : List α} {x : α} (h : Each P t) (hx : P t x) :
    Each P (t ++ [x]) := by
  intro earlier y later heq
  rcases split_append heq with ⟨-, rfl, rfl⟩ | ⟨later', ht⟩
  · exact hx
  · exact h earlier y later' ht

/-- What comes first is before everything else. -/
theorem each_cons_iff {P : List α → α → Prop} {x : α} {t : List α} :
    Each P (x :: t) ↔ P [] x ∧ Each (fun earlier => P (x :: earlier)) t := by
  constructor
  · intro h
    refine ⟨h [] x t rfl, fun earlier y later heq => ?_⟩
    exact h (x :: earlier) y later (by rw [heq]; rfl)
  · intro h earlier y later heq
    cases earlier with
    | nil => cases heq; exact h.1
    | cons z earlier => cases heq; exact h.2 earlier y later rfl

/-! ## Lifetimes -/

/-- What is done to an object of type `α`, named by its identity. -/
inductive Access (α : Type) where
  | new (a : α)
  | use (a : α)
  | delete (a : α)
  deriving DecidableEq, Repr

/-- Created and not deleted yet. -/
def live (t : List (Access α)) (a : α) : Prop := .new a ∈ t ∧ .delete a ∉ t

instance [DecidableEq α] (t : List (Access α)) (a : α) : Decidable (live t a) := by
  unfold live; exact inferInstance

/-- What may happen next. -/
def Allowed (t : List (Access α)) : Access α → Prop
  | .new a => .new a ∉ t
  | .use a => live t a
  | .delete a => live t a

def Safe (t : List (Access α)) : Prop := Each Allowed t

theorem live_append_new {t : List (Access α)} {a b : α} (h : live t a) : live (t ++ [.new b]) a :=
  ⟨List.mem_append_left _ h.1, by simpa using h.2⟩

theorem live_append_use {t : List (Access α)} {a b : α} (h : live t a) : live (t ++ [.use b]) a :=
  ⟨List.mem_append_left _ h.1, by simpa using h.2⟩

theorem live_append_delete {t : List (Access α)} {a b : α} (h : live t a) (hab : a ≠ b) :
    live (t ++ [.delete b]) a :=
  ⟨List.mem_append_left _ h.1, by simpa [hab] using h.2⟩

/-- A deleted object was created before. -/
theorem Safe.new_mem {t : List (Access α)} {a : α} (h : Safe t) (hd : .delete a ∈ t) : .new a ∈ t := by
  obtain ⟨earlier, later, heq⟩ := List.append_of_mem hd
  have hlive : live earlier a := h earlier _ later heq
  rw [heq]
  exact List.mem_append_left _ hlive.1

/-- A new object is live. -/
theorem Safe.live_new {t : List (Access α)} {a : α} (h : Safe t) (ha : .new a ∉ t) :
    live (t ++ [.new a]) a := by
  refine ⟨by simp, fun hd => ha (h.new_mem ?_)⟩
  simpa using hd

/-- A deletion in a safe history is the last access to its object. -/
theorem Safe.after_delete {earlier later : List (Access α)} {a : α}
    (h : Safe (earlier ++ .delete a :: later)) : .use a ∉ later ∧ .delete a ∉ later := by
  have hdead : ∀ x ∈ later, x = .use a ∨ x = .delete a → False := by
    intro x hx hxa
    obtain ⟨l₁, l₂, rfl⟩ := List.append_of_mem hx
    have hallowed := h (earlier ++ .delete a :: l₁) x l₂ (by simp)
    have hlive : live (earlier ++ .delete a :: l₁) a := by
      rcases hxa with rfl | rfl <;> exact hallowed
    exact hlive.2 (by simp)
  exact ⟨fun hu => hdead _ hu (.inl rfl), fun hd => hdead _ hd (.inr rfl)⟩

/-- An object is deleted at most once. -/
theorem Safe.count_delete_le [DecidableEq α] {t : List (Access α)} (h : Safe t) (a : α) :
    t.count (.delete a) ≤ 1 := by
  by_cases hd : .delete a ∈ t
  · obtain ⟨earlier, later, rfl⟩ := List.append_of_mem hd
    have hlive : live earlier a := h earlier (.delete a) later rfl
    have hlater : .delete a ∉ later := h.after_delete.2
    have hcount : (earlier ++ .delete a :: later).count (.delete a) = 1 := by
      simp [List.count_append, List.count_eq_zero_of_not_mem hlive.2, List.count_eq_zero_of_not_mem hlater]
    exact Nat.le_of_eq hcount
  · rw [List.count_eq_zero_of_not_mem hd]
    exact Nat.zero_le 1

/-! ## Several objects, one after the other -/

theorem live_useAll {t : List (Access α)} {as : List α} {a : α} : live (t ++ as.map .use) a ↔ live t a := by
  simp [live]

theorem live_deleteAll {t : List (Access α)} {as : List α} {a : α} :
    live (t ++ as.map .delete) a ↔ live t a ∧ a ∉ as := by
  simp [live, and_assoc]

theorem Safe.useAll {t : List (Access α)} {as : List α} (h : Safe t) (hlive : ∀ a ∈ as, live t a) :
    Safe (t ++ as.map .use) := by
  induction as generalizing t with
  | nil => rwa [List.map_nil, List.append_nil]
  | cons a as ih =>
    have hfirst : Safe (t ++ [.use a]) := h.append (hlive a List.mem_cons_self)
    have hrest := ih hfirst fun b hb => live_append_use (hlive b (List.mem_cons_of_mem a hb))
    rwa [List.append_assoc] at hrest

theorem Safe.deleteAll {t : List (Access α)} {as : List α} (h : Safe t) (hlive : ∀ a ∈ as, live t a)
    (hnodup : as.Nodup) : Safe (t ++ as.map .delete) := by
  induction as generalizing t with
  | nil => rwa [List.map_nil, List.append_nil]
  | cons a as ih =>
    obtain ⟨hnotin, hnodup⟩ := List.nodup_cons.mp hnodup
    have hfirst : Safe (t ++ [.delete a]) := h.append (hlive a List.mem_cons_self)
    have hrest := ih hfirst (fun b hb => live_append_delete (hlive b (List.mem_cons_of_mem a hb))
      fun hab => hnotin (hab ▸ hb)) hnodup
    rwa [List.append_assoc] at hrest

end History
