import Mathlib.Data.List.Perm.Subperm
import Mathlib.Data.List.Sort

/-!
# Retention

A collection of items is a list in the order of their creation, oldest first.
A retention rule with limit `k` gives up all but `k` of them.

* `oldest k l`, `newest k l`: what an exact rule gives up, and what it keeps.
* `surplus k l`: what a rule gives up that only sees the items and their order
  `≤`: it sorts them, greatest first, and gives up all behind the `k`-th.
* `surplus_exact_iff`: the second rule is the exact one exactly when every item
  to be given up is less than every item to be kept.
-/
namespace Retention

variable {α : Type}

/-- All but the `k` items created last. -/
def oldest (k : Nat) (l : List α) : List α := l.take (l.length - k)

/-- The `k` items created last. -/
def newest (k : Nat) (l : List α) : List α := l.drop (l.length - k)

theorem oldest_append_newest (k : Nat) (l : List α) : oldest k l ++ newest k l = l :=
  List.take_append_drop _ l

theorem length_newest_le (k : Nat) (l : List α) : (newest k l).length ≤ k := by
  rw [newest, List.length_drop]
  omega

theorem oldest_eq_nil_iff {k : Nat} {l : List α} : oldest k l = [] ↔ l.length ≤ k := by
  rw [oldest, List.take_eq_nil_iff]
  constructor
  · intro h
    rcases h with h | h
    · omega
    · simp [h]
  · intro h
    exact .inl (by omega)

theorem oldest_map {β : Type} (f : α → β) (k : Nat) (l : List α) :
    oldest k (l.map f) = (oldest k l).map f := by
  rw [oldest, oldest, List.length_map, List.map_take]

theorem newest_map {β : Type} (f : α → β) (k : Nat) (l : List α) :
    newest k (l.map f) = (newest k l).map f := by
  rw [newest, newest, List.length_map, List.map_drop]

/-- With distinct items, the newest are those that are not among the oldest. -/
theorem mem_newest_iff {k : Nat} {l : List α} (hl : l.Nodup) {x : α} :
    x ∈ newest k l ↔ x ∈ l ∧ x ∉ oldest k l := by
  have hsplit := oldest_append_newest k l
  rw [← hsplit] at hl
  have hdisj := List.disjoint_of_nodup_append hl
  constructor
  · intro hx
    exact ⟨hsplit ▸ List.mem_append_right _ hx, fun hold => hdisj hold hx⟩
  · rintro ⟨hx, hnot⟩
    rw [← hsplit] at hx
    exact (List.mem_append.mp hx).resolve_left hnot

/-- As many distinct items as there are in a list that has them all are that list's
items. -/
theorem mem_iff_of_subset {l l' : List α} (hl : l.Nodup) (hsub : l ⊆ l')
    (hlen : l'.length ≤ l.length) {x : α} : x ∈ l ↔ x ∈ l' :=
  ((List.subperm_of_subset hl hsub).perm_of_length_le hlen).mem_iff

/-- A filter that drops the oldest leaves the newest. -/
theorem filter_eq_newest {k : Nat} {l : List α} {p : α → Bool} (hl : l.Nodup)
    (hp : ∀ x, p x = true ↔ x ∉ oldest k l) : l.filter p = newest k l := by
  have hold : ∀ x ∈ oldest k l, ¬ p x = true := fun x hx hpx => (hp x).mp hpx hx
  have hnew : ∀ x ∈ newest k l, p x = true := fun x hx => (hp x).mpr ((mem_newest_iff hl).mp hx).2
  calc l.filter p
      = (oldest k l ++ newest k l).filter p := by rw [oldest_append_newest]
    _ = newest k l := by
      rw [List.filter_append, List.filter_eq_nil_iff.mpr hold, List.filter_eq_self.mpr hnew,
        List.nil_append]

/-! ## Retention by an order -/

variable [LE α] [DecidableLE α]

/-- Sorted with the greatest first, what comes behind the first `k`. -/
def surplus (k : Nat) (l : List α) : List α := (l.insertionSort (· ≤ ·)).reverse.drop k

theorem surplus_length (k : Nat) (l : List α) : (surplus k l).length = l.length - k := by
  rw [surplus, List.length_drop, List.length_reverse, List.length_insertionSort]

theorem surplus_subset (k : Nat) (l : List α) : surplus k l ⊆ l := by
  intro x hx
  have hsorted := List.mem_reverse.mp (List.mem_of_mem_drop hx)
  exact (List.perm_insertionSort _ l).mem_iff.mp hsorted

theorem surplus_nodup {l : List α} (k : Nat) (hl : l.Nodup) : (surplus k l).Nodup := by
  have hsorted := (List.perm_insertionSort (· ≤ ·) l).nodup_iff.mpr hl
  exact (List.nodup_reverse.mpr hsorted).sublist (List.drop_sublist k _)

variable [Std.IsLinearOrder α]

/-- The order in which the items are seen does not matter. -/
theorem surplus_perm {k : Nat} {l l' : List α} (h : l.Perm l') : surplus k l = surplus k l' := by
  have hsame : l.insertionSort (· ≤ ·) = l'.insertionSort (· ≤ ·) :=
    (((List.perm_insertionSort _ l).trans h).trans (List.perm_insertionSort _ l').symm).eq_of_pairwise'
      (List.pairwise_insertionSort _ l) (List.pairwise_insertionSort _ l')
  rw [surplus, surplus, hsame]

/-- Nothing that is given up is greater than something that is kept. -/
theorem surplus_le {k : Nat} {l : List α} {x y : α} (hx : x ∈ surplus k l) (hy : y ∈ l)
    (hkept : y ∉ surplus k l) : x ≤ y := by
  have hsorted : (l.insertionSort (· ≤ ·)).reverse.Pairwise (fun a b => b ≤ a) :=
    List.pairwise_reverse.mpr (List.pairwise_insertionSort (· ≤ ·) l)
  rw [← List.take_append_drop k (l.insertionSort (· ≤ ·)).reverse, List.pairwise_append] at hsorted
  have hmem : y ∈ (l.insertionSort (· ≤ ·)).reverse :=
    List.mem_reverse.mpr ((List.perm_insertionSort _ l).mem_iff.mpr hy)
  rw [← List.take_append_drop k (l.insertionSort (· ≤ ·)).reverse] at hmem
  exact hsorted.2.2 y ((List.mem_append.mp hmem).resolve_right hkept) x hx

variable [LT α] [Std.LawfulOrderLT α]

/-- The order gives up the oldest items exactly when it puts each of them below
each of the newest. -/
theorem surplus_exact_iff {k : Nat} {l : List α} (hl : l.Nodup) :
    (∀ x, x ∈ surplus k l ↔ x ∈ oldest k l) ↔ ∀ x ∈ oldest k l, ∀ y ∈ newest k l, x < y := by
  have hlen : (oldest k l).length = (surplus k l).length := by
    rw [surplus_length, oldest, List.length_take]
    omega
  have holdNodup : (oldest k l).Nodup := hl.sublist (List.take_sublist _ l)
  constructor
  · intro h x hx y hy
    obtain ⟨hmem, hkept⟩ := (mem_newest_iff hl).mp hy
    have hle : x ≤ y := surplus_le ((h x).mpr hx) hmem (fun hs => hkept ((h y).mp hs))
    have hne : x ≠ y := fun heq => hkept (heq ▸ hx)
    exact Std.lt_of_le_of_ne hle hne
  · intro h x
    refine mem_iff_of_subset (surplus_nodup k hl) (fun z hz => ?_) (Nat.le_of_eq hlen)
    by_contra hnew
    have hz' : z ∈ newest k l := (mem_newest_iff hl).mpr ⟨surplus_subset k l hz, hnew⟩
    -- one of the oldest is kept in the place of `z`
    obtain ⟨w, hw, hkept⟩ : ∃ w ∈ oldest k l, w ∉ surplus k l := by
      by_contra hall
      have hsub : oldest k l ⊆ surplus k l := fun w hw => by
        by_contra hkept
        exact hall ⟨w, hw, hkept⟩
      exact hnew ((mem_iff_of_subset holdNodup hsub (Nat.le_of_eq hlen.symm)).mpr hz)
    have hle : z ≤ w := surplus_le hz (List.mem_of_mem_take hw) hkept
    exact Std.not_le.mpr (h w hw z hz') hle

end Retention
