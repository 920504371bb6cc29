import TmatePlugin.Lib.Outcome

/-!
# Buffers

A buffer of fixed size as the list of its cells, and accesses that fault when
they leave it. The lemmas split a buffer into what lies before the access, the
cells accessed, and what lies behind: a `store` changes the cells in the middle
and nothing else.
-/
namespace Buffer

open Outcome

variable {α : Type}

/-- The `n` cells from `off` on. -/
def load (buf : List α) (off n : Nat) : Outcome (List α) :=
  if off + n ≤ buf.length then .ok ((buf.drop off).take n) else fault

/-- Writes `cells` from `off` on. -/
def store (buf : List α) (off : Nat) (cells : List α) : Outcome (List α) :=
  if off + cells.length ≤ buf.length then
    .ok (buf.take off ++ cells ++ buf.drop (off + cells.length))
  else fault

/-- `memmove`: the `n` cells at `src`, written at `dst`. -/
def move (buf : List α) (dst src n : Nat) : Outcome (List α) := do
  let cells ← load buf src n
  store buf dst cells

theorem load_append (a b c : List α) : load (a ++ (b ++ c)) a.length b.length = .ok b := by
  rw [load, if_pos (by simp), List.drop_left, List.take_left]

theorem store_append (a : List α) {b : List α} (c : List α) {cells : List α} (h : cells.length = b.length) :
    store (a ++ (b ++ c)) a.length cells = .ok (a ++ (cells ++ c)) := by
  rw [store, if_pos (by simp [h]), List.take_left, List.drop_append, List.drop_eq_nil_of_le (by omega),
    h, Nat.add_sub_cancel_left, List.drop_left, List.nil_append, List.append_assoc]

theorem store_one (a : List α) (c d : α) (b : List α) : store (a ++ c :: b) a.length [d] = .ok (a ++ d :: b) :=
  store_append a b (show [d].length = [c].length from rfl)

theorem load_eq_ok {buf : List α} {off n : Nat} (h : off + n ≤ buf.length) :
    load buf off n = .ok ((buf.drop off).take n) := if_pos h

theorem store_eq_ok {buf : List α} {off : Nat} {cells : List α}
    (h : off + cells.length ≤ buf.length) :
    store buf off cells = .ok (buf.take off ++ cells ++ buf.drop (off + cells.length)) := if_pos h

/-- A store keeps the size. -/
theorem store_length {buf buf' : List α} {off : Nat} {cells : List α}
    (h : store buf off cells = .ok buf') : buf'.length = buf.length := by
  unfold store at h
  split at h
  · cases h
    simp only [List.length_append, List.length_take, List.length_drop]
    omega
  · cases h

/-- What a store leaves before its end. -/
theorem store_take (buf : List α) (off : Nat) (cells : List α) (h : off + cells.length ≤ buf.length) :
    ∃ buf', store buf off cells = .ok buf' ∧ buf'.length = buf.length ∧
      ∀ n ≤ cells.length, buf'.take (off + n) = buf.take off ++ cells.take n := by
  have hoff : (buf.take off).length = off := by
    rw [List.length_take, Nat.min_eq_left (by omega)]
  refine ⟨_, store_eq_ok h, store_length (store_eq_ok h), fun n hn => ?_⟩
  rw [List.append_assoc, List.take_append, hoff, List.take_of_length_le (by omega), Nat.add_sub_cancel_left,
    List.take_append_of_le_length hn]

/-- Moving cells towards the front. What lies behind them at the new place is what
was there before. -/
theorem move_down (a m cells rest : List α) :
    move (a ++ (m ++ (cells ++ rest))) a.length (a.length + m.length) cells.length =
      .ok (a ++ (cells ++ (m ++ (cells ++ rest)).drop cells.length)) := by
  have hload : load (a ++ (m ++ (cells ++ rest))) (a.length + m.length) cells.length = .ok cells := by
    have h := load_append (a ++ m) cells rest
    rwa [List.append_assoc, List.length_append] at h
  have hsplit := List.take_append_drop cells.length (m ++ (cells ++ rest))
  have hlen : ((m ++ (cells ++ rest)).take cells.length).length = cells.length := by
    rw [List.length_take, List.length_append, List.length_append]
    omega
  have hstore := store_append a ((m ++ (cells ++ rest)).drop cells.length) hlen.symm
  rw [hsplit] at hstore
  rw [move, hload, bind_ok, hstore]

end Buffer
