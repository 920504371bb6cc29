import Mathlib.Data.List.Basic
import Mathlib.Data.List.TakeWhile
import Mathlib.Tactic.Common

/-!
# Parsers that read a prefix

A `Parser` reads a value from the beginning of a text and returns the rest. The
module is about what a parser does with another text that begins the same way.

* `Closed last p`: `p` finds the end by itself, at an item of `last`, whatever
  follows. `Local more p`: `p` reads the same when what follows does not begin
  with an item of `more`, with which the value could go on.
* `opened`, `literal`: a first item, and a whole word.
* `afterBlanks`, `keyed`, `separated`, `bracketed`: blanks before a value, a key
  and its value, values between separators, and these up to a closing bracket;
  each with the lemma that makes it `Local` or `Closed`.
* `Closed.cut_iff`: what a closed parser reads of a text that has been cut and
  continued with other items.
-/
namespace Parsing

variable {α β γ : Type}

abbrev Parser (α β : Type) := List α → Option (β × List α)

/-- The text does not begin with an item of `more`. -/
def Ends (more : α → Bool) (rest : List α) : Prop := ∀ c ∈ rest.head?, more c = false

theorem ends_cons_iff {more : α → Bool} {c : α} {rest : List α} :
    Ends more (c :: rest) ↔ more c = false := by
  simp [Ends]

/-- What is read is the same when something else follows. -/
def Local (more : α → Bool) (p : Parser α β) : Prop :=
  ∀ s v rest, p s = some (v, rest) → Ends more rest →
    ∃ u, u ≠ [] ∧ s = u ++ rest ∧ ∀ rest', Ends more rest' → p (u ++ rest') = some (v, rest')

/-- What is read ends with an item of `last`, and is the same whatever follows. -/
def Closed (last : α → Bool) (p : Parser α β) : Prop :=
  ∀ s v rest, p s = some (v, rest) →
    ∃ u c, last c = true ∧ s = u ++ c :: rest ∧ ∀ rest', p (u ++ c :: rest') = some (v, rest')

/-- Something is read. -/
def Shrinks (p : Parser α β) : Prop := ∀ s v rest, p s = some (v, rest) → rest.length < s.length

theorem Closed.local {last : α → Bool} {p : Parser α β} (h : Closed last p) (more : α → Bool) :
    Local more p := by
  intro s v rest hp _
  obtain ⟨u, c, -, rfl, hread⟩ := h s v rest hp
  refine ⟨u ++ [c], by simp, by simp, fun rest' _ => ?_⟩
  rw [List.append_assoc, List.singleton_append]
  exact hread rest'

theorem Closed.shrinks {last : α → Bool} {p : Parser α β} (h : Closed last p) : Shrinks p := by
  intro s v rest hp
  obtain ⟨u, c, -, rfl, -⟩ := h s v rest hp
  rw [List.length_append, List.length_cons]
  omega

theorem Closed.mono {last last' : α → Bool} {p : Parser α β} (h : Closed last p)
    (himp : ∀ c, last c = true → last' c = true) : Closed last' p := by
  intro s v rest hp
  obtain ⟨u, c, hc, hs, hread⟩ := h s v rest hp
  exact ⟨u, c, himp c hc, hs, hread⟩

/-- The values of `p` under a function that may reject them. -/
def mapped (f : β → Option γ) (p : Parser α β) : Parser α γ := fun s =>
  match p s with
  | none => none
  | some (v, rest) => (f v).map fun v => (v, rest)

theorem mapped_eq_some {f : β → Option γ} {p : Parser α β} {s rest : List α} {v : γ}
    (h : mapped f p s = some (v, rest)) : ∃ v', p s = some (v', rest) ∧ f v' = some v := by
  unfold mapped at h
  split at h
  · cases h
  · rename_i v' rest' hp
    obtain ⟨v'', hf, heq⟩ := Option.map_eq_some_iff.mp h
    cases heq
    exact ⟨v', hp, hf⟩

theorem Closed.mapped {last : α → Bool} {p : Parser α β} (h : Closed last p) (f : β → Option γ) :
    Closed last (mapped f p) := by
  intro s v rest hp
  obtain ⟨v', hp', hf⟩ := mapped_eq_some hp
  obtain ⟨u, c, hc, hs, hread⟩ := h s v' rest hp'
  refine ⟨u, c, hc, hs, fun rest' => ?_⟩
  simp only [Parsing.mapped, hread, hf]
  rfl

/-- A text that is cut after `n` items and continued with items that end nothing:
a closed parser reads a value of it exactly when it reads that value of the
whole text, and within the first `n` items. -/
theorem Closed.cut_iff {last : α → Bool} {p : Parser α β} (h : Closed last p) {tail : List α}
    (htail : ∀ c ∈ tail, last c = false) (n : Nat) (s : List α) (v : β) :
    (∃ rest, p (s.take n ++ tail) = some (v, rest)) ↔
      ∃ rest, p s = some (v, rest) ∧ s.length ≤ n + rest.length := by
  constructor
  · rintro ⟨rest, hp⟩
    obtain ⟨u, c, hc, hs, hread⟩ := h _ v rest hp
    rw [List.append_cons] at hs
    rcases List.append_eq_append_iff.mp hs with ⟨w, hw, htl⟩ | ⟨w, hw, -⟩
    · -- the end cannot be in the items that were added
      rcases List.eq_nil_or_concat w with rfl | ⟨w', c', rfl⟩
      · rw [List.append_nil] at hw
        have hlen := congrArg List.length hw
        rw [List.length_append, List.length_take, List.length_singleton] at hlen
        refine ⟨s.drop n, ?_, by rw [List.length_drop]; omega⟩
        rw [← hread (s.drop n), List.append_cons, hw, List.take_append_drop]
      · rw [List.concat_eq_append, ← List.append_assoc] at hw
        have hcc : c = c' := (List.append_inj' hw rfl).2 |> List.singleton_inj.mp
        have hmem : c ∈ tail := by rw [htl, hcc]; simp
        rw [htail c hmem] at hc
        cases hc
    · have hlen := congrArg List.length hw
      simp only [List.length_append, List.length_take, List.length_singleton] at hlen
      have hsplit : s = u ++ c :: (w ++ s.drop n) := by
        calc s = s.take n ++ s.drop n := (List.take_append_drop n s).symm
          _ = u ++ c :: (w ++ s.drop n) := by rw [hw]; simp
      refine ⟨w ++ s.drop n, ?_, ?_⟩
      · rw [← hread, ← hsplit]
      · rw [List.length_append, List.length_drop]
        omega
  · rintro ⟨rest, hp, hlen⟩
    obtain ⟨u, c, -, rfl, hread⟩ := h s v rest hp
    rw [List.length_append, List.length_cons] at hlen
    refine ⟨rest.take (n - (u.length + 1)) ++ tail, ?_⟩
    have hcut : (u ++ c :: rest).take n = u ++ c :: rest.take (n - (u.length + 1)) := by
      rw [List.append_cons, List.take_append, List.take_of_length_le (by simp; omega)]
      simp
    rw [hcut, List.append_assoc, List.cons_append]
    exact hread _

/-! ## First items -/

/-- A parser that goes by the first item is closed when each of its choices is. -/
theorem Closed.of_first {last : α → Bool} {p : Parser α β} (hnil : p [] = none)
    (h : ∀ c, ∃ q, Closed last q ∧ ∀ s, p (c :: s) = q (c :: s)) : Closed last p := by
  intro s v rest hp
  cases s with
  | nil => rw [hnil] at hp; cases hp
  | cons c s =>
    obtain ⟨q, hq, heq⟩ := h c
    rw [heq] at hp
    obtain ⟨u, c', hc', hs, hread⟩ := hq _ v rest hp
    refine ⟨u, c', hc', hs, fun rest' => ?_⟩
    obtain ⟨s', hs'⟩ : ∃ s', u ++ c' :: rest' = c :: s' := by
      cases u with
      | nil => exact ⟨rest', by rw [(List.cons.inj hs).1]; rfl⟩
      | cons x u => exact ⟨u ++ c' :: rest', by rw [(List.cons.inj hs).1]; rfl⟩
    rw [hs', heq, ← hs']
    exact hread rest'

theorem Local.of_first {more : α → Bool} {p : Parser α β} (hnil : p [] = none)
    (h : ∀ c, ∃ q, Local more q ∧ ∀ s, p (c :: s) = q (c :: s)) : Local more p := by
  intro s v rest hp hends
  cases s with
  | nil => rw [hnil] at hp; cases hp
  | cons c s =>
    obtain ⟨q, hq, heq⟩ := h c
    rw [heq] at hp
    obtain ⟨u, hu, hs, hread⟩ := hq _ v rest hp hends
    refine ⟨u, hu, hs, fun rest' hends' => ?_⟩
    obtain ⟨x, u, rfl⟩ := List.exists_cons_of_ne_nil hu
    have hx : c = x := (List.cons.inj hs).1
    subst hx
    rw [List.cons_append, heq, ← List.cons_append]
    exact hread rest' hends'

theorem closed_none (last : α → Bool) : Closed last (fun _ => none : Parser α β) := by
  intro s v rest h
  cases h

theorem Shrinks.of_first {p : Parser α β} (hnil : p [] = none)
    (h : ∀ c, ∃ q, Shrinks q ∧ ∀ s, p (c :: s) = q (c :: s)) : Shrinks p := by
  intro s v rest hp
  cases s with
  | nil => rw [hnil] at hp; cases hp
  | cons c s =>
    obtain ⟨q, hq, heq⟩ := h c
    exact hq _ v rest (heq s ▸ hp)

section
variable [DecidableEq α]

/-- A value that begins behind the item `first`. -/
def opened (first : α) (p : Parser α β) : Parser α β
  | [] => none
  | c :: s => if c = first then p s else none

theorem Closed.opened {last : α → Bool} {p : Parser α β} (h : Closed last p) (first : α) :
    Closed last (opened first p) := by
  intro s v rest hp
  cases s with
  | nil => cases hp
  | cons x s =>
    rw [Parsing.opened] at hp
    split at hp
    · rename_i hx
      obtain ⟨u, c, hc, rfl, hread⟩ := h s v rest hp
      refine ⟨x :: u, c, hc, rfl, fun rest' => ?_⟩
      rw [List.cons_append, Parsing.opened, if_pos hx, hread]
    · cases hp

/-- A word that stands for a value. -/
def literal (word : List α) (v : β) : Parser α β := fun s =>
  if word.isPrefixOf s then some (v, s.drop word.length) else none

theorem literal_closed (u : List α) (c : α) (v : β) : Closed (· = c) (literal (u ++ [c]) v) := by
  intro s v' rest hp
  unfold literal at hp
  split at hp
  · rename_i hpre
    cases hp
    obtain ⟨t, rfl⟩ := List.isPrefixOf_iff_prefix.mp hpre
    refine ⟨u, c, by simp, ?_, fun rest' => ?_⟩
    · rw [List.drop_left, ← List.append_cons]
    · have hword : u ++ c :: rest' = (u ++ [c]) ++ rest' := List.append_cons ..
      rw [hword, literal, if_pos (List.isPrefixOf_iff_prefix.mpr (List.prefix_append _ _)),
        List.drop_left]
  · cases hp

end

/-! ## Blanks -/

section
variable (blank : α → Bool)

def afterBlanks (p : Parser α β) : Parser α β := fun s => p (s.dropWhile blank)

variable {blank}

theorem dropWhile_blanks {ws rest : List α} {c : α} (hws : ∀ x ∈ ws, blank x = true)
    (hc : blank c = false) : (ws ++ c :: rest).dropWhile blank = c :: rest := by
  rw [List.dropWhile_append_of_pos hws, List.dropWhile_cons_of_neg (by simp [hc])]

/-- A text that is not all blanks is blanks, an item that is none, and a rest. -/
theorem dropWhile_eq_cons {s rest : List α} {c : α} (h : s.dropWhile blank = c :: rest) :
    ∃ ws, (∀ x ∈ ws, blank x = true) ∧ blank c = false ∧ s = ws ++ c :: rest := by
  refine ⟨s.takeWhile blank, fun x hx => List.mem_takeWhile_imp hx, ?_, ?_⟩
  · have hhead := List.head?_dropWhile_not blank s
    rw [h] at hhead
    simpa using hhead
  · rw [← h, List.takeWhile_append_dropWhile]

/-- Cutting a text cuts what is behind its blanks. -/
theorem dropWhile_cut (s : List α) {tail : List α} (htail : Ends blank tail) (n : Nat) :
    (s.take n ++ tail).dropWhile blank =
      (s.dropWhile blank).take (n - (s.length - (s.dropWhile blank).length)) ++ tail := by
  have hkeep : tail.dropWhile blank = tail := by
    cases tail with
    | nil => rfl
    | cons c tail => rw [List.dropWhile_cons_of_neg (by simp [ends_cons_iff.mp htail])]
  induction s generalizing n with
  | nil => simpa using hkeep
  | cons c s ih =>
    cases n with
    | zero => simpa using hkeep
    | succ n =>
      rw [List.take_succ_cons, List.cons_append]
      by_cases hc : blank c = true
      · have hle : (s.dropWhile blank).length ≤ s.length := (List.dropWhile_suffix blank).length_le
        rw [List.dropWhile_cons_of_pos hc, List.dropWhile_cons_of_pos hc, ih, List.length_cons]
        congr 2
        omega
      · rw [List.dropWhile_cons_of_neg hc, List.dropWhile_cons_of_neg hc, Nat.sub_self, Nat.sub_zero,
          List.take_succ_cons, List.cons_append]

theorem Local.afterBlanks {more : α → Bool} {p : Parser α β} (h : Local more p) :
    Local more (afterBlanks blank p) := by
  intro s v rest hp hends
  obtain ⟨u, hu, hs, hread⟩ := h _ v rest hp hends
  obtain ⟨c, u', rfl⟩ := List.exists_cons_of_ne_nil hu
  obtain ⟨ws, hws, hc, rfl⟩ := dropWhile_eq_cons hs
  refine ⟨ws ++ c :: u', by simp, by simp, fun rest' hends' => ?_⟩
  unfold Parsing.afterBlanks
  rw [List.append_assoc, List.cons_append, dropWhile_blanks hws hc]
  exact hread rest' hends'

theorem Closed.afterBlanks {last : α → Bool} {p : Parser α β} (h : Closed last p) :
    Closed last (afterBlanks blank p) := by
  intro s v rest hp
  obtain ⟨u, c, hc, hs, hread⟩ := h _ v rest hp
  obtain ⟨x, t, hx⟩ : ∃ x t, u ++ [c] = x :: t := List.exists_cons_of_ne_nil (by simp)
  rw [List.append_cons, hx, List.cons_append] at hs
  obtain ⟨ws, hws, hblank, rfl⟩ := dropWhile_eq_cons hs
  refine ⟨ws ++ u, c, hc, ?_, fun rest' => ?_⟩
  · rw [List.append_assoc, List.append_cons u, hx, List.cons_append]
  · unfold Parsing.afterBlanks
    rw [List.append_assoc, List.append_cons u, hx, List.cons_append, dropWhile_blanks hws hblank,
      ← List.cons_append, ← hx, ← List.append_cons]
    exact hread rest'

end

/-! ## Keys and lists -/

section
variable [DecidableEq α] (blank : α → Bool)

/-- A key, `colon` and a value. -/
def keyed (key : Parser α β) (colon : α) (value : Parser α γ) : Parser α (β × γ) := fun s =>
  match key s with
  | none => none
  | some (k, rest) =>
    match rest.dropWhile blank with
    | [] => none
    | c :: rest =>
      if c = colon then
        match value rest with
        | none => none
        | some (v, rest) => some ((k, v), rest)
      else none

/-- Values with `comma` between them, up to `close`, in at most so many rounds. -/
def separated (p : Parser α β) (comma close : α) : Nat → Parser α (List β)
  | 0, _ => none
  | n + 1, s =>
    match p s with
    | none => none
    | some (v, rest) =>
      match rest.dropWhile blank with
      | [] => none
      | c :: rest =>
        if c = comma then
          match separated p comma close n rest with
          | none => none
          | some (vs, rest) => some (v :: vs, rest)
        else if c = close then some ([v], rest)
        else none

/-- What follows an opening bracket: `close`, or values up to it. -/
def bracketed (p : Parser α β) (comma close : α) : Parser α (List β) := fun s =>
  match s.dropWhile blank with
  | [] => none
  | c :: rest =>
    if c = close then some ([], rest)
    else separated blank p comma close ((c :: rest).length + 1) (c :: rest)

variable {blank}

/-- What `keyed` has read. -/
theorem keyed_eq_some {key : Parser α β} {colon : α} {value : Parser α γ} {s rest : List α}
    {v : β × γ} (h : keyed blank key colon value s = some (v, rest)) :
    ∃ r r', key s = some (v.1, r) ∧ r.dropWhile blank = colon :: r' ∧
      value r' = some (v.2, rest) := by
  unfold keyed at h
  split at h
  · cases h
  · rename_i k r hkey
    split at h
    · cases h
    · rename_i c r' hr
      split at h
      · rename_i hc
        split at h
        · cases h
        · rename_i w rest' hvalue
          cases h
          exact ⟨r, r', hkey, hc ▸ hr, hvalue⟩
      · cases h

theorem Local.keyed {last more : α → Bool} {key : Parser α β} {value : Parser α γ} {colon : α}
    (hkey : Closed last key) (hvalue : Local more value) :
    Local more (keyed blank key colon value) := by
  intro s v rest h hends
  obtain ⟨r, r', hk, hr, hv⟩ := keyed_eq_some h
  obtain ⟨u, c, -, rfl, hreadKey⟩ := hkey s _ r hk
  obtain ⟨ws, hws, hcolon, rfl⟩ := dropWhile_eq_cons hr
  obtain ⟨u', -, rfl, hreadValue⟩ := hvalue r' _ rest hv hends
  refine ⟨u ++ c :: (ws ++ colon :: u'), by simp, by simp, fun rest' hends' => ?_⟩
  have hsplit : u ++ c :: (ws ++ colon :: u') ++ rest' =
      u ++ c :: (ws ++ colon :: (u' ++ rest')) := by simp
  rw [hsplit]
  simp only [Parsing.keyed, hreadKey, dropWhile_blanks hws hcolon, if_true, hreadValue rest' hends']

/-- What one round of `separated` has read. -/
theorem separated_succ_eq_some {p : Parser α β} {comma close : α} {n : Nat} {s rest : List α}
    {vs : List β} (h : separated blank p comma close (n + 1) s = some (vs, rest)) :
    ∃ v r c r', p s = some (v, r) ∧ r.dropWhile blank = c :: r' ∧
      (c = comma ∧ (∃ vs', vs = v :: vs' ∧ separated blank p comma close n r' = some (vs', rest)) ∨
        c ≠ comma ∧ c = close ∧ vs = [v] ∧ r' = rest) := by
  rw [separated] at h
  split at h
  · cases h
  · rename_i v r hp
    split at h
    · cases h
    · rename_i c r' hr
      refine ⟨v, r, c, r', hp, hr, ?_⟩
      split at h
      · rename_i hc
        split at h
        · cases h
        · rename_i vs' rest' hrec
          cases h
          exact .inl ⟨hc, vs', rfl, hrec⟩
      · rename_i hc
        split at h
        · rename_i hclose
          cases h
          exact .inr ⟨hc, hclose, rfl, rfl⟩
        · cases h

/-- The loop ends at `close`, with any number of rounds that is more than the
items it has read before. -/
theorem separated_closed {more : α → Bool} {p : Parser α β} {comma close : α} (hp : Local more p)
    (hmore : ∀ c, more c = true → blank c = false ∧ c ≠ comma ∧ c ≠ close) {n : Nat}
    {s rest : List α} {vs : List β} (h : separated blank p comma close n s = some (vs, rest)) :
    ∃ u, s = u ++ close :: rest ∧ ∀ rest' n', u.length < n' →
      separated blank p comma close n' (u ++ close :: rest') = some (vs, rest') := by
  induction n generalizing s vs with
  | zero => cases h
  | succ n ih =>
    obtain ⟨v, r, c, r', hps, hr, hcase⟩ := separated_succ_eq_some h
    obtain ⟨ws, hws, hblank, rfl⟩ := dropWhile_eq_cons hr
    -- what comes behind the value does not go on with it
    have hends : ∀ rest', c = comma ∨ c = close → Ends more (ws ++ c :: rest') := by
      intro rest' hc
      cases ws with
      | nil =>
        refine ends_cons_iff.mpr (Bool.eq_false_iff.mpr fun hm => ?_)
        obtain ⟨-, hcomma, hclose⟩ := hmore c hm
        exact hc.elim hcomma hclose
      | cons x ws =>
        refine ends_cons_iff.mpr (Bool.eq_false_iff.mpr fun hm => ?_)
        have hx := hws x List.mem_cons_self
        rw [(hmore x hm).1] at hx
        cases hx
    rcases hcase with ⟨hc, vs', rfl, hrec⟩ | ⟨hne, hc, rfl, rfl⟩
    · obtain ⟨u, hu, rfl, hread⟩ := hp s v _ hps (hends r' (.inl hc))
      obtain ⟨u', rfl, hreadRest⟩ := ih hrec
      refine ⟨u ++ (ws ++ c :: u'), by simp, fun rest' n' hn' => ?_⟩
      have hsplit : u ++ (ws ++ c :: u') ++ close :: rest' =
          u ++ (ws ++ c :: (u' ++ close :: rest')) := by simp
      simp only [List.length_append, List.length_cons] at hn'
      obtain ⟨m, rfl⟩ : ∃ m, n' = m + 1 := ⟨n' - 1, by omega⟩
      rw [hsplit, separated, hread _ (hends _ (.inl hc))]
      simp only [dropWhile_blanks hws hblank, if_pos hc, hreadRest rest' m (by omega)]
    · obtain ⟨u, hu, rfl, hread⟩ := hp s v _ hps (hends r' (.inr hc))
      subst hc
      refine ⟨u ++ ws, by simp, fun rest' n' hn' => ?_⟩
      obtain ⟨m, rfl⟩ : ∃ m, n' = m + 1 := ⟨n' - 1, by omega⟩
      rw [List.append_assoc, separated, hread _ (hends _ (.inr rfl))]
      simp only [dropWhile_blanks hws hblank, if_neg hne, if_true]

theorem bracketed_closed {more : α → Bool} {p : Parser α β} {comma close : α} (hp : Local more p)
    (hmore : ∀ c, more c = true → blank c = false ∧ c ≠ comma ∧ c ≠ close) :
    Closed (· = close) (bracketed blank p comma close) := by
  intro s vs rest h
  unfold bracketed at h
  split at h
  · cases h
  · rename_i c r hr
    obtain ⟨ws, hws, hblank, rfl⟩ := dropWhile_eq_cons hr
    split at h
    · rename_i hc
      cases h
      refine ⟨ws, c, by simpa using hc, rfl, fun rest' => ?_⟩
      simp only [bracketed, dropWhile_blanks hws hblank, if_pos hc]
    · rename_i hc
      obtain ⟨u, hu, hread⟩ := separated_closed hp hmore h
      cases u with
      | nil => exact absurd (List.cons.inj hu).1 hc
      | cons x u =>
        obtain ⟨rfl, rfl⟩ := List.cons.inj hu
        refine ⟨ws ++ c :: u, close, by simp, by simp, fun rest' => ?_⟩
        unfold bracketed
        rw [List.append_assoc, List.cons_append, dropWhile_blanks hws hblank]
        simp only [if_neg hc]
        refine hread rest' _ ?_
        simp only [List.length_cons, List.length_append]
        omega

end

end Parsing
