import Mathlib.Data.List.Infix
import Mathlib.Data.List.TakeWhile
import Mathlib.Logic.Relation
import Mathlib.Tactic.Common
import TmatePlugin.Lib.CString

/-!
# Masking what stands between two patterns

`mask B E star text` replaces what stands between an occurrence of the pattern `B`
and the next one of `E` (or the end) by a single `star`, unless it is empty, and
goes on behind that `E`.

* `cut`: a text before and after the first occurrence of a pattern.
* `mask_induction`: the blocks of a text, one after the other.
* `mask_append`: only the length of a secret being positive matters.
* `mask_mask`, `length_mask_le`: masking is idempotent and shortens.
* `Clear`: every occurrence of `B` is followed by nothing or a `star`, up to `E`.
  A pass makes its own patterns clear unless a begin pattern begins in the end
  pattern of the block before (`clear_mask`), and keeps others clear that do not
  end where its own do (`Clear.mask`).
* `Apart`: in a text with several blocks of `B` and `E`, none begins in the end of the
  one before, and no pattern of another pass is in them. The other passes leave such
  blocks separated (`Apart.maskAll`, `Apart.separated`).
* `maskAll`: several passes, one after the other (`clear_maskAll`).
* `Moved`: the same in place, where what follows a secret moves down and leaves its
  last elements behind. A pattern that is not in the buffer does not get into it,
  unless the text ends as the pattern begins (`Moved.free`).
-/
namespace Masking

open CString

variable {α : Type} [DecidableEq α]

/-! ## The first occurrence of a pattern -/

def cut (pat : List α) : List α → Option (List α × List α)
  | [] => if pat = [] then some ([], []) else none
  | c :: s =>
    if pat <+: c :: s then some ([], (c :: s).drop pat.length)
    else (cut pat s).map fun r => (c :: r.1, r.2)

theorem cut_head {pat text : List α} (h : pat <+: text) :
    cut pat text = some ([], text.drop pat.length) := by
  cases text with
  | nil => rw [cut, if_pos (List.prefix_nil.mp h)]; simp
  | cons c s => rw [cut, if_pos h]

theorem cut_cons {pat s : List α} {c : α} (h : ¬ pat <+: c :: s) :
    cut pat (c :: s) = (cut pat s).map fun r => (c :: r.1, r.2) := by
  rw [cut, if_neg h]

/-- The parts of the text, and that there is no occurrence before. -/
theorem cut_eq_some {pat text before after : List α} (h : cut pat text = some (before, after)) :
    text = before ++ (pat ++ after) ∧
      ∀ x y, text = x ++ (pat ++ y) → before.length ≤ x.length := by
  induction text generalizing before with
  | nil =>
    unfold cut at h
    split at h
    · rename_i hpat
      cases h
      exact ⟨by simp [hpat], fun x y _ => Nat.zero_le _⟩
    · cases h
  | cons c s ih =>
    by_cases hpre : pat <+: c :: s
    · rw [cut_head hpre] at h
      cases h
      exact ⟨(List.prefix_iff_eq_append.mp hpre).symm, fun x y _ => Nat.zero_le _⟩
    · rw [cut_cons hpre] at h
      obtain ⟨⟨before', after'⟩, hcut, heq⟩ := Option.map_eq_some_iff.mp h
      cases heq
      obtain ⟨hs, hfirst⟩ := ih hcut
      refine ⟨by rw [hs]; rfl, fun x y hx => ?_⟩
      cases x with
      | nil => exact absurd ⟨y, hx.symm⟩ hpre
      | cons d x =>
        cases hx
        exact Nat.succ_le_succ (hfirst x y rfl)

theorem cut_eq_none_iff {pat text : List α} : cut pat text = none ↔ ¬ pat <:+: text := by
  induction text with
  | nil =>
    unfold cut
    split
    · rename_i hpat
      simp [hpat]
    · rename_i hpat
      simpa using hpat
  | cons c s ih =>
    rw [List.infix_cons_iff, not_or, ← ih]
    by_cases hpre : pat <+: c :: s
    · simp [cut_head hpre, hpre]
    · simp [cut_cons hpre, hpre]

theorem cut_of_length {pat text : List α} (h : text.length < pat.length) : cut pat text = none :=
  cut_eq_none_iff.mpr fun hwithin => absurd hwithin.length_le (Nat.not_le_of_lt h)

/-- A text is cut where the pattern occurs with no occurrence before. -/
theorem cut_append {pat before : List α} (after : List α)
    (h : ∀ x y, before ++ pat = x ++ (pat ++ y) → before.length ≤ x.length) :
    cut pat (before ++ (pat ++ after)) = some (before, after) := by
  induction before with
  | nil => rw [List.nil_append, cut_head (List.prefix_append _ _), List.drop_left]
  | cons c before ih =>
    have hpre : ¬ pat <+: (c :: before) ++ (pat ++ after) := by
      intro hpre
      rw [← List.append_assoc] at hpre
      have hshort : pat <+: (c :: before) ++ pat :=
        List.prefix_of_prefix_length_le hpre (List.prefix_append _ _) (by simp; omega)
      obtain ⟨y, hy⟩ := hshort
      have := h [] y hy.symm
      simp at this
    rw [List.cons_append] at hpre ⊢
    rw [cut_cons hpre, ih]
    · rfl
    · intro x y hx
      have := h (c :: x) y (by rw [List.cons_append, hx]; rfl)
      simpa using this

/-! ## Masking -/

/-- A secret, hidden. -/
def hide (star : α) (secret : List α) : List α := if secret = [] then [] else [star]

/-- The text with every secret hidden. -/
def mask (B E : List α) (star : α) (text : List α) : List α :=
  match cut B text with
  | none => text
  | some (before, rest) =>
    match cut E rest with
    | none => before ++ (B ++ hide star rest)
    | some (secret, after) =>
      before ++ (B ++ (hide star secret ++ (E ++
        if after.length < text.length then mask B E star after else after)))
termination_by text.length

variable {B E : List α} {star : α}

theorem mask_of_none {text : List α} (h : cut B text = none) : mask B E star text = text := by
  rw [mask, h]

theorem mask_last {text before rest : List α} (h : cut B text = some (before, rest))
    (hE : cut E rest = none) : mask B E star text = before ++ (B ++ hide star rest) := by
  rw [mask, h]
  simp only [hE]

theorem mask_block {text before rest secret after : List α} (hB : B ≠ [])
    (h : cut B text = some (before, rest)) (hE : cut E rest = some (secret, after)) :
    mask B E star text = before ++ (B ++ (hide star secret ++ (E ++ mask B E star after))) := by
  have hshort : after.length < text.length := by
    have hpos : 0 < B.length := List.length_pos_iff.mpr hB
    rw [(cut_eq_some h).1, (cut_eq_some hE).1]
    simp only [List.length_append]
    omega
  rw [mask, h]
  simp only [hE, if_pos hshort]

theorem mask_nil (hB : B ≠ []) : mask B E star [] = [] :=
  mask_of_none (cut_eq_none_iff.mpr (by simpa using hB))

/-- What a text consists of: no block; a last block, that does not end; or a block and
what follows it. -/
theorem mask_induction (hB : B ≠ []) {P : List α → List α → Prop}
    (plain : ∀ text, cut B text = none → P text text)
    (last : ∀ before rest, cut B (before ++ (B ++ rest)) = some (before, rest) → cut E rest = none →
      P (before ++ (B ++ rest)) (before ++ (B ++ hide star rest)))
    (block : ∀ before secret after,
      cut B (before ++ (B ++ (secret ++ (E ++ after)))) = some (before, secret ++ (E ++ after)) →
      cut E (secret ++ (E ++ after)) = some (secret, after) → P after (mask B E star after) →
      P (before ++ (B ++ (secret ++ (E ++ after))))
        (before ++ (B ++ (hide star secret ++ (E ++ mask B E star after)))))
    (text : List α) : P text (mask B E star text) := by
  have hpos : 0 < B.length := List.length_pos_iff.mpr hB
  induction hn : text.length using Nat.strong_induction_on generalizing text with
  | _ n ih =>
    cases hcut : cut B text with
    | none => rw [mask_of_none hcut]; exact plain text hcut
    | some parts =>
      obtain ⟨before, rest⟩ := parts
      have htext := (cut_eq_some hcut).1
      cases hE : cut E rest with
      | none =>
        rw [mask_last hcut hE, htext]
        exact last before rest (htext ▸ hcut) hE
      | some parts =>
        obtain ⟨secret, after⟩ := parts
        have hrest := (cut_eq_some hE).1
        have hlen : after.length < n := by
          rw [← hn, htext, hrest]
          simp only [List.length_append]
          omega
        rw [mask_block hB hcut hE]
        rw [hrest] at htext hE hcut
        rw [htext]
        exact block before secret after (htext ▸ hcut) hE (ih _ hlen after rfl)

omit [DecidableEq α] in
theorem length_hide_le (star : α) (secret : List α) :
    (hide star secret).length ≤ secret.length := by
  cases secret <;> simp [hide]

omit [DecidableEq α] in
theorem hide_hide (star : α) (secret : List α) : hide star (hide star secret) = hide star secret := by
  cases secret <;> simp [hide]

theorem length_mask_le (hB : B ≠ []) (text : List α) : (mask B E star text).length ≤ text.length := by
  refine mask_induction (P := fun text masked => masked.length ≤ text.length) hB ?_ ?_ ?_ text
  · intro text _
    exact Nat.le_refl _
  · intro before rest _ _
    have hhide := length_hide_le star rest
    simp only [List.length_append]
    omega
  · intro before secret after _ _ ih
    have hhide := length_hide_le star secret
    simp only [List.length_append]
    omega

/-- Of a secret, only that it is not empty can be told from the masked text. -/
theorem mask_append (hB : B ≠ []) {before secret : List α}
    (hbefore : ∀ x y, before ++ B = x ++ (B ++ y) → before.length ≤ x.length)
    (hsecret : ∀ x y, secret ++ E = x ++ (E ++ y) → secret.length ≤ x.length) (after : List α) :
    mask B E star (before ++ (B ++ (secret ++ (E ++ after)))) =
      before ++ (B ++ (hide star secret ++ (E ++ mask B E star after))) :=
  mask_block hB (cut_append _ hbefore) (cut_append after hsecret)

/-- The first occurrence is still the first when something else follows. -/
theorem cut_swap {pat before after : List α} (h : cut pat (before ++ (pat ++ after)) = some (before, after))
    (after' : List α) : cut pat (before ++ (pat ++ after')) = some (before, after') := by
  refine cut_append after' fun x y hx => (cut_eq_some h).2 x (y ++ after) ?_
  rw [← List.append_assoc, hx, List.append_assoc, List.append_assoc]

/-- What is found is found in a longer text. -/
theorem cut_longer {pat text before after : List α} (h : cut pat text = some (before, after)) (w : List α) :
    cut pat (text ++ w) = some (before, after ++ w) := by
  have htext := (cut_eq_some h).1
  rw [htext] at h
  rw [htext, List.append_assoc, List.append_assoc]
  exact cut_swap h (after ++ w)

/-- A hidden secret does not contain the end pattern. -/
theorem cut_hide (hE : E ≠ []) (hstar : star ∉ E) (secret after : List α) :
    cut E (hide star secret ++ (E ++ after)) = some (hide star secret, after) := by
  refine cut_append after fun x y hx => ?_
  cases secret with
  | nil => exact Nat.zero_le _
  | cons c secret =>
    cases x with
    | nil =>
      obtain ⟨e, E', rfl⟩ := List.exists_cons_of_ne_nil hE
      have hhead : star = e := (List.cons.inj hx).1
      exact absurd (hhead ▸ List.mem_cons_self) hstar
    | cons d x => simp [hide]

theorem cut_hide_end (hE : E ≠ []) (hstar : star ∉ E) (secret : List α) : cut E (hide star secret) = none := by
  rw [cut_eq_none_iff]
  intro hwithin
  obtain ⟨e, he⟩ := List.exists_mem_of_ne_nil E hE
  have hmem := hwithin.subset he
  cases secret with
  | nil => cases hmem
  | cons c secret => exact hstar (List.mem_singleton.mp hmem ▸ he)

theorem mask_mask (hB : B ≠ []) (hE : E ≠ []) (hstar : star ∉ E) (text : List α) :
    mask B E star (mask B E star text) = mask B E star text := by
  refine mask_induction (P := fun _ masked => mask B E star masked = masked) hB ?_ ?_ ?_ text
  · intro text hcut
    exact mask_of_none hcut
  · intro before rest hcut _
    rw [mask_last (cut_swap hcut _) (cut_hide_end hE hstar rest), hide_hide]
  · intro before secret after hcut _ ih
    rw [mask_block hB (cut_swap hcut _) (cut_hide hE hstar secret _), hide_hide, ih]

/-! ## A text and what a pass leaves of it -/

/-- `masked` is `text` with some secrets, each behind a begin pattern, replaced by a
star. -/
inductive Hides (B : List α) (star : α) : List α → List α → Prop
  | refl (text : List α) : Hides B star text text
  | secret {u secret after masked : List α} (hu : B <:+ u) (hsecret : secret ≠ [])
      (hrest : Hides B star after masked) : Hides B star (u ++ (secret ++ after)) (u ++ (star :: masked))

omit [DecidableEq α] in
theorem Hides.append {text masked : List α} (h : Hides B star text masked) (w : List α) :
    Hides B star (w ++ text) (w ++ masked) := by
  cases h with
  | refl => exact .refl _
  | secret hu hsecret hrest =>
    rw [← List.append_assoc w, ← List.append_assoc w]
    exact .secret (hu.trans (List.suffix_append w _)) hsecret hrest

theorem hides_mask (hB : B ≠ []) (text : List α) : Hides B star text (mask B E star text) := by
  refine mask_induction (P := Hides B star) hB (fun text _ => .refl text) ?_ ?_ text
  · intro before rest _ _
    by_cases hrest : rest = []
    · rw [hrest]
      exact .refl _
    · have h : Hides B star ((before ++ B) ++ (rest ++ [])) ((before ++ B) ++ (star :: [])) :=
        .secret (List.suffix_append before B) hrest (.refl [])
      rw [hide, if_neg hrest]
      rwa [List.append_nil, List.append_assoc, List.append_assoc] at h
  · intro before secret after _ _ ih
    by_cases hsecret : secret = []
    · rw [hsecret, hide, if_pos rfl]
      exact ((ih.append E).append B).append before
    · have h : Hides B star ((before ++ B) ++ (secret ++ (E ++ after)))
          ((before ++ B) ++ (star :: (E ++ mask B E star after))) :=
        .secret (List.suffix_append before B) hsecret (ih.append E)
      rw [hide, if_neg hsecret]
      rwa [List.append_assoc, List.append_assoc] at h

omit [DecidableEq α] in
/-- A pattern in the masked text stands in the text; and what follows it has not
changed, or it is followed by `v` up to the end of a begin pattern and a secret. -/
theorem Hides.occurrence {text P x y : List α} (h : Hides B star text (x ++ (P ++ y)))
    (hP : star ∉ P) (hne : P ≠ []) : ∃ x' y', text = x' ++ (P ++ y') ∧
      (y' = y ∨ ∃ v secret after masked, secret ≠ [] ∧ y' = v ++ (secret ++ after) ∧
        y = v ++ (star :: masked) ∧ B <:+ x ++ (P ++ v) ∧ Hides B star after masked) := by
  generalize hmasked : x ++ (P ++ y) = masked at h
  induction h generalizing x with
  | refl => exact ⟨x, y, hmasked.symm, .inl rfl⟩
  | @secret u secret after masked hu hsecret hrest ih =>
    rcases List.append_eq_append_iff.mp hmasked with ⟨v, hv, hy⟩ | ⟨v, hv, hy⟩
    · -- the occurrence begins in `u`
      rcases List.append_eq_append_iff.mp hy with ⟨z, hz, hy⟩ | ⟨z, hz, hy⟩
      · refine ⟨x, z ++ (secret ++ after), ?_, .inr ⟨z, secret, after, masked, hsecret, rfl, hy, ?_, hrest⟩⟩
        · rw [hv, hz]
          simp only [List.append_assoc]
        · rw [← hz, ← hv]
          exact hu
      · cases z with
        | nil =>
          refine ⟨x, secret ++ after, ?_, .inr ⟨[], secret, after, masked, hsecret, rfl, hy.symm, ?_, hrest⟩⟩
          · rw [hv, hz]
            simp only [List.append_assoc, List.append_nil]
          · rw [hz, List.append_nil, List.append_nil, ← hv]
            exact hu
        | cons c z =>
          cases hy
          exact absurd (hz ▸ List.mem_append_right _ List.mem_cons_self) hP
    · -- it begins behind `u`
      cases v with
      | nil =>
        obtain ⟨c, P, rfl⟩ := List.exists_cons_of_ne_nil hne
        cases hy
        exact absurd List.mem_cons_self hP
      | cons c v =>
        cases hy
        obtain ⟨x', y', hafter, hfollows⟩ := ih rfl
        refine ⟨u ++ (secret ++ x'), y', ?_, ?_⟩
        · rw [hafter]
          simp only [List.append_assoc]
        · rcases hfollows with hsame | ⟨z, secret', after', masked', hsecret', hy', hy, hB, hrest'⟩
          · exact .inl hsame
          · refine .inr ⟨z, secret', after', masked', hsecret', hy', hy, ?_, hrest'⟩
            rw [hv]
            exact hB.trans ⟨u ++ [star], by simp⟩

omit [DecidableEq α] in
theorem Hides.occurs {text masked P : List α} (h : Hides B star text masked) (hP : star ∉ P)
    (hne : P ≠ []) (hwithin : P <:+: masked) : P <:+: text := by
  obtain ⟨x, y, hmasked⟩ := hwithin
  rw [← hmasked, List.append_assoc] at h
  obtain ⟨x', y', rfl, -⟩ := h.occurrence hP hne
  exact ⟨x', y', List.append_assoc x' P y'⟩

/-! ## Clear texts -/

/-- Nothing or a single star, up to the end pattern or the end. -/
def Hidden (E : List α) (star : α) (text : List α) : Prop :=
  text = [] ∨ text = [star] ∨ E <+: text ∨ star :: E <+: text

instance (text : List α) : Decidable (Hidden E star text) := by unfold Hidden; exact inferInstance

/-- What follows an occurrence of `B` is hidden. -/
def Clear (B E : List α) (star : α) (text : List α) : Prop :=
  ∀ x y, text = x ++ (B ++ y) → Hidden E star y

omit [DecidableEq α] in
/-- The occurrences, by their places. -/
theorem forall_occurrence_iff {text : List α} (Q : List α → Prop) :
    (∀ x y, text = x ++ (B ++ y) → Q y) ↔
      ∀ k < text.length + 1, B <+: text.drop k → Q (text.drop (k + B.length)) := by
  constructor
  · intro h k hk hpre
    obtain ⟨y, hy⟩ := hpre
    have hdrop : text.drop (k + B.length) = y := by rw [← List.drop_drop, ← hy, List.drop_left]
    rw [hdrop]
    exact h (text.take k) y (by rw [hy, List.take_append_drop])
  · intro h x y htext
    have hx : x.length < text.length + 1 := by
      rw [htext, List.length_append]
      omega
    have hfollows := h x.length hx (by rw [htext, List.drop_left]; exact List.prefix_append B y)
    rwa [← List.drop_drop, htext, List.drop_left, List.drop_left] at hfollows

instance (text : List α) : Decidable (Clear B E star text) :=
  decidable_of_iff _ (forall_occurrence_iff (Hidden E star)).symm

/-- No begin pattern begins in the end pattern of the block before it. -/
def Separated (B E : List α) (text : List α) : Prop :=
  match cut B text with
  | none => True
  | some (_, rest) =>
    match cut E rest with
    | none => True
    | some (_, after) =>
      (∀ x y, E ++ after = x ++ (B ++ y) → E.length ≤ x.length) ∧
        if after.length < text.length then Separated B E after else True
termination_by text.length

/-- A begin and an end pattern without a star; no begin pattern begins inside another
one that its end pattern follows at once. -/
structure Usable (B E : List α) (star : α) : Prop where
  begin_ne : B ≠ []
  end_ne : E ≠ []
  star_begin : star ∉ B
  star_end : star ∉ E
  inside : ∀ k < B.length, 0 < k → ¬ B.drop k ++ E <+: B ∧ ¬ B <+: B.drop k ++ E

instance : Decidable (Usable B E star) :=
  decidable_of_iff (B ≠ [] ∧ E ≠ [] ∧ star ∉ B ∧ star ∉ E ∧
      ∀ k < B.length, 0 < k → ¬ B.drop k ++ E <+: B ∧ ¬ B <+: B.drop k ++ E)
    ⟨fun ⟨h₁, h₂, h₃, h₄, h₅⟩ => ⟨h₁, h₂, h₃, h₄, h₅⟩, fun ⟨h₁, h₂, h₃, h₄, h₅⟩ => ⟨h₁, h₂, h₃, h₄, h₅⟩⟩

theorem separated_of_none {text : List α} (h : cut B text = none) : Separated B E text := by
  rw [Separated, h]
  trivial

theorem separated_block_iff {text before rest secret after : List α} (hB : B ≠ [])
    (h : cut B text = some (before, rest)) (hE : cut E rest = some (secret, after)) :
    Separated B E text ↔
      (∀ x y, E ++ after = x ++ (B ++ y) → E.length ≤ x.length) ∧ Separated B E after := by
  have hshort : after.length < text.length := by
    have hpos : 0 < B.length := List.length_pos_iff.mpr hB
    rw [(cut_eq_some h).1, (cut_eq_some hE).1]
    simp only [List.length_append]
    omega
  rw [Separated, h]
  simp only [hE, if_pos hshort]

/-- No begin pattern begins inside an end pattern. -/
def NotInside (B E : List α) : Prop := ∀ k < E.length, 0 < k → ¬ E.drop k <+: B ∧ ¬ B <+: E.drop k

instance : Decidable (NotInside B E) := by unfold NotInside; exact inferInstance

/-- Then blocks are separated when none begins where the end pattern of the one before
does. -/
theorem separated_of_begins (hB : B ≠ []) (h : NotInside B E) {text : List α}
    (hbegins : ∀ x secret after, text = x ++ (B ++ (secret ++ (E ++ after))) →
      cut E (secret ++ (E ++ after)) = some (secret, after) → ¬ B <+: E ++ after) : Separated B E text := by
  refine @mask_induction α _ B E (B.head hB) hB (fun text _ => (∀ x secret after,
      text = x ++ (B ++ (secret ++ (E ++ after))) → cut E (secret ++ (E ++ after)) = some (secret, after) →
      ¬ B <+: E ++ after) → Separated B E text) ?_ ?_ ?_ text hbegins
  · intro text hcut _
    exact separated_of_none hcut
  · intro before rest hcut hE _
    rw [Separated, hcut]
    simp only [hE]
  · intro before secret after hcut hE ih hbegins
    have hrest : Separated B E after := ih fun x secret' after' hafter hcut' =>
      hbegins (before ++ (B ++ (secret ++ (E ++ x)))) secret' after'
        (by rw [hafter]; simp only [List.append_assoc]) hcut'
    refine (separated_block_iff hB hcut hE).mpr ⟨fun x y hx => ?_, hrest⟩
    by_contra hlt
    obtain ⟨v, hv, hy⟩ : ∃ v, E = x ++ v ∧ B ++ y = v ++ after := by
      rcases List.append_eq_append_iff.mp hx with ⟨v, hv, hy⟩ | ⟨v, hv, hy⟩
      · exact absurd (congrArg List.length hv) (by rw [List.length_append]; omega)
      · exact ⟨v, hv, hy⟩
    rcases Nat.eq_zero_or_pos x.length with hzero | hpos
    · rw [List.length_eq_zero_iff.mp hzero, List.nil_append] at hx
      exact hbegins before secret after rfl hE ⟨y, hx.symm⟩
    · have hdrop : E.drop x.length = v := by rw [hv, List.drop_left]
      have hsides := h x.length (Nat.lt_of_not_le hlt) hpos
      rw [hdrop] at hsides
      rcases List.prefix_or_prefix_of_prefix (List.prefix_append v after) (hy ▸ List.prefix_append B y) with
        hpre | hpre
      · exact hsides.1 hpre
      · exact hsides.2 hpre

/-- A pass for `B` keeps the occurrences of `B'` clear: what it hides stands far behind
them, and no `B'` with a part of `E'` ends where a `B` does. -/
structure Keeps (B B' E' : List α) (star : α) : Prop where
  star_begin : star ∉ B
  star_kept : star ∉ B'
  kept_ne : B' ≠ []
  end_ne : E' ≠ []
  short : E'.length < B.length
  ends : ∀ n < E'.length, ¬ B <:+ B' ++ E'.take n ∧ ¬ B' ++ E'.take n <:+ B

instance (B B' E' : List α) : Decidable (Keeps B B' E' star) :=
  decidable_of_iff (star ∉ B ∧ star ∉ B' ∧ B' ≠ [] ∧ E' ≠ [] ∧ E'.length < B.length ∧
      ∀ n < E'.length, ¬ B <:+ B' ++ E'.take n ∧ ¬ B' ++ E'.take n <:+ B)
    ⟨fun ⟨h₁, h₂, h₃, h₄, h₅, h₆⟩ => ⟨h₁, h₂, h₃, h₄, h₅, h₆⟩,
      fun ⟨h₁, h₂, h₃, h₄, h₅, h₆⟩ => ⟨h₁, h₂, h₃, h₄, h₅, h₆⟩⟩

omit [DecidableEq α] in
/-- What has followed a kept occurrence up to a secret has been hidden already. -/
theorem Keeps.hidden {B' E' x v secret after masked : List α} (h : Keeps B B' E' star)
    (hB : B <:+ x ++ (B' ++ v)) (hv : v ≠ []) (hsecret : secret ≠ [])
    (hhidden : Hidden E' star (v ++ (secret ++ after))) : Hidden E' star (v ++ (star :: masked)) := by
  have hsuffix : B <:+ B' ++ v ∨ B' ++ v <:+ B := List.suffix_or_suffix_of_suffix hB (List.suffix_append x _)
  have hvlen : 0 < v.length := List.length_pos_iff.mpr hv
  have hslen : 0 < secret.length := List.length_pos_iff.mpr hsecret
  rcases hhidden with hnil | hone | hend | hstar
  · exact absurd (List.append_eq_nil_iff.mp hnil).1 hv
  · have hlen := congrArg List.length hone
    simp only [List.length_append, List.length_singleton] at hlen
    omega
  · by_cases hlen : E'.length ≤ v.length
    · have hpre : E' <+: v := List.prefix_of_prefix_length_le hend (List.prefix_append v _) hlen
      exact .inr (.inr (.inl (hpre.trans (List.prefix_append v _))))
    · have hpre : v <+: E' := List.prefix_of_prefix_length_le (List.prefix_append v _) hend (by omega)
      have htake : v = E'.take v.length := List.prefix_iff_eq_take.mp hpre
      have hends := h.ends v.length (by omega)
      rw [← htake] at hends
      rcases hsuffix with hs | hs
      · exact absurd hs hends.1
      · exact absurd hs hends.2
  · by_cases hlen : (star :: E').length ≤ v.length
    · have hpre : star :: E' <+: v := List.prefix_of_prefix_length_le hstar (List.prefix_append v _) hlen
      exact .inr (.inr (.inr (hpre.trans (List.prefix_append v _))))
    · -- the begin pattern would have the star in it
      obtain ⟨c, v, rfl⟩ := List.exists_cons_of_ne_nil hv
      have hc : star = c := (List.cons_prefix_cons.mp hstar).1
      subst hc
      have hshort := h.short
      simp only [List.length_cons] at hlen hvlen
      rcases hsuffix with hs | hs
      · have hvB : (star :: v).length ≤ B.length := by
          rw [List.length_cons]
          omega
        have hs' : star :: v <:+ B := List.suffix_of_suffix_length_le (List.suffix_append B' _) hs hvB
        exact absurd (hs'.subset List.mem_cons_self) h.star_begin
      · exact absurd (hs.subset (List.mem_append_right B' List.mem_cons_self)) h.star_begin

theorem Clear.mask {B' E' text : List α} (hB : B ≠ []) (hkeeps : Keeps B B' E' star)
    (h : Clear B' E' star text) : Clear B' E' star (mask B E star text) := by
  intro x y hmask
  have hhides : Hides B star text (x ++ (B' ++ y)) := hmask ▸ hides_mask hB text
  obtain ⟨x', y', htext, hfollows⟩ := hhides.occurrence hkeeps.star_kept hkeeps.kept_ne
  have hclear := h x' y' htext
  rcases hfollows with rfl | ⟨v, secret, after, masked, hsecret, rfl, rfl, hsuffix, -⟩
  · exact hclear
  · have hv : v ≠ [] := by
      intro hnil
      have hends := hkeeps.ends 0 (List.length_pos_iff.mpr hkeeps.end_ne)
      rw [hnil, List.append_nil] at hsuffix
      rw [List.take_zero, List.append_nil] at hends
      rcases List.suffix_or_suffix_of_suffix hsuffix (List.suffix_append x B') with hs | hs
      · exact hends.1 hs
      · exact hends.2 hs
    exact hkeeps.hidden hsuffix hv hsecret hclear

/-! ## Pass after pass -/

/-- The patterns of a pass. -/
abbrev Pass (α : Type) := List α × List α

def maskAll (star : α) (passes : List (Pass α)) (text : List α) : List α :=
  passes.foldl (fun text p => mask p.1 p.2 star text) text

theorem Clear.maskAll {B' E' text : List α} {passes : List (Pass α)}
    (hkeeps : ∀ p ∈ passes, Keeps p.1 B' E' star ∧ p.1 ≠ []) (h : Clear B' E' star text) :
    Clear B' E' star (maskAll star passes text) := by
  induction passes generalizing text with
  | nil => exact h
  | cons p passes ih =>
    have hp := hkeeps p List.mem_cons_self
    exact ih (fun q hq => hkeeps q (List.mem_cons_of_mem p hq)) (h.mask hp.2 hp.1)

/-- Behind a begin pattern, when another one follows: none of the passes begins before
the end pattern, and the other one does not begin there. -/
def Alone (passes : List (Pass α)) (B E follows : List α) : Prop :=
  ∀ block ∈ cut E follows, B <:+: follows →
    (∀ p ∈ passes, ¬ p.1 <:+: block.1) ∧ ¬ B <+: E ++ block.2

instance (passes : List (Pass α)) (B E follows : List α) : Decidable (Alone passes B E follows) := by
  unfold Alone
  exact inferInstance

/-- So it is behind every begin pattern of the text. -/
def Apart (passes : List (Pass α)) (B E text : List α) : Prop :=
  ∀ x y, text = x ++ (B ++ y) → Alone passes B E y

instance (passes : List (Pass α)) (B E text : List α) : Decidable (Apart passes B E text) :=
  decidable_of_iff _ (forall_occurrence_iff (Alone passes B E)).symm

/-- No beginning of the begin pattern `b` ends where `B` does, and no beginning of `E`
where `b` does. -/
structure Outside (b B E : List α) : Prop where
  begins : ∀ k < b.length, ¬ b.take (k + 1) <:+ B ∧ ¬ B <:+ b.take (k + 1)
  ends : ∀ k < E.length, 0 < k → ¬ E.take k <:+ b ∧ ¬ b <:+ E.take k

instance (b B E : List α) : Decidable (Outside b B E) :=
  decidable_of_iff ((∀ k < b.length, ¬ b.take (k + 1) <:+ B ∧ ¬ B <:+ b.take (k + 1)) ∧
      ∀ k < E.length, 0 < k → ¬ E.take k <:+ b ∧ ¬ b <:+ E.take k)
    ⟨fun ⟨h₁, h₂⟩ => ⟨h₁, h₂⟩, fun ⟨h₁, h₂⟩ => ⟨h₁, h₂⟩⟩

omit [DecidableEq α] in
/-- A begin pattern that ends behind `B` lies behind it. -/
theorem Outside.behind {b x v : List α} (h : Outside b B E) (hb : b <:+ x ++ (B ++ v)) : b <:+ v := by
  have hv : v <:+ x ++ (B ++ v) := (List.suffix_append B v).trans (List.suffix_append x _)
  rcases List.suffix_or_suffix_of_suffix hb hv with hshort | ⟨t, rfl⟩
  · exact hshort
  · cases t with
    | nil => exact List.suffix_refl v
    | cons c t =>
      obtain ⟨w, hw⟩ := hb
      rw [← List.append_assoc, ← List.append_assoc, List.append_cancel_right_eq] at hw
      have hbegins := h.begins t.length
        (by rw [List.cons_append, List.length_cons, List.length_append]; omega)
      have htake : (c :: t ++ v).take (t.length + 1) = c :: t := List.take_left' rfl
      rw [htake] at hbegins
      rcases List.suffix_or_suffix_of_suffix (hw ▸ List.suffix_append w (c :: t)) (List.suffix_append x B) with
        hs | hs
      · exact absurd hs hbegins.1
      · exact absurd hs hbegins.2

omit [DecidableEq α] in
/-- A begin pattern before an end pattern is in the secret. -/
theorem Outside.in_secret {b secret after v w : List α} (h : Outside b B E) (hb : b <:+ v)
    (hE : ¬ E <:+: v) (hsplit : secret ++ (E ++ after) = v ++ w) : b <:+: secret := by
  rcases List.append_eq_append_iff.mp hsplit with ⟨z, rfl, hz⟩ | ⟨z, rfl, -⟩
  · rcases List.append_eq_append_iff.mp hz with ⟨y, rfl, -⟩ | ⟨y, hE', -⟩
    · exact absurd ⟨secret, y, List.append_assoc secret E y⟩ hE
    · cases z with
      | nil =>
        rw [List.append_nil] at hb
        exact hb.isInfix
      | cons c z =>
        -- the end pattern would begin where `b` ends
        cases y with
        | nil =>
          rw [List.append_nil] at hE'
          exact absurd (hE' ▸ (List.suffix_append secret (c :: z)).isInfix) hE
        | cons d y =>
          have hends := h.ends (c :: z).length (by rw [hE']; simp) (Nat.succ_pos _)
          rw [hE', List.take_left] at hends
          rcases List.suffix_or_suffix_of_suffix (List.suffix_append secret (c :: z)) hb with hs | hs
          · exact absurd hs hends.1
          · exact absurd hs hends.2
  · exact hb.isInfix.trans (List.prefix_append v z).isInfix

omit [DecidableEq α] in
theorem prefix_before_star {P a b : List α} (hP : star ∉ P) (h : P <+: a ++ star :: b) : P <+: a := by
  rcases List.prefix_or_prefix_of_prefix h (List.prefix_append a (star :: b)) with hpre | ⟨z, rfl⟩
  · exact hpre
  · cases z with
    | nil => rw [List.append_nil]
    | cons c z =>
      rw [List.prefix_append_right_inj, List.cons_prefix_cons] at h
      exact absurd (h.1 ▸ List.mem_append_right a List.mem_cons_self) hP

theorem Apart.mask {passes : List (Pass α)} {p : Pass α} {text : List α} (hp : p ∈ passes) (hne : p.1 ≠ [])
    (hout : Outside p.1 B E) (hu : Usable B E star) (h : Apart passes B E text) :
    Apart passes B E (mask p.1 p.2 star text) := by
  intro x y hmask block hblock hwithin
  have hhides : Hides p.1 star text (x ++ (B ++ y)) := hmask ▸ hides_mask hne text
  obtain ⟨x', y', htext, hfollows⟩ := hhides.occurrence hu.star_begin hu.begin_ne
  have halone := h x' y' htext
  rcases hfollows with rfl | ⟨v, secret, after, masked, -, rfl, rfl, hsuffix, hrest⟩
  · exact halone block hblock hwithin
  · have hback : ∀ P, star ∉ P → P ≠ [] → ¬ P <:+: v → P <:+: v ++ star :: masked →
        P <:+: v ++ (secret ++ after) := by
      intro P hP hPne hv hmasked
      have hrest' := (infix_append_cons_iff hP).mp hmasked |>.resolve_left hv
      exact (hrest.occurs hP hPne hrest').trans
        ((List.suffix_append secret after).trans (List.suffix_append v _)).isInfix
    have hwithin' : B <:+: v ++ (secret ++ after) := by
      by_cases hv : B <:+: v
      · exact hv.trans (List.prefix_append v _).isInfix
      · exact hback B hu.star_begin hu.begin_ne hv hwithin
    cases hcut : cut E v with
    | some parts =>
      -- the block ends before the secret that is hidden
      obtain ⟨s, a⟩ := parts
      rw [cut_longer hcut] at hblock
      cases hblock
      obtain ⟨hsecret, hbegins⟩ := halone _ (cut_longer hcut _) hwithin'
      refine ⟨hsecret, fun hpre => hbegins ?_⟩
      rw [← List.append_assoc] at hpre ⊢
      exact (prefix_before_star hu.star_begin hpre).trans (List.prefix_append (E ++ a) _)
    | none =>
      -- a secret inside the block is hidden: the text had a begin pattern there
      have hE := cut_eq_none_iff.mp hcut
      have hend : E <:+: v ++ star :: masked := by
        by_contra hnone
        rw [cut_eq_none_iff.mpr hnone] at hblock
        cases hblock
      have hsome : cut E (v ++ (secret ++ after)) ≠ none := fun hnone =>
        cut_eq_none_iff.mp hnone (hback E hu.star_end hu.end_ne hE hend)
      obtain ⟨⟨s, a⟩, hs⟩ := Option.ne_none_iff_exists'.mp hsome
      have hb := hout.in_secret (hout.behind hsuffix) hE (cut_eq_some hs).1.symm
      exact absurd hb ((halone _ hs hwithin').1 p hp)

theorem Apart.maskAll {passes done : List (Pass α)} {text : List α} (hsub : done ⊆ passes)
    (hout : ∀ p ∈ passes, p.1 ≠ [] ∧ Outside p.1 B E) (hu : Usable B E star) (h : Apart passes B E text) :
    Apart passes B E (maskAll star done text) := by
  induction done generalizing text with
  | nil => exact h
  | cons p done ih =>
    have hp := hsub List.mem_cons_self
    have hp' := hout p hp
    exact ih (fun q hq => hsub (List.mem_cons_of_mem p hq)) (h.mask hp hp'.1 hp'.2 hu)

theorem Apart.separated {passes : List (Pass α)} {text : List α} (hB : B ≠ []) (hinside : NotInside B E)
    (h : Apart passes B E text) : Separated B E text := by
  refine separated_of_begins hB hinside fun x secret after htext hcut hpre => ?_
  have hwithin : B <:+: secret ++ (E ++ after) := hpre.isInfix.trans (List.suffix_append secret _).isInfix
  exact (h x _ htext _ hcut hwithin).2 hpre

/-! ## In place -/

/-- A text and what stands behind it in its buffer. Where a secret is hidden the rest of
the text moves down, and the end of the buffer stays. -/
inductive Moved (star : α) : List α × List α → List α × List α → Prop
  | hide {u secret rest stale stale' : List α} (h : stale' <:+ secret ++ (rest ++ stale)) :
      Moved star (u ++ (secret ++ rest), stale) (u ++ (star :: rest), stale')

omit [DecidableEq α] in
theorem Moved.append {s s' : List α × List α} (h : Moved star s s') (w : List α) :
    Moved star (s.1, s.2 ++ w) (s'.1, s'.2 ++ w) := by
  obtain ⟨t, ht⟩ := h
  refine .hide ⟨t, ?_⟩
  rw [← List.append_assoc, ht]
  simp only [List.append_assoc]

/-- The pattern is not in the buffer, and the text does not end as it begins. -/
def Free (P : List α) (s : List α × List α) : Prop :=
  ¬ P <:+: s.1 ++ s.2 ∧ ∀ k < P.length, 0 < k → ¬ P.take k <:+ s.1

instance (P : List α) (s : List α × List α) : Decidable (Free P s) := by unfold Free; exact inferInstance

omit [DecidableEq α] in
theorem suffix_behind_star {P a b : List α} (hP : star ∉ P) (h : P <:+ a ++ star :: b) : P <:+ b := by
  rcases List.suffix_or_suffix_of_suffix h (List.suffix_append a (star :: b)) with hs | hs
  · rcases List.suffix_cons_iff.mp hs with rfl | hs
    · exact absurd List.mem_cons_self hP
    · exact hs
  · exact absurd (hs.subset List.mem_cons_self) hP

omit [DecidableEq α] in
theorem Moved.free {P : List α} (hP : star ∉ P) {s s' : List α × List α} (h : Moved star s s')
    (hfree : Free P s) : Free P s' := by
  obtain ⟨hnot, hends⟩ := hfree
  obtain @⟨u, secret, rest, stale, stale', hstale⟩ := h
  have hrest : rest <:+ u ++ (secret ++ rest) := (List.suffix_append secret rest).trans (List.suffix_append u _)
  refine ⟨fun hwithin => hnot ?_, fun k hk hpos hs => hends k hk hpos ?_⟩
  · rw [List.append_assoc, List.cons_append, infix_append_cons_iff hP] at hwithin
    rw [List.append_assoc, List.append_assoc]
    rcases hwithin with hu | hbehind
    · exact hu.trans (List.prefix_append u _).isInfix
    · refine List.IsInfix.trans ?_ (List.suffix_append u _).isInfix
      rcases List.infix_append_iff_ne_nil.mp hbehind with hr | hs | ⟨l₁, l₂, hl₁, hl₂, rfl, hr, -⟩
      · exact hr.trans ((List.prefix_append rest stale).isInfix.trans (List.suffix_append secret _).isInfix)
      · exact hs.trans hstale.isInfix
      · -- it would begin at the end of the text
        have hlen : l₁.length < (l₁ ++ l₂).length := by
          rw [List.length_append]
          exact Nat.lt_add_of_pos_right (List.length_pos_iff.mpr hl₂)
        refine absurd ?_ (hends l₁.length hlen (List.length_pos_iff.mpr hl₁))
        rw [List.take_left]
        exact hr.trans hrest
  · have hstar : star ∉ P.take k := fun hmem => hP (List.mem_of_mem_take hmem)
    exact (suffix_behind_star hstar hs).trans hrest

end Masking
