import TmatePlugin.Lib.Parser

/-!
# Reading what has been printed

`Reads more p u r`: the parser `p` makes `r` of the text `u`, whatever follows it
as long as that does not begin with an item of `more`; `none` when it rejects.

There is a rule for each combinator of `Parsing`: `Reads.mapped`, `Reads.opened`,
`Reads.literal`, `Reads.afterBlanks`, `Reads.keyed`, `Reads.separated` and
`Reads.bracketed`. A list is read when each of its values is.

`Yields P p`: whatever `p` reads, its value has the property `P`; with the same
rules.
-/
namespace Parsing

variable {α β γ : Type}

def Reads (more : α → Bool) (p : Parser α β) (u : List α) (r : Option β) : Prop :=
  ∀ rest, Ends more rest → p (u ++ rest) = r.map fun v => (v, rest)

theorem Ends.mono {more more' : α → Bool} (h : ∀ c, more' c = true → more c = true) {rest : List α}
    (hends : Ends more rest) : Ends more' rest := by
  intro c hc
  have hmore := hends c hc
  rw [Bool.eq_false_iff] at hmore ⊢
  exact fun h' => hmore (h c h')

theorem Reads.mapped {more : α → Bool} {p : Parser α β} {u : List α} {r : Option β}
    (h : Reads more p u r) (f : β → Option γ) : Reads more (mapped f p) u (r.bind f) := by
  intro rest hends
  unfold Parsing.mapped
  rw [h rest hends]
  cases r with
  | none => rfl
  | some v => rfl

theorem Reads.mono {more more' : α → Bool} {p : Parser α β} {u : List α} {r : Option β}
    (h : Reads more p u r) (hmore : ∀ c, more c = true → more' c = true) : Reads more' p u r :=
  fun rest hends => h rest (hends.mono hmore)

section
variable [DecidableEq α]

theorem Reads.opened {more : α → Bool} {p : Parser α β} {u : List α} {r : Option β}
    (h : Reads more p u r) (first : α) : Reads more (opened first p) (first :: u) r := by
  intro rest hends
  rw [List.cons_append, Parsing.opened, if_pos rfl, h rest hends]

theorem reads_literal (more : α → Bool) (word : List α) (v : β) :
    Reads more (literal word v) word (some v) := by
  intro rest _
  have hpre : word.isPrefixOf (word ++ rest) = true :=
    List.isPrefixOf_iff_prefix.mpr (List.prefix_append word rest)
  rw [literal, if_pos hpre, List.drop_left]
  rfl

end

/-! ## Blanks -/

/-- The text is blanks, and then an item that is none and not `close`. -/
def Starts (blank : α → Bool) (close : α) (u : List α) : Prop :=
  ∃ ws c t, (∀ x ∈ ws, blank x = true) ∧ blank c = false ∧ c ≠ close ∧ u = ws ++ c :: t

section
variable {blank : α → Bool}

theorem Starts.blanks {close : α} {ws u : List α} (hws : ∀ x ∈ ws, blank x = true)
    (h : Starts blank close u) : Starts blank close (ws ++ u) := by
  obtain ⟨ws', c, t, hws', hblank, hclose, rfl⟩ := h
  refine ⟨ws ++ ws', c, t, ?_, hblank, hclose, by rw [List.append_assoc]⟩
  intro x hx
  rcases List.mem_append.mp hx with hx | hx
  · exact hws x hx
  · exact hws' x hx

theorem Starts.append {close : α} {u : List α} (h : Starts blank close u) (v : List α) :
    Starts blank close (u ++ v) := by
  obtain ⟨ws, c, t, hws, hblank, hclose, rfl⟩ := h
  exact ⟨ws, c, t ++ v, hws, hblank, hclose, by simp⟩

/-- Blanks in front of a text that does not begin with one. -/
theorem Reads.afterBlanks {more : α → Bool} {p : Parser α β} {ws t : List α} {c : α} {r : Option β}
    (hws : ∀ x ∈ ws, blank x = true) (hc : blank c = false) (h : Reads more p (c :: t) r) :
    Reads more (afterBlanks blank p) (ws ++ c :: t) r := by
  intro rest hends
  unfold Parsing.afterBlanks
  rw [List.append_assoc, List.cons_append, dropWhile_blanks hws hc, ← List.cons_append]
  exact h rest hends

end

/-! ## Keys and lists -/

/-- Nothing follows that a value could go on with. -/
def anyRest (_ : α) : Bool := false

theorem ends_anyRest (rest : List α) : Ends anyRest rest := fun _ _ => rfl

/-- The parser begins by skipping blanks. -/
def SkipsBlanks (blank : α → Bool) (p : Parser α β) : Prop := ∀ s, p (s.dropWhile blank) = p s

section
variable {blank : α → Bool}

theorem dropWhile_dropWhile (s : List α) : (s.dropWhile blank).dropWhile blank = s.dropWhile blank := by
  induction s with
  | nil => rfl
  | cons c s ih =>
    by_cases hc : blank c = true
    · rw [List.dropWhile_cons_of_pos hc, ih]
    · rw [List.dropWhile_cons_of_neg hc, List.dropWhile_cons_of_neg hc]

theorem skipsBlanks_afterBlanks (p : Parser α β) : SkipsBlanks blank (afterBlanks blank p) := fun s => by
  unfold afterBlanks
  rw [dropWhile_dropWhile]

theorem skipsBlanks_bracketed [DecidableEq α] (p : Parser α β) (comma close : α) :
    SkipsBlanks blank (bracketed blank p comma close) := fun s => by
  unfold bracketed
  rw [dropWhile_dropWhile]

theorem SkipsBlanks.append {p : Parser α β} (hp : SkipsBlanks blank p) {ws : List α}
    (hws : ∀ x ∈ ws, blank x = true) (s : List α) : p (ws ++ s) = p s := by
  rw [← hp (ws ++ s), List.dropWhile_append_of_pos hws, hp]

theorem Reads.blanks {more : α → Bool} {p : Parser α β} {u ws : List α} {r : Option β}
    (h : Reads more p u r) (hp : SkipsBlanks blank p) (hws : ∀ x ∈ ws, blank x = true) :
    Reads more p (ws ++ u) r := by
  intro rest hends
  rw [List.append_assoc, hp.append hws, h rest hends]

/-- All the values, or none when one is missing. -/
theorem mapM_ite {P : γ → Prop} [DecidablePred P] (f : γ → β) (xs : List γ) :
    (xs.mapM fun x => if P x then some (f x) else none) =
      if ∀ x ∈ xs, P x then some (xs.map f) else none := by
  induction xs with
  | nil => simp
  | cons x xs ih =>
    rw [List.mapM_cons, ih]
    by_cases hx : P x
    · by_cases hxs : ∀ y ∈ xs, P y
      · rw [if_pos hx, if_pos hxs, if_pos (List.forall_mem_cons.mpr ⟨hx, hxs⟩)]
        rfl
      · rw [if_pos hx, if_neg hxs, if_neg fun h => hxs (List.forall_mem_cons.mp h).2]
        rfl
    · rw [if_neg hx, if_neg fun h => hx (List.forall_mem_cons.mp h).1]
      rfl

/-- How a list is written: `gap` behind each `comma`, `ws` before `close`. -/
structure Layout (blank more : α → Bool) (comma close : α) (gap ws : List α) : Prop where
  gap_blank : ∀ x ∈ gap, blank x = true
  ws_blank : ∀ x ∈ ws, blank x = true
  comma_blank : blank comma = false
  close_blank : blank close = false
  ne : comma ≠ close
  goes_on : ∀ c, more c = true → blank c = false ∧ c ≠ comma ∧ c ≠ close

variable {more : α → Bool} {comma close : α} {gap ws : List α}

theorem Layout.ends_comma (h : Layout blank more comma close gap ws) (rest : List α) :
    Ends more (comma :: rest) := by
  refine ends_cons_iff.mpr (Bool.eq_false_iff.mpr fun hm => ?_)
  exact (h.goes_on comma hm).2.1 rfl

theorem Layout.ends_close (h : Layout blank more comma close gap ws) (rest : List α) :
    Ends more (ws ++ close :: rest) := by
  cases ws with
  | nil =>
    refine ends_cons_iff.mpr (Bool.eq_false_iff.mpr fun hm => ?_)
    exact (h.goes_on close hm).2.2 rfl
  | cons x ws =>
    refine ends_cons_iff.mpr (Bool.eq_false_iff.mpr fun hm => ?_)
    have hx := h.ws_blank x List.mem_cons_self
    rw [(h.goes_on x hm).1] at hx
    cases hx

variable [DecidableEq α]

theorem SkipsBlanks.keyed {key : Parser α β} (hkey : SkipsBlanks blank key) (colon : α)
    (value : Parser α γ) : SkipsBlanks blank (keyed blank key colon value) := fun s => by
  unfold Parsing.keyed
  rw [hkey s]

theorem Reads.keyed {more : α → Bool} {key : Parser α β} {value : Parser α γ} {colon : α}
    {k ws v : List α} {rk : Option β} {rv : Option γ} (hkey : Reads anyRest key k rk)
    (hws : ∀ x ∈ ws, blank x = true) (hcolon : blank colon = false) (hvalue : Reads more value v rv) :
    Reads more (keyed blank key colon value) (k ++ (ws ++ colon :: v))
      (rk.bind fun k => rv.map fun v => (k, v)) := by
  intro rest hends
  have hsplit : k ++ (ws ++ colon :: v) ++ rest = k ++ (ws ++ colon :: (v ++ rest)) := by simp
  unfold Parsing.keyed
  rw [hsplit, hkey _ (ends_anyRest _)]
  cases rk with
  | none => rfl
  | some k =>
    simp only [Option.map_some, dropWhile_blanks hws hcolon, if_true, hvalue rest hends]
    cases rv <;> rfl

theorem SkipsBlanks.separated {p : Parser α β} (hp : SkipsBlanks blank p) (comma close : α) (n : Nat)
    {ws : List α} (hws : ∀ x ∈ ws, blank x = true) (s : List α) :
    separated blank p comma close n (ws ++ s) = separated blank p comma close n s := by
  cases n with
  | zero => rfl
  | succ n => rw [Parsing.separated, Parsing.separated, hp.append hws]

variable {p : Parser α β} {δ : Type} {text : δ → List α} {value : δ → Option β}

/-- The values of a list up to the closing item: all of them, or none when one is
rejected. -/
theorem Reads.separated (h : Layout blank more comma close gap ws) (hp : SkipsBlanks blank p) {x : δ}
    {xs : List δ} (hread : ∀ y ∈ x :: xs, Reads more p (text y) (value y)) {n : Nat}
    (hn : xs.length < n) (rest : List α) :
    separated blank p comma close n
        (text x ++ (xs.flatMap (fun y => comma :: (gap ++ text y)) ++ (ws ++ close :: rest))) =
      ((x :: xs).mapM value).map fun vs => (vs, rest) := by
  induction xs generalizing x n with
  | nil =>
    obtain ⟨n, rfl⟩ : ∃ m, n = m + 1 := ⟨n - 1, by omega⟩
    rw [List.flatMap_nil, List.nil_append, Parsing.separated,
      hread x List.mem_cons_self _ (h.ends_close rest)]
    cases hv : value x with
    | none => simp [hv]
    | some v => simp [hv, dropWhile_blanks h.ws_blank h.close_blank, h.ne.symm]
  | cons y xs ih =>
    obtain ⟨n, rfl⟩ : ∃ m, n = m + 1 := ⟨n - 1, by omega⟩
    have hrest := ih (x := y) (fun z hz => hread z (List.mem_cons_of_mem x hz)) (n := n)
      (by rw [List.length_cons] at hn; omega)
    rw [List.mapM_cons, List.flatMap_cons, List.append_assoc, List.cons_append, List.append_assoc,
      Parsing.separated, hread x List.mem_cons_self _ (h.ends_comma _)]
    cases hv : value x with
    | none => rfl
    | some v =>
      simp only [Option.map_some, List.dropWhile_cons_of_neg (show ¬ blank comma = true by simp [h.comma_blank]),
        if_true, hp.separated comma close n h.gap_blank, hrest]
      cases (y :: xs).mapM value <;> rfl

/-- An empty list. -/
theorem reads_bracketed_nil (more : α → Bool) (hws : ∀ x ∈ ws, blank x = true) (hclose : blank close = false) :
    Reads more (bracketed blank p comma close) (ws ++ [close]) (some []) := by
  intro rest _
  unfold bracketed
  rw [List.append_assoc, List.singleton_append, dropWhile_blanks hws hclose]
  simp

/-- A list with values in it. -/
theorem Reads.bracketed (h : Layout blank more comma close gap ws) (hp : SkipsBlanks blank p) {x : δ}
    {xs : List δ} (hread : ∀ y ∈ x :: xs, Reads more p (text y) (value y))
    (hstarts : Starts blank close (text x)) (more' : α → Bool) :
    Reads more' (bracketed blank p comma close)
      (text x ++ (xs.flatMap (fun y => comma :: (gap ++ text y)) ++ (ws ++ [close])))
      ((x :: xs).mapM value) := by
  intro rest _
  obtain ⟨before, c, t, hbefore, hblank, hclose, htext⟩ := hstarts
  have hlist := fun n (hn : xs.length < n) => Reads.separated h hp hread hn rest
  have hassoc : text x ++ (xs.flatMap (fun y => comma :: (gap ++ text y)) ++ (ws ++ [close])) ++ rest =
      text x ++ (xs.flatMap (fun y => comma :: (gap ++ text y)) ++ (ws ++ close :: rest)) := by simp
  have hitems : xs.length ≤ (xs.flatMap (fun y => comma :: (gap ++ text y))).length := by
    clear hread hlist hassoc
    induction xs with
    | nil => exact Nat.le_refl 0
    | cons y xs ih =>
      simp only [List.flatMap_cons, List.length_append, List.length_cons]
      omega
  rw [hassoc]
  unfold Parsing.bracketed
  rw [htext, List.append_assoc, List.cons_append] at *
  rw [dropWhile_blanks hbefore hblank]
  simp only [if_neg hclose]
  rw [← hp.separated comma close _ hbefore]
  refine hlist _ ?_
  simp only [List.length_cons, List.length_append]
  omega

end

/-! ## What is read at all -/

def Yields (P : β → Prop) (p : Parser α β) : Prop := ∀ s v rest, p s = some (v, rest) → P v

theorem yields_none (P : β → Prop) : Yields P (fun _ => none : Parser α β) := by
  intro s v rest h
  cases h

theorem Yields.mapped {P : β → Prop} {Q : γ → Prop} {p : Parser α β} {f : β → Option γ}
    (h : Yields P p) (hf : ∀ v w, P v → f v = some w → Q w) : Yields Q (mapped f p) := by
  intro s v rest hp
  obtain ⟨v', hp', hv⟩ := mapped_eq_some hp
  exact hf v' v (h s v' rest hp') hv

theorem Yields.afterBlanks {P : β → Prop} {p : Parser α β} (h : Yields P p) (blank : α → Bool) :
    Yields P (afterBlanks blank p) := fun _ v rest hp => h _ v rest hp

theorem Yields.of_first {P : β → Prop} {p : Parser α β} (hnil : p [] = none)
    (h : ∀ c, ∃ q, Yields P q ∧ ∀ s, p (c :: s) = q (c :: s)) : Yields P p := by
  intro s v rest hp
  cases s with
  | nil => rw [hnil] at hp; cases hp
  | cons c s =>
    obtain ⟨q, hq, heq⟩ := h c
    exact hq _ v rest (heq s ▸ hp)

section
variable [DecidableEq α]

theorem Yields.opened {P : β → Prop} {p : Parser α β} (h : Yields P p) (first : α) :
    Yields P (opened first p) := by
  intro s v rest hp
  cases s with
  | nil => cases hp
  | cons c s =>
    rw [Parsing.opened] at hp
    split at hp
    · exact h s v rest hp
    · cases hp

theorem yields_literal {P : β → Prop} {v : β} (hv : P v) (word : List α) : Yields P (literal word v) := by
  intro s w rest hp
  unfold literal at hp
  split at hp
  · cases hp
    exact hv
  · cases hp

theorem Yields.keyed {P : β → Prop} {Q : γ → Prop} {key : Parser α β} {value : Parser α γ}
    (hkey : Yields P key) (hvalue : Yields Q value) (blank : α → Bool) (colon : α) :
    Yields (fun m => P m.1 ∧ Q m.2) (keyed blank key colon value) := by
  intro s v rest h
  obtain ⟨r, r', hk, -, hv⟩ := keyed_eq_some h
  exact ⟨hkey s _ r hk, hvalue r' _ rest hv⟩

theorem Yields.separated {P : β → Prop} {p : Parser α β} (hp : Yields P p) (blank : α → Bool)
    (comma close : α) (n : Nat) :
    Yields (fun vs => ∀ v ∈ vs, P v) (separated blank p comma close n) := by
  induction n with
  | zero => exact yields_none _
  | succ n ih =>
    intro s vs rest h
    obtain ⟨v, r, c, r', hv, -, hcase⟩ := separated_succ_eq_some h
    rcases hcase with ⟨-, vs', rfl, hrest⟩ | ⟨-, -, rfl, -⟩
    · exact List.forall_mem_cons.mpr ⟨hp s v r hv, ih r' vs' rest hrest⟩
    · exact fun w hw => List.mem_singleton.mp hw ▸ hp s v r hv

theorem Yields.bracketed {P : β → Prop} {p : Parser α β} (hp : Yields P p) (blank : α → Bool)
    (comma close : α) :
    Yields (fun vs => ∀ v ∈ vs, P v) (bracketed blank p comma close) := by
  intro s vs rest h
  unfold Parsing.bracketed at h
  split at h
  · cases h
  · split at h
    · cases h
      exact fun v hv => (by cases hv)
    · exact hp.separated blank comma close _ _ vs rest h

end

end Parsing
