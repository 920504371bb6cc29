import TmatePlugin.Lib.Buffer
import TmatePlugin.Lib.CString
import TmatePlugin.Lib.Loop
import TmatePlugin.Lib.Masking

/-!
# `maskText`

`maskText` of `Util/src/Utl_Log.cpp` hides what stands between a begin and an end
pattern, in place: it overwrites a secret by an asterisk and moves the rest of the
text down over what is left of it. Pointers are offsets into the text; an access
outside its first `len` bytes is a fault, and so is a loop that does not end.

* `maskText_eq`: it computes `Masking.mask` of the first `len` bytes.
* `maskText_hides`: neither the content nor the length of a secret can be told from
  the result, nothing but the `len` bytes is touched, and a second call changes
  nothing.
-/
namespace TmatePlugin.L1.MaskText

open CString Outcome Masking

/-- `strncmp(hay, needle, strlen(needle)) == 0`; the needle has no NUL. -/
def strncmp : Bytes → Bytes → Outcome Bool
  | _, [] => .ok true
  | [], _ :: _ => fault
  | c :: hay, d :: needle => if c = d then strncmp hay needle else .ok false

/-- The comparisons at `count` offsets from `i` on.
mirrors Util/src/Utl_Log.cpp:85-89 -/
def strnstrFrom (hay needle : Bytes) : Nat → Nat → Outcome (Option Nat)
  | 0, _ => pure none
  | count + 1, i => do
    if ← strncmp (hay.drop i) needle then pure (some i) else strnstrFrom hay needle count (i + 1)

/-- `UTLString_strnstr(p, needle, n)`, with the offset of the result.
mirrors Util/src/Utl_Log.cpp:79-92 -/
def strnstr (text : Bytes) (p : Nat) (needle : Bytes) (n : Nat) : Outcome (Option Nat) :=
  if needle.length ≤ n then strnstrFrom text needle (n - needle.length + 1) p else pure none

structure MaskState where
  text : Bytes
  len : Nat
  p : Nat

def asterisk : UInt8 := 42

/-- Hides the secret between `s.p` and `q`, and leaves `p` behind it.
mirrors Util/src/Utl_Log.cpp:111-121 -/
def hideSecret (s : MaskState) (q : Nat) : Outcome MaskState :=
  if s.p < q then do
    let text ← Buffer.store s.text s.p [asterisk]
    let p := s.p + 1
    if p < q then
      let text ← if q < s.len then Buffer.move text p q (s.len - q) else pure text
      pure { text, len := s.len - (q - p), p }
    else pure { s with text, p }
  else pure s

/-- One round of the loop; it ends with the text and its length.
mirrors Util/src/Utl_Log.cpp:97-127 -/
def maskRound (begin_ end_ : Bytes) (s : MaskState) : Outcome (MaskState ⊕ Bytes × Nat) := do
  match ← strnstr s.text s.p begin_ (s.len - s.p) with
  | none => pure (.inr (s.text, s.len))
  | some p =>
    let p := p + begin_.length
    if p ≥ s.len then pure (.inr (s.text, s.len))
    else
      let q := (← strnstr s.text p end_ (s.len - p)).getD s.len
      let s ← hideSecret { s with p } q
      let p := s.p + end_.length
      if p ≥ s.len then pure (.inr (s.text, s.len)) else pure (.inl { s with p })

/-- The text after the call, and the new length.
mirrors Util/src/Utl_Log.cpp:94-129 -/
def maskText (text : Bytes) (len : Nat) (begin_ end_ : Bytes) : Outcome (Bytes × Nat) := do
  let (masked, newLen) ← Loop.run (maskRound begin_ end_) (len + 1) ⟨text.take len, len, 0⟩
  pure (masked ++ text.drop len, newLen)

/-! ## Searching -/

theorem strncmp_eq {hay needle : Bytes} (h : needle.length ≤ hay.length) (rest : Bytes) :
    strncmp (hay ++ rest) needle = .ok (decide (needle <+: hay)) := by
  induction needle generalizing hay with
  | nil => simp [strncmp]
  | cons d needle ih =>
    obtain ⟨c, hay, rfl⟩ := List.exists_cons_of_ne_nil (List.length_pos_iff.mp (Nat.lt_of_lt_of_le
      (Nat.succ_pos _) h))
    rw [List.cons_append, strncmp]
    by_cases hcd : c = d
    · rw [if_pos hcd, ih (by simpa using h), hcd]
      simp [List.cons_prefix_cons]
    · rw [if_neg hcd]
      have hne : ¬ d = c := fun h => hcd h.symm
      simp [List.cons_prefix_cons, hne]

theorem strnstrFrom_eq (done hay rest : Bytes) {needle : Bytes} (h : needle.length ≤ hay.length) :
    strnstrFrom (done ++ (hay ++ rest)) needle (hay.length - needle.length + 1) done.length =
      .ok ((cut needle hay).map fun parts => done.length + parts.1.length) := by
  induction hay generalizing done with
  | nil =>
    have hnil : needle = [] := List.length_eq_zero_iff.mp (Nat.le_zero.mp h)
    subst hnil
    rw [strnstrFrom, List.drop_left, strncmp_eq (Nat.le_refl _), bind_ok, if_pos (by simp)]
    rfl
  | cons c hay ih =>
    have hsplit : done ++ (c :: hay ++ rest) = (done ++ [c]) ++ (hay ++ rest) := by simp
    rw [strnstrFrom, List.drop_left, strncmp_eq h, bind_ok]
    by_cases hpre : needle <+: c :: hay
    · rw [if_pos (by simpa using hpre), cut_head hpre]
      rfl
    · rw [if_neg (by simpa using hpre), cut_cons hpre, hsplit]
      by_cases hlen : needle.length ≤ hay.length
      · have hcount : (c :: hay).length - needle.length = hay.length - needle.length + 1 := by
          rw [List.length_cons]
          omega
        have hnext := ih (done ++ [c]) hlen
        rw [List.length_append, List.length_singleton] at hnext
        rw [hcount, hnext, Option.map_map]
        congr 2
        funext parts
        simp only [Function.comp, List.length_cons]
        omega
      · -- no room for the needle any more
        have hcount : (c :: hay).length - needle.length = 0 := by
          rw [List.length_cons]
          omega
        rw [hcount, cut_of_length (Nat.lt_of_not_le hlen)]
        rfl

/-- The search finds the first occurrence in the `n` bytes. -/
theorem strnstr_eq (done hay rest needle : Bytes) :
    strnstr (done ++ (hay ++ rest)) done.length needle hay.length =
      .ok ((cut needle hay).map fun parts => done.length + parts.1.length) := by
  by_cases h : needle.length ≤ hay.length
  · rw [strnstr, if_pos h, strnstrFrom_eq done hay rest h]
  · rw [strnstr, if_neg h, cut_of_length (Nat.lt_of_not_le h)]
    rfl

/-! ## One round -/

/-- Of what `text` has become, `done` is final, and what follows it up to `len` is still
to be masked; the whole will be `target`. -/
structure Masked (begin_ end_ text target : Bytes) (s : MaskState) : Prop where
  parts : ∃ done rest stale : Bytes, s.text = done ++ (rest ++ stale) ∧ s.p = done.length ∧
    s.len = done.length + rest.length ∧ done ++ mask begin_ end_ asterisk rest = target ∧
    Relation.ReflTransGen (Moved asterisk) (text, []) (done ++ rest, stale)
  size : s.text.length = text.length

/-- The target, and what is left of the bytes behind it. -/
def Final (text target : Bytes) (r : Bytes × Nat) : Prop :=
  ∃ stale, r = (target ++ stale, target.length) ∧ (target ++ stale).length = text.length ∧
    Relation.ReflTransGen (Moved asterisk) (text, []) (target, stale)

/-- A secret that is not empty becomes one asterisk, and what follows it moves down. -/
theorem hideSecret_eq (done secret rest stale : Bytes) :
    ∃ stale', hideSecret ⟨done ++ (secret ++ (rest ++ stale)),
        done.length + secret.length + rest.length, done.length⟩ (done.length + secret.length) =
      .ok ⟨done ++ (hide asterisk secret ++ (rest ++ stale')),
        done.length + (hide asterisk secret).length + rest.length,
        done.length + (hide asterisk secret).length⟩ ∧
      (hide asterisk secret).length + stale'.length = secret.length + stale.length ∧
      Relation.ReflTransGen (Moved asterisk) (done ++ (secret ++ rest), stale)
        (done ++ (hide asterisk secret ++ rest), stale') := by
  cases secret with
  | nil =>
    refine ⟨stale, ?_, rfl, .refl⟩
    simp only [hideSecret, hide, List.length_nil, Nat.add_zero, Nat.lt_irrefl, if_false, if_true]
    rfl
  | cons c secret =>
    have hstore : Buffer.store (done ++ (c :: secret ++ (rest ++ stale))) done.length [asterisk] =
        .ok (done ++ ([asterisk] ++ (secret ++ (rest ++ stale)))) :=
      Buffer.store_append done (b := [c]) (secret ++ (rest ++ stale)) rfl
    have hhide : hide asterisk (c :: secret) = [asterisk] := rfl
    rw [hideSecret, if_pos (by simp), hstore, bind_ok, hhide]
    cases secret with
    | nil =>
      refine ⟨stale, ?_, rfl, .single (.hide ?_)⟩
      · simp
        rfl
      · exact (List.suffix_append rest stale).trans (List.suffix_append [c] _)
    | cons d secret =>
      have hmove := Buffer.move_down (done ++ [asterisk]) (d :: secret) rest stale
      have hp : (done ++ [asterisk]).length = done.length + 1 := List.length_append
      have hq : (done ++ [asterisk]).length + (d :: secret).length =
          done.length + (c :: d :: secret).length := by
        rw [hp, List.length_cons, List.length_cons, List.length_cons]
        omega
      rw [hq, hp, List.append_assoc, List.append_assoc] at hmove
      have hrest : done.length + (c :: d :: secret).length + rest.length -
          (done.length + (c :: d :: secret).length) = rest.length := Nat.add_sub_cancel_left _ _
      have hlen : done.length + (c :: d :: secret).length + rest.length -
          (done.length + (c :: d :: secret).length - (done.length + 1)) = done.length + 1 + rest.length := by
        simp only [List.length_cons]
        omega
      refine ⟨(d :: secret ++ (rest ++ stale)).drop rest.length, ?_, ?_, .single (.hide ?_)⟩
      · rw [if_pos (by simp)]
        simp only [hrest, hmove, hlen, pure_bind, bind_ok]
        cases rest with
        | nil =>
          rw [if_neg (by simp)]
          simp
          rfl
        | cons e rest =>
          rw [if_pos (by simp)]
          simp
          rfl
      · simp only [List.length_drop, List.length_append, List.length_cons, List.length_nil]
        omega
      · exact (List.drop_suffix _ _).trans (List.suffix_append [c] _)

variable {begin_ end_ : Bytes}

/-- A round that finds the begin pattern, with something behind it. -/
theorem maskRound_found {done rest before r stale : Bytes} (hcut : cut begin_ rest = some (before, r))
    (hr : r ≠ []) {done' : Bytes} (hdone : done' = done ++ (before ++ begin_)) :
    maskRound begin_ end_ ⟨done ++ (rest ++ stale), done.length + rest.length, done.length⟩ =
      (hideSecret ⟨done' ++ (r ++ stale), done'.length + r.length, done'.length⟩
        (((cut end_ r).map fun parts => done'.length + parts.1.length).getD (done'.length + r.length)) >>=
      fun s => if s.p + end_.length ≥ s.len then pure (.inr (s.text, s.len))
        else pure (.inl { s with p := s.p + end_.length })) := by
  have hrest := (cut_eq_some hcut).1
  have htext : done ++ (rest ++ stale) = done' ++ (r ++ stale) := by
    rw [hrest, hdone]
    simp only [List.append_assoc]
  have hp : done.length + before.length + begin_.length = done'.length := by
    rw [hdone, List.length_append, List.length_append, Nat.add_assoc]
  have hlen : done.length + rest.length = done'.length + r.length := by
    rw [← hp, hrest, List.length_append, List.length_append]
    omega
  have hpos : 0 < r.length := List.length_pos_iff.mpr hr
  have hfirst := strnstr_eq done rest stale begin_
  have hsecond := strnstr_eq done' r stale end_
  have hsub : done'.length + r.length - done.length = rest.length := by omega
  rw [hcut, Option.map_some, htext] at hfirst
  rw [maskRound]
  simp only [hlen, htext, hsub, hfirst, bind_ok, hp]
  rw [if_neg (by omega), Nat.add_sub_cancel_left, hsecond, bind_ok]

/-- A round that finds no begin pattern, or one with nothing behind it, is the last. -/
theorem maskRound_nothing (hend : end_ ≠ []) (done : Bytes) {rest : Bytes} (stale : Bytes)
    (hcut : ∀ before r, cut begin_ rest = some (before, r) → r = []) :
    mask begin_ end_ asterisk rest = rest ∧
      maskRound begin_ end_ ⟨done ++ (rest ++ stale), done.length + rest.length, done.length⟩ =
        .ok (.inr (done ++ (rest ++ stale), done.length + rest.length)) := by
  have hfirst := strnstr_eq done rest stale begin_
  cases hparts : cut begin_ rest with
  | none =>
    rw [hparts] at hfirst
    refine ⟨mask_of_none hparts, ?_⟩
    rw [maskRound]
    simp only [Nat.add_sub_cancel_left, hfirst, Option.map_none, bind_ok]
    rfl
  | some parts =>
    obtain ⟨before, r⟩ := parts
    have hr : r = [] := hcut before r hparts
    have hrest := (cut_eq_some hparts).1
    rw [hparts, Option.map_some] at hfirst
    constructor
    · have hshort : cut end_ r = none := by
        rw [hr]
        exact cut_of_length (List.length_pos_iff.mpr hend)
      rw [mask_last hparts hshort, hrest, hr]
      rfl
    · have hp : done.length + before.length + begin_.length ≥ done.length + rest.length := by
        rw [hrest, hr]
        simp only [List.length_append, List.length_nil]
        omega
      rw [maskRound]
      simp only [Nat.add_sub_cancel_left, hfirst, bind_ok]
      rw [if_pos hp]
      rfl

/-- A round that finds no end pattern hides all that is left. -/
theorem maskRound_last (hend : end_ ≠ []) {done rest before r : Bytes} (stale : Bytes)
    (hcut : cut begin_ rest = some (before, r)) (hr : r ≠ []) (hcut' : cut end_ r = none) {masked : Bytes}
    (hmasked : masked = done ++ (before ++ (begin_ ++ hide asterisk r))) :
    ∃ stale', maskRound begin_ end_ ⟨done ++ (rest ++ stale), done.length + rest.length, done.length⟩ =
        .ok (.inr (masked ++ stale', masked.length)) ∧
      (masked ++ stale').length = (done ++ (rest ++ stale)).length ∧
      Relation.ReflTransGen (Moved asterisk) (done ++ rest, stale) (masked, stale') := by
  have hendpos : 0 < end_.length := List.length_pos_iff.mpr hend
  obtain ⟨stale', hhide, hstale, hmoved⟩ := hideSecret_eq (done ++ (before ++ begin_)) r [] stale
  simp only [List.nil_append, List.length_nil, Nat.add_zero] at hhide
  have hall : (done ++ (before ++ begin_)) ++ (hide asterisk r ++ stale') = masked ++ stale' := by
    rw [hmasked]
    simp only [List.append_assoc]
  have hlen : (done ++ (before ++ begin_)).length + (hide asterisk r).length = masked.length := by
    rw [hmasked]
    simp only [List.length_append]
    omega
  refine ⟨stale', ?_, ?_, ?_⟩
  · rw [maskRound_found hcut hr rfl, hcut', Option.map_none, Option.getD_none, hhide, bind_ok]
    simp only
    rw [if_pos (by omega), hall, hlen]
    rfl
  · rw [(cut_eq_some hcut).1]
    simp only [List.length_append] at hlen ⊢
    omega
  · rw [(cut_eq_some hcut).1, hmasked]
    simpa only [List.append_assoc, List.append_nil] using hmoved

/-- A round that hides a secret goes on behind its end pattern, if there is anything. -/
theorem maskRound_block (hend : end_ ≠ []) {done rest before r secret after : Bytes} (stale : Bytes)
    (hcut : cut begin_ rest = some (before, r)) (hcut' : cut end_ r = some (secret, after)) {done' : Bytes}
    (hdone : done' = done ++ (before ++ (begin_ ++ (hide asterisk secret ++ end_)))) :
    ∃ stale', maskRound begin_ end_ ⟨done ++ (rest ++ stale), done.length + rest.length, done.length⟩ =
        .ok (if after = [] then .inr (done' ++ (after ++ stale'), done'.length + after.length)
          else .inl ⟨done' ++ (after ++ stale'), done'.length + after.length, done'.length⟩) ∧
      (done' ++ (after ++ stale')).length = (done ++ (rest ++ stale)).length ∧
      Relation.ReflTransGen (Moved asterisk) (done ++ rest, stale) (done' ++ after, stale') := by
  have hr' := (cut_eq_some hcut').1
  have hr : r ≠ [] := by
    rw [hr']
    simp [hend]
  obtain ⟨stale', hhide, hstale, hmoved⟩ :=
    hideSecret_eq (done ++ (before ++ begin_)) secret (end_ ++ after) stale
  rw [← List.append_assoc secret, ← hr', Nat.add_assoc _ secret.length, ← List.length_append, ← hr'] at hhide
  have hall : (done ++ (before ++ begin_)) ++ (hide asterisk secret ++ (end_ ++ after ++ stale')) =
      done' ++ (after ++ stale') := by
    rw [hdone]
    simp only [List.append_assoc]
  have hlen : done'.length =
      (done ++ (before ++ begin_)).length + (hide asterisk secret).length + end_.length := by
    rw [hdone]
    simp only [List.length_append]
    omega
  have hboth : (done ++ (before ++ begin_)).length + (hide asterisk secret).length + (end_ ++ after).length =
      done'.length + after.length := by
    have hend' : (end_ ++ after).length = end_.length + after.length := List.length_append
    rw [hlen, hend', Nat.add_assoc _ end_.length]
  refine ⟨stale', ?_, ?_, ?_⟩
  · rw [maskRound_found hcut hr rfl, hcut', Option.map_some, Option.getD_some, hhide, bind_ok]
    simp only
    rw [hall, hboth, ← hlen]
    by_cases hafter : after = []
    · rw [if_pos hafter, if_pos (by simp [hafter])]
      rfl
    · have hpos : 0 < after.length := List.length_pos_iff.mpr hafter
      rw [if_neg hafter, if_neg (by omega)]
      rfl
  · rw [(cut_eq_some hcut).1, hr']
    simp only [List.length_append] at hstale hlen ⊢
    omega
  · rw [(cut_eq_some hcut).1, hr', hdone]
    simpa only [List.append_assoc] using hmoved

theorem maskRound_masked (hbegin : begin_ ≠ []) (hend : end_ ≠ []) {text target : Bytes}
    {s : MaskState} (h : Masked begin_ end_ text target s) :
    (∃ s', maskRound begin_ end_ s = .ok (.inl s') ∧ Masked begin_ end_ text target s' ∧
      s'.len - s'.p < s.len - s.p) ∨
    ∃ r, maskRound begin_ end_ s = .ok (.inr r) ∧ Final text target r := by
  obtain ⟨buffer, len, p⟩ := s
  obtain ⟨⟨done, rest, stale, htext, hp, hlen, htarget, hmoved⟩, hsize⟩ := h
  simp only at htext hp hlen hsize
  subst htext hp hlen
  by_cases hnothing : ∀ before r, cut begin_ rest = some (before, r) → r = []
  · obtain ⟨hmask, hround⟩ := maskRound_nothing hend done stale hnothing
    rw [hmask] at htarget
    refine .inr ⟨_, hround, stale, ?_, ?_, ?_⟩
    · rw [← htarget, List.append_assoc, List.length_append]
    · rw [← htarget, List.append_assoc]
      exact hsize
    · rw [← htarget]
      exact hmoved
  · simp only [not_forall, exists_prop] at hnothing
    obtain ⟨before, r, hcut, hr⟩ := hnothing
    cases hcut' : cut end_ r with
    | none =>
      rw [mask_last hcut hcut'] at htarget
      obtain ⟨stale', hround, hkept, hlast⟩ := maskRound_last hend stale hcut hr hcut' htarget.symm
      exact .inr ⟨_, hround, stale', rfl, hkept.trans hsize, hmoved.trans hlast⟩
    | some parts =>
      obtain ⟨secret, after⟩ := parts
      rw [mask_block hbegin hcut hcut'] at htarget
      obtain ⟨done', hdone⟩ : ∃ done', done' = done ++ (before ++ (begin_ ++ (hide asterisk secret ++ end_))) :=
        ⟨_, rfl⟩
      have htarget' : done' ++ mask begin_ end_ asterisk after = target := by
        rw [hdone, ← htarget]
        simp only [List.append_assoc]
      obtain ⟨stale', hround, hkept, hblock⟩ := maskRound_block hend stale hcut hcut' hdone
      by_cases hafter : after = []
      · rw [hafter, mask_nil hbegin, List.append_nil] at htarget'
        rw [if_pos hafter, hafter, htarget'] at hround
        rw [hafter, htarget'] at hkept
        rw [hafter, List.append_nil, htarget'] at hblock
        exact .inr ⟨_, hround, stale', rfl, hkept.trans hsize, hmoved.trans hblock⟩
      · rw [if_neg hafter] at hround
        refine .inl ⟨_, hround, ⟨⟨done', after, stale', rfl, rfl, rfl, htarget', hmoved.trans hblock⟩,
          hkept.trans hsize⟩, ?_⟩
        have hendpos : 0 < end_.length := List.length_pos_iff.mpr hend
        have hshort : after.length < rest.length := by
          rw [(cut_eq_some hcut).1, (cut_eq_some hcut').1]
          simp only [List.length_append]
          omega
        simp only
        omega

/-- The call computes `mask` of the first `len` bytes, what follows them stays, and in
between stands what the moves have left. -/
theorem maskText_eq (hbegin : begin_ ≠ []) (hend : end_ ≠ []) {text : Bytes} {len : Nat}
    (hlen : len ≤ text.length) :
    ∃ stale, maskText text len begin_ end_ =
        .ok (mask begin_ end_ asterisk (text.take len) ++ stale ++ text.drop len,
          (mask begin_ end_ asterisk (text.take len)).length) ∧
      (mask begin_ end_ asterisk (text.take len) ++ stale).length = len ∧
      Relation.ReflTransGen (Moved asterisk) (text.take len, [])
        (mask begin_ end_ asterisk (text.take len), stale) := by
  have hsize : (text.take len).length = len := by rw [List.length_take, Nat.min_eq_left hlen]
  obtain ⟨r, hrun, stale, rfl, hlength, hmoved⟩ := Loop.run_of_measure (fun s : MaskState => s.len - s.p)
    (fun s hs => maskRound_masked hbegin hend hs)
    (n := len + 1) (s := ⟨text.take len, len, 0⟩)
    ⟨⟨[], text.take len, [], by simp, rfl, by simp [hsize], List.nil_append _, .refl⟩, rfl⟩
    (by simp)
  refine ⟨stale, ?_, hlength.trans hsize, hmoved⟩
  rw [maskText, hrun, bind_ok]
  rfl

/-! ## Secrets -/

theorem findSub_eq_cut (sub s : Bytes) : findSub sub s = (cut sub s).map fun parts => parts.1.length := by
  induction s with
  | nil =>
    rw [findSub, cut]
    split <;> rfl
  | cons c s ih =>
    rw [findSub, cut]
    split
    · rfl
    · rw [ih, Option.map_map, Option.map_map]
      rfl

/-- What `findSub` finds is the first occurrence. -/
theorem first_of_findSub {pat before after : Bytes}
    (h : findSub pat (before ++ (pat ++ after)) = some before.length) :
    ∀ x y, before ++ pat = x ++ (pat ++ y) → before.length ≤ x.length := by
  rw [findSub_eq_cut] at h
  obtain ⟨parts, hcut, hlen⟩ := Option.map_eq_some_iff.mp h
  intro x y hx
  rw [← hlen]
  refine (cut_eq_some hcut).2 x (y ++ after) ?_
  rw [← List.append_assoc, hx, List.append_assoc, List.append_assoc]

/-- The text before the secret, the patterns around it and the rest show nothing of
the secret but that there is one; every call ends within the `len` bytes of the
text and leaves what follows them, does not lengthen it, and a second call changes
nothing more. -/
theorem maskText_hides (begin_ end_ : Bytes) (hbegin : begin_ ≠ []) (hend : end_ ≠ [])
    (hasterisk : asterisk ∉ end_) :
    (∀ before secret secret' suffix : Bytes, secret ≠ [] → secret' ≠ [] →
      findSub begin_ (before ++ (begin_ ++ secret)) = some before.length →
      findSub begin_ (before ++ (begin_ ++ secret')) = some before.length →
      findSub end_ (secret ++ end_) = some secret.length →
      findSub end_ (secret' ++ end_) = some secret'.length →
      ∀ text text', text = before ++ (begin_ ++ (secret ++ (end_ ++ suffix))) →
        text' = before ++ (begin_ ++ (secret' ++ (end_ ++ suffix))) →
        ∃ out out' n, maskText text text.length begin_ end_ = .ok (out, n) ∧
          maskText text' text'.length begin_ end_ = .ok (out', n) ∧ out.take n = out'.take n) ∧
    ∀ text len, len ≤ text.length → ∃ masked newLen,
      maskText text len begin_ end_ = .ok (masked ++ text.drop len, newLen) ∧
      masked.length = len ∧ newLen ≤ len ∧
      maskText (masked ++ text.drop len) newLen begin_ end_ = .ok (masked ++ text.drop len, newLen) := by
  constructor
  · intro before secret secret' suffix hne hne' hfirst hfirst' hlast hlast' text text' htext htext'
    have hmasked : ∀ s : Bytes, s ≠ [] → findSub begin_ (before ++ (begin_ ++ s)) = some before.length →
        findSub end_ (s ++ end_) = some s.length →
        mask begin_ end_ asterisk (before ++ (begin_ ++ (s ++ (end_ ++ suffix)))) =
          before ++ (begin_ ++ ([asterisk] ++ (end_ ++ mask begin_ end_ asterisk suffix))) := by
      intro s hs hb he
      have hs' : findSub end_ (s ++ (end_ ++ [])) = some s.length := by rwa [List.append_nil]
      rw [mask_append hbegin (first_of_findSub hb) (first_of_findSub hs') suffix, hide, if_neg hs]
    have hcall : ∀ t : Bytes, ∃ out, maskText t t.length begin_ end_ =
        .ok (out, (mask begin_ end_ asterisk t).length) ∧
        out.take (mask begin_ end_ asterisk t).length = mask begin_ end_ asterisk t := by
      intro t
      obtain ⟨stale, hmask, -, -⟩ := maskText_eq hbegin hend (Nat.le_refl t.length)
      rw [List.take_length] at hmask
      exact ⟨_, hmask, by rw [List.append_assoc, List.take_left]⟩
    obtain ⟨out, hout, htake⟩ := hcall text
    obtain ⟨out', hout', htake'⟩ := hcall text'
    have hsame : mask begin_ end_ asterisk text = mask begin_ end_ asterisk text' := by
      rw [htext, htext', hmasked secret hne hfirst hlast, hmasked secret' hne' hfirst' hlast']
    refine ⟨out, out', _, hout, by rw [hout', hsame], ?_⟩
    rw [htake, hsame, htake']
  · intro text len hlen
    obtain ⟨stale, hmask, hsize, -⟩ := maskText_eq hbegin hend hlen
    have hshort : (mask begin_ end_ asterisk (text.take len)).length ≤ (text.take len).length :=
      length_mask_le hbegin _
    rw [List.length_take, Nat.min_eq_left hlen] at hshort
    refine ⟨_, _, hmask, hsize, hshort, ?_⟩
    -- the second call finds the text already masked
    generalize hm : mask begin_ end_ asterisk (text.take len) = masked at hmask hsize hshort
    have hagain : mask begin_ end_ asterisk masked = masked := by rw [← hm, mask_mask hbegin hend hasterisk]
    have hfits : masked.length ≤ (masked ++ stale ++ text.drop len).length := by
      simp only [List.length_append]
      omega
    obtain ⟨stale', hmask', hsize', -⟩ := maskText_eq hbegin hend hfits
    rw [List.append_assoc, List.take_left, List.drop_left, hagain] at hmask'
    rw [List.append_assoc, List.take_left, hagain, List.length_append] at hsize'
    have hnil : stale' = [] := List.length_eq_zero_iff.mp (by omega)
    rw [List.append_assoc, hmask', hnil, List.append_nil]

theorem maskText_hides_password :
    ∃ out out' n,
      maskText (str "password: abc\n.") 15 (str "password: ") (str "\n") = .ok (out, n) ∧
      maskText (str "password: 7\n.") 13 (str "password: ") (str "\n") = .ok (out', n) ∧
      out.take n = out'.take n :=
  (maskText_hides (str "password: ") (str "\n") (by decide) (by decide) (by decide)).1 []
    (str "abc") (str "7") (str ".") (by decide) (by decide) (by decide) (by decide) (by decide)
    (by decide) _ _ rfl rfl

end TmatePlugin.L1.MaskText
