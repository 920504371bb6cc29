import TmatePlugin.L1Base.CJsonText
import TmatePlugin.Lib.Buffer
import TmatePlugin.Lib.CInt

/-!
# cJSON_Print

The printers of Util/src/cJSON.c. They write into a buffer that grows as it is
needed, or into one the caller has given: `ensure` reserves room, the text is
written without a look at the bounds, and `update_offset` finds the end of it
with `strlen`. A cell that nothing has been written to is `none`; reading it, and
leaving the buffer, is a fault. `ret` is `return false`, or the NULL of `ensure`.

Allocation succeeds, and `realloc` is there (`cJSON_InitHooks` is not called).

* `cJsonPrint_text`: the text of the tree, whole, from a first buffer of any size.
* `cJsonPrintPreallocated_iff`: the size a buffer that cannot grow has to have.
* `cJsonParse_print`, `reprint_iff`: what is printed is parsed again.
-/
namespace TmatePlugin.L1.Json

open CString Outcome Buffer

abbrev Cells := List (Option UInt8)

/-- `length` is the number of the cells. -/
structure PrintBuffer where
  buffer : Cells
  offset : Nat
  depth : Nat
  noalloc : Bool
  format : Bool

namespace PrintBuffer

def length (p : PrintBuffer) : Nat := p.buffer.length

def INT_MAX : Nat := CInt.intMax.toNat

/-- What is behind the old end has not been written to. -/
def realloc (p : PrintBuffer) (size : Nat) : PrintBuffer :=
  { p with buffer := p.buffer.take size ++ List.replicate (size - p.length) none }

/-- mirrors Util/src/cJSON.c:439-522 -/
def ensure (p : PrintBuffer) (needed : Nat) : Outcome PrintBuffer :=
  if 0 < p.length ∧ p.length ≤ p.offset then ret
  else if INT_MAX < needed then ret
  else if needed + p.offset + 1 ≤ p.length then .ok p
  else if p.noalloc then ret
  else if INT_MAX / 2 < needed + p.offset + 1 then
    if needed + p.offset + 1 ≤ INT_MAX then .ok (p.realloc INT_MAX) else ret
  else .ok (p.realloc ((needed + p.offset + 1) * 2))

/-- `strlen`. -/
def strlen : Cells → Outcome Nat
  | [] => fault
  | none :: _ => fault
  | some c :: cells =>
    if c = 0 then .ok 0
    else do
      let n ← strlen cells
      return n + 1

/-- mirrors Util/src/cJSON.c:525-535 -/
def updateOffset (p : PrintBuffer) : Outcome PrintBuffer := do
  let n ← strlen (p.buffer.drop p.offset)
  return { p with offset := p.offset + n }

/-- Writes at `output_pointer`, which is `i` cells behind the offset. -/
def write (p : PrintBuffer) (i : Nat) (s : Bytes) : Outcome PrintBuffer := do
  let buffer ← store p.buffer (p.offset + i) (s.map some)
  return { p with buffer := buffer }

/-- `offset += n`. -/
def advance (p : PrintBuffer) (n : Nat) : PrintBuffer := { p with offset := p.offset + n }

end PrintBuffer

open PrintBuffer

/-! ## Numbers and strings -/

section
variable {strtod : Strtod} (doubles : Doubles strtod)

/-- `number_buffer` has room for 25 bytes and the terminator. The decimal point is
'.', so that the loop over the digits copies them.
mirrors Util/src/cJSON.c:545-608 -/
def printNumber (d : Bytes) (p : PrintBuffer) : Outcome PrintBuffer := do
  let number := numberText doubles d
  if 25 < number.length then fault
  let p ← p.ensure (number.length + 1)
  let p ← p.write 0 number
  let p ← p.write number.length [0]
  return p.advance number.length

end

/-- How many bytes a byte takes more than one.
mirrors Util/src/cJSON.c:924-945 -/
def escapeCost (c : UInt8) : Nat :=
  if c = 34 ∨ c = 92 ∨ c = 8 ∨ c = 12 ∨ c = 10 ∨ c = 13 ∨ c = 9 then 1
  else if c < 32 then 5
  else 0

/-- The loop that copies the string, with `output_pointer` so far behind the
offset. `sprintf` writes a terminator, over which the next byte is written.
mirrors Util/src/cJSON.c:971-1008 -/
def escapeLoop : Bytes → Nat → PrintBuffer → Outcome PrintBuffer
  | [], _, p => .ok p
  | c :: input, i, p =>
    if plainByte c then do
      let p ← p.write i [c]
      escapeLoop input (i + 1) p
    else do
      let p ← p.write i [92]
      match escapeLetter c with
      | some e => do
        let p ← p.write (i + 1) [e]
        escapeLoop input (i + 2) p
      | none => do
        let p ← p.write (i + 1) (unicodeEscape c ++ [0])
        escapeLoop input (i + 6) p

/-- mirrors Util/src/cJSON.c:898-1014 -/
def printStringPtr (input : Bytes) (p : PrintBuffer) : Outcome PrintBuffer := do
  let input := cStr input
  let escapeCharacters := (input.map escapeCost).sum
  let outputLength := input.length + escapeCharacters
  let p ← p.ensure (outputLength + 3)
  let p ← p.write 0 [34]
  if escapeCharacters = 0 then
    let p ← p.write 1 input
    let p ← p.write (outputLength + 1) [34]
    p.write (outputLength + 2) [0]
  else
    let p ← escapeLoop input 1 p
    let p ← p.write (outputLength + 1) [34]
    p.write (outputLength + 2) [0]

/-! ## Values -/

section
variable {strtod : Strtod} (doubles : Doubles strtod)

/-- `ensure` and `strcpy`. -/
def printWord (needed : Nat) (word : Bytes) (p : PrintBuffer) : Outcome PrintBuffer := do
  let p ← p.ensure needed
  p.write 0 (word ++ [0])

/-- The opening bracket.
mirrors Util/src/cJSON.c:1548-1557 -/
def openArray (p : PrintBuffer) : Outcome PrintBuffer := do
  let p ← p.ensure 1
  let p ← p.write 0 [91]
  return { p.advance 1 with depth := p.depth + 1 }

/-- Behind an item that is not the last.
mirrors Util/src/cJSON.c:1566-1581 -/
def itemComma (p : PrintBuffer) : Outcome PrintBuffer := do
  let length := if p.format then 2 else 1
  let p ← p.ensure (length + 1)
  let p ← p.write 0 (44 :: (whenFormatted p.format [32] ++ [0]))
  return p.advance length

/-- mirrors Util/src/cJSON.c:1585-1595 -/
def closeArray (p : PrintBuffer) : Outcome PrintBuffer := do
  let p ← p.ensure 2
  let p ← p.write 0 [93, 0]
  return { p with depth := p.depth - 1 }

/-- mirrors Util/src/cJSON.c:1723-1737 -/
def openObject (p : PrintBuffer) : Outcome PrintBuffer := do
  let length := if p.format then 2 else 1
  let p ← p.ensure (length + 1)
  let p ← p.write 0 (123 :: whenFormatted p.format [10])
  return { p.advance length with depth := p.depth + 1 }

/-- The tabs in front of a key.
mirrors Util/src/cJSON.c:1741-1754 -/
def memberIndent (p : PrintBuffer) : Outcome PrintBuffer :=
  if p.format then do
    let p ← p.ensure p.depth
    let p ← p.write 0 (List.replicate p.depth 9)
    return p.advance p.depth
  else .ok p

/-- mirrors Util/src/cJSON.c:1763-1774 -/
def memberColon (p : PrintBuffer) : Outcome PrintBuffer := do
  let length := if p.format then 2 else 1
  let p ← p.ensure length
  let p ← p.write 0 (58 :: whenFormatted p.format [9])
  return p.advance length

/-- The comma and the newline behind a member.
mirrors Util/src/cJSON.c:1783-1801 -/
def memberEnd (last : Bool) (p : PrintBuffer) : Outcome PrintBuffer := do
  let length := (if p.format then 1 else 0) + (if last then 0 else 1)
  let p ← p.ensure (length + 1)
  let p ← p.write 0 ((if last then [] else [44]) ++ (whenFormatted p.format [10] ++ [0]))
  return p.advance length

/-- mirrors Util/src/cJSON.c:1806-1823 -/
def closeObject (p : PrintBuffer) : Outcome PrintBuffer := do
  let p ← p.ensure (if p.format then p.depth + 1 else 2)
  let p ← p.write 0 (indent p.format (p.depth - 1) ++ [125, 0])
  return { p with depth := p.depth - 1 }

mutual

/-- mirrors Util/src/cJSON.c:1363-1429 -/
def printValue : CJson → PrintBuffer → Outcome PrintBuffer
  | .null, p => printWord 5 (str "null") p
  | .bool false, p => printWord 6 (str "false") p
  | .bool true, p => printWord 5 (str "true") p
  | .number d, p => printNumber doubles d p
  | .string v, p => printStringPtr v p
  | .array items, p => do
    let p ← openArray p
    let p ← printItems items p
    closeArray p
  | .object members, p => do
    let p ← openObject p
    let p ← printMembers members p
    closeObject p

/-- The loop of `print_array`: Util/src/cJSON.c:1559-1583. -/
def printItems : List CJson → PrintBuffer → Outcome PrintBuffer
  | [], p => .ok p
  | item :: items, p => do
    let p ← printValue item p
    let p ← p.updateOffset
    let p ← if items.isEmpty then .ok p else itemComma p
    printItems items p

/-- The loop of `print_object`: Util/src/cJSON.c:1739-1804. -/
def printMembers : List (Bytes × CJson) → PrintBuffer → Outcome PrintBuffer
  | [], p => .ok p
  | (key, value) :: members, p => do
    let p ← memberIndent p
    let p ← printStringPtr key p
    let p ← p.updateOffset
    let p ← memberColon p
    let p ← printValue value p
    let p ← p.updateOffset
    let p ← memberEnd members.isEmpty p
    printMembers members p

end

/-- The buffer `print` returns has its own size: the text and the terminator.
mirrors Util/src/cJSON.c:1183-1240 -/
def print (format : Bool) (t : CJson) : Outcome Cells := do
  let p ← printValue doubles t
    { buffer := List.replicate 256 none, offset := 0, depth := 0, noalloc := false, format }
  let p ← p.updateOffset
  return (p.realloc (p.offset + 1)).buffer

/-- mirrors Util/src/cJSON.c:1248-1251 -/
def cJsonPrint (t : CJson) : Outcome Cells := print doubles true t

/-- mirrors Util/src/cJSON.c:1253-1256 -/
def cJsonPrintUnformatted (t : CJson) : Outcome Cells := print doubles false t

/-- mirrors Util/src/cJSON.c:1258-1286 -/
def cJsonPrintBuffered (t : CJson) (prebuffer : Int) (format : Bool) : Outcome Cells :=
  if prebuffer < 0 then ret
  else do
    let p ← printValue doubles t
      { buffer := List.replicate prebuffer.toNat none, offset := 0, depth := 0, noalloc := false, format }
    return p.buffer

/-- `length` bytes of the caller's buffer are written to; `ret` is `false`.
mirrors Util/src/cJSON.c:1288-1305 -/
def cJsonPrintPreallocated (t : CJson) (buffer : Cells) (length : Int) (format : Bool) : Outcome Cells :=
  if length < 0 then ret
  else do
    let p ← printValue doubles t
      { buffer := buffer.take length.toNat, offset := 0, depth := 0, noalloc := true, format }
    return p.buffer ++ buffer.drop length.toNat

end

/-! ## What a printer leaves in the buffer -/

namespace PrintBuffer

/-- How far the buffer can grow. -/
def capacity (p : PrintBuffer) : Nat := if p.noalloc then p.length else INT_MAX

/-- The text `u` lies before the offset, and `w` behind it. -/
structure Pending (format : Bool) (depth : Nat) (p : PrintBuffer) (u w : Bytes) : Prop where
  cells : ∃ junk, p.buffer = (u ++ w).map some ++ junk
  offset : p.offset = u.length
  bounded : p.length ≤ INT_MAX
  format : p.format = format
  depth : p.depth = depth

/-- The text ends at the offset, and the offset is inside the buffer. -/
structure Holds (format : Bool) (depth : Nat) (p : PrintBuffer) (u : Bytes) : Prop where
  pending : Pending format depth p u []
  room : p.length = 0 ∨ p.offset < p.length

/-- The buffer that cannot grow has not. -/
def Same (p p' : PrintBuffer) : Prop :=
  p'.noalloc = p.noalloc ∧ (p.noalloc = true → p'.length = p.length)

theorem Same.refl (p : PrintBuffer) : Same p p := ⟨rfl, fun _ => rfl⟩

theorem Same.trans {p p' p'' : PrintBuffer} (h : Same p p') (h' : Same p' p'') : Same p p'' :=
  ⟨h'.1.trans h.1, fun hn => (h'.2 (h.1.trans hn)).trans (h.2 hn)⟩

theorem Same.capacity {p p' : PrintBuffer} (h : Same p p') : p'.capacity = p.capacity := by
  unfold PrintBuffer.capacity
  rw [h.1]
  split
  · rename_i hn
    exact h.2 hn
  · rfl

theorem INT_MAX_eq : INT_MAX = 2147483647 := by decide

theorem length_realloc (p : PrintBuffer) {size : Nat} (h : p.length ≤ size) : (p.realloc size).length = size := by
  unfold realloc length at *
  simp only [List.length_append, List.length_take, List.length_replicate]
  omega

section
variable {format : Bool} {k : Nat} {p : PrintBuffer} {u w : Bytes}

theorem Pending.length_le (h : Pending format k p u w) : u.length + w.length ≤ p.length := by
  obtain ⟨junk, hcells⟩ := h.cells
  rw [length, hcells]
  simp only [List.length_append, List.length_map]
  omega

theorem Pending.realloc (h : Pending format k p u w) {size : Nat} (hsize : p.length ≤ size)
    (hmax : size ≤ INT_MAX) : Pending format k (p.realloc size) u w where
  cells := by
    obtain ⟨junk, hcells⟩ := h.cells
    refine ⟨junk ++ List.replicate (size - p.length) none, ?_⟩
    have hall : p.buffer.take size = p.buffer := List.take_of_length_le hsize
    show p.buffer.take size ++ List.replicate (size - p.length) none = _
    rw [hall, hcells, List.append_assoc]
  offset := h.offset
  bounded := by rw [length_realloc p hsize]; exact hmax
  format := h.format
  depth := h.depth

/-- What is behind the text may be forgotten. -/
theorem Pending.forget {x : Bytes} (h : Pending format k p u (w ++ x)) : Pending format k p u w where
  cells := by
    obtain ⟨junk, hcells⟩ := h.cells
    exact ⟨x.map some ++ junk, by rw [hcells]; simp⟩
  offset := h.offset
  bounded := h.bounded
  format := h.format
  depth := h.depth

/-- `ensure` and what follows it: there is room for what has been asked for, and one
byte more, or NULL is returned. -/
theorem ensure_bind (h : Holds format k p u) {needed n : Nat} (hn : n = u.length + needed + 1)
    {F : PrintBuffer → Outcome PrintBuffer} {Q : PrintBuffer → Prop}
    (hF : ∀ p', Pending format k p' u [] → n ≤ p'.length → Same p p' → ∃ q, F p' = .ok q ∧ Q q) :
    if n ≤ p.capacity then ∃ q, (p.ensure needed >>= F) = .ok q ∧ Q q
    else (p.ensure needed >>= F) = ret := by
  have hoffset := h.pending.offset
  have hbounded := h.pending.bounded
  have hmax := INT_MAX_eq
  have hvalid : ¬ (0 < p.length ∧ p.length ≤ p.offset) := by
    have hroom := h.room
    omega
  unfold ensure
  rw [if_neg hvalid]
  cases hnoalloc : p.noalloc with
  | true =>
    have hcapacity : p.capacity = p.length := by simp [capacity, hnoalloc]
    by_cases hfits : n ≤ p.length
    · rw [if_pos (by omega), if_neg (by omega), if_pos (by omega), bind_ok]
      exact hF p h.pending hfits (.refl p)
    · rw [if_neg (by omega)]
      by_cases hneeded : INT_MAX < needed
      · rw [if_pos hneeded]
        rfl
      · rw [if_neg hneeded, if_neg (by omega)]
        rfl
  | false =>
    have hcapacity : p.capacity = INT_MAX := by simp [capacity, hnoalloc]
    have hgrow : ∀ size, p.length ≤ size → n ≤ size → size ≤ INT_MAX →
        ∃ q, F (p.realloc size) = .ok q ∧ Q q := by
      intro size hsize hnsize hsizemax
      refine hF _ (h.pending.realloc hsize hsizemax) ?_ ⟨rfl, fun hn => ?_⟩
      · rw [length_realloc p hsize]
        exact hnsize
      · rw [hnoalloc] at hn
        cases hn
    by_cases hfits : n ≤ INT_MAX
    · rw [if_pos (by omega), if_neg (by omega)]
      by_cases hlength : needed + p.offset + 1 ≤ p.length
      · rw [if_pos hlength, bind_ok]
        exact hF p h.pending (by omega) (.refl p)
      · rw [if_neg hlength]
        simp only [Bool.false_eq_true, if_false]
        by_cases hhalf : INT_MAX / 2 < needed + p.offset + 1
        · rw [if_pos hhalf, if_pos (by omega), bind_ok]
          exact hgrow _ hbounded hfits (Nat.le_refl _)
        · rw [if_neg hhalf, bind_ok]
          exact hgrow _ (by omega) (by omega) (by omega)
    · rw [if_neg (by omega)]
      by_cases hneeded : INT_MAX < needed
      · rw [if_pos hneeded]
        rfl
      · rw [if_neg hneeded, if_neg (by omega)]
        simp only [Bool.false_eq_true, if_false]
        rw [if_pos (by omega), if_neg (by omega)]
        rfl

/-- Writing behind what has been written. -/
theorem Pending.write (h : Pending format k p u w) (s : Bytes) {i : Nat} (hat : i = w.length)
    (hroom : u.length + w.length + s.length ≤ p.length) :
    ∃ p', p.write i s = .ok p' ∧ Pending format k p' u (w ++ s) ∧ p'.length = p.length ∧
      p'.noalloc = p.noalloc := by
  obtain ⟨junk, hcells⟩ := h.cells
  have hjunk : s.length ≤ junk.length := by
    rw [length, hcells] at hroom
    simp only [List.length_append, List.length_map] at hroom
    omega
  have hoffset : p.offset + i = ((u ++ w).map some).length := by
    rw [h.offset, hat]
    simp
  have hstore : store p.buffer (p.offset + i) (s.map some) =
      .ok ((u ++ w).map some ++ (s.map some ++ junk.drop s.length)) := by
    have hfirst : (s.map some).length = (junk.take s.length).length := by
      rw [List.length_map, List.length_take, Nat.min_eq_left hjunk]
    rw [hcells, hoffset, ← List.take_append_drop s.length junk]
    have hstored := store_append ((u ++ w).map some) (junk.drop s.length) hfirst
    rw [hstored, List.take_append_drop]
  have hwrite : p.write i s =
      .ok { p with buffer := (u ++ w).map some ++ (s.map some ++ junk.drop s.length) } := by
    rw [PrintBuffer.write, hstore, bind_ok]
    rfl
  refine ⟨_, hwrite, ⟨⟨junk.drop s.length, by simp⟩, h.offset, ?_, h.format, h.depth⟩, ?_, rfl⟩
  · exact (store_length hstore).trans_le h.bounded
  · exact store_length hstore

end

/-! ## Rules -/

/-- `f` writes `s` and moves the offset behind it, where the buffer can hold it and
`reserve` bytes more; else it returns false. -/
def Writes (format : Bool) (k k' : Nat) (f : PrintBuffer → Outcome PrintBuffer) (s : Bytes)
    (reserve : Nat) : Prop :=
  ∀ p u, Holds format k p u →
    if u.length + s.length + reserve ≤ p.capacity then
      ∃ p', f p = .ok p' ∧ Holds format k' p' (u ++ s) ∧ Same p p'
    else f p = ret

/-- `f` writes `s` with a terminator, and moves the offset to some place in `s`. -/
def Prints (format : Bool) (k k' : Nat) (f : PrintBuffer → Outcome PrintBuffer) (s : Bytes) : Prop :=
  ∀ p u, Holds format k p u →
    if u.length + s.length + 2 ≤ p.capacity then
      ∃ p', f p = .ok p' ∧ (∃ s₁ s₂, s = s₁ ++ s₂ ∧ Pending format k' p' (u ++ s₁) (s₂ ++ [0])) ∧ Same p p'
    else f p = ret

section
variable {format : Bool} {k k' k'' : Nat} {f g : PrintBuffer → Outcome PrintBuffer} {s t : Bytes}

theorem Writes.nothing (format : Bool) (k : Nat) : Writes format k k (fun p => .ok p) [] 0 := by
  intro p u h
  have hfits : u.length ≤ p.capacity := by
    have hlength := h.pending.length_le
    have hbounded := h.pending.bounded
    unfold capacity
    split <;> omega
  rw [if_pos (by simpa using hfits)]
  exact ⟨p, rfl, by rwa [List.append_nil], .refl p⟩

/-- What comes behind a step that asks for no more room. -/
theorem Writes.bind {r : Nat} (hf : Writes format k k' f s r) {p : PrintBuffer} {u : Bytes}
    (h : Holds format k p u) {n : Nat} (hn : u.length + s.length + r ≤ n) {Q : PrintBuffer → Prop}
    (hg : ∀ p', Holds format k' p' (u ++ s) → Same p p' →
      if n ≤ p'.capacity then ∃ q, g p' = .ok q ∧ Q q else g p' = ret) :
    if n ≤ p.capacity then ∃ q, (f p >>= g) = .ok q ∧ Q q else (f p >>= g) = ret := by
  have hfirst := hf p u h
  by_cases hfits : u.length + s.length + r ≤ p.capacity
  · rw [if_pos hfits] at hfirst
    obtain ⟨p', hok, h', hsame⟩ := hfirst
    rw [hok, bind_ok, ← hsame.capacity]
    exact hg p' h' hsame
  · rw [if_neg hfits] at hfirst
    rw [if_neg (by omega), hfirst]
    rfl

/-- Two steps. -/
theorem Writes.seq {r r' : Nat} (hf : Writes format k k' f s r) (hg : Writes format k' k'' g t r')
    (hr : r ≤ t.length + r') : Writes format k k'' (fun p => f p >>= g) (s ++ t) r' := by
  intro p u h
  rw [List.length_append]
  refine hf.bind h (by omega) fun p' h' hsame => ?_
  have hsecond := hg p' (u ++ s) h'
  rw [List.length_append, List.append_assoc, Nat.add_assoc u.length] at hsecond
  split
  · rename_i hfits
    rw [if_pos hfits] at hsecond
    obtain ⟨p'', hok, h'', hsame'⟩ := hsecond
    exact ⟨p'', hok, h'', hsame.trans hsame'⟩
  · rename_i hfits
    rwa [if_neg hfits] at hsecond

/-- A last step. -/
theorem Writes.finish {r : Nat} (hf : Writes format k k' f s r) (hg : Prints format k' k'' g t)
    (hr : r ≤ t.length + 2) : Prints format k k'' (fun p => f p >>= g) (s ++ t) := by
  intro p u h
  rw [List.length_append]
  refine hf.bind h (by omega) fun p' h' hsame => ?_
  have hsecond := hg p' (u ++ s) h'
  rw [List.length_append, Nat.add_assoc u.length] at hsecond
  split
  · rename_i hfits
    rw [if_pos hfits] at hsecond
    obtain ⟨p'', hok, ⟨t₁, t₂, rfl, h''⟩, hsame'⟩ := hsecond
    refine ⟨p'', hok, ⟨s ++ t₁, t₂, by rw [List.append_assoc], ?_⟩, hsame.trans hsame'⟩
    rwa [← List.append_assoc]
  · rename_i hfits
    rwa [if_neg hfits] at hsecond

/-- `strlen` of a text. -/
theorem strlen_text {s : Bytes} (hs : (0 : UInt8) ∉ s) (cells : Cells) :
    strlen (s.map some ++ some 0 :: cells) = .ok s.length := by
  induction s with
  | nil => rfl
  | cons c s ih =>
    rw [List.mem_cons, not_or] at hs
    rw [List.map_cons, List.cons_append, strlen, if_neg (Ne.symm hs.1), ih hs.2]
    rfl

/-- `update_offset` finds the end of the text. -/
theorem Pending.updateOffset {p : PrintBuffer} {u w : Bytes} (h : Pending format k p u (w ++ [0]))
    (hw : (0 : UInt8) ∉ w) : p.updateOffset = .ok (p.advance w.length) := by
  obtain ⟨junk, hcells⟩ := h.cells
  have hdrop : p.buffer.drop p.offset = w.map some ++ some 0 :: junk := by
    rw [hcells, h.offset, List.map_append, List.append_assoc, List.drop_left' (by rw [List.length_map])]
    simp
  rw [PrintBuffer.updateOffset, hdrop, strlen_text hw, bind_ok]
  rfl

/-- `update_offset` moves the offset behind the text. -/
theorem Prints.updateOffset (hf : Prints format k k' f s) (hs : (0 : UInt8) ∉ s) :
    Writes format k k' (fun p => f p >>= PrintBuffer.updateOffset) s 2 := by
  intro p u h
  have hfirst := hf p u h
  beta_reduce
  split
  · rename_i hfits
    rw [if_pos hfits] at hfirst
    obtain ⟨p', hok, ⟨s₁, s₂, rfl, h'⟩, hsame⟩ := hfirst
    obtain ⟨junk, hcells⟩ := h'.cells
    have hend := h'.updateOffset fun h0 => hs (List.mem_append_right s₁ h0)
    refine ⟨p'.advance s₂.length, by rw [hok, bind_ok, hend], ⟨⟨⟨some 0 :: junk, ?_⟩, ?_, h'.bounded,
      h'.format, h'.depth⟩, .inr ?_⟩, hsame⟩
    · show p'.buffer = _
      rw [hcells]
      simp
    · show p'.offset + s₂.length = _
      rw [h'.offset]
      simp
      omega
    · have hlength := h'.length_le
      have hoffset := h'.offset
      simp only [List.length_append, List.length_singleton] at hlength hoffset
      show p'.offset + s₂.length < p'.length
      omega
  · rename_i hfits
    rw [if_neg hfits] at hfirst
    rw [hfirst]
    rfl

/-- What a step looks at besides the text. -/
def At (format : Bool) (k : Nat) (p : PrintBuffer) : Prop := p.format = format ∧ p.depth = k

theorem Pending.at {p : PrintBuffer} {u w : Bytes} (h : Pending format k p u w) : At format k p :=
  ⟨h.format, h.depth⟩

/-- Reserve, write and advance. -/
theorem writes_step {needed : PrintBuffer → Nat} {w : PrintBuffer → Bytes}
    {G : PrintBuffer → PrintBuffer → PrintBuffer → Outcome PrintBuffer}
    (hf : ∀ p, f p = p.ensure (needed p) >>= fun p' => p'.write 0 (w p') >>= G p p') (n : Nat) (z : Bytes)
    (hn : ∀ p, At format k p → needed p = n) (hw : ∀ p, At format k p → w p = s ++ z)
    (hG : ∀ p p' q, At format k p → At format k p' → At format k q →
      G p p' q = .ok { q.advance s.length with depth := k' })
    (hs : s.length ≤ n) (hz : s.length + z.length ≤ n + 1) :
    Writes format k k' f s (n + 1 - s.length) := by
  intro p u h
  have hlen : u.length + s.length + (n + 1 - s.length) = u.length + needed p + 1 := by
    rw [hn p h.pending.at]
    omega
  rw [hf p, hlen]
  refine ensure_bind h rfl fun p' h' hroom hsame => ?_
  rw [hn p h.pending.at] at hroom
  obtain ⟨q, hok, h'', hlength, hnoalloc⟩ := h'.write (s ++ z) (i := 0) rfl (by
    rw [List.length_append, List.length_nil]
    omega)
  rw [List.nil_append] at h''
  obtain ⟨junk, hcells⟩ := h''.forget.cells
  rw [← List.append_nil (u ++ s)] at hcells
  refine ⟨{ q.advance s.length with depth := k' }, ?_,
    ⟨⟨⟨junk, hcells⟩, ?_, h''.bounded, h''.format, rfl⟩, .inr ?_⟩, hsame.trans ⟨hnoalloc, fun _ => hlength⟩⟩
  · rw [hw p' h'.at, hok, bind_ok, hG p p' q h.pending.at h'.at h''.at]
  · show q.offset + s.length = (u ++ s).length
    rw [h''.offset, List.length_append]
  · show q.offset + s.length < q.length
    rw [h''.offset]
    omega

/-- Reserve and write with a terminator. -/
theorem prints_step {needed : PrintBuffer → Nat} {w : PrintBuffer → Bytes}
    {G : PrintBuffer → PrintBuffer → PrintBuffer → Outcome PrintBuffer}
    (hf : ∀ p, f p = p.ensure (needed p) >>= fun p' => p'.write 0 (w p') >>= G p p')
    (hn : ∀ p, At format k p → needed p = s.length + 1) (hw : ∀ p, At format k p → w p = s ++ [0])
    (hG : ∀ p p' q, At format k p → At format k p' → At format k q → G p p' q = .ok { q with depth := k' }) :
    Prints format k k' f s := by
  intro p u h
  have hlen : u.length + s.length + 2 = u.length + needed p + 1 := by
    rw [hn p h.pending.at]
    omega
  rw [hf p, hlen]
  refine ensure_bind h rfl fun p' h' hroom hsame => ?_
  rw [hn p h.pending.at] at hroom
  obtain ⟨q, hok, h'', hlength, hnoalloc⟩ := h'.write (s ++ [0]) (i := 0) rfl (by
    rw [List.length_append, List.length_nil, List.length_singleton]
    omega)
  refine ⟨{ q with depth := k' }, ?_, ⟨[], s, rfl, ?_⟩, hsame.trans ⟨hnoalloc, fun _ => hlength⟩⟩
  · rw [hw p' h'.at, hok, bind_ok, hG p p' q h.pending.at h'.at h''.at]
  · rw [List.append_nil]
    exact ⟨h''.cells, h''.offset, h''.bounded, h''.format, rfl⟩

end

/-! ## Numbers and strings -/

section
variable {format : Bool} {k : Nat} {p : PrintBuffer} {u w : Bytes}

theorem length_escapeByte (c : UInt8) : (escapeByte c).length = 1 + escapeCost c := by
  have hall : ∀ n : Fin 256, (escapeByte (UInt8.ofFin n)).length = 1 + escapeCost (UInt8.ofFin n) := by
    decide +kernel
  exact hall c.toFin

/-- The room that is counted is the room that is needed. -/
theorem length_escape (s : Bytes) :
    (s.flatMap escapeByte).length = s.length + (s.map escapeCost).sum := by
  induction s with
  | nil => rfl
  | cons c s ih =>
    rw [List.flatMap_cons, List.length_append, ih, length_escapeByte, List.map_cons, List.sum_cons,
      List.length_cons]
    omega

/-- Where nothing is escaped, the string is copied. -/
theorem escape_eq_self {s : Bytes} (h : (s.map escapeCost).sum = 0) : s.flatMap escapeByte = s := by
  have hall : ∀ n : Fin 256, escapeCost (UInt8.ofFin n) = 0 →
      escapeByte (UInt8.ofFin n) = [UInt8.ofFin n] := by decide +kernel
  induction s with
  | nil => rfl
  | cons c s ih =>
    rw [List.map_cons, List.sum_cons, Nat.add_eq_zero_iff] at h
    have hc : escapeByte c = [c] := hall c.toFin h.1
    rw [List.flatMap_cons, hc, ih h.2]
    rfl

theorem Pending.writeByte (h : Pending format k p u w) (c : UInt8) {i : Nat} (hat : i = w.length)
    (hroom : u.length + w.length + 1 ≤ p.length) :
    ∃ p', p.write i [c] = .ok p' ∧ Pending format k p' u (w ++ [c]) ∧ p'.length = p.length ∧
      p'.noalloc = p.noalloc := h.write [c] hat (by rw [List.length_singleton]; omega)

/-- The loop writes the escaped string, and nothing behind the byte after it. -/
theorem Pending.escapeLoop (s : Bytes) (h : Pending format k p u w) {i : Nat} (hat : i = w.length)
    (hroom : u.length + w.length + (s.flatMap escapeByte).length + 1 ≤ p.length) :
    ∃ p', escapeLoop s i p = .ok p' ∧ Pending format k p' u (w ++ s.flatMap escapeByte) ∧
      p'.length = p.length ∧ p'.noalloc = p.noalloc := by
  induction s generalizing p w i with
  | nil => exact ⟨p, rfl, by simpa using h, rfl, rfl⟩
  | cons c s ih =>
    rw [List.flatMap_cons, List.length_append] at hroom
    rw [List.flatMap_cons, ← List.append_assoc, Json.escapeLoop]
    -- the byte, and then the rest of the string
    have hrest : ∀ {p₁ : PrintBuffer} {n : Nat}, Pending format k p₁ u (w ++ escapeByte c) →
        p₁.length = p.length → p₁.noalloc = p.noalloc → n = i + (escapeByte c).length →
        ∃ p', Json.escapeLoop s n p₁ = .ok p' ∧
          Pending format k p' u (w ++ escapeByte c ++ s.flatMap escapeByte) ∧ p'.length = p.length ∧
          p'.noalloc = p.noalloc := by
      intro p₁ n h₁ hlength hnoalloc hn
      have hat₁ : n = (w ++ escapeByte c).length := by rw [List.length_append, hn, hat]
      obtain ⟨p', hok, h', hlength', hnoalloc'⟩ := ih h₁ hat₁ (by rw [List.length_append, hlength]; omega)
      exact ⟨p', hok, h', hlength'.trans hlength, hnoalloc'.trans hnoalloc⟩
    cases hplain : plainByte c with
    | true =>
      have hbyte : escapeByte c = [c] := by rw [escapeByte, hplain, if_pos rfl]
      rw [hbyte] at hroom hrest ⊢
      rw [List.length_singleton] at hroom
      obtain ⟨p₁, hok, h₁, hlength, hnoalloc⟩ := h.writeByte c hat (by omega)
      rw [if_pos rfl, hok, bind_ok]
      exact hrest h₁ hlength hnoalloc rfl
    | false =>
      obtain ⟨p₁, hok, h₁, hlength, hnoalloc⟩ := h.writeByte 92 hat (by omega)
      rw [if_neg (by simp), hok, bind_ok]
      cases hletter : escapeLetter c with
      | some e =>
        have hbyte : escapeByte c = [92, e] := by rw [escapeByte, hplain, hletter]; rfl
        rw [hbyte] at hroom hrest ⊢
        simp only [List.length_cons, List.length_nil] at hroom
        obtain ⟨p₂, hok₂, h₂, hlength₂, hnoalloc₂⟩ := h₁.writeByte e (i := i + 1)
          (by rw [List.length_append, hat]; rfl)
          (by rw [List.length_append, List.length_singleton, hlength]; omega)
        rw [List.append_assoc] at h₂
        simp only [hok₂, bind_ok]
        exact hrest h₂ (hlength₂.trans hlength) (hnoalloc₂.trans hnoalloc) rfl
      | none =>
        have hbyte : escapeByte c = 92 :: unicodeEscape c := by rw [escapeByte, hplain, hletter]; rfl
        have hlen : (unicodeEscape c).length = 5 := rfl
        rw [hbyte] at hroom hrest ⊢
        rw [List.length_cons, hlen] at hroom
        obtain ⟨p₂, hok₂, h₂, hlength₂, hnoalloc₂⟩ := h₁.write (unicodeEscape c ++ [0]) (i := i + 1)
          (by rw [List.length_append, hat]; rfl)
          (by
            rw [List.length_append, List.length_singleton, List.length_append, hlen, hlength,
              List.length_singleton]
            omega)
        -- the terminator is written over
        rw [← List.append_assoc] at h₂
        have h₃ := h₂.forget
        rw [List.append_assoc] at h₃
        simp only [hok₂, bind_ok]
        exact hrest h₃ (hlength₂.trans hlength) (hnoalloc₂.trans hnoalloc) rfl

end

section
variable {format : Bool} {k : Nat}

/-- `print_string_ptr` writes the string between quotes. -/
theorem prints_string (s : Bytes) : Prints format k k (printStringPtr s) (stringText s) := by
  intro p u h
  have hescape := length_escape (cStr s)
  have hlength : (stringText s).length = (cStr s).length + ((cStr s).map escapeCost).sum + 2 := by
    rw [← hescape, stringText]
    simp
  unfold printStringPtr
  rw [hlength]
  refine ensure_bind h (by omega) fun p₁ h₁ hroom hsame => ?_
  obtain ⟨p₂, hok₂, h₂, hlength₂, hnoalloc₂⟩ := h₁.writeByte 34 (i := 0) rfl
    (by rw [List.length_nil]; omega)
  rw [List.nil_append] at h₂
  simp only [hok₂, bind_ok]
  -- the string, copied or escaped
  obtain ⟨p₃, hok₃, h₃, hlength₃, hnoalloc₃⟩ : ∃ p₃,
      (if ((cStr s).map escapeCost).sum = 0 then p₂.write 1 (cStr s) else escapeLoop (cStr s) 1 p₂) = .ok p₃ ∧
        Pending format k p₃ u ([34] ++ (cStr s).flatMap escapeByte) ∧ p₃.length = p₂.length ∧
        p₃.noalloc = p₂.noalloc := by
    split
    · rename_i hzero
      rw [escape_eq_self hzero]
      exact h₂.write (cStr s) rfl (by rw [hlength₂, List.length_singleton]; omega)
    · exact h₂.escapeLoop (cStr s) rfl (by rw [hlength₂, hescape, List.length_singleton]; omega)
  obtain ⟨p₄, hok₄, h₄, hlength₄, hnoalloc₄⟩ := h₃.writeByte 34
    (i := (cStr s).length + ((cStr s).map escapeCost).sum + 1)
    (by rw [List.length_append, hescape, List.length_singleton]; omega)
    (by rw [List.length_append, hescape, hlength₃, hlength₂, List.length_singleton]; omega)
  obtain ⟨p₅, hok₅, h₅, hlength₅, hnoalloc₅⟩ := h₄.writeByte 0
    (i := (cStr s).length + ((cStr s).map escapeCost).sum + 2)
    (by simp only [List.length_append, hescape, List.length_singleton]; omega)
    (by simp only [List.length_append, hescape, hlength₄, hlength₃, hlength₂, List.length_singleton]; omega)
  refine ⟨p₅, ?_, ⟨[], stringText s, rfl, ?_⟩, hsame.trans ⟨?_, fun _ => ?_⟩⟩
  · split
    · rename_i hzero
      rw [if_pos hzero] at hok₃
      rw [hok₃, bind_ok, hok₄, bind_ok, hok₅]
    · rename_i hzero
      rw [if_neg hzero] at hok₃
      rw [hok₃, bind_ok, hok₄, bind_ok, hok₅]
  · rw [List.append_nil]
    simpa [stringText] using h₅
  · rw [hnoalloc₅, hnoalloc₄, hnoalloc₃, hnoalloc₂]
  · rw [hlength₅, hlength₄, hlength₃, hlength₂]

theorem length_numberText {strtod : Strtod} (doubles : Doubles strtod) (d : Bytes) :
    (numberText doubles d).length ≤ 25 := by
  unfold numberText
  split
  · rename_i hfinite
    have hformat := fun n hn => doubles.length n d hfinite hn
    split
    · split
      · exact hformat 15 (by omega)
      · exact hformat 17 (by omega)
    · exact hformat 17 (by omega)
  · decide

/-- `print_number` fills no more of its own buffer than there is. -/
theorem prints_number {strtod : Strtod} (doubles : Doubles strtod) (d : Bytes) :
    Prints format k k (printNumber doubles d) (numberText doubles d) := by
  intro p u h
  have hshort := length_numberText doubles d
  unfold printNumber
  simp only [if_neg (Nat.not_lt.mpr hshort)]
  refine ensure_bind h (by omega) fun p₁ h₁ hroom hsame => ?_
  obtain ⟨p₂, hok₂, h₂, hlength₂, hnoalloc₂⟩ := h₁.write (numberText doubles d) (i := 0) rfl
    (by rw [List.length_nil]; omega)
  rw [List.nil_append] at h₂
  obtain ⟨p₃, hok₃, h₃, hlength₃, hnoalloc₃⟩ := h₂.writeByte 0 rfl (by rw [hlength₂]; omega)
  simp only [hok₂, bind_ok, hok₃]
  refine ⟨_, rfl, ⟨numberText doubles d, [], by rw [List.append_nil], ?_⟩, hsame.trans ⟨?_, fun _ => ?_⟩⟩
  · obtain ⟨junk, hcells⟩ := h₃.cells
    refine ⟨⟨junk, ?_⟩, ?_, h₃.bounded, h₃.format, h₃.depth⟩
    · rw [List.nil_append, List.append_assoc]
      exact hcells
    · rw [List.length_append, ← h₃.offset]
      rfl
  · exact hnoalloc₃.trans hnoalloc₂
  · exact hlength₃.trans hlength₂

/-! ## Values -/

theorem bind_ok_right (x : Outcome PrintBuffer) : (x >>= fun p => .ok p) = x := bind_pure x

theorem prints_word {needed : Nat} {word : Bytes} (h : needed = word.length + 1) :
    Prints format k k (printWord needed word) word := by
  refine prints_step (G := fun _ _ q => .ok q) (fun p => ?_) (fun _ _ => h) (fun _ _ => rfl)
    fun _ _ q _ _ hq => ?_
  · simp only [printWord, bind_ok_right]
  · rw [← hq.2]

theorem writes_openArray : Writes format k (k + 1) openArray [91] 1 :=
  writes_step (fun _ => rfl) 1 [] (fun _ _ => rfl) (fun _ _ => rfl) (fun _ _ q _ _ hq => hq.2 ▸ rfl)
    (by decide) (by decide)

theorem writes_itemComma : Writes format k k itemComma (44 :: whenFormatted format [32]) 2 := by
  cases format with
  | false =>
    refine writes_step (fun _ => rfl) 2 [0] (fun p hp => ?_) (fun p hp => ?_) (fun p _ q hp _ hq => ?_)
      (by decide) (by decide)
    · simp only [hp.1]; rfl
    · simp only [hp.1]; rfl
    · simp only [hp.1, ← hq.2]; rfl
  | true =>
    refine writes_step (fun _ => rfl) 3 [0] (fun p hp => ?_) (fun p hp => ?_) (fun p _ q hp _ hq => ?_)
      (by decide) (by decide)
    · simp only [hp.1]; rfl
    · simp only [hp.1]; rfl
    · simp only [hp.1, ← hq.2]; rfl

theorem prints_closeArray : Prints format (k + 1) k closeArray [93] :=
  prints_step (fun _ => rfl) (fun _ _ => rfl) (fun _ _ => rfl) fun _ _ q _ _ hq => by
    simp only [hq.2]
    rfl

theorem writes_openObject : Writes format k (k + 1) openObject (123 :: whenFormatted format [10]) 2 := by
  cases format with
  | false =>
    refine writes_step (fun _ => rfl) 2 [] (fun p hp => ?_) (fun p hp => ?_) (fun p _ q hp _ hq => ?_)
      (by decide) (by decide)
    · simp only [hp.1]; rfl
    · simp only [hp.1]; rfl
    · simp only [hp.1, hq.2]; rfl
  | true =>
    refine writes_step (fun _ => rfl) 3 [] (fun p hp => ?_) (fun p hp => ?_) (fun p _ q hp _ hq => ?_)
      (by decide) (by decide)
    · simp only [hp.1]; rfl
    · simp only [hp.1]; rfl
    · simp only [hp.1, hq.2]; rfl

theorem writes_memberColon : Writes format k k memberColon (58 :: whenFormatted format [9]) 1 := by
  cases format with
  | false =>
    refine writes_step (fun _ => rfl) 1 [] (fun p hp => ?_) (fun p hp => ?_) (fun p _ q hp _ hq => ?_)
      (by decide) (by decide)
    · simp only [hp.1]; rfl
    · simp only [hp.1]; rfl
    · simp only [hp.1, ← hq.2]; rfl
  | true =>
    refine writes_step (fun _ => rfl) 2 [] (fun p hp => ?_) (fun p hp => ?_) (fun p _ q hp _ hq => ?_)
      (by decide) (by decide)
    · simp only [hp.1]; rfl
    · simp only [hp.1]; rfl
    · simp only [hp.1, ← hq.2]; rfl

theorem writes_memberEnd (last : Bool) : Writes format k k (memberEnd last)
    ((if last then [] else [44]) ++ whenFormatted format [10]) 2 := by
  have hstep : Writes format k k (memberEnd last) ((if last then [] else [44]) ++ whenFormatted format [10])
      (((if last then [] else [44]) ++ whenFormatted format [10]).length + 1 + 1 -
        ((if last then [] else [44]) ++ whenFormatted format [10]).length) := by
    refine writes_step (fun _ => rfl) _ [0] (fun p hp => ?_) (fun p hp => ?_) (fun p _ q hp _ hq => ?_)
      (Nat.le_succ _) (Nat.le_succ _)
    · simp only [hp.1]
      cases format <;> cases last <;> rfl
    · simp only [hp.1, List.append_assoc]
    · simp only [hp.1, ← hq.2]
      cases format <;> cases last <;> rfl
  cases format <;> cases last <;> exact hstep

theorem writes_memberIndent :
    Writes format k k memberIndent (indent format k) (if format then 1 else 0) := by
  cases format with
  | false =>
    intro p u h
    have hnothing := Writes.nothing false k p u h
    have hf : memberIndent p = .ok p := by rw [memberIndent, h.pending.format, if_neg (by simp)]
    rw [hf]
    exact hnothing
  | true =>
    have hlength : (List.replicate k (9 : UInt8)).length = k := List.length_replicate
    have hstep : Writes true k k (fun p => do
        let p ← p.ensure p.depth
        let p ← p.write 0 (List.replicate p.depth 9)
        return p.advance p.depth) (List.replicate k 9) (k + 1 - (List.replicate k (9 : UInt8)).length) := by
      refine writes_step (fun _ => rfl) k [] (fun p hp => hp.2) (fun p hp => ?_) (fun p _ q hp _ hq => ?_)
        hlength.le ?_
      · rw [hp.2, List.append_nil]
      · rw [hlength, ← hq.2]
        rfl
      · rw [hlength]
        exact Nat.le_succ k
    intro p u h
    have hf : memberIndent p = (do
        let p ← p.ensure p.depth
        let p ← p.write 0 (List.replicate p.depth 9)
        return p.advance p.depth) := by rw [memberIndent, h.pending.format, if_pos rfl]
    have hp := hstep p u h
    rw [hlength, Nat.add_sub_cancel_left] at hp
    rw [hf]
    show if u.length + (List.replicate k (9 : UInt8)).length + 1 ≤ p.capacity then _ else _
    rw [hlength]
    exact hp

theorem prints_closeObject : Prints format (k + 1) k closeObject (indent format k ++ [125]) := by
  refine prints_step (fun _ => rfl) (fun p hp => ?_) (fun p hp => ?_) fun _ _ q _ _ hq => ?_
  · rw [hp.1, hp.2]
    cases format with
    | false => rfl
    | true => simp [indent, whenFormatted]
  · rw [hp.1, hp.2, List.append_assoc]
    rfl
  · simp only [hq.2]
    rfl

variable {strtod : Strtod} {doubles : Doubles strtod}

/-- The items, when each of them is printed. -/
theorem writes_items {item : CJson} {items : List CJson}
    (ih : ∀ t ∈ item :: items, Prints format k k (printValue doubles t) (text doubles format k t)) :
    Writes format k k (printItems doubles (item :: items)) (itemsText doubles format k (item :: items)) 2 := by
  have hvalue : ∀ t ∈ item :: items,
      Writes format k k (fun p => printValue doubles t p >>= updateOffset) (text doubles format k t) 2 :=
    fun t ht => (ih t ht).updateOffset (zero_not_mem_text doubles format k t)
  induction items generalizing item with
  | nil =>
    have h := hvalue item List.mem_cons_self
    have hf : printItems doubles [item] = fun p => printValue doubles item p >>= updateOffset := by
      funext p
      simp only [printItems, List.isEmpty_nil, if_true, bind_ok_right]
    rw [hf]
    simpa [itemsText] using h
  | cons next items ihItems =>
    have hrest := ihItems (fun t ht => ih t (List.mem_cons_of_mem item ht))
      fun t ht => hvalue t (List.mem_cons_of_mem item ht)
    have h := (hvalue item List.mem_cons_self).seq (writes_itemComma.seq hrest (by omega)) (by omega)
    have hf : printItems doubles (item :: next :: items) = fun p =>
        (printValue doubles item p >>= updateOffset) >>= fun p =>
          itemComma p >>= printItems doubles (next :: items) := by
      funext p
      rw [printItems, bind_assoc]
      rfl
    rw [hf, itemsText]
    exact h

/-- The members, when the value of each of them is printed. -/
theorem writes_members {m : Bytes × CJson} {members : List (Bytes × CJson)}
    (ih : ∀ m' ∈ m :: members, Prints format k k (printValue doubles m'.2) (text doubles format k m'.2)) :
    Writes format k k (printMembers doubles (m :: members)) (membersText doubles format k (m :: members)) 2 := by
  -- a member, without what comes behind it
  have hmember : ∀ m' ∈ m :: members, ∀ last, Writes format k k
      (fun p => memberIndent p >>= fun p => (printStringPtr m'.1 p >>= updateOffset) >>= fun p =>
        memberColon p >>= fun p => (printValue doubles m'.2 p >>= updateOffset) >>= memberEnd last)
      (indent format k ++ (stringText m'.1 ++ (58 :: whenFormatted format [9] ++
        (text doubles format k m'.2 ++ ((if last then [] else [44]) ++ whenFormatted format [10]))))) 2 := by
    intro m' hm' last
    have hkey : Writes format k k (fun p => printStringPtr m'.1 p >>= updateOffset) (stringText m'.1) 2 :=
      (prints_string m'.1).updateOffset (zero_not_mem_stringText m'.1)
    have hvalue := (ih m' hm').updateOffset (zero_not_mem_text doubles format k m'.2)
    have hcolon : 2 ≤ (58 :: whenFormatted format [9] ++ (text doubles format k m'.2 ++
        ((if last then [] else [44]) ++ whenFormatted format [10]))).length + 2 := by omega
    refine writes_memberIndent.seq (hkey.seq (writes_memberColon.seq (hvalue.seq (writes_memberEnd last)
      (by omega)) (by omega)) hcolon) ?_
    split <;> omega
  induction members generalizing m with
  | nil =>
    have h := hmember m List.mem_cons_self true
    have hf : printMembers doubles [m] = fun p => memberIndent p >>= fun p =>
        (printStringPtr m.1 p >>= updateOffset) >>= fun p => memberColon p >>= fun p =>
          (printValue doubles m.2 p >>= updateOffset) >>= memberEnd true := by
      funext p
      simp only [printMembers, bind_assoc, List.isEmpty_nil, bind_ok_right]
    rw [hf]
    simpa [membersText] using h
  | cons next members ihMembers =>
    have hrest := ihMembers (fun m' hm' => ih m' (List.mem_cons_of_mem m hm'))
      fun m' hm' => hmember m' (List.mem_cons_of_mem m hm')
    have h := (hmember m List.mem_cons_self false).seq hrest (by omega)
    have hf : printMembers doubles (m :: next :: members) = fun p => (memberIndent p >>= fun p =>
        (printStringPtr m.1 p >>= updateOffset) >>= fun p => memberColon p >>= fun p =>
          (printValue doubles m.2 p >>= updateOffset) >>= memberEnd false) >>=
            printMembers doubles (next :: members) := by
      funext p
      rw [printMembers]
      simp only [bind_assoc]
      rfl
    rw [hf, membersText]
    simpa using h

/-- Every value is printed as its text. -/
theorem prints_value (t : CJson) (k : Nat) :
    Prints format k k (printValue doubles t) (text doubles format k t) := by
  induction t using CJson.induction generalizing k with
  | null => exact prints_word (by decide)
  | bool b => cases b with
    | false => exact prints_word (by decide)
    | true => exact prints_word (by decide)
  | number d => exact prints_number doubles d
  | string v => exact prints_string v
  | array items ih =>
    rw [text]
    cases items with
    | nil => exact writes_openArray.finish prints_closeArray (by decide)
    | cons item items =>
      have hitems := writes_items fun t ht => ih t ht (k + 1)
      have h := writes_openArray.finish (hitems.finish prints_closeArray (by omega)) (by omega)
      exact h
  | object members ih =>
    rw [text]
    have hclose : 2 ≤ (indent format k ++ [125]).length + 2 := by omega
    cases members with
    | nil => exact writes_openObject.finish prints_closeObject hclose
    | cons m members =>
      have hmembers := writes_members fun m' hm' => ih m' hm' (k + 1)
      have h := writes_openObject.finish (hmembers.finish prints_closeObject hclose) (by omega)
      exact h

/-- The text and its terminator, as cells that have been written to. -/
def terminated (s : Bytes) : Cells := (s ++ [0]).map some

variable (doubles)

/-- A printer on a buffer with nothing in it. -/
theorem printed {p : PrintBuffer} (h : Holds format 0 p []) {n : Nat} (hn : p.capacity = n) (t : CJson) :
    if (text doubles format 0 t).length + 2 ≤ n then
      ∃ p' junk, printValue doubles t p = .ok p' ∧
        p'.buffer = terminated (text doubles format 0 t) ++ junk ∧
        (∃ n, p'.updateOffset = .ok (p'.advance n) ∧ p'.offset + n = (text doubles format 0 t).length) ∧
        Same p p'
    else printValue doubles t p = ret := by
  subst hn
  have hvalue : if (([] : Bytes).length + (text doubles format 0 t).length) + 2 ≤ p.capacity then _ else _ :=
    prints_value t 0 p [] h
  rw [List.length_nil, Nat.zero_add] at hvalue
  split
  · rename_i hfits
    rw [if_pos hfits] at hvalue
    obtain ⟨p', hok, ⟨s₁, s₂, hsplit, h'⟩, hsame⟩ := hvalue
    have hnul : (0 : UInt8) ∉ s₂ := by
      intro h0
      refine zero_not_mem_text doubles format 0 t ?_
      rw [hsplit]
      exact List.mem_append_right s₁ h0
    obtain ⟨junk, hcells⟩ := h'.cells
    refine ⟨p', junk, hok, ?_, ⟨s₂.length, h'.updateOffset hnul, ?_⟩, hsame⟩
    · rw [hcells, terminated, hsplit, List.nil_append, List.append_assoc]
    · rw [h'.offset, hsplit, List.nil_append, List.length_append]
  · rename_i hfits
    rwa [if_neg hfits] at hvalue

theorem holds_nil {buffer : Cells} (format noalloc : Bool) (hbounded : buffer.length ≤ INT_MAX) :
    Holds format 0 { buffer, offset := 0, depth := 0, noalloc, format } [] where
  pending := ⟨⟨buffer, rfl⟩, rfl, hbounded, rfl, rfl⟩
  room := Nat.eq_zero_or_pos _

theorem print_eq (format : Bool) (t : CJson) :
    print doubles format t = if (text doubles format 0 t).length + 2 ≤ INT_MAX then
      .ok (terminated (text doubles format 0 t)) else ret := by
  have hsize : (List.replicate 256 (none : Option UInt8)).length ≤ INT_MAX := by
    rw [List.length_replicate, INT_MAX_eq]
    omega
  have hprinted := printed doubles (n := INT_MAX) (holds_nil format false hsize) rfl t
  unfold print
  by_cases hfits : (text doubles format 0 t).length + 2 ≤ INT_MAX
  · rw [if_pos hfits] at hprinted ⊢
    obtain ⟨p', junk, hok, hcells, ⟨n, hend, hoffset⟩, -⟩ := hprinted
    rw [hok, bind_ok, hend, bind_ok]
    have hsize : (p'.advance n).offset + 1 = (terminated (text doubles format 0 t)).length := by
      simp [terminated, advance, hoffset]
    have hlength : (p'.advance n).length = (terminated (text doubles format 0 t)).length + junk.length := by
      show p'.buffer.length = _
      rw [hcells, List.length_append]
    have hbuffer : (p'.advance n).buffer = terminated (text doubles format 0 t) ++ junk := hcells
    rw [hsize, realloc, hlength, hbuffer, List.take_left, Nat.sub_eq_zero_of_le (Nat.le_add_right _ _),
      List.replicate_zero, List.append_nil]
    rfl
  · rw [if_neg hfits] at hprinted ⊢
    rw [hprinted]
    rfl

theorem printBuffered_eq (t : CJson) {prebuffer : Int} (hpos : 0 ≤ prebuffer)
    (hmax : prebuffer ≤ CInt.intMax) (format : Bool) :
    if (text doubles format 0 t).length + 2 ≤ INT_MAX then
      ∃ junk, cJsonPrintBuffered doubles t prebuffer format = .ok (terminated (text doubles format 0 t) ++ junk)
    else cJsonPrintBuffered doubles t prebuffer format = ret := by
  have hsize : (List.replicate prebuffer.toNat (none : Option UInt8)).length ≤ INT_MAX := by
    rw [List.length_replicate]
    exact Int.toNat_le_toNat hmax
  have hprinted := printed doubles (n := INT_MAX) (holds_nil format false hsize) rfl t
  unfold cJsonPrintBuffered
  rw [if_neg (show ¬ prebuffer < 0 by omega)]
  by_cases hfits : (text doubles format 0 t).length + 2 ≤ INT_MAX
  · rw [if_pos hfits] at hprinted ⊢
    obtain ⟨p', junk, hok, hcells, -, -⟩ := hprinted
    refine ⟨junk, ?_⟩
    rw [hok, bind_ok, hcells]
    rfl
  · rw [if_neg hfits] at hprinted ⊢
    rw [hprinted]
    rfl

end

end PrintBuffer

/-! ## The printers -/

section
variable {strtod : Strtod} (doubles : Doubles strtod)

/-- Whatever the size of the first buffer, the whole text is printed if a size can
be told for it, and nothing else; no cell outside of the buffer is written to,
and none is read before it has been written. -/
theorem cJsonPrint_text (t : CJson) (format : Bool) {prebuffer : Int} (hpos : 0 ≤ prebuffer)
    (hmax : prebuffer ≤ CInt.intMax) :
    if (text doubles format 0 t).length + 2 ≤ INT_MAX then
      (if format then cJsonPrint doubles t else cJsonPrintUnformatted doubles t) =
          .ok (terminated (text doubles format 0 t)) ∧
        ∃ junk, cJsonPrintBuffered doubles t prebuffer format =
          .ok (terminated (text doubles format 0 t) ++ junk)
    else
      (if format then cJsonPrint doubles t else cJsonPrintUnformatted doubles t) = ret ∧
        cJsonPrintBuffered doubles t prebuffer format = ret := by
  have hwhole : (if format then cJsonPrint doubles t else cJsonPrintUnformatted doubles t) =
      print doubles format t := by
    cases format <;> rfl
  have hprint := print_eq doubles format t
  rw [hwhole]
  have hbuffered := printBuffered_eq doubles t hpos hmax format
  by_cases hfits : (text doubles format 0 t).length + 2 ≤ INT_MAX
  · rw [if_pos hfits] at hprint hbuffered ⊢
    exact ⟨hprint, hbuffered⟩
  · rw [if_neg hfits] at hprint hbuffered ⊢
    exact ⟨hprint, hbuffered⟩

/-- A tree to try the printers on: a key, a string with an escape, a number and an
empty object. -/
def sample : CJson := .object [(str "a", .array [.string [10, 34], .number [49, 50], .object []])]

/-- Its text without the white space. -/
example : text unsignedDoubles false 0 sample =
    str "\x7b\"a\":[\"\\n\\\"\",12,\x7b\x7d]\x7d" := by decide

theorem cJsonPrint_text_sample :
    cJsonPrint unsignedDoubles sample = .ok (terminated (text unsignedDoubles true 0 sample)) ∧
      ∃ junk, cJsonPrintBuffered unsignedDoubles sample 0 true =
        .ok (terminated (text unsignedDoubles true 0 sample) ++ junk) := by
  have h := cJsonPrint_text unsignedDoubles sample true (show (0 : Int) ≤ 0 by decide) (by decide)
  rwa [if_pos (by decide +kernel)] at h

/-- The caller's buffer has to have room for the text, the terminator and one byte
more. Then it holds the text, and what is behind its end is as it was. -/
theorem cJsonPrintPreallocated_iff (t : CJson) (format : Bool) {buffer : Cells} {length : Int}
    (hlength : length ≤ buffer.length) (hmax : length ≤ CInt.intMax) :
    if ((text doubles format 0 t).length : Int) + 2 ≤ length then
      ∃ junk, cJsonPrintPreallocated doubles t buffer length format =
          .ok (terminated (text doubles format 0 t) ++ junk ++ buffer.drop length.toNat) ∧
        ((terminated (text doubles format 0 t) ++ junk).length : Int) = length
    else cJsonPrintPreallocated doubles t buffer length format = ret := by
  unfold cJsonPrintPreallocated
  by_cases hneg : length < 0
  · rw [if_neg (by omega), if_pos hneg]
  · rw [if_neg hneg]
    have htake : (buffer.take length.toNat).length = length.toNat := by
      rw [List.length_take]
      omega
    have hsize : (buffer.take length.toNat).length ≤ INT_MAX := by
      rw [htake]
      exact Int.toNat_le_toNat hmax
    have hprinted := printed doubles (n := length.toNat) (holds_nil format true hsize) htake t
    by_cases hfits : (text doubles format 0 t).length + 2 ≤ length.toNat
    · rw [if_pos hfits] at hprinted
      rw [if_pos (by omega)]
      obtain ⟨p', junk, hok, hcells, -, hsame⟩ := hprinted
      refine ⟨junk, ?_, ?_⟩
      · rw [hok, bind_ok, hcells]
        rfl
      · have hlen : p'.buffer.length = length.toNat := (hsame.2 rfl).trans htake
        rw [← hcells, hlen]
        omega
    · rw [if_neg hfits] at hprinted
      rw [if_neg (by omega), hprinted]
      rfl

/-- In a buffer of 7 bytes there is room for the word `true`, and not for `false`. -/
theorem cJsonPrintPreallocated_seven :
    (∃ junk, cJsonPrintPreallocated unsignedDoubles (.bool true) (List.replicate 7 none) 7 false =
      .ok (terminated (str "true") ++ junk ++ [])) ∧
      cJsonPrintPreallocated unsignedDoubles (.bool false) (List.replicate 6 none) 6 false = ret := by
  have htrue := cJsonPrintPreallocated_iff unsignedDoubles (.bool true) false
    (show (7 : Int) ≤ (List.replicate 7 (none : Option UInt8)).length by decide) (by decide)
  have hfalse := cJsonPrintPreallocated_iff unsignedDoubles (.bool false) false
    (show (6 : Int) ≤ (List.replicate 6 (none : Option UInt8)).length by decide) (by decide)
  rw [if_pos (by decide)] at htrue
  rw [if_neg (by decide)] at hfalse
  obtain ⟨junk, hok, -⟩ := htrue
  exact ⟨⟨junk, hok⟩, hfalse⟩

/-- The C string that is printed. -/
def cellsText : Cells → Bytes
  | some c :: cells => if c = 0 then [] else c :: cellsText cells
  | _ => []

theorem cellsText_terminated {s : Bytes} (hs : (0 : UInt8) ∉ s) : cellsText (terminated s) = s := by
  unfold terminated
  induction s with
  | nil => rfl
  | cons c s ih =>
    rw [List.mem_cons, not_or] at hs
    rw [List.cons_append, List.map_cons, cellsText, if_neg (Ne.symm hs.1), ih hs.2]

theorem print_ok {t : CJson} {format : Bool} {out : Cells} (h : print doubles format t = .ok out) :
    cellsText out = text doubles format 0 t := by
  rw [print_eq] at h
  split at h
  · cases h
    exact cellsText_terminated (zero_not_mem_text doubles format 0 t)
  · cases h

/-- What is printed, formatted or not, is parsed again, as the same tree with the
numbers that have been printed, unless the tree is nested deeper than the parser
goes. -/
theorem cJsonParse_print {t : CJson} {format : Bool} {out : Cells} (h : print doubles format t = .ok out) :
    cJsonParse strtod (cellsText out) =
      if nesting t ≤ CJSON_NESTING_LIMIT then some (readBack doubles t) else none := by
  rw [print_ok doubles h]
  exact cJsonParse_text doubles format t

theorem cJsonParse_print_sample :
    cJsonParse unsignedStrtod (cellsText (terminated (text unsignedDoubles true 0 sample))) =
      if nesting sample ≤ CJSON_NESTING_LIMIT then some (readBack unsignedDoubles sample) else none := by
  have hprint := print_eq unsignedDoubles true sample
  rw [if_pos (by decide +kernel)] at hprint
  exact cJsonParse_print unsignedDoubles hprint

/-- What has been parsed is printed, if its text and two bytes fit an int, and parsed
again: as the tree with the numbers that have been printed, which is the first one
exactly when its numbers come back from the digits that are printed. -/
theorem reprint_iff {s : Bytes} {t : CJson} (format : Bool) (hparse : cJsonParse strtod s = some t) :
    if (text doubles format 0 t).length + 2 ≤ INT_MAX then
      ∃ out, print doubles format t = .ok out ∧ cJsonParse strtod (cellsText out) = some (readBack doubles t) ∧
        (readBack doubles t = t ↔ ∀ d ∈ numbers t, readNumber doubles d = .number d)
    else print doubles format t = ret := by
  obtain ⟨hnesting, hstrings⟩ := cJsonParse_readable hparse
  have hprint := print_eq doubles format t
  by_cases hfits : (text doubles format 0 t).length + 2 ≤ INT_MAX
  · rw [if_pos hfits] at hprint ⊢
    refine ⟨_, hprint, ?_, ?_⟩
    · rw [cJsonParse_print doubles hprint, if_pos hnesting]
    · rw [readBack_eq_self_iff]
      exact and_iff_right hstrings
  · rw [if_neg hfits] at hprint ⊢
    exact hprint

end

theorem reprint_iff_twelve :
    ∃ out, print unsignedDoubles false (.array [.number [49, 50]]) = .ok out ∧
      cJsonParse unsignedStrtod (cellsText out) =
        some (readBack unsignedDoubles (.array [.number [49, 50]])) ∧
      (readBack unsignedDoubles (.array [.number [49, 50]]) = .array [.number [49, 50]] ↔
        ∀ d ∈ [[49, 50]], readNumber unsignedDoubles d = .number d) := by
  have hparse : cJsonParse unsignedStrtod (str "[12]") = some (.array [.number [49, 50]]) := by rfl
  have h := reprint_iff unsignedDoubles false hparse
  rwa [if_pos (by decide +kernel)] at h

end TmatePlugin.L1.Json
