import TmatePlugin.L1Base.CJsonParse
import TmatePlugin.Lib.CInt
import TmatePlugin.Lib.ReadBack

/-!
# The text of a cJSON tree

The text that the printers of Util/src/cJSON.c are to write, formatted or not, as
a function of the tree, and what `cJSON_Parse` makes of it. The printers
themselves are in `L1Base/CJsonPrint.lean`.

`sprintf` and `sscanf` on doubles are parameters, like `strtod`.

* `cJsonParse_text`: the text of a tree is read, as the tree with its numbers as
  they come back, exactly when the tree is not nested deeper than the parser goes.
* `cJsonParse_readable`: what has been parsed is not, and has no NUL in a string.
* `readBack_eq_self_iff`: when the tree itself comes back.
-/
namespace TmatePlugin.L1.Json

open CString Parsing

/-! ## Numbers -/

/-- What `print_number` asks of a double. `format n` is `sprintf` with `%1.<n>g`,
and `sscanf` reads what `strtod` reads; 17 digits tell a double from every other. -/
structure Doubles (strtod : Strtod) where
  /-- Neither NaN nor infinite. -/
  finite : Bytes → Bool
  format : Nat → Bytes → Bytes
  /-- `compare_double`: Util/src/cJSON.c:538-542. -/
  close : Bytes → Bytes → Bool
  starts : ∀ n d, finite d = true → startsNumber (format n d) = true
  chars : ∀ n d, finite d = true → ∀ c ∈ format n d, isNumberChar c = true
  length : ∀ n d, finite d = true → n ≤ 17 → (format n d).length ≤ 25
  reads : ∀ n d, finite d = true → ∃ v, strtod.read (format n d) = some (v, (format n d).length)
  exact : ∀ d, finite d = true → strtod.read (format 17 d) = some (d, (format 17 d).length)

section
variable {strtod : Strtod} (doubles : Doubles strtod)

/-- 15 digits if they give the number back closely enough, else 17.
mirrors Util/src/cJSON.c:561-577 -/
def numberText (d : Bytes) : Bytes :=
  if doubles.finite d then
    match strtod.read (doubles.format 15 d) with
    | some (test, _) => if doubles.close test d then doubles.format 15 d else doubles.format 17 d
    | none => doubles.format 17 d
  else str "null"

/-- The number that is read from it. -/
def readNumber (d : Bytes) : CJson :=
  if doubles.finite d then
    match strtod.read (doubles.format 15 d) with
    | some (test, _) => if doubles.close test d then .number test else .number d
    | none => .number d
  else .null

end

/-- Numbers of at most 15 digits and nothing else, which are read as they are. -/
def unsignedStrtod : Strtod where
  read s :=
    let digits := s.takeWhile CInt.isDigit
    if digits = [] then none else some (digits, digits.length)
  consumed s value n h := by
    simp only at h
    split at h
    · cases h
    · rename_i hne
      cases h
      exact ⟨List.length_pos_iff.mpr hne, (List.takeWhile_prefix _).length_le⟩

/-- A number of 1 to 15 digits. -/
def isUnsigned (d : Bytes) : Bool := d != [] && d.all CInt.isDigit && d.length ≤ 15

theorem isUnsigned_iff {d : Bytes} :
    isUnsigned d = true ↔ d ≠ [] ∧ (∀ c ∈ d, CInt.isDigit c = true) ∧ d.length ≤ 15 := by
  simp [isUnsigned, and_assoc]

theorem unsignedStrtod_read {d : Bytes} (h : isUnsigned d = true) :
    unsignedStrtod.read d = some (d, d.length) := by
  obtain ⟨hne, hdigits, -⟩ := isUnsigned_iff.mp h
  have hall : d.takeWhile CInt.isDigit = d := List.takeWhile_eq_self_iff.mpr hdigits
  simp only [unsignedStrtod, hall, if_neg hne]

def unsignedDoubles : Doubles unsignedStrtod where
  finite := isUnsigned
  format _ d := d
  close a b := a == b
  starts _ d h := by
    obtain ⟨hne, hdigits, -⟩ := isUnsigned_iff.mp h
    obtain ⟨c, t, rfl⟩ := List.exists_cons_of_ne_nil hne
    have hc : CInt.isDigit c = true := hdigits c List.mem_cons_self
    simp only [startsNumber, List.head?_cons, Option.any_some, Bool.or_eq_true]
    exact .inr hc
  chars _ d h c hc := by
    have hdigit : CInt.isDigit c = true := (isUnsigned_iff.mp h).2.1 c hc
    simp only [isNumberChar, Bool.or_eq_true]
    exact .inl (.inl (.inl (.inl (.inl hdigit))))
  length _ d h _ := Nat.le_trans (isUnsigned_iff.mp h).2.2 (by decide)
  reads _ d h := ⟨d, unsignedStrtod_read h⟩
  exact _ h := unsignedStrtod_read h

/-! ## Strings -/

/-- A hexadecimal digit of `%04x`. -/
def hexChar (n : Nat) : UInt8 := if n < 10 then (48 + n).toUInt8 else (87 + n).toUInt8

/-- The letter behind a backslash.
mirrors Util/src/cJSON.c:983-1004 -/
def escapeLetter (c : UInt8) : Option UInt8 :=
  if c = 92 then some 92
  else if c = 34 then some 34
  else if c = 8 then some 98
  else if c = 12 then some 102
  else if c = 10 then some 110
  else if c = 13 then some 114
  else if c = 9 then some 116
  else none

/-- `sprintf` with `u%04x` of a byte. -/
def unicodeEscape (c : UInt8) : Bytes := [117, 48, 48, hexChar (c.toNat / 16), hexChar (c.toNat % 16)]

/-- The byte is copied. -/
def plainByte (c : UInt8) : Bool := 31 < c && c != 34 && c != 92

def escapeByte (c : UInt8) : Bytes :=
  if plainByte c then [c]
  else
    match escapeLetter c with
    | some e => [92, e]
    | none => 92 :: unicodeEscape c

/-- A string between quotes. -/
def stringText (s : Bytes) : Bytes := 34 :: ((cStr s).flatMap escapeByte ++ [34])

/-! ## Trees -/

/-- What only formatted text has. -/
def whenFormatted (format : Bool) (s : Bytes) : Bytes := if format then s else []

/-- The tabs in front of a member, or of the closing brace. -/
def indent (format : Bool) (depth : Nat) : Bytes := whenFormatted format (List.replicate depth 9)

section
variable {strtod : Strtod} (doubles : Doubles strtod)

mutual

/-- The text of a value in which `depth` arrays and objects are open. -/
def text (format : Bool) (depth : Nat) : CJson → Bytes
  | .null => str "null"
  | .bool false => str "false"
  | .bool true => str "true"
  | .number d => numberText doubles d
  | .string v => stringText v
  | .array items => 91 :: (itemsText format (depth + 1) items ++ [93])
  | .object members =>
    123 :: (whenFormatted format [10] ++
      (membersText format (depth + 1) members ++ (indent format depth ++ [125])))

def itemsText (format : Bool) (depth : Nat) : List CJson → Bytes
  | [] => []
  | item :: items =>
    text format depth item ++
      ((if items.isEmpty then [] else 44 :: whenFormatted format [32]) ++ itemsText format depth items)

def membersText (format : Bool) (depth : Nat) : List (Bytes × CJson) → Bytes
  | [] => []
  | (key, value) :: members =>
    indent format depth ++ (stringText key ++ (58 :: (whenFormatted format [9] ++
      (text format depth value ++ ((if members.isEmpty then [] else [44]) ++
        (whenFormatted format [10] ++ membersText format depth members))))))

end

mutual

/-- The tree that is read from the text of a tree. -/
def readBack : CJson → CJson
  | .null => .null
  | .bool b => .bool b
  | .number d => readNumber doubles d
  | .string v => .string (cStr v)
  | .array items => .array (readBackItems items)
  | .object members => .object (readBackMembers members)

def readBackItems : List CJson → List CJson
  | [] => []
  | item :: items => readBack item :: readBackItems items

def readBackMembers : List (Bytes × CJson) → List (Bytes × CJson)
  | [] => []
  | (key, value) :: members => (cStr key, readBack value) :: readBackMembers members

end

end

mutual

/-- How many arrays and objects are open at the deepest place. -/
def nesting : CJson → Nat
  | .array items => nestingItems items + 1
  | .object members => nestingMembers members + 1
  | _ => 0

def nestingItems : List CJson → Nat
  | [] => 0
  | item :: items => max (nesting item) (nestingItems items)

def nestingMembers : List (Bytes × CJson) → Nat
  | [] => 0
  | (_, value) :: members => max (nesting value) (nestingMembers members)

end

/-- Induction on trees. -/
theorem CJson.induction {P : CJson → Prop} (null : P .null) (bool : ∀ b, P (.bool b))
    (number : ∀ d, P (.number d)) (string : ∀ v, P (.string v))
    (array : ∀ items, (∀ item ∈ items, P item) → P (.array items))
    (object : ∀ members, (∀ m ∈ members, P m.2) → P (.object members)) (t : CJson) : P t :=
  @CJson.rec P (fun items => ∀ item ∈ items, P item) (fun members => ∀ m ∈ members, P m.2)
    (fun m => P m.2) null bool number string array object (fun _ h => nomatch h)
    (fun _ _ hitem hitems => List.forall_mem_cons.mpr ⟨hitem, hitems⟩) (fun _ h => nomatch h)
    (fun _ _ hm hms => List.forall_mem_cons.mpr ⟨hm, hms⟩) (fun _ _ hvalue => hvalue) t

/-! ## Strings are read back -/

theorem escapeLetter_escaped {c e : UInt8} (h : escapeLetter c = some e) :
    e ≠ 117 ∧ escaped e = some c := by
  unfold escapeLetter at h
  repeat' split at h
  all_goals first
    | (rename_i hc; cases h; subst hc; decide)
    | cases h

/-- A byte that is neither copied nor has a letter is a control character. -/
theorem lt_of_escapeLetter {c : UInt8} (hplain : plainByte c = false) (h : escapeLetter c = none) :
    c.toNat < 32 := by
  have hall : ∀ n : Fin 256, plainByte (UInt8.ofFin n) = false → escapeLetter (UInt8.ofFin n) = none →
      (UInt8.ofFin n).toNat < 32 := by decide +kernel
  exact hall c.toFin hplain h

theorem parseHex4_unicodeEscape {c : UInt8} (hc : c.toNat < 32) :
    parseHex4 48 48 (hexChar (c.toNat / 16)) (hexChar (c.toNat % 16)) = c.toNat := by
  have hall : ∀ n < 32, parseHex4 48 48 (hexChar (n / 16)) (hexChar (n % 16)) = n := by decide +kernel
  exact hall c.toNat hc

theorem unescape_plain {c : UInt8} (hc : c ≠ 92) (rest : Bytes) :
    unescape (c :: rest) = (unescape rest).map (c :: ·) := by
  rw [unescape.eq_def]
  simp only [ne_eq, hc, not_false_eq_true, if_true]

theorem unescape_letter {c e : UInt8} (h : escapeLetter c = some e) (rest : Bytes) :
    unescape (92 :: e :: rest) = (unescape rest).map (c :: ·) := by
  obtain ⟨hu, hescaped⟩ := escapeLetter_escaped h
  rw [unescape.eq_def]
  simp only [ne_eq, not_true_eq_false, if_false, if_neg hu, hescaped]

theorem unescape_unicode {c : UInt8} (hc : c.toNat < 32) (rest : Bytes) :
    unescape (92 :: (unicodeEscape c ++ rest)) = (unescape rest).map (c :: ·) := by
  have hutf8 : encodeUtf8 c.toNat = [c] := by
    have hbyte : c.toNat.toUInt8 = c := UInt8.ofNat_toNat
    rw [encodeUtf8, if_pos (by omega), hbyte]
  have hlow : ¬ (0xDC00 ≤ c.toNat ∧ c.toNat ≤ 0xDFFF) := by omega
  have hhigh : ¬ (0xD800 ≤ c.toNat ∧ c.toNat ≤ 0xDBFF) := by omega
  rw [unescape.eq_def]
  simp only [unicodeEscape, List.cons_append, List.nil_append, ne_eq, not_true_eq_false, if_false,
    if_true, parseHex4_unicodeEscape hc, hlow, hhigh, hutf8]

/-- A byte is escaped and read in front of any other text. -/
theorem unescape_escapeByte (c : UInt8) (rest : Bytes) :
    unescape (escapeByte c ++ rest) = (unescape rest).map (c :: ·) := by
  unfold escapeByte
  cases hplain : plainByte c with
  | true =>
    have hc : c ≠ 92 := by
      rintro rfl
      exact absurd hplain (by decide)
    exact unescape_plain hc rest
  | false =>
    cases hletter : escapeLetter c with
    | some e => exact unescape_letter hletter rest
    | none => exact unescape_unicode (lt_of_escapeLetter hplain hletter) rest

theorem unescape_escape (s : Bytes) : unescape (s.flatMap escapeByte) = some s := by
  induction s with
  | nil => rfl
  | cons c s ih =>
    rw [List.flatMap_cons, unescape_escapeByte, ih]
    rfl

theorem hexChar_ne {n : Nat} (hn : n < 16) : hexChar n ≠ 34 ∧ hexChar n ≠ 92 := by
  have hall : ∀ n < 16, hexChar n ≠ 34 ∧ hexChar n ≠ 92 := by decide
  exact hall n hn

theorem stringBody_escapeByte (c : UInt8) {s body rest : Bytes} (h : stringBody s = some (body, rest)) :
    stringBody (escapeByte c ++ s) = some (escapeByte c ++ body, rest) := by
  unfold escapeByte
  cases hplain : plainByte c with
  | true =>
    have hc : c ≠ 34 ∧ c ≠ 92 := by
      constructor
      · rintro rfl; exact absurd hplain (by decide)
      · rintro rfl; exact absurd hplain (by decide)
    exact stringBody_other hc.1 hc.2 h
  | false =>
    cases hletter : escapeLetter c with
    | some e => exact stringBody_escape h
    | none =>
      have hc := lt_of_escapeLetter hplain hletter
      have hhigh := hexChar_ne (n := c.toNat / 16) (by omega)
      have hlow := hexChar_ne (n := c.toNat % 16) (by omega)
      have hdigits := stringBody_other (c := 48) (by decide) (by decide)
        (stringBody_other (c := 48) (by decide) (by decide)
          (stringBody_other hhigh.1 hhigh.2 (stringBody_other hlow.1 hlow.2 h)))
      exact stringBody_escape hdigits

theorem stringBody_escape_quote (s rest : Bytes) :
    stringBody (s.flatMap escapeByte ++ 34 :: rest) = some (s.flatMap escapeByte, rest) := by
  induction s with
  | nil => exact stringBody_quote rest
  | cons c s ih =>
    rw [List.flatMap_cons, List.append_assoc]
    exact stringBody_escapeByte c ih

theorem cStr_cStr (s : Bytes) : cStr (cStr s) = cStr s := cStr_eq_self_iff.mpr (cStr_no_nul s)

theorem reads_stringText (s : Bytes) : Reads anyRest parseString (stringText s) (some (cStr s)) := by
  refine Reads.opened ?_ 34
  have hbody : Reads anyRest stringBody ((cStr s).flatMap escapeByte ++ [34])
      (some ((cStr s).flatMap escapeByte)) := by
    intro rest _
    rw [List.append_assoc, List.singleton_append, stringBody_escape_quote]
    rfl
  have hmapped := hbody.mapped fun body => (unescape body).map cStr
  rw [Option.bind_some, unescape_escape, Option.map_some, cStr_cStr] at hmapped
  exact hmapped

/-! ## Values are read back -/

theorem nestingItems_le_iff {items : List CJson} {n : Nat} :
    nestingItems items ≤ n ↔ ∀ item ∈ items, nesting item ≤ n := by
  induction items with
  | nil => simp [nestingItems]
  | cons item items ih => rw [nestingItems, List.forall_mem_cons, ← ih, Nat.max_le]

theorem nestingMembers_le_iff {members : List (Bytes × CJson)} {n : Nat} :
    nestingMembers members ≤ n ↔ ∀ m ∈ members, nesting m.2 ≤ n := by
  induction members with
  | nil => simp [nestingMembers]
  | cons m members ih => rw [nestingMembers, List.forall_mem_cons, ← ih, Nat.max_le]

section
variable {strtod : Strtod} {doubles : Doubles strtod}

theorem readBackItems_eq (items : List CJson) :
    readBackItems doubles items = items.map (readBack doubles) := by
  induction items with
  | nil => rfl
  | cons item items ih => rw [readBackItems, ih, List.map_cons]

theorem readBackMembers_eq (members : List (Bytes × CJson)) :
    readBackMembers doubles members = members.map fun m => (cStr m.1, readBack doubles m.2) := by
  induction members with
  | nil => rfl
  | cons m members ih => rw [readBackMembers, ih, List.map_cons]

/-- An item and its separators. -/
theorem itemsText_cons (format : Bool) (depth : Nat) (item : CJson) (items : List CJson) :
    itemsText doubles format depth (item :: items) = text doubles format depth item ++
      items.flatMap (fun item => 44 :: (whenFormatted format [32] ++ text doubles format depth item)) := by
  induction items generalizing item with
  | nil => simp [itemsText]
  | cons next items ih =>
    rw [itemsText, ih next, List.flatMap_cons]
    simp

/-- A member without the separators. -/
def memberText (doubles : Doubles strtod) (format : Bool) (depth : Nat) (m : Bytes × CJson) : Bytes :=
  indent format depth ++ stringText m.1 ++ ([] ++ 58 ::
    (whenFormatted format [9] ++ text doubles format depth m.2))

theorem membersText_cons (format : Bool) (depth : Nat) (m : Bytes × CJson) (members : List (Bytes × CJson)) :
    membersText doubles format depth (m :: members) = memberText doubles format depth m ++
      (members.flatMap (fun m => 44 :: (whenFormatted format [10] ++ memberText doubles format depth m)) ++
        whenFormatted format [10]) := by
  induction members generalizing m with
  | nil => simp [membersText, memberText]
  | cons next members ih =>
    rw [membersText, ih next, List.flatMap_cons]
    simp [memberText]

/-- The first byte of a value. -/
theorem text_first (doubles : Doubles strtod) (format : Bool) (depth : Nat) (t : CJson) :
    ∃ c u, text doubles format depth t = c :: u ∧ isBlank c = false ∧ c ≠ 93 ∧ c ≠ 125 ∧ c ≠ 0xEF := by
  have hnumber : ∀ s, startsNumber s = true →
      ∃ c u, s = c :: u ∧ isBlank c = false ∧ c ≠ 93 ∧ c ≠ 125 ∧ c ≠ 0xEF := by
    intro s hs
    cases s with
    | nil => cases hs
    | cons c u =>
      have hall : ∀ n : Fin 256, startsNumber [UInt8.ofFin n] = true →
          isBlank (UInt8.ofFin n) = false ∧ UInt8.ofFin n ≠ 93 ∧ UInt8.ofFin n ≠ 125 ∧
            UInt8.ofFin n ≠ 0xEF := by decide +kernel
      exact ⟨c, u, rfl, hall c.toFin hs⟩
  cases t with
  | null => exact ⟨110, _, rfl, by decide⟩
  | bool b => cases b with
    | false => exact ⟨102, _, rfl, by decide⟩
    | true => exact ⟨116, _, rfl, by decide⟩
  | number d =>
    rw [text, numberText]
    split
    · rename_i hfinite
      split
      · split
        · exact hnumber _ (doubles.starts 15 d hfinite)
        · exact hnumber _ (doubles.starts 17 d hfinite)
      · exact hnumber _ (doubles.starts 17 d hfinite)
    · exact ⟨110, _, rfl, by decide⟩
  | string v => exact ⟨34, _, rfl, by decide⟩
  | array items => exact ⟨91, _, by rw [text], by decide⟩
  | object members => exact ⟨123, _, by rw [text], by decide⟩

theorem Reads.of_choice {more : UInt8 → Bool} {depth : Nat} {c : UInt8} {u : Bytes} {r : Option CJson}
    (h : Reads more (choice strtod (nestedValue strtod depth) c) (c :: u) r) :
    Reads more (parseValue strtod depth) (c :: u) r := by
  intro rest hends
  rw [parseValue_eq, List.cons_append, parseValueWith_cons, ← List.cons_append]
  exact h rest hends

theorem reads_null (depth : Nat) :
    Reads isNumberChar (parseValue strtod depth) (str "null") (some .null) :=
  Reads.of_choice (c := 110) (reads_literal _ (str "null") CJson.null)

theorem reads_bool (depth : Nat) (b : Bool) :
    Reads isNumberChar (parseValue strtod depth) (str (if b then "true" else "false")) (some (.bool b)) := by
  cases b with
  | false => exact Reads.of_choice (c := 102) (reads_literal _ (str "false") (CJson.bool false))
  | true => exact Reads.of_choice (c := 116) (reads_literal _ (str "true") (CJson.bool true))

theorem reads_number {s v : Bytes} (hs : startsNumber s = true) (hchars : ∀ c ∈ s, isNumberChar c = true)
    (hlength : s.length ≤ 63) (hread : strtod.read s = some (v, s.length)) (depth : Nat) :
    Reads isNumberChar (parseValue strtod depth) s (some (.number v)) := by
  intro rest hends
  have hstart : startsNumber (s ++ rest) = true := by
    cases s with
    | nil => cases hs
    | cons c s => exact hs
  rw [parseValue_number hstart, parseNumber, numberChars_append hlength hchars hends, hread]
  simp

theorem reads_numberText (depth : Nat) (d : Bytes) :
    Reads isNumberChar (parseValue strtod depth) (numberText doubles d) (some (readNumber doubles d)) := by
  have hformat : ∀ n, n ≤ 17 → ∀ v, doubles.finite d = true →
      strtod.read (doubles.format n d) = some (v, (doubles.format n d).length) →
      Reads isNumberChar (parseValue strtod depth) (doubles.format n d) (some (.number v)) := by
    intro n hn v hfinite hread
    have hlength := doubles.length n d hfinite hn
    exact reads_number (doubles.starts n d hfinite) (doubles.chars n d hfinite) (by omega) hread depth
  unfold numberText readNumber
  by_cases hfinite : doubles.finite d = true
  · obtain ⟨test, hread⟩ := doubles.reads 15 d hfinite
    rw [if_pos hfinite, if_pos hfinite, hread]
    simp only
    by_cases hclose : doubles.close test d = true
    · rw [if_pos hclose, if_pos hclose]
      exact hformat 15 (by omega) test hfinite hread
    · rw [if_neg hclose, if_neg hclose]
      exact hformat 17 (by omega) d hfinite (doubles.exact d hfinite)
  · rw [if_neg hfinite, if_neg hfinite]
    exact reads_null depth

theorem blank_whenFormatted {format : Bool} {s : Bytes} (hs : s.all isBlank = true) :
    ∀ c ∈ whenFormatted format s, isBlank c = true := by
  cases format with
  | false => exact fun c hc => (by cases hc)
  | true => exact List.all_eq_true.mp hs

theorem blank_indent (format : Bool) (depth : Nat) : ∀ c ∈ indent format depth, isBlank c = true := by
  refine blank_whenFormatted (List.all_eq_true.mpr fun c hc => ?_)
  rw [List.eq_of_mem_replicate hc]
  decide

theorem layout {close : UInt8} (hclose : close = 93 ∨ close = 125) {gap ws : Bytes}
    (hgap : ∀ c ∈ gap, isBlank c = true) (hws : ∀ c ∈ ws, isBlank c = true) :
    Layout isBlank isNumberChar 44 close gap ws where
  gap_blank := hgap
  ws_blank := hws
  comma_blank := by decide
  close_blank := by rcases hclose with rfl | rfl <;> decide
  ne := by rcases hclose with rfl | rfl <;> decide
  goes_on c hc := by
    obtain ⟨hblank, hcomma, hbracket, hbrace⟩ := numberChar_ends hc
    refine ⟨hblank, hcomma, ?_⟩
    rcases hclose with rfl | rfl
    · exact hbracket
    · exact hbrace

/-- What a value reads as where arrays and objects may go so much deeper. -/
def readWithin (doubles : Doubles strtod) (depth : Nat) (t : CJson) : Option CJson :=
  if nesting t ≤ depth then some (readBack doubles t) else none

theorem reads_afterBlanks_text {format : Bool} {k depth : Nat} {t : CJson} (ws : Bytes)
    (hws : ∀ c ∈ ws, isBlank c = true)
    (h : Reads isNumberChar (parseValue strtod depth) (text doubles format k t) (readWithin doubles depth t)) :
    Reads isNumberChar (afterBlanks isBlank (parseValue strtod depth)) (ws ++ text doubles format k t)
      (readWithin doubles depth t) := by
  obtain ⟨c, u, hu, hblank, -⟩ := text_first doubles format k t
  rw [hu] at h ⊢
  exact Reads.afterBlanks hws hblank h

/-- The items of an array, when each of them is read. -/
theorem reads_array {format : Bool} {k depth : Nat} {items : List CJson}
    (ih : ∀ item ∈ items, Reads isNumberChar (parseValue strtod depth) (text doubles format (k + 1) item)
      (readWithin doubles depth item)) :
    Reads isNumberChar (parseArray (parseValue strtod depth)) (text doubles format k (.array items))
      (readWithin doubles (depth + 1) (.array items)) := by
  have hnone : ∀ c ∈ ([] : Bytes), isBlank c = true := fun c hc => nomatch hc
  have hlist : Reads isNumberChar
      (bracketed isBlank (afterBlanks isBlank (parseValue strtod depth)) 44 93)
      (itemsText doubles format (k + 1) items ++ [93]) (items.mapM (readWithin doubles depth)) := by
    cases items with
    | nil =>
      have h : Reads isNumberChar (bracketed isBlank (afterBlanks isBlank (parseValue strtod depth)) 44 93)
          ([] ++ [93]) (some []) := reads_bracketed_nil _ hnone (by decide)
      exact h
    | cons item items =>
      have hread : ∀ t ∈ item :: items, Reads isNumberChar
          (afterBlanks isBlank (parseValue strtod depth)) (text doubles format (k + 1) t)
          (readWithin doubles depth t) :=
        fun t ht => reads_afterBlanks_text [] hnone (ih t ht)
      have hstarts : Starts isBlank 93 (text doubles format (k + 1) item) := by
        obtain ⟨c, u, hu, hblank, hclose, -⟩ := text_first doubles format (k + 1) item
        exact ⟨[], c, u, hnone, hblank, hclose, hu⟩
      have hgap : ∀ c ∈ whenFormatted format [32], isBlank c = true :=
        blank_whenFormatted (by decide)
      have h := Reads.bracketed (layout (.inl rfl) hgap hnone)
        (skipsBlanks_afterBlanks _) hread hstarts isNumberChar
      rwa [List.nil_append, ← List.append_assoc, ← itemsText_cons] at h
  have h := (hlist.mapped fun items => some (CJson.array items)).opened 91
  have hvalue : (items.mapM (readWithin doubles depth)).bind (fun items => some (CJson.array items)) =
      readWithin doubles (depth + 1) (.array items) := by
    unfold readWithin
    rw [mapM_ite, nesting, readBack, readBackItems_eq]
    simp only [Nat.add_le_add_iff_right, nestingItems_le_iff]
    split <;> rfl
  rw [hvalue] at h
  rw [text]
  exact h

/-- The members of an object, when the value of each of them is read. -/
theorem reads_object {format : Bool} {k depth : Nat} {members : List (Bytes × CJson)}
    (ih : ∀ m ∈ members, Reads isNumberChar (parseValue strtod depth) (text doubles format (k + 1) m.2)
      (readWithin doubles depth m.2)) :
    Reads isNumberChar (parseObject (parseValue strtod depth)) (text doubles format k (.object members))
      (readWithin doubles (depth + 1) (.object members)) := by
  -- what a member reads as
  let value : Bytes × CJson → Option (Bytes × CJson) := fun m =>
    if nesting m.2 ≤ depth then some (cStr m.1, readBack doubles m.2) else none
  have hnewline : ∀ c ∈ whenFormatted format [10], isBlank c = true := blank_whenFormatted (by decide)
  have hend : ∀ c ∈ whenFormatted format [10] ++ indent format k, isBlank c = true := by
    intro c hc
    rcases List.mem_append.mp hc with hc | hc
    · exact hnewline c hc
    · exact blank_indent format k c hc
  have hmember : ∀ m ∈ members, Reads isNumberChar
      (keyed isBlank (afterBlanks isBlank parseString) 58 (afterBlanks isBlank (parseValue strtod depth)))
      (memberText doubles format (k + 1) m) (value m) := by
    intro m hm
    have hkey : Reads anyRest (afterBlanks isBlank parseString)
        (indent format (k + 1) ++ stringText m.1) (some (cStr m.1)) :=
      Reads.afterBlanks (blank_indent format (k + 1)) (by decide) (reads_stringText m.1)
    have hvalue := reads_afterBlanks_text (whenFormatted format [9]) (blank_whenFormatted (by decide))
      (ih m hm)
    have hcolon : isBlank 58 = false := by decide
    have h := Reads.keyed hkey (fun c (hc : c ∈ []) => nomatch hc) hcolon hvalue
    have hsame : ((some (cStr m.1)).bind fun key =>
        (readWithin doubles depth m.2).map fun v => (key, v)) = value m := by
      simp only [Option.bind_some, readWithin, value]
      split <;> rfl
    rwa [hsame] at h
  have hlist : Reads isNumberChar
      (bracketed isBlank (keyed isBlank (afterBlanks isBlank parseString) 58
        (afterBlanks isBlank (parseValue strtod depth))) 44 125)
      (whenFormatted format [10] ++ (membersText doubles format (k + 1) members ++
        (indent format k ++ [125]))) (members.mapM value) := by
    cases members with
    | nil =>
      rw [membersText, List.nil_append, ← List.append_assoc]
      exact reads_bracketed_nil isNumberChar hend (by decide)
    | cons m members =>
      have hstarts : Starts isBlank 125 (memberText doubles format (k + 1) m) := by
        have hkey : Starts isBlank 125 (stringText m.1) :=
          ⟨[], 34, (cStr m.1).flatMap escapeByte ++ [34], fun c hc => (by cases hc), by decide,
            by decide, rfl⟩
        exact (hkey.blanks (blank_indent format (k + 1))).append _
      have h := (Reads.bracketed (layout (.inr rfl) hnewline hend)
        ((skipsBlanks_afterBlanks _).keyed 58 _) hmember hstarts isNumberChar).blanks
        (skipsBlanks_bracketed _ 44 125) hnewline
      rw [membersText_cons]
      simpa only [List.append_assoc] using h
  have h := (hlist.mapped fun members => some (CJson.object members)).opened 123
  have hvalue : (members.mapM value).bind (fun members => some (CJson.object members)) =
      readWithin doubles (depth + 1) (.object members) := by
    unfold readWithin value
    rw [mapM_ite, nesting, readBack, readBackMembers_eq]
    simp only [Nat.add_le_add_iff_right, nestingMembers_le_iff]
    split <;> rfl
  rw [hvalue] at h
  rw [text]
  exact h

/-- Every value is read from its text, unless it is nested too deep. -/
theorem reads_text (t : CJson) (format : Bool) (k depth : Nat) :
    Reads isNumberChar (parseValue strtod depth) (text doubles format k t) (readWithin doubles depth t) := by
  have hleaf : ∀ t, nesting t = 0 → readWithin doubles depth t = some (readBack doubles t) := by
    intro t ht
    rw [readWithin, if_pos (by omega)]
  induction t using CJson.induction generalizing k depth with
  | null => exact reads_null depth
  | bool b =>
    cases b with
    | false => exact reads_bool depth false
    | true => exact reads_bool depth true
  | number d => exact reads_numberText depth d
  | string v =>
    have h := (reads_stringText v).mapped fun v => some (CJson.string v)
    exact Reads.of_choice (c := 34) (h.mono fun c hc => nomatch hc)
  | array items ih =>
    have hstart : startsNumber [91] = false := by decide
    rw [text]
    refine Reads.of_choice ?_
    cases depth with
    | zero =>
      rw [readWithin, nesting, if_neg (by omega)]
      intro rest _
      simp [choice, nestedValue, hstart]
    | succ depth =>
      have h := reads_array (k := k) fun item hitem => ih item hitem (k + 1) depth (fun t ht => by
        rw [readWithin, if_pos (by omega)])
      rw [text] at h
      simpa [choice, nestedValue, hstart] using h
  | object members ih =>
    have hstart : startsNumber [123] = false := by decide
    rw [text]
    refine Reads.of_choice ?_
    cases depth with
    | zero =>
      rw [readWithin, nesting, if_neg (by omega)]
      intro rest _
      simp [choice, nestedValue, hstart]
    | succ depth =>
      have h := reads_object (k := k) fun m hm => ih m hm (k + 1) depth (fun t ht => by
        rw [readWithin, if_pos (by omega)])
      rw [text] at h
      simpa [choice, nestedValue, hstart] using h

end

/-! ## The whole document -/

mutual

/-- The strings and keys of a tree. -/
def strings : CJson → List Bytes
  | .string v => [v]
  | .array items => itemStrings items
  | .object members => memberStrings members
  | _ => []

def itemStrings : List CJson → List Bytes
  | [] => []
  | item :: items => strings item ++ itemStrings items

def memberStrings : List (Bytes × CJson) → List Bytes
  | [] => []
  | (key, value) :: members => key :: (strings value ++ memberStrings members)

end

mutual

/-- The numbers of a tree. -/
def numbers : CJson → List Bytes
  | .number d => [d]
  | .array items => itemNumbers items
  | .object members => memberNumbers members
  | _ => []

def itemNumbers : List CJson → List Bytes
  | [] => []
  | item :: items => numbers item ++ itemNumbers items

def memberNumbers : List (Bytes × CJson) → List Bytes
  | [] => []
  | (_, value) :: members => numbers value ++ memberNumbers members

end

theorem itemStrings_eq (items : List CJson) : itemStrings items = items.flatMap strings := by
  induction items with
  | nil => rfl
  | cons item items ih => rw [itemStrings, ih, List.flatMap_cons]

theorem memberStrings_eq (members : List (Bytes × CJson)) :
    memberStrings members = members.flatMap fun m => m.1 :: strings m.2 := by
  induction members with
  | nil => rfl
  | cons m members ih => rw [memberStrings, ih, List.flatMap_cons, List.cons_append]

theorem itemNumbers_eq (items : List CJson) : itemNumbers items = items.flatMap numbers := by
  induction items with
  | nil => rfl
  | cons item items ih => rw [itemNumbers, ih, List.flatMap_cons]

theorem memberNumbers_eq (members : List (Bytes × CJson)) :
    memberNumbers members = members.flatMap fun m => numbers m.2 := by
  induction members with
  | nil => rfl
  | cons m members ih => rw [memberNumbers, ih, List.flatMap_cons]

theorem forall_mem_flatMap {α β : Type} {P : β → Prop} {f : α → List β} {xs : List α} :
    (∀ y ∈ xs.flatMap f, P y) ↔ ∀ x ∈ xs, ∀ y ∈ f x, P y := by
  constructor
  · exact fun h x hx y hy => h y (List.mem_flatMap.mpr ⟨x, hx, hy⟩)
  · intro h y hy
    obtain ⟨x, hx, hy⟩ := List.mem_flatMap.mp hy
    exact h x hx y hy

/-- What is read back changes nothing exactly when no string has a NUL in it and
every number comes back. -/
theorem readBack_eq_self_iff {strtod : Strtod} (doubles : Doubles strtod) (t : CJson) :
    readBack doubles t = t ↔ (∀ s ∈ strings t, (0 : UInt8) ∉ s) ∧
      ∀ d ∈ numbers t, readNumber doubles d = .number d := by
  induction t using CJson.induction with
  | null => simp [readBack, strings, numbers]
  | bool b => simp [readBack, strings, numbers]
  | number d => simp [readBack, strings, numbers]
  | string v => simp [readBack, strings, numbers, cStr_eq_self_iff]
  | array items ih =>
    rw [readBack, readBackItems_eq, strings, itemStrings_eq, numbers, itemNumbers_eq,
      forall_mem_flatMap, forall_mem_flatMap, CJson.array.injEq, ← forall₂_and]
    have hmap : items.map (readBack doubles) = items ↔ ∀ item ∈ items, readBack doubles item = item := by
      conv_lhs => rhs; rw [← List.map_id items]
      exact List.map_inj_left
    rw [hmap]
    exact forall₂_congr ih
  | object members ih =>
    rw [readBack, readBackMembers_eq, strings, memberStrings_eq, numbers, memberNumbers_eq,
      forall_mem_flatMap, forall_mem_flatMap, CJson.object.injEq, ← forall₂_and]
    have hmap : members.map (fun m => (cStr m.1, readBack doubles m.2)) = members ↔
        ∀ m ∈ members, (cStr m.1, readBack doubles m.2) = m := by
      conv_lhs => rhs; rw [← List.map_id members]
      exact List.map_inj_left
    rw [hmap]
    refine forall₂_congr fun m hm => ?_
    rw [List.forall_mem_cons, ← cStr_eq_self_iff, and_assoc, ← ih m hm]
    exact Prod.ext_iff

/-- What a parser of values may yield. -/
def Readable (depth : Nat) (t : CJson) : Prop :=
  nesting t ≤ depth ∧ ∀ s ∈ strings t, (0 : UInt8) ∉ s

theorem yields_string : Yields (fun v => (0 : UInt8) ∉ v) parseString := by
  have hbody : Yields (fun _ => True) stringBody := fun _ _ _ _ => trivial
  refine (hbody.mapped fun body v _ hv => ?_).opened 34
  obtain ⟨w, -, rfl⟩ := Option.map_eq_some_iff.mp hv
  exact cStr_no_nul w

theorem yields_array {value : Parser UInt8 CJson} {depth : Nat} (h : Yields (Readable depth) value) :
    Yields (Readable (depth + 1)) (parseArray value) := by
  refine (((h.afterBlanks isBlank).bracketed isBlank 44 93).mapped fun items t hitems ht => ?_).opened 91
  cases ht
  refine ⟨?_, ?_⟩
  · rw [nesting, Nat.add_le_add_iff_right, nestingItems_le_iff]
    exact fun item hitem => (hitems item hitem).1
  · rw [strings, itemStrings_eq, forall_mem_flatMap]
    exact fun item hitem => (hitems item hitem).2

theorem yields_object {value : Parser UInt8 CJson} {depth : Nat} (h : Yields (Readable depth) value) :
    Yields (Readable (depth + 1)) (parseObject value) := by
  have hmember := (yields_string.afterBlanks isBlank).keyed (h.afterBlanks isBlank) isBlank 58
  refine ((hmember.bracketed isBlank 44 125).mapped fun members t hmembers ht => ?_).opened 123
  cases ht
  refine ⟨?_, ?_⟩
  · rw [nesting, Nat.add_le_add_iff_right, nestingMembers_le_iff]
    exact fun m hm => (hmembers m hm).2.1
  · rw [strings, memberStrings_eq, forall_mem_flatMap]
    exact fun m hm => List.forall_mem_cons.mpr ⟨(hmembers m hm).1, (hmembers m hm).2.2⟩

theorem yields_choice {strtod : Strtod} {depth : Nat} {nested : Option (Parser UInt8 CJson)}
    (hnested : ∀ value ∈ nested, ∃ n, depth = n + 1 ∧ Yields (Readable n) value) (c : UInt8) :
    Yields (Readable depth) (choice strtod nested c) := by
  have hleaf : ∀ t : CJson, nesting t = 0 → strings t = [] → Readable depth t := by
    intro t ht hs
    rw [Readable, ht, hs]
    exact ⟨Nat.zero_le depth, fun s hs => (by cases hs)⟩
  unfold choice
  split
  · exact yields_literal (hleaf _ rfl rfl) _
  split
  · exact yields_literal (hleaf _ rfl rfl) _
  split
  · exact yields_literal (hleaf _ rfl rfl) _
  split
  · refine yields_string.mapped fun v t hv ht => ?_
    cases ht
    exact ⟨Nat.zero_le depth, fun s hs => List.mem_singleton.mp hs ▸ hv⟩
  split
  · intro s v rest h
    unfold parseNumber at h
    split at h
    · cases h
    · cases h
      exact hleaf _ rfl rfl
  cases nested with
  | none =>
    split
    · exact yields_none _
    split
    · exact yields_none _
    · exact yields_none _
  | some value =>
    obtain ⟨n, rfl, hvalue⟩ := hnested value rfl
    split
    · exact yields_array hvalue
    split
    · exact yields_object hvalue
    · exact yields_none _

theorem yields_value (strtod : Strtod) (depth : Nat) : Yields (Readable depth) (parseValue strtod depth) := by
  induction depth with
  | zero =>
    refine Yields.of_first (parseValueWith_nil strtod _) fun c =>
      ⟨choice strtod none c, ?_, parseValueWith_cons strtod _ c⟩
    exact yields_choice (fun value h => (by cases h)) c
  | succ depth ih =>
    refine Yields.of_first (parseValueWith_nil strtod _) fun c =>
      ⟨choice strtod (some (parseValue strtod depth)) c, ?_, parseValueWith_cons strtod _ c⟩
    exact yields_choice (fun value h => ⟨depth, rfl, Option.some.inj h ▸ ih⟩) c

/-- A document that has been parsed is not nested too deep, and has no NUL in a
string. -/
theorem cJsonParse_readable {strtod : Strtod} {s : Bytes} {t : CJson} (h : cJsonParse strtod s = some t) :
    Readable CJSON_NESTING_LIMIT t := by
  obtain ⟨rest, hparse⟩ := map_fst_eq_some_iff.mp h
  exact yields_value strtod CJSON_NESTING_LIMIT _ t rest hparse

/-- The parser on the text of a tree. -/
theorem cJsonParse_text {strtod : Strtod} (doubles : Doubles strtod) (format : Bool) (t : CJson) :
    cJsonParse strtod (text doubles format 0 t) = readWithin doubles CJSON_NESTING_LIMIT t := by
  obtain ⟨c, u, hu, hblank, -, -, hbom⟩ := text_first doubles format 0 t
  have hstart : valueStart (c :: u) = c :: u := by
    have hskip : skipUtf8Bom (c :: u) = c :: u := by
      rw [skipUtf8Bom, if_neg]
      rintro ⟨-, hpre⟩
      exact hbom (List.cons_prefix_cons.mp hpre).1.symm
    rw [valueStart, hskip, List.dropWhile_cons_of_neg (by simp [hblank])]
  have hread : parseValue strtod CJSON_NESTING_LIMIT (text doubles format 0 t ++ []) = _ :=
    reads_text t format 0 CJSON_NESTING_LIMIT [] (fun c hc => (by cases hc))
  rw [List.append_nil, hu] at hread
  rw [cJsonParse, parse, hu, hstart, hread, Option.map_map]
  exact Option.map_id'

/-! ## The bytes of a text -/

/-- A byte that is no control character, or one of the two that formatted text has. -/
def Printable (format : Bool) (c : UInt8) : Prop := 31 < c ∨ (format = true ∧ (c = 9 ∨ c = 10))

instance (format : Bool) (c : UInt8) : Decidable (Printable format c) := by
  unfold Printable
  exact inferInstance

theorem printable_of_all (format : Bool) {s : Bytes} (h : s.all (31 < ·) = true) :
    ∀ b ∈ s, Printable format b := fun b hb => .inl (of_decide_eq_true (List.all_eq_true.mp h b hb))

theorem printable_escapeByte (format : Bool) (c : UInt8) : ∀ b ∈ escapeByte c, Printable format b := by
  have hall : ∀ n : Fin 256, (escapeByte (UInt8.ofFin n)).all (31 < ·) = true := by decide +kernel
  exact printable_of_all format (hall c.toFin)

theorem printable_stringText (format : Bool) (s : Bytes) : ∀ b ∈ stringText s, Printable format b := by
  intro b hb
  rw [stringText, List.mem_cons, List.mem_append, List.mem_flatMap, List.mem_singleton] at hb
  rcases hb with rfl | ⟨c, -, hb⟩ | rfl
  · exact .inl (by decide)
  · exact printable_escapeByte format c b hb
  · exact .inl (by decide)

theorem printable_numberText {strtod : Strtod} (doubles : Doubles strtod) (format : Bool) (d : Bytes) :
    ∀ b ∈ numberText doubles d, Printable format b := by
  have hall : ∀ n : Fin 256, isNumberChar (UInt8.ofFin n) = true → 31 < UInt8.ofFin n := by
    decide +kernel
  have hchars : ∀ n, doubles.finite d = true → ∀ b ∈ doubles.format n d, Printable format b :=
    fun n hfinite b hb => .inl (hall b.toFin (doubles.chars n d hfinite b hb))
  unfold numberText
  split
  · rename_i hfinite
    split
    · split
      · exact hchars 15 hfinite
      · exact hchars 17 hfinite
    · exact hchars 17 hfinite
  · exact printable_of_all format (by decide)

theorem printable_whenFormatted {format : Bool} {s : Bytes} (h : s.all (Printable true ·) = true) :
    ∀ b ∈ whenFormatted format s, Printable format b := by
  cases format with
  | false => exact fun b hb => (by cases hb)
  | true => exact fun b hb => of_decide_eq_true (List.all_eq_true.mp h b hb)

theorem printable_indent (format : Bool) (k : Nat) : ∀ b ∈ indent format k, Printable format b := by
  refine printable_whenFormatted (List.all_eq_true.mpr fun b hb => ?_)
  rw [List.eq_of_mem_replicate hb]
  decide

/-- There is no control character in unformatted text; formatted text has tabs and
newlines. -/
theorem printable_text {strtod : Strtod} (doubles : Doubles strtod) (format : Bool) (t : CJson) (k : Nat) :
    ∀ b ∈ text doubles format k t, Printable format b := by
  have happend : ∀ {s u : Bytes}, (∀ b ∈ s, Printable format b) → (∀ b ∈ u, Printable format b) →
      ∀ b ∈ s ++ u, Printable format b := fun hs hu b hb => (List.mem_append.mp hb).elim (hs b) (hu b)
  have hcons : ∀ {c : UInt8} {u : Bytes}, 31 < c → (∀ b ∈ u, Printable format b) →
      ∀ b ∈ c :: u, Printable format b := fun hc hu => List.forall_mem_cons.mpr ⟨.inl hc, hu⟩
  have hnil : ∀ b ∈ ([] : Bytes), Printable format b := fun b hb => (by cases hb)
  have hnewline : ∀ b ∈ whenFormatted format [10], Printable format b := printable_whenFormatted (by decide)
  induction t using CJson.induction generalizing k with
  | null => exact printable_of_all format (s := str "null") (by decide)
  | bool b => cases b with
    | false => exact printable_of_all format (s := str "false") (by decide)
    | true => exact printable_of_all format (s := str "true") (by decide)
  | number d => exact printable_numberText doubles format d
  | string v => exact printable_stringText format v
  | array items ih =>
    rw [text]
    refine hcons (by decide) (happend ?_ (hcons (by decide) hnil))
    cases items with
    | nil => exact hnil
    | cons item items =>
      rw [itemsText_cons]
      refine happend (ih item List.mem_cons_self (k + 1)) (forall_mem_flatMap.mpr fun next hnext => ?_)
      exact hcons (by decide) (happend (printable_whenFormatted (by decide))
        (ih next (List.mem_cons_of_mem item hnext) (k + 1)))
  | object members ih =>
    have hmember : ∀ m ∈ members, ∀ b ∈ memberText doubles format (k + 1) m, Printable format b :=
      fun m hm => happend (happend (printable_indent format (k + 1)) (printable_stringText format m.1))
        (hcons (by decide) (happend (printable_whenFormatted (by decide)) (ih m hm (k + 1))))
    rw [text]
    refine hcons (by decide) (happend hnewline (happend ?_ (happend (printable_indent format k)
      (hcons (by decide) hnil))))
    cases members with
    | nil => exact hnil
    | cons m members =>
      rw [membersText_cons]
      refine happend (hmember m List.mem_cons_self) (happend (forall_mem_flatMap.mpr fun next hnext => ?_)
        hnewline)
      exact hcons (by decide) (happend hnewline (hmember next (List.mem_cons_of_mem m hnext)))

theorem Printable.ne_zero {format : Bool} {c : UInt8} (h : Printable format c) : c ≠ 0 := by
  rintro rfl
  revert h
  cases format <;> decide

theorem zero_not_mem_text {strtod : Strtod} (doubles : Doubles strtod) (format : Bool) (k : Nat) (t : CJson) :
    (0 : UInt8) ∉ text doubles format k t :=
  fun h0 => (printable_text doubles format t k 0 h0).ne_zero rfl

theorem zero_not_mem_stringText (s : Bytes) : (0 : UInt8) ∉ stringText s :=
  fun h0 => (printable_stringText true s 0 h0).ne_zero rfl

end TmatePlugin.L1.Json
