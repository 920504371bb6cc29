import TmatePlugin.L1Base.CJson
import TmatePlugin.Lib.Parser

/-!
# cJSON_Parse

The parser of Util/src/cJSON.c. It reads one value from the beginning of a C
string, after a byte order mark and white space, and leaves alone what comes
behind: the plugin asks neither for the end nor for a terminator there. Reading
at the terminator is reading the empty list here. Allocation succeeds.

`strtod` is a parameter. It is given the bytes that can be part of a number, 63
at most, and its value is kept as a text.

* `parseValue_closed`: a value that is not a number ends where it ends, whatever
  follows it.
* `parse_newline`: a newline behind the text changes nothing.
* `parse_cut_iff`: what is read of a text that has been cut and continued with
  dots.
-/
namespace TmatePlugin.L1.Json

open CString Parsing

def CJSON_NESTING_LIMIT : Nat := 1000

/-- `strtod`: the number at the beginning of a text, and how many bytes it has;
`none` when there is none. -/
structure Strtod where
  read : Bytes → Option (Bytes × Nat)
  consumed : ∀ s value n, read s = some (value, n) → 0 < n ∧ n ≤ s.length

/-! ## Leaves -/

/-- Everything up to the space counts.
mirrors Util/src/cJSON.c:1045-1048 -/
def isBlank (c : UInt8) : Bool := c ≤ 32

/-- The bytes that `parse_number` copies: Util/src/cJSON.c:326-345. -/
def isNumberChar (c : UInt8) : Bool :=
  (48 ≤ c && c ≤ 57) || c = 43 || c = 45 || c = 101 || c = 69 || c = 46

/-- `number_c_string` has room for 63 bytes and the terminator. -/
def numberChars (s : Bytes) : Bytes := (s.take 63).takeWhile isNumberChar

/-- mirrors Util/src/cJSON.c:307-381 -/
def parseNumber (strtod : Strtod) : Parser UInt8 CJson := fun s =>
  match strtod.read (numberChars s) with
  | none => none
  | some (value, n) => some (.number value, s.drop n)

/-- A hexadecimal digit. -/
def hexDigit (c : UInt8) : Option Nat :=
  if 48 ≤ c ∧ c ≤ 57 then some (c.toNat - 48)
  else if 65 ≤ c ∧ c ≤ 70 then some (10 + c.toNat - 65)
  else if 97 ≤ c ∧ c ≤ 102 then some (10 + c.toNat - 97)
  else none

/-- Four digits; 0 when one of them is none.
mirrors Util/src/cJSON.c:611-643 -/
def parseHex4 (a b c d : UInt8) : Nat :=
  match hexDigit a, hexDigit b, hexDigit c, hexDigit d with
  | some a, some b, some c, some d => ((a * 16 + b) * 16 + c) * 16 + d
  | _, _, _, _ => 0

/-- mirrors Util/src/cJSON.c:705-755 -/
def encodeUtf8 (codepoint : Nat) : Bytes :=
  if codepoint < 0x80 then [codepoint.toUInt8]
  else if codepoint < 0x800 then [(0xC0 + codepoint / 64).toUInt8, (0x80 + codepoint % 64).toUInt8]
  else if codepoint < 0x10000 then
    [(0xE0 + codepoint / 4096).toUInt8, (0x80 + codepoint / 64 % 64).toUInt8,
      (0x80 + codepoint % 64).toUInt8]
  else
    [(0xF0 + codepoint / 262144).toUInt8, (0x80 + codepoint / 4096 % 64).toUInt8,
      (0x80 + codepoint / 64 % 64).toUInt8, (0x80 + codepoint % 64).toUInt8]

/-- The byte behind a backslash, other than `u`. -/
def escaped (c : UInt8) : Option UInt8 :=
  if c = 98 then some 8
  else if c = 102 then some 12
  else if c = 110 then some 10
  else if c = 114 then some 13
  else if c = 116 then some 9
  else if c = 34 ∨ c = 92 ∨ c = 47 then some c
  else none

/-- The bytes between the quotes. A UTF-16 literal takes its digits without a look
at the escapes among them, so a backslash can be left at the end; the byte
behind it is then the closing quote.
mirrors Util/src/cJSON.c:819-873 and, for the literals, 646-761 -/
def unescape : Bytes → Option Bytes
  | [] => some []
  | c :: body =>
    if c ≠ 92 then (unescape body).map (c :: ·)
    else
      match body with
      | [] => some [34]
      | e :: body =>
        if e = 117 then
          match body with
          | a :: b :: c :: d :: body =>
            let first := parseHex4 a b c d
            if 0xDC00 ≤ first ∧ first ≤ 0xDFFF then none
            else if 0xD800 ≤ first ∧ first ≤ 0xDBFF then
              match body with
              | backslash :: u :: a :: b :: c :: d :: body =>
                let second := parseHex4 a b c d
                if backslash ≠ 92 ∨ u ≠ 117 ∨ second < 0xDC00 ∨ 0xDFFF < second then none
                else
                  (unescape body).map
                    (encodeUtf8 (0x10000 + (first % 1024 * 1024 + second % 1024)) ++ ·)
              | _ => none
            else (unescape body).map (encodeUtf8 first ++ ·)
          | _ => none
        else
          match escaped e with
          | none => none
          | some out => (unescape body).map (out :: ·)

/-- The bytes up to the closing quote; a backslash and the byte behind it end
nothing.
mirrors Util/src/cJSON.c:786-804 -/
def stringBody : Parser UInt8 Bytes
  | [] => none
  | c :: s =>
    if c = 34 then some ([], s)
    else if c = 92 then
      match s with
      | [] => none
      | e :: s =>
        match stringBody s with
        | none => none
        | some (body, rest) => some (c :: e :: body, rest)
    else
      match stringBody s with
      | none => none
      | some (body, rest) => some (c :: body, rest)

/-- The result is read as a C string.
mirrors Util/src/cJSON.c:767-893 -/
def parseString : Parser UInt8 Bytes :=
  opened 34 (mapped (fun body => (unescape body).map cStr) stringBody)

/-! ## Values -/

/-- mirrors Util/src/cJSON.c:1437-1527 -/
def parseArray (value : Parser UInt8 CJson) : Parser UInt8 CJson :=
  opened 91 (mapped (fun items => some (.array items))
    (bracketed isBlank (afterBlanks isBlank value) 44 93))

/-- mirrors Util/src/cJSON.c:1587-1700 -/
def parseObject (value : Parser UInt8 CJson) : Parser UInt8 CJson :=
  opened 123 (mapped (fun members => some (.object members))
    (bracketed isBlank
      (keyed isBlank (afterBlanks isBlank parseString) 58 (afterBlanks isBlank value)) 44 125))

/-- A minus or a digit. -/
def startsNumber (s : Bytes) : Bool := s.head?.any fun c => c = 45 || (48 ≤ c && c ≤ 57)

section
variable (strtod : Strtod)

/-- `parse_value`, where `nested` reads the items of arrays and the values of
objects.
mirrors Util/src/cJSON.c:1307-1363 -/
def parseValueWith (nested : Option (Parser UInt8 CJson)) : Parser UInt8 CJson := fun s =>
  match literal (str "null") .null s with
  | some r => some r
  | none =>
    match literal (str "false") (.bool false) s with
    | some r => some r
    | none =>
      match literal (str "true") (.bool true) s with
      | some r => some r
      | none =>
        if s.head? = some 34 then mapped (fun v => some (.string v)) parseString s
        else if startsNumber s then parseNumber strtod s
        else
          match nested with
          | none => none
          | some value =>
            if s.head? = some 91 then parseArray value s
            else if s.head? = some 123 then parseObject value s
            else none

/-- A value in which arrays and objects may go so much deeper. -/
def parseValue : Nat → Parser UInt8 CJson
  | 0 => parseValueWith strtod none
  | depth + 1 => parseValueWith strtod (some (parseValue depth))

/-- mirrors Util/src/cJSON.c:1058-1071 -/
def skipUtf8Bom (s : Bytes) : Bytes :=
  if 4 ≤ s.length ∧ [0xEF, 0xBB, 0xBF] <+: s then s.drop 3 else s

/-- Where the value begins. -/
def valueStart (s : Bytes) : Bytes := (skipUtf8Bom s).dropWhile isBlank

/-- `cJSON_ParseWithOpts` of a C string: the value, and what is left at
`return_parse_end`.
mirrors Util/src/cJSON.c:1073-1171 -/
def parse (s : Bytes) : Option (CJson × Bytes) := parseValue strtod CJSON_NESTING_LIMIT (valueStart s)

def cJsonParse (s : Bytes) : Option CJson := (parse strtod s).map (·.1)

end

/-! ## What is read does not depend on what follows -/

theorem stringBody_quote (s : Bytes) : stringBody (34 :: s) = some ([], s) := by
  cases s <;> rfl

theorem stringBody_escape {e : UInt8} {s body rest : Bytes} (h : stringBody s = some (body, rest)) :
    stringBody (92 :: e :: s) = some (92 :: e :: body, rest) := by
  rw [stringBody, h]
  rfl

theorem stringBody_other {c : UInt8} {s body rest : Bytes} (hquote : c ≠ 34) (hbackslash : c ≠ 92)
    (h : stringBody s = some (body, rest)) : stringBody (c :: s) = some (c :: body, rest) := by
  cases s with
  | nil => cases h
  | cons e s => rw [stringBody, if_neg hquote, if_neg hbackslash, h]

theorem stringBody_closed : Closed (· = 34) stringBody := by
  intro s body rest h
  refine ⟨body, 34, rfl, ?_⟩
  fun_induction stringBody s generalizing body with
  | case1 => cases h
  | case2 s =>
    cases h
    exact ⟨rfl, stringBody_quote⟩
  | case3 => cases h
  | case4 => cases h
  | case5 e s body' rest' hrec _ ih =>
    cases h
    obtain ⟨rfl, hread⟩ := ih body' hrec
    exact ⟨rfl, fun rest' => stringBody_escape (hread rest')⟩
  | case6 => cases h
  | case7 c s hquote hbackslash body' rest' hrec ih =>
    cases h
    obtain ⟨rfl, hread⟩ := ih body' hrec
    exact ⟨rfl, fun rest' => stringBody_other hquote hbackslash (hread rest')⟩

theorem parseString_closed : Closed (· = 34) parseString :=
  (stringBody_closed.mapped _).opened 34

section
variable (strtod : Strtod)

theorem parseNumber_shrinks : Shrinks (parseNumber strtod) := by
  intro s v rest h
  unfold parseNumber at h
  split at h
  · cases h
  · rename_i value n hread
    cases h
    obtain ⟨hpos, hle⟩ := strtod.consumed _ value n hread
    have hlen : (numberChars s).length ≤ s.length := by
      refine Nat.le_trans (List.takeWhile_prefix _).length_le ?_
      rw [List.length_take]
      omega
    rw [List.length_drop]
    omega

/-- Only what can be part of a number decides about a number. -/
theorem numberChars_append {u rest : Bytes} (hu : u.length ≤ 63)
    (hchars : ∀ c ∈ u, isNumberChar c = true) (hends : Ends isNumberChar rest) :
    numberChars (u ++ rest) = u := by
  have htake : (u ++ rest).take 63 = u ++ rest.take (63 - u.length) := by
    rw [List.take_append, List.take_of_length_le hu]
  have hrest : (rest.take (63 - u.length)).takeWhile isNumberChar = [] := by
    cases rest with
    | nil => simp
    | cons c rest =>
      cases 63 - u.length with
      | zero => rfl
      | succ n => rw [List.take_succ_cons, List.takeWhile_cons_of_neg (by simp [ends_cons_iff.mp hends])]
  rw [numberChars, htake, List.takeWhile_append_of_pos hchars, hrest, List.append_nil]

theorem parseNumber_local : Local isNumberChar (parseNumber strtod) := by
  intro s v rest h hends
  unfold parseNumber at h
  split at h
  · cases h
  · rename_i value n hread
    cases h
    obtain ⟨hpos, hle⟩ := strtod.consumed _ value n hread
    have hpre : numberChars s <+: s :=
      (List.takeWhile_prefix _).trans (List.take_prefix 63 s)
    have hchars : ∀ c ∈ numberChars s, isNumberChar c = true := fun c hc => List.mem_takeWhile_imp hc
    obtain ⟨t, ht⟩ := hpre
    -- all the bytes that can be part of the number have been read
    have hall : n = (numberChars s).length := by
      by_contra hne
      have hlt : n < (numberChars s).length := Nat.lt_of_le_of_ne hle hne
      have hdrop : s.drop n = (numberChars s)[n] :: ((numberChars s).drop (n + 1) ++ t) := by
        rw [← List.cons_append, List.getElem_cons_drop, ← List.drop_append_of_le_length hle, ht]
      rw [hdrop, ends_cons_iff, hchars _ (List.getElem_mem hlt)] at hends
      cases hends
    have hrest : s.drop n = t := by
      conv_lhs => rw [← ht]
      rw [hall, List.drop_left]
    have hlen63 : (numberChars s).length ≤ 63 := by
      refine Nat.le_trans (List.takeWhile_prefix _).length_le ?_
      rw [List.length_take]
      omega
    refine ⟨numberChars s, List.length_pos_iff.mp (by omega), by rw [hrest, ht], ?_⟩
    intro rest' hends'
    simp only [parseNumber, numberChars_append hlen63 hchars hends', hread, hall, List.drop_left]

/-! ## Values go by their first byte -/

/-- The parser that `parse_value` chooses at the byte `c`. -/
def choice (nested : Option (Parser UInt8 CJson)) (c : UInt8) : Parser UInt8 CJson :=
  if c = 110 then literal (str "null") .null
  else if c = 102 then literal (str "false") (.bool false)
  else if c = 116 then literal (str "true") (.bool true)
  else if c = 34 then mapped (fun v => some (.string v)) parseString
  else if startsNumber [c] then parseNumber strtod
  else if c = 91 then (nested.map parseArray).getD fun _ => none
  else if c = 123 then (nested.map parseObject).getD fun _ => none
  else fun _ => none

theorem parseValueWith_nil (nested : Option (Parser UInt8 CJson)) :
    parseValueWith strtod nested [] = none := by
  cases nested <;> rfl

theorem parseValueWith_cons (nested : Option (Parser UInt8 CJson)) (c : UInt8) (s : Bytes) :
    parseValueWith strtod nested (c :: s) = choice strtod nested c (c :: s) := by
  have hnull : str "null" = [110, 117, 108, 108] := by decide
  have hfalse : str "false" = [102, 97, 108, 115, 101] := by decide
  have htrue : str "true" = [116, 114, 117, 101] := by decide
  -- a word is read only where its first byte is
  have hword : ∀ (x : UInt8) (word : Bytes) (v : CJson), c ≠ x →
      literal (x :: word) v (c :: s) = none := by
    intro x word v hne
    simp [literal, List.isPrefixOf, Ne.symm hne]
  have hstarts : startsNumber (c :: s) = startsNumber [c] := rfl
  unfold parseValueWith choice
  rw [hnull, hfalse, htrue, hstarts]
  by_cases h1 : c = 110
  · subst h1
    have hnumber : startsNumber [110] = false := by decide
    rw [hword 102 _ _ (by decide), hword 116 _ _ (by decide), if_pos rfl]
    cases literal [110, 117, 108, 108] CJson.null (110 :: s) with
    | some r => rfl
    | none => cases nested <;> simp [hnumber]
  · rw [hword 110 _ _ h1, if_neg h1]
    by_cases h2 : c = 102
    · subst h2
      have hnumber : startsNumber [102] = false := by decide
      rw [hword 116 _ _ (by decide), if_pos rfl]
      cases literal [102, 97, 108, 115, 101] (CJson.bool false) (102 :: s) with
      | some r => rfl
      | none => cases nested <;> simp [hnumber]
    · rw [hword 102 _ _ h2, if_neg h2]
      by_cases h3 : c = 116
      · subst h3
        have hnumber : startsNumber [116] = false := by decide
        rw [if_pos rfl]
        cases literal [116, 114, 117, 101] (CJson.bool true) (116 :: s) with
        | some r => rfl
        | none => cases nested <;> simp [hnumber]
      · rw [hword 116 _ _ h3, if_neg h3]
        simp only [List.head?_cons, Option.some.injEq]
        split
        · rfl
        · split
          · rfl
          · cases nested with
            | none => simp
            | some value =>
              simp only [Option.map_some, Option.getD_some]
              split
              · rfl
              · split
                · rfl
                · rfl

/-! ## Values end where they end -/

/-- The bytes with which values other than numbers end. -/
def isLastByte (c : UInt8) : Bool := c = 108 || c = 101 || c = 34 || c = 93 || c = 125

/-- A number does not go on with a blank, a separator or a bracket. -/
theorem numberChar_ends {c : UInt8} (h : isNumberChar c = true) :
    isBlank c = false ∧ c ≠ 44 ∧ c ≠ 93 ∧ c ≠ 125 := by
  have hall : ∀ n : Fin 256, isNumberChar (UInt8.ofFin n) = true →
      isBlank (UInt8.ofFin n) = false ∧ UInt8.ofFin n ≠ 44 ∧ UInt8.ofFin n ≠ 93 ∧
        UInt8.ofFin n ≠ 125 := by decide +kernel
  exact hall c.toFin h

theorem parseArray_closed {value : Parser UInt8 CJson} (h : Local isNumberChar value) :
    Closed (· = 93) (parseArray value) :=
  ((bracketed_closed h.afterBlanks fun _ hc =>
    ⟨(numberChar_ends hc).1, (numberChar_ends hc).2.1, (numberChar_ends hc).2.2.1⟩).mapped _).opened 91

theorem parseObject_closed {value : Parser UInt8 CJson} (h : Local isNumberChar value) :
    Closed (· = 125) (parseObject value) := by
  have hkey : Closed (· = 34) (afterBlanks isBlank parseString) := parseString_closed.afterBlanks
  exact ((bracketed_closed (Local.keyed hkey h.afterBlanks) fun _ hc =>
    ⟨(numberChar_ends hc).1, (numberChar_ends hc).2.1, (numberChar_ends hc).2.2.2⟩).mapped _).opened 123

variable {strtod}

theorem choice_number {nested : Option (Parser UInt8 CJson)} {c : UInt8}
    (hc : startsNumber [c] = true) : choice strtod nested c = parseNumber strtod := by
  have hfirst : c ≠ 110 ∧ c ≠ 102 ∧ c ≠ 116 ∧ c ≠ 34 := by
    refine ⟨?_, ?_, ?_, ?_⟩ <;> rintro rfl <;> exact absurd hc (by decide)
  obtain ⟨h1, h2, h3, h4⟩ := hfirst
  rw [choice, if_neg h1, if_neg h2, if_neg h3, if_neg h4, if_pos hc]

theorem choice_closed {nested : Option (Parser UInt8 CJson)}
    (hnested : ∀ value ∈ nested, Local isNumberChar value) {c : UInt8}
    (hc : startsNumber [c] = false) : Closed isLastByte (choice strtod nested c) := by
  have hnull : str "null" = [110, 117, 108] ++ [108] := by decide
  have hfalse : str "false" = [102, 97, 108, 115] ++ [101] := by decide
  have htrue : str "true" = [116, 114, 117] ++ [101] := by decide
  unfold choice
  split
  · rw [hnull]
    exact (literal_closed _ _ _).mono (by simp [isLastByte])
  · split
    · rw [hfalse]
      exact (literal_closed _ _ _).mono (by simp [isLastByte])
    · split
      · rw [htrue]
        exact (literal_closed _ _ _).mono (by simp [isLastByte])
      · split
        · exact (parseString_closed.mapped _).mono (by simp [isLastByte])
        · split
          · rename_i hnumber
            rw [hc] at hnumber
            cases hnumber
          · split
            · cases nested with
              | none => exact closed_none _
              | some value => exact (parseArray_closed (hnested value rfl)).mono (by simp [isLastByte])
            · split
              · cases nested with
                | none => exact closed_none _
                | some value =>
                  exact (parseObject_closed (hnested value rfl)).mono (by simp [isLastByte])
              · exact closed_none _

theorem parseValueWith_local {nested : Option (Parser UInt8 CJson)}
    (hnested : ∀ value ∈ nested, Local isNumberChar value) :
    Local isNumberChar (parseValueWith strtod nested) := by
  refine Local.of_first (parseValueWith_nil strtod nested) fun c =>
    ⟨choice strtod nested c, ?_, parseValueWith_cons strtod nested c⟩
  cases hc : startsNumber [c] with
  | true => rw [choice_number hc]; exact parseNumber_local strtod
  | false => exact (choice_closed hnested hc).local _

/-- What `parseValue` reads nested values with. -/
def nestedValue (strtod : Strtod) : Nat → Option (Parser UInt8 CJson)
  | 0 => none
  | depth + 1 => some (parseValue strtod depth)

theorem parseValue_eq (depth : Nat) :
    parseValue strtod depth = parseValueWith strtod (nestedValue strtod depth) := by
  cases depth <;> rfl

/-- A value is read the same when what follows is no part of a number. -/
theorem parseValue_local (depth : Nat) : Local isNumberChar (parseValue strtod depth) := by
  induction depth with
  | zero => exact parseValueWith_local (fun _ h => nomatch h)
  | succ depth ih => exact parseValueWith_local (fun _ h => Option.some.inj h ▸ ih)

theorem nestedValue_local (depth : Nat) :
    ∀ value ∈ nestedValue strtod depth, Local isNumberChar value := by
  intro value h
  cases depth with
  | zero => cases h
  | succ depth => cases h; exact parseValue_local depth

theorem parseValue_shrinks (depth : Nat) : Shrinks (parseValue strtod depth) := by
  rw [parseValue_eq]
  refine Shrinks.of_first (parseValueWith_nil strtod _) fun c =>
    ⟨choice strtod _ c, ?_, parseValueWith_cons strtod _ c⟩
  cases hc : startsNumber [c] with
  | true => rw [choice_number hc]; exact parseNumber_shrinks strtod
  | false => exact (choice_closed (nestedValue_local depth) hc).shrinks

theorem parseValue_number {s : Bytes} (hs : startsNumber s = true) (depth : Nat) :
    parseValue strtod depth s = parseNumber strtod s := by
  cases s with
  | nil => cases hs
  | cons c s => rw [parseValue_eq, parseValueWith_cons, choice_number hs]

/-- A value that is not a number, whatever follows it. -/
theorem parseValue_closed (depth : Nat) :
    Closed isLastByte fun s => if startsNumber s then none else parseValue strtod depth s := by
  refine Closed.of_first (by rw [parseValue_eq, parseValueWith_nil, ite_self]) fun c => ?_
  cases hc : startsNumber [c] with
  | true =>
    refine ⟨fun _ => none, closed_none _, fun s => ?_⟩
    have hs : startsNumber (c :: s) = true := hc
    rw [if_pos hs]
  | false =>
    refine ⟨choice strtod (nestedValue strtod depth) c, choice_closed (nestedValue_local depth) hc,
      fun s => ?_⟩
    have hs : startsNumber (c :: s) = false := hc
    rw [hs, if_neg (by simp), parseValue_eq, parseValueWith_cons]

/-! ## A newline at the end -/

theorem map_fst_eq_some_iff {β γ : Type} {o : Option (β × γ)} {v : β} :
    o.map (·.1) = some v ↔ ∃ rest, o = some (v, rest) := by
  cases o with
  | none => simp
  | some r =>
    obtain ⟨v', rest⟩ := r
    simp

theorem numberChars_newline (s : Bytes) : numberChars (s ++ [10]) = numberChars s := by
  unfold numberChars
  by_cases hlen : s.length < 63
  · have hnewline : ([10] : Bytes).takeWhile isNumberChar = [] := by decide
    rw [List.take_of_length_le (by simp; omega), List.take_of_length_le (Nat.le_of_lt hlen),
      List.takeWhile_append, hnewline, List.append_nil]
    split
    · rename_i hall
      exact ((List.takeWhile_prefix _).eq_of_length hall).symm
    · rfl
  · rw [List.take_append_of_le_length (by omega)]

/-- What a value reads as, with and without the newline. -/
theorem parseValue_newline {s : Bytes} (hs : s ≠ []) (depth : Nat) :
    (parseValue strtod depth (s ++ [10])).map (·.1) = (parseValue strtod depth s).map (·.1) := by
  have hstart : startsNumber (s ++ [10]) = startsNumber s := by
    obtain ⟨c, t, rfl⟩ := List.exists_cons_of_ne_nil hs
    rfl
  cases hnumber : startsNumber s with
  | true =>
    rw [parseValue_number (hstart.trans hnumber), parseValue_number hnumber]
    unfold parseNumber
    rw [numberChars_newline]
    cases strtod.read (numberChars s) with
    | none => rfl
    | some r => rfl
  | false =>
    have hnewline : ∀ c ∈ ([10] : Bytes), isLastByte c = false := by simp [isLastByte]
    refine Option.ext fun v => ?_
    rw [map_fst_eq_some_iff, map_fst_eq_some_iff]
    have hv := (@parseValue_closed strtod depth).cut_iff hnewline s.length s v
    rw [List.take_length] at hv
    simp only [hstart, hnumber, Bool.false_eq_true, if_false, Nat.le_add_right, and_true] at hv
    exact hv

/-- Only a text that is nothing but a byte order mark is taken for one when a
byte follows. -/
theorem skipUtf8Bom_newline {s : Bytes} (hs : s ≠ [0xEF, 0xBB, 0xBF]) :
    skipUtf8Bom (s ++ [10]) = skipUtf8Bom s ++ [10] := by
  rcases s with _ | ⟨a, _ | ⟨b, _ | ⟨c, _ | ⟨d, t⟩⟩⟩⟩
  · rfl
  · rfl
  · rfl
  · have hnot : ¬ [0xEF, 0xBB, 0xBF] <+: [a, b, c, 10] := by
      intro hpre
      simp only [List.cons_prefix_cons, List.nil_prefix, and_true] at hpre
      exact hs (by rw [hpre.1, hpre.2.1, hpre.2.2])
    simp [skipUtf8Bom, hnot]
  · unfold skipUtf8Bom
    simp only [List.cons_append, List.length_cons, List.length_append, List.cons_prefix_cons,
      List.nil_prefix, List.drop_succ_cons, List.drop_zero]
    by_cases hbom : 239 = a ∧ 187 = b ∧ 191 = c
    · simp [hbom]
    · simp [hbom]

theorem cJsonParse_newline (s : Bytes) : cJsonParse strtod (s ++ [10]) = cJsonParse strtod s := by
  by_cases hs : s = [0xEF, 0xBB, 0xBF]
  · subst hs
    rfl
  · unfold cJsonParse parse valueStart
    rw [skipUtf8Bom_newline hs, List.dropWhile_append]
    split
    · rename_i hblank
      have hnewline : ([10] : Bytes).dropWhile isBlank = [] := by decide
      rw [hnewline, List.isEmpty_iff.mp hblank]
    · rename_i hvalue
      exact parseValue_newline (fun h => hvalue (List.isEmpty_iff.mpr h)) _

/-! ## A text that has been cut -/

theorem dots_eq : str "..." = [46, 46, 46] := by decide

/-- What a text begins with, cut after `n` bytes of the text, and three dots. -/
def cutStart (n : Nat) (s : Bytes) : Bytes :=
  (valueStart s).take (n - (s.length - (valueStart s).length)) ++ str "..."

theorem valueStart_length_le (s : Bytes) : (valueStart s).length ≤ s.length := by
  refine Nat.le_trans (List.dropWhile_suffix isBlank).length_le ?_
  unfold skipUtf8Bom
  split
  · rw [List.length_drop]
    omega
  · exact Nat.le_refl _

theorem valueStart_cut {n : Nat} (hn : 4 ≤ n) {s : Bytes} (hs : n ≤ s.length) :
    valueStart (s.take n ++ str "...") = cutStart n s := by
  have hdots : Ends isBlank (str "...") := by
    rw [dots_eq]
    exact ends_cons_iff.mpr (by decide)
  obtain ⟨a, b, c, d, t, rfl⟩ : ∃ a b c d t, s = a :: b :: c :: d :: t := by
    rcases s with _ | ⟨a, _ | ⟨b, _ | ⟨c, _ | ⟨d, t⟩⟩⟩⟩
    · simp at hs; omega
    · simp at hs; omega
    · simp at hs; omega
    · simp at hs; omega
    · exact ⟨a, b, c, d, t, rfl⟩
  obtain ⟨m, rfl⟩ : ∃ m, n = m + 4 := ⟨n - 4, by omega⟩
  unfold cutStart valueStart skipUtf8Bom
  simp only [List.take_succ_cons, List.cons_append, List.length_cons, List.length_append,
    List.cons_prefix_cons, List.nil_prefix, List.drop_succ_cons, List.drop_zero]
  by_cases hbom : 239 = a ∧ 187 = b ∧ 191 = c
  · have hcut := dropWhile_cut (d :: t) hdots (m + 1)
    have hle : ((d :: t).dropWhile isBlank).length ≤ (d :: t).length :=
      (List.dropWhile_suffix isBlank).length_le
    rw [List.take_succ_cons, List.cons_append] at hcut
    rw [List.length_cons] at hcut hle
    simp only [hbom, and_true, Nat.le_add_left, if_true]
    rw [hcut]
    congr 2
    omega
  · have hcut := dropWhile_cut (a :: b :: c :: d :: t) hdots (m + 4)
    simp only [List.take_succ_cons, List.cons_append, List.length_cons] at hcut
    simp only [hbom, and_true, and_false, if_false]
    exact hcut

/-- A value other than a number is read of a text that has been cut exactly when
it is read of the whole text, and ends before the cut. -/
theorem cJsonParse_cut_iff {n : Nat} (hn : 4 ≤ n) {s : Bytes} (hs : n ≤ s.length)
    (hnumber : startsNumber (valueStart s) = false) (v : CJson) :
    cJsonParse strtod (s.take n ++ str "...") = some v ↔
      ∃ rest, parse strtod s = some (v, rest) ∧ s.length ≤ n + rest.length := by
  have hcutNumber : startsNumber (cutStart n s) = false := by
    unfold cutStart
    generalize n - (s.length - (valueStart s).length) = k
    cases hw : valueStart s with
    | nil => rw [List.take_nil]; decide
    | cons c w =>
      cases k with
      | zero => rw [List.take_zero]; decide
      | succ k =>
        rw [hw] at hnumber
        exact hnumber
  have hdots : ∀ c ∈ str "...", isLastByte c = false := by simp [dots_eq, isLastByte]
  have hcut := (@parseValue_closed strtod CJSON_NESTING_LIMIT).cut_iff hdots
    (n - (s.length - (valueStart s).length)) (valueStart s) v
  have hstart : startsNumber ((valueStart s).take (n - (s.length - (valueStart s).length)) ++
      str "...") = false := hcutNumber
  simp only [hstart, hnumber, Bool.false_eq_true, if_false] at hcut
  have hle := valueStart_length_le s
  rw [cJsonParse, map_fst_eq_some_iff, parse, valueStart_cut hn hs, cutStart, hcut, parse]
  constructor
  · rintro ⟨rest, hparse, hlen⟩
    have hshrinks := @parseValue_shrinks strtod _ _ v rest hparse
    exact ⟨rest, hparse, by omega⟩
  · rintro ⟨rest, hparse, hlen⟩
    have hshrinks := @parseValue_shrinks strtod _ _ v rest hparse
    exact ⟨rest, hparse, by omega⟩

end

end TmatePlugin.L1.Json
