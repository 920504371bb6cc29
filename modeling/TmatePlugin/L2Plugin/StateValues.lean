import TmatePlugin.L1Base.CJsonParse
import TmatePlugin.L2Plugin.ReadOutput

/-!
# The values of the states

`GetStatesOutput` reads the output file of a state with `ReadOutput`, which keeps
1000 bytes of it. For web and ssh the text is then logged as a format and parsed,
and a NULL item is not added to the object.

* `cStr_truncateOutput`: what the log and the parser are given.
* `allStates_isOk_iff`: the five objects are built exactly when the log has no
  conversion specification to read.
* `reported_iff`: the object is built and has its value, and that of the whole
  document, exactly when it is not a link, or is logged and the document has been
  read before the cut.
-/
namespace TmatePlugin.L2.StateValues

open CString Outcome
open TmatePlugin.L1.Json
open TmatePlugin.L2.StateFiles
open TmatePlugin.L2.Scripts
open TmatePlugin.L2.ReadOutput

/-! ## The text that is logged and parsed -/

theorem cStr_newline (s : Bytes) : cStr (s ++ [10]) = cStr s ∨ cStr (s ++ [10]) = cStr s ++ [10] := by
  have hnewline : cStr [10] = [10] := by decide
  unfold cStr at hnewline ⊢
  rw [List.takeWhile_append, hnewline]
  split
  · rename_i hall
    rw [(List.takeWhile_prefix _).eq_of_length hall]
    exact .inr rfl
  · exact .inl rfl

/-- The document of the file is the document of its lines. -/
theorem cJsonParse_chomp (strtod : Strtod) (content : Bytes) :
    cJsonParse strtod (cStr content) = cJsonParse strtod (cStr (chomp content)) := by
  unfold chomp
  split
  · rename_i hlast
    have hsplit : content = content.dropLast ++ [10] := by
      have hne : content ≠ [] := by rintro rfl; cases hlast
      rw [List.getLast?_eq_some_getLast hne, Option.some.injEq] at hlast
      rw [← hlast, List.dropLast_append_getLast hne]
    conv_lhs => rw [hsplit]
    rcases cStr_newline content.dropLast with h | h
    · rw [h]
    · rw [h, cJsonParse_newline]
  · rfl

/-- Cutting a string at or before its terminator cuts what a C function sees of
it, and what is added comes after that. -/
theorem cStr_take_append {n : Nat} {s : Bytes} (hs : n ≤ s.length) (t : Bytes) :
    cStr (s.take n ++ t) = if n ≤ (cStr s).length then (cStr s).take n ++ cStr t else cStr s := by
  induction s generalizing n with
  | nil =>
    have hn : n = 0 := Nat.le_zero.mp hs
    rw [hn]
    rfl
  | cons c s ih =>
    cases n with
    | zero => rfl
    | succ n =>
      have hrec := ih (Nat.le_of_succ_le_succ hs)
      unfold cStr at hrec ⊢
      rw [List.take_succ_cons, List.cons_append]
      by_cases hc : c = 0
      · rw [List.takeWhile_cons_of_neg (by simp [hc]), List.takeWhile_cons_of_neg (by simp [hc])]
        rfl
      · rw [List.takeWhile_cons_of_pos (by simp [hc]), List.takeWhile_cons_of_pos (by simp [hc]), hrec,
          List.length_cons]
        by_cases hlen : n ≤ (s.takeWhile (· ≠ 0)).length
        · rw [if_pos hlen, if_pos (by omega)]
          rfl
        · rw [if_neg hlen, if_neg (by omega)]

/-- The text has been cut before its terminator. -/
def CutOff (output : Bytes) : Prop := 1000 < output.length ∧ 1000 ≤ (cStr output).length

instance (output : Bytes) : Decidable (CutOff output) := by unfold CutOff; exact inferInstance

/-- What `message.c_str()` is. -/
theorem cStr_truncateOutput (output : Bytes) :
    cStr (truncateOutput output) =
      if CutOff output then (cStr output).take 1000 ++ str "..." else cStr output := by
  have hdots : cStr (str "...") = str "..." := by decide
  unfold truncateOutput
  by_cases hlong : 1000 < output.length
  · rw [if_pos hlong, cStr_take_append (Nat.le_of_lt hlong), hdots]
    by_cases htext : 1000 ≤ (cStr output).length
    · rw [if_pos htext, if_pos ⟨hlong, htext⟩]
    · rw [if_neg htext, if_neg (fun h : CutOff output => htext h.2)]
  · rw [if_neg hlong, if_neg (fun h : CutOff output => hlong h.1)]

/-- The dots are no part of a conversion specification that would be defined. -/
theorem plainFormat_append_dots (s : Bytes) : plainFormat (s ++ str "...") = plainFormat s := by
  fun_induction plainFormat s with
  | case1 => decide
  | case2 c =>
    have hdots : plainFormat (46 :: str "..") = true := by decide
    show plainFormat (c :: 46 :: str "..") = _
    rw [plainFormat]
    by_cases hc : c = 37
    · simp [hc]
    · rw [if_neg hc, hdots, decide_eq_true hc]
  | case3 c' s ih =>
    rw [List.cons_append, List.cons_append, plainFormat, if_pos rfl, ih]
  | case4 c c' s hc ih =>
    rw [List.cons_append, List.cons_append, plainFormat, if_neg hc, ← ih, List.cons_append]

/-- The format is plain when the first 1000 bytes of the text are. -/
theorem plainFormat_message (output : Bytes) :
    plainFormat (cStr (truncateOutput output)) = plainFormat ((cStr output).take 1000) := by
  rw [cStr_truncateOutput]
  by_cases hcut : CutOff output
  · rw [if_pos hcut, plainFormat_append_dots]
  · have hle := cStr_length_le output
    have hshort : (cStr output).length ≤ 1000 := by
      unfold CutOff at hcut
      omega
    rw [if_neg hcut, List.take_of_length_le hshort]

/-- What the log is given of a file with this content is a plain format. -/
def plainContent (content : Bytes) : Bool := plainFormat ((cStr (chomp content)).take 1000)

/-! ## Numbers -/

section
variable (strtod : Strtod)

theorem cJsonParse_number_iff {s : Bytes} (hs : startsNumber (valueStart s) = true) (v : CJson) :
    cJsonParse strtod s = some v ↔
      ∃ value k, strtod.read (numberChars (valueStart s)) = some (value, k) ∧ v = .number value := by
  rw [cJsonParse, parse, parseValue_number hs, parseNumber]
  cases strtod.read (numberChars (valueStart s)) with
  | none => simp
  | some r =>
    obtain ⟨value, k⟩ := r
    simp [eq_comm]

/-- Three dots alone are no value. -/
theorem parseValue_dots (depth : Nat) : parseValue strtod depth (str "...") = none := by
  rw [dots_eq, parseValue_eq, parseValueWith_cons]
  rfl

/-- A number that has been cut is read from the bytes before the cut and the dots. -/
theorem cJsonParse_number_cut_iff {s : Bytes} (hlen : 1000 ≤ s.length)
    (hs : startsNumber (valueStart s) = true) (v : CJson) :
    cJsonParse strtod (s.take 1000 ++ str "...") = some v ↔
      startsNumber (cutStart 1000 s) = true ∧
        ∃ value k, strtod.read (numberChars (cutStart 1000 s)) = some (value, k) ∧
          v = .number value := by
  have hstart : valueStart (s.take 1000 ++ str "...") = cutStart 1000 s :=
    valueStart_cut (by decide) hlen
  cases hcut : startsNumber (cutStart 1000 s) with
  | true =>
    rw [cJsonParse_number_iff strtod (hstart ▸ hcut), hstart]
    simp
  | false =>
    -- nothing of the number comes before the cut
    have hdots : cutStart 1000 s = str "..." := by
      unfold cutStart at hcut ⊢
      revert hcut
      generalize 1000 - (s.length - (valueStart s).length) = k
      intro hcut
      cases hw : valueStart s with
      | nil => rw [hw] at hs; cases hs
      | cons c w =>
        cases k with
        | zero => rfl
        | succ k =>
          rw [hw] at hs hcut
          have hsame : startsNumber ((c :: w).take (k + 1) ++ str "...") = startsNumber (c :: w) := rfl
          rw [hsame, hs] at hcut
          cases hcut
    rw [cJsonParse, parse, hstart, hdots, parseValue_dots]
    simp

/-- The number is the same when its bytes are cut after byte 1000 of the text, and
dots follow. -/
def NumberKept (text : Bytes) : Prop :=
  startsNumber (cutStart 1000 text) = true ∧
    ∃ value k, strtod.read (numberChars (cutStart 1000 text)) = some (value, k) ∧
      ∀ value' k', strtod.read (numberChars (valueStart text)) = some (value', k') → value = value'

/-! ## The document -/

/-- The parser finds the value of the document in what `ReadOutput` has left of
the content. -/
def ReadsWhole (content : Bytes) : Prop :=
  let text := cStr (chomp content)
  if CutOff (chomp content) then
    if startsNumber (valueStart text) then NumberKept strtod text
    else ∃ value rest, parse strtod text = some (value, rest) ∧ text.length ≤ 1000 + rest.length
  else (cJsonParse strtod text).isSome = true

/-- The same, computed. -/
def readsWhole (content : Bytes) : Bool :=
  let text := cStr (chomp content)
  if CutOff (chomp content) then
    if startsNumber (valueStart text) then
      startsNumber (cutStart 1000 text) &&
        (strtod.read (numberChars (cutStart 1000 text))).any fun r =>
          (strtod.read (numberChars (valueStart text))).all fun r' => r.1 = r'.1
    else (parse strtod text).any fun r => text.length ≤ 1000 + r.2.length
  else (cJsonParse strtod text).isSome

theorem readsWhole_iff (content : Bytes) : readsWhole strtod content = true ↔ ReadsWhole strtod content := by
  unfold readsWhole ReadsWhole NumberKept
  simp only
  generalize cStr (chomp content) = text
  by_cases hcut : CutOff (chomp content)
  · rw [if_pos hcut, if_pos hcut]
    split
    · simp only [Bool.and_eq_true, Option.any_eq_true, Option.all_eq_true, decide_eq_true_eq,
        Prod.exists, Prod.forall]
    · simp only [Option.any_eq_true, decide_eq_true_eq, Prod.exists]
  · rw [if_neg hcut, if_neg hcut]

instance (content : Bytes) : Decidable (ReadsWhole strtod content) :=
  decidable_of_iff _ (readsWhole_iff strtod content)

/-- The parser is given a value, and that of the document when there is one. -/
def ParsedAs (content message : Bytes) : Prop :=
  ∃ value, cJsonParse strtod (cStr message) = some value ∧
    ∀ document, cJsonParse strtod (cStr content) = some document → value = document

theorem parsedAs_iff (content : Bytes) :
    ParsedAs strtod content (truncateOutput (chomp content)) ↔ ReadsWhole strtod content := by
  unfold ParsedAs ReadsWhole
  rw [cJsonParse_chomp strtod content, cStr_truncateOutput]
  simp only
  by_cases hcut : CutOff (chomp content)
  · rw [if_pos hcut, if_pos hcut]
    have hlen := hcut.2
    generalize cStr (chomp content) = text at hlen
    cases hnumber : startsNumber (valueStart text) with
    | true =>
      rw [if_pos rfl, NumberKept]
      constructor
      · rintro ⟨v, hv, hdocument⟩
        obtain ⟨hstarts, value, k, hread, rfl⟩ :=
          (cJsonParse_number_cut_iff strtod hlen hnumber v).mp hv
        refine ⟨hstarts, value, k, hread, fun value' k' hread' => ?_⟩
        have hwhole := (cJsonParse_number_iff strtod hnumber _).mpr ⟨value', k', hread', rfl⟩
        exact CJson.number.inj (hdocument _ hwhole)
      · rintro ⟨hstarts, value, k, hread, hsame⟩
        refine ⟨.number value, (cJsonParse_number_cut_iff strtod hlen hnumber _).mpr
          ⟨hstarts, value, k, hread, rfl⟩, fun document hdocument => ?_⟩
        obtain ⟨value', k', hread', rfl⟩ := (cJsonParse_number_iff strtod hnumber document).mp hdocument
        rw [hsame value' k' hread']
    | false =>
      rw [if_neg (by simp)]
      constructor
      · rintro ⟨v, hv, -⟩
        obtain ⟨rest, hparse, hbefore⟩ := (cJsonParse_cut_iff (by decide) hlen hnumber v).mp hv
        exact ⟨v, rest, hparse, hbefore⟩
      · rintro ⟨v, rest, hparse, hbefore⟩
        refine ⟨v, (cJsonParse_cut_iff (by decide) hlen hnumber v).mpr ⟨rest, hparse, hbefore⟩,
          fun document hdocument => ?_⟩
        rw [cJsonParse, hparse] at hdocument
        exact Option.some.inj hdocument
  · rw [if_neg hcut, if_neg hcut, Option.isSome_iff_exists]
    constructor
    · rintro ⟨v, hv, -⟩
      exact ⟨v, hv⟩
    · rintro ⟨v, hv⟩
      exact ⟨v, hv, fun document hdocument => Option.some.inj (hv.symm.trans hdocument)⟩

/-! ## The object -/

/-- The object of a state has its name and its value; for web and ssh the value is
that of the document in the file, when there is one. -/
structure Reported (f : TmateState) (content : Bytes) (object : CJson) : Prop where
  name : object.getObjectItem JKEY_NAME = some (.string (TmateState.name f))
  value : ∃ value, object.getObjectItem JKEY_VALUE = some value
  document : f = .web ∨ f = .ssh → ∀ document, cJsonParse strtod (cStr content) = some document →
    object.getObjectItem JKEY_VALUE = some document

/-- The object with the value `value`, or without one. -/
def withValue (f : TmateState) (value : Option CJson) : CJson :=
  match value with
  | some value => .object [(JKEY_NAME, .string (TmateState.name f)), (JKEY_VALUE, value)]
  | none => .object [(JKEY_NAME, .string (TmateState.name f))]

theorem withValue_name (f : TmateState) (value : Option CJson) :
    (withValue f value).getObjectItem JKEY_NAME = some (.string (TmateState.name f)) := by
  cases value <;> rfl

theorem withValue_value (f : TmateState) (value : Option CJson) :
    (withValue f value).getObjectItem JKEY_VALUE = value := by
  cases value <;> rfl

theorem testState_eq (parse : Bytes → Option CJson) (f : TmateState) (message : Bytes) :
    testState parse f message =
      if f = .web ∨ f = .ssh then
        if plainFormat (cStr message) then .ok (withValue f (parse (cStr message))) else fault
      else .ok (withValue f (some (.string (cStr message)))) := by
  have hkeys : cStr JKEY_NAME = JKEY_NAME ∧ cStr JKEY_VALUE = JKEY_VALUE := by decide
  have hstate : cStr (TmateState.name f) = TmateState.name f := by cases f <;> decide
  have hlink : testState parse .web message =
        (if plainFormat (cStr message) then .ok (withValue .web (parse (cStr message))) else fault) ∧
      testState parse .ssh message =
        (if plainFormat (cStr message) then .ok (withValue .ssh (parse (cStr message))) else fault) := by
    simp only [testState, UTL_LOG_INFO, CJson.addStringToObject, CJson.addItemToObject, hkeys.1,
      hkeys.2]
    cases plainFormat (cStr message) with
    | true => cases parse (cStr message) <;> exact ⟨rfl, rfl⟩
    | false => exact ⟨rfl, rfl⟩
  cases f with
  | web => exact hlink.1
  | ssh => exact hlink.2
  | status | version | sshString =>
    simp only [testState, CJson.addStringToObject, CJson.addItemToObject, hkeys.1, hkeys.2, hstate]
    rfl

/-- The object of a link is built when the log can format the message. -/
theorem testState_link_iff (parse : Bytes → Option CJson) {f : TmateState} (hf : f = .web ∨ f = .ssh)
    (content : Bytes) (object : CJson) :
    testState parse f (truncateOutput (chomp content)) = .ok object ↔
      plainContent content = true ∧
        object = withValue f (parse (cStr (truncateOutput (chomp content)))) := by
  rw [testState_eq, if_pos hf, plainFormat_message, plainContent]
  cases plainFormat ((cStr (chomp content)).take 1000) with
  | true => simp [eq_comm]
  | false => simp [fault]

theorem testState_string (parse : Bytes → Option CJson) {f : TmateState} (hf : ¬ (f = .web ∨ f = .ssh))
    (message : Bytes) :
    testState parse f message = .ok (withValue f (some (.string (cStr message)))) := by
  rw [testState_eq, if_neg hf]

section
variable {σ : Type} (os : Os σ)

/-- The content of the state's output file; a file that cannot be opened reads as an
empty one. -/
def stateContent (path : Bytes) (f : TmateState) (s : σ) : Bytes :=
  (os.readFile (cStr (scriptOutput (stateScript path f))) s).getD []

theorem getStatesOutput_eq (parse : Bytes → Option CJson) (path : Bytes) (f : TmateState) (s : σ) :
    getStatesOutput os parse path f s =
      testState parse f (truncateOutput (chomp (stateContent os path f s))) := by
  have hname : scriptOutput (stateScript path f) ≠ [] := by
    unfold scriptOutput
    exact List.append_ne_nil_of_right_ne_nil _ (by decide)
  rw [getStatesOutput, readOutput_eq os s hname, stateContent]

/-- The log has no conversion specification to read in the web and ssh outputs. -/
def linksPlain (path : Bytes) (s : σ) : Bool :=
  [TmateState.web, .ssh].all fun f => plainContent (stateContent os path f s)

theorem linksPlain_iff (path : Bytes) (s : σ) :
    linksPlain os path s = true ↔
      ∀ f, f = .web ∨ f = .ssh → plainContent (stateContent os path f s) = true := by
  simp [linksPlain]

/-- The states of an ack are all built when the two links can be logged. -/
theorem allStates_isOk_iff (parse : Bytes → Option CJson) (path : Bytes) (s : σ) :
    (∃ states, allStates os parse path s = .ok states) ↔ linksPlain os path s = true := by
  have hone : ∀ f, (∃ object, getStatesOutput os parse path f s = .ok object) ↔
      (f = .web ∨ f = .ssh → plainContent (stateContent os path f s) = true) := by
    intro f
    rw [getStatesOutput_eq]
    by_cases hf : f = .web ∨ f = .ssh
    · simp [testState_link_iff parse hf, hf]
    · simp [testState_string parse hf, hf]
  have hall : (∃ states, allStates os parse path s = .ok states) ↔
      ∃ states, (sendOrder.mapM fun f => getStatesOutput os parse path f s) = .ok states := by
    rw [allStates]
    constructor
    · intro h
      obtain ⟨_, h⟩ := h
      obtain ⟨states, hstates, -⟩ := bind_eq_ok.mp h
      exact ⟨states, hstates⟩
    · intro h
      obtain ⟨states, hstates⟩ := h
      exact ⟨.array states, bind_eq_ok.mpr ⟨states, hstates, rfl⟩⟩
  rw [hall, mapM_isOk_iff, linksPlain_iff]
  exact ⟨fun h f => (hone f).mp (h f (mem_sendOrder f)), fun h f _ => (hone f).mpr (h f)⟩

/-- A link state is reported exactly when it is logged and its message parses as its
document. -/
theorem reported_link_iff {f : TmateState} (hf : f = .web ∨ f = .ssh) (path : Bytes) (s : σ) :
    (∃ object, getStatesOutput os (cJsonParse strtod) path f s = .ok object ∧
        Reported strtod f (stateContent os path f s) object) ↔
      plainContent (stateContent os path f s) = true ∧
        ReadsWhole strtod (stateContent os path f s) := by
  rw [getStatesOutput_eq, ← parsedAs_iff]
  simp only [testState_link_iff _ hf]
  constructor
  · intro h
    obtain ⟨_, ⟨hplain, rfl⟩, hreported⟩ := h
    obtain ⟨value, hvalue⟩ := hreported.value
    have hdocument := hreported.document hf
    rw [withValue_value] at hvalue hdocument
    exact ⟨hplain, value, hvalue,
      fun document hd => Option.some.inj (hvalue.symm.trans (hdocument document hd))⟩
  · rintro ⟨hplain, value, hvalue, hdocument⟩
    refine ⟨_, ⟨hplain, rfl⟩, withValue_name f _, ⟨value, by rw [withValue_value, hvalue]⟩,
      fun _ document hd => ?_⟩
    rw [withValue_value, hvalue, hdocument document hd]

/-- The object of a state is built and has its value, and that of the whole document,
exactly when the state is not a link, or the log has no conversion specification to
read and the parser finds the value of the document in what `ReadOutput` has left
of it. -/
theorem reported_iff (path : Bytes) (f : TmateState) (s : σ) :
    (∃ object, getStatesOutput os (cJsonParse strtod) path f s = .ok object ∧
        Reported strtod f (stateContent os path f s) object) ↔
      (f = .web ∨ f = .ssh → plainContent (stateContent os path f s) = true ∧
        ReadsWhole strtod (stateContent os path f s)) := by
  by_cases hf : f = .web ∨ f = .ssh
  · rw [reported_link_iff strtod os hf]
    exact ⟨fun h _ => h, fun h => h hf⟩
  · refine ⟨fun _ h => absurd h hf, fun _ => ?_⟩
    rw [getStatesOutput_eq, testState_string _ hf]
    exact ⟨_, rfl, withValue_name f _, ⟨_, withValue_value f _⟩, fun h => absurd h hf⟩

end

/-! ## What the object carries -/

/-- The value in the object is what the file holds: its text, or its document. -/
def Carries (f : TmateState) (content : Bytes) (object : CJson) : Prop :=
  if f = .web ∨ f = .ssh then
    ∃ document, cJsonParse strtod (cStr content) = some document ∧
      object.getObjectItem JKEY_VALUE = some document
  else object.getObjectItem JKEY_VALUE = some (.string (chomp content))

/-- A text that `ReadOutput` leaves as it is: nothing is cut off, or three dots are. -/
def KeptWhole (text : Bytes) : Prop := text.length ≤ 1000 ∨ text = text.take 1000 ++ str "..."

instance (text : Bytes) : Decidable (KeptWhole text) := by unfold KeptWhole; exact inferInstance

theorem truncateOutput_eq_self_iff (text : Bytes) : truncateOutput text = text ↔ KeptWhole text := by
  unfold truncateOutput KeptWhole
  split
  · rename_i hlong
    rw [or_iff_right (Nat.not_le.mpr hlong), eq_comm]
  · rename_i hshort
    simp [Nat.le_of_not_lt hshort]

/-- A file whose object carries what it holds. -/
def Sendable (f : TmateState) (content : Bytes) : Prop :=
  if f = .web ∨ f = .ssh then
    plainContent content = true ∧ ReadsWhole strtod content ∧
      (cJsonParse strtod (cStr content)).isSome = true
  else KeptWhole (chomp content) ∧ (0 : UInt8) ∉ chomp content

/-- What a C function sees of the text is the text. -/
theorem cStr_message_iff (text : Bytes) :
    cStr (truncateOutput text) = text ↔ KeptWhole text ∧ (0 : UInt8) ∉ text := by
  rw [← truncateOutput_eq_self_iff]
  constructor
  · intro h
    have hnul : (0 : UInt8) ∉ text := by rw [← h]; exact cStr_no_nul _
    refine ⟨?_, hnul⟩
    have hmessage : (0 : UInt8) ∉ truncateOutput text := by
      unfold truncateOutput
      split
      · rw [List.mem_append, not_or]
        exact ⟨fun hmem => hnul (List.mem_of_mem_take hmem), by decide⟩
      · exact hnul
    rw [cStr_eq_self_iff.mpr hmessage] at h
    exact h
  · rintro ⟨hwhole, hnul⟩
    rw [hwhole, cStr_eq_self_iff.mpr hnul]

instance (f : TmateState) (content : Bytes) : Decidable (Sendable strtod f content) := by
  unfold Sendable; exact inferInstance

theorem sendable_iff (f : TmateState) (content : Bytes) :
    (∃ object, testState (cJsonParse strtod) f (truncateOutput (chomp content)) = .ok object ∧
        Carries strtod f content object) ↔ Sendable strtod f content := by
  unfold Carries Sendable
  by_cases hf : f = .web ∨ f = .ssh
  · simp only [if_pos hf, testState_link_iff _ hf]
    rw [← parsedAs_iff, Option.isSome_iff_exists]
    constructor
    · rintro ⟨_, ⟨hplain, rfl⟩, document, hdocument, hvalue⟩
      rw [withValue_value] at hvalue
      refine ⟨hplain, ⟨document, hvalue, fun document' hdocument' => ?_⟩, document, hdocument⟩
      exact Option.some.inj (hdocument.symm.trans hdocument')
    · rintro ⟨hplain, ⟨value, hvalue, hsame⟩, document, hdocument⟩
      refine ⟨_, ⟨hplain, rfl⟩, document, hdocument, ?_⟩
      rw [withValue_value, hvalue, hsame document hdocument]
  · simp only [if_neg hf, testState_string _ hf]
    rw [← cStr_message_iff]
    constructor
    · rintro ⟨_, hobject, hvalue⟩
      cases hobject
      rw [withValue_value] at hvalue
      simpa using hvalue
    · intro h
      refine ⟨_, rfl, ?_⟩
      rw [withValue_value, h]

end

/-- Numbers that are nothing but digits. -/
def digitsStrtod : Strtod where
  read s :=
    let digits := s.takeWhile fun c => 48 ≤ c && c ≤ 57
    if digits = [] then none else some (digits, digits.length)
  consumed s value n h := by
    simp only at h
    split at h
    · cases h
    · rename_i hne
      cases h
      exact ⟨List.length_pos_iff.mpr hne, (List.takeWhile_prefix _).length_le⟩

/-- The document `{"url":"","alias":"N/A"}` of the script is reported. -/
example : Sendable digitsStrtod .web (str "\x7b\"url\":\"\",\"alias\":\"N/A\"\x7d\n") := by decide

/-- A format in it is not. -/
example : ¬ Sendable digitsStrtod .web (str "[\"%s\"]\n") := by decide

theorem stateContent_oneFile (content path : Bytes) (f : TmateState) :
    stateContent (oneFile content) path f () = content := rfl

/-- An array of 1000 blanks is a document of 1002 bytes. -/
theorem exists_long_document : ∃ content : Bytes,
    CutOff (chomp content) ∧ startsNumber (valueStart (cStr (chomp content))) = false ∧
      (cStr (chomp content)).length = 1002 ∧
      ((parse digitsStrtod (cStr (chomp content))).any fun r => r.2 = []) = true :=
  ⟨91 :: (List.replicate 1000 32 ++ [93]), by decide +kernel, by decide +kernel, by decide +kernel,
    by decide +kernel⟩

/-- It has no value. -/
theorem document_without_value :
    ¬ ∀ (strtod : Strtod) (os : Os Unit) (path : Bytes) (f : TmateState) (s : Unit),
      ∃ object, getStatesOutput os (cJsonParse strtod) path f s = .ok object ∧
        Reported strtod f (stateContent os path f s) object := by
  intro h
  obtain ⟨content, hcut, hnumber, hlength, hend⟩ := exists_long_document
  obtain ⟨-, hreads⟩ := (reported_link_iff digitsStrtod (oneFile content) (.inl rfl) [] ()).mp
    (h digitsStrtod (oneFile content) [] .web ())
  rw [stateContent_oneFile] at hreads
  unfold ReadsWhole at hreads
  simp only [if_pos hcut, hnumber, Bool.false_eq_true, if_false, hlength] at hreads
  obtain ⟨value, rest, hparse, hbefore⟩ := hreads
  rw [hparse] at hend
  have hrest : rest = [] := by simpa using hend
  rw [hrest, List.length_nil] at hbefore
  omega

end TmatePlugin.L2.StateValues
