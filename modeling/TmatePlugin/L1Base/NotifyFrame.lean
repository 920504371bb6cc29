import TmatePlugin.L1Base.CJsonPrint
import TmatePlugin.L1Base.WsConnection

/-!
# Notifications on the wire

A notification is a cJSON tree that is printed and sent as a WebSocket text
(`SendPluginNotify` in MainSrc/WebSocketClient.cpp). A text that is not valid UTF-8
is not sent.

* `run_escape`: escaping does not change what the UTF-8 table makes of a string.
* `text_valid_iff`: the text of a tree is valid exactly when its strings are.
* `notification_arrives`: a notification is sent exactly when the connection is open
  and its strings are valid, and then the peer's `cJSON_Parse` has the tree, whatever
  the cuts of the stream.
-/
namespace TmatePlugin.L1.Json

open CString Utf8Validator Utf8

/-! ## ASCII in the table -/

theorem pending_ge {q : Nat} {r : Nat × Nat} {rs : List (Nat × Nat)} (h : pending q = some (r :: rs)) :
    128 ≤ r.1 := by
  unfold pending at h
  split at h <;> cases h <;> decide

/-- Between two characters a byte of ASCII is one; in a character it is refused. -/
theorem next_ascii {q : Nat} {b : UInt8} (hb : b.toNat < 128) :
    next q b = if q = 0 then 0 else utf8Reject := by
  by_cases hq : q = 0
  · subst hq
    rw [if_pos rfl, ← pending_eq_nil_iff, pending_first]
    exact ranges_tails.1 (by omega)
  · rw [if_neg hq]
    rcases hpending : pending q with _ | _ | ⟨r, rs⟩
    · exact next_of_pending_none hpending b
    · exact absurd (pending_eq_nil_iff.mp hpending) hq
    · have hnone : pending (next q b) = none := by
        rw [next_pending hpending]
        have := pending_ge hpending
        exact if_neg (by omega)
      by_contra hne
      have hsome := pending_isSome (next_lt q b) hne
      rw [hnone] at hsome
      cases hsome

def Ascii (s : Bytes) : Prop := ∀ b ∈ s, b.toNat < 128

theorem run_ascii {s : Bytes} (hs : Ascii s) (hne : s ≠ []) (q : Nat) :
    CodeWords.run next q s = if q = 0 then 0 else utf8Reject := by
  induction s generalizing q with
  | nil => exact absurd rfl hne
  | cons b s ih =>
    have hstep : CodeWords.run next q (b :: s) = CodeWords.run next (next q b) s := rfl
    rw [hstep, next_ascii (hs b List.mem_cons_self)]
    by_cases hnil : s = []
    · rw [hnil]
      rfl
    · rw [ih (fun b hb => hs b (List.mem_cons_of_mem _ hb)) hnil]
      by_cases hq : q = 0
      · rw [if_pos hq, if_pos rfl]
      · rw [if_neg hq, if_neg (by decide)]

theorem escapeByte_ascii {c : UInt8} (hc : plainByte c = false) :
    c.toNat < 128 ∧ Ascii (escapeByte c) ∧ escapeByte c ≠ [] := by
  have hall : ∀ n : Fin 256, plainByte (UInt8.ofFin n) = false → (UInt8.ofFin n).toNat < 128 ∧
      ((escapeByte (UInt8.ofFin n)).all fun b => decide (b.toNat < 128)) = true ∧
      escapeByte (UInt8.ofFin n) ≠ [] := by decide +kernel
  obtain ⟨hlt, hascii, hne⟩ := hall c.toFin hc
  exact ⟨hlt, fun b hb => of_decide_eq_true (List.all_eq_true.mp hascii b hb), hne⟩

/-- Only ASCII is escaped, into ASCII. -/
theorem run_escape (s : Bytes) (q : Nat) :
    CodeWords.run next q (s.flatMap escapeByte) = CodeWords.run next q s := by
  induction s generalizing q with
  | nil => rfl
  | cons c s ih =>
    have hbyte : CodeWords.run next q (escapeByte c) = next q c := by
      cases hc : plainByte c with
      | true =>
        unfold escapeByte
        rw [if_pos hc]
        rfl
      | false =>
        obtain ⟨hlt, hascii, hne⟩ := escapeByte_ascii hc
        rw [run_ascii hascii hne, next_ascii hlt]
    rw [List.flatMap_cons, CodeWords.run_append, hbyte, ih]
    rfl

theorem valid_iff_run (s : Bytes) : Valid s ↔ CodeWords.run next 0 s = 0 := by
  rw [valid_iff_concat, CodeWords.run_eq_start_iff reads_characters]

/-! ## The text of a tree -/

/-- A part of a text that is valid exactly when `P` holds, and that does not begin
inside a character. -/
structure Passes (u : Bytes) (P : Prop) : Prop where
  start : CodeWords.run next 0 u = 0 ↔ P
  inside : ∀ q ≠ 0, CodeWords.run next q u ≠ 0

theorem passes_nil : Passes [] True where
  start := iff_of_true rfl trivial
  inside _ hq := hq

theorem passes_ascii {u : Bytes} (hu : Ascii u) : Passes u True := by
  by_cases hne : u = []
  · exact hne ▸ passes_nil
  · exact {
      start := iff_of_true (run_ascii hu hne 0) trivial
      inside := fun q hq => by
        rw [run_ascii hu hne, if_neg hq]
        decide }

theorem Passes.append {u v : Bytes} {P Q : Prop} (hu : Passes u P) (hv : Passes v Q) :
    Passes (u ++ v) (P ∧ Q) where
  start := by
    rw [CodeWords.run_append]
    by_cases h : CodeWords.run next 0 u = 0
    · rw [h, hv.start]
      exact (and_iff_right (hu.start.mp h)).symm
    · exact iff_of_false (hv.inside _ h) fun hp => h (hu.start.mpr hp.1)
  inside q hq := by
    rw [CodeWords.run_append]
    exact hv.inside _ (hu.inside q hq)

theorem Passes.congr {u : Bytes} {P Q : Prop} (hu : Passes u P) (h : P ↔ Q) : Passes u Q where
  start := hu.start.trans h
  inside := hu.inside

theorem passes_all {u : Bytes} (h : (u.all fun b => decide (b.toNat < 128)) = true) : Passes u True :=
  passes_ascii fun b hb => of_decide_eq_true (List.all_eq_true.mp h b hb)

theorem passes_stringText (s : Bytes) : Passes (stringText s) (Valid (cStr s)) := by
  have hinside : ∀ q, CodeWords.run next q ((cStr s).flatMap escapeByte ++ [34]) =
      if CodeWords.run next q (cStr s) = 0 then 0 else utf8Reject := by
    intro q
    rw [CodeWords.run_append, run_escape]
    exact next_ascii (by decide)
  exact {
    start := by
      have hfirst : CodeWords.run next 0 (stringText s) =
          CodeWords.run next 0 ((cStr s).flatMap escapeByte ++ [34]) := by
        unfold stringText
        exact congrArg (CodeWords.run next · _) (next_ascii (by decide))
      rw [hfirst, hinside, valid_iff_run]
      split
      · simp_all
      · simp_all [utf8Reject]
    inside := fun q hq => by
      have hfirst : CodeWords.run next q (stringText s) =
          CodeWords.run next utf8Reject ((cStr s).flatMap escapeByte ++ [34]) := by
        unfold stringText
        refine congrArg (CodeWords.run next · _) ((next_ascii (by decide)).trans (if_neg hq))
      rw [hfirst, CodeWords.run_dead fun b => next_of_pending_none rfl b]
      decide }

section
variable {strtod : Strtod} (doubles : Doubles strtod)

theorem passes_numberText (d : Bytes) : Passes (numberText doubles d) True := by
  have hall : ∀ n : Fin 256, isNumberChar (UInt8.ofFin n) = true → (UInt8.ofFin n).toNat < 128 := by
    decide +kernel
  have hchars : ∀ n, doubles.finite d = true → Passes (doubles.format n d) True :=
    fun n hfinite => passes_ascii fun b hb => hall b.toFin (doubles.chars n d hfinite b hb)
  unfold numberText
  by_cases hfinite : doubles.finite d = true
  · rw [if_pos hfinite]
    rcases strtod.read (doubles.format 15 d) with _ | ⟨test, -⟩
    · exact hchars 17 hfinite
    · dsimp only
      by_cases hclose : doubles.close test d = true
      · rw [if_pos hclose]
        exact hchars 15 hfinite
      · rw [if_neg hclose]
        exact hchars 17 hfinite
  · rw [if_neg hfinite]
    exact passes_all (by decide)

theorem passes_whenFormatted {format : Bool} {s : Bytes} (h : (s.all fun b => decide (b.toNat < 128)) = true) :
    Passes (whenFormatted format s) True := by
  cases format with
  | false => exact passes_nil
  | true => exact passes_all h

theorem passes_indent (format : Bool) (k : Nat) : Passes (indent format k) True := by
  refine passes_whenFormatted (List.all_eq_true.mpr fun b hb => ?_)
  rw [List.eq_of_mem_replicate hb]
  decide

/-- A list of parts, each behind a separator. -/
theorem passes_flatMap {α : Type} {f : α → Bytes} {P : α → Prop} {xs : List α} (h : ∀ x ∈ xs, Passes (f x) (P x)) :
    Passes (xs.flatMap f) (∀ x ∈ xs, P x) := by
  induction xs with
  | nil => exact passes_nil.congr (iff_of_true trivial (List.forall_mem_nil _))
  | cons x xs ih =>
    rw [List.flatMap_cons]
    exact ((h x List.mem_cons_self).append (ih fun y hy => h y (List.mem_cons_of_mem _ hy))).congr
      List.forall_mem_cons.symm

theorem passes_text (format : Bool) (t : CJson) (k : Nat) :
    Passes (text doubles format k t) (∀ s ∈ strings t, Valid (cStr s)) := by
  have hcons : ∀ {c : UInt8} {u : Bytes} {P : Prop}, c.toNat < 128 → Passes u P → Passes (c :: u) P := by
    intro c u P hc hu
    exact ((passes_ascii fun b hb => List.mem_singleton.mp hb ▸ hc : Passes [c] True).append hu).congr
      (iff_of_eq (true_and P))
  have hascii : ∀ {u : Bytes} {P : Prop}, (u.all fun b => decide (b.toNat < 128)) = true →
      (P ↔ True) → Passes u P := fun hu hP => (passes_all hu).congr hP.symm
  induction t using CJson.induction generalizing k with
  | null => exact hascii (u := str "null") (by decide) (iff_of_true (List.forall_mem_nil _) trivial)
  | bool b =>
    cases b with
    | false => exact hascii (u := str "false") (by decide) (iff_of_true (List.forall_mem_nil _) trivial)
    | true => exact hascii (u := str "true") (by decide) (iff_of_true (List.forall_mem_nil _) trivial)
  | number d => exact (passes_numberText doubles d).congr (iff_of_true trivial (List.forall_mem_nil _))
  | string v => exact (passes_stringText v).congr (by rw [strings, List.forall_mem_singleton])
  | array items ih =>
    have hitems : Passes (itemsText doubles format (k + 1) items)
        (∀ item ∈ items, ∀ s ∈ strings item, Valid (cStr s)) := by
      cases items with
      | nil => exact passes_nil.congr (iff_of_true trivial (List.forall_mem_nil _))
      | cons item items =>
        rw [itemsText_cons, List.forall_mem_cons]
        refine (ih item List.mem_cons_self (k + 1)).append (passes_flatMap fun next hnext => ?_)
        exact hcons (by decide) (((passes_whenFormatted (by decide)).append
          (ih next (List.mem_cons_of_mem item hnext) (k + 1))).congr (iff_of_eq (true_and _)))
    rw [text, strings, itemStrings_eq, forall_mem_flatMap]
    exact hcons (by decide) ((hitems.append (passes_all (by decide))).congr (iff_of_eq (and_true _)))
  | object members ih =>
    have hmember : ∀ m ∈ members, Passes (memberText doubles format (k + 1) m)
        (∀ s ∈ m.1 :: strings m.2, Valid (cStr s)) := by
      intro m hm
      have htab : Passes (whenFormatted format [9]) True := passes_whenFormatted (by decide)
      have hvalue := hcons (c := 58) (by decide) (htab.append (ih m hm (k + 1)))
      refine (((passes_indent format (k + 1)).append (passes_stringText m.1)).append hvalue).congr ?_
      rw [List.forall_mem_cons, true_and, true_and]
    have hmembers : Passes (membersText doubles format (k + 1) members)
        (∀ m ∈ members, ∀ s ∈ m.1 :: strings m.2, Valid (cStr s)) := by
      cases members with
      | nil => exact passes_nil.congr (iff_of_true trivial (List.forall_mem_nil _))
      | cons m members =>
        rw [membersText_cons, List.forall_mem_cons]
        refine (hmember m List.mem_cons_self).append (((passes_flatMap fun next hnext => ?_).append
          (passes_whenFormatted (by decide))).congr (iff_of_eq (and_true _)))
        exact hcons (by decide) (((passes_whenFormatted (by decide)).append
          (hmember next (List.mem_cons_of_mem m hnext))).congr (iff_of_eq (true_and _)))
    rw [text, strings, memberStrings_eq, forall_mem_flatMap]
    refine hcons (by decide) (((passes_whenFormatted (by decide)).append (hmembers.append
      ((passes_indent format k).append (passes_all (by decide))))).congr ?_)
    rw [true_and, and_true, and_true]

/-- The text of a tree is valid exactly when its strings and keys are. -/
theorem text_valid_iff (format : Bool) (t : CJson) :
    Valid (text doubles format 0 t) ↔ ∀ s ∈ strings t, Valid (cStr s) := by
  rw [valid_iff_run]
  exact (passes_text doubles format t 0).start

end

/-! ## Sending it -/

open TmatePlugin.L1.Frame TmatePlugin.L1.Hybi13 TmatePlugin.L1.WsConnection
open TmatePlugin.L1.WsConnection.Connection PrintBuffer

theorem prepareDataFrame_text (q : Processor) (rng : UInt32) (payload : Bytes) :
    (validate payload = true → ∃ m, q.prepareDataFrame rng { opcode := .text, payload := payload } = .ok m) ∧
      (validate payload = false →
        q.prepareDataFrame rng { opcode := .text, payload := payload } = .error .invalidPayload) := by
  have hcontrol : Opcode.text.isControl = false := rfl
  unfold Processor.prepareDataFrame
  simp only [hcontrol, Bool.false_eq_true, if_false, true_and]
  constructor
  · intro hvalid
    rw [if_neg (by rw [hvalid]; nofun)]
    exact ⟨_, rfl⟩
  · exact fun hinvalid => if_pos hinvalid

/-- What is sent as a text reaches a peer that stands between two messages, however the
stream is cut, and leaves it there. -/
theorem text_arrives {q : Processor} {rng : UInt32} {payload : Bytes} {m : Message} {limit : Nat}
    (hsend : q.prepareDataFrame rng { opcode := .text, payload := payload } = .ok m)
    (hlen : payload.length < 2 ^ 64) (hlimit : payload.length ≤ limit) {peer : Processor}
    (hidle : Idle peer ⟨!q.server, limit, none⟩) (bufs : List Bytes) (hbufs : bufs.flatten = m.wire) :
    ∃ peer', peer.handleReads bufs = .ok ([{ opcode := .text, payload := payload }], .ok peer') ∧
      Idle peer' ⟨!q.server, limit, none⟩ := by
  obtain ⟨hdata, htext, hwire⟩ := prepareDataFrame_wire hsend
  let f : WireFrame :=
    { opcode := .text, fin := true, key := if q.server then none else some rng, payload := payload }
  have hsent : SentFrame q.server f := sentFrame_data q.server rng hdata hlen htext
  have hwire' : bufs.flatten = wireBytes [f] := by
    rw [hbufs, hwire]
    exact (List.append_nil _).symm
  have haccept : Assembly.acceptAll ⟨!q.server, limit, none⟩ [f] =
      ([{ opcode := .text, payload := payload }], .ok ⟨!q.server, limit, none⟩) := by
    refine acceptAll_sent rfl (List.forall_mem_singleton.mpr ?_)
      (List.forall_mem_singleton.mpr fun _ => ⟨.inl rfl, hlimit⟩)
    rw [Bool.not_not]
    exact hsent
  obtain ⟨peer', hread, hidle'⟩ := read_taken hidle (List.forall_mem_singleton.mpr hlen) haccept
  rw [Processor.handleReads_eq hidle.hungry, hwire', hread]
  exact ⟨peer', rfl, hidle'⟩

section
variable {strtod : Strtod} (doubles : Doubles strtod)

/-- A notification is sent exactly when the connection is open and its strings and keys
are valid UTF-8. Then a peer that stands between two messages gets its text, whatever
the cuts of the stream, and reads the tree from it, unless that is nested too deeply. -/
theorem notification_arrives {t : CJson} {format : Bool} {out : Cells}
    (hprint : print doubles format t = .ok out) (c : Connection) (rng : UInt32) {limit : Nat}
    (hlimit : (cellsText out).length ≤ limit) :
    (c.state = .opened → (∀ s ∈ strings t, Valid (cStr s)) →
      ∃ f m, c.send rng .text (cellsText out) = .ok (c.writePush f { msg := m }) ∧
        (∀ peer, Idle peer ⟨!c.isServer, limit, none⟩ → ∀ bufs : List Bytes, bufs.flatten = m.wire →
          ∃ peer', peer.handleReads bufs = .ok ([{ opcode := .text, payload := cellsText out }], .ok peer') ∧
            Idle peer' ⟨!c.isServer, limit, none⟩) ∧
        cJsonParse strtod (cellsText out) =
          if nesting t ≤ CJSON_NESTING_LIMIT then some (readBack doubles t) else none) ∧
      (c.state = .opened → ¬ (∀ s ∈ strings t, Valid (cStr s)) →
        c.send rng .text (cellsText out) = .error (.processor .invalidPayload)) ∧
      (c.state ≠ .opened → c.send rng .text (cellsText out) = .error .invalidState) := by
  have htext := print_ok doubles hprint
  have hlen : (cellsText out).length < 2 ^ 64 := by
    rw [print_eq] at hprint
    by_cases hfits : (text doubles format 0 t).length + 2 ≤ INT_MAX
    · rw [htext]
      rw [INT_MAX_eq] at hfits
      omega
    · rw [if_neg hfits] at hprint
      cases hprint
  have hvalid : validate (cellsText out) = true ↔ ∀ s ∈ strings t, Valid (cStr s) := by
    rw [validate_iff, htext, text_valid_iff]
  obtain ⟨hsend, hrefuse⟩ := prepareDataFrame_text c.processor rng (cellsText out)
  have hchecked : c.state = .opened →
      c.send rng .text (cellsText out) = (c.sendData rng .text (cellsText out)).mapError .processor :=
    fun hopened => if_pos (by rw [checkOpen, hopened]; rfl)
  refine ⟨fun hopened h => ?_, fun hopened h => ?_, fun hne => if_neg (by simpa [checkOpen] using hne)⟩
  · obtain ⟨m, hm⟩ := hsend (hvalid.mpr h)
    refine ⟨c.frameOf rng .text true (cellsText out), m, ?_,
      fun peer hidle bufs hbufs => text_arrives hm hlen hlimit hidle bufs hbufs, ?_⟩
    · rw [hchecked hopened, sendData, hm]
      rfl
    · rw [htext]
      exact cJsonParse_text doubles format t
  · rw [hchecked hopened, sendData, hrefuse (Bool.eq_false_iff.mpr fun hv => h (hvalid.mp hv))]
    rfl

end

/-- A state whose value breaks off in the middle of a character is not sent. -/
def brokenState : CJson := .object [(str "value", .string [0x63, 0x61, 0x66, 0xC3])]

theorem notification_arrives_broken :
    ({ processor := .new false 32000000 } : Connection).send 1 .text
        (cellsText (terminated (text unsignedDoubles false 0 brokenState))) =
      .error (.processor .invalidPayload) := by
  have hprint := print_eq unsignedDoubles false brokenState
  rw [if_pos (by decide +kernel)] at hprint
  refine (notification_arrives unsignedDoubles hprint { processor := .new false 32000000 } 1 (Nat.le_refl _)).2.1 rfl
    fun h => ?_
  have hvalue := (validate_iff _).mpr (h [0x63, 0x61, 0x66, 0xC3] (by decide))
  exact absurd hvalue (by decide +kernel)

end TmatePlugin.L1.Json
