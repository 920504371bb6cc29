import TmatePlugin.Lib.BufferedReader
import TmatePlugin.L1Base.Hybi13

/-!
# The processor on a TCP stream

What `consume` does with a buffer, as a reader that needs some bytes, takes up
those that are there, and goes on to the next part of a frame when it has them.

* `Sound`, `Hungry`: the invariant of the processor, in the loop and between two
  reads.
* `reader`, `reader_lawful`: the processor as a reader of the library; bytes of
  a payload can be unmasked, appended and validated in parts.
* `consumeRound_eq`, `consume_spec`: a round and a call of `consume`.
* `handleReadFrame_eq`, `handleReads_eq`: the reads of a connection are those of
  the reader.
* `handleReads_flatten`: no stream makes the code fault, and the reads into which
  TCP cuts it do not matter.
-/
namespace TmatePlugin.L1.Hybi13

open CString TmatePlugin.L1.Frame Utf8Validator WordBytes

namespace Processor

/-! ## The processor between two rounds -/

/-- What `consume` relies on. -/
structure Sound (q : Processor) : Prop where
  state : q.state ≠ .extension ∧ q.state ≠ .fatalError
  length : q.extendedHeader.bytes.length = maxExtendedHeaderLength
  basic : q.state = .headerBasic → q.bytesNeeded ≤ 2
  extended : q.state = .headerExtended → q.cursor + q.bytesNeeded ≤ maxExtendedHeaderLength
  message : q.state = .application ∨ q.state = .ready → q.currentMsg.msg.isSome = true
  key : q.state = .application → ∃ key i, Stands key q.currentMsg.preparedKey i

/-- Between two buffers the processor needs bytes. -/
structure Hungry (q : Processor) : Prop extends Sound q where
  not_ready : q.state ≠ .ready
  need : 0 < q.bytesNeeded

theorem hungry_new (server : Bool) (maxMessageSize : Nat) : (new server maxMessageSize).Hungry where
  state := ⟨nofun, nofun⟩
  length := rfl
  basic _ := Nat.le_refl 2
  extended := nofun
  message := nofun
  key := nofun
  not_ready := nofun
  need := Nat.two_pos

/-! ## Taking up bytes, and going on -/

/-- A call of the code, of which no fault is expected. -/
def settled {α : Type} : Outcome (Except Error α) → Except Error α
  | .ok r => r
  | .error _ => .error .general

@[simp] theorem settled_ok {α : Type} (r : Except Error α) : settled (.ok r) = r := rfl

/-- What a round does with bytes that it needs. -/
def absorb (q : Processor) (u : Bytes) : Except Error Processor :=
  match q.state with
  | .headerBasic => .ok (q.copyBasicHeaderBytes u).1
  | .headerExtended => settled ((q.copyExtendedHeaderBytes u).map fun r => .ok r.1)
  | .application => if u = [] then .ok q else settled (q.processPayloadBytes u)
  | _ => .ok q

/-- What a round does when no bytes are needed. -/
def next (q : Processor) : Except Error Processor :=
  match q.state with
  | .headerBasic =>
    match validateIncomingBasicHeader q.basicHeader q.server q.dataMsg.msg.isNone with
    | some e => .error e
    | none => .ok { q with
        state := .headerExtended
        cursor := 0
        bytesNeeded := q.basicHeader.getHeaderLen - basicHeaderLength }
  | .headerExtended =>
    match validateIncomingExtendedHeader q.basicHeader q.extendedHeader with
    | some e => .error e
    | none => settled q.beginPayload
  | .application => if q.basicHeader.getFin then settled q.finalizeMessage else .ok q.resetHeaders
  | _ => .ok q

/-- Rounds without bytes, up to a message or the next bytes. -/
def settle : Nat → Processor → Except Error Processor
  | 0, q => .ok q
  | n + 1, q => do
    let q ← q.next
    if q.state = .ready ∨ 0 < q.bytesNeeded then return q else settle n q

/-- A message that is complete is taken out. -/
def deliver (q : Processor) : Processor × List Message :=
  if q.state = .ready then
    match q.getMessage with
    | .ok (m, q) => (q, m.toList)
    | .error _ => (q, [])
  else (q, [])

/-- The processor as a reader of the stream. -/
def reader : BufferedReader Processor UInt8 Message Error where
  need := bytesNeeded
  absorb := absorb
  advance q := deliver <$> settle 3 q

/-! ## The basic header -/

theorem copyBasicHeaderBytes_take (q : Processor) (h : q.bytesNeeded ≤ 2) (s : Bytes) :
    q.copyBasicHeaderBytes s =
      ((q.copyBasicHeaderBytes (s.take q.bytesNeeded)).1, min q.bytesNeeded s.length) := by
  unfold copyBasicHeaderBytes
  have hneed : q.bytesNeeded = 0 ∨ q.bytesNeeded = 1 ∨ q.bytesNeeded = 2 := by omega
  rcases hneed with hneed | hneed | hneed
  all_goals
    rw [hneed]
    rcases s with _ | ⟨c, _ | ⟨d, s⟩⟩
    all_goals simp

/-! ## The payload -/

/-- Unmasked bytes, and the key behind them. -/
def unmask (q : Processor) (u : Bytes) : Bytes × UInt64 :=
  if q.basicHeader.getMasked then byteMaskCirc u q.currentMsg.preparedKey
  else (u, q.currentMsg.preparedKey)

/-- The validator of a message behind more of its payload. -/
def validated (op : Opcode) (v : Validator) (s : Bytes) : Option Validator :=
  if op = .text then v.decode s else some v

theorem validated_append (op : Opcode) (v : Validator) (s t : Bytes) :
    validated op v (s ++ t) = (validated op v s).bind fun v => validated op v t := by
  unfold validated
  split
  · exact decode_append v s t
  · rfl

/-- The processor in the payload of a message. -/
def holding (q : Processor) (msg : MsgMetadata) (bytesNeeded : Nat) : Processor :=
  { q.setCurrentMsg msg with bytesNeeded := bytesNeeded }

section Holding

variable (q : Processor) (msg msg' : MsgMetadata) (n n' : Nat)

@[simp] theorem holding_currentMsg : (q.holding msg n).currentMsg = msg := by
  unfold holding setCurrentMsg currentMsg
  cases q.current <;> rfl

@[simp] theorem holding_holding : (q.holding msg n).holding msg' n' = q.holding msg' n' := by
  unfold holding setCurrentMsg
  cases q.current <;> rfl

theorem holding_self : q.holding q.currentMsg q.bytesNeeded = q := by
  unfold holding setCurrentMsg currentMsg
  cases h : q.current <;> simp [← h]

@[simp] theorem holding_bytesNeeded : (q.holding msg n).bytesNeeded = n := rfl

@[simp] theorem holding_state : (q.holding msg n).state = q.state := by
  unfold holding setCurrentMsg
  cases q.current <;> rfl

@[simp] theorem holding_basicHeader : (q.holding msg n).basicHeader = q.basicHeader := by
  unfold holding setCurrentMsg
  cases q.current <;> rfl

@[simp] theorem holding_extendedHeader : (q.holding msg n).extendedHeader = q.extendedHeader := by
  unfold holding setCurrentMsg
  cases q.current <;> rfl

@[simp] theorem holding_cursor : (q.holding msg n).cursor = q.cursor := by
  unfold holding setCurrentMsg
  cases q.current <;> rfl

end Holding

theorem processPayloadBytes_eq {q : Processor} {m : Message} (h : q.currentMsg.msg = some m) (u : Bytes) :
    q.processPayloadBytes u =
      .ok (match validated m.opcode q.currentMsg.validator (q.unmask u).1 with
        | none => .error .invalidUtf8
        | some v => .ok (q.holding
            { msg := some { m with payload := m.payload ++ (q.unmask u).1 }
              preparedKey := (q.unmask u).2
              validator := v } (q.bytesNeeded - u.length))) := by
  have hunmask : (if q.basicHeader.getMasked then byteMaskCirc u q.currentMsg.preparedKey
      else (u, q.currentMsg.preparedKey)) = q.unmask u := rfl
  unfold processPayloadBytes validated
  rw [h, hunmask]
  simp only [Outcome.deref, Outcome.bind_ok]
  by_cases htext : m.opcode = .text
  · simp only [if_pos htext]
    cases q.currentMsg.validator.decode (q.unmask u).1 <;> rfl
  · simp only [if_neg htext]
    rfl

theorem unmask_nil (q : Processor) : q.unmask [] = ([], q.currentMsg.preparedKey) := by
  unfold unmask
  split <;> rfl

theorem unmask_stands {q : Processor} {key : UInt32} {i : Nat}
    (h : Stands key q.currentMsg.preparedKey i) (u : Bytes) :
    ∃ i, Stands key (q.unmask u).2 i := by
  unfold unmask
  split
  · exact ⟨_, (byteMaskCirc_stands h u).2⟩
  · exact ⟨i, h⟩

/-- The bytes can be unmasked in two parts, the second with the key behind the first. -/
theorem unmask_append {q r : Processor} {key : UInt32} {i : Nat}
    (h : Stands key q.currentMsg.preparedKey i) (u v : Bytes) (hheader : r.basicHeader = q.basicHeader)
    (hkey : r.currentMsg.preparedKey = (q.unmask u).2) :
    q.unmask (u ++ v) = ((q.unmask u).1 ++ (r.unmask v).1, (r.unmask v).2) := by
  unfold unmask at hkey ⊢
  rw [hheader, hkey]
  split
  · obtain ⟨hu, hstands⟩ := byteMaskCirc_stands h u
    obtain ⟨hv, hend⟩ := byteMaskCirc_stands hstands v
    obtain ⟨huv, hend'⟩ := byteMaskCirc_stands h (u ++ v)
    rw [List.length_append, ← Nat.add_assoc] at hend'
    exact Prod.ext (by rw [huv, hu, hv, xorFrom_append]) (hend'.unique hend)
  · rfl

theorem absorb_application {q : Processor} {m : Message} (hstate : q.state = .application)
    (h : q.currentMsg.msg = some m) (u : Bytes) :
    q.absorb u =
      match validated m.opcode q.currentMsg.validator (q.unmask u).1 with
      | none => .error .invalidUtf8
      | some v => .ok (q.holding
          { msg := some { m with payload := m.payload ++ (q.unmask u).1 }
            preparedKey := (q.unmask u).2
            validator := v } (q.bytesNeeded - u.length)) := by
  unfold absorb
  rw [hstate]
  by_cases hu : u = []
  · subst hu
    have hvalid : validated m.opcode q.currentMsg.validator [] = some q.currentMsg.validator := by
      unfold validated
      split <;> rfl
    have hself : q.holding { q.currentMsg with msg := some m } q.bytesNeeded = q := by
      rw [← h]
      exact q.holding_self
    simp only [unmask_nil, hvalid, List.append_nil, List.length_nil, Nat.sub_zero, if_true]
    exact congrArg Except.ok hself.symm
  · rw [processPayloadBytes_eq h]
    exact if_neg hu

/-! ## Taking up bytes in two parts -/

/-- The processor behind more of the extended header. -/
def extend (q : Processor) (u : Bytes) : Processor :=
  { q with
    extendedHeader := ⟨copyTo q.extendedHeader.bytes q.cursor u⟩
    cursor := q.cursor + u.length
    bytesNeeded := q.bytesNeeded - u.length }

theorem copyExtendedHeaderBytes_eq {q : Processor} (hq : q.Sound) (hstate : q.state = .headerExtended)
    (s : Bytes) :
    q.copyExtendedHeaderBytes s =
      .ok (q.extend (s.take q.bytesNeeded), min q.bytesNeeded s.length) := by
  have hroom := hq.extended hstate
  have htake : s.take (min q.bytesNeeded s.length) = s.take q.bytesNeeded := by
    rw [List.take_eq_take_iff]
    omega
  unfold copyExtendedHeaderBytes extend
  simp only [htake, List.length_take]
  exact if_pos (by omega)

theorem absorb_extended {q : Processor} (hq : q.Sound) (hstate : q.state = .headerExtended) {u : Bytes}
    (hu : u.length ≤ q.bytesNeeded) : q.absorb u = .ok (q.extend u) := by
  unfold absorb
  rw [hstate, copyExtendedHeaderBytes_eq hq hstate, List.take_of_length_le hu]
  rfl

theorem length_copyTo {dst s : Bytes} {i : Nat} (h : i + s.length ≤ dst.length) :
    (copyTo dst i s).length = dst.length := by
  unfold copyTo
  simp only [List.length_append, List.length_take, List.length_drop]
  omega

theorem Hungry.state_cases {q : Processor} (hq : q.Hungry) :
    q.state = .headerBasic ∨ q.state = .headerExtended ∨ q.state = .application := by
  have h1 := hq.state
  have h2 := hq.not_ready
  cases hstate : q.state <;> simp_all

theorem copyBasicHeaderBytes_eq (q : Processor) (hneed : q.bytesNeeded ≤ 2) {u : Bytes}
    (hu : u.length ≤ q.bytesNeeded) :
    ∃ h, (q.copyBasicHeaderBytes u).1 =
      { q with basicHeader := h, bytesNeeded := q.bytesNeeded - u.length } := by
  unfold copyBasicHeaderBytes
  rcases u with _ | ⟨c, _ | ⟨d, _ | ⟨e, u⟩⟩⟩
  · exact ⟨q.basicHeader, by split <;> rfl⟩
  · rw [List.length_singleton] at hu
    rw [if_neg (by omega)]
    dsimp only
    split
    · exact ⟨_, rfl⟩
    · exact ⟨_, rfl⟩
  · have htwo : q.bytesNeeded = 2 := by
      simp only [List.length_cons, List.length_nil] at hu
      omega
    exact ⟨⟨c, d⟩, by simp [htwo]⟩
  · simp only [List.length_cons] at hu
    omega

theorem Sound.absorb {q q' : Processor} {u : Bytes} (hq : q.Sound) (hu : u.length ≤ q.bytesNeeded)
    (h : q.absorb u = .ok q') :
    q'.Sound ∧ q'.state = q.state ∧ (q.state ≠ .ready → q'.bytesNeeded = q.bytesNeeded - u.length) := by
  rcases hstate : q.state with _ | _ | _ | _ | _ | _
  · have hneed := hq.basic hstate
    obtain ⟨h', heq⟩ := copyBasicHeaderBytes_eq q hneed hu
    unfold Processor.absorb at h
    rw [hstate] at h
    cases h
    rw [heq]
    exact ⟨{ hq with basic := fun _ => by dsimp only; omega, extended := by simp [hstate] }, hstate, fun _ => rfl⟩
  · have hroom := hq.extended hstate
    rw [absorb_extended hq hstate hu] at h
    cases h
    have hlength : (q.extend u).extendedHeader.bytes.length = maxExtendedHeaderLength :=
      (length_copyTo (by rw [hq.length]; omega)).trans hq.length
    have hcursor : (q.extend u).cursor + (q.extend u).bytesNeeded ≤ maxExtendedHeaderLength := by
      unfold extend
      dsimp only
      omega
    exact ⟨{ hq with length := hlength, basic := by simp [extend, hstate], extended := fun _ => hcursor },
      hstate, fun _ => rfl⟩
  · exact absurd hstate hq.state.1
  · obtain ⟨m, hm⟩ := Option.isSome_iff_exists.mp (hq.message (.inl hstate))
    obtain ⟨key, i, hkey⟩ := hq.key hstate
    rw [absorb_application hstate hm] at h
    rcases hv : validated m.opcode q.currentMsg.validator (q.unmask u).1 with _ | v
    · rw [hv] at h
      cases h
    · rw [hv] at h
      cases h
      refine ⟨⟨?_, ?_, ?_, ?_, ?_, ?_⟩, by simpa using hstate, fun _ => rfl⟩
      · simpa using hq.state
      · simpa using hq.length
      · simp [hstate]
      · simp [hstate]
      · simp
      · intro _
        obtain ⟨i', hi'⟩ := unmask_stands hkey u
        exact ⟨key, i', by simpa using hi'⟩
  · unfold Processor.absorb at h
    rw [hstate] at h
    cases h
    exact ⟨hq, hstate, fun hne => absurd rfl hne⟩
  · exact absurd hstate hq.state.2

theorem absorb_basic {q : Processor} (hstate : q.state = .headerBasic) (u : Bytes) :
    q.absorb u = .ok (q.copyBasicHeaderBytes u).1 := by
  unfold absorb
  rw [hstate]

theorem absorb_append (q : Processor) (u v : Bytes) (hq : q.Hungry)
    (h : (u ++ v).length ≤ q.bytesNeeded) :
    q.absorb (u ++ v) = q.absorb u >>= fun q => q.absorb v := by
  have hlen := h
  rw [List.length_append] at hlen
  rcases hq.state_cases with hstate | hstate | hstate
  · have hneed := hq.basic hstate
    have hnil : ∀ q : Processor, (q.copyBasicHeaderBytes []).1 = q := by
      intro q
      unfold copyBasicHeaderBytes
      split <;> rfl
    rw [absorb_basic hstate, absorb_basic hstate]
    refine Eq.trans ?_ (absorb_basic (q := (q.copyBasicHeaderBytes u).1) ?_ v).symm
    · rcases u with _ | ⟨c, _ | ⟨d, u⟩⟩
      · rw [List.nil_append, hnil]
      · rcases v with _ | ⟨d, _ | ⟨e, v⟩⟩
        · rw [List.append_nil, hnil]
        · have htwo : q.bytesNeeded = 2 := by
            simp only [List.length_singleton] at hlen
            omega
          simp [copyBasicHeaderBytes, htwo]
        · simp only [List.length_cons] at hlen
          omega
      · rcases v with _ | ⟨e, v⟩
        · rw [List.append_nil, hnil]
        · simp only [List.length_cons] at hlen
          omega
    · obtain ⟨h', heq⟩ := copyBasicHeaderBytes_eq q hneed (u := u) (by omega)
      rw [heq]
      exact hstate
  · have hu : u.length ≤ q.bytesNeeded := by omega
    have hsound := hq.toSound.absorb hu (absorb_extended hq.toSound hstate hu)
    have hroom := hq.extended hstate
    rw [absorb_extended hq.toSound hstate h, absorb_extended hq.toSound hstate hu]
    refine Eq.trans ?_ (absorb_extended hsound.1 (hsound.2.1.trans hstate) (u := v) ?_).symm
    · unfold extend
      dsimp only
      rw [copyTo_copyTo _ _ _ rfl (by rw [hq.length]; omega), List.length_append, Nat.add_assoc,
        Nat.sub_sub]
    · unfold extend
      dsimp only
      omega
  · obtain ⟨m, hm⟩ := Option.isSome_iff_exists.mp (hq.message (.inl hstate))
    obtain ⟨key, i, hkey⟩ := hq.key hstate
    rw [absorb_application hstate hm, absorb_application hstate hm]
    rcases hv : validated m.opcode q.currentMsg.validator (q.unmask u).1 with _ | w
    · rw [unmask_append (r := q.holding { preparedKey := (q.unmask u).2 } 0) hkey u v (by simp)
        (by simp), validated_append, hv]
      rfl
    · refine Eq.trans ?_ (absorb_application (q := q.holding
        { msg := some { m with payload := m.payload ++ (q.unmask u).1 }
          preparedKey := (q.unmask u).2
          validator := w } (q.bytesNeeded - u.length))
        (m := { m with payload := m.payload ++ (q.unmask u).1 }) ((holding_state _ _ _).trans hstate)
        (by simp) v).symm
      rw [unmask_append (r := q.holding
        { msg := some { m with payload := m.payload ++ (q.unmask u).1 }
          preparedKey := (q.unmask u).2
          validator := w } (q.bytesNeeded - u.length)) hkey u v (by simp) (by simp),
        validated_append, hv]
      simp only [Option.bind_some, holding_currentMsg, holding_holding, holding_bytesNeeded,
        List.append_assoc, List.length_append, Nat.sub_sub]

/-! ## Going on -/

theorem getHeaderLen_le (h : BasicHeader) :
    h.getHeaderLen - basicHeaderLength ≤ maxExtendedHeaderLength := by
  unfold BasicHeader.getHeaderLen BasicHeader.getMaskingKeyOffset basicHeaderLength maxExtendedHeaderLength
  split_ifs <;> omega

theorem sound_resetHeaders (q : Processor) : q.resetHeaders.Hungry where
  state := ⟨nofun, nofun⟩
  length := rfl
  basic _ := Nat.le_refl 2
  extended := nofun
  message := nofun
  key := nofun
  not_ready := nofun
  need := Nat.two_pos

/-- How many rounds without bytes there can be. -/
def rounds : ReadState → Nat
  | .headerBasic => 3
  | .headerExtended => 2
  | .application => 1
  | _ => 0

theorem beginPayload_sound {q q' : Processor} (hq : q.Sound) (h : settled q.beginPayload = .ok q') :
    q'.Sound ∧ q'.state = .application := by
  unfold beginPayload at h
  dsimp only at h
  split at h
  · cases h
    exact ⟨⟨⟨nofun, nofun⟩, hq.length, nofun, nofun, fun _ => rfl, fun _ => ⟨_, 0, stands_prepare _⟩⟩, rfl⟩
  · split at h
    · split at h
      · cases h
      · cases h
        exact ⟨⟨⟨nofun, nofun⟩, hq.length, nofun, nofun, fun _ => rfl, fun _ => ⟨_, 0, stands_prepare _⟩⟩, rfl⟩
    · rename_i m hm
      split at h
      · cases h
      · cases h
        refine ⟨⟨⟨nofun, nofun⟩, hq.length, nofun, nofun, fun _ => ?_, fun _ => ⟨_, 0, stands_prepare _⟩⟩, rfl⟩
        exact Option.isSome_iff_exists.mpr ⟨m, hm⟩

theorem finalizeMessage_eq {q : Processor} {m : Message} (h : q.currentMsg.msg = some m) :
    q.finalizeMessage =
      .ok (if q.basicHeader.getOpcode = .text ∧ q.currentMsg.validator.complete = false
        then .error .invalidUtf8 else .ok { q with state := .ready }) := by
  unfold finalizeMessage
  rw [h]
  simp only [Outcome.deref, Outcome.bind_ok]
  split <;> rfl

/-- A round without bytes comes to a message, to the next bytes or nearer to them. -/
theorem Sound.next {q q' : Processor} (hq : q.Sound) (hstate : q.state ≠ .ready) (h : q.next = .ok q') :
    q'.Sound ∧ (q'.state = .ready ∨ 0 < q'.bytesNeeded ∨
      q'.state ≠ .ready ∧ rounds q'.state < rounds q.state) := by
  unfold Processor.next at h
  rcases hs : q.state with _ | _ | _ | _ | _ | _
  all_goals
    rw [hs] at h
    dsimp only at h
  · split at h
    · cases h
    · cases h
      refine ⟨⟨⟨nofun, nofun⟩, hq.length, nofun, fun _ => ?_, nofun, nofun⟩, .inr (.inr ⟨nofun, Nat.lt_succ_self 2⟩)⟩
      have := getHeaderLen_le q.basicHeader
      dsimp only
      omega
  · split at h
    · cases h
    · obtain ⟨hsound, happ⟩ := beginPayload_sound hq h
      refine ⟨hsound, .inr (.inr ⟨?_, ?_⟩)⟩ <;> rw [happ]
      · nofun
      · decide
  · exact absurd hs hq.state.1
  · split at h
    · obtain ⟨m, hm⟩ := Option.isSome_iff_exists.mp (hq.message (.inl hs))
      rw [finalizeMessage_eq hm, settled_ok] at h
      split at h
      · cases h
      · cases h
        exact ⟨⟨⟨nofun, nofun⟩, hq.length, nofun, nofun, fun _ => hq.message (.inl hs), nofun⟩, .inl rfl⟩
    · cases h
      exact ⟨(sound_resetHeaders q).toSound, .inr (.inl Nat.two_pos)⟩
  · exact absurd hs hstate
  · exact absurd hs hq.state.2

theorem Sound.settle {n : Nat} {q q' : Processor} (hq : q.Sound) (hstate : q.state ≠ .ready)
    (hn : rounds q.state ≤ n) (h : q.settle n = .ok q') :
    q'.Sound ∧ (q'.state = .ready ∨ 0 < q'.bytesNeeded) := by
  induction n generalizing q with
  | zero =>
    have h1 := hq.state
    cases hs : q.state <;> simp_all [rounds]
  | succ n ih =>
    unfold Processor.settle at h
    rcases hnext : q.next with e | q₁
    · rw [hnext] at h
      cases h
    · rw [hnext] at h
      obtain ⟨hsound, hdone⟩ := hq.next hstate hnext
      change (if q₁.state = .ready ∨ 0 < q₁.bytesNeeded then .ok q₁ else q₁.settle n) = .ok q' at h
      split at h
      · rename_i hd
        cases h
        exact ⟨hsound, hd⟩
      · rename_i hd
        rw [not_or] at hd
        obtain hready | hpos | ⟨-, hlt⟩ := hdone
        · exact absurd hready hd.1
        · exact absurd hpos hd.2
        · exact ih hsound hd.1 (by omega) h

theorem getMessage_ready {q : Processor} {m : Message} (hstate : q.state = .ready)
    (h : q.currentMsg.msg = some m) : ∃ q' : Processor, q.getMessage = .ok (some m, q'.resetHeaders) := by
  unfold getMessage
  rw [if_neg (fun hne => hne hstate), h]
  exact ⟨_, rfl⟩

theorem Sound.deliver {q : Processor} (hq : q.Sound) (h : q.state = .ready ∨ 0 < q.bytesNeeded) :
    q.deliver.1.Hungry := by
  unfold Processor.deliver
  split
  · rename_i hstate
    obtain ⟨m, hm⟩ := Option.isSome_iff_exists.mp (hq.message (.inr hstate))
    obtain ⟨q', hget⟩ := getMessage_ready hstate hm
    rw [hget]
    exact sound_resetHeaders q'
  · rename_i hstate
    exact ⟨hq, hstate, h.resolve_left hstate⟩

theorem reader_lawful : reader.Lawful Hungry where
  need_pos q hq := hq.need
  absorb_append := absorb_append
  absorb_ok q u q' hq hu h := by
    obtain ⟨hsound, hstate, hneed⟩ := hq.toSound.absorb hu.le h
    have hneed := hneed hq.not_ready
    refine ⟨hneed, hsound, hstate ▸ hq.not_ready, ?_⟩
    change u.length < q.bytesNeeded at hu
    omega
  advance_ok q u q₁ q₂ ms hq hu habs hadv := by
    obtain ⟨hsound, hstate, -⟩ := hq.toSound.absorb hu.le habs
    change deliver <$> settle 3 q₁ = .ok (q₂, ms) at hadv
    rcases hsettle : settle 3 q₁ with e | q'
    · rw [hsettle] at hadv
      cases hadv
    · rw [hsettle] at hadv
      have hdeliver : q'.deliver = (q₂, ms) := Except.ok.inj hadv
      have hq₂ : q'.deliver.1 = q₂ := congrArg Prod.fst hdeliver
      have hrounds : rounds q₁.state ≤ 3 := by cases q₁.state <;> decide
      obtain ⟨hsound', hdone⟩ := hsound.settle (hstate ▸ hq.not_ready) hrounds hsettle
      exact hq₂ ▸ hsound'.deliver hdone

/-! ## The loop of `consume` -/

theorem beginPayload_eq (q : Processor) : q.beginPayload = .ok (settled q.beginPayload) := by
  unfold beginPayload
  dsimp only
  split
  · rfl
  · split <;> split <;> rfl

/-- A round of which `n` bytes are taken up. -/
def roundOf (q : Processor) (u : Bytes) (p : Nat) : Round :=
  match q.absorb u with
  | .error e => .inr (.error e)
  | .ok q' =>
    if 0 < q'.bytesNeeded then .inl (q', p)
    else
      match q'.next with
      | .error e => .inr (.error e)
      | .ok q'' => .inl (q'', p)

theorem headerBasicRound_eq {q : Processor} (hq : q.Sound) (hs : q.state = .headerBasic) (buf : Bytes)
    (p : Nat) : headerBasicRound buf q p =
      q.roundOf ((buf.drop p).take q.bytesNeeded) (p + min q.bytesNeeded (buf.drop p).length) := by
  have hs' : (q.copyBasicHeaderBytes ((buf.drop p).take q.bytesNeeded)).1.state = .headerBasic := by
    obtain ⟨h', heq⟩ := copyBasicHeaderBytes_eq q (hq.basic hs)
      (u := (buf.drop p).take q.bytesNeeded) (by rw [List.length_take]; omega)
    rw [heq]
    exact hs
  unfold headerBasicRound roundOf next
  rw [absorb_basic hs, copyBasicHeaderBytes_take q (hq.basic hs)]
  generalize (q.copyBasicHeaderBytes ((buf.drop p).take q.bytesNeeded)).1 = q' at hs'
  simp only [hs']
  by_cases hneed : 0 < q'.bytesNeeded
  · rw [if_pos hneed, if_pos hneed]
  · rw [if_neg hneed, if_neg hneed]
    cases validateIncomingBasicHeader q'.basicHeader q'.server q'.dataMsg.msg.isNone <;> rfl

theorem headerExtendedRound_eq {q : Processor} (hq : q.Sound) (hs : q.state = .headerExtended)
    (buf : Bytes) (p : Nat) : headerExtendedRound buf q p =
      .ok (q.roundOf ((buf.drop p).take q.bytesNeeded) (p + min q.bytesNeeded (buf.drop p).length)) := by
  have hs' : (q.extend ((buf.drop p).take q.bytesNeeded)).state = .headerExtended := hs
  unfold headerExtendedRound roundOf next
  rw [copyExtendedHeaderBytes_eq hq hs, absorb_extended hq hs (by rw [List.length_take]; omega)]
  generalize q.extend ((buf.drop p).take q.bytesNeeded) = q' at hs'
  simp only [Outcome.bind_ok, hs']
  by_cases hneed : 0 < q'.bytesNeeded
  · rw [if_pos hneed, if_pos hneed]
    rfl
  · rw [if_neg hneed, if_neg hneed]
    rcases validateIncomingExtendedHeader q'.basicHeader q'.extendedHeader with _ | e
    · dsimp only
      rw [beginPayload_eq, Outcome.bind_ok, settled_ok]
      cases settled q'.beginPayload <;> rfl
    · rfl

theorem applicationRound_eq {q : Processor} (hq : q.Sound) (hs : q.state = .application)
    (buf : Bytes) (p : Nat) : applicationRound buf q p =
      .ok (q.roundOf ((buf.drop p).take q.bytesNeeded) (p + min q.bytesNeeded (buf.drop p).length)) := by
  obtain ⟨m, hm⟩ := Option.isSome_iff_exists.mp (hq.message (.inl hs))
  have htake : (buf.drop p).take (min q.bytesNeeded (buf.length - p)) = (buf.drop p).take q.bytesNeeded := by
    rw [List.take_eq_take_iff, List.length_drop]
    omega
  have habsorb : q.processPayloadIf ((buf.drop p).take q.bytesNeeded) =
      .ok (q.absorb ((buf.drop p).take q.bytesNeeded)) := by
    unfold processPayloadIf Processor.absorb
    rw [hs, processPayloadBytes_eq hm, settled_ok]
    by_cases hnil : (buf.drop p).take q.bytesNeeded = []
    · rw [hnil]
      rfl
    · rw [if_pos (List.length_pos_iff.mpr hnil)]
      exact congrArg Except.ok (if_neg hnil).symm
  unfold applicationRound roundOf
  simp only [htake, habsorb, Outcome.bind_ok, List.length_drop]
  rcases hq' : q.absorb ((buf.drop p).take q.bytesNeeded) with e | q'
  · rfl
  · obtain ⟨hsound, hs', -⟩ := hq.absorb (by rw [List.length_take]; omega) hq'
    obtain ⟨m', hm'⟩ := Option.isSome_iff_exists.mp (hsound.message (.inl (hs'.trans hs)))
    dsimp only
    by_cases hneed : 0 < q'.bytesNeeded
    · rw [if_pos hneed, if_pos hneed]
      rfl
    · unfold next
      rw [if_neg hneed, if_neg hneed, hs', hs, finalizeMessage_eq hm', Outcome.bind_ok, settled_ok]
      by_cases hfin : q'.basicHeader.getFin = true
      · simp only [if_pos hfin]
        by_cases hincomplete : q'.basicHeader.getOpcode = .text ∧ q'.currentMsg.validator.complete = false
        · simp only [if_pos hincomplete]
          rfl
        · simp only [if_neg hincomplete]
          rfl
      · simp only [if_neg hfin]
        rfl

/-- A round takes up what it needs of the rest of the buffer, and goes on when
nothing is missing. -/
theorem consumeRound_eq (buf : Bytes) {q : Processor} (p : Nat) (hq : q.Sound) (hstate : q.state ≠ .ready)
    (h : p < buf.length ∨ q.bytesNeeded = 0) :
    consumeRound buf (q, p) =
      .ok (q.roundOf ((buf.drop p).take q.bytesNeeded) (p + min q.bytesNeeded (buf.drop p).length)) := by
  unfold consumeRound
  rw [if_pos ⟨hstate, hq.state.2, h⟩]
  dsimp only
  rcases hs : q.state with _ | _ | _ | _ | _ | _
  · exact congrArg Except.ok (headerBasicRound_eq hq hs buf p)
  · exact headerExtendedRound_eq hq hs buf p
  · exact absurd hs hq.state.1
  · exact applicationRound_eq hq hs buf p
  · exact absurd hs hstate
  · exact absurd hs hq.state.2

theorem absorb_nil {q : Processor} (hq : q.Sound) : q.absorb [] = .ok q := by
  unfold Processor.absorb
  rcases hs : q.state with _ | _ | _ | _ | _ | _
  all_goals dsimp only
  · unfold copyBasicHeaderBytes
    split <;> rfl
  · rw [copyExtendedHeaderBytes_eq hq hs]
    have hself : q.extend [] = q := by
      unfold extend copyTo
      simp
    rw [List.take_nil, hself]
    rfl
  · exact if_pos rfl

/-- The loop ends with a message, or where the buffer does. -/
theorem run_end {buf : Bytes} {q : Processor} {p n : Nat}
    (h : q.state = .ready ∨ ¬ p < buf.length ∧ 0 < q.bytesNeeded) :
    Loop.run (consumeRound buf) (n + 1) (q, p) = .ok (.ok (q, p)) := by
  apply Loop.run_last
  unfold consumeRound
  refine if_neg fun hgo => ?_
  obtain hready | ⟨hp, hneed⟩ := h
  · exact hgo.1 hready
  · rcases hgo.2.2 with hlt | hzero
    · exact hp hlt
    · dsimp only at hzero
      omega

/-- The rounds without bytes. -/
theorem run_settle (buf : Bytes) (p : Nat) {k n : Nat} {q : Processor} (hq : q.Sound)
    (hstate : q.state ≠ .ready) (hneed : q.bytesNeeded = 0) (hn : k < n) :
    match q.settle k with
    | .error e => Loop.run (consumeRound buf) n (q, p) = .ok (.error e)
    | .ok q' => ∃ n', n ≤ n' + k ∧
        Loop.run (consumeRound buf) n (q, p) = Loop.run (consumeRound buf) n' (q', p) := by
  induction k generalizing q n with
  | zero => exact ⟨n, Nat.le_refl n, rfl⟩
  | succ k ih =>
    obtain ⟨n, rfl⟩ := Nat.exists_eq_add_of_lt (Nat.zero_lt_of_lt hn)
    rw [Nat.zero_add] at hn ⊢
    have hround := consumeRound_eq buf p hq hstate (.inr hneed)
    rw [hneed, List.take_zero, Nat.zero_min, Nat.add_zero, roundOf, absorb_nil hq] at hround
    simp only [hneed, Nat.lt_irrefl, if_false] at hround
    unfold Processor.settle
    rcases hnext : q.next with e | q₁
    · rw [hnext] at hround
      exact Loop.run_last hround
    · rw [hnext] at hround
      obtain ⟨hsound, hdone⟩ := hq.next hstate hnext
      change match (if q₁.state = .ready ∨ 0 < q₁.bytesNeeded then .ok q₁ else q₁.settle k) with
        | .error e => _
        | .ok q' => _
      rw [Loop.run_next hround]
      split_ifs with hd
      · exact ⟨n, by omega, rfl⟩
      · rw [not_or] at hd
        have hrest := ih hsound hd.1 (by omega) (n := n) (by omega)
        rcases hsettle : q₁.settle k with e | q'
        · rw [hsettle] at hrest
          exact hrest
        · rw [hsettle] at hrest
          obtain ⟨n', hn', hrun⟩ := hrest
          exact ⟨n', by omega, hrun⟩

/-- What a call of `consume` has done with the rest `s` of the buffer from `p` on. -/
def Consumed (q : Processor) (s : Bytes) (p : Nat) : Except Error (Processor × Nat) → Prop
  | .error e => reader.read q s = ([], .error e)
  | .ok (q', p') =>
    ∃ u v, s = u ++ v ∧ p' = p + u.length ∧ (s ≠ [] → u ≠ []) ∧
      if q'.state = .ready then
        q'.Sound ∧
          reader.read q s = BufferedReader.pass q'.deliver.2 (reader.read q'.deliver.1 v)
      else v = [] ∧ q'.Hungry ∧ reader.read q s = ([], .ok q')

theorem consume_run {buf s : Bytes} {q : Processor} (hq : q.Hungry) :
    ∀ p n, buf.drop p = s → p ≤ buf.length → 4 * s.length + 2 ≤ n →
      ∃ r, Loop.run (consumeRound buf) n (q, p) = .ok r ∧ Consumed q s p r := by
  induction s, q, hq using reader_lawful.induction with
  | nil q hq =>
    intro p n hs hp hn
    have hend : ¬ p < buf.length := by
      have := congrArg List.length hs
      rw [List.length_drop, List.length_nil] at this
      omega
    obtain ⟨n, rfl⟩ := Nat.exists_eq_add_of_lt (show 0 < n by omega)
    rw [Nat.zero_add]
    refine ⟨_, run_end (.inr ⟨hend, hq.need⟩), [], [], rfl, rfl, fun h => absurd rfl h, ?_⟩
    rw [if_neg hq.not_ready]
    exact ⟨rfl, hq, BufferedReader.read_nil q⟩
  | short q s hq hne hshort =>
    intro p n hs hp hn
    have hpos := List.length_pos_iff.mpr hne
    have hlen : (buf.drop p).length = s.length := congrArg List.length hs
    rw [List.length_drop] at hlen
    obtain ⟨n, rfl⟩ := Nat.exists_eq_add_of_le (show 2 ≤ n by omega)
    rw [Nat.add_comm]
    have hread := BufferedReader.read_short reader_lawful hq hne hshort
    change s.length < q.bytesNeeded at hshort
    have hround := consumeRound_eq buf p hq.toSound hq.not_ready (.inl (by omega))
    rw [hs, List.take_of_length_le hshort.le, Nat.min_eq_right hshort.le, roundOf] at hround
    change reader.read q s = ([], q.absorb s) at hread
    rcases habs : q.absorb s with e | q'
    · rw [habs] at hround hread
      exact ⟨.error e, Loop.run_last hround, hread⟩
    · rw [habs] at hround hread
      obtain ⟨hsound, hstate, hneed⟩ := hq.toSound.absorb hshort.le habs
      have hneed := hneed hq.not_ready
      have hpos' : 0 < q'.bytesNeeded := by omega
      have hready : q'.state ≠ .ready := hstate ▸ hq.not_ready
      dsimp only at hround
      rw [if_pos hpos'] at hround
      rw [Loop.run_next hround]
      refine ⟨_, run_end (.inr ⟨by omega, hpos'⟩), s, [], by simp, rfl, fun _ => hne, ?_⟩
      rw [if_neg hready]
      exact ⟨rfl, ⟨hsound, hready, hpos'⟩, hread⟩
  | fill q u s hq hu ih =>
    intro p n hs hp hn
    have hread := BufferedReader.read_fill reader_lawful hq s hu
    change u.length = q.bytesNeeded at hu
    have hpos := hq.need
    have hlen := congrArg List.length hs
    rw [List.length_drop, List.length_append] at hlen
    rw [List.length_append] at hn
    have hround := consumeRound_eq buf p hq.toSound hq.not_ready (.inl (by omega))
    rw [hs, List.take_left' hu, List.length_append, Nat.min_eq_left (by omega), ← hu, roundOf] at hround
    obtain ⟨n, rfl⟩ := Nat.exists_eq_add_of_le (show 1 ≤ n by omega)
    rw [Nat.add_comm 1 n] at hn ⊢
    rcases habs : q.absorb u with e | q₁
    · have habs' : reader.absorb q u = .error e := habs
      rw [habs'] at hread
      rw [habs] at hround
      exact ⟨.error e, Loop.run_last hround, hread⟩
    have habs' : reader.absorb q u = .ok q₁ := habs
    rw [habs'] at hread
    rw [habs] at hround
    obtain ⟨hsound, hstate, hneed⟩ := hq.toSound.absorb hu.le habs
    have hzero : q₁.bytesNeeded = 0 := by rw [hneed hq.not_ready, hu, Nat.sub_self]
    have hready : q₁.state ≠ .ready := hstate ▸ hq.not_ready
    have hrounds : rounds q₁.state ≤ 3 := by cases q₁.state <;> decide
    -- the round that takes up the last bytes is also the first of those without bytes
    have hsame : consumeRound buf (q, p) = consumeRound buf (q₁, p + u.length) := by
      rw [hround, consumeRound_eq buf _ hsound hready (.inr hzero), hzero, List.take_zero, Nat.zero_min,
        Nat.add_zero, roundOf, absorb_nil hsound]
    have hrun : Loop.run (consumeRound buf) (n + 1) (q, p) =
        Loop.run (consumeRound buf) (n + 1) (q₁, p + u.length) := by
      rw [Loop.run, Loop.run, hsame]
    have hsettled := run_settle buf (p + u.length) (k := 3) (n := n + 1) hsound hready hzero
      (by omega)
    rw [hrun]
    rcases hsettle : q₁.settle 3 with e | q₂
    · have hadv : reader.advance q₁ = .error e := congrArg (deliver <$> ·) hsettle
      rw [hsettle] at hsettled
      simp only [bind, Except.bind, hadv] at hread
      exact ⟨.error e, hsettled, hread⟩
    have hadv : reader.advance q₁ = .ok q₂.deliver := congrArg (deliver <$> ·) hsettle
    rw [hsettle] at hsettled
    simp only [bind, Except.bind, hadv] at hread
    obtain ⟨n', hn', hrun'⟩ := hsettled
    obtain ⟨hsound₂, hdone⟩ := hsound.settle hready hrounds hsettle
    have hune : u ≠ [] := by
      rw [← List.length_pos_iff]
      omega
    rw [hrun']
    by_cases hready₂ : q₂.state = .ready
    · obtain ⟨n'', rfl⟩ := Nat.exists_eq_add_of_le (show 1 ≤ n' by omega)
      rw [Nat.add_comm]
      refine ⟨_, run_end (.inl hready₂), u, s, rfl, rfl, fun _ => hune, ?_⟩
      rw [if_pos hready₂]
      exact ⟨hsound₂, hread⟩
    · have hq₂ : q₂.Hungry := ⟨hsound₂, hready₂, hdone.resolve_left hready₂⟩
      have hdeliver : q₂.deliver = (q₂, []) := if_neg hready₂
      rw [hdeliver] at hread
      obtain ⟨r, hr, hconsumed⟩ := ih q₂ hq₂ (p + u.length) n'
        (by rw [← List.drop_drop, hs, List.drop_left' rfl]) (by omega) (by omega)
      refine ⟨r, hr, ?_⟩
      obtain e | ⟨q', p'⟩ := r
      · exact hread.trans (congrArg (BufferedReader.pass []) hconsumed)
      · obtain ⟨v, w, rfl, rfl, -, hrest⟩ := hconsumed
        refine ⟨u ++ v, w, (List.append_assoc _ _ _).symm, by rw [List.length_append]; omega,
          fun _ h => hune (List.append_eq_nil_iff.mp h).1, ?_⟩
        split_ifs at hrest ⊢
        · exact ⟨hrest.1, hread.trans (congrArg (BufferedReader.pass []) hrest.2)⟩
        · exact ⟨hrest.1, hrest.2.1, hread.trans (congrArg (BufferedReader.pass []) hrest.2.2)⟩

theorem consume_spec {q : Processor} (hq : q.Hungry) (buf : Bytes) :
    ∃ r, q.consume buf = .ok r ∧ Consumed q buf 0 r :=
  consume_run hq 0 _ rfl (Nat.zero_le _) (by omega)

/-! ## The role stays -/

@[simp] theorem holding_server (q : Processor) (msg : MsgMetadata) (n : Nat) :
    (q.holding msg n).server = q.server := by
  unfold holding setCurrentMsg
  cases q.current <;> rfl

theorem absorb_server {q q' : Processor} {u : Bytes} (hq : q.Sound) (hu : u.length ≤ q.bytesNeeded)
    (h : q.absorb u = .ok q') : q'.server = q.server := by
  rcases hstate : q.state with _ | _ | _ | _ | _ | _
  · obtain ⟨h', heq⟩ := copyBasicHeaderBytes_eq q (hq.basic hstate) hu
    rw [absorb_basic hstate, heq] at h
    cases h
    rfl
  · rw [absorb_extended hq hstate hu] at h
    cases h
    rfl
  · exact absurd hstate hq.state.1
  · obtain ⟨m, hm⟩ := Option.isSome_iff_exists.mp (hq.message (.inl hstate))
    rw [absorb_application hstate hm] at h
    rcases hv : validated m.opcode q.currentMsg.validator (q.unmask u).1 with _ | v
    · rw [hv] at h
      cases h
    · rw [hv] at h
      cases h
      exact holding_server _ _ _
  · unfold absorb at h
    rw [hstate] at h
    cases h
    rfl
  · exact absurd hstate hq.state.2

theorem beginPayload_server {q q' : Processor} (h : settled q.beginPayload = .ok q') :
    q'.server = q.server := by
  unfold beginPayload at h
  dsimp only at h
  split at h
  · cases h
    rfl
  · split at h
    · split at h <;> cases h
      rfl
    · split at h <;> cases h
      rfl

theorem next_server {q q' : Processor} (hq : q.Sound) (h : q.next = .ok q') : q'.server = q.server := by
  unfold next at h
  rcases hstate : q.state with _ | _ | _ | _ | _ | _
  all_goals
    rw [hstate] at h
    dsimp only at h
  · split at h <;> cases h
    rfl
  · split at h
    · cases h
    · exact beginPayload_server h
  · exact absurd hstate hq.state.1
  · split at h
    · obtain ⟨m, hm⟩ := Option.isSome_iff_exists.mp (hq.message (.inl hstate))
      rw [finalizeMessage_eq hm, settled_ok] at h
      split at h <;> cases h
      rfl
    · cases h
      rfl
  · cases h
    rfl
  · exact absurd hstate hq.state.2

/-- What a round keeps. -/
theorem consumeRound_server {buf : Bytes} {q : Processor} {p : Nat} (hq : q.Sound) {r : Round}
    (h : consumeRound buf (q, p) = .ok r) :
    (∀ s, r = .inl s → s.1.Sound ∧ s.1.server = q.server) ∧
      ∀ s, r = .inr (.ok s) → s.1.server = q.server := by
  by_cases hgo : q.state ≠ .ready ∧ q.state ≠ .fatalError ∧ (p < buf.length ∨ q.bytesNeeded = 0)
  · rw [consumeRound_eq buf p hq hgo.1 hgo.2.2] at h
    cases h
    have hu : ((buf.drop p).take q.bytesNeeded).length ≤ q.bytesNeeded := by
      rw [List.length_take]
      omega
    unfold roundOf
    rcases habs : q.absorb ((buf.drop p).take q.bytesNeeded) with e | q₁
    · exact ⟨by rintro _ ⟨⟩, by rintro _ ⟨⟩⟩
    · obtain ⟨hsound, hstate, -⟩ := hq.absorb hu habs
      have hserver := absorb_server hq hu habs
      by_cases hneed : 0 < q₁.bytesNeeded
      · simp only [if_pos hneed]
        exact ⟨by rintro _ ⟨⟩; exact ⟨hsound, hserver⟩, by rintro _ ⟨⟩⟩
      · simp only [if_neg hneed]
        rcases hnext : q₁.next with e | q₂
        · exact ⟨by rintro _ ⟨⟩, by rintro _ ⟨⟩⟩
        · refine ⟨?_, by rintro _ ⟨⟩⟩
          rintro _ ⟨⟩
          exact ⟨(hsound.next (hstate ▸ hgo.1) hnext).1, (next_server hsound hnext).trans hserver⟩
  · have hround : consumeRound buf (q, p) = .ok (.inr (.ok (q, p))) := if_neg hgo
    rw [hround] at h
    cases h
    exact ⟨by rintro _ ⟨⟩, by rintro _ ⟨⟩; rfl⟩

theorem consume_server {q q' : Processor} {buf : Bytes} {n : Nat} (hq : q.Hungry)
    (h : q.consume buf = .ok (.ok (q', n))) : q'.server = q.server := by
  obtain ⟨⟨q₁, p₁⟩, hreach, hlast⟩ := Loop.run_reaches h
  have hkeeps : q₁.Sound ∧ q₁.server = q.server := hreach.keeps
    (I := fun s => s.1.Sound ∧ s.1.server = q.server)
    (fun s s' hs hround => by
      obtain ⟨hsound, hserver⟩ := (consumeRound_server hs.1 hround).1 s' rfl
      exact ⟨hsound, hserver.trans hs.2⟩) ⟨hq.toSound, rfl⟩
  exact ((consumeRound_server hkeeps.1 hlast).2 _ rfl).trans hkeeps.2

theorem deliver_server {q : Processor} (hq : q.Sound) : q.deliver.1.server = q.server := by
  unfold deliver
  split
  · rename_i hstate
    obtain ⟨m, hm⟩ := Option.isSome_iff_exists.mp (hq.message (.inr hstate))
    unfold getMessage
    rw [if_neg (not_not_intro hstate), hm]
    simp only [Outcome.deref, Outcome.bind_ok]
    unfold setCurrentMsg resetHeaders
    cases q.current <;> cases m.opcode.isControl <;> rfl
  · rfl

/-! ## The loop of `handle_read_frame` -/

theorem getMessage_deliver {q : Processor} (hq : q.Sound) (hstate : q.state = .ready) :
    ∃ m, q.getMessage = .ok (m, q.deliver.1) ∧ q.deliver.2 = m.toList := by
  obtain ⟨m, hm⟩ := Option.isSome_iff_exists.mp (hq.message (.inr hstate))
  obtain ⟨q', hget⟩ := getMessage_ready hstate hm
  unfold Processor.deliver
  rw [if_pos hstate, hget]
  exact ⟨some m, rfl, rfl⟩

theorem readRound_run {buf : Bytes} (n : Nat) :
    ∀ (q : Processor) (p : Nat) (msgs : List Message), q.Hungry → p ≤ buf.length → buf.length - p < n →
      Loop.run (readRound buf) n (q, p, msgs) =
        .ok (BufferedReader.pass msgs (reader.read q (buf.drop p))) := by
  induction n with
  | zero =>
    intro q p msgs _ _ h
    omega
  | succ n ih =>
    intro q p msgs hq hp hn
    by_cases hend : p < buf.length
    · have hne : buf.drop p ≠ [] := by
        rw [← List.length_pos_iff, List.length_drop]
        omega
      obtain ⟨r, hr, hconsumed⟩ := consume_spec hq (buf.drop p)
      have hround : readRound buf (q, p, msgs) = _ := if_pos hend
      rw [hr, Outcome.bind_ok] at hround
      obtain e | ⟨q', k⟩ := r
      · rw [Loop.run_last hround, show reader.read q (buf.drop p) = ([], .error e) from hconsumed]
        simp [BufferedReader.pass]
      · obtain ⟨u, v, huv, rfl, hu, hrest⟩ := hconsumed
        have hpos := List.length_pos_iff.mpr (hu hne)
        have hlen := congrArg List.length huv
        rw [List.length_drop, List.length_append] at hlen
        have hv : buf.drop (p + (0 + u.length)) = v := by
          rw [Nat.zero_add, ← List.drop_drop, huv, List.drop_left' rfl]
        dsimp only at hround
        by_cases hready : q'.state = .ready
        · rw [if_pos hready] at hrest hround
          obtain ⟨hsound, hread⟩ := hrest
          obtain ⟨m, hget, hmsgs⟩ := getMessage_deliver hsound hready
          rw [hget, Outcome.bind_ok] at hround
          rw [Loop.run_next hround, ih _ _ _ (hsound.deliver (.inl hready)) (by omega) (by omega), hv,
            hread, hmsgs]
          simp [BufferedReader.pass]
        · rw [if_neg hready] at hrest hround
          obtain ⟨rfl, hq', hread⟩ := hrest
          rw [Loop.run_next hround, ih _ _ _ hq' (by omega) (by omega), hv, hread,
            BufferedReader.read_nil]
    · have hround : readRound buf (q, p, msgs) = .ok (.inr (msgs, .ok q)) := if_neg hend
      rw [Loop.run_last hround, List.drop_eq_nil_of_le (by omega), BufferedReader.read_nil]
      simp [BufferedReader.pass]

/-- A buffer is read without a fault, as the reader reads it. -/
theorem handleReadFrame_eq {q : Processor} (hq : q.Hungry) (buf : Bytes) :
    q.handleReadFrame buf = .ok (reader.read q buf) :=
  readRound_run _ q 0 [] hq (Nat.zero_le _) (by omega)

theorem handleReads_eq {q : Processor} (hq : q.Hungry) (bufs : List Bytes) :
    q.handleReads bufs = .ok (reader.read q bufs.flatten) := by
  rw [← BufferedReader.readAll_eq reader_lawful hq]
  induction bufs generalizing q with
  | nil => rfl
  | cons buf bufs ih =>
    have hok := BufferedReader.read_ok reader_lawful buf q hq
    rw [handleReads, handleReadFrame_eq hq, Outcome.bind_ok, BufferedReader.readAll]
    generalize reader.read q buf = r at hok
    obtain ⟨ms, e | q'⟩ := r
    · rfl
    · dsimp only
      rw [ih (hok q' rfl), Outcome.bind_ok, BufferedReader.andThen_ok]
      rfl

/-- However the stream is cut into reads, it is read without a fault, with the
messages and the end that it has in one piece. -/
theorem handleReads_flatten (server : Bool) (maxMessageSize : Nat) (bufs : List Bytes) :
    (new server maxMessageSize).handleReads bufs =
        (new server maxMessageSize).handleReadFrame bufs.flatten ∧
      (new server maxMessageSize).handleReads bufs ≠ Outcome.fault := by
  rw [handleReads_eq (hungry_new _ _), handleReadFrame_eq (hungry_new _ _)]
  exact ⟨rfl, nofun⟩

end Processor

end TmatePlugin.L1.Hybi13
