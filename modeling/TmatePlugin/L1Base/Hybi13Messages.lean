import TmatePlugin.L1Base.Hybi13Frames

/-!
# What the processor passes on

The messages that any stream of bytes can make the processor pass on, and what it
keeps of one that is not complete.

* `Deliverable`: what every message has that is passed on; `Bounded`: the
  invariant of the processor behind it.
* `Bounded.absorb`, `Bounded.next`, `Bounded.deliver`: the three parts of a round.
* `messages_deliverable`: every message, whatever the peer sends.
* `limit_bypassed`: the limit for the size of a message does not hold for what
  is kept of it.
* `fragmented_text`: which texts are passed on, in one frame and in several.
-/
namespace TmatePlugin.L1.Hybi13

open CString TmatePlugin.L1.Frame Utf8Validator

/-- A size under the limit, or one that a `size_t` does not hold. -/
def Fits (limit n : Nat) : Prop := n ≤ limit ∨ 2 ^ 64 ≤ n

/-- A data message as far as it has come. -/
structure DataMessage (v : Validator) (m : Message) : Prop where
  opcode : m.opcode = .text ∨ m.opcode = .binary
  text : m.opcode = .text → Validator.new.decode m.payload = some v

/-- A control message that needs `n` more bytes. -/
structure ControlMessage (n : Nat) (m : Message) : Prop where
  opcode : m.opcode = .close ∨ m.opcode = .ping ∨ m.opcode = .pong
  size : m.payload.length + n ≤ payloadSizeBasic

/-- What every message has that is passed on. -/
structure Deliverable (limit : Nat) (m : Message) : Prop where
  opcode : m.opcode = .text ∨ m.opcode = .binary ∨ m.opcode = .close ∨ m.opcode = .ping ∨ m.opcode = .pong
  control : m.opcode.isControl = true → m.payload.length ≤ payloadSizeBasic
  data : m.opcode.isControl = false → Fits limit m.payload.length
  text : m.opcode = .text → ∃ t, Utf8.Valid (m.payload ++ t)

theorem DataMessage.isControl {v : Validator} {m : Message} (h : DataMessage v m) :
    m.opcode.isControl = false := by
  rcases h.opcode with h | h <;> rw [h] <;> rfl

theorem ControlMessage.isControl {n : Nat} {m : Message} (h : ControlMessage n m) :
    m.opcode.isControl = true := by
  rcases h.opcode with h | h | h <;> rw [h] <;> rfl

theorem DataMessage.deliverable {limit : Nat} {v : Validator} {m : Message} (h : DataMessage v m)
    (hsize : Fits limit m.payload.length) : Deliverable limit m where
  opcode := h.opcode.imp_right .inl
  control hc := absurd hc (by rw [h.isControl]; nofun)
  data _ := hsize
  text htext := (isSome_decode_iff m.payload).mp (by rw [h.text htext]; rfl)

theorem ControlMessage.deliverable {limit : Nat} {m : Message} (h : ControlMessage 0 m) :
    Deliverable limit m where
  opcode := .inr (.inr h.opcode)
  control _ := h.size
  data hd := absurd h.isControl (by rw [hd]; nofun)
  text htext := by
    have hc := h.isControl
    rw [htext] at hc
    cases hc

theorem DataMessage.append {v w : Validator} {m : Message} (h : DataMessage v m) {u : Bytes}
    (hu : Processor.validated m.opcode v u = some w) :
    DataMessage w { m with payload := m.payload ++ u } where
  opcode := h.opcode
  text htext := by
    dsimp only at htext ⊢
    unfold Processor.validated at hu
    rw [if_pos htext] at hu
    rw [decode_append, h.text htext]
    exact hu

namespace Processor

/-- What the frame in hand still brings to the data message. -/
def announced (q : Processor) : Nat :=
  if q.state = .application ∧ q.current = .data then q.bytesNeeded else 0

/-- The invariant of the processor on any stream. -/
structure Bounded (limit : Nat) (q : Processor) : Prop where
  maxMessageSize : q.maxMessageSize = limit
  header : q.state = .headerExtended →
    validateIncomingBasicHeader q.basicHeader q.server q.dataMsg.msg.isNone = none
  data : ∀ m, q.dataMsg.msg = some m → DataMessage q.dataMsg.validator m
  size : ∀ m, q.dataMsg.msg = some m → Fits limit (m.payload.length + q.announced)
  control : q.current = .control → q.state = .application →
    q.basicHeader.getFin = true ∧ ∀ m, q.controlMsg.msg = some m → ControlMessage q.bytesNeeded m
  ready : q.state = .ready → ∀ m, q.currentMsg.msg = some m →
    Deliverable limit m ∧ q.current = if m.opcode.isControl then .control else .data

theorem bounded_new (server : Bool) (limit : Nat) : (new server limit).Bounded limit where
  maxMessageSize := rfl
  header := nofun
  data := nofun
  size := nofun
  control := nofun
  ready := nofun

theorem announced_of_ne {q : Processor} (h : q.state ≠ .application) : q.announced = 0 :=
  if_neg fun hand => h hand.1

@[simp] theorem announced_resetHeaders (q : Processor) : q.resetHeaders.announced = 0 :=
  announced_of_ne nofun

/-! ## Taking up bytes -/

theorem length_unmask (q : Processor) (u : Bytes) : (q.unmask u).1.length = u.length := by
  unfold unmask
  split
  · exact List.length_mapIdx
  · rfl

theorem holding_data {q : Processor} (h : q.current = .data) (msg : MsgMetadata) (n : Nat) :
    q.holding msg n = { q with dataMsg := msg, bytesNeeded := n } := by
  unfold holding setCurrentMsg
  rw [h]

theorem holding_control {q : Processor} (h : q.current = .control) (msg : MsgMetadata) (n : Nat) :
    q.holding msg n = { q with controlMsg := msg, bytesNeeded := n } := by
  unfold holding setCurrentMsg
  rw [h]

theorem Bounded.absorb {limit : Nat} {q q' : Processor} {u : Bytes} (hq : q.Hungry) (h : q.Bounded limit)
    (hu : u.length ≤ q.bytesNeeded) (habs : q.absorb u = .ok q') : q'.Bounded limit := by
  rcases hq.state_cases with hstate | hstate | hstate
  · obtain ⟨h', heq⟩ := copyBasicHeaderBytes_eq q (hq.basic hstate) hu
    rw [absorb_basic hstate, heq] at habs
    cases habs
    have hzero := q.announced_of_ne (by rw [hstate]; rintro ⟨⟩)
    exact { h with
      header := by simp [hstate]
      size := fun m hm => by
        have := h.size m hm
        rw [hzero] at this
        rwa [announced_of_ne (by dsimp only; rw [hstate]; rintro ⟨⟩)]
      control := by simp [hstate]
      ready := by simp [hstate] }
  · rw [absorb_extended hq.toSound hstate hu] at habs
    cases habs
    have hzero := q.announced_of_ne (by rw [hstate]; rintro ⟨⟩)
    exact { h with
      size := fun m hm => by
        have := h.size m hm
        rw [hzero] at this
        rwa [announced_of_ne (by unfold extend; dsimp only; rw [hstate]; rintro ⟨⟩)]
      control := by simp [extend, hstate]
      ready := by simp [extend, hstate] }
  · obtain ⟨m, hm⟩ := Option.isSome_iff_exists.mp (hq.message (.inl hstate))
    rw [absorb_application hstate hm] at habs
    rcases hv : validated m.opcode q.currentMsg.validator (q.unmask u).1 with _ | v
    · rw [hv] at habs
      cases habs
    · rw [hv] at habs
      cases habs
      have hlen := length_unmask q u
      rcases hcurrent : q.current with _ | _
      · have hdata : q.dataMsg.msg = some m := by rwa [currentMsg, hcurrent] at hm
        have hvalid : validated m.opcode q.dataMsg.validator (q.unmask u).1 = some v := by
          rwa [currentMsg, hcurrent] at hv
        have hsize := h.size m hdata
        rw [announced, if_pos ⟨hstate, hcurrent⟩] at hsize
        rw [holding_data hcurrent]
        exact { h with
          header := by simp [hstate]
          data := by
            rintro _ ⟨⟩
            exact (h.data m hdata).append hvalid
          size := by
            rintro _ ⟨⟩
            rw [announced, if_pos ⟨hstate, hcurrent⟩]
            dsimp only
            rw [List.length_append, hlen, Nat.add_assoc, Nat.add_sub_cancel' hu]
            exact hsize
          control := by simp [hcurrent]
          ready := by simp [hstate] }
      · have hcontrol : q.controlMsg.msg = some m := by rwa [currentMsg, hcurrent] at hm
        obtain ⟨hfin, hmsg⟩ := h.control hcurrent hstate
        rw [holding_control hcurrent]
        exact { h with
          header := by simp [hstate]
          size := fun m hm => by
            have hsize := h.size m hm
            rw [announced, if_neg (by rw [hcurrent]; rintro ⟨-, ⟨⟩⟩)] at hsize
            rwa [announced, if_neg (by dsimp only; rw [hcurrent]; rintro ⟨-, ⟨⟩⟩)]
          control := fun _ _ => by
            refine ⟨hfin, ?_⟩
            rintro _ ⟨⟩
            refine ⟨(hmsg m hcontrol).opcode, ?_⟩
            have hsize := (hmsg m hcontrol).size
            dsimp only
            rw [List.length_append, hlen]
            omega
          ready := by simp [hstate] }

/-! ## Going on -/

theorem check_passed {p : Prop} [Decidable p] {e : Error} {r : Option Error}
    (h : (if p then some e else r) = none) : ¬ p ∧ r = none := by
  split at h
  · cases h
  · rename_i hp
    exact ⟨hp, h⟩

/-- What a basic header says that passes the checks. -/
theorem accepted_header {h : BasicHeader} {server newMsg : Bool}
    (hvalid : validateIncomingBasicHeader h server newMsg = none) :
    (h.getOpcode.isControl = true → h.getFin = true ∧ h.getBasicSize ≤ payloadSizeBasic ∧
      (h.getOpcode = .close ∨ h.getOpcode = .ping ∨ h.getOpcode = .pong)) ∧
    (h.getOpcode.isControl = false → newMsg = true → h.getOpcode = .text ∨ h.getOpcode = .binary) := by
  obtain ⟨hsize, hvalid⟩ := check_passed hvalid
  obtain ⟨-, hvalid⟩ := check_passed hvalid
  obtain ⟨-, hvalid⟩ := check_passed hvalid
  obtain ⟨hreserved, hvalid⟩ := check_passed hvalid
  obtain ⟨-, hvalid⟩ := check_passed hvalid
  obtain ⟨hfin, hvalid⟩ := check_passed hvalid
  obtain ⟨hnew, -⟩ := check_passed hvalid
  have hcases : ∀ op : Opcode, op.reserved = false → op.isControl = true →
      op = .close ∨ op = .ping ∨ op = .pong := by
    intro op
    cases op <;> decide
  have hdata : ∀ op : Opcode, op.reserved = false → op.isControl = false → op ≠ .continuation →
      op = .text ∨ op = .binary := by
    intro op
    cases op <;> decide
  rw [Bool.not_eq_true] at hreserved
  constructor
  · intro hc
    rw [hc] at hsize hfin
    refine ⟨by simpa using hfin, ?_, hcases _ hreserved hc⟩
    simpa using hsize
  · intro hc hn
    rw [hn] at hnew
    exact hdata _ hreserved hc (by simpa using hnew)

theorem Bounded.beginPayload {limit : Nat} {q q' : Processor} (h : q.Bounded limit)
    (hstate : q.state = .headerExtended) (hbegin : settled q.beginPayload = .ok q') : q'.Bounded limit := by
  obtain ⟨hcontrol, hdata⟩ := accepted_header (h.header hstate)
  have hzero := q.announced_of_ne (hstate ▸ nofun)
  unfold Processor.beginPayload at hbegin
  dsimp only at hbegin
  split at hbegin
  · rename_i hc
    cases hbegin
    obtain ⟨hfin, hsize, hop⟩ := hcontrol hc
    exact { h with
      header := nofun
      size := fun m hm => by
        have := h.size m hm
        rw [hzero] at this
        rwa [announced, if_neg (by simp)]
      control := fun _ _ => by
        refine ⟨hfin, ?_⟩
        rintro _ ⟨⟩
        refine ⟨hop, ?_⟩
        dsimp only
        rw [getPayloadSize, if_pos hsize, List.length_nil, Nat.zero_add]
        exact hsize
      ready := nofun }
  · rename_i hc
    rw [Bool.not_eq_true] at hc
    split at hbegin
    · rename_i hnone
      split at hbegin
      · cases hbegin
      · rename_i hbig
        cases hbegin
        rw [h.maxMessageSize] at hbig
        exact { h with
          header := nofun
          data := by
            rintro _ ⟨⟩
            exact ⟨hdata hc (by rw [hnone]; rfl), fun _ => rfl⟩
          size := by
            rintro _ ⟨⟩
            refine .inl ?_
            rw [announced, if_pos ⟨rfl, rfl⟩, List.length_nil, Nat.zero_add]
            exact Nat.le_of_not_lt hbig
          control := nofun
          ready := nofun }
    · rename_i m hm
      split at hbegin
      · cases hbegin
      · rename_i hbig
        cases hbegin
        rw [h.maxMessageSize] at hbig
        exact { h with
          header := nofun
          data := fun m hm => h.data m hm
          size := fun m' hm' => by
            cases hm.symm.trans hm'
            rw [announced, if_pos ⟨rfl, rfl⟩]
            dsimp only
            by_cases hwrap : 2 ^ 64 ≤ m.payload.length + getPayloadSize q.basicHeader q.extendedHeader
            · exact .inr hwrap
            · rw [Nat.mod_eq_of_lt (by omega)] at hbig
              exact .inl (Nat.le_of_not_lt hbig)
          control := nofun
          ready := nofun }

theorem Bounded.next {limit : Nat} {q q' : Processor} (hq : q.Sound) (h : q.Bounded limit)
    (hneed : q.bytesNeeded = 0) (hstate : q.state ≠ .ready) (hnext : q.next = .ok q') :
    q'.Bounded limit := by
  unfold Processor.next at hnext
  rcases hs : q.state with _ | _ | _ | _ | _ | _
  all_goals
    rw [hs] at hnext
    dsimp only at hnext
  · have hzero := q.announced_of_ne (by rw [hs]; rintro ⟨⟩)
    split at hnext
    · cases hnext
    · rename_i hvalid
      cases hnext
      exact { h with
        header := fun _ => hvalid
        size := fun m hm => by
          have := h.size m hm
          rw [hzero] at this
          rwa [announced, if_neg (by simp)]
        control := fun _ h => by cases h
        ready := by rintro ⟨⟩ }
  · split at hnext
    · cases hnext
    · exact h.beginPayload hs hnext
  · exact absurd hs hq.state.1
  · have hzero : q.announced = 0 := by
      unfold announced
      split
      · exact hneed
      · rfl
    have hsize : ∀ m, q.dataMsg.msg = some m → Fits limit m.payload.length := by
      intro m hm
      have := h.size m hm
      rwa [hzero] at this
    split at hnext
    · obtain ⟨m, hm⟩ := Option.isSome_iff_exists.mp (hq.message (.inl hs))
      rw [finalizeMessage_eq hm, settled_ok] at hnext
      split at hnext
      · cases hnext
      · cases hnext
        exact { h with
          header := by rintro ⟨⟩
          size := fun m hm => by rw [announced, if_neg (by simp)]; exact hsize m hm
          control := fun _ h => by cases h
          ready := fun _ m hm => by
            rcases hcurrent : q.current with _ | _
            · have hdata : q.dataMsg.msg = some m := by simpa [currentMsg, hcurrent] using hm
              have hmsg := h.data m hdata
              exact ⟨hmsg.deliverable (hsize m hdata), by rw [hmsg.isControl]; rfl⟩
            · have hcontrol : q.controlMsg.msg = some m := by simpa [currentMsg, hcurrent] using hm
              have hmsg := (h.control hcurrent hs).2 m hcontrol
              rw [hneed] at hmsg
              exact ⟨hmsg.deliverable, by rw [hmsg.isControl]; rfl⟩ }
    · cases hnext
      exact { h with
        header := by rintro ⟨⟩
        size := fun m hm => by rw [announced_resetHeaders]; exact hsize m hm
        control := fun _ h => by cases h
        ready := by rintro ⟨⟩ }
  · exact absurd hs hstate
  · exact absurd hs hq.state.2

theorem Bounded.settle {limit n : Nat} {q q' : Processor} (hq : q.Sound) (h : q.Bounded limit)
    (hneed : q.bytesNeeded = 0) (hstate : q.state ≠ .ready) (hsettle : q.settle n = .ok q') :
    q'.Bounded limit := by
  induction n generalizing q with
  | zero =>
    cases hsettle
    exact h
  | succ n ih =>
    unfold Processor.settle at hsettle
    rcases hnext : q.next with e | q₁
    · rw [hnext] at hsettle
      cases hsettle
    · rw [hnext] at hsettle
      have hbounded := h.next hq hneed hstate hnext
      change (if q₁.state = .ready ∨ 0 < q₁.bytesNeeded then .ok q₁ else q₁.settle n) = .ok q' at hsettle
      split at hsettle
      · cases hsettle
        exact hbounded
      · rename_i hd
        rw [not_or] at hd
        exact ih (hq.next hstate hnext).1 hbounded (by omega) hd.1 hsettle

theorem Bounded.deliver {limit : Nat} {q : Processor} (hq : q.Sound) (h : q.Bounded limit) :
    q.deliver.1.Bounded limit ∧ ∀ m ∈ q.deliver.2, Deliverable limit m := by
  by_cases hstate : q.state = .ready
  · obtain ⟨m, hm⟩ := Option.isSome_iff_exists.mp (hq.message (.inr hstate))
    obtain ⟨hmsg, hcurrent⟩ := h.ready hstate m hm
    obtain ⟨q', hdeliver, -, hmax, hdata⟩ := deliver_ready hstate hm hcurrent
    rw [hdeliver]
    refine ⟨?_, fun m' hm' => List.mem_singleton.mp hm' ▸ hmsg⟩
    have hkept : ∀ m, q'.dataMsg.msg = some m → q.dataMsg.msg = some m ∧ q'.dataMsg = q.dataMsg := by
      intro m' hm'
      rw [hdata] at hm' ⊢
      split at hm' <;> simp_all
    have hzero := q.announced_of_ne (hstate ▸ nofun)
    exact {
      maxMessageSize := hmax.trans h.maxMessageSize
      header := nofun
      data := fun m hm => by
        obtain ⟨hold, heq⟩ := hkept m hm
        exact heq.symm ▸ h.data m hold
      size := fun m hm => by
        have := h.size m (hkept m hm).1
        rw [hzero] at this
        rwa [announced_resetHeaders]
      control := nofun
      ready := nofun }
  · have hdeliver : q.deliver = (q, []) := if_neg hstate
    rw [hdeliver]
    exact ⟨h, nofun⟩

/-! ## Any stream -/

theorem bounded_read {limit : Nat} {q : Processor} (hq : q.Hungry) (h : q.Bounded limit) (s : Bytes) :
    (∀ m ∈ (reader.read q s).1, Deliverable limit m) ∧
      ∀ q', (reader.read q s).2 = .ok q' → q'.Bounded limit := by
  refine BufferedReader.read_keeps reader_lawful ?_ ?_ s q hq h
  · intro q u q' hq h hu habs
    exact h.absorb hq hu habs
  · intro q u q₁ q₂ ms hq h hu habs hadv
    obtain ⟨hsound, hstate, hneed⟩ := hq.toSound.absorb hu.le habs
    have hzero : q₁.bytesNeeded = 0 := by
      have := hneed hq.not_ready
      change u.length = q.bytesNeeded at hu
      omega
    have hready : q₁.state ≠ .ready := hstate ▸ hq.not_ready
    have hbounded := h.absorb hq hu.le habs
    change deliver <$> Processor.settle 3 q₁ = .ok (q₂, ms) at hadv
    rcases hsettle : Processor.settle 3 q₁ with e | q'
    · rw [hsettle] at hadv
      cases hadv
    · rw [hsettle] at hadv
      have hdeliver : q'.deliver = (q₂, ms) := Except.ok.inj hadv
      have hrounds : rounds q₁.state ≤ 3 := by cases q₁.state <;> decide
      have hresult := (hbounded.settle hsound hzero hready hsettle).deliver
        (hsound.settle hready hrounds hsettle).1
      rw [hdeliver] at hresult
      exact hresult

/-- Whatever a peer sends, in whatever reads it comes: what is passed on is text
that can be continued to valid UTF-8, binary data or a control message of a known
kind, control messages are no longer than 125 bytes and data messages no longer
than the limit, unless they are so long that a `size_t` does not hold it. -/
theorem messages_deliverable (server : Bool) (limit : Nat) (bufs : List Bytes) :
    ∃ r, (new server limit).handleReads bufs = .ok r ∧ (∀ m ∈ r.1, Deliverable limit m) ∧
      ∀ q m, r.2 = .ok q → q.dataMsg.msg = some m → Fits limit (m.payload.length + q.announced) := by
  obtain ⟨hmsgs, hend⟩ := bounded_read (hungry_new server limit) (bounded_new server limit) bufs.flatten
  exact ⟨_, handleReads_eq (hungry_new server limit) bufs, hmsgs, fun q m hq hm => (hend q hq).size m hm⟩

/-! ## A length that wraps -/

/-- A binary frame of which only the headers and the first bytes have come. -/
theorem read_part {q : Processor} {a : Assembly} (h : Idle q a) {f : WireFrame}
    (hlen : f.payload.length < 2 ^ 64) (hviolation : f.violation a.server a.pending.isNone = none)
    {t : Message × Validator} (htarget : a.target f = .ok t) (hdata : f.opcode.isControl = false)
    (hbinary : t.1.opcode ≠ .text) {u : Bytes} (hu : u.length < f.payload.length) :
    ∃ q' m, reader.read q ([f.header.b0, f.header.b1] ++ (f.extension ++ u)) = ([], .ok q') ∧
      q'.dataMsg.msg = some m ∧ m.payload.length = t.1.payload.length + u.length := by
  have hsound := sound_behindHeader h f
  have hextend := (hsound.absorb (Nat.le_refl _) (absorb_extended hsound rfl (Nat.le_refl _))).1
  have hbegin := beginPayload_target (q := (behindHeader q f).extend f.extension) (a := a) (f := f) hlen
    rfl (extendedHeader_extension h f) h.server h.maxMessageSize h.message h.pending
  rw [htarget] at hbegin
  obtain ⟨q₁, hq₁, hpayload⟩ := hbegin
  have hcurrent : q₁.current = .data := by rw [hpayload.current, hdata]; rfl
  have hmsg : q₁.dataMsg.msg = some t.1 := by
    have := hpayload.msg
    rwa [currentMsg, hcurrent] at this
  have hhungry : q₁.Hungry := by
    refine ⟨(beginPayload_sound hextend hq₁).1, by rw [hpayload.state]; rintro ⟨⟩, ?_⟩
    rw [hpayload.need]
    omega
  rw [read_header h, hviolation]
  dsimp only
  rw [read_extension h f hlen, hq₁, readNext, readFrom_hungry hhungry]
  by_cases hnil : u = []
  · subst hnil
    exact ⟨q₁, t.1, BufferedReader.read_nil _, hmsg, rfl⟩
  · have habsorb : q₁.absorb u = .ok (q₁.holding
        { msg := some { t.1 with payload := t.1.payload ++ (q₁.unmask u).1 }
          preparedKey := (q₁.unmask u).2
          validator := q₁.currentMsg.validator } (q₁.bytesNeeded - u.length)) := by
      rw [absorb_application hpayload.state hpayload.msg, validated, if_neg hbinary]
    rw [BufferedReader.read_short reader_lawful hhungry hnil
      (show u.length < q₁.bytesNeeded by rw [hpayload.need]; exact hu)]
    refine ⟨_, { t.1 with payload := t.1.payload ++ (q₁.unmask u).1 }, congrArg (Prod.mk []) habsorb, ?_, ?_⟩
    · rw [holding_data hcurrent]
    · rw [List.length_append, length_unmask]

/-- The limit for the size of a message does not bound what is kept of it: a peer
that announces 2^64 - 1 more bytes behind a first fragment of one byte can send as
many as it likes, and they are kept. -/
theorem limit_bypassed (limit : Nat) (hlimit : 1 ≤ limit) (u : Bytes) (hu : u.length < 2 ^ 64 - 1) :
    ∃ s q m, s.length = 13 + u.length ∧ (new false limit).handleReads [s] = .ok ([], .ok q) ∧
      q.dataMsg.msg = some m ∧ m.payload.length = 1 + u.length := by
  obtain ⟨f, hop, hfin, hkey, hlen⟩ : ∃ f : WireFrame,
      f.opcode = .continuation ∧ f.fin = true ∧ f.key = none ∧ f.payload.length = 2 ^ 64 - 1 :=
    ⟨{ opcode := .continuation, fin := true, key := none, payload := List.replicate (2 ^ 64 - 1) 0 },
      rfl, rfl, rfl, List.length_replicate⟩
  let first : WireFrame := { opcode := .binary, fin := false, key := none, payload := [0] }
  have hfirst : (⟨false, limit, none⟩ : Assembly).accept first =
      .ok (⟨false, limit, some ({ opcode := .binary, payload := [0] }, .new)⟩, []) := by
    have htarget : (⟨false, limit, none⟩ : Assembly).target first = .ok ({ opcode := .binary }, .new) :=
      if_neg (Nat.not_lt.mpr hlimit)
    unfold Assembly.accept
    rw [htarget]
    rfl
  have hread := read_frame (idle_new false limit) first (by decide)
    ([f.header.b0, f.header.b1] ++ (f.extension ++ u))
  rw [hfirst] at hread
  obtain ⟨q₁, hq₁, hread⟩ := hread
  have hviolation : f.violation false false = none := by
    unfold WireFrame.violation
    rw [hop, hfin, hkey]
    rfl
  -- one byte and 2^64 - 1 are nothing as a size_t
  have htarget : (⟨false, limit, some ({ opcode := .binary, payload := [0] }, .new)⟩ : Assembly).target f =
      .ok ({ opcode := .binary, payload := [0] }, .new) := by
    have hcontrol : Opcode.continuation.isControl = false := rfl
    have hwrap : ¬ (List.length [(0 : UInt8)] + (2 ^ 64 - 1)) % 2 ^ 64 > limit := by
      rw [List.length_singleton]
      omega
    unfold Assembly.target
    simp only [hop, hlen, hcontrol, Bool.false_eq_true, if_false, if_neg hwrap]
  obtain ⟨q, m, hpart, hm, hsize⟩ := read_part hq₁ (by omega) hviolation htarget (by rw [hop]; rfl) nofun
    (u := u) (by omega)
  refine ⟨first.bytes ++ ([f.header.b0, f.header.b1] ++ (f.extension ++ u)), q, m, ?_, ?_, hm, hsize⟩
  · have hextension : f.extension.length = 8 := by
      unfold WireFrame.extension
      rw [hlen, hkey]
      rfl
    have hbytes : first.bytes.length = 3 := by
      rw [bytes_eq]
      rfl
    simp only [List.length_append, hextension, hbytes, List.length_cons, List.length_nil]
    omega
  · rw [handleReads_eq (hungry_new false limit), List.flatten_singleton, hread, hpart]
    rfl

theorem limit_bypassed_example :
    ∃ s q m, s.length = 16 ∧ (new false 1).handleReads [s] = .ok ([], .ok q) ∧
      q.dataMsg.msg = some m ∧ m.payload.length = 4 :=
  limit_bypassed 1 (Nat.le_refl 1) [1, 2, 3] (by decide)

end Processor

/-! ## Texts in fragments -/

/-- A message in frames, each with its key: the first has the opcode, the last
ends the message. -/
def fragments (op : Opcode) : List (Option UInt32 × Bytes) → List WireFrame
  | [] => []
  | [p] => [{ opcode := op, fin := true, key := p.1, payload := p.2 }]
  | p :: p' :: parts =>
    { opcode := op, fin := false, key := p.1, payload := p.2 } :: fragments .continuation (p' :: parts)

def textOf (parts : List (Option UInt32 × Bytes)) : Bytes := parts.flatMap Prod.snd

/-- What the processor lets pass of a text: whether its last character is complete
is asked of the last frame, if that has the opcode of the text. -/
def LetsPass (parts : List (Option UInt32 × Bytes)) : Prop :=
  if parts.length = 1 then Utf8.Valid (textOf parts) else ∃ t, Utf8.Valid (textOf parts ++ t)

namespace Assembly

variable {server : Bool} {limit : Nat}

theorem accept_continuation {f : WireFrame} {m : Message} {v : Validator} (hop : f.opcode = .continuation)
    (hkey : f.key.isSome = server) (htext : m.opcode = .text) (hlimit : limit < 2 ^ 64)
    (hsize : m.payload.length + f.payload.length ≤ limit) :
    (⟨server, limit, some (m, v)⟩ : Assembly).accept f =
      match v.decode f.payload with
      | none => .error .invalidUtf8
      | some w =>
        if f.fin then .ok (⟨server, limit, none⟩, [{ m with payload := m.payload ++ f.payload }])
        else .ok (⟨server, limit, some ({ m with payload := m.payload ++ f.payload }, w)⟩, []) := by
  have hviolation : f.violation server false = none := by
    unfold WireFrame.violation
    rw [hop, hkey]
    cases server <;> rfl
  have htarget : (⟨server, limit, some (m, v)⟩ : Assembly).target f = .ok (m, v) := by
    unfold Assembly.target
    rw [hop, if_neg (by decide)]
    refine if_neg ?_
    rw [Nat.mod_eq_of_lt (Nat.lt_of_le_of_lt hsize hlimit)]
    exact Nat.not_lt.mpr hsize
  unfold Assembly.accept
  rw [show f.violation server (some (m, v)).isNone = none from hviolation, htarget]
  unfold Assembly.extend Processor.validated
  simp only [bind, Except.bind, htext, hop, if_true]
  cases v.decode f.payload <;> rfl

theorem acceptAll_continuation (parts : List (Option UInt32 × Bytes)) (hne : parts ≠ [])
    (hkeys : ∀ p ∈ parts, p.1.isSome = server) (hlimit : limit < 2 ^ 64) {m : Message} {v : Validator}
    (htext : m.opcode = .text) (hsize : m.payload.length + (textOf parts).length ≤ limit) :
    (⟨server, limit, some (m, v)⟩ : Assembly).acceptAll (fragments .continuation parts) =
      match v.decode (textOf parts) with
      | none => ([], .error .invalidUtf8)
      | some _ => ([{ m with payload := m.payload ++ textOf parts }], .ok ⟨server, limit, none⟩) := by
  induction parts generalizing m v with
  | nil => exact absurd rfl hne
  | cons p parts ih =>
    have hkey := hkeys p List.mem_cons_self
    have hlen : (textOf (p :: parts)).length = p.2.length + (textOf parts).length := by
      unfold textOf
      rw [List.flatMap_cons, List.length_append]
    rcases parts with _ | ⟨p', parts⟩
    · have hflat : textOf [p] = p.2 := List.append_nil _
      rw [hflat] at hsize ⊢
      rw [fragments, Assembly.acceptAll, accept_continuation rfl hkey htext hlimit hsize]
      cases v.decode p.2 <;> rfl
    · have hcons : textOf (p :: p' :: parts) = p.2 ++ textOf (p' :: parts) := rfl
      rw [fragments, Assembly.acceptAll, accept_continuation rfl hkey htext hlimit (by dsimp only; omega),
        hcons, decode_append]
      rcases hv : v.decode p.2 with _ | w
      · rfl
      · have hrest := ih (List.cons_ne_nil _ _) (fun p hp => hkeys p (List.mem_cons_of_mem _ hp))
          (m := { m with payload := m.payload ++ p.2 }) (v := w) htext
          (by dsimp only; rw [List.length_append]; omega)
        dsimp only [Option.bind_some]
        rw [if_neg (Bool.false_ne_true)]
        dsimp only
        rw [hrest, BufferedReader.pass_nil, List.append_assoc]

theorem accept_text {f : WireFrame} (hop : f.opcode = .text) (hkey : f.key.isSome = server)
    (hsize : f.payload.length ≤ limit) :
    (⟨server, limit, none⟩ : Assembly).accept f =
      match Validator.new.decode f.payload with
      | none => .error .invalidUtf8
      | some w =>
        if f.fin then
          if w.complete = false then .error .invalidUtf8
          else .ok (⟨server, limit, none⟩, [{ opcode := .text, payload := f.payload }])
        else .ok (⟨server, limit, some ({ opcode := .text, payload := f.payload }, w)⟩, []) := by
  have hviolation : f.violation server true = none := by
    unfold WireFrame.violation
    rw [hop, hkey]
    cases server <;> rfl
  have htarget : (⟨server, limit, none⟩ : Assembly).target f = .ok ({ opcode := .text }, .new) := by
    unfold Assembly.target
    rw [hop, if_neg (by decide)]
    exact if_neg (Nat.not_lt.mpr hsize)
  unfold Assembly.accept
  rw [show f.violation server (none : Option (Message × Validator)).isNone = none from hviolation, htarget]
  unfold Assembly.extend Processor.validated
  simp only [bind, Except.bind, hop, if_true, true_and]
  cases Validator.new.decode f.payload <;> rfl

theorem acceptAll_text (parts : List (Option UInt32 × Bytes)) (hne : parts ≠ [])
    (hkeys : ∀ p ∈ parts, p.1.isSome = server) (hlimit : limit < 2 ^ 64)
    (hsize : (textOf parts).length ≤ limit) :
    (LetsPass parts → (⟨server, limit, none⟩ : Assembly).acceptAll (fragments .text parts) =
        ([{ opcode := .text, payload := textOf parts }], .ok ⟨server, limit, none⟩)) ∧
      (¬ LetsPass parts → (⟨server, limit, none⟩ : Assembly).acceptAll (fragments .text parts) =
        ([], .error .invalidUtf8)) := by
  rcases parts with _ | ⟨p, _ | ⟨p', parts⟩⟩
  · exact absurd rfl hne
  · have hflat : textOf [p] = p.2 := List.append_nil _
    have hpass : LetsPass [p] ↔ (Validator.new.decode p.2).any Validator.complete = true := by
      rw [any_complete_decode_iff, ← hflat]
      exact Iff.of_eq (if_pos rfl)
    rw [hflat] at hsize ⊢
    rw [fragments, Assembly.acceptAll, accept_text rfl (hkeys p List.mem_cons_self) hsize, hpass]
    dsimp only
    rcases Validator.new.decode p.2 with _ | w
    · exact ⟨by rintro ⟨⟩, fun _ => rfl⟩
    · rw [Option.any_some]
      dsimp only
      cases w.complete
      · exact ⟨by rintro ⟨⟩, fun _ => rfl⟩
      · exact ⟨fun _ => rfl, fun h => absurd rfl h⟩
  · have hcons : textOf (p :: p' :: parts) = p.2 ++ textOf (p' :: parts) := rfl
    have hpass : LetsPass (p :: p' :: parts) ↔
        (Validator.new.decode (p.2 ++ textOf (p' :: parts))).isSome = true := by
      rw [isSome_decode_iff, ← hcons]
      exact Iff.of_eq (if_neg (by simp))
    rw [hcons, List.length_append] at hsize
    rw [fragments, Assembly.acceptAll, accept_text rfl (hkeys p List.mem_cons_self) (by dsimp only; omega),
      hpass, hcons, decode_append]
    dsimp only
    rcases Validator.new.decode p.2 with _ | w
    · exact ⟨by rintro ⟨⟩, fun _ => rfl⟩
    · simp only [Option.bind_some, Bool.false_eq_true, if_false]
      rw [acceptAll_continuation (p' :: parts) (List.cons_ne_nil _ _)
        (fun p hp => hkeys p (List.mem_cons_of_mem _ hp)) hlimit
        rfl hsize, BufferedReader.pass_nil]
      cases w.decode (textOf (p' :: parts)) with
      | none => exact ⟨by rintro ⟨⟩, fun _ => rfl⟩
      | some _ => exact ⟨fun _ => rfl, fun h => absurd rfl h⟩

end Assembly

theorem length_fragment_le {f : WireFrame} {op : Opcode} {parts : List (Option UInt32 × Bytes)}
    (hf : f ∈ fragments op parts) : f.payload.length ≤ (textOf parts).length := by
  induction parts generalizing op with
  | nil => cases hf
  | cons p parts ih =>
    have hcons : (textOf (p :: parts)).length = p.2.length + (textOf parts).length := by
      unfold textOf
      rw [List.flatMap_cons, List.length_append]
    rcases parts with _ | ⟨p', parts⟩
    · cases List.mem_singleton.mp hf
      dsimp only
      omega
    · rcases List.mem_cons.mp hf with rfl | hf
      · dsimp only
        omega
      · have := ih hf
        omega

/-- Wherever the reader stands between two messages: a text that comes in one frame is
passed on exactly when it is valid UTF-8; one in several frames also when it breaks off
in the middle of its last character. Behind it the reader stands between two messages
again. -/
theorem fragmented_text {server : Bool} {limit : Nat} (hlimit : limit < 2 ^ 64) {q : Processor}
    (hidle : Idle q ⟨server, limit, none⟩) (parts : List (Option UInt32 × Bytes)) (hne : parts ≠ [])
    (hkeys : ∀ p ∈ parts, p.1.isSome = server) (hsize : (textOf parts).length ≤ limit) (bufs : List Bytes)
    (hbufs : bufs.flatten = wireBytes (fragments .text parts)) :
    (LetsPass parts → ∃ q', q.handleReads bufs =
        .ok ([{ opcode := .text, payload := textOf parts }], .ok q') ∧ Idle q' ⟨server, limit, none⟩) ∧
      (¬ LetsPass parts → q.handleReads bufs = .ok ([], .error .invalidUtf8)) := by
  have hlen : ∀ f ∈ fragments .text parts, f.payload.length < 2 ^ 64 := fun f hf =>
    Nat.lt_of_le_of_lt (Nat.le_trans (length_fragment_le hf) hsize) hlimit
  obtain ⟨hpass, hrefuse⟩ := Assembly.acceptAll_text parts hne hkeys hlimit hsize
  rw [Processor.handleReads_eq hidle.hungry, hbufs]
  constructor
  · intro h
    obtain ⟨q', hread, hidle'⟩ := read_taken hidle hlen (hpass h)
    exact ⟨q', congrArg _ hread, hidle'⟩
  · intro h
    exact congrArg _ (read_refused hidle hlen (hrefuse h))

/-- Two bytes of a character of three, in two frames. -/
theorem fragmented_text_cut :
    ∃ q, (Processor.new false 32000000).handleReads
        [wireBytes (fragments .text [(none, [0xE2]), (none, [0x82])])] =
      .ok ([{ opcode := .text, payload := [0xE2, 0x82] }], .ok q) ∧ Idle q ⟨false, 32000000, none⟩ :=
  (fragmented_text (by decide) (idle_new false 32000000) [(none, [0xE2]), (none, [0x82])] nofun (by decide)
    (by decide) [wireBytes (fragments .text [(none, [0xE2]), (none, [0x82])])] (List.append_nil _)).1
    ⟨[0xAC], (validate_iff _).mp (by decide +kernel)⟩

end TmatePlugin.L1.Hybi13
