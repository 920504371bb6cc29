import TmatePlugin.L1Base.Hybi13Stream

/-!
# Frames on the stream

What the processor makes of whole frames. `Assembly` is a peer as the protocol
has it: it takes one frame at a time, its payload in clear, and either refuses
it or passes messages on.

* `WireFrame`: a frame and the bytes it is sent as; `Assembly.accept`: what the
  peer does with it.
* `readFrom`, `readFrom_append`: the reader from a stage of a frame on.
* `read_frame`: a frame in front of any bytes is read as the peer accepts it;
  `read_frames`: any number of them.
* `handleReads_frames`: the code, from the first byte of a connection on,
  refines the peer.
-/
namespace TmatePlugin.L1.Hybi13

open CString TmatePlugin.L1.Frame Utf8Validator WordBytes

namespace Processor

/-! ## From one stage of a frame to the next -/

/-- Two rounds after the last there is nothing more to settle. -/
theorem settle_stable {n : Nat} {q : Processor} (hq : q.Sound) (hstate : q.state ≠ .ready)
    (hn : rounds q.state ≤ n) : q.settle (n + 1) = q.settle n := by
  induction n generalizing q with
  | zero =>
    have h1 := hq.state
    cases hs : q.state <;> simp_all [rounds]
  | succ n ih =>
    rw [settle, settle]
    rcases hnext : q.next with e | q'
    · rfl
    · obtain ⟨hsound, hdone⟩ := hq.next hstate hnext
      change (if _ then _ else _) = (if _ then _ else _)
      split_ifs with hd
      · rfl
      · rw [not_or] at hd
        obtain hready | hpos | ⟨-, hlt⟩ := hdone
        · exact absurd hready hd.1
        · exact absurd hpos hd.2
        · exact ih hsound hd.1 (by omega)

/-- The stream behind what has settled. -/
def finish (r : Except Error Processor) (s : Bytes) : BufferedReader.Delivery Processor Message Error :=
  match r with
  | .error e => ([], .error e)
  | .ok q => BufferedReader.pass q.deliver.2 (reader.read q.deliver.1 s)

/-- The stream from a stage of a frame on, which may need no bytes. -/
def readFrom (q : Processor) (s : Bytes) : BufferedReader.Delivery Processor Message Error :=
  finish (if q.state = .ready ∨ 0 < q.bytesNeeded then .ok q else q.settle 3) s

/-- The stream from the next stage on. -/
def readNext (r : Except Error Processor) (s : Bytes) : BufferedReader.Delivery Processor Message Error :=
  match r with
  | .error e => ([], .error e)
  | .ok q => q.readFrom s

theorem readFrom_hungry {q : Processor} (hq : q.Hungry) (s : Bytes) :
    q.readFrom s = reader.read q s := by
  have hdeliver : q.deliver = (q, []) := if_neg hq.not_ready
  unfold readFrom finish
  rw [if_pos (.inr hq.need)]
  simp only [hdeliver, BufferedReader.pass_nil]

theorem readFrom_ready {q : Processor} (hstate : q.state = .ready) (s : Bytes) :
    q.readFrom s = BufferedReader.pass q.deliver.2 (reader.read q.deliver.1 s) := by
  unfold readFrom
  rw [if_pos (.inl hstate)]
  rfl

theorem finish_settle {q : Processor} (hq : q.Sound) (hstate : q.state ≠ .ready) (s : Bytes) :
    finish (q.settle 3) s = readNext q.next s := by
  rw [settle]
  rcases hnext : q.next with e | q'
  · rfl
  · obtain ⟨hsound, hdone⟩ := hq.next hstate hnext
    have hrounds : rounds q.state ≤ 3 := by cases q.state <;> decide
    change finish (if q'.state = .ready ∨ 0 < q'.bytesNeeded then .ok q' else q'.settle 2) s =
      finish (if q'.state = .ready ∨ 0 < q'.bytesNeeded then .ok q' else q'.settle 3) s
    split_ifs with hd
    · rfl
    · rw [not_or] at hd
      obtain hready | hpos | ⟨-, hlt⟩ := hdone
      · exact absurd hready hd.1
      · exact absurd hpos hd.2
      · rw [settle_stable (n := 2) hsound hd.1 (by omega)]

/-- A stage behind the bytes it needs. -/
theorem readFrom_append {q : Processor} (hq : q.Sound) (hstate : q.state ≠ .ready) {u : Bytes}
    (hu : u.length = q.bytesNeeded) (s : Bytes) :
    q.readFrom (u ++ s) = readNext (q.absorb u >>= next) s := by
  by_cases hneed : 0 < q.bytesNeeded
  · have hhungry : q.Hungry := ⟨hq, hstate, hneed⟩
    rw [readFrom_hungry hhungry, BufferedReader.read_fill reader_lawful hhungry s hu]
    rcases habs : q.absorb u with e | q₁
    · have habs' : reader.absorb q u = .error e := habs
      rw [habs']
      rfl
    · have habs' : reader.absorb q u = .ok q₁ := habs
      obtain ⟨hsound, hstate', -⟩ := hq.absorb hu.le habs
      rw [habs']
      refine Eq.trans ?_ (finish_settle hsound (hstate' ▸ hstate) s)
      rcases hsettle : q₁.settle 3 with e | q₂
      · have hadv : reader.advance q₁ = .error e := congrArg (deliver <$> ·) hsettle
        simp only [bind, Except.bind, hadv]
        rfl
      · have hadv : reader.advance q₁ = .ok q₂.deliver := congrArg (deliver <$> ·) hsettle
        simp only [bind, Except.bind, hadv]
        rfl
  · have hnil : u = [] := List.length_eq_zero_iff.mp (by omega)
    subst hnil
    rw [absorb_nil hq, List.nil_append, readFrom, if_neg (not_or.mpr ⟨hstate, hneed⟩)]
    exact finish_settle hq hstate s

end Processor

/-! ## Frames and the messages they make -/

/-- A frame, its payload in clear. -/
structure WireFrame where
  opcode : Opcode
  fin : Bool
  key : Option UInt32
  payload : Bytes

namespace WireFrame

def header (f : WireFrame) : BasicHeader :=
  .make f.opcode f.payload.length f.fin f.key.isSome false

/-- The payload as it is sent. -/
def body (f : WireFrame) : Bytes :=
  match f.key with
  | none => f.payload
  | some key => byteMask f.payload key 0

def bytes (f : WireFrame) : Bytes :=
  prepareHeader f.header (.make f.payload.length f.key) ++ f.body

/-- What the protocol forbids at this place. -/
def violation (f : WireFrame) (server newMsg : Bool) : Option Error :=
  if f.opcode.isControl && f.payload.length > payloadSizeBasic then some .controlTooBig
  else if f.opcode.reserved then some .invalidOpcode
  else if f.opcode.isControl && !f.fin then some .fragmentedControl
  else if newMsg && f.opcode == .continuation then some .invalidContinuation
  else if !newMsg && !f.opcode.isControl && f.opcode != .continuation then some .invalidContinuation
  else if server && !f.key.isSome then some .maskingRequired
  else if !server && f.key.isSome then some .maskingForbidden
  else none

end WireFrame

/-- A peer between two frames: the message that is not complete yet, and how far
it is valid UTF-8. -/
structure Assembly where
  server : Bool
  maxMessageSize : Nat
  pending : Option (Message × Validator) := none

namespace Assembly

/-- The message a frame goes on with, or begins. -/
def target (a : Assembly) (f : WireFrame) : Except Error (Message × Validator) :=
  if f.opcode.isControl then .ok ({ opcode := f.opcode }, .new)
  else
    match a.pending with
    | none =>
      if f.payload.length > a.maxMessageSize then .error .messageTooBig
      else .ok ({ opcode := f.opcode }, .new)
    | some (m, v) =>
      if (m.payload.length + f.payload.length) % 2 ^ 64 > a.maxMessageSize then .error .messageTooBig
      else .ok (m, v)

/-- The frame's payload behind that of the message. -/
def extend (a : Assembly) (f : WireFrame) (t : Message × Validator) :
    Except Error (Assembly × List Message) :=
  let m := { t.1 with payload := t.1.payload ++ f.payload }
  match Processor.validated m.opcode t.2 f.payload with
  | none => .error .invalidUtf8
  | some v =>
    if f.fin then
      if f.opcode = .text ∧ v.complete = false then .error .invalidUtf8
      else .ok ({ a with pending := if f.opcode.isControl then a.pending else none }, [m])
    else .ok ({ a with pending := some (m, v) }, [])

def accept (a : Assembly) (f : WireFrame) : Except Error (Assembly × List Message) :=
  match f.violation a.server a.pending.isNone with
  | some e => .error e
  | none => a.target f >>= a.extend f

end Assembly

/-! ## Reading a frame -/

theorem length_header_le (f : WireFrame) :
    f.header.getBasicSize > payloadSizeBasic ↔ f.payload.length > payloadSizeBasic := by
  unfold WireFrame.header
  rw [make_getBasicSize, basicValue_toNat]
  split
  · rfl
  · rename_i h
    split <;> exact ⟨fun _ => Nat.lt_of_not_le h, fun _ => by decide⟩

theorem validate_header (f : WireFrame) (server newMsg : Bool) :
    Processor.validateIncomingBasicHeader f.header server newMsg = f.violation server newMsg := by
  have hmake := make_fields f.opcode f.payload.length f.fin f.key.isSome false
  have hmask : f.header.getMasked = f.key.isSome := make_getMasked _ _ _ _ _
  have hvalid : f.opcode.invalid = false := by cases f.opcode <;> rfl
  unfold Processor.validateIncomingBasicHeader WireFrame.violation
  simp only [length_header_le, hmask]
  unfold WireFrame.header
  simp only [hmake.opcode, hmake.fin, hmake.rsv1, hmake.rsv2, hmake.rsv3, hvalid, Bool.or_self,
    Bool.false_eq_true, if_false]

theorem validate_extended (f : WireFrame) (h : f.payload.length < 2 ^ 64) :
    Processor.validateIncomingExtendedHeader f.header (.make f.payload.length f.key) = none := by
  unfold Processor.validateIncomingExtendedHeader WireFrame.header
  rw [make_getPayloadSize f.opcode f.fin false f.key h, make_getBasicSize, basicValue_toNat]
  by_cases hbasic : f.payload.length ≤ payloadSizeBasic
  · simp only [if_pos hbasic]
    unfold payloadSizeBasic at hbasic
    rw [if_neg (by omega), if_neg (by omega)]
  · simp only [if_neg hbasic]
    split <;> simp_all

open Processor

/-- The processor stands between two frames, where the peer does. -/
structure Idle (q : Processor) (a : Assembly) : Prop where
  state : q.state = .headerBasic
  need : q.bytesNeeded = 2
  extended : q.extendedHeader = {}
  server : q.server = a.server
  maxMessageSize : q.maxMessageSize = a.maxMessageSize
  message : q.dataMsg.msg = a.pending.map Prod.fst
  pending : ∀ m v, a.pending = some (m, v) → q.dataMsg.validator = v ∧ m.opcode.isControl = false

theorem idle_new (server : Bool) (maxMessageSize : Nat) :
    Idle (.new server maxMessageSize) { server := server, maxMessageSize := maxMessageSize } where
  state := rfl
  need := rfl
  extended := rfl
  server := rfl
  maxMessageSize := rfl
  message := rfl
  pending := nofun

theorem Idle.hungry {q : Processor} {a : Assembly} (h : Idle q a) : q.Hungry where
  state := by rw [h.state]; exact ⟨nofun, nofun⟩
  length := by rw [h.extended]; rfl
  basic _ := h.need.le
  extended := by rw [h.state]; nofun
  message := by rw [h.state]; nofun
  key := by rw [h.state]; nofun
  not_ready := by rw [h.state]; nofun
  need := by rw [h.need]; exact Nat.two_pos

/-- The processor in the payload of a frame, with the message it goes on with. -/
structure Holds (q : Processor) (a : Assembly) (f : WireFrame) (t : Message × Validator) : Prop where
  state : q.state = .application
  header : q.basicHeader = f.header
  server : q.server = a.server
  maxMessageSize : q.maxMessageSize = a.maxMessageSize
  current : q.current = if f.opcode.isControl then .control else .data
  msg : q.currentMsg.msg = some t.1
  validator : q.currentMsg.validator = t.2
  opcode : t.1.opcode.isControl = f.opcode.isControl
  message : f.opcode.isControl = true → q.dataMsg.msg = a.pending.map Prod.fst
  pending : f.opcode.isControl = true →
    ∀ m v, a.pending = some (m, v) → q.dataMsg.validator = v ∧ m.opcode.isControl = false

/-- At the beginning of the payload. -/
structure InPayload (q : Processor) (a : Assembly) (f : WireFrame) (t : Message × Validator) : Prop
    extends Holds q a f t where
  need : q.bytesNeeded = f.payload.length
  key : q.currentMsg.preparedKey = prepareMaskingKey (f.key.getD 0)

theorem getOpcode_header (f : WireFrame) : f.header.getOpcode = f.opcode :=
  (make_fields _ _ _ _ _).opcode

theorem getFin_header (f : WireFrame) : f.header.getFin = f.fin := (make_fields _ _ _ _ _).fin

/-- Behind the headers the processor is in the payload of the message that the
frame goes on with. -/
theorem beginPayload_target {q : Processor} {a : Assembly} {f : WireFrame}
    (hlen : f.payload.length < 2 ^ 64) (hheader : q.basicHeader = f.header)
    (hextended : q.extendedHeader = .make f.payload.length f.key) (hserver : q.server = a.server)
    (hmax : q.maxMessageSize = a.maxMessageSize) (hmessage : q.dataMsg.msg = a.pending.map Prod.fst)
    (hpending : ∀ m v, a.pending = some (m, v) → q.dataMsg.validator = v ∧ m.opcode.isControl = false) :
    match a.target f with
    | .error e => settled q.beginPayload = .error e
    | .ok t => ∃ q', settled q.beginPayload = .ok q' ∧ InPayload q' a f t := by
  have hsize : getPayloadSize f.header (.make f.payload.length f.key) = f.payload.length :=
    make_getPayloadSize _ _ _ _ hlen _
  have hkey : getMaskingKey f.header (.make f.payload.length f.key) = f.key.getD 0 :=
    make_getMaskingKey _ _ _ _ _
  have hbytes : (ExtendedHeader.make f.payload.length f.key).bytes.length = maxExtendedHeaderLength := by
    rw [make_bytes, length_copyTo]
    · rfl
    · have := length_sizeBytes_le f.payload.length
      have := length_keyBytes_le f.key
      rw [List.length_append, List.length_replicate]
      omega
  unfold Processor.beginPayload Assembly.target
  simp only [hheader, hextended, hsize, hkey, getOpcode_header, hmax]
  by_cases hcontrol : f.opcode.isControl = true
  · simp only [if_pos hcontrol, settled_ok]
    exact ⟨_, rfl, ⟨⟨rfl, rfl, hserver, rfl, by rw [if_pos hcontrol], rfl, rfl, rfl, fun _ => hmessage,
      fun _ => hpending⟩, rfl, rfl⟩⟩
  · have hdata : ∀ {p : Prop}, f.opcode.isControl = true → p := fun h => absurd h hcontrol
    simp only [if_neg hcontrol, hmessage]
    rcases hp : a.pending with _ | ⟨m, v⟩
    · simp only [Option.map_none]
      by_cases hbig : f.payload.length > a.maxMessageSize
      · simp only [if_pos hbig]
        rfl
      · simp only [if_neg hbig]
        exact ⟨_, rfl, ⟨⟨rfl, rfl, hserver, rfl, by rw [if_neg hcontrol], rfl, rfl, rfl, hdata, hdata⟩,
          rfl, rfl⟩⟩
    · obtain ⟨hv, hm⟩ := hpending m v hp
      simp only [Option.map_some]
      by_cases hbig : (m.payload.length + f.payload.length) % 2 ^ 64 > a.maxMessageSize
      · simp only [if_pos hbig]
        rfl
      · simp only [if_neg hbig]
        exact ⟨_, rfl, ⟨⟨rfl, rfl, hserver, rfl, by rw [if_neg hcontrol], rfl, hv,
          by simpa [hm] using hcontrol, hdata, hdata⟩, rfl, rfl⟩⟩

/-- The message is taken out, the other one stays. -/
theorem deliver_ready {q : Processor} {m : Message} (hstate : q.state = .ready)
    (hm : q.currentMsg.msg = some m)
    (hcurrent : q.current = if m.opcode.isControl then .control else .data) :
    ∃ q' : Processor, q.deliver = (q'.resetHeaders, [m]) ∧ q'.server = q.server ∧
      q'.maxMessageSize = q.maxMessageSize ∧
      q'.dataMsg = if m.opcode.isControl then q.dataMsg else { q.dataMsg with msg := none } := by
  unfold Processor.deliver Processor.getMessage
  rw [if_pos hstate, if_neg (not_not_intro hstate), hm]
  by_cases hcontrol : m.opcode.isControl = true
  · rw [if_pos hcontrol] at hcurrent
    exact ⟨_, rfl, by simp [setCurrentMsg, hcurrent, hcontrol], by simp [setCurrentMsg, hcurrent, hcontrol],
      by simp [setCurrentMsg, hcurrent, hcontrol]⟩
  · rw [if_neg hcontrol] at hcurrent
    exact ⟨_, rfl, by simp [setCurrentMsg, hcurrent, hcontrol], by simp [setCurrentMsg, hcurrent, hcontrol],
      by simp [setCurrentMsg, currentMsg, hcurrent, hcontrol]⟩

theorem length_body (f : WireFrame) : f.body.length = f.payload.length := by
  unfold WireFrame.body
  split
  · rfl
  · rw [byteMask_eq, length_xorFrom]

theorem unmask_body {q : Processor} {a : Assembly} {f : WireFrame} {t : Message × Validator}
    (h : InPayload q a f t) : (q.unmask f.body).1 = f.payload := by
  have hmask : q.basicHeader.getMasked = f.key.isSome := by
    rw [h.header]
    exact make_getMasked _ _ _ _ _
  unfold Processor.unmask
  rw [hmask, h.key]
  unfold WireFrame.body
  cases f.key with
  | none => rfl
  | some key => exact byteMaskCirc_byteMask key f.payload

/-- The processor holds the message with more of its payload. -/
theorem Holds.holding {q : Processor} {a : Assembly} {f : WireFrame} {t : Message × Validator}
    (h : Holds q a f t) {m : Message} (hm : m.opcode = t.1.opcode) (key : UInt64) (v : Validator) (n : Nat) :
    Holds (q.holding { msg := some m, preparedKey := key, validator := v } n) a f (m, v) := by
  have hdata : f.opcode.isControl = true →
      (q.holding { msg := some m, preparedKey := key, validator := v } n).dataMsg = q.dataMsg := by
    intro hcontrol
    have hcurrent := h.current
    rw [if_pos hcontrol] at hcurrent
    unfold Processor.holding setCurrentMsg
    rw [hcurrent]
  exact {
    state := by rw [holding_state]; exact h.state
    header := by rw [holding_basicHeader]; exact h.header
    server := by rw [← h.server]; unfold Processor.holding setCurrentMsg; cases q.current <;> rfl
    maxMessageSize := by
      rw [← h.maxMessageSize]; unfold Processor.holding setCurrentMsg; cases q.current <;> rfl
    current := by rw [← h.current]; unfold Processor.holding setCurrentMsg; cases q.current <;> simp
    msg := by rw [holding_currentMsg]
    validator := by rw [holding_currentMsg]
    opcode := by rw [hm]; exact h.opcode
    message := fun hc => by rw [hdata hc]; exact h.message hc
    pending := fun hc => by rw [hdata hc]; exact h.pending hc }

/-- Behind the payload the message is complete, or waits for the next frame. -/
theorem readNext_holds {q : Processor} {a : Assembly} {f : WireFrame} {m : Message} {v : Validator}
    (h : Holds q a f (m, v)) (hcontrol : f.opcode.isControl = true → f.fin = true) (s : Bytes) :
    match (if f.fin then
        if f.opcode = .text ∧ v.complete = false then .error Error.invalidUtf8
        else .ok ({ a with pending := if f.opcode.isControl then a.pending else none }, [m])
      else .ok ({ a with pending := some (m, v) }, []) : Except Error (Assembly × List Message)) with
    | .error e => readNext q.next s = ([], .error e)
    | .ok (a', ms) => ∃ q', Idle q' a' ∧ readNext q.next s = BufferedReader.pass ms (reader.read q' s) := by
  have hfin' : q.basicHeader.getFin = f.fin := by rw [h.header, getFin_header]
  have hopcode : q.basicHeader.getOpcode = f.opcode := by rw [h.header, getOpcode_header]
  unfold Processor.next
  rw [h.state]
  simp only [hfin', finalizeMessage_eq h.msg, hopcode, h.validator, settled_ok]
  by_cases hfin : f.fin = true
  · simp only [if_pos hfin]
    by_cases hincomplete : f.opcode = .text ∧ v.complete = false
    · simp only [if_pos hincomplete]
      rfl
    · simp only [if_neg hincomplete]
      obtain ⟨q', hdeliver, hserver, hmax, hdata⟩ := deliver_ready (q := { q with state := .ready })
        (m := m) rfl h.msg (h.opcode.symm ▸ h.current)
      have hread : readNext (.ok { q with state := .ready }) s =
          BufferedReader.pass [m] (reader.read q'.resetHeaders s) := by
        rw [readNext, readFrom_ready rfl, hdeliver]
      refine ⟨q'.resetHeaders, ⟨rfl, rfl, rfl, hserver.trans h.server, hmax.trans h.maxMessageSize, ?_, ?_⟩, hread⟩
      · change q'.dataMsg.msg = _
        rw [hdata]
        by_cases hc : f.opcode.isControl = true
        · rw [if_pos (h.opcode.trans hc), if_pos hc]
          exact h.message hc
        · rw [if_neg (fun hm => hc (h.opcode.symm.trans hm)), if_neg hc]
          rfl
      · change ∀ m' v', _ → q'.dataMsg.validator = v' ∧ _
        rw [hdata]
        by_cases hc : f.opcode.isControl = true
        · rw [if_pos (h.opcode.trans hc), if_pos hc]
          exact h.pending hc
        · rw [if_neg hc]
          nofun
  · simp only [if_neg hfin]
    have hcontrol : f.opcode.isControl = false := by
      by_contra hne
      exact hfin (hcontrol (Bool.not_eq_false _ ▸ hne))
    have hcurrent : q.current = .data := by rw [h.current, hcontrol]; rfl
    have hmsg := h.msg
    have hvalidator := h.validator
    unfold Processor.currentMsg at hmsg hvalidator
    rw [hcurrent] at hmsg hvalidator
    refine ⟨q.resetHeaders, ⟨rfl, rfl, rfl, h.server, h.maxMessageSize, hmsg, ?_⟩, ?_⟩
    · intro m' v' heq
      cases heq
      exact ⟨hvalidator, h.opcode.trans hcontrol⟩
    · exact readFrom_hungry (sound_resetHeaders q) s

/-- The payload, and the end of the frame. -/
theorem readFrom_body {q : Processor} {a : Assembly} {f : WireFrame} {t : Message × Validator}
    (hq : q.Sound) (h : InPayload q a f t) (hcontrol : f.opcode.isControl = true → f.fin = true) (s : Bytes) :
    match a.extend f t with
    | .error e => q.readFrom (f.body ++ s) = ([], .error e)
    | .ok (a', ms) =>
      ∃ q', Idle q' a' ∧ q.readFrom (f.body ++ s) = BufferedReader.pass ms (reader.read q' s) := by
  have hready : q.state ≠ .ready := by rw [h.state]; nofun
  have hneed : q.bytesNeeded - f.body.length = 0 := by rw [h.need, length_body, Nat.sub_self]
  rw [readFrom_append hq hready ((length_body f).trans h.need.symm), absorb_application h.state h.msg,
    unmask_body h, h.validator, hneed]
  unfold Assembly.extend
  dsimp only
  rcases validated t.1.opcode t.2 f.payload with _ | v
  · rfl
  · have hnext := readNext_holds (h.toHolds.holding
      (m := { t.1 with payload := t.1.payload ++ f.payload }) rfl (q.unmask f.body).2 v 0) hcontrol s
    exact hnext

theorem fin_of_control {f : WireFrame} {server newMsg : Bool} (h : f.violation server newMsg = none)
    (hcontrol : f.opcode.isControl = true) : f.fin = true := by
  by_contra hfin
  unfold WireFrame.violation at h
  split_ifs at h
  simp_all

/-- The extended header. -/
def WireFrame.extension (f : WireFrame) : Bytes := sizeBytes f.payload.length ++ keyBytes f.key

theorem bytes_eq (f : WireFrame) :
    f.bytes = [f.header.b0, f.header.b1] ++ (f.extension ++ f.body) := by
  unfold WireFrame.bytes WireFrame.header
  rw [prepareHeader_make]
  exact List.append_assoc _ _ _

/-- The processor behind the basic header. -/
def behindHeader (q : Processor) (f : WireFrame) : Processor :=
  { q with
    basicHeader := f.header
    state := .headerExtended
    cursor := 0
    bytesNeeded := f.extension.length }

theorem read_header {q : Processor} {a : Assembly} (h : Idle q a) (f : WireFrame) (s : Bytes) :
    reader.read q ([f.header.b0, f.header.b1] ++ s) =
      match f.violation a.server a.pending.isNone with
      | some e => ([], .error e)
      | none => (behindHeader q f).readFrom s := by
  have hvalid : validateIncomingBasicHeader f.header q.server q.dataMsg.msg.isNone =
      f.violation a.server a.pending.isNone := by
    rw [h.message, Option.isNone_map, h.server, validate_header]
  have hextension : f.header.getHeaderLen - basicHeaderLength = f.extension.length := by
    unfold WireFrame.header
    rw [make_getHeaderLen, Nat.add_sub_cancel_left]
    rfl
  have habsorb : q.absorb [f.header.b0, f.header.b1] =
      .ok { q with basicHeader := f.header, bytesNeeded := 0 } := by
    rw [absorb_basic h.state, copyBasicHeaderBytes, h.need]
    rfl
  have hnext : ({ q with basicHeader := f.header, bytesNeeded := 0 } : Processor).next =
      match f.violation a.server a.pending.isNone with
      | some e => .error e
      | none => .ok (behindHeader q f) := by
    unfold Processor.next
    simp only [h.state, hvalid, hextension]
    cases f.violation a.server a.pending.isNone <;> rfl
  have hbind : (.ok { q with basicHeader := f.header, bytesNeeded := 0 } >>= Processor.next :
      Except Error Processor) = _ := hnext
  rw [← readFrom_hungry h.hungry, readFrom_append h.hungry.toSound h.hungry.not_ready
    (u := [f.header.b0, f.header.b1]) h.need.symm,
    habsorb, hbind]
  cases f.violation a.server a.pending.isNone <;> rfl

theorem sound_behindHeader {q : Processor} {a : Assembly} (h : Idle q a) (f : WireFrame) :
    (behindHeader q f).Sound where
  state := ⟨nofun, nofun⟩
  length := h.hungry.length
  basic := nofun
  extended _ := by
    have := length_sizeBytes_le f.payload.length
    have := length_keyBytes_le f.key
    unfold behindHeader WireFrame.extension maxExtendedHeaderLength
    simp only [List.length_append]
    omega
  message := nofun
  key := nofun

theorem extendedHeader_extension {q : Processor} {a : Assembly} (h : Idle q a) (f : WireFrame) :
    ((behindHeader q f).extend f.extension).extendedHeader = .make f.payload.length f.key := by
  unfold extend behindHeader
  rw [h.extended]
  exact congrArg ExtendedHeader.mk (make_bytes f.payload.length f.key).symm

theorem read_extension {q : Processor} {a : Assembly} (h : Idle q a) (f : WireFrame)
    (hlen : f.payload.length < 2 ^ 64) (s : Bytes) :
    (behindHeader q f).readFrom (f.extension ++ s) =
      readNext (settled ((behindHeader q f).extend f.extension).beginPayload) s := by
  have hsound := sound_behindHeader h f
  have hnext : ((behindHeader q f).extend f.extension).next =
      settled ((behindHeader q f).extend f.extension).beginPayload := by
    have hstate : ((behindHeader q f).extend f.extension).state = .headerExtended := rfl
    have hheader : ((behindHeader q f).extend f.extension).basicHeader = f.header := rfl
    unfold Processor.next
    rw [hstate]
    simp only [extendedHeader_extension h, hheader, validate_extended f hlen]
  rw [readFrom_append hsound nofun rfl, absorb_extended hsound rfl (Nat.le_refl _), ← hnext]
  rfl

/-- A frame is read as the peer accepts it. -/
theorem read_frame {q : Processor} {a : Assembly} (h : Idle q a) (f : WireFrame)
    (hlen : f.payload.length < 2 ^ 64) (s : Bytes) :
    match a.accept f with
    | .error e => reader.read q (f.bytes ++ s) = ([], .error e)
    | .ok (a', ms) =>
      ∃ q', Idle q' a' ∧ reader.read q (f.bytes ++ s) = BufferedReader.pass ms (reader.read q' s) := by
  unfold Assembly.accept
  rw [bytes_eq, List.append_assoc, List.append_assoc, read_header h]
  rcases hviolation : f.violation a.server a.pending.isNone with _ | e
  · have hsound := sound_behindHeader h f
    have hextend : ((behindHeader q f).extend f.extension).Sound :=
      (hsound.absorb (Nat.le_refl _) (absorb_extended hsound rfl (Nat.le_refl _))).1
    have htarget := beginPayload_target (q := (behindHeader q f).extend f.extension) (a := a) (f := f) hlen
      rfl (extendedHeader_extension h f) h.server h.maxMessageSize h.message h.pending
    dsimp only
    rw [read_extension h f hlen]
    rcases ht : a.target f with e | t
    · rw [ht] at htarget
      rw [htarget]
      rfl
    · rw [ht] at htarget
      obtain ⟨q', hq', hpayload⟩ := htarget
      rw [hq']
      exact readFrom_body (beginPayload_sound hextend hq').1 hpayload (fin_of_control hviolation) s
  · rfl

/-! ## Any number of frames -/

/-- One frame after the other, up to the first that is refused. -/
def Assembly.acceptAll (a : Assembly) : List WireFrame → BufferedReader.Delivery Assembly Message Error
  | [] => ([], .ok a)
  | f :: fs =>
    match a.accept f with
    | .error e => ([], .error e)
    | .ok (a', ms) => BufferedReader.pass ms (a'.acceptAll fs)

/-- The bytes of one frame after the other. -/
def wireBytes (fs : List WireFrame) : Bytes := fs.flatMap WireFrame.bytes

theorem read_frames {q : Processor} {a : Assembly} (h : Idle q a) (fs : List WireFrame)
    (hlen : ∀ f ∈ fs, f.payload.length < 2 ^ 64) (s : Bytes) :
    match a.acceptAll fs with
    | (ms, .error e) => reader.read q (wireBytes fs ++ s) = (ms, .error e)
    | (ms, .ok a') =>
      ∃ q', Idle q' a' ∧ reader.read q (wireBytes fs ++ s) = BufferedReader.pass ms (reader.read q' s) := by
  induction fs generalizing q a with
  | nil => exact ⟨q, h, rfl⟩
  | cons f fs ih =>
    have hframe := read_frame h f (hlen f List.mem_cons_self) (wireBytes fs ++ s)
    have hbytes : wireBytes (f :: fs) ++ s = f.bytes ++ (wireBytes fs ++ s) := by
      unfold wireBytes
      rw [List.flatMap_cons, List.append_assoc]
    rw [Assembly.acceptAll, hbytes]
    rcases ha : a.accept f with e | ⟨a', ms⟩
    · rw [ha] at hframe
      exact hframe
    · rw [ha] at hframe
      obtain ⟨q', hq', hread⟩ := hframe
      have hrest := ih hq' fun f hf => hlen f (List.mem_cons_of_mem _ hf)
      rw [hread]
      dsimp only
      generalize a'.acceptAll fs = r at hrest
      obtain ⟨ms', e | a''⟩ := r
      · exact congrArg (BufferedReader.pass ms) hrest
      · obtain ⟨q'', hq'', hread'⟩ := hrest
        exact ⟨q'', hq'', by rw [hread', BufferedReader.pass_pass]⟩

/-- Both have ended with the same error, or stand between the same two frames. -/
def SameEnd : Except Error Processor → Except Error Assembly → Prop
  | .error e, .error e' => e = e'
  | .ok q, .ok a => Idle q a
  | _, _ => False

/-- Frames are read as the peer accepts them. -/
theorem read_wireBytes {q : Processor} {a : Assembly} (h : Idle q a) (fs : List WireFrame)
    (hlen : ∀ f ∈ fs, f.payload.length < 2 ^ 64) :
    (reader.read q (wireBytes fs)).1 = (a.acceptAll fs).1 ∧
      SameEnd (reader.read q (wireBytes fs)).2 (a.acceptAll fs).2 := by
  have hread := read_frames h fs hlen []
  rw [List.append_nil] at hread
  generalize a.acceptAll fs = r at hread
  obtain ⟨ms, e | a'⟩ := r
  · rw [hread]
    exact ⟨rfl, rfl⟩
  · obtain ⟨q', hq', hread⟩ := hread
    rw [hread, BufferedReader.read_nil, BufferedReader.pass, List.append_nil]
    exact ⟨rfl, hq'⟩

/-- Frames that the peer takes are read whole. -/
theorem read_taken {q : Processor} {a a' : Assembly} (h : Idle q a) {fs : List WireFrame} {ms : List Message}
    (hlen : ∀ f ∈ fs, f.payload.length < 2 ^ 64) (haccept : a.acceptAll fs = (ms, .ok a')) :
    ∃ q', reader.read q (wireBytes fs) = (ms, .ok q') ∧ Idle q' a' := by
  obtain ⟨hmsgs, hend⟩ := read_wireBytes h fs hlen
  rw [haccept] at hmsgs hend
  generalize reader.read q (wireBytes fs) = r at hmsgs hend
  obtain ⟨ms', e | q'⟩ := r
  · exact hend.elim
  · exact ⟨q', Prod.ext hmsgs rfl, hend⟩

theorem read_refused {q : Processor} {a : Assembly} (h : Idle q a) {fs : List WireFrame} {ms : List Message}
    {e : Error} (hlen : ∀ f ∈ fs, f.payload.length < 2 ^ 64) (haccept : a.acceptAll fs = (ms, .error e)) :
    reader.read q (wireBytes fs) = (ms, .error e) := by
  obtain ⟨hmsgs, hend⟩ := read_wireBytes h fs hlen
  rw [haccept] at hmsgs hend
  generalize reader.read q (wireBytes fs) = r at hmsgs hend
  obtain ⟨ms', e' | q'⟩ := r
  · exact Prod.ext hmsgs (congrArg Except.error hend)
  · exact hend.elim

/-- From the first byte of a connection on, frames that come in any cuts are
read as the peer accepts them. -/
theorem handleReads_frames (server : Bool) (maxMessageSize : Nat) (fs : List WireFrame)
    (hlen : ∀ f ∈ fs, f.payload.length < 2 ^ 64) (bufs : List Bytes) (hbufs : bufs.flatten = wireBytes fs) :
    ∃ r, (Processor.new server maxMessageSize).handleReads bufs = .ok r ∧
      r.1 = (Assembly.acceptAll ⟨server, maxMessageSize, none⟩ fs).1 ∧
      SameEnd r.2 (Assembly.acceptAll ⟨server, maxMessageSize, none⟩ fs).2 := by
  refine ⟨_, handleReads_eq (hungry_new _ _) bufs, ?_⟩
  rw [hbufs]
  exact read_wireBytes (idle_new server maxMessageSize) fs hlen

/-- A text in two frames, with a ping between them. -/
def exampleFrames : List WireFrame := [
  { opcode := .text, fin := false, key := some 0x01020304, payload := [0x68] },
  { opcode := .ping, fin := true, key := some 0x0a0b0c0d, payload := [] },
  { opcode := .continuation, fin := true, key := some 0xffffffff, payload := [0x69] }]

theorem handleReads_frames_example :
    ∃ r, (Processor.new true 10).handleReads
          [(wireBytes exampleFrames).take 5, (wireBytes exampleFrames).drop 5] = .ok r ∧
      r.1 = [{ opcode := .ping }, { opcode := .text, payload := [0x68, 0x69] }] ∧
      SameEnd r.2 (.ok ⟨true, 10, none⟩) :=
  handleReads_frames true 10 exampleFrames (by decide)
    [(wireBytes exampleFrames).take 5, (wireBytes exampleFrames).drop 5]
    (by rw [List.flatten_cons, List.flatten_singleton, List.take_append_drop])

end TmatePlugin.L1.Hybi13
