import TmatePlugin.Lib.Loop
import TmatePlugin.L1Base.Frame
import TmatePlugin.L1Base.Utf8Validator

/-!
# The WebSocket processor (websocketpp/processors/hybi13.hpp)

`consume` takes a buffer of the TCP stream through the states of a frame (basic
header, extended header, payload) and stops with a message or an error;
`handleReadFrame` is the loop of `connection::handle_read_frame` around it.
`prepareDataFrame`, `prepareControl` and `prepareClose` make the frames that are
sent. The connection has no extensions (`permessage_deflate::disabled`).

What the code does not promise to survive is a fault: a null `msg_ptr` that is
followed, a write behind the 12 bytes of the extended header.
-/
namespace TmatePlugin.L1.Hybi13

open CString TmatePlugin.L1.Frame Utf8Validator

/-- mirrors websocket/websocketpp/processors/base.hpp:67-158 (`processor_errors`;
those of hybi13's frames) -/
inductive Error where
  | general | messageTooBig | invalidPayload | invalidOpcode | controlTooBig | invalidRsvBit
  | fragmentedControl | invalidContinuation | maskingRequired | maskingForbidden
  | nonMinimalEncoding | invalidUtf8 | reservedCloseCode | invalidCloseCode | reasonRequiresCode
  deriving DecidableEq, Repr

/-- mirrors websocket/websocketpp/message_buffer/message.hpp:47-330 (`message`; the flag
`terminal` and the manager are left out) -/
structure Message where
  opcode : Opcode
  header : Bytes := []
  payload : Bytes := []
  prepared : Bool := false
  fin : Bool := true
  compressed : Bool := false
  deriving DecidableEq

/-- mirrors websocket/websocketpp/processors/hybi13.hpp:1031-1041 (`msg_metadata`) -/
structure MsgMetadata where
  msg : Option Message := none
  preparedKey : UInt64 := 0
  validator : Validator := .new

/-- mirrors websocket/websocketpp/processors/hybi13.hpp:1038-1040 (`msg_metadata`) -/
def MsgMetadata.make (m : Message) (key : UInt32) : MsgMetadata :=
  { msg := some m, preparedKey := prepareMaskingKey key }

/-- mirrors websocket/websocketpp/processors/hybi13.hpp:1019-1026 (`state`) -/
inductive ReadState where
  | headerBasic | headerExtended | extension | application | ready | fatalError
  deriving DecidableEq

/-- Where `m_current_msg` points (before the first frame, nowhere). -/
inductive Current where
  | data | control
  deriving DecidableEq

/-- mirrors websocket/websocketpp/processors/hybi13.hpp:1043-1073 (the members) -/
structure Processor where
  server : Bool
  maxMessageSize : Nat
  basicHeader : BasicHeader := {}
  extendedHeader : ExtendedHeader := {}
  bytesNeeded : Nat := basicHeaderLength
  cursor : Nat := 0
  dataMsg : MsgMetadata := {}
  controlMsg : MsgMetadata := {}
  current : Current := .data
  state : ReadState := .headerBasic

/-! ## Close codes -/

namespace Close

/-- mirrors websocket/websocketpp/close.hpp:97 (`no_status`) -/
def noStatus : Nat := 1005

/-- mirrors websocket/websocketpp/close.hpp:184-187 (`reserved`) -/
def reserved (code : Nat) : Bool := (code ≥ 1016 && code ≤ 2999) || code == 1004

/-- mirrors websocket/websocketpp/close.hpp:199-203 (`invalid`) -/
def invalid (code : Nat) : Bool :=
  code ≤ 999 || code ≥ 5000 || code == noStatus || code == 1006 || code == 1015

end Close

/-! ## Reading -/

namespace Processor

/-- mirrors websocket/websocketpp/processors/hybi13.hpp:68-73 (`hybi13`), processor.hpp:168-172 -/
def new (server : Bool) (maxMessageSize : Nat) : Processor :=
  { server := server, maxMessageSize := maxMessageSize }

/-- `*m_current_msg` -/
def currentMsg (q : Processor) : MsgMetadata :=
  match q.current with
  | .data => q.dataMsg
  | .control => q.controlMsg

def setCurrentMsg (q : Processor) (m : MsgMetadata) : Processor :=
  match q.current with
  | .data => { q with dataMsg := m }
  | .control => { q with controlMsg := m }

/-- mirrors websocket/websocketpp/processors/hybi13.hpp:548-560 (`reset_headers`) -/
def resetHeaders (q : Processor) : Processor :=
  { q with
    state := .headerBasic
    bytesNeeded := basicHeaderLength
    basicHeader := {}
    extendedHeader := {} }

/-- mirrors websocket/websocketpp/processors/hybi13.hpp:744-773 (`copy_basic_header_bytes`) -/
def copyBasicHeaderBytes (q : Processor) (buf : Bytes) : Processor × Nat :=
  if q.bytesNeeded = 0 then (q, 0)
  else
    match buf with
    | [] => (q, 0)
    | c :: d :: _ =>
      if q.bytesNeeded = 2 then
        ({ q with basicHeader := ⟨c, d⟩, bytesNeeded := q.bytesNeeded - 2 }, 2)
      else
        ({ q with basicHeader := ⟨q.basicHeader.b0, c⟩, bytesNeeded := q.bytesNeeded - 1 }, 1)
    | [c] =>
      if q.bytesNeeded = 2 then
        ({ q with basicHeader := ⟨c, q.basicHeader.b1⟩, bytesNeeded := q.bytesNeeded - 1 }, 1)
      else
        ({ q with basicHeader := ⟨q.basicHeader.b0, c⟩, bytesNeeded := q.bytesNeeded - 1 }, 1)

/-- mirrors websocket/websocketpp/processors/hybi13.hpp:776-784 (`copy_extended_header_bytes`) -/
def copyExtendedHeaderBytes (q : Processor) (buf : Bytes) : Outcome (Processor × Nat) :=
  let bytesToRead := min q.bytesNeeded buf.length
  if q.cursor + bytesToRead ≤ maxExtendedHeaderLength then
    .ok ({ q with
      extendedHeader := ⟨copyTo q.extendedHeader.bytes q.cursor (buf.take bytesToRead)⟩
      cursor := q.cursor + bytesToRead
      bytesNeeded := q.bytesNeeded - bytesToRead }, bytesToRead)
  else .fault

/-- The first check that fails.
mirrors websocket/websocketpp/processors/hybi13.hpp:848-912 (`validate_incoming_basic_header`) -/
def validateIncomingBasicHeader (h : BasicHeader) (isServer newMsg : Bool) : Option Error :=
  let op := h.getOpcode
  if op.isControl && h.getBasicSize > payloadSizeBasic then some .controlTooBig
  else if h.getRsv1 then some .invalidRsvBit
  else if h.getRsv2 || h.getRsv3 then some .invalidRsvBit
  else if op.reserved then some .invalidOpcode
  else if op.invalid then some .invalidOpcode
  else if op.isControl && !h.getFin then some .fragmentedControl
  else if newMsg && op == .continuation then some .invalidContinuation
  else if !newMsg && !op.isControl && op != .continuation then some .invalidContinuation
  else if isServer && !h.getMasked then some .maskingRequired
  else if !isServer && h.getMasked then some .maskingForbidden
  else none

/-- mirrors websocket/websocketpp/processors/hybi13.hpp:926-951
(`validate_incoming_extended_header`, with a `size_t` of 8 bytes) -/
def validateIncomingExtendedHeader (h : BasicHeader) (e : ExtendedHeader) : Option Error :=
  let basicSize := h.getBasicSize
  let payloadSize := getPayloadSize h e
  if basicSize = 0x7E ∧ payloadSize ≤ payloadSizeBasic then some .nonMinimalEncoding
  else if basicSize = 0x7F ∧ payloadSize ≤ payloadSizeExtended then some .nonMinimalEncoding
  else none

/-- What `consume` does with a complete extended header.
mirrors websocket/websocketpp/processors/hybi13.hpp:418-477 -/
def beginPayload (q : Processor) : Outcome (Except Error Processor) :=
  let q := { q with
    state := .application
    bytesNeeded := getPayloadSize q.basicHeader q.extendedHeader }
  let op := q.basicHeader.getOpcode
  let key := getMaskingKey q.basicHeader q.extendedHeader
  if op.isControl then
    .ok (.ok { q with controlMsg := .make { opcode := op } key, current := .control })
  else
    match q.dataMsg.msg with
    | none =>
      if q.bytesNeeded > q.maxMessageSize then .ok (.error .messageTooBig)
      else .ok (.ok { q with dataMsg := .make { opcode := op } key, current := .data })
    | some m =>
      -- the sum is a size_t
      if (m.payload.length + q.bytesNeeded) % 2 ^ 64 > q.maxMessageSize then
        .ok (.error .messageTooBig)
      else
        .ok (.ok { q with
          dataMsg := { q.dataMsg with preparedKey := prepareMaskingKey key }
          current := .data })

/-- mirrors websocket/websocketpp/processors/hybi13.hpp:799-837 (`process_payload_bytes`) -/
def processPayloadBytes (q : Processor) (buf : Bytes) : Outcome (Except Error Processor) := do
  let m ← Outcome.deref q.currentMsg.msg
  let r := if q.basicHeader.getMasked then byteMaskCirc buf q.currentMsg.preparedKey
    else (buf, q.currentMsg.preparedKey)
  let m := { m with payload := m.payload ++ r.1 }
  let done := fun (validator : Validator) =>
    { q.setCurrentMsg { msg := some m, preparedKey := r.2, validator := validator } with
      bytesNeeded := q.bytesNeeded - buf.length }
  if m.opcode = .text then
    match q.currentMsg.validator.decode r.1 with
    | none => return .error .invalidUtf8
    | some v => return .ok (done v)
  else return .ok (done q.currentMsg.validator)

/-- mirrors websocket/websocketpp/processors/hybi13.hpp:518-546 (`finalize_message`) -/
def finalizeMessage (q : Processor) : Outcome (Except Error Processor) := do
  let _ ← Outcome.deref q.currentMsg.msg
  if q.basicHeader.getOpcode = .text ∧ q.currentMsg.validator.complete = false then
    return .error .invalidUtf8
  else return .ok { q with state := .ready }

/-- How a round of the loop ends: it goes on at a place of the buffer, or it is the
return. -/
abbrev Round := Processor × Nat ⊕ Except Error (Processor × Nat)

/-- mirrors websocket/websocketpp/processors/hybi13.hpp:394-410 -/
def headerBasicRound (buf : Bytes) (q : Processor) (p : Nat) : Round :=
  let (q, n) := q.copyBasicHeaderBytes (buf.drop p)
  if q.bytesNeeded > 0 then .inl (q, p + n)
  else
    match validateIncomingBasicHeader q.basicHeader q.server q.dataMsg.msg.isNone with
    | some e => .inr (.error e)
    | none =>
      .inl ({ q with
        state := .headerExtended
        cursor := 0
        bytesNeeded := q.basicHeader.getHeaderLen - basicHeaderLength }, p + n)

/-- mirrors websocket/websocketpp/processors/hybi13.hpp:411-476 -/
def headerExtendedRound (buf : Bytes) (q : Processor) (p : Nat) : Outcome Round := do
  let (q, n) ← q.copyExtendedHeaderBytes (buf.drop p)
  if q.bytesNeeded > 0 then return .inl (q, p + n)
  else
    match validateIncomingExtendedHeader q.basicHeader q.extendedHeader with
    | some e => return .inr (.error e)
    | none =>
      match ← q.beginPayload with
      | .error e => return .inr (.error e)
      | .ok q => return .inl (q, p + n)

/-- mirrors websocket/websocketpp/processors/hybi13.hpp:482-486 -/
def processPayloadIf (q : Processor) (buf : Bytes) : Outcome (Except Error Processor) :=
  if buf.length > 0 then q.processPayloadBytes buf else .ok (.ok q)

/-- mirrors websocket/websocketpp/processors/hybi13.hpp:479-500 -/
def applicationRound (buf : Bytes) (q : Processor) (p : Nat) : Outcome Round := do
  let bytesToProcess := min q.bytesNeeded (buf.length - p)
  match ← q.processPayloadIf ((buf.drop p).take bytesToProcess) with
  | .error e => return .inr (.error e)
  | .ok q =>
    if q.bytesNeeded > 0 then return .inl (q, p + bytesToProcess)
    else if q.basicHeader.getFin then
      match ← q.finalizeMessage with
      | .error e => return .inr (.error e)
      | .ok q => return .inl (q, p + bytesToProcess)
    else return .inl (q.resetHeaders, p + bytesToProcess)

/-- mirrors websocket/websocketpp/processors/hybi13.hpp:391-506 -/
def consumeRound (buf : Bytes) (s : Processor × Nat) : Outcome Round :=
  let q := s.1
  let p := s.2
  if q.state ≠ .ready ∧ q.state ≠ .fatalError ∧ (p < buf.length ∨ q.bytesNeeded = 0) then
    match q.state with
    | .headerBasic => .ok (headerBasicRound buf q p)
    | .headerExtended => headerExtendedRound buf q p
    | .extension => .ok (.inl ({ q with state := .application }, p))
    | .application => applicationRound buf q p
    | _ => .ok (.inr (.error .general))
  else .ok (.inr (.ok (q, p)))

/-- The processor behind a call and the number of bytes it processed; an error
ends the connection, so the processor behind it is left out.
mirrors websocket/websocketpp/processors/hybi13.hpp:382-509 (`consume`) -/
def consume (q : Processor) (buf : Bytes) : Outcome (Except Error (Processor × Nat)) :=
  Loop.run (consumeRound buf) (4 * buf.length + 8) (q, 0)

/-- mirrors websocket/websocketpp/processors/hybi13.hpp:567-583 (`get_message`) -/
def getMessage (q : Processor) : Outcome (Option Message × Processor) := do
  if q.state ≠ .ready then return (none, q)
  let ret ← Outcome.deref q.currentMsg.msg
  let q := q.setCurrentMsg { q.currentMsg with msg := none }
  let q := if ret.opcode.isControl then { q with controlMsg := { q.controlMsg with msg := none } }
    else { q with dataMsg := { q.dataMsg with msg := none } }
  return (some ret, q.resetHeaders)

/-- The processor, the place in the buffer and the messages passed on so far.
mirrors websocket/websocketpp/impl/connection_impl.hpp:1032-1103 -/
def readRound (buf : Bytes) (s : Processor × Nat × List Message) :
    Outcome (Processor × Nat × List Message ⊕ List Message × Except Error Processor) :=
  let q := s.1
  let p := s.2.1
  let msgs := s.2.2
  if p < buf.length then do
    match ← q.consume (buf.drop p) with
    | .error e => return .inr (msgs, .error e)
    | .ok (q, n) =>
      if q.state = .ready then
        let (m, q) ← q.getMessage
        return .inl (q, p + n, msgs ++ m.toList)
      else return .inl (q, p + n, msgs)
  else .ok (.inr (msgs, .ok q))

/-- A buffer that was read: the messages that are complete with it, and the
processor behind it or the error that ends the connection.
mirrors websocket/websocketpp/impl/connection_impl.hpp:1024-1105 (`handle_read_frame`) -/
def handleReadFrame (q : Processor) (buf : Bytes) : Outcome (List Message × Except Error Processor) :=
  Loop.run (readRound buf) (buf.length + 1) (q, 0, [])

/-- One read after the other, up to an error (which is not followed by a read).
mirrors websocket/websocketpp/impl/connection_impl.hpp:1105-1128 (`read_frame`) -/
def handleReads (q : Processor) : List Bytes → Outcome (List Message × Except Error Processor)
  | [] => .ok ([], .ok q)
  | buf :: bufs => do
    let r ← q.handleReadFrame buf
    match r.2 with
    | .error e => return (r.1, .error e)
    | .ok q' =>
      let rest ← handleReads q' bufs
      return (r.1 ++ rest.1, rest.2)

/-! ## Frames that are sent -/

/-- `rng` is what `m_rng` gives.
mirrors websocket/websocketpp/processors/hybi13.hpp:605-685 (`prepare_data_frame`) -/
def prepareDataFrame (q : Processor) (rng : UInt32) (m : Message) : Except Error Message :=
  let op := m.opcode
  if op.isControl then .error .invalidOpcode
  else if op = .text ∧ validate m.payload = false then .error .invalidPayload
  else
    let key := if q.server then none else some rng
    let o := match key with
      | none => m.payload
      | some key => byteMask m.payload key 0
    let h := BasicHeader.make op o.length m.fin key.isSome false
    .ok { opcode := op
          header := prepareHeader h (.make o.length key)
          payload := o
          prepared := true }

/-- mirrors websocket/websocketpp/processors/hybi13.hpp:977-1017 (`prepare_control`) -/
def prepareControl (q : Processor) (rng : UInt32) (op : Opcode) (payload : Bytes) :
    Except Error Message :=
  if op.isControl = false then .error .invalidOpcode
  else if payload.length > payloadSizeBasic then .error .controlTooBig
  else
    let key := if q.server then none else some rng
    let h := BasicHeader.make op payload.length true key.isSome false
    .ok { opcode := op
          header := prepareHeader h (.make payload.length key)
          payload := match key with
            | none => payload
            | some key => byteMask payload key 0
          prepared := true }

/-- mirrors websocket/websocketpp/processors/hybi13.hpp:692-694 (`prepare_pong`) -/
def preparePong (q : Processor) (rng : UInt32) (payload : Bytes) : Except Error Message :=
  q.prepareControl rng .pong payload

/-- mirrors websocket/websocketpp/processors/hybi13.hpp:696-730 (`prepare_close`) -/
def prepareClose (q : Processor) (rng : UInt32) (code : Nat) (reason : Bytes) : Except Error Message :=
  if Close.reserved code then .error .reservedCloseCode
  else if Close.invalid code ∧ code ≠ Close.noStatus then .error .invalidCloseCode
  else if code = Close.noStatus ∧ reason.length > 0 then .error .reasonRequiresCode
  else if reason.length > payloadSizeBasic - 2 then .error .controlTooBig
  else
    q.prepareControl rng .close
      (if code ≠ Close.noStatus then (WordBytes.bytesOf 2 code).reverse ++ reason else [])

end Processor

/-- The bytes a prepared message is written as. -/
def Message.wire (m : Message) : Bytes := m.header ++ m.payload

end TmatePlugin.L1.Hybi13
