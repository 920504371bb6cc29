import TmatePlugin.L1Base.Hybi13Frames

/-!
# The WebSocket connection (websocketpp/impl/connection_impl.hpp)

An open connection: the calls an application makes (`send`, `ping`, `close`),
the messages the peer sends, and the queue of frames to write. A write takes a
batch of frames from the queue and keeps `m_write_flag` until the transport has
written it; `scheduled` counts the calls of `write_frame` that were dispatched and
have not run yet.

The endpoints' configuration is that of `config::core` and `config::core_client`:
no protocol error drops the connection (`drop_on_protocol_error`), closing is not
silent (`silent_close`). No ping or pong handler is set. The fields `accepted`,
`received` and `dispatched` are history.

* `SentFrame`, `acceptAll_sent`: what the library sends, and that a peer takes all
  of it.
* `Queued`, `Answered`, `Handshake`, `Received`: the invariants of the queue, of the
  pings, of the closing handshake and of what has been passed on.
* `handleReadFrame_readTo`: a call of `handle_read_frame`; `handleReadFrame_dispatches`:
  what it does with bytes that are all taken; `handleWriteFrame_more`,
  `handleWriteFrame_ended`: the two ends of a write.
-/
namespace TmatePlugin.L1.WsConnection

open CString TmatePlugin.L1.Frame Utf8Validator Hybi13

/-- mirrors websocket/websocketpp/connection.hpp (`session::state`, from `open` on) -/
inductive SessionState where
  | opened | closing | closed
  deriving DecidableEq, Repr

/-- A message of the send queue, with its flag `terminal`. -/
structure Outgoing where
  msg : Message
  terminal : Bool := false
  deriving DecidableEq

structure Connection where
  processor : Processor
  state : SessionState := .opened
  sendQueue : List Outgoing := []
  currentMsgs : List Outgoing := []
  writeFlag : Bool := false
  scheduled : Nat := 0
  /-- a read has been issued -/
  reading : Bool := true
  wasClean : Bool := false
  localCloseCode : Nat := 1006
  localCloseReason : Bytes := []
  remoteCloseCode : Nat := 1006
  remoteCloseReason : Bytes := []
  /-- every frame that was pushed to the queue -/
  accepted : List WireFrame := []
  /-- every message the processor has passed on -/
  received : List Message := []
  /-- every message the message handler was called with -/
  dispatched : List Message := []

/-- The errors of a connection: that of its own category, and the processor's. -/
inductive ConnError where
  | invalidState
  | processor (e : Error)

/-! ## Errors and close codes -/

/-- mirrors websocket/websocketpp/processors/base.hpp:167-240 (`processor_category::message`) -/
def errorMessage : Error → Bytes
  | .general => str "Generic processor error"
  | .messageTooBig => str "A message was too large"
  | .invalidPayload => str "A payload contained invalid data"
  | .invalidOpcode => str "invalid opcode"
  | .controlTooBig => str "Control messages are limited to fewer than 125 characters"
  | .invalidRsvBit => str "Invalid use of reserved bits"
  | .fragmentedControl => str "Control messages cannot be fragmented"
  | .invalidContinuation => str "Invalid message continuation"
  | .maskingRequired => str "Clients may not send unmasked frames"
  | .maskingForbidden => str "Servers may not send masked frames"
  | .nonMinimalEncoding => str "Payload length was not minimally encoded"
  | .invalidUtf8 => str "Invalid UTF8 encoding"
  | .reservedCloseCode => str "Reserved close code used"
  | .invalidCloseCode => str "Invalid close code used"
  | .reasonRequiresCode => str "Using a close reason requires a valid close code"

/-- mirrors websocket/websocketpp/processors/base.hpp:253-286 (`to_ws`) -/
def toWs : Error → Nat
  | .controlTooBig | .invalidOpcode | .invalidRsvBit | .fragmentedControl | .invalidContinuation
  | .maskingRequired | .maskingForbidden | .reservedCloseCode | .invalidCloseCode => 1002
  | .invalidPayload | .invalidUtf8 => 1007
  | .messageTooBig => 1009
  | _ => 1011

/-- mirrors websocket/websocketpp/error.hpp:176-177 (`message`) -/
def ConnError.message : ConnError → Bytes
  | .invalidState => str "invalid state"
  | .processor e => errorMessage e

/-- mirrors websocket/websocketpp/close.hpp:216-220 (`terminal`) -/
def terminalCode (code : Nat) : Bool :=
  code == 1002 || code == 1007 || code == 1008 || code == 1009 || code == 1011

/-- The code, and whether `ec` is set.
mirrors websocket/websocketpp/close.hpp:288-314 (`extract_code`) -/
def extractCode (payload : Bytes) : Nat × Bool :=
  match payload with
  | [] => (Close.noStatus, false)
  | [_] => (1002, true)
  | c :: d :: _ =>
    let code := ntohs (WordBytes.valueOf [c, d])
    (code, Close.invalid code || Close.reserved code)

/-- The reason, and whether `ec` is set.
mirrors websocket/websocketpp/close.hpp:325-346 (`extract_reason`) -/
def extractReason (payload : Bytes) : Bytes × Bool :=
  let reason := if payload.length > 2 then payload.drop 2 else []
  (reason, !validate reason)

/-- mirrors websocket/websocketpp/processors/hybi13.hpp:715-727 -/
def closePayload (code : Nat) (reason : Bytes) : Bytes :=
  if code ≠ Close.noStatus then (WordBytes.bytesOf 2 code).reverse ++ reason else []

namespace Connection

/-- `m_is_server`, of which the processor was made. -/
def isServer (c : Connection) : Bool := c.processor.server

/-! ## Writing -/

/-- `write_push` under `m_write_lock`, and the dispatch of `write_frame` that the
callers of it do when it is needed.
mirrors websocket/websocketpp/impl/connection_impl.hpp:138-150, 206-219, 2143-2156, 2210-2225 -/
def writePush (c : Connection) (f : WireFrame) (m : Outgoing) : Connection :=
  let needsWriting := !c.writeFlag
  { c with
    sendQueue := c.sendQueue ++ [m]
    accepted := c.accepted ++ [f]
    scheduled := if needsWriting then c.scheduled + 1 else c.scheduled }

/-- The frame of a message, in clear. -/
def frameOf (c : Connection) (rng : UInt32) (op : Opcode) (fin : Bool) (payload : Bytes) : WireFrame :=
  { opcode := op, fin := fin, key := if c.isServer then none else some rng, payload := payload }

/-- `ec` is the text of an error.
mirrors websocket/websocketpp/impl/connection_impl.hpp:1698-1742 (`terminate`) -/
def terminate (c : Connection) (ec : Option Bytes) : Connection :=
  let c := match ec with
    | some text => { c with localCloseCode := 1006, localCloseReason := text }
    | none => c
  if c.state ≠ .closed then { c with state := .closed } else c

/-- The messages of a batch and the rest of the queue.
mirrors websocket/websocketpp/impl/connection_impl.hpp:1809-1817 -/
def popBatch : List Outgoing → List Outgoing × List Outgoing
  | [] => ([], [])
  | m :: queue =>
    if m.terminal then ([m], queue)
    else
      let r := popBatch queue
      (m :: r.1, r.2)

/-- The messages whose buffers the transport is given, if it is given any.
mirrors websocket/websocketpp/impl/connection_impl.hpp:1793-1886 (`write_frame`) -/
def writeFrame (c : Connection) : Connection × Option (List Outgoing) :=
  let c := { c with scheduled := c.scheduled - 1 }
  if c.writeFlag then (c, none)
  else
    let r := popBatch c.sendQueue
    let c := { c with sendQueue := r.2, currentMsgs := c.currentMsgs ++ r.1 }
    if c.currentMsgs = [] then (c, none)
    else ({ c with writeFlag := true }, some c.currentMsgs)

/-- `m_current_msgs.back()` of an empty vector is a fault.
mirrors websocket/websocketpp/impl/connection_impl.hpp:1889-1928 (`handle_write_frame`) -/
def handleWriteFrame (c : Connection) (ec : Option Bytes) : Outcome Connection := do
  let last ← Outcome.deref c.currentMsgs.getLast?
  let c := { c with currentMsgs := [] }
  if ec.isSome then return c.terminate ec
  else if last.terminal then return c.terminate none
  else
    return { c with
      writeFlag := false
      scheduled := if c.sendQueue ≠ [] then c.scheduled + 1 else c.scheduled }

/-! ## What is sent -/

/-- mirrors websocket/websocketpp/impl/connection_impl.hpp:110-115 (the check of `send`),
161-170 (of `ping`) -/
def checkOpen (c : Connection) : Bool := c.state == .opened

/-- The part of `send` under `m_write_lock`, with what follows it.
mirrors websocket/websocketpp/impl/connection_impl.hpp:126-152 (`send`) -/
def sendData (c : Connection) (rng : UInt32) (op : Opcode) (payload : Bytes) : Except Error Connection := do
  let m ← c.processor.prepareDataFrame rng { opcode := op, payload := payload }
  return c.writePush (c.frameOf rng op true payload) { msg := m }

/-- A call of `send` with nothing in between.
mirrors websocket/websocketpp/impl/connection_impl.hpp:103-152 (`send`) -/
def send (c : Connection) (rng : UInt32) (op : Opcode) (payload : Bytes) : Except ConnError Connection :=
  if c.checkOpen then (c.sendData rng op payload).mapError .processor else .error .invalidState

/-- The part of `ping` behind the check.
mirrors websocket/websocketpp/impl/connection_impl.hpp:172-221 (`ping`) -/
def sendPing (c : Connection) (rng : UInt32) (payload : Bytes) : Except Error Connection := do
  let m ← c.processor.prepareControl rng .ping payload
  return c.writePush (c.frameOf rng .ping true payload) { msg := m }

/-- An error leaves the connection as it is.
mirrors websocket/websocketpp/impl/connection_impl.hpp:252-292 (`pong`) -/
def pong (c : Connection) (rng : UInt32) (payload : Bytes) : Connection :=
  if c.state ≠ .opened then c
  else
    match c.processor.preparePong rng payload with
    | .error _ => c
    | .ok m => c.writePush (c.frameOf rng .pong true payload) { msg := m }

/-- The code and the reason that are sent; 0 is `blank`.
mirrors websocket/websocketpp/impl/connection_impl.hpp:2078-2099 -/
def noteClose (c : Connection) (code : Nat) (reason : Bytes) (ack : Bool) : Connection :=
  if code ≠ 0 then { c with localCloseCode := code, localCloseReason := reason }
  else if !ack then { c with localCloseCode := Close.noStatus, localCloseReason := [] }
  else if c.remoteCloseCode = Close.noStatus then { c with localCloseCode := 1000, localCloseReason := [] }
  else { c with localCloseCode := c.remoteCloseCode, localCloseReason := c.remoteCloseReason }

/-- mirrors websocket/websocketpp/impl/connection_impl.hpp:2065-2159 (`send_close_frame`) -/
def sendCloseFrame (c : Connection) (rng : UInt32) (code : Nat) (reason : Bytes) (ack terminal : Bool) :
    Connection × Option Error :=
  let c := c.noteClose code reason ack
  match c.processor.prepareClose rng c.localCloseCode c.localCloseReason with
  | .error e => (c, some e)
  | .ok m =>
    let c := { c with state := .closing, wasClean := c.wasClean || ack }
    (c.writePush (c.frameOf rng .close true (closePayload c.localCloseCode c.localCloseReason))
      { msg := m, terminal := terminal }, none)

/-- mirrors websocket/websocketpp/impl/connection_impl.hpp:2058-2062 (`send_close_ack`) -/
def sendCloseAck (c : Connection) (rng : UInt32) (code : Nat) (reason : Bytes) : Connection × Option Error :=
  c.sendCloseFrame rng code reason true c.isServer

/-- mirrors websocket/websocketpp/impl/connection_impl.hpp:304-323 (`close`) -/
def close (c : Connection) (rng : UInt32) (code : Nat) (reason : Bytes) : Connection × Option ConnError :=
  let tr := reason.take 123
  if c.state ≠ .opened then (c, some .invalidState)
  else
    let r := c.sendCloseFrame rng code tr false (terminalCode code)
    (r.1, r.2.map .processor)

/-! ## What is received -/

/-- A close frame whose code and reason are noted.
mirrors websocket/websocketpp/impl/connection_impl.hpp:2020-2048 -/
def closeReceived (c : Connection) (rng : UInt32) : Connection :=
  if c.state = .opened then (c.sendCloseAck rng 0 []).1
  else if c.state = .closing ∧ c.wasClean = false then
    let c := { c with wasClean := true }
    if c.isServer then c.terminate none else c
  else c

/-- mirrors websocket/websocketpp/impl/connection_impl.hpp:1977-2048 -/
def processClose (c : Connection) (rng : UInt32) (payload : Bytes) : Connection :=
  let code := extractCode payload
  let c := { c with remoteCloseCode := code.1 }
  if code.2 then (c.sendCloseAck rng 1002 (str "Invalid close code")).1
  else
    let reason := extractReason payload
    let c := { c with remoteCloseReason := reason.1 }
    if reason.2 then (c.sendCloseAck rng 1002 (str "Invalid close reason")).1
    else c.closeReceived rng

/-- mirrors websocket/websocketpp/impl/connection_impl.hpp:1937-2055 (`process_control_frame`) -/
def processControlFrame (c : Connection) (rng : UInt32) (msg : Message) : Connection :=
  if c.state = .closed then c
  else if msg.opcode ≠ .close ∧ c.state ≠ .opened then c
  else if msg.opcode = .ping then c.pong rng msg.payload
  else if msg.opcode = .pong then c
  else if msg.opcode = .close then c.processClose rng msg.payload
  else c

/-- A message that is complete.
mirrors websocket/websocketpp/impl/connection_impl.hpp:1087-1101 -/
def dispatch (c : Connection) (rng : UInt32) (msg : Message) : Connection :=
  let c := { c with received := c.received ++ [msg] }
  if msg.opcode.isControl = false then
    if c.state ≠ .opened then c else { c with dispatched := c.dispatched ++ [msg] }
  else c.processControlFrame rng msg

/-- mirrors websocket/websocketpp/impl/connection_impl.hpp:1061-1081 (`drop_on_protocol_error`
is false; the return leaves out `read_frame`) -/
def consumeFailed (c : Connection) (rng : UInt32) (e : Error) : Connection :=
  let r := { c with reading := false }.close rng (toWs e) (errorMessage e)
  match r.2 with
  | none => r.1
  | some ec => r.1.terminate (some ec.message)

/-- `rng` is what `m_rng` gives to an answer to the bytes in front of a place of the
buffer.
mirrors websocket/websocketpp/impl/connection_impl.hpp:1032-1105 -/
def readRound (rng : Nat → UInt32) (buf : Bytes) (s : Connection × Nat) :
    Outcome (Connection × Nat ⊕ Connection) :=
  let c := s.1
  let p := s.2
  if p < buf.length then do
    match ← c.processor.consume (buf.drop p) with
    | .error e => return .inr (c.consumeFailed (rng p) e)
    | .ok (q, n) =>
      if q.state = .ready then
        let (m, q) ← q.getMessage
        match m with
        | none => return .inl ({ c with processor := q }, p + n)
        | some m => return .inl ({ c with processor := q }.dispatch (rng (p + n)) m, p + n)
      else return .inl ({ c with processor := q }, p + n)
  else .ok (.inr c)

/-- A read that has succeeded.
mirrors websocket/websocketpp/impl/connection_impl.hpp:965-1105 (`handle_read_frame`) -/
def handleReadFrame (c : Connection) (rng : Nat → UInt32) (buf : Bytes) : Outcome Connection :=
  Loop.run (readRound rng buf) (buf.length + 1) (c, 0)

/-! ## The frame of a prepared message -/

/-- A frame as an endpoint sends it: whole, masked by clients only, a control frame
of a known kind that is not too long, or data, and text only if it is valid. -/
structure SentFrame (server : Bool) (f : WireFrame) : Prop where
  fin : f.fin = true
  key : f.key.isSome = !server
  length : f.payload.length < 2 ^ 64
  control : f.opcode.isControl = true →
    f.payload.length ≤ payloadSizeBasic ∧ (f.opcode = .close ∨ f.opcode = .ping ∨ f.opcode = .pong)
  text : f.opcode = .text → validate f.payload = true

theorem isSome_key (server : Bool) (rng : UInt32) :
    (if server then none else some rng : Option UInt32).isSome = !server := by
  cases server <;> rfl

theorem sentFrame_control (server : Bool) (rng : UInt32) {op : Opcode} {payload : Bytes}
    (hop : op = .close ∨ op = .ping ∨ op = .pong) (hsize : payload.length ≤ payloadSizeBasic) :
    SentFrame server { opcode := op, fin := true, key := if server then none else some rng, payload := payload } where
  fin := rfl
  key := isSome_key server rng
  length := Nat.lt_of_le_of_lt hsize (by decide)
  control _ := ⟨hsize, hop⟩
  text htext := by
    dsimp only at htext
    rw [htext] at hop
    rcases hop with h | h | h <;> cases h

theorem sentFrame_data (server : Bool) (rng : UInt32) {op : Opcode} {payload : Bytes}
    (hdata : op.isControl = false) (hlen : payload.length < 2 ^ 64)
    (htext : op = .text → validate payload = true) :
    SentFrame server { opcode := op, fin := true, key := if server then none else some rng, payload := payload } where
  fin := rfl
  key := isSome_key server rng
  length := hlen
  control hc := absurd (hdata.symm.trans hc) nofun
  text := htext

theorem prepareDataFrame_wire {q : Processor} {rng : UInt32} {m out : Message}
    (h : q.prepareDataFrame rng m = .ok out) :
    m.opcode.isControl = false ∧ (m.opcode = .text → validate m.payload = true) ∧
      out.wire = ({ opcode := m.opcode, fin := m.fin, key := if q.server then none else some rng,
                    payload := m.payload } : WireFrame).bytes := by
  unfold Processor.prepareDataFrame at h
  dsimp only at h
  split at h
  · cases h
  · rename_i hdata
    split at h
    · cases h
    · rename_i htext
      cases h
      refine ⟨Bool.eq_false_iff.mpr hdata, fun hop => ?_, ?_⟩
      · by_contra hvalid
        exact htext ⟨hop, Bool.eq_false_iff.mpr hvalid⟩
      · let f : WireFrame :=
          { opcode := m.opcode, fin := m.fin, key := if q.server then none else some rng, payload := m.payload }
        change prepareHeader (.make f.opcode f.body.length f.fin f.key.isSome false)
          (.make f.body.length f.key) ++ f.body = f.bytes
        rw [length_body]
        rfl

theorem prepareControl_wire {q : Processor} {rng : UInt32} {op : Opcode} {payload : Bytes} {out : Message}
    (h : q.prepareControl rng op payload = .ok out) :
    payload.length ≤ payloadSizeBasic ∧
      out.wire = ({ opcode := op, fin := true, key := if q.server then none else some rng,
                    payload := payload } : WireFrame).bytes := by
  unfold Processor.prepareControl at h
  dsimp only at h
  split at h
  · cases h
  · split at h
    · cases h
    · rename_i hsize
      cases h
      exact ⟨Nat.le_of_not_lt hsize, rfl⟩

theorem prepareClose_control {q : Processor} {rng : UInt32} {code : Nat} {reason : Bytes} {out : Message}
    (h : q.prepareClose rng code reason = .ok out) :
    q.prepareControl rng .close (closePayload code reason) = .ok out := by
  unfold Processor.prepareClose at h
  split_ifs at h
  all_goals
    unfold closePayload
    simp_all

theorem prepareControl_eq_ok {q : Processor} (rng : UInt32) {op : Opcode} {payload : Bytes}
    (hop : op.isControl = true) (h : payload.length ≤ payloadSizeBasic) :
    ∃ out, q.prepareControl rng op payload = .ok out := by
  unfold Processor.prepareControl
  rw [if_neg (by rw [hop]; nofun), if_neg (Nat.not_lt.mpr h)]
  exact ⟨_, rfl⟩

/-! ## The peer -/

/-- The message a frame brings. -/
def messageOf (f : WireFrame) : Message := { opcode := f.opcode, payload := f.payload }

/-- A data frame is a text or binary one and not over the limit of the peer. -/
def Suits (limit : Nat) (f : WireFrame) : Prop :=
  f.opcode.isControl = false → (f.opcode = .text ∨ f.opcode = .binary) ∧ f.payload.length ≤ limit

instance (limit : Nat) (f : WireFrame) : Decidable (Suits limit f) := inferInstanceAs (Decidable (_ → _))

theorem extend_whole {a : Assembly} {f : WireFrame} (hpending : a.pending = none) (hfin : f.fin = true) :
    a.extend f ({ opcode := f.opcode }, .new) = .error .invalidUtf8 ∨
      a.extend f ({ opcode := f.opcode }, .new) = .ok (a, [messageOf f]) := by
  unfold Assembly.extend
  dsimp only
  cases Processor.validated f.opcode .new f.payload with
  | none => exact .inl rfl
  | some v =>
    dsimp only
    rw [if_pos hfin]
    by_cases hincomplete : f.opcode = .text ∧ v.complete = false
    · exact .inl (if_pos hincomplete)
    · rw [if_neg hincomplete, hpending, ite_self, ← hpending]
      exact .inr rfl

/-- A peer that stands between two messages passes on what the frame brings, if
anything. -/
theorem accept_whole {a : Assembly} {f : WireFrame} (hpending : a.pending = none) (hfin : f.fin = true) :
    (∃ e, a.accept f = .error e) ∨ a.accept f = .ok (a, [messageOf f]) := by
  have htarget : (∃ e, a.target f = .error e) ∨ a.target f = .ok ({ opcode := f.opcode }, .new) := by
    unfold Assembly.target
    rw [hpending]
    dsimp only
    by_cases hcontrol : f.opcode.isControl = true
    · exact .inr (if_pos hcontrol)
    · rw [if_neg hcontrol]
      by_cases hbig : f.payload.length > a.maxMessageSize
      · exact .inl ⟨_, if_pos hbig⟩
      · exact .inr (if_neg hbig)
  unfold Assembly.accept
  cases f.violation a.server a.pending.isNone with
  | some e => exact .inl ⟨e, rfl⟩
  | none =>
    obtain ⟨e, he⟩ | ht := htarget
    · exact .inl ⟨e, by rw [he]; rfl⟩
    · rw [ht]
      exact (extend_whole hpending hfin).imp_left fun he => ⟨_, he⟩

theorem decode_of_validate {s : Bytes} (h : validate s = true) :
    ∃ v, Validator.new.decode s = some v ∧ v.complete = true := by
  unfold validate at h
  cases hv : Validator.new.decode s with
  | none =>
    rw [hv] at h
    cases h
  | some v =>
    rw [hv] at h
    exact ⟨v, rfl, h⟩

/-- The peer takes what an endpoint sends. -/
theorem accept_sent {a : Assembly} {f : WireFrame} (hpending : a.pending = none)
    (hsent : SentFrame (!a.server) f) (hsuits : Suits a.maxMessageSize f) :
    a.accept f = .ok (a, [messageOf f]) := by
  have hkey : f.key.isSome = a.server := hsent.key.trans (Bool.not_not _)
  have hop : f.opcode.isControl = true ∧ (f.opcode = .close ∨ f.opcode = .ping ∨ f.opcode = .pong) ∨
      f.opcode.isControl = false ∧ (f.opcode = .text ∨ f.opcode = .binary) := by
    cases hc : f.opcode.isControl
    · exact .inr ⟨rfl, (hsuits hc).1⟩
    · exact .inl ⟨rfl, (hsent.control hc).2⟩
  have hviolation : f.violation a.server a.pending.isNone = none := by
    have hsize : (f.opcode.isControl && f.payload.length > payloadSizeBasic) = false := by
      cases hc : f.opcode.isControl
      · rfl
      · simpa using (hsent.control hc).1
    unfold WireFrame.violation
    rw [hsize, hsent.fin, hkey, hpending]
    rcases hop with ⟨-, h | h | h⟩ | ⟨-, h | h⟩ <;> rw [h] <;> cases a.server <;> rfl
  have htarget : a.target f = .ok ({ opcode := f.opcode }, .new) := by
    unfold Assembly.target
    rw [hpending]
    dsimp only
    by_cases hcontrol : f.opcode.isControl = true
    · exact if_pos hcontrol
    · rw [if_neg hcontrol]
      exact if_neg (Nat.not_lt.mpr (hsuits (Bool.not_eq_true _ ▸ hcontrol)).2)
  have hextend : a.extend f ({ opcode := f.opcode }, .new) = .ok (a, [messageOf f]) := by
    refine (extend_whole hpending hsent.fin).resolve_left fun herror => ?_
    unfold Assembly.extend Processor.validated at herror
    dsimp only at herror
    by_cases htext : f.opcode = .text
    · obtain ⟨v, hv, hcomplete⟩ := decode_of_validate (hsent.text htext)
      rw [if_pos htext, hv] at herror
      dsimp only at herror
      rw [if_pos hsent.fin, if_neg (by rw [hcomplete]; simp)] at herror
      cases herror
    · rw [if_neg htext] at herror
      dsimp only at herror
      rw [if_pos hsent.fin, if_neg fun h => htext h.1] at herror
      cases herror
  unfold Assembly.accept
  rw [hviolation, htarget]
  exact hextend

/-- What the peer passes on of frames is in front of the messages they bring. -/
theorem acceptAll_whole {a : Assembly} (hpending : a.pending = none) {fs : List WireFrame}
    (hfin : ∀ f ∈ fs, f.fin = true) : (a.acceptAll fs).1 <+: fs.map messageOf := by
  induction fs with
  | nil => exact List.prefix_refl _
  | cons f fs ih =>
    rw [Assembly.acceptAll]
    obtain ⟨e, he⟩ | hok := accept_whole hpending (hfin f List.mem_cons_self)
    · rw [he]
      exact List.nil_prefix
    · rw [hok]
      exact List.prefix_cons_inj _ |>.mpr (ih fun f hf => hfin f (List.mem_cons_of_mem _ hf))

theorem acceptAll_sent {a : Assembly} (hpending : a.pending = none) {fs : List WireFrame}
    (hsent : ∀ f ∈ fs, SentFrame (!a.server) f) (hsuits : ∀ f ∈ fs, Suits a.maxMessageSize f) :
    a.acceptAll fs = (fs.map messageOf, .ok a) := by
  induction fs with
  | nil => rfl
  | cons f fs ih =>
    rw [Assembly.acceptAll, accept_sent hpending (hsent f List.mem_cons_self) (hsuits f List.mem_cons_self)]
    dsimp only
    rw [ih (fun f hf => hsent f (List.mem_cons_of_mem _ hf)) fun f hf => hsuits f (List.mem_cons_of_mem _ hf)]
    rfl

/-! ## What a connection keeps -/

/-- The bytes of the queue. -/
def backlog (c : Connection) : Bytes := c.sendQueue.flatMap fun m => m.msg.wire

def dataOf (ms : List Message) : List Message := ms.filter fun m => !m.opcode.isControl

def payloadsOf (op : Opcode) (ms : List Message) : List Bytes :=
  (ms.filter fun m => m.opcode == op).map Message.payload

/-- The sending side of a connection whose transport was given the bytes `written`. -/
structure Queued (c : Connection) (written : Bytes) : Prop where
  frames : ∀ f ∈ c.accepted, SentFrame c.isServer f
  queue : written ++ c.backlog = wireBytes c.accepted
  woken : c.sendQueue ≠ [] → c.writeFlag = false → 0 < c.scheduled

/-- The payloads of the pongs that were sent. -/
def pongsSent (c : Connection) : List Bytes := payloadsOf .pong (c.accepted.map messageOf)

/-- The receiving side: what was passed on, and the pongs for the pings. -/
structure Answered (c : Connection) : Prop where
  data : c.dispatched <+: dataOf c.received
  dataOpened : c.state = .opened → c.dispatched = dataOf c.received
  pongs : c.pongsSent <+: payloadsOf .ping c.received
  pongsOpened : c.state = .opened → c.pongsSent = payloadsOf .ping c.received

theorem queued_new (q : Processor) : Queued { processor := q } [] where
  frames := nofun
  queue := rfl
  woken h := absurd rfl h

theorem answered_new (q : Processor) : Answered { processor := q } where
  data := List.prefix_refl _
  dataOpened _ := rfl
  pongs := List.prefix_refl _
  pongsOpened _ := rfl

theorem payloadsOf_append (op : Opcode) (ms ms' : List Message) :
    payloadsOf op (ms ++ ms') = payloadsOf op ms ++ payloadsOf op ms' := by
  simp [payloadsOf]

theorem payloadsOf_singleton (op : Opcode) (m : Message) :
    payloadsOf op [m] = if m.opcode = op then [m.payload] else [] := by
  unfold payloadsOf
  by_cases h : m.opcode = op <;> simp [h]

theorem dataOf_concat (ms : List Message) (m : Message) :
    dataOf (ms ++ [m]) = dataOf ms ++ if m.opcode.isControl then [] else [m] := by
  unfold dataOf
  cases h : m.opcode.isControl <;> simp [h]

section Steps

variable {c c' : Connection} {written : Bytes}

theorem Queued.congr (h : Queued c written) (hserver : c'.isServer = c.isServer)
    (haccepted : c'.accepted = c.accepted) (hqueue : c'.sendQueue = c.sendQueue)
    (hflag : c'.writeFlag = c.writeFlag) (hscheduled : c'.scheduled = c.scheduled) : Queued c' written where
  frames := by
    rw [hserver, haccepted]
    exact h.frames
  queue := by
    unfold backlog
    rw [hqueue, haccepted]
    exact h.queue
  woken := by
    rw [hqueue, hflag, hscheduled]
    exact h.woken

theorem Answered.congr (h : Answered c) (haccepted : c'.pongsSent = c.pongsSent)
    (hreceived : c'.received = c.received) (hdispatched : c'.dispatched = c.dispatched)
    (hstate : c'.state = .opened → c.state = .opened) : Answered c' where
  data := by
    rw [hdispatched, hreceived]
    exact h.data
  dataOpened ho := by
    rw [hdispatched, hreceived]
    exact h.dataOpened (hstate ho)
  pongs := by
    rw [haccepted, hreceived]
    exact h.pongs
  pongsOpened ho := by
    rw [haccepted, hreceived]
    exact h.pongsOpened (hstate ho)

theorem Queued.writePush {f : WireFrame} {m : Outgoing} (h : Queued c written)
    (hwire : m.msg.wire = f.bytes) (hsent : SentFrame c.isServer f) :
    Queued (c.writePush f m) written where
  frames f' hf' := by
    rcases List.mem_append.mp hf' with hf' | hf'
    · exact h.frames f' hf'
    · cases List.mem_singleton.mp hf'
      exact hsent
  queue := by
    have hqueue := h.queue
    unfold backlog wireBytes Connection.writePush at *
    simp only [List.flatMap_append, List.flatMap_cons, List.flatMap_nil, List.append_nil, hwire]
    rw [← List.append_assoc, hqueue]
  woken _ hflag := by
    unfold Connection.writePush at *
    simp [show c.writeFlag = false from hflag]

theorem pongsSent_writePush (f : WireFrame) (m : Outgoing) :
    (c.writePush f m).pongsSent =
      c.pongsSent ++ if f.opcode = .pong then [f.payload] else [] := by
  unfold pongsSent Connection.writePush
  rw [List.map_append, payloadsOf_append, List.map_singleton, payloadsOf_singleton]
  rfl

/-- A frame that is no pong. -/
theorem Answered.writePush {f : WireFrame} {m : Outgoing} (h : Answered c) (hf : f.opcode ≠ .pong) :
    Answered (c.writePush f m) :=
  h.congr (by rw [pongsSent_writePush, if_neg hf, List.append_nil]) rfl rfl id

/-! ### Sending -/

theorem data_of_concat {fs : List WireFrame} {f f' : WireFrame} (hf : f.opcode.isControl = true)
    (hmem : f' ∈ fs ++ [f]) (hdata : f'.opcode.isControl = false) : f' ∈ fs := by
  rcases List.mem_append.mp hmem with hmem | hmem
  · exact hmem
  · cases List.mem_singleton.mp hmem
    exact absurd (hf.symm.trans hdata) nofun

/-- What a call does that reads nothing and sends no pong. -/
structure Steady (c c' : Connection) : Prop where
  processor : c'.processor = c.processor
  reading : c'.reading = c.reading
  received : c'.received = c.received
  dispatched : c'.dispatched = c.dispatched
  currentMsgs : c'.currentMsgs = c.currentMsgs
  writeFlag : c'.writeFlag = c.writeFlag
  state : c'.state = .opened → c.state = .opened
  pongs : c'.pongsSent = c.pongsSent
  data : ∀ f ∈ c'.accepted, f.opcode.isControl = false → f ∈ c.accepted
  queued : ∀ written, Queued c written → Queued c' written

theorem Steady.refl (c : Connection) : Steady c c where
  processor := rfl
  reading := rfl
  received := rfl
  dispatched := rfl
  currentMsgs := rfl
  writeFlag := rfl
  state := id
  pongs := rfl
  data _ hf _ := hf
  queued _ := id

theorem Steady.trans {c'' : Connection} (h : Steady c c') (h' : Steady c' c'') : Steady c c'' where
  processor := h'.processor.trans h.processor
  reading := h'.reading.trans h.reading
  received := h'.received.trans h.received
  dispatched := h'.dispatched.trans h.dispatched
  currentMsgs := h'.currentMsgs.trans h.currentMsgs
  writeFlag := h'.writeFlag.trans h.writeFlag
  state := h.state ∘ h'.state
  pongs := h'.pongs.trans h.pongs
  data f hf hdata := h.data f (h'.data f hf hdata) hdata
  queued written := h'.queued written ∘ h.queued written

theorem Steady.server (h : Steady c c') : c'.isServer = c.isServer := congrArg Processor.server h.processor

theorem Steady.answered (hs : Steady c c') (h : Answered c) : Answered c' :=
  h.congr hs.pongs hs.received hs.dispatched hs.state

/-- Close codes and reasons, and the state on its way from open to closed. -/
theorem steady_note (c : Connection) (state : SessionState) (hstate : state = .opened → c.state = .opened)
    (wasClean : Bool) (localCode remoteCode : Nat) (localReason remoteReason : Bytes) :
    Steady c { c with
      state := state
      wasClean := wasClean
      localCloseCode := localCode
      localCloseReason := localReason
      remoteCloseCode := remoteCode
      remoteCloseReason := remoteReason } where
  processor := rfl
  reading := rfl
  received := rfl
  dispatched := rfl
  currentMsgs := rfl
  writeFlag := rfl
  state := hstate
  pongs := rfl
  data _ hf _ := hf
  queued _ h := h.congr rfl rfl rfl rfl rfl

theorem steady_terminate (c : Connection) (ec : Option Bytes) : Steady c (c.terminate ec) := by
  unfold terminate
  cases ec with
  | none =>
    dsimp only
    split
    · exact steady_note c .closed nofun _ _ _ _ _
    · exact .refl c
  | some text =>
    dsimp only
    split
    · exact steady_note c .closed nofun _ _ _ _ _
    · exact steady_note c c.state id _ _ _ _ _

theorem steady_writeClose {m : Message} {rng : UInt32} {code : Nat} {reason : Bytes} (terminal : Bool)
    (hprepare : c.processor.prepareClose rng code reason = .ok m) :
    Steady c (c.writePush (c.frameOf rng .close true (closePayload code reason))
      { msg := m, terminal := terminal }) where
  processor := rfl
  reading := rfl
  received := rfl
  dispatched := rfl
  currentMsgs := rfl
  writeFlag := rfl
  state := id
  pongs := by
    rw [pongsSent_writePush]
    exact List.append_nil _
  data _ hf hdata := data_of_concat rfl hf hdata
  queued written h := by
    obtain ⟨hsize, hwire⟩ := prepareControl_wire (prepareClose_control hprepare)
    exact h.writePush hwire (sentFrame_control _ rng (.inl rfl) hsize)

theorem steady_noteClose (c : Connection) (code : Nat) (reason : Bytes) (ack : Bool) :
    Steady c (c.noteClose code reason ack) := by
  unfold noteClose
  split_ifs <;> exact steady_note c c.state id _ _ _ _ _

theorem steady_sendCloseFrame (c : Connection) (rng : UInt32) (code : Nat) (reason : Bytes)
    (ack terminal : Bool) : Steady c (c.sendCloseFrame rng code reason ack terminal).1 := by
  have hnoted := steady_noteClose c code reason ack
  unfold sendCloseFrame
  dsimp only
  generalize c.noteClose code reason ack = c₁ at hnoted
  rcases hprepare : c₁.processor.prepareClose rng c₁.localCloseCode c₁.localCloseReason with e | m
  · exact hnoted
  · have hclosing := steady_note c₁ .closing nofun (c₁.wasClean || ack) c₁.localCloseCode
      c₁.remoteCloseCode c₁.localCloseReason c₁.remoteCloseReason
    exact hnoted.trans (hclosing.trans (steady_writeClose terminal hprepare))

theorem steady_sendCloseAck (c : Connection) (rng : UInt32) (code : Nat) (reason : Bytes) :
    Steady c (c.sendCloseAck rng code reason).1 :=
  steady_sendCloseFrame c rng code reason true c.isServer

theorem steady_close (c : Connection) (rng : UInt32) (code : Nat) (reason : Bytes) :
    Steady c (c.close rng code reason).1 := by
  unfold close
  dsimp only
  split
  · exact .refl c
  · exact steady_sendCloseFrame c rng code _ false _

/-! ### Receiving -/

theorem steady_consumeFailed (c : Connection) (rng : UInt32) (e : Error) :
    Steady { c with reading := false } (c.consumeFailed rng e) := by
  have hclose := steady_close { c with reading := false } rng (toWs e) (errorMessage e)
  unfold consumeFailed
  dsimp only
  cases ({ c with reading := false }.close rng (toWs e) (errorMessage e)).2 with
  | none => exact hclose
  | some ec => exact hclose.trans (steady_terminate _ _)

theorem terminate_state (c : Connection) (ec : Option Bytes) : (c.terminate ec).state = .closed := by
  unfold terminate
  cases ec with
  | none =>
    dsimp only
    split
    · rfl
    · rename_i h
      exact not_not.mp h
  | some text =>
    dsimp only
    split
    · rfl
    · rename_i h
      exact not_not.mp h

theorem close_of_ne (rng : UInt32) (code : Nat) (reason : Bytes) (h : c.state ≠ .opened) :
    c.close rng code reason = (c, some .invalidState) := if_pos h

theorem closed_consumeFailed (c : Connection) (rng : UInt32) (e : Error) (h : c.state = .closed) :
    (c.consumeFailed rng e).state = .closed := by
  have hclose : { c with reading := false }.close rng (toWs e) (errorMessage e) =
      ({ c with reading := false }, some .invalidState) :=
    close_of_ne rng (toWs e) (errorMessage e) (by dsimp only; rw [h]; nofun)
  unfold consumeFailed
  rw [hclose]
  exact terminate_state _ _

theorem processControlFrame_closed (rng : UInt32) (msg : Message) (h : c.state = .closed) :
    c.processControlFrame rng msg = c := if_pos h

theorem processControlFrame_ping {msg : Message} (rng : UInt32) (hping : msg.opcode = .ping) :
    c.processControlFrame rng msg = if c.state = .opened then c.pong rng msg.payload else c := by
  unfold processControlFrame
  rw [hping]
  cases c.state <;> rfl

theorem steady_closeReceived (c : Connection) (rng : UInt32) : Steady c (c.closeReceived rng) := by
  have hclean := steady_note c c.state id true c.localCloseCode c.remoteCloseCode c.localCloseReason
    c.remoteCloseReason
  unfold closeReceived
  dsimp only
  split_ifs
  · exact steady_sendCloseAck c rng 0 []
  · exact hclean.trans (steady_terminate _ none)
  · exact hclean
  · exact .refl c

theorem steady_processClose (c : Connection) (rng : UInt32) (payload : Bytes) :
    Steady c (c.processClose rng payload) := by
  have hcode := steady_note c c.state id c.wasClean c.localCloseCode (extractCode payload).1
    c.localCloseReason c.remoteCloseReason
  have hreason := steady_note c c.state id c.wasClean c.localCloseCode (extractCode payload).1
    c.localCloseReason (extractReason payload).1
  unfold processClose
  dsimp only
  split_ifs
  · exact hcode.trans (steady_sendCloseAck _ rng _ _)
  · exact hreason.trans (steady_sendCloseAck _ rng _ _)
  · exact hreason.trans (steady_closeReceived _ rng)

/-- A control frame that is no ping. -/
theorem steady_processControlFrame (c : Connection) {msg : Message} (rng : UInt32)
    (hping : msg.opcode ≠ .ping) : Steady c (c.processControlFrame rng msg) := by
  unfold processControlFrame
  rw [if_neg hping]
  split_ifs
  · exact .refl c
  · exact .refl c
  · exact .refl c
  · exact steady_processClose c rng msg.payload
  · exact .refl c

/-- What a message does: it is noted, passed on or answered. -/
structure Received (c c' : Connection) (msg : Message) : Prop where
  processor : c'.processor = c.processor
  reading : c'.reading = c.reading
  received : c'.received = c.received ++ [msg]
  currentMsgs : c'.currentMsgs = c.currentMsgs
  writeFlag : c'.writeFlag = c.writeFlag
  closed : c.state = .closed → c'.state = .closed
  data : ∀ f ∈ c'.accepted, f.opcode.isControl = false → f ∈ c.accepted
  queued : ∀ written, Queued c written → Queued c' written
  answered : Answered c → Answered c'

theorem received_of_steady {msg : Message} {c₁ : Connection}
    (hnoted : c₁ = { c with received := c.received ++ [msg] }) (hs : Steady c₁ c')
    (hclosed : c.state = .closed → c'.state = .closed) (hanswered : Answered c → Answered c₁) :
    Received c c' msg := by
  subst hnoted
  exact {
    processor := hs.processor
    reading := hs.reading
    received := hs.received
    currentMsgs := hs.currentMsgs
    writeFlag := hs.writeFlag
    closed := hclosed
    data := hs.data
    queued := fun written h => hs.queued written (h.congr rfl rfl rfl rfl rfl)
    answered := fun h => hs.answered (hanswered h) }

/-- A message that does not count behind what is open. -/
theorem Answered.note {msg : Message} (h : Answered c)
    (hnothing : c.state = .opened → msg.opcode.isControl = true ∧ msg.opcode ≠ .ping) :
    Answered { c with received := c.received ++ [msg] } where
  data := by
    rw [dataOf_concat]
    exact h.data.trans (List.prefix_append _ _)
  dataOpened ho := by
    rw [dataOf_concat, if_pos (hnothing ho).1, List.append_nil]
    exact h.dataOpened ho
  pongs := by
    rw [payloadsOf_append]
    exact h.pongs.trans (List.prefix_append _ _)
  pongsOpened ho := by
    rw [payloadsOf_append, payloadsOf_singleton, if_neg (hnothing ho).2, List.append_nil]
    exact h.pongsOpened ho

/-- A ping that is answered. -/
theorem received_pong {msg : Message} (rng : UInt32) (hopened : c.state = .opened)
    (hping : msg.opcode = .ping) (hsize : msg.payload.length ≤ payloadSizeBasic) :
    Received c ({ c with received := c.received ++ [msg] }.pong rng msg.payload) msg := by
  obtain ⟨m, hprepare⟩ : ∃ m, c.processor.preparePong rng msg.payload = .ok m :=
    prepareControl_eq_ok rng rfl hsize
  have hpong : { c with received := c.received ++ [msg] }.pong rng msg.payload =
      { c with received := c.received ++ [msg] }.writePush (c.frameOf rng .pong true msg.payload)
        { msg := m } := by
    unfold pong
    rw [if_neg (not_not_intro hopened), hprepare]
    rfl
  rw [hpong]
  exact {
    processor := rfl
    reading := rfl
    received := rfl
    currentMsgs := rfl
    writeFlag := rfl
    closed := id
    data := fun _ hf hdata => data_of_concat rfl hf hdata
    queued := fun written h =>
      have hnoted : Queued { c with received := c.received ++ [msg] } written := h.congr rfl rfl rfl rfl rfl
      hnoted.writePush (prepareControl_wire hprepare).2 (sentFrame_control _ rng (.inr (.inr rfl)) hsize)
    answered := fun h => by
      have hpongs : payloadsOf .ping (c.received ++ [msg]) = payloadsOf .ping c.received ++ [msg.payload] := by
        rw [payloadsOf_append, payloadsOf_singleton, if_pos hping]
      have hdata : dataOf (c.received ++ [msg]) = dataOf c.received := by
        rw [dataOf_concat, hping]
        exact List.append_nil _
      have hboth : ({ c with received := c.received ++ [msg] }.writePush
          (c.frameOf rng .pong true msg.payload) { msg := m }).pongsSent =
            payloadsOf .ping (c.received ++ [msg]) := by
        rw [pongsSent_writePush, hpongs, ← h.pongsOpened hopened]
        rfl
      exact {
        data := by
          change c.dispatched <+: dataOf (c.received ++ [msg])
          rw [hdata]
          exact h.data
        dataOpened := fun _ => (h.dataOpened hopened).trans hdata.symm
        pongs := hboth ▸ List.prefix_refl _
        pongsOpened := fun _ => hboth } }

/-- A data message that is passed on. -/
theorem received_data {msg : Message} (hopened : c.state = .opened) (hdata : msg.opcode.isControl = false) :
    Received c { c with received := c.received ++ [msg], dispatched := c.dispatched ++ [msg] } msg where
  processor := rfl
  reading := rfl
  received := rfl
  currentMsgs := rfl
  writeFlag := rfl
  closed := id
  data _ hf _ := hf
  queued written h := h.congr rfl rfl rfl rfl rfl
  answered h := by
    have hboth : c.dispatched ++ [msg] = dataOf (c.received ++ [msg]) := by
      rw [dataOf_concat, hdata, h.dataOpened hopened]
      rfl
    have hpings : payloadsOf .ping (c.received ++ [msg]) = payloadsOf .ping c.received := by
      rw [payloadsOf_append, payloadsOf_singleton, if_neg (by rintro hop; rw [hop] at hdata; cases hdata),
        List.append_nil]
    exact {
      data := hboth ▸ List.prefix_refl _
      dataOpened := fun _ => hboth
      pongs := by
        change c.pongsSent <+: payloadsOf .ping (c.received ++ [msg])
        rw [hpings]
        exact h.pongs
      pongsOpened := fun _ => (h.pongsOpened hopened).trans hpings.symm }

theorem received_dispatch (c : Connection) (rng : UInt32) {msg : Message}
    (hsize : msg.opcode.isControl = true → msg.payload.length ≤ payloadSizeBasic) :
    Received c (c.dispatch rng msg) msg := by
  unfold dispatch
  dsimp only
  by_cases hcontrol : msg.opcode.isControl = true
  · rw [if_neg (by rw [hcontrol]; nofun)]
    by_cases hping : msg.opcode = .ping
    · rw [processControlFrame_ping rng hping]
      by_cases hopened : c.state = .opened
      · rw [if_pos hopened]
        exact received_pong rng hopened hping (hsize hcontrol)
      · rw [if_neg hopened]
        exact received_of_steady rfl (.refl _) id fun h => h.note fun ho => absurd ho hopened
    · refine received_of_steady rfl (steady_processControlFrame _ rng hping) (fun hclosed => ?_)
        fun h => h.note fun _ => ⟨hcontrol, hping⟩
      rw [processControlFrame_closed rng msg (show { c with received := c.received ++ [msg] }.state = _ from hclosed)]
      exact hclosed
  · rw [if_pos (Bool.eq_false_iff.mpr hcontrol)]
    by_cases hopened : c.state = .opened
    · rw [if_neg (not_not_intro hopened)]
      exact received_data hopened (Bool.eq_false_iff.mpr hcontrol)
    · rw [if_pos hopened]
      exact received_of_steady rfl (.refl _) id fun h => h.note fun ho => absurd ho hopened

/-! ### The closing handshake -/

/-- A side that is closing has sent a close frame, and a clean close has one from
either side and is no longer open. -/
structure Handshake (c : Connection) : Prop where
  opened : c.state = .opened → c.wasClean = false
  closing : c.state = .closing → ∃ f ∈ c.accepted, f.opcode = .close
  clean : c.wasClean = true → (∃ f ∈ c.accepted, f.opcode = .close) ∧ ∃ m ∈ c.received, m.opcode = .close

theorem handshake_new (q : Processor) : Handshake { processor := q } where
  opened _ := rfl
  closing := nofun
  clean := nofun

theorem Handshake.mono (h : Handshake c) (hstate : c'.state ≠ .closed → c'.state = c.state)
    (hclean : c'.wasClean = c.wasClean) (haccepted : ∀ f ∈ c.accepted, f ∈ c'.accepted)
    (hreceived : ∀ m ∈ c.received, m ∈ c'.received) : Handshake c' where
  opened ho := by
    rw [hclean]
    exact h.opened ((hstate (by rw [ho]; nofun)).symm.trans ho)
  closing hc :=
    have ⟨f, hf, hop⟩ := h.closing ((hstate (by rw [hc]; nofun)).symm.trans hc)
    ⟨f, haccepted f hf, hop⟩
  clean hc :=
    have ⟨⟨f, hf, hop⟩, m, hm, hop'⟩ := h.clean (hclean ▸ hc)
    ⟨⟨f, haccepted f hf, hop⟩, m, hreceived m hm, hop'⟩

theorem Handshake.terminate (h : Handshake c) (ec : Option Bytes) : Handshake (c.terminate ec) := by
  have hstate := terminate_state c ec
  refine h.mono (fun hne => absurd hstate hne) ?_ ?_ ?_
  all_goals
    unfold Connection.terminate
    cases ec <;> dsimp only <;> split
  all_goals first | rfl | exact fun _ => id

theorem Handshake.writePush (h : Handshake c) (f : WireFrame) (m : Outgoing) : Handshake (c.writePush f m) :=
  h.mono (fun _ => rfl) rfl (fun _ hf => List.mem_append_left _ hf) fun _ => id

theorem Handshake.sendCloseFrame (h : Handshake c) (rng : UInt32) (code : Nat) (reason : Bytes)
    {ack : Bool} (terminal : Bool) (hack : ack = true → ∃ m ∈ c.received, m.opcode = .close) :
    Handshake (c.sendCloseFrame rng code reason ack terminal).1 := by
  have hnoted : Handshake (c.noteClose code reason ack) ∧
      (c.noteClose code reason ack).received = c.received := by
    unfold noteClose
    split_ifs <;> exact ⟨h.mono (fun _ => rfl) rfl (fun _ => id) fun _ => id, rfl⟩
  unfold Connection.sendCloseFrame
  dsimp only
  generalize c.noteClose code reason ack = c₁ at hnoted
  obtain ⟨hnoted, hreceived⟩ := hnoted
  rcases c₁.processor.prepareClose rng c₁.localCloseCode c₁.localCloseReason with e | m
  · exact hnoted
  · have hsent : ∀ f : WireFrame, f.opcode = .close → ∃ f' ∈ c₁.accepted ++ [f], f'.opcode = .close :=
      fun f hf => ⟨f, List.mem_append_right _ List.mem_cons_self, hf⟩
    exact {
      opened := nofun
      closing := fun _ => hsent _ rfl
      clean := fun hclean => by
        refine ⟨hsent _ rfl, ?_⟩
        rcases Bool.or_eq_true_iff.mp hclean with hclean | hclean
        · exact (hnoted.clean hclean).2
        · exact hreceived ▸ hack hclean }

theorem Handshake.close (h : Handshake c) (rng : UInt32) (code : Nat) (reason : Bytes) :
    Handshake (c.close rng code reason).1 := by
  unfold Connection.close
  dsimp only
  split
  · exact h
  · exact h.sendCloseFrame rng code _ _ nofun

theorem Handshake.consumeFailed (h : Handshake c) (rng : UInt32) (e : Error) :
    Handshake (c.consumeFailed rng e) := by
  have hunread : Handshake { c with reading := false } := h.mono (fun _ => rfl) rfl (fun _ => id) fun _ => id
  have hclose := hunread.close rng (toWs e) (errorMessage e)
  unfold Connection.consumeFailed
  dsimp only
  cases ({ c with reading := false }.close rng (toWs e) (errorMessage e)).2 with
  | none => exact hclose
  | some ec => exact hclose.terminate _

theorem Handshake.closeReceived (h : Handshake c) (rng : UInt32)
    (hreceived : ∃ m ∈ c.received, m.opcode = .close) : Handshake (c.closeReceived rng) := by
  unfold Connection.closeReceived
  dsimp only
  by_cases hopened : c.state = .opened
  · rw [if_pos hopened]
    exact h.sendCloseFrame rng 0 [] _ fun _ => hreceived
  · rw [if_neg hopened]
    by_cases hclosing : c.state = .closing ∧ c.wasClean = false
    · rw [if_pos hclosing]
      have hclean : Handshake { c with wasClean := true } :=
        ⟨fun ho => absurd (hclosing.1.symm.trans ho) nofun, h.closing, fun _ => ⟨h.closing hclosing.1, hreceived⟩⟩
      split
      · exact hclean.terminate none
      · exact hclean
    · rw [if_neg hclosing]
      exact h

theorem Handshake.processClose (h : Handshake c) (rng : UInt32) (payload : Bytes)
    (hreceived : ∃ m ∈ c.received, m.opcode = .close) : Handshake (c.processClose rng payload) := by
  have hnoted : ∀ code reason, Handshake { c with remoteCloseCode := code, remoteCloseReason := reason } :=
    fun _ _ => h.mono (fun _ => rfl) rfl (fun _ => id) fun _ => id
  unfold Connection.processClose
  dsimp only
  split_ifs
  · exact (hnoted _ c.remoteCloseReason).sendCloseFrame rng _ _ _ fun _ => hreceived
  · exact (hnoted _ _).sendCloseFrame rng _ _ _ fun _ => hreceived
  · exact (hnoted _ _).closeReceived rng hreceived

theorem Handshake.pong (h : Handshake c) (rng : UInt32) (payload : Bytes) : Handshake (c.pong rng payload) := by
  unfold Connection.pong
  split
  · exact h
  · cases c.processor.preparePong rng payload with
    | error e => exact h
    | ok m => exact h.writePush _ _

theorem Handshake.dispatch (h : Handshake c) (rng : UInt32) (msg : Message) : Handshake (c.dispatch rng msg) := by
  have hnoted : Handshake { c with received := c.received ++ [msg] } :=
    h.mono (fun _ => rfl) rfl (fun _ => id) fun _ hm => List.mem_append_left _ hm
  unfold Connection.dispatch Connection.processControlFrame
  dsimp only
  split_ifs with _ _ _ _ _ _ hclose
  · exact hnoted
  · exact hnoted.mono (fun _ => rfl) rfl (fun _ => id) fun _ => id
  · exact hnoted
  · exact hnoted
  · exact hnoted.pong rng msg.payload
  · exact hnoted
  · exact hnoted.processClose rng msg.payload ⟨msg, List.mem_append_right _ List.mem_cons_self, hclose⟩
  · exact hnoted

end Steps

/-! ## A write -/

theorem popBatch_append (queue : List Outgoing) : (popBatch queue).1 ++ (popBatch queue).2 = queue := by
  induction queue with
  | nil => rfl
  | cons m queue ih =>
    unfold popBatch
    split
    · rfl
    · exact congrArg (m :: ·) ih

theorem popBatch_ne_nil {queue : List Outgoing} (h : queue ≠ []) : (popBatch queue).1 ≠ [] := by
  cases queue with
  | nil => exact absurd rfl h
  | cons m queue =>
    unfold popBatch
    split <;> exact List.cons_ne_nil _ _

/-- A batch ends with its first terminal message. -/
theorem popBatch_terminal (queue : List Outgoing) :
    ∀ m ∈ (popBatch queue).1.dropLast, m.terminal = false := by
  induction queue with
  | nil => nofun
  | cons m queue ih =>
    unfold popBatch
    split
    · nofun
    · rename_i hm
      intro m' hm'
      dsimp only at hm'
      by_cases hnil : (popBatch queue).1 = []
      · rw [hnil] at hm'
        cases hm'
      · rw [List.dropLast_cons_of_ne_nil hnil] at hm'
        rcases List.mem_cons.mp hm' with rfl | hm'
        · exact Bool.eq_false_iff.mpr hm
        · exact ih m' hm'

section Write

variable {c : Connection} {written : Bytes}

/-- The bytes of a batch. -/
def batchBytes (ms : List Outgoing) : Bytes := ms.flatMap fun m => m.msg.wire

@[simp] theorem batchBytes_nil : batchBytes [] = [] := rfl

@[simp] theorem batchBytes_append (ms ms' : List Outgoing) :
    batchBytes (ms ++ ms') = batchBytes ms ++ batchBytes ms' := List.flatMap_append

/-- A call while a write is under way. -/
theorem writeFrame_busy (h : c.writeFlag = true) :
    c.writeFrame = ({ c with scheduled := c.scheduled - 1 }, none) := by
  unfold writeFrame
  exact if_pos h

theorem writeFrame_nothing (h : c.writeFlag = false) (hcurrent : c.currentMsgs = [])
    (hqueue : c.sendQueue = []) :
    c.writeFrame = ({ c with scheduled := c.scheduled - 1 }, none) := by
  unfold writeFrame
  dsimp only
  rw [if_neg (by rw [h]; nofun), hcurrent, hqueue]
  exact if_pos rfl

theorem writeFrame_batch (h : c.writeFlag = false) (hcurrent : c.currentMsgs = [])
    (hqueue : c.sendQueue ≠ []) :
    c.writeFrame =
      ({ c with
          scheduled := c.scheduled - 1
          sendQueue := (popBatch c.sendQueue).2
          currentMsgs := (popBatch c.sendQueue).1
          writeFlag := true }, some (popBatch c.sendQueue).1) := by
  unfold writeFrame
  dsimp only
  rw [if_neg (by rw [h]; nofun), hcurrent, List.nil_append]
  exact if_neg (popBatch_ne_nil hqueue)

/-- The messages that the transport is given are those in front of the queue. -/
theorem Queued.writeFrame (h : Queued c written) (hidle : c.writeFlag = false → c.currentMsgs = []) :
    Queued c.writeFrame.1 (written ++ batchBytes (c.writeFrame.2.getD [])) := by
  by_cases hflag : c.writeFlag = true
  · rw [writeFrame_busy hflag]
    exact {
      frames := h.frames
      queue := by
        rw [Option.getD_none, batchBytes_nil, List.append_nil]
        exact h.queue
      woken := fun _ hf => absurd (hflag.symm.trans hf) nofun }
  · rw [Bool.not_eq_true] at hflag
    by_cases hqueue : c.sendQueue = []
    · rw [writeFrame_nothing hflag (hidle hflag) hqueue]
      exact {
        frames := h.frames
        queue := by
          rw [Option.getD_none, batchBytes_nil, List.append_nil]
          exact h.queue
        woken := fun hne => absurd hqueue hne }
    · rw [writeFrame_batch hflag (hidle hflag) hqueue]
      exact {
        frames := h.frames
        queue := by
          rw [← h.queue, Option.getD_some, List.append_assoc]
          unfold batchBytes backlog
          dsimp only
          rw [← List.flatMap_append, popBatch_append]
        woken := fun _ hf => by cases hf }

/-- A write that has succeeded, of messages that leave the connection open. -/
theorem handleWriteFrame_more {last : Outgoing} (hlast : c.currentMsgs.getLast? = some last)
    (hterminal : last.terminal = false) :
    c.handleWriteFrame none = .ok { c with
      currentMsgs := []
      writeFlag := false
      scheduled := if c.sendQueue ≠ [] then c.scheduled + 1 else c.scheduled } := by
  unfold handleWriteFrame
  rw [hlast]
  simp only [Outcome.deref, Outcome.bind_ok, hterminal, Option.isSome_none, Bool.false_eq_true, if_false]
  rfl

/-- A write behind which the connection is terminated. -/
theorem handleWriteFrame_ended {last : Outgoing} {ec : Option Bytes}
    (hlast : c.currentMsgs.getLast? = some last) (hended : ec.isSome = true ∨ last.terminal = true) :
    ∃ ec', c.handleWriteFrame ec = .ok ({ c with currentMsgs := [] }.terminate ec') := by
  unfold handleWriteFrame
  rw [hlast]
  simp only [Outcome.deref, Outcome.bind_ok]
  by_cases hec : ec.isSome = true
  · rw [if_pos hec]
    exact ⟨ec, rfl⟩
  · rw [if_neg hec, if_pos (hended.resolve_left hec)]
    exact ⟨none, rfl⟩

end Write

/-! ## A read -/

/-- What a read does that ends as `d` says, of the messages and the processor. -/
structure ReadTo (c c' : Connection) (d : BufferedReader.Delivery Processor Message Error) : Prop where
  server : c'.isServer = c.isServer
  received : c'.received = c.received ++ d.1
  processor : ∀ q, d.2 = .ok q → c'.processor = q ∧ c'.reading = c.reading
  reading : ∀ e, d.2 = .error e → c'.reading = false
  currentMsgs : c'.currentMsgs = c.currentMsgs
  writeFlag : c'.writeFlag = c.writeFlag
  closed : c.state = .closed → c'.state = .closed
  data : ∀ f ∈ c'.accepted, f.opcode.isControl = false → f ∈ c.accepted
  queued : ∀ written, Queued c written → Queued c' written
  answered : Answered c → Answered c'
  handshake : Handshake c → Handshake c'

/-- The messages that lie ahead are those that the reader finds. -/
structure Reads (c : Connection) (buf : Bytes) (s : Connection × Nat) : Prop where
  place : s.2 ≤ buf.length
  hungry : s.1.processor.Hungry
  server : s.1.isServer = c.isServer
  control : ∀ m ∈ (Processor.reader.read s.1.processor (buf.drop s.2)).1,
    m.opcode.isControl = true → m.payload.length ≤ payloadSizeBasic
  ahead : BufferedReader.pass s.1.received (Processor.reader.read s.1.processor (buf.drop s.2)) =
    BufferedReader.pass c.received (Processor.reader.read c.processor buf)
  reading : s.1.reading = c.reading
  currentMsgs : s.1.currentMsgs = c.currentMsgs
  writeFlag : s.1.writeFlag = c.writeFlag
  closed : c.state = .closed → s.1.state = .closed
  data : ∀ f ∈ s.1.accepted, f.opcode.isControl = false → f ∈ c.accepted
  queued : ∀ written, Queued c written → Queued s.1 written
  answered : Answered c → Answered s.1
  handshake : Handshake c → Handshake s.1

theorem reads_start {c : Connection} (hq : c.processor.Hungry) {buf : Bytes}
    (hcontrol : ∀ m ∈ (Processor.reader.read c.processor buf).1,
      m.opcode.isControl = true → m.payload.length ≤ payloadSizeBasic) : Reads c buf (c, 0) where
  place := Nat.zero_le _
  hungry := hq
  server := rfl
  control := hcontrol
  ahead := rfl
  reading := rfl
  currentMsgs := rfl
  writeFlag := rfl
  closed := id
  data _ hf _ := hf
  queued _ := id
  answered := id
  handshake := id

/-- Behind bytes that have made a message or none. -/
theorem Reads.next {c c₁ c₂ : Connection} {buf : Bytes} {p k : Nat} (h : Reads c buf (c₁, p))
    {ms : List Message} (hk : p + k ≤ buf.length) (hhungry : c₂.processor.Hungry)
    (hserver : c₂.isServer = c₁.isServer)
    (hread : Processor.reader.read c₁.processor (buf.drop p) =
      BufferedReader.pass ms (Processor.reader.read c₂.processor (buf.drop (p + k))))
    (hreceived : c₂.received = c₁.received ++ ms) (hreading : c₂.reading = c₁.reading)
    (hcurrent : c₂.currentMsgs = c₁.currentMsgs) (hflag : c₂.writeFlag = c₁.writeFlag)
    (hclosed : c₁.state = .closed → c₂.state = .closed)
    (hdata : ∀ f ∈ c₂.accepted, f.opcode.isControl = false → f ∈ c₁.accepted)
    (hqueued : ∀ written, Queued c₁ written → Queued c₂ written) (hanswered : Answered c₁ → Answered c₂)
    (hhandshake : Handshake c₁ → Handshake c₂) : Reads c buf (c₂, p + k) where
  place := hk
  hungry := hhungry
  server := hserver.trans h.server
  control m hm := h.control m (by
    dsimp only
    rw [hread]
    exact List.mem_append_right _ hm)
  ahead := by
    rw [← h.ahead]
    dsimp only
    rw [hread, hreceived, BufferedReader.pass_pass]
  reading := hreading.trans h.reading
  currentMsgs := hcurrent.trans h.currentMsgs
  writeFlag := hflag.trans h.writeFlag
  closed := hclosed ∘ h.closed
  data f hf hd := h.data f (hdata f hf hd) hd
  queued written := hqueued written ∘ h.queued written
  answered := hanswered ∘ h.answered
  handshake := hhandshake ∘ h.handshake

theorem readTo_end {c c₁ c₂ : Connection} {buf : Bytes} {p : Nat} (h : Reads c buf (c₁, p))
    {r : Except Error Processor} (hread : Processor.reader.read c₁.processor (buf.drop p) = ([], r))
    (hserver : c₂.isServer = c₁.isServer) (hreceived : c₂.received = c₁.received)
    (hprocessor : ∀ q, r = .ok q → c₂.processor = q ∧ c₂.reading = c₁.reading)
    (hreading : ∀ e, r = .error e → c₂.reading = false) (hcurrent : c₂.currentMsgs = c₁.currentMsgs)
    (hflag : c₂.writeFlag = c₁.writeFlag) (hclosed : c₁.state = .closed → c₂.state = .closed)
    (hdata : ∀ f ∈ c₂.accepted, f.opcode.isControl = false → f ∈ c₁.accepted)
    (hqueued : ∀ written, Queued c₁ written → Queued c₂ written)
    (hanswered : Answered c₁ → Answered c₂) (hhandshake : Handshake c₁ → Handshake c₂) :
    ReadTo c c₂ (Processor.reader.read c.processor buf) := by
  have hahead := h.ahead
  dsimp only at hahead
  rw [hread] at hahead
  generalize Processor.reader.read c.processor buf = d at hahead
  obtain ⟨ms, r'⟩ := d
  obtain ⟨hms, rfl⟩ := Prod.ext_iff.mp hahead
  exact {
    server := hserver.trans h.server
    received := hreceived.trans ((List.append_nil _).symm.trans hms)
    processor := fun q hq => ⟨(hprocessor q hq).1, (hprocessor q hq).2.trans h.reading⟩
    reading := hreading
    currentMsgs := hcurrent.trans h.currentMsgs
    writeFlag := hflag.trans h.writeFlag
    closed := hclosed ∘ h.closed
    data := fun f hf hd => h.data f (hdata f hf hd) hd
    queued := fun written => hqueued written ∘ h.queued written
    answered := hanswered ∘ h.answered
    handshake := hhandshake ∘ h.handshake }

theorem readTo_consumeFailed {c c₁ : Connection} {buf : Bytes} {p : Nat} (h : Reads c buf (c₁, p))
    (rng : UInt32) {e : Error} (hread : Processor.reader.read c₁.processor (buf.drop p) = ([], .error e)) :
    ReadTo c (c₁.consumeFailed rng e) (Processor.reader.read c.processor buf) := by
  have hsteady := steady_consumeFailed c₁ rng e
  have hclosed := closed_consumeFailed c₁ rng e
  have hhandshake := fun h : Handshake c₁ => h.consumeFailed rng e
  generalize c₁.consumeFailed rng e = c₂ at hsteady hclosed hhandshake
  refine readTo_end h hread hsteady.server hsteady.received (fun q hq => ?_) (fun _ _ => hsteady.reading)
    hsteady.currentMsgs hsteady.writeFlag hclosed hsteady.data (fun written hw => ?_) (fun ha => ?_) hhandshake
  · cases hq
  · exact hsteady.queued written (hw.congr rfl rfl rfl rfl rfl)
  · exact hsteady.answered (ha.congr rfl rfl rfl id)

section Round

variable {c : Connection} {rng : Nat → UInt32} {buf : Bytes} {p k : Nat} {q : Processor}

theorem readRound_end (h : ¬ p < buf.length) : readRound rng buf (c, p) = .ok (.inr c) := if_neg h

theorem readRound_error {e : Error} (h : p < buf.length)
    (hconsume : c.processor.consume (buf.drop p) = .ok (.error e)) :
    readRound rng buf (c, p) = .ok (.inr (c.consumeFailed (rng p) e)) := by
  unfold readRound
  rw [if_pos h, hconsume]
  rfl

theorem readRound_more (h : p < buf.length) (hconsume : c.processor.consume (buf.drop p) = .ok (.ok (q, k)))
    (hready : q.state ≠ .ready) :
    readRound rng buf (c, p) = .ok (.inl ({ c with processor := q }, p + k)) := by
  unfold readRound
  rw [if_pos h, hconsume, Outcome.bind_ok]
  exact if_neg hready

theorem readRound_null {q' : Processor} (h : p < buf.length)
    (hconsume : c.processor.consume (buf.drop p) = .ok (.ok (q, k))) (hready : q.state = .ready)
    (hget : q.getMessage = .ok (none, q')) :
    readRound rng buf (c, p) = .ok (.inl ({ c with processor := q' }, p + k)) := by
  unfold readRound
  rw [if_pos h, hconsume, Outcome.bind_ok]
  dsimp only
  rw [if_pos hready, hget]
  rfl

theorem readRound_message {m : Message} {q' : Processor} (h : p < buf.length)
    (hconsume : c.processor.consume (buf.drop p) = .ok (.ok (q, k))) (hready : q.state = .ready)
    (hget : q.getMessage = .ok (some m, q')) :
    readRound rng buf (c, p) =
      .ok (.inl ({ c with processor := q' }.dispatch (rng (p + k)) m, p + k)) := by
  unfold readRound
  rw [if_pos h, hconsume, Outcome.bind_ok]
  dsimp only
  rw [if_pos hready, hget]
  rfl

end Round

/-- What a round has read: nothing that is complete, or a message. -/
def readOn (c : Connection) (rng : UInt32) (q : Processor) : Option Message → Connection
  | none => { c with processor := q }
  | some m => { c with processor := q }.dispatch rng m

/-- A round of the loop: its end, an error, or some bytes and what they have made. -/
theorem readRound_spec {c : Connection} (hhungry : c.processor.Hungry) (rng : Nat → UInt32) {buf : Bytes} {p : Nat}
    (hplace : p ≤ buf.length) :
    (buf.drop p = [] ∧ readRound rng buf (c, p) = .ok (.inr c)) ∨
      (∃ e, readRound rng buf (c, p) = .ok (.inr (c.consumeFailed (rng p) e)) ∧
        Processor.reader.read c.processor (buf.drop p) = ([], .error e)) ∨
      ∃ q k m, readRound rng buf (c, p) = .ok (.inl (c.readOn (rng (p + k)) q m, p + k)) ∧ 0 < k ∧
        p + k ≤ buf.length ∧ q.Hungry ∧ q.server = c.isServer ∧
        Processor.reader.read c.processor (buf.drop p) =
          BufferedReader.pass m.toList (Processor.reader.read q (buf.drop (p + k))) := by
  by_cases hend : p < buf.length
  · obtain ⟨r, hr, hconsumed⟩ := Processor.consume_spec hhungry (buf.drop p)
    obtain e | ⟨q', k⟩ := r
    · exact .inr (.inl ⟨e, readRound_error hend hr, hconsumed⟩)
    · have hne : buf.drop p ≠ [] := by
        rw [← List.length_pos_iff, List.length_drop]
        omega
      obtain ⟨u, v, huv, rfl, hu, hrest⟩ := hconsumed
      rw [Nat.zero_add] at hr
      have hpos := List.length_pos_iff.mpr (hu hne)
      have hlen := congrArg List.length huv
      rw [List.length_drop, List.length_append] at hlen
      have hv : buf.drop (p + u.length) = v := by rw [← List.drop_drop, huv, List.drop_left' rfl]
      have hserver := Processor.consume_server hhungry hr
      right; right
      by_cases hready : q'.state = .ready
      · rw [if_pos hready] at hrest
        obtain ⟨hsound, hread⟩ := hrest
        obtain ⟨m, hget, hmsgs⟩ := Processor.getMessage_deliver hsound hready
        have hserver' : q'.deliver.1.server = c.isServer := (Processor.deliver_server hsound).trans hserver
        rw [hmsgs, ← hv] at hread
        refine ⟨q'.deliver.1, u.length, m, ?_, hpos, by omega, hsound.deliver (.inl hready), hserver', hread⟩
        cases m with
        | none => exact readRound_null hend hr hready hget
        | some m => exact readRound_message hend hr hready hget
      · rw [if_neg hready] at hrest
        obtain ⟨rfl, hq', hread⟩ := hrest
        refine ⟨q', u.length, none, readRound_more hend hr hready, hpos, by omega, hq', hserver, ?_⟩
        rw [hv, BufferedReader.read_nil, hread]
        rfl
  · exact .inl ⟨List.drop_eq_nil_of_le (by omega), readRound_end hend⟩

/-- A round of the loop keeps what a read does. -/
theorem readRound_cases {c : Connection} (rng : Nat → UInt32) {buf : Bytes} {s : Connection × Nat}
    (h : Reads c buf s) :
    (∃ s', readRound rng buf s = .ok (.inl s') ∧ Reads c buf s' ∧ buf.length - s'.2 < buf.length - s.2) ∨
      ∃ c', readRound rng buf s = .ok (.inr c') ∧
        ReadTo c c' (Processor.reader.read c.processor buf) := by
  obtain ⟨c₁, p⟩ := s
  rcases readRound_spec h.hungry rng h.place with
    ⟨hend, hround⟩ | ⟨e, hround, hread⟩ | ⟨q, k, m, hround, hpos, hk, hq, hserver, hread⟩
  · have hread : Processor.reader.read c₁.processor (buf.drop p) = ([], .ok c₁.processor) := by
      rw [show buf.drop p = [] from hend, BufferedReader.read_nil]
    exact .inr ⟨c₁, hround, readTo_end h hread rfl rfl (by rintro _ ⟨⟩; exact ⟨rfl, rfl⟩) nofun rfl rfl id
      (fun _ hf _ => hf) (fun _ => id) id id⟩
  · exact .inr ⟨_, hround, readTo_consumeFailed h (rng p) hread⟩
  · refine .inl ⟨_, hround, ?_, by dsimp only at hk ⊢; omega⟩
    cases m with
    | none =>
      exact h.next hk hq hserver hread (List.append_nil _).symm rfl rfl rfl id (fun _ hf _ => hf)
        (fun _ hw => hw.congr hserver rfl rfl rfl rfl) (fun ha => ha.congr rfl rfl rfl id)
        fun hh => hh.mono (fun _ => rfl) rfl (fun _ => id) fun _ => id
    | some m =>
      have hcontrol := h.control m (by
        dsimp only at hread ⊢
        rw [hread]
        exact List.mem_append_left _ List.mem_cons_self)
      have hreceived := received_dispatch { c₁ with processor := q } (rng (p + k)) hcontrol
      have hprocessor : q = _ := hreceived.processor.symm
      rw [hprocessor] at hread
      exact h.next hk (hreceived.processor ▸ hq) ((congrArg Processor.server hreceived.processor).trans hserver)
        hread hreceived.received hreceived.reading hreceived.currentMsgs hreceived.writeFlag hreceived.closed
        hreceived.data (fun written hw => hreceived.queued written (hw.congr hserver rfl rfl rfl rfl))
        (fun ha => hreceived.answered (ha.congr rfl rfl rfl id)) fun hh =>
          have hnoted : Handshake { c₁ with processor := q } := hh.mono (fun _ => rfl) rfl (fun _ => id) fun _ => id
          hnoted.dispatch _ m

/-- A read ends without a fault, as the reader ends. -/
theorem handleReadFrame_readTo {c : Connection} (hq : c.processor.Hungry) (rng : Nat → UInt32) {buf : Bytes}
    (hcontrol : ∀ m ∈ (Processor.reader.read c.processor buf).1,
      m.opcode.isControl = true → m.payload.length ≤ payloadSizeBasic) :
    ∃ c', c.handleReadFrame rng buf = .ok c' ∧ ReadTo c c' (Processor.reader.read c.processor buf) :=
  Loop.run_of_measure (fun s => buf.length - s.2) (fun _ => readRound_cases rng) (reads_start hq hcontrol)
    (Nat.lt_succ_of_le (Nat.sub_le _ _))

/-! ## A read of whole messages -/

/-- The messages are dispatched, one after the other, while the processor goes on. -/
inductive Dispatches (rng : Nat → UInt32) (c : Connection) : List Message → Connection → Prop
  | start : Dispatches rng c [] c
  | consume {ms : List Message} {c' : Connection} {q : Processor} (h : Dispatches rng c ms c')
      (hserver : q.server = c'.isServer) : Dispatches rng c ms { c' with processor := q }
  | dispatch {ms : List Message} {c' : Connection} (h : Dispatches rng c ms c') (i : Nat) (m : Message) :
      Dispatches rng c (ms ++ [m]) (c'.dispatch (rng i) m)

theorem Dispatches.nothing {c c' : Connection} {rng : Nat → UInt32} {ms : List Message}
    (h : Dispatches rng c ms c') (hms : ms = []) :
    ∃ q, q.server = c.isServer ∧ c' = { c with processor := q } := by
  induction h with
  | start => exact ⟨c.processor, rfl, rfl⟩
  | consume _ hserver ih =>
    obtain ⟨q, hq, rfl⟩ := ih hms
    exact ⟨_, hserver.trans hq, rfl⟩
  | dispatch _ _ m => simp at hms

end Connection

end TmatePlugin.L1.WsConnection
