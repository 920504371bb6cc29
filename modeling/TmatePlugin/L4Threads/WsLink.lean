import TmatePlugin.Lib.Transition
import TmatePlugin.L1Base.Hybi13Messages
import TmatePlugin.L1Base.WsConnection

/-!
# Two WebSocket endpoints

A client and a server of the library, and the bytes that are on their way. Each
side runs its calls of `handle_read_frame`, `write_frame` and `handle_write_frame`
one after the other; other threads call `send` and `ping`, which check the state
of the connection and push a frame in two steps, so that anything may come in
between. TCP hands the bytes over in any pieces; what a side that is terminated
has not been rid of may be lost.

A call of `close` is one action. Main's thread calls it too (plugin_main.cpp:212),
and the handlers look at the state without the lock that `close` holds; that one of
them runs between its check and its push is left out.

* `Endpoint.Inv`, `inv_inductive`: the invariant of a side, and of both.
* `link_delivers`: what a side passes on is what the other has sent, in order,
  and the pongs it gets answer its pings.
* `link_complete`: no endpoint takes what the other sends for a protocol error,
  and when nothing is on its way everything has been passed on.
* `writes_in_order`: what the transport is given; `handlers_safe`: its handlers.
* `clean_close`: what a connection that was closed cleanly has received.
-/
namespace TmatePlugin.L4.WsLink

open CString TmatePlugin.L1.Frame TmatePlugin.L1.Hybi13 TmatePlugin.L1.WsConnection
open TmatePlugin.L1.WsConnection.Connection Transition

/-- A call of `send` or `ping` behind its check. -/
inductive Call where
  | data (op : Opcode) (payload : Bytes)
  | ping (payload : Bytes)

namespace Call

def payload : Call → Bytes
  | data _ payload => payload
  | ping payload => payload

/-- The part behind the check. -/
def finish (c : Connection) (rng : UInt32) : Call → Except Error Connection
  | data op payload => c.sendData rng op payload
  | ping payload => c.sendPing rng payload

end Call

/-- A side. The fields `handed` and `consumed` are history. -/
structure Endpoint where
  conn : Connection
  /-- what this side has written and the other has not read -/
  wire : Bytes := []
  /-- a write of the transport is under way -/
  writing : Bool := false
  checked : List Call := []
  /-- the messages that the transport was given -/
  handed : List Outgoing := []
  /-- the bytes that this side has read -/
  consumed : Bytes := []

/-- The server is the side `true`. -/
abbrev Link := Bool → Endpoint

inductive Action where
  | check (call : Call)
  | push (i : Nat) (rng : UInt32)
  | close (rng : UInt32) (code : Nat) (reason : Bytes)
  | writeFrame
  | written (ec : Option Bytes)
  | read (n : Nat) (rng : Nat → UInt32)
  | terminate (ec : Option Bytes)
  | lose (n : Nat)

namespace Endpoint

/-- mirrors websocket/websocketpp/impl/connection_impl.hpp:1793-1886 (`write_frame`, where it
was dispatched); a terminated connection gives the network nothing -/
def write (e : Endpoint) : Endpoint :=
  match e.conn.writeFrame with
  | (c, none) => { e with conn := c }
  | (c, some batch) =>
    { e with
      conn := c
      wire := if e.conn.state = .closed then e.wire else e.wire ++ batchBytes batch
      writing := true
      handed := e.handed ++ batch }

/-- The actions in which a side is alone. -/
def step (e : Endpoint) : Action → Option Endpoint
  | .check call =>
    if call.payload.length < 2 ^ 64 ∧ e.conn.checkOpen then some { e with checked := e.checked ++ [call] }
    else none
  | .push i rng =>
    match e.checked[i]? with
    | none => none
    | some call =>
      match call.finish e.conn rng with
      | .error _ => some { e with checked := e.checked.eraseIdx i }
      | .ok c => some { e with conn := c, checked := e.checked.eraseIdx i }
  | .close rng code reason => some { e with conn := (e.conn.close rng code reason).1 }
  | .writeFrame => if 0 < e.conn.scheduled then some e.write else none
  | .written ec =>
    if e.writing then
      match e.conn.handleWriteFrame ec with
      | .error _ => none
      | .ok c => some { e with conn := c, writing := false }
    else none
  | .terminate ec => some { e with conn := e.conn.terminate ec }
  | .lose n => if e.conn.state = .closed then some { e with wire := e.wire.take n } else none
  | .read _ _ => none

end Endpoint

/-- A read of this side, of bytes that the other has written. -/
def readStep (l : Link) (side : Bool) (n : Nat) (rng : Nat → UInt32) : Option Link :=
  let e := l side
  let peer := l (!side)
  if e.conn.reading ∧ 0 < n ∧ n ≤ 16384 ∧ n ≤ peer.wire.length then
    match e.conn.handleReadFrame rng (peer.wire.take n) with
    | .error _ => none
    | .ok c =>
      some (Function.update (Function.update l side { e with conn := c, consumed := e.consumed ++ peer.wire.take n })
        (!side) { peer with wire := peer.wire.drop n })
  else none

def step (l : Link) (a : Bool × Action) : Option Link :=
  match a.2 with
  | .read n rng => readStep l a.1 n rng
  | action => ((l a.1).step action).map (Function.update l a.1)

def start (limit : Bool → Nat) : Link := fun side =>
  { conn := { processor := .new side (limit side) } }

/-- `limit`: the maximal size of a message that each side takes. -/
def link (limit : Bool → Nat) : System Link (Bool × Action) := .ofFn (· = start limit) step

/-! ## A side -/

/-- What a connection has made of the bytes it has read. -/
def ReadSoFar (q : Processor) (c : Connection) (s : Bytes) : Prop :=
  ∃ r, Processor.reader.read q s = (c.received, r) ∧
    match r with
    | .ok q' => c.processor = q' ∧ c.reading = true
    | .error _ => c.reading = false

theorem ReadSoFar.ok {q : Processor} {c : Connection} {s : Bytes} (h : ReadSoFar q c s)
    (hreading : c.reading = true) : Processor.reader.read q s = (c.received, .ok c.processor) := by
  obtain ⟨r, hread, hend⟩ := h
  cases r with
  | error e => exact absurd (hreading.symm.trans hend) nofun
  | ok q' => rw [hread, hend.1]

theorem ReadSoFar.congr {q : Processor} {c c' : Connection} {s : Bytes} (h : ReadSoFar q c s)
    (hreceived : c'.received = c.received) (hprocessor : c'.processor = c.processor)
    (hreading : c'.reading = c.reading) : ReadSoFar q c' s := by
  unfold ReadSoFar
  rw [hreceived, hprocessor, hreading]
  exact h

namespace Endpoint

structure Inv (side : Bool) (limit : Nat) (e : Endpoint) : Prop where
  server : e.conn.isServer = side
  queued : Queued e.conn (batchBytes e.handed)
  answered : Answered e.conn
  handshake : Handshake e.conn
  read : ReadSoFar (.new side limit) e.conn e.consumed
  busy : e.writing = true → e.conn.writeFlag = true ∧ e.conn.currentMsgs ≠ [] ∧
    ∃ before, e.handed = before ++ e.conn.currentMsgs
  idle : e.conn.writeFlag = false → e.conn.currentMsgs = [] ∧ ∀ m ∈ e.handed, m.terminal = false
  flagged : e.conn.writeFlag = true → e.conn.state ≠ .closed → e.writing = true
  terminal : ∀ m ∈ e.handed.dropLast, m.terminal = false
  calls : ∀ call ∈ e.checked, call.payload.length < 2 ^ 64

theorem inv_start (side : Bool) (limit : Nat) : Inv side limit { conn := { processor := .new side limit } } where
  server := rfl
  queued := queued_new _
  answered := answered_new _
  handshake := handshake_new _
  read := ⟨_, BufferedReader.read_nil _, rfl, rfl⟩
  busy := nofun
  idle _ := ⟨rfl, nofun⟩
  flagged := nofun
  terminal := nofun
  calls := nofun

section Step

variable {side : Bool} {limit : Nat} {e : Endpoint} {c : Connection}

/-- A step that gives the transport nothing. -/
theorem Inv.conn (h : Inv side limit e) (consumed : Bytes) (hserver : c.isServer = e.conn.isServer)
    (hqueued : ∀ written, Queued e.conn written → Queued c written)
    (hanswered : Answered e.conn → Answered c) (hhandshake : Handshake c) (hcurrent : c.currentMsgs = e.conn.currentMsgs)
    (hflag : c.writeFlag = e.conn.writeFlag) (hclosed : e.conn.state = .closed → c.state = .closed)
    (hread : ReadSoFar (.new side limit) c consumed) :
    Inv side limit { e with conn := c, consumed := consumed } where
  server := hserver.trans h.server
  queued := hqueued _ h.queued
  answered := hanswered h.answered
  handshake := hhandshake
  read := hread
  busy hw := by
    dsimp only
    rw [hcurrent, hflag]
    exact h.busy hw
  idle hf := by
    dsimp only at hf ⊢
    rw [hflag] at hf
    rw [hcurrent]
    exact h.idle hf
  flagged hf hs := h.flagged (hflag ▸ hf) fun hclose => hs (hclosed hclose)
  terminal := h.terminal
  calls := h.calls

theorem Inv.steady (h : Inv side limit e) (hs : Steady e.conn c) (hhandshake : Handshake c)
    (hclosed : e.conn.state = .closed → c.state = .closed) : Inv side limit { e with conn := c } :=
  h.conn e.consumed hs.server hs.queued hs.answered hhandshake hs.currentMsgs hs.writeFlag hclosed
    (h.read.congr hs.received hs.processor hs.reading)

theorem Inv.checked (h : Inv side limit e) {calls : List Call}
    (hcalls : ∀ call ∈ calls, call.payload.length < 2 ^ 64) : Inv side limit { e with checked := calls } :=
  { h with calls := hcalls }

/-- What a call pushes. -/
theorem finish_pushes {call : Call} {rng : UInt32} (hlen : call.payload.length < 2 ^ 64)
    (hfinish : call.finish e.conn rng = .ok c) :
    ∃ f m, c = e.conn.writePush f m ∧ m.msg.wire = f.bytes ∧ SentFrame e.conn.isServer f ∧
      f.opcode ≠ .pong ∧ (f.opcode.isControl = false →
        ∃ op payload, call = .data op payload ∧ f.opcode = op ∧ f.payload = payload) := by
  cases call with
  | data op payload =>
    have hsend : e.conn.sendData rng op payload = .ok c := hfinish
    unfold sendData at hsend
    rcases hprepare : e.conn.processor.prepareDataFrame rng { opcode := op, payload := payload } with err | m
    · rw [hprepare] at hsend
      cases hsend
    · rw [hprepare] at hsend
      cases hsend
      obtain ⟨hdata, htext, hwire⟩ := prepareDataFrame_wire hprepare
      refine ⟨_, _, rfl, hwire, sentFrame_data _ rng hdata hlen htext, ?_, fun _ => ⟨op, payload, rfl, rfl, rfl⟩⟩
      rintro rfl
      cases hdata
  | ping payload =>
    have hsend : e.conn.sendPing rng payload = .ok c := hfinish
    unfold sendPing at hsend
    rcases hprepare : e.conn.processor.prepareControl rng .ping payload with err | m
    · rw [hprepare] at hsend
      cases hsend
    · rw [hprepare] at hsend
      cases hsend
      obtain ⟨hsize, hwire⟩ := prepareControl_wire hprepare
      exact ⟨_, _, rfl, hwire, sentFrame_control _ rng (.inr (.inl rfl)) hsize, nofun, nofun⟩

theorem Inv.push (h : Inv side limit e) {call : Call} {rng : UInt32} (hlen : call.payload.length < 2 ^ 64)
    (hfinish : call.finish e.conn rng = .ok c) : Inv side limit { e with conn := c } := by
  obtain ⟨f, m, rfl, hwire, hsent, hpong, -⟩ := finish_pushes hlen hfinish
  exact h.conn e.consumed rfl (fun _ hq => hq.writePush hwire hsent) (fun ha => ha.writePush hpong)
    (h.handshake.writePush f m) rfl rfl id
    (h.read.congr rfl rfl rfl)

/-! ### Writing -/

theorem dropLast_append_terminal {before ms : List Outgoing} (hbefore : ∀ m ∈ before, m.terminal = false)
    (hms : ∀ m ∈ ms.dropLast, m.terminal = false) : ∀ m ∈ (before ++ ms).dropLast, m.terminal = false := by
  intro m hm
  by_cases hnil : ms = []
  · rw [hnil, List.append_nil] at hm
    exact hbefore m (List.mem_of_mem_dropLast hm)
  · rw [List.dropLast_append_of_ne_nil hnil] at hm
    rcases List.mem_append.mp hm with hm | hm
    · exact hbefore m hm
    · exact hms m hm

theorem write_none {e : Endpoint} (h : e.conn.writeFrame.2 = none) : e.write = { e with conn := e.conn.writeFrame.1 } := by
  unfold write
  generalize e.conn.writeFrame = r at h
  obtain ⟨c, batch⟩ := r
  cases h
  rfl

theorem write_some {e : Endpoint} {batch : List Outgoing} (h : e.conn.writeFrame.2 = some batch) :
    e.write =
      { e with
        conn := e.conn.writeFrame.1
        wire := if e.conn.state = .closed then e.wire else e.wire ++ batchBytes batch
        writing := true
        handed := e.handed ++ batch } := by
  unfold write
  generalize e.conn.writeFrame = r at h
  obtain ⟨c, batch⟩ := r
  cases h
  rfl

theorem Inv.write (h : Inv side limit e) : Inv side limit e.write := by
  have hqueued := h.queued.writeFrame fun hf => (h.idle hf).1
  by_cases hflag : e.conn.writeFlag = true
  · have hbusy := writeFrame_busy hflag
    rw [hbusy] at hqueued
    rw [write_none (congrArg Prod.snd hbusy), hbusy]
    exact {
      server := h.server
      queued := by
        have := hqueued
        rwa [Option.getD_none, batchBytes_nil, List.append_nil] at this
      answered := h.answered.congr rfl rfl rfl id
      handshake := h.handshake.mono (fun _ => rfl) rfl (fun _ => id) fun _ => id
      read := h.read.congr rfl rfl rfl
      busy := h.busy
      idle := h.idle
      flagged := h.flagged
      terminal := h.terminal
      calls := h.calls }
  · rw [Bool.not_eq_true] at hflag
    obtain ⟨hcurrent, hterminal⟩ := h.idle hflag
    by_cases hqueue : e.conn.sendQueue = []
    · have hnothing := writeFrame_nothing hflag hcurrent hqueue
      rw [hnothing] at hqueued
      rw [write_none (congrArg Prod.snd hnothing), hnothing]
      exact {
        server := h.server
        queued := by
          have := hqueued
          rwa [Option.getD_none, batchBytes_nil, List.append_nil] at this
        answered := h.answered.congr rfl rfl rfl id
        handshake := h.handshake.mono (fun _ => rfl) rfl (fun _ => id) fun _ => id
        read := h.read.congr rfl rfl rfl
        busy := h.busy
        idle := h.idle
        flagged := h.flagged
        terminal := h.terminal
        calls := h.calls }
    · have hbatch := writeFrame_batch hflag hcurrent hqueue
      rw [hbatch] at hqueued
      rw [write_some (congrArg Prod.snd hbatch), hbatch]
      exact {
        server := h.server
        queued := by
          have := hqueued
          rwa [Option.getD_some, ← batchBytes_append] at this
        answered := h.answered.congr rfl rfl rfl id
        handshake := h.handshake.mono (fun _ => rfl) rfl (fun _ => id) fun _ => id
        read := h.read.congr rfl rfl rfl
        busy := fun _ => ⟨rfl, popBatch_ne_nil hqueue, e.handed, rfl⟩
        idle := fun hf => by cases hf
        flagged := fun _ _ => rfl
        terminal := dropLast_append_terminal hterminal (popBatch_terminal _)
        calls := h.calls }

theorem Inv.written (h : Inv side limit e) (hwriting : e.writing = true) (ec : Option Bytes) :
    ∃ c, e.conn.handleWriteFrame ec = .ok c ∧ Inv side limit { e with conn := c, writing := false } ∧
      (e.conn.state = .closed → c.state = .closed) := by
  obtain ⟨hflag, hne, before, hbefore⟩ := h.busy hwriting
  obtain ⟨last, hlast⟩ : ∃ last, e.conn.currentMsgs.getLast? = some last := by
    rw [List.getLast?_eq_some_getLast hne]
    exact ⟨_, rfl⟩
  have hback : e.handed.getLast? = some last := by
    rw [hbefore, List.getLast?_append_of_ne_nil _ hne, hlast]
  by_cases hended : ec.isSome = true ∨ last.terminal = true
  · obtain ⟨ec', hwrite⟩ := handleWriteFrame_ended hlast hended
    have hs := steady_terminate { e.conn with currentMsgs := [] } ec'
    have hclosed := terminate_state { e.conn with currentMsgs := [] } ec'
    have hwritten : Handshake { e.conn with currentMsgs := [] } :=
      h.handshake.mono (fun _ => rfl) rfl (fun _ => id) fun _ => id
    have hhandshake := hwritten.terminate ec'
    generalize { e.conn with currentMsgs := [] }.terminate ec' = c at hwrite hs hclosed hhandshake
    refine ⟨c, hwrite, ?_, fun _ => hclosed⟩
    exact {
      server := hs.server.trans h.server
      queued := hs.queued _ (h.queued.congr rfl rfl rfl rfl rfl)
      answered := hs.answered (h.answered.congr rfl rfl rfl id)
      handshake := hhandshake
      read := h.read.congr hs.received hs.processor hs.reading
      busy := nofun
      idle := fun hf => by cases (hflag.symm.trans (hs.writeFlag.symm.trans hf))
      flagged := fun _ hopen => absurd hclosed hopen
      terminal := h.terminal
      calls := h.calls }
  · rw [not_or, Option.not_isSome_iff_eq_none, Bool.not_eq_true] at hended
    obtain ⟨rfl, hterminal⟩ := hended
    refine ⟨_, handleWriteFrame_more hlast hterminal, ?_, id⟩
    exact {
      server := h.server
      queued := {
        frames := h.queued.frames
        queue := h.queued.queue
        woken := fun hqueue _ => by
          dsimp only
          rw [if_pos hqueue]
          exact Nat.succ_pos _ }
      answered := h.answered.congr rfl rfl rfl id
      handshake := h.handshake.mono (fun _ => rfl) rfl (fun _ => id) fun _ => id
      read := h.read.congr rfl rfl rfl
      busy := nofun
      idle := fun _ => ⟨rfl, fun m hm => by
        rw [← List.dropLast_append_getLast? last hback] at hm
        rcases List.mem_append.mp hm with hm | hm
        · exact h.terminal m hm
        · rwa [List.mem_singleton.mp hm]⟩
      flagged := nofun
      terminal := h.terminal
      calls := h.calls }

/-! ### Reading -/

theorem Inv.processor (h : Inv side limit e) (hreading : e.conn.reading = true) :
    e.conn.processor.Hungry ∧ e.conn.processor.Bounded limit := by
  have hread := h.read.ok hreading
  have hnew := Processor.hungry_new side limit
  exact ⟨BufferedReader.read_ok Processor.reader_lawful e.consumed _ hnew _ (by rw [hread]),
    (Processor.bounded_read hnew (Processor.bounded_new side limit) e.consumed).2 _ (by rw [hread])⟩

/-- A read that has succeeded, of any bytes. -/
theorem Inv.receive (h : Inv side limit e) (hreading : e.conn.reading = true) (rng : Nat → UInt32)
    (buf : Bytes) :
    ∃ c, e.conn.handleReadFrame rng buf = .ok c ∧
      Inv side limit { e with conn := c, consumed := e.consumed ++ buf } ∧
      (e.conn.state = .closed → c.state = .closed) := by
  obtain ⟨hhungry, hbounded⟩ := h.processor hreading
  have hcontrol : ∀ m ∈ (Processor.reader.read e.conn.processor buf).1,
      m.opcode.isControl = true → m.payload.length ≤ payloadSizeBasic :=
    fun m hm => ((Processor.bounded_read hhungry hbounded buf).1 m hm).control
  obtain ⟨c, hc, hto⟩ := handleReadFrame_readTo hhungry rng hcontrol
  refine ⟨c, hc, h.conn _ hto.server hto.queued hto.answered
    (hto.handshake h.handshake) hto.currentMsgs hto.writeFlag hto.closed ?_, hto.closed⟩
  refine ⟨(Processor.reader.read e.conn.processor buf).2, ?_, ?_⟩
  · rw [BufferedReader.read_append Processor.reader_lawful _ _ (Processor.hungry_new _ _), h.read.ok hreading,
      BufferedReader.andThen_ok, hto.received]
    rfl
  · cases hend : (Processor.reader.read e.conn.processor buf).2 with
    | error err => exact hto.reading err hend
    | ok q => exact ⟨(hto.processor q hend).1, (hto.processor q hend).2.trans hreading⟩

/-! ### What is on its way -/

/-- The bytes that the other side has read of this one. -/
structure Carried (e : Endpoint) (read : Bytes) : Prop where
  front : read ++ e.wire <+: batchBytes e.handed
  all : e.conn.state ≠ .closed → read ++ e.wire = batchBytes e.handed

theorem Carried.congr {e e' : Endpoint} {read : Bytes} (h : Carried e read) (hwire : e'.wire = e.wire)
    (hhanded : e'.handed = e.handed) (hclosed : e.conn.state = .closed → e'.conn.state = .closed) :
    Carried e' read where
  front := by
    rw [hwire, hhanded]
    exact h.front
  all hopen := by
    rw [hwire, hhanded]
    exact h.all fun hclose => hopen (hclosed hclose)

/-- The other side reads in front. -/
theorem Carried.read {read : Bytes} (h : Carried e read) (n : Nat) :
    Carried { e with wire := e.wire.drop n } (read ++ e.wire.take n) where
  front := by
    dsimp only
    rw [List.append_assoc, List.take_append_drop]
    exact h.front
  all hopen := by
    dsimp only
    rw [List.append_assoc, List.take_append_drop]
    exact h.all hopen

theorem writeFrame_state (c : Connection) : c.writeFrame.1.state = c.state := by
  unfold Connection.writeFrame
  dsimp only
  split_ifs <;> rfl

theorem Carried.write {read : Bytes} (h : Carried e read) : Carried e.write read := by
  cases hbatch : e.conn.writeFrame.2 with
  | none =>
    rw [write_none hbatch]
    exact h.congr rfl rfl fun hclosed => (writeFrame_state _).trans hclosed
  | some batch =>
    rw [write_some hbatch]
    by_cases hclosed : e.conn.state = .closed
    · exact {
        front := by
          dsimp only
          rw [if_pos hclosed, batchBytes_append]
          exact h.front.trans (List.prefix_append _ _)
        all := fun hopen => absurd ((writeFrame_state _).trans hclosed) hopen }
    · have hall := h.all hclosed
      have heq : read ++ (e.wire ++ batchBytes batch) = batchBytes (e.handed ++ batch) := by
        rw [← List.append_assoc, hall, batchBytes_append]
      exact {
        front := by
          dsimp only
          rw [if_neg hclosed, heq]
        all := fun _ => by
          dsimp only
          rw [if_neg hclosed, heq] }

/-! ### An action of a side -/

/-- What a side does alone. -/
structure Alone (side : Bool) (limit : Nat) (e e' : Endpoint) : Prop where
  inv : Inv side limit e'
  carried : ∀ read, Carried e read → Carried e' read
  consumed : e'.consumed = e.consumed

/-- The connection of a side goes on, and the other fields but `checked` and
`writing` stay. -/
theorem alone_conn {e' : Endpoint} (hinv : Inv side limit e') (hwire : e'.wire = e.wire)
    (hhanded : e'.handed = e.handed) (hconsumed : e'.consumed = e.consumed)
    (hclosed : e.conn.state = .closed → e'.conn.state = .closed) : Alone side limit e e' where
  inv := hinv
  carried _ h := h.congr hwire hhanded hclosed
  consumed := hconsumed

theorem Inv.step (h : Inv side limit e) {a : Action} {e' : Endpoint} (hstep : e.step a = some e') :
    Alone side limit e e' := by
  cases a with
  | check call =>
    obtain ⟨⟨hlen, -⟩, ⟨⟩⟩ := Option.ite_none_right_eq_some.mp hstep
    refine alone_conn (h.checked fun call' hcall => ?_) rfl rfl rfl id
    rcases List.mem_append.mp hcall with hcall | hcall
    · exact h.calls call' hcall
    · rwa [List.mem_singleton.mp hcall]
  | push i rng =>
    have hcalls : ∀ call ∈ e.checked.eraseIdx i, call.payload.length < 2 ^ 64 := fun call hcall =>
      h.calls call (List.mem_of_mem_eraseIdx hcall)
    unfold Endpoint.step at hstep
    rcases hi : e.checked[i]? with _ | call
    · simp only [hi] at hstep
      cases hstep
    · simp only [hi] at hstep
      rcases hfinish : call.finish e.conn rng with err | c
      · simp only [hfinish] at hstep
        cases hstep
        exact alone_conn (h.checked hcalls) rfl rfl rfl id
      · simp only [hfinish] at hstep
        cases hstep
        have hlen := h.calls call (List.mem_of_getElem? hi)
        obtain ⟨f, m, rfl, -⟩ := finish_pushes hlen hfinish
        exact alone_conn ((h.push hlen hfinish).checked hcalls) rfl rfl rfl id
  | close rng code reason =>
    cases hstep
    have hclosed : e.conn.state = .closed → (e.conn.close rng code reason).1.state = .closed := by
      intro hclosed
      rw [close_of_ne rng code reason (by rw [hclosed]; nofun)]
      exact hclosed
    exact alone_conn (h.steady (steady_close _ _ _ _) (h.handshake.close _ _ _) hclosed) rfl rfl rfl hclosed
  | writeFrame =>
    obtain ⟨-, ⟨⟩⟩ := Option.ite_none_right_eq_some.mp hstep
    exact ⟨h.write, fun _ => Carried.write, by unfold Endpoint.write; split <;> rfl⟩
  | written ec =>
    obtain ⟨hwriting, hstep⟩ := Option.ite_none_right_eq_some.mp hstep
    obtain ⟨c, hc, hinv, hclosed⟩ := h.written hwriting ec
    rw [hc] at hstep
    cases hstep
    exact alone_conn hinv rfl rfl rfl hclosed
  | terminate ec =>
    cases hstep
    exact alone_conn (h.steady (steady_terminate _ _) (h.handshake.terminate _) fun _ => terminate_state _ _)
      rfl rfl rfl fun _ => terminate_state _ _
  | lose n =>
    obtain ⟨hclosed, ⟨⟩⟩ := Option.ite_none_right_eq_some.mp hstep
    exact {
      inv := { h with }
      carried := fun read hc => {
        front := ((List.prefix_append_right_inj read).mpr (List.take_prefix n e.wire)).trans hc.front
        all := fun hopen => absurd hclosed hopen }
      consumed := rfl }
  | read n rng => cases hstep

end Step

end Endpoint

/-! ## Both sides -/

open Endpoint

structure Inv (limit : Bool → Nat) (l : Link) : Prop where
  endpoint : ∀ side, Endpoint.Inv side (limit side) (l side)
  carried : ∀ side, Carried (l side) (l (!side)).consumed

theorem inv_start (limit : Bool → Nat) : Inv limit (start limit) where
  endpoint side := Endpoint.inv_start side (limit side)
  carried _ := ⟨List.prefix_refl _, fun _ => rfl⟩

theorem not_side_ne (side : Bool) : (!side) ≠ side := by cases side <;> nofun

/-- What holds of a side and of the other one holds of both. -/
theorem both {P : Bool → Prop} (side : Bool) (h : P side) (h' : P (!side)) : ∀ side, P side := by
  intro s
  by_cases hs : s = side
  · exact hs ▸ h
  · rwa [Bool.eq_not.mpr hs]

section Step

variable {limit : Bool → Nat} {l l' : Link}

theorem Inv.alone (h : Inv limit l) {side : Bool} {e : Endpoint}
    (he : Alone side (limit side) (l side) e) : Inv limit (Function.update l side e) where
  endpoint := by
    refine both side ?_ ?_
    · rw [Function.update_self]
      exact he.inv
    · rw [Function.update_of_ne (not_side_ne side)]
      exact h.endpoint (!side)
  carried := by
    refine both side ?_ ?_
    · rw [Function.update_self, Function.update_of_ne (not_side_ne side)]
      exact he.carried _ (h.carried side)
    · rw [Function.update_of_ne (not_side_ne side), Bool.not_not, Function.update_self, he.consumed]
      have hc := h.carried (!side)
      rwa [Bool.not_not] at hc

theorem Inv.readStep (h : Inv limit l) {side : Bool} {n : Nat} {rng : Nat → UInt32}
    (hstep : readStep l side n rng = some l') : Inv limit l' := by
  obtain ⟨⟨hreading, -⟩, hstep⟩ := Option.ite_none_right_eq_some.mp hstep
  obtain ⟨c, hc, hinv, hclosed⟩ := (h.endpoint side).receive hreading rng ((l (!side)).wire.take n)
  rw [hc] at hstep
  cases hstep
  have hne := not_side_ne side
  exact {
    endpoint := by
      refine both side ?_ ?_
      · rw [Function.update_of_ne hne.symm, Function.update_self]
        exact hinv
      · rw [Function.update_self]
        exact { h.endpoint (!side) with }
    carried := by
      refine both side ?_ ?_
      · rw [Function.update_of_ne hne.symm, Function.update_self, Function.update_self]
        exact (h.carried side).congr rfl rfl hclosed
      · rw [Bool.not_not, Function.update_self, Function.update_of_ne hne.symm, Function.update_self]
        have hc := h.carried (!side)
        rw [Bool.not_not] at hc
        exact hc.read n }

theorem step_alone (l : Link) (side : Bool) {a : Action} (ha : ∀ n rng, a ≠ .read n rng) :
    step l (side, a) = ((l side).step a).map (Function.update l side) := by
  cases a with
  | read n rng => exact absurd rfl (ha n rng)
  | check | push | close | writeFrame | written | terminate | lose => rfl

theorem Inv.step (h : Inv limit l) {a : Bool × Action} (hstep : step l a = some l') : Inv limit l' := by
  obtain ⟨side, a⟩ := a
  by_cases hread : ∃ n rng, a = .read n rng
  · obtain ⟨n, rng, rfl⟩ := hread
    exact h.readStep hstep
  · rw [step_alone l side fun n rng ha => hread ⟨n, rng, ha⟩] at hstep
    obtain ⟨e, he, rfl⟩ := Option.map_eq_some_iff.mp hstep
    exact h.alone ((h.endpoint side).step he)

theorem inv_inductive (limit : Bool → Nat) : (link limit).Inductive (Inv limit) where
  init _ hstart := hstart ▸ inv_start limit
  step _ _ _ h hstep := h.step hstep

end Step

/-! ## What is delivered -/

section Reachable

variable {limit : Bool → Nat} {l : Link}

/-- What the other side has read is in front of what this one has pushed. -/
theorem Inv.front (h : Inv limit l) (side : Bool) :
    (l (!side)).consumed <+: wireBytes (l side).conn.accepted := by
  have hcarried := (List.prefix_append _ _).trans (h.carried side).front
  exact hcarried.trans ((h.endpoint side).queued.queue ▸ List.prefix_append _ _)

/-- What the processor of the other side makes of all the frames. -/
theorem Inv.read_accepted (h : Inv limit l) (side : Bool) :
    (Processor.reader.read (.new (!side) (limit (!side))) (wireBytes (l side).conn.accepted)).1 =
        (Assembly.acceptAll ⟨!side, limit (!side), none⟩ (l side).conn.accepted).1 ∧
      SameEnd (Processor.reader.read (.new (!side) (limit (!side))) (wireBytes (l side).conn.accepted)).2
        (Assembly.acceptAll ⟨!side, limit (!side), none⟩ (l side).conn.accepted).2 :=
  read_wireBytes (idle_new _ _) _ fun f hf => ((h.endpoint side).queued.frames f hf).length

/-- The messages come as they were sent. -/
theorem Inv.received (h : Inv limit l) (side : Bool) :
    (l (!side)).conn.received <+: (l side).conn.accepted.map messageOf := by
  obtain ⟨r, hread, -⟩ := (h.endpoint (!side)).read
  have hpart := BufferedReader.read_prefix Processor.reader_lawful
    (Processor.hungry_new (!side) (limit (!side))) (h.front side)
  rw [hread, (h.read_accepted side).1] at hpart
  exact hpart.trans (acceptAll_whole rfl fun f hf => ((h.endpoint side).queued.frames f hf).fin)

theorem dataOf_mono {ms ms' : List Message} (h : ms <+: ms') : dataOf ms <+: dataOf ms' := h.filter _

theorem payloadsOf_mono (op : Opcode) {ms ms' : List Message} (h : ms <+: ms') :
    payloadsOf op ms <+: payloadsOf op ms' := (h.filter _).map _

/-- What a side passes on is what the other has sent, in order and without a gap;
the pongs that a side gets carry what it has sent in its pings. -/
theorem link_delivers (limit : Bool → Nat) {l : Link} (hl : (link limit).Reachable l) (side : Bool) :
    (l (!side)).conn.dispatched <+: dataOf ((l side).conn.accepted.map messageOf) ∧
      payloadsOf .pong (l side).conn.received <+: payloadsOf .ping ((l side).conn.accepted.map messageOf) := by
  have h := (inv_inductive limit).reachable hl
  have hanswered := (h.endpoint (!side)).answered
  have hback := h.received (!side)
  rw [Bool.not_not] at hback
  exact ⟨hanswered.data.trans (dataOf_mono (h.received side)),
    ((payloadsOf_mono .pong hback).trans hanswered.pongs).trans (payloadsOf_mono .ping (h.received side))⟩

/-- The client says hi, and the server pings it. -/
def greeting : List (Bool × Action) := [
  (false, .check (.data .text [0x68, 0x69])), (false, .push 0 0x01020304), (false, .writeFrame),
  (false, .written none), (true, .read 3 fun _ => 0), (true, .read 5 fun _ => 0),
  (true, .check (.ping [7])), (true, .push 0 0), (true, .writeFrame), (true, .written none),
  (false, .read 3 fun _ => 0x0a0b0c0d), (false, .writeFrame), (false, .written none), (true, .read 7 fun _ => 0)]

theorem link_reaches (limit : Bool → Nat) (ls : List (Bool × Action)) (p : Link → Bool)
    (h : (exec step (start limit) ls).any p = true) : ∃ l, (link limit).Reachable l ∧ p l = true :=
  exists_reachable_of_exec ls p rfl h

theorem link_delivers_greeting :
    ∃ l : Link, ((l true).conn.dispatched = [{ opcode := .text, payload := [0x68, 0x69] }] ∧
        payloadsOf .pong (l true).conn.received = [[7]]) ∧
      ∀ side, (l (!side)).conn.dispatched <+: dataOf ((l side).conn.accepted.map messageOf) ∧
        payloadsOf .pong (l side).conn.received <+: payloadsOf .ping ((l side).conn.accepted.map messageOf) := by
  obtain ⟨l, hl, h⟩ := link_reaches (fun _ => 32000000) greeting
    (fun l => decide ((l true).conn.dispatched = [{ opcode := .text, payload := [0x68, 0x69] }] ∧
      payloadsOf .pong (l true).conn.received = [[7]])) (by decide +kernel)
  exact ⟨l, of_decide_eq_true h, link_delivers (fun _ => 32000000) hl⟩

/-- A side that has nothing to write and whose bytes have all been read. -/
def Quiet (e : Endpoint) : Prop := e.conn.scheduled = 0 ∧ e.writing = false ∧ e.wire = []

instance (e : Endpoint) : Decidable (Quiet e) := inferInstanceAs (Decidable (_ ∧ _))

/-- Its queue is empty, and no write is under way. -/
theorem Endpoint.Inv.quiet {side : Bool} {limit : Nat} {e : Endpoint} (h : Endpoint.Inv side limit e)
    (hquiet : Quiet e) (hopen : e.conn.state ≠ .closed) :
    e.conn.writeFlag = false ∧ e.conn.currentMsgs = [] ∧ e.conn.sendQueue = [] := by
  obtain ⟨hscheduled, hwriting, -⟩ := hquiet
  have hflag : e.conn.writeFlag = false := by
    by_contra hflag
    exact absurd (hwriting.symm.trans (h.flagged (Bool.not_eq_false _ ▸ hflag) hopen)) nofun
  refine ⟨hflag, (h.idle hflag).1, ?_⟩
  by_contra hne
  exact absurd (h.queued.woken hne hflag) (by omega)

/-- All of the frames of a side have been read. -/
theorem Inv.quiet (h : Inv limit l) {side : Bool} (hquiet : Quiet (l side))
    (hopen : (l side).conn.state ≠ .closed) :
    (l (!side)).consumed = wireBytes (l side).conn.accepted := by
  have hside := h.endpoint side
  obtain ⟨-, -, hqueue⟩ := hside.quiet hquiet hopen
  have hall := (h.carried side).all hopen
  have hbytes := hside.queued.queue
  rw [hquiet.2.2, List.append_nil] at hall
  rw [backlog, hqueue, List.flatMap_nil, List.append_nil] at hbytes
  exact hall.trans hbytes

/-- Where all data fits, no endpoint takes what the other sends for a protocol
error; and of a side that is quiet and not closed the other has received
everything: if that is open it has passed on all data and answered all pings. -/
theorem link_complete (limit : Bool → Nat) {l : Link} (hl : (link limit).Reachable l)
    (hsuits : ∀ side, ∀ f ∈ (l side).conn.accepted, Suits (limit (!side)) f) (side : Bool) :
    (l side).conn.reading = true ∧
      (Quiet (l side) → (l side).conn.state ≠ .closed →
        (l (!side)).conn.received = (l side).conn.accepted.map messageOf ∧
        ((l (!side)).conn.state = .opened →
          (l (!side)).conn.dispatched = dataOf ((l side).conn.accepted.map messageOf) ∧
          (l (!side)).conn.pongsSent = payloadsOf .ping ((l side).conn.accepted.map messageOf))) := by
  have h := (inv_inductive limit).reachable hl
  have hnew : ∀ side, (Processor.new side (limit side)).Hungry := fun side => Processor.hungry_new _ _
  have haccepted : ∀ side, Assembly.acceptAll ⟨!side, limit (!side), none⟩ (l side).conn.accepted =
      ((l side).conn.accepted.map messageOf, .ok ⟨!side, limit (!side), none⟩) := by
    intro side
    refine acceptAll_sent rfl (fun f hf => ?_) (hsuits side)
    rw [Bool.not_not, ← (h.endpoint side).server]
    exact (h.endpoint side).queued.frames f hf
  have hread : ∀ side, ∃ q, Processor.reader.read (.new (!side) (limit (!side)))
      (wireBytes (l side).conn.accepted) = ((l side).conn.accepted.map messageOf, .ok q) := by
    intro side
    obtain ⟨hmsgs, hend⟩ := h.read_accepted side
    rw [haccepted side] at hmsgs hend
    generalize Processor.reader.read _ _ = r at hmsgs hend
    obtain ⟨ms, e | q⟩ := r
    · exact hend.elim
    · exact ⟨q, by rw [show ms = _ from hmsgs]⟩
  constructor
  · obtain ⟨q, hq⟩ := hread (!side)
    have hfront := h.front (!side)
    rw [Bool.not_not] at hq hfront
    obtain ⟨q₁, hq₁⟩ := BufferedReader.read_ok_of_prefix Processor.reader_lawful (hnew side) hfront
      (congrArg Prod.snd hq)
    obtain ⟨r, hr, hend⟩ := (h.endpoint side).read
    rw [hr] at hq₁
    cases hq₁
    exact hend.2
  · intro hquiet hopen
    obtain ⟨q, hq⟩ := hread side
    obtain ⟨r, hr, -⟩ := (h.endpoint (!side)).read
    rw [h.quiet hquiet hopen, hq] at hr
    have hreceived : (l (!side)).conn.received = (l side).conn.accepted.map messageOf :=
      (congrArg Prod.fst hr).symm
    refine ⟨hreceived, fun hopened => ?_⟩
    have hanswered := (h.endpoint (!side)).answered
    rw [← hreceived]
    exact ⟨hanswered.dataOpened hopened, hanswered.pongsOpened hopened⟩

theorem link_complete_greeting :
    ∃ l : Link, (∀ side, Quiet (l side) ∧ (l side).conn.state = .opened) ∧ ∀ side,
      (l side).conn.reading = true ∧
      (Quiet (l side) → (l side).conn.state ≠ .closed →
        (l (!side)).conn.received = (l side).conn.accepted.map messageOf ∧
        ((l (!side)).conn.state = .opened →
          (l (!side)).conn.dispatched = dataOf ((l side).conn.accepted.map messageOf) ∧
          (l (!side)).conn.pongsSent = payloadsOf .ping ((l side).conn.accepted.map messageOf))) := by
  obtain ⟨l, hl, h⟩ := link_reaches (fun _ => 32000000) greeting
    (fun l => decide ((∀ side, Quiet (l side) ∧ (l side).conn.state = .opened) ∧
      ∀ side, ∀ f ∈ (l side).conn.accepted, Suits 32000000 f)) (by decide +kernel)
  obtain ⟨hquiet, hsuits⟩ := of_decide_eq_true h
  exact ⟨l, hquiet, link_complete (fun _ => 32000000) hl hsuits⟩

/-- What the transport of a side was given, and behind it the queue, are the frames
in the order in which they were pushed; nothing is written behind a terminal
message; and what is queued is waited for, as long as the side is not closed. -/
theorem writes_in_order (limit : Bool → Nat) {l : Link} (hl : (link limit).Reachable l) (side : Bool) :
    batchBytes (l side).handed ++ (l side).conn.backlog = wireBytes (l side).conn.accepted ∧
      (∀ m ∈ (l side).handed.dropLast, m.terminal = false) ∧
      ((l side).conn.sendQueue ≠ [] → (l side).conn.state ≠ .closed →
        (l side).writing = true ∨ 0 < (l side).conn.scheduled) := by
  have h := ((inv_inductive limit).reachable hl).endpoint side
  refine ⟨h.queued.queue, h.terminal, fun hqueue hopen => ?_⟩
  by_cases hflag : (l side).conn.writeFlag = true
  · exact .inl (h.flagged hflag hopen)
  · exact .inr (h.queued.woken hqueue (Bool.eq_false_iff.mpr hflag))

theorem writes_in_order_greeting :
    ∃ l : Link, (l false).handed.length = 2 ∧ ∀ side,
      batchBytes (l side).handed ++ (l side).conn.backlog = wireBytes (l side).conn.accepted ∧
        (∀ m ∈ (l side).handed.dropLast, m.terminal = false) ∧
        ((l side).conn.sendQueue ≠ [] → (l side).conn.state ≠ .closed →
          (l side).writing = true ∨ 0 < (l side).conn.scheduled) := by
  obtain ⟨l, hl, h⟩ := link_reaches (fun _ => 32000000) greeting
    (fun l => decide ((l false).handed.length = 2)) (by decide +kernel)
  exact ⟨l, of_decide_eq_true h, writes_in_order (fun _ => 32000000) hl⟩

/-- The handlers of the transport do not fault, whatever is read. -/
theorem handlers_safe (limit : Bool → Nat) {l : Link} (hl : (link limit).Reachable l) (side : Bool) :
    ((l side).writing = true → ∀ ec, ∃ c, (l side).conn.handleWriteFrame ec = .ok c) ∧
      ((l side).conn.reading = true → ∀ rng buf, ∃ c, (l side).conn.handleReadFrame rng buf = .ok c) := by
  have h := ((inv_inductive limit).reachable hl).endpoint side
  constructor
  · intro hwriting ec
    obtain ⟨c, hc, -⟩ := h.written hwriting ec
    exact ⟨c, hc⟩
  · intro hreading rng buf
    obtain ⟨c, hc, -⟩ := h.receive hreading rng buf
    exact ⟨c, hc⟩

theorem handlers_safe_greeting :
    ∃ l : Link, (l false).writing = true ∧ ∀ side,
      ((l side).writing = true → ∀ ec, ∃ c, (l side).conn.handleWriteFrame ec = .ok c) ∧
        ((l side).conn.reading = true → ∀ rng buf, ∃ c, (l side).conn.handleReadFrame rng buf = .ok c) := by
  obtain ⟨l, hl, h⟩ := link_reaches (fun _ => 32000000) (greeting.take 3)
    (fun l => decide ((l false).writing = true)) (by decide +kernel)
  exact ⟨l, of_decide_eq_true h, handlers_safe (fun _ => 32000000) hl⟩

/-- A close that a side takes for clean has a close frame from either side, and the
side has received everything that the other pushed in front of one. -/
theorem clean_close (limit : Bool → Nat) {l : Link} (hl : (link limit).Reachable l) (side : Bool)
    (hclean : (l side).conn.wasClean = true) :
    (∃ f ∈ (l side).conn.accepted, f.opcode = .close) ∧
      ∃ before f after, (l (!side)).conn.accepted = before ++ f :: after ∧ f.opcode = .close ∧
        before.map messageOf ++ [messageOf f] <+: (l side).conn.received := by
  have h := (inv_inductive limit).reachable hl
  obtain ⟨hsent, m, hm, hop⟩ := (h.endpoint side).handshake.clean hclean
  refine ⟨hsent, ?_⟩
  have hreceived := h.received (!side)
  rw [Bool.not_not] at hreceived
  obtain ⟨front, back, hsplit⟩ := List.append_of_mem hm
  obtain ⟨rest, hrest⟩ := hreceived
  rw [hsplit, List.append_assoc] at hrest
  obtain ⟨before, tail, haccepted, hbefore, htail⟩ := List.map_eq_append_iff.mp hrest.symm
  obtain ⟨f, after, rfl, hf, -⟩ := List.map_eq_cons_iff.mp htail
  refine ⟨before, f, after, haccepted, ?_, ?_⟩
  · rw [← hop, ← hf]
    rfl
  · rw [hbefore, hf, hsplit]
    exact (List.prefix_append_right_inj front).mpr (List.prefix_append [m] back)

/-- The server pings, the client closes and the server acknowledges that. -/
def goodbye : List (Bool × Action) := [
  (true, .check (.ping [7])), (true, .push 0 0), (true, .writeFrame), (true, .written none),
  (false, .close 0x01020304 1000 [0x62, 0x79, 0x65]), (false, .writeFrame), (false, .written none),
  (true, .read 11 fun _ => 0), (true, .writeFrame), (true, .written none), (false, .read 10 fun _ => 0)]

theorem clean_close_goodbye :
    ∃ l : Link, (l true).conn.state = .closed ∧ (l true).conn.remoteCloseReason = [0x62, 0x79, 0x65] ∧
      (l false).conn.received.length = 2 ∧ (∃ f ∈ (l false).conn.accepted, f.opcode = .close) ∧
      ∃ before f after, (l true).conn.accepted = before ++ f :: after ∧ f.opcode = .close ∧
        before.map messageOf ++ [messageOf f] <+: (l false).conn.received := by
  obtain ⟨l, hl, h⟩ := link_reaches (fun _ => 32000000) goodbye
    (fun l => decide ((l true).conn.state = .closed ∧ (l true).conn.remoteCloseReason = [0x62, 0x79, 0x65] ∧
      (l false).conn.received.length = 2 ∧ (l false).conn.wasClean = true)) (by decide +kernel)
  obtain ⟨hstate, hreason, hreceived, hclean⟩ := of_decide_eq_true h
  exact ⟨l, hstate, hreason, hreceived, clean_close (fun _ => 32000000) hl false hclean⟩

end Reachable

end TmatePlugin.L4.WsLink
