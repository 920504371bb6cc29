import TmatePlugin.Lib.Files

/-!
# Error codes

What the file functions of `Util` return for a value of `errno`.
`xlatErrno_range`: a failed call is a code of the negative range, so `< 0` tells it
from `VPL_OK`.
-/
namespace TmatePlugin.L1.VPLError

open Files

/-- The codes `xlatErrno` returns.
mirrors Util/include/vpl_error.h:46-396 -/
inductive VPLError_t where
  | VPL_OK | VPL_ERR_NOMEM | VPL_ERR_PERM | VPL_ERR_INTR | VPL_ERR_IO | VPL_ERR_BADF
  | VPL_ERR_AGAIN | VPL_ERR_BUSY | VPL_ERR_INVALID | VPL_ERR_DEADLK | VPL_ERR_MAX
  | VPL_ERR_CONNRESET | VPL_ERR_DESTADDRREQ | VPL_ERR_FAULT | VPL_ERR_ISCONN | VPL_ERR_MSGSIZE
  | VPL_ERR_NOBUFS | VPL_ERR_NOTCONN | VPL_ERR_NOTSOCK | VPL_ERR_OPNOTSUPPORTED | VPL_ERR_PIPE
  | VPL_ERR_ADDRINUSE | VPL_ERR_ADDRNOTAVAIL | VPL_ERR_LOOP | VPL_ERR_NAMETOOLONG | VPL_ERR_NOENT
  | VPL_ERR_NOTDIR | VPL_ERR_ROFS | VPL_ERR_CONNABORT | VPL_ERR_UNREACH | VPL_ERR_NETDOWN
  | VPL_ERR_NETRESET | VPL_ERR_CONNREFUSED | VPL_ERR_NOSPC | VPL_ERR_NOTEMPTY | VPL_ERR_EXIST
  | VPL_ERR_NOSYS | VPL_ERR_NODEV | VPL_ERR_TXTBSY | VPL_ERR_CROSS_DEVICE_LINK | VPL_ERR_ACCESS
  | VPL_ERR_TIMEOUT | VPL_ERR_FAIL
  deriving DecidableEq, Repr

def VPL_ERR_MIN_VALUE : Int := -9599
def VPL_ERR_MAX_VALUE : Int := -9000

open VPLError_t

def VPLError_t.value : VPLError_t → Int
  | VPL_OK => 0
  | VPL_ERR_NOMEM => -9000
  | VPL_ERR_PERM => -9001
  | VPL_ERR_INTR => -9002
  | VPL_ERR_IO => -9003
  | VPL_ERR_BADF => -9004
  | VPL_ERR_AGAIN => -9005
  | VPL_ERR_BUSY => -9006
  | VPL_ERR_INVALID => -9007
  | VPL_ERR_DEADLK => -9008
  | VPL_ERR_MAX => -9009
  | VPL_ERR_CONNRESET => -9010
  | VPL_ERR_DESTADDRREQ => -9011
  | VPL_ERR_FAULT => -9012
  | VPL_ERR_ISCONN => -9013
  | VPL_ERR_MSGSIZE => -9014
  | VPL_ERR_NOBUFS => -9015
  | VPL_ERR_NOTCONN => -9016
  | VPL_ERR_NOTSOCK => -9017
  | VPL_ERR_OPNOTSUPPORTED => -9018
  | VPL_ERR_PIPE => -9019
  | VPL_ERR_ADDRINUSE => -9020
  | VPL_ERR_ADDRNOTAVAIL => -9021
  | VPL_ERR_LOOP => -9022
  | VPL_ERR_NAMETOOLONG => -9023
  | VPL_ERR_NOENT => -9024
  | VPL_ERR_NOTDIR => -9025
  | VPL_ERR_ROFS => -9026
  | VPL_ERR_CONNABORT => -9031
  | VPL_ERR_UNREACH => -9032
  | VPL_ERR_NETDOWN => -9033
  | VPL_ERR_NETRESET => -9034
  | VPL_ERR_CONNREFUSED => -9039
  | VPL_ERR_NOSPC => -9041
  | VPL_ERR_NOTEMPTY => -9042
  | VPL_ERR_EXIST => -9043
  | VPL_ERR_NOSYS => -9044
  | VPL_ERR_NODEV => -9045
  | VPL_ERR_TXTBSY => -9046
  | VPL_ERR_CROSS_DEVICE_LINK => -9057
  | VPL_ERR_ACCESS => -9091
  | VPL_ERR_TIMEOUT => -9096
  | VPL_ERR_FAIL => -9099

/-- `none` is 0. On Linux `EWOULDBLOCK` is `EAGAIN`.
mirrors Util/src/vpl__error.cpp:5-157 -/
def xlatErrno : Option Errno → VPLError_t
  | none => VPL_OK
  | some .eacces => VPL_ERR_ACCESS
  | some .eaddrinuse => VPL_ERR_ADDRINUSE
  | some .eaddrnotavail => VPL_ERR_ADDRNOTAVAIL
  | some .eagain => VPL_ERR_AGAIN
  | some .ebadf => VPL_ERR_BADF
  | some .ebusy => VPL_ERR_BUSY
  | some .einprogress => VPL_ERR_BUSY
  | some .econnaborted => VPL_ERR_CONNABORT
  | some .econnreset => VPL_ERR_CONNRESET
  | some .econnrefused => VPL_ERR_CONNREFUSED
  | some .edestaddrreq => VPL_ERR_DESTADDRREQ
  | some .eexist => VPL_ERR_EXIST
  | some .efault => VPL_ERR_FAULT
  | some .ehostunreach => VPL_ERR_UNREACH
  | some .eintr => VPL_ERR_INTR
  | some .einval => VPL_ERR_INVALID
  | some .eio => VPL_ERR_IO
  | some .eisconn => VPL_ERR_ISCONN
  | some .eloop => VPL_ERR_LOOP
  | some .emfile => VPL_ERR_MAX
  | some .emsgsize => VPL_ERR_MSGSIZE
  | some .enametoolong => VPL_ERR_NAMETOOLONG
  | some .enetdown => VPL_ERR_NETDOWN
  | some .enetreset => VPL_ERR_NETRESET
  | some .enetunreach => VPL_ERR_UNREACH
  | some .enfile => VPL_ERR_MAX
  | some .enobufs => VPL_ERR_NOBUFS
  | some .enodev => VPL_ERR_NODEV
  | some .enoent => VPL_ERR_NOENT
  | some .enomem => VPL_ERR_NOMEM
  | some .enospc => VPL_ERR_NOSPC
  | some .enosys => VPL_ERR_NOSYS
  | some .enotconn => VPL_ERR_NOTCONN
  | some .enotdir => VPL_ERR_NOTDIR
  | some .enotempty => VPL_ERR_NOTEMPTY
  | some .enotsock => VPL_ERR_NOTSOCK
  | some .eopnotsupp => VPL_ERR_OPNOTSUPPORTED
  | some .eperm => VPL_ERR_PERM
  | some .epipe => VPL_ERR_PIPE
  | some .erofs => VPL_ERR_ROFS
  | some .etimedout => VPL_ERR_TIMEOUT
  | some .etxtbsy => VPL_ERR_TXTBSY
  | some .edeadlk => VPL_ERR_DEADLK
  | some .exdev => VPL_ERR_CROSS_DEVICE_LINK
  | some (.unnamed _) => VPL_ERR_FAIL

/-- mirrors Util/include/vpl_error.h:35-37 -/
theorem xlatErrno_range (e : Errno) : VPL_ERR_MIN_VALUE ≤ (xlatErrno (some e)).value ∧
    (xlatErrno (some e)).value ≤ VPL_ERR_MAX_VALUE := by
  cases e with
  | unnamed n =>
    show VPL_ERR_MIN_VALUE ≤ VPL_ERR_FAIL.value ∧ VPL_ERR_FAIL.value ≤ VPL_ERR_MAX_VALUE
    decide
  | _ => decide

theorem xlatErrno_exist_iff (e : Errno) :
    (xlatErrno (some e)).value = VPL_ERR_EXIST.value ↔ e = .eexist := by
  cases e <;> simp [xlatErrno, VPLError_t.value]

end TmatePlugin.L1.VPLError
