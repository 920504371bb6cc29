import TmatePlugin.Lib.CString
import TmatePlugin.Lib.WordBytes
import Mathlib.Tactic.IntervalCases
import Mathlib.Tactic.Positivity

/-!
# WebSocket frames (websocketpp/frame.hpp)

A frame is a basic header of two bytes, up to 12 bytes of extended header (the
length, when it does not fit the basic header, and the masking key) and the
payload. Words are stored lowest byte first, as on both machines the plug-in is
built for. Lengths are `uint64_t`, keys `uint32_t`, a prepared key is a
`size_t` of 8 bytes.

* `prepareHeader_make`: the bytes of a header; `make_fields`, `make_getHeaderLen`,
  `make_getMaskingKey`, `make_getPayloadSize`: what is read from them.
* `Stands`, `byteMaskCirc_stands`: masking chunk by chunk under a prepared key
  masks the whole text under the key.
-/
namespace TmatePlugin.L1.Frame

open CString WordBytes

/-! ## Opcodes -/

/-- mirrors websocket/websocketpp/frame.hpp:78-94 (`opcode::value`) -/
inductive Opcode where
  | continuation | text | binary | rsv3 | rsv4 | rsv5 | rsv6 | rsv7
  | close | ping | pong | controlRsvb | controlRsvc | controlRsvd | controlRsve | controlRsvf
  deriving DecidableEq, Repr

namespace Opcode

def value : Opcode → Nat
  | continuation => 0x0
  | text => 0x1
  | binary => 0x2
  | rsv3 => 0x3
  | rsv4 => 0x4
  | rsv5 => 0x5
  | rsv6 => 0x6
  | rsv7 => 0x7
  | close => 0x8
  | ping => 0x9
  | pong => 0xA
  | controlRsvb => 0xB
  | controlRsvc => 0xC
  | controlRsvd => 0xD
  | controlRsve => 0xE
  | controlRsvf => 0xF

/-- The cast of a number of four bits. -/
def ofValue : Nat → Opcode
  | 0x0 => continuation
  | 0x1 => text
  | 0x2 => binary
  | 0x3 => rsv3
  | 0x4 => rsv4
  | 0x5 => rsv5
  | 0x6 => rsv6
  | 0x7 => rsv7
  | 0x8 => close
  | 0x9 => ping
  | 0xA => pong
  | 0xB => controlRsvb
  | 0xC => controlRsvc
  | 0xD => controlRsvd
  | 0xE => controlRsve
  | _ => controlRsvf

/-- mirrors websocket/websocketpp/frame.hpp:118-121 (`reserved`) -/
def reserved (v : Opcode) : Bool :=
  (v.value ≥ rsv3.value && v.value ≤ rsv7.value) ||
    (v.value ≥ controlRsvb.value && v.value ≤ controlRsvf.value)

/-- mirrors websocket/websocketpp/frame.hpp:130-132 (`invalid`) -/
def invalid (v : Opcode) : Bool := v.value > 0xF

/-- mirrors websocket/websocketpp/frame.hpp:139-141 (`is_control`) -/
def isControl (v : Opcode) : Bool := v.value ≥ 0x8

theorem ofValue_value (v : Opcode) : ofValue v.value = v := by cases v <;> rfl

theorem value_lt (v : Opcode) : v.value < 16 := by cases v <;> decide

end Opcode

/-! ## The limits (frame.hpp:147-173) -/

def basicHeaderLength : Nat := 2

def maxExtendedHeaderLength : Nat := 12

def payloadSizeBasic : Nat := 125

def payloadSizeExtended : Nat := 0xFFFF

/-! ## Headers -/

/-- mirrors websocket/websocketpp/frame.hpp:189-232 (`basic_header`) -/
structure BasicHeader where
  b0 : UInt8 := 0
  b1 : UInt8 := 0
  deriving DecidableEq

/-- mirrors websocket/websocketpp/frame.hpp:218-226 (`basic_value`) -/
def basicValue (size : Nat) : UInt8 :=
  if size ≤ payloadSizeBasic then UInt8.ofNat size
  else if size ≤ payloadSizeExtended then 0x7E
  else 0x7F

/-- mirrors websocket/websocketpp/frame.hpp:196-230 (`basic_header`; no caller
sets rsv2 or rsv3) -/
def BasicHeader.make (op : Opcode) (size : Nat) (fin mask rsv1 : Bool) : BasicHeader :=
  { b0 := (if fin then 0x80 else 0) ||| (if rsv1 then 0x40 else 0) ||| (UInt8.ofNat op.value &&& 0x0F)
    b1 := (if mask then 0x80 else 0) ||| basicValue size }

/-- Twelve bytes; a write behind them makes the list longer.
mirrors websocket/websocketpp/frame.hpp:235-275 (`extended_header`) -/
structure ExtendedHeader where
  bytes : Bytes := List.replicate maxExtendedHeaderLength 0
  deriving DecidableEq

/-- `std::copy` of `src` to `dst + i`. -/
def copyTo (dst : Bytes) (i : Nat) (src : Bytes) : Bytes :=
  dst.take i ++ (src ++ dst.drop (i + src.length))

/-- mirrors websocket/websocketpp/common/network.hpp:64-85 (`_htonll`, `_ntohll`) -/
def htonll (src : Nat) : Nat := valueOf (bytesOf 8 src).reverse

/-- `ntohs` of the C library. -/
def ntohs (src : Nat) : Nat := valueOf (bytesOf 2 src).reverse

/-- mirrors websocket/websocketpp/frame.hpp:260-274 (`copy_payload`) -/
def ExtendedHeader.copyPayload (e : ExtendedHeader) (payloadSize : Nat) : ExtendedHeader × Nat :=
  let payloadOffset :=
    if payloadSize ≤ payloadSizeBasic then 8
    else if payloadSize ≤ payloadSizeExtended then 6
    else 0
  (⟨copyTo e.bytes 0 ((bytesOf 8 (htonll payloadSize)).drop payloadOffset)⟩, 8 - payloadOffset)

/-- `none` for the constructor without a key.
mirrors websocket/websocketpp/frame.hpp:240-256 (`extended_header`) -/
def ExtendedHeader.make (payloadSize : Nat) (maskingKey : Option UInt32) : ExtendedHeader :=
  let r := ExtendedHeader.copyPayload {} payloadSize
  match maskingKey with
  | none => r.1
  | some key => ⟨copyTo r.1.bytes r.2 (bytesOf 4 key.toNat)⟩

namespace BasicHeader

/-- mirrors websocket/websocketpp/frame.hpp:321-323 (`get_fin`) -/
def getFin (h : BasicHeader) : Bool := h.b0 &&& 0x80 == 0x80

/-- mirrors websocket/websocketpp/frame.hpp:339-341 (`get_rsv1`) -/
def getRsv1 (h : BasicHeader) : Bool := h.b0 &&& 0x40 == 0x40

/-- mirrors websocket/websocketpp/frame.hpp:357-359 (`get_rsv2`) -/
def getRsv2 (h : BasicHeader) : Bool := h.b0 &&& 0x20 == 0x20

/-- mirrors websocket/websocketpp/frame.hpp:375-377 (`get_rsv3`) -/
def getRsv3 (h : BasicHeader) : Bool := h.b0 &&& 0x10 == 0x10

/-- mirrors websocket/websocketpp/frame.hpp:393-395 (`get_opcode`) -/
def getOpcode (h : BasicHeader) : Opcode := .ofValue (h.b0 &&& 0x0F).toNat

/-- mirrors websocket/websocketpp/frame.hpp:402-404 (`get_masked`) -/
def getMasked (h : BasicHeader) : Bool := h.b1 &&& 0x80 == 0x80

/-- mirrors websocket/websocketpp/frame.hpp:431-433 (`get_basic_size`) -/
def getBasicSize (h : BasicHeader) : Nat := (h.b1 &&& 0x7F).toNat

/-- mirrors websocket/websocketpp/frame.hpp:469-477 (`get_masking_key_offset`) -/
def getMaskingKeyOffset (h : BasicHeader) : Nat :=
  if h.getBasicSize = 0x7E then 2
  else if h.getBasicSize = 0x7F then 8
  else 0

/-- mirrors websocket/websocketpp/frame.hpp:445-458 (`get_header_len`) -/
def getHeaderLen (h : BasicHeader) : Nat :=
  basicHeaderLength + h.getMaskingKeyOffset + if h.getMasked then 4 else 0

end BasicHeader

/-- mirrors websocket/websocketpp/frame.hpp:489-502 (`prepare_header`) -/
def prepareHeader (h : BasicHeader) (e : ExtendedHeader) : Bytes :=
  [h.b0, h.b1] ++ e.bytes.take (h.getHeaderLen - basicHeaderLength)

/-- mirrors websocket/websocketpp/frame.hpp:516-529 (`get_masking_key`) -/
def getMaskingKey (h : BasicHeader) (e : ExtendedHeader) : UInt32 :=
  if h.getMasked then UInt32.ofNat (valueOf ((e.bytes.drop h.getMaskingKeyOffset).take 4)) else 0

/-- mirrors websocket/websocketpp/frame.hpp:540-544 (`get_extended_size`) -/
def getExtendedSize (e : ExtendedHeader) : Nat := ntohs (valueOf (e.bytes.take 2))

/-- mirrors websocket/websocketpp/frame.hpp:555-559 (`get_jumbo_size`) -/
def getJumboSize (e : ExtendedHeader) : Nat := htonll (valueOf (e.bytes.take 8))

/-- mirrors websocket/websocketpp/frame.hpp:573-585 (`get_payload_size`) -/
def getPayloadSize (h : BasicHeader) (e : ExtendedHeader) : Nat :=
  if h.getBasicSize ≤ payloadSizeBasic then h.getBasicSize
  else if h.getBasicSize = 0x7E then getExtendedSize e
  else getJumboSize e

/-! ## Masks -/

/-- `key.c[i]` of the union. -/
def keyByte (key : UInt32) (i : Nat) : UInt8 := UInt8.ofNat (key.toNat / 256 ^ i)

/-- mirrors websocket/websocketpp/frame.hpp:645-655 (`byte_mask`, from `key_index` on) -/
def byteMaskFrom (key : UInt32) : Nat → Bytes → Bytes
  | _, [] => []
  | keyIndex, b :: s => (b ^^^ keyByte key keyIndex) :: byteMaskFrom key ((keyIndex + 1) % 4) s

/-- mirrors websocket/websocketpp/frame.hpp:645-655 (`byte_mask`) -/
def byteMask (s : Bytes) (key : UInt32) (keyOffset : Nat) : Bytes :=
  byteMaskFrom key (keyOffset % 4) s

/-- mirrors websocket/websocketpp/frame.hpp:595-604 (`prepare_masking_key`, 8 bytes) -/
def prepareMaskingKey (key : UInt32) : UInt64 := (key.toUInt64 <<< 32) ||| key.toUInt64

/-- mirrors websocket/websocketpp/frame.hpp:612-623 (`circshift_prepared_key`) -/
def circshiftPreparedKey (preparedKey : UInt64) (offset : Nat) : UInt64 :=
  if offset = 0 then preparedKey
  else (preparedKey >>> UInt64.ofNat (offset * 8)) ||| (preparedKey <<< UInt64.ofNat ((8 - offset) * 8))

/-- mirrors websocket/websocketpp/frame.hpp:830-841 (`byte_mask_circ`) -/
def byteMaskCirc (s : Bytes) (preparedKey : UInt64) : Bytes × UInt64 :=
  let key := preparedKey.toUInt32
  (s.mapIdx fun i b => b ^^^ keyByte key (i % 4), circshiftPreparedKey preparedKey (s.length % 4))

/-! ## What a header says -/

section BasicHeader

variable (op : Opcode) (size : Nat) (fin mask rsv1 : Bool)

/-- What the first byte says. -/
structure BasicHeader.Fields (h : BasicHeader) (op : Opcode) (fin rsv1 : Bool) : Prop where
  opcode : h.getOpcode = op
  fin : h.getFin = fin
  rsv1 : h.getRsv1 = rsv1
  rsv2 : h.getRsv2 = false
  rsv3 : h.getRsv3 = false

theorem make_fields : (BasicHeader.make op size fin mask rsv1).Fields op fin rsv1 := by
  have hall : ∀ (o : Fin 16) (fin rsv1 : Bool),
      let h := BasicHeader.make (.ofValue o) 0 fin false rsv1
      h.getOpcode = .ofValue o ∧ h.getFin = fin ∧ h.getRsv1 = rsv1 ∧ h.getRsv2 = false ∧
        h.getRsv3 = false := by decide +kernel
  obtain ⟨h1, h2, h3, h4, h5⟩ := hall ⟨op.value, op.value_lt⟩ fin rsv1
  rw [Opcode.ofValue_value] at h1 h2 h3 h4 h5
  exact ⟨h1, h2, h3, h4, h5⟩

theorem basicValue_lt (size : Nat) : (basicValue size).toNat < 128 := by
  unfold basicValue payloadSizeBasic
  split
  · rw [UInt8.toNat_ofNat']
    omega
  · split <;> decide

theorem make_second : (BasicHeader.make op size fin mask rsv1).getMasked = mask ∧
    (BasicHeader.make op size fin mask rsv1).getBasicSize = (basicValue size).toNat := by
  have hall : ∀ (mask : Bool) (n : Fin 128),
      let b1 : UInt8 := (if mask then 0x80 else 0) ||| UInt8.ofNat n
      (b1 &&& 0x80 == 0x80) = mask ∧ (b1 &&& 0x7F).toNat = n := by decide +kernel
  have h := hall mask ⟨_, basicValue_lt size⟩
  simp only [UInt8.ofNat_toNat] at h
  exact h

@[simp] theorem make_getMasked : (BasicHeader.make op size fin mask rsv1).getMasked = mask :=
  (make_second op size fin mask rsv1).1

@[simp] theorem make_getBasicSize :
    (BasicHeader.make op size fin mask rsv1).getBasicSize = (basicValue size).toNat :=
  (make_second op size fin mask rsv1).2

end BasicHeader

/-- The length field behind the basic header, highest byte first. -/
def sizeBytes (size : Nat) : Bytes :=
  if size ≤ payloadSizeBasic then []
  else if size ≤ payloadSizeExtended then (bytesOf 2 size).reverse
  else (bytesOf 8 size).reverse

def keyBytes : Option UInt32 → Bytes
  | none => []
  | some key => bytesOf 4 key.toNat

theorem bytesOf_htonll (size : Nat) : bytesOf 8 (htonll size) = (bytesOf 8 size).reverse := by
  have h := bytesOf_valueOf (bytesOf 8 size).reverse
  rwa [List.length_reverse, length_bytesOf] at h

theorem copyPayload_eq (size : Nat) :
    ExtendedHeader.copyPayload {} size =
      (⟨copyTo (List.replicate 12 0) 0 (sizeBytes size)⟩, (sizeBytes size).length) := by
  have hnone : (bytesOf 8 size).reverse.drop 8 = [] := List.drop_eq_nil_of_le (by simp)
  have htwo : (bytesOf 8 size).reverse.drop 6 = (bytesOf 2 size).reverse := by
    rw [show bytesOf 8 size = bytesOf 2 size ++ bytesOf 6 (size / 256 ^ 2) from bytesOf_add 2 6 size,
      List.reverse_append]
    exact List.drop_left' (by simp)
  unfold ExtendedHeader.copyPayload sizeBytes
  rw [bytesOf_htonll]
  split
  · simp only [hnone]
    rfl
  · split
    · simp only [htwo, List.length_reverse, length_bytesOf]
      rfl
    · simp only [List.drop_zero, List.length_reverse, length_bytesOf]
      rfl

theorem length_sizeBytes_le (size : Nat) : (sizeBytes size).length ≤ 8 := by
  unfold sizeBytes
  split
  · decide
  · split <;> simp

theorem length_keyBytes_le (key : Option UInt32) : (keyBytes key).length ≤ 4 := by
  cases key <;> simp [keyBytes]

/-- A second write right behind a first. -/
theorem copyTo_copyTo (dst : Bytes) {i j : Nat} (s t : Bytes) (h : j = i + s.length)
    (hi : i ≤ dst.length) : copyTo (copyTo dst i s) j t = copyTo dst i (s ++ t) := by
  subst h
  have hlen : (dst.take i).length = i := by simp [hi]
  unfold copyTo
  have h1 : (dst.take i ++ (s ++ dst.drop (i + s.length))).take (i + s.length) = dst.take i ++ s := by
    rw [← List.append_assoc]
    exact List.take_left' (by simp [hi])
  have h2 : (dst.take i ++ (s ++ dst.drop (i + s.length))).drop (i + s.length + t.length) =
      dst.drop (i + s.length + t.length) := by
    rw [← List.append_assoc, ← List.drop_drop, List.drop_left' (by simp [hi]), List.drop_drop]
  rw [h1, h2, List.length_append, Nat.add_assoc]
  simp

/-- The extended header: the length, the key, and zeros. -/
theorem make_bytes (size : Nat) (key : Option UInt32) :
    (ExtendedHeader.make size key).bytes =
      copyTo (List.replicate 12 0) 0 (sizeBytes size ++ keyBytes key) := by
  unfold ExtendedHeader.make
  rw [copyPayload_eq]
  cases key with
  | none => simp [keyBytes]
  | some key => exact copyTo_copyTo _ _ _ (by simp) (by simp)

theorem take_copyTo (dst s : Bytes) : (copyTo dst 0 s).take s.length = s := by
  simp [copyTo]

theorem basicValue_toNat (size : Nat) : (basicValue size).toNat =
    if size ≤ payloadSizeBasic then size else if size ≤ payloadSizeExtended then 0x7E else 0x7F := by
  unfold basicValue
  split
  · rename_i h
    have hlt : size < 256 := lt_of_le_of_lt h (by decide)
    exact UInt8.toNat_ofNat_of_lt' hlt
  · split <;> rfl

section Header

variable (op : Opcode) (size : Nat) (fin rsv1 : Bool) (key : Option UInt32)

theorem make_getMaskingKeyOffset (mask : Bool) :
    (BasicHeader.make op size fin mask rsv1).getMaskingKeyOffset = (sizeBytes size).length := by
  unfold BasicHeader.getMaskingKeyOffset sizeBytes
  rw [make_getBasicSize, basicValue_toNat]
  by_cases hbasic : size ≤ payloadSizeBasic
  · simp only [if_pos hbasic]
    unfold payloadSizeBasic at hbasic
    rw [if_neg (by omega), if_neg (by omega)]
    rfl
  · simp only [if_neg hbasic]
    split <;> simp

theorem make_getHeaderLen :
    (BasicHeader.make op size fin key.isSome rsv1).getHeaderLen =
      basicHeaderLength + (sizeBytes size ++ keyBytes key).length := by
  unfold BasicHeader.getHeaderLen
  rw [make_getMaskingKeyOffset, make_getMasked, List.length_append, Nat.add_assoc]
  cases key <;> simp [keyBytes]

/-- What is written. -/
theorem prepareHeader_make :
    prepareHeader (.make op size fin key.isSome rsv1) (.make size key) =
      let h := BasicHeader.make op size fin key.isSome rsv1
      [h.b0, h.b1] ++ (sizeBytes size ++ keyBytes key) := by
  unfold prepareHeader
  rw [make_getHeaderLen, Nat.add_sub_cancel_left, make_bytes, take_copyTo]

theorem make_getMaskingKey :
    getMaskingKey (.make op size fin key.isSome rsv1) (.make size key) = key.getD 0 := by
  unfold getMaskingKey
  rw [make_getMasked, make_getMaskingKeyOffset, make_bytes]
  cases key with
  | none => rfl
  | some key =>
    have hkey : (((copyTo (List.replicate 12 0) 0 (sizeBytes size ++ keyBytes (some key))).drop
        (sizeBytes size).length).take 4) = bytesOf 4 key.toNat := by
      simp only [copyTo, List.take_zero, List.nil_append, keyBytes, List.append_assoc]
      rw [List.drop_left' rfl]
      exact List.take_left' (by simp)
    rw [hkey, valueOf_bytesOf key.toNat_lt]
    simp

/-- A word written highest byte first is read back. -/
theorem valueOf_reverse_bytesOf {n size : Nat} (h : size < 256 ^ n) :
    valueOf (bytesOf n (valueOf (bytesOf n size).reverse)).reverse = size := by
  have hbytes := bytesOf_valueOf (bytesOf n size).reverse
  rw [List.length_reverse, length_bytesOf] at hbytes
  rw [hbytes, List.reverse_reverse, valueOf_bytesOf h]

theorem make_getPayloadSize {size : Nat} (h : size < 2 ^ 64) (mask : Bool) :
    getPayloadSize (.make op size fin mask rsv1) (.make size key) = size := by
  unfold getPayloadSize getExtendedSize getJumboSize ntohs htonll
  rw [make_getBasicSize, basicValue_toNat, make_bytes]
  by_cases hbasic : size ≤ payloadSizeBasic
  · simp only [if_pos hbasic]
  · simp only [if_neg hbasic]
    by_cases hextended : size ≤ payloadSizeExtended
    · have htake : (copyTo (List.replicate 12 0) 0 (sizeBytes size ++ keyBytes key)).take 2 =
          (bytesOf 2 size).reverse := by
        simp only [copyTo, sizeBytes, if_neg hbasic, if_pos hextended, List.take_zero, List.nil_append,
          List.append_assoc]
        exact List.take_left' (by simp)
      have hlt : size < 256 ^ 2 := Nat.lt_succ_of_le hextended
      simp only [if_pos hextended, htake, valueOf_reverse_bytesOf hlt]
      rw [if_neg (by decide)]
      exact if_pos trivial
    · have htake : (copyTo (List.replicate 12 0) 0 (sizeBytes size ++ keyBytes key)).take 8 =
          (bytesOf 8 size).reverse := by
        simp only [copyTo, sizeBytes, if_neg hbasic, if_neg hextended, List.take_zero, List.nil_append,
          List.append_assoc]
        exact List.take_left' (by simp)
      have hlt : size < 256 ^ 8 := h
      simp only [if_neg hextended, htake, valueOf_reverse_bytesOf hlt]
      rw [if_neg (by decide), if_neg (by decide)]

end Header

/-! ## Masking -/

/-- The key as a stream of bytes. -/
def keyStream (key : UInt32) (i : Nat) : UInt8 := keyByte key (i % 4)

theorem byteMask_eq (s : Bytes) (key : UInt32) (keyOffset : Nat) :
    byteMask s key keyOffset = xorFrom (keyStream key) keyOffset s := by
  have hfrom : ∀ i, byteMaskFrom key (i % 4) s = xorFrom (keyStream key) i s := by
    induction s with
    | nil => intro i; rfl
    | cons b s ih =>
      intro i
      have hnext : (i % 4 + 1) % 4 = (i + 1) % 4 := by omega
      rw [byteMaskFrom, hnext, ih (i + 1)]
      rfl
  exact hfrom keyOffset

/-- The prepared key has the bytes of the key from position `i` on, twice. -/
def Stands (key : UInt32) (preparedKey : UInt64) (i : Nat) : Prop :=
  bytesOf 8 preparedKey.toNat = (List.range 8).map fun j => keyStream key (i + j)

theorem stands_prepare (key : UInt32) : Stands key (prepareMaskingKey key) 0 := by
  have hlt : key.toNat < 2 ^ 32 := key.toNat_lt
  have hvalue : (prepareMaskingKey key).toNat = key.toNat + 256 ^ 4 * key.toNat := by
    have hor : 2 ^ 32 * key.toNat + key.toNat = 2 ^ 32 * key.toNat ||| key.toNat :=
      Nat.two_pow_add_eq_or_of_lt hlt key.toNat
    have hshift : (key.toUInt64 <<< 32).toNat = 2 ^ 32 * key.toNat := by
      rw [UInt64.toNat_shiftLeft, UInt32.toNat_toUInt64]
      simp [Nat.shiftLeft_eq]
      omega
    unfold prepareMaskingKey
    rw [UInt64.toNat_or, hshift, UInt32.toNat_toUInt64, ← hor]
    omega
  have hdiv : (key.toNat + 256 ^ 4 * key.toNat) / 256 ^ 4 = key.toNat := by omega
  have hlow : bytesOf 4 (key.toNat + 256 ^ 4 * key.toNat) = bytesOf 4 key.toNat := by
    exact bytesOf_congr (by omega)
  unfold Stands
  rw [hvalue, show bytesOf 8 _ = _ from bytesOf_add 4 4 _, hdiv, hlow]
  simp [bytesOf, keyStream, keyByte, List.range_succ, Nat.div_div_eq_div_mul]

theorem pow_mul_eight (n : Nat) : 2 ^ (n * 8) = 256 ^ n := by
  rw [Nat.mul_comm, Nat.pow_mul]

theorem circshift_toNat (preparedKey : UInt64) {offset : Nat} (h : offset < 8) (hpos : offset ≠ 0) :
    (circshiftPreparedKey preparedKey offset).toNat =
      256 ^ (8 - offset) * (preparedKey.toNat % 256 ^ offset) + preparedKey.toNat / 256 ^ offset := by
  have hp : preparedKey.toNat < 256 ^ 8 := preparedKey.toNat_lt
  have hsplit : 256 ^ (8 - offset) * 256 ^ offset = 256 ^ 8 := by
    rw [← Nat.pow_add, Nat.sub_add_cancel h.le]
  have hright : (preparedKey >>> UInt64.ofNat (offset * 8)).toNat = preparedKey.toNat / 256 ^ offset := by
    rw [UInt64.toNat_shiftRight, UInt64.toNat_ofNat_of_lt' (by simp only [UInt64.size]; omega),
      Nat.mod_eq_of_lt (by omega), Nat.shiftRight_eq_div_pow, pow_mul_eight]
  have hleft : (preparedKey <<< UInt64.ofNat ((8 - offset) * 8)).toNat =
      256 ^ (8 - offset) * (preparedKey.toNat % 256 ^ offset) := by
    rw [UInt64.toNat_shiftLeft, UInt64.toNat_ofNat_of_lt' (by simp only [UInt64.size]; omega),
      Nat.mod_eq_of_lt (by omega : (8 - offset) * 8 < 64), Nat.shiftLeft_eq, pow_mul_eight,
      show 2 ^ 64 = 256 ^ offset * 256 ^ (8 - offset) from by rw [Nat.mul_comm, hsplit]; rfl,
      Nat.mul_mod_mul_right, Nat.mul_comm]
  have hlow : preparedKey.toNat / 256 ^ offset < 2 ^ ((8 - offset) * 8) := by
    rw [pow_mul_eight]
    apply Nat.div_lt_of_lt_mul
    rwa [Nat.mul_comm, hsplit]
  rw [circshiftPreparedKey, if_neg hpos, UInt64.toNat_or, hright, hleft, Nat.or_comm, ← pow_mul_eight (8 - offset)]
  exact (Nat.two_pow_add_eq_or_of_lt hlow _).symm

/-- The shift turns the bytes round. -/
theorem bytesOf_circshift (preparedKey : UInt64) {offset : Nat} (h : offset < 8) :
    bytesOf 8 (circshiftPreparedKey preparedKey offset).toNat =
      (bytesOf 8 preparedKey.toNat).rotate offset := by
  by_cases hpos : offset = 0
  · rw [hpos, List.rotate_zero]
    rfl
  · have hp : preparedKey.toNat < 256 ^ 8 := preparedKey.toNat_lt
    have hsum : offset + (8 - offset) = 8 := by omega
    have hold := bytesOf_add offset (8 - offset) preparedKey.toNat
    have hnew := bytesOf_add (8 - offset) offset (circshiftPreparedKey preparedKey offset).toNat
    rw [hsum] at hold
    rw [Nat.add_comm, hsum, circshift_toNat preparedKey h hpos] at hnew
    have hhigh : preparedKey.toNat / 256 ^ offset < 256 ^ (8 - offset) := by
      apply Nat.div_lt_of_lt_mul
      rwa [← Nat.pow_add, hsum]
    rw [circshift_toNat preparedKey h hpos, hnew, hold, List.rotate_eq_drop_append_take (by simp only [List.length_append, length_bytesOf]; omega),
      List.drop_left' (by simp), List.take_left' (by simp)]
    congr 1
    · refine bytesOf_congr ?_
      rw [Nat.mul_add_mod]
    · refine bytesOf_congr ?_
      rw [Nat.mul_add_div (by positivity), Nat.div_eq_of_lt hhigh, Nat.add_zero, Nat.mod_mod]

theorem Stands.circshift {key : UInt32} {preparedKey : UInt64} {i n : Nat}
    (h : Stands key preparedKey i) (hn : n < 4) :
    Stands key (circshiftPreparedKey preparedKey n) (i + n) := by
  unfold Stands at h ⊢
  rw [bytesOf_circshift preparedKey (by omega), h]
  refine List.ext_getElem (by simp) fun k hk _ => ?_
  rw [List.getElem_rotate]
  simp only [List.getElem_map, List.getElem_range, List.length_map, List.length_range, keyStream]
  congr 1
  omega

theorem Stands.unique {key : UInt32} {k k' : UInt64} {i : Nat} (h : Stands key k i)
    (h' : Stands key k' i) : k = k' := by
  apply UInt64.toNat_inj.mp
  rw [← valueOf_bytesOf (n := 8) k.toNat_lt, ← valueOf_bytesOf (n := 8) k'.toNat_lt, h, h']

theorem Stands.keyByte {key : UInt32} {preparedKey : UInt64} {i : Nat} (h : Stands key preparedKey i)
    (j : Nat) : keyByte preparedKey.toUInt32 (j % 4) = keyStream key (i + j) := by
  have hj : j % 4 < 4 := Nat.mod_lt j (by decide)
  have hget := congrArg (·[j % 4]?) h
  simp only [getElem?_bytesOf (show j % 4 < 8 by omega), List.getElem?_map,
    List.getElem?_range (show j % 4 < 8 by omega), Option.map_some, Option.some.injEq] at hget
  have hstream : keyStream key (i + j % 4) = keyStream key (i + j) := by
    unfold keyStream
    congr 1
    omega
  rw [← hstream, ← hget, Frame.keyByte, UInt64.toNat_toUInt32]
  apply UInt8.toNat_inj.mp
  rw [UInt8.toNat_ofNat', UInt8.toNat_ofNat']
  generalize j % 4 = k at hj
  interval_cases k <;> omega

/-- One call masks under the key from where it stands, and it stands behind the text. -/
theorem byteMaskCirc_stands {key : UInt32} {preparedKey : UInt64} {i : Nat}
    (h : Stands key preparedKey i) (s : Bytes) :
    (byteMaskCirc s preparedKey).1 = xorFrom (keyStream key) i s ∧
      Stands key (byteMaskCirc s preparedKey).2 (i + s.length) := by
  constructor
  · rw [← mapIdx_xor]
    unfold byteMaskCirc
    simp only [h.keyByte]
  · have hshift := h.circshift (Nat.mod_lt s.length (by decide : 0 < 4))
    unfold Stands keyStream at hshift ⊢
    unfold byteMaskCirc
    rw [hshift]
    refine List.map_congr_left fun j _ => ?_
    congr 1
    omega

/-- What was masked under a key is unmasked chunk by chunk. -/
theorem byteMaskCirc_byteMask (key : UInt32) (s : Bytes) :
    (byteMaskCirc (byteMask s key 0) (prepareMaskingKey key)).1 = s := by
  rw [(byteMaskCirc_stands (stands_prepare key) _).1, byteMask_eq]
  exact xorFrom_xorFrom _ 0 s

end TmatePlugin.L1.Frame
