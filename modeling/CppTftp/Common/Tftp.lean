import CppTftp.Common.Utils

/-!
# Packets and their encoding

`include/common/tftp.hpp` and `src/common/tftp.cpp`. The opcode is read from the second
byte only. Block numbers are two bytes, the high one first; the error code goes through
`char`, which is signed, on its way back.
-/

namespace CppTftp

open Utils

/-- `tftp::packet_t`, `tftp.hpp:15–23`. -/
inductive PacketT where
  | read
  | write
  | data
  | ack
  | error
  | oack
  deriving DecidableEq, Repr

/-- The underlying `uint8_t`. -/
def PacketT.code : PacketT → UInt8
  | .read => 1
  | .write => 2
  | .data => 3
  | .ack => 4
  | .error => 5
  | .oack => 6

/-- `tftp::mode_t`, `tftp.hpp:25–29`. -/
inductive Mode where
  | netascii
  | octet
  deriving DecidableEq, Repr

/-- `tftp::error_t`, `tftp.hpp:31–41`. -/
inductive ErrorT where
  | notDefined
  | fileNotFound
  | accessError
  | diskFull
  | illegalOperation
  | unknownTid
  | fileExists
  | noUser
  deriving DecidableEq, Repr

/-- The underlying `uint16_t`. -/
def ErrorT.code : ErrorT → UInt16
  | .notDefined => 0
  | .fileNotFound => 1
  | .accessError => 2
  | .diskFull => 3
  | .illegalOperation => 4
  | .unknownTid => 5
  | .fileExists => 6
  | .noUser => 7

/-- `tftp::rw_packet_t`, `tftp.hpp:45–55`. -/
structure RwPacket where
  type : PacketT := .read
  filename : Bytes := []
  mode : Mode := .octet
  options : List (Bytes × Bytes) := []
  deriving DecidableEq, Repr

/-- `tftp::oack_packet_t`, `tftp.hpp:57–62`. -/
structure OackPacket where
  options : List (Bytes × Bytes) := []
  deriving DecidableEq, Repr

/-- `tftp::data_packet_t`, `tftp.hpp:64–70`. -/
@[ext] structure DataPacket where
  data : Bytes := []
  blockNumber : UInt16 := 0
  deriving DecidableEq, Repr

/-- `tftp::ack_packet_t`, `tftp.hpp:72–77`. -/
structure AckPacket where
  blockNumber : UInt16
  deriving DecidableEq, Repr

/-- `tftp::error_packet_t`, `tftp.hpp:79–87`. -/
structure ErrorPacket where
  errorMsg : Bytes := []
  errorCode : UInt16 := 0
  deriving DecidableEq, Repr

/-- The two-argument constructor, `tftp.hpp:83–84`. -/
def ErrorPacket.of (code : ErrorT) (msg : Bytes) : ErrorPacket := ⟨msg, code.code⟩

namespace Tftp

/-- `tftp.hpp:11`. -/
def dataPktMaxSize : Nat := 516

/-- `tftp.hpp:12`. -/
def dataPktDataMaxSize : Nat := 512

/-- `tftp.hpp:13`. -/
def ackPktMaxSize : Nat := 4

/-- `tftp.cpp:11`. -/
def octetModeStr : Bytes := str "OCTET"

/-- `tftp.cpp:12`. -/
def netasciiModeStr : Bytes := str "NETASCII"

/-- `data.at(i)`; every use is within the length checked before. -/
def byteAt (data : Bytes) (i : Nat) : UInt8 := data.getD i 0

/-- `n >> 8` as pushed into a `char`. -/
def hiByte (n : UInt16) : UInt8 := (n >>> 8).toUInt8

/-- `n & 0xFF` as pushed into a `char`. -/
def loByte (n : UInt16) : UInt8 := (n &&& 0xFF).toUInt8

/-- The two bytes of a `uint16_t` in the order of the encoders. -/
def wordBytes (n : UInt16) : Bytes := [hiByte n, loByte n]

/-- Two bytes read as unsigned chars and joined, `tftp.cpp:95–96,121–122`. -/
def joinBytes (hi lo : UInt8) : UInt16 := (hi.toUInt16 <<< 8) ||| lo.toUInt16

/-- `static_cast<uint16_t>` of a signed `char`. -/
def widenSigned (c : UInt8) : UInt16 := c.toInt8.toInt16.toUInt16

/-- Consecutive strings taken as name and value. -/
def pairs : List Bytes → List (Bytes × Bytes)
  | name :: value :: rest => (name, value) :: pairs rest
  | _ => []

/-- `tftp::mode_t_to_string`, `tftp.cpp:230–244`. -/
def modeTToString : Mode → Bytes
  | .octet => octetModeStr
  | .netascii => netasciiModeStr

/-- `tftp::string_to_mode_t`, `tftp.cpp:213–227`. -/
def stringToModeT (modeStr : Bytes) : Option Mode :=
  let upper := modeStr.map toupper
  if strcmpEq upper octetModeStr then some .octet
  else if strcmpEq upper netasciiModeStr then some .netascii
  else none

/-- `tftp::serialise_rw_packet`, `tftp.cpp:16–30`. -/
def serialiseRwPacket (packet : RwPacket) : Bytes :=
  [0, packet.type.code] ++ packet.filename ++ [0] ++ modeTToString packet.mode ++ [0]

/-- `tftp::deserialise_rw_packet`, `tftp.cpp:33–71`. -/
def deserialiseRwPacket (data : Bytes) : Option RwPacket :=
  if data.length < 4 then none
  else if byteAt data 1 ≠ PacketT.read.code ∧ byteAt data 1 ≠ PacketT.write.code then none
  else
    let type := if byteAt data 1 = PacketT.read.code then PacketT.read else PacketT.write
    match extractCStringsFromBuffer data 2 with
    | filename :: modeStr :: params =>
      match stringToModeT modeStr with
      | none => none
      | some mode =>
        -- with an odd number of strings everything after the mode is ignored
        if params.length % 2 ≠ 0 then some { type, filename, mode }
        else
          let options := (pairs params).map fun opt ↦ (opt.1.map toupper, opt.2.map toupper)
          some { type, filename, mode, options }
    | _ => none

/-- `tftp::serialise_data_packet`, `tftp.cpp:74–85`. -/
def serialiseDataPacket (packet : DataPacket) : Bytes :=
  [0, PacketT.data.code] ++ wordBytes packet.blockNumber ++ packet.data

/-- `tftp::deserialise_data_packet`, `tftp.cpp:87–99`. -/
def deserialiseDataPacket (data : Bytes) : Option DataPacket :=
  if data.length < 4 ∨ byteAt data 1 ≠ PacketT.data.code then none
  else some { data := data.drop 4, blockNumber := joinBytes (byteAt data 2) (byteAt data 3) }

/-- `tftp::serialise_ack_packet`, `tftp.cpp:102–112`. -/
def serialiseAckPacket (packet : AckPacket) : Bytes :=
  [0, PacketT.ack.code] ++ wordBytes packet.blockNumber

/-- `tftp::deserialise_ack_packet`, `tftp.cpp:115–124`. -/
def deserialiseAckPacket (data : Bytes) : Option AckPacket :=
  if data.length < 4 ∨ byteAt data 1 ≠ PacketT.ack.code then none
  else some { blockNumber := joinBytes (byteAt data 2) (byteAt data 3) }

/-- `tftp::serialise_error_packet`, `tftp.cpp:127–139`. -/
def serialiseErrorPacket (packet : ErrorPacket) : Bytes :=
  [0, PacketT.error.code] ++ wordBytes packet.errorCode ++ packet.errorMsg ++ [0]

/-- `tftp::deserialise_error_packet`, `tftp.cpp:142–159`. -/
def deserialiseErrorPacket (data : Bytes) : Option ErrorPacket :=
  if data.length < 5 ∨ byteAt data 1 ≠ PacketT.error.code then none
  else if 0 ∈ data.drop 4 then
    some {
      errorMsg := (data.drop 4).takeWhile (· != 0)
      errorCode := (widenSigned (byteAt data 2) <<< 8) ||| widenSigned (byteAt data 3) }
  else none

/-- `tftp::serialise_oack_packet`, `tftp.cpp:162–186`. -/
def serialiseOackPacket (packet : OackPacket) : Bytes :=
  [0, PacketT.oack.code] ++ packet.options.flatMap fun param ↦ param.1 ++ [0] ++ param.2 ++ [0]

/-- `tftp::deserialise_oack_packet`, `tftp.cpp:189–210`. -/
def deserialiseOackPacket (data : Bytes) : Option OackPacket :=
  if data.length < 2 ∨ byteAt data 1 ≠ PacketT.oack.code then none
  else
    let params := extractCStringsFromBuffer data 2
    if params.length % 2 ≠ 0 then some {} else some { options := pairs params }

/-! ### Two-byte words -/

/-- The value of a joined word. -/
theorem toNat_joinBytes (hi lo : UInt8) :
    (joinBytes hi lo).toNat = hi.toNat * 256 + lo.toNat := by
  have hh := hi.toNat_lt
  have hl := lo.toNat_lt
  have hs : hi.toNat <<< 8 % 65536 = hi.toNat <<< 8 := by
    rw [Nat.shiftLeft_eq]; omega
  rw [joinBytes, UInt16.toNat_or, UInt16.toNat_shiftLeft]
  simp only [UInt8.toNat_toUInt16]
  change hi.toNat <<< 8 % 65536 ||| lo.toNat = _
  rw [hs, ← Nat.shiftLeft_add_eq_or_of_lt hl, Nat.shiftLeft_eq]

/-- The high byte of a word. -/
theorem toNat_hiByte (n : UInt16) : (hiByte n).toNat = n.toNat / 256 := by
  have hn := n.toNat_lt
  rw [hiByte, UInt16.toNat_toUInt8, UInt16.toNat_shiftRight]
  change n.toNat >>> 8 % 256 = _
  rw [Nat.shiftRight_eq_div_pow]
  omega

/-- The low byte of a word. -/
theorem toNat_loByte (n : UInt16) : (loByte n).toNat = n.toNat % 256 := by
  rw [loByte, UInt16.toNat_toUInt8, UInt16.toNat_and]
  change (n.toNat &&& 2 ^ 8 - 1) % 256 = _
  rw [Nat.and_two_pow_sub_one_eq_mod]
  omega

/-- Joining the two bytes of a word gives it back. -/
@[simp] theorem joinBytes_hiByte_loByte (n : UInt16) : joinBytes (hiByte n) (loByte n) = n := by
  apply UInt16.toNat_inj.mp
  rw [toNat_joinBytes, toNat_hiByte, toNat_loByte]
  omega

/-- The bytes of a joined word are the two bytes. -/
theorem wordBytes_joinBytes (hi lo : UInt8) : wordBytes (joinBytes hi lo) = [hi, lo] := by
  have hh := hi.toNat_lt
  have hl := lo.toNat_lt
  have hhi : hiByte (joinBytes hi lo) = hi := by
    apply UInt8.toNat_inj.mp
    rw [toNat_hiByte, toNat_joinBytes]
    omega
  have hlo : loByte (joinBytes hi lo) = lo := by
    apply UInt8.toNat_inj.mp
    rw [toNat_loByte, toNat_joinBytes]
    omega
  rw [wordBytes, hhi, hlo]

/-! ### Signed bytes -/

/-- A `char` that is widened keeps its value up to 127, and gets 255 in front of it beyond. -/
theorem toNat_widenSigned (c : UInt8) :
    (widenSigned c).toNat = if c.toNat < 128 then c.toNat else 65280 + c.toNat := by
  have hext : (widenSigned c).toNat = (c.toBitVec.signExtend 16).toNat := rfl
  have hmsb : c.toBitVec.msb = decide (128 ≤ c.toNat) := BitVec.msb_eq_decide c.toBitVec
  have hlow : (c.toBitVec.setWidth 16).toNat = c.toNat := by
    rw [BitVec.toNat_setWidth]
    exact Nat.mod_eq_of_lt (Nat.lt_trans c.toNat_lt (by decide))
  rw [hext, BitVec.toNat_signExtend, hmsb, hlow]
  by_cases h : c.toNat < 128
  · simp [h]
  · have hle : 128 ≤ c.toNat := Nat.not_lt.mp h
    simp [h, hle, Nat.add_comm]

/-- The sign of the high byte is shifted out. -/
theorem widenSigned_shiftLeft (c : UInt8) : widenSigned c <<< 8 = c.toUInt16 <<< 8 := by
  apply UInt16.toNat_inj.mp
  rw [UInt16.toNat_shiftLeft, UInt16.toNat_shiftLeft, toNat_widenSigned, UInt8.toNat_toUInt16]
  change _ <<< 8 % 65536 = _ <<< 8 % 65536
  rw [Nat.shiftLeft_eq, Nat.shiftLeft_eq]
  split
  · rfl
  · omega

/-- The bytes of a word put together as signed ones give it back if the low byte is below 128,
or if the high byte is what the sign of the low one makes of it. -/
theorem joined_widenSigned_iff (n : UInt16) :
    (widenSigned (hiByte n) <<< 8) ||| widenSigned (loByte n) = n ↔
      n.toNat % 256 < 128 ∨ 65280 ≤ n.toNat := by
  have hn := n.toNat_lt
  have hjoin := joinBytes_hiByte_loByte n
  rw [widenSigned_shiftLeft]
  by_cases hlo : n.toNat % 256 < 128
  · have hsame : widenSigned (loByte n) = (loByte n).toUInt16 := by
      apply UInt16.toNat_inj.mp
      rw [toNat_widenSigned, toNat_loByte, if_pos hlo, UInt8.toNat_toUInt16, toNat_loByte]
    rw [hsame]
    exact iff_of_true hjoin (.inl hlo)
  · have hvalue : (widenSigned (loByte n)).toNat = 65280 + n.toNat % 256 := by
      rw [toNat_widenSigned, toNat_loByte, if_neg hlo]
    constructor
    · intro h
      right
      have hle : (widenSigned (loByte n)).toNat ≤
          ((hiByte n).toUInt16 <<< 8).toNat ||| (widenSigned (loByte n)).toNat := Nat.right_le_or
      rw [← UInt16.toNat_or, h, hvalue] at hle
      omega
    · rintro (h | h)
      · exact absurd h hlo
      · have hhi : hiByte n = 255 := by
          apply UInt8.toNat_inj.mp
          rw [toNat_hiByte]
          change _ = 255
          omega
        have hwide : widenSigned (loByte n) = joinBytes 255 (loByte n) := by
          apply UInt16.toNat_inj.mp
          rw [hvalue, toNat_joinBytes, toNat_loByte]
          rfl
        rw [hhi] at hjoin ⊢
        rw [hwide, joinBytes, ← UInt16.or_assoc, UInt16.or_self]
        exact hjoin

/-! ### Block numbers -/

/-- The next block's number on the wire, with the wrap of `uint16_t`. -/
theorem ofNat_succ (n : Nat) : UInt16.ofNat (n + 1) = UInt16.ofNat n + 1 := by
  rw [UInt16.ofNat_add]
  rfl

/-- Decrementing takes the number of a block back to the one before. -/
theorem ofNat_succ_sub_one (n : Nat) : UInt16.ofNat (n + 1) - 1 = UInt16.ofNat n := by
  rw [ofNat_succ]
  exact UInt16.add_sub_cancel _ _

/-- Equal numbers on the wire stand for blocks a multiple of 2^16 apart. -/
theorem ofNat_eq_ofNat_iff (m n : Nat) :
    UInt16.ofNat m = UInt16.ofNat n ↔ m % 65536 = n % 65536 := by
  rw [← UInt16.toNat_inj]
  simp

/-- A number on the wire, read back. -/
theorem eq_ofNat_iff (a : UInt16) (n : Nat) : a = UInt16.ofNat n ↔ a.toNat = n % 65536 := by
  rw [← UInt16.toNat_inj]
  simp

/-! ### Round trips and confusion -/

/-- The encoded length of a DATA packet. -/
theorem length_serialiseDataPacket (packet : DataPacket) :
    (serialiseDataPacket packet).length = packet.data.length + 4 := by
  simp [serialiseDataPacket, wordBytes]

/-- A DATA packet survives the wire. -/
theorem deserialise_serialiseDataPacket (packet : DataPacket) :
    deserialiseDataPacket (serialiseDataPacket packet) = some packet := by
  simp [deserialiseDataPacket, serialiseDataPacket, wordBytes, byteAt]

/-- A DATA packet cut by a receive limit that leaves the header keeps its number and a
prefix of its payload. -/
theorem deserialise_take_serialiseDataPacket (packet : DataPacket) {n : Nat} (hn : 4 ≤ n) :
    deserialiseDataPacket ((serialiseDataPacket packet).take n) =
      some { packet with data := packet.data.take (n - 4) } := by
  obtain ⟨m, rfl⟩ := Nat.exists_eq_add_of_le' hn
  simp [deserialiseDataPacket, serialiseDataPacket, wordBytes, byteAt]

/-- The encoding of DATA packets is injective. -/
theorem serialiseDataPacket_inj {p q : DataPacket}
    (h : serialiseDataPacket p = serialiseDataPacket q) : p = q := by
  have hp := deserialise_serialiseDataPacket p
  rw [h, deserialise_serialiseDataPacket q] at hp
  exact (Option.some.inj hp).symm

/-- An ACK packet survives the wire. -/
theorem deserialise_serialiseAckPacket (packet : AckPacket) :
    deserialiseAckPacket (serialiseAckPacket packet) = some packet := by
  simp [deserialiseAckPacket, serialiseAckPacket, wordBytes, byteAt]

/-- An ACK packet fits the receive limit for ACK packets exactly. -/
theorem take_serialiseAckPacket (packet : AckPacket) :
    (serialiseAckPacket packet).take ackPktMaxSize = serialiseAckPacket packet := rfl

/-- What decodes as a DATA packet is long enough and carries that opcode. -/
theorem opcode_of_deserialiseDataPacket {d : Bytes} {p : DataPacket}
    (h : deserialiseDataPacket d = some p) : 4 ≤ d.length ∧ byteAt d 1 = PacketT.data.code := by
  unfold deserialiseDataPacket at h
  split at h
  · cases h
  · next hd => exact ⟨Nat.not_lt.mp fun hl ↦ hd (.inl hl), not_not.mp fun ho ↦ hd (.inr ho)⟩

/-- A datagram with another opcode is no DATA packet. -/
theorem deserialiseDataPacket_of_opcode {d : Bytes} (h : byteAt d 1 ≠ PacketT.data.code) :
    deserialiseDataPacket d = none := by
  simp [deserialiseDataPacket, h]

/-- A datagram with another opcode is no ACK packet. -/
theorem deserialiseAckPacket_of_opcode {d : Bytes} (h : byteAt d 1 ≠ PacketT.ack.code) :
    deserialiseAckPacket d = none := by
  simp [deserialiseAckPacket, h]

/-- What is a DATA packet even where it was cut, is one as a whole. -/
theorem isSome_of_deserialise_take {d : Bytes} {n : Nat} {p : DataPacket}
    (h : deserialiseDataPacket (d.take n) = some p) : (deserialiseDataPacket d).isSome := by
  obtain ⟨hlen, hop⟩ := opcode_of_deserialiseDataPacket h
  rw [List.length_take] at hlen
  have hbyte : byteAt d 1 = PacketT.data.code := by
    rw [← hop, byteAt, byteAt, List.getD_eq_getElem?_getD, List.getD_eq_getElem?_getD,
      List.getElem?_take, if_pos (by omega)]
  rw [deserialiseDataPacket, if_neg]
  · rfl
  · rintro (hl | ho)
    · omega
    · exact ho hbyte

@[simp] theorem byteAt_serialiseDataPacket (p : DataPacket) :
    byteAt (serialiseDataPacket p) 1 = PacketT.data.code := rfl

@[simp] theorem byteAt_serialiseAckPacket (p : AckPacket) :
    byteAt (serialiseAckPacket p) 1 = PacketT.ack.code := rfl

@[simp] theorem byteAt_serialiseErrorPacket (p : ErrorPacket) :
    byteAt (serialiseErrorPacket p) 1 = PacketT.error.code := rfl

@[simp] theorem byteAt_serialiseOackPacket (p : OackPacket) :
    byteAt (serialiseOackPacket p) 1 = PacketT.oack.code := rfl

end Tftp
end CppTftp
