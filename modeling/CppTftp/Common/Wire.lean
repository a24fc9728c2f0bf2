import CppTftp.Common.Strings

/-!
# Packets on the wire

What a decoder makes of an encoded packet, and which decoder takes a datagram. The opcode is
in the second byte, and each decoder asks for its own.
-/

namespace CppTftp.Tftp

open Utils Lib

/-! ### Strings and pairs -/

/-- The names and values of a list of options, one after the other. -/
def unpaired (options : List (Bytes × Bytes)) : List Bytes :=
  options.flatMap fun opt ↦ [opt.1, opt.2]

/-- Names and values are null-terminated strings. -/
def NulFree (options : List (Bytes × Bytes)) : Prop := ∀ opt ∈ options, 0 ∉ opt.1 ∧ 0 ∉ opt.2

/-- The options as they are encoded, each name and each value with its terminator. -/
def optionBytes (options : List (Bytes × Bytes)) : Bytes :=
  options.flatMap fun opt ↦ opt.1 ++ [0] ++ opt.2 ++ [0]

@[simp] theorem unpaired_nil : unpaired [] = [] := rfl

@[simp] theorem unpaired_cons (opt : Bytes × Bytes) (options : List (Bytes × Bytes)) :
    unpaired (opt :: options) = opt.1 :: opt.2 :: unpaired options := rfl

/-- Pairing gives the options back. -/
theorem pairs_unpaired (options : List (Bytes × Bytes)) : pairs (unpaired options) = options := by
  induction options with
  | nil => rfl
  | cons opt options ih => rw [unpaired_cons, pairs, ih]

/-- Names and values come in twos. -/
theorem length_unpaired (options : List (Bytes × Bytes)) :
    (unpaired options).length = 2 * options.length := by
  induction options with
  | nil => rfl
  | cons opt options ih =>
    rw [unpaired_cons, List.length_cons, List.length_cons, List.length_cons, ih]
    omega

/-- Strings in pairs are an even number of them. -/
theorem unpaired_pairs {strings : List Bytes} (h : strings.length % 2 = 0) :
    unpaired (pairs strings) = strings := by
  induction strings using pairs.induct with
  | case1 name value rest ih =>
    rw [List.length_cons, List.length_cons] at h
    rw [pairs, unpaired_cons, ih (by omega)]
  | case2 strings hshort =>
    cases strings with
    | nil => rfl
    | cons s strings =>
      cases strings with
      | nil => cases h
      | cons s' strings => exact absurd rfl (hshort s s' strings)

/-- Options are encoded as a row of strings. -/
theorem optionBytes_eq (options : List (Bytes × Bytes)) :
    optionBytes options = terminated 0 (unpaired options) := by
  induction options with
  | nil => rfl
  | cons opt options ih =>
    rw [unpaired_cons, terminated_cons, terminated_cons, ← ih]
    simp [optionBytes]

/-- The strings in encoded options are their names and values. -/
theorem cStrings_optionBytes {options : List (Bytes × Bytes)} (h : NulFree options) :
    cStrings (optionBytes options) = unpaired options := by
  apply @cStrings_of_splitsAs _ []
  refine ⟨?_, ?_, List.not_mem_nil⟩
  · rw [optionBytes_eq, List.append_nil]
  · intro s hs
    obtain ⟨opt, hopt, hs⟩ := List.mem_flatMap.mp hs
    rcases List.mem_cons.mp hs with rfl | hs
    · exact (h opt hopt).1
    · rw [List.mem_singleton.mp hs]
      exact (h opt hopt).2

/-! ### Round trips -/

/-- An OACK packet survives the wire. -/
theorem deserialise_serialiseOackPacket {packet : OackPacket} (h : NulFree packet.options) :
    deserialiseOackPacket (serialiseOackPacket packet) = some packet := by
  have hstrings : extractCStringsFromBuffer (serialiseOackPacket packet) 2 =
      unpaired packet.options := cStrings_optionBytes h
  have hlen : ¬((serialiseOackPacket packet).length < 2 ∨
      byteAt (serialiseOackPacket packet) 1 ≠ PacketT.oack.code) := by
    rintro (hshort | hcode)
    · have htwo : ([0, PacketT.oack.code] : Bytes).length = 2 := rfl
      rw [serialiseOackPacket, List.length_append] at hshort
      omega
    · exact hcode (byteAt_serialiseOackPacket packet)
  rw [deserialiseOackPacket, if_neg hlen]
  dsimp only
  rw [hstrings, length_unpaired, if_neg (by omega), pairs_unpaired]

/-- What an ERROR packet becomes on the wire. -/
theorem deserialise_serialiseErrorPacket (packet : ErrorPacket) :
    deserialiseErrorPacket (serialiseErrorPacket packet) = some {
      errorMsg := packet.errorMsg.takeWhile (· != 0)
      errorCode := (widenSigned (hiByte packet.errorCode) <<< 8) |||
        widenSigned (loByte packet.errorCode) } := by
  have hlen : ¬((serialiseErrorPacket packet).length < 5 ∨
      byteAt (serialiseErrorPacket packet) 1 ≠ PacketT.error.code) := by
    rw [byteAt_serialiseErrorPacket]
    simp [serialiseErrorPacket, wordBytes]
  have hmsg : (serialiseErrorPacket packet).drop 4 = packet.errorMsg ++ [0] := rfl
  rw [deserialiseErrorPacket, if_neg hlen, hmsg, if_pos (by simp), takeWhile_append_zero]
  rfl

/-- An ERROR packet survives the wire if and only if the low byte of its code is below 128 or
the high byte is 255. -/
theorem error_survives_iff {errorMsg : Bytes} (h : 0 ∉ errorMsg) (errorCode : UInt16) :
    deserialiseErrorPacket (serialiseErrorPacket { errorMsg, errorCode }) =
        some { errorMsg, errorCode } ↔
      errorCode.toNat % 256 < 128 ∨ 65280 ≤ errorCode.toNat := by
  rw [deserialise_serialiseErrorPacket, ← joined_widenSigned_iff, takeWhile_of_not_mem h]
  simp

/-- The code of every error that the program names survives, here of the last one. -/
theorem error_survives_noUser :
    deserialiseErrorPacket
        (serialiseErrorPacket { errorMsg := str "No such user", errorCode := 7 }) =
      some { errorMsg := str "No such user", errorCode := 7 } :=
  (error_survives_iff (by decide) 7).mpr (.inl (by decide))

/-- Code 128 comes back as 65408. -/
theorem error_changed : ∃ packet : ErrorPacket, 0 ∉ packet.errorMsg ∧
    deserialiseErrorPacket (serialiseErrorPacket packet) ≠ some packet :=
  ⟨{ errorCode := 128 }, by decide, by decide⟩

/-! ### One decoder at most -/

/-- A datagram with another opcode is no request. -/
theorem deserialiseRwPacket_of_opcode {d : Bytes} (hr : byteAt d 1 ≠ PacketT.read.code)
    (hw : byteAt d 1 ≠ PacketT.write.code) : deserialiseRwPacket d = none := by
  rw [deserialiseRwPacket]
  split
  · rfl
  · rw [if_pos ⟨hr, hw⟩]

/-- A datagram with another opcode is no ERROR packet. -/
theorem deserialiseErrorPacket_of_opcode {d : Bytes} (h : byteAt d 1 ≠ PacketT.error.code) :
    deserialiseErrorPacket d = none := by
  rw [deserialiseErrorPacket, if_pos (.inr h)]

/-- A datagram with another opcode is no OACK packet. -/
theorem deserialiseOackPacket_of_opcode {d : Bytes} (h : byteAt d 1 ≠ PacketT.oack.code) :
    deserialiseOackPacket d = none := by
  rw [deserialiseOackPacket, if_pos (.inr h)]

/-- Which of the five decoders take a datagram: for requests, DATA, ACK, ERROR and OACK. -/
def accepting (d : Bytes) : List Bool :=
  [(deserialiseRwPacket d).isSome, (deserialiseDataPacket d).isSome,
    (deserialiseAckPacket d).isSome, (deserialiseErrorPacket d).isSome,
    (deserialiseOackPacket d).isSome]

/-- No datagram is taken by two decoders. -/
theorem count_accepting_le (d : Bytes) : (accepting d).count true ≤ 1 := by
  have hone : ∀ b : Bool, (if b = true then 1 else 0) ≤ 1 := by decide
  unfold accepting
  -- a decoder that takes the datagram fixes the opcode, and the others ask for another one
  by_cases hd : byteAt d 1 = PacketT.data.code
  · rw [deserialiseRwPacket_of_opcode (by rw [hd]; decide) (by rw [hd]; decide),
      deserialiseAckPacket_of_opcode (by rw [hd]; decide),
      deserialiseErrorPacket_of_opcode (by rw [hd]; decide),
      deserialiseOackPacket_of_opcode (by rw [hd]; decide)]
    simpa [List.count_cons] using hone _
  · rw [deserialiseDataPacket_of_opcode hd]
    by_cases ha : byteAt d 1 = PacketT.ack.code
    · rw [deserialiseRwPacket_of_opcode (by rw [ha]; decide) (by rw [ha]; decide),
        deserialiseErrorPacket_of_opcode (by rw [ha]; decide),
        deserialiseOackPacket_of_opcode (by rw [ha]; decide)]
      simpa [List.count_cons] using hone _
    · rw [deserialiseAckPacket_of_opcode ha]
      by_cases he : byteAt d 1 = PacketT.error.code
      · rw [deserialiseRwPacket_of_opcode (by rw [he]; decide) (by rw [he]; decide),
          deserialiseOackPacket_of_opcode (by rw [he]; decide)]
        simpa [List.count_cons] using hone _
      · rw [deserialiseErrorPacket_of_opcode he]
        by_cases ho : byteAt d 1 = PacketT.oack.code
        · rw [deserialiseRwPacket_of_opcode (by rw [ho]; decide) (by rw [ho]; decide)]
          simpa [List.count_cons] using hone _
        · rw [deserialiseOackPacket_of_opcode ho]
          simpa [List.count_cons] using hone _

/-- DATA, ACK and OACK packets survive the wire, and no datagram is taken by two decoders. -/
theorem packets_survive :
    (∀ (blockNumber : UInt16) (data : Bytes),
      deserialiseDataPacket (serialiseDataPacket { data, blockNumber }) =
        some { data, blockNumber }) ∧
      (∀ blockNumber : UInt16, deserialiseAckPacket (serialiseAckPacket { blockNumber }) =
        some { blockNumber }) ∧
      (∀ options : List (Bytes × Bytes), NulFree options →
        deserialiseOackPacket (serialiseOackPacket { options }) = some { options }) ∧
      ∀ d : Bytes, (accepting d).count true ≤ 1 := by
  refine ⟨?_, ?_, ?_, count_accepting_le⟩
  · intro blockNumber data
    exact deserialise_serialiseDataPacket _
  · intro blockNumber
    exact deserialise_serialiseAckPacket _
  · intro options h
    exact deserialise_serialiseOackPacket h

end CppTftp.Tftp
