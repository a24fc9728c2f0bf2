import CppTftp.Common.Wire

/-!
# Encoding what was decoded

No decoder reads the first byte of a datagram, and every encoder writes zero there. Of an OACK
the decoder drops an odd list of strings and what stands behind the last null byte. Beyond
that, a datagram that is accepted is the encoding of what it was read as.
-/

namespace CppTftp.Tftp

open Utils Lib

/-- Nothing but the first byte is lost where it is written again as zero. -/
theorem zero_cons_tail_iff {d : Bytes} (h : d ≠ []) : 0 :: d.tail = d ↔ d.head? = some 0 := by
  cases d with
  | nil => exact absurd rfl h
  | cons b d =>
    constructor
    · intro heq
      rw [← heq]
      rfl
    · intro hb
      rw [List.head?_cons, Option.some.injEq] at hb
      rw [hb, List.tail_cons]

/-- Two bytes and what follows them. -/
theorem exists_two {d : Bytes} (h : 2 ≤ d.length) : ∃ b₀ b₁ rest, d = b₀ :: b₁ :: rest := by
  match d, h with
  | b₀ :: b₁ :: rest, _ => exact ⟨b₀, b₁, rest, rfl⟩

/-- Four bytes and what follows them. -/
theorem exists_four {d : Bytes} (h : 4 ≤ d.length) :
    ∃ b₀ b₁ b₂ b₃ rest, d = b₀ :: b₁ :: b₂ :: b₃ :: rest := by
  match d, h with
  | b₀ :: b₁ :: b₂ :: b₃ :: rest, _ => exact ⟨b₀, b₁, b₂, b₃, rest, rfl⟩

/-- A DATA packet is encoded as it came, but for the first byte. -/
theorem serialise_deserialiseDataPacket {d : Bytes} {packet : DataPacket}
    (h : deserialiseDataPacket d = some packet) : serialiseDataPacket packet = 0 :: d.tail := by
  obtain ⟨hlen, hcode⟩ := opcode_of_deserialiseDataPacket h
  obtain ⟨b₀, b₁, b₂, b₃, rest, rfl⟩ := exists_four hlen
  have hcode : b₁ = PacketT.data.code := hcode
  rw [deserialiseDataPacket, if_neg (by simp [byteAt, hcode]), Option.some.injEq] at h
  rw [← h, serialiseDataPacket, hcode]
  change [0, PacketT.data.code] ++ wordBytes (joinBytes b₂ b₃) ++ rest = _
  rw [wordBytes_joinBytes]
  rfl

/-- An ACK packet of four bytes is encoded as it came, but for the first byte. -/
theorem serialise_deserialiseAckPacket {d : Bytes} {packet : AckPacket}
    (hlen : d.length ≤ ackPktMaxSize) (h : deserialiseAckPacket d = some packet) :
    serialiseAckPacket packet = 0 :: d.tail := by
  unfold deserialiseAckPacket at h
  split at h
  · cases h
  · next hd =>
    obtain ⟨hfour, hcode⟩ := not_or.mp hd
    obtain ⟨b₀, b₁, b₂, b₃, rest, rfl⟩ := exists_four (Nat.not_lt.mp hfour)
    have hcode : b₁ = PacketT.ack.code := not_not.mp hcode
    have hrest : rest = [] := by
      simp only [List.length_cons] at hlen
      exact List.length_eq_zero_iff.mp (by rw [ackPktMaxSize] at hlen; omega)
    rw [Option.some.injEq] at h
    rw [← h, serialiseAckPacket, hcode, hrest]
    change [0, PacketT.ack.code] ++ wordBytes (joinBytes b₂ b₃) = _
    rw [wordBytes_joinBytes]
    rfl

/-- Behind the opcode there are strings in pairs and nothing else. -/
def PairsOnly (d : Bytes) : Prop :=
  (d.drop 2).count 0 % 2 = 0 ∧ ∀ b ∈ (d.drop 2).getLast?, b = 0

/-- The bytes behind an opcode are in pairs only if and only if they are a row of an even number
of strings. -/
theorem pairsOnly_iff {d tail : Bytes} {strings : List Bytes}
    (h : SplitsAs 0 (d.drop 2) strings tail) :
    PairsOnly d ↔ strings.length % 2 = 0 ∧ tail = [] := by
  rw [PairsOnly, h.length_eq, h.tail_eq_nil_iff]

/-- An OACK packet is encoded as it came, but for the first byte, if and only if it is made of
pairs only. -/
theorem serialise_deserialiseOackPacket {d : Bytes} {packet : OackPacket}
    (h : deserialiseOackPacket d = some packet) :
    serialiseOackPacket packet = 0 :: d.tail ↔ PairsOnly d := by
  unfold deserialiseOackPacket at h
  split at h
  · cases h
  · next hd =>
    obtain ⟨htwo, hcode⟩ := not_or.mp hd
    obtain ⟨b₀, b₁, rest, rfl⟩ := exists_two (Nat.not_lt.mp htwo)
    have hcode : b₁ = PacketT.oack.code := not_not.mp hcode
    obtain ⟨strings, tail, hsplit⟩ := exists_splitsAs 0 rest
    rw [pairsOnly_iff (d := b₀ :: b₁ :: rest) hsplit]
    have hextract : extractCStringsFromBuffer (b₀ :: b₁ :: rest) 2 = strings :=
      cStrings_of_splitsAs hsplit
    have hbytes : serialiseOackPacket packet = 0 :: (b₀ :: b₁ :: rest).tail ↔
        optionBytes packet.options = rest := by
      rw [hcode]
      exact List.append_right_inj [0, PacketT.oack.code]
    rw [hbytes, optionBytes_eq, hsplit.eq]
    rw [hextract] at h
    by_cases heven : strings.length % 2 = 0
    · rw [if_neg (not_not.mpr heven), Option.some.injEq] at h
      rw [← h, unpaired_pairs heven]
      constructor
      · intro heq
        exact ⟨heven, List.self_eq_append_right.mp heq⟩
      · rintro ⟨-, rfl⟩
        rw [List.append_nil]
    · rw [if_pos heven, Option.some.injEq] at h
      -- no options, but there is at least one string
      refine iff_of_false ?_ fun hboth ↦ heven hboth.1
      rw [← h]
      intro hnil
      apply heven
      have hempty := (List.append_eq_nil_iff.mp hnil.symm).1
      cases strings with
      | nil => rfl
      | cons s strings => simp at hempty

/-- On accepted datagrams encoding undoes decoding where the first byte is zero, for an OACK
where moreover it is made of pairs only; and two of these that are read as the same packet differ
in the first byte at most. -/
theorem encode_decoded :
    (∀ d packet, deserialiseDataPacket d = some packet →
      (serialiseDataPacket packet = d ↔ d.head? = some 0) ∧
      ∀ d', deserialiseDataPacket d' = some packet → d'.tail = d.tail) ∧
    (∀ d packet, d.length ≤ ackPktMaxSize → deserialiseAckPacket d = some packet →
      (serialiseAckPacket packet = d ↔ d.head? = some 0) ∧
      ∀ d', d'.length ≤ ackPktMaxSize → deserialiseAckPacket d' = some packet →
        d'.tail = d.tail) ∧
    ∀ d packet, deserialiseOackPacket d = some packet →
      (serialiseOackPacket packet = d ↔ d.head? = some 0 ∧ PairsOnly d) ∧
      ∀ d', deserialiseOackPacket d' = some packet → PairsOnly d → PairsOnly d' →
        d'.tail = d.tail := by
  refine ⟨?_, ?_, ?_⟩
  · intro d packet h
    have hbytes := serialise_deserialiseDataPacket h
    refine ⟨?_, ?_⟩
    · rw [hbytes, zero_cons_tail_iff]
      rintro rfl
      cases h
    · intro d' h'
      exact List.tail_eq_of_cons_eq ((serialise_deserialiseDataPacket h').symm.trans hbytes)
  · intro d packet hlen h
    have hbytes := serialise_deserialiseAckPacket hlen h
    refine ⟨?_, ?_⟩
    · rw [hbytes, zero_cons_tail_iff]
      rintro rfl
      cases h
    · intro d' hlen' h'
      exact List.tail_eq_of_cons_eq
        ((serialise_deserialiseAckPacket hlen' h').symm.trans hbytes)
  · intro d packet h
    have hne : d ≠ [] := by
      rintro rfl
      cases h
    refine ⟨?_, ?_⟩
    · constructor
      · intro heq
        have hhead : d.head? = some 0 := by
          rw [← heq]
          rfl
        refine ⟨hhead, (serialise_deserialiseOackPacket h).mp ?_⟩
        rw [(zero_cons_tail_iff hne).mpr hhead]
        exact heq
      · rintro ⟨hhead, hpairs⟩
        rw [(serialise_deserialiseOackPacket h).mpr hpairs]
        exact (zero_cons_tail_iff hne).mpr hhead
    · intro d' h' hpairs hpairs'
      have hbytes := (serialise_deserialiseOackPacket h).mpr hpairs
      have hbytes' := (serialise_deserialiseOackPacket h').mpr hpairs'
      exact List.tail_eq_of_cons_eq (hbytes'.symm.trans hbytes)

/-- A DATA datagram with another first byte is read as block 1, and an OACK with one string as
empty. -/
theorem encode_decoded_other :
    (∃ d packet, deserialiseDataPacket d = some packet ∧ serialiseDataPacket packet ≠ d) ∧
      ∃ d packet, deserialiseOackPacket d = some packet ∧ d.head? = some 0 ∧
        serialiseOackPacket packet ≠ d := by
  refine ⟨⟨[7, 3, 0, 1], { blockNumber := 1 }, by decide, by decide⟩,
    [0, 6, 97, 0], {}, ?_, rfl, by decide⟩
  have hstrings : extractCStringsFromBuffer [0, 6, 97, 0] 2 = [[97]] :=
    @cStrings_of_splitsAs _ [] _ ⟨rfl, by decide, by decide⟩
  rw [deserialiseOackPacket, if_neg (by decide)]
  dsimp only
  rw [hstrings]
  rfl

end CppTftp.Tftp
