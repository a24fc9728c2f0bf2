import CppTftp.Common.Wire
import CppTftp.Server.Frame

/-!
# An ERROR packet from the client

Where a connection waits for an ACK it receives no more than the four bytes of one, and the
shortest ERROR packet has five.
-/

namespace CppTftp.TftpServerConnection

open Tftp Lib

variable {b : Build} {c : TftpServerConnection}

/-- Cut to the length of an ACK, nothing is an ERROR packet. -/
theorem deserialiseErrorPacket_take (d : Bytes) :
    deserialiseErrorPacket (d.take ackPktMaxSize) = none := by
  rw [deserialiseErrorPacket, if_pos]
  left
  rw [List.length_take]
  exact Nat.lt_of_le_of_lt (Nat.min_le_left _ _) (by decide)

/-- The beginning of an ERROR packet is no ACK. -/
theorem deserialiseAckPacket_take_error (p : ErrorPacket) :
    deserialiseAckPacket ((serialiseErrorPacket p).take ackPktMaxSize) = none := by
  apply deserialiseAckPacket_of_opcode
  change PacketT.error.code ≠ PacketT.ack.code
  decide

/-- An ERROR packet that comes instead of an ACK is dropped. -/
theorem readAck_error (c : TftpServerConnection) (p : ErrorPacket) :
    c.readAck ((serialiseErrorPacket p).take ackPktMaxSize) = c := by
  rw [readAck, deserialiseAckPacket_take_error]
  dsimp only
  rw [deserialiseErrorPacket_take]

/-- An ERROR packet that comes instead of DATA finishes the connection. -/
theorem readData_error (c : TftpServerConnection) (p : ErrorPacket) :
    c.readData (serialiseErrorPacket p) = .ok [] { c with finished := true } := by
  have hdata : deserialiseDataPacket (serialiseErrorPacket p) = none := by
    apply deserialiseDataPacket_of_opcode
    rw [byteAt_serialiseErrorPacket]
    decide
  rw [readData, hdata]
  dsimp only
  rw [deserialise_serialiseErrorPacket]

/-- An ERROR packet ends the session, with nothing sent and nothing left to send, if and only
if DATA was waited for. -/
theorem error_ends_iff (hwait : c.waitForRead = true) (hsize : c.blockSize = 512)
    (ht : c.timer ≠ .expired) (p : ErrorPacket) (hlen : (serialiseErrorPacket p).length ≤ 512) :
    (∃ l c', handleRead b c (.datagram (serialiseErrorPacket p)) = .ok l c' ∧
      c'.finished = true ∧ (∀ d, .send d ∉ l) ∧ c'.waitForWrite = false) ↔
      c.state = .waitForData ∨ c.finished = true := by
  have hnone : ∀ d d' : Bytes, Action.send d ∉ [Action.recv d'] := by simp
  have hquiet : c.waitForWrite = false := by
    rw [waitForWrite_eq, hwait]
    rfl
  by_cases hs : c.state = .waitForData
  · rw [handleRead_waitForData ht hs, hsize, List.take_of_length_le hlen, readData_error]
    refine iff_of_true ⟨_, _, rfl, rfl, fun d ↦ hnone d _, ?_⟩ (.inl hs)
    exact hquiet
  · have hs : c.state = .waitForAck := by
      simpa [waitForRead, hs] using hwait
    rw [handleRead_waitForAck ht hs, readAck_error]
    constructor
    · rintro ⟨l, c', h, hf, -⟩
      obtain ⟨-, rfl⟩ := Outcome.ok_inj.mp h
      exact .inr hf
    · rintro (h | h)
      · rw [hs] at h
        cases h
      · exact ⟨_, _, rfl, h, fun d ↦ hnone d _, hquiet⟩

/-- A WRITE connection that has sent ACK 0 ends on the shortest ERROR packet. -/
theorem error_ends_upload :
    ∃ l c', handleRead .release
        { type := .write, state := .waitForData, blockNumber := 1, timer := .armTimer 2 }
        (.datagram (serialiseErrorPacket {})) = .ok l c' ∧
      c'.finished = true ∧ (∀ d, .send d ∉ l) ∧ c'.waitForWrite = false :=
  (error_ends_iff rfl rfl (by decide) {} (by decide)).mpr (.inl rfl)

/-- A READ connection that has sent its OACK goes on waiting after the client's ERROR packet. -/
theorem error_ignored :
    ∃ l c c', Runs (step .release)
        (create { readable := some { bytes := [] } } { options := [(str "TIMEOUT", str "5")] })
        [.writable .sent] l c ∧
      c.waitForRead = true ∧ c.blockSize = 512 ∧ c.timer ≠ .expired ∧
      handleRead .release c (.datagram (serialiseErrorPacket { errorMsg := str "Stop" })) =
        .ok [.recv [0, 5, 0, 0]] c' ∧
      c'.finished = false ∧ c'.state = .waitForAck := by
  refine ⟨_, _, _, rfl, rfl, rfl, by decide, rfl, rfl, rfl⟩

end CppTftp.TftpServerConnection
