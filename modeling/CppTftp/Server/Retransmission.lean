import CppTftp.Server.Sender

/-!
# Downloads: a block that is sent again

A READ connection on a device that does not fail, call by call: a block is due, is sent and
is awaited, until its ACK or an expiration of the timer makes the next one due, or the same one
again.
-/

namespace CppTftp.TftpServerConnection

open Tftp Lib

/-- Block `k + 1` is to be sent, for the first time or again. -/
structure Due (size : Nat) (stream : Bytes) (k : Nat) (log : List Action)
    (c : TftpServerConnection) : Prop where
  packet : Fresh size stream k log c ∨ Cached size stream k log c
  state : c.state = .sendData
  blockSize : c.blockSize = size
  finished : c.finished = false
  timer : c.timer ≠ .expired
  timeoutS : 0 < c.timeoutS.toNat
  sound : c.fileReader.Sound

/-- Block `k + 1` was sent and its timer is running. -/
structure Awaited (size : Nat) (stream : Bytes) (k : Nat) (log : List Action)
    (c : TftpServerConnection) : Prop where
  waiting : Waiting size stream k log c
  state : c.state = .waitForAck
  blockSize : c.blockSize = size
  finished : c.finished = false
  timer : c.timer = .armed
  timeoutS : 0 < c.timeoutS.toNat
  sound : c.fileReader.Sound

variable {size k : Nat} {stream : Bytes} {log : List Action} {c : TftpServerConnection} {b : Build}

theorem Due.lt (h : Due size stream k log c) : k < blockCount size stream := by
  rcases h.packet with hf | hc
  · exact hf.lt
  · exact hc.lt

theorem Due.waitForWrite (h : Due size stream k log c) : c.waitForWrite = true := by
  simp [TftpServerConnection.waitForWrite, h.state]

theorem Awaited.waitForRead (h : Awaited size stream k log c) : c.waitForRead = true := by
  simp [TftpServerConnection.waitForRead, h.state]

/-- A cached packet goes out and its timer is started. -/
private theorem Cached.awaited (h : Cached size stream k log c) (hb : c.blockSize = size)
    (hf : c.finished = false) (ht : 0 < c.timeoutS.toNat) (hs : c.fileReader.Sound) :
    c.transmitData .sent =
        .ok [.send (dataFrame size stream (k + 1))] (c.waitWithTimer .waitForAck) ∧
      Awaited size stream k (log ++ [.send (dataFrame size stream (k + 1))])
        (c.waitWithTimer .waitForAck) := by
  obtain ⟨hsent, hwait⟩ := h.sent
  exact ⟨hsent, hwait, rfl, hb, hf, Timer.armTimer_of_pos ht, ht, hs⟩

/-- A block that is due is sent, after a read if it was not sent before. -/
theorem Due.send (h : Due size stream k log c) (hsize : 0 < size) : ∃ l c',
    step b c (.writable .sent) = .ok (l ++ [.send (dataFrame size stream (k + 1))]) c' ∧
      (∀ a ∈ l, a = .readInTo) ∧
      Awaited size stream k (log ++ (l ++ [.send (dataFrame size stream (k + 1))])) c' ∧
      c'.timeoutCount = c.timeoutCount := by
  have hstep : ∀ o, c.handleWriteData .sent = o → step b c (.writable .sent) = o := by
    intro o ho
    show c.handleWrite .sent = o
    rw [handleWrite, h.state]
    exact ho
  rcases h.packet with hf | hc
  · rcases hf.handleWriteData hsize h.blockSize .sent with ⟨_, -, -, hx⟩ | ⟨r, f, ho, hc, hr⟩
    · exact absurd h.sound hx
    · obtain ⟨hsent, hwait⟩ := hc.awaited h.blockSize h.finished h.timeoutS (hr h.sound)
      rw [hsent] at ho
      refine ⟨[.readInTo], _, hstep _ ho, fun a ha ↦ List.mem_singleton.mp ha, ?_, rfl⟩
      rw [← List.append_assoc]
      exact hwait
  · obtain ⟨hsent, hwait⟩ := hc.awaited h.blockSize h.finished h.timeoutS h.sound
    refine ⟨[], _, hstep _ ?_, fun a ha ↦ absurd ha List.not_mem_nil, hwait, rfl⟩
    rw [handleWriteData, if_pos hc.pktReady]
    exact hsent

/-- The timer fires, and the next call of `handle_read` makes the block due again. -/
theorem Awaited.expire (h : Awaited size stream k log c) (hcount : c.timeoutCount < maxTimeouts)
    (r : RecvResult) : ∃ c₁ c₂, step b c .tick = .ok [] c₁ ∧ c₁.waitForRead = true ∧
      c₁.finished = false ∧ step b c₁ (.readable r) = .ok [] c₂ ∧ Due size stream k log c₂ ∧
      c₂.timeoutCount = c.timeoutCount + 1 := by
  refine ⟨{ c with timer := .expired },
    { c with timer := .disarmed, timeoutCount := c.timeoutCount + 1, state := .sendData },
    ?_, h.waitForRead, h.finished, ?_, ?_, rfl⟩
  · show Outcome.ok [] { c with timer := c.timer.elapse } = _
    rw [h.timer]
    rfl
  · show handleRead b { c with timer := .expired } r = _
    rw [handleRead_expired rfl, onTimeout, if_neg (UInt8.not_le.mpr hcount)]
    simp [retransmit, h.state]
  · have hw := h.waiting
    exact ⟨.inr ⟨hw.blockNumber, hw.pktReady, hw.dataPkt, hw.finalAck, hw.reads, hw.lt, hw.reader,
      hw.acked, hw.inFlight⟩, rfl, h.blockSize, h.finished, Timer.noConfusion, h.timeoutS, h.sound⟩

/-- Any ACK is received whole while one is awaited. -/
private theorem Awaited.readable (h : Awaited size stream k log c) (n : Nat) :
    step b c (.readable (.datagram (ackOf n))) = .ok [.recv (ackOf n)] (c.readAck (ackOf n)) := by
  apply handleRead_waitForAck _ h.state
  rw [h.timer]
  exact Timer.noConfusion

private theorem deserialise_ackOf (n : Nat) :
    deserialiseAckPacket (ackOf n) = some { blockNumber := UInt16.ofNat n } :=
  deserialise_serialiseAckPacket _

/-- The ACK of a block that is not the last makes the next one due. -/
theorem Awaited.acknowledge (h : Awaited size stream k log c)
    (hlt : k + 1 < blockCount size stream) : ∃ c',
      step b c (.readable (.datagram (ackOf (k + 1)))) = .ok [.recv (ackOf (k + 1))] c' ∧
      Due size stream (k + 1) (log ++ [.recv (ackOf (k + 1))]) c' ∧ c'.timeoutCount = 0 := by
  have hn : UInt16.ofNat (k + 1) = c.blockNumber := h.waiting.blockNumber.symm
  have hack : ackOf (k + 1) = serialiseAckPacket { blockNumber := c.blockNumber } := by
    rw [← hn]
    rfl
  have hlast : c.finalAck = false := by
    rw [Bool.eq_false_iff, ne_eq, h.waiting.finalAck]
    omega
  refine ⟨{ c with
    timeoutCount := 0, pktReady := false, state := .sendData, blockNumber := c.blockNumber + 1 },
    ?_, ?_, rfl⟩
  · rw [h.readable, hack, readAck_own hlast]
  · refine ⟨.inl (h.waiting.advance (deserialise_ackOf _) hn hlt), rfl, h.blockSize, h.finished,
      ?_, h.timeoutS, h.sound⟩
    dsimp only
    rw [h.timer]
    exact Timer.noConfusion

/-- The ACK of the block before makes the block due again, except across the wrap. -/
theorem Awaited.previous (h : Awaited size stream k log c) (hk : (k + 1) % 65536 ≠ 0) : ∃ c',
    step b c (.readable (.datagram (ackOf k))) = .ok [.recv (ackOf k)] c' ∧
      Due size stream k (log ++ [.recv (ackOf k)]) c' ∧ c'.timeoutCount = 0 := by
  have hprevious : isPrevious (UInt16.ofNat k) c.blockNumber = true := by
    rw [isPrevious_iff, h.waiting.blockNumber, UInt16.toNat_ofNat', UInt16.toNat_ofNat']
    omega
  have hread : c.readAck (ackOf k) = { c with timeoutCount := 0, state := .sendData } := by
    simp [readAck, deserialise_ackOf, hprevious]
  have hphase := h.waiting.readAck h.state (readAckMove c (ackOf k))
  rw [hread] at hphase
  refine ⟨{ c with timeoutCount := 0, state := .sendData }, ?_, ?_, rfl⟩
  · rw [h.readable, hread]
  · refine ⟨.inr ?_, rfl, h.blockSize, h.finished, ?_, h.timeoutS, h.sound⟩
    · -- the packet stays cached, so the block is the one read last
      rcases (phase_sendData rfl).mp hphase with ⟨j, hj⟩ | ⟨j, hj⟩
      · exact absurd (hj.pktReady.symm.trans h.waiting.pktReady) Bool.false_ne_true
      · have hreads := hj.reads
        rw [readCount_recv, h.waiting.reads] at hreads
        obtain rfl : k = j := by omega
        exact hj
    · dsimp only
      rw [h.timer]
      exact Timer.noConfusion

/-- The ACK of any other block ends the transfer. -/
theorem Awaited.abort (h : Awaited size stream k log c) {n : Nat}
    (hn : n % 65536 ≠ (k + 1) % 65536) (hp : n % 65536 + 1 ≠ (k + 1) % 65536) : ∃ c',
    step b c (.readable (.datagram (ackOf n))) = .ok [.recv (ackOf n)] c' ∧ c'.state = .error := by
  have hne : UInt16.ofNat n ≠ c.blockNumber := by
    rw [h.waiting.blockNumber, ne_eq, ofNat_eq_ofNat_iff]
    exact hn
  have hprevious : isPrevious (UInt16.ofNat n) c.blockNumber = false := by
    rw [Bool.eq_false_iff, ne_eq, isPrevious_iff, h.waiting.blockNumber, UInt16.toNat_ofNat',
      UInt16.toNat_ofNat']
    exact hp
  refine ⟨{ c with timeoutCount := 0, state := .error }, ?_, rfl⟩
  rw [h.readable]
  simp [readAck, deserialise_ackOf, hprevious, hne]

/-- Without options a download starts with block 1 due. -/
theorem due_create {w : World} {request : RwPacket} {file : FileContents}
    (ht : request.type = .read) (ha : w.notAllowed = none) (hf : w.readable = some file)
    (hfail : file.failAt = none) (ho : request.options = []) :
    Due 512 (transferStream request.mode file.bytes) 0 [] (create w request) ∧
      (create w request).timeoutCount = 0 := by
  have h := inTurn_create ht ha hf hfail ho
  have hstart := started_create w request
  exact ⟨⟨.inl h.fresh, h.state, h.blockSize, h.finished, h.timer, hstart.timeoutS, h.sound⟩,
    hstart.timeoutCount⟩

end CppTftp.TftpServerConnection
