import CppTftp.Server.Moves

/-!
# What the handlers leave alone

The fields that no handler changes, the flag that none clears, and the actions that each
handler is limited to.
-/

namespace CppTftp.TftpServerConnection

open Tftp Lib

/-- The fields that no handler changes. -/
structure Fixed where
  type : PacketT
  blockSize : Nat
  timeoutS : UInt8
  oackPacket : OackPacket
  writerMode : Mode

/-- Their values in a connection. -/
def fixed (c : TftpServerConnection) : Fixed :=
  ⟨c.type, c.blockSize, c.timeoutS, c.oackPacket, c.fileWriter.mode⟩

/-- Nothing fixed changed, the finished flag at most went up, and SEND_OACK was not entered. -/
structure Kept (c c' : TftpServerConnection) : Prop where
  fixed : c'.fixed = c.fixed
  finished : c.finished = true → c'.finished = true
  offer : c'.state = .sendOack → c.state = .sendOack

namespace Kept

variable {c c' c'' : TftpServerConnection}

theorem refl (c : TftpServerConnection) : Kept c c := ⟨rfl, id, id⟩

theorem trans (h : Kept c c') (h' : Kept c' c'') : Kept c c'' :=
  ⟨h'.fixed.trans h.fixed, fun hf ↦ h'.finished (h.finished hf), fun ho ↦ h.offer (h'.offer ho)⟩

/-- What is not finished was not finished before. -/
theorem unfinished (h : Kept c c') (hf : c'.finished = false) : c.finished = false :=
  Bool.eq_false_iff.mpr fun hfin ↦ Bool.false_ne_true (hf.symm.trans (h.finished hfin))

theorem type (h : Kept c c') : c'.type = c.type := congrArg Fixed.type h.fixed

theorem blockSize (h : Kept c c') : c'.blockSize = c.blockSize := congrArg Fixed.blockSize h.fixed

theorem timeoutS (h : Kept c c') : c'.timeoutS = c.timeoutS := congrArg Fixed.timeoutS h.fixed

theorem oackPacket (h : Kept c c') : c'.oackPacket = c.oackPacket :=
  congrArg Fixed.oackPacket h.fixed

theorem writerMode (h : Kept c c') : c'.fileWriter.mode = c.fileWriter.mode :=
  congrArg Fixed.writerMode h.fixed

end Kept

/-- A number is the previous one where adding one does not wrap. -/
theorem isPrevious_iff (a b : UInt16) : isPrevious a b = true ↔ a.toNat + 1 = b.toNat := by
  simp only [isPrevious, beq_iff_eq]
  omega

/-! ### Move by move -/

variable {c c' : TftpServerConnection} {l : List Action}

private theorem kept_finish (c : TftpServerConnection) : Kept c { c with finished := true } :=
  ⟨rfl, fun _ ↦ rfl, id⟩

private theorem ReadAckMove.kept {d : Bytes} (h : ReadAckMove c d c') : Kept c c' := by
  cases h with
  | repeated => exact ⟨rfl, id, nofun⟩
  | last => exact ⟨rfl, fun _ ↦ rfl, id⟩
  | next => exact ⟨rfl, id, nofun⟩
  | wrong => exact ⟨rfl, id, nofun⟩
  | refused => exact kept_finish c
  | ignored => exact Kept.refl c

private theorem WriteBlockMove.kept {data : Bytes} (h : WriteBlockMove c data c') : Kept c c' := by
  cases h with
  | failed write error =>
    have hm := (TftpWriteFile.mode_write write).1
    exact ⟨by rw [fixed, hm]; rfl, id, nofun⟩
  | done write error =>
    have hm := (TftpWriteFile.mode_write write).1
    exact ⟨by rw [fixed, hm]; rfl, id, nofun⟩

private theorem ReadDataMove.kept {d : Bytes} (h : ReadDataMove c d l c') : Kept c c' := by
  cases h with
  | repeated => exact ⟨rfl, id, nofun⟩
  | block decoded number move =>
    refine Kept.trans ?_ move.kept
    exact ⟨rfl, id, id⟩
  | wrong => exact ⟨rfl, id, nofun⟩
  | refused => exact kept_finish c
  | ignored => exact Kept.refl c

private theorem TimeoutMove.kept (h : TimeoutMove c c') : Kept c c' := by
  cases h with
  | gaveUp => exact kept_finish c
  | resendData => exact ⟨rfl, id, nofun⟩
  | resendAck => exact ⟨rfl, id, nofun⟩
  | late => exact ⟨rfl, id, id⟩

private theorem HandleReadMove.kept {r : RecvResult} (h : HandleReadMove c r l c') : Kept c c' := by
  cases h with
  | timeout expired move =>
    refine Kept.trans ?_ move.kept
    exact ⟨rfl, id, id⟩
  | @ack d => exact (readAckMove c d).kept
  | data timer state recv read => exact (readDataMove read).kept
  | idle => exact Kept.refl c

private theorem TransmitMove.kept {s : SendResult} (h : TransmitMove c s l c') : Kept c c' := by
  cases h with
  | sent => exact ⟨rfl, id, nofun⟩
  | blocked => exact Kept.refl c
  | failed => exact ⟨rfl, id, nofun⟩

private theorem SendDataMove.kept {s : SendResult} (h : SendDataMove c s l c') : Kept c c' := by
  cases h with
  | cached ready move => exact move.kept
  | failed => exact ⟨rfl, id, nofun⟩
  | loaded ready read error move =>
    refine Kept.trans ?_ move.kept
    exact ⟨rfl, id, id⟩

private theorem SendAckMove.kept {s : SendResult} (h : SendAckMove c s l c') : Kept c c' := by
  cases h with
  | sentFinal => exact kept_finish c
  | sent => exact ⟨rfl, id, nofun⟩
  | blocked => exact Kept.refl c
  | failed => exact ⟨rfl, id, nofun⟩

private theorem SendOackMove.kept {s : SendResult} (h : SendOackMove c s l c') : Kept c c' := by
  cases h with
  | sentRead => exact ⟨rfl, id, nofun⟩
  | sentWrite => exact ⟨rfl, id, nofun⟩
  | blocked => exact Kept.refl c
  | failed => exact kept_finish c

private theorem SendErrorMove.kept {s : SendResult} (h : SendErrorMove c s l c') :
    Kept c c' := by
  cases h with
  | sent => exact kept_finish c
  | blocked => exact Kept.refl c
  | failed => exact kept_finish c

/-- No event changes what the constructor fixed. -/
theorem kept_step {b : Build} {e : Event} (h : step b c e = .ok l c') : Kept c c' := by
  cases move_of_step h with
  | read move => exact move.kept
  | sendData state move => exact move.kept
  | sendAck state move => exact move.kept
  | sendOack state move => exact move.kept
  | sendError state move => exact move.kept
  | tick => exact ⟨rfl, id, id⟩
  | hangup => exact kept_finish c

/-- No run changes what the constructor fixed. -/
theorem kept_runs {b : Build} {es : List Event} {log : List Action}
    (h : Runs (step b) c es log c') : Kept c c' :=
  h.stateInvariant (Kept.refl c) fun _ _ _ _ hk hs ↦ hk.trans (kept_step hs)

/-! ### The branches of `handle_read` -/

section Branches

variable {b : Build} {c : TftpServerConnection}

/-- An expiration is handled first, in any state. -/
theorem handleRead_expired (ht : c.timer = .expired) (r : RecvResult) :
    handleRead b c r = onTimeout b { c with timer := .disarmed } := by
  rw [handleRead, if_pos ((Timer.hasExpired_fst _).mpr ht), ht]
  rfl

/-- A datagram is cut to the length of an ACK while one is awaited. -/
theorem handleRead_waitForAck (ht : c.timer ≠ .expired) (hs : c.state = .waitForAck) (d : Bytes) :
    handleRead b c (.datagram d) =
      .ok [.recv (d.take ackPktMaxSize)] (c.readAck (d.take ackPktMaxSize)) := by
  rw [handleRead, if_neg (mt (Timer.hasExpired_fst _).mp ht), hs]
  rfl

/-- A datagram is cut to the block size while DATA is awaited. -/
theorem handleRead_waitForData (ht : c.timer ≠ .expired) (hs : c.state = .waitForData)
    (d : Bytes) : handleRead b c (.datagram d) =
      (c.readData (d.take c.blockSize)).after [.recv (d.take c.blockSize)] := by
  rw [handleRead, if_neg (mt (Timer.hasExpired_fst _).mp ht), hs]
  rfl

end Branches

/-! ### What the handlers do to the outside -/

/-- An expiration does nothing to the outside. -/
theorem log_onTimeout (b : Build) (c : TftpServerConnection) : (onTimeout b c).log = [] := by
  unfold onTimeout
  split
  · rfl
  · split <;> rfl

/-- Writing a block is one call of the file writer, also where that call throws. -/
theorem log_writeBlock (c : TftpServerConnection) (data : Bytes) :
    (c.writeBlock data).log = [.write data] := by
  unfold writeBlock
  split
  · rfl
  · dsimp only
    split <;> rfl

/-- Received data lead to no action but a write. -/
theorem log_readData (c : TftpServerConnection) (recvData : Bytes) :
    (c.readData recvData).log = [] ∨ ∃ data, (c.readData recvData).log = [.write data] := by
  unfold readData
  split
  · dsimp only
    split
    · exact .inl rfl
    · split
      · exact .inr ⟨_, log_writeBlock _ _⟩
      · exact .inl rfl
  · split <;> exact .inl rfl

/-- `handle_read` only receives and writes. -/
theorem mem_log_handleRead {b : Build} {c : TftpServerConnection} {r : RecvResult} {a : Action}
    (h : a ∈ (handleRead b c r).log) : (∃ d, a = .recv d) ∨ ∃ d, a = .write d := by
  have hrecv : ∀ recvData, a ∈ received r recvData → ∃ d, a = .recv d := by
    intro recvData ha
    cases r with
    | datagram d => exact ⟨recvData, List.mem_singleton.mp ha⟩
    | wouldBlock => cases ha
    | failed what => cases ha
  unfold handleRead at h
  split at h
  · rw [log_onTimeout] at h
    cases h
  · split at h
    · split at h
      · cases h
      · exact .inl (hrecv _ h)
    · split at h
      · cases h
      · next recvData _ =>
        rw [Outcome.log_after, List.mem_append] at h
        rcases h with h | h
        · exact .inl (hrecv _ h)
        · rcases log_readData c recvData with hl | ⟨data, hl⟩
          · rw [hl] at h
            cases h
          · rw [hl] at h
            exact .inr ⟨data, List.mem_singleton.mp h⟩
    · cases h

/-- What was received was received in a waiting state. -/
theorem handleRead_received {b : Build} {c c' : TftpServerConnection} {r : RecvResult}
    {l : List Action} {d : Bytes} (h : handleRead b c r = .ok l c') (hd : .recv d ∈ l) :
    c.state = .waitForAck ∧ c' = c.readAck d ∨ c.state = .waitForData := by
  cases handleReadMove h with
  | timeout => cases hd
  | ack timer state recv =>
    cases r with
    | datagram data =>
      cases recv
      rw [received_datagram, List.mem_singleton, Action.recv.injEq] at hd
      exact .inl ⟨state, by rw [hd]⟩
    | wouldBlock => cases hd
    | failed what => cases recv
  | data timer state => exact .inr state
  | idle => cases hd

/-- What was written was received by the same call. -/
theorem handleRead_wrote {b : Build} {c : TftpServerConnection} {r : RecvResult} {data : Bytes}
    (h : .write data ∈ (handleRead b c r).log) : c.state = .waitForData ∧ ∃ d, r = .datagram d ∧
      (handleRead b c r).log =
        .recv (d.take c.blockSize) :: (c.readData (d.take c.blockSize)).log ∧
      .write data ∈ (c.readData (d.take c.blockSize)).log := by
  unfold handleRead at h ⊢
  split at h
  · rw [log_onTimeout] at h
    cases h
  · next ht =>
    rw [if_neg ht]
    split at h
    · cases r with
      | datagram d => simp at h
      | wouldBlock => cases h
      | failed what => cases h
    · next hs =>
      cases r with
      | datagram d =>
        simp only [recv_datagram, Outcome.log_after, received_datagram, List.singleton_append,
          List.mem_cons, reduceCtorEq, false_or] at h
        exact ⟨hs, d, rfl, rfl, h⟩
      | wouldBlock => cases h
      | failed what => cases h
    · cases h

private theorem mem_log_transmitData {c : TftpServerConnection} {s : SendResult} {a : Action}
    (h : a ∈ (c.transmitData s).log) : ∃ d, a = .send d := by
  cases s with
  | sent => exact ⟨_, List.mem_singleton.mp h⟩
  | wouldBlock => cases h
  | failed => cases h

private theorem mem_log_handleWriteData {c : TftpServerConnection} {s : SendResult} {a : Action}
    (h : a ∈ (c.handleWriteData s).log) : (∃ d, a = .send d) ∨ a = .readInTo := by
  unfold handleWriteData at h
  split at h
  · exact .inl (mem_log_transmitData h)
  · split at h
    · exact .inr (List.mem_singleton.mp h)
    · dsimp only at h
      split at h
      · exact .inr (List.mem_singleton.mp h)
      · rw [Outcome.log_after, List.mem_append] at h
        rcases h with h | h
        · exact .inr (List.mem_singleton.mp h)
        · exact .inl (mem_log_transmitData h)

/-- The branch SEND_ACK sends at most the ACK for the block counter. -/
theorem log_handleWriteAck (c : TftpServerConnection) (s : SendResult) :
    (c.handleWriteAck s).log = [] ∨
      (c.handleWriteAck s).log = [.send (serialiseAckPacket { blockNumber := c.blockNumber })] := by
  cases s with
  | sent =>
    right
    unfold handleWriteAck
    dsimp only
    split <;> rfl
  | wouldBlock => exact .inl rfl
  | failed => exact .inl rfl

/-- The branch SEND_OACK sends at most the OACK. -/
theorem log_handleWriteOack (c : TftpServerConnection) (s : SendResult) :
    (c.handleWriteOack s).log = [] ∨
      (c.handleWriteOack s).log = [.send (serialiseOackPacket c.oackPacket)] := by
  cases s with
  | sent =>
    right
    unfold handleWriteOack
    dsimp only
    split <;> rfl
  | wouldBlock => exact .inl rfl
  | failed => exact .inl rfl

/-- The branch ERROR sends at most the error packet. -/
theorem log_handleWriteError (c : TftpServerConnection) (s : SendResult) :
    (c.handleWriteError s).log = [] ∨
      (c.handleWriteError s).log = [.send (serialiseErrorPacket c.errorPkt)] := by
  cases s with
  | sent => exact .inr rfl
  | wouldBlock => exact .inl rfl
  | failed => exact .inl rfl

private theorem mem_of_nil_or_singleton {l : List Action} {a : Action} {d : Bytes}
    (hl : l = [] ∨ l = [.send d]) (h : a ∈ l) : a = .send d := by
  rcases hl with rfl | rfl
  · cases h
  · exact List.mem_singleton.mp h

/-- `handle_write` only sends and reads the file. -/
theorem mem_log_handleWrite {c : TftpServerConnection} {s : SendResult} {a : Action}
    (h : a ∈ (c.handleWrite s).log) : (∃ d, a = .send d) ∨ a = .readInTo := by
  unfold handleWrite at h
  split at h
  · exact mem_log_handleWriteData h
  · exact .inl ⟨_, mem_of_nil_or_singleton (log_handleWriteAck c s) h⟩
  · exact .inl ⟨_, mem_of_nil_or_singleton (log_handleWriteOack c s) h⟩
  · exact .inl ⟨_, mem_of_nil_or_singleton (log_handleWriteError c s) h⟩
  · cases h
  · cases h

/-- What is neither sent nor read from the file is done by `handle_read`. -/
theorem readable_of_mem {b : Build} {c : TftpServerConnection} {e : Event} {a : Action}
    (h : a ∈ (step b c e).log) (hs : ∀ d, a ≠ .send d) (hr : a ≠ .readInTo) :
    ∃ r, e = .readable r := by
  cases e with
  | readable r => exact ⟨r, rfl⟩
  | writable s =>
    rcases mem_log_handleWrite h with ⟨d, hd⟩ | hd
    · exact absurd hd (hs d)
    · exact absurd hd hr
  | tick => cases h
  | hangup => cases h

/-- What is neither received nor written to the file is done by `handle_write`. -/
theorem writable_of_mem {b : Build} {c : TftpServerConnection} {e : Event} {a : Action}
    (h : a ∈ (step b c e).log) (hr : ∀ d, a ≠ .recv d) (hw : ∀ d, a ≠ .write d) :
    ∃ s, e = .writable s := by
  cases e with
  | writable s => exact ⟨s, rfl⟩
  | readable r =>
    rcases mem_log_handleRead h with ⟨d, hd⟩ | ⟨d, hd⟩
    · exact absurd hd (hr d)
    · exact absurd hd (hw d)
  | tick => cases h
  | hangup => cases h

/-- What is sent outside SEND_DATA is the ACK, the OACK or the error packet. -/
theorem handleWrite_sent {c : TftpServerConnection} {s : SendResult} {d : Bytes}
    (hs : c.state ≠ .sendData) (h : .send d ∈ (c.handleWrite s).log) :
    c.state = .sendAck ∧ d = serialiseAckPacket { blockNumber := c.blockNumber } ∨
      d = serialiseOackPacket c.oackPacket ∨ d = serialiseErrorPacket c.errorPkt := by
  unfold handleWrite at h
  split at h
  · next hst => exact absurd hst hs
  · next hst =>
    have ha := mem_of_nil_or_singleton (log_handleWriteAck c s) h
    exact .inl ⟨hst, Action.send.inj ha⟩
  · have ha := mem_of_nil_or_singleton (log_handleWriteOack c s) h
    exact .inr (.inl (Action.send.inj ha))
  · have ha := mem_of_nil_or_singleton (log_handleWriteError c s) h
    exact .inr (.inr (Action.send.inj ha))
  · cases h
  · cases h

/-- The branch ERROR is left only by finishing. -/
theorem SendErrorMove.state_eq {s : SendResult} (h : SendErrorMove c s l c') :
    c'.state = c.state := by
  cases h <;> rfl

/-- The same of the function. -/
theorem state_handleWriteError {c c' : TftpServerConnection} {s : SendResult} {l : List Action}
    (h : c.handleWriteError s = .ok l c') : c'.state = c.state :=
  (sendErrorMove h).state_eq

/-! ### What leaves the file reader alone -/

private theorem ReadAckMove.fileReader {d : Bytes} (h : ReadAckMove c d c') :
    c'.fileReader = c.fileReader := by
  cases h <;> rfl

theorem WriteBlockMove.fileReader {data : Bytes} (h : WriteBlockMove c data c') :
    c'.fileReader = c.fileReader := by
  cases h <;> rfl

private theorem ReadDataMove.fileReader {d : Bytes} (h : ReadDataMove c d l c') :
    c'.fileReader = c.fileReader := by
  cases h with
  | repeated => rfl
  | block decoded number move => exact move.fileReader
  | wrong => rfl
  | refused => rfl
  | ignored => rfl

private theorem TimeoutMove.fileReader (h : TimeoutMove c c') : c'.fileReader = c.fileReader := by
  cases h <;> rfl

theorem TransmitMove.fileReader {s : SendResult} (h : TransmitMove c s l c') :
    c'.fileReader = c.fileReader := by
  cases h <;> rfl

/-- A datagram that is received does not touch the file. -/
theorem fileReader_readAck (c : TftpServerConnection) (d : Bytes) :
    (c.readAck d).fileReader = c.fileReader :=
  (readAckMove c d).fileReader

/-- What is received, and when, does not touch the file. -/
theorem HandleReadMove.fileReader {r : RecvResult} (h : HandleReadMove c r l c') :
    c'.fileReader = c.fileReader := by
  cases h with
  | timeout expired move => exact move.fileReader
  | ack => exact fileReader_readAck c _
  | data timer state recv read => exact (readDataMove read).fileReader
  | idle => rfl

/-! ### The final ACK -/

/-- An ACK finishes a connection only when it is for the block waited for, the last one. -/
theorem finalAck_of_readAck {c : TftpServerConnection} {d : Bytes} {a : AckPacket}
    (ha : deserialiseAckPacket d = some a) (hf : c.finished = false)
    (hf' : (c.readAck d).finished = true) :
    c.finalAck = true ∧ a.blockNumber = c.blockNumber := by
  have hmove := readAckMove c d
  generalize c.readAck d = c' at hmove hf'
  cases hmove with
  | last decoded number final =>
    obtain rfl := Option.some.inj (ha.symm.trans decoded)
    exact ⟨final, number⟩
  | refused decoded error =>
    rw [decoded] at ha
    cases ha
  | repeated => simp [hf] at hf'
  | next => simp [hf] at hf'
  | wrong => simp [hf] at hf'
  | ignored => simp [hf] at hf'

/-! ### States with a packet to send -/

/-- A connection waits to read or to write, and never for both. -/
theorem waitForWrite_eq (c : TftpServerConnection) : c.waitForWrite = !c.waitForRead := by
  cases h : c.state <;> simp [waitForWrite, waitForRead, h]

/-- Nothing that `handle_read` does to a connection with a packet to send changes its state. -/
theorem state_handleRead_of_waitForWrite {b : Build} {c c' : TftpServerConnection}
    {r : RecvResult} {l : List Action} (hw : c.waitForWrite = true)
    (h : handleRead b c r = .ok l c') : c'.state = c.state := by
  cases handleReadMove h with
  | timeout expired move =>
    cases move with
    | gaveUp => rfl
    | resendData few state => simp [waitForWrite, show c.state = .waitForAck from state] at hw
    | resendAck few state => simp [waitForWrite, show c.state = .waitForData from state] at hw
    | late => rfl
  | ack timer state => simp [waitForWrite, state] at hw
  | data timer state => simp [waitForWrite, state] at hw
  | idle => rfl

end CppTftp.TftpServerConnection
