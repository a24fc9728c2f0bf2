import CppTftp.Server.TftpServerConnection

/-!
# What one event can do

The branches in which each handler returns, with the tests that lead to them, what they do to
the outside and the connection that they leave. Whatever is shown of every event starts from
these.
-/

namespace CppTftp.TftpServerConnection

open Tftp Lib

variable {b : Build} {c c' : TftpServerConnection} {e : Event} {l : List Action}

/-- A call that returns after earlier actions returns the same state without them. -/
theorem ok_of_after {o : HandlerOutcome} {earlier l : List Action} {c : TftpServerConnection}
    (h : o.after earlier = .ok l c) : ∃ l', o = .ok l' c ∧ l = earlier ++ l' :=
  Outcome.after_eq_ok_iff.mp h

/-! ### The branches of `handle_read` -/

/-- Received bytes in WAIT_FOR_ACK. -/
inductive ReadAckMove (c : TftpServerConnection) (d : Bytes) : TftpServerConnection → Prop
  | repeated {p : AckPacket} (decoded : deserialiseAckPacket d = some p)
      (previous : isPrevious p.blockNumber c.blockNumber = true) :
      ReadAckMove c d { c with timeoutCount := 0, state := .sendData }
  | last {p : AckPacket} (decoded : deserialiseAckPacket d = some p)
      (number : p.blockNumber = c.blockNumber) (final : c.finalAck = true) :
      ReadAckMove c d { c with timeoutCount := 0, finished := true }
  | next {p : AckPacket} (decoded : deserialiseAckPacket d = some p)
      (number : p.blockNumber = c.blockNumber) (final : c.finalAck = false) :
      ReadAckMove c d { c with
        timeoutCount := 0, pktReady := false, state := .sendData
        blockNumber := c.blockNumber + 1 }
  | wrong {p : AckPacket} (decoded : deserialiseAckPacket d = some p)
      (other : isPrevious p.blockNumber c.blockNumber = false)
      (number : p.blockNumber ≠ c.blockNumber) :
      ReadAckMove c d { c with timeoutCount := 0, state := .error }
  | refused {p : ErrorPacket} (decoded : deserialiseAckPacket d = none)
      (error : deserialiseErrorPacket d = some p) : ReadAckMove c d { c with finished := true }
  | ignored (decoded : deserialiseAckPacket d = none)
      (error : deserialiseErrorPacket d = none) : ReadAckMove c d c

/-- A block that is written. -/
inductive WriteBlockMove (c : TftpServerConnection) (data : Bytes) : TftpServerConnection → Prop
  | failed {fileWriter : TftpWriteFile} (write : c.fileWriter.write data = .ok fileWriter)
      (error : fileWriter.error = true) :
      WriteBlockMove c data { c with fileWriter, errorPkt := internalError, state := .error }
  | done {fileWriter : TftpWriteFile} (write : c.fileWriter.write data = .ok fileWriter)
      (error : fileWriter.error = false) :
      WriteBlockMove c data { c with
        fileWriter, finalAck := c.finalAck || decide (data.length < c.blockSize)
        state := .sendAck }

/-- Received bytes in WAIT_FOR_DATA. -/
inductive ReadDataMove (c : TftpServerConnection) (d : Bytes) :
    List Action → TftpServerConnection → Prop
  | repeated {p : DataPacket} (decoded : deserialiseDataPacket d = some p)
      (previous : isPrevious p.blockNumber c.blockNumber = true) :
      ReadDataMove c d [] { c with
        timeoutCount := 0, blockNumber := c.blockNumber - 1, state := .sendAck }
  | block {p : DataPacket} {c' : TftpServerConnection}
      (decoded : deserialiseDataPacket d = some p) (number : p.blockNumber = c.blockNumber)
      (move : WriteBlockMove { c with timeoutCount := 0 } p.data c') :
      ReadDataMove c d [.write p.data] c'
  | wrong {p : DataPacket} (decoded : deserialiseDataPacket d = some p)
      (other : isPrevious p.blockNumber c.blockNumber = false)
      (number : p.blockNumber ≠ c.blockNumber) :
      ReadDataMove c d [] { c with timeoutCount := 0, state := .error }
  | refused {p : ErrorPacket} (decoded : deserialiseDataPacket d = none)
      (error : deserialiseErrorPacket d = some p) : ReadDataMove c d [] { c with finished := true }
  | ignored (decoded : deserialiseDataPacket d = none)
      (error : deserialiseErrorPacket d = none) : ReadDataMove c d [] c

/-- An expiration that has been read. -/
inductive TimeoutMove (c : TftpServerConnection) : TftpServerConnection → Prop
  | gaveUp (many : maxTimeouts ≤ c.timeoutCount) : TimeoutMove c { c with finished := true }
  | resendData (few : c.timeoutCount < maxTimeouts) (state : c.state = .waitForAck) :
      TimeoutMove c { c with timeoutCount := c.timeoutCount + 1, state := .sendData }
  | resendAck (few : c.timeoutCount < maxTimeouts) (state : c.state = .waitForData) :
      TimeoutMove c { c with
        timeoutCount := c.timeoutCount + 1, state := .sendAck, blockNumber := c.blockNumber - 1 }
  | late (few : c.timeoutCount < maxTimeouts) (busy : c.waitForRead = false) :
      TimeoutMove c { c with timeoutCount := c.timeoutCount + 1 }

/-- A call of `handle_read`. -/
inductive HandleReadMove (c : TftpServerConnection) (r : RecvResult) :
    List Action → TftpServerConnection → Prop
  | timeout {c' : TftpServerConnection} (expired : c.timer = .expired)
      (move : TimeoutMove { c with timer := .disarmed } c') : HandleReadMove c r [] c'
  | ack {d : Bytes} (timer : c.timer ≠ .expired) (state : c.state = .waitForAck)
      (recv : r.recv ackPktMaxSize = .ok d) : HandleReadMove c r (received r d) (c.readAck d)
  | data {d : Bytes} {l : List Action} {c' : TftpServerConnection} (timer : c.timer ≠ .expired)
      (state : c.state = .waitForData) (recv : r.recv c.blockSize = .ok d)
      (read : c.readData d = .ok l c') : HandleReadMove c r (received r d ++ l) c'
  | idle (timer : c.timer ≠ .expired) (busy : c.waitForRead = false) : HandleReadMove c r [] c

/-- `readAck` takes one of its branches. -/
theorem readAckMove (c : TftpServerConnection) (d : Bytes) : ReadAckMove c d (c.readAck d) := by
  unfold readAck
  split
  · next p hd =>
    dsimp only
    split
    · next hp => exact .repeated hd hp
    · next hp =>
      split
      · next hn =>
        split
        · next hf => exact .last hd hn hf
        · next hf => exact .next hd hn (Bool.eq_false_iff.mpr hf)
      · next hn => exact .wrong hd (Bool.eq_false_iff.mpr hp) hn
  · next hd =>
    split
    · next p he => exact .refused hd he
    · next he => exact .ignored hd he

/-- `writeBlock` takes one of its branches. -/
theorem writeBlockMove {data : Bytes} (h : c.writeBlock data = .ok l c') :
    l = [.write data] ∧ WriteBlockMove c data c' := by
  unfold writeBlock at h
  split at h
  · exact absurd h Outcome.stop_ne_ok
  · next fileWriter hw =>
    dsimp only at h
    split at h
    · next he =>
      obtain ⟨rfl, rfl⟩ := Outcome.ok_inj.mp h
      exact ⟨rfl, .failed hw he⟩
    · next he =>
      obtain ⟨rfl, rfl⟩ := Outcome.ok_inj.mp h
      have hmove := WriteBlockMove.done hw (Bool.eq_false_iff.mpr he)
      refine ⟨rfl, ?_⟩
      by_cases hlt : data.length < c.blockSize
      · rw [decide_eq_true hlt, Bool.or_true] at hmove
        rw [if_pos hlt]
        exact hmove
      · rw [decide_eq_false hlt, Bool.or_false] at hmove
        rw [if_neg hlt]
        exact hmove

/-- `readData` takes one of its branches. -/
theorem readDataMove {d : Bytes} (h : c.readData d = .ok l c') : ReadDataMove c d l c' := by
  unfold readData at h
  split at h
  · next p hd =>
    dsimp only at h
    split at h
    · next hp =>
      obtain ⟨rfl, rfl⟩ := Outcome.ok_inj.mp h
      exact .repeated hd hp
    · next hp =>
      split at h
      · next hn =>
        obtain ⟨rfl, hmove⟩ := writeBlockMove h
        exact .block hd hn hmove
      · next hn =>
        obtain ⟨rfl, rfl⟩ := Outcome.ok_inj.mp h
        exact .wrong hd (Bool.eq_false_iff.mpr hp) hn
  · next hd =>
    split at h
    · next p he =>
      obtain ⟨rfl, rfl⟩ := Outcome.ok_inj.mp h
      exact .refused hd he
    · next he =>
      obtain ⟨rfl, rfl⟩ := Outcome.ok_inj.mp h
      exact .ignored hd he

/-- `onTimeout` takes one of its branches. -/
theorem timeoutMove (h : onTimeout b c = .ok l c') : l = [] ∧ TimeoutMove c c' := by
  unfold onTimeout at h
  split at h
  · next hmany =>
    obtain ⟨rfl, rfl⟩ := Outcome.ok_inj.mp h
    exact ⟨rfl, .gaveUp hmany⟩
  · next hmany =>
    have hfew : c.timeoutCount < maxTimeouts := UInt8.not_le.mp hmany
    split at h
    · next c₁ hr =>
      obtain ⟨rfl, rfl⟩ := Outcome.ok_inj.mp h
      refine ⟨rfl, ?_⟩
      unfold retransmit at hr
      split at hr
      · next hs =>
        cases hr
        exact .resendData hfew hs
      · next hs =>
        cases hr
        exact .resendAck hfew hs
      · next hack hdata =>
        have hack : c.state ≠ .waitForAck := hack
        have hdata : c.state ≠ .waitForData := hdata
        split at hr
        · cases hr
        · cases hr
          exact .late hfew (by simp [waitForRead, hack, hdata])
    · exact absurd h Outcome.stop_ne_ok

/-- `handle_read` takes one of its branches. -/
theorem handleReadMove {r : RecvResult} (h : handleRead b c r = .ok l c') :
    HandleReadMove c r l c' := by
  unfold handleRead at h
  split at h
  · next ht =>
    have ht := (Timer.hasExpired_fst _).mp ht
    rw [ht] at h
    obtain ⟨rfl, hmove⟩ := timeoutMove h
    exact .timeout ht hmove
  · next ht =>
    rw [Timer.hasExpired_fst] at ht
    split at h
    · next hs =>
      split at h
      · exact absurd h Outcome.stop_ne_ok
      · next d hd =>
        obtain ⟨rfl, rfl⟩ := Outcome.ok_inj.mp h
        exact .ack ht hs hd
    · next hs =>
      split at h
      · exact absurd h Outcome.stop_ne_ok
      · next d hd =>
        obtain ⟨l', hread, rfl⟩ := ok_of_after h
        exact .data ht hs hd hread
    · next hack hdata =>
      have hack : c.state ≠ .waitForAck := hack
      have hdata : c.state ≠ .waitForData := hdata
      obtain ⟨rfl, rfl⟩ := Outcome.ok_inj.mp h
      exact .idle ht (by simp [waitForRead, hack, hdata])

/-! ### The branches of `handle_write` -/

/-- The cached packet is sent, or not. -/
inductive TransmitMove (c : TftpServerConnection) :
    SendResult → List Action → TftpServerConnection → Prop
  | sent : TransmitMove c .sent [.send (serialiseDataPacket c.dataPkt)]
      (c.waitWithTimer .waitForAck)
  | blocked : TransmitMove c .wouldBlock [] c
  | failed : TransmitMove c .failed [] { c with errorPkt := internalError, state := .error }

/-- The branch SEND_DATA. -/
inductive SendDataMove (c : TftpServerConnection) (s : SendResult) :
    List Action → TftpServerConnection → Prop
  | cached {l : List Action} {c' : TftpServerConnection} (ready : c.pktReady = true)
      (move : TransmitMove c s l c') : SendDataMove c s l c'
  | failed {data : Bytes} {fileReader : TftpReadFile} (ready : c.pktReady = false)
      (read : c.fileReader.readInTo c.blockSize = .ok (data, fileReader))
      (error : fileReader.error = true) :
      SendDataMove c s [.readInTo] { c with
        dataPkt := { c.dataPkt with data }, fileReader, errorPkt := internalError
        state := .error }
  | loaded {data : Bytes} {fileReader : TftpReadFile} {l : List Action}
      {c' : TftpServerConnection} (ready : c.pktReady = false)
      (read : c.fileReader.readInTo c.blockSize = .ok (data, fileReader))
      (error : fileReader.error = false)
      (move : TransmitMove { c with
        dataPkt := { data, blockNumber := c.blockNumber }, fileReader
        finalAck := c.finalAck || decide (data.length < c.blockSize), pktReady := true } s l c') :
      SendDataMove c s (.readInTo :: l) c'

/-- The branch SEND_ACK. -/
inductive SendAckMove (c : TftpServerConnection) :
    SendResult → List Action → TftpServerConnection → Prop
  | sentFinal (final : c.finalAck = true) :
      SendAckMove c .sent [.send (serialiseAckPacket { blockNumber := c.blockNumber })]
        { c with finished := true }
  | sent (final : c.finalAck = false) :
      SendAckMove c .sent [.send (serialiseAckPacket { blockNumber := c.blockNumber })]
        ({ c with blockNumber := c.blockNumber + 1 }.waitWithTimer .waitForData)
  | blocked : SendAckMove c .wouldBlock [] c
  | failed : SendAckMove c .failed [] { c with errorPkt := internalError, state := .error }

/-- The branch SEND_OACK. -/
inductive SendOackMove (c : TftpServerConnection) :
    SendResult → List Action → TftpServerConnection → Prop
  | sentRead (type : c.type = .read) :
      SendOackMove c .sent [.send (serialiseOackPacket c.oackPacket)]
        { c with state := .waitForAck }
  | sentWrite (type : c.type ≠ .read) :
      SendOackMove c .sent [.send (serialiseOackPacket c.oackPacket)]
        { c with state := .waitForData }
  | blocked : SendOackMove c .wouldBlock [] c
  | failed : SendOackMove c .failed [] { c with finished := true }

/-- The branch ERROR. -/
inductive SendErrorMove (c : TftpServerConnection) :
    SendResult → List Action → TftpServerConnection → Prop
  | sent : SendErrorMove c .sent [.send (serialiseErrorPacket c.errorPkt)]
      { c with finished := true }
  | blocked : SendErrorMove c .wouldBlock [] c
  | failed : SendErrorMove c .failed [] { c with finished := true }

/-- `transmitData` takes one of its branches. -/
theorem transmitMove {s : SendResult} (h : c.transmitData s = .ok l c') :
    TransmitMove c s l c' := by
  cases s with
  | sent =>
    obtain ⟨rfl, rfl⟩ := Outcome.ok_inj.mp h
    exact .sent
  | wouldBlock =>
    obtain ⟨rfl, rfl⟩ := Outcome.ok_inj.mp h
    exact .blocked
  | failed =>
    obtain ⟨rfl, rfl⟩ := Outcome.ok_inj.mp h
    exact .failed

/-- `handleWriteData` takes one of its branches. -/
theorem sendDataMove {s : SendResult} (h : c.handleWriteData s = .ok l c') :
    SendDataMove c s l c' := by
  unfold handleWriteData at h
  split at h
  · next hp => exact .cached hp (transmitMove h)
  · next hp =>
    have hp : c.pktReady = false := Bool.eq_false_iff.mpr hp
    split at h
    · exact absurd h Outcome.stop_ne_ok
    · next data fileReader hread =>
      dsimp only at h
      split at h
      · next he =>
        obtain ⟨rfl, rfl⟩ := Outcome.ok_inj.mp h
        exact .failed hp hread he
      · next he =>
        obtain ⟨l', hsend, rfl⟩ := ok_of_after h
        refine .loaded hp hread (Bool.eq_false_iff.mpr he) ?_
        -- only the length decides; the end of the file without a short block changes nothing
        by_cases hlt : data.length < c.blockSize
        · simp only [hlt, decide_true, Bool.true_or, ↓reduceIte] at hsend
          rw [decide_eq_true hlt, Bool.or_true]
          exact transmitMove hsend
        · simp only [hlt, ↓reduceIte, ite_self] at hsend
          rw [decide_eq_false hlt, Bool.or_false]
          exact transmitMove hsend

/-- `handleWriteAck` takes one of its branches. -/
theorem sendAckMove {s : SendResult} (h : c.handleWriteAck s = .ok l c') :
    SendAckMove c s l c' := by
  cases s with
  | sent =>
    unfold handleWriteAck at h
    dsimp only at h
    split at h
    · next hf =>
      obtain ⟨rfl, rfl⟩ := Outcome.ok_inj.mp h
      exact .sentFinal hf
    · next hf =>
      obtain ⟨rfl, rfl⟩ := Outcome.ok_inj.mp h
      exact .sent (Bool.eq_false_iff.mpr hf)
  | wouldBlock =>
    obtain ⟨rfl, rfl⟩ := Outcome.ok_inj.mp h
    exact .blocked
  | failed =>
    obtain ⟨rfl, rfl⟩ := Outcome.ok_inj.mp h
    exact .failed

/-- `handleWriteOack` takes one of its branches. -/
theorem sendOackMove {s : SendResult} (h : c.handleWriteOack s = .ok l c') :
    SendOackMove c s l c' := by
  cases s with
  | sent =>
    unfold handleWriteOack at h
    dsimp only at h
    split at h
    · next ht =>
      obtain ⟨rfl, rfl⟩ := Outcome.ok_inj.mp h
      exact .sentRead ht
    · next ht =>
      obtain ⟨rfl, rfl⟩ := Outcome.ok_inj.mp h
      exact .sentWrite ht
  | wouldBlock =>
    obtain ⟨rfl, rfl⟩ := Outcome.ok_inj.mp h
    exact .blocked
  | failed =>
    obtain ⟨rfl, rfl⟩ := Outcome.ok_inj.mp h
    exact .failed

/-- `handleWriteError` takes one of its branches. -/
theorem sendErrorMove {s : SendResult} (h : c.handleWriteError s = .ok l c') :
    SendErrorMove c s l c' := by
  cases s with
  | sent =>
    obtain ⟨rfl, rfl⟩ := Outcome.ok_inj.mp h
    exact .sent
  | wouldBlock =>
    obtain ⟨rfl, rfl⟩ := Outcome.ok_inj.mp h
    exact .blocked
  | failed =>
    obtain ⟨rfl, rfl⟩ := Outcome.ok_inj.mp h
    exact .failed

/-! ### Events -/

/-- An event whose call returns. -/
inductive Move (c : TftpServerConnection) : Event → List Action → TftpServerConnection → Prop
  | read {r : RecvResult} {l : List Action} {c' : TftpServerConnection}
      (move : HandleReadMove c r l c') : Move c (.readable r) l c'
  | sendData {s : SendResult} {l : List Action} {c' : TftpServerConnection}
      (state : c.state = .sendData) (move : SendDataMove c s l c') : Move c (.writable s) l c'
  | sendAck {s : SendResult} {l : List Action} {c' : TftpServerConnection}
      (state : c.state = .sendAck) (move : SendAckMove c s l c') : Move c (.writable s) l c'
  | sendOack {s : SendResult} {l : List Action} {c' : TftpServerConnection}
      (state : c.state = .sendOack) (move : SendOackMove c s l c') : Move c (.writable s) l c'
  | sendError {s : SendResult} {l : List Action} {c' : TftpServerConnection}
      (state : c.state = .error) (move : SendErrorMove c s l c') : Move c (.writable s) l c'
  | tick : Move c .tick [] { c with timer := c.timer.elapse }
  | hangup : Move c .hangup [] { c with finished := true }

/-- Every event whose call returns makes one of these moves. -/
theorem move_of_step (h : step b c e = .ok l c') : Move c e l c' := by
  cases e with
  | readable r => exact .read (handleReadMove h)
  | tick =>
    obtain ⟨rfl, rfl⟩ := Outcome.ok_inj.mp h
    exact .tick
  | hangup =>
    obtain ⟨rfl, rfl⟩ := Outcome.ok_inj.mp h
    exact .hangup
  | writable s =>
    have h : c.handleWrite s = .ok l c' := h
    unfold handleWrite at h
    split at h
    · next hs => exact .sendData hs (sendDataMove h)
    · next hs => exact .sendAck hs (sendAckMove h)
    · next hs => exact .sendOack hs (sendOackMove h)
    · next hs => exact .sendError hs (sendErrorMove h)
    · exact absurd h Outcome.stop_ne_ok
    · exact absurd h Outcome.stop_ne_ok

/-- An event whose call does not return, and why. -/
inductive Stops (b : Build) (c : TftpServerConnection) : Event → Stop → Prop
  | assertion {r : RecvResult} (debug : b = .debug) (expired : c.timer = .expired)
      (few : c.timeoutCount < maxTimeouts) (busy : c.waitForRead = false) :
      Stops b c (.readable r) .assertion
  | receiving {what : String} (timer : c.timer ≠ .expired) (waiting : c.waitForRead = true) :
      Stops b c (.readable (.failed what)) (.exception what)
  | writing {d : Bytes} {p : DataPacket} {stop : Stop} (timer : c.timer ≠ .expired)
      (state : c.state = .waitForData)
      (decoded : deserialiseDataPacket (d.take c.blockSize) = some p)
      (number : p.blockNumber = c.blockNumber)
      (write : c.fileWriter.write p.data = .error stop) : Stops b c (.readable (.datagram d)) stop
  | reading {s : SendResult} {stop : Stop} (state : c.state = .sendData)
      (ready : c.pktReady = false) (read : c.fileReader.readInTo c.blockSize = .error stop) :
      Stops b c (.writable s) stop
  | waiting {s : SendResult} (waiting : c.waitForRead = true) :
      Stops b c (.writable s) (.exception "Error state")

variable {stop : Stop}

private theorem assertion_of_onTimeout (h : (onTimeout b c).next = .error stop) :
    stop = .assertion ∧ b = .debug ∧ c.timeoutCount < maxTimeouts ∧ c.waitForRead = false := by
  unfold onTimeout at h
  split at h
  · cases h
  · next hmany =>
    split at h
    · cases h
    · next t hr =>
      cases h
      unfold retransmit at hr
      split at hr
      · cases hr
      · cases hr
      · next hack hdata =>
        have hack : c.state ≠ .waitForAck := hack
        have hdata : c.state ≠ .waitForData := hdata
        split at hr
        · cases hr
          exact ⟨rfl, rfl, UInt8.not_le.mp hmany, by simp [waitForRead, hack, hdata]⟩
        · cases hr

private theorem write_of_readData {d : Bytes} (h : (c.readData d).next = .error stop) :
    ∃ p, deserialiseDataPacket d = some p ∧ p.blockNumber = c.blockNumber ∧
      c.fileWriter.write p.data = .error stop := by
  unfold readData at h
  split at h
  · next p hd =>
    dsimp only at h
    split at h
    · cases h
    · split at h
      · next hn =>
        unfold writeBlock at h
        split at h
        · next hw =>
          cases h
          exact ⟨p, hd, hn, hw⟩
        · dsimp only at h
          split at h
          · cases h
          · cases h
      · cases h
  · split at h
    · cases h
    · cases h

private theorem stops_of_handleRead {r : RecvResult}
    (h : (handleRead b c r).next = .error stop) : Stops b c (.readable r) stop := by
  unfold handleRead at h
  split at h
  · next ht =>
    have ht := (Timer.hasExpired_fst _).mp ht
    obtain ⟨rfl, hb, hfew, hbusy⟩ := assertion_of_onTimeout h
    exact .assertion hb ht hfew hbusy
  · next ht =>
    rw [Timer.hasExpired_fst] at ht
    split at h
    · next hs =>
      cases r with
      | datagram d => cases h
      | wouldBlock => cases h
      | failed what =>
        cases h
        exact .receiving ht (by simp [waitForRead, hs])
    · next hs =>
      cases r with
      | datagram d =>
        obtain ⟨p, hd, hn, hw⟩ := write_of_readData h
        exact .writing ht hs hd hn hw
      | wouldBlock =>
        obtain ⟨p, hd, -⟩ := write_of_readData h
        cases hd
      | failed what =>
        cases h
        exact .receiving ht (by simp [waitForRead, hs])
    · cases h

private theorem stops_of_handleWriteData {s : SendResult} (hs : c.state = .sendData)
    (h : (c.handleWriteData s).next = .error stop) : Stops b c (.writable s) stop := by
  have htransmit : ∀ c : TftpServerConnection, (c.transmitData s).next ≠ .error stop := by
    intro c hx
    cases s <;> cases hx
  unfold handleWriteData at h
  split at h
  · exact absurd h (htransmit c)
  · next hp =>
    split at h
    · next hread =>
      cases h
      exact .reading hs (Bool.eq_false_iff.mpr hp) hread
    · dsimp only at h
      split at h
      · cases h
      · exact absurd h (htransmit _)

/-- Every event whose call does not return stops for one of these reasons. -/
theorem stops_of_step (h : (step b c e).next = .error stop) : Stops b c e stop := by
  cases e with
  | readable r => exact stops_of_handleRead h
  | tick => cases h
  | hangup => cases h
  | writable s =>
    have h : (c.handleWrite s).next = .error stop := h
    unfold handleWrite at h
    split at h
    · next hs => exact stops_of_handleWriteData hs h
    · cases s with
      | sent =>
        unfold handleWriteAck at h
        dsimp only at h
        split at h
        · cases h
        · cases h
      | wouldBlock => cases h
      | failed => cases h
    · cases s with
      | sent =>
        unfold handleWriteOack at h
        dsimp only at h
        split at h
        · cases h
        · cases h
      | wouldBlock => cases h
      | failed => cases h
    · cases s <;> cases h
    · next hs =>
      cases h
      exact .waiting (by simp [waitForRead, hs])
    · next hs =>
      cases h
      exact .waiting (by simp [waitForRead, hs])

end CppTftp.TftpServerConnection
