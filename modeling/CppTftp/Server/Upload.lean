import CppTftp.Server.Startup

/-!
# Uploads: what a WRITE connection writes and acknowledges

The block counter names the block to acknowledge while an ACK is to be sent, and the block
expected next while DATA is awaited. In both roles it counts the calls of the file writer.
-/

namespace CppTftp.TftpServerConnection

open Tftp Lib

/-! ### Reading the log -/

/-- The payload that an action hands to the file writer. -/
def payload? : Action → Option Bytes
  | .write data => some data
  | _ => none

/-- The payloads handed to the file writer, in order. -/
def writes (log : List Action) : List Bytes := log.filterMap payload?

/-- The number that an action acknowledges. -/
def ackNumber? : Action → Option UInt16
  | .send d => (deserialiseAckPacket d).map (·.blockNumber)
  | _ => none

/-- The numbers of the ACKs sent, in order. -/
def acksSent (log : List Action) : List UInt16 := log.filterMap ackNumber?

@[simp] theorem writes_nil : writes [] = [] := rfl

@[simp] theorem writes_append (log l : List Action) : writes (log ++ l) = writes log ++ writes l :=
  List.filterMap_append

@[simp] theorem writes_recv (d : Bytes) : writes [.recv d] = [] := rfl

@[simp] theorem writes_send (d : Bytes) : writes [.send d] = [] := rfl

@[simp] theorem writes_write (data : Bytes) : writes [.write data] = [data] := rfl

@[simp] theorem acksSent_nil : acksSent [] = [] := rfl

@[simp] theorem acksSent_append (log l : List Action) :
    acksSent (log ++ l) = acksSent log ++ acksSent l := List.filterMap_append

@[simp] theorem acksSent_recv (d : Bytes) : acksSent [.recv d] = [] := rfl

@[simp] theorem acksSent_write (data : Bytes) : acksSent [.write data] = [] := rfl

@[simp] theorem acksSent_sendAck (n : UInt16) :
    acksSent [.send (serialiseAckPacket { blockNumber := n })] = [n] := by
  simp [acksSent, ackNumber?, deserialise_serialiseAckPacket]

/-! ### The phases of an upload -/

/-- The last block written is to be acknowledged, for the first time or again. -/
structure Acking (log : List Action) (c : TftpServerConnection) : Prop where
  blockNumber : c.blockNumber = UInt16.ofNat (writes log).length
  noError : c.fileWriter.error = false
  last : ∀ last, (acksSent log).getLast? = some last →
    c.blockNumber = last ∨ c.blockNumber = last + 1

/-- The last block written was acknowledged and was not the final one; the next is awaited. -/
structure Expecting (log : List Action) (c : TftpServerConnection) : Prop where
  blockNumber : c.blockNumber = UInt16.ofNat ((writes log).length + 1)
  noError : c.fileWriter.error = false
  finalAck : c.finalAck = false
  last : ∀ last, (acksSent log).getLast? = some last → last = UInt16.ofNat (writes log).length

/-- What each state of a WRITE connection without an OACK means. -/
def UploadPhase (log : List Action) (c : TftpServerConnection) : Prop :=
  match c.state with
  | .sendAck => Acking log c
  | .waitForData => Expecting log c
  | .error => True
  | .sendOack | .sendData | .waitForAck => False

variable {log l : List Action} {c c' : TftpServerConnection} {b : Build} {e : Event}

private theorem upload_error (h : c.state = .error) : UploadPhase log c := by
  simp [UploadPhase, h]

private theorem upload_sendAck (h : c.state = .sendAck) : UploadPhase log c ↔ Acking log c := by
  rw [UploadPhase, h]

private theorem upload_waitForData (h : c.state = .waitForData) :
    UploadPhase log c ↔ Expecting log c := by
  rw [UploadPhase, h]

/-- Going back one number leads from the block expected to the block acknowledged. -/
theorem Expecting.repeatAck (h : Expecting log c) (n : UInt8) : Acking log
    { c with state := .sendAck, blockNumber := c.blockNumber - 1, timeoutCount := n } := by
  have hn : c.blockNumber - 1 = UInt16.ofNat (writes log).length := by
    rw [h.blockNumber, ofNat_succ_sub_one]
  refine ⟨hn, h.noError, ?_⟩
  intro last hlast
  left
  exact hn.trans (h.last last hlast).symm

private theorem Expecting.writeBlock {data : Bytes} (h : Expecting log c)
    (hm : WriteBlockMove c data c') : UploadPhase (log ++ [.write data]) c' := by
  cases hm with
  | failed => exact upload_error rfl
  | done write error =>
    refine (upload_sendAck rfl).mpr ⟨?_, error, ?_⟩
    · show c.blockNumber = UInt16.ofNat (writes (log ++ [.write data])).length
      rw [h.blockNumber, writes_append, writes_write, List.length_append, List.length_singleton]
    · intro last hl
      rw [acksSent_append, acksSent_write, List.append_nil] at hl
      right
      show c.blockNumber = last + 1
      rw [h.blockNumber, h.last last hl, ofNat_succ]

private theorem Expecting.readData {d : Bytes} (h : Expecting log c) (hs : c.state = .waitForData)
    (hm : ReadDataMove c d l c') : UploadPhase (log ++ l) c' := by
  cases hm with
  | repeated =>
    rw [List.append_nil]
    exact (upload_sendAck rfl).mpr (h.repeatAck 0)
  | block decoded number move =>
    have h' : Expecting log { c with timeoutCount := 0 } :=
      ⟨h.blockNumber, h.noError, h.finalAck, h.last⟩
    exact h'.writeBlock move
  | wrong => exact upload_error rfl
  | refused =>
    rw [List.append_nil]
    refine (upload_waitForData ?_).mpr ⟨h.blockNumber, h.noError, h.finalAck, h.last⟩
    exact hs
  | ignored =>
    rw [List.append_nil]
    exact (upload_waitForData hs).mpr h

/-- A write happens only for a DATA packet with the number expected, and carries its payload. -/
theorem Expecting.written {d data : Bytes} (h : Expecting log c)
    (hw : .write data ∈ (c.readData d).log) : (c.readData d).log = [.write data] ∧
      deserialiseDataPacket d =
        some { data, blockNumber := UInt16.ofNat ((writes log).length + 1) } := by
  unfold TftpServerConnection.readData at hw ⊢
  split at hw
  · next p hp =>
    dsimp only at hw ⊢
    split at hw
    · cases hw
    · split at hw
      · next hprev hn =>
        rw [log_writeBlock, List.mem_singleton, Action.write.injEq] at hw
        rw [if_neg hprev, if_pos hn, log_writeBlock, hp, hw, ← h.blockNumber, ← hn]
        exact ⟨rfl, rfl⟩
      · cases hw
  · split at hw
    · cases hw
    · cases hw

/-! ### One event -/

/-- Timers and the finished flag play no part in the phases. -/
theorem UploadPhase.update (h : UploadPhase log c) (t : Timer) (n : UInt8) (f : Bool) :
    UploadPhase log { c with timer := t, timeoutCount := n, finished := f } := by
  unfold UploadPhase at h ⊢
  dsimp only
  split at h
  · exact ⟨h.blockNumber, h.noError, h.last⟩
  · exact ⟨h.blockNumber, h.noError, h.finalAck, h.last⟩
  · trivial
  · exact h
  · exact h
  · exact h

private theorem UploadPhase.onTimeout (h : UploadPhase log c) (hm : TimeoutMove c c') :
    UploadPhase log c' := by
  cases hm with
  | gaveUp => exact h.update c.timer c.timeoutCount true
  | resendData few state =>
    rw [UploadPhase, state] at h
    exact h.elim
  | resendAck few state =>
    exact (upload_sendAck rfl).mpr (((upload_waitForData state).mp h).repeatAck _)
  | late => exact h.update c.timer (c.timeoutCount + 1) c.finished

/-- Receiving writes nothing. -/
@[simp] theorem writes_received (r : RecvResult) (d : Bytes) : writes (received r d) = [] := by
  cases r <;> rfl

/-- Receiving acknowledges nothing. -/
@[simp] theorem acksSent_received (r : RecvResult) (d : Bytes) :
    acksSent (received r d) = [] := by
  cases r <;> rfl

private theorem UploadPhase.handleRead {r : RecvResult} (h : UploadPhase log c)
    (hm : HandleReadMove c r l c') : UploadPhase (log ++ l) c' := by
  cases hm with
  | timeout expired move =>
    rw [List.append_nil]
    exact (h.update .disarmed c.timeoutCount c.finished).onTimeout move
  | ack timer state =>
    rw [UploadPhase, state] at h
    exact h.elim
  | @data d _ _ timer state recv read =>
    have hx := (upload_waitForData state).mp h
    have hx' : Expecting (log ++ received r d) c := by
      refine ⟨?_, hx.noError, hx.finalAck, ?_⟩
      · rw [writes_append, writes_received, List.append_nil]
        exact hx.blockNumber
      · rw [writes_append, writes_received, acksSent_append, acksSent_received, List.append_nil,
          List.append_nil]
        exact hx.last
    rw [← List.append_assoc]
    exact hx'.readData state (readDataMove read)
  | idle =>
    rw [List.append_nil]
    exact h

private theorem Acking.handleWriteAck {s : SendResult} (h : Acking log c) (hs : c.state = .sendAck)
    (hm : SendAckMove c s l c') : UploadPhase (log ++ l) c' := by
  have hacks : ∀ last, (acksSent (log ++
      [.send (serialiseAckPacket { blockNumber := c.blockNumber })])).getLast? = some last →
      last = c.blockNumber := by
    intro last hlast
    rw [acksSent_append, acksSent_sendAck, List.getLast?_concat] at hlast
    exact (Option.some.inj hlast).symm
  cases hm with
  | failed => exact upload_error rfl
  | blocked =>
    rw [List.append_nil]
    exact (upload_sendAck hs).mpr h
  | sentFinal =>
    refine (upload_sendAck ?_).mpr ⟨?_, h.noError, fun last hl ↦ .inl (hacks last hl).symm⟩
    · exact hs
    · rw [writes_append, writes_send, List.append_nil]
      exact h.blockNumber
  | sent final =>
    refine (upload_waitForData rfl).mpr ⟨?_, h.noError, final, ?_⟩
    · rw [writes_append, writes_send, List.append_nil, ofNat_succ, ← h.blockNumber]
      rfl
    · intro last hl
      rw [hacks last hl, writes_append, writes_send, List.append_nil]
      exact h.blockNumber

/-- No event leads out of the phases. -/
theorem UploadPhase.step (h : UploadPhase log c) (hs : step b c e = .ok l c') :
    UploadPhase (log ++ l) c' := by
  cases move_of_step hs with
  | read move => exact h.handleRead move
  | sendData state =>
    rw [UploadPhase, state] at h
    exact h.elim
  | sendAck state move => exact ((upload_sendAck state).mp h).handleWriteAck state move
  | sendOack state =>
    rw [UploadPhase, state] at h
    exact h.elim
  | sendError state move => exact upload_error (move.state_eq.trans state)
  | tick =>
    rw [List.append_nil]
    exact h.update c.timer.elapse c.timeoutCount c.finished
  | hangup =>
    rw [List.append_nil]
    exact h.update c.timer c.timeoutCount true

/-! ### What one event writes -/

/-- An event that wrote nothing: the end of the transfer is as near as it was. -/
structure WroteNothing (c : TftpServerConnection) (l : List Action) (c' : TftpServerConnection) :
    Prop where
  writes : writes l = []
  finalAck : c'.finalAck = c.finalAck
  error : c.state = .error → c'.state = .error

/-- An event that received `d`, a DATA packet with the number expected, and wrote its
payload, which is taken for the last one when it is shorter than a block. -/
structure WroteBlock (c : TftpServerConnection) (d : Bytes) (p : DataPacket) (l : List Action)
    (c' : TftpServerConnection) : Prop where
  state : c.state = .waitForData
  decoded : deserialiseDataPacket d = some p
  expected : p.blockNumber = c.blockNumber
  writes : writes l = [p.data]
  last : c'.state = .error ∧ c'.finalAck = c.finalAck ∨
    c'.finalAck = (c.finalAck || decide (p.data.length < c.blockSize))

private theorem WriteBlockMove.last {data : Bytes} (h : WriteBlockMove c data c') :
    c'.state = .error ∧ c'.finalAck = c.finalAck ∨
      c'.finalAck = (c.finalAck || decide (data.length < c.blockSize)) := by
  cases h with
  | failed => exact .inl ⟨rfl, rfl⟩
  | done => exact .inr rfl

private theorem ReadDataMove.wrote {d : Bytes} (h : ReadDataMove c d l c')
    (hs : c.state = .waitForData) : WroteNothing c l c' ∨ ∃ p, WroteBlock c d p l c' := by
  have hne : c.state ≠ .error := by
    rw [hs]
    exact nofun
  cases h with
  | repeated => exact .inl ⟨rfl, rfl, fun he ↦ absurd he hne⟩
  | block decoded number move => exact .inr ⟨_, hs, decoded, number, rfl, move.last⟩
  | wrong => exact .inl ⟨rfl, rfl, fun _ ↦ rfl⟩
  | refused => exact .inl ⟨rfl, rfl, id⟩
  | ignored => exact .inl ⟨rfl, rfl, id⟩

private theorem TimeoutMove.wroteNothing (h : TimeoutMove c c') : WroteNothing c [] c' := by
  cases h with
  | gaveUp => exact ⟨rfl, rfl, id⟩
  | resendData few state => exact ⟨rfl, rfl, fun he ↦ absurd (state.symm.trans he) nofun⟩
  | resendAck few state => exact ⟨rfl, rfl, fun he ↦ absurd (state.symm.trans he) nofun⟩
  | late => exact ⟨rfl, rfl, id⟩

private theorem SendAckMove.wroteNothing {s : SendResult} (h : SendAckMove c s l c')
    (hs : c.state = .sendAck) : WroteNothing c l c' := by
  cases h with
  | failed => exact ⟨rfl, rfl, fun _ ↦ rfl⟩
  | blocked => exact ⟨rfl, rfl, id⟩
  | sentFinal => exact ⟨rfl, rfl, id⟩
  | sent => exact ⟨rfl, rfl, fun he ↦ absurd (hs.symm.trans he) nofun⟩

private theorem SendErrorMove.wroteNothing {s : SendResult} (h : SendErrorMove c s l c') :
    WroteNothing c l c' := by
  cases h with
  | sent => exact ⟨rfl, rfl, id⟩
  | blocked => exact ⟨rfl, rfl, id⟩
  | failed => exact ⟨rfl, rfl, id⟩

private theorem HandleReadMove.wrote {r : RecvResult} (hm : HandleReadMove c r l c')
    (h : UploadPhase log c) : WroteNothing c l c' ∨
      ∃ d p, r = .datagram d ∧ WroteBlock c (d.take c.blockSize) p l c' := by
  cases hm with
  | timeout expired move =>
    have hw := move.wroteNothing
    exact .inl ⟨hw.writes, hw.finalAck, hw.error⟩
  | ack timer state =>
    rw [UploadPhase, state] at h
    exact h.elim
  | @data d l _ timer state recv read =>
    have hlog : writes (received r d ++ l) = writes l := by
      rw [writes_append, writes_received, List.nil_append]
    rcases (readDataMove read).wrote state with hw | ⟨p, hw⟩
    · exact .inl ⟨hlog.trans hw.writes, hw.finalAck, hw.error⟩
    · right
      cases r with
      | datagram d' =>
        cases recv
        exact ⟨d', p, rfl, hw.state, hw.decoded, hw.expected, hlog.trans hw.writes, hw.last⟩
      | wouldBlock =>
        cases recv
        cases hw.decoded
      | failed what => cases recv
  | idle => exact .inl ⟨rfl, rfl, id⟩

/-- What an event writes in an upload, and when that is taken for the last block. -/
theorem UploadPhase.wrote (h : UploadPhase log c)
    (hs : TftpServerConnection.step b c e = .ok l c') : WroteNothing c l c' ∨
      ∃ d p, e = .readable (.datagram d) ∧ WroteBlock c (d.take c.blockSize) p l c' := by
  cases move_of_step hs with
  | read move =>
    rcases move.wrote h with hw | ⟨d, p, rfl, hw⟩
    · exact .inl hw
    · exact .inr ⟨d, p, rfl, hw⟩
  | sendData state =>
    rw [UploadPhase, state] at h
    exact h.elim
  | sendAck state move => exact .inl (move.wroteNothing state)
  | sendOack state =>
    rw [UploadPhase, state] at h
    exact h.elim
  | sendError state move => exact .inl move.wroteNothing
  | tick => exact .inl ⟨rfl, rfl, id⟩
  | hangup => exact .inl ⟨rfl, rfl, id⟩

/-! ### The events of an undisturbed upload -/

/-- Sending an ACK that is not the final one. -/
theorem step_sendAck (b : Build) (hs : c.state = .sendAck) (hf : c.finalAck = false) :
    TftpServerConnection.step b c (.writable .sent) =
      .ok [.send (serialiseAckPacket { blockNumber := c.blockNumber })]
        ({ c with blockNumber := c.blockNumber + 1 }.waitWithTimer .waitForData) := by
  simp [TftpServerConnection.step, TftpServerConnection.handleWrite, hs,
    TftpServerConnection.handleWriteAck, hf]

/-- Sending the final ACK. -/
theorem step_sendFinalAck (b : Build) (hs : c.state = .sendAck) (hf : c.finalAck = true) :
    TftpServerConnection.step b c (.writable .sent) =
      .ok [.send (serialiseAckPacket { blockNumber := c.blockNumber })]
        { c with finished := true } := by
  simp [TftpServerConnection.step, TftpServerConnection.handleWrite, hs,
    TftpServerConnection.handleWriteAck, hf]

private theorem readData_expected {d : Bytes} {p : DataPacket} {fileWriter : TftpWriteFile}
    (hd : deserialiseDataPacket d = some p) (hn : p.blockNumber = c.blockNumber)
    (hw : c.fileWriter.write p.data = .ok fileWriter) (he : fileWriter.error = false) :
    c.readData d = .ok [.write p.data] { c with
      timeoutCount := 0, fileWriter, state := .sendAck
      finalAck := c.finalAck || decide (p.data.length < c.blockSize) } := by
  have hprev : ¬isPrevious p.blockNumber c.blockNumber = true := by
    rw [isPrevious_iff, hn]
    omega
  unfold TftpServerConnection.readData
  rw [hd]
  dsimp only
  rw [if_neg hprev, if_pos hn, TftpServerConnection.writeBlock]
  simp only [hw, he, Bool.false_eq_true, ↓reduceIte]
  split
  · next hlt => simp [hlt]
  · next hlt => simp [hlt]

/-- Receiving the block expected, before the timer runs out. -/
theorem step_expected (b : Build) {d : Bytes} {p : DataPacket} {fileWriter : TftpWriteFile}
    (hs : c.state = .waitForData) (ht : c.timer ≠ .expired)
    (hd : deserialiseDataPacket (d.take c.blockSize) = some p)
    (hn : p.blockNumber = c.blockNumber) (hw : c.fileWriter.write p.data = .ok fileWriter)
    (he : fileWriter.error = false) :
    TftpServerConnection.step b c (.readable (.datagram d)) =
      .ok [.recv (d.take c.blockSize), .write p.data] { c with
        timeoutCount := 0, fileWriter, state := .sendAck
        finalAck := c.finalAck || decide (p.data.length < c.blockSize) } := by
  have hread : TftpServerConnection.step b c (.readable (.datagram d)) =
      (c.readData (d.take c.blockSize)).after [.recv (d.take c.blockSize)] :=
    handleRead_waitForData ht hs d
  rw [hread, readData_expected hd hn hw he]
  rfl

/-! ### Every run -/

/-- The constructor establishes the phase when it accepts no option. -/
theorem uploadPhase_create {w : World} {request : RwPacket} (ht : request.type = .write)
    (ho : (create w request).oackPacket.options = []) : UploadPhase [] (create w request) := by
  cases ha : w.notAllowed with
  | some error =>
    apply upload_error
    simp [create, ha]
  | none =>
    rw [create_write ht ha] at ho ⊢
    generalize processOptions w request (blank .write) = c at ho ⊢
    unfold startWrite at ho ⊢
    dsimp only at ho ⊢
    by_cases hopen : (c.fileWriter.openFile w.writable request.mode).fd.isSome = true
    · rw [if_pos hopen] at ho ⊢
      have hopts : c.oackPacket.options = [] := ho
      rw [if_pos hopts]
      have herr := TftpWriteFile.error_openFile c.fileWriter w.writable request.mode
      refine (upload_sendAck rfl).mpr ⟨rfl, herr, ?_⟩
      intro last hlast
      cases hlast
    · rw [if_neg hopen]
      exact upload_error rfl

/-- The phase holds after every run. -/
theorem uploadPhase_runs {w : World} {request : RwPacket} {es : List Event}
    (ht : request.type = .write) (ho : (create w request).oackPacket.options = [])
    (hr : Runs (TftpServerConnection.step b) (create w request) es log c) : UploadPhase log c :=
  hr.invariant (uploadPhase_create ht ho) fun _ _ _ _ _ h hs ↦ h.step hs

/-- A call that writes a block takes it from a datagram with the number expected. -/
theorem UploadPhase.written {data : Bytes} (h : UploadPhase log c)
    (hw : .write data ∈ (TftpServerConnection.step b c e).log) :
    c.finalAck = false ∧
      ∃ d, (TftpServerConnection.step b c e).log = [.recv d, .write data] ∧
        deserialiseDataPacket d =
          some { data, blockNumber := UInt16.ofNat ((writes log).length + 1) } := by
  obtain ⟨r, rfl⟩ := readable_of_mem hw (by simp) (by simp)
  obtain ⟨hs, d, -, hlog, hmem⟩ := handleRead_wrote hw
  have hx := (upload_waitForData hs).mp h
  obtain ⟨hone, hdata⟩ := hx.written hmem
  refine ⟨hx.finalAck, d.take c.blockSize, ?_, hdata⟩
  exact hlog.trans (by rw [hone])

/-- An ACK that is sent counts the blocks written, all of them without an error. -/
theorem UploadPhase.acked {d : Bytes} {a : AckPacket} (h : UploadPhase log c)
    (hd : .send d ∈ (TftpServerConnection.step b c e).log)
    (ha : deserialiseAckPacket d = some a) :
    a.blockNumber = UInt16.ofNat (writes log).length ∧ c.fileWriter.error = false ∧
      ∀ last, (acksSent log).getLast? = some last →
        a.blockNumber = last ∨ a.blockNumber = last + 1 := by
  obtain ⟨s, rfl⟩ := writable_of_mem hd (by simp) (by simp)
  have hstate : c.state ≠ .sendData := by
    intro hs
    rw [UploadPhase, hs] at h
    exact h
  rcases handleWrite_sent hstate hd with ⟨hs, rfl⟩ | rfl | rfl
  · have hx := (upload_sendAck hs).mp h
    rw [deserialise_serialiseAckPacket] at ha
    cases ha
    exact ⟨hx.blockNumber, hx.noError, hx.last⟩
  · rw [deserialiseAckPacket_of_opcode (by simp [PacketT.code])] at ha
    cases ha
  · rw [deserialiseAckPacket_of_opcode (by simp [PacketT.code])] at ha
    cases ha

/-- Exactly-once, in-order writes. In every run of a WRITE connection that accepts no option,
and for every next event: the `k`-th write carries the payload of a DATA packet numbered
`k`, received by the same call, and none follows the final block; and an ACK carries the
number of the blocks written, none of them with an error, so that it repeats the last ACK
or is its successor. -/
theorem upload_exactly_once {w : World} {request : RwPacket} {es : List Event}
    (ht : request.type = .write) (ho : (create w request).oackPacket.options = [])
    (hr : Runs (step b) (create w request) es log c) (e : Event) :
    (∀ data, .write data ∈ (step b c e).log → c.finalAck = false ∧
      ∃ d, (step b c e).log = [.recv d, .write data] ∧ deserialiseDataPacket d =
        some { data, blockNumber := UInt16.ofNat ((writes log).length + 1) }) ∧
    ∀ d a, .send d ∈ (step b c e).log → deserialiseAckPacket d = some a →
      a.blockNumber = UInt16.ofNat (writes log).length ∧ c.fileWriter.error = false ∧
      ∀ last, (acksSent log).getLast? = some last →
        a.blockNumber = last ∨ a.blockNumber = last + 1 := by
  have h := uploadPhase_runs ht ho hr
  exact ⟨fun data ↦ h.written, fun d a ↦ h.acked⟩

/-- After one block of one byte the ACK that is sent has the number 1. -/
theorem upload_exactly_once_first : ∃ c,
    Runs (step .release) (create { writable := some {} } { type := .write })
      [.writable .sent, .readable (.datagram [0, 3, 0, 1, 7])]
      [.send (serialiseAckPacket { blockNumber := 0 }), .recv [0, 3, 0, 1, 7], .write [7]] c ∧
    ∀ d a, .send d ∈ (step .release c (.writable .sent)).log → deserialiseAckPacket d = some a →
      a.blockNumber = 1 := by
  refine Exists.imp (fun c hr ↦ ⟨hr, fun d a hd ha ↦ ?_⟩) ⟨_, rfl⟩
  have hack := (upload_exactly_once rfl (by decide) hr (.writable .sent)).2
  exact (hack d a hd ha).1

end CppTftp.TftpServerConnection
