import CppTftp.Common.WriteFaults
import CppTftp.Server.Upload
import CppTftp.Server.Waiting

/-!
# What a final ACK says about the file

The handlers ask the stream for an error after every write, which shows what stdio has reported
so far. The file is closed by a destructor, after the final ACK, and what `fclose` returns
is dropped.
-/

namespace CppTftp.TftpServerConnection

open Tftp Lib

variable {b : Build} {c c' : TftpServerConnection} {e : Event} {l log : List Action}

/-! ### One event of an upload -/

/-- The next packet is the final ACK, or the answer to a write that failed. -/
def Answering (c : TftpServerConnection) : Prop :=
  c.state = .sendAck ∧ c.finalAck = true ∨ c.state = .error ∧ c.errorPkt = internalError

/-- `d` is received as the block expected, with the packet `p`. -/
structure Accepts (c : TftpServerConnection) (d : Bytes) (p : DataPacket) : Prop where
  timer : c.timer ≠ .expired
  state : c.state = .waitForData
  decoded : deserialiseDataPacket (d.take c.blockSize) = some p
  expected : p.blockNumber = c.blockNumber

/-- An event that has nothing to do with the file. -/
structure Untouched (c c' : TftpServerConnection) : Prop where
  fileWriter : c'.fileWriter = c.fileWriter
  uploading : c'.Uploading → c.Uploading
  side : c'.Uploading ∨ c'.state = .error
  answering : c.Answering → c'.Answering

private theorem Untouched.of_same (hside : c.Uploading ∨ c.state = .error)
    (hstate : c'.state = c.state) (htype : c'.type = c.type) (hfinal : c'.finalAck = c.finalAck)
    (herror : c'.errorPkt = c.errorPkt) (hwriter : c'.fileWriter = c.fileWriter) :
    Untouched c c' := by
  have hsame : c'.Uploading ↔ c.Uploading := by
    rw [Uploading, Uploading, hstate, htype]
  refine ⟨hwriter, hsame.mp, ?_, ?_⟩
  · rw [hsame, hstate]
    exact hside
  · rw [Answering, Answering, hstate, hfinal, herror]
    exact id

private theorem Untouched.of_waiting (hs : c.state = .waitForData)
    (hside : c'.Uploading ∨ c'.state = .error) (hwriter : c'.fileWriter = c.fileWriter) :
    Untouched c c' := by
  refine ⟨hwriter, fun _ ↦ .inr (.inl hs), hside, ?_⟩
  rintro (⟨h, -⟩ | ⟨h, -⟩)
  · rw [hs] at h
    cases h
  · rw [hs] at h
    cases h

private theorem TimeoutMove.untouched (h : TimeoutMove c c')
    (hside : c.Uploading ∨ c.state = .error) : Untouched c c' := by
  cases h with
  | gaveUp => exact .of_same hside rfl rfl rfl rfl rfl
  | resendData few state => simp [Uploading, state] at hside
  | resendAck few state => exact .of_waiting state (.inl (.inl rfl)) rfl
  | late => exact .of_same hside rfl rfl rfl rfl rfl

private theorem ReadDataMove.untouched {d : Bytes} (h : ReadDataMove c d l c')
    (hs : c.state = .waitForData)
    (hno : ∀ p, deserialiseDataPacket d = some p → p.blockNumber ≠ c.blockNumber) :
    writes l = [] ∧ Untouched c c' := by
  cases h with
  | repeated => exact ⟨rfl, .of_waiting hs (.inl (.inl rfl)) rfl⟩
  | block decoded number => exact absurd number (hno _ decoded)
  | wrong => exact ⟨rfl, .of_waiting hs (.inr rfl) rfl⟩
  | refused => exact ⟨rfl, .of_waiting hs (.inl (.inr (.inl hs))) rfl⟩
  | ignored => exact ⟨rfl, .of_waiting hs (.inl (.inr (.inl hs))) rfl⟩

private theorem HandleReadMove.untouched {r : RecvResult} (h : HandleReadMove c r l c')
    (hside : c.Uploading ∨ c.state = .error) (hno : ∀ d p, r = .datagram d → ¬c.Accepts d p) :
    writes l = [] ∧ Untouched c c' := by
  cases h with
  | timeout expired move =>
    have hu := move.untouched hside
    exact ⟨rfl, hu.fileWriter, hu.uploading, hu.side, hu.answering⟩
  | ack timer state => simp [Uploading, state] at hside
  | data timer state recv read =>
    have hmove := (readDataMove read).untouched state fun p hp hn ↦ by
      cases r with
      | datagram d =>
        cases recv
        exact hno d p rfl ⟨timer, state, hp, hn⟩
      | wouldBlock =>
        cases recv
        cases hp
      | failed what => cases recv
    rw [writes_append, writes_received, hmove.1]
    exact ⟨rfl, hmove.2⟩
  | idle => exact ⟨rfl, .of_same hside rfl rfl rfl rfl rfl⟩

private theorem SendAckMove.untouched {s : SendResult} (h : SendAckMove c s l c')
    (hs : c.state = .sendAck) : writes l = [] ∧ Untouched c c' := by
  have hup : c.Uploading := .inl hs
  cases h with
  | sentFinal => exact ⟨rfl, .of_same (.inl hup) rfl rfl rfl rfl rfl⟩
  | sent final =>
    refine ⟨rfl, rfl, fun _ ↦ hup, .inl (.inr (.inl rfl)), ?_⟩
    simp [Answering, hs, final]
  | blocked => exact ⟨rfl, .of_same (.inl hup) rfl rfl rfl rfl rfl⟩
  | failed => exact ⟨rfl, rfl, fun _ ↦ hup, .inr rfl, fun _ ↦ .inr ⟨rfl, rfl⟩⟩

private theorem SendOackMove.untouched {s : SendResult} (h : SendOackMove c s l c')
    (hs : c.state = .sendOack) (ht : c.type ≠ .read) : writes l = [] ∧ Untouched c c' := by
  have hup : c.Uploading := .inr (.inr ⟨hs, ht⟩)
  cases h with
  | sentRead type => exact absurd type ht
  | sentWrite =>
    refine ⟨rfl, rfl, fun _ ↦ hup, .inl (.inr (.inl rfl)), ?_⟩
    simp [Answering, hs]
  | blocked => exact ⟨rfl, .of_same (.inl hup) rfl rfl rfl rfl rfl⟩
  | failed => exact ⟨rfl, .of_same (.inl hup) rfl rfl rfl rfl rfl⟩

private theorem SendErrorMove.untouched {s : SendResult} (h : SendErrorMove c s l c')
    (hs : c.state = .error) : writes l = [] ∧ Untouched c c' := by
  cases h with
  | sent => exact ⟨rfl, .of_same (.inr hs) rfl rfl rfl rfl rfl⟩
  | blocked => exact ⟨rfl, .of_same (.inr hs) rfl rfl rfl rfl rfl⟩
  | failed => exact ⟨rfl, .of_same (.inr hs) rfl rfl rfl rfl rfl⟩

/-- An event writes nothing, unless it brings the block expected. -/
theorem untouched_step (hside : c.Uploading ∨ c.state = .error)
    (hno : ∀ d p, e = .readable (.datagram d) → ¬c.Accepts d p)
    (hs : TftpServerConnection.step b c e = .ok l c') : writes l = [] ∧ Untouched c c' := by
  cases move_of_step hs with
  | read move => exact move.untouched hside fun d p hr ↦ hno d p (congrArg _ hr)
  | sendData state => simp [Uploading, state] at hside
  | sendAck state move => exact move.untouched state
  | sendOack state move => exact move.untouched state (by simpa [Uploading, state] using hside)
  | sendError state move => exact move.untouched state
  | tick => exact ⟨rfl, .of_same hside rfl rfl rfl rfl rfl⟩
  | hangup => exact ⟨rfl, .of_same hside rfl rfl rfl rfl rfl⟩

/-- A call that receives the block expected writes its payload. -/
theorem Accepts.step {d : Bytes} {p : DataPacket} (h : c.Accepts d p) :
    TftpServerConnection.step b c (.readable (.datagram d)) =
      ({ c with timeoutCount := 0 }.writeBlock p.data).after [.recv (d.take c.blockSize)] := by
  have hread : TftpServerConnection.step b c (.readable (.datagram d)) =
      (c.readData (d.take c.blockSize)).after [.recv (d.take c.blockSize)] :=
    handleRead_waitForData h.timer h.state d
  have hprev : ¬isPrevious p.blockNumber c.blockNumber = true := by
    rw [isPrevious_iff, h.expected]
    omega
  rw [hread, readData, h.decoded]
  dsimp only
  rw [if_neg hprev, if_pos h.expected]

/-- What a write that returned leaves behind. -/
structure Wrote (c : TftpServerConnection) (data : Bytes) (c' : TftpServerConnection) : Prop where
  write : c.fileWriter.write data = .ok c'.fileWriter
  failed : c'.fileWriter.error = true → c'.state = .error ∧ c'.errorPkt = internalError
  state : c'.fileWriter.error = false → c'.state = .sendAck
  finalAck : c'.fileWriter.error = false → data.length < c.blockSize → c'.finalAck = true

private theorem WriteBlockMove.wrote {data : Bytes} (h : WriteBlockMove c data c') :
    c.Wrote data c' := by
  cases h with
  | failed write error =>
    refine ⟨write, fun _ ↦ ⟨rfl, rfl⟩, ?_, ?_⟩
    · simp [error]
    · simp [error]
  | done write error =>
    refine ⟨write, ?_, fun _ ↦ rfl, ?_⟩
    · simp [error]
    · intro _ hlt
      simp [hlt]

/-- A call that receives the block expected returns exactly as its write does. -/
theorem Accepts.returns {d : Bytes} {p : DataPacket} (h : c.Accepts d p)
    (hs : TftpServerConnection.step b c (.readable (.datagram d)) = .ok l c') :
    writes l = [p.data] ∧ c.Wrote p.data c' := by
  rw [h.step] at hs
  obtain ⟨l', hw, rfl⟩ := ok_of_after hs
  obtain ⟨rfl, hmove⟩ := writeBlockMove hw
  have hwrote := hmove.wrote
  constructor
  · rfl
  · exact ⟨hwrote.write, hwrote.failed, hwrote.state, hwrote.finalAck⟩

/-- It returns when its write does. -/
theorem Accepts.returned {d : Bytes} {p : DataPacket} {w : TftpWriteFile} (h : c.Accepts d p)
    (hw : c.fileWriter.write p.data = .ok w) :
    ∃ l c', TftpServerConnection.step b c (.readable (.datagram d)) = .ok l c' ∧
      c'.fileWriter = w := by
  rw [h.step, writeBlock]
  simp only [hw]
  split
  · exact ⟨_, _, rfl, rfl⟩
  · refine ⟨_, _, rfl, ?_⟩
    split
    · rfl
    · rfl

/-- It goes on for ever when its write does. -/
theorem Accepts.hangs_iff {d : Bytes} {p : DataPacket} (h : c.Accepts d p) :
    (TftpServerConnection.step b c (.readable (.datagram d))).next = .error .hang ↔
      c.fileWriter.write p.data = .error .hang := by
  rw [h.step, Outcome.next_after, writeBlock]
  dsimp only
  cases hw : c.fileWriter.write p.data with
  | error stop => simp
  | ok fileWriter =>
    dsimp only
    split
    · simp
    · simp

/-! ### What has been accepted and what has been stored -/

/-- The bytes a payload stands for, where it decodes. -/
def nativeBytes (mode : Mode) (data : Bytes) : Bytes :=
  match nativePayload mode data with
  | .ok nativeData => nativeData
  | .error _ => []

/-- The bytes that the accepted blocks stand for, in order. -/
def acceptedBytes (mode : Mode) (log : List Action) : Bytes :=
  (writes log).flatMap (nativeBytes mode)

/-- The last block has been accepted: it is shorter than the block size. -/
def LastAccepted (log : List Action) (c : TftpServerConnection) : Prop :=
  ∃ data, (writes log).getLast? = some data ∧ data.length < c.blockSize

/-- What the final ACK says is true, on a device with room for `capacity` bytes: an ACK is sent
after the last block only when the file will hold every byte accepted. And where it will not,
and the last block is there or a write has failed, the next packet is the ERROR packet. -/
structure AnswersStored (capacity : Nat) (mode : Mode) (log : List Action)
    (c : TftpServerConnection) : Prop where
  finalAck : LastAccepted log c → ∀ s d a, .send d ∈ (c.handleWrite s).log →
    deserialiseAckPacket d = some a →
    c.fileWriter.destroy capacity = some (acceptedBytes mode log)
  error : LastAccepted log c ∨ c.fileWriter.error = true →
    c.fileWriter.destroy capacity ≠ some (acceptedBytes mode log) →
    (c.handleWrite .sent).log = [.send (serialiseErrorPacket internalError)]

/-- The same of an execution, which must not end in a call that goes on for ever. -/
structure StoredOrError (capacity : Nat) (mode : Mode) (o : HandlerOutcome) : Prop where
  noHang : o.next ≠ .error .hang
  answers : ∀ c, o.next = .ok c → AnswersStored capacity mode o.log c

/-- Where the code keeps to that: in OCTET mode the device does not come to refuse everything
before the block is counted, and what stdio takes of a last block, and has taken before,
will fit. -/
def StoresBlock (capacity : Nat) (c : TftpServerConnection) (e : Event) : Prop :=
  ∀ d p f, e = .readable (.datagram d) → c.Accepts d p → c.fileWriter.fd = some f →
    (c.fileWriter.mode = .octet → f.refuses = true → p.data.length ≤ f.short.sum) ∧
    ∀ nativeData, nativePayload c.fileWriter.mode p.data = .ok nativeData →
      nativeData.length ≤ f.limit nativeData.length → p.data.length < c.blockSize →
      f.taken.length + nativeData.length ≤ capacity

/-! ### Every run -/

variable {mode : Mode} {capacity : Nat}

@[simp] theorem acceptedBytes_nil (mode : Mode) : acceptedBytes mode [] = [] := rfl

/-- A call that writes nothing accepts nothing. -/
theorem acceptedBytes_of_quiet (mode : Mode) (hl : writes l = []) :
    acceptedBytes mode (log ++ l) = acceptedBytes mode log := by
  rw [acceptedBytes, writes_append, hl, List.append_nil]
  rfl

/-- A block adds what its payload stands for. -/
theorem acceptedBytes_of_block {data nativeData : Bytes} (hl : writes l = [data])
    (hd : nativePayload mode data = .ok nativeData) :
    acceptedBytes mode (log ++ l) = acceptedBytes mode log ++ nativeData := by
  rw [acceptedBytes, writes_append, hl, List.flatMap_append, List.flatMap_singleton, nativeBytes,
    hd]
  rfl

/-- In an upload the stream has taken every byte accepted, and no error is set; and after the
last block, or an error, the connection is about to answer. -/
structure Storing (mode : Mode) (log : List Action) (c : TftpServerConnection) : Prop where
  side : c.Uploading ∨ c.state = .error
  held : c.Uploading → ∃ f, c.fileWriter.Holds f mode (acceptedBytes mode log)
  answering : LastAccepted log c ∨ c.fileWriter.error = true → c.Answering

/-- What was accepted as the last block fits the device. -/
def Fits (capacity : Nat) (mode : Mode) (log : List Action) (c : TftpServerConnection) : Prop :=
  LastAccepted log c → c.Uploading → (acceptedBytes mode log).length ≤ capacity

private theorem lastAccepted_congr (hl : writes l = []) (hsize : c'.blockSize = c.blockSize) :
    LastAccepted (log ++ l) c' ↔ LastAccepted log c := by
  rw [LastAccepted, LastAccepted, writes_append, hl, List.append_nil, hsize]

/-- One event of an upload. -/
theorem Storing.step (h : Storing mode log c)
    (hs : TftpServerConnection.step b c e = .ok l c') : Storing mode (log ++ l) c' := by
  have hsize := (kept_step hs).blockSize
  by_cases hb : ∃ d p, e = .readable (.datagram d) ∧ c.Accepts d p
  · obtain ⟨d, p, rfl, hacc⟩ := hb
    obtain ⟨hl, hwrote⟩ := hacc.returns hs
    obtain ⟨f, hheld⟩ := h.held (.inr (.inl hacc.state))
    cases he : c'.fileWriter.error with
    | true =>
      have hst := hwrote.failed he
      refine ⟨.inr hst.1, ?_, fun _ ↦ .inr hst⟩
      intro hup
      simp [Uploading, hst.1] at hup
    | false =>
      have hst := hwrote.state he
      refine ⟨.inl (.inl hst), ?_, ?_⟩
      · intro _
        obtain ⟨f', nativeData, hd, -, hheld'⟩ := hheld.write hwrote.write he
        exact ⟨f', acceptedBytes_of_block hl hd ▸ hheld'⟩
      · rintro (⟨data, hlast, hlt⟩ | hx)
        · rw [writes_append, hl, List.getLast?_append, List.getLast?_singleton] at hlast
          cases hlast
          exact .inl ⟨hst, hwrote.finalAck he (hsize ▸ hlt)⟩
        · rw [he] at hx
          cases hx
  · have hno : ∀ d p, e = .readable (.datagram d) → ¬c.Accepts d p :=
      fun d p he hacc ↦ hb ⟨d, p, he, hacc⟩
    obtain ⟨hl, hu⟩ := untouched_step h.side hno hs
    refine ⟨hu.side, ?_, ?_⟩
    · intro hup
      rw [acceptedBytes_of_quiet mode hl, hu.fileWriter]
      exact h.held (hu.uploading hup)
    · rw [lastAccepted_congr hl hsize, hu.fileWriter]
      exact fun hx ↦ hu.answering (h.answering hx)

/-- Where a block is stored, what was accepted as the last one fits. -/
theorem Fits.step (h : Storing mode log c) (hf : Fits capacity mode log c)
    (hp : StoresBlock capacity c e) (hs : TftpServerConnection.step b c e = .ok l c') :
    Fits capacity mode (log ++ l) c' := by
  have hsize := (kept_step hs).blockSize
  by_cases hb : ∃ d p, e = .readable (.datagram d) ∧ c.Accepts d p
  · obtain ⟨d, p, rfl, hacc⟩ := hb
    obtain ⟨hl, hwrote⟩ := hacc.returns hs
    obtain ⟨f, hheld⟩ := h.held (.inr (.inl hacc.state))
    rintro ⟨data, hlast, hlt⟩ hup
    rw [writes_append, hl, List.getLast?_append, List.getLast?_singleton] at hlast
    cases hlast
    have he : c'.fileWriter.error = false := by
      apply Bool.eq_false_iff.mpr
      intro he
      simp [Uploading, (hwrote.failed he).1] at hup
    obtain ⟨f', nativeData, hd, hall, -⟩ := hheld.write hwrote.write he
    rw [acceptedBytes_of_block hl hd, List.length_append, ← hheld.taken]
    rw [← hheld.mode] at hd
    exact (hp d p f rfl hacc hheld.fd).2 nativeData hd hall (hsize ▸ hlt)
  · have hno : ∀ d p, e = .readable (.datagram d) → ¬c.Accepts d p :=
      fun d p he hacc ↦ hb ⟨d, p, he, hacc⟩
    obtain ⟨hl, hu⟩ := untouched_step h.side hno hs
    intro hlast hup
    rw [acceptedBytes_of_quiet mode hl]
    exact hf ((lastAccepted_congr hl hsize).mp hlast) (hu.uploading hup)

/-- No call of an upload goes on for ever where the block is stored. -/
theorem Storing.noHang (h : Storing mode log c) (hp : StoresBlock capacity c e) :
    (TftpServerConnection.step b c e).next ≠ .error .hang := by
  intro hhang
  cases stops_of_step hhang with
  | @writing d p _ timer state decoded number write =>
    obtain ⟨f, hheld⟩ := h.held (.inr (.inl state))
    obtain ⟨hm, hr, hlt⟩ := hheld.write_hangs_iff.mp write
    have hle := (hp d p f rfl ⟨timer, state, decoded, number⟩ hheld.fd).1 (hheld.mode.trans hm) hr
    omega
  | reading state =>
    -- an upload reads no file
    have hside := h.side
    simp [Uploading, state] at hside

/-- What an upload in which the last block fits sends next. -/
theorem Storing.answers (h : Storing mode log c) (hf : Fits capacity mode log c) :
    AnswersStored capacity mode log c := by
  have hstored : LastAccepted log c → c.state = .sendAck →
      c.fileWriter.destroy capacity = some (acceptedBytes mode log) := by
    intro hlast hs
    have hup : c.Uploading := .inl hs
    obtain ⟨f, hheld⟩ := h.held hup
    rw [hheld.destroy, List.take_of_length_le (hf hlast hup)]
  constructor
  · intro hlast s d a hd ha
    rcases h.answering (.inl hlast) with ⟨hs, -⟩ | ⟨hs, -⟩
    · exact hstored hlast hs
    · -- in the state ERROR no ACK is sent
      rw [handleWrite, hs] at hd
      rcases log_handleWriteError c s with hlog | hlog
      · rw [hlog] at hd
        cases hd
      · rw [hlog, List.mem_singleton] at hd
        cases hd
        rw [deserialiseAckPacket_of_opcode (by simp [PacketT.code])] at ha
        cases ha
  · intro hcause hlost
    rcases h.answering hcause with ⟨hs, -⟩ | ⟨hs, he⟩
    · rcases hcause with hlast | herror
      · exact absurd (hstored hlast hs) hlost
      · obtain ⟨f, hheld⟩ := h.held (.inl hs)
        rw [hheld.error_eq] at herror
        cases herror
    · rw [handleWrite, hs, ← he]
      rfl

/-- An upload starts with nothing accepted. -/
theorem storing_create {w : World} {request : RwPacket} (ht : request.type = .write) :
    Storing request.mode [] (create w request) := by
  have hnone : ∀ c, ¬LastAccepted [] c := by
    rintro c ⟨data, hlast, -⟩
    cases hlast
  cases ha : w.notAllowed with
  | some error =>
    have hcreate : create w request = { type := request.type, errorPkt := error } := by
      rw [create, ha]
    rw [hcreate]
    refine ⟨.inr rfl, ?_, ?_⟩
    · intro hup
      simp [Uploading] at hup
    · rintro (hlast | herror)
      · exact absurd hlast (hnone _)
      · cases herror
  | none =>
    have hwriter : (create w request).fileWriter =
        ((blank .write).processOptions w request).fileWriter.openFile w.writable request.mode := by
      rw [create_write ht ha, fileWriter_startWrite]
    refine ⟨?_, ?_, ?_⟩
    · have hstate := state_startWrite w request ((blank .write).processOptions w request)
      rw [← create_write ht ha] at hstate
      split at hstate
      · split at hstate
        · exact .inl (.inl hstate)
        · left
          refine .inr (.inr ⟨hstate, ?_⟩)
          rw [(blockNumber_create_write ht ha).1]
          exact PacketT.noConfusion
      · exact .inr hstate
    · intro hup
      obtain ⟨sink, hsink⟩ := Option.isSome_iff_exists.mp (uploading_create hup).2.2
      rw [hwriter, hsink]
      exact ⟨_, .openFile _ sink request.mode⟩
    · rintro (hlast | herror)
      · exact absurd hlast (hnone _)
      · rw [hwriter, TftpWriteFile.error_openFile] at herror
        cases herror

/-- Where the final ACK tells the truth, what stdio takes of the last block fits. -/
theorem Storing.fits_of_answers {d nativeData : Bytes} {p : DataPacket} {f : FileOut}
    (h : Storing mode log c) (hacc : c.Accepts d p) (hfd : c.fileWriter.fd = some f)
    (hanswers : ∀ l c', TftpServerConnection.step b c (.readable (.datagram d)) = .ok l c' →
      AnswersStored capacity mode (log ++ l) c')
    (hd : nativePayload mode p.data = .ok nativeData)
    (hall : nativeData.length ≤ f.limit nativeData.length) (hlt : p.data.length < c.blockSize) :
    f.taken.length + nativeData.length ≤ capacity := by
  obtain ⟨f₀, hheld⟩ := h.held (.inr (.inl hacc.state))
  obtain rfl : f₀ = f := Option.some.inj (hheld.fd.symm.trans hfd)
  obtain ⟨w, hw, he⟩ := hheld.write_of_limit hd hall
  obtain ⟨l, c', hs, rfl⟩ := hacc.returned (b := b) hw
  obtain ⟨hl, hwrote⟩ := hacc.returns hs
  have hst := hwrote.state he
  have hlast : LastAccepted (log ++ l) c' := by
    refine ⟨p.data, ?_, ?_⟩
    · rw [writes_append, hl, List.getLast?_append, List.getLast?_singleton]
      rfl
    · rw [(kept_step hs).blockSize]
      exact hlt
  -- the next packet is the ACK of this block
  have hsend : .send (serialiseAckPacket { blockNumber := c'.blockNumber }) ∈
      (c'.handleWrite .sent).log := by
    rw [handleWrite, hst, handleWriteAck]
    dsimp only
    split
    · exact List.mem_singleton_self _
    · exact List.mem_singleton_self _
  have hstored := (hanswers l c' hs).finalAck hlast .sent _ _ hsend
    (deserialise_serialiseAckPacket _)
  obtain ⟨f', hheld'⟩ := (h.step hs).held (.inl hst)
  rw [hheld'.destroy, Option.some.injEq] at hstored
  have hle := List.length_take_le capacity (acceptedBytes mode (log ++ l))
  rw [hstored, acceptedBytes_of_block hl hd, List.length_append, ← hheld.taken] at hle
  exact hle

/-- In every run of an upload, at every point of it: the ACK after the last block means that the
file will hold every byte accepted, an ERROR packet is sent instead where it will not, and no
call goes on for ever, if and only if every block the run accepts is stored as the device's
room and its refusals allow. -/
theorem final_ack_stored_iff (b : Build) (capacity : Nat) {w : World} {request : RwPacket}
    (ht : request.type = .write) (es : List Event) :
    (∀ pre post, es = pre ++ post →
      StoredOrError capacity request.mode (exec (step b) (create w request) pre)) ↔
      Along (step b) (StoresBlock capacity) (create w request) es := by
  have storing : ∀ {pre l c}, Runs (step b) (create w request) pre l c →
      Storing request.mode l c :=
    fun hr ↦ hr.invariant (storing_create ht) fun _ _ _ _ _ h hs ↦ h.step hs
  constructor
  · intro h
    apply along_of_prefixes
    intro pre e post l c hes hr d p f he hacc hfd
    subst he
    have hinv := storing hr
    obtain ⟨f', hheld⟩ := hinv.held (.inr (.inl hacc.state))
    obtain rfl : f' = f := Option.some.inj (hheld.fd.symm.trans hfd)
    have hthen := h (pre ++ [.readable (.datagram d)]) post (by rw [hes, List.append_assoc]; rfl)
    rw [hr.exec_snoc] at hthen
    constructor
    · -- otherwise the call would go on for ever
      intro hm hrefuses
      by_contra hlt
      apply hthen.noHang
      rw [Outcome.next_after, hacc.hangs_iff, hheld.write_hangs_iff]
      exact ⟨hheld.mode.symm.trans hm, hrefuses, Nat.not_le.mp hlt⟩
    · -- otherwise the final ACK would be sent for bytes that are lost
      intro nativeData hd
      rw [hheld.mode] at hd
      apply hinv.fits_of_answers (b := b) hacc hfd _ hd
      intro l' c' hs
      rw [hs] at hthen
      exact hthen.answers c' rfl
  · intro ha pre post hes
    subst hes
    constructor
    · intro hhang
      obtain ⟨pre', e, post', l, c, rfl, hr, hs⟩ := exists_call_of_stop hhang
      rw [List.append_assoc] at ha
      exact (storing hr).noHang (ha.next hr) hs
    · intro c hc
      have hr : Runs (step b) (create w request) pre _ c := Outcome.eq_ok_of_next hc
      have hfits := hr.logInvariantAlong
        (I := fun l c ↦ Storing request.mode l c ∧ Fits capacity request.mode l c) ha.left ?_ ?_
      · exact hfits.1.answers hfits.2
      · refine ⟨storing_create ht, ?_⟩
        rintro ⟨data, hlast, -⟩
        cases hlast
      · intro l c e l' c' hc hp hs
        exact ⟨hc.1.step hs, hc.2.step hc.1 hp hs⟩

/-- A block of one byte on a device that has room for it. -/
theorem final_ack_stored_fits :
    StoredOrError 1 .octet (exec (step .release) (create { writable := some {} } { type := .write })
      [.writable .sent, .readable (.datagram [0, 3, 0, 1, 7]), .writable .sent]) := by
  refine (@final_ack_stored_iff .release 1 { writable := some {} } { type := .write } rfl _).mpr
    ?_ _ [] (List.append_nil _).symm
  refine Along.cons ?_ rfl (Along.cons ?_ rfl (Along.cons ?_ rfl trivial))
  · intro d p f he
    cases he
  · intro d p f he hacc hfd
    cases he
    cases hfd
    have hp : p = { data := [7], blockNumber := 1 } := by
      have hdecoded := hacc.decoded
      cases hdecoded
      rfl
    rw [hp]
    constructor
    · intro _ hr
      cases hr
    · intro nativeData hd _ _
      cases hd
      decide
  · intro d p f he
    cases he

/-- A block of one byte on a device with no room, which stdio takes: the final ACK is sent, and
the file stays empty. And on a device that refuses it at once the handler never returns. -/
theorem final_ack_lost :
    (∃ log c, Runs (step .release) (create { writable := some {} } { type := .write })
        [.writable .sent, .readable (.datagram [0, 3, 0, 1, 7])] log c ∧
      acceptedBytes .octet log = [7] ∧
      step .release c (.writable .sent) =
        .ok [.send (serialiseAckPacket { blockNumber := 1 })] { c with finished := true } ∧
      c.fileWriter.destroy 0 = some []) ∧
    (exec (step .release) (create { writable := some { refuses := true } } { type := .write })
      [.writable .sent, .readable (.datagram [0, 3, 0, 1, 7])]).next = .error .hang :=
  ⟨⟨_, _, rfl, rfl, rfl, rfl⟩, rfl⟩

end CppTftp.TftpServerConnection
