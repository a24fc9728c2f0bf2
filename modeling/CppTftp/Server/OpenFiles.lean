import CppTftp.Server.Waiting

/-!
# Files that could not be opened

The constructor answers an `open` that failed with an error packet, but in the READ branch the
state that it sets is overwritten below. Which files are open where they are used, and what a
connection sends that starts in the state ERROR.
-/

namespace CppTftp.TftpServerConnection

open Tftp Lib

variable {b : Build} {c c' : TftpServerConnection} {e : Event} {l log : List Action}

/-! ### The sides of a transfer -/

/-- The states between a download's request and its end. -/
def Downloading (c : TftpServerConnection) : Prop :=
  c.state = .sendData ∨ c.state = .waitForAck ∨ c.state = .sendOack ∧ c.type = .read

private theorem not_downloading (h1 : c.state ≠ .sendData) (h2 : c.state ≠ .waitForAck)
    (h3 : c.state ≠ .sendOack) : ¬c.Downloading := by
  rintro (h | h | h)
  · exact h1 h
  · exact h2 h
  · exact h3 h.1

/-- A download was one before, and a file open for reading stays open. -/
structure ReaderKept (c c' : TftpServerConnection) : Prop where
  downloading : c'.Downloading → c.Downloading
  opened : c.fileReader.fd.isSome → c'.fileReader.fd.isSome

private theorem TimeoutMove.readerKept (h : TimeoutMove c c') : ReaderKept c c' := by
  cases h with
  | gaveUp => exact ⟨id, id⟩
  | resendData few state => exact ⟨fun _ ↦ .inr (.inl state), id⟩
  | resendAck => exact ⟨fun hd ↦ absurd hd (not_downloading nofun nofun nofun), id⟩
  | late => exact ⟨id, id⟩

private theorem WriteBlockMove.not_downloading {data : Bytes} (h : WriteBlockMove c data c') :
    ¬c'.Downloading := by
  cases h with
  | failed => exact TftpServerConnection.not_downloading nofun nofun nofun
  | done => exact TftpServerConnection.not_downloading nofun nofun nofun

private theorem ReadDataMove.readerKept {d : Bytes} (h : ReadDataMove c d l c') :
    ReaderKept c c' := by
  cases h with
  | repeated => exact ⟨fun hd ↦ absurd hd (not_downloading nofun nofun nofun), id⟩
  | block decoded number move =>
    exact ⟨fun hd ↦ absurd hd move.not_downloading, fun ho ↦ move.fileReader.symm ▸ ho⟩
  | wrong => exact ⟨fun hd ↦ absurd hd (not_downloading nofun nofun nofun), id⟩
  | refused => exact ⟨id, id⟩
  | ignored => exact ⟨id, id⟩

private theorem HandleReadMove.readerKept {r : RecvResult} (h : HandleReadMove c r l c') :
    ReaderKept c c' := by
  cases h with
  | timeout expired move =>
    obtain ⟨hd, ho⟩ := move.readerKept
    exact ⟨hd, ho⟩
  | @ack d timer state =>
    exact ⟨fun _ ↦ .inr (.inl state), fun ho ↦ (fileReader_readAck c d).symm ▸ ho⟩
  | data timer state recv read => exact (readDataMove read).readerKept
  | idle => exact ⟨id, id⟩

private theorem SendDataMove.opened {s : SendResult} (h : SendDataMove c s l c') :
    c.fileReader.fd.isSome → c'.fileReader.fd.isSome := by
  intro ho
  cases h with
  | cached ready move =>
    rw [move.fileReader]
    exact ho
  | failed ready read error => exact TftpReadFile.isSome_readInTo read
  | loaded ready read error move =>
    rw [move.fileReader]
    exact TftpReadFile.isSome_readInTo read

private theorem SendAckMove.readerKept {s : SendResult} (h : SendAckMove c s l c') :
    ReaderKept c c' := by
  cases h with
  | sentFinal => exact ⟨id, id⟩
  | sent => exact ⟨fun hd ↦ absurd hd (not_downloading nofun nofun nofun), id⟩
  | blocked => exact ⟨id, id⟩
  | failed => exact ⟨fun hd ↦ absurd hd (not_downloading nofun nofun nofun), id⟩

private theorem SendOackMove.readerKept {s : SendResult} (h : SendOackMove c s l c')
    (hs : c.state = .sendOack) : ReaderKept c c' := by
  cases h with
  | sentRead type => exact ⟨fun _ ↦ .inr (.inr ⟨hs, type⟩), id⟩
  | sentWrite => exact ⟨fun hd ↦ absurd hd (not_downloading nofun nofun nofun), id⟩
  | blocked => exact ⟨id, id⟩
  | failed => exact ⟨id, id⟩

private theorem SendErrorMove.readerKept {s : SendResult} (h : SendErrorMove c s l c') :
    ReaderKept c c' := by
  cases h with
  | sent => exact ⟨id, id⟩
  | blocked => exact ⟨id, id⟩
  | failed => exact ⟨id, id⟩

/-- No event turns an upload into a download or closes a file. -/
theorem readerKept_step (h : step b c e = .ok l c') : ReaderKept c c' := by
  cases move_of_step h with
  | read move => exact move.readerKept
  | sendData state move => exact ⟨fun _ ↦ .inl state, move.opened⟩
  | sendAck state move => exact move.readerKept
  | sendOack state move => exact move.readerKept state
  | sendError state move => exact move.readerKept
  | tick => exact ⟨id, id⟩
  | hangup => exact ⟨id, id⟩

/-! ### Where the files are used -/

/-- The file is read only in SEND_DATA. -/
theorem state_of_readInTo {s : SendResult} (h : .readInTo ∈ (c.handleWrite s).log) :
    c.state = .sendData := by
  have hsends : ∀ {l : List Action} {d : Bytes}, l = [] ∨ l = [.send d] → .readInTo ∉ l := by
    intro l d hl
    rcases hl with rfl | rfl
    · exact List.not_mem_nil
    · simp
  unfold handleWrite at h
  split at h
  · next hs => exact hs
  · exact absurd h (hsends (log_handleWriteAck c s))
  · exact absurd h (hsends (log_handleWriteOack c s))
  · exact absurd h (hsends (log_handleWriteError c s))
  · cases h
  · cases h

/-- In no state that is reached is a file used that is not open. After `read_in_to` or `write`
the handlers ask the same file for errors. -/
def FilesOpen (b : Build) (c : TftpServerConnection) : Prop :=
  ∀ es log c', Runs (step b) c es log c' →
    (∀ s, .readInTo ∈ (c'.handleWrite s).log → c'.fileReader.fd.isSome) ∧
      ∀ r data, .write data ∈ (handleRead b c' r).log → c'.fileWriter.fd.isSome

/-- A connection whose file is open at the start uses no other. -/
theorem filesOpen_of_sides (hread : c.Downloading → c.fileReader.fd.isSome)
    (hwrite : c.Uploading → c.fileWriter.fd.isSome) : FilesOpen b c := by
  have hlasting : LastingWrite fun w ↦ w.fd.isSome :=
    fun _ _ _ _ hw ↦ (TftpWriteFile.mode_write hw).2
  intro es log c' hr
  have hread' : c'.Downloading → c'.fileReader.fd.isSome := by
    apply hr.stateInvariant (I := fun c ↦ c.Downloading → c.fileReader.fd.isSome) hread
    intro c e l c' hc hs hd
    have hkept := readerKept_step hs
    exact hkept.opened (hc (hkept.downloading hd))
  have hwrite' : c'.Uploading → c'.fileWriter.fd.isSome := by
    apply hr.stateInvariant (I := fun c ↦ c.Uploading → c.fileWriter.fd.isSome) hwrite
    intro c e l c' hc hs hu
    obtain ⟨hu', hkept⟩ := Uploading.step hlasting hs hu
    exact hkept (hc hu')
  constructor
  · intro s h
    exact hread' (.inl (state_of_readInTo h))
  · intro r data h
    exact hwrite' (.inr (.inl (handleRead_wrote h).1))

/-! ### Only an error packet -/

/-- The one thing that the connection ever does is to send this error packet, and then it is
finished; in every run as long as it is not. -/
structure OnlyError (b : Build) (c : TftpServerConnection) (error : ErrorPacket) : Prop where
  output : ∀ es log c', Runs (step b) c es log c' →
    Along (step b) (fun c _ ↦ c.finished = false) c es →
    log = [] ∨ log = [.send (serialiseErrorPacket error)] ∧ c'.finished = true
  finishes : ∀ es log c', Runs (step b) c es log c' →
    Along (step b) (fun c _ ↦ c.finished = false) c es → c'.finished = false →
    c'.handleWrite .sent = .ok [.send (serialiseErrorPacket error)] { c' with finished := true }

/-- An event in the state ERROR with no timer running changes nothing, or is the last. -/
theorem step_of_error (hs : c.state = .error) (ht : c.timer = .disarmed)
    (h : step b c e = .ok l c') :
    l = [] ∧ c' = c ∨
      c'.finished = true ∧ (l = [] ∨ l = [.send (serialiseErrorPacket c.errorPkt)]) := by
  have hwrite : ∀ s, c.handleWrite s = c.handleWriteError s := by
    intro s
    rw [handleWrite, hs]
  cases e with
  | readable r =>
    have hread : handleRead b c r = .ok [] c := by
      rw [handleRead, ht, if_neg (by decide)]
      split
      · next hw => rw [hs] at hw; cases hw
      · next hw => rw [hs] at hw; cases hw
      · rfl
    have h : handleRead b c r = .ok l c' := h
    obtain ⟨rfl, rfl⟩ := Outcome.ok_inj.mp (hread.symm.trans h)
    exact .inl ⟨rfl, rfl⟩
  | tick =>
    obtain ⟨rfl, rfl⟩ := Outcome.ok_inj.mp h
    left
    refine ⟨rfl, ?_⟩
    rw [ht]
    exact congrArg (fun t ↦ { c with timer := t }) ht.symm
  | hangup =>
    obtain ⟨rfl, rfl⟩ := Outcome.ok_inj.mp h
    exact .inr ⟨rfl, .inl rfl⟩
  | writable s =>
    have h : c.handleWrite s = .ok l c' := h
    rw [hwrite] at h
    cases s with
    | sent =>
      obtain ⟨rfl, rfl⟩ := Outcome.ok_inj.mp h
      exact .inr ⟨rfl, .inr rfl⟩
    | wouldBlock =>
      obtain ⟨rfl, rfl⟩ := Outcome.ok_inj.mp h
      exact .inl ⟨rfl, rfl⟩
    | failed =>
      obtain ⟨rfl, rfl⟩ := Outcome.ok_inj.mp h
      exact .inr ⟨rfl, .inl rfl⟩

/-- A connection in the state ERROR with no timer running only sends its error packet. -/
theorem onlyError_of_state (hs : c.state = .error) (ht : c.timer = .disarmed) :
    OnlyError b c c.errorPkt := by
  have hall : ∀ es log c', Runs (step b) c es log c' →
      Along (step b) (fun c _ ↦ c.finished = false) c es →
      log = [] ∧ c' = c ∨ c'.finished = true ∧
        (log = [] ∨ log = [.send (serialiseErrorPacket c.errorPkt)]) := by
    intro es log c' hr ha
    apply hr.logInvariantAlong (I := fun log c' ↦ log = [] ∧ c' = c ∨ c'.finished = true ∧
      (log = [] ∨ log = [.send (serialiseErrorPacket c.errorPkt)])) ha (.inl ⟨rfl, rfl⟩)
    intro l c₁ e l' c₂ hI hf hstep
    rcases hI with ⟨rfl, rfl⟩ | ⟨hf', -⟩
    · exact step_of_error hs ht hstep
    · rw [hf] at hf'
      cases hf'
  constructor
  · intro es log c' hr ha
    rcases hall es log c' hr ha with ⟨hl, -⟩ | ⟨hf, hl | hl⟩
    · exact .inl hl
    · exact .inl hl
    · exact .inr ⟨hl, hf⟩
  · intro es log c' hr ha hf
    rcases hall es log c' hr ha with ⟨-, rfl⟩ | ⟨hf', -⟩
    · have hwrite : c'.handleWrite .sent = c'.handleWriteError .sent := by
        rw [handleWrite, hs]
      rw [hwrite]
      rfl
    · rw [hf] at hf'
      cases hf'

/-! ### What the constructor makes of an `open` that failed -/

/-- The request is allowed and its file cannot be opened. -/
def OpenFails (w : World) (request : RwPacket) : Prop :=
  w.notAllowed = none ∧
    (request.type = .read ∧ w.readable = none ∨ request.type = .write ∧ w.writable = none)

/-- The state and the error packet after a WRITE branch whose `open` failed. -/
theorem create_write_of_none {w : World} {request : RwPacket} (ht : request.type = .write)
    (ha : w.notAllowed = none) (hw : w.writable = none) :
    (create w request).state = .error ∧
      (create w request).errorPkt = .of .accessError (str "Failed to open file for writing") := by
  rw [create_write ht ha]
  unfold startWrite
  rw [hw]
  exact ⟨rfl, rfl⟩

/-- A READ request starts by sending, whether its file is open or not. -/
theorem create_read_sends {w : World} {request : RwPacket} (ht : request.type = .read)
    (ha : w.notAllowed = none) :
    (create w request).state = .sendData ∧ (create w request).pktReady = false ∨
      (create w request).state = .sendOack := by
  rw [create_read ht ha, state_startRead]
  split
  · left
    have hp : ((blank .read).processOptions w request).pktReady = false := by
      rw [(optionsOnly_processOptions w request (blank .read)).eq]
      rfl
    refine ⟨rfl, ?_⟩
    unfold startRead
    dsimp only
    split
    · exact hp
    · exact hp
  · exact .inr rfl

/-- A download starts with an allowed READ request. -/
theorem downloading_create {w : World} {request : RwPacket} (h : (create w request).Downloading) :
    w.notAllowed = none ∧ request.type = .read := by
  have herror : (create w request).state ≠ .error := by
    intro he
    exact absurd h (not_downloading (by simp [he]) (by simp [he]) (by simp [he]))
  cases ha : w.notAllowed with
  | some error =>
    apply absurd _ herror
    unfold create
    rw [ha]
  | none =>
    cases ht : request.type with
    | read => exact ⟨rfl, rfl⟩
    | write =>
      have htype := (blockNumber_create_write ht ha).1
      have hs := state_startWrite w request ((blank .write).processOptions w request)
      rw [← create_write ht ha] at hs
      rcases h with h | h | ⟨-, h⟩
      · rw [h] at hs
        split at hs
        · split at hs
          · cases hs
          · cases hs
        · cases hs
      · rw [h] at hs
        split at hs
        · split at hs
          · cases hs
          · cases hs
        · cases hs
      · rw [htype] at h
        cases h
    | data => exact absurd (state_create_other ha (.inl ht)) herror
    | ack => exact absurd (state_create_other ha (.inr (.inl ht))) herror
    | error => exact absurd (state_create_other ha (.inr (.inr (.inl ht)))) herror
    | oack => exact absurd (state_create_other ha (.inr (.inr (.inr ht)))) herror

/-- No READ connection whose file is not open answers with the error packet. -/
theorem not_sends_error {w : World} {request : RwPacket} (ha : w.notAllowed = none)
    (ht : request.type = .read) (hn : w.readable = none) (error : ErrorPacket)
    (c' : TftpServerConnection) :
    (create w request).handleWrite .sent ≠ .ok [.send (serialiseErrorPacket error)] c' := by
  intro h
  have hfd : (create w request).fileReader.fd = none := by
    rw [(files_create w request).1, if_pos ⟨ha, ht⟩, hn]
    rfl
  rcases create_read_sends ht ha with ⟨hs, hp⟩ | hs
  · -- the file is read, which is not open
    have hread : (create w request).handleWrite .sent = .stop [.readInTo] .nullFile := by
      rw [handleWrite, hs]
      dsimp only
      rw [handleWriteData, hp, if_neg Bool.false_ne_true, TftpReadFile.readInTo, hfd]
    rw [hread] at h
    exact Outcome.stop_ne_ok h
  · -- the OACK is sent
    have hlog : ((create w request).handleWriteOack .sent).log =
        [.send (serialiseErrorPacket error)] := by
      rw [handleWrite, hs] at h
      exact congrArg Outcome.log h
    rcases log_handleWriteOack (create w request) .sent with hl | hl
    · rw [hl] at hlog
      cases hlog
    · rw [hl, List.singleton_inj, Action.send.injEq] at hlog
      have hcode := congrArg (byteAt · 1) hlog
      simp only [byteAt_serialiseOackPacket, byteAt_serialiseErrorPacket] at hcode
      exact absurd hcode (by decide)

/-- Files are open where they are used, and an `open` that fails leads to the access error and
nothing else, if and only if it is not a READ request's. -/
theorem files_open_iff (b : Build) (w : World) (request : RwPacket) :
    (FilesOpen b (create w request) ∧
      (OpenFails w request → ∃ error, error.errorCode = ErrorT.accessError.code ∧
        OnlyError b (create w request) error)) ↔
      ¬(w.notAllowed = none ∧ request.type = .read ∧ w.readable = none) := by
  constructor
  · rintro ⟨-, honly⟩ ⟨ha, ht, hn⟩
    obtain ⟨error, -, herror⟩ := honly ⟨ha, .inl ⟨ht, hn⟩⟩
    exact not_sends_error ha ht hn error _
      (herror.finishes [] [] _ (Runs.nil _) trivial (started_create w request).finished)
  · intro h
    have hread : (create w request).Downloading → (create w request).fileReader.fd.isSome := by
      intro hd
      obtain ⟨ha, ht⟩ := downloading_create hd
      have hsome : w.readable ≠ none := fun hn ↦ h ⟨ha, ht, hn⟩
      exact (fileReader_create_isSome_iff w request).mpr
        ⟨ha, ht, Option.isSome_iff_ne_none.mpr hsome⟩
    have hwrite : (create w request).Uploading → (create w request).fileWriter.fd.isSome :=
      fun hu ↦ (fileWriter_create_isSome_iff w request).mpr (uploading_create hu)
    refine ⟨filesOpen_of_sides hread hwrite, ?_⟩
    rintro ⟨ha, ⟨ht, hn⟩ | ⟨ht, hn⟩⟩
    · exact absurd ⟨ha, ht, hn⟩ h
    · obtain ⟨hs, hp⟩ := create_write_of_none ht ha hn
      refine ⟨_, rfl, hp ▸ onlyError_of_state hs (started_create w request).timer⟩

/-- A READ request for a file that cannot be opened: the first `handle_write` reads from it. -/
theorem files_open_read :
    (create {} {}).fileReader.fd = none ∧
      (create {} {}).handleWrite .sent = .stop [.readInTo] .nullFile :=
  ⟨rfl, rfl⟩

end CppTftp.TftpServerConnection
