import CppTftp.Server.Frame

/-!
# What the constructor leaves

The fields that option processing may change, the options it takes up, the state in which a
connection starts, and the streams it has opened.
-/

namespace CppTftp.TftpServerConnection

open Tftp Lib

/-! ### Option processing -/

/-- What option processing may change. -/
structure OptionsOnly (c c' : TftpServerConnection) : Prop where
  eq : c' = { c with
    blockSize := c'.blockSize, timeoutS := c'.timeoutS, oackPacket := c'.oackPacket }
  timeoutS : 0 < c.timeoutS.toNat → 0 < c'.timeoutS.toNat

private theorem OptionsOnly.refl (c : TftpServerConnection) : OptionsOnly c c := ⟨rfl, id⟩

private theorem optionsOnly_processOption (w : World) (request : RwPacket)
    (c : TftpServerConnection) (opt : Bytes × Bytes) :
    OptionsOnly c (processOption w request c opt) := by
  unfold processOption
  split
  · unfold processBlksize
    split
    · exact .refl c
    · dsimp only
      split
      · exact ⟨rfl, id⟩
      · split <;> exact ⟨rfl, id⟩
  · split
    · split
      · exact ⟨rfl, id⟩
      · exact .refl c
    · split
      · unfold processTimeout
        split
        · exact .refl c
        · next t _ =>
          split
          · exact .refl c
          · next ht =>
            refine ⟨rfl, fun _ ↦ ?_⟩
            change 0 < (UInt8.ofNat t).toNat
            rw [UInt8.toNat_ofNat']
            omega
      · exact .refl c

/-- Option processing sets the block size, the timeout and the OACK, and nothing else; the
timeout stays positive. -/
theorem optionsOnly_processOptions (w : World) (request : RwPacket) (c : TftpServerConnection) :
    OptionsOnly c (processOptions w request c) := by
  unfold processOptions
  generalize request.options = options
  induction options generalizing c with
  | nil => exact .refl c
  | cons opt options ih =>
    have h1 := optionsOnly_processOption w request c opt
    have h2 := ih (processOption w request c opt)
    refine ⟨?_, fun h ↦ h2.timeoutS (h1.timeoutS h)⟩
    rw [List.foldl_cons, h2.eq, h1.eq]

/-- The options that `process_options` takes up: a block size or a timeout in range that
converts, and the transfer size of a READ request. -/
def acceptsOption (type : PacketT) (opt : Bytes × Bytes) : Bool :=
  if strcmpEq opt.1 blksizeOpt then (stoull opt.2).isSome
  else if strcmpEq opt.1 tsizeOpt then type = .read
  else if strcmpEq opt.1 timeoutOpt then
    (stoull opt.2).any fun reqTimeoutS ↦ 1 ≤ reqTimeoutS && reqTimeoutS ≤ 255
  else false

private theorem length_pushOack (c : TftpServerConnection) (name value : Bytes) :
    (c.pushOack name value).oackPacket.options.length = c.oackPacket.options.length + 1 := by
  simp [pushOack]

private theorem length_processOption (w : World) (request : RwPacket)
    (c : TftpServerConnection) (opt : Bytes × Bytes) :
    (processOption w request c opt).oackPacket.options.length =
      c.oackPacket.options.length + (acceptsOption request.type opt).toNat := by
  unfold processOption acceptsOption
  split
  · unfold processBlksize
    split
    · next h => simp [h]
    · next val h =>
      dsimp only
      split
      · simp [length_pushOack, h]
      · split <;> simp [length_pushOack, h]
  · split
    · split
      · next h => simp [length_pushOack, h]
      · next h => simp [show request.type ≠ .read from h]
    · split
      · unfold processTimeout
        split
        · next h => simp [h]
        · next t h =>
          split
          · next ht =>
            have hd : (decide (1 ≤ t) && decide (t ≤ 255)) = false := by simp; omega
            simp [h, hd]
          · next ht =>
            have hd : (decide (1 ≤ t) && decide (t ≤ 255)) = true := by simp; omega
            simp [length_pushOack, h, hd]
      · simp

/-- The OACK is empty exactly when no option is taken up. -/
theorem oackPacket_processOptions_eq_nil_iff (w : World) (request : RwPacket)
    (c : TftpServerConnection) (hc : c.oackPacket.options = []) :
    (processOptions w request c).oackPacket.options = [] ↔
      ∀ opt ∈ request.options, acceptsOption request.type opt = false := by
  have hlen : ∀ (options : List (Bytes × Bytes)) (c : TftpServerConnection),
      (options.foldl (processOption w request) c).oackPacket.options.length =
        c.oackPacket.options.length + options.countP (acceptsOption request.type) := by
    intro options
    induction options with
    | nil => intro c; rfl
    | cons opt options ih =>
      intro c
      rw [List.foldl_cons, ih, length_processOption, List.countP_cons]
      cases acceptsOption request.type opt
      · simp
      · simp only [Bool.toNat_true, ↓reduceIte]
        omega
  rw [← List.length_eq_zero_iff, processOptions, hlen, hc, List.length_nil, Nat.zero_add,
    List.countP_eq_zero]
  simp

private theorem processOption_of_not_accepted {w : World} {request : RwPacket}
    {c : TftpServerConnection} {opt : Bytes × Bytes}
    (h : acceptsOption request.type opt = false) : processOption w request c opt = c := by
  unfold acceptsOption at h
  unfold processOption
  split
  · next hb =>
    rw [if_pos hb] at h
    have hv : stoull opt.2 = none := by simpa using h
    rw [processBlksize, hv]
  · next hb =>
    rw [if_neg hb] at h
    split
    · next hz =>
      rw [if_pos hz] at h
      split
      · next ht => simp [ht] at h
      · rfl
    · next hz =>
      rw [if_neg hz] at h
      split
      · next ht =>
        rw [if_pos ht] at h
        unfold processTimeout
        split
        · rfl
        · next t hv =>
          have ht : t < 1 ∨ t > 255 := by
            simp only [hv, Option.any_some, Bool.and_eq_false_iff, decide_eq_false_iff_not] at h
            omega
          rw [if_pos ht]
      · rfl

/-- Options that are not taken up change nothing. -/
theorem processOptions_of_not_accepted {w : World} {request : RwPacket}
    {c : TftpServerConnection}
    (h : ∀ opt ∈ request.options, acceptsOption request.type opt = false) :
    processOptions w request c = c := by
  unfold processOptions
  have hall : ∀ options : List (Bytes × Bytes),
      (∀ opt ∈ options, acceptsOption request.type opt = false) →
      options.foldl (processOption w request) c = c := by
    intro options
    induction options with
    | nil => exact fun _ ↦ rfl
    | cons opt options ih =>
      intro ho
      rw [List.foldl_cons, processOption_of_not_accepted (ho opt List.mem_cons_self)]
      exact ih fun o hm ↦ ho o (List.mem_cons_of_mem _ hm)
  exact hall request.options h

/-! ### The two branches -/

/-- A connection before its options are processed. -/
def blank (type : PacketT) : TftpServerConnection :=
  { type, dataPkt := { data := List.replicate 512 0 } }

/-- The constructor on an allowed READ request. -/
theorem create_read {w : World} {request : RwPacket} (ht : request.type = .read)
    (ha : w.notAllowed = none) :
    create w request = ((blank .read).processOptions w request).startRead w request := by
  unfold create
  rw [ha, ht]
  rfl

/-- The constructor on an allowed WRITE request. -/
theorem create_write {w : World} {request : RwPacket} (ht : request.type = .write)
    (ha : w.notAllowed = none) :
    create w request = ((blank .write).processOptions w request).startWrite w request := by
  unfold create
  rw [ha, ht]
  rfl

/-- What holds of every connection before its first event. -/
structure Started (c : TftpServerConnection) : Prop where
  timer : c.timer = .disarmed
  finished : c.finished = false
  timeoutCount : c.timeoutCount = 0
  timeoutS : 0 < c.timeoutS.toNat
  waiting : c.waitForRead = false
  finalAck : c.finalAck = false

private theorem started_startRead (w : World) (request : RwPacket) {c : TftpServerConnection}
    (h : Started c) : Started (c.startRead w request) := by
  unfold startRead
  dsimp only
  split
  · split
    · exact ⟨h.timer, h.finished, h.timeoutCount, h.timeoutS, rfl, h.finalAck⟩
    · exact ⟨h.timer, h.finished, h.timeoutCount, h.timeoutS, rfl, h.finalAck⟩
  · split
    · exact ⟨h.timer, h.finished, h.timeoutCount, h.timeoutS, rfl, h.finalAck⟩
    · exact ⟨h.timer, h.finished, h.timeoutCount, h.timeoutS, rfl, h.finalAck⟩

private theorem started_startWrite (w : World) (request : RwPacket) {c : TftpServerConnection}
    (h : Started c) : Started (c.startWrite w request) := by
  unfold startWrite
  dsimp only
  split
  · refine ⟨h.timer, h.finished, h.timeoutCount, h.timeoutS, ?_, h.finalAck⟩
    by_cases ho : c.oackPacket.options = []
    · simp [waitForRead, ho]
    · simp [waitForRead, ho]
  · exact ⟨h.timer, h.finished, h.timeoutCount, h.timeoutS, rfl, h.finalAck⟩

private theorem started_processOptions (w : World) (request : RwPacket) (type : PacketT) :
    Started ((blank type).processOptions w request) := by
  have h := optionsOnly_processOptions w request (blank type)
  generalize processOptions w request (blank type) = c at h
  refine ⟨?_, ?_, ?_, h.timeoutS (by decide : 0 < (2 : UInt8).toNat), ?_, ?_⟩
  · rw [h.eq]; rfl
  · rw [h.eq]; rfl
  · rw [h.eq]; rfl
  · rw [h.eq]; rfl
  · rw [h.eq]; rfl

/-- The constructor arms no timer and enters no waiting state. -/
theorem started_create (w : World) (request : RwPacket) : Started (create w request) := by
  have h := started_processOptions w request request.type
  unfold create
  split
  · exact ⟨rfl, rfl, rfl, (by decide : 0 < (2 : UInt8).toNat), rfl, rfl⟩
  · dsimp only
    split
    · exact started_startRead w request h
    · exact started_startWrite w request h
    · exact ⟨h.timer, h.finished, h.timeoutCount, h.timeoutS, rfl, h.finalAck⟩

/-- The inputs on which a connection starts with an OACK: an allowed request that has an
option taken up, for reading, or for writing to a file that could be opened. -/
def StartsWithOack (w : World) (request : RwPacket) : Prop :=
  w.notAllowed = none ∧ (∃ opt ∈ request.options, acceptsOption request.type opt = true) ∧
    (request.type = .read ∨ request.type = .write ∧ w.writable.isSome)

instance (w : World) (request : RwPacket) : Decidable (StartsWithOack w request) :=
  inferInstanceAs (Decidable (_ ∧ _))

private theorem blank_options (w : World) (request : RwPacket) (type : PacketT) :
    ((blank type).processOptions w request).oackPacket.options ≠ [] ↔
      ∃ opt ∈ request.options, acceptsOption request.type opt = true := by
  rw [ne_eq, oackPacket_processOptions_eq_nil_iff w request _ rfl]
  simp

/-- The state after the READ branch, also where the file could not be opened. -/
theorem state_startRead (w : World) (request : RwPacket) (c : TftpServerConnection) :
    (c.startRead w request).state =
      if c.oackPacket.options = [] then .sendData else .sendOack := by
  unfold startRead
  dsimp only
  by_cases h : (c.fileReader.openFile w.readable request.mode).fd.isSome = true
  · rw [if_pos h]
    split <;> rfl
  · rw [if_neg h]
    split <;> rfl

/-- The state after the WRITE branch. -/
theorem state_startWrite (w : World) (request : RwPacket) (c : TftpServerConnection) :
    (c.startWrite w request).state =
      if w.writable.isSome then
        if c.oackPacket.options = [] then .sendAck else .sendOack
      else .error := by
  unfold startWrite
  cases hw : w.writable with
  | none => rfl
  | some sink => rfl

/-- The writer after the WRITE branch. -/
theorem fileWriter_startWrite (w : World) (request : RwPacket) (c : TftpServerConnection) :
    (c.startWrite w request).fileWriter = c.fileWriter.openFile w.writable request.mode := by
  unfold startWrite
  dsimp only
  split
  · rfl
  · rfl

/-- A WRITE request makes a WRITE connection, whose counter starts at zero. -/
theorem blockNumber_create_write {w : World} {request : RwPacket} (ht : request.type = .write)
    (ha : w.notAllowed = none) :
    (create w request).type = .write ∧ (create w request).blockNumber = 0 := by
  rw [create_write ht ha]
  have h := optionsOnly_processOptions w request (blank .write)
  generalize processOptions w request (blank .write) = c at h
  have hc : c.type = .write := by rw [h.eq]; rfl
  unfold startWrite
  dsimp only
  split
  · exact ⟨hc, rfl⟩
  · exact ⟨hc, rfl⟩

/-- A READ request makes a READ connection. -/
theorem type_create_read {w : World} {request : RwPacket} (ht : request.type = .read)
    (ha : w.notAllowed = none) : (create w request).type = .read := by
  rw [create_read ht ha]
  have h := optionsOnly_processOptions w request (blank .read)
  generalize processOptions w request (blank .read) = c at h
  have hc : c.type = .read := by rw [h.eq]; rfl
  unfold startRead
  dsimp only
  split
  · split
    · exact hc
    · exact hc
  · split
    · exact hc
    · exact hc

/-- Any other packet leads to an error packet. -/
theorem state_create_other {w : World} {request : RwPacket} (ha : w.notAllowed = none)
    (ht : request.type = .data ∨ request.type = .ack ∨ request.type = .error ∨
      request.type = .oack) : (create w request).state = .error := by
  unfold create
  rw [ha]
  rcases ht with ht | ht | ht | ht <;> rw [ht]

/-- A connection starts in SEND_OACK exactly on these inputs. -/
theorem state_create_eq_sendOack_iff (w : World) (request : RwPacket) :
    (create w request).state = .sendOack ↔ StartsWithOack w request := by
  unfold StartsWithOack
  cases ha : w.notAllowed with
  | some error => simp [create, ha]
  | none =>
    cases ht : request.type with
    | read =>
      have ho := blank_options w request .read
      rw [ht] at ho
      rw [create_read ht ha, state_startRead, ← ho]
      split
      · next h => simp [h]
      · next h => simp [h]
    | write =>
      have ho := blank_options w request .write
      rw [ht] at ho
      rw [create_write ht ha, state_startWrite, ← ho]
      split
      · next hw =>
        split
        · next h => simp [h]
        · next h => simp [h, hw]
      · next hw => simp [hw]
    | data => simp [state_create_other ha (.inl ht)]
    | ack => simp [state_create_other ha (.inr (.inl ht))]
    | error => simp [state_create_other ha (.inr (.inr (.inl ht)))]
    | oack => simp [state_create_other ha (.inr (.inr (.inr ht)))]

/-! ### The streams -/

private theorem fileReader_startRead (w : World) (request : RwPacket)
    (c : TftpServerConnection) :
    (c.startRead w request).fileReader = c.fileReader.openFile w.readable request.mode ∧
      (c.startRead w request).fileWriter = c.fileWriter := by
  unfold startRead
  dsimp only
  split
  · split
    · exact ⟨rfl, rfl⟩
    · exact ⟨rfl, rfl⟩
  · split
    · exact ⟨rfl, rfl⟩
    · exact ⟨rfl, rfl⟩

private theorem fileReader_startWrite (w : World) (request : RwPacket)
    (c : TftpServerConnection) : (c.startWrite w request).fileReader = c.fileReader := by
  unfold startWrite
  dsimp only
  split
  · rfl
  · rfl

private theorem files_processOptions (w : World) (request : RwPacket) (type : PacketT) :
    ((blank type).processOptions w request).fileReader = {} ∧
      ((blank type).processOptions w request).fileWriter = {} := by
  rw [(optionsOnly_processOptions w request (blank type)).eq]
  exact ⟨rfl, rfl⟩

/-- Only an allowed READ request opens a file for reading, and only an allowed WRITE request
one for writing. -/
theorem files_create (w : World) (request : RwPacket) :
    (create w request).fileReader =
        (if w.notAllowed = none ∧ request.type = .read then
          ({} : TftpReadFile).openFile w.readable request.mode else {}) ∧
      (create w request).fileWriter =
        if w.notAllowed = none ∧ request.type = .write then
          ({} : TftpWriteFile).openFile w.writable request.mode else {} := by
  cases ha : w.notAllowed with
  | some error =>
    rw [create, ha]
    exact ⟨rfl, rfl⟩
  | none =>
    cases ht : request.type with
    | read =>
      rw [create_read ht ha, (fileReader_startRead w request _).1,
        (fileReader_startRead w request _).2, (files_processOptions w request _).1,
        (files_processOptions w request _).2]
      exact ⟨rfl, rfl⟩
    | write =>
      rw [create_write ht ha, fileReader_startWrite, fileWriter_startWrite,
        (files_processOptions w request _).1, (files_processOptions w request _).2]
      exact ⟨rfl, rfl⟩
    | data | ack | error | oack =>
      have hf := files_processOptions w request request.type
      rw [ht] at hf
      simp only [create, ha, ht]
      exact hf

/-- A connection reads from a file when its READ request was allowed and opened one. -/
theorem fileReader_create_isSome_iff (w : World) (request : RwPacket) :
    (create w request).fileReader.fd.isSome ↔
      w.notAllowed = none ∧ request.type = .read ∧ w.readable.isSome := by
  rw [(files_create w request).1]
  split
  · next h => simp [TftpReadFile.openFile, h.1, h.2]
  · next h =>
    simp only [Option.isSome_none, Bool.false_eq_true, false_iff]
    exact fun hc ↦ h ⟨hc.1, hc.2.1⟩

/-- A connection writes to a file when its WRITE request was allowed and opened one. -/
theorem fileWriter_create_isSome_iff (w : World) (request : RwPacket) :
    (create w request).fileWriter.fd.isSome ↔
      w.notAllowed = none ∧ request.type = .write ∧ w.writable.isSome := by
  rw [(files_create w request).2]
  split
  · next h => simp [TftpWriteFile.openFile, h.1, h.2]
  · next h =>
    simp only [Option.isSome_none, Bool.false_eq_true, false_iff]
    exact fun hc ↦ h ⟨hc.1, hc.2.1⟩

end CppTftp.TftpServerConnection
