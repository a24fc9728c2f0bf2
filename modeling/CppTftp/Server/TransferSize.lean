import CppTftp.Server.Options
import CppTftp.Server.Sender

/-!
# The size that is announced and the size that is transferred

The OACK announces what the metadata says of the file. What goes out is what the file reader makes
of it, in blocks that may be sent more than once.
-/

namespace CppTftp.TftpServerConnection

open Tftp Lib Utils

/-! ### The blocks that went out -/

/-- The DATA packets that were sent. -/
def sentPackets (log : List Action) : List DataPacket :=
  log.filterMap fun
    | .send d => deserialiseDataPacket d
    | _ => none

/-- How many bytes of data were sent, repetitions of a block apart. -/
def transferred (log : List Action) : Nat :=
  ((withoutRepetitions (sentPackets log)).flatMap fun p ↦ p.data).length

/-- The packet of a block. -/
def blockPacket (size : Nat) (stream : Bytes) (n : Nat) : DataPacket :=
  { data := block size stream n, blockNumber := UInt16.ofNat n }

/-- The blocks sent are the first ones of the file, as many as the window has seen go out. -/
def BlocksSent (size : Nat) (stream : Bytes) (log : List Action) : Prop :=
  withoutRepetitions (sentPackets log) =
    (List.range ((senderWindow log).sent (blockCount size stream))).map fun i ↦
      blockPacket size stream (i + 1)

variable {size : Nat} {stream : Bytes} {b : Build} {e : Event} {log l : List Action}
  {c c' : TftpServerConnection}

/-- Neighbouring blocks have different numbers. -/
theorem blockPacket_ne_succ (size : Nat) (stream : Bytes) (n : Nat) :
    blockPacket size stream n ≠ blockPacket size stream (n + 1) := by
  intro h
  have hnumber : UInt16.ofNat n = UInt16.ofNat (n + 1) := congrArg DataPacket.blockNumber h
  rw [ofNat_eq_ofNat_iff] at hnumber
  omega

theorem sentPackets_append (log l : List Action) :
    sentPackets (log ++ l) = sentPackets log ++ sentPackets l := List.filterMap_append

/-- Actions without a DATA datagram have no packet. -/
theorem sentPackets_of_dataSent (h : dataSent l = 0) : sentPackets l = [] := by
  rw [dataSent, List.countP_eq_zero] at h
  rw [sentPackets, List.filterMap_eq_nil_iff]
  intro a ha
  cases a with
  | send d => exact Option.not_isSome_iff_eq_none.mp (h _ ha)
  | recv d => rfl
  | readInTo => rfl
  | write d => rfl

/-- The packet of a DATA datagram. -/
theorem sentPackets_dataFrame (size : Nat) (stream : Bytes) (n : Nat) :
    sentPackets [.send (dataFrame size stream n)] = [blockPacket size stream n] := by
  simp [sentPackets, blockPacket]

/-- An action other than sending DATA leaves the number of blocks sent. -/
theorem sent_observe {a : Action} (h : isData a = false) (w : Window Bytes) (count : Nat) :
    (observe w a).sent count = w.sent count := by
  cases a with
  | send d =>
    have hnone : ¬(deserialiseDataPacket d).isSome := Bool.eq_false_iff.mp h
    rw [observe, if_neg hnone]
  | recv d =>
    cases ha : deserialiseAckPacket d with
    | none => rw [observe_recv_none ha]
    | some a => rw [observe_recv_some ha, Window.sent_acknowledge]
  | readInTo => rfl
  | write d => rfl

theorem sent_append (h : dataSent l = 0) (count : Nat) :
    (senderWindow (log ++ l)).sent count = (senderWindow log).sent count := by
  induction l generalizing log with
  | nil => rw [List.append_nil]
  | cons a l ih =>
    rw [dataSent, List.countP_eq_zero] at h
    have ha : isData a = false := Bool.eq_false_iff.mpr (h a List.mem_cons_self)
    have hl : dataSent l = 0 := by
      rw [dataSent, List.countP_eq_zero]
      exact fun x hx ↦ h x (List.mem_cons_of_mem a hx)
    rw [List.append_cons, ih hl, senderWindow_snoc, sent_observe ha]

/-- Reads do not move the window. -/
theorem senderWindow_reads (h : ∀ a ∈ l, a = .readInTo) :
    senderWindow (log ++ l) = senderWindow log := by
  induction l generalizing log with
  | nil => rw [List.append_nil]
  | cons a l ih =>
    rw [List.append_cons, ih fun x hx ↦ h x (List.mem_cons_of_mem a hx), senderWindow_snoc,
      h a List.mem_cons_self, observe_readInTo]

/-- The block that a connection is at is the one in turn. -/
theorem DownloadInv.sends_turn (h : DownloadInv size stream log c) (hsize : 0 < size)
    (hs : TftpServerConnection.step b c e = .ok l c') :
    dataSent l = 0 ∨ ∃ reads, (∀ a ∈ reads, a = .readInTo) ∧ l = reads ++
      [.send (dataFrame size stream ((senderWindow log).turn (blockCount size stream)))] := by
  rcases h.sends hsize hs with hnone | ⟨reads, hreads, rfl, -⟩
  · exact .inl hnone
  · right
    have hmem : .send (dataFrame size stream (outstanding log c)) ∈
        (TftpServerConnection.step b c e).log := by
      rw [hs]
      exact List.mem_append_right _ (List.mem_singleton_self _)
    have hdata : (deserialiseDataPacket (dataFrame size stream (outstanding log c))).isSome := by
      rw [deserialise_dataFrame]
      rfl
    exact ⟨reads, hreads, by rw [(h.data_sent hsize hmem hdata).1]⟩

/-- A call keeps the blocks sent in order. -/
theorem BlocksSent.step (h : BlocksSent size stream log) (hinv : DownloadInv size stream log c)
    (hsize : 0 < size) (hs : TftpServerConnection.step b c e = .ok l c') :
    BlocksSent size stream (log ++ l) := by
  unfold BlocksSent at h ⊢
  rcases hinv.sends_turn hsize hs with hnone | ⟨reads, hreads, rfl⟩
  · rw [sentPackets_append, sentPackets_of_dataSent hnone, List.append_nil,
      sent_append hnone]
    exact h
  · have hsent := withoutRepetitions_transmit (blockPacket_ne_succ size stream)
      (blockCount_pos size stream) h
    rw [← List.append_assoc, senderWindow_snoc, observe_send_dataFrame,
      Window.sent_transmit, senderWindow_reads hreads, sentPackets_append, sentPackets_append,
      sentPackets_of_dataSent (dataSent_reads hreads), List.append_nil, sentPackets_dataFrame]
    exact hsent

/-- The blocks sent are in order after every run. -/
theorem blocksSent_runs {w : World} {request : RwPacket} {file : FileContents} {es : List Event}
    (ht : request.type = .read) (ha : w.notAllowed = none) (hf : w.readable = some file)
    (hsize : 0 < (create w request).blockSize)
    (hr : Runs (step b) (create w request) es log c) :
    BlocksSent (create w request).blockSize (transferStream request.mode file.bytes) log := by
  have hinv := hr.invariant (I := fun log c ↦
    DownloadInv (create w request).blockSize (transferStream request.mode file.bytes) log c ∧
      BlocksSent (create w request).blockSize (transferStream request.mode file.bytes) log)
    ⟨downloadInv_create ht ha hf, rfl⟩ ?_
  · exact hinv.2
  · intro log c e l c' h hs
    exact ⟨h.1.step hsize hs, h.2.step h.1 hsize hs⟩

/-- When the last block is among them, the whole file was transferred. -/
theorem BlocksSent.transferred_eq (h : BlocksSent size stream log) (hsize : 0 < size)
    (hall : (senderWindow log).sent (blockCount size stream) = blockCount size stream) :
    transferred log = stream.length := by
  have hstream := flatten_blocks hsize stream
  rw [BlocksSent, hall] at h
  rw [transferred, h, List.flatMap_map]
  exact congrArg List.length hstream

/-- The final ACK comes when the whole file was transferred. -/
theorem transferred_of_finalAck {w : World} {request : RwPacket} {file : FileContents}
    {es : List Event} {d : Bytes} {a : AckPacket} (ht : request.type = .read)
    (ha : w.notAllowed = none) (hf : w.readable = some file)
    (hsize : 0 < (create w request).blockSize)
    (hr : Runs (step b) (create w request) es log c) (hs : step b c e = .ok l c')
    (hd : .recv d ∈ l) (hack : deserialiseAckPacket d = some a) (hfin : c.finished = false)
    (hfin' : c'.finished = true) :
    transferred (log ++ l) = (transferStream request.mode file.bytes).length := by
  have hinv := downloadInv_runs ht ha hf hsize hr
  have hsent := (blocksSent_runs ht ha hf hsize hr).step hinv hsize hs
  obtain ⟨hflight, -, hshort⟩ := hinv.finishing_ack hsize hs hd hack hfin hfin'
  rw [length_block_lt_iff hsize] at hshort
  have hnone : dataSent l = 0 := by
    rcases hinv.sends_turn hsize hs with hnone | ⟨reads, hreads, rfl⟩
    · exact hnone
    · rcases List.mem_append.mp hd with hd | hd
      · cases hreads _ hd
      · cases List.mem_singleton.mp hd
  apply hsent.transferred_eq hsize
  rw [sent_append hnone, Window.sent, hflight]
  exact Nat.min_eq_right hshort

/-! ### The size that is announced -/

/-- An option with the name of the transfer size. -/
def isTsize (opt : Bytes × Bytes) : Bool := strcmpEq opt.1 tsizeOpt

/-- The size that answers an option. -/
def tsizeAnswer (w : World) (opt : Bytes × Bytes) : Option Nat :=
  if isTsize opt then some w.fileSize else none

/-- What one option adds to the transfer sizes. -/
theorem tsize_processOption {w : World} {request : RwPacket} (ht : request.type = .read)
    (c : TftpServerConnection) (opt : Bytes × Bytes) :
    (processOption w request c opt).answers tsizeOpt =
      c.answers tsizeOpt ++ ((tsizeAnswer w opt).map toDecimal).toList := by
  unfold tsizeAnswer isTsize
  by_cases hz : strcmpEq opt.1 tsizeOpt = true
  · have hb : strcmpEq opt.1 blksizeOpt = false := strcmpEq_of_ne hz (by decide)
    rw [processOption, hb, if_neg Bool.false_ne_true, if_pos hz, ht, if_pos hz]
    dsimp only
    rw [answers_pushOack, if_pos hz]
    rfl
  · rw [if_neg hz, answers_processOption_of_ne hz]
    exact (List.append_nil _).symm

/-- Every transfer size asked for is answered with the size of the file. -/
theorem tsize_create {w : World} {request : RwPacket} (ht : request.type = .read)
    (ha : w.notAllowed = none) : (create w request).answers tsizeOpt =
      (request.options.filterMap (tsizeAnswer w)).map toDecimal := by
  have hall := (@answered_foldl Nat Unit (fun _ ↦ ()) tsizeOpt (tsizeAnswer w) (fun _ ↦ ())
    toDecimal (processOption w request) (fun c opt ↦ ⟨rfl, tsize_processOption ht c opt⟩)
    request.options (blank .read)).2
  have hstart : ∀ c : TftpServerConnection,
      (c.startRead w request).answers tsizeOpt = c.answers tsizeOpt := by
    intro c
    unfold startRead
    dsimp only
    split
    · split <;> rfl
    · split <;> rfl
  rw [create_read ht ha, hstart, processOptions, hall]
  exact List.nil_append _

/-- The size of the file is that of the stream when nothing is doubled. -/
theorem length_transferStream_eq_iff (mode : Mode) (file : Bytes) :
    (transferStream mode file).length = file.length ↔
      mode = .octet ∨ ∀ c ∈ file, c ≠ CR ∧ c ≠ LF := by
  cases mode with
  | octet => simp
  | netascii =>
    rw [transferStream_netascii, length_nativeToNetascii_eq_iff]
    simp

/-- The transfer size announced to a client is the size transferred when the final ACK comes, if
and only if the mode is OCTET or the file has no CR and no LF. -/
theorem tsize_transferred_iff {w : World} {request : RwPacket} {file : FileContents}
    {es : List Event} {d : Bytes} {a : AckPacket} {opt : Bytes × Bytes}
    (ht : request.type = .read) (ha : w.notAllowed = none) (hf : w.readable = some file)
    (hstat : w.fileSize = file.bytes.length) (hopt : opt ∈ request.options)
    (hname : strcmpEq opt.1 tsizeOpt = true) (hsize : 0 < (create w request).blockSize)
    (hr : Runs (step b) (create w request) es log c) (hs : step b c e = .ok l c')
    (hd : .recv d ∈ l) (hack : deserialiseAckPacket d = some a) (hfin : c.finished = false)
    (hfin' : c'.finished = true) :
    ((create w request).answers tsizeOpt ≠ [] ∧
        ∀ value ∈ (create w request).answers tsizeOpt, value = toDecimal (transferred (log ++ l))) ↔
      request.mode = .octet ∨ ∀ c ∈ file.bytes, c ≠ CR ∧ c ≠ LF := by
  have hanswers := tsize_create ht ha
  have hmem : toDecimal w.fileSize ∈ (create w request).answers tsizeOpt := by
    rw [hanswers]
    exact List.mem_map_of_mem (List.mem_filterMap.mpr ⟨opt, hopt, if_pos hname⟩)
  have hvalue : ∀ value ∈ (create w request).answers tsizeOpt, value = toDecimal w.fileSize := by
    intro value hvalue
    rw [hanswers] at hvalue
    obtain ⟨n, hn, rfl⟩ := List.mem_map.mp hvalue
    obtain ⟨opt', -, hn⟩ := List.mem_filterMap.mp hn
    obtain ⟨-, hsame⟩ := Option.ite_none_right_eq_some.mp hn
    rw [Option.some.inj hsame]
  have htotal := transferred_of_finalAck ht ha hf hsize hr hs hd hack hfin hfin'
  rw [← length_transferStream_eq_iff, htotal, ← hstat]
  constructor
  · rintro ⟨-, hall⟩
    exact (toDecimal_inj (hall _ hmem)).symm
  · intro hlength
    rw [hlength]
    exact ⟨List.ne_nil_of_mem hmem, hvalue⟩

private def announcing : World := { readable := some { bytes := [10] }, fileSize := 1 }

private def tsizeRequest (mode : Mode) : RwPacket :=
  { mode, options := [(str "TSIZE", str "0")] }

-- The next ACK is the final one.
private def awaitsFinalAck (c : TftpServerConnection) : Bool :=
  !c.finished &&
    (step .release c (.readable (.datagram [0, 4, 0, 1]))).log = [.recv [0, 4, 0, 1]] &&
    (step .release c (.readable (.datagram [0, 4, 0, 1]))).next.toOption.any (·.finished)

private theorem exists_of_awaitsFinalAck {c : TftpServerConnection}
    (h : awaitsFinalAck c = true) : ∃ c',
    step .release c (.readable (.datagram [0, 4, 0, 1])) = .ok [.recv [0, 4, 0, 1]] c' ∧
      c.finished = false ∧ c'.finished = true := by
  rw [awaitsFinalAck, Bool.and_eq_true, Bool.and_eq_true, decide_eq_true_eq, Bool.not_eq_true'] at h
  obtain ⟨c', hs, hfin'⟩ := Outcome.exists_ok h.1.2 h.2
  exact ⟨c', hs, h.1.1, hfin'⟩

/-- A line feed in OCTET mode: one byte is announced, and one byte is transferred. -/
theorem tsize_transferred_octet : ∃ log c c',
    Runs (step .release) (create announcing (tsizeRequest .octet))
      [.writable .sent, .readable (.datagram [0, 4, 0, 0]), .writable .sent] log c ∧
    step .release c (.readable (.datagram [0, 4, 0, 1])) = .ok [.recv [0, 4, 0, 1]] c' ∧
    c.finished = false ∧ c'.finished = true ∧
    ∀ value ∈ (create announcing (tsizeRequest .octet)).answers tsizeOpt,
      value = toDecimal (transferred (log ++ [.recv [0, 4, 0, 1]])) := by
  obtain ⟨c, hr, hc⟩ := @Outcome.exists_ok _ _ _ (exec (step .release)
    (create announcing (tsizeRequest .octet))
    [.writable .sent, .readable (.datagram [0, 4, 0, 0]), .writable .sent]) _ awaitsFinalAck rfl
    (by decide +kernel)
  obtain ⟨c', hs, hfin, hfin'⟩ := exists_of_awaitsFinalAck hc
  have hiff := tsize_transferred_iff rfl rfl rfl rfl (List.mem_singleton_self _) (by decide)
    (by decide) hr hs (List.mem_singleton_self _) rfl hfin hfin'
  exact ⟨_, c, c', hr, hs, hfin, hfin', (hiff.mpr (.inl rfl)).2⟩

/-- A line feed in NETASCII mode: one byte is announced, and two bytes are transferred. -/
theorem tsize_transferred_netascii : ∃ log c c',
    Runs (step .release) (create announcing (tsizeRequest .netascii))
      [.writable .sent, .readable (.datagram [0, 4, 0, 0]), .writable .sent] log c ∧
    step .release c (.readable (.datagram [0, 4, 0, 1])) = .ok [.recv [0, 4, 0, 1]] c' ∧
    c.finished = false ∧ c'.finished = true ∧
    (create announcing (tsizeRequest .netascii)).answers tsizeOpt = [str "1"] ∧
    transferred (log ++ [.recv [0, 4, 0, 1]]) = 2 := by
  obtain ⟨c, hr, hc⟩ := @Outcome.exists_ok _ _ _ (exec (step .release)
    (create announcing (tsizeRequest .netascii))
    [.writable .sent, .readable (.datagram [0, 4, 0, 0]), .writable .sent]) _ awaitsFinalAck rfl
    (by decide +kernel)
  obtain ⟨c', hs, hfin, hfin'⟩ := exists_of_awaitsFinalAck hc
  exact ⟨_, c, c', hr, hs, hfin, hfin', by decide, by decide +kernel⟩

end CppTftp.TftpServerConnection
