import CppTftp.Common.ReadAhead
import CppTftp.Server.Sender

/-!
# The assertion of the file reader

A finished connection is erased, and its file reader destroyed, wherever the transfer is. The
calls of `read_in_to` alone decide what the reader keeps back then.
-/

namespace CppTftp.TftpServerConnection

open Tftp Lib Utils TftpReadFile

variable {b : Build} {e : Event} {log l : List Action} {c c' : TftpServerConnection}

/-! ### The calls of a connection -/

/-- Receiving reads nothing from the file. -/
theorem readCount_handleRead {r : RecvResult} (h : handleRead b c r = .ok l c') :
    readCount l = 0 := by
  have hlog : (handleRead b c r).log = l := congrArg Outcome.log h
  rw [readCount, List.count_eq_zero]
  intro hmem
  rw [← hlog] at hmem
  rcases mem_log_handleRead hmem with ⟨d, hd⟩ | ⟨d, hd⟩
  · cases hd
  · cases hd

private theorem TransmitMove.readCount_eq {s : SendResult} (h : TransmitMove c s l c') :
    readCount l = 0 := by
  cases h <;> rfl

/-- The reader makes the calls that the log has, all for a whole block. -/
theorem readCalls_step (h : step b c e = .ok l c') :
    ∃ bs, ReadCalls c.blockSize c.fileReader bs c'.fileReader ∧ bs.length = readCount l := by
  have hsame : c'.fileReader = c.fileReader → readCount l = 0 →
      ∃ bs, ReadCalls c.blockSize c.fileReader bs c'.fileReader ∧ bs.length = readCount l := by
    intro hreader hcount
    rw [hreader, hcount]
    exact ⟨[], .none _, rfl⟩
  cases move_of_step h with
  | read move => exact hsame move.fileReader (readCount_handleRead h)
  | sendData state move =>
    cases move with
    | cached ready move => exact hsame move.fileReader move.readCount_eq
    | @failed data fileReader ready read error => exact ⟨[data], .call read (.none _), rfl⟩
    | @loaded data fileReader l c' ready read error move =>
      refine ⟨[data], .call read ?_, ?_⟩
      · rw [move.fileReader]
        exact .none _
      · have hcons : readCount (.readInTo :: l) = 1 + readCount l := readCount_append [.readInTo] l
        rw [hcons, move.readCount_eq]
        rfl
  | sendAck state move => cases move <;> exact hsame rfl rfl
  | sendOack state move => cases move <;> exact hsame rfl rfl
  | sendError state move => cases move <;> exact hsame rfl rfl
  | tick => exact hsame rfl rfl
  | hangup => exact hsame rfl rfl

/-- The same of every run. -/
theorem readCalls_runs {c₀ : TftpServerConnection} {es : List Event}
    (hr : Runs (step b) c₀ es log c) :
    ∃ bs, ReadCalls c₀.blockSize c₀.fileReader bs c.fileReader ∧ bs.length = readCount log := by
  have hall := hr.invariant (I := fun log c ↦ c.blockSize = c₀.blockSize ∧
    ∃ bs, ReadCalls c₀.blockSize c₀.fileReader bs c.fileReader ∧ bs.length = readCount log)
    ⟨rfl, [], .none _, rfl⟩ ?_
  · exact hall.2
  · rintro log c e l c' ⟨hsize, bs, hcalls, hcount⟩ hs
    obtain ⟨bs', hcalls', hcount'⟩ := readCalls_step hs
    rw [hsize] at hcalls'
    refine ⟨(kept_step hs).blockSize.trans hsize, bs ++ bs', hcalls.append hcalls', ?_⟩
    rw [List.length_append, hcount, hcount', readCount_append]

/-! ### What is kept back -/

/-- The destructor finds nothing to complain about when nothing is kept back. -/
theorem destroy_eq_ok_iff (r : TftpReadFile) :
    (r.overflowBuffer = [] ∧ ∀ b, r.destroy b = .ok ()) ↔ r.overflowBuffer = [] := by
  constructor
  · exact And.left
  · intro h
    refine ⟨h, fun b ↦ ?_⟩
    cases b with
    | release => rfl
    | debug => rw [destroy, h, if_pos List.isEmpty_nil]

/-- In every state that a READ connection reaches, what its file reader keeps back is decided by
how often it was called. -/
theorem overflow_runs_iff {w : World} {request : RwPacket} {es : List Event}
    (ht : request.type = .read) (hr : Runs (step b) (create w request) es log c) :
    c.fileReader.overflowBuffer = [] ↔ request.mode = .octet ∨
      (nativeToNetascii ((readablePart w.readable).take (asked (create w request).blockSize
        (readablePart w.readable) (readCount log)))).length ≤
          readCount log * (create w request).blockSize := by
  obtain ⟨bs, hcalls, hcount⟩ := readCalls_runs hr
  rw [(files_create w request).1] at hcalls
  rw [← hcount]
  by_cases ha : w.notAllowed = none
  · rw [if_pos ⟨ha, ht⟩] at hcalls
    exact overflow_eq_nil_iff hcalls
  · -- the request was refused, and nothing is read
    rw [if_neg fun h ↦ ha h.1] at hcalls
    obtain ⟨rfl, hreader⟩ := hcalls.closed rfl
    rw [hreader]
    exact iff_of_true rfl (.inr (Nat.zero_le _))

/-- At the final ACK nothing is kept back. -/
theorem overflow_of_finalAck {w : World} {request : RwPacket} {file : FileContents}
    {es : List Event} {d : Bytes} {a : AckPacket} (ht : request.type = .read)
    (ha : w.notAllowed = none) (hf : w.readable = some file)
    (hsize : 0 < (create w request).blockSize)
    (hr : Runs (step b) (create w request) es log c) (hs : step b c e = .ok l c')
    (hd : .recv d ∈ l) (hack : deserialiseAckPacket d = some a) (hfin : c.finished = false)
    (hfin' : c'.finished = true) : c'.fileReader.overflowBuffer = [] := by
  have hinv := downloadInv_runs ht ha hf hsize hr
  have hmem : .recv d ∈ (step b c e).log := by rw [hs]; exact hd
  obtain ⟨r, rfl⟩ := readable_of_mem hmem (by simp) (by simp)
  have hread : handleRead b c r = .ok l c' := hs
  rw [(handleReadMove hread).fileReader, overflow_runs_iff ht hr, hf]
  cases hmode : request.mode with
  | octet => exact .inl rfl
  | netascii =>
    right
    rw [hmode] at hinv
    have hreads : readCount log =
        blockCount (create w request).blockSize (nativeToNetascii file.bytes) := by
      rcases handleRead_received hread hd with ⟨hst, rfl⟩ | hst
      · obtain ⟨-, hlast, hreads⟩ := hinv.numbers_of_waitForAck hst
        exact hreads.trans (hlast.mp (finalAck_of_readAck hack hfin hfin').1)
      · have hx := hinv.phase
        rw [DownloadPhase, hst] at hx
        exact hx.elim
    have hcovered := mt (lt_blockCount_iff hsize (nativeToNetascii file.bytes) (readCount log)).mpr
      (by omega)
    have hpart := length_nativeToNetascii_le_of_prefix
      ((List.take_prefix (asked (create w request).blockSize (readablePart (some file))
        (readCount log)) _).trans file.readable_prefix)
    exact Nat.le_trans hpart (Nat.le_of_not_le hcovered)

/-- Whenever a READ connection is erased, the assertion in the destructor of its file reader is
valid if and only if the mode is OCTET, or the encoding of what the calls so far asked for fits
into the blocks that they gave. -/
theorem reader_assertion_iff {w : World} {request : RwPacket} {es : List Event}
    (ht : request.type = .read) (hr : Runs (step b) (create w request) es log c) :
    (c.fileReader.overflowBuffer = [] ∧ ∀ b', c.fileReader.destroy b' = .ok ()) ↔
      request.mode = .octet ∨
        (nativeToNetascii ((readablePart w.readable).take (asked (create w request).blockSize
          (readablePart w.readable) (readCount log)))).length ≤
            readCount log * (create w request).blockSize :=
  (destroy_eq_ok_iff _).trans (overflow_runs_iff ht hr)

private def readLines (c : UInt8) : World := { readable := some { bytes := List.replicate 8 c } }

private def shortBlocks : RwPacket :=
  { mode := .netascii, options := [(str "BLKSIZE", str "8")] }

private def wrongAck : List Event :=
  [.writable .sent, .readable (.datagram [0, 4, 0, 0]), .writable .sent,
    .readable (.datagram [0, 4, 0, 9]), .writable .sent]

/-- Eight ordinary bytes in a block of eight, and a wrong ACK for it: nothing is kept back. -/
theorem reader_assertion_holds : ∃ log c,
    Runs (step .debug) (create (readLines 65) shortBlocks) wrongAck log c ∧
      c.finished = true ∧ c.fileReader.overflowBuffer = [] ∧
        ∀ b, c.fileReader.destroy b = .ok () := by
  obtain ⟨c, hr, hfin⟩ := @Outcome.exists_ok _ _ _ (exec (step .debug)
    (create (readLines 65) shortBlocks) wrongAck) _ (·.finished) rfl (by decide +kernel)
  exact ⟨_, c, hr, hfin, (reader_assertion_iff rfl hr).mpr (.inr (by decide +kernel))⟩

/-- Eight line feeds in blocks of eight, and a wrong ACK for the first: eight bytes are kept
back. -/
theorem reader_assertion_fails : ∃ log c,
    Runs (step .debug) (create (readLines LF) shortBlocks) wrongAck log c ∧
      c.finished = true ∧ c.fileReader.overflowBuffer.length = 8 ∧
        c.fileReader.destroy .debug = .error .assertion := by
  obtain ⟨c, hr, hc⟩ := @Outcome.exists_ok _ _ _ (exec (step .debug)
    (create (readLines LF) shortBlocks) wrongAck) _
    (fun c ↦ c.finished && c.fileReader.overflowBuffer.length = 8 &&
      c.fileReader.destroy .debug = .error .assertion) rfl (by decide +kernel)
  rw [Bool.and_eq_true, Bool.and_eq_true, decide_eq_true_eq, decide_eq_true_eq] at hc
  exact ⟨_, c, hr, hc.1.1, hc.1.2, hc.2⟩

end CppTftp.TftpServerConnection
