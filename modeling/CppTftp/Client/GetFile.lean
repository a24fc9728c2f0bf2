import CppTftp.Common.BlockCoding
import CppTftp.Common.Descriptors
import CppTftp.Lib.Run

/-!
# The client side of a download

`tftp_client::get_file`, `src/client/tftp_client.cpp:13–122`. The socket blocks, so the
function is a state machine over what it receives: it waits for the first packet, or for the
next one with the output file open, until it returns.
-/

namespace CppTftp.TftpClient

open Utils Tftp Lib

/-- What `poll` and the receive call after it deliver. -/
inductive Reception where
  | notReady
  | datagram (data : Bytes)
  | failed (what : String)
  deriving DecidableEq, Repr

/-- Where `get_file` waits, or what it returned; and the bytes in the output file, once it
was opened. -/
inductive GetFile where
  | first
  | next (blockNumber : UInt16) (outFile : Bytes)
  | returned (result : Bool) (outFile : Option Bytes)
  deriving DecidableEq, Repr

/-- The loop up to the next `poll`, `tftp_client.cpp:78–98`: the ACK goes out before the
block is decoded and written. Writing to the output file is taken to succeed. -/
def acceptBlock (mode : Mode) (blockNumber : UInt16) (dataPacket : DataPacket)
    (outFile : Bytes) : Outcome Bytes Stop GetFile :=
  let sent := [serialiseAckPacket { blockNumber }]
  match nativePayload mode dataPacket.data with
  | .error stop => .stop sent stop
  | .ok nativeData =>
    if dataPacket.data.length < dataPktDataMaxSize then
      .ok sent (.returned true (some (outFile ++ nativeData)))
    else .ok sent (.next (blockNumber + 1) (outFile ++ nativeData))

/-- The first packet, `tftp_client.cpp:40–76`; `outFileOpens` is the outcome of opening the
output file. -/
def receiveFirst (mode : Mode) (outFileOpens : Bool) (recvData : Bytes) :
    Outcome Bytes Stop GetFile :=
  match deserialiseDataPacket recvData with
  | none => .ok [] (.returned false none)
  | some dataPacket =>
    if dataPacket.blockNumber ≠ 1 then .ok [] (.returned false none)
    else if outFileOpens then acceptBlock mode 1 dataPacket []
    else .ok [] (.returned false none)

/-- Any later packet, `tftp_client.cpp:106–119`. -/
def receiveNext (mode : Mode) (blockNumber : UInt16) (outFile recvData : Bytes) :
    Outcome Bytes Stop GetFile :=
  match deserialiseDataPacket recvData with
  | none => .ok [] (.returned false (some outFile))
  | some dataPacket =>
    if dataPacket.blockNumber ≠ blockNumber then .ok [] (.returned false (some outFile))
    else acceptBlock mode blockNumber dataPacket outFile

/-- `tftp_client::get_file` from one receive call to the next; the log lists the datagrams
sent. -/
def getFile (mode : Mode) (outFileOpens : Bool) (s : GetFile) (r : Reception) :
    Outcome Bytes Stop GetFile :=
  match s, r with
  | .returned result outFile, _ => .ok [] (.returned result outFile)
  | .first, .notReady => .ok [] (.returned false none)
  | .next _ outFile, .notReady => .ok [] (.returned false (some outFile))
  | .first, .failed what => .stop [] (.exception what)
  | .next _ _, .failed what => .stop [] (.exception what)
  | .first, .datagram data => receiveFirst mode outFileOpens (data.take dataPktMaxSize)
  | .next blockNumber outFile, .datagram data =>
    receiveNext mode blockNumber outFile (data.take dataPktMaxSize)

variable {mode : Mode} {stream file : Bytes}

/-! ### Decoding block by block -/

/-- What the first `k` blocks of a stream decode to, one by one. -/
def decodedBlocks (mode : Mode) (stream : Bytes) : Nat → Except Stop Bytes
  | 0 => .ok []
  | k + 1 =>
    match decodedBlocks mode stream k with
    | .error stop => .error stop
    | .ok out =>
      match nativePayload mode (block dataPktDataMaxSize stream (k + 1)) with
      | .error stop => .error stop
      | .ok data => .ok (out ++ data)

/-- A block that decodes is appended. -/
theorem decodedBlocks_succ {k : Nat} {out data : Bytes} (h : decodedBlocks mode stream k = .ok out)
    (hd : nativePayload mode (block dataPktDataMaxSize stream (k + 1)) = .ok data) :
    decodedBlocks mode stream (k + 1) = .ok (out ++ data) := by
  rw [decodedBlocks, h]
  dsimp only
  rw [hd]

/-- What decodes leaves the decoding of what follows unchanged. -/
theorem nativePayload_append {y z x x' : Bytes} (h : nativePayload mode y = .ok x)
    (h' : nativePayload mode z = .ok x') : nativePayload mode (y ++ z) = .ok (x ++ x') := by
  cases mode with
  | octet =>
    cases h
    cases h'
    rfl
  | netascii =>
    have h : netasciiToNative y = .ok x := h
    have h' : netasciiToNative z = .ok x' := h'
    have hwhole : netasciiToNative (y ++ z) = .ok (x ++ x') := by
      rw [netasciiToNative_append h, h']
      rfl
    exact hwhole

/-- A payload fails to decode by an exception, in NETASCII mode. -/
theorem nativePayload_throws {y : Bytes} {stop : Stop} (h : nativePayload mode y = .error stop) :
    mode = .netascii ∧ ∃ what, stop = .exception what := by
  cases mode with
  | octet => cases h
  | netascii =>
    have h : netasciiToNative y = .error stop := h
    exact ⟨rfl, netasciiToNative_throws h⟩

/-- Blocks that decode one by one decode together to the same bytes. -/
theorem nativePayload_of_decodedBlocks {k : Nat} {out : Bytes}
    (h : decodedBlocks mode stream k = .ok out) :
    nativePayload mode (stream.take (k * dataPktDataMaxSize)) = .ok out := by
  induction k generalizing out with
  | zero =>
    cases h
    rw [Nat.zero_mul, List.take_zero]
    cases mode with
    | octet => rfl
    | netascii => rfl
  | succ k ih =>
    rw [decodedBlocks] at h
    split at h
    · cases h
    · next out' hout =>
      split at h
      · cases h
      · next data hdata =>
        cases h
        rw [← take_append_block]
        exact nativePayload_append (ih hout) hdata

/-- Blocks that have been decoded one by one did decode. -/
theorem decodes_of_decodedBlocks {n : Nat} {out : Bytes}
    (h : decodedBlocks mode stream n = .ok out) {k : Nat} (hk : k < n) :
    ∃ data, nativePayload mode (block dataPktDataMaxSize stream (k + 1)) = .ok data := by
  induction n generalizing out with
  | zero => omega
  | succ n ih =>
    rw [decodedBlocks] at h
    split at h
    · cases h
    · next out' hout =>
      split at h
      · cases h
      · next data hdata =>
        by_cases he : k = n
        · rw [he]
          exact ⟨data, hdata⟩
        · exact ih hout (by omega)

/-- A stream decodes to the file it was made from. -/
theorem nativePayload_transferStream (mode : Mode) (file : Bytes) :
    nativePayload mode (transferStream mode file) = .ok file := by
  cases mode with
  | octet => rfl
  | netascii =>
    have hwhole := netasciiToNative_nativeToNetascii file
    rw [← transferStream_netascii] at hwhole
    exact hwhole

/-- All blocks together decode to the file. -/
theorem eq_file_of_decodedBlocks {out : Bytes}
    (h : decodedBlocks mode (transferStream mode file)
      (blockCount dataPktDataMaxSize (transferStream mode file)) = .ok out) : out = file := by
  have hwhole := nativePayload_of_decodedBlocks h
  rw [take_blockCount (by decide), nativePayload_transferStream] at hwhole
  exact (Except.ok.inj hwhole).symm

/-- Every block of the stream of a file decodes in OCTET mode, and in NETASCII mode where no
block boundary splits a pair. -/
theorem blocks_decode_iff (mode : Mode) (file : Bytes) :
    (∀ k < blockCount dataPktDataMaxSize (transferStream mode file), ∃ data,
      nativePayload mode (block dataPktDataMaxSize (transferStream mode file) (k + 1)) =
        .ok data) ↔
    mode = .octet ∨ ¬SplitsPair dataPktDataMaxSize file := by
  simp only [nativePayload_iff]
  cases mode with
  | octet => simp
  | netascii =>
    have hpaired : WellPaired (nativeToNetascii file) :=
      (accepted_iff _).mp ⟨file, netasciiToNative_nativeToNetascii file⟩
    simp only [reduceCtorEq, false_or, transferStream_netascii]
    rw [← forall_mem_blocks (P := WellPaired), wellPaired_blocks_iff (by decide) hpaired]
    simp only [getElem?_nativeToNetascii_eq_CR_iff]
    constructor
    · rintro h ⟨i, c, hi, hc, hd⟩
      exact h _ ⟨i, c, hi, hc, rfl⟩ hd
    · rintro h p ⟨i, c, hi, hc, rfl⟩ hd
      exact h ⟨i, c, hi, hc, hd⟩

/-! ### Taking blocks -/

/-- The client has written what the first `k` blocks decode to, and waits for the next one. -/
def Awaits (mode : Mode) (stream : Bytes) (k : Nat) (s : GetFile) : Prop :=
  ∃ out, decodedBlocks mode stream k = .ok out ∧
    (s = .first ∧ k = 0 ∨ s = .next (UInt16.ofNat (k + 1)) out)

/-- What the client is after block `k + 1`, with these bytes written. -/
def afterBlock (stream : Bytes) (k : Nat) (out : Bytes) : GetFile :=
  if k + 1 = blockCount dataPktDataMaxSize stream then .returned true (some out)
  else .next (UInt16.ofNat (k + 2)) out

/-- A whole DATA datagram fits the client's receive limit. -/
theorem take_dataFrame (stream : Bytes) (n : Nat) :
    (dataFrame dataPktDataMaxSize stream n).take dataPktMaxSize =
      dataFrame dataPktDataMaxSize stream n := by
  apply List.take_of_length_le
  have h := length_block_le dataPktDataMaxSize stream n
  rw [dataFrame, length_serialiseDataPacket]
  exact Nat.add_le_add_right h 4

/-- The client's loop on the datagram of the block awaited. -/
theorem getFile_awaited {k : Nat} {s : GetFile} (h : Awaits mode stream k s) :
    ∃ out, decodedBlocks mode stream k = .ok out ∧
      getFile mode true s (.datagram (dataFrame dataPktDataMaxSize stream (k + 1))) =
        acceptBlock mode (UInt16.ofNat (k + 1))
          { data := block dataPktDataMaxSize stream (k + 1), blockNumber := UInt16.ofNat (k + 1) }
          out := by
  obtain ⟨out, hout, h⟩ := h
  refine ⟨out, hout, ?_⟩
  rcases h with ⟨rfl, rfl⟩ | rfl
  · cases hout
    simp only [getFile, take_dataFrame, receiveFirst, deserialise_dataFrame, ↓reduceIte]
    rfl
  · simp only [getFile, take_dataFrame, receiveNext, deserialise_dataFrame, ne_eq,
      not_true_eq_false, ↓reduceIte]

/-- A block that decodes is acknowledged and written; the short one ends the transfer. -/
theorem getFile_accepts {k : Nat} {s : GetFile} {data : Bytes} (h : Awaits mode stream k s)
    (hk : k < blockCount dataPktDataMaxSize stream)
    (hd : nativePayload mode (block dataPktDataMaxSize stream (k + 1)) = .ok data) :
    ∃ out, decodedBlocks mode stream (k + 1) = .ok out ∧
      getFile mode true s (.datagram (dataFrame dataPktDataMaxSize stream (k + 1))) =
        .ok [serialiseAckPacket { blockNumber := UInt16.ofNat (k + 1) }]
          (afterBlock stream k out) := by
  have hsize : 0 < dataPktDataMaxSize := by decide
  have hshort := length_block_lt_iff hsize stream k
  obtain ⟨out, hout, hget⟩ := getFile_awaited h
  refine ⟨out ++ data, decodedBlocks_succ hout hd, ?_⟩
  rw [hget, acceptBlock, afterBlock]
  dsimp only
  rw [hd]
  dsimp only
  by_cases hlast : k + 1 = blockCount dataPktDataMaxSize stream
  · rw [if_pos (hshort.mpr (Nat.le_of_eq hlast.symm)), if_pos hlast]
  · have hfull : ¬(block dataPktDataMaxSize stream (k + 1)).length < dataPktDataMaxSize :=
      fun hlt ↦ hlast (Nat.le_antisymm hk (hshort.mp hlt))
    rw [if_neg hfull, if_neg hlast, ← ofNat_succ]

/-- A block that does not decode is acknowledged, and then the client throws. -/
theorem getFile_throws {k : Nat} {s : GetFile} {stop : Stop} (h : Awaits mode stream k s)
    (hd : nativePayload mode (block dataPktDataMaxSize stream (k + 1)) = .error stop) :
    getFile mode true s (.datagram (dataFrame dataPktDataMaxSize stream (k + 1))) =
      .stop [serialiseAckPacket { blockNumber := UInt16.ofNat (k + 1) }] stop := by
  obtain ⟨out, -, hget⟩ := getFile_awaited h
  rw [hget, acceptBlock]
  dsimp only
  rw [hd]

/-- A client that goes on with the block awaited has acknowledged and written it. -/
theorem getFile_takes {k : Nat} {l : List Bytes} {s s' : GetFile} (h : Awaits mode stream k s)
    (hk : k < blockCount dataPktDataMaxSize stream)
    (hs : getFile mode true s (.datagram (dataFrame dataPktDataMaxSize stream (k + 1))) =
      .ok l s') :
    ∃ out, decodedBlocks mode stream (k + 1) = .ok out ∧
      l = [serialiseAckPacket { blockNumber := UInt16.ofNat (k + 1) }] ∧
      s' = afterBlock stream k out := by
  cases hx : nativePayload mode (block dataPktDataMaxSize stream (k + 1)) with
  | error stop =>
    rw [getFile_throws h hx] at hs
    exact absurd hs Outcome.stop_ne_ok
  | ok data =>
    obtain ⟨out, hout, hget⟩ := getFile_accepts h hk hx
    rw [hget] at hs
    obtain ⟨rfl, rfl⟩ := Outcome.ok_inj.mp hs
    exact ⟨out, hout, rfl, rfl⟩

/-- A client that is not done after a block awaits the next one. -/
theorem awaits_afterBlock {k : Nat} {out : Bytes}
    (hout : decodedBlocks mode stream (k + 1) = .ok out)
    (hk : k + 1 ≠ blockCount dataPktDataMaxSize stream) :
    Awaits mode stream (k + 1) (afterBlock stream k out) := by
  rw [afterBlock, if_neg hk]
  exact ⟨out, hout, .inr rfl⟩

/-- A datagram that the client does not take ends the transfer without success. -/
theorem getFile_rejects {k : Nat} {s : GetFile} (h : Awaits mode stream k s) (d : Bytes) :
    (∃ data, deserialiseDataPacket (d.take dataPktMaxSize) =
      some { data, blockNumber := UInt16.ofNat (k + 1) }) ∨
    ∃ outFile, getFile mode true s (.datagram d) = .ok [] (.returned false outFile) := by
  obtain ⟨out, -, h⟩ := h
  cases hd : deserialiseDataPacket (d.take dataPktMaxSize) with
  | none =>
    right
    rcases h with ⟨rfl, -⟩ | rfl
    · exact ⟨none, by simp only [getFile, receiveFirst, hd]⟩
    · exact ⟨some out, by simp only [getFile, receiveNext, hd]⟩
  | some p =>
    by_cases hn : p.blockNumber = UInt16.ofNat (k + 1)
    · exact .inl ⟨p.data, by rw [← hn]⟩
    · right
      rcases h with ⟨rfl, rfl⟩ | rfl
      · refine ⟨none, ?_⟩
        simp only [getFile, receiveFirst, hd]
        exact if_pos hn
      · refine ⟨some out, ?_⟩
        simp only [getFile, receiveNext, hd]
        exact if_pos hn

end CppTftp.TftpClient
