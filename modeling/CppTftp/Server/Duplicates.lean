import CppTftp.Server.Download
import CppTftp.Server.Upload

/-!
# Duplicates under the wrap of the block number

A packet with the number before the one awaited has the last packet sent again. The handlers
compare as `int`, where nothing comes before zero, so the block after a multiple of 2^16
blocks is treated differently from all others.
-/

namespace CppTftp.TftpServerConnection

open Tftp Lib

variable {b : Build} {c : TftpServerConnection} {log : List Action} {d : Bytes}

/-- Receiving `d` makes the connection send `reply`, do nothing else, and wait as before. -/
def Repeats (b : Build) (c : TftpServerConnection) (limit : Nat) (d reply : Bytes) : Prop :=
  ∃ c', Runs (step b) c [.readable (.datagram d), .writable .sent]
      [.recv (d.take limit), .send reply] c' ∧
    c'.state = c.state ∧ c'.blockNumber = c.blockNumber

/-- Two calls that return make such a repetition. -/
private theorem repeats_of_steps {c₁ c₂ : TftpServerConnection} {limit : Nat} {reply : Bytes}
    (h₁ : handleRead b c (.datagram d) = .ok [.recv (d.take limit)] c₁)
    (h₂ : c₁.handleWrite .sent = .ok [.send reply] c₂) (hs : c₂.state = c.state)
    (hn : c₂.blockNumber = c.blockNumber) : Repeats b c limit d reply :=
  ⟨c₂, @Runs.cons _ _ _ _ (step b) c c₁ c₂ (.readable (.datagram d)) _ _ _ h₁
    (@Runs.cons _ _ _ _ (step b) c₁ c₂ c₂ (.writable .sent) _ _ _ h₂ (Runs.nil c₂)), hs, hn⟩

/-- A connection in ERROR does not wait again. -/
private theorem not_repeats_of_error {c₁ : TftpServerConnection} {limit : Nat} {reply : Bytes}
    {l : List Action} (h₁ : handleRead b c (.datagram d) = .ok l c₁) (he : c₁.state = .error)
    (hs : c.state ≠ .error) : ¬Repeats b c limit d reply := by
  rintro ⟨c', hr, hs', -⟩
  obtain ⟨l₁, c₂, log', h₁', hr', -⟩ := runs_cons_iff.mp hr
  have h₁' : handleRead b c (.datagram d) = .ok l₁ c₂ := h₁'
  rw [h₁] at h₁'
  obtain ⟨-, rfl⟩ := Outcome.ok_inj.mp h₁'
  obtain ⟨l₂, c₃, log'', h₂, hr'', -⟩ := runs_cons_iff.mp hr'
  obtain ⟨-, rfl⟩ := Outcome.ok_inj.mp hr''
  have h₂ : c₁.handleWrite .sent = .ok l₂ c₃ := h₂
  rw [handleWrite, he] at h₂
  apply hs
  rw [← hs', state_handleWriteError h₂, he]

-- In 16 bits the number before block `n + 1` is that of block `n`; as an `int` it is not when
-- block `n + 1` has the number zero.
private theorem isPrevious_ofNat_iff (n : Nat) :
    isPrevious (UInt16.ofNat n) (UInt16.ofNat (n + 1)) = true ↔ (n + 1) % 65536 ≠ 0 := by
  rw [isPrevious_iff, UInt16.toNat_ofNat', UInt16.toNat_ofNat']
  omega

private theorem ofNat_ne_succ (n : Nat) : UInt16.ofNat n ≠ UInt16.ofNat (n + 1) := by
  intro h
  rw [ofNat_eq_ofNat_iff] at h
  omega

/-- While block `k + 1` is awaited, ACK `k` has it sent again, unless its number is zero. -/
theorem Waiting.repeats_iff {size k : Nat} {stream : Bytes} {a : AckPacket}
    (h : Waiting size stream k log c) (hs : c.state = .waitForAck) (ht : c.timer ≠ .expired)
    (ha : deserialiseAckPacket (d.take ackPktMaxSize) = some a)
    (hn : a.blockNumber = UInt16.ofNat k) :
    Repeats b c ackPktMaxSize d (dataFrame size stream (k + 1)) ↔ (k + 1) % 65536 ≠ 0 := by
  have hread := @handleRead_waitForAck b c ht hs d
  rw [← isPrevious_ofNat_iff]
  by_cases hp : isPrevious (UInt16.ofNat k) (UInt16.ofNat (k + 1)) = true
  · refine ⟨fun _ ↦ hp, fun _ ↦ ?_⟩
    have hnext : c.readAck (d.take ackPktMaxSize) = { c with
        timeoutCount := 0, state := .sendData } := by
      rw [← hn, ← h.blockNumber] at hp
      simp only [TftpServerConnection.readAck, ha, hp, ↓reduceIte]
    rw [hnext] at hread
    have hsent : ({ c with timeoutCount := 0, state := .sendData } : TftpServerConnection
        ).handleWrite .sent = .ok [.send (dataFrame size stream (k + 1))]
          ({ c with timeoutCount := 0, state := .sendData }.waitWithTimer .waitForAck) := by
      simp only [handleWrite, handleWriteData, h.pktReady, ↓reduceIte, transmitData, h.dataPkt,
        dataFrame]
    exact repeats_of_steps hread hsent hs.symm rfl
  · refine ⟨fun hx ↦ ?_, fun hx ↦ absurd hx hp⟩
    have hnext : (c.readAck (d.take ackPktMaxSize)).state = .error := by
      simp only [TftpServerConnection.readAck, ha, hn, h.blockNumber, if_neg hp,
        if_neg (ofNat_ne_succ k)]
    exact absurd hx (not_repeats_of_error hread hnext (by rw [hs]; exact ConnState.noConfusion))

/-- While block `k + 1` is awaited, DATA `k` has ACK `k` sent again, unless the number of the
block awaited is zero. -/
theorem repeats_ack_iff {k : Nat} {p : DataPacket} (hs : c.state = .waitForData)
    (ht : c.timer ≠ .expired) (hf : c.finalAck = false)
    (hc : c.blockNumber = UInt16.ofNat (k + 1))
    (hd : deserialiseDataPacket (d.take c.blockSize) = some p)
    (hn : p.blockNumber = UInt16.ofNat k) :
    Repeats b c c.blockSize d (serialiseAckPacket { blockNumber := UInt16.ofNat k }) ↔
      (k + 1) % 65536 ≠ 0 := by
  have hread := @handleRead_waitForData b c ht hs d
  rw [← isPrevious_ofNat_iff]
  by_cases hp : isPrevious (UInt16.ofNat k) (UInt16.ofNat (k + 1)) = true
  · refine ⟨fun _ ↦ hp, fun _ ↦ ?_⟩
    have hnext : c.readData (d.take c.blockSize) = .ok [] { c with
        timeoutCount := 0, blockNumber := UInt16.ofNat k, state := .sendAck } := by
      simp only [readData, hd, hn, hc, hp, ↓reduceIte, ofNat_succ_sub_one]
    rw [hnext] at hread
    have hsent : ({ c with
        timeoutCount := 0, blockNumber := UInt16.ofNat k, state := .sendAck } :
        TftpServerConnection).handleWrite .sent =
          .ok [.send (serialiseAckPacket { blockNumber := UInt16.ofNat k })]
            ({ c with
              timeoutCount := 0, blockNumber := UInt16.ofNat k + 1, state := .sendAck
              }.waitWithTimer .waitForData) := by
      simp only [handleWrite, handleWriteAck, hf, Bool.false_eq_true, ↓reduceIte]
    exact repeats_of_steps hread hsent hs.symm ((ofNat_succ k).symm.trans hc.symm)
  · refine ⟨fun hx ↦ ?_, fun hx ↦ absurd hx hp⟩
    have hnext : ∃ c₁, c.readData (d.take c.blockSize) = .ok [] c₁ ∧ c₁.state = .error := by
      simp only [readData, hd, hn, hc, if_neg hp, if_neg (ofNat_ne_succ k)]
      exact ⟨_, rfl, rfl⟩
    obtain ⟨c₁, hnext, he⟩ := hnext
    rw [hnext] at hread
    exact absurd hx (not_repeats_of_error hread he (by rw [hs]; exact ConnState.noConfusion))

/-! ### Both directions of transfer -/

/-- A state of a download, reached in some run, that waits for the ACK of block `n`. -/
structure AwaitsAck (b : Build) (w : World) (request : RwPacket) (file : FileContents) (n : Nat)
    (log : List Action) (c : TftpServerConnection) : Prop where
  read : request.type = .read
  allowed : w.notAllowed = none
  opened : w.readable = some file
  blockSize : 0 < (create w request).blockSize
  reached : ∃ es, Runs (step b) (create w request) es log c
  unfinished : c.finished = false
  state : c.state = .waitForAck
  timer : c.timer ≠ .expired
  outstanding : (senderWindow log).inFlight.isSome
  number : n = (senderWindow log).acked + 1

/-- A state of an upload that waits for block `n`. -/
structure AwaitsData (n : Nat) (c : TftpServerConnection) : Prop where
  state : c.state = .waitForData
  timer : c.timer ≠ .expired
  finalAck : c.finalAck = false
  pos : 1 ≤ n
  number : c.blockNumber = UInt16.ofNat n

/-- A connection that waits for a block in flight has it cached. -/
theorem AwaitsAck.waiting {w : World} {request : RwPacket} {file : FileContents} {n : Nat}
    (h : AwaitsAck b w request file n log c) :
    ∃ k, n = k + 1 ∧
      Waiting (create w request).blockSize (transferStream request.mode file.bytes) k log c := by
  obtain ⟨es, hr⟩ := h.reached
  have hinv := (downloadInv_runs h.read h.allowed h.opened h.blockSize hr).phase
  rw [DownloadPhase, h.state] at hinv
  rcases hinv with ho | ⟨k, hk⟩
  · have hout := h.outstanding
    rw [ho.window] at hout
    cases hout
  · refine ⟨k, ?_, hk⟩
    rw [h.number]
    rcases hk.acked with ha | ⟨-, -, hf⟩
    · rw [ha]
    · rw [h.unfinished] at hf
      cases hf

/-- For every block a duplicate of the packet before it repeats the last packet sent, and
leads back to waiting for the block, if and only if the number of the block is not zero. -/
theorem duplicate_repeats_iff (b : Build) (n : Nat) :
    (∀ w request file log c d a, AwaitsAck b w request file n log c →
      deserialiseAckPacket (d.take ackPktMaxSize) = some a →
      a.blockNumber = UInt16.ofNat (n - 1) →
      (Repeats b c ackPktMaxSize d (dataFrame (create w request).blockSize
        (transferStream request.mode file.bytes) n) ↔ n % 65536 ≠ 0)) ∧
    ∀ c d p, AwaitsData n c → deserialiseDataPacket (d.take c.blockSize) = some p →
      p.blockNumber = UInt16.ofNat (n - 1) →
      (Repeats b c c.blockSize d (serialiseAckPacket { blockNumber := UInt16.ofNat (n - 1) }) ↔
        n % 65536 ≠ 0) := by
  constructor
  · intro w request file log c d a h ha hn
    obtain ⟨k, rfl, hk⟩ := h.waiting
    exact hk.repeats_iff h.state h.timer ha hn
  · intro c d p h hd hn
    obtain ⟨k, rfl⟩ := Nat.exists_eq_add_of_le' h.pos
    exact repeats_ack_iff h.state h.timer h.finalAck h.number hd hn

/-- While block 1 of an upload is awaited, a DATA packet numbered 0 repeats ACK 0. -/
theorem duplicate_repeats_first : ∃ log c,
    Runs (step .release) (create { writable := some {} } { type := .write }) [.writable .sent]
      log c ∧
    Repeats .release c 512 [0, 3, 0, 0] (serialiseAckPacket { blockNumber := 0 }) := by
  refine ⟨_, _, rfl, ?_⟩
  exact ((duplicate_repeats_iff .release 1).2 _ [0, 3, 0, 0] { data := [], blockNumber := 0 }
    ⟨rfl, Timer.noConfusion, rfl, Nat.le_refl 1, rfl⟩ rfl rfl).mpr (by decide)

/-- While a block with the number zero is awaited, the ACK before it leads to ERROR. -/
theorem Waiting.error_at_wrap {size k : Nat} {stream : Bytes} (h : Waiting size stream k log c)
    (hs : c.state = .waitForAck) (ht : c.timer ≠ .expired) (hk : (k + 1) % 65536 = 0) :
    ∃ l c', step b c (.readable (.datagram (serialiseAckPacket { blockNumber := UInt16.ofNat k })))
      = .ok l c' ∧ c'.state = .error := by
  have hp : ¬isPrevious (UInt16.ofNat k) (UInt16.ofNat (k + 1)) = true := by
    rw [isPrevious_ofNat_iff]
    exact not_not.mpr hk
  refine ⟨_, _, handleRead_waitForAck ht hs _, ?_⟩
  rw [take_serialiseAckPacket]
  simp only [TftpServerConnection.readAck, deserialise_serialiseAckPacket, h.blockNumber,
    if_neg hp, if_neg (ofNat_ne_succ k)]

/-- After 65535 blocks, a duplicate of the last ACK is answered with an error. -/
theorem duplicate_at_wrap : ∃ log c,
    AwaitsAck .release { readable := some { bytes := List.replicate (65535 * 512) 0 } } {}
      { bytes := List.replicate (65535 * 512) 0 } 65536 log c ∧
    ∃ l c', step .release c
        (.readable (.datagram (serialiseAckPacket { blockNumber := 65535 }))) = .ok l c' ∧
      c'.state = .error := by
  have hcount : 65535 < blockCount 512 (List.replicate (65535 * 512) (0 : UInt8)) := by
    rw [blockCount, List.length_replicate]
    decide
  obtain ⟨es, log, c, hr, hu⟩ := @exists_run_underway
    { readable := some { bytes := List.replicate (65535 * 512) 0 } } {} _ .release
    rfl rfl rfl rfl rfl 65535 hcount
  have hacked : (senderWindow log).acked = 65535 := by
    rcases hu.waiting.acked with ha | ⟨-, -, hf⟩
    · exact ha
    · rw [hu.finished] at hf
      cases hf
  have hsize := (kept_runs hr).blockSize
  rw [hu.blockSize] at hsize
  refine ⟨log, c, ⟨rfl, rfl, rfl, ?_, ⟨es, hr⟩, hu.finished, hu.state, hu.timer,
    hu.waiting.sent hacked, ?_⟩, hu.waiting.error_at_wrap hu.state hu.timer (by decide)⟩
  · rw [← hsize]
    decide
  · rw [hacked]

end CppTftp.TftpServerConnection
