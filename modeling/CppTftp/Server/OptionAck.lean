import CppTftp.Server.Upload
import Mathlib.Data.List.TakeWhile

/-!
# Uploads that start with an OACK

An OACK stands for ACK 0, so a client that receives it goes on with block 1. The connection
is compared with the one that differs only in having ACK 0 to send.
-/

namespace CppTftp.TftpServerConnection

open Tftp Lib

variable {b : Build} {c : TftpServerConnection} {log : List Action}

/-- The same connection with ACK 0 to send in place of the OACK. -/
def startingWithAck (c : TftpServerConnection) : TftpServerConnection :=
  { c with state := .sendAck, oackPacket := {} }

/-- The datagrams among the events are a conforming client's: its blocks in order, counted
from `n + 1` on, any of them possibly again. -/
def ConformingClient (size : Nat) (file : Bytes) : Nat → List Event → Prop
  | _, [] => True
  | n, e :: es =>
    match e with
    | .readable (.datagram d) => ∃ m, 1 ≤ m ∧ m ≤ n + 1 ∧ d = dataFrame size file m ∧
        ConformingClient size file (max n m) es
    | _ => ConformingClient size file n es

/-- The actions from the first write on. -/
def fromFirstWrite (log : List Action) : List Action := log.dropWhile fun a ↦ (payload? a).isNone

theorem fromFirstWrite_eq_nil_iff (log : List Action) :
    fromFirstWrite log = [] ↔ ∀ data, .write data ∉ log := by
  rw [fromFirstWrite, List.dropWhile_eq_nil_iff]
  constructor
  · intro h data hd
    have hn := h _ hd
    cases hn
  · intro h a ha
    cases a with
    | write data => exact absurd ha (h data)
    | recv d => rfl
    | send d => rfl
    | readInTo => rfl

/-! ### Block sizes that leave no room for a header -/

/-- What fits into less than a header is no DATA packet, so nothing is written. -/
theorem write_not_mem_of_small {e : Event} (hsize : c.blockSize < 4) (data : Bytes) :
    .write data ∉ (step b c e).log := by
  intro hw
  obtain ⟨r, rfl⟩ := readable_of_mem hw (by simp) (by simp)
  obtain ⟨-, d, -, -, hmem⟩ := handleRead_wrote hw
  have hlen : (d.take c.blockSize).length < 4 := by
    rw [List.length_take]
    omega
  have hnone : deserialiseDataPacket (d.take c.blockSize) = none := by
    rw [deserialiseDataPacket, if_pos (.inl hlen)]
  unfold readData at hmem
  rw [hnone] at hmem
  dsimp only at hmem
  split at hmem
  · cases hmem
  · cases hmem

/-- Nothing is written in any run. -/
theorem fromFirstWrite_of_small (hsize : c.blockSize < 4) (es : List Event) :
    fromFirstWrite (exec (step b) c es).log = [] := by
  rw [fromFirstWrite_eq_nil_iff]
  apply exec_log
    (I := fun (l : List Action) (c : TftpServerConnection) ↦
      c.blockSize < 4 ∧ ∀ data, .write data ∉ l)
    (Q := fun l ↦ ∀ data, .write data ∉ l) es ⟨hsize, fun _ ↦ List.not_mem_nil⟩
  · exact fun _ _ h ↦ h.2
  · intro l c e l' c' h hs
    refine ⟨(kept_step hs).blockSize.symm ▸ h.1, fun data hd ↦ ?_⟩
    rcases List.mem_append.mp hd with hd | hd
    · exact h.2 data hd
    · have hlog : (step b c e).log = l' := by rw [hs]; rfl
      rw [← hlog] at hd
      exact write_not_mem_of_small h.1 data hd
  · intro l c e l' t h hs data hd
    rcases List.mem_append.mp hd with hd | hd
    · exact h.2 data hd
    · have hlog : (step b c e).log = l' := by rw [hs]; rfl
      rw [← hlog] at hd
      exact write_not_mem_of_small h.1 data hd

/-! ### All other block sizes -/

/-- The client's first block, received right after the OACK or ACK 0 was sent. -/
def firstBlock (c : TftpServerConnection) (file : Bytes) : List Event :=
  [.writable .sent, .readable (.datagram (dataFrame c.blockSize file 1))]

/-- The connection that sent the OACK expects block 0, and block 1 is an error to it. -/
theorem log_firstBlock_oack {file : Bytes} (hs : c.state = .sendOack) (ht : c.type = .write)
    (hn : c.blockNumber = 0) (htimer : c.timer = .disarmed) (hsize : 4 ≤ c.blockSize) :
    ∀ data, .write data ∉ (exec (step b) c (firstBlock c file)).log := by
  have hsent : step b c (.writable .sent) =
      .ok [.send (serialiseOackPacket c.oackPacket)] { c with state := .waitForData } := by
    simp [step, handleWrite, hs, handleWriteOack, ht]
  have hread : (step b { c with state := .waitForData }
      (.readable (.datagram (dataFrame c.blockSize file 1)))).log =
        [.recv ((dataFrame c.blockSize file 1).take c.blockSize)] := by
    simp only [step, handleRead, htimer, Timer.hasExpired, Bool.false_eq_true, ↓reduceIte,
      recv_datagram, readData, deserialise_take_dataFrame _ _ _ hsize, hn]
    rfl
  intro data
  rw [firstBlock, exec_cons_ok hsent, Outcome.log_after, log_exec_singleton, hread]
  simp

/-- The connection that sent ACK 0 expects block 1 and hands it to the file writer. -/
theorem log_firstBlock_ack {file : Bytes} (hf : c.finalAck = false) (hn : c.blockNumber = 0)
    (ht : 0 < c.timeoutS.toNat) (hsize : 4 ≤ c.blockSize) :
    .write ((block c.blockSize file 1).take (c.blockSize - 4)) ∈
      (exec (step b) (startingWithAck c) (firstBlock c file)).log := by
  have hsent : step b (startingWithAck c) (.writable .sent) =
      .ok [.send (serialiseAckPacket { blockNumber := 0 })]
        ({ startingWithAck c with blockNumber := 1 }.waitWithTimer .waitForData) := by
    have hzero : (startingWithAck c).blockNumber = 0 := hn
    have hack := step_sendAck b (c := startingWithAck c) rfl hf
    rw [hzero] at hack
    exact hack
  have hread : (step b ({ startingWithAck c with blockNumber := 1 }.waitWithTimer .waitForData)
      (.readable (.datagram (dataFrame c.blockSize file 1)))).log =
        [.recv ((dataFrame c.blockSize file 1).take c.blockSize),
          .write ((block c.blockSize file 1).take (c.blockSize - 4))] := by
    simp only [step, handleRead, waitWithTimer, startingWithAck, Timer.armTimer_of_pos ht,
      Timer.hasExpired, Bool.false_eq_true, ↓reduceIte, recv_datagram, readData,
      deserialise_take_dataFrame _ _ _ hsize, Outcome.log_after, received_datagram]
    rw [if_neg (by decide), if_pos (by decide), log_writeBlock]
    rfl
  rw [firstBlock, exec_cons_ok hsent, Outcome.log_after, log_exec_singleton, hread]
  simp

/-- An OACK stands for ACK 0, on every conforming client's datagrams, if and only if blocks
are so small that no DATA packet is ever received. -/
theorem oack_replaces_ack_iff {w : World} {request : RwPacket} (b : Build)
    (ht : request.type = .write) (ho : StartsWithOack w request) :
    (∀ file es, ConformingClient (create w request).blockSize file 0 es →
      fromFirstWrite (exec (step b) (create w request) es).log =
        fromFirstWrite (exec (step b) (startingWithAck (create w request)) es).log) ↔
    (create w request).blockSize < 4 := by
  have hstart := started_create w request
  have hs := (state_create_eq_sendOack_iff w request).mpr ho
  obtain ⟨htype, hn⟩ := blockNumber_create_write ht ho.1
  constructor
  · intro h
    by_contra hsize
    have hsize := Nat.not_lt.mp hsize
    have hclient : ConformingClient (create w request).blockSize [] 0
        (firstBlock (create w request) []) :=
      ⟨1, Nat.le_refl 1, Nat.le_refl 1, rfl, trivial⟩
    have heq := h [] (firstBlock (create w request) []) hclient
    have hoack : ∀ data, .write data ∉
        (exec (step b) (create w request) (firstBlock (create w request) [])).log :=
      log_firstBlock_oack hs htype hn hstart.timer hsize
    have hack : _ ∈ (exec (step b) (startingWithAck (create w request))
        (firstBlock (create w request) [])).log :=
      log_firstBlock_ack hstart.finalAck hn hstart.timeoutS hsize
    rw [(fromFirstWrite_eq_nil_iff _).mpr hoack] at heq
    exact (fromFirstWrite_eq_nil_iff _).mp heq.symm _ hack
  · intro hsize file es _
    rw [fromFirstWrite_of_small hsize, fromFirstWrite_of_small (by exact hsize)]

/-- Blocks of two bytes are no blocks to the server. -/
theorem oack_replaces_ack_small :
    (create { writable := some {} }
      { type := .write, options := [(str "BLKSIZE", str "2")] }).blockSize = 2 ∧
    ∀ file es, ConformingClient 2 file 0 es →
      fromFirstWrite (exec (step .release) (create { writable := some {} }
        { type := .write, options := [(str "BLKSIZE", str "2")] }) es).log =
      fromFirstWrite (exec (step .release) (startingWithAck (create { writable := some {} }
        { type := .write, options := [(str "BLKSIZE", str "2")] })) es).log := by
  have ho : StartsWithOack { writable := some {} }
      { type := .write, options := [(str "BLKSIZE", str "2")] } := by decide
  exact ⟨by decide, (oack_replaces_ack_iff .release rfl ho).mpr (by decide)⟩

/-- After an OACK for 512-byte blocks, block 1 is refused and a block 0 would be written;
after ACK 0, block 1 is written and acknowledged. -/
theorem oack_refuses_block_one :
    let c := create { writable := some {} }
      { type := .write, options := [(str "BLKSIZE", str "512")] }
    let es := [.writable .sent, .readable (.datagram (dataFrame 512 [65] 1)), .writable .sent]
    ConformingClient 512 [65] 0 es ∧
    writes (exec (step .release) c es).log = [] ∧
    writes (exec (step .release) (startingWithAck c) es).log = [[65]] ∧
    acksSent (exec (step .release) (startingWithAck c) es).log = [0, 1] ∧
    writes (exec (step .release) c
      [.writable .sent, .readable (.datagram [0, 3, 0, 0, 65])]).log = [[65]] :=
  ⟨⟨1, Nat.le_refl 1, Nat.le_refl 1, rfl, trivial⟩, rfl, rfl, rfl, rfl⟩

end CppTftp.TftpServerConnection
