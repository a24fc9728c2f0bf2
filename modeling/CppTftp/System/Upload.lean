import CppTftp.Server.Upload
import Mathlib.Data.List.TakeDrop
import Mathlib.Logic.Relation

/-!
# A conforming sender and the server of one upload

A sender that cuts its file into blocks of 512 bytes, and a WRITE connection without options,
over a network that loses, repeats and reorders datagrams at will. The connection receives
no more than a block's length of a datagram, so the header takes four bytes of each
payload.
-/

namespace CppTftp.Upload

open Tftp Lib TftpServerConnection

/-! ### The two ends -/

/-- Both ends, and all that was ever sent. The sender waits for the ACK numbered `current`,
which is zero while it waits for the answer to its request. -/
structure System where
  server : TftpServerConnection
  serverLog : List Action := []
  current : Nat := 0
  sent : List Bytes := []

/-- One end moves. What it receives was sent by the other end at some time; the sender may
send its block again at any time, and the server's timer may run out at any time. -/
inductive System.Step (b : Build) (file : Bytes) : System → System → Prop
  | server {sys : System} {e : Event} {l : List Action} {c' : TftpServerConnection} :
      (∀ d, e = .readable (.datagram d) → d ∈ sys.sent) →
      step b sys.server e = .ok l c' →
      System.Step b file sys { sys with server := c', serverLog := sys.serverLog ++ l }
  | sends {sys : System} :
      1 ≤ sys.current → sys.current ≤ blockCount dataPktDataMaxSize file →
      System.Step b file sys
        { sys with sent := sys.sent ++ [dataFrame dataPktDataMaxSize file sys.current] }
  | acknowledged {sys : System} {d : Bytes} {a : AckPacket} :
      .send d ∈ sys.serverLog → deserialiseAckPacket d = some a →
      a.blockNumber = UInt16.ofNat sys.current →
      sys.current ≤ blockCount dataPktDataMaxSize file →
      System.Step b file sys { sys with current := sys.current + 1 }

/-- An upload in OCTET mode for which no option is taken up, to a file on a device that takes
everything. -/
structure Setting (w : World) (request : RwPacket) (sink : FileSink) : Prop where
  write : request.type = .write
  octet : request.mode = .octet
  noOptions : ∀ opt ∈ request.options, acceptsOption .write opt = false
  allowed : w.notAllowed = none
  opened : w.writable = some sink
  sound : (FileOut.fopen sink).Sound

variable {w : World} {request : RwPacket} {sink : FileSink} {file : Bytes}
  {sys sys' : System} {b : Build}

/-- How the connection starts: it has ACK 0 to send. -/
theorem create_upload (h : Setting w request sink) : create w request =
    { blank .write with
      state := .sendAck
      fileWriter := TftpWriteFile.openFile {} (some sink) .octet } := by
  have ho : ∀ opt ∈ request.options, acceptsOption request.type opt = false := by
    rw [h.write]
    exact h.noOptions
  rw [create_write h.write h.allowed, processOptions_of_not_accepted ho, startWrite, h.opened,
    h.octet]
  rfl

/-! ### What is taken for the whole file -/

/-- Nothing is written yet, or the connection gave up, or what is left of the first block was
written and taken for the last one. -/
def Written (file : Bytes) (log : List Action) (c : TftpServerConnection) : Prop :=
  c.finalAck = false ∧ (c.state = .error ∨ writes log = []) ∨
    c.finalAck = true ∧ writes log = [file.take (dataPktDataMaxSize - 4)]

/-- The invariant of the two ends and the datagrams between them. -/
structure System.Inv (file : Bytes) (sys : System) : Prop where
  phase : UploadPhase sys.serverLog sys.server
  blockSize : sys.server.blockSize = dataPktDataMaxSize
  sent : ∀ d ∈ sys.sent, ∃ n, 1 ≤ n ∧ n ≤ blockCount dataPktDataMaxSize file ∧
    d = dataFrame dataPktDataMaxSize file n
  written : Written file sys.serverLog sys.server

/-- An event that writes nothing changes nothing about what is written. -/
theorem Written.kept {log l : List Action} {c c' : TftpServerConnection}
    (h : Written file log c) (hk : WroteNothing c l c') : Written file (log ++ l) c' := by
  rw [Written, hk.finalAck, writes_append, hk.writes, List.append_nil]
  rcases h with ⟨hf, he | hw⟩ | h
  · exact .inl ⟨hf, .inl (hk.error he)⟩
  · exact .inl ⟨hf, .inr hw⟩
  · exact .inr h

/-- The first block that is written is short, because its header was received with it. -/
theorem System.Inv.firstBlock {d : Bytes} {p : DataPacket} {l : List Action}
    {c' : TftpServerConnection} (h : System.Inv file sys)
    (hcount : blockCount dataPktDataMaxSize file < 65535) (hd : d ∈ sys.sent)
    (hb : WroteBlock sys.server (d.take sys.server.blockSize) p l c') :
    Written file (sys.serverLog ++ l) c' := by
  have hphase := h.phase
  rw [UploadPhase, hb.state] at hphase
  have hnone : writes sys.serverLog = [] := by
    rcases h.written with ⟨-, he | hw⟩ | ⟨hf, -⟩
    · rw [hb.state] at he
      cases he
    · exact hw
    · rw [hphase.finalAck] at hf
      cases hf
  obtain ⟨n, hpos, hle, rfl⟩ := h.sent d hd
  have hdecoded := hb.decoded
  rw [h.blockSize, deserialise_take_dataFrame _ _ _ (by decide), Option.some.injEq] at hdecoded
  have hn : n = 1 := by
    have hnumber := hb.expected
    rw [hphase.blockNumber, hnone, ← hdecoded, List.length_nil, ofNat_eq_ofNat_iff] at hnumber
    omega
  have hdata : p.data = file.take (dataPktDataMaxSize - 4) := by
    rw [← hdecoded, hn, block_succ, Nat.zero_mul, List.drop_zero, List.take_take]
    rfl
  have hshort : p.data.length < sys.server.blockSize := by
    rw [hdata, h.blockSize, List.length_take]
    have : dataPktDataMaxSize = 512 := rfl
    omega
  rcases hb.last with ⟨he, hf⟩ | hf
  · left
    exact ⟨hf.trans hphase.finalAck, .inl he⟩
  · right
    refine ⟨?_, ?_⟩
    · simp [hf, hshort]
    · rw [writes_append, hnone, hb.writes, hdata]
      rfl

/-- Any move keeps the invariant. -/
theorem System.Inv.step (h : System.Inv file sys)
    (hcount : blockCount dataPktDataMaxSize file < 65535) (hs : System.Step b file sys sys') :
    System.Inv file sys' := by
  cases hs with
  | sends hpos hle =>
    refine ⟨h.phase, h.blockSize, fun d hd ↦ ?_, h.written⟩
    rcases List.mem_append.mp hd with hd | hd
    · exact h.sent d hd
    · exact ⟨sys.current, hpos, hle, List.mem_singleton.mp hd⟩
  | acknowledged _ _ _ _ => exact ⟨h.phase, h.blockSize, h.sent, h.written⟩
  | server hrecv hs =>
    refine ⟨h.phase.step hs, (kept_step hs).blockSize.trans h.blockSize, h.sent, ?_⟩
    rcases h.phase.wrote hs with hk | ⟨d, p, he, hb⟩
    · exact h.written.kept hk
    · exact h.firstBlock hcount (hrecv d he) hb

/-- Before the first move the invariant holds. -/
theorem System.inv_create (h : Setting w request sink) (file : Bytes) :
    System.Inv file { server := create w request } := by
  have hc := create_upload h
  have ho : (create w request).oackPacket.options = [] := by
    rw [hc]
    rfl
  refine ⟨uploadPhase_create h.write ho, ?_, nofun, .inl ⟨?_, .inr rfl⟩⟩
  · rw [hc]
    rfl
  · rw [hc]
    rfl

/-- In every state that the two ends reach, the invariant holds. -/
theorem System.inv_reachable (h : Setting w request sink)
    (hcount : blockCount dataPktDataMaxSize file < 65535)
    (hr : Relation.ReflTransGen (System.Step b file) { server := create w request } sys) :
    System.Inv file sys :=
  invariant_reachable hr (System.inv_create h file) fun _ _ hi hs ↦ hi.step hcount hs

/-- A connection that has sent its final ACK has written the first 508 bytes of the file and
no more, in one block. -/
theorem writes_of_finalAck (h : Setting w request sink)
    (hcount : blockCount dataPktDataMaxSize file < 65535)
    (hr : Relation.ReflTransGen (System.Step b file) { server := create w request } sys)
    (hf : sys.server.finalAck = true) :
    writes sys.serverLog = [file.take (dataPktDataMaxSize - 4)] := by
  rcases (System.inv_reachable h hcount hr).written with ⟨hf', -⟩ | ⟨-, hw⟩
  · rw [hf] at hf'
    cases hf'
  · exact hw

/-! ### The undisturbed run -/

/-- The connection awaits the first block, which the sender has sent. -/
structure System.AwaitsFirst (file : Bytes) (sys : System) : Prop where
  state : sys.server.state = .waitForData
  finalAck : sys.server.finalAck = false
  blockNumber : sys.server.blockNumber = 1
  blockSize : sys.server.blockSize = dataPktDataMaxSize
  timer : sys.server.timer ≠ .expired
  good : sys.server.fileWriter.Good
  octet : sys.server.fileWriter.mode = .octet
  sent : dataFrame dataPktDataMaxSize file 1 ∈ sys.sent

/-- ACK 0 goes out and is received, and the sender sends its first block. -/
theorem exists_awaitsFirst (b : Build) (h : Setting w request sink) (file : Bytes) : ∃ sys,
    Relation.ReflTransGen (System.Step b file) { server := create w request } sys ∧
      System.AwaitsFirst file sys := by
  rw [create_upload h]
  generalize hc : { blank .write with
    state := .sendAck
    fileWriter := TftpWriteFile.openFile {} (some sink) .octet } = c
  have hack := step_sendAck b (c := c) (by rw [← hc]) (by rw [← hc]; rfl)
  generalize ha : serialiseAckPacket { blockNumber := c.blockNumber } = ack at hack
  have h1 : System.Step b file { server := c } _ := .server (fun _ he ↦ Event.noConfusion he) hack
  generalize hw : { c with blockNumber := c.blockNumber + 1 }.waitWithTimer .waitForData = c₁ at h1
  have h2 : System.Step b file { server := c₁, serverLog := [.send ack] }
      { server := c₁, serverLog := [.send ack], current := 1 } := by
    apply System.Step.acknowledged (List.mem_singleton.mpr rfl)
    · rw [← ha]
      exact deserialise_serialiseAckPacket _
    · rw [← hc]
      rfl
    · exact Nat.zero_le _
  have h3 : System.Step b file { server := c₁, serverLog := [.send ack], current := 1 } _ :=
    .sends (Nat.le_refl 1) (blockCount_pos dataPktDataMaxSize file)
  refine ⟨_, ((Relation.ReflTransGen.single h1).tail h2).tail h3, ?_⟩
  subst hw hc
  exact ⟨rfl, rfl, rfl, rfl, Timer.armTimer_ne_expired (2 : UInt8).toNat,
    TftpWriteFile.good_openFile {} h.sound .octet, rfl, List.mem_singleton.mpr rfl⟩

/-- What the connection receives of the first block is written, and its ACK is the final one. -/
theorem System.AwaitsFirst.received (b : Build) (h : System.AwaitsFirst file sys) : ∃ l c',
    step b sys.server (.readable (.datagram (dataFrame dataPktDataMaxSize file 1))) = .ok l c' ∧
      c'.state = .sendAck ∧ c'.finalAck = true := by
  let p : DataPacket :=
    { data := (block dataPktDataMaxSize file 1).take (dataPktDataMaxSize - 4), blockNumber := 1 }
  have hdecoded : deserialiseDataPacket
      ((dataFrame dataPktDataMaxSize file 1).take sys.server.blockSize) = some p := by
    rw [h.blockSize]
    exact deserialise_take_dataFrame _ _ _ (by decide)
  have hnative : nativePayload sys.server.fileWriter.mode p.data = .ok p.data := by
    rw [h.octet]
    rfl
  obtain ⟨fileWriter, hwrite, -, herr, -⟩ := TftpWriteFile.write_of_good h.good hnative
  have hshort : p.data.length < sys.server.blockSize := by
    rw [h.blockSize, List.length_take]
    have : dataPktDataMaxSize = 512 := rfl
    omega
  refine ⟨_, _, step_expected b h.state h.timer hdecoded h.blockNumber.symm hwrite herr, rfl, ?_⟩
  simp [hshort]

/-- The final ACK is sent in some run, whatever the file. -/
theorem exists_finalAck (b : Build) (h : Setting w request sink) (file : Bytes) : ∃ sys,
    Relation.ReflTransGen (System.Step b file) { server := create w request } sys ∧
      sys.server.finished = true ∧ sys.server.finalAck = true := by
  obtain ⟨sys, hr, ha⟩ := exists_awaitsFirst b h file
  obtain ⟨l, c', hread, hstate, hfinal⟩ := ha.received b
  have hr1 := hr.tail (.server (fun d he ↦ by cases he; exact ha.sent) hread)
  have hack := step_sendFinalAck b hstate hfinal
  exact ⟨_, hr1.tail (.server (fun _ he ↦ Event.noConfusion he) hack), rfl, hfinal⟩

/-! ### Integrity -/

/-- Upload integrity holds exactly for the files that fit into what is received of one block:
a connection that has sent its final ACK has the whole file then, and in some run only the
first 508 bytes of any other. -/
theorem upload_integrity_iff (b : Build) (h : Setting w request sink)
    (hcount : blockCount dataPktDataMaxSize file < 65535) :
    (∀ sys, Relation.ReflTransGen (System.Step b file) { server := create w request } sys →
      sys.server.finished = true → sys.server.finalAck = true →
      (writes sys.serverLog).flatten = file) ↔
    file.length ≤ 508 := by
  have htake : file.take (dataPktDataMaxSize - 4) = file ↔ file.length ≤ 508 :=
    List.take_eq_self_iff file
  rw [← htake]
  constructor
  · intro hall
    obtain ⟨sys, hr, hdone, hfinal⟩ := exists_finalAck b h file
    have hw := hall sys hr hdone hfinal
    rw [writes_of_finalAck h hcount hr hfinal, List.flatten_singleton] at hw
    exact hw
  · intro hw sys hr _ hfinal
    rw [writes_of_finalAck h hcount hr hfinal, List.flatten_singleton, hw]

/-- A file of three bytes fits into one block and arrives. -/
theorem upload_integrity_three : ([1, 2, 3] : Bytes).length ≤ 508 ∧ ∀ sys,
    Relation.ReflTransGen (System.Step .release [1, 2, 3])
      { server := create { writable := some {} } { type := .write } } sys →
    sys.server.finished = true → sys.server.finalAck = true →
    (writes sys.serverLog).flatten = [1, 2, 3] := by
  have h : Setting { writable := some {} } { type := .write } {} :=
    ⟨rfl, rfl, nofun, rfl, rfl, rfl, rfl⟩
  have hlength : ([1, 2, 3] : Bytes).length ≤ 508 := by decide
  exact ⟨hlength, (upload_integrity_iff .release h (by decide)).mpr hlength⟩

/-- Of a file of 509 bytes the last is lost in some run: the payload of its only block is cut
to 508 bytes. -/
theorem upload_cuts_block : ∃ sys,
    Relation.ReflTransGen (System.Step .release (List.replicate 509 65))
      { server := create { writable := some {} } { type := .write } } sys ∧
    sys.server.finished = true ∧ sys.server.finalAck = true ∧
    (writes sys.serverLog).flatten = List.replicate 508 65 ∧
    (writes sys.serverLog).flatten ≠ List.replicate 509 65 := by
  have h : Setting { writable := some {} } { type := .write } {} :=
    ⟨rfl, rfl, nofun, rfl, rfl, rfl, rfl⟩
  obtain ⟨sys, hr, hdone, hfinal⟩ := exists_finalAck .release h (List.replicate 509 65)
  have hcount : blockCount dataPktDataMaxSize (List.replicate 509 (65 : UInt8)) < 65535 := by
    rw [blockCount, List.length_replicate]
    decide
  have hw : (writes sys.serverLog).flatten = List.replicate 508 65 := by
    rw [writes_of_finalAck h hcount hr hfinal, List.flatten_singleton, List.take_replicate]
    rfl
  refine ⟨sys, hr, hdone, hfinal, hw, fun heq ↦ ?_⟩
  have hlen := congrArg List.length (hw.symm.trans heq)
  rw [List.length_replicate, List.length_replicate] at hlen
  omega

end CppTftp.Upload
