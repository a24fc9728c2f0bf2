import CppTftp.Client.Framing
import CppTftp.Server.OneBlock
import CppTftp.System.Download

/-!
# The client and the server of one upload

`tftp_client::send_file` and a WRITE connection without options, over the two networks of a
download. The client sends files of 512 bytes or more only, and the connection takes at most
508 of them. After these it is finished, while the client goes on.
-/

namespace CppTftp.ClientUpload

open Utils Tftp Lib TftpClient TftpServerConnection Download

/-! ### The network that may do anything -/

/-- Both ends, and all that each has sent and received. -/
structure System where
  server : TftpServerConnection
  serverLog : List Action := []
  client : SendFile := .reply
  clientLog : List Exchange := []

/-- One end moves. What it receives was sent by the other end at some time; the server's timer
may run out at any time. -/
inductive System.Step (b : Build) (mode : Mode) (file : Option FileContents) :
    System → System → Prop
  | server {sys : System} {e : Event} {l : List Action} {c' : TftpServerConnection} :
      (∀ d, e = .readable (.datagram d) → .sent d ∈ sys.clientLog) →
      step b sys.server e = .ok l c' →
      System.Step b mode file sys { sys with server := c', serverLog := sys.serverLog ++ l }
  | client {sys : System} {r : Reception} {l : List Exchange} {s' : SendFile} :
      (∀ d, r = .datagram d → .send d ∈ sys.serverLog) →
      sendFile mode file sys.client r = .ok l s' →
      System.Step b mode file sys { sys with client := s', clientLog := sys.clientLog ++ l }

variable {b : Build} {mode : Mode} {contents : Option FileContents} {w : World}
  {request : RwPacket}

/-- A client that has got past the reply, and has not given up, has read a full piece. -/
def PastReply (contents : Option FileContents) (s : SendFile) : Prop :=
  s = .reply ∨ s = .returned false ∨ ∃ file, contents = some file ∧ 512 ≤ file.bytes.length

/-- The first read succeeds only if it fills the buffer. -/
theorem le_length_of_read {file : FileContents}
    (h : ((IfStream.openFile file).read 512).2.fails = false) : 512 ≤ file.bytes.length := by
  have hread : (IfStream.openFile file).read 512 =
      if ((FileIn.fopen file).fread 512).2.error = true then
        ([], { file := ((FileIn.fopen file).fread 512).2 })
      else (((FileIn.fopen file).fread 512).1,
        { file := ((FileIn.fopen file).fread 512).2
          failbit := ((FileIn.fopen file).fread 512).2.eof }) := rfl
  rw [hread] at h
  cases he : ((FileIn.fopen file).fread 512).2.error with
  | true => simp [he, IfStream.fails] at h
  | false =>
    have heof := (FileIn.fread_of_not_error he).2.2
    simp only [he, Bool.false_eq_true, if_false, IfStream.fails, Bool.or_false] at h
    rw [h] at heof
    exact Nat.not_lt.mp (of_decide_eq_false heof.symm)

/-- A reception does not take the client past the reply unless it has read a full piece. -/
theorem PastReply.step {s s' : SendFile} {r : Reception} {l : List Exchange}
    (h : PastReply contents s) (hs : sendFile mode contents s r = .ok l s') :
    PastReply contents s' := by
  rcases h with rfl | rfl | h
  · cases r with
    | notReady =>
      obtain ⟨-, rfl⟩ := Outcome.ok_inj.mp hs
      exact .inr (.inl rfl)
    | failed what => exact absurd hs Outcome.stop_ne_ok
    | datagram data =>
      rw [sendFile] at hs
      obtain ⟨l', hs, -⟩ := Outcome.after_eq_ok_iff.mp hs
      have hquit : Outcome.ok [] (SendFile.returned false) = (Outcome.ok l' s' : Outcome _ Stop _) →
          PastReply contents s' := by
        intro he
        obtain ⟨-, rfl⟩ := Outcome.ok_inj.mp he
        exact .inr (.inl rfl)
      unfold receiveReply at hs
      split at hs
      · exact hquit hs
      · split at hs
        · exact hquit hs
        · split at hs
          · exact hquit hs
          · next file _ =>
            dsimp only at hs
            split at hs
            · exact hquit hs
            · next hfails =>
              exact .inr (.inr ⟨file, rfl, le_length_of_read (Bool.eq_false_iff.mpr hfails)⟩)
  · obtain ⟨-, rfl⟩ := Outcome.ok_inj.mp hs
    exact .inr (.inl rfl)
  · exact .inr (.inr h)

/-- Without options the block size stays what it is by default. -/
theorem blockSize_create (ht : request.type = .write) (ho : request.options = []) :
    (create w request).blockSize = dataPktDataMaxSize := by
  cases ha : w.notAllowed with
  | some error =>
    rw [create, ha]
    rfl
  | none =>
    have hnone : ∀ opt ∈ request.options, acceptsOption request.type opt = false := by
      rw [ho]
      intro opt hmem
      cases hmem
    rw [create_write ht ha, processOptions_of_not_accepted hnone, startWrite]
    dsimp only
    split
    · rfl
    · rfl

/-- The invariant of the two ends. -/
structure System.Inv (contents : Option FileContents) (sys : System) : Prop where
  server : OneBlock sys.server sys.serverLog
  blockSize : sys.server.blockSize = dataPktDataMaxSize
  client : PastReply contents sys.client

/-- Any move keeps the invariant. -/
theorem System.Inv.step {sys sys' : System} (h : System.Inv contents sys)
    (hs : System.Step b mode contents sys sys') : System.Inv contents sys' := by
  cases hs with
  | server _ hs =>
    exact ⟨h.server.step hs, (kept_step hs).blockSize.trans h.blockSize, h.client⟩
  | client _ hs => exact ⟨h.server, h.blockSize, h.client.step hs⟩

/-- An upload that the client reports has not been stored: whatever the network did, the
file of the server is shorter than the client's then, and at any time later. -/
theorem reported_upload_is_cut (ht : request.type = .write) (ho : request.options = [])
    {sys : System} (hr : Relation.ReflTransGen (System.Step b mode contents)
      { server := create w request } sys) (hc : sys.client = .returned true) :
    ∃ file, contents = some file ∧ 512 ≤ file.bytes.length ∧
      sys.server.fileWriter.taken.length ≤ 508 ∧
      ∀ capacity, sys.server.fileWriter.destroy capacity ≠ some file.bytes := by
  have hinv : System.Inv contents sys :=
    invariant_reachable hr ⟨oneBlock_create ht, blockSize_create ht ho, .inl rfl⟩
      fun _ _ hi hs ↦ hi.step hs
  rcases hinv.client with h | h | ⟨file, hfile, hlen⟩
  · rw [hc] at h
    cases h
  · rw [hc] at h
    cases h
  · have hshort : sys.server.fileWriter.taken.length ≤ 508 := by
      have hsize : dataPktDataMaxSize = 512 := rfl
      cases hinv.server.blocks with
      | none writes taken =>
        rw [taken]
        exact Nat.zero_le _
      | one data writes fits taken answering =>
        rw [hinv.blockSize] at fits
        omega
    refine ⟨file, hfile, hlen, hshort, ?_⟩
    intro capacity hd
    rw [TftpWriteFile.destroy, Option.map_eq_some_iff] at hd
    obtain ⟨f, hf, hbytes⟩ := hd
    rw [TftpWriteFile.taken, hf] at hshort
    have hle := List.length_take_le capacity f.taken
    have heq := congrArg List.length hbytes
    simp only [FileOut.fclose, Option.map_some, Option.getD_some] at heq hshort
    have htake := List.length_take_le' capacity f.taken
    omega

/-! ### The network that delivers everything once and in order -/

/-- The blocks among the exchange of the client. -/
def blocksOut (l : List Exchange) : List Bytes :=
  l.filterMap fun
    | .sent data => some data
    | .received _ => none

/-- Both ends and the datagrams on their way, oldest first. -/
structure Fifo where
  server : TftpServerConnection
  client : SendFile := .reply
  toClient : List Bytes := []
  toServer : List Bytes := []

/-- One end moves, as in a download. -/
inductive Fifo.Step (b : Build) (mode : Mode) (file : Bytes) : Fifo → Fifo → Prop
  | serverWrites {sys : Fifo} {l : List Action} {c' : TftpServerConnection} :
      sys.server.finished = false → sys.server.waitForWrite = true →
      sys.server.handleWrite .sent = .ok l c' →
      Fifo.Step b mode file sys { sys with server := c', toClient := sys.toClient ++ sends l }
  | serverReads {sys : Fifo} {d : Bytes} {rest : List Bytes} {l : List Action}
      {c' : TftpServerConnection} :
      sys.server.finished = false → sys.server.waitForRead = true →
      sys.toServer = d :: rest → handleRead b sys.server (.datagram d) = .ok l c' →
      Fifo.Step b mode file sys
        { sys with server := c', toServer := rest, toClient := sys.toClient ++ sends l }
  | clientReads {sys : Fifo} {d : Bytes} {rest : List Bytes} {l : List Exchange}
      {s' : SendFile} :
      (∀ result, sys.client ≠ .returned result) →
      sys.toClient = d :: rest →
      sendFile mode (some { bytes := file }) sys.client (.datagram d) = .ok l s' →
      Fifo.Step b mode file sys
        { sys with client := s', toClient := rest, toServer := sys.toServer ++ blocksOut l }

/-- What the server receives of the first block. -/
def firstPayload (mode : Mode) (file : Bytes) : Bytes :=
  (encodeBlock mode (file.take 512)).take (dataPktDataMaxSize - 4)

/-- The client waits for the ACK of the first block. -/
def awaitsFirstAck (mode : Mode) (file : Bytes) : SendFile :=
  .ack (UInt16.ofNat 2) (numberedPacket 2 (encodeBlock mode ((file.drop 512).take 512)))
    (behind (file.drop 512)) false

variable {file : Bytes}

/-- No encoded piece is short unless the piece is. -/
theorem not_short_of_le (mode : Mode) (h : 512 ≤ file.length) :
    ¬(encodeBlock mode (file.take 512)).length < dataPktDataMaxSize := by
  have hle := length_le_length_encodeBlock mode (file.take 512)
  rw [List.length_take, Nat.min_eq_left h] at hle
  exact Nat.not_lt.mpr hle

/-- The ACK of the request lets the first block out. -/
theorem sendFile_first (mode : Mode) (h : 512 ≤ file.length) :
    sendFile mode (some { bytes := file }) .reply (.datagram (ackDatagram 0)) =
      .ok [.received (ackDatagram 0), .sent (dataDatagram 1 (encodeBlock mode (file.take 512)))]
        (awaitsFirstAck mode file) := by
  rw [sendFile_reply, if_neg (Nat.not_lt.mpr h),
    transferLoop_next mode 1 _ (read_behind_of_le h), decide_eq_false (not_short_of_le mode h)]
  rfl

/-- And the ACK of the first block lets the second one out, whatever that is. -/
theorem sendFile_second (mode : Mode) (contents : Option FileContents) (file : Bytes) :
    ∃ inFile data finished,
      sendFile mode contents (awaitsFirstAck mode file) (.datagram (ackDatagram 1)) =
        .ok [.received (ackDatagram 1),
          .sent (dataDatagram 2 (encodeBlock mode ((file.drop 512).take 512)))]
          (.ack (UInt16.ofNat 3) (numberedPacket 3 data) inFile finished) := by
  have hread : ∃ piece rest, (behind (file.drop 512)).read 512 = (piece, behind rest) := by
    by_cases hlt : (file.drop 512).length < 512
    · exact ⟨_, _, read_behind_of_lt hlt⟩
    · exact ⟨_, _, read_behind_of_le (Nat.not_lt.mp hlt)⟩
  obtain ⟨piece, rest, hread⟩ := hread
  rw [awaitsFirstAck, sendFile_ack, transferLoop_next mode 2 _ hread]
  exact ⟨_, _, _, rfl⟩

/-- A WRITE connection that awaits the first block. -/
structure AwaitsFirst (mode : Mode) (c : TftpServerConnection) : Prop where
  state : c.state = .waitForData
  finished : c.finished = false
  finalAck : c.finalAck = false
  blockNumber : c.blockNumber = 1
  blockSize : c.blockSize = dataPktDataMaxSize
  timer : c.timer ≠ .expired
  good : c.fileWriter.Good
  mode : c.fileWriter.mode = mode
  taken : c.fileWriter.taken = []

/-- A connection that has what it takes for the whole file, and is to say so. -/
structure Answers (x : Bytes) (c : TftpServerConnection) : Prop where
  state : c.state = .sendAck
  finished : c.finished = false
  finalAck : c.finalAck = true
  blockNumber : c.blockNumber = 1
  taken : c.fileWriter.taken = x

/-- The first block, received. -/
theorem decoded_first (mode : Mode) (file : Bytes) :
    deserialiseDataPacket
      ((dataDatagram 1 (encodeBlock mode (file.take 512))).take dataPktDataMaxSize) =
      some { data := firstPayload mode file, blockNumber := 1 } :=
  deserialise_take_serialiseDataPacket _ (by decide)

/-- Where its payload decodes, it is stored, and taken for the last one. -/
theorem AwaitsFirst.stores {c : TftpServerConnection} {x : Bytes} (h : AwaitsFirst mode c)
    (hx : nativePayload mode (firstPayload mode file) = .ok x) :
    ∃ c', handleRead b c (.datagram (dataDatagram 1 (encodeBlock mode (file.take 512)))) =
        .ok [.recv ((dataDatagram 1 (encodeBlock mode (file.take 512))).take dataPktDataMaxSize),
          .write (firstPayload mode file)] c' ∧ Answers x c' := by
  have hdecoded := decoded_first mode file
  rw [← h.blockSize] at hdecoded
  have hnative : nativePayload c.fileWriter.mode (firstPayload mode file) = .ok x := by
    rw [h.mode]
    exact hx
  obtain ⟨fileWriter, hwrite, -, herr, -, htaken⟩ := TftpWriteFile.write_of_good h.good hnative
  have hstep := step_expected b h.state h.timer hdecoded h.blockNumber.symm hwrite herr
  have hshort : (firstPayload mode file).length < c.blockSize := by
    have hsize : dataPktDataMaxSize = 512 := rfl
    rw [h.blockSize, firstPayload, List.length_take]
    omega
  rw [← h.blockSize]
  refine ⟨_, hstep, rfl, h.finished, ?_, h.blockNumber, ?_⟩
  · simp [hshort]
  · rw [htaken, h.taken, List.nil_append]

/-- Where it does not, the exception leaves the handler. -/
theorem AwaitsFirst.throws {c : TftpServerConnection} {stop : Stop} (h : AwaitsFirst mode c)
    (hx : nativePayload mode (firstPayload mode file) = .error stop) :
    (handleRead b c (.datagram (dataDatagram 1 (encodeBlock mode (file.take 512))))).next =
      .error stop := by
  have hdecoded := decoded_first mode file
  rw [← h.blockSize] at hdecoded
  have hnative : nativePayload c.fileWriter.mode (firstPayload mode file) = .error stop := by
    rw [h.mode]
    exact hx
  have hwrite := TftpWriteFile.write_of_not_decodable hnative
  have hacc : c.Accepts (dataDatagram 1 (encodeBlock mode (file.take 512)))
      { data := firstPayload mode file, blockNumber := 1 } :=
    ⟨h.timer, h.state, hdecoded, h.blockNumber.symm⟩
  have hstep := hacc.step (b := b)
  rw [step] at hstep
  rw [hstep, Outcome.next_after, writeBlock]
  simp only [hwrite]
  rfl

/-- A WRITE connection that has ACK 0 to send. -/
structure Offers (mode : Mode) (c : TftpServerConnection) : Prop where
  state : c.state = .sendAck
  finished : c.finished = false
  finalAck : c.finalAck = false
  blockNumber : c.blockNumber = 0
  blockSize : c.blockSize = dataPktDataMaxSize
  good : c.fileWriter.Good
  mode : c.fileWriter.mode = mode
  taken : c.fileWriter.taken = []

/-- ACK 0 goes out. -/
theorem Offers.sent {c : TftpServerConnection} (h : Offers mode c) : ∃ c',
    c.handleWrite .sent = .ok [.send (ackDatagram 0)] c' ∧ AwaitsFirst mode c' := by
  have hstep := step_sendAck .release h.state h.finalAck
  rw [h.blockNumber] at hstep
  refine ⟨_, hstep, rfl, h.finished, h.finalAck, rfl, h.blockSize, ?_, h.good, h.mode, h.taken⟩
  exact Timer.armTimer_ne_expired c.timeoutS.toNat

/-- The final ACK goes out. -/
theorem Answers.sent {c : TftpServerConnection} {x : Bytes} (h : Answers x c) :
    c.handleWrite .sent = .ok [.send (ackDatagram 1)] { c with finished := true } := by
  have hpacket : ackDatagram 1 = serialiseAckPacket { blockNumber := c.blockNumber } := by
    rw [h.blockNumber]
    rfl
  rw [hpacket]
  exact step_sendFinalAck .release h.state h.finalAck

/-- The states of an upload, one after the other: of one that the client gives up, of one that ends
in an exception, and of one that is cut. -/
inductive Fifo.Phase (mode : Mode) (file : Bytes) : Nat → Fifo → Prop
  | offering {c : TftpServerConnection} : Offers mode c → Fifo.Phase mode file 0 { server := c }
  | offered {c : TftpServerConnection} : AwaitsFirst mode c →
      Fifo.Phase mode file 1 { server := c, toClient := [ackDatagram 0] }
  | refused {c : TftpServerConnection} : AwaitsFirst mode c → file.length < 512 →
      Fifo.Phase mode file 2 { server := c, client := .returned false }
  | delivering {c : TftpServerConnection} : AwaitsFirst mode c → 512 ≤ file.length →
      Fifo.Phase mode file 2
        { server := c, client := awaitsFirstAck mode file
          toServer := [dataDatagram 1 (encodeBlock mode (file.take 512))] }
  | stored {c : TftpServerConnection} {x : Bytes} : Answers x c → 512 ≤ file.length →
      nativePayload mode (firstPayload mode file) = .ok x →
      Fifo.Phase mode file 3 { server := c, client := awaitsFirstAck mode file }
  | answered {c : TftpServerConnection} {x : Bytes} :
      c.finished = true → c.fileWriter.taken = x → 512 ≤ file.length →
      nativePayload mode (firstPayload mode file) = .ok x →
      Fifo.Phase mode file 4
        { server := c, client := awaitsFirstAck mode file, toClient := [ackDatagram 1] }
  | abandoned {c : TftpServerConnection} {x data : Bytes} {inFile : IfStream} {finished : Bool} :
      c.finished = true → c.fileWriter.taken = x → 512 ≤ file.length →
      nativePayload mode (firstPayload mode file) = .ok x →
      Fifo.Phase mode file 5
        { server := c, client := .ack (UInt16.ofNat 3) (numberedPacket 3 data) inFile finished
          toServer := [dataDatagram 2 (encodeBlock mode ((file.drop 512).take 512))] }

private theorem not_waitForRead {c : TftpServerConnection} (h : c.state = .sendAck) :
    ¬c.waitForRead = true := by
  simp [waitForRead, h]

private theorem not_waitForWrite {c : TftpServerConnection} (h : c.state = .waitForData) :
    ¬c.waitForWrite = true := by
  simp [waitForWrite, h]

/-- Each move leads to the next phase. -/
theorem Fifo.Phase.step {n : Nat} {sys sys' : Fifo} (h : Fifo.Phase mode file n sys)
    (hs : Fifo.Step b mode file sys sys') : Fifo.Phase mode file (n + 1) sys' := by
  cases h with
  | offering hoffers =>
    cases hs with
    | serverWrites _ _ ho =>
      obtain ⟨c', ho', hawaits⟩ := hoffers.sent
      rw [ho'] at ho
      obtain ⟨rfl, rfl⟩ := Outcome.ok_inj.mp ho
      exact .offered hawaits
    | serverReads _ hw => exact absurd hw (not_waitForRead hoffers.state)
    | clientReads _ hq => cases hq
  | offered hawaits =>
    cases hs with
    | serverWrites _ hw => exact absurd hw (not_waitForWrite hawaits.state)
    | serverReads _ _ hq => cases hq
    | clientReads _ hq hc =>
      obtain ⟨rfl, rfl⟩ := List.cons.inj hq
      by_cases hlt : file.length < 512
      · rw [sendFile_reply, if_pos hlt] at hc
        obtain ⟨rfl, rfl⟩ := Outcome.ok_inj.mp hc
        exact .refused hawaits hlt
      · have hle := Nat.not_lt.mp hlt
        rw [sendFile_first mode hle] at hc
        obtain ⟨rfl, rfl⟩ := Outcome.ok_inj.mp hc
        exact .delivering hawaits hle
  | refused hawaits =>
    cases hs with
    | serverWrites _ hw => exact absurd hw (not_waitForWrite hawaits.state)
    | serverReads _ _ hq => cases hq
    | clientReads hr => exact absurd rfl (hr false)
  | delivering hawaits hle =>
    cases hs with
    | serverWrites _ hw => exact absurd hw (not_waitForWrite hawaits.state)
    | clientReads _ hq => cases hq
    | serverReads _ _ hq ho =>
      obtain ⟨rfl, rfl⟩ := List.cons.inj hq
      cases hx : nativePayload mode (firstPayload mode file) with
      | error stop =>
        have hthrows := hawaits.throws (b := b) hx
        rw [ho] at hthrows
        cases hthrows
      | ok x =>
        obtain ⟨c', ho', hanswers⟩ := hawaits.stores (b := b) hx
        rw [ho'] at ho
        obtain ⟨rfl, rfl⟩ := Outcome.ok_inj.mp ho
        exact .stored hanswers hle hx
  | stored hanswers hle hx =>
    cases hs with
    | serverReads _ hw => exact absurd hw (not_waitForRead hanswers.state)
    | clientReads _ hq => cases hq
    | serverWrites _ _ ho =>
      rw [hanswers.sent] at ho
      obtain ⟨rfl, rfl⟩ := Outcome.ok_inj.mp ho
      exact .answered rfl hanswers.taken hle hx
  | answered hf htaken hle hx =>
    cases hs with
    | serverWrites hf' => rw [hf] at hf'; cases hf'
    | serverReads hf' => rw [hf] at hf'; cases hf'
    | clientReads _ hq hc =>
      obtain ⟨rfl, rfl⟩ := List.cons.inj hq
      obtain ⟨inFile, data, finished, hc'⟩ := sendFile_second mode (some { bytes := file }) file
      rw [hc'] at hc
      obtain ⟨rfl, rfl⟩ := Outcome.ok_inj.mp hc
      exact .abandoned hf htaken hle hx
  | abandoned hf =>
    cases hs with
    | serverWrites hf' => rw [hf] at hf'; cases hf'
    | serverReads hf' => rw [hf] at hf'; cases hf'
    | clientReads _ hq => cases hq

/-- How an undisturbed upload ends. -/
inductive Ending (b : Build) (mode : Mode) (file : Bytes) (sys : Fifo) : Prop
  /-- The client gives up when the server has agreed, and the server waits for it. -/
  | refused (small : file.length < 512) (client : sys.client = .returned false)
      (finished : sys.server.finished = false) (taken : sys.server.fileWriter.taken = [])
  /-- The cut fell between the two bytes of a pair, and the exception leaves the handler. -/
  | threw (d : Bytes) (stop : Stop) (large : 512 ≤ file.length)
      (split : nativePayload mode (firstPayload mode file) = .error stop)
      (arrived : sys.toServer = [d])
      (stopped : (handleRead b sys.server (.datagram d)).next = .error stop)
  /-- The server is finished with the start of the file, and the client waits for it. -/
  | cut (large : 512 ≤ file.length) (finished : sys.server.finished = true)
      (stored : nativePayload mode (firstPayload mode file) = .ok sys.server.fileWriter.taken)
      (start : sys.server.fileWriter.taken <+: file)
      (short : sys.server.fileWriter.taken.length ≤ 508)
      (client : ∃ blockNumber dataPacket inFile last,
        sys.client = .ack blockNumber dataPacket inFile last)
      (nothing : sys.toClient = [])

/-- What is decoded from the start of an encoding is the start of what was encoded. -/
theorem prefix_of_nativePayload {y z x : Bytes} (h : nativePayload mode y = .ok x)
    (hz : y ++ z = encodeBlock mode file) : x <+: file := by
  cases mode with
  | octet =>
    cases h
    exact ⟨z, hz⟩
  | netascii =>
    have hwhole : netasciiToNative (y ++ z) = .ok file := by
      rw [hz]
      exact netasciiToNative_nativeToNetascii file
    rw [netasciiToNative_append h] at hwhole
    cases hrest : netasciiToNative z with
    | error stop =>
      rw [hrest] at hwhole
      cases hwhole
    | ok x' =>
      rw [hrest] at hwhole
      exact ⟨x', Except.ok.inj hwhole⟩

/-- The payload of the first block stands for the start of the file. -/
theorem start_of_firstPayload {x : Bytes}
    (hx : nativePayload mode (firstPayload mode file) = .ok x) : x <+: file ∧ x.length ≤ 508 := by
  have hpiece := prefix_of_nativePayload hx (List.take_append_drop _ _)
  have hle := length_nativePayload_le hx
  rw [firstPayload, List.length_take] at hle
  have hsize : dataPktDataMaxSize = 512 := rfl
  exact ⟨hpiece.trans (List.take_prefix _ _), by omega⟩

/-- A phase has a move, or the upload has ended. -/
theorem Fifo.Phase.progress {n : Nat} {sys : Fifo} (b : Build) (h : Fifo.Phase mode file n sys) :
    n < 5 ∧ (∃ sys', Fifo.Step b mode file sys sys') ∨ Ending b mode file sys := by
  cases h with
  | offering hoffers =>
    left
    obtain ⟨c', ho, -⟩ := hoffers.sent
    exact ⟨by omega, _, .serverWrites hoffers.finished (by simp [waitForWrite, hoffers.state]) ho⟩
  | offered hawaits =>
    left
    refine ⟨by omega, ?_⟩
    by_cases hlt : file.length < 512
    · have hc := sendFile_reply mode file
      rw [if_pos hlt] at hc
      exact ⟨_, .clientReads (fun _ ↦ SendFile.noConfusion) rfl hc⟩
    · have hc := sendFile_first mode (Nat.not_lt.mp hlt)
      exact ⟨_, .clientReads (fun _ ↦ SendFile.noConfusion) rfl hc⟩
  | refused hawaits hlt => exact .inr (.refused hlt rfl hawaits.finished hawaits.taken)
  | delivering hawaits hle =>
    cases hx : nativePayload mode (firstPayload mode file) with
    | error stop => exact .inr (.threw _ stop hle hx rfl (hawaits.throws hx))
    | ok x =>
      left
      obtain ⟨c', ho, -⟩ := hawaits.stores (b := b) hx
      refine ⟨by omega, _, .serverReads hawaits.finished ?_ rfl ho⟩
      simp [waitForRead, hawaits.state]
  | stored hanswers =>
    left
    refine ⟨by omega, _, .serverWrites hanswers.finished ?_ hanswers.sent⟩
    simp [waitForWrite, hanswers.state]
  | answered =>
    left
    obtain ⟨inFile, data, finished, hc⟩ := sendFile_second mode (some { bytes := file }) file
    exact ⟨by omega, _, .clientReads (fun _ ↦ SendFile.noConfusion) rfl hc⟩
  | abandoned hf htaken hle hx =>
    obtain rfl := htaken
    obtain ⟨hstart, hshort⟩ := start_of_firstPayload hx
    exact .inr (.cut hle hf hx hstart hshort ⟨_, _, _, _, rfl⟩ rfl)

/-- No phase is a success. -/
theorem Fifo.Phase.not_success {n : Nat} {sys : Fifo} (h : Fifo.Phase mode file n sys) :
    sys.client ≠ .returned true := by
  cases h with
  | offering => exact SendFile.noConfusion
  | offered => exact SendFile.noConfusion
  | refused =>
    intro he
    cases he
  | delivering => exact SendFile.noConfusion
  | stored => exact SendFile.noConfusion
  | answered => exact SendFile.noConfusion
  | abandoned => exact SendFile.noConfusion

/-- An upload without options, to a file on a device that takes everything. -/
structure Setting (w : World) (request : RwPacket) (sink : FileSink) : Prop where
  write : request.type = .write
  noOptions : request.options = []
  allowed : w.notAllowed = none
  opened : w.writable = some sink
  sound : (FileOut.fopen sink).Sound

/-- How the connection starts. -/
theorem offers_create {sink : FileSink} (h : Setting w request sink) :
    Offers request.mode (create w request) := by
  have hnone : ∀ opt ∈ request.options, acceptsOption request.type opt = false := by
    rw [h.noOptions]
    intro opt hmem
    cases hmem
  rw [create_write h.write h.allowed, processOptions_of_not_accepted hnone, startWrite, h.opened]
  exact ⟨rfl, rfl, rfl, rfl, rfl, TftpWriteFile.good_openFile {} h.sound request.mode, rfl, rfl⟩

/-- No upload succeeds with this client and this server, even where nothing is lost. After five
moves at most it has ended: the client refused a file of less than 512 bytes, the server threw
an exception, or it is finished with at most the first 508 bytes and the client waits for an
answer that nobody will send. -/
theorem undisturbed_upload_fails (b : Build) {sink : FileSink} (h : Setting w request sink)
    (file : Bytes) (n : Nat) (sys : Fifo)
    (hr : Steps (Fifo.Step b request.mode file) n { server := create w request } sys) :
    sys.client ≠ .returned true ∧
      (n < 5 ∧ (∃ sys', Fifo.Step b request.mode file sys sys') ∨
        Ending b request.mode file sys) := by
  have hphase : Fifo.Phase request.mode file n sys :=
    hr.invariant (.offering (offers_create h)) fun _ _ _ hp hs ↦ hp.step hs
  exact ⟨hphase.not_success, hphase.progress b⟩

/-- A file of 512 bytes goes through all five moves: 508 bytes of it arrive, and the client waits
for the rest to be acknowledged. -/
theorem undisturbed_upload_cut : ∃ sys,
    Steps (Fifo.Step .release .octet (List.replicate 512 0)) 5
      { server := create { writable := some {} } { type := .write } } sys ∧
    sys.client ≠ .returned true ∧ sys.server.finished = true ∧
    sys.server.fileWriter.taken = List.replicate 508 0 ∧
    Ending .release .octet (List.replicate 512 0) sys := by
  have hsetting : Setting { writable := some {} } { type := .write } {} :=
    ⟨rfl, rfl, rfl, rfl, rfl, rfl⟩
  have hle : 512 ≤ (List.replicate 512 (0 : UInt8)).length := by
    rw [List.length_replicate]
  have hoffers := offers_create hsetting
  obtain ⟨c₁, hoffer, hawaits⟩ := hoffers.sent
  obtain ⟨c₂, hstore, hanswers⟩ := @AwaitsFirst.stores .release .octet
    (List.replicate 512 0) c₁ _ hawaits rfl
  obtain ⟨inFile, data, finished, hsecond⟩ := sendFile_second .octet
    (some { bytes := List.replicate 512 0 }) (List.replicate 512 0)
  have hr : Steps (Fifo.Step .release .octet (List.replicate 512 0)) 5
      { server := create { writable := some {} } { type := .write } } _ :=
    .snoc (.snoc (.snoc (.snoc (.snoc (.none _)
      (.serverWrites hoffers.finished (by simp [waitForWrite, hoffers.state]) hoffer))
      (.clientReads (fun _ ↦ SendFile.noConfusion) rfl (sendFile_first .octet hle)))
      (.serverReads hawaits.finished (by simp [waitForRead, hawaits.state]) rfl hstore))
      (.serverWrites hanswers.finished (by simp [waitForWrite, hanswers.state]) hanswers.sent))
      (.clientReads (fun _ ↦ SendFile.noConfusion) rfl hsecond)
  obtain ⟨hnot, ⟨hlt, -⟩ | hend⟩ := undisturbed_upload_fails .release hsetting _ 5 _ hr
  · exact absurd hlt (Nat.lt_irrefl 5)
  · have htaken : firstPayload .octet (List.replicate 512 0) = List.replicate 508 0 := by
      show ((List.replicate 512 (0 : UInt8)).take 512).take 508 = _
      rw [List.take_take, List.take_replicate]
      rfl
    exact ⟨_, hr, hnot, rfl, hanswers.taken.trans htaken, hend⟩

/-- One ACK, delivered three times, makes the client report a file of one full piece, and of
that the server has nothing. -/
theorem reported_upload_is_cut_nothing : ∃ sys,
    Relation.ReflTransGen
      (System.Step .release .octet (some { bytes := List.replicate 512 0 }))
      { server := create { writable := some {} } { type := .write } } sys ∧
    sys.client = .returned true ∧ sys.server.fileWriter.taken.length ≤ 508 := by
  have hlen : (List.replicate 512 (0 : UInt8)).length = 512 := List.length_replicate
  have hfirst := sendFile_first .octet (Nat.le_of_eq hlen.symm)
  have hdrop : (List.replicate 512 (0 : UInt8)).drop 512 = [] :=
    List.drop_of_length_le (Nat.le_of_eq hlen)
  rw [awaitsFirstAck, hdrop] at hfirst
  have hsetting : Setting { writable := some {} } { type := .write } {} :=
    ⟨rfl, rfl, rfl, rfl, rfl, rfl⟩
  obtain ⟨c', hserver, -⟩ := (offers_create hsetting).sent
  -- the number of an ACK is not looked at, so the first one does for the others
  have hsecond : ∀ contents, sendFile .octet contents
      (.ack (UInt16.ofNat 2) (numberedPacket 2 (encodeBlock .octet (([] : Bytes).take 512)))
        (behind []) false) (.datagram (ackDatagram 0)) =
      .ok [.received (ackDatagram 0), .sent (dataDatagram 2 [])]
        (.ack (UInt16.ofNat 3) (numberedPacket 3 []) (behind []) true) := fun _ ↦ rfl
  have hthird : ∀ contents, sendFile .octet contents
      (.ack (UInt16.ofNat 3) (numberedPacket 3 []) (behind []) true) (.datagram (ackDatagram 0)) =
      .ok [.received (ackDatagram 0)] (.returned true) := fun _ ↦ rfl
  have hacked : ∀ d, Reception.datagram (ackDatagram 0) = .datagram d →
      .send d ∈ ([.send (ackDatagram 0)] : List Action) := by
    intro d hd
    cases hd
    exact List.mem_singleton_self _
  have hstep : step .release (create { writable := some {} } { type := .write })
      (.writable .sent) = .ok [.send (ackDatagram 0)] c' := hserver
  have hstart : System.Step .release .octet (some { bytes := List.replicate 512 0 })
      { server := create { writable := some {} } { type := .write } }
      { server := c', serverLog := [.send (ackDatagram 0)] } :=
    .server (fun _ hd ↦ Event.noConfusion hd) hstep
  have hr := (((Relation.ReflTransGen.single hstart).tail (.client hacked hfirst)).tail
    (.client hacked (hsecond _))).tail (.client hacked (hthird _))
  obtain ⟨-, -, -, hshort, -⟩ := reported_upload_is_cut rfl rfl hr rfl
  exact ⟨_, hr, rfl, hshort⟩

end CppTftp.ClientUpload
