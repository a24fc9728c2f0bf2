import CppTftp.Client.GetFile
import CppTftp.Server.Download
import Mathlib.Logic.Relation

/-!
# The client and the server of one download

`tftp_client::get_file` and a READ connection without options, in either mode, over two networks:
one that loses, repeats and reorders datagrams at will, and one that delivers every datagram once
and in order, with no timer running out. The server encodes the file as a stream and cuts that into
blocks; the client decodes each block for itself, so in NETASCII mode a block that ends between the
two bytes of a pair makes it throw, after it has acknowledged the block.
-/

namespace CppTftp.Download

open Utils Tftp Lib TftpClient TftpServerConnection

variable {mode : Mode} {stream file : Bytes} {b : Build}

/-- A download of `file` without options: what the request and the server's files are. -/
structure Accepted (w : World) (request : RwPacket) (file : Bytes) : Prop where
  read : request.type = .read
  noOptions : request.options = []
  allowed : w.notAllowed = none
  opened : w.readable = some { bytes := file }

/-- Such a download in OCTET mode. -/
structure Setting (w : World) (request : RwPacket) (file : Bytes) : Prop
    extends Accepted w request file where
  octet : request.mode = .octet

/-! ### The network that may do anything -/

/-- Both ends, and all that was ever sent. -/
structure System where
  server : TftpServerConnection
  serverLog : List Action := []
  client : GetFile := .first
  clientSent : List Bytes := []

/-- One end moves. What it receives was sent by the other end at some time, which allows
every loss, repetition and change of order; the server's timer may run out at any time. -/
inductive System.Step (b : Build) (mode : Mode) : System → System → Prop
  | server {sys : System} {e : Event} {l : List Action} {c' : TftpServerConnection} :
      (∀ d, e = .readable (.datagram d) → d ∈ sys.clientSent) →
      step b sys.server e = .ok l c' →
      System.Step b mode sys { sys with server := c', serverLog := sys.serverLog ++ l }
  | client {sys : System} {r : Reception} {l : List Bytes} {s' : GetFile} :
      (∀ d, r = .datagram d → .send d ∈ sys.serverLog) →
      getFile mode true sys.client r = .ok l s' →
      System.Step b mode sys { sys with client := s', clientSent := sys.clientSent ++ l }

/-- What the client has written is what the first blocks decode to, and what all of them decode
to when the client reports success. -/
def ClientInv (mode : Mode) (stream : Bytes) (s : GetFile) : Prop :=
  (∃ k, k < blockCount dataPktDataMaxSize stream ∧ Awaits mode stream k s) ∨
  (∃ outFile, s = .returned false outFile) ∨
  ∃ out, decodedBlocks mode stream (blockCount dataPktDataMaxSize stream) = .ok out ∧
    s = .returned true (some out)

/-- The invariant of the two ends and the datagrams between them. -/
structure System.Inv (mode : Mode) (stream : Bytes) (sys : System) : Prop where
  server : DownloadInv dataPktDataMaxSize stream sys.serverLog sys.server
  sent : ∀ d, .send d ∈ sys.serverLog → (deserialiseDataPacket d).isSome →
    ∃ n, 1 ≤ n ∧ n ≤ blockCount dataPktDataMaxSize stream ∧
      d = dataFrame dataPktDataMaxSize stream n
  client : ClientInv mode stream sys.client

/-- A client that has returned stays as it is. -/
theorem ClientInv.returned {r : Reception} {l : List Bytes} {s' : GetFile} {result : Bool}
    {outFile : Option Bytes} (h : ClientInv mode stream (.returned result outFile))
    (hs : getFile mode true (.returned result outFile) r = .ok l s') :
    ClientInv mode stream s' := by
  obtain ⟨-, rfl⟩ := Outcome.ok_inj.mp hs
  exact h

/-- The client takes only the block it waits for, and goes on only if that decodes. -/
theorem ClientInv.receive {d : Bytes} {l : List Bytes} {s s' : GetFile}
    (h : ClientInv mode stream s) (hcount : blockCount dataPktDataMaxSize stream < 65535)
    (hd : (deserialiseDataPacket d).isSome → ∃ n, 1 ≤ n ∧
      n ≤ blockCount dataPktDataMaxSize stream ∧ d = dataFrame dataPktDataMaxSize stream n)
    (hs : getFile mode true s (.datagram d) = .ok l s') : ClientInv mode stream s' := by
  rcases h with ⟨k, hk, h⟩ | ⟨outFile, rfl⟩ | ⟨out, hout, rfl⟩
  · rcases getFile_rejects h d with ⟨data, hdata⟩ | ⟨outFile, hr⟩
    · obtain ⟨n, hpos, hle, rfl⟩ := hd (isSome_of_deserialise_take hdata)
      rw [take_dataFrame, deserialise_dataFrame] at hdata
      have hn : n = k + 1 := by
        have hnum := congrArg DataPacket.blockNumber (Option.some.inj hdata)
        rw [ofNat_eq_ofNat_iff] at hnum
        omega
      rw [hn] at hs
      obtain ⟨out, hout, -, rfl⟩ := getFile_takes h hk hs
      by_cases hlast : k + 1 = blockCount dataPktDataMaxSize stream
      · right
        right
        refine ⟨out, hlast ▸ hout, ?_⟩
        rw [afterBlock, if_pos hlast]
      · exact .inl ⟨k + 1, by omega, awaits_afterBlock hout hlast⟩
    · rw [hr] at hs
      obtain ⟨-, rfl⟩ := Outcome.ok_inj.mp hs
      exact .inr (.inl ⟨outFile, rfl⟩)
  · exact ClientInv.returned (.inr (.inl ⟨outFile, rfl⟩)) hs
  · exact ClientInv.returned (.inr (.inr ⟨out, hout, rfl⟩)) hs

/-- Where nothing is received, the client at most gives up. -/
theorem ClientInv.no_datagram {r : Reception} {l : List Bytes} {s s' : GetFile}
    (h : ClientInv mode stream s) (hr : ∀ d, r ≠ .datagram d)
    (hs : getFile mode true s r = .ok l s') : ClientInv mode stream s' := by
  cases s with
  | returned result outFile => exact ClientInv.returned h hs
  | first =>
    cases r with
    | datagram d => exact absurd rfl (hr d)
    | failed what => exact absurd hs Outcome.stop_ne_ok
    | notReady =>
      obtain ⟨-, rfl⟩ := Outcome.ok_inj.mp hs
      exact .inr (.inl ⟨_, rfl⟩)
  | next n outFile =>
    cases r with
    | datagram d => exact absurd rfl (hr d)
    | failed what => exact absurd hs Outcome.stop_ne_ok
    | notReady =>
      obtain ⟨-, rfl⟩ := Outcome.ok_inj.mp hs
      exact .inr (.inl ⟨_, rfl⟩)

/-- A move of the server keeps the invariant: it sends blocks of the stream. -/
theorem System.Inv.server_step {sys : System} {e : Event} {l : List Action}
    {c' : TftpServerConnection} (h : System.Inv mode stream sys)
    (hs : step b sys.server e = .ok l c') :
    System.Inv mode stream { sys with server := c', serverLog := sys.serverLog ++ l } := by
  have hsize : 0 < dataPktDataMaxSize := by decide
  refine ⟨h.server.step hsize hs, ?_, h.client⟩
  intro d hd hdata
  rcases List.mem_append.mp hd with hd | hd
  · exact h.sent d hd hdata
  · have hlog : (step b sys.server e).log = l := by rw [hs]; rfl
    rw [← hlog] at hd
    obtain ⟨heq, -, -⟩ := h.server.data_sent hsize hd hdata
    have hturn := Window.turn_bounds (blockCount_pos dataPktDataMaxSize stream)
      (senderWindow sys.serverLog)
    exact ⟨_, hturn.1, hturn.2, heq⟩

/-- Any move keeps the invariant. -/
theorem System.Inv.step {sys sys' : System} (h : System.Inv mode stream sys)
    (hcount : blockCount dataPktDataMaxSize stream < 65535) (hs : System.Step b mode sys sys') :
    System.Inv mode stream sys' := by
  cases hs with
  | server _ hs => exact h.server_step hs
  | @client r l s' hr hs =>
    refine ⟨h.server, h.sent, ?_⟩
    by_cases hd : ∃ d, r = .datagram d
    · obtain ⟨d, rfl⟩ := hd
      exact h.client.receive hcount (h.sent d (hr d rfl)) hs
    · exact h.client.no_datagram (fun d he ↦ hd ⟨d, he⟩) hs

/-- In every state that the two ends reach, the invariant holds. -/
theorem System.inv_reachable {w : World} {request : RwPacket} (h : Accepted w request file)
    (hcount : blockCount dataPktDataMaxSize (transferStream request.mode file) < 65535)
    {sys : System} (hr : Relation.ReflTransGen (System.Step b request.mode)
      { server := create w request } sys) :
    System.Inv request.mode (transferStream request.mode file) sys := by
  have hturn := inTurn_create h.read h.allowed h.opened rfl h.noOptions
  have h0 := downloadInv_create h.read h.allowed h.opened
  rw [hturn.blockSize] at h0
  have hstart : System.Inv request.mode (transferStream request.mode file)
      { server := create w request } := by
    refine ⟨h0, ?_, .inl ⟨0, blockCount_pos _ _, [], rfl, .inl ⟨rfl, rfl⟩⟩⟩
    intro d hd
    cases hd
  exact invariant_reachable hr hstart fun _ _ hi hs ↦ hi.step hcount hs

/-- A client that reports success has decoded and written all blocks. -/
theorem ClientInv.decoded {outFile : Option Bytes}
    (h : ClientInv mode stream (.returned true outFile)) : ∃ out,
    decodedBlocks mode stream (blockCount dataPktDataMaxSize stream) = .ok out ∧
      outFile = some out := by
  rcases h with ⟨k, -, out, -, ⟨ha, -⟩ | ha⟩ | ⟨out, ho⟩ | ⟨out, hout, ho⟩
  · cases ha
  · cases ha
  · cases ho
  · cases ho
    exact ⟨out, hout, rfl⟩

/-- So it has the file. -/
theorem ClientInv.eq_file {outFile : Option Bytes}
    (h : ClientInv mode (transferStream mode file) (.returned true outFile)) :
    outFile = some file := by
  obtain ⟨out, hout, rfl⟩ := h.decoded
  rw [eq_file_of_decodedBlocks hout]

/-! ### The network that delivers everything once and in order -/

/-- The datagrams among the actions that go out. -/
def sends (log : List Action) : List Bytes :=
  log.filterMap fun
    | .send d => some d
    | _ => none

theorem sends_append (log l : List Action) : sends (log ++ l) = sends log ++ sends l :=
  List.filterMap_append

/-- Reading the file sends nothing. -/
theorem sends_reads {l : List Action} (h : ∀ a ∈ l, a = .readInTo) : sends l = [] := by
  rw [sends, List.filterMap_eq_nil_iff]
  intro a ha
  rw [h a ha]

/-- Both ends and the datagrams on their way, oldest first. -/
structure Fifo where
  server : TftpServerConnection
  client : GetFile := .first
  toClient : List Bytes := []
  toServer : List Bytes := []

/-- One end moves: the event loop calls the handler that an unfinished connection waits for,
every send succeeds, and every datagram is received when it is the oldest. -/
inductive Fifo.Step (b : Build) (mode : Mode) : Fifo → Fifo → Prop
  | serverWrites {sys : Fifo} {l : List Action} {c' : TftpServerConnection} :
      sys.server.finished = false → sys.server.waitForWrite = true →
      sys.server.handleWrite .sent = .ok l c' →
      Fifo.Step b mode sys { sys with server := c', toClient := sys.toClient ++ sends l }
  | serverReads {sys : Fifo} {d : Bytes} {rest : List Bytes} {l : List Action}
      {c' : TftpServerConnection} :
      sys.server.finished = false → sys.server.waitForRead = true →
      sys.toServer = d :: rest → handleRead b sys.server (.datagram d) = .ok l c' →
      Fifo.Step b mode sys
        { sys with server := c', toServer := rest, toClient := sys.toClient ++ sends l }
  | clientReads {sys : Fifo} {d : Bytes} {rest l : List Bytes} {s' : GetFile} :
      (∀ result outFile, sys.client ≠ .returned result outFile) →
      sys.toClient = d :: rest → getFile mode true sys.client (.datagram d) = .ok l s' →
      Fifo.Step b mode sys
        { sys with client := s', toClient := rest, toServer := sys.toServer ++ l }

/-- The states of the transfer of block `k + 1`, one after the other, and its end. -/
inductive Fifo.Phase (mode : Mode) (stream : Bytes) : Nat → Fifo → Prop
  | sending {k : Nat} {log : List Action} {c : TftpServerConnection} {s : GetFile} :
      InTurn dataPktDataMaxSize stream k log c → Awaits mode stream k s →
      Fifo.Phase mode stream (3 * k) { server := c, client := s }
  | delivering {k : Nat} {log : List Action} {c : TftpServerConnection} {s : GetFile} :
      Underway dataPktDataMaxSize stream k log c → Awaits mode stream k s →
      Fifo.Phase mode stream (3 * k + 1)
        { server := c, client := s, toClient := [dataFrame dataPktDataMaxSize stream (k + 1)] }
  | acknowledging {k : Nat} {log : List Action} {c : TftpServerConnection} {out : Bytes} :
      Underway dataPktDataMaxSize stream k log c →
      decodedBlocks mode stream (k + 1) = .ok out →
      Fifo.Phase mode stream (3 * k + 2)
        { server := c, client := afterBlock stream k out, toServer := [ackFrame k] }
  | done {c : TftpServerConnection} {out : Bytes} :
      c.finished = true →
      decodedBlocks mode stream (blockCount dataPktDataMaxSize stream) = .ok out →
      Fifo.Phase mode stream (3 * blockCount dataPktDataMaxSize stream)
        { server := c, client := .returned true (some out) }

private theorem not_waitForRead {c : TftpServerConnection} (h : c.state = .sendData) :
    ¬c.waitForRead = true := by
  simp [waitForRead, h]

private theorem not_waitForWrite {c : TftpServerConnection} (h : c.state = .waitForAck) :
    ¬c.waitForWrite = true := by
  simp [waitForWrite, h]

/-- Each move leads to the next phase. -/
theorem Fifo.Phase.step {n : Nat} {sys sys' : Fifo} (h : Fifo.Phase mode stream n sys)
    (hs : Fifo.Step b mode sys sys') : Fifo.Phase mode stream (n + 1) sys' := by
  cases h with
  | sending hturn hawait =>
    cases hs with
    | serverWrites _ _ ho =>
      obtain ⟨c', ho', hu⟩ := hturn.sent (by decide)
      rw [ho'] at ho
      obtain ⟨rfl, rfl⟩ := Outcome.ok_inj.mp ho
      exact .delivering hu hawait
    | serverReads _ hw => exact absurd hw (not_waitForRead hturn.state)
    | clientReads _ hq => cases hq
  | @delivering k _ _ _ hu hawait =>
    cases hs with
    | serverWrites _ hw => exact absurd hw (not_waitForWrite hu.state)
    | serverReads _ _ hq => cases hq
    | clientReads _ hq hg =>
      obtain ⟨rfl, rfl⟩ := List.cons.inj hq
      obtain ⟨out, hout, rfl, rfl⟩ := getFile_takes hawait hu.waiting.lt hg
      exact .acknowledging hu hout
  | @acknowledging k _ _ _ hu hout =>
    cases hs with
    | serverWrites _ hw => exact absurd hw (not_waitForWrite hu.state)
    | clientReads _ hq => cases hq
    | serverReads _ _ hq ho =>
      obtain ⟨rfl, rfl⟩ := List.cons.inj hq
      obtain ⟨c', ho', hnext, hend⟩ := hu.acknowledged (b := b)
      rw [ho'] at ho
      obtain ⟨rfl, rfl⟩ := Outcome.ok_inj.mp ho
      by_cases hlast : k + 1 = blockCount dataPktDataMaxSize stream
      · rw [afterBlock, if_pos hlast]
        have hdone := Fifo.Phase.done (hend hlast) (hlast ▸ hout)
        rw [← hlast] at hdone
        exact hdone
      · have hlt : k + 1 < blockCount dataPktDataMaxSize stream :=
          Nat.lt_of_le_of_ne hu.waiting.lt hlast
        exact .sending (hnext hlt) (awaits_afterBlock hout hlast)
  | done hf =>
    cases hs with
    | serverWrites hf' => rw [hf] at hf'; cases hf'
    | serverReads hf' => rw [hf] at hf'; cases hf'
    | clientReads hr => exact absurd rfl (hr true _)

/-- A phase has a move, or all blocks have arrived, or one of them makes the client throw. -/
theorem Fifo.Phase.progress {n : Nat} {sys : Fifo} (b : Build)
    (h : Fifo.Phase mode stream n sys) :
    (n < 3 * blockCount dataPktDataMaxSize stream ∧ ∃ sys', Fifo.Step b mode sys sys') ∨
    (∃ out, decodedBlocks mode stream (blockCount dataPktDataMaxSize stream) = .ok out ∧
      n = 3 * blockCount dataPktDataMaxSize stream ∧ sys.client = .returned true (some out) ∧
      sys.server.finished = true) ∨
    ∃ k stop, k < blockCount dataPktDataMaxSize stream ∧
      nativePayload mode (block dataPktDataMaxSize stream (k + 1)) = .error stop ∧
      n = 3 * k + 1 ∧ sys.toClient = [dataFrame dataPktDataMaxSize stream (k + 1)] ∧
      getFile mode true sys.client (.datagram (dataFrame dataPktDataMaxSize stream (k + 1))) =
        .stop [ackFrame k] stop := by
  cases h with
  | sending hturn hawait =>
    left
    obtain ⟨c', ho, -⟩ := hturn.sent (by decide)
    refine ⟨?_, _, .serverWrites hturn.finished (by simp [waitForWrite, hturn.state]) ho⟩
    have := hturn.fresh.lt
    omega
  | @delivering k _ _ _ hu hawait =>
    have hlt := hu.waiting.lt
    cases hx : nativePayload mode (block dataPktDataMaxSize stream (k + 1)) with
    | error stop =>
      right
      right
      exact ⟨k, stop, hlt, hx, rfl, rfl, getFile_throws hawait hx⟩
    | ok data =>
      left
      obtain ⟨out, -, hget⟩ := getFile_accepts hawait hlt hx
      refine ⟨by omega, _, .clientReads ?_ rfl hget⟩
      obtain ⟨out, -, ⟨rfl, -⟩ | rfl⟩ := hawait
      · exact fun _ _ ↦ GetFile.noConfusion
      · exact fun _ _ ↦ GetFile.noConfusion
  | acknowledging hu =>
    left
    obtain ⟨c', ho, -⟩ := hu.acknowledged (b := b)
    refine ⟨?_, _, .serverReads hu.finished (by simp [waitForRead, hu.state]) rfl ho⟩
    have := hu.waiting.lt
    omega
  | done hf hout => exact .inr (.inl ⟨_, hout, rfl, rfl, hf⟩)

/-- After `n` moves the transfer is in phase `n`. -/
theorem Fifo.phase_of_steps {w : World} {request : RwPacket} (h : Accepted w request file) {n : Nat}
    {sys : Fifo} (hr : Steps (Fifo.Step b request.mode) n { server := create w request } sys) :
    Fifo.Phase request.mode (transferStream request.mode file) n sys := by
  have hturn := inTurn_create h.read h.allowed h.opened rfl h.noOptions
  refine hr.invariant ?_ fun _ _ _ hp hs ↦ hp.step hs
  exact .sending (k := 0) hturn ⟨[], rfl, .inl ⟨rfl, rfl⟩⟩

/-! ### Agreement -/

/-- Agreement of the two ends. Over the network that may do anything, a client that reports
success has written the file, if that has fewer than 65535 blocks. Over the one that
delivers everything once and in order, a file of any length arrives: every run goes on
until, after three moves for each block, the client has reported success with the file
written and the server is finished. -/
theorem download_agreement (b : Build) {w : World} {request : RwPacket} {file : Bytes}
    (h : Setting w request file) :
    (blockCount dataPktDataMaxSize file < 65535 → ∀ sys,
      Relation.ReflTransGen (System.Step b .octet) { server := create w request } sys →
      ∀ outFile, sys.client = .returned true outFile → outFile = some file) ∧
    ∀ n sys, Steps (Fifo.Step b .octet) n { server := create w request } sys →
      (n < 3 * blockCount dataPktDataMaxSize file ∧ ∃ sys', Fifo.Step b .octet sys sys') ∨
      (n = 3 * blockCount dataPktDataMaxSize file ∧ sys.client = .returned true (some file) ∧
        sys.server.finished = true) := by
  have hmode := h.octet
  have hstream : transferStream request.mode file = file := by rw [hmode, transferStream_octet]
  constructor
  · intro hcount sys hr outFile hc
    rw [← hmode] at hr
    have hclient := (System.inv_reachable h.toAccepted (by rwa [hstream]) hr).client
    rw [hc] at hclient
    exact hclient.eq_file
  · intro n sys hr
    rw [← hmode] at hr
    have hphase := Fifo.phase_of_steps h.toAccepted hr
    rw [hmode, transferStream_octet] at hphase
    rcases hphase.progress b with hnext | ⟨out, hout, hn, hc, hf⟩ | ⟨k, stop, -, hx, -⟩
    · exact .inl hnext
    · rw [← transferStream_octet file] at hout
      rw [eq_file_of_decodedBlocks hout] at hc
      exact .inr ⟨hn, hc, hf⟩
    · cases hx

/-- A file of three bytes arrives, over either network; over the second in three moves. -/
theorem download_agreement_three :
    (∀ sys, Relation.ReflTransGen (System.Step .release .octet)
        { server := create { readable := some { bytes := [1, 2, 3] } } {} } sys →
      ∀ outFile, sys.client = .returned true outFile → outFile = some [1, 2, 3]) ∧
    ∀ sys, Steps (Fifo.Step .release .octet) 3
        { server := create { readable := some { bytes := [1, 2, 3] } } {} } sys →
      sys.client = .returned true (some [1, 2, 3]) := by
  have hsetting : Setting { readable := some { bytes := [1, 2, 3] } } {} [1, 2, 3] :=
    ⟨⟨rfl, rfl, rfl, rfl⟩, rfl⟩
  obtain ⟨hsafe, hlive⟩ := download_agreement .release hsetting
  refine ⟨hsafe (by decide), fun sys hr ↦ ?_⟩
  rcases hlive 3 sys hr with ⟨hlt, -⟩ | ⟨-, hc, -⟩
  · exact absurd hlt (by decide)
  · exact hc

/-! ### Either mode -/

/-- In either mode and over any network: a client that reports success has the file, if its stream
has fewer than 65535 blocks. -/
theorem reported_download_is_whole {w : World} {request : RwPacket}
    (h : Accepted w request file)
    (hcount : blockCount dataPktDataMaxSize (transferStream request.mode file) < 65535)
    {sys : System} (hr : Relation.ReflTransGen (System.Step b request.mode)
      { server := create w request } sys) {outFile : Option Bytes}
    (hc : sys.client = .returned true outFile) : outFile = some file := by
  have hclient := (System.inv_reachable h hcount hr).client
  rw [hc] at hclient
  exact hclient.eq_file

/-- Over the network that delivers everything once and in order a file arrives exactly when the
mode is OCTET or no block boundary splits a pair. Every run goes on until either the client has
reported success with the file written and the server is finished, after three moves for
each block; or the client throws on a block that it has acknowledged. -/
theorem download_arrives_or_throws (b : Build) {w : World} {request : RwPacket}
    (h : Accepted w request file) (n : Nat) (sys : Fifo)
    (hr : Steps (Fifo.Step b request.mode) n { server := create w request } sys) :
    (n < 3 * blockCount dataPktDataMaxSize (transferStream request.mode file) ∧
      ∃ sys', Fifo.Step b request.mode sys sys') ∨
    ((request.mode = .octet ∨ ¬SplitsPair dataPktDataMaxSize file) ∧
      n = 3 * blockCount dataPktDataMaxSize (transferStream request.mode file) ∧
      sys.client = .returned true (some file) ∧ sys.server.finished = true) ∨
    (request.mode = .netascii ∧ SplitsPair dataPktDataMaxSize file) ∧
      ∃ k d what, sys.toClient = [d] ∧
        getFile request.mode true sys.client (.datagram d) =
          .stop [ackFrame k] (.exception what) := by
  have hphase := Fifo.phase_of_steps h hr
  rw [← blocks_decode_iff]
  rcases hphase.progress b with hnext | ⟨out, hout, hn, hc, hf⟩ | ⟨k, stop, hk, hx, -, hd, hg⟩
  · exact .inl hnext
  · right
    left
    refine ⟨fun k hk ↦ decodes_of_decodedBlocks hout hk, hn, ?_, hf⟩
    rw [hc, eq_file_of_decodedBlocks hout]
  · right
    right
    obtain ⟨hmode, what, rfl⟩ := nativePayload_throws hx
    have hsplit : SplitsPair dataPktDataMaxSize file := by
      by_contra hno
      obtain ⟨data, hdata⟩ := (blocks_decode_iff request.mode file).mpr (.inr hno) k hk
      rw [hdata] at hx
      cases hx
    exact ⟨⟨hmode, hsplit⟩, k, _, what, hd, hg⟩

/-! ### One line feed -/

private theorem setting_lineFeed :
    Accepted { readable := some { bytes := [10] } } { mode := .netascii } [10] :=
  ⟨rfl, rfl, rfl, rfl⟩

/-- The three moves that carry a file of one line feed. -/
private theorem moves_lineFeed :
    let c := create { readable := some { bytes := [10] } } { mode := .netascii }
    let d := dataFrame dataPktDataMaxSize [13, 10] 1
    ∃ c₁ c₂, step .release c (.writable .sent) = .ok [.readInTo, .send d] c₁ ∧
      getFile .netascii true .first (.datagram d) =
        .ok [ackFrame 0] (.returned true (some [10])) ∧
      handleRead .release c₁ (.datagram (ackFrame 0)) = .ok [.recv (ackFrame 0)] c₂ ∧
      (c.finished = false ∧ c.waitForWrite = true) ∧
      (c₁.finished = false ∧ c₁.waitForRead = true) := by
  have h := setting_lineFeed
  have hturn := inTurn_create h.read h.allowed h.opened rfl h.noOptions
  obtain ⟨c₁, ho, hu⟩ := hturn.sent (by decide)
  obtain ⟨c₂, ho', -⟩ := hu.acknowledged (b := .release)
  refine ⟨c₁, c₂, ho, rfl, ho', ?_, ?_⟩
  · exact ⟨hturn.finished, by simp [waitForWrite, hturn.state]⟩
  · exact ⟨hu.finished, by simp [waitForRead, hu.state]⟩

/-- The client reports it, and has it. -/
theorem reported_download_is_whole_lineFeed : ∃ sys outFile,
    Relation.ReflTransGen (System.Step .release .netascii)
      { server := create { readable := some { bytes := [10] } } { mode := .netascii } } sys ∧
    sys.client = .returned true outFile ∧ outFile = some [10] := by
  obtain ⟨c₁, c₂, hwrite, hget, -⟩ := moves_lineFeed
  have h1 : System.Step .release .netascii
      { server := create { readable := some { bytes := [10] } } { mode := .netascii } }
      { server := c₁,
        serverLog := [.readInTo, .send (dataFrame dataPktDataMaxSize [13, 10] 1)] } :=
    .server (fun _ he ↦ Event.noConfusion he) hwrite
  have hr := (Relation.ReflTransGen.single h1).tail (.client (fun d hd ↦ by cases hd; simp) hget)
  exact ⟨_, _, hr, rfl, reported_download_is_whole setting_lineFeed (by decide) hr rfl⟩

/-- It arrives in three moves. -/
theorem download_arrives_or_throws_lineFeed : ∃ sys,
    Steps (Fifo.Step .release .netascii) 3
      { server := create { readable := some { bytes := [10] } } { mode := .netascii } } sys ∧
    sys.client = .returned true (some [10]) ∧ sys.server.finished = true := by
  obtain ⟨c₁, c₂, hwrite, hget, hread, ⟨hf, hw⟩, hf', hw'⟩ := moves_lineFeed
  have hr : Steps (Fifo.Step .release .netascii) 3
      { server := create { readable := some { bytes := [10] } } { mode := .netascii } } _ :=
    .snoc (.snoc (.snoc (.none _) (.serverWrites hf hw hwrite))
      (.clientReads (fun _ _ ↦ GetFile.noConfusion) rfl hget)) (.serverReads hf' hw' rfl hread)
  refine ⟨_, hr, ?_⟩
  rcases download_arrives_or_throws .release setting_lineFeed 3 _ hr with
    ⟨hlt, -⟩ | ⟨-, -, harrived⟩ | ⟨-, k, d, what, hd, -⟩
  · exact absurd hlt (by decide)
  · exact harrived
  · cases hd

end CppTftp.Download
