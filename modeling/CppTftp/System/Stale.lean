import CppTftp.Server.Retransmission
import CppTftp.System.Upload

/-!
# Datagrams that come late

A connection and a conforming peer over a network that delays, repeats and reorders, for fewer
than 65535 blocks without options. A number other than the one awaited and the one before it is
an error for the connection, and these are the numbers two or more blocks old.
-/

namespace CppTftp.Stale

open Tftp Lib TftpServerConnection

/-! ### Downloads -/

/-- The server and a receiver that has taken this many blocks, with every ACK it sent. -/
structure Reading where
  server : TftpServerConnection
  serverLog : List Action := []
  accepted : Nat := 0
  sent : List Bytes := []

/-- One end moves. What it receives was sent by the other end at some time; the server's timer
may run out at any time. -/
inductive Reading.Step (b : Build) : Reading → Reading → Prop
  | server {sys : Reading} {e : Event} {l : List Action} {c' : TftpServerConnection} :
      (∀ d, e = .readable (.datagram d) → d ∈ sys.sent) → step b sys.server e = .ok l c' →
      Reading.Step b sys { sys with server := c', serverLog := sys.serverLog ++ l }
  | accepts {sys : Reading} {d : Bytes} {p : DataPacket} :
      .send d ∈ sys.serverLog → deserialiseDataPacket d = some p →
      p.blockNumber = UInt16.ofNat (sys.accepted + 1) →
      Reading.Step b sys { sys with
        accepted := sys.accepted + 1, sent := sys.sent ++ [ackOf (sys.accepted + 1)] }

variable {stream : Bytes} {b : Build}

/-- Blocks are sent after they are read, taken after they are sent, and acknowledged after they
are taken. -/
structure Reading.Inv (stream : Bytes) (sys : Reading) : Prop where
  sound : DownloadInv dataPktDataMaxSize stream sys.serverLog sys.server
  data : ∀ d p, .send d ∈ sys.serverLog → deserialiseDataPacket d = some p →
    ∃ n, n ≤ readCount sys.serverLog ∧ n ≤ blockCount dataPktDataMaxSize stream ∧
      p.blockNumber = UInt16.ofNat n
  read : sys.accepted ≤ readCount sys.serverLog
  accepted : sys.accepted ≤ blockCount dataPktDataMaxSize stream
  sent : ∀ d ∈ sys.sent, ∃ n, 1 ≤ n ∧ n ≤ sys.accepted ∧ d = ackOf n

/-- A call sends no block but the one that the connection is at, which was read. -/
theorem data_of_step {size : Nat} {log l : List Action} {c c' : TftpServerConnection} {e : Event}
    {d : Bytes} {p : DataPacket} (h : DownloadInv size stream log c) (hsize : 0 < size)
    (hs : step b c e = .ok l c') (hd : .send d ∈ l) (hp : deserialiseDataPacket d = some p) :
    ∃ n, n ≤ readCount (log ++ l) ∧ n ≤ blockCount size stream ∧
      p.blockNumber = UInt16.ofNat n := by
  rcases h.sends hsize hs with hnone | ⟨reads, hreads, rfl, he, hcount⟩
  · rw [dataSent, List.countP_eq_zero] at hnone
    have hdata := hnone _ hd
    simp [isData, hp] at hdata
  · rcases List.mem_append.mp hd with hd | hd
    · cases hreads _ hd
    · rw [List.mem_singleton, Action.send.injEq] at hd
      rw [hd, deserialise_dataFrame, Option.some.injEq] at hp
      exact ⟨outstanding log c, Nat.le_of_eq hcount.symm, h.outstanding_le he, by rw [← hp]⟩

/-- Any move keeps the invariant. -/
theorem Reading.Inv.step {sys sys' : Reading} (h : Reading.Inv stream sys)
    (hcount : blockCount dataPktDataMaxSize stream < 65535) (hs : Reading.Step b sys sys') :
    Reading.Inv stream sys' := by
  have hsize : 0 < dataPktDataMaxSize := by decide
  cases hs with
  | @server e l c' hrecv hs =>
    have hmore : readCount sys.serverLog ≤ readCount (sys.serverLog ++ l) := by
      rw [readCount_append]
      exact Nat.le_add_right _ _
    refine ⟨h.sound.step hsize hs, fun d p hd hp ↦ ?_, Nat.le_trans h.read hmore, h.accepted,
      h.sent⟩
    rcases List.mem_append.mp hd with hd | hd
    · obtain ⟨n, hn, hle, hnumber⟩ := h.data d p hd hp
      exact ⟨n, Nat.le_trans hn hmore, hle, hnumber⟩
    · exact data_of_step h.sound hsize hs hd hp
  | @accepts d p hd hp hnumber =>
    obtain ⟨n, hn, hle, hnumber'⟩ := h.data d p hd hp
    rw [hnumber, ofNat_eq_ofNat_iff] at hnumber'
    have haccepted := h.accepted
    obtain rfl : n = sys.accepted + 1 := by omega
    refine ⟨h.sound, h.data, hn, hle, fun d hd ↦ ?_⟩
    rcases List.mem_append.mp hd with hd | hd
    · obtain ⟨n, hpos, hn, heq⟩ := h.sent d hd
      exact ⟨n, hpos, Nat.le_succ_of_le hn, heq⟩
    · exact ⟨sys.accepted + 1, Nat.succ_pos _, Nat.le_refl _, List.mem_singleton.mp hd⟩

/-- A call that does not receive an ACK leads to no error but that of a file or of a send. -/
theorem state_of_readable {size : Nat} {log l : List Action} {c c' : TftpServerConnection}
    {r : RecvResult} (h : DownloadInv size stream log c) (hsize : 0 < size)
    (hne : c.state ≠ .error) (hs : step b c (.readable r) = .ok l c') :
    (receivedCount l = 0 ∧ c'.state ≠ .error) ∨ ∃ d, r = .datagram d ∧
      l = [.recv (d.take ackPktMaxSize)] ∧
      AckMove (outstanding log c) (blockCount size stream) log c (d.take ackPktMaxSize) c' := by
  obtain ⟨hmove, -⟩ := h.move hsize hne hs
  cases hmove with
  | quiet hl hm hst ht => exact .inl ⟨receivedCount_reads hl, hst ▸ hne⟩
  | timesOut hst hexp hm hs' ht =>
    refine .inl ⟨rfl, ?_⟩
    rw [hs']
    exact ConnState.noConfusion
  | @receives d hst ht => exact .inr ⟨d, rfl, rfl, h.ackMove hst _⟩

/-- Which block an ACK is for is decided by its number. -/
theorem ofNat_of_ackOf {m n : Nat} (h : ackOf m = ackOf n) : m % 65536 = n % 65536 := by
  have hdec := congrArg deserialiseAckPacket h
  rw [ackOf, ackOf, deserialise_serialiseAckPacket, deserialise_serialiseAckPacket,
    Option.some.injEq] at hdec
  rw [← ofNat_eq_ofNat_iff]
  exact congrArg AckPacket.blockNumber hdec

/-- An ACK that the receiver sent ends a download exactly when it is two or more blocks old. -/
theorem Reading.Inv.error_iff {sys : Reading} {r : RecvResult} {l : List Action}
    {c' : TftpServerConnection} (h : Reading.Inv stream sys)
    (hcount : blockCount dataPktDataMaxSize stream < 65535)
    (hrecv : ∀ d, r = .datagram d → d ∈ sys.sent) (hne : sys.server.state ≠ .error)
    (hs : TftpServerConnection.step b sys.server (.readable r) = .ok l c') :
    (c'.state = .error ↔ ∃ n, r = .datagram (ackOf n) ∧ 0 < receivedCount l ∧
      n + 2 ≤ outstanding sys.serverLog sys.server) ∧
    (0 < receivedCount l → c'.state ≠ .error → c'.finished = true ∨ c'.state = .sendData) := by
  have hle := h.sound.outstanding_le hne
  have hread := h.sound.readCount_le hne
  have haccepted := h.read
  generalize hm : outstanding sys.serverLog sys.server = m at hle hread ⊢
  rcases state_of_readable h.sound (by decide) hne hs with ⟨hl, hok⟩ | ⟨d, rfl, rfl, hmove⟩
  · rw [hl]
    refine ⟨iff_of_false hok ?_, fun hx ↦ absurd hx (Nat.lt_irrefl 0)⟩
    rintro ⟨n, -, hx, -⟩
    exact absurd hx (Nat.lt_irrefl 0)
  · obtain ⟨n, hpos, hn, rfl⟩ := h.sent d (hrecv d rfl)
    rw [show (ackOf n).take ackPktMaxSize = ackOf n from take_serialiseAckPacket _, hm] at hmove
    have hnot : m ≤ n + 1 → ¬∃ n', RecvResult.datagram (ackOf n) = .datagram (ackOf n') ∧
        0 < receivedCount [.recv ((ackOf n).take ackPktMaxSize)] ∧ n' + 2 ≤ m := by
      rintro hx ⟨n', hr, -, hn'⟩
      have hsame := ofNat_of_ackOf (RecvResult.datagram.inj hr)
      omega
    cases hmove.numbered with
    | previous hp hs' ht ho =>
      rw [UInt16.toNat_ofNat', UInt16.toNat_ofNat'] at hp
      refine ⟨iff_of_false ?_ (hnot (by omega)), fun _ _ ↦ .inr hs'⟩
      rw [hs']
      exact ConnState.noConfusion
    | advances hnum hlt hs' ht ho =>
      rw [ofNat_eq_ofNat_iff] at hnum
      refine ⟨iff_of_false ?_ (hnot (by omega)), fun _ _ ↦ .inr hs'⟩
      rw [hs']
      exact ConnState.noConfusion
    | finishes hnum hlast hs' hf ht ho =>
      rw [ofNat_eq_ofNat_iff] at hnum
      refine ⟨iff_of_false ?_ (hnot (by omega)), fun _ _ ↦ .inl hf⟩
      rw [hs']
      exact ConnState.noConfusion
    | aborts hnum hp hs' =>
      rw [ne_eq, ofNat_eq_ofNat_iff] at hnum
      rw [ne_eq, UInt16.toNat_ofNat', UInt16.toNat_ofNat'] at hp
      refine ⟨iff_of_true hs' ⟨n, rfl, Nat.one_pos, ?_⟩, fun _ hx ↦ absurd hs' hx⟩
      omega

/-- Before the first move the invariant holds. -/
theorem Reading.inv_create {w : World} {request : RwPacket} {file : FileContents}
    (ht : request.type = .read) (ha : w.notAllowed = none) (hf : w.readable = some file)
    (ho : request.options = []) :
    Reading.Inv (transferStream request.mode file.bytes) { server := create w request } := by
  have hsound := downloadInv_create ht ha hf
  have hsize : (create w request).blockSize = dataPktDataMaxSize := by
    have hoptions : (blank .read).processOptions w request = blank .read := by
      rw [processOptions, ho]
      rfl
    rw [create_read ht ha, hoptions, startRead, hf]
    rfl
  rw [hsize] at hsound
  exact ⟨hsound, fun _ _ hd ↦ absurd hd List.not_mem_nil, Nat.zero_le _, Nat.zero_le _,
    fun _ hd ↦ absurd hd List.not_mem_nil⟩

/-! ### Uploads -/

/-- Blocks are sent after the ACKs before them, and those after the writes. -/
structure Ordered (file : Bytes) (sys : Upload.System) : Prop where
  phase : UploadPhase sys.serverLog sys.server
  blockSize : sys.server.blockSize = dataPktDataMaxSize
  sent : ∀ d ∈ sys.sent, ∃ n, 1 ≤ n ∧ n ≤ sys.current ∧
    n ≤ blockCount dataPktDataMaxSize file ∧ d = dataFrame dataPktDataMaxSize file n
  acked : ∀ d a, .send d ∈ sys.serverLog → deserialiseAckPacket d = some a →
    ∃ n, n ≤ (writes sys.serverLog).length ∧ a.blockNumber = UInt16.ofNat n
  current : sys.current ≤ (writes sys.serverLog).length + 1
  written : (writes sys.serverLog).length ≤ blockCount dataPktDataMaxSize file

/-- The block that is written is the one after those written before. -/
theorem Ordered.next_written {file : Bytes} {sys : Upload.System} {d : Bytes} {p : DataPacket}
    {l : List Action} {c' : TftpServerConnection} (h : Ordered file sys)
    (hcount : blockCount dataPktDataMaxSize file < 65535) (hd : d ∈ sys.sent)
    (hb : WroteBlock sys.server (d.take sys.server.blockSize) p l c') :
    (writes sys.serverLog).length + 1 ≤ blockCount dataPktDataMaxSize file := by
  have hphase := h.phase
  rw [UploadPhase, hb.state] at hphase
  obtain ⟨n, hpos, -, hle, rfl⟩ := h.sent d hd
  have hdecoded := hb.decoded
  rw [h.blockSize, deserialise_take_dataFrame _ _ _ (by decide), Option.some.injEq] at hdecoded
  have hnumber := hb.expected
  rw [hphase.blockNumber, ← hdecoded, ofNat_eq_ofNat_iff] at hnumber
  have hwritten := h.written
  omega

/-- Any move keeps the order. -/
theorem Ordered.step {file : Bytes} {sys sys' : Upload.System} (h : Ordered file sys)
    (hcount : blockCount dataPktDataMaxSize file < 65535)
    (hs : Upload.System.Step b file sys sys') : Ordered file sys' := by
  cases hs with
  | sends hpos hle =>
    refine ⟨h.phase, h.blockSize, fun d hd ↦ ?_, h.acked, h.current, h.written⟩
    rcases List.mem_append.mp hd with hd | hd
    · exact h.sent d hd
    · exact ⟨sys.current, hpos, Nat.le_refl _, hle, List.mem_singleton.mp hd⟩
  | @acknowledged d a hd ha hnumber hle =>
    obtain ⟨n, hn, hnumber'⟩ := h.acked d a hd ha
    rw [hnumber, ofNat_eq_ofNat_iff] at hnumber'
    have hwritten := h.written
    obtain rfl : n = sys.current := by omega
    refine ⟨h.phase, h.blockSize, fun d hd ↦ ?_, h.acked, Nat.succ_le_succ hn, h.written⟩
    obtain ⟨m, hpos, hm, hrest⟩ := h.sent d hd
    exact ⟨m, hpos, Nat.le_succ_of_le hm, hrest⟩
  | @server e l c' hrecv hs =>
    have hmore : (writes sys.serverLog).length ≤ (writes (sys.serverLog ++ l)).length := by
      rw [writes_append, List.length_append]
      exact Nat.le_add_right _ _
    refine ⟨h.phase.step hs, (kept_step hs).blockSize.trans h.blockSize, h.sent,
      fun d a hd ha ↦ ?_, Nat.le_trans h.current (Nat.succ_le_succ hmore), ?_⟩
    · rcases List.mem_append.mp hd with hd | hd
      · obtain ⟨n, hn, hnumber⟩ := h.acked d a hd ha
        exact ⟨n, Nat.le_trans hn hmore, hnumber⟩
      · have hlog : (TftpServerConnection.step b sys.server e).log = l := by rw [hs]; rfl
        rw [← hlog] at hd
        exact ⟨_, hmore, (h.phase.acked hd ha).1⟩
    · rw [writes_append, List.length_append]
      rcases h.phase.wrote hs with hk | ⟨d, p, he, hb⟩
      · rw [hk.writes]
        exact h.written
      · rw [hb.writes]
        exact h.next_written hcount (hrecv d he) hb

/-- What the branch WAIT_FOR_DATA does with a DATA packet, by its number. -/
theorem readData_of_number {c c' : TftpServerConnection} {d : Bytes} {p : DataPacket}
    {l : List Action} (hp : deserialiseDataPacket d = some p) (h : c.readData d = .ok l c') :
    (p.blockNumber.toNat + 1 = c.blockNumber.toNat ∧ l = [] ∧ c'.state = .sendAck) ∨
    (p.blockNumber = c.blockNumber ∧ l = [.write p.data]) ∨
    (p.blockNumber.toNat + 1 ≠ c.blockNumber.toNat ∧ p.blockNumber ≠ c.blockNumber ∧ l = [] ∧
      c'.state = .error) := by
  cases readDataMove h with
  | repeated decoded previous =>
    obtain rfl := Option.some.inj (hp.symm.trans decoded)
    exact .inl ⟨(isPrevious_iff _ _).mp previous, rfl, rfl⟩
  | block decoded number =>
    obtain rfl := Option.some.inj (hp.symm.trans decoded)
    exact .inr (.inl ⟨number, rfl⟩)
  | wrong decoded other number =>
    obtain rfl := Option.some.inj (hp.symm.trans decoded)
    exact .inr (.inr ⟨mt (isPrevious_iff _ _).mpr (Bool.eq_false_iff.mp other), number, rfl, rfl⟩)
  | refused decoded =>
    rw [hp] at decoded
    cases decoded
  | ignored decoded =>
    rw [hp] at decoded
    cases decoded

private theorem state_of_timeoutMove {c c' : TftpServerConnection} (h : TimeoutMove c c')
    (hne : c.state ≠ .error) : c'.state ≠ .error := by
  cases h with
  | gaveUp => exact hne
  | resendData => exact ConnState.noConfusion
  | resendAck => exact ConnState.noConfusion
  | late => exact hne

/-- A call that does not receive a datagram leads to no error, and otherwise the bytes received
decide. -/
theorem received_of_readable {log l : List Action} {c c' : TftpServerConnection} {r : RecvResult}
    (h : UploadPhase log c) (hne : c.state ≠ .error)
    (hs : step b c (.readable r) = .ok l c') :
    (receivedCount l = 0 ∧ c'.state ≠ .error) ∨ ∃ d l', r = .datagram d ∧
      c.state = .waitForData ∧ l = .recv (d.take c.blockSize) :: l' ∧
      c.readData (d.take c.blockSize) = .ok l' c' := by
  cases handleReadMove hs with
  | timeout expired move => exact .inl ⟨rfl, state_of_timeoutMove move hne⟩
  | ack timer state =>
    rw [UploadPhase, state] at h
    exact h.elim
  | data timer state recv read =>
    cases r with
    | failed what => cases recv
    | wouldBlock =>
      cases recv
      obtain ⟨rfl, rfl⟩ := Outcome.ok_inj.mp read
      exact .inl ⟨rfl, hne⟩
    | datagram d =>
      cases recv
      exact .inr ⟨d, _, rfl, state, rfl, read⟩
  | idle => exact .inl ⟨rfl, hne⟩

/-- Which block a DATA datagram is for is decided by its number. -/
private theorem ofNat_of_dataFrame {size m n : Nat} {file : Bytes}
    (h : dataFrame size file m = dataFrame size file n) : m % 65536 = n % 65536 := by
  have hnumber := congrArg DataPacket.blockNumber (serialiseDataPacket_inj h)
  rwa [ofNat_eq_ofNat_iff] at hnumber

/-- A block that the sender sent ends an upload exactly when it is two or more blocks old, failed
writes apart. -/
theorem Ordered.error_iff {file : Bytes} {sys : Upload.System} {r : RecvResult} {l : List Action}
    {c' : TftpServerConnection} (h : Ordered file sys)
    (hcount : blockCount dataPktDataMaxSize file < 65535)
    (hrecv : ∀ d, r = .datagram d → d ∈ sys.sent) (hne : sys.server.state ≠ .error)
    (hs : TftpServerConnection.step b sys.server (.readable r) = .ok l c') :
    (c'.state = .error ∧ writes l = [] ↔
      ∃ n, r = .datagram (dataFrame dataPktDataMaxSize file n) ∧ 0 < receivedCount l ∧
        n + 2 ≤ (writes sys.serverLog).length + 1) ∧
    (0 < receivedCount l → writes l = [] → c'.state ≠ .error → c'.state = .sendAck) := by
  have hwritten := h.written
  rcases received_of_readable h.phase hne hs with ⟨hl, hok⟩ | ⟨d, l', rfl, hst, rfl, hread⟩
  · rw [hl]
    refine ⟨iff_of_false (fun hx ↦ hok hx.1) ?_, fun hx ↦ absurd hx (Nat.lt_irrefl 0)⟩
    rintro ⟨n, -, hx, -⟩
    exact absurd hx (Nat.lt_irrefl 0)
  · have hphase := h.phase
    rw [UploadPhase, hst] at hphase
    obtain ⟨n, hpos, hn, hle, rfl⟩ := h.sent d (hrecv d rfl)
    have hcurrent := h.current
    have hdecoded : deserialiseDataPacket
        ((dataFrame dataPktDataMaxSize file n).take sys.server.blockSize) = some
          { data := (block dataPktDataMaxSize file n).take (dataPktDataMaxSize - 4),
            blockNumber := UInt16.ofNat n } := by
      rw [h.blockSize]
      exact deserialise_take_dataFrame _ _ _ (by decide)
    have hnot : (writes sys.serverLog).length ≤ n → ¬∃ n', RecvResult.datagram
        (dataFrame dataPktDataMaxSize file n) = .datagram (dataFrame dataPktDataMaxSize file n') ∧
        0 < receivedCount (.recv ((dataFrame dataPktDataMaxSize file n).take
          sys.server.blockSize) :: l') ∧ n' + 2 ≤ (writes sys.serverLog).length + 1 := by
      rintro hx ⟨n', hr, -, hn'⟩
      have hsame := ofNat_of_dataFrame (RecvResult.datagram.inj hr)
      omega
    rcases readData_of_number hdecoded hread with ⟨hnumber, rfl, hs'⟩ | ⟨hnumber, rfl⟩ |
      ⟨hprevious, hother, rfl, hs'⟩
    · rw [hphase.blockNumber, UInt16.toNat_ofNat', UInt16.toNat_ofNat'] at hnumber
      refine ⟨iff_of_false ?_ (hnot (by omega)), fun _ _ _ ↦ hs'⟩
      rw [hs']
      exact fun hx ↦ ConnState.noConfusion hx.1
    · rw [hphase.blockNumber, ofNat_eq_ofNat_iff] at hnumber
      refine ⟨iff_of_false (fun hx ↦ ?_) (hnot (by omega)), fun _ hx ↦ ?_⟩
      · cases hx.2
      · cases hx
    · rw [hphase.blockNumber, UInt16.toNat_ofNat', UInt16.toNat_ofNat'] at hprevious
      rw [hphase.blockNumber, ne_eq, ofNat_eq_ofNat_iff] at hother
      refine ⟨iff_of_true ⟨hs', rfl⟩ ⟨n, rfl, Nat.one_pos, ?_⟩, fun _ _ hx ↦ absurd hs' hx⟩
      omega

/-- Before the first move the invariant holds. -/
theorem ordered_create {w : World} {request : RwPacket} (ht : request.type = .write)
    (ha : w.notAllowed = none) (ho : request.options = []) (file : Bytes) :
    Ordered file { server := create w request } := by
  have hoptions : (blank .write).processOptions w request = blank .write := by
    rw [processOptions, ho]
    rfl
  have hnone : (create w request).oackPacket.options = [] ∧
      (create w request).blockSize = dataPktDataMaxSize := by
    rw [create_write ht ha, hoptions, startWrite]
    dsimp only
    split
    · exact ⟨rfl, rfl⟩
    · exact ⟨rfl, rfl⟩
  exact ⟨uploadPhase_create ht hnone.1, hnone.2, fun _ hd ↦ absurd hd List.not_mem_nil,
    fun _ _ hd ↦ absurd hd List.not_mem_nil, Nat.zero_le _, Nat.zero_le _⟩

/-! ### Which late datagrams end a transfer -/

/-- A download of fewer than 65535 blocks without options. -/
structure ReadSetting (w : World) (request : RwPacket) (file : FileContents) : Prop where
  read : request.type = .read
  allowed : w.notAllowed = none
  opened : w.readable = some file
  noOptions : request.options = []
  few : blockCount dataPktDataMaxSize (transferStream request.mode file.bytes) < 65535

/-- An upload of fewer than 65535 blocks without options. -/
structure WriteSetting (w : World) (request : RwPacket) (file : Bytes) : Prop where
  write : request.type = .write
  allowed : w.notAllowed = none
  noOptions : request.options = []
  few : blockCount dataPktDataMaxSize file < 65535

/-- Without losses the receiver gets to every block, and its ACKs stay on the network. -/
theorem exists_awaited (b : Build) {w : World} {request : RwPacket} {file : FileContents}
    (h : ReadSetting w request file) (hfail : file.failAt = none) {k : Nat}
    (hk : k < blockCount dataPktDataMaxSize (transferStream request.mode file.bytes)) : ∃ sys,
    Relation.ReflTransGen (Reading.Step b) { server := create w request } sys ∧
      Awaited dataPktDataMaxSize (transferStream request.mode file.bytes) k sys.serverLog
        sys.server ∧ sys.accepted = k ∧
      (∃ l, sys.serverLog = l ++ [.send (dataFrame dataPktDataMaxSize
        (transferStream request.mode file.bytes) (k + 1))]) ∧
      ∀ n, 1 ≤ n → n ≤ k → ackOf n ∈ sys.sent := by
  have hsize : 0 < dataPktDataMaxSize := by decide
  induction k with
  | zero =>
    obtain ⟨hdue, -⟩ := due_create h.read h.allowed h.opened hfail h.noOptions
    obtain ⟨l, c', hs, -, hawait, -⟩ := hdue.send (b := b) hsize
    have h1 : Reading.Step b { server := create w request } _ :=
      .server (fun _ he ↦ Event.noConfusion he) hs
    exact ⟨_, .single h1, hawait, rfl, ⟨l, rfl⟩, fun n hpos hn ↦ absurd hpos (by omega)⟩
  | succ k ih =>
    obtain ⟨sys, hr, hawait, haccepted, ⟨l₀, hlog⟩, hsent⟩ := ih (Nat.lt_of_succ_lt hk)
    obtain ⟨sys₁, h1, hserver, hlog₁, haccepted₁, hsent₁⟩ : ∃ sys₁, Reading.Step b sys sys₁ ∧
        sys₁.server = sys.server ∧ sys₁.serverLog = sys.serverLog ∧
        sys₁.accepted = sys.accepted + 1 ∧ sys₁.sent = sys.sent ++ [ackOf (sys.accepted + 1)] := by
      have hd : .send (dataFrame dataPktDataMaxSize (transferStream request.mode file.bytes)
          (k + 1)) ∈ sys.serverLog := by
        rw [hlog]
        exact List.mem_append_right _ List.mem_cons_self
      exact ⟨_, .accepts hd (deserialise_dataFrame _ _ _) (by rw [haccepted]), rfl, rfl, rfl, rfl⟩
    rw [haccepted] at haccepted₁ hsent₁
    rw [← hserver, ← hlog₁] at hawait
    -- the ACK is received, and the next block goes out
    obtain ⟨c₁, hs₁, hdue, -⟩ := hawait.acknowledge (b := b) hk
    obtain ⟨l, c₂, hs₂, -, hawait', -⟩ := hdue.send (b := b) hsize
    have h2 : Reading.Step b sys₁
        { sys₁ with server := c₁, serverLog := sys₁.serverLog ++ [.recv (ackOf (k + 1))] } := by
      apply Reading.Step.server _ hs₁
      intro d he
      cases he
      rw [hsent₁]
      exact List.mem_append_right _ List.mem_cons_self
    have h3 : Reading.Step b
        { sys₁ with server := c₁, serverLog := sys₁.serverLog ++ [.recv (ackOf (k + 1))] } _ :=
      .server (fun _ he ↦ Event.noConfusion he) hs₂
    refine ⟨_, ((hr.tail h1).tail h2).tail h3, hawait', haccepted₁,
      ⟨sys₁.serverLog ++ [.recv (ackOf (k + 1))] ++ l, ?_⟩, fun n hpos hn ↦ ?_⟩
    · exact (List.append_assoc _ _ _).symm
    · show ackOf n ∈ sys₁.sent
      rw [hsent₁]
      by_cases hnk : n = k + 1
      · rw [hnk]
        exact List.mem_append_right _ List.mem_cons_self
      · exact List.mem_append_left _ (hsent n hpos (by omega))

/-- A stale datagram ends the transfer exactly when it is two or more blocks old. Whatever the
network delays, repeats or reorders, an ACK that the receiver sent, or a block that the sender
sent, leads to the state ERROR if and only if it is received while the connection waits for a
block at least two further on. Any other has the connection send again, or go on. A write that
fails is another matter. -/
theorem stale_ends_iff (b : Build) :
    (∀ (w : World) (request : RwPacket) (file : FileContents) (sys : Reading) (r : RecvResult)
      (l : List Action) (c' : TftpServerConnection), ReadSetting w request file →
      Relation.ReflTransGen (Reading.Step b) { server := create w request } sys →
      (∀ d, r = .datagram d → d ∈ sys.sent) → sys.server.state ≠ .error →
      step b sys.server (.readable r) = .ok l c' →
      (c'.state = .error ↔ ∃ n, r = .datagram (ackOf n) ∧ 0 < receivedCount l ∧
        n + 2 ≤ outstanding sys.serverLog sys.server) ∧
      (0 < receivedCount l → c'.state ≠ .error → c'.finished = true ∨ c'.state = .sendData)) ∧
    ∀ (w : World) (request : RwPacket) (file : Bytes) (sys : Upload.System) (r : RecvResult)
      (l : List Action) (c' : TftpServerConnection), WriteSetting w request file →
      Relation.ReflTransGen (Upload.System.Step b file) { server := create w request } sys →
      (∀ d, r = .datagram d → d ∈ sys.sent) → sys.server.state ≠ .error →
      step b sys.server (.readable r) = .ok l c' →
      (c'.state = .error ∧ writes l = [] ↔
        ∃ n, r = .datagram (dataFrame dataPktDataMaxSize file n) ∧ 0 < receivedCount l ∧
          n + 2 ≤ (writes sys.serverLog).length + 1) ∧
      (0 < receivedCount l → writes l = [] → c'.state ≠ .error → c'.state = .sendAck) := by
  constructor
  · intro w request file sys r l c' h hr hrecv hne hs
    have h0 := Reading.inv_create h.read h.allowed h.opened h.noOptions
    exact (invariant_reachable hr h0 fun _ _ hi hs ↦ hi.step h.few hs).error_iff h.few hrecv hne hs
  · intro w request file sys r l c' h hr hrecv hne hs
    have h0 := ordered_create h.write h.allowed h.noOptions file
    exact (invariant_reachable hr h0 fun _ _ hi hs ↦ hi.step h.few hs).error_iff h.few hrecv hne hs

/-- A file of 1024 bytes makes three blocks. -/
private theorem setting_threeBlocks :
    ReadSetting { readable := some { bytes := List.replicate 1024 65 } } {}
        { bytes := List.replicate 1024 65 } ∧
      blockCount dataPktDataMaxSize (List.replicate 1024 (65 : UInt8)) = 3 := by
  have hcount : blockCount dataPktDataMaxSize (List.replicate 1024 (65 : UInt8)) = 3 := by
    rw [blockCount, List.length_replicate]
    rfl
  refine ⟨⟨rfl, rfl, rfl, rfl, ?_⟩, hcount⟩
  show blockCount dataPktDataMaxSize (List.replicate 1024 65) < 65535
  rw [hcount]
  decide

/-- While block 3 of a download is awaited, ACK 1 is received once more. -/
private theorem exists_stale : ∃ sys l c',
    Relation.ReflTransGen (Reading.Step .release)
      { server := create { readable := some { bytes := List.replicate 1024 65 } } {} } sys ∧
    ackOf 1 ∈ sys.sent ∧ sys.server.state = .waitForAck ∧
    step .release sys.server (.readable (.datagram (ackOf 1))) = .ok l c' ∧ c'.state = .error := by
  obtain ⟨hsetting, hcount⟩ := setting_threeBlocks
  obtain ⟨sys, hr, hawait, -, -, hsent⟩ := exists_awaited .release hsetting rfl (k := 2)
    (by rw [transferStream_octet, hcount]; decide)
  obtain ⟨c', hs, herr⟩ := hawait.abort (b := .release) (n := 1) (by decide) (by decide)
  exact ⟨sys, _, c', hr, hsent 1 (Nat.le_refl 1) (Nat.le_succ 1), hawait.state, hs, herr⟩

/-- In a download of three blocks the ACK of block 1 is two blocks old while block 3 is awaited,
and ends it. In an upload of three bytes the first block is not old, and is taken. -/
theorem stale_ends_threeBlocks :
    (∃ sys l c', Relation.ReflTransGen (Reading.Step .release)
        { server := create { readable := some { bytes := List.replicate 1024 65 } } {} } sys ∧
      step .release sys.server (.readable (.datagram (ackOf 1))) = .ok l c' ∧
      ∃ n, RecvResult.datagram (ackOf 1) = .datagram (ackOf n) ∧ 0 < receivedCount l ∧
        n + 2 ≤ outstanding sys.serverLog sys.server) ∧
    ∃ sys l c', Relation.ReflTransGen (Upload.System.Step .release [1, 2, 3])
        { server := create { writable := some {} } { type := .write } } sys ∧
      step .release sys.server (.readable (.datagram (dataFrame dataPktDataMaxSize [1, 2, 3] 1))) =
        .ok l c' ∧ c'.state = .sendAck ∧
      ¬∃ n, RecvResult.datagram (dataFrame dataPktDataMaxSize [1, 2, 3] 1) =
        .datagram (dataFrame dataPktDataMaxSize [1, 2, 3] n) ∧ 0 < receivedCount l ∧
          n + 2 ≤ (writes sys.serverLog).length + 1 := by
  constructor
  · obtain ⟨sys, l, c', hr, hmem, hst, hs, herr⟩ := exists_stale
    have hne : sys.server.state ≠ .error := by
      rw [hst]
      exact ConnState.noConfusion
    have hiff := ((stale_ends_iff .release).1 _ _ _ sys _ l c' setting_threeBlocks.1 hr
      (fun d hd ↦ by cases hd; exact hmem) hne hs).1
    exact ⟨sys, l, c', hr, hs, hiff.mp herr⟩
  · have hsetting : Upload.Setting { writable := some {} } { type := .write } {} :=
      ⟨rfl, rfl, fun _ ho ↦ absurd ho List.not_mem_nil, rfl, rfl, rfl, rfl⟩
    obtain ⟨sys, hr, hawait⟩ := Upload.exists_awaitsFirst .release hsetting [1, 2, 3]
    obtain ⟨l, c', hs, hst, -⟩ := hawait.received .release
    have hne : sys.server.state ≠ .error := by
      rw [hawait.state]
      exact ConnState.noConfusion
    have hiff := ((stale_ends_iff .release).2 _ _ [1, 2, 3] sys _ l c' ⟨rfl, rfl, rfl, by decide⟩ hr
      (fun d hd ↦ by cases hd; exact hawait.sent) hne hs).1
    refine ⟨sys, l, c', hr, hs, hst, fun hx ↦ ?_⟩
    have herr := (hiff.mpr hx).1
    rw [hst] at herr
    cases herr

/-- An ACK that the receiver sent earlier in the same transfer can end it. -/
theorem stale_ack_ends :
    ¬∀ (b : Build) (w : World) (request : RwPacket) (file : FileContents) (sys : Reading)
      (d : Bytes) (l : List Action) (c' : TftpServerConnection), ReadSetting w request file →
      Relation.ReflTransGen (Reading.Step b) { server := create w request } sys → d ∈ sys.sent →
      sys.server.state ≠ .error →
      step b sys.server (.readable (.datagram d)) = .ok l c' → c'.state ≠ .error := by
  intro h
  obtain ⟨sys, l, c', hr, hmem, hst, hs, herr⟩ := exists_stale
  have hne : sys.server.state ≠ .error := by
    rw [hst]
    exact ConnState.noConfusion
  exact h .release _ _ _ sys _ l c' setting_threeBlocks.1 hr hmem hne hs herr

end CppTftp.Stale
