import CppTftp.Server.Datagrams
import CppTftp.Server.Options
import CppTftp.Server.Sender

/-!
# Downloads end

A client that acknowledges every packet it is sent, once and without loss. A block shorter than
the block size comes exactly when the block size is not zero, and every block is sent exactly
when none of them is too long for a datagram.
-/

namespace CppTftp.TftpServerConnection

open Tftp Lib

/-! ### A client that acknowledges -/

/-- The ACK with which the client answers a packet: for its block, or for the OACK. -/
def clientAck (d : Bytes) : Bytes :=
  match deserialiseDataPacket d with
  | some dataPacket => serialiseAckPacket { blockNumber := dataPacket.blockNumber }
  | none => serialiseAckPacket { blockNumber := 0 }

/-- A whole session, until the connection is finished: the connection is called to send, and where
it has sent a packet and is not finished, the next thing that happens is that it receives the
client's ACK. A packet is sent unless it is too long for a datagram. -/
inductive Session (b : Build) : TftpServerConnection → List Action → TftpServerConnection → Prop
  | done {c : TftpServerConnection} : c.finished = true → Session b c [] c
  | answered {c c₁ c₂ c' : TftpServerConnection} {l l' log : List Action} {d : Bytes} :
      c.finished = false → step b c (.writable c.sendResult) = .ok l c₁ → c₁.finished = false →
      .send d ∈ l → step b c₁ (.readable (.datagram (clientAck d))) = .ok l' c₂ →
      Session b c₂ log c' → Session b c (l ++ (l' ++ log)) c'
  | unanswered {c c₁ c' : TftpServerConnection} {l log : List Action} :
      c.finished = false → step b c (.writable c.sendResult) = .ok l c₁ →
      (c₁.finished = true ∨ ∀ d, .send d ∉ l) → Session b c₁ log c' → Session b c (l ++ log) c'

variable {b : Build} {size k : Nat} {stream : Bytes} {log l : List Action}
  {c c' : TftpServerConnection}

/-- A session ends with the connection finished. -/
theorem Session.finished (h : Session b c log c') : c'.finished = true := by
  induction h with
  | done hf => exact hf
  | answered _ _ _ _ _ _ ih => exact ih
  | unanswered _ _ _ _ ih => exact ih

/-- A session has no choice: where the connection sends a packet, it goes on with the answer. -/
theorem Session.rest_of_answered {c₁ c₂ : TftpServerConnection} {l' : List Action} {d : Bytes}
    (h : Session b c log c') (hf : c.finished = false)
    (hs : step b c (.writable c.sendResult) = .ok l c₁) (hf₁ : c₁.finished = false)
    (hmem : .send d ∈ l) (hd : ∀ d', .send d' ∈ l → d' = d)
    (hs' : step b c₁ (.readable (.datagram (clientAck d))) = .ok l' c₂) :
    ∃ log', Session b c₂ log' c' ∧ log = l ++ (l' ++ log') := by
  cases h with
  | done hf' =>
    rw [hf] at hf'
    cases hf'
  | answered _ hs₁ _ hd₁ hs₂ hrest =>
    obtain ⟨rfl, rfl⟩ := Outcome.ok_inj.mp (hs.symm.trans hs₁)
    rw [hd _ hd₁] at hs₂
    obtain ⟨rfl, rfl⟩ := Outcome.ok_inj.mp (hs'.symm.trans hs₂)
    exact ⟨_, hrest, rfl⟩
  | unanswered _ hs₁ hquiet =>
    obtain ⟨rfl, rfl⟩ := Outcome.ok_inj.mp (hs.symm.trans hs₁)
    rcases hquiet with hfin | hnone
    · rw [hf₁] at hfin
      cases hfin
    · exact absurd hmem (hnone d)

/-- Where it sends none, it goes on with the next call. -/
theorem Session.rest_of_unanswered {c₁ : TftpServerConnection} (h : Session b c log c')
    (hf : c.finished = false) (hs : step b c (.writable c.sendResult) = .ok l c₁)
    (hnone : ∀ d, .send d ∉ l) : ∃ log', Session b c₁ log' c' ∧ log = l ++ log' := by
  cases h with
  | done hf' =>
    rw [hf] at hf'
    cases hf'
  | answered _ hs₁ _ hd₁ =>
    obtain ⟨rfl, -⟩ := Outcome.ok_inj.mp (hs.symm.trans hs₁)
    exact absurd hd₁ (hnone _)
  | unanswered _ hs₁ _ hrest =>
    obtain ⟨rfl, rfl⟩ := Outcome.ok_inj.mp (hs.symm.trans hs₁)
    exact ⟨_, hrest, rfl⟩

/-- The packet that a call would send decides what becomes of it. -/
theorem sendResult_of_handleWrite (h : c.handleWrite .sent = .ok l c') :
    c.sendResult = if l.all fits then .sent else .failed := by
  rw [sendResult, h]
  rfl

/-- A packet that fits is sent. -/
theorem sent_of_fits (h : c.handleWrite .sent = .ok l c') (hl : l.all fits = true) :
    step b c (.writable c.sendResult) = .ok l c' := by
  rw [sendResult_of_handleWrite h, if_pos hl]
  exact h

/-- A block is acknowledged by its own number. -/
theorem clientAck_dataFrame (size : Nat) (stream : Bytes) (k : Nat) :
    clientAck (dataFrame size stream (k + 1)) = ackFrame k := by
  rw [clientAck, deserialise_dataFrame]
  rfl

/-- The OACK is acknowledged as block 0. -/
theorem clientAck_oack (oack : OackPacket) :
    clientAck (serialiseOackPacket oack) = serialiseAckPacket { blockNumber := 0 } := by
  have hd : deserialiseDataPacket (serialiseOackPacket oack) = none :=
    deserialiseDataPacket_of_opcode (by simp [PacketT.code])
  rw [clientAck, hd]

/-- The ACK that is waited for, received whole, makes the next block due. -/
theorem receive_own {n : UInt16} (ht : c.timer ≠ .expired) (hs : c.state = .waitForAck)
    (hn : c.blockNumber = n) (hf : c.finalAck = false) :
    step b c (.readable (.datagram (serialiseAckPacket { blockNumber := n }))) =
      .ok [.recv (serialiseAckPacket { blockNumber := n })] { c with
        timeoutCount := 0, pktReady := false, state := .sendData,
        blockNumber := c.blockNumber + 1 } := by
  rw [← hn, ← readAck_own hf]
  exact handleRead_waitForAck ht hs _

/-! ### Blocks of some size -/

/-- A block is sent if it and the four bytes before it fit. -/
theorem fits_dataFrame (size : Nat) (stream : Bytes) (n : Nat) :
    ([.readInTo, .send (dataFrame size stream n)] : List Action).all fits =
      decide ((block size stream n).length ≤ 65503) := by
  have hlen : (dataFrame size stream n).length = (block size stream n).length + 4 := by
    rw [dataFrame, length_serialiseDataPacket]
  have hall : ([.readInTo, .send (dataFrame size stream n)] : List Action).all fits =
      decide ((dataFrame size stream n).length ≤ maxUdpPayload) := by
    simp [fits]
  rw [hall, hlen, maxUdpPayload]
  congr 1
  apply propext
  omega

/-- From a block in turn on, the session sends it and the blocks behind it, and ends. -/
theorem InTurn.session (h : InTurn size stream k log c) (hsize : 0 < size)
    (hfit : ∀ n, (block size stream n).length ≤ 65503) :
    ∃ log' c', Session b c log' c' ∧ dataSent log' = blockCount size stream - k := by
  have hlt := h.fresh.lt
  induction hn : blockCount size stream - k generalizing k log c with
  | zero => omega
  | succ n ih =>
    obtain ⟨c₁, hs, hu⟩ := h.sent hsize
    obtain ⟨c₂, hs', hnext, hlast⟩ := hu.acknowledged (b := b)
    have hfits := (fits_dataFrame size stream (k + 1)).trans (decide_eq_true (hfit (k + 1)))
    have hs := sent_of_fits (b := b) hs hfits
    have hs' : step b c₁ (.readable (.datagram (ackFrame k))) = .ok [.recv (ackFrame k)] c₂ := hs'
    rw [← clientAck_dataFrame size stream k] at hs'
    have hmem : Action.send (dataFrame size stream (k + 1)) ∈
        [Action.readInTo, .send (dataFrame size stream (k + 1))] := by simp
    have hcount : ∀ log' a, dataSent ([.readInTo, .send (dataFrame size stream (k + 1))] ++
        ([.recv a] ++ log')) = dataSent log' + 1 := by
      intro log' a
      simp [dataSent, isData]
    by_cases hk : k + 1 < blockCount size stream
    · obtain ⟨log', c', hsession, hsent⟩ := ih (hnext hk) hk (by omega)
      refine ⟨_, c', .answered h.finished hs hu.finished hmem hs' hsession, ?_⟩
      rw [hcount, hsent]
    · have hdone := hlast (by omega)
      refine ⟨_, c₂, .answered h.finished hs hu.finished hmem hs' (.done hdone), ?_⟩
      rw [hcount]
      simp only [dataSent, List.countP_nil]
      omega

/-! ### Blocks too long for a datagram -/

/-- A connection that has failed sends no blocks. -/
theorem Session.dataSent_of_error (h : Session b c log c') (hs : c.state = .error) :
    dataSent log = 0 := by
  induction h with
  | done => rfl
  | answered _ hwrite _ _ hread _ ih =>
    obtain ⟨hs₁, hnone⟩ := step_error hs hwrite
    obtain ⟨hs₂, hnone'⟩ := step_error hs₁ hread
    rw [dataSent_append, dataSent_append, hnone, hnone', ih hs₂]
  | unanswered _ hwrite _ _ ih =>
    obtain ⟨hs₁, hnone⟩ := step_error hs hwrite
    rw [dataSent_append, hnone, ih hs₁]

/-- A block in turn that is refused makes the connection fail. -/
theorem InTurn.refused (h : InTurn size stream k log c) : ∃ c₁,
    step b c (.writable .failed) = .ok [.readInTo] c₁ ∧ c₁.state = .error := by
  obtain ⟨data, r', hread, hdel, hsound⟩ := TftpReadFile.readInTo_spec h.fresh.ready
  have herr := (hsound h.sound).1
  refine ⟨{ c with
    dataPkt := { data := data, blockNumber := c.blockNumber }, fileReader := r', pktReady := true
    finalAck := c.finalAck || decide (data.length < size)
    errorPkt := internalError, state := .error }, ?_, rfl⟩
  show c.handleWrite .failed = _
  rw [handleWrite, h.state]
  dsimp only
  rw [handleWriteData, h.fresh.pktReady, if_neg Bool.false_ne_true, h.blockSize, hread]
  by_cases hshort : data.length < size
  · simp [herr, hshort, transmitData, Outcome.after, Outcome.ok]
  · simp [herr, hshort, transmitData, Outcome.after, Outcome.ok]

/-- Where the first block is too long, no block is sent. -/
theorem InTurn.none_sent (h : InTurn size stream k log c) (hsize : 0 < size)
    (hlong : 65503 < (block size stream (k + 1)).length) {log' : List Action}
    (hsession : Session b c log' c') : dataSent log' = 0 := by
  obtain ⟨c', hwrite, -⟩ := h.sent hsize
  have hresult : c.sendResult = .failed := by
    rw [sendResult_of_handleWrite hwrite, fits_dataFrame, decide_eq_false (by omega)]
    rfl
  obtain ⟨c₁, hs, herror⟩ := h.refused (b := b)
  rw [← hresult] at hs
  obtain ⟨rest, hrest, rfl⟩ := hsession.rest_of_unanswered h.finished hs (by simp)
  rw [dataSent_append, hrest.dataSent_of_error herror]
  rfl

/-! ### Blocks of no size -/

/-- The next block is in turn, and none of them is ever short. -/
structure Endless (c : TftpServerConnection) : Prop where
  state : c.state = .sendData
  pktReady : c.pktReady = false
  finalAck : c.finalAck = false
  finished : c.finished = false
  blockSize : c.blockSize = 0
  timer : c.timer ≠ .expired
  ready : c.fileReader.Ready 0
  sound : c.fileReader.Sound

/-- A block of no bytes is sent and acknowledged, and the next one is in turn. -/
theorem Endless.round (h : Endless c) : ∃ d c₁ c₂,
    step b c (.writable c.sendResult) = .ok [.readInTo, .send d] c₁ ∧ c₁.finished = false ∧
      step b c₁ (.readable (.datagram (clientAck d))) = .ok [.recv (clientAck d)] c₂ ∧
      Endless c₂ := by
  obtain ⟨data, r', hread, hdel, hsound⟩ := TftpReadFile.readInTo_spec h.ready
  obtain ⟨herr, hsound'⟩ := hsound h.sound
  have hready := (hdel herr).ready
  have hnone : data = [] := (hdel herr).data_eq.trans (List.take_zero)
  have hpacket : clientAck (serialiseDataPacket { data := data, blockNumber := c.blockNumber }) =
      serialiseAckPacket { blockNumber := c.blockNumber } := by
    rw [clientAck, deserialise_serialiseDataPacket]
  refine ⟨serialiseDataPacket { data := data, blockNumber := c.blockNumber },
    { c with
      dataPkt := { data := data, blockNumber := c.blockNumber }, fileReader := r',
      pktReady := true, state := .waitForAck, timer := .armTimer c.timeoutS.toNat },
    { c with
      dataPkt := { data := data, blockNumber := c.blockNumber }, fileReader := r',
      pktReady := false, state := .sendData, timer := .armTimer c.timeoutS.toNat,
      timeoutCount := 0, blockNumber := c.blockNumber + 1 }, ?_, h.finished, ?_, ?_⟩
  · apply sent_of_fits
    case hl => simp [fits, hnone, length_serialiseDataPacket, maxUdpPayload]
    rw [handleWrite, h.state]
    dsimp only
    rw [handleWriteData, h.pktReady, if_neg Bool.false_ne_true, h.blockSize, hread]
    simp [herr, transmitData, waitWithTimer, Outcome.after, Outcome.ok]
  · rw [hpacket]
    exact receive_own (Timer.armTimer_ne_expired _) rfl rfl h.finalAck
  · exact ⟨rfl, rfl, h.finalAck, h.finished, h.blockSize, Timer.armTimer_ne_expired _, hready,
      hsound'⟩

/-- A session of blocks of no bytes never ends. The induction is on the session. -/
theorem Endless.not_session (h : Endless c) : ¬Session b c log c' := by
  intro hsession
  induction hsession with
  | done hf =>
    rw [h.finished] at hf
    cases hf
  | answered _ hs _ hd hs' _ ih =>
    obtain ⟨d, c₁, c₂, hs₁, -, hs₂, hnext⟩ := h.round
    obtain ⟨rfl, rfl⟩ := Outcome.ok_inj.mp (hs₁.symm.trans hs)
    obtain rfl : _ = d := by simpa using hd
    obtain ⟨rfl, rfl⟩ := Outcome.ok_inj.mp (hs₂.symm.trans hs')
    exact ih hnext
  | unanswered _ hs hquiet =>
    obtain ⟨d, c₁, c₂, hs₁, hf₁, -⟩ := h.round
    obtain ⟨rfl, rfl⟩ := Outcome.ok_inj.mp (hs₁.symm.trans hs)
    rcases hquiet with hfin | hnone
    · rw [hf₁] at hfin
      cases hfin
    · exact absurd (List.mem_cons_of_mem _ (List.mem_singleton_self _)) (hnone d)

/-- With a block size of zero no block is ever short. -/
theorem InTurn.endless (h : InTurn 0 stream k log c) : Endless c :=
  ⟨h.state, h.fresh.pktReady, h.fresh.finalAck, h.finished, h.blockSize, h.timer, h.fresh.ready,
    h.sound⟩

/-! ### From the request on -/

/-- The OACK is on offer and not sent yet; the device under the file does not fail. -/
structure Offered (size : Nat) (stream : Bytes) (log : List Action) (c : TftpServerConnection) :
    Prop where
  offering : Offering size stream log c
  type : c.type = .read
  state : c.state = .sendOack
  blockSize : c.blockSize = size
  finished : c.finished = false
  sound : c.fileReader.Sound

/-- The OACK is sent and acknowledged, and the first block is in turn. -/
theorem Offered.round (h : Offered size stream log c)
    (hfit : (serialiseOackPacket c.oackPacket).length ≤ maxUdpPayload) : ∃ d c₁ c₂,
    step b c (.writable c.sendResult) = .ok [.send d] c₁ ∧ c₁.finished = false ∧
      step b c₁ (.readable (.datagram (clientAck d))) = .ok [.recv (clientAck d)] c₂ ∧
      dataSent [.send d] = 0 ∧
      InTurn size stream 0 (log ++ [.send d] ++ [.recv (clientAck d)]) c₂ := by
  have ho := h.offering
  have hwrite : c.handleWriteOack .sent =
      .ok [.send (serialiseOackPacket c.oackPacket)] { c with state := .waitForAck } := by
    simp [handleWriteOack, h.type]
  have hinv : DownloadInv size stream log c :=
    ⟨h.type, h.blockSize, (phase_sendOack h.state).mpr ho⟩
  have hphase := hinv.handleWriteOack h.state (sendOackMove hwrite)
  have hack := clientAck_oack c.oackPacket
  have hread : readAck { c with state := .waitForAck }
      (clientAck (serialiseOackPacket c.oackPacket)) = { c with
        timeoutCount := 0, pktReady := false, state := .sendData,
        blockNumber := c.blockNumber + 1 } := by
    rw [hack, ← ho.blockNumber]
    exact @readAck_own { c with state := .waitForAck } ho.finalAck
  refine ⟨serialiseOackPacket c.oackPacket, { c with state := .waitForAck }, { c with
      timeoutCount := 0, pktReady := false, state := .sendData,
      blockNumber := c.blockNumber + 1 }, ?_, h.finished, ?_, ?_, ?_⟩
  · apply sent_of_fits
    case hl => simpa [fits] using hfit
    rw [handleWrite, h.state]
    exact hwrite
  · have ht : c.timer ≠ .expired := by
      rw [ho.timer]
      exact Timer.noConfusion
    rw [hack]
    exact receive_own ht rfl ho.blockNumber ho.finalAck
  · exact dataSent_packetOf c.oackPacket size stream 0
  · -- the first block is the one that was not read yet
    rcases (phase_waitForAck rfl).mp hphase with hoff | ⟨j, hj⟩
    · have hnext := hoff.readAck rfl (readAckMove _ (clientAck (serialiseOackPacket c.oackPacket)))
      rw [hread] at hnext
      rcases (phase_sendData rfl).mp hnext with ⟨j, hj⟩ | ⟨j, hj⟩
      · have hreads := hj.reads
        rw [readCount_recv, readCount_send, ho.reads] at hreads
        subst hreads
        refine ⟨hj, rfl, h.blockSize, h.finished, ?_, h.sound⟩
        show c.timer ≠ .expired
        rw [ho.timer]
        exact Timer.noConfusion
      · have hready := hj.pktReady
        cases hready
    · have hready := hj.pktReady
      rw [ho.pktReady] at hready
      cases hready

/-- An accepted download starts with the first block in turn, or with an OACK. -/
theorem create_starts {w : World} {request : RwPacket} {file : FileContents}
    (ht : request.type = .read) (ha : w.notAllowed = none) (hf : w.readable = some file)
    (hfail : file.failAt = none) :
    InTurn (create w request).blockSize (transferStream request.mode file.bytes) 0 []
        (create w request) ∨
      Offered (create w request).blockSize (transferStream request.mode file.bytes) []
        (create w request) := by
  have hinv := downloadInv_create ht ha hf
  have hstart := started_create w request
  have htimer : (create w request).timer ≠ .expired := by
    rw [hstart.timer]
    exact Timer.noConfusion
  have hsound : (create w request).fileReader.Sound := by
    rw [(files_create w request).1, if_pos ⟨ha, ht⟩, hf]
    intro f hfd
    cases hfd
    exact hfail
  have hstate := state_startRead w request ((blank .read).processOptions w request)
  rw [← create_read ht ha] at hstate
  split at hstate
  · left
    rcases (phase_sendData hstate).mp hinv.phase with ⟨j, hj⟩ | ⟨j, hj⟩
    · have hreads := hj.reads
      rw [readCount_nil] at hreads
      subst hreads
      exact ⟨hj, hstate, rfl, hstart.finished, htimer, hsound⟩
    · have hreads := hj.reads
      rw [readCount_nil] at hreads
      cases hreads
  · right
    exact ⟨(phase_sendOack hstate).mp hinv.phase, hinv.type, hstate, rfl, hstart.finished, hsound⟩

/-- The block size in force: what the last option that sets one says in 32 bits, or the MTU where
that is known and smaller, and 512 without such an option. -/
def blksizeInForce (mtu : Int) (options : List (Bytes × Bytes)) : Nat :=
  (((options.reverse.find? fun opt ↦ isBlksize opt && (stoull opt.2).isSome).bind
    (blksizeAnswer mtu)).map (·.1)).getD 512

private theorem findSome?_eq_bind {α β : Type} (f : α → Option β) (xs : List α) :
    xs.findSome? f = (xs.find? fun x ↦ (f x).isSome).bind f := by
  induction xs with
  | nil => rfl
  | cons x xs ih =>
    cases hx : f x with
    | none => simp [hx, ih]
    | some y => simp [hx]

/-- Opening the file keeps what the options have set. -/
theorem options_startRead (w : World) (request : RwPacket) (c : TftpServerConnection) :
    (c.startRead w request).blockSize = c.blockSize ∧
      (c.startRead w request).oackPacket = c.oackPacket := by
  unfold startRead
  dsimp only
  split
  · split
    · exact ⟨rfl, rfl⟩
    · exact ⟨rfl, rfl⟩
  · split
    · exact ⟨rfl, rfl⟩
    · exact ⟨rfl, rfl⟩

/-- The block size after option processing. -/
theorem blockSize_create_read {w : World} {request : RwPacket} (ht : request.type = .read)
    (ha : w.notAllowed = none) :
    (create w request).blockSize = blksizeInForce w.mtu request.options := by
  rw [create_read ht ha, (options_startRead w request _).1,
    (blksize_processOptions w request (blank .read)).1, List.getLastD_eq_getLast?,
    List.getLast?_map, List.getLast?_filterMap, findSome?_eq_bind, blksizeInForce]
  simp only [isSome_blksizeAnswer]
  rfl

/-- From a first block in turn on, all blocks are sent if and only if the block size is not zero
and none of them is too long. -/
theorem InTurn.session_iff (h : InTurn size stream 0 log c) :
    (∃ log' c', Session b c log' c' ∧ dataSent log' = stream.length / size + 1) ↔
      0 < size ∧ min size stream.length ≤ 65503 := by
  constructor
  · rintro ⟨log', c', hsession, hcount⟩
    have hpos : 0 < size := by
      apply Nat.pos_of_ne_zero
      rintro rfl
      exact h.endless.not_session hsession
    refine ⟨hpos, ?_⟩
    by_contra hlong
    rw [← length_block_one, Nat.not_le] at hlong
    rw [h.none_sent hpos hlong hsession] at hcount
    exact absurd hcount (Nat.succ_ne_zero _).symm
  · rintro ⟨hpos, hle⟩
    rw [← length_block_one] at hle
    obtain ⟨log', c', hsession, hsent⟩ := h.session (b := b) hpos fun n ↦
      (length_block_le_one size stream n).trans hle
    exact ⟨log', c', hsession, hsent⟩

/-- The same before the OACK: it goes out and is acknowledged, and no block was sent. -/
theorem Offered.session_iff (h : Offered size stream log c)
    (hfit : (serialiseOackPacket c.oackPacket).length ≤ maxUdpPayload) :
    (∃ log' c', Session b c log' c' ∧ dataSent log' = stream.length / size + 1) ↔
      0 < size ∧ min size stream.length ≤ 65503 := by
  obtain ⟨d, c₁, c₂, hs, hf₁, hs', hoack, hturn⟩ := h.round (b := b) hfit
  rw [← hturn.session_iff (b := b)]
  have hcount : ∀ log', dataSent ([.send d] ++ ([.recv (clientAck d)] ++ log')) =
      dataSent log' := by
    intro log'
    have hrecv : dataSent [.recv (clientAck d)] = 0 := rfl
    rw [dataSent_append, dataSent_append, hoack, hrecv, Nat.zero_add, Nat.zero_add]
  constructor
  · rintro ⟨log, c', hsession, hsent⟩
    obtain ⟨rest, hrest, rfl⟩ := hsession.rest_of_answered h.finished hs hf₁
      (List.mem_singleton_self _) (by simp) hs'
    rw [hcount] at hsent
    exact ⟨rest, c', hrest, hsent⟩
  · rintro ⟨rest, c', hrest, hsent⟩
    refine ⟨_, c', .answered h.finished hs hf₁ (List.mem_singleton_self _) hs' hrest, ?_⟩
    rw [hcount]
    exact hsent

/-- A download on a sound device, against a client that acknowledges every packet, ends after
one block more than the block size goes into the transfer stream, if and only if that size is
not zero and no block is too long for a datagram. -/
theorem session_ends_iff {w : World} {request : RwPacket} {file : FileContents} {d : Bytes}
    (b : Build) (hd : deserialiseRwPacket d = some request) (hlen : d.length ≤ 2048)
    (hsize : w.fileSize < 2 ^ 64) (ht : request.type = .read) (ha : w.notAllowed = none)
    (hf : w.readable = some file) (hfail : file.failAt = none) :
    (∃ log c', Session b (create w request) log c' ∧ c'.finished = true ∧
      dataSent log =
        (transferStream request.mode file.bytes).length / (create w request).blockSize + 1) ↔
      0 < blksizeInForce w.mtu request.options ∧
        min (blksizeInForce w.mtu request.options)
          (transferStream request.mode file.bytes).length ≤ 65503 := by
  rw [← blockSize_create_read ht ha]
  have hdone : ∀ log c', (Session b (create w request) log c' ∧ c'.finished = true ∧
      dataSent log =
        (transferStream request.mode file.bytes).length / (create w request).blockSize + 1) ↔
      Session b (create w request) log c' ∧ dataSent log =
        (transferStream request.mode file.bytes).length / (create w request).blockSize + 1 :=
    fun log c' ↦ and_congr_right fun hsession ↦ and_iff_right hsession.finished
  simp only [hdone]
  rcases create_starts ht ha hf hfail with hturn | hoffer
  · exact hturn.session_iff
  · apply hoffer.session_iff
    rw [create_read ht ha, (options_startRead w request _).2]
    exact length_oack_le hd hlen hsize .read

/-- A request for the file `a` without options. -/
private def plainRequest : Bytes := [0, 1] ++ str "a" ++ [0] ++ str "octet" ++ [0]

/-- Three bytes in blocks of 512. -/
theorem session_ends_short :
    ∃ log c', Session .release (create { readable := some { bytes := [1, 2, 3] } }
        { filename := str "a" }) log c' ∧
      c'.finished = true ∧ dataSent log =
        (transferStream .octet [1, 2, 3]).length /
          (create { readable := some { bytes := [1, 2, 3] } } { filename := str "a" }).blockSize
            + 1 := by
  have hparsed : deserialiseRwPacket plainRequest = some { filename := str "a" } := by
    decide +kernel
  exact (@session_ends_iff { readable := some { bytes := [1, 2, 3] } } { filename := str "a" }
    { bytes := [1, 2, 3] } plainRequest .release hparsed (by decide) (by decide) rfl rfl rfl
    rfl).mpr (by decide)

/-- With the option BLKSIZE = 0 the session never ends. -/
theorem session_endless : ¬∃ log c',
    Session .release (create { readable := some { bytes := [1, 2, 3] } }
      { filename := str "a", options := [(str "BLKSIZE", str "0")] }) log c' := by
  rintro ⟨log, c', hsession⟩
  have hoffer : Offered 0 (transferStream .octet [1, 2, 3]) []
      (create { readable := some { bytes := [1, 2, 3] } }
        { filename := str "a", options := [(str "BLKSIZE", str "0")] }) := by
    rcases @create_starts { readable := some { bytes := [1, 2, 3] } }
      { filename := str "a", options := [(str "BLKSIZE", str "0")] } { bytes := [1, 2, 3] }
      rfl rfl rfl rfl with h | h
    · have hs := h.state
      exact absurd hs (by decide)
    · exact h
  obtain ⟨d, c₁, c₂, hs, hf₁, hs', -, hturn⟩ := hoffer.round (b := .release) (by decide)
  obtain ⟨rest, hrest, -⟩ := hsession.rest_of_answered hoffer.finished hs hf₁
    (List.mem_singleton_self _) (by simp) hs'
  exact hturn.endless.not_session hrest

end CppTftp.TftpServerConnection
