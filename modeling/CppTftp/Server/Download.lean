import CppTftp.Lib.StopAndWait
import CppTftp.Server.Startup

/-!
# Downloads: what a READ connection sends

The log of a connection tells an observer how many blocks were acknowledged and which
DATA datagram is in flight. The invariant ties that window to the block counter, the cached
packet and the position in the file, from the first event to the last.
-/

namespace CppTftp.TftpServerConnection

open Tftp Lib

/-! ### Reading the log -/

/-- How one action moves the window: DATA goes out, an ACK comes in. -/
def observe (w : Window Bytes) : Action → Window Bytes
  | .send d => if (deserialiseDataPacket d).isSome then w.transmit d else w
  | .recv d =>
    match deserialiseAckPacket d with
    | some ackPacket => w.acknowledge 65536 ackPacket.blockNumber.toNat
    | none => w
  | _ => w

/-- The window after all actions of a log. -/
def senderWindow (log : List Action) : Window Bytes := log.foldl observe {}

/-- How often the file reader was called. -/
def readCount (log : List Action) : Nat := log.count .readInTo

@[simp] theorem senderWindow_nil : senderWindow [] = {} := rfl

@[simp] theorem senderWindow_snoc (log : List Action) (a : Action) :
    senderWindow (log ++ [a]) = observe (senderWindow log) a := by
  rw [senderWindow, List.foldl_append]
  rfl

@[simp] theorem readCount_nil : readCount [] = 0 := rfl

@[simp] theorem readCount_append (log l : List Action) :
    readCount (log ++ l) = readCount log + readCount l := List.count_append

@[simp] theorem observe_readInTo (w : Window Bytes) : observe w .readInTo = w := rfl

/-- A DATA datagram of the transfer goes in flight. -/
theorem observe_send_dataFrame (w : Window Bytes) (size : Nat) (stream : Bytes) (n : Nat) :
    observe w (.send (dataFrame size stream n)) = w.transmit (dataFrame size stream n) := by
  simp [observe]

/-- A datagram with another opcode leaves the window alone. -/
theorem observe_send_of_opcode {d : Bytes} (h : byteAt d 1 ≠ PacketT.data.code)
    (w : Window Bytes) : observe w (.send d) = w := by
  simp [observe, deserialiseDataPacket_of_opcode h]

/-- A received datagram that is no ACK leaves the window alone. -/
theorem observe_recv_none {d : Bytes} (h : deserialiseAckPacket d = none) (w : Window Bytes) :
    observe w (.recv d) = w := by
  simp [observe, h]

/-- A received ACK is offered to the window. -/
theorem observe_recv_some {d : Bytes} {a : AckPacket} (h : deserialiseAckPacket d = some a)
    (w : Window Bytes) : observe w (.recv d) = w.acknowledge 65536 a.blockNumber.toNat := by
  simp [observe, h]

/-! ### The phases of a download -/

section Phases

variable (size : Nat) (stream : Bytes)

/-- The OACK is to be sent, or was sent and waits for ACK 0. -/
structure Offering (log : List Action) (c : TftpServerConnection) : Prop where
  blockNumber : c.blockNumber = 0
  pktReady : c.pktReady = false
  finalAck : c.finalAck = false
  timer : c.timer = .disarmed
  window : senderWindow log = {}
  reads : readCount log = 0
  ready : c.fileReader.Ready size
  pending : c.fileReader.pending = stream

/-- `k` blocks are acknowledged and the next one was not read yet. -/
structure Fresh (k : Nat) (log : List Action) (c : TftpServerConnection) : Prop where
  blockNumber : c.blockNumber = UInt16.ofNat (k + 1)
  pktReady : c.pktReady = false
  finalAck : c.finalAck = false
  window : senderWindow log = { acked := k }
  reads : readCount log = k
  lt : k < blockCount size stream
  ready : c.fileReader.Ready size
  pending : c.fileReader.pending = stream.drop (k * size)

/-- Block `k + 1` is cached. Its acknowledgement is missing, unless it is the last block and
the connection is finished. -/
structure Cached (k : Nat) (log : List Action) (c : TftpServerConnection) : Prop where
  blockNumber : c.blockNumber = UInt16.ofNat (k + 1)
  pktReady : c.pktReady = true
  dataPkt : c.dataPkt = { data := block size stream (k + 1), blockNumber := UInt16.ofNat (k + 1) }
  finalAck : c.finalAck = true ↔ k + 1 = blockCount size stream
  reads : readCount log = k + 1
  lt : k < blockCount size stream
  reader : k + 1 < blockCount size stream →
    c.fileReader.Ready size ∧ c.fileReader.pending = stream.drop ((k + 1) * size)
  acked : (senderWindow log).acked = k ∨
    (senderWindow log).acked = k + 1 ∧ k + 1 = blockCount size stream ∧ c.finished = true
  inFlight : ∀ d, (senderWindow log).inFlight = some d → d = dataFrame size stream (k + 1)

/-- A cached block that was sent and waits for its acknowledgement. -/
structure Waiting (k : Nat) (log : List Action) (c : TftpServerConnection) : Prop
    extends Cached size stream k log c where
  sent : (senderWindow log).acked = k → (senderWindow log).inFlight.isSome

/-- What each state of a READ connection means; ERROR is left only by finishing. -/
def DownloadPhase (log : List Action) (c : TftpServerConnection) : Prop :=
  match c.state with
  | .sendOack => Offering size stream log c
  | .sendData => (∃ k, Fresh size stream k log c) ∨ ∃ k, Cached size stream k log c
  | .waitForAck => Offering size stream log c ∨ ∃ k, Waiting size stream k log c
  | .error => True
  | .sendAck | .waitForData => False

/-- The invariant of a READ connection. -/
structure DownloadInv (log : List Action) (c : TftpServerConnection) : Prop where
  type : c.type = .read
  blockSize : c.blockSize = size
  phase : DownloadPhase size stream log c

end Phases

variable {size : Nat} {stream : Bytes} {log l : List Action} {c c' : TftpServerConnection}

theorem phase_error (h : c.state = .error) : DownloadPhase size stream log c := by
  simp [DownloadPhase, h]

theorem phase_sendOack (h : c.state = .sendOack) :
    DownloadPhase size stream log c ↔ Offering size stream log c := by
  rw [DownloadPhase, h]

theorem phase_sendData (h : c.state = .sendData) :
    DownloadPhase size stream log c ↔
      (∃ k, Fresh size stream k log c) ∨ ∃ k, Cached size stream k log c := by
  rw [DownloadPhase, h]

theorem phase_waitForAck (h : c.state = .waitForAck) :
    DownloadPhase size stream log c ↔
      Offering size stream log c ∨ ∃ k, Waiting size stream k log c := by
  rw [DownloadPhase, h]

/-! ### Receiving -/

theorem readCount_recv (log : List Action) (d : Bytes) :
    readCount (log ++ [.recv d]) = readCount log := by
  rw [readCount_append]
  rfl

/-- In the offer only ACK 0 goes on, to the first block. -/
theorem Offering.readAck {d : Bytes} (h : Offering size stream log c) (hs : c.state = .waitForAck)
    (hm : ReadAckMove c d c') : DownloadPhase size stream (log ++ [.recv d]) c' := by
  have hw : senderWindow (log ++ [.recv d]) = {} := by
    rw [senderWindow_snoc, h.window]
    cases ha : deserialiseAckPacket d with
    | none => rw [observe_recv_none ha]
    | some a => rw [observe_recv_some ha, Window.acknowledge_of_idle rfl]
  have hr : readCount (log ++ [.recv d]) = 0 := (readCount_recv log d).trans h.reads
  have hstay : ∀ f : Bool, Offering size stream (log ++ [.recv d]) { c with finished := f } :=
    fun _ ↦ ⟨h.blockNumber, h.pktReady, h.finalAck, h.timer, hw, hr, h.ready, h.pending⟩
  cases hm with
  | repeated decoded previous =>
    rw [isPrevious_iff, h.blockNumber] at previous
    simp at previous
  | last decoded number final =>
    rw [h.finalAck] at final
    cases final
  | next =>
    refine .inl ⟨0, ?_, rfl, h.finalAck, hw, hr, blockCount_pos _ _, h.ready, ?_⟩
    · simp [h.blockNumber]
    · simp [h.pending]
  | wrong => exact phase_error rfl
  | refused =>
    refine (phase_waitForAck ?_).mpr (.inl (hstay true))
    exact hs
  | ignored => exact (phase_waitForAck hs).mpr (.inl (hstay c.finished))

-- An ACK for the block before the cached one is for no block in flight, also across the wrap.
private theorem window_previous {k : Nat} {w : Window Bytes} {a : UInt16}
    (hw : w.acked = k ∨ w.acked = k + 1) (ha : a.toNat + 1 = (UInt16.ofNat (k + 1)).toNat) :
    w.acknowledge 65536 a.toNat = w := by
  apply Window.acknowledge_of_ne
  rw [UInt16.toNat_ofNat'] at ha
  rcases hw with hw | hw <;> rw [hw] <;> omega

/-- The ACK of a block that is not the last puts the next one in turn. -/
theorem Waiting.advance {k : Nat} {d : Bytes} {a : AckPacket} (h : Waiting size stream k log c)
    (ha : deserialiseAckPacket d = some a) (hn : a.blockNumber = c.blockNumber)
    (hlt : k + 1 < blockCount size stream) :
    Fresh size stream (k + 1) (log ++ [.recv d]) { c with
      timeoutCount := 0, pktReady := false, state := .sendData,
      blockNumber := c.blockNumber + 1 } := by
  have hlast : c.finalAck = false := by
    apply Bool.eq_false_iff.mpr
    intro hf
    have := h.finalAck.mp hf
    omega
  have hk : (senderWindow log).acked = k := by
    rcases h.acked with hk | ⟨-, hk, -⟩
    · exact hk
    · omega
  rw [h.blockNumber, eq_ofNat_iff] at hn
  refine ⟨?_, rfl, hlast, ?_, (readCount_recv log d).trans h.reads, hlt, (h.reader hlt).1,
    (h.reader hlt).2⟩
  · rw [ofNat_succ (k + 1), ← h.blockNumber]
  · rw [senderWindow_snoc, observe_recv_some ha,
      Window.acknowledge_of_eq (h.sent hk) (by rw [hk, hn]), hk]

/-- The ACK of the last block: the window moves past it, or already did. -/
private theorem Waiting.last {k : Nat} {d : Bytes} {a : AckPacket}
    (h : Waiting size stream k log c) (ha : deserialiseAckPacket d = some a)
    (hn : a.blockNumber.toNat = (k + 1) % 65536) (hlast : k + 1 = blockCount size stream) :
    Waiting size stream k (log ++ [.recv d]) { c with timeoutCount := 0, finished := true } := by
  have hobs : senderWindow (log ++ [.recv d]) =
      (senderWindow log).acknowledge 65536 a.blockNumber.toNat := by
    rw [senderWindow_snoc, observe_recv_some ha]
  have hw : (senderWindow (log ++ [.recv d])).acked = k + 1 ∧
      ((senderWindow (log ++ [.recv d])).inFlight = none ∨
        senderWindow (log ++ [.recv d]) = senderWindow log) := by
    rw [hobs]
    rcases h.acked with hk | ⟨hk, -⟩
    · rw [Window.acknowledge_of_eq (h.sent hk) (by rw [hk, hn])]
      exact ⟨by rw [hk], .inl rfl⟩
    · rw [Window.acknowledge_of_ne (by rw [hk, hn]; omega)]
      exact ⟨hk, .inr rfl⟩
  refine ⟨⟨h.blockNumber, h.pktReady, h.dataPkt, h.finalAck,
    (readCount_recv log d).trans h.reads, h.lt, h.reader, .inr ⟨hw.1, hlast, rfl⟩,
    fun g hg ↦ ?_⟩, fun hk ↦ ?_⟩
  · rcases hw.2 with hi | hi
    · rw [hi] at hg
      cases hg
    · rw [hi] at hg
      exact h.inFlight g hg
  · rw [hw.1] at hk
    omega

/-- Another datagram: the block waits on, also when the connection is finished by it. -/
private theorem Waiting.stay {k : Nat} {d : Bytes} (h : Waiting size stream k log c)
    (ha : deserialiseAckPacket d = none) {finished : Bool}
    (hf : c.finished = true → finished = true) :
    Waiting size stream k (log ++ [.recv d]) { c with finished } := by
  have hobs : senderWindow (log ++ [.recv d]) = senderWindow log := by
    rw [senderWindow_snoc, observe_recv_none ha]
  refine ⟨⟨h.blockNumber, h.pktReady, h.dataPkt, h.finalAck,
    (readCount_recv log d).trans h.reads, h.lt, h.reader, ?_, ?_⟩, ?_⟩
  · rw [hobs]
    exact h.acked.imp_right fun x ↦ ⟨x.1, x.2.1, hf x.2.2⟩
  · rw [hobs]
    exact h.inFlight
  · rw [hobs]
    exact h.sent

/-- What an ACK does while block `k + 1` waits for its own. -/
theorem Waiting.readAck {k : Nat} {d : Bytes} (h : Waiting size stream k log c)
    (hs : c.state = .waitForAck) (hm : ReadAckMove c d c') :
    DownloadPhase size stream (log ++ [.recv d]) c' := by
  cases hm with
  | repeated decoded previous =>
    -- the client asks for the block again: the cached packet goes out once more
    have hobs : senderWindow (log ++ [.recv d]) = senderWindow log := by
      rw [isPrevious_iff, h.blockNumber] at previous
      rw [senderWindow_snoc, observe_recv_some decoded]
      exact window_previous (h.acked.imp_right And.left) previous
    refine (phase_sendData rfl).mpr (.inr ⟨k, h.blockNumber, h.pktReady, h.dataPkt, h.finalAck,
      (readCount_recv log d).trans h.reads, h.lt, h.reader, ?_, ?_⟩)
    · rw [hobs]
      exact h.acked
    · rw [hobs]
      exact h.inFlight
  | last decoded number final =>
    rw [h.blockNumber, eq_ofNat_iff] at number
    refine (phase_waitForAck ?_).mpr (.inr ⟨k, h.last decoded number (h.finalAck.mp final)⟩)
    exact hs
  | next decoded number final =>
    have hlt : k + 1 < blockCount size stream := by
      apply Nat.lt_of_le_of_ne h.lt
      intro he
      rw [h.finalAck.mpr he] at final
      cases final
    exact (phase_sendData rfl).mpr (.inl ⟨k + 1, h.advance decoded number hlt⟩)
  | wrong => exact phase_error rfl
  | refused decoded =>
    refine (phase_waitForAck ?_).mpr (.inr ⟨k, h.stay decoded fun _ ↦ rfl⟩)
    exact hs
  | ignored decoded => exact (phase_waitForAck hs).mpr (.inr ⟨k, h.stay decoded id⟩)

/-! ### Sending -/

theorem readCount_send (log : List Action) (d : Bytes) :
    readCount (log ++ [.send d]) = readCount log := by
  rw [readCount_append]
  rfl

/-- A cached block that goes out is in flight. -/
theorem Cached.sent {k : Nat} (h : Cached size stream k log c) :
    c.transmitData .sent =
        .ok [.send (dataFrame size stream (k + 1))] (c.waitWithTimer .waitForAck) ∧
      Waiting size stream k (log ++ [.send (dataFrame size stream (k + 1))])
        (c.waitWithTimer .waitForAck) := by
  have hd : serialiseDataPacket c.dataPkt = dataFrame size stream (k + 1) := by
    rw [h.dataPkt, dataFrame]
  have hobs : senderWindow (log ++ [.send (dataFrame size stream (k + 1))]) =
      (senderWindow log).transmit (dataFrame size stream (k + 1)) := by
    rw [senderWindow_snoc, observe_send_dataFrame]
  refine ⟨by rw [TftpServerConnection.transmitData, hd], ⟨h.blockNumber, h.pktReady, h.dataPkt,
    h.finalAck, ?_, h.lt, h.reader, ?_, fun g hg ↦ ?_⟩, fun _ ↦ ?_⟩
  · rw [readCount_send, h.reads]
  · rw [hobs]; exact h.acked
  · rw [hobs] at hg; exact (Option.some.inj hg).symm
  · rw [hobs]; rfl

/-- A cached block goes out as its own datagram, or not at all. -/
theorem Cached.transmitData {k : Nat} (h : Cached size stream k log c) (hs : c.state = .sendData)
    (s : SendResult) : ∃ l c', c.transmitData s = .ok l c' ∧
      DownloadPhase size stream (log ++ l) c' ∧
      (l = [] ∨ l = [.send (dataFrame size stream (k + 1))]) := by
  cases s with
  | failed => exact ⟨_, _, rfl, phase_error rfl, .inl rfl⟩
  | wouldBlock =>
    refine ⟨_, _, rfl, ?_, .inl rfl⟩
    rw [List.append_nil]
    exact (phase_sendData hs).mpr (.inr ⟨k, h⟩)
  | sent => exact ⟨_, _, h.sent.1, (phase_waitForAck rfl).mpr (.inr ⟨k, h.sent.2⟩), .inr rfl⟩

/-- Reading the next block fails, which a sound device does not do, or leaves the block
cached before anything is sent. -/
theorem Fresh.handleWriteData {k : Nat} (h : Fresh size stream k log c) (hsize : 0 < size)
    (hb : c.blockSize = size) (s : SendResult) :
    (∃ c', c.handleWriteData s = .ok [.readInTo] c' ∧ c'.state = .error ∧
      ¬c.fileReader.Sound) ∨
    ∃ r f, c.handleWriteData s = ({ c with
        dataPkt := { data := block size stream (k + 1), blockNumber := c.blockNumber },
        fileReader := r, finalAck := f, pktReady := true }.transmitData s).after [.readInTo] ∧
      Cached size stream k (log ++ [.readInTo]) { c with
        dataPkt := { data := block size stream (k + 1), blockNumber := c.blockNumber },
        fileReader := r, finalAck := f, pktReady := true } ∧
      (c.fileReader.Sound → r.Sound) := by
  subst hb
  obtain ⟨data, r', hread, hgood, hsound⟩ := TftpReadFile.readInTo_spec h.ready
  unfold TftpServerConnection.handleWriteData
  rw [if_neg (by simp [h.pktReady]), hread]
  dsimp only
  split
  · next herr =>
    refine .inl ⟨_, rfl, rfl, fun hs ↦ ?_⟩
    rw [(hsound hs).1] at herr
    cases herr
  · next herr =>
    right
    have hd := hgood (Bool.eq_false_iff.mpr herr)
    have hdata : data = block c.blockSize stream (k + 1) := by
      rw [hd.data_eq, h.pending, block_succ]
    have hpend : r'.pending = stream.drop ((k + 1) * c.blockSize) := by
      rw [hd.pending_eq, h.pending, drop_drop_block]
    have hlast : data.length < c.blockSize ↔ k + 1 = blockCount c.blockSize stream := by
      rw [hdata, length_block_lt_iff hsize]
      have := h.lt
      omega
    have hw : senderWindow (log ++ [.readInTo]) = { acked := k } := by
      rw [senderWindow_snoc, observe_readInTo, h.window]
    have hreads : readCount (log ++ [.readInTo]) = k + 1 := by
      rw [readCount_append, h.reads]
      rfl
    -- only the length decides; the end of the file without a short block changes nothing
    have hfinal : ∀ f : Bool, (f = true ↔ data.length < c.blockSize) → Cached c.blockSize stream k
        (log ++ [.readInTo]) { c with
          dataPkt := { data := block c.blockSize stream (k + 1), blockNumber := c.blockNumber },
          fileReader := r', finalAck := f, pktReady := true } := fun f hf ↦
      ⟨h.blockNumber, rfl, by rw [h.blockNumber], hf.trans hlast, hreads, h.lt,
        fun _ ↦ ⟨hd.ready, hpend⟩, .inl (by rw [hw]), fun g hg ↦ by rw [hw] at hg; cases hg⟩
    refine ⟨r', c.finalAck || data.length < c.blockSize, ?_, ?_, fun hs ↦ (hsound hs).2⟩
    · rw [← hdata]
      by_cases hshort : data.length < c.blockSize
      · simp [hshort]
      · simp [hshort]
    · apply hfinal
      simp [h.finalAck]

/-- What the branch SEND_DATA does in a download: at most one read, only for a fresh
block, and at most one DATA datagram, the one in turn. -/
theorem DownloadInv.handleWriteData (h : DownloadInv size stream log c) (hsize : 0 < size)
    (hs : c.state = .sendData) (s : SendResult) : ∃ l c', c.handleWriteData s = .ok l c' ∧
      DownloadPhase size stream (log ++ l) c' ∧
      (.readInTo ∈ l → readCount log = (senderWindow log).acked) ∧
      ∀ d, .send d ∈ l →
        d = dataFrame size stream ((senderWindow log).turn (blockCount size stream)) ∧
        (c.finished = false → (senderWindow log).acked < blockCount size stream) ∧
        ∀ g, (senderWindow log).inFlight = some g → d = g := by
  rcases (phase_sendData hs).mp h.phase with ⟨k, hk⟩ | ⟨k, hk⟩
  · have hacked : (senderWindow log).acked = k := by rw [hk.window]
    have hturn : (senderWindow log).turn (blockCount size stream) = k + 1 := by
      rw [Window.turn_of_lt (by rw [hacked]; exact hk.lt), hacked]
    rcases hk.handleWriteData hsize h.blockSize s with ⟨c', ho, he, -⟩ | ⟨r, f, ho, hc, -⟩
    · refine ⟨_, c', ho, phase_error he, fun _ ↦ ?_, fun d hd ↦ by simp at hd⟩
      rw [hk.reads, hacked]
    · obtain ⟨l, c', ht, hp, hl⟩ := hc.transmitData (by exact hs) s
      refine ⟨[.readInTo] ++ l, c', ?_, ?_, fun _ ↦ ?_, fun d hd ↦ ?_⟩
      · rw [ho, ht]; rfl
      · rw [← List.append_assoc]; exact hp
      · rw [hk.reads, hacked]
      · have hd' : d = dataFrame size stream (k + 1) := by
          rcases hl with rfl | rfl
          · simp at hd
          · simpa using hd
        rw [hturn]
        refine ⟨hd', fun _ ↦ by rw [hacked]; exact hk.lt, fun g hg ↦ ?_⟩
        rw [hk.window] at hg
        cases hg
  · obtain ⟨l, c', ht, hp, hl⟩ := hk.transmitData hs s
    refine ⟨l, c', ?_, hp, fun hr ↦ ?_, fun d hd ↦ ?_⟩
    · rw [TftpServerConnection.handleWriteData, if_pos hk.pktReady, ht]
    · rcases hl with rfl | rfl <;> simp at hr
    · have hd' : d = dataFrame size stream (k + 1) := by
        rcases hl with rfl | rfl
        · cases hd
        · simpa using hd
      refine ⟨?_, fun hf ↦ ?_, fun g hg ↦ ?_⟩
      · rcases hk.acked with ha | ⟨ha, hn, -⟩
        · rw [Window.turn_of_lt (by rw [ha]; exact hk.lt), ha, hd']
        · rw [Window.turn_of_eq (ha.trans hn), ← hn, hd']
      · rcases hk.acked with ha | ⟨-, -, hfin⟩
        · rw [ha]; exact hk.lt
        · rw [hf] at hfin; cases hfin
      · rw [hd', hk.inFlight g hg]

/-! ### One event -/

/-- Nothing but the offer looks at the timer, and a finished connection stays what it was. -/
theorem DownloadPhase.update (h : DownloadPhase size stream log c) (n : UInt8) {t : Timer}
    {f : Bool} (ht : c.timer = .disarmed → t = .disarmed) (hf : c.finished = true → f = true) :
    DownloadPhase size stream log { c with timer := t, timeoutCount := n, finished := f } := by
  have hoffer : Offering size stream log c →
      Offering size stream log { c with timer := t, timeoutCount := n, finished := f } :=
    fun h ↦ ⟨h.blockNumber, h.pktReady, h.finalAck, ht h.timer, h.window, h.reads, h.ready,
      h.pending⟩
  have hcached : ∀ k, Cached size stream k log c →
      Cached size stream k log { c with timer := t, timeoutCount := n, finished := f } :=
    fun _ h ↦ ⟨h.blockNumber, h.pktReady, h.dataPkt, h.finalAck, h.reads, h.lt, h.reader,
      h.acked.imp_right fun x ↦ ⟨x.1, x.2.1, hf x.2.2⟩, h.inFlight⟩
  unfold DownloadPhase at h ⊢
  dsimp only
  split at h
  · exact hoffer h
  · rcases h with ⟨k, h⟩ | ⟨k, h⟩
    · exact .inl ⟨k, h.blockNumber, h.pktReady, h.finalAck, h.window, h.reads, h.lt, h.ready,
        h.pending⟩
    · exact .inr ⟨k, hcached k h⟩
  · rcases h with h | ⟨k, h⟩
    · exact .inl (hoffer h)
    · exact .inr ⟨k, hcached k h.toCached, h.sent⟩
  · trivial
  · exact h
  · exact h

/-- After an expiration the block that waits is sent again, and nothing else changes. -/
theorem DownloadInv.onTimeout (h : DownloadInv size stream log c) (ht : c.timer = .expired)
    (hm : TimeoutMove { c with timer := .disarmed } c') : DownloadPhase size stream log c' := by
  have hp : DownloadPhase size stream log
      { c with timer := .disarmed, timeoutCount := c.timeoutCount + 1 } :=
    h.phase.update (c.timeoutCount + 1) (fun _ ↦ rfl) id
  cases hm with
  | gaveUp => exact h.phase.update c.timeoutCount (fun _ ↦ rfl) fun _ ↦ rfl
  | resendData few state =>
    have hs : c.state = .waitForAck := state
    rcases (phase_waitForAck hs).mp h.phase with ho | ⟨k, hk⟩
    · -- the OACK armed no timer that could have run out
      rw [ho.timer] at ht
      cases ht
    · exact (phase_sendData rfl).mpr (.inr ⟨k, hk.blockNumber, hk.pktReady, hk.dataPkt,
        hk.finalAck, hk.reads, hk.lt, hk.reader, hk.acked, hk.inFlight⟩)
  | resendAck few state =>
    have hx := h.phase
    rw [DownloadPhase, show c.state = .waitForData from state] at hx
    exact hx.elim
  | late => exact hp

/-- What `handle_read` does in a download. -/
theorem DownloadInv.handleRead {r : RecvResult} (h : DownloadInv size stream log c)
    (hm : HandleReadMove c r l c') : DownloadPhase size stream (log ++ l) c' := by
  cases hm with
  | timeout expired move =>
    rw [List.append_nil]
    exact h.onTimeout expired move
  | ack timer state recv =>
    cases r with
    | failed what => cases recv
    | wouldBlock =>
      cases recv
      rw [received_wouldBlock, List.append_nil]
      exact h.phase
    | datagram d =>
      cases recv
      rw [received_datagram]
      rcases (phase_waitForAck state).mp h.phase with ho | ⟨k, hk⟩
      · exact ho.readAck state (readAckMove c _)
      · exact hk.readAck state (readAckMove c _)
  | data timer state =>
    have hx := h.phase
    rw [DownloadPhase, state] at hx
    exact hx.elim
  | idle =>
    rw [List.append_nil]
    exact h.phase

/-- What the branch SEND_OACK does in a download: it sends the OACK and waits for its ACK. -/
theorem DownloadInv.handleWriteOack {s : SendResult} (h : DownloadInv size stream log c)
    (hs : c.state = .sendOack) (hm : SendOackMove c s l c') :
    DownloadPhase size stream (log ++ l) c' := by
  cases hm with
  | failed =>
    rw [List.append_nil]
    exact h.phase.update c.timeoutCount id fun _ ↦ rfl
  | blocked =>
    rw [List.append_nil]
    exact h.phase
  | sentRead =>
    have ho := (phase_sendOack hs).mp h.phase
    refine (phase_waitForAck rfl).mpr (.inl ⟨ho.blockNumber, ho.pktReady, ho.finalAck, ho.timer,
      ?_, ?_, ho.ready, ho.pending⟩)
    · rw [senderWindow_snoc, observe_send_of_opcode (by simp [PacketT.code]), ho.window]
    · rw [readCount_send, ho.reads]
  | sentWrite type => exact absurd h.type type

/-- No event leads out of the invariant. -/
theorem DownloadInv.step {b : Build} {e : Event} (h : DownloadInv size stream log c)
    (hsize : 0 < size) (hs : step b c e = .ok l c') : DownloadInv size stream (log ++ l) c' := by
  have hk := kept_step hs
  refine ⟨hk.type.trans h.type, hk.blockSize.trans h.blockSize, ?_⟩
  cases move_of_step hs with
  | read move => exact h.handleRead move
  | tick =>
    rw [List.append_nil]
    exact h.phase.update c.timeoutCount (fun ht ↦ by rw [ht]; rfl) id
  | hangup =>
    rw [List.append_nil]
    exact h.phase.update c.timeoutCount id fun _ ↦ rfl
  | @sendData s _ _ state _ =>
    obtain ⟨l₁, c₁, ho, hp, -⟩ := h.handleWriteData hsize state s
    have hwrite : c.handleWrite s = c.handleWriteData s := by rw [handleWrite, state]
    obtain ⟨rfl, rfl⟩ := Outcome.ok_inj.mp ((hwrite.trans ho).symm.trans hs)
    exact hp
  | sendAck state =>
    have hx := h.phase
    rw [DownloadPhase, state] at hx
    exact hx.elim
  | sendOack state move => exact h.handleWriteOack state move
  | sendError state move => exact phase_error (move.state_eq.trans state)

/-! ### Without losses -/

/-- Block `k + 1` is to be read and sent; the device under the file does not fail. -/
structure InTurn (size : Nat) (stream : Bytes) (k : Nat) (log : List Action)
    (c : TftpServerConnection) : Prop where
  fresh : Fresh size stream k log c
  state : c.state = .sendData
  blockSize : c.blockSize = size
  finished : c.finished = false
  timer : c.timer ≠ .expired
  sound : c.fileReader.Sound

/-- Block `k + 1` is on its way for the first time. -/
structure Underway (size : Nat) (stream : Bytes) (k : Nat) (log : List Action)
    (c : TftpServerConnection) : Prop where
  waiting : Waiting size stream k log c
  state : c.state = .waitForAck
  blockSize : c.blockSize = size
  finished : c.finished = false
  timer : c.timer ≠ .expired
  sound : c.fileReader.Sound

/-- The block in turn is read and sent in one call. -/
theorem InTurn.sent {k : Nat} (h : InTurn size stream k log c) (hsize : 0 < size) :
    ∃ c', c.handleWrite .sent = .ok [.readInTo, .send (dataFrame size stream (k + 1))] c' ∧
      Underway size stream k (log ++ [.readInTo, .send (dataFrame size stream (k + 1))]) c' := by
  rcases h.fresh.handleWriteData hsize h.blockSize .sent with ⟨_, -, -, hx⟩ | ⟨r, f, ho, hc, hr⟩
  · exact absurd h.sound hx
  · obtain ⟨hsent, hwait⟩ := hc.sent
    rw [hsent] at ho
    rw [List.append_assoc] at hwait
    refine ⟨_, ?_, hwait, rfl, h.blockSize, h.finished, ?_, hr h.sound⟩
    · rw [TftpServerConnection.handleWrite, h.state]
      exact ho
    · exact Timer.armTimer_ne_expired _

/-- The datagram that acknowledges block `k + 1`. -/
def ackFrame (k : Nat) : Bytes := serialiseAckPacket { blockNumber := UInt16.ofNat (k + 1) }

/-- A number is not the previous one of itself. -/
theorem isPrevious_self (n : UInt16) : ¬isPrevious n n = true := by
  rw [isPrevious_iff]
  omega

/-- The ACK for the block counter goes on to the next block. -/
theorem readAck_own (hf : c.finalAck = false) :
    c.readAck (serialiseAckPacket { blockNumber := c.blockNumber }) = { c with
      timeoutCount := 0, pktReady := false, state := .sendData,
      blockNumber := c.blockNumber + 1 } := by
  rw [TftpServerConnection.readAck, deserialise_serialiseAckPacket]
  simp [isPrevious_self, hf]

/-- Its ACK puts the next block in turn, or finishes the connection after the last one. -/
theorem Underway.acknowledged {b : Build} {k : Nat} (h : Underway size stream k log c) :
    ∃ c', TftpServerConnection.handleRead b c (.datagram (ackFrame k)) =
        .ok [.recv (ackFrame k)] c' ∧
      (k + 1 < blockCount size stream → InTurn size stream (k + 1) (log ++ [.recv (ackFrame k)]) c')
      ∧ (k + 1 = blockCount size stream → c'.finished = true) := by
  have hack : ackFrame k = serialiseAckPacket { blockNumber := c.blockNumber } := by
    rw [ackFrame, h.waiting.blockNumber]
  have hdec : deserialiseAckPacket (ackFrame k) = some { blockNumber := c.blockNumber } := by
    rw [hack, deserialise_serialiseAckPacket]
  have hread : TftpServerConnection.handleRead b c (.datagram (ackFrame k)) =
      .ok [.recv (ackFrame k)] (c.readAck (ackFrame k)) :=
    handleRead_waitForAck h.timer h.state (ackFrame k)
  refine ⟨_, hread, ?_, ?_⟩
  · intro hlt
    have hfinal : c.finalAck = false := by
      rw [Bool.eq_false_iff, ne_eq, h.waiting.finalAck]
      omega
    rw [hack, readAck_own hfinal, ← hack]
    exact ⟨h.waiting.advance hdec rfl hlt, rfl, h.blockSize, h.finished, h.timer, h.sound⟩
  · intro hlast
    have hfinal := h.waiting.finalAck.mpr hlast
    simp [TftpServerConnection.readAck, hdec, isPrevious_self, hfinal]

/-! ### Every run -/

/-- The constructor establishes the invariant for a file that could be opened. -/
theorem downloadInv_create {w : World} {request : RwPacket} {file : FileContents}
    (ht : request.type = .read) (ha : w.notAllowed = none) (hf : w.readable = some file) :
    DownloadInv (create w request).blockSize (transferStream request.mode file.bytes) []
      (create w request) := by
  rw [create_read ht ha]
  have ho := optionsOnly_processOptions w request (blank .read)
  generalize processOptions w request (blank .read) = c at ho
  have hreader : c.fileReader = {} := by rw [ho.eq]; rfl
  have hready := TftpReadFile.ready_openFile c.fileReader file request.mode c.blockSize
    (by rw [hreader])
  have htype : c.type = .read := by rw [ho.eq]; rfl
  have hpkt : c.pktReady = false := by rw [ho.eq]; rfl
  have hfinal : c.finalAck = false := by rw [ho.eq]; rfl
  have htimer : c.timer = .disarmed := by rw [ho.eq]; rfl
  have hopen : (c.fileReader.openFile w.readable request.mode).fd.isSome = true := by
    rw [hf]; rfl
  unfold startRead
  dsimp only
  rw [if_pos hopen, hf]
  by_cases hopts : c.oackPacket.options = []
  · rw [if_pos hopts]
    refine ⟨htype, rfl, .inl ⟨0, rfl, hpkt, hfinal, rfl, rfl, blockCount_pos _ _, hready.1, ?_⟩⟩
    rw [Nat.zero_mul, List.drop_zero]
    exact hready.2
  · rw [if_neg hopts]
    exact ⟨htype, rfl, rfl, hpkt, hfinal, htimer, rfl, rfl, hready.1, hready.2⟩

/-- The invariant holds after every run. -/
theorem downloadInv_runs {w : World} {request : RwPacket} {file : FileContents} {b : Build}
    {es : List Event} (ht : request.type = .read) (ha : w.notAllowed = none)
    (hf : w.readable = some file) (hsize : 0 < (create w request).blockSize)
    (hr : Runs (step b) (create w request) es log c) :
    DownloadInv (create w request).blockSize (transferStream request.mode file.bytes) log c :=
  hr.invariant (downloadInv_create ht ha hf) fun _ _ _ _ _ h hs ↦ h.step hsize hs

/-- Without options a download starts with block 1 in turn. -/
theorem inTurn_create {w : World} {request : RwPacket} {file : FileContents}
    (ht : request.type = .read) (ha : w.notAllowed = none) (hf : w.readable = some file)
    (hfail : file.failAt = none) (ho : request.options = []) :
    InTurn 512 (transferStream request.mode file.bytes) 0 [] (create w request) := by
  have hoptions : (blank .read).processOptions w request = blank .read := by
    rw [processOptions, ho]
    rfl
  have hready := TftpReadFile.ready_openFile {} file request.mode 512 rfl
  have hopen : ((blank .read).fileReader.openFile w.readable request.mode).fd.isSome = true := by
    rw [hf]
    rfl
  have hcreate : create w request = { blank .read with
      fileReader := ({} : TftpReadFile).openFile (some file) request.mode,
      state := .sendData, blockNumber := 1 } := by
    rw [create_read ht ha, hoptions, startRead]
    dsimp only
    rw [if_pos hopen, hf]
    rfl
  rw [hcreate]
  refine ⟨⟨rfl, rfl, rfl, rfl, rfl, blockCount_pos _ _, hready.1, ?_⟩, rfl, rfl, rfl,
    Timer.noConfusion, ?_⟩
  · rw [Nat.zero_mul, List.drop_zero]
    exact hready.2
  · intro f hfd
    rw [← Option.some.inj hfd]
    exact hfail

/-- Without losses every block gets its turn. -/
theorem exists_run_underway {w : World} {request : RwPacket} {file : FileContents} {b : Build}
    (ht : request.type = .read) (ha : w.notAllowed = none) (hf : w.readable = some file)
    (hfail : file.failAt = none) (ho : request.options = []) {k : Nat}
    (hk : k < blockCount 512 (transferStream request.mode file.bytes)) :
    ∃ es log c, Runs (step b) (create w request) es log c ∧
      Underway 512 (transferStream request.mode file.bytes) k log c := by
  have hsize : 0 < 512 := by decide
  induction k with
  | zero =>
    obtain ⟨c, hs, hu⟩ := (inTurn_create ht ha hf hfail ho).sent hsize
    exact ⟨[.writable .sent], _, c, (Runs.nil _).snoc hs, hu⟩
  | succ k ih =>
    obtain ⟨es, log, c, hr, hu⟩ := ih (Nat.lt_of_succ_lt hk)
    obtain ⟨c₁, hs₁, hnext, -⟩ := hu.acknowledged (b := b)
    obtain ⟨c₂, hs₂, hu₂⟩ := (hnext hk).sent hsize
    have hs₁ : step b c (.readable (.datagram (ackFrame k))) = .ok [.recv (ackFrame k)] c₁ := hs₁
    have hs₂ : step b c₁ (.writable .sent) =
      .ok [.readInTo, .send (dataFrame 512 _ (k + 1 + 1))] c₂ := hs₂
    exact ⟨_, _, c₂, (hr.snoc hs₁).snoc hs₂, hu₂⟩

section NextCall

variable {b : Build} {e : Event} {d : Bytes}

private theorem not_isSome_of_opcode (ho : byteAt d 1 ≠ PacketT.data.code) :
    ¬(deserialiseDataPacket d).isSome := by
  rw [deserialiseDataPacket_of_opcode ho]
  exact Bool.false_ne_true

/-- The next DATA datagram is the block in turn, and a repetition of the one in flight. -/
theorem DownloadInv.data_sent (h : DownloadInv size stream log c) (hsize : 0 < size)
    (hd : .send d ∈ (TftpServerConnection.step b c e).log)
    (hdata : (deserialiseDataPacket d).isSome) :
    d = dataFrame size stream ((senderWindow log).turn (blockCount size stream)) ∧
      (c.finished = false → (senderWindow log).acked < blockCount size stream) ∧
      ∀ g, (senderWindow log).inFlight = some g → d = g := by
  obtain ⟨s, rfl⟩ := writable_of_mem hd (by simp) (by simp)
  have hd : .send d ∈ (c.handleWrite s).log := hd
  by_cases hs : c.state = .sendData
  · obtain ⟨l, c', ho, -, -, hsend⟩ := h.handleWriteData hsize hs s
    rw [handleWrite, hs] at hd
    dsimp only at hd
    rw [ho] at hd
    exact hsend d hd
  · rcases handleWrite_sent hs hd with ⟨hst, -⟩ | rfl | rfl
    · have hx := h.phase
      rw [DownloadPhase, hst] at hx
      exact hx.elim
    · exact absurd hdata (not_isSome_of_opcode (by simp [PacketT.code]))
    · exact absurd hdata (not_isSome_of_opcode (by simp [PacketT.code]))

/-- A block is read only when all blocks read before are acknowledged. -/
theorem DownloadInv.read_called (h : DownloadInv size stream log c) (hsize : 0 < size)
    (hr : .readInTo ∈ (TftpServerConnection.step b c e).log) :
    readCount log = (senderWindow log).acked := by
  obtain ⟨s, rfl⟩ := writable_of_mem hr (by simp) (by simp)
  have hr : .readInTo ∈ (c.handleWrite s).log := hr
  unfold handleWrite at hr
  split at hr
  · next hs =>
    obtain ⟨l, c', ho, -, hread, -⟩ := h.handleWriteData hsize hs s
    rw [ho] at hr
    exact hread hr
  · next hs =>
    have hx := h.phase
    rw [DownloadPhase, hs] at hx
    exact hx.elim
  · cases s with
    | sent => simp [TftpServerConnection.handleWriteOack, h.type] at hr
    | wouldBlock => cases hr
    | failed => cases hr
  · cases s with
    | sent => simp [handleWriteError] at hr
    | wouldBlock => cases hr
    | failed => cases hr
  · cases hr
  · cases hr

/-- An ACK that finishes the connection is for the short block, while that is in flight. -/
theorem DownloadInv.finishing_ack {a : AckPacket} (h : DownloadInv size stream log c)
    (hsize : 0 < size) (hs : TftpServerConnection.step b c e = .ok l c') (hd : .recv d ∈ l)
    (ha : deserialiseAckPacket d = some a) (hf : c.finished = false) (hf' : c'.finished = true) :
    (senderWindow log).inFlight =
        some (dataFrame size stream ((senderWindow log).acked + 1)) ∧
      a.blockNumber = UInt16.ofNat ((senderWindow log).acked + 1) ∧
      (block size stream ((senderWindow log).acked + 1)).length < size := by
  have hmem : .recv d ∈ (TftpServerConnection.step b c e).log := by rw [hs]; exact hd
  obtain ⟨r, rfl⟩ := readable_of_mem hmem (by simp) (by simp)
  obtain ⟨hst, rfl⟩ | hst := handleRead_received hs hd
  · obtain ⟨hfinal, hn⟩ := finalAck_of_readAck ha hf hf'
    rcases (phase_waitForAck hst).mp h.phase with ho | ⟨k, hk⟩
    · rw [ho.finalAck] at hfinal
      cases hfinal
    · have hlast := hk.finalAck.mp hfinal
      have hacked : (senderWindow log).acked = k := by
        rcases hk.acked with hk | ⟨-, -, hk⟩
        · exact hk
        · rw [hf] at hk
          cases hk
      obtain ⟨g, hg⟩ := Option.isSome_iff_exists.mp (hk.sent hacked)
      rw [hacked, hn, hk.blockNumber, hg, hk.inFlight g hg, length_block_lt_iff hsize]
      exact ⟨rfl, rfl, Nat.le_of_eq hlast.symm⟩
  · have hx := h.phase
    rw [DownloadPhase, hst] at hx
    exact hx.elim

end NextCall

/-- Download safety. In every run of a READ connection on a file that could be opened, and
for every next event: a DATA datagram is the block in turn, which repeats the one in
flight; the file is read only when all blocks read before are acknowledged; and an ACK
finishes the connection only when it is for the block shorter than the block size. -/
theorem download_safety {w : World} {request : RwPacket} {file : FileContents} {b : Build}
    {es : List Event} (ht : request.type = .read) (ha : w.notAllowed = none)
    (hf : w.readable = some file) (hsize : 0 < (create w request).blockSize)
    (hr : Runs (step b) (create w request) es log c) (e : Event) :
    let size := (create w request).blockSize
    let stream := transferStream request.mode file.bytes
    let window := senderWindow log
    (∀ d, .send d ∈ (step b c e).log → (deserialiseDataPacket d).isSome →
      d = dataFrame size stream (window.turn (blockCount size stream)) ∧
      (c.finished = false → window.acked < blockCount size stream) ∧
      ∀ g, window.inFlight = some g → d = g) ∧
    (.readInTo ∈ (step b c e).log → readCount log = window.acked) ∧
    ∀ l c' d a, step b c e = .ok l c' → .recv d ∈ l → deserialiseAckPacket d = some a →
      c.finished = false → c'.finished = true →
      window.inFlight = some (dataFrame size stream (window.acked + 1)) ∧
      a.blockNumber = UInt16.ofNat (window.acked + 1) ∧
      (block size stream (window.acked + 1)).length < size := by
  have h := downloadInv_runs ht ha hf hsize hr
  refine ⟨fun d ↦ h.data_sent hsize, h.read_called hsize, ?_⟩
  intro l c' d a hs hd hack hfin hfin'
  exact h.finishing_ack hsize hs hd hack hfin hfin'

/-- A transfer offered with an OACK and taken up with ACK 0 goes on with block 1. -/
theorem download_safety_oack : ∃ c,
    Runs (step .release)
      (create { readable := some { bytes := [1, 2, 3] } }
        { options := [(str "TIMEOUT", str "5")] })
      [.writable .sent, .readable (.datagram [0, 4, 0, 0])]
      [.send (serialiseOackPacket { options := [(str "TIMEOUT", str "5")] }), .recv [0, 4, 0, 0]]
      c ∧
    ∀ d, .send d ∈ (step .release c (.writable .sent)).log → (deserialiseDataPacket d).isSome →
      d = dataFrame 512 [1, 2, 3] 1 := by
  refine Exists.imp (fun c hr ↦ ⟨hr, fun d hd hdata ↦ ?_⟩) ⟨_, rfl⟩
  have hsafe := download_safety rfl rfl rfl (by decide) hr (.writable .sent)
  exact (hsafe.1 d hd hdata).1

end CppTftp.TftpServerConnection
