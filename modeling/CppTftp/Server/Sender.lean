import CppTftp.Server.Download

/-!
# Downloads: the moves of a READ connection

One event of a READ connection, told by the block it is at: what goes out, what its timer and
state are afterwards, and where an ACK leads. And how often each block was sent.
-/

namespace CppTftp.TftpServerConnection

open Tftp Lib

/-! ### Counting -/

/-- The block that a READ connection is at: the one it sends or waits for, or zero while the
OACK is on offer. -/
def outstanding (log : List Action) (c : TftpServerConnection) : Nat :=
  if c.pktReady then readCount log
  else if c.state = .sendData then readCount log + 1
  else 0

/-- A DATA datagram goes out. -/
def isData : Action → Bool
  | .send d => (deserialiseDataPacket d).isSome
  | _ => false

/-- How many DATA datagrams were sent. -/
def dataSent (log : List Action) : Nat := log.countP isData

/-- The DATA datagrams sent behind read number `n`, when `reads` reads were made before. -/
def transmissionsFrom (n : Nat) : Nat → List Action → Nat
  | _, [] => 0
  | reads, a :: log =>
    (if isData a ∧ reads = n then 1 else 0) + transmissionsFrom n (reads + readCount [a]) log

/-- How often block `n` was sent. -/
def transmissions (n : Nat) (log : List Action) : Nat := transmissionsFrom n 0 log

/-- How many datagrams were received. -/
def receivedCount (log : List Action) : Nat :=
  log.countP fun
    | .recv _ => true
    | _ => false

/-- The datagram of a block, or the OACK in place of block zero. -/
def packetOf (oack : OackPacket) (size : Nat) (stream : Bytes) (n : Nat) : Bytes :=
  if n = 0 then serialiseOackPacket oack else dataFrame size stream n

/-- The ACK of a block, or of the OACK. -/
def ackOf (n : Nat) : Bytes := serialiseAckPacket { blockNumber := UInt16.ofNat n }

@[simp] theorem dataSent_append (log l : List Action) :
    dataSent (log ++ l) = dataSent log + dataSent l := List.countP_append

theorem transmissionsFrom_append (n : Nat) (log l : List Action) (reads : Nat) :
    transmissionsFrom n reads (log ++ l) =
      transmissionsFrom n reads log + transmissionsFrom n (reads + readCount log) l := by
  induction log generalizing reads with
  | nil => simp [transmissionsFrom]
  | cons a log ih =>
    have hr : readCount (a :: log) = readCount [a] + readCount log := readCount_append [a] log
    rw [List.cons_append, transmissionsFrom, transmissionsFrom, ih, hr, Nat.add_assoc,
      Nat.add_assoc]

theorem transmissions_append (n : Nat) (log l : List Action) :
    transmissions n (log ++ l) =
      transmissions n log + transmissionsFrom n (readCount log) l := by
  rw [transmissions, transmissions, transmissionsFrom_append, Nat.zero_add]

/-- Blocks that were not read were not sent. -/
theorem transmissionsFrom_eq_zero {n reads : Nat} {log : List Action}
    (h : reads + readCount log < n) : transmissionsFrom n reads log = 0 := by
  induction log generalizing reads with
  | nil => rfl
  | cons a log ih =>
    have hr : readCount (a :: log) = readCount [a] + readCount log := readCount_append [a] log
    rw [hr] at h
    rw [transmissionsFrom, ih (by omega), if_neg (by omega)]

/-- Reads alone send nothing. -/
theorem transmissionsFrom_reads {n reads : Nat} {l : List Action} (h : ∀ a ∈ l, a = .readInTo) :
    transmissionsFrom n reads l = 0 := by
  induction l generalizing reads with
  | nil => rfl
  | cons a l ih =>
    rw [transmissionsFrom, ih fun x hx ↦ h x (List.mem_cons_of_mem a hx),
      h a List.mem_cons_self]
    rfl

/-- A DATA datagram counts for the block read last. -/
theorem transmissionsFrom_send {n reads size k : Nat} {stream : Bytes} :
    transmissionsFrom n reads [.send (dataFrame size stream k)] = if reads = n then 1 else 0 := by
  simp [transmissionsFrom, isData]

@[simp] theorem transmissionsFrom_recv {n reads : Nat} {d : Bytes} :
    transmissionsFrom n reads [.recv d] = 0 := rfl

theorem dataSent_reads {l : List Action} (h : ∀ a ∈ l, a = .readInTo) : dataSent l = 0 := by
  rw [dataSent, List.countP_eq_zero]
  intro a ha
  rw [h a ha]
  exact Bool.false_ne_true

@[simp] theorem receivedCount_append (log l : List Action) :
    receivedCount (log ++ l) = receivedCount log + receivedCount l := List.countP_append

theorem receivedCount_reads {l : List Action} (h : ∀ a ∈ l, a = .readInTo) :
    receivedCount l = 0 := by
  rw [receivedCount, List.countP_eq_zero]
  intro a ha
  rw [h a ha]
  exact Bool.false_ne_true

/-- A DATA datagram is counted, and the OACK is not. -/
theorem dataSent_packetOf (oack : OackPacket) (size : Nat) (stream : Bytes) (n : Nat) :
    dataSent [.send (packetOf oack size stream n)] = if n = 0 then 0 else 1 := by
  rw [packetOf]
  split
  · have hd : deserialiseDataPacket (serialiseOackPacket oack) = none :=
      deserialiseDataPacket_of_opcode (by simp [PacketT.code])
    simp [dataSent, isData, hd]
  · simp [dataSent, isData]

/-! ### The block that a connection is at -/

section Outstanding

variable {size : Nat} {stream : Bytes} {log l : List Action} {c c' : TftpServerConnection}

theorem Offering.outstanding_eq (h : Offering size stream log c) (hs : c.state ≠ .sendData) :
    outstanding log c = 0 := by
  rw [outstanding, h.pktReady, if_neg Bool.false_ne_true, if_neg hs]

theorem Fresh.outstanding_eq {k : Nat} (h : Fresh size stream k log c) (hs : c.state = .sendData) :
    outstanding log c = k + 1 := by
  rw [outstanding, h.pktReady, if_neg Bool.false_ne_true, if_pos hs, h.reads]

theorem Cached.outstanding_eq {k : Nat} (h : Cached size stream k log c) :
    outstanding log c = k + 1 := by
  rw [outstanding, h.pktReady, if_pos rfl, h.reads]

/-- A packet that is cached is the one read last. -/
theorem outstanding_of_ready (h : c.pktReady = true) : outstanding log c = readCount log := by
  rw [outstanding, if_pos h]

/-- Whether the packet is cached and how often the file was read decide together. -/
theorem outstanding_congr (hp : c'.pktReady = c.pktReady) (hs : c'.state = c.state)
    (hl : readCount l = 0) : outstanding (log ++ l) c' = outstanding log c := by
  rw [outstanding, outstanding, hp, hs, readCount_append, hl, Nat.add_zero]

/-- A connection is at a block of the file, or at the OACK. -/
theorem DownloadInv.outstanding_le (h : DownloadInv size stream log c) (hne : c.state ≠ .error) :
    outstanding log c ≤ blockCount size stream := by
  have hx := h.phase
  rw [DownloadPhase] at hx
  split at hx
  · next hs =>
    rw [hx.outstanding_eq (by rw [hs]; exact ConnState.noConfusion)]
    exact Nat.zero_le _
  · next hs =>
    rcases hx with ⟨k, hk⟩ | ⟨k, hk⟩
    · rw [hk.outstanding_eq hs]
      exact hk.lt
    · rw [hk.outstanding_eq]
      exact hk.lt
  · next hs =>
    rcases hx with ho | ⟨k, hk⟩
    · rw [ho.outstanding_eq (by rw [hs]; exact ConnState.noConfusion)]
      exact Nat.zero_le _
    · rw [hk.outstanding_eq]
      exact hk.lt
  · next hs => exact absurd hs hne
  · exact hx.elim
  · exact hx.elim

/-- No block beyond the one that a connection is at was read. -/
theorem DownloadInv.readCount_le (h : DownloadInv size stream log c) (hne : c.state ≠ .error) :
    readCount log ≤ outstanding log c := by
  have hx := h.phase
  rw [DownloadPhase] at hx
  split at hx
  · rw [hx.reads]
    exact Nat.zero_le _
  · next hs =>
    rw [outstanding, if_pos hs]
    split
    · exact Nat.le_refl _
    · exact Nat.le_succ _
  · rcases hx with ho | ⟨k, hk⟩
    · rw [ho.reads]
      exact Nat.zero_le _
    · exact Nat.le_of_eq (outstanding_of_ready hk.pktReady).symm
  · next hs => exact absurd hs hne
  · exact hx.elim
  · exact hx.elim

end Outstanding

/-! ### The moves -/

/-- What one event does to a READ connection that is not in the state ERROR. -/
inductive SenderMove (size : Nat) (stream : Bytes) (log : List Action)
    (c : TftpServerConnection) : Event → List Action → TftpServerConnection → Prop
  /-- Nothing goes out or comes in, and the state stays. -/
  | quiet {e : Event} {l : List Action} {c' : TftpServerConnection} :
      (∀ a ∈ l, a = .readInTo) → outstanding (log ++ l) c' = outstanding log c →
      c'.state = c.state → (c'.timer = .expired → c.timer = .expired) →
      SenderMove size stream log c e l c'
  /-- The timer runs out. -/
  | ticks {c' : TftpServerConnection} :
      c.timer = .armed → outstanding log c' = outstanding log c → c'.state = c.state →
      SenderMove size stream log c .tick [] c'
  /-- The file cannot be read, or the packet cannot be sent. -/
  | fails {s : SendResult} {l : List Action} {c' : TftpServerConnection} :
      (∀ a ∈ l, a = .readInTo) → c'.state = .error → (s = .failed ∨ ¬c.fileReader.Sound) →
      SenderMove size stream log c (.writable s) l c'
  /-- The packet goes out. -/
  | sends {l : List Action} {c' : TftpServerConnection} :
      (∀ a ∈ l, a = .readInTo) → c.waitForWrite = true →
      (∀ d, outstanding (log ++ (l ++ [.send d])) c' = outstanding log c) →
      (0 < outstanding log c → readCount (log ++ l) = outstanding log c) →
      c'.state = .waitForAck → c'.timer ≠ .expired →
      SenderMove size stream log c (.writable .sent)
        (l ++ [.send (packetOf c.oackPacket size stream (outstanding log c))]) c'
  /-- An expiration is found, and the packet is to be sent again. -/
  | timesOut {r : RecvResult} {c' : TftpServerConnection} :
      c.state = .waitForAck → c.timer = .expired → outstanding log c' = outstanding log c →
      c'.state = .sendData → c'.timer = .disarmed →
      SenderMove size stream log c (.readable r) [] c'
  /-- A datagram is received. -/
  | receives {d : Bytes} :
      c.state = .waitForAck → c.timer ≠ .expired →
      SenderMove size stream log c (.readable (.datagram d)) [.recv (d.take ackPktMaxSize)]
        (c.readAck (d.take ackPktMaxSize))

variable {size : Nat} {stream : Bytes} {log l : List Action} {c c' : TftpServerConnection}

private theorem forall_mem_nil : ∀ a ∈ ([] : List Action), a = .readInTo :=
  fun _ ha ↦ absurd ha List.not_mem_nil

/-- A change outside the packet, the counters and the state sends nothing. -/
theorem SenderMove.of_same {e : Event} (hp : c'.pktReady = c.pktReady) (hs : c'.state = c.state)
    (ht : c'.timer = .expired → c.timer = .expired) : SenderMove size stream log c e [] c' := by
  refine .quiet forall_mem_nil ?_ hs ht
  exact outstanding_congr hp hs rfl

theorem DownloadInv.tick_move (c : TftpServerConnection) :
    SenderMove size stream log c .tick [] { c with timer := c.timer.elapse } := by
  cases ht : c.timer with
  | armed =>
    apply SenderMove.ticks ht
    · have h : outstanding (log ++ []) { c with timer := Timer.armed.elapse } =
          outstanding log c := outstanding_congr rfl rfl rfl
      rwa [List.append_nil] at h
    · rfl
  | disarmed => exact .of_same rfl rfl fun h ↦ Timer.noConfusion h
  | expired => exact .of_same rfl rfl fun _ ↦ ht

/-- What `handle_read` does. -/
theorem DownloadInv.read_move {r : RecvResult} (h : DownloadInv size stream log c)
    (hm : HandleReadMove c r l c') :
    SenderMove size stream log c (.readable r) l c' ∧ c'.fileReader = c.fileReader := by
  cases hm with
  | timeout expired move =>
    cases move with
    | gaveUp => exact ⟨.of_same rfl rfl fun _ ↦ expired, rfl⟩
    | resendData few state =>
      have hst : c.state = .waitForAck := state
      refine ⟨.timesOut hst expired ?_ rfl rfl, rfl⟩
      -- the timer is not armed while the OACK is on offer
      rcases (phase_waitForAck hst).mp h.phase with ho | ⟨k, hk⟩
      · rw [ho.timer] at expired
        exact Timer.noConfusion expired
      · rw [outstanding_of_ready hk.pktReady]
        exact outstanding_of_ready hk.pktReady
    | resendAck few state =>
      have hx := h.phase
      rw [DownloadPhase, show c.state = .waitForData from state] at hx
      exact hx.elim
    | late => exact ⟨.of_same rfl rfl fun _ ↦ expired, rfl⟩
  | ack timer state recv =>
    cases r with
    | failed what => cases recv
    | wouldBlock =>
      cases recv
      exact ⟨.of_same rfl rfl fun he ↦ he, rfl⟩
    | datagram d =>
      cases recv
      exact ⟨.receives state timer, fileReader_readAck c _⟩
  | data timer state =>
    have hx := h.phase
    rw [DownloadPhase, state] at hx
    exact hx.elim
  | idle => exact ⟨.of_same rfl rfl fun he ↦ he, rfl⟩

/-- A cached packet goes out, or not. -/
theorem Cached.transmit_move {k : Nat} {l₀ : List Action} {c₀ : TftpServerConnection}
    {s : SendResult} (h : Cached size stream k (log ++ l₀) c₀) (hst : c₀.state = .sendData)
    (hl : ∀ a ∈ l₀, a = .readInTo) (hw : c.state = .sendData)
    (ht : c₀.timer = c.timer) (hm : outstanding log c = k + 1)
    (hs : (c₀.transmitData s).after l₀ = .ok l c') :
    SenderMove size stream log c (.writable s) l c' ∧ c'.fileReader = c₀.fileReader := by
  obtain ⟨l₁, ho, rfl⟩ := Outcome.after_eq_ok_iff.mp hs
  cases s with
  | failed =>
    obtain ⟨rfl, rfl⟩ := Outcome.ok_inj.mp ho
    refine ⟨.fails ?_ rfl (.inl rfl), rfl⟩
    rw [List.append_nil]
    exact hl
  | wouldBlock =>
    obtain ⟨rfl, rfl⟩ := Outcome.ok_inj.mp ho
    rw [List.append_nil]
    refine ⟨.quiet hl ?_ (hst.trans hw.symm) fun he ↦ ht ▸ he, rfl⟩
    rw [h.outstanding_eq, hm]
  | sent =>
    rw [h.sent.1] at ho
    obtain ⟨rfl, rfl⟩ := Outcome.ok_inj.mp ho
    have hpacket : dataFrame size stream (k + 1) =
        packetOf c.oackPacket size stream (outstanding log c) := by
      rw [hm, packetOf, if_neg (Nat.succ_ne_zero k)]
    rw [hpacket]
    refine ⟨.sends hl ?_ (fun d ↦ ?_) (fun _ ↦ ?_) rfl (Timer.armTimer_ne_expired _), rfl⟩
    · simp [waitForWrite, hw]
    · have hready : (c₀.waitWithTimer .waitForAck).pktReady = true := h.pktReady
      rw [hm, outstanding_of_ready hready, ← List.append_assoc, readCount_send, h.reads]
    · rw [hm]
      exact h.reads

/-- What the branch SEND_DATA does. -/
theorem DownloadInv.writeData_move {s : SendResult} (h : DownloadInv size stream log c)
    (hsize : 0 < size) (hst : c.state = .sendData) (hs : c.handleWriteData s = .ok l c') :
    SenderMove size stream log c (.writable s) l c' ∧
      (c.fileReader.Sound → c'.fileReader.Sound) := by
  rcases (phase_sendData hst).mp h.phase with ⟨k, hk⟩ | ⟨k, hk⟩
  · rcases hk.handleWriteData hsize h.blockSize s with ⟨c₁, ho, he, hx⟩ | ⟨r, f, ho, hc, hr⟩
    · rw [ho] at hs
      obtain ⟨rfl, rfl⟩ := Outcome.ok_inj.mp hs
      refine ⟨.fails ?_ he (.inr hx), fun hsound ↦ absurd hsound hx⟩
      exact fun a ha ↦ List.mem_singleton.mp ha
    · rw [ho] at hs
      obtain ⟨hmove, hreader⟩ := hc.transmit_move hst (fun a ha ↦ List.mem_singleton.mp ha) hst rfl
        (hk.outstanding_eq hst) hs
      rw [hreader]
      exact ⟨hmove, hr⟩
  · have ho : c.handleWriteData s = (c.transmitData s).after [] := by
      rw [TftpServerConnection.handleWriteData, if_pos hk.pktReady]
      rfl
    rw [ho] at hs
    have hk' : Cached size stream k (log ++ []) c := by
      rw [List.append_nil]
      exact hk
    obtain ⟨hmove, hreader⟩ := hk'.transmit_move hst forall_mem_nil hst rfl hk.outstanding_eq hs
    rw [hreader]
    exact ⟨hmove, id⟩

/-- What the branch SEND_OACK does. -/
theorem DownloadInv.writeOack_move {s : SendResult} (h : DownloadInv size stream log c)
    (hst : c.state = .sendOack) (hm : SendOackMove c s l c') :
    SenderMove size stream log c (.writable s) l c' ∧ c'.fileReader = c.fileReader := by
  have ho := (phase_sendOack hst).mp h.phase
  have hout : outstanding log c = 0 := ho.outstanding_eq (by rw [hst]; decide)
  cases hm with
  | failed => exact ⟨.of_same rfl rfl fun he ↦ he, rfl⟩
  | blocked => exact ⟨.of_same rfl rfl fun he ↦ he, rfl⟩
  | sentRead =>
    have hpacket : serialiseOackPacket c.oackPacket =
        packetOf c.oackPacket size stream (outstanding log c) := by
      rw [hout, packetOf, if_pos rfl]
    rw [hpacket]
    refine ⟨.sends forall_mem_nil ?_ (fun d ↦ ?_) (fun hpos ↦ ?_) rfl ?_, rfl⟩
    · simp [waitForWrite, hst]
    · rw [hout, outstanding, if_neg (by simp [ho.pktReady]), if_neg]
      exact ConnState.noConfusion
    · omega
    · show c.timer ≠ .expired
      rw [ho.timer]
      exact Timer.noConfusion
  | sentWrite type => exact absurd h.type type

/-- Every event is one of the moves, and a sound device stays sound. -/
theorem DownloadInv.move {b : Build} {e : Event} (h : DownloadInv size stream log c)
    (hsize : 0 < size) (hne : c.state ≠ .error) (hs : TftpServerConnection.step b c e = .ok l c') :
    SenderMove size stream log c e l c' ∧ (c.fileReader.Sound → c'.fileReader.Sound) := by
  cases move_of_step hs with
  | read move =>
    obtain ⟨hmove, hreader⟩ := h.read_move move
    rw [hreader]
    exact ⟨hmove, id⟩
  | tick => exact ⟨tick_move c, id⟩
  | hangup => exact ⟨.of_same rfl rfl fun he ↦ he, id⟩
  | @sendData s _ _ state _ =>
    have hwrite : c.handleWrite s = c.handleWriteData s := by rw [handleWrite, state]
    exact h.writeData_move hsize state (hwrite.symm.trans hs)
  | sendAck state =>
    have hx := h.phase
    rw [DownloadPhase, state] at hx
    exact hx.elim
  | sendOack state move =>
    obtain ⟨hmove, hreader⟩ := h.writeOack_move state move
    rw [hreader]
    exact ⟨hmove, id⟩
  | sendError state => exact absurd state hne

/-! ### Where an ACK leads -/

/-- What a datagram does to a connection at block `m` of `count` that waits for an ACK. -/
inductive AckMove (m count : Nat) (log : List Action) (c : TftpServerConnection) (d : Bytes) :
    TftpServerConnection → Prop
  /-- It is no ACK. -/
  | other {c' : TftpServerConnection} :
      deserialiseAckPacket d = none → c'.state = .waitForAck → c'.timer = c.timer →
      outstanding (log ++ [.recv d]) c' = m → AckMove m count log c d c'
  /-- It is for the block before: that block's successor is sent again. -/
  | previous {c' : TftpServerConnection} {a : AckPacket} :
      deserialiseAckPacket d = some a →
      a.blockNumber.toNat + 1 = (UInt16.ofNat m).toNat → c'.state = .sendData →
      c'.timer = c.timer → outstanding (log ++ [.recv d]) c' = m → AckMove m count log c d c'
  /-- It is for the block that was sent, and not for the last one. -/
  | advances {c' : TftpServerConnection} {a : AckPacket} :
      deserialiseAckPacket d = some a → a.blockNumber = UInt16.ofNat m → m < count →
      c'.state = .sendData → c'.timer = c.timer →
      outstanding (log ++ [.recv d]) c' = m + 1 → AckMove m count log c d c'
  /-- It is for the last block. -/
  | finishes {c' : TftpServerConnection} {a : AckPacket} :
      deserialiseAckPacket d = some a → a.blockNumber = UInt16.ofNat m → m = count →
      c'.state = .waitForAck → c'.finished = true → c'.timer = c.timer →
      outstanding (log ++ [.recv d]) c' = m → AckMove m count log c d c'
  /-- It is for any other block. -/
  | aborts {c' : TftpServerConnection} {a : AckPacket} :
      deserialiseAckPacket d = some a → a.blockNumber ≠ UInt16.ofNat m →
      a.blockNumber.toNat + 1 ≠ (UInt16.ofNat m).toNat → c'.state = .error →
      AckMove m count log c d c'

/-- What the ACK of number `n` does to such a connection: one of the last four. -/
inductive NumberedMove (m count n : Nat) (log : List Action) (c : TftpServerConnection) :
    TftpServerConnection → Prop
  | previous {c' : TftpServerConnection} :
      (UInt16.ofNat n).toNat + 1 = (UInt16.ofNat m).toNat → c'.state = .sendData →
      c'.timer = c.timer → outstanding (log ++ [.recv (ackOf n)]) c' = m →
      NumberedMove m count n log c c'
  | advances {c' : TftpServerConnection} :
      UInt16.ofNat n = UInt16.ofNat m → m < count → c'.state = .sendData →
      c'.timer = c.timer → outstanding (log ++ [.recv (ackOf n)]) c' = m + 1 →
      NumberedMove m count n log c c'
  | finishes {c' : TftpServerConnection} :
      UInt16.ofNat n = UInt16.ofNat m → m = count → c'.state = .waitForAck →
      c'.finished = true → c'.timer = c.timer →
      outstanding (log ++ [.recv (ackOf n)]) c' = m → NumberedMove m count n log c c'
  | aborts {c' : TftpServerConnection} :
      UInt16.ofNat n ≠ UInt16.ofNat m →
      (UInt16.ofNat n).toNat + 1 ≠ (UInt16.ofNat m).toNat → c'.state = .error →
      NumberedMove m count n log c c'

/-- The ACK of a number carries that number. -/
theorem AckMove.numbered {m count n : Nat} (h : AckMove m count log c (ackOf n) c') :
    NumberedMove m count n log c c' := by
  have hdec : deserialiseAckPacket (ackOf n) = some { blockNumber := UInt16.ofNat n } :=
    deserialise_serialiseAckPacket _
  cases h with
  | other ha =>
    rw [hdec] at ha
    cases ha
  | previous ha hp hs ht hm =>
    rw [hdec] at ha
    obtain rfl := Option.some.inj ha
    exact .previous hp hs ht hm
  | advances ha hn hlt hs ht hm =>
    rw [hdec] at ha
    obtain rfl := Option.some.inj ha
    exact .advances hn hlt hs ht hm
  | finishes ha hn hlast hs hf ht hm =>
    rw [hdec] at ha
    obtain rfl := Option.some.inj ha
    exact .finishes hn hlast hs hf ht hm
  | aborts ha hn hp hs =>
    rw [hdec] at ha
    obtain rfl := Option.some.inj ha
    exact .aborts hn hp hs

/-- What is known of a connection that waits for an ACK. -/
theorem DownloadInv.numbers_of_waitForAck (h : DownloadInv size stream log c)
    (hst : c.state = .waitForAck) :
    c.blockNumber = UInt16.ofNat (outstanding log c) ∧
      (c.finalAck = true ↔ outstanding log c = blockCount size stream) ∧
      readCount log = outstanding log c := by
  rcases (phase_waitForAck hst).mp h.phase with ho | ⟨k, hk⟩
  · have hpos := blockCount_pos size stream
    rw [ho.outstanding_eq (by rw [hst]; exact ConnState.noConfusion), ho.blockNumber,
      ho.finalAck, ho.reads]
    refine ⟨rfl, ⟨fun he ↦ absurd he Bool.false_ne_true, ?_⟩, rfl⟩
    omega
  · rw [hk.outstanding_eq, hk.blockNumber, hk.reads]
    exact ⟨rfl, hk.finalAck, rfl⟩

/-- The spec of `readAck` in a download. -/
theorem DownloadInv.ackMove (h : DownloadInv size stream log c) (hst : c.state = .waitForAck)
    (d : Bytes) :
    AckMove (outstanding log c) (blockCount size stream) log c d (c.readAck d) := by
  obtain ⟨hnumber, hlast, hreads⟩ := h.numbers_of_waitForAck hst
  have hle : outstanding log c ≤ blockCount size stream := by
    apply h.outstanding_le
    rw [hst]
    exact ConnState.noConfusion
  have hkeep : ∀ c' : TftpServerConnection, c'.pktReady = c.pktReady →
      c'.state = .waitForAck → outstanding (log ++ [.recv d]) c' = outstanding log c :=
    fun c' hp hs ↦ outstanding_congr hp (hs.trans hst.symm) rfl
  have hmove := readAckMove c d
  generalize c.readAck d = c' at hmove
  cases hmove with
  | repeated decoded previous =>
    rw [isPrevious_iff, hnumber] at previous
    refine .previous decoded previous rfl rfl ?_
    -- nothing comes before the OACK, so the packet is cached
    have hready : c.pktReady = true := by
      rcases (phase_waitForAck hst).mp h.phase with ho | ⟨k, hk⟩
      · rw [ho.outstanding_eq (by rw [hst]; exact ConnState.noConfusion)] at previous
        exact absurd previous (Nat.succ_ne_zero _)
      · exact hk.pktReady
    rw [← hreads]
    refine (outstanding_of_ready ?_).trans (readCount_recv log d)
    exact hready
  | last decoded number final =>
    rw [hnumber] at number
    refine .finishes decoded number (hlast.mp final) hst rfl rfl ?_
    exact hkeep _ rfl hst
  | next decoded number final =>
    rw [hnumber] at number
    have hlt : outstanding log c < blockCount size stream := by
      apply Nat.lt_of_le_of_ne hle
      intro he
      rw [hlast.mpr he] at final
      cases final
    refine .advances decoded number hlt rfl rfl ?_
    rw [outstanding, if_neg Bool.false_ne_true, if_pos rfl, readCount_recv, hreads]
  | wrong decoded other number =>
    rw [hnumber] at number
    refine .aborts decoded number ?_ rfl
    rw [← hnumber]
    exact mt (isPrevious_iff _ _).mpr (Bool.eq_false_iff.mp other)
  | refused decoded => exact .other decoded hst rfl (hkeep _ rfl hst)
  | ignored decoded => exact .other decoded hst rfl (hkeep _ rfl hst)

/-! ### The state ERROR -/

/-- A connection in the state ERROR stays there and sends no DATA. -/
theorem step_error {b : Build} {e : Event} (he : c.state = .error)
    (hs : TftpServerConnection.step b c e = .ok l c') : c'.state = .error ∧ dataSent l = 0 := by
  cases e with
  | readable r =>
    have hs : TftpServerConnection.handleRead b c r = .ok l c' := hs
    refine ⟨(state_handleRead_of_waitForWrite (by simp [waitForWrite, he]) hs).trans he, ?_⟩
    rw [dataSent, List.countP_eq_zero]
    intro a ha
    have hlog : (TftpServerConnection.handleRead b c r).log = l := by rw [hs]; rfl
    rw [← hlog] at ha
    rcases mem_log_handleRead ha with ⟨d, rfl⟩ | ⟨d, rfl⟩
    · exact Bool.false_ne_true
    · exact Bool.false_ne_true
  | writable s =>
    have hs : c.handleWrite s = .ok l c' := hs
    rw [handleWrite, he] at hs
    dsimp only at hs
    refine ⟨(state_handleWriteError hs).trans he, ?_⟩
    have hlog : (c.handleWriteError s).log = l := by rw [hs]; rfl
    rw [← hlog]
    have herror : deserialiseDataPacket (serialiseErrorPacket c.errorPkt) = none :=
      deserialiseDataPacket_of_opcode (by simp [PacketT.code])
    rcases log_handleWriteError c s with hl | hl
    · rw [hl]
      rfl
    · rw [hl]
      simp [dataSent, isData, herror]
  | tick =>
    obtain ⟨rfl, rfl⟩ := Outcome.ok_inj.mp hs
    exact ⟨he, rfl⟩
  | hangup =>
    obtain ⟨rfl, rfl⟩ := Outcome.ok_inj.mp hs
    exact ⟨he, rfl⟩

/-! ### What goes out -/

/-- A call sends no DATA, or after its reads the block that the connection is at. -/
theorem DownloadInv.sends {b : Build} {e : Event} (h : DownloadInv size stream log c)
    (hsize : 0 < size) (hs : TftpServerConnection.step b c e = .ok l c') :
    dataSent l = 0 ∨ ∃ reads, (∀ a ∈ reads, a = .readInTo) ∧
      l = reads ++ [.send (dataFrame size stream (outstanding log c))] ∧ c.state ≠ .error ∧
      readCount (log ++ l) = outstanding log c := by
  by_cases he : c.state = .error
  · exact .inl (step_error he hs).2
  · obtain ⟨hmove, -⟩ := h.move hsize he hs
    cases hmove with
    | quiet hl => exact .inl (dataSent_reads hl)
    | fails hl => exact .inl (dataSent_reads hl)
    | ticks => exact .inl rfl
    | timesOut => exact .inl rfl
    | receives => exact .inl rfl
    | @sends reads _ hl hw hm hcount =>
      by_cases hz : outstanding log c = 0
      · -- the OACK is no block
        left
        rw [dataSent_append, dataSent_reads hl, dataSent_packetOf, if_pos hz]
      · right
        rw [packetOf, if_neg hz]
        refine ⟨reads, hl, rfl, he, ?_⟩
        rw [← List.append_assoc, readCount_send, hcount (Nat.pos_of_ne_zero hz)]

end CppTftp.TftpServerConnection
