import CppTftp.Client.GetFile
import Mathlib.Data.List.DropRight

/-!
# The client side of an upload

`tftp_client::send_file`, `src/client/tftp_client.cpp:125–255`: a state machine over what it
receives, like `get_file`. The next block is read before the ACK of the last one is awaited,
and the number compared when the ACK has come is not the ACK's.
-/

namespace CppTftp.TftpClient

open Tftp Lib

/-! ### The input file -/

/-- A `std::ifstream`: eofbit and badbit are the two indicators of the file below it. -/
structure IfStream where
  file : FileIn
  failbit : Bool := false
  deriving DecidableEq, Repr

namespace IfStream

/-- `std::ifstream` on a file that can be opened. -/
def openFile (file : FileContents) : IfStream := { file := .fopen file }

/-- `!in_file`. -/
def fails (s : IfStream) : Bool := s.failbit || s.file.error

/-- `in_file.eof()`. -/
def eof (s : IfStream) : Bool := s.file.eof

/-- `in_file.read`: the bytes extracted. A stream that is not good extracts nothing; the end of
the file before `n` bytes sets eofbit and failbit; an error of the device sets badbit. -/
def read (s : IfStream) (n : Nat) : Bytes × IfStream :=
  if s.fails || s.eof then ([], { s with failbit := true })
  else
    let (data, file) := s.file.fread n
    if file.error then ([], { s with file })
    else (data, { file, failbit := file.eof })

end IfStream

/-! ### The transfer -/

/-- What the client sends and receives after its request. A received datagram is what the
receive call returned. -/
inductive Exchange where
  | sent (data : Bytes)
  | received (data : Bytes)
  deriving DecidableEq, Repr

/-- Where `send_file` waits, or what it returned: for the reply to its request, or for an ACK
with the next block in `dataPacket`. -/
inductive SendFile where
  | reply
  | ack (blockNumber : UInt16) (dataPacket : DataPacket) (inFile : IfStream) (finished : Bool)
  | returned (result : Bool)
  deriving DecidableEq, Repr

/-- `utils::native_to_netascii` in NETASCII mode, `tftp_client.cpp:196–199,228–231`. -/
def encodeBlock (mode : Mode) (data : Bytes) : Bytes :=
  if mode = .netascii then Utils.nativeToNetascii data else data

/-- The transfer loop up to the next `poll`, `tftp_client.cpp:203–231`. -/
def transferLoop (mode : Mode) (blockNumber : UInt16) (dataPacket : DataPacket)
    (inFile : IfStream) (finished : Bool) : Outcome Exchange Stop SendFile :=
  if finished then .ok [] (.returned true)
  else
    let finished : Bool := dataPacket.data.length < dataPktDataMaxSize
    let sent := [.sent (serialiseDataPacket dataPacket)]
    let blockNumber := blockNumber + 1
    let (data, inFile) := inFile.read 512
    if inFile.fails && !inFile.eof then .ok sent (.returned false)
    else .ok sent (.ack blockNumber { data := encodeBlock mode data, blockNumber } inFile finished)

/-- The reply to the request, `tftp_client.cpp:151–201`. -/
def receiveReply (mode : Mode) (file : Option FileContents) (recvData : Bytes) :
    Outcome Exchange Stop SendFile :=
  match deserialiseAckPacket recvData with
  | none => .ok [] (.returned false)
  | some ackPacket =>
    if ackPacket.blockNumber ≠ 0 then .ok [] (.returned false)
    else
      match file with
      | none => .ok [] (.returned false)
      | some contents =>
        let (data, inFile) := (IfStream.openFile contents).read 512
        if inFile.fails then .ok [] (.returned false)
        else transferLoop mode 1 { data := encodeBlock mode data, blockNumber := 1 } inFile false

/-- Any later packet, `tftp_client.cpp:240–252`. -/
def receiveAck (mode : Mode) (blockNumber : UInt16) (dataPacket : DataPacket)
    (inFile : IfStream) (finished : Bool) (recvData : Bytes) : Outcome Exchange Stop SendFile :=
  match deserialiseAckPacket recvData with
  | none => .ok [] (.returned false)
  | some _ =>
    -- both sides are the client's own counter
    if dataPacket.blockNumber ≠ blockNumber then .ok [] (.returned false)
    else transferLoop mode blockNumber dataPacket inFile finished

/-- `tftp_client::send_file` from one receive call to the next; `file` is what opening the
input file finds. -/
def sendFile (mode : Mode) (file : Option FileContents) (s : SendFile) (r : Reception) :
    Outcome Exchange Stop SendFile :=
  match s, r with
  | .returned result, _ => .ok [] (.returned result)
  | .reply, .notReady => .ok [] (.returned false)
  | .ack _ _ _ _, .notReady => .ok [] (.returned false)
  | .reply, .failed what => .stop [] (.exception what)
  | .ack _ _ _ _, .failed what => .stop [] (.exception what)
  | .reply, .datagram data =>
    (receiveReply mode file (data.take dataPktMaxSize)).after
      [.received (data.take dataPktMaxSize)]
  | .ack blockNumber dataPacket inFile finished, .datagram data =>
    (receiveAck mode blockNumber dataPacket inFile finished (data.take ackPktMaxSize)).after
      [.received (data.take ackPktMaxSize)]

/-! ### Acknowledgements in the exchange -/

/-- A DATA block. -/
def Exchange.isSent : Exchange → Bool
  | .sent _ => true
  | .received _ => false

/-- An ACK that carries this number. -/
def Exchange.isAckOf (n : UInt16) : Exchange → Bool
  | .sent _ => false
  | .received data => deserialiseAckPacket data == some { blockNumber := n }

/-- How many blocks were sent. -/
def blocksSent (log : List Exchange) : Nat := log.countP Exchange.isSent

/-- The last block sent was acknowledged by its own number. -/
def LastAcknowledged (log : List Exchange) : Prop :=
  (log.rtakeWhile fun x ↦ !x.isSent).any (Exchange.isAckOf (UInt16.ofNat (blocksSent log)))

/-- Whenever a datagram was sent, it and the exchange before it were in the relation `Q`. -/
def AtSends (Q : List Exchange → Bytes → Prop) (log : List Exchange) : Prop :=
  ∀ k data, log[k]? = some (.sent data) → Q (log.take k) data

/-- Every block but the first one was sent only behind an ACK that carries the number of the
block before it and came after that block. -/
def SendsAcknowledged : List Exchange → Prop :=
  AtSends fun before _ ↦ blocksSent before = 0 ∨ LastAcknowledged before

/-- The blocks are numbered from one, modulo 2^16. -/
def SendsNumbered : List Exchange → Prop :=
  AtSends fun before sent ↦ ∃ data, sent =
    serialiseDataPacket { data, blockNumber := UInt16.ofNat (blocksSent before + 1) }

/-- What a caller may conclude from the exchange and the result. -/
structure UploadSeen (log : List Exchange) (s : SendFile) : Prop where
  sends : SendsAcknowledged log
  result : s = .returned true → LastAcknowledged log

/-- In the state `s`, an ACK carries the number of the block sent last. -/
def OwnNumber (s : SendFile) (r : Reception) : Prop :=
  ∀ blockNumber dataPacket inFile finished data ackPacket,
    s = .ack blockNumber dataPacket inFile finished → r = .datagram data →
      deserialiseAckPacket (data.take ackPktMaxSize) = some ackPacket →
        ackPacket.blockNumber = blockNumber - 1

@[simp] theorem blocksSent_append (l l' : List Exchange) :
    blocksSent (l ++ l') = blocksSent l + blocksSent l' := List.countP_append

@[simp] theorem blocksSent_sent (data : Bytes) : blocksSent [.sent data] = 1 := rfl

@[simp] theorem blocksSent_received (data : Bytes) : blocksSent [.received data] = 0 := rfl

/-- An exchange with one more entry at its end. -/
theorem atSends_snoc (Q : List Exchange → Bytes → Prop) (log : List Exchange) (x : Exchange) :
    AtSends Q (log ++ [x]) ↔ AtSends Q log ∧ ∀ data, x = .sent data → Q log data := by
  constructor
  · intro h
    constructor
    · intro k data hk
      have hlt : k < log.length := (List.getElem?_eq_some_iff.mp hk).1
      have hk' := h k data (by rw [List.getElem?_append_left hlt]; exact hk)
      rwa [List.take_append_of_le_length (Nat.le_of_lt hlt)] at hk'
    · intro data hx
      have hk := h log.length data (by rw [List.getElem?_concat_length, hx])
      rwa [List.take_left] at hk
  · rintro ⟨h, hx⟩ k data hk
    by_cases hlt : k < log.length
    · rw [List.getElem?_append_left hlt] at hk
      rw [List.take_append_of_le_length (Nat.le_of_lt hlt)]
      exact h k data hk
    · have hke : k = log.length := by
        have hle := (List.getElem?_eq_some_iff.mp hk).1
        rw [List.length_append, List.length_singleton] at hle
        omega
      rw [hke, List.getElem?_concat_length] at hk
      rw [hke, List.take_left]
      exact hx data (Option.some.inj hk)

theorem atSends_received (Q : List Exchange → Bytes → Prop) (log : List Exchange)
    (data : Bytes) : AtSends Q (log ++ [.received data]) ↔ AtSends Q log := by
  rw [atSends_snoc]
  exact and_iff_left fun _ hx ↦ Exchange.noConfusion hx

theorem atSends_sent (Q : List Exchange → Bytes → Prop) (log : List Exchange) (data : Bytes) :
    AtSends Q (log ++ [.sent data]) ↔ AtSends Q log ∧ Q log data := by
  rw [atSends_snoc]
  apply and_congr_right
  intro _
  constructor
  · intro h
    exact h data rfl
  · intro h data' hx
    rw [← Exchange.sent.inj hx]
    exact h

/-- What was received behind the last block is all that counts for it. -/
theorem lastAcknowledged_received (before : List Exchange) (block data : Bytes) :
    LastAcknowledged (before ++ [.sent block] ++ [.received data]) ↔
      deserialiseAckPacket data =
        some { blockNumber := UInt16.ofNat (blocksSent (before ++ [.sent block])) } := by
  rw [LastAcknowledged, List.rtakeWhile_concat_pos _ _ _ rfl,
    List.rtakeWhile_concat_neg _ _ _ Bool.false_ne_true, blocksSent_append _ [.received data],
    blocksSent_received, Nat.add_zero]
  simp [Exchange.isAckOf]

/-! ### What one reception does -/

/-- What the control state knows of the exchange so far. -/
def Expects (log : List Exchange) : SendFile → Prop
  | .reply => blocksSent log = 0
  | .ack blockNumber dataPacket _ _ => (∃ before block, log = before ++ [.sent block]) ∧
      blockNumber = UInt16.ofNat (blocksSent log + 1) ∧ dataPacket.blockNumber = blockNumber
  | .returned _ => True

/-- The control state fits the exchange so far. -/
structure Follows (log : List Exchange) (s : SendFile) : Prop where
  numbered : SendsNumbered log
  expects : Expects log s

/-- The transfer loop is over, or it sends the block it holds and reads the next one. -/
theorem transferLoop_cases {mode : Mode} {blockNumber : UInt16} {dataPacket : DataPacket}
    {inFile : IfStream} {finished : Bool} {l : List Exchange} {s : SendFile}
    (h : transferLoop mode blockNumber dataPacket inFile finished = .ok l s) :
    (finished = true ∧ l = [] ∧ s = .returned true) ∨
      (l = [.sent (serialiseDataPacket dataPacket)] ∧
        (s = .returned false ∨ ∃ next inFile finished,
          s = .ack (blockNumber + 1) next inFile finished ∧
            next.blockNumber = blockNumber + 1)) := by
  rw [transferLoop] at h
  split at h
  · next hfin =>
    obtain ⟨rfl, rfl⟩ := Outcome.ok_inj.mp h
    exact .inl ⟨hfin, rfl, rfl⟩
  · dsimp only at h
    split at h
    · obtain ⟨rfl, rfl⟩ := Outcome.ok_inj.mp h
      exact .inr ⟨rfl, .inl rfl⟩
    · obtain ⟨rfl, rfl⟩ := Outcome.ok_inj.mp h
      exact .inr ⟨rfl, .inr ⟨_, _, _, rfl, rfl⟩⟩

theorem atSends_quits (Q : List Exchange → Bytes → Prop) (log : List Exchange)
    (data : Option Bytes) :
    AtSends Q (log ++ (data.map Exchange.received).toList) ↔ AtSends Q log := by
  cases data with
  | none => rw [Option.map_none, Option.toList_none, List.append_nil]
  | some data => exact atSends_received Q log data

/-- A reception that is the end without success and without another block changes nothing in
what was seen. -/
theorem uploadSeen_quits {log : List Exchange} {s : SendFile} (hs : s ≠ .returned true)
    (data : Option Bytes) :
    UploadSeen (log ++ (data.map Exchange.received).toList) (.returned false) ↔
      UploadSeen log s := by
  have hsends := atSends_quits (fun before _ ↦ blocksSent before = 0 ∨ LastAcknowledged before)
    log data
  constructor
  · intro h
    exact ⟨hsends.mp h.sends, fun he ↦ absurd he hs⟩
  · intro h
    exact ⟨hsends.mpr h.sends, fun he ↦ absurd he (by decide)⟩

/-- Another block, or the end with success, tells whether the last block was acknowledged. -/
theorem uploadSeen_transferLoop {log l : List Exchange} {mode : Mode} {blockNumber : UInt16}
    {dataPacket : DataPacket} {inFile : IfStream} {finished : Bool} {s s' : SendFile}
    (hs : s ≠ .returned true) (hl : finished = true → blocksSent log ≠ 0)
    (h : transferLoop mode blockNumber dataPacket inFile finished = .ok l s') (data : Bytes) :
    UploadSeen (log ++ .received data :: l) s' ↔
      UploadSeen log s ∧
        (blocksSent log = 0 ∨ LastAcknowledged (log ++ [.received data])) := by
  have hsends : SendsAcknowledged (log ++ [.received data]) ↔ SendsAcknowledged log :=
    atSends_received _ log data
  have hz : blocksSent (log ++ [.received data]) = blocksSent log := by
    rw [blocksSent_append, blocksSent_received]
    rfl
  rcases transferLoop_cases h with ⟨hfin, rfl, rfl⟩ | ⟨rfl, hs'⟩
  · constructor
    · intro hu
      exact ⟨⟨hsends.mp hu.sends, fun he ↦ absurd he hs⟩, .inr (hu.result rfl)⟩
    · intro hu
      exact ⟨hsends.mpr hu.1.sends, fun _ ↦ hu.2.resolve_left (hl hfin)⟩
  · have hne : s' ≠ .returned true := by
      rcases hs' with rfl | ⟨next, inFile, finished, rfl, -⟩
      · decide
      · exact SendFile.noConfusion
    rw [← List.singleton_append, ← List.append_assoc]
    constructor
    · intro hu
      obtain ⟨hlog, hlast⟩ := (atSends_sent _ _ _).mp hu.sends
      refine ⟨⟨hsends.mp hlog, fun he ↦ absurd he hs⟩, ?_⟩
      rw [← hz]
      exact hlast
    · intro hu
      refine ⟨(atSends_sent _ _ _).mpr ⟨hsends.mpr hu.1.sends, ?_⟩, ?_⟩
      · rw [hz]
        exact hu.2
      · exact fun he ↦ absurd he hne

/-- The control state still fits behind the transfer loop. -/
theorem follows_transferLoop {log l : List Exchange} {mode : Mode} {blockNumber : UInt16}
    {dataPacket : DataPacket} {inFile : IfStream} {finished : Bool} {s' : SendFile}
    (hl : SendsNumbered log) (hb : blockNumber = UInt16.ofNat (blocksSent log + 1))
    (hd : dataPacket.blockNumber = blockNumber)
    (h : transferLoop mode blockNumber dataPacket inFile finished = .ok l s') (data : Bytes) :
    Follows (log ++ .received data :: l) s' := by
  have hr : SendsNumbered (log ++ [.received data]) := (atSends_received _ log data).mpr hl
  have hz : blocksSent (log ++ [.received data]) = blocksSent log := by
    rw [blocksSent_append, blocksSent_received]
    rfl
  rcases transferLoop_cases h with ⟨-, rfl, rfl⟩ | ⟨rfl, hs'⟩
  · exact ⟨hr, trivial⟩
  · rw [← List.singleton_append, ← List.append_assoc]
    constructor
    · refine (atSends_sent _ _ _).mpr ⟨hr, dataPacket.data, ?_⟩
      rw [hz, ← hb, ← hd]
    · rcases hs' with rfl | ⟨next, inFile, finished, rfl, hn⟩
      · trivial
      · refine ⟨⟨_, _, rfl⟩, ?_, hn⟩
        rw [hb, blocksSent_append, hz, blocksSent_sent]
        exact (ofNat_succ _).symm

/-- What can be read off the exchange when the client waits for no ACK. -/
theorem ownNumber_of_ne_ack {s : SendFile} {r : Reception}
    (h : ∀ blockNumber dataPacket inFile finished,
      s ≠ .ack blockNumber dataPacket inFile finished) : OwnNumber s r :=
  fun _ _ _ _ _ _ hs ↦ absurd hs (h _ _ _ _)

/-- The reply starts the upload or ends it. -/
theorem step_reply {mode : Mode} {file : Option FileContents} {s' : SendFile} {r : Reception}
    {log l : List Exchange} (hf : Follows log .reply)
    (h : sendFile mode file .reply r = .ok l s') :
    Follows (log ++ l) s' ∧ (UploadSeen (log ++ l) s' ↔ UploadSeen log .reply) := by
  have hr : SendFile.reply ≠ .returned true := SendFile.noConfusion
  cases r with
  | notReady =>
    obtain ⟨rfl, rfl⟩ := Outcome.ok_inj.mp h
    exact ⟨⟨(atSends_quits _ log none).mpr hf.numbered, trivial⟩, uploadSeen_quits hr none⟩
  | failed what => exact absurd h Outcome.stop_ne_ok
  | datagram data =>
    rw [sendFile] at h
    obtain ⟨l', hx, rfl⟩ := Outcome.after_eq_ok_iff.mp h
    clear h
    generalize data.take dataPktMaxSize = recvData at hx ⊢
    have hquit : Outcome.ok [] (SendFile.returned false) = (Outcome.ok l' s' : Outcome _ Stop _) →
        Follows (log ++ ([.received recvData] ++ l')) s' ∧
          (UploadSeen (log ++ ([.received recvData] ++ l')) s' ↔ UploadSeen log .reply) := by
      intro he
      obtain ⟨rfl, rfl⟩ := Outcome.ok_inj.mp he
      exact ⟨⟨(atSends_quits _ log (some recvData)).mpr hf.numbered, trivial⟩,
        uploadSeen_quits hr (some recvData)⟩
    unfold receiveReply at hx
    split at hx
    · exact hquit hx
    · split at hx
      · exact hquit hx
      · split at hx
        · exact hquit hx
        · dsimp only at hx
          split at hx
          · exact hquit hx
          · have hz : blocksSent log = 0 := hf.expects
            have hfin : false = true → blocksSent log ≠ 0 := fun he ↦ absurd he (by decide)
            refine ⟨follows_transferLoop hf.numbered (by rw [hz]; rfl) rfl hx recvData, ?_⟩
            rw [List.singleton_append, uploadSeen_transferLoop hr hfin hx]
            exact and_iff_left (.inl hz)

/-- An ACK lets the upload go on whatever its number; anything else ends it. -/
theorem step_ack {mode : Mode} {file : Option FileContents} {blockNumber : UInt16}
    {dataPacket : DataPacket} {inFile : IfStream} {finished : Bool} {s' : SendFile}
    {r : Reception} {log l : List Exchange}
    (hf : Follows log (.ack blockNumber dataPacket inFile finished))
    (h : sendFile mode file (.ack blockNumber dataPacket inFile finished) r = .ok l s') :
    Follows (log ++ l) s' ∧
      (UploadSeen (log ++ l) s' ↔ UploadSeen log (.ack blockNumber dataPacket inFile finished) ∧
        OwnNumber (.ack blockNumber dataPacket inFile finished) r) := by
  have hr : SendFile.ack blockNumber dataPacket inFile finished ≠ .returned true :=
    SendFile.noConfusion
  obtain ⟨hnum, ⟨before, block, hlog⟩, hb, hd⟩ := hf
  have hlast : blocksSent log ≠ 0 := by
    rw [hlog, blocksSent_append, blocksSent_sent]
    omega
  cases r with
  | notReady =>
    obtain ⟨rfl, rfl⟩ := Outcome.ok_inj.mp h
    refine ⟨⟨(atSends_quits _ log none).mpr hnum, trivial⟩,
      (uploadSeen_quits hr none).trans (and_iff_left ?_).symm⟩
    exact fun _ _ _ _ _ _ _ he ↦ absurd he Reception.noConfusion
  | failed what => exact absurd h Outcome.stop_ne_ok
  | datagram data =>
    rw [sendFile] at h
    obtain ⟨l', hx, rfl⟩ := Outcome.after_eq_ok_iff.mp h
    clear h
    unfold receiveAck at hx
    split at hx
    · next hnone =>
      obtain ⟨rfl, rfl⟩ := Outcome.ok_inj.mp hx
      refine ⟨⟨(atSends_quits _ log (some _)).mpr hnum, trivial⟩,
        (uploadSeen_quits hr (some _)).trans (and_iff_left ?_).symm⟩
      intro _ _ _ _ data' a _ he ha
      obtain rfl := Reception.datagram.inj he
      rw [hnone] at ha
      exact absurd ha nofun
    · next ackPacket hack =>
      rw [if_neg (not_not.mpr hd)] at hx
      refine ⟨follows_transferLoop hnum hb hd hx _, ?_⟩
      have hown : OwnNumber (.ack blockNumber dataPacket inFile finished) (.datagram data) ↔
          ackPacket.blockNumber = UInt16.ofNat (blocksSent log) := by
        have hprev : blockNumber - 1 = UInt16.ofNat (blocksSent log) := by
          rw [hb, ofNat_succ_sub_one]
        rw [← hprev]
        constructor
        · intro ho
          exact ho _ _ _ _ _ _ rfl rfl hack
        · intro ho bn _ _ _ data' a hs he ha
          obtain rfl := Reception.datagram.inj he
          obtain ⟨rfl, -⟩ := SendFile.ack.inj hs
          rw [hack] at ha
          obtain rfl := Option.some.inj ha
          exact ho
      have hseen : LastAcknowledged (log ++ [.received (data.take ackPktMaxSize)]) ↔
          ackPacket.blockNumber = UInt16.ofNat (blocksSent log) := by
        rw [hlog, lastAcknowledged_received, hack, ← hlog, Option.some.injEq]
        constructor
        · intro he
          exact congrArg AckPacket.blockNumber he
        · intro he
          rw [← he]
      rw [List.singleton_append, uploadSeen_transferLoop hr (fun _ ↦ hlast) hx, hseen, hown]
      exact and_congr_right fun _ ↦ or_iff_right hlast

/-- One reception keeps what a caller may conclude exactly when an ACK carries the number of
the block sent last. -/
theorem sendFile_step {mode : Mode} {file : Option FileContents} {s s' : SendFile}
    {r : Reception} {log l : List Exchange} (hf : Follows log s)
    (h : sendFile mode file s r = .ok l s') :
    Follows (log ++ l) s' ∧ (UploadSeen (log ++ l) s' ↔ UploadSeen log s ∧ OwnNumber s r) := by
  cases s with
  | ack => exact step_ack hf h
  | reply =>
    obtain ⟨hf', hu⟩ := step_reply hf h
    refine ⟨hf', hu.trans (and_iff_left ?_).symm⟩
    exact ownNumber_of_ne_ack fun _ _ _ _ ↦ SendFile.noConfusion
  | returned result =>
    obtain ⟨rfl, rfl⟩ := Outcome.ok_inj.mp h
    rw [List.append_nil]
    exact ⟨hf, (and_iff_left (ownNumber_of_ne_ack fun _ _ _ _ ↦ SendFile.noConfusion)).symm⟩

theorem follows_reply : Follows [] .reply := ⟨fun _ _ hk ↦ absurd hk (by simp), rfl⟩

/-- The blocks of every upload are numbered from one. -/
theorem sendsNumbered_runs {mode : Mode} {file : Option FileContents} {rs : List Reception}
    {log : List Exchange} {s : SendFile} (hr : Runs (sendFile mode file) .reply rs log s) :
    SendsNumbered log :=
  (hr.invariant (I := Follows) follows_reply fun _ _ _ _ _ hc hs ↦
    (sendFile_step hc hs).1).numbered

/-! ### The result -/

/-- Two ACK packets for a block that was never sent, behind the one for the request. -/
def wrongAcks : List Reception :=
  [.datagram (serialiseAckPacket { blockNumber := 0 }),
    .datagram (serialiseAckPacket { blockNumber := 7 }),
    .datagram (serialiseAckPacket { blockNumber := 7 })]

/-- A file of exactly one full block goes out in two blocks, and then the client is done. -/
private theorem runs_wrongAcks {bytes : Bytes} (h : bytes.length = 512) :
    Runs (sendFile .octet (some { bytes })) .reply wrongAcks
      ([.received (serialiseAckPacket { blockNumber := 0 }),
        .sent (serialiseDataPacket { data := bytes, blockNumber := 1 }),
        .received (serialiseAckPacket { blockNumber := 7 })] ++
        [.sent (serialiseDataPacket { data := [], blockNumber := 2 })] ++
        [.received (serialiseAckPacket { blockNumber := 7 })]) (.returned true) := by
  have hread : (IfStream.openFile { bytes }).read 512 =
      (bytes, { file := { rest := [], failAt := none } }) := by
    have ht : bytes.take 512 = bytes := List.take_of_length_le (Nat.le_of_eq h)
    have hd : bytes.drop 512 = [] := List.drop_of_length_le (Nat.le_of_eq h)
    simp [IfStream.read, IfStream.openFile, IfStream.fails, IfStream.eof, FileIn.fopen,
      FileIn.fread, ht, hd, h]
  have h₁ : sendFile .octet (some { bytes }) .reply
      (.datagram (serialiseAckPacket { blockNumber := 0 })) =
        .ok [.received (serialiseAckPacket { blockNumber := 0 }),
          .sent (serialiseDataPacket { data := bytes, blockNumber := 1 })]
          (.ack 2 { data := [], blockNumber := 2 }
            { file := { rest := [], failAt := none, eof := true }, failbit := true } false) := by
    have hfull : ¬ bytes.length < dataPktDataMaxSize := by rw [h]; decide
    have hr : receiveReply .octet (some { bytes }) (serialiseAckPacket { blockNumber := 0 }) =
        transferLoop .octet 1 { data := bytes, blockNumber := 1 }
          { file := { rest := [], failAt := none } } false := by
      rw [receiveReply, deserialise_serialiseAckPacket]
      simp only [hread]
      rfl
    show (receiveReply .octet (some { bytes }) (serialiseAckPacket { blockNumber := 0 })).after
      [.received (serialiseAckPacket { blockNumber := 0 })] = _
    rw [hr, transferLoop, if_neg Bool.false_ne_true]
    simp only [hfull, decide_false]
    rfl
  have h₂ : sendFile .octet (some { bytes })
      (.ack 2 { data := [], blockNumber := 2 }
        { file := { rest := [], failAt := none, eof := true }, failbit := true } false)
      (.datagram (serialiseAckPacket { blockNumber := 7 })) =
        .ok [.received (serialiseAckPacket { blockNumber := 7 }),
          .sent (serialiseDataPacket { data := [], blockNumber := 2 })]
          (.ack 3 { data := [], blockNumber := 3 }
            { file := { rest := [], failAt := none, eof := true }, failbit := true } true) := rfl
  have h₃ : sendFile .octet (some { bytes })
      (.ack 3 { data := [], blockNumber := 3 }
        { file := { rest := [], failAt := none, eof := true }, failbit := true } true)
      (.datagram (serialiseAckPacket { blockNumber := 7 })) =
        .ok [.received (serialiseAckPacket { blockNumber := 7 })] (.returned true) := rfl
  have hr := Runs.cons h₁ (Runs.cons h₂ (Runs.cons h₃ (Runs.nil _)))
  exact hr

private theorem not_uploadSeen_wrongAcks (log : List Exchange) (block : Bytes)
    (hb : UInt16.ofNat (blocksSent (log ++ [.sent block])) ≠ 7) :
    ¬ UploadSeen (log ++ [.sent block] ++ [.received (serialiseAckPacket { blockNumber := 7 })])
      (.returned true) := by
  intro h
  have hl := (lastAcknowledged_received _ _ _).mp (h.result rfl)
  rw [deserialise_serialiseAckPacket] at hl
  exact hb (congrArg AckPacket.blockNumber (Option.some.inj hl)).symm

/-- An upload sends and reports only what was acknowledged exactly when every ACK received
after a block carries the number of that block. -/
theorem uploadSeen_iff {mode : Mode} {file : Option FileContents} {rs : List Reception}
    {log : List Exchange} {s : SendFile} (hr : Runs (sendFile mode file) .reply rs log s) :
    UploadSeen log s ↔ Along (sendFile mode file) OwnNumber .reply rs := by
  have h0 : UploadSeen [] SendFile.reply :=
    ⟨fun k data hk ↦ absurd hk (by simp), fun he ↦ absurd he nofun⟩
  have h := hr.iff_along (I := Follows) (G := UploadSeen) follows_reply
    fun l c e l' c' hc hs ↦ sendFile_step hc hs
  exact h.trans (and_iff_right h0)

/-- In the run below, ACK packets carry another number. -/
theorem wrongAcks_not_own :
    ¬ Along (sendFile .octet (some { bytes := List.replicate 512 0 })) OwnNumber .reply
      wrongAcks := by
  intro ha
  have hr := runs_wrongAcks (List.length_replicate (n := 512) (a := (0 : UInt8)))
  exact not_uploadSeen_wrongAcks _ _ (by decide) ((uploadSeen_iff hr).mpr ha)

/-- The client reports an upload of which no block was acknowledged. -/
theorem wrongAcks_reported :
    ∃ log, Runs (sendFile .octet (some { bytes := List.replicate 512 0 })) .reply wrongAcks log
        (.returned true) ∧
      ¬ UploadSeen log (.returned true) :=
  ⟨_, runs_wrongAcks List.length_replicate, not_uploadSeen_wrongAcks _ _ (by decide)⟩

end CppTftp.TftpClient
