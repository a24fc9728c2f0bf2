import CppTftp.Client.SendFile

/-!
# The blocks of an upload

What `send_file` sends to a server that acknowledges the request and then each block in turn. The
file is cut first and each piece encoded for itself, and the first piece is read under a test of
its own.
-/

namespace CppTftp.TftpClient

open Tftp Lib Utils

variable {mode : Mode}

/-! ### A server that acknowledges -/

/-- The datagram that acknowledges a block. -/
def ackDatagram (n : Nat) : Bytes := serialiseAckPacket { blockNumber := UInt16.ofNat n }

/-- The datagram of a block. -/
def dataDatagram (n : Nat) (data : Bytes) : Bytes :=
  serialiseDataPacket { data, blockNumber := UInt16.ofNat n }

/-- ACK packets with consecutive numbers, from `n` on. -/
def acknowledgements (n : Nat) : Nat → List Reception
  | 0 => []
  | count + 1 => .datagram (ackDatagram n) :: acknowledgements (n + 1) count

/-- Blocks with consecutive numbers, from `n` on, each followed by its ACK. -/
def exchange (n : Nat) : List Bytes → List Exchange
  | [] => []
  | data :: bs =>
    .sent (dataDatagram n data) :: .received (ackDatagram n) :: exchange (n + 1) bs

/-- To a server that acknowledges the request and each block in turn the client sends these
blocks, numbered from one, and reports success. -/
def Sends (mode : Mode) (file : Bytes) (bs : List Bytes) : Prop :=
  Runs (sendFile mode (some { bytes := file })) .reply (acknowledgements 0 (bs.length + 1))
    (.received (ackDatagram 0) :: exchange 1 bs) (.returned true)

/-- More acknowledgements. -/
theorem acknowledgements_add (n k m : Nat) :
    acknowledgements n (k + m) = acknowledgements n k ++ acknowledgements (n + k) m := by
  induction k generalizing n with
  | zero => simp [acknowledgements]
  | succ k ih =>
    have hnext : n + 1 + k = n + (k + 1) := by omega
    rw [Nat.succ_add, acknowledgements, acknowledgements, List.cons_append, ih (n + 1), hnext]

/-- The blocks can be read off the exchange. -/
theorem exchange_inj {n : Nat} {bs bs' : List Bytes} (h : exchange n bs = exchange n bs') :
    bs = bs' := by
  induction bs generalizing n bs' with
  | nil =>
    cases bs' with
    | nil => rfl
    | cons data' bs' => cases h
  | cons data bs ih =>
    cases bs' with
    | nil => cases h
    | cons data' bs' =>
      obtain ⟨hsent, hrest⟩ := List.cons.inj h
      have hpacket := serialiseDataPacket_inj (Exchange.sent.inj hsent)
      have hdata : data = data' := congrArg DataPacket.data hpacket
      rw [hdata, ih (List.cons.inj hrest).2]

/-- When the client has returned, nothing more happens. -/
theorem runs_returned (mode : Mode) (file : Option FileContents) (result : Bool)
    (rs : List Reception) :
    Runs (sendFile mode file) (.returned result) rs [] (.returned result) := by
  induction rs with
  | nil => exact Runs.nil _
  | cons r rs ih => exact Runs.cons (l := []) rfl ih

private theorem sends_inj_of_le {file : Bytes} {bs bs' : List Bytes} (h : Sends mode file bs)
    (h' : Sends mode file bs') (hle : bs.length ≤ bs'.length) : bs = bs' := by
  obtain ⟨more, hmore⟩ := Nat.exists_eq_add_of_le hle
  have hlong := h.append (runs_returned mode (some { bytes := file }) true
    (acknowledgements (0 + (bs.length + 1)) more))
  have hcount : bs.length + 1 + more = bs'.length + 1 := by omega
  rw [← acknowledgements_add, hcount, List.append_nil] at hlong
  have hlog := congrArg Outcome.log (hlong.symm.trans h')
  exact exchange_inj (List.cons.inj hlog).2

/-- The client sends one row of blocks only. -/
theorem Sends.unique {file : Bytes} {bs bs' : List Bytes} (h : Sends mode file bs)
    (h' : Sends mode file bs') : bs = bs' := by
  rcases Nat.le_total bs.length bs'.length with hle | hle
  · exact sends_inj_of_le h h' hle
  · exact (sends_inj_of_le h' h hle).symm

/-! ### The blocks sent -/

/-- The pieces of a file, encoded, and an empty block if none of them is short then. -/
def sentBlocks (mode : Mode) (file : Bytes) : List Bytes :=
  let encoded := (blocks 512 file).map (encodeBlock mode)
  if encoded.any fun data ↦ data.length < dataPktDataMaxSize then encoded else encoded ++ [[]]

/-- No encoding is shorter than what was encoded. -/
theorem length_le_length_encodeBlock (mode : Mode) (data : Bytes) :
    data.length ≤ (encodeBlock mode data).length := by
  unfold encodeBlock
  split
  · exact length_le_length_nativeToNetascii data
  · exact Nat.le_refl _

@[simp] theorem encodeBlock_nil : encodeBlock mode [] = [] := by
  unfold encodeBlock
  split
  · rfl
  · rfl

/-- A file of less than a piece: its encoding is the only block, or an empty one follows. -/
theorem sentBlocks_of_lt {file : Bytes} (h : file.length < 512) :
    sentBlocks mode file =
      if (encodeBlock mode file).length < dataPktDataMaxSize then [encodeBlock mode file]
      else [encodeBlock mode file, []] := by
  simp [sentBlocks, blocks_of_length_lt h]

/-- A file of at least a piece: the first piece, and then the rest. -/
theorem sentBlocks_of_le {file : Bytes} (h : 512 ≤ file.length) :
    sentBlocks mode file =
      encodeBlock mode (file.take 512) :: sentBlocks mode (file.drop 512) := by
  have hpiece : (file.take 512).length = 512 := by
    rw [List.length_take, Nat.min_eq_left h]
  have hfull : ¬(encodeBlock mode (file.take 512)).length < dataPktDataMaxSize := by
    have hle := length_le_length_encodeBlock mode (file.take 512)
    rw [hpiece] at hle
    exact Nat.not_lt.mpr hle
  unfold sentBlocks
  rw [blocks_of_le (by decide) h, List.map_cons]
  simp only [List.any_cons, hfull, decide_false, Bool.false_or]
  split
  · rfl
  · rfl

/-! ### The transfer -/

/-- The stream behind a piece of which `file` was left before. -/
def behind (file : Bytes) : IfStream where
  file := { rest := file.drop 512, failAt := none, eof := file.length < 512 }
  failbit := file.length < 512

/-- Behind a full piece the next one is read. -/
theorem read_behind_of_le {file : Bytes} (h : 512 ≤ file.length) :
    (behind file).read 512 = ((file.drop 512).take 512, behind (file.drop 512)) := by
  have hlt : ¬file.length < 512 := Nat.not_lt.mpr h
  simp [behind, IfStream.read, IfStream.fails, IfStream.eof, FileIn.fread, hlt]

/-- Behind a piece that was not full there is nothing. -/
theorem read_behind_of_lt {file : Bytes} (h : file.length < 512) :
    (behind file).read 512 = ([], behind file) := by
  simp [behind, IfStream.read, IfStream.fails, IfStream.eof, h]

/-- The end of the file is no reason to give up. -/
theorem not_gives_up (file : Bytes) : ((behind file).fails && !(behind file).eof) = false := by
  simp [behind, IfStream.fails, IfStream.eof]

/-- A packet that waits for its turn, with the number of block `n`. -/
def numberedPacket (n : Nat) (data : Bytes) : DataPacket := { data, blockNumber := UInt16.ofNat n }

/-- The block in turn goes out, and the next piece is read. -/
theorem transferLoop_next (mode : Mode) (n : Nat) (data : Bytes) {file piece : Bytes}
    {inFile : IfStream}
    (hread : inFile.read 512 = (piece, behind file)) :
    transferLoop mode (UInt16.ofNat n) (numberedPacket n data) inFile false =
      .ok [.sent (dataDatagram n data)]
        (.ack (UInt16.ofNat (n + 1)) (numberedPacket (n + 1) (encodeBlock mode piece)) (behind file)
          (data.length < dataPktDataMaxSize)) := by
  rw [transferLoop, if_neg Bool.false_ne_true]
  simp only [hread, not_gives_up, Bool.false_eq_true, if_false, ← ofNat_succ]
  rfl

/-- The ACK of a block lets the transfer go on. -/
theorem sendFile_ack (mode : Mode) (file : Option FileContents) (n : Nat) (data : Bytes)
    (inFile : IfStream) (finished : Bool) :
    sendFile mode file (.ack (UInt16.ofNat (n + 1)) (numberedPacket (n + 1) data) inFile finished)
        (.datagram (ackDatagram n)) =
      (transferLoop mode (UInt16.ofNat (n + 1)) (numberedPacket (n + 1) data) inFile finished).after
        [.received (ackDatagram n)] := by
  have htake : (ackDatagram n).take ackPktMaxSize = ackDatagram n := take_serialiseAckPacket _
  have hdec : deserialiseAckPacket (ackDatagram n) = some { blockNumber := UInt16.ofNat n } :=
    deserialise_serialiseAckPacket _
  -- the number compared is the client's own, not the one received
  have hown : ¬(numberedPacket (n + 1) data).blockNumber ≠ UInt16.ofNat (n + 1) := not_not.mpr rfl
  rw [sendFile, htake, receiveAck, hdec]
  dsimp only
  rw [if_neg hown]

/-- A short block is the last one: its ACK ends the transfer. -/
theorem runs_last (mode : Mode) (contents : Option FileContents) (n : Nat) {data file : Bytes}
    (hshort : data.length < dataPktDataMaxSize) (h : file.length < 512) :
    ∃ s, transferLoop mode (UInt16.ofNat n) (numberedPacket n data) (behind file) false =
        .ok [.sent (dataDatagram n data)] s ∧
      Runs (sendFile mode contents) s (acknowledgements n 1) [.received (ackDatagram n)]
        (.returned true) := by
  refine ⟨_, transferLoop_next mode n data (read_behind_of_lt h), ?_⟩
  rw [decide_eq_true hshort]
  have hstep := sendFile_ack mode contents n (encodeBlock mode []) (behind file) true
  exact Runs.cons (l := [Exchange.received (ackDatagram n)]) hstep (Runs.nil _)

/-- From a block on, the transfer goes through all that are left. The induction is on what is
left of the file. -/
theorem runs_transfer (mode : Mode) (contents : Option FileContents) (file : Bytes) (n : Nat) :
    ∃ l s rest, transferLoop mode (UInt16.ofNat n)
          (numberedPacket n (encodeBlock mode (file.take 512))) (behind file) false = .ok l s ∧
      Runs (sendFile mode contents) s (acknowledgements n (sentBlocks mode file).length) rest
        (.returned true) ∧
      l ++ rest = exchange n (sentBlocks mode file) := by
  induction hlen : file.length using Nat.strong_induction_on generalizing file n with
  | h len ih =>
    by_cases hlt : file.length < 512
    · rw [List.take_of_length_le (Nat.le_of_lt hlt), sentBlocks_of_lt hlt]
      split
      · next hshort =>
        obtain ⟨s, hs, hr⟩ := runs_last mode contents n hshort hlt
        exact ⟨_, s, _, hs, hr, rfl⟩
      · next hlong =>
        -- the encoding filled the block, so an empty one follows
        have hs := transferLoop_next mode n (encodeBlock mode file)
          (read_behind_of_lt hlt)
        rw [decide_eq_false hlong, encodeBlock_nil] at hs
        have hempty : ([] : Bytes).length < dataPktDataMaxSize := by decide
        obtain ⟨s, hs', hr⟩ := runs_last mode contents (n + 1) hempty hlt
        have hack := sendFile_ack mode contents n [] (behind file) false
        rw [hs'] at hack
        exact ⟨_, _, _, hs, Runs.cons hack hr, rfl⟩
    · have hle : 512 ≤ file.length := Nat.not_lt.mp hlt
      have hrest : (file.drop 512).length < len := by
        rw [List.length_drop]
        omega
      obtain ⟨l, s, rest, hs', hr, hlog⟩ := ih _ hrest (file.drop 512) (n + 1) rfl
      have hfull : ¬(encodeBlock mode (file.take 512)).length < dataPktDataMaxSize := by
        have hle' := length_le_length_encodeBlock mode (file.take 512)
        rw [List.length_take, Nat.min_eq_left hle] at hle'
        exact Nat.not_lt.mpr hle'
      have hs := transferLoop_next mode n (encodeBlock mode (file.take 512))
        (read_behind_of_le hle)
      rw [decide_eq_false hfull] at hs
      have hack := sendFile_ack mode contents n
        (encodeBlock mode ((file.drop 512).take 512)) (behind (file.drop 512)) false
      rw [hs'] at hack
      rw [sentBlocks_of_le hle]
      refine ⟨_, _, _, hs, Runs.cons hack hr, ?_⟩
      rw [exchange, ← hlog]
      rfl

/-! ### The whole upload -/

/-- The first read succeeds only if it fills the buffer. -/
theorem read_openFile (file : Bytes) :
    (IfStream.openFile { bytes := file }).read 512 = (file.take 512, behind file) := rfl

/-- The ACK of the request: a file of at least one piece is transferred, another is refused. -/
theorem sendFile_reply (mode : Mode) (file : Bytes) :
    sendFile mode (some { bytes := file }) .reply (.datagram (ackDatagram 0)) =
      if file.length < 512 then .ok [.received (ackDatagram 0)] (.returned false)
      else (transferLoop mode (UInt16.ofNat 1) (numberedPacket 1 (encodeBlock mode (file.take 512)))
        (behind file) false).after [.received (ackDatagram 0)] := by
  have htake : (ackDatagram 0).take dataPktMaxSize = ackDatagram 0 := rfl
  have hdec : deserialiseAckPacket (ackDatagram 0) = some { blockNumber := 0 } :=
    deserialise_serialiseAckPacket _
  have hfails : (behind file).fails = decide (file.length < 512) := by
    simp [behind, IfStream.fails]
  rw [sendFile, htake, receiveReply, hdec]
  simp only [ne_eq, not_true_eq_false, if_false, read_openFile, hfails, decide_eq_true_eq]
  split
  · rfl
  · rfl

/-- A file of at least one piece is sent. -/
theorem sends_sentBlocks (mode : Mode) {file : Bytes} (h : 512 ≤ file.length) :
    Sends mode file (sentBlocks mode file) := by
  obtain ⟨l, s, rest, hs, hr, hlog⟩ := runs_transfer mode (some { bytes := file }) file 1
  have hreply := sendFile_reply mode file
  rw [if_neg (Nat.not_lt.mpr h), hs] at hreply
  rw [Sends, ← hlog]
  exact Runs.cons hreply hr

/-- A file of less than one piece is not sent. -/
theorem not_sends_of_lt {file : Bytes} (h : file.length < 512) (bs : List Bytes) :
    ¬Sends mode file bs := by
  intro hsends
  have hreply := sendFile_reply mode file
  rw [if_pos h] at hreply
  have hfails := Runs.cons hreply (runs_returned mode (some { bytes := file }) false
    (acknowledgements 1 bs.length))
  have hresult := congrArg Outcome.next (hfails.symm.trans hsends)
  cases hresult

/-! ### The frame of the blocks -/

/-- An encoding as a whole is the encodings of the pieces. -/
theorem flatten_map_encodeBlock (mode : Mode) (pieces : List Bytes) :
    (pieces.map (encodeBlock mode)).flatten = encodeBlock mode pieces.flatten := by
  unfold encodeBlock
  split
  · induction pieces with
    | nil => rfl
    | cons piece pieces ih =>
      rw [List.map_cons, List.flatten_cons, List.flatten_cons, nativeToNetascii_append, ih]
  · rw [List.map_id']

/-- The full pieces of a file. -/
def fullPieces (file : Bytes) : List Bytes :=
  (List.range (file.length / 512)).map fun i ↦ block 512 file (i + 1)

/-- What is left of a file behind its full pieces. -/
def lastPiece (file : Bytes) : Bytes := file.drop (file.length / 512 * 512)

theorem blocks_eq_pieces (file : Bytes) :
    blocks 512 file = fullPieces file ++ [lastPiece file] := blocks_eq_append (by decide) file

theorem length_of_mem_fullPieces {file piece : Bytes} (h : piece ∈ fullPieces file) :
    piece.length = 512 := by
  obtain ⟨k, hk, rfl⟩ := List.mem_map.mp h
  exact length_full_block (by decide) (List.mem_range.mp hk)

theorem length_lastPiece_lt (file : Bytes) : (lastPiece file).length < 512 := by
  have hmod := Nat.div_add_mod' file.length 512
  have hlt := Nat.mod_lt file.length (show 512 > 0 by decide)
  rw [lastPiece, List.length_drop]
  omega

/-- The blocks sent are the encoded pieces, and an empty block where the last is not short. -/
theorem sentBlocks_eq (file : Bytes) :
    sentBlocks mode file = (fullPieces file).map (encodeBlock mode) ++
      if (encodeBlock mode (lastPiece file)).length < 512 then [encodeBlock mode (lastPiece file)]
      else [encodeBlock mode (lastPiece file), []] := by
  have hshort : ((fullPieces file).map (encodeBlock mode) ++
      [encodeBlock mode (lastPiece file)]).any (fun data ↦ data.length < dataPktDataMaxSize) =
        decide ((encodeBlock mode (lastPiece file)).length < 512) := by
    rw [List.any_append, List.any_eq_false.mpr, Bool.false_or, List.any_cons, List.any_nil,
      Bool.or_false]
    · rfl
    · intro data hdata
      obtain ⟨piece, hpiece, rfl⟩ := List.mem_map.mp hdata
      have hle := length_le_length_encodeBlock mode piece
      rw [length_of_mem_fullPieces hpiece] at hle
      rw [decide_eq_true_eq]
      exact Nat.not_lt.mpr hle
  unfold sentBlocks
  rw [blocks_eq_pieces, List.map_append, List.map_singleton]
  simp only [hshort, decide_eq_true_eq]
  split
  · rfl
  · rw [List.append_assoc]
    rfl

/-- The blocks are framed as the receiver expects if and only if no encoding is longer than a
block. -/
theorem framed_sentBlocks_iff (mode : Mode) (file : Bytes) :
    Framed 512 (encodeBlock mode file) (sentBlocks mode file) ↔
      (∀ piece ∈ fullPieces file, (encodeBlock mode piece).length = 512) ∧
        (encodeBlock mode (lastPiece file)).length ≤ 512 := by
  have hfile : (fullPieces file).flatten ++ lastPiece file = file := by
    have hflat := flatten_blocks (show 0 < 512 by decide) file
    rw [blocks_eq_pieces] at hflat
    simpa using hflat
  have hstream : ((fullPieces file).map (encodeBlock mode)).flatten ++
      encodeBlock mode (lastPiece file) = encodeBlock mode file := by
    have hflat := flatten_map_encodeBlock mode (fullPieces file ++ [lastPiece file])
    simp only [List.map_append, List.flatten_append, List.map_singleton,
      List.flatten_singleton, hfile] at hflat
    exact hflat
  rw [sentBlocks_eq]
  split
  · next hshort =>
    rw [framed_concat_iff, List.forall_mem_map]
    constructor
    · rintro ⟨hfull, -, -⟩
      exact ⟨hfull, Nat.le_of_lt hshort⟩
    · rintro ⟨hfull, -⟩
      exact ⟨hfull, hshort, hstream⟩
  · next hlong =>
    have hsplit : ∀ bs : List Bytes, bs ++ [encodeBlock mode (lastPiece file), []] =
        (bs ++ [encodeBlock mode (lastPiece file)]) ++ [[]] := fun bs ↦ by simp
    rw [hsplit, framed_concat_iff]
    simp only [List.forall_mem_append, List.forall_mem_map, List.forall_mem_singleton]
    constructor
    · rintro ⟨⟨hfull, hlast⟩, -, -⟩
      exact ⟨hfull, Nat.le_of_eq hlast⟩
    · rintro ⟨hfull, hle⟩
      refine ⟨⟨hfull, ?_⟩, by decide, ?_⟩
      · omega
      · simpa using hstream

/-- Whether a client sends a file in a proper frame depends on the blocks it sends. -/
theorem sends_framed_iff (mode : Mode) {file : Bytes} (h : 512 ≤ file.length) :
    (∃ bs, Sends mode file bs ∧ Framed 512 (encodeBlock mode file) bs) ↔
      Framed 512 (encodeBlock mode file) (sentBlocks mode file) := by
  have hsends := sends_sentBlocks mode h
  constructor
  · rintro ⟨bs, hbs, hframed⟩
    rw [hsends.unique hbs]
    exact hframed
  · intro hframed
    exact ⟨_, hsends, hframed⟩

/-- In OCTET mode a file is uploaded in blocks of 512 bytes and a short one, with success, if and
only if it has at least 512 bytes. -/
theorem octet_upload_iff (file : Bytes) :
    (∃ bs, Sends .octet file bs ∧ Framed 512 file bs) ↔ 512 ≤ file.length := by
  constructor
  · rintro ⟨bs, hbs, -⟩
    apply Nat.not_lt.mp
    intro hlt
    exact not_sends_of_lt hlt bs hbs
  · intro hle
    have hplain : ∀ data : Bytes, encodeBlock .octet data = data := fun _ ↦ rfl
    have hframed := framed_sentBlocks_iff .octet file
    simp only [hplain] at hframed
    refine ⟨_, sends_sentBlocks .octet hle, hframed.mpr ⟨?_, ?_⟩⟩
    · intro piece hpiece
      exact length_of_mem_fullPieces hpiece
    · exact Nat.le_of_lt (length_lastPiece_lt file)

/-- A file of three bytes is not uploaded. -/
theorem octet_upload_small : ¬∃ bs, Sends .octet [1, 2, 3] bs ∧ Framed 512 [1, 2, 3] bs := by
  rintro ⟨bs, hbs, -⟩
  exact not_sends_of_lt (by decide) bs hbs

/-- In NETASCII mode a file of at least one piece is sent in blocks of 512 bytes and a short one
if and only if no full piece has a CR or LF, and the bytes of the last piece with its CRs and
LFs counted twice are no more than 512. -/
theorem netascii_upload_iff {file : Bytes} (h : 512 ≤ file.length) :
    (∃ bs, Sends .netascii file bs ∧ Framed 512 (nativeToNetascii file) bs) ↔
      (∀ c ∈ file.take (file.length / 512 * 512), c ≠ CR ∧ c ≠ LF) ∧
        (file.drop (file.length / 512 * 512)).length +
          (file.drop (file.length / 512 * 512)).countP (fun c ↦ c = CR ∨ c = LF) ≤ 512 := by
  have hfull : (fullPieces file).flatten = file.take (file.length / 512 * 512) :=
    flatten_blocks_prefix 512 file _
  have hencode : ∀ data : Bytes, encodeBlock .netascii data = nativeToNetascii data := fun _ ↦ rfl
  have hpieces : (∀ piece ∈ fullPieces file, (encodeBlock .netascii piece).length = 512) ↔
      ∀ c ∈ (fullPieces file).flatten, c ≠ CR ∧ c ≠ LF := by
    constructor
    · intro hall c hc
      obtain ⟨piece, hpiece, hc⟩ := List.mem_flatten.mp hc
      have hlen := (hall piece hpiece).trans (length_of_mem_fullPieces hpiece).symm
      exact (length_nativeToNetascii_eq_iff piece).mp hlen c hc
    · intro hall piece hpiece
      rw [← length_of_mem_fullPieces hpiece, hencode, length_nativeToNetascii_eq_iff]
      intro c hc
      exact hall c (List.mem_flatten.mpr ⟨piece, hpiece, hc⟩)
  have hcount : ∀ data : Bytes, data.countP (fun c ↦ c = CR ∨ c = LF) = data.countP doubled := by
    intro data
    apply List.countP_congr
    intro c _
    simp only [doubled, decide_eq_true_eq, Bool.or_eq_true, beq_iff_eq]
  have hiff := (sends_framed_iff .netascii h).trans (framed_sentBlocks_iff .netascii file)
  rw [hpieces, hfull] at hiff
  rw [hcount, ← length_nativeToNetascii]
  exact hiff

/-- A piece of ordinary bytes is sent in one block, and an empty one follows. -/
theorem netascii_upload_plain :
    ∃ bs, Sends .netascii (List.replicate 512 0) bs ∧
      Framed 512 (nativeToNetascii (List.replicate 512 0)) bs := by
  have hlen : (List.replicate 512 (0 : UInt8)).length = 512 := List.length_replicate
  refine (netascii_upload_iff (Nat.le_of_eq hlen.symm)).mpr ⟨?_, ?_⟩
  · intro c hc
    rw [List.eq_of_mem_replicate (List.mem_of_mem_take hc)]
    decide
  · rw [hlen, List.drop_of_length_le (by rw [hlen])]
    decide

/-- A piece of line feeds is sent in one block of twice its length. -/
theorem netascii_upload_lines :
    512 ≤ (List.replicate 512 LF).length ∧ ¬∃ bs, Sends .netascii (List.replicate 512 LF) bs ∧
      Framed 512 (nativeToNetascii (List.replicate 512 LF)) bs := by
  have hlen : (List.replicate 512 LF).length = 512 := List.length_replicate
  have hpiece : fullPieces (List.replicate 512 LF) = [List.replicate 512 LF] := by
    rw [fullPieces, hlen]
    change [block 512 (List.replicate 512 LF) 1] = _
    rw [block_succ, Nat.zero_mul, List.drop_zero, List.take_of_length_le (Nat.le_of_eq hlen)]
  have hencode : ∀ data : Bytes, encodeBlock .netascii data = nativeToNetascii data := fun _ ↦ rfl
  refine ⟨Nat.le_of_eq hlen.symm, ?_⟩
  intro hsends
  have hframed := (sends_framed_iff .netascii (Nat.le_of_eq hlen.symm)).mp hsends
  obtain ⟨hfull, -⟩ := (framed_sentBlocks_iff .netascii _).mp hframed
  have hlong := hfull (List.replicate 512 LF) (by rw [hpiece]; exact List.mem_singleton_self _)
  rw [hencode, length_nativeToNetascii, hlen, List.countP_replicate, if_pos (by decide)] at hlong
  omega

end CppTftp.TftpClient
