import CppTftp.Client.Framing
import CppTftp.Common.Canonical
import Mathlib.Data.List.Forall2

/-!
# What the clients take for a transfer

The sequences of receptions on which `get_file` and `send_file` report success. A downloading
client takes any blocks with consecutive numbers up to a short one.
-/

namespace CppTftp.TftpClient

open Tftp Lib

variable {mode : Mode} {outFileOpens : Bool}

/-! ### Downloads -/

/-- A datagram whose first 516 bytes are this packet. -/
def Carries (packet : DataPacket) (r : Reception) : Prop :=
  ∃ d, r = .datagram d ∧ deserialiseDataPacket (d.take dataPktMaxSize) = some packet

/-- Blocks with consecutive numbers, from `n` on. -/
def numbered (n : Nat) : List Bytes → List DataPacket
  | [] => []
  | data :: bs => numberedPacket n data :: numbered (n + 1) bs

/-- A transfer from block `n` on: full blocks and a short one with consecutive numbers, each
acknowledged, and `out` what they decode to, one by one. Whatever comes behind them is left. -/
def Transfer (mode : Mode) (n : Nat) (rs : List Reception) (log : List Bytes) (out : Bytes) :
    Prop :=
  ∃ bs received rest parts, rs = received ++ rest ∧
    List.Forall₂ Carries (numbered n bs) received ∧
    Framed dataPktDataMaxSize bs.flatten bs ∧
    log.map .datagram = acknowledgements n bs.length ∧
    List.Forall₂ (fun data part ↦ nativePayload mode data = .ok part) bs parts ∧
    out = parts.flatten

/-- What the client receives of a block is not longer than a block. -/
theorem length_of_carries {n : Nat} {data : Bytes} {r : Reception}
    (h : Carries (numberedPacket n data) r) : data.length ≤ dataPktDataMaxSize := by
  obtain ⟨d, -, hd⟩ := h
  have hbytes := congrArg List.length (serialise_deserialiseDataPacket hd)
  rw [length_serialiseDataPacket, List.length_cons, List.length_tail, List.length_take] at hbytes
  have hlen : (numberedPacket n data).data.length = data.length := rfl
  have hmax : dataPktMaxSize = dataPktDataMaxSize + 4 := rfl
  omega

/-- A transfer of one short block. -/
theorem transfer_last {n : Nat} {r : Reception} {rest : List Reception} {data part : Bytes}
    (hr : Carries (numberedPacket n data) r) (hshort : data.length < dataPktDataMaxSize)
    (hd : nativePayload mode data = .ok part) :
    Transfer mode n (r :: rest) [ackDatagram n] part := by
  refine ⟨[data], [r], rest, [part], rfl, .cons hr .nil, ?_, rfl, .cons hd .nil, ?_⟩
  · exact framed_cons_iff.mpr (.inl ⟨hshort, rfl⟩)
  · simp

/-- A full block before a transfer. -/
theorem transfer_more {n : Nat} {r : Reception} {rs : List Reception} {log : List Bytes}
    {data part out : Bytes} (hr : Carries (numberedPacket n data) r)
    (hfull : ¬data.length < dataPktDataMaxSize) (hd : nativePayload mode data = .ok part)
    (h : Transfer mode (n + 1) rs log out) :
    Transfer mode n (r :: rs) (ackDatagram n :: log) (part ++ out) := by
  obtain ⟨bs, received, rest, parts, rfl, hcarries, hframed, hlog, hparts, rfl⟩ := h
  have hlen : data.length = dataPktDataMaxSize := by
    have hle := length_of_carries hr
    omega
  refine ⟨data :: bs, r :: received, rest, part :: parts, rfl, .cons hr hcarries, ?_, ?_,
    .cons hd hparts, rfl⟩
  · exact framed_cons_iff.mpr (.inr ⟨hlen, hframed⟩)
  · rw [List.map_cons, hlog]
    rfl

/-- A transfer is one short block, or a full block and a transfer. -/
theorem transfer_cases {n : Nat} {rs : List Reception} {log : List Bytes} {out : Bytes}
    (h : Transfer mode n rs log out) :
    ∃ r rest data part, rs = r :: rest ∧ Carries (numberedPacket n data) r ∧
      nativePayload mode data = .ok part ∧
      (data.length < dataPktDataMaxSize ∧ log = [ackDatagram n] ∧ out = part ∨
        ¬data.length < dataPktDataMaxSize ∧ ∃ log' out', log = ackDatagram n :: log' ∧
          out = part ++ out' ∧ Transfer mode (n + 1) rest log' out') := by
  obtain ⟨bs, received, rest, parts, rfl, hcarries, hframed, hlog, hparts, rfl⟩ := h
  cases bs with
  | nil =>
    obtain ⟨last, hlast, -⟩ := hframed.short
    cases hlast
  | cons data bs =>
    cases hcarries with
    | @cons _ r _ received hr hcarries =>
      cases hparts with
      | @cons _ part _ parts hd hparts =>
        cases log with
        | nil => cases hlog
        | cons ack log =>
          obtain ⟨hack, hacks⟩ := List.cons.inj hlog
          obtain rfl := Reception.datagram.inj hack
          refine ⟨r, received ++ rest, data, part, rfl, hr, hd, ?_⟩
          rcases framed_cons_iff.mp hframed with ⟨hshort, rfl⟩ | ⟨hfull, hframed⟩
          · cases hparts
            refine .inl ⟨hshort, ?_, by simp⟩
            rw [List.map_eq_nil_iff.mp hacks]
          · refine .inr ⟨by omega, log, parts.flatten, rfl, rfl, ?_⟩
            exact ⟨bs, received, rest, parts, rfl, hcarries, hframed, hacks, hparts, rfl⟩

/-! ### What one reception does to a download -/

/-- The client waits for block `n` and has written `out`: before anything has come it will write
nothing but what comes, if the output file can be opened. -/
def WaitsFor (outFileOpens : Bool) (n : Nat) (out : Bytes) (s : GetFile) : Prop :=
  s = .next (UInt16.ofNat n) out ∨ s = .first ∧ n = 1 ∧ out = [] ∧ outFileOpens = true

/-- The client after a block that it has written. -/
def afterData (n : Nat) (data out : Bytes) : GetFile :=
  if data.length < dataPktDataMaxSize then .returned true (some out)
  else .next (UInt16.ofNat (n + 1)) out

/-- The loop on the block awaited. -/
theorem acceptBlock_eq (mode : Mode) (n : Nat) (data out : Bytes) :
    acceptBlock mode (UInt16.ofNat n) (numberedPacket n data) out =
      match nativePayload mode data with
      | .error stop => .stop [ackDatagram n] stop
      | .ok part => .ok [ackDatagram n] (afterData n data (out ++ part)) := by
  have hnext := ofNat_succ n
  unfold acceptBlock afterData numberedPacket
  cases nativePayload mode data with
  | error stop => rfl
  | ok part =>
    dsimp only
    rw [← hnext]
    split
    · rfl
    · rfl

/-- The block awaited is taken. -/
theorem getFile_carries {n : Nat} {out data : Bytes} {s : GetFile} {r : Reception}
    (h : WaitsFor outFileOpens n out s) (hr : Carries (numberedPacket n data) r) :
    getFile mode outFileOpens s r =
      acceptBlock mode (UInt16.ofNat n) (numberedPacket n data) out := by
  obtain ⟨d, rfl, hd⟩ := hr
  rcases h with rfl | ⟨rfl, rfl, rfl, hopens⟩
  · rw [getFile, receiveNext, hd]
    exact if_neg (not_not.mpr rfl)
  · rw [getFile, receiveFirst, hd]
    dsimp only
    have hown : ¬(numberedPacket 1 data).blockNumber ≠ 1 := not_not.mpr rfl
    rw [if_neg hown, if_pos hopens]
    rfl

/-- Anything else is the end without success. -/
theorem getFile_otherwise {n : Nat} {out : Bytes} {s s' : GetFile} {r : Reception}
    {l : List Bytes} (h : WaitsFor outFileOpens n out s)
    (hr : ∀ data, ¬Carries (numberedPacket n data) r)
    (hs : getFile mode outFileOpens s r = .ok l s') : ∃ outFile, s' = .returned false outFile := by
  cases r with
  | notReady =>
    rcases h with rfl | ⟨rfl, -⟩
    · cases hs
      exact ⟨_, rfl⟩
    · cases hs
      exact ⟨_, rfl⟩
  | failed what =>
    rcases h with rfl | ⟨rfl, -⟩
    · cases hs
    · cases hs
  | datagram d =>
    have hother : ∀ packet, deserialiseDataPacket (d.take dataPktMaxSize) = some packet →
        packet.blockNumber ≠ UInt16.ofNat n := by
      intro packet hd hn
      exact hr packet.data ⟨d, rfl, by rw [hd, numberedPacket, ← hn]⟩
    rcases h with rfl | ⟨rfl, rfl, -⟩
    · rw [getFile, receiveNext] at hs
      split at hs
      · cases hs
        exact ⟨_, rfl⟩
      · next packet hd =>
        rw [if_pos (hother packet hd)] at hs
        cases hs
        exact ⟨_, rfl⟩
    · rw [getFile, receiveFirst] at hs
      split at hs
      · cases hs
        exact ⟨_, rfl⟩
      · next packet hd =>
        have hnumber : packet.blockNumber ≠ 1 := hother packet hd
        rw [if_pos hnumber] at hs
        cases hs
        exact ⟨_, rfl⟩

/-- A client that cannot open its output file is done with the first reception. -/
theorem getFile_closed {s : GetFile} {r : Reception} {l : List Bytes}
    (hs : getFile mode false .first r = .ok l s) : ∃ outFile, s = .returned false outFile := by
  cases r with
  | notReady =>
    cases hs
    exact ⟨_, rfl⟩
  | failed what => cases hs
  | datagram d =>
    rw [getFile, receiveFirst] at hs
    split at hs
    · cases hs
      exact ⟨_, rfl⟩
    · rw [if_neg Bool.false_ne_true, ite_self] at hs
      cases hs
      exact ⟨_, rfl⟩

/-- When the client has returned, nothing more happens. -/
theorem runs_getFile_returned {result : Bool} {outFile : Option Bytes} {rs : List Reception}
    {log : List Bytes} {s : GetFile} :
    Runs (getFile mode outFileOpens) (.returned result outFile) rs log s ↔
      log = [] ∧ s = .returned result outFile := by
  constructor
  · intro hr
    apply hr.invariant (I := fun l s ↦ l = [] ∧ s = .returned result outFile)
    · exact ⟨rfl, rfl⟩
    · rintro l c e l' c' ⟨rfl, rfl⟩ hs
      cases hs
      exact ⟨rfl, rfl⟩
  · rintro ⟨rfl, rfl⟩
    induction rs with
    | nil => exact Runs.nil _
    | cons r rs ih => exact Runs.cons (l := []) rfl ih

/-- From a block on, the client reports success on the transfers. The induction is on the
receptions. -/
theorem runs_waitsFor_iff {n : Nat} {out : Bytes} {s : GetFile} {rs : List Reception}
    {log : List Bytes} {outFile : Option Bytes} (h : WaitsFor outFileOpens n out s) :
    Runs (getFile mode outFileOpens) s rs log (.returned true outFile) ↔
      ∃ out', Transfer mode n rs log out' ∧ outFile = some (out ++ out') := by
  induction rs generalizing n out s log with
  | nil =>
    constructor
    · intro hr
      obtain ⟨-, rfl⟩ := Outcome.ok_inj.mp hr
      rcases h with h | ⟨h, -⟩
      · cases h
      · cases h
    · rintro ⟨out', ht, -⟩
      obtain ⟨r, rest, data, part, hrs, -⟩ := transfer_cases ht
      cases hrs
  | cons r rs ih =>
    rw [runs_cons_iff]
    constructor
    · rintro ⟨l, s₁, log', hs, hr, rfl⟩
      by_cases hblock : ∃ data, Carries (numberedPacket n data) r
      · obtain ⟨data, hdata⟩ := hblock
        rw [getFile_carries h hdata, acceptBlock_eq] at hs
        split at hs
        · cases hs
        · next part hd =>
          obtain ⟨rfl, rfl⟩ := Outcome.ok_inj.mp hs
          by_cases hshort : data.length < dataPktDataMaxSize
          · rw [afterData, if_pos hshort, runs_getFile_returned] at hr
            obtain ⟨rfl, hout⟩ := hr
            cases hout
            exact ⟨part, transfer_last hdata hshort hd, rfl⟩
          · rw [afterData, if_neg hshort, ih (.inl rfl)] at hr
            obtain ⟨out', ht, rfl⟩ := hr
            refine ⟨part ++ out', transfer_more hdata hshort hd ht, ?_⟩
            rw [List.append_assoc]
      · obtain ⟨o, rfl⟩ := getFile_otherwise h (not_exists.mp hblock) hs
        obtain ⟨-, hout⟩ := runs_getFile_returned.mp hr
        cases hout
    · rintro ⟨out', ht, rfl⟩
      obtain ⟨r', rest, data, part, hrs, hdata, hd, hcase⟩ := transfer_cases ht
      obtain ⟨rfl, rfl⟩ := List.cons.inj hrs
      have hs := (getFile_carries h hdata).trans (acceptBlock_eq mode n data out)
      rw [hd] at hs
      rcases hcase with ⟨hshort, rfl, rfl⟩ | ⟨hfull, log', out', rfl, rfl, hmore⟩
      · refine ⟨_, _, [], hs, ?_, rfl⟩
        rw [afterData, if_pos hshort]
        exact runs_getFile_returned.mpr ⟨rfl, rfl⟩
      · refine ⟨_, _, log', hs, ?_, rfl⟩
        rw [afterData, if_neg hfull, ih (.inl rfl)]
        exact ⟨out', hmore, by rw [List.append_assoc]⟩

/-- The client reports a download as a success exactly when the output file can be opened and
what it receives begins with a transfer from block one on: it has then acknowledged the blocks of
the transfer, and written what they decode to. -/
theorem download_accepted_iff (mode : Mode) (outFileOpens : Bool) (rs : List Reception)
    (log : List Bytes) (outFile : Option Bytes) :
    Runs (getFile mode outFileOpens) .first rs log (.returned true outFile) ↔
      outFileOpens = true ∧ ∃ out, Transfer mode 1 rs log out ∧ outFile = some out := by
  cases outFileOpens with
  | true =>
    have hiff := @runs_waitsFor_iff mode true 1 [] .first rs log outFile (.inr ⟨rfl, rfl, rfl, rfl⟩)
    rw [hiff]
    simp
  | false =>
    constructor
    · intro hr
      cases rs with
      | nil => cases (Outcome.ok_inj.mp hr).2
      | cons r rs =>
        obtain ⟨l, s, log', hs, hr, -⟩ := runs_cons_iff.mp hr
        obtain ⟨o, rfl⟩ := getFile_closed hs
        cases (runs_getFile_returned.mp hr).2
    · rintro ⟨hopens, -⟩
      cases hopens

/-! ### Uploads -/

/-- The blocks, numbered from `n` on, each sent and followed by some ACK packet, whatever the
number in it. -/
def Acknowledged (n : Nat) : List Bytes → List Reception → List Exchange → Prop
  | [], _, log => log = []
  | data :: bs, rs, log =>
    ∃ d rest log', rs = .datagram d :: rest ∧
      (deserialiseAckPacket (d.take ackPktMaxSize)).isSome ∧
      log = .sent (dataDatagram n data) :: .received (d.take ackPktMaxSize) :: log' ∧
      Acknowledged (n + 1) bs rest log'

variable {contents : Option FileContents} {rs : List Reception} {log : List Exchange}

/-- When the client has returned, nothing more happens. -/
theorem runs_sendFile_returned {result : Bool} {s : SendFile} :
    Runs (sendFile mode contents) (.returned result) rs log s ↔
      log = [] ∧ s = .returned result := by
  have hr := runs_returned mode contents result rs
  constructor
  · intro h
    obtain ⟨hlog, hs⟩ := Outcome.ok_inj.mp (hr.symm.trans h)
    exact ⟨hlog.symm, hs.symm⟩
  · rintro ⟨rfl, rfl⟩
    exact hr

/-- What does not parse as an ACK is the end without success. -/
theorem sendFile_otherwise {blockNumber : UInt16} {dataPacket : DataPacket} {inFile : IfStream}
    {finished : Bool} {r : Reception} {l : List Exchange} {s : SendFile}
    (hr : ∀ d, r = .datagram d → deserialiseAckPacket (d.take ackPktMaxSize) = none)
    (hs : sendFile mode contents (.ack blockNumber dataPacket inFile finished) r = .ok l s) :
    s = .returned false := by
  cases r with
  | notReady =>
    cases hs
    rfl
  | failed what => cases hs
  | datagram d =>
    rw [sendFile, receiveAck, hr d rfl] at hs
    cases hs
    rfl

/-- The loop went on, and what came then was the end with success. -/
def EndsWell (mode : Mode) (contents : Option FileContents)
    (o : Outcome Exchange Stop SendFile) (rs : List Reception) (log : List Exchange) : Prop :=
  ∃ l s log', o = .ok l s ∧ Runs (sendFile mode contents) s rs log' (.returned true) ∧
    log = l ++ log'

/-- The wait for an ACK ends with success if some ACK packet comes and the loop goes on to
success. -/
theorem runs_ack_iff {n : Nat} {data : Bytes} {inFile : IfStream} {finished : Bool} :
    Runs (sendFile mode contents)
        (.ack (UInt16.ofNat n) (numberedPacket n data) inFile finished) rs log (.returned true) ↔
      ∃ d rest log', rs = .datagram d :: rest ∧
        (deserialiseAckPacket (d.take ackPktMaxSize)).isSome ∧
        log = .received (d.take ackPktMaxSize) :: log' ∧
        EndsWell mode contents
          (transferLoop mode (UInt16.ofNat n) (numberedPacket n data) inFile finished) rest
          log' := by
  have hown : ¬(numberedPacket n data).blockNumber ≠ UInt16.ofNat n := not_not.mpr rfl
  constructor
  · intro hr
    cases rs with
    | nil => cases (Outcome.ok_inj.mp hr).2
    | cons r rest =>
      obtain ⟨l, s, log', hs, hrest, rfl⟩ := runs_cons_iff.mp hr
      by_cases hack : ∃ d, r = .datagram d ∧
          (deserialiseAckPacket (d.take ackPktMaxSize)).isSome
      · obtain ⟨d, rfl, hd⟩ := hack
        obtain ⟨packet, hp⟩ := Option.isSome_iff_exists.mp hd
        rw [sendFile, receiveAck, hp] at hs
        dsimp only at hs
        rw [if_neg hown] at hs
        obtain ⟨l, hloop, rfl⟩ := Outcome.after_eq_ok_iff.mp hs
        exact ⟨d, rest, l ++ log', rfl, hd, rfl, l, s, log', hloop, hrest, rfl⟩
      · have hnone : ∀ d, r = .datagram d →
            deserialiseAckPacket (d.take ackPktMaxSize) = none := by
          intro d hd
          apply Option.not_isSome_iff_eq_none.mp
          exact fun h ↦ hack ⟨d, hd, h⟩
        rw [sendFile_otherwise hnone hs] at hrest
        cases (runs_sendFile_returned.mp hrest).2
  · rintro ⟨d, rest, log', rfl, hd, rfl, l, s, log'', hloop, hr, rfl⟩
    obtain ⟨packet, hp⟩ := Option.isSome_iff_exists.mp hd
    have hs : sendFile mode contents
        (.ack (UInt16.ofNat n) (numberedPacket n data) inFile finished) (.datagram d) =
          .ok (.received (d.take ackPktMaxSize) :: l) s := by
      rw [sendFile, receiveAck, hp]
      dsimp only
      rw [if_neg hown, hloop]
      rfl
    exact Runs.cons hs hr

/-- A loop that is over is the end with success. -/
theorem endsWell_finished {blockNumber : UInt16} {dataPacket : DataPacket} {inFile : IfStream} :
    EndsWell mode contents (transferLoop mode blockNumber dataPacket inFile true) rs log ↔
      log = [] := by
  constructor
  · rintro ⟨l, s, log', hloop, hr, rfl⟩
    obtain ⟨rfl, rfl⟩ := Outcome.ok_inj.mp hloop
    exact (runs_sendFile_returned.mp hr).1
  · rintro rfl
    exact ⟨[], .returned true, [], rfl, runs_sendFile_returned.mpr ⟨rfl, rfl⟩, rfl⟩

/-- The loop sends the block it holds, and some ACK has to come before it goes on. -/
theorem endsWell_next {n : Nat} {data file piece : Bytes} {inFile : IfStream}
    (hread : inFile.read 512 = (piece, behind file)) :
    EndsWell mode contents
        (transferLoop mode (UInt16.ofNat n) (numberedPacket n data) inFile false) rs log ↔
      ∃ d rest log', rs = .datagram d :: rest ∧
        (deserialiseAckPacket (d.take ackPktMaxSize)).isSome ∧
        log = .sent (dataDatagram n data) :: .received (d.take ackPktMaxSize) :: log' ∧
        EndsWell mode contents
          (transferLoop mode (UInt16.ofNat (n + 1))
            (numberedPacket (n + 1) (encodeBlock mode piece)) (behind file)
            (data.length < dataPktDataMaxSize)) rest log' := by
  have hloop := transferLoop_next mode n data hread
  constructor
  · rintro ⟨l, s, log', hl, hr, rfl⟩
    obtain ⟨rfl, rfl⟩ := Outcome.ok_inj.mp (hloop.symm.trans hl)
    obtain ⟨d, rest, log'', hrs, hd, rfl, hends⟩ := runs_ack_iff.mp hr
    exact ⟨d, rest, log'', hrs, hd, rfl, hends⟩
  · rintro ⟨d, rest, log'', hrs, hd, rfl, hends⟩
    exact ⟨_, _, _, hloop, runs_ack_iff.mpr ⟨d, rest, log'', hrs, hd, rfl, hends⟩, rfl⟩

/-- From a block on, the transfer ends with success if every block that is left is followed by
some ACK. The induction is on what is left of the file. -/
theorem endsWell_iff (mode : Mode) (contents : Option FileContents) (file : Bytes) (n : Nat)
    (rs : List Reception) (log : List Exchange) :
    EndsWell mode contents
        (transferLoop mode (UInt16.ofNat n) (numberedPacket n (encodeBlock mode (file.take 512)))
          (behind file) false) rs log ↔
      Acknowledged n (sentBlocks mode file) rs log := by
  induction hlen : file.length using Nat.strong_induction_on generalizing file n rs log with
  | h len ih =>
    by_cases hlt : file.length < 512
    · have hread := read_behind_of_lt hlt
      rw [List.take_of_length_le (Nat.le_of_lt hlt), sentBlocks_of_lt hlt, endsWell_next hread]
      split
      · next hshort =>
        simp only [hshort, decide_true, endsWell_finished]
        rfl
      · next hlong =>
        -- the encoding filled the block, so an empty one follows
        have hempty : ([] : Bytes).length < dataPktDataMaxSize := by decide
        simp only [hlong, decide_false, encodeBlock_nil, endsWell_next hread, hempty, decide_true,
          endsWell_finished]
        rfl
    · have hle : 512 ≤ file.length := Nat.not_lt.mp hlt
      have hrest : (file.drop 512).length < len := by
        rw [List.length_drop]
        omega
      have hfull : ¬(encodeBlock mode (file.take 512)).length < dataPktDataMaxSize := by
        have hle' := length_le_length_encodeBlock mode (file.take 512)
        rw [List.length_take, Nat.min_eq_left hle] at hle'
        exact Nat.not_lt.mpr hle'
      rw [sentBlocks_of_le hle, endsWell_next (read_behind_of_le hle)]
      simp only [hfull, decide_false, ih _ hrest (file.drop 512) (n + 1) _ _ rfl]
      rfl

/-- The reply that lets the transfer begin, for a file of at least one piece. -/
theorem sendFile_start {file reply : Bytes}
    (hd : deserialiseAckPacket (reply.take dataPktMaxSize) = some { blockNumber := 0 }) :
    sendFile mode (some { bytes := file }) .reply (.datagram reply) =
      if file.length < 512 then .ok [.received (reply.take dataPktMaxSize)] (.returned false)
      else (transferLoop mode (UInt16.ofNat 1) (numberedPacket 1 (encodeBlock mode (file.take 512)))
        (behind file) false).after [.received (reply.take dataPktMaxSize)] := by
  have hfails : (behind file).fails = decide (file.length < 512) := by
    simp [behind, IfStream.fails]
  rw [sendFile, receiveReply, hd]
  simp only [ne_eq, not_true_eq_false, if_false, read_openFile, hfails, decide_eq_true_eq]
  split
  · rfl
  · rfl

/-- Any other reply is the end without success. -/
theorem sendFile_refused {r : Reception} {l : List Exchange} {s : SendFile}
    (hr : ∀ reply, r = .datagram reply →
      deserialiseAckPacket (reply.take dataPktMaxSize) ≠ some { blockNumber := 0 })
    (hs : sendFile mode contents .reply r = .ok l s) : s = .returned false := by
  cases r with
  | notReady =>
    cases hs
    rfl
  | failed what => cases hs
  | datagram d =>
    rw [sendFile] at hs
    unfold receiveReply at hs
    split at hs
    · cases hs
      rfl
    · next packet hd =>
      have hnumber : packet.blockNumber ≠ 0 := by
        intro hz
        apply hr d rfl
        rw [hd, ← hz]
      rw [if_pos hnumber] at hs
      cases hs
      rfl

/-- The client reports an upload as a success exactly when the file has at least 512 bytes and the
server has answered the request with ACK zero and every block with some ACK packet: the numbers
of these do not matter. -/
theorem upload_accepted_iff (mode : Mode) (file : Bytes) (rs : List Reception)
    (log : List Exchange) :
    Runs (sendFile mode (some { bytes := file })) .reply rs log (.returned true) ↔
      512 ≤ file.length ∧ ∃ reply rest log', rs = .datagram reply :: rest ∧
        deserialiseAckPacket (reply.take dataPktMaxSize) = some { blockNumber := 0 } ∧
        log = .received (reply.take dataPktMaxSize) :: log' ∧
        Acknowledged 1 (sentBlocks mode file) rest log' := by
  simp only [← endsWell_iff mode (some { bytes := file })]
  constructor
  · intro hr
    cases rs with
    | nil => cases (Outcome.ok_inj.mp hr).2
    | cons r rest =>
      obtain ⟨l, s, log', hs, hrest, rfl⟩ := runs_cons_iff.mp hr
      by_cases hreply : ∃ reply, r = .datagram reply ∧
          deserialiseAckPacket (reply.take dataPktMaxSize) = some { blockNumber := 0 }
      · obtain ⟨reply, rfl, hd⟩ := hreply
        rw [sendFile_start hd] at hs
        split at hs
        · obtain ⟨-, rfl⟩ := Outcome.ok_inj.mp hs
          cases (runs_sendFile_returned.mp hrest).2
        · next hlong =>
          obtain ⟨l, hloop, rfl⟩ := Outcome.after_eq_ok_iff.mp hs
          exact ⟨Nat.not_lt.mp hlong, reply, rest, l ++ log', rfl, hd, rfl, l, s, log', hloop,
            hrest, rfl⟩
      · have hother : ∀ reply, r = .datagram reply →
            deserialiseAckPacket (reply.take dataPktMaxSize) ≠ some { blockNumber := 0 } :=
          fun reply hr hd ↦ hreply ⟨reply, hr, hd⟩
        rw [sendFile_refused hother hs] at hrest
        cases (runs_sendFile_returned.mp hrest).2
  · rintro ⟨hle, reply, rest, log', rfl, hd, rfl, l, s, log'', hloop, hr, rfl⟩
    have hs := @sendFile_start mode file reply hd
    rw [if_neg (Nat.not_lt.mpr hle), hloop] at hs
    exact Runs.cons hs hr

end CppTftp.TftpClient
