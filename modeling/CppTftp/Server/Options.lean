import CppTftp.Server.Startup

/-!
# What is acknowledged and what is in force

Each option that is taken up sets its field and adds its answer to the OACK. The branch for the
timeout checks the range and answers with the value that it set; the one for the block size does
neither.
-/

namespace CppTftp.TftpServerConnection

open Tftp Lib

/-! ### One option -/

/-- An option with the name of the block size. -/
def isBlksize (opt : Bytes × Bytes) : Bool := strcmpEq opt.1 blksizeOpt

/-- An option with the name of the timeout. -/
def isTimeout (opt : Bytes × Bytes) : Bool := strcmpEq opt.1 timeoutOpt

/-- The block size that an option puts in force and the text that answers it. -/
def blksizeAnswer (mtu : Int) (opt : Bytes × Bytes) : Option (Nat × Bytes) :=
  if isBlksize opt then
    (stoull opt.2).map fun val ↦
      if 0 ≤ mtu ∧ mtu < toInt32 (val % 2 ^ 32) then (mtu.toNat, toDecimal mtu.toNat)
      else (val % 2 ^ 32, opt.2)
  else none

/-- The timeout that an option puts in force. -/
def timeoutAnswer (opt : Bytes × Bytes) : Option Nat :=
  if isTimeout opt then (stoull opt.2).filter fun reqTimeoutS ↦ 1 ≤ reqTimeoutS ∧ reqTimeoutS ≤ 255
  else none

/-- The answers in an OACK to the options of a name. -/
def answers (c : TftpServerConnection) (name : Bytes) : List Bytes :=
  (c.oackPacket.options.filter fun opt ↦ strcmpEq opt.1 name).map (·.2)

/-- No option has two names. -/
theorem strcmpEq_of_ne {s t u : Bytes} (h : strcmpEq s t = true) (hne : t ≠ u) :
    strcmpEq s u = false := by
  rw [strcmpEq, beq_iff_eq] at h
  rw [strcmpEq, h, beq_eq_false_iff_ne]
  exact hne

/-- An answer that is added is one to its name alone. -/
theorem answers_pushOack (c : TftpServerConnection) (name value other : Bytes) :
    (c.pushOack name value).answers other =
      c.answers other ++ if strcmpEq name other then [value] else [] := by
  rw [answers, answers, pushOack]
  by_cases h : strcmpEq name other = true
  · simp [h]
  · simp [h]

/-- An option with another name adds no answer. -/
theorem answers_processOption_of_ne {name : Bytes} {opt : Bytes × Bytes}
    (h : ¬strcmpEq opt.1 name = true) (w : World) (request : RwPacket)
    (c : TftpServerConnection) :
    (processOption w request c opt).answers name = c.answers name := by
  have hnone : ∀ (c : TftpServerConnection) (value : Bytes),
      (c.pushOack opt.1 value).answers name = c.answers name := by
    intro c value
    rw [answers_pushOack, if_neg h, List.append_nil]
  unfold processOption
  split
  · unfold processBlksize
    split
    · rfl
    · next val _ =>
      dsimp only
      split
      · exact hnone { c with blockSize := val % 2 ^ 32 } _
      · split
        · exact hnone { c with blockSize := w.mtu.toNat } _
        · exact hnone { c with blockSize := val % 2 ^ 32 } _
  · split
    · split
      · exact hnone c _
      · rfl
    · split
      · unfold processTimeout
        split
        · rfl
        · next reqTimeoutS _ =>
          split
          · rfl
          · exact hnone { c with timeoutS := UInt8.ofNat reqTimeoutS } _
      · rfl

/-- What one option does to the block size. -/
theorem blksize_processOption (w : World) (request : RwPacket) (c : TftpServerConnection)
    (opt : Bytes × Bytes) :
    (processOption w request c opt).blockSize =
        ((blksizeAnswer w.mtu opt).map (·.1)).getD c.blockSize ∧
      (processOption w request c opt).answers blksizeOpt =
        c.answers blksizeOpt ++ ((blksizeAnswer w.mtu opt).map (·.2)).toList := by
  unfold blksizeAnswer isBlksize
  by_cases hb : strcmpEq opt.1 blksizeOpt = true
  · rw [processOption, if_pos hb, if_pos hb, processBlksize]
    cases stoull opt.2 with
    | none => exact ⟨rfl, (List.append_nil _).symm⟩
    | some val =>
      dsimp only [Option.map_some]
      by_cases hm : w.mtu < 0
      · have hn : ¬(0 ≤ w.mtu ∧ w.mtu < toInt32 (val % 2 ^ 32)) := by omega
        rw [if_pos hm, if_neg hn, answers_pushOack, if_pos hb]
        exact ⟨rfl, rfl⟩
      · rw [if_neg hm]
        by_cases ht : w.mtu < toInt32 (val % 2 ^ 32)
        · rw [if_pos ht, if_pos ⟨by omega, ht⟩, answers_pushOack, if_pos hb]
          exact ⟨rfl, rfl⟩
        · rw [if_neg ht, if_neg fun h ↦ ht h.2, answers_pushOack, if_pos hb]
          exact ⟨rfl, rfl⟩
  · rw [if_neg hb, answers_processOption_of_ne hb]
    refine ⟨?_, (List.append_nil _).symm⟩
    unfold processOption
    rw [if_neg hb]
    split
    · split
      · rfl
      · rfl
    · split
      · unfold processTimeout
        split
        · rfl
        · split
          · rfl
          · rfl
      · rfl

/-- What one option does to the timeout. -/
theorem timeout_processOption (w : World) (request : RwPacket) (c : TftpServerConnection)
    (opt : Bytes × Bytes) :
    (processOption w request c opt).timeoutS =
        ((timeoutAnswer opt).map UInt8.ofNat).getD c.timeoutS ∧
      (processOption w request c opt).answers timeoutOpt =
        c.answers timeoutOpt ++ ((timeoutAnswer opt).map toDecimal).toList := by
  unfold timeoutAnswer isTimeout
  by_cases ht : strcmpEq opt.1 timeoutOpt = true
  · have hb : strcmpEq opt.1 blksizeOpt = false := strcmpEq_of_ne ht (by decide)
    have hz : strcmpEq opt.1 tsizeOpt = false := strcmpEq_of_ne ht (by decide)
    rw [processOption, hb, hz, if_neg Bool.false_ne_true, if_neg Bool.false_ne_true, if_pos ht,
      if_pos ht, processTimeout]
    cases stoull opt.2 with
    | none => exact ⟨rfl, (List.append_nil _).symm⟩
    | some reqTimeoutS =>
      dsimp only
      by_cases hr : reqTimeoutS < 1 ∨ reqTimeoutS > 255
      · have hn : ¬(1 ≤ reqTimeoutS ∧ reqTimeoutS ≤ 255) := by omega
        rw [if_pos hr, Option.filter_some, decide_eq_false hn]
        exact ⟨rfl, (List.append_nil _).symm⟩
      · have hin : 1 ≤ reqTimeoutS ∧ reqTimeoutS ≤ 255 := by omega
        have hvalue : (UInt8.ofNat reqTimeoutS).toNat = reqTimeoutS := by
          rw [UInt8.toNat_ofNat']
          omega
        rw [if_neg hr, Option.filter_some, decide_eq_true hin, answers_pushOack, if_pos ht, hvalue]
        exact ⟨rfl, rfl⟩
  · rw [if_neg ht, answers_processOption_of_ne ht]
    refine ⟨?_, (List.append_nil _).symm⟩
    unfold processOption
    rw [if_neg ht]
    split
    · unfold processBlksize
      split
      · rfl
      · dsimp only
        split
        · rfl
        · split
          · rfl
          · rfl
    · split
      · split
        · rfl
        · rfl
      · rfl

/-! ### All options -/

/-- A loop over the options leaves in force the last value that a round takes up, and gives the
answers in the order of the options. -/
theorem answered_foldl {α β : Type} (field : TftpServerConnection → β) {name : Bytes}
    {taken : Bytes × Bytes → Option α} {value : α → β} {text : α → Bytes}
    {round : TftpServerConnection → Bytes × Bytes → TftpServerConnection}
    (hround : ∀ c opt, field (round c opt) = ((taken opt).map value).getD (field c) ∧
      (round c opt).answers name = c.answers name ++ ((taken opt).map text).toList)
    (options : List (Bytes × Bytes)) (c : TftpServerConnection) :
    field (options.foldl round c) =
        ((options.filterMap taken).map value).getLastD (field c) ∧
      (options.foldl round c).answers name =
        c.answers name ++ (options.filterMap taken).map text := by
  induction options generalizing c with
  | nil => exact ⟨rfl, (List.append_nil _).symm⟩
  | cons opt options ih =>
    obtain ⟨hfield, hanswers⟩ := hround c opt
    obtain ⟨ihfield, ihanswers⟩ := ih (round c opt)
    rw [List.foldl_cons, ihfield, ihanswers, hfield, hanswers, List.filterMap_cons]
    cases taken opt with
    | none => exact ⟨rfl, by simp⟩
    | some answer =>
      rw [List.map_cons, List.getLastD_cons]
      exact ⟨rfl, by simp⟩

/-- The last block size answered is in force, and the answers are in the order of the request. -/
theorem blksize_processOptions (w : World) (request : RwPacket) (c : TftpServerConnection) :
    (processOptions w request c).blockSize =
        ((request.options.filterMap (blksizeAnswer w.mtu)).map (·.1)).getLastD c.blockSize ∧
      (processOptions w request c).answers blksizeOpt =
        c.answers blksizeOpt ++ (request.options.filterMap (blksizeAnswer w.mtu)).map (·.2) :=
  answered_foldl (·.blockSize) (blksize_processOption w request) request.options c

/-- The last timeout answered is in force, and the answers are in the order of the request. -/
theorem timeout_processOptions (w : World) (request : RwPacket) (c : TftpServerConnection) :
    (processOptions w request c).timeoutS =
        ((request.options.filterMap timeoutAnswer).map UInt8.ofNat).getLastD c.timeoutS ∧
      (processOptions w request c).answers timeoutOpt =
        c.answers timeoutOpt ++ (request.options.filterMap timeoutAnswer).map toDecimal :=
  answered_foldl (·.timeoutS) (timeout_processOption w request) request.options c

/-! ### What a client may rely on -/

/-- What is acknowledged is what is in force, in range, and what was asked for or less. -/
structure Agreed (w : World) (request : RwPacket) (c : TftpServerConnection) : Prop where
  blksizeOnce : (c.answers blksizeOpt).length ≤ 1
  timeoutOnce : (c.answers timeoutOpt).length ≤ 1
  blksize : ∀ value ∈ c.answers blksizeOpt, value = toDecimal c.blockSize ∧
    8 ≤ c.blockSize ∧ c.blockSize ≤ 65464 ∧ (0 ≤ w.mtu → (c.blockSize : Int) ≤ w.mtu) ∧
    ∃ opt ∈ request.options, isBlksize opt = true ∧ ∃ val, stoull opt.2 = some val ∧
      c.blockSize ≤ val
  timeout : ∀ value ∈ c.answers timeoutOpt, value = toDecimal c.timeoutS.toNat ∧
    1 ≤ c.timeoutS.toNat ∧ c.timeoutS.toNat ≤ 255 ∧
    ∃ opt ∈ request.options, isTimeout opt = true ∧ stoull opt.2 = some c.timeoutS.toNat
  noBlksize : c.answers blksizeOpt = [] → c.blockSize = 512
  noTimeout : c.answers timeoutOpt = [] → c.timeoutS = 2

/-- The block size that an option puts in force is in range, and it is the MTU or what the option
says to the letter. -/
def FairBlksize (mtu : Int) (opt : Bytes × Bytes) : Prop :=
  ∀ val, stoull opt.2 = some val →
    if 0 ≤ mtu ∧ mtu < toInt32 (val % 2 ^ 32) then 8 ≤ mtu ∧ mtu ≤ 65464
    else 8 ≤ val % 2 ^ 32 ∧ val % 2 ^ 32 ≤ 65464 ∧ opt.2 = toDecimal (val % 2 ^ 32)

/-- What is answered to a block size, read backwards. -/
theorem blksizeAnswer_eq_some {mtu : Int} {opt : Bytes × Bytes} {a : Nat × Bytes} :
    blksizeAnswer mtu opt = some a ↔ isBlksize opt = true ∧ ∃ val, stoull opt.2 = some val ∧
      a = if 0 ≤ mtu ∧ mtu < toInt32 (val % 2 ^ 32) then (mtu.toNat, toDecimal mtu.toNat)
        else (val % 2 ^ 32, opt.2) := by
  unfold blksizeAnswer
  by_cases h : isBlksize opt = true
  · rw [if_pos h, Option.map_eq_some_iff, and_iff_right h]
    constructor
    · rintro ⟨val, hval, ha⟩
      exact ⟨val, hval, ha.symm⟩
    · rintro ⟨val, hval, ha⟩
      exact ⟨val, hval, ha.symm⟩
  · simp [h]

/-- What is answered to a timeout, read backwards. -/
theorem timeoutAnswer_eq_some {opt : Bytes × Bytes} {t : Nat} :
    timeoutAnswer opt = some t ↔
      isTimeout opt = true ∧ stoull opt.2 = some t ∧ 1 ≤ t ∧ t ≤ 255 := by
  unfold timeoutAnswer
  by_cases h : isTimeout opt = true
  · simp [h, Option.filter_eq_some_iff]
  · simp [h]

/-- A block size is answered when it converts. -/
theorem isSome_blksizeAnswer (mtu : Int) (opt : Bytes × Bytes) :
    (blksizeAnswer mtu opt).isSome = (isBlksize opt && (stoull opt.2).isSome) := by
  unfold blksizeAnswer
  split
  · next h => simp [h]
  · next h => simp [h]

private theorem isSome_timeoutAnswer (opt : Bytes × Bytes) :
    (timeoutAnswer opt).isSome =
      (isTimeout opt && (stoull opt.2).any fun t ↦ 1 ≤ t && t ≤ 255) := by
  unfold timeoutAnswer
  split
  · next h =>
    cases stoull opt.2 with
    | none => simp
    | some t => by_cases hr : 1 ≤ t ∧ t ≤ 255 <;> simp [h, hr]
  · next h => simp [h]

private theorem toInt32_le (n : Nat) : toInt32 n ≤ n := by
  unfold toInt32
  split
  · omega
  · omega

private theorem eq_singleton {α : Type} {l : List α} {a : α} (h : a ∈ l) (hl : l.length ≤ 1) :
    l = [a] := by
  match l, h, hl with
  | [x], h, _ => rw [List.mem_singleton.mp h]
  | _ :: _ :: _, _, hl => simp at hl

/-- The answers to block sizes, in the order of the request. -/
theorem answers_blksize (w : World) (request : RwPacket) :
    (processOptions w request (blank request.type)).answers blksizeOpt =
      (request.options.filterMap (blksizeAnswer w.mtu)).map (·.2) :=
  (blksize_processOptions w request (blank request.type)).2

/-- The answers to timeouts, in the order of the request. -/
theorem answers_timeout (w : World) (request : RwPacket) :
    (processOptions w request (blank request.type)).answers timeoutOpt =
      (request.options.filterMap timeoutAnswer).map toDecimal :=
  (timeout_processOptions w request (blank request.type)).2

/-- The only block size that is answered is in force. -/
theorem blockSize_of_answer {w : World} {request : RwPacket} {a : Nat × Bytes}
    (ha : a ∈ request.options.filterMap (blksizeAnswer w.mtu))
    (hone : (request.options.filterMap (blksizeAnswer w.mtu)).length ≤ 1) :
    (processOptions w request (blank request.type)).blockSize = a.1 := by
  rw [(blksize_processOptions w request (blank request.type)).1, eq_singleton ha hone]
  rfl

/-- The only timeout that is answered is in force. -/
theorem timeoutS_of_answer {w : World} {request : RwPacket} {t : Nat}
    (ht : t ∈ request.options.filterMap timeoutAnswer)
    (hone : (request.options.filterMap timeoutAnswer).length ≤ 1) (hle : t ≤ 255) :
    (processOptions w request (blank request.type)).timeoutS.toNat = t := by
  rw [(timeout_processOptions w request (blank request.type)).1, eq_singleton ht hone]
  show (UInt8.ofNat t).toNat = t
  rw [UInt8.toNat_ofNat']
  omega

/-- The answer to a fair block size is that size, in range, and not more than was asked for. -/
theorem FairBlksize.answer {mtu : Int} {opt : Bytes × Bytes} {a : Nat × Bytes}
    (hf : FairBlksize mtu opt) (h : blksizeAnswer mtu opt = some a) :
    a.2 = toDecimal a.1 ∧ 8 ≤ a.1 ∧ a.1 ≤ 65464 ∧ (0 ≤ mtu → (a.1 : Int) ≤ mtu) ∧
      ∃ val, stoull opt.2 = some val ∧ a.1 ≤ val := by
  obtain ⟨-, val, hval, rfl⟩ := blksizeAnswer_eq_some.mp h
  have hle : val % 2 ^ 32 ≤ val := Nat.mod_le _ _
  have hint := toInt32_le (val % 2 ^ 32)
  have hf := hf val hval
  by_cases hm : 0 ≤ mtu ∧ mtu < toInt32 (val % 2 ^ 32)
  · rw [if_pos hm] at hf ⊢
    dsimp only
    exact ⟨rfl, by omega, by omega, by omega, val, hval, by omega⟩
  · rw [if_neg hm] at hf ⊢
    -- in range the conversion to `int` does not change the sign
    have hpos : toInt32 (val % 2 ^ 32) = (val % 2 ^ 32 : Nat) := by
      unfold toInt32
      rw [if_pos (by omega), Nat.mod_mod]
    exact ⟨hf.2.2, hf.1, hf.2.1, by omega, val, hval, hle⟩

/-- A block size whose answer is in range and is what is in force is a fair one. -/
theorem fairBlksize_of_answer {mtu : Int} {opt : Bytes × Bytes} (hname : isBlksize opt = true)
    (h : ∀ a, blksizeAnswer mtu opt = some a → a.2 = toDecimal a.1 ∧ 8 ≤ a.1 ∧ a.1 ≤ 65464) :
    FairBlksize mtu opt := by
  intro val hval
  have hanswer := h _ (blksizeAnswer_eq_some.mpr ⟨hname, val, hval, rfl⟩)
  by_cases hm : 0 ≤ mtu ∧ mtu < toInt32 (val % 2 ^ 32)
  · rw [if_pos hm] at hanswer ⊢
    have hlow : 8 ≤ mtu.toNat := hanswer.2.1
    have hhigh : mtu.toNat ≤ 65464 := hanswer.2.2
    omega
  · rw [if_neg hm] at hanswer ⊢
    exact ⟨hanswer.2.1, hanswer.2.2, hanswer.1⟩

/-- What agrees comes from one block size and one timeout at most, and from a fair one. -/
theorem Agreed.fair {w : World} {request : RwPacket}
    (h : Agreed w request (processOptions w request (blank request.type))) :
    (request.options.filterMap (blksizeAnswer w.mtu)).length ≤ 1 ∧
      (request.options.filterMap timeoutAnswer).length ≤ 1 ∧
      ∀ opt ∈ request.options, isBlksize opt = true → FairBlksize w.mtu opt := by
  have hone := h.blksizeOnce
  have hone' := h.timeoutOnce
  rw [answers_blksize, List.length_map] at hone
  rw [answers_timeout, List.length_map] at hone'
  refine ⟨hone, hone', fun opt hopt hname ↦ fairBlksize_of_answer hname fun a ha ↦ ?_⟩
  have hmem : a ∈ request.options.filterMap (blksizeAnswer w.mtu) :=
    List.mem_filterMap.mpr ⟨opt, hopt, ha⟩
  have hagreed := h.blksize a.2 (by
    rw [answers_blksize]
    exact List.mem_map_of_mem hmem)
  rw [blockSize_of_answer hmem hone] at hagreed
  exact ⟨hagreed.1, hagreed.2.1, hagreed.2.2.1⟩

/-- One block size and one timeout at most, and a fair one, make agreement. -/
theorem agreed_of_fair {w : World} {request : RwPacket}
    (hone : (request.options.filterMap (blksizeAnswer w.mtu)).length ≤ 1)
    (hone' : (request.options.filterMap timeoutAnswer).length ≤ 1)
    (hfair : ∀ opt ∈ request.options, isBlksize opt = true → FairBlksize w.mtu opt) :
    Agreed w request (processOptions w request (blank request.type)) where
  blksizeOnce := by
    rw [answers_blksize, List.length_map]
    exact hone
  timeoutOnce := by
    rw [answers_timeout, List.length_map]
    exact hone'
  blksize := by
    intro value hvalue
    rw [answers_blksize, List.mem_map] at hvalue
    obtain ⟨a, ha, rfl⟩ := hvalue
    obtain ⟨opt, hopt, hans⟩ := List.mem_filterMap.mp ha
    have hname := (blksizeAnswer_eq_some.mp hans).1
    obtain ⟨htext, hlow, hhigh, hmtu, hasked⟩ := (hfair opt hopt hname).answer hans
    rw [blockSize_of_answer ha hone]
    exact ⟨htext, hlow, hhigh, hmtu, opt, hopt, hname, hasked⟩
  timeout := by
    intro value hvalue
    rw [answers_timeout, List.mem_map] at hvalue
    obtain ⟨t, ht, rfl⟩ := hvalue
    obtain ⟨opt, hopt, hans⟩ := List.mem_filterMap.mp ht
    obtain ⟨hname, hval, hlo, hhi⟩ := timeoutAnswer_eq_some.mp hans
    rw [timeoutS_of_answer ht hone' hhi]
    exact ⟨rfl, hlo, hhi, opt, hopt, hname, hval⟩
  noBlksize := by
    intro hnone
    rw [answers_blksize, List.map_eq_nil_iff] at hnone
    rw [(blksize_processOptions w request (blank request.type)).1, hnone]
    rfl
  noTimeout := by
    intro hnone
    rw [answers_timeout, List.map_eq_nil_iff] at hnone
    rw [(timeout_processOptions w request (blank request.type)).1, hnone]
    rfl

/-- What is acknowledged is what is in force if and only if at most one block size and one
timeout are taken up and the block size is a fair one. -/
theorem agreed_iff (w : World) (request : RwPacket) :
    Agreed w request (processOptions w request (blank request.type)) ↔
      (request.options.countP fun opt ↦ isBlksize opt && (stoull opt.2).isSome) ≤ 1 ∧
      (request.options.countP fun opt ↦
        isTimeout opt && (stoull opt.2).any fun t ↦ 1 ≤ t && t ≤ 255) ≤ 1 ∧
      ∀ opt ∈ request.options, isBlksize opt = true → FairBlksize w.mtu opt := by
  have hlen := @List.length_filterMap_eq_countP _ _ (blksizeAnswer w.mtu) request.options
  have hlen' := @List.length_filterMap_eq_countP _ _ timeoutAnswer request.options
  simp only [isSome_blksizeAnswer] at hlen
  simp only [isSome_timeoutAnswer] at hlen'
  rw [← hlen, ← hlen']
  constructor
  · exact Agreed.fair
  · rintro ⟨hone, hone', hfair⟩
    exact agreed_of_fair hone hone' hfair

/-- The block size 2³² + 8 is answered as it was asked for, and 8 is in force. -/
theorem agreed_truncated :
    (processOptions {} { options := [(str "BLKSIZE", str "4294967304")] } (blank .read)).blockSize =
        8 ∧
      (processOptions {} { options := [(str "BLKSIZE", str "4294967304")] }
        (blank .read)).oackPacket.options = [(str "BLKSIZE", str "4294967304")] ∧
      ¬Agreed {} { options := [(str "BLKSIZE", str "4294967304")] }
        (processOptions {} { options := [(str "BLKSIZE", str "4294967304")] } (blank .read)) := by
  refine ⟨by decide, by decide, ?_⟩
  intro h
  have hanswer := (h.blksize (str "4294967304") (by decide)).1
  exact absurd hanswer (by decide)

end CppTftp.TftpServerConnection
