import CppTftp.Common.TftpReadFile
import CppTftp.Common.TftpWriteFile

/-!
# Netascii across block boundaries

The encoder keeps what does not fit for the next block; the decoders see one block at a time.
A transfer therefore arrives whole exactly when no block boundary falls between the two bytes
of an encoded line feed or carriage return.
-/

namespace CppTftp

open Utils Lib

/-! ### Reading a whole file -/

/-- The blocks of successive calls of `read_in_to`, up to and including the first short one. -/
inductive ReadBlocks (size : Nat) : TftpReadFile → List Bytes → Prop
  | last {r r' : TftpReadFile} {data : Bytes} :
      r.readInTo size = .ok (data, r') → data.length < size → ReadBlocks size r [data]
  | more {r r' : TftpReadFile} {data : Bytes} {rest : List Bytes} :
      r.readInTo size = .ok (data, r') → ¬data.length < size → ReadBlocks size r' rest →
      ReadBlocks size r (data :: rest)

/-- Reading a whole file cuts what is pending into blocks, in one way only. -/
theorem readBlocks_iff {size : Nat} (hsize : 0 < size) {r : TftpReadFile} (hr : r.Ready size)
    (hs : r.Sound) (bs : List Bytes) : ReadBlocks size r bs ↔ bs = blocks size r.pending := by
  generalize hp : r.pending = stream
  induction hn : stream.length using Nat.strongRecOn generalizing r stream bs with
  | ind n ih =>
    obtain ⟨data, r', hread, hdel, hsound⟩ := TftpReadFile.readInTo_spec hr
    have hd := hdel (hsound hs).1
    have hdata : data = stream.take size := hp ▸ hd.data_eq
    have hpend : r'.pending = stream.drop size := hp ▸ hd.pending_eq
    by_cases hlen : stream.length < size
    · have hshort : data.length < size := by
        rw [hdata, List.length_take]
        omega
      have hwhole : data = stream := hdata.trans (List.take_of_length_le (Nat.le_of_lt hlen))
      rw [blocks_of_length_lt hlen]
      constructor
      · intro h
        cases h with
        | last h' _ =>
          rw [hread] at h'
          cases h'
          rw [hwhole]
        | more h' hfull _ =>
          rw [hread] at h'
          cases h'
          exact absurd hshort hfull
      · rintro rfl
        rw [← hwhole]
        exact .last hread hshort
    · have hfull : ¬data.length < size := by
        rw [hdata, List.length_take]
        omega
      have hless : (stream.drop size).length < n := by
        rw [List.length_drop]
        omega
      have hrest := fun bs ↦ ih _ hless hd.ready (hsound hs).2 bs _ hpend rfl
      rw [blocks_of_le hsize (Nat.not_lt.mp hlen), ← hdata]
      constructor
      · intro h
        cases h with
        | last h' hshort =>
          rw [hread] at h'
          cases h'
          exact absurd hshort hfull
        | more h' _ hmore =>
          rw [hread] at h'
          cases h'
          rw [(hrest _).mp hmore]
      · rintro rfl
        exact .more hread hfull ((hrest _).mpr rfl)

/-- A file read from its start in NETASCII mode gives the blocks of its encoding. -/
theorem readBlocks_openFile_iff {size : Nat} (hsize : 0 < size) (file : Bytes)
    (bs : List Bytes) :
    ReadBlocks size (({} : TftpReadFile).openFile (some { bytes := file }) .netascii) bs ↔
      bs = blocks size (nativeToNetascii file) := by
  obtain ⟨hready, hpend⟩ := TftpReadFile.ready_openFile {} { bytes := file } .netascii size rfl
  have hsound : (({} : TftpReadFile).openFile (some { bytes := file }) .netascii).Sound := by
    intro f hf
    cases hf
    rfl
  rw [readBlocks_iff hsize hready hsound, hpend, transferStream_netascii]

/-! ### Decoding block by block -/

/-- Every block decoded for itself, as `tftp_client.cpp:99–103` does, and put together. -/
def decodeBlocks : List Bytes → Except Stop Bytes
  | [] => .ok []
  | b :: bs =>
    match netasciiToNative b with
    | .error stop => .error stop
    | .ok native => (native ++ ·) <$> decodeBlocks bs

/-- Every block handed to `tftp_write_file::write`. -/
def writeBlocks (w : TftpWriteFile) : List Bytes → Except Stop TftpWriteFile
  | [] => .ok w
  | b :: bs =>
    match w.write b with
    | .error stop => .error stop
    | .ok w' => writeBlocks w' bs

/-- Blocks that decode one by one decode together to the same bytes. -/
theorem netasciiToNative_flatten {bs : List Bytes} {x : Bytes} (h : decodeBlocks bs = .ok x) :
    netasciiToNative bs.flatten = .ok x := by
  induction bs generalizing x with
  | nil => exact h
  | cons b bs ih =>
    rw [decodeBlocks] at h
    cases hb : netasciiToNative b with
    | error stop => simp [hb] at h
    | ok y =>
      rw [hb] at h
      dsimp only at h
      cases hbs : decodeBlocks bs with
      | error stop => simp [hbs, Functor.map, Except.map] at h
      | ok z =>
        rw [hbs] at h
        cases h
        rw [List.flatten_cons, netasciiToNative_append hb, ih hbs]
        rfl

/-- All blocks decode exactly when each is well paired. -/
theorem decodeBlocks_ok_iff (bs : List Bytes) :
    (∃ x, decodeBlocks bs = .ok x) ↔ ∀ b ∈ bs, WellPaired b := by
  induction bs with
  | nil => simp [decodeBlocks]
  | cons b bs ih =>
    rw [List.forall_mem_cons, ← ih, ← accepted_iff, Accepted, decodeBlocks]
    cases netasciiToNative b with
    | error stop => simp
    | ok y => cases decodeBlocks bs <;> simp [Functor.map, Except.map]

private theorem nativePayload_netascii {mode : Mode} (hm : mode = .netascii) (b : Bytes) :
    nativePayload mode b = netasciiToNative b := by
  rw [nativePayload, hm]
  rfl

private theorem decodeBlocks_cons (b : Bytes) (bs : List Bytes) :
    decodeBlocks (b :: bs) =
      match netasciiToNative b with
      | .error stop => .error stop
      | .ok native => (native ++ ·) <$> decodeBlocks bs := rfl

/-- Writing blocks that decode appends what they decode to. -/
theorem writeBlocks_of_ok {w : TftpWriteFile} (h : w.Good) (hm : w.mode = .netascii)
    {bs : List Bytes} {x : Bytes} (hx : decodeBlocks bs = .ok x) :
    ∃ w', writeBlocks w bs = .ok w' ∧ w'.taken = w.taken ++ x := by
  induction bs generalizing w x with
  | nil =>
    cases hx
    exact ⟨w, rfl, (List.append_nil _).symm⟩
  | cons b bs ih =>
    rw [decodeBlocks_cons] at hx
    cases hb : netasciiToNative b with
    | error stop => simp [hb] at hx
    | ok y =>
      cases hbs : decodeBlocks bs with
      | error stop => simp [hb, hbs, Functor.map, Except.map] at hx
      | ok z =>
        rw [hb, hbs] at hx
        cases hx
        obtain ⟨w₁, hw₁, hg, -, hm₁, ht⟩ :=
          TftpWriteFile.write_of_good h ((nativePayload_netascii hm b).trans hb)
        obtain ⟨w', hw', ht'⟩ := ih hg (hm₁.trans hm) hbs
        refine ⟨w', ?_, ?_⟩
        · rw [writeBlocks, hw₁]
          exact hw'
        · rw [ht', ht, List.append_assoc]

/-- Writing blocks of which one does not decode throws. -/
theorem writeBlocks_of_error {w : TftpWriteFile} (h : w.Good) (hm : w.mode = .netascii)
    {bs : List Bytes} {stop : Stop} (hx : decodeBlocks bs = .error stop) :
    writeBlocks w bs = .error stop := by
  induction bs generalizing w with
  | nil => cases hx
  | cons b bs ih =>
    rw [decodeBlocks_cons] at hx
    cases hb : netasciiToNative b with
    | error stop' =>
      rw [hb] at hx
      cases hx
      have hpayload := (nativePayload_netascii hm b).trans hb
      rw [writeBlocks, TftpWriteFile.write_of_not_decodable hpayload]
    | ok y =>
      cases hbs : decodeBlocks bs with
      | ok z => simp [hb, hbs, Functor.map, Except.map] at hx
      | error stop' =>
        rw [hb, hbs] at hx
        cases hx
        obtain ⟨w₁, hw₁, hg, -, hm₁, -⟩ :=
          TftpWriteFile.write_of_good h ((nativePayload_netascii hm b).trans hb)
        rw [writeBlocks, hw₁]
        exact ih hg (hm₁.trans hm) hbs

/-- Writing block by block does what decoding block by block says. -/
theorem writeBlocks_iff {w : TftpWriteFile} (h : w.Good) (hm : w.mode = .netascii)
    (bs : List Bytes) (x : Bytes) :
    (∃ w', writeBlocks w bs = .ok w' ∧ w'.taken = w.taken ++ x) ↔ decodeBlocks bs = .ok x := by
  cases hbs : decodeBlocks bs with
  | error stop => simp [writeBlocks_of_error h hm hbs]
  | ok z =>
    obtain ⟨w', hw', ht⟩ := writeBlocks_of_ok h hm hbs
    simp [hw', ht]

/-! ### Where the pairs fall -/

/-- The encoded offset of the `i`-th byte of a file. -/
def netasciiOffset (file : Bytes) (i : Nat) : Nat :=
  i + (file.take i).countP fun c ↦ c = CR || c = LF

/-- A pair of the file starts at this encoded offset. -/
def PairAt (file : Bytes) (p : Nat) : Prop :=
  ∃ i c, file[i]? = some c ∧ (c = CR ∨ c = LF) ∧ netasciiOffset file i = p

/-- A block boundary falls between the two bytes of an encoded line feed or carriage return. -/
def SplitsPair (size : Nat) (file : Bytes) : Prop :=
  ∃ i c, file[i]? = some c ∧ (c = CR ∨ c = LF) ∧ size ∣ netasciiOffset file i + 1

private theorem splitsPair_iff (size : Nat) (file : Bytes) :
    SplitsPair size file ↔ ∃ p, PairAt file p ∧ size ∣ p + 1 := by
  constructor
  · rintro ⟨i, c, hi, hc, hd⟩
    exact ⟨_, ⟨i, c, hi, hc, rfl⟩, hd⟩
  · rintro ⟨p, ⟨i, c, hi, hc, rfl⟩, hd⟩
    exact ⟨i, c, hi, hc, hd⟩

private theorem netasciiOffset_succ (c : UInt8) (file : Bytes) (i : Nat) :
    netasciiOffset (c :: file) (i + 1) =
      netasciiOffset file i + if c = CR ∨ c = LF then 2 else 1 := by
  rw [netasciiOffset, netasciiOffset, List.take_succ_cons, List.countP_cons]
  by_cases h : c = CR ∨ c = LF
  · simp [h]
    omega
  · simp [h]
    omega

private theorem pairAt_cons (c : UInt8) (file : Bytes) (p : Nat) :
    PairAt (c :: file) p ↔ (c = CR ∨ c = LF) ∧ p = 0 ∨
      ∃ q, PairAt file q ∧ q + (if c = CR ∨ c = LF then 2 else 1) = p := by
  constructor
  · rintro ⟨i, c', hi, hc, ho⟩
    cases i with
    | zero =>
      cases hi
      exact .inl ⟨hc, ho.symm⟩
    | succ i =>
      rw [netasciiOffset_succ] at ho
      exact .inr ⟨_, ⟨i, c', hi, hc, rfl⟩, ho⟩
  · rintro (⟨hc, rfl⟩ | ⟨q, ⟨i, c', hi, hc, rfl⟩, hq⟩)
    · exact ⟨0, c, rfl, hc, rfl⟩
    · exact ⟨i + 1, c', hi, hc, (netasciiOffset_succ c file i).trans hq⟩

private theorem pairAt_special {c : UInt8} (hc : c = CR ∨ c = LF) (file : Bytes) (p : Nat) :
    PairAt (c :: file) p ↔ p = 0 ∨ ∃ q, PairAt file q ∧ q + 2 = p := by
  simp [pairAt_cons, hc]

private theorem pairAt_ordinary {c : UInt8} (hc : ¬(c = CR ∨ c = LF)) (file : Bytes) (p : Nat) :
    PairAt (c :: file) p ↔ ∃ q, PairAt file q ∧ q + 1 = p := by
  simp [pairAt_cons, hc]

/-- The carriage returns of an encoded file are the first bytes of its pairs. -/
theorem getElem?_nativeToNetascii_eq_CR_iff (file : Bytes) (p : Nat) :
    (nativeToNetascii file)[p]? = some CR ↔ PairAt file p := by
  induction file generalizing p with
  | nil => simp [PairAt]
  | cons c file ih =>
    by_cases hc : c = CR ∨ c = LF
    · -- both pairs have two bytes, and the second one is no carriage return
      have hpair : ∃ d, nativeToNetascii (c :: file) = CR :: d :: nativeToNetascii file ∧
          d ≠ CR := by
        rw [nativeToNetascii]
        rcases hc with rfl | rfl
        · exact ⟨0, rfl, by decide⟩
        · exact ⟨LF, rfl, by decide⟩
      obtain ⟨d, hd, hne⟩ := hpair
      rw [hd, pairAt_special hc]
      rcases p with - | - | p
      · simp
      · simp [hne]
      · simp [ih]
    · have hsame : nativeToNetascii (c :: file) = c :: nativeToNetascii file := by
        rw [nativeToNetascii, if_neg fun h ↦ hc (.inr h), if_neg fun h ↦ hc (.inl h)]
      rw [hsame, pairAt_ordinary hc]
      cases p with
      | zero => simp [show c ≠ CR from fun h ↦ hc (.inl h)]
      | succ p => simp [ih]

/-- Every block of a well-paired stream is well paired exactly when no block ends with a
carriage return. -/
theorem wellPaired_blocks_iff {size : Nat} (hsize : 0 < size) {stream : Bytes}
    (h : WellPaired stream) :
    (∀ b ∈ blocks size stream, WellPaired b) ↔ ∀ p, stream[p]? = some CR → ¬size ∣ p + 1 := by
  rw [forall_mem_blocks]
  constructor
  · intro hb p hp hdvd
    -- the block with that carriage return ends with it
    obtain ⟨k, hk⟩ := hdvd
    have hk0 : 0 < k := by
      apply Nat.pos_of_ne_zero
      rintro rfl
      omega
    obtain ⟨n, rfl⟩ := Nat.exists_eq_add_of_le' hk0
    rw [Nat.mul_succ, Nat.mul_comm] at hk
    have hlt : p < stream.length := (List.getElem?_eq_some_iff.mp hp).1
    have hn : n < blockCount size stream := by
      rw [lt_blockCount_iff hsize]
      omega
    have hat : (block size stream (n + 1))[size - 1]? = some CR := by
      rw [getElem?_block_succ, if_pos (by omega), ← hp]
      congr 1
      omega
    have hnext := hb n hn (size - 1) hat
    rw [getElem?_block_succ, if_neg (by omega)] at hnext
    simp at hnext
  · intro hp n _ i hi
    rw [getElem?_block_succ] at hi
    split at hi
    · next hlt =>
      have hnot := hp _ hi
      have hin : i + 1 < size := by
        apply Nat.lt_of_le_of_ne hlt
        intro he
        have he : i + 1 = size := he
        apply hnot
        rw [Nat.add_assoc, he, ← Nat.succ_mul]
        exact Nat.dvd_mul_left size (n + 1)
      rw [getElem?_block_succ, if_pos hin, ← Nat.add_assoc]
      exact h _ hi
    · cases hi

/-- A file read in NETASCII mode arrives whole, at the client and at the file writer, if and
only if no block boundary splits a pair. -/
theorem netascii_blocks_iff {size : Nat} (hsize : 0 < size) (file : Bytes) {w : TftpWriteFile}
    (hw : w.Good) (hm : w.mode = .netascii) {bs : List Bytes}
    (hbs : ReadBlocks size (({} : TftpReadFile).openFile (some { bytes := file }) .netascii) bs) :
    (decodeBlocks bs = .ok file ↔ ¬SplitsPair size file) ∧
    ((∃ w', writeBlocks w bs = .ok w' ∧ w'.taken = w.taken ++ file) ↔
      ¬SplitsPair size file) := by
  rw [readBlocks_openFile_iff hsize] at hbs
  have hpaired : WellPaired (nativeToNetascii file) :=
    (accepted_iff _).mp ⟨file, netasciiToNative_nativeToNetascii file⟩
  have hsplit : (∃ x, decodeBlocks bs = .ok x) ↔ ¬SplitsPair size file := by
    rw [decodeBlocks_ok_iff, hbs, wellPaired_blocks_iff hsize hpaired, splitsPair_iff]
    simp only [getElem?_nativeToNetascii_eq_CR_iff, not_exists, not_and]
  have hdecode : decodeBlocks bs = .ok file ↔ ¬SplitsPair size file := by
    rw [← hsplit]
    constructor
    · intro h
      exact ⟨file, h⟩
    · rintro ⟨x, hx⟩
      have hwhole := netasciiToNative_flatten hx
      rw [hbs, flatten_blocks hsize, netasciiToNative_nativeToNetascii] at hwhole
      rw [hx, hwhole]
  rw [writeBlocks_iff hw hm]
  exact ⟨hdecode, hdecode⟩

/-- A line feed in blocks of two bytes is not split. -/
theorem netascii_blocks_whole : decodeBlocks [[13, 10], []] = .ok [10] := by
  have hsize : 0 < 2 := by decide
  have hread := (readBlocks_openFile_iff hsize [10] [[13, 10], []]).mpr rfl
  have hgood : (({} : TftpWriteFile).openFile (some {}) .netascii).Good :=
    TftpWriteFile.good_openFile _ (by decide) _
  apply (netascii_blocks_iff hsize [10] hgood rfl hread).1.mpr
  rintro ⟨i, c, hi, -, hd⟩
  match i with
  | 0 => exact absurd hd (by decide)
  | i + 1 => cases hi

/-- A line feed in blocks of one byte is split, and the first block throws at both ends. -/
theorem netascii_blocks_split :
    ReadBlocks 1 (({} : TftpReadFile).openFile (some { bytes := [10] }) .netascii)
      [[13], [10], []] ∧
    decodeBlocks [[13], [10], []] =
      .error (.exception "Invalid character sequence : EOL after CR") ∧
    writeBlocks (({} : TftpWriteFile).openFile (some {}) .netascii) [[13], [10], []] =
      .error (.exception "Invalid character sequence : EOL after CR") :=
  ⟨(readBlocks_openFile_iff (by decide) _ _).mpr rfl, rfl, rfl⟩

end CppTftp
