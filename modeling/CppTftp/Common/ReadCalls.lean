import CppTftp.Common.BlockCoding

/-!
# Successive calls of the file reader

What `read_in_to` returns when it is called again and again with one size, and what the reader
keeps between the calls.
-/

namespace CppTftp

open Utils Lib

namespace TftpReadFile

/-- Calls of `read_in_to` that returned, one after the other: the blocks they gave, and the
reader they left. -/
inductive ReadCalls (size : Nat) : TftpReadFile → List Bytes → TftpReadFile → Prop
  | none (r : TftpReadFile) : ReadCalls size r [] r
  | call {r r' r'' : TftpReadFile} {data : Bytes} {rest : List Bytes} :
      r.readInTo size = .ok (data, r') → ReadCalls size r' rest r'' →
      ReadCalls size r (data :: rest) r''

variable {size : Nat} {r r' r'' : TftpReadFile} {data : Bytes} {bs : List Bytes}

/-- Calls after other calls. -/
theorem ReadCalls.append {bs' : List Bytes} (h : ReadCalls size r bs r')
    (h' : ReadCalls size r' bs' r'') : ReadCalls size r (bs ++ bs') r'' := by
  induction h with
  | none r => exact h'
  | call hfirst _ ih => exact .call hfirst (ih h')

/-- One more call after the others. -/
theorem ReadCalls.concat (h : ReadCalls size r bs r') (hread : r'.readInTo size = .ok (data, r'')) :
    ReadCalls size r (bs ++ [data]) r'' := h.append (.call hread (.none r''))

/-- On a sound device every call gives the next block of what was pending at the start. -/
theorem ReadCalls.delivered (h : ReadCalls size r bs r') (hr : r.Ready size) (hs : r.Sound) :
    r'.Ready size ∧ r'.Sound ∧ r'.pending = r.pending.drop (bs.length * size) ∧
      bs = (List.range bs.length).map fun i ↦ block size r.pending (i + 1) := by
  induction h with
  | none r => simpa using ⟨hr, hs⟩
  | @call r r' r'' data rest hread _ ih =>
    obtain ⟨data₁, r₁, hread₁, hdel, hsound⟩ := readInTo_spec hr
    rw [hread] at hread₁
    cases hread₁
    have hd := hdel (hsound hs).1
    obtain ⟨hready, hsnd, hpend, hrest⟩ := ih hd.ready (hsound hs).2
    refine ⟨hready, hsnd, ?_, ?_⟩
    · rw [hpend, hd.pending_eq, List.drop_drop, List.length_cons, Nat.succ_mul, Nat.add_comm]
    · have hnext : ∀ i, block size r'.pending (i + 1) = block size r.pending (i + 1 + 1) := by
        intro i
        rw [block_succ, block_succ, hd.pending_eq, List.drop_drop, Nat.succ_mul, Nat.add_comm]
      have hfirst : data = block size r.pending (0 + 1) := by
        rw [hd.data_eq, block_succ, Nat.zero_mul, List.drop_zero]
      rw [List.length_cons, List.range_succ_eq_map, List.map_cons, List.map_map, ← hfirst]
      simp only [hnext] at hrest
      exact congrArg (data :: ·) hrest

/-- On a sound device there is always another call. -/
theorem exists_readCalls (hr : r.Ready size) (hs : r.Sound) (n : Nat) :
    ∃ bs r', ReadCalls size r bs r' ∧ bs.length = n := by
  induction n with
  | zero => exact ⟨[], r, .none r, rfl⟩
  | succ n ih =>
    obtain ⟨bs, r', h, hlen⟩ := ih
    obtain ⟨hready, -⟩ := h.delivered hr hs
    obtain ⟨data, r'', hread, -⟩ := readInTo_spec hready
    refine ⟨bs ++ [data], r'', h.concat hread, ?_⟩
    rw [List.length_append, hlen, List.length_singleton]

/-- The last of several calls. -/
theorem ReadCalls.split (h : ReadCalls size r (bs ++ [data]) r') :
    ∃ r₁, ReadCalls size r bs r₁ ∧ r₁.readInTo size = .ok (data, r') := by
  induction bs generalizing r with
  | nil =>
    cases h with
    | call hread hnone =>
      cases hnone
      exact ⟨r, .none r, hread⟩
  | cons b bs ih =>
    cases h with
    | call hread hrest =>
      obtain ⟨r₁, hcalls, hlast⟩ := ih hrest
      exact ⟨r₁, .call hread hcalls, hlast⟩

/-- A call on a sound device that gives a short block is the last one that gives anything:
everything that was pending has been returned, and the reader is at its end. -/
theorem ReadCalls.ended (h : ReadCalls size r (bs ++ [data]) r') (hr : r.Ready size)
    (hs : r.Sound) (hshort : data.length < size) :
    (bs ++ [data]).flatten = r.pending ∧ r'.overflowBuffer = [] ∧ r'.eof = true := by
  have hsize : 0 < size := by omega
  obtain ⟨r₁, hcalls, hlast⟩ := h.split
  obtain ⟨hready, hsound, hpend, -⟩ := hcalls.delivered hr hs
  obtain ⟨-, -, -, hblocks⟩ := h.delivered hr hs
  obtain ⟨data₁, r₂, hread, hdel, herr⟩ := readInTo_spec hready
  rw [hlast] at hread
  cases hread
  have hend := ended_of_short hready hlast (herr hsound).1 hshort
  -- the block is short, so it is the last one of what was pending
  have hdata : data = block size r.pending (bs.length + 1) := by
    rw [(hdel (herr hsound).1).data_eq, hpend, block_succ]
  have hcount : blockCount size r.pending ≤ bs.length + 1 := by
    rw [← length_block_lt_iff hsize, ← hdata]
    exact hshort
  refine ⟨?_, hend⟩
  rw [hblocks, flatten_blocks_prefix]
  apply List.take_of_length_le
  have hcover := mt (lt_blockCount_iff hsize r.pending (bs.length + 1)).mpr (by omega)
  rw [List.length_append, List.length_singleton]
  omega

/-- A sound device gives as many whole blocks as there are, and then a short one. -/
theorem exists_readCalls_short (hsize : 0 < size) (hr : r.Ready size) (hs : r.Sound) :
    ∃ full last r', ReadCalls size r (full ++ [last]) r' ∧ (∀ b ∈ full, b.length = size) ∧
      last.length < size := by
  have hpos := blockCount_pos size r.pending
  obtain ⟨bs, r', h, hlen⟩ := exists_readCalls hr hs (blockCount size r.pending)
  obtain ⟨-, -, -, hblocks⟩ := h.delivered hr hs
  have hne : bs.length = (blockCount size r.pending - 1) + 1 := by omega
  rw [hne, List.range_succ, List.map_append, List.map_singleton] at hblocks
  rw [hblocks] at h
  refine ⟨_, _, r', h, ?_, ?_⟩
  · intro b hb
    rw [List.mem_map] at hb
    obtain ⟨i, hi, rfl⟩ := hb
    rw [List.mem_range] at hi
    have hle := length_block_le size r.pending (i + 1)
    have hnot := mt (length_block_lt_iff hsize r.pending i).mp (by omega)
    omega
  · rw [length_block_lt_iff hsize]
    omega

/-- Whatever the file, the mode and the size of the blocks: reading goes on in whole blocks until
one is short, these are the file or its netascii encoding, nothing is kept back then, and what
is kept back before always fits a block. -/
theorem read_calls_split (file : Bytes) (mode : Mode) (hsize : 1 ≤ size) :
    (∃ full last r', ReadCalls size (({} : TftpReadFile).openFile (some { bytes := file }) mode)
        (full ++ [last]) r' ∧ (∀ b ∈ full, b.length = size) ∧ last.length < size) ∧
      (∀ full last r',
        ReadCalls size (({} : TftpReadFile).openFile (some { bytes := file }) mode)
          (full ++ [last]) r' → (∀ b ∈ full, b.length = size) → last.length < size →
        (full ++ [last]).flatten = transferStream mode file ∧ r'.overflowBuffer = [] ∧
          r'.eof = true) ∧
      ∀ bs r', ReadCalls size (({} : TftpReadFile).openFile (some { bytes := file }) mode) bs r' →
        r'.overflowBuffer.length ≤ size ∧ ∃ data r'', r'.readInTo size = .ok (data, r'') := by
  obtain ⟨hready, hpend⟩ := ready_openFile {} { bytes := file } mode size rfl
  have hsound : (({} : TftpReadFile).openFile (some { bytes := file }) mode).Sound := by
    intro f hf
    cases hf
    rfl
  refine ⟨exists_readCalls_short hsize hready hsound, ?_, ?_⟩
  · intro full last r' h _ hshort
    rw [← hpend]
    exact h.ended hready hsound hshort
  · intro bs r' h
    obtain ⟨hready', -⟩ := h.delivered hready hsound
    obtain ⟨data, r'', hread, -⟩ := readInTo_spec hready'
    exact ⟨hready'.overflow, data, r'', hread⟩

/-- A carriage return in blocks of one byte: its encoding fills one block and waits for the
next one. -/
theorem read_calls_split_one :
    1 ≤ 1 ∧ ∃ full last r',
      ReadCalls 1 (({} : TftpReadFile).openFile (some { bytes := [13] }) .netascii)
        (full ++ [last]) r' ∧ (∀ b ∈ full, b.length = 1) ∧ last.length < 1 :=
  ⟨Nat.le_refl 1, (read_calls_split [13] .netascii (Nat.le_refl 1)).1⟩

end TftpReadFile
end CppTftp
