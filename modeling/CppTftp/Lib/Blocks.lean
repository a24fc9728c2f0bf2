import Mathlib.Data.List.Basic

/-!
# Cutting a list into blocks

Blocks are counted from one. Every block but the last has exactly `size` elements;
the last one is shorter, and is empty when `size` divides the length.
-/

namespace CppTftp.Lib

universe u

variable {α : Type u}

/-- The `n`-th block of `size` elements. -/
def block (size : Nat) (xs : List α) (n : Nat) : List α := (xs.drop ((n - 1) * size)).take size

/-- How many blocks there are, the short last one included. -/
def blockCount (size : Nat) (xs : List α) : Nat := xs.length / size + 1

/-- All blocks in order. -/
def blocks (size : Nat) (xs : List α) : List (List α) :=
  (List.range (blockCount size xs)).map fun i ↦ block size xs (i + 1)

/-- A block after the first `k` starts where these end. -/
theorem block_succ (size : Nat) (xs : List α) (k : Nat) :
    block size xs (k + 1) = (xs.drop (k * size)).take size := rfl

/-- The length of a block. -/
theorem length_block_succ (size : Nat) (xs : List α) (k : Nat) :
    (block size xs (k + 1)).length = min size (xs.length - k * size) := by
  rw [block_succ, List.length_take, List.length_drop]

/-- The elements of a block are the list's, counted from where the block starts. -/
theorem getElem?_block_succ (size : Nat) (xs : List α) (k i : Nat) :
    (block size xs (k + 1))[i]? = if i < size then xs[k * size + i]? else none := by
  rw [block_succ, List.getElem?_take, List.getElem?_drop]

/-- The blocks are the numbered ones up to their count. -/
theorem forall_mem_blocks {size : Nat} {xs : List α} {P : List α → Prop} :
    (∀ b ∈ blocks size xs, P b) ↔ ∀ k < blockCount size xs, P (block size xs (k + 1)) := by
  simp [blocks]

/-- There is at least one block. -/
theorem blockCount_pos (size : Nat) (xs : List α) : 0 < blockCount size xs := Nat.succ_pos _

/-- Block `k + 1` exists exactly when the blocks before it do not run past the end. -/
theorem lt_blockCount_iff {size : Nat} (hs : 0 < size) (xs : List α) (k : Nat) :
    k < blockCount size xs ↔ k * size ≤ xs.length := by
  rw [blockCount, Nat.lt_succ_iff, Nat.le_div_iff_mul_le hs]

/-- A block is short exactly when it is the last one or lies past it. -/
theorem length_block_lt_iff {size : Nat} (hs : 0 < size) (xs : List α) (k : Nat) :
    (block size xs (k + 1)).length < size ↔ blockCount size xs ≤ k + 1 := by
  have hk := lt_blockCount_iff hs xs (k + 1)
  rw [Nat.succ_mul] at hk
  rw [length_block_succ]
  omega

/-- No block is longer than `size`. -/
theorem length_block_le (size : Nat) (xs : List α) (n : Nat) :
    (block size xs n).length ≤ size := by
  rw [block, List.length_take]
  exact Nat.min_le_left _ _

/-- Nor is one longer than the first. -/
theorem length_block_le_one (size : Nat) (xs : List α) (n : Nat) :
    (block size xs n).length ≤ (block size xs 1).length := by
  rw [block, block, List.length_take, List.length_take, List.length_drop, List.length_drop]
  omega

/-- The first block is as long as `size` and the list allow. -/
theorem length_block_one (size : Nat) (xs : List α) :
    (block size xs 1).length = min size xs.length := by
  rw [length_block_succ, Nat.zero_mul, Nat.sub_zero]

/-- Appending the next block to what the first `k` cover. -/
theorem take_append_block (size : Nat) (xs : List α) (k : Nat) :
    xs.take (k * size) ++ block size xs (k + 1) = xs.take ((k + 1) * size) := by
  rw [block_succ, Nat.succ_mul, List.take_add]

/-- Up to and including the last block everything is covered. -/
theorem take_blockCount {size : Nat} (hs : 0 < size) (xs : List α) :
    xs.take (blockCount size xs * size) = xs := by
  apply List.take_of_length_le
  have h := mt (lt_blockCount_iff hs xs (blockCount size xs)).mpr (Nat.lt_irrefl _)
  omega

/-- What is left after a block is what the next one starts with. -/
theorem drop_drop_block (size : Nat) (xs : List α) (k : Nat) :
    (xs.drop (k * size)).drop size = xs.drop ((k + 1) * size) := by
  rw [List.drop_drop, Nat.succ_mul]

/-- The first `k` blocks in order are a prefix of the list. -/
theorem flatten_blocks_prefix (size : Nat) (xs : List α) (k : Nat) :
    ((List.range k).map fun i ↦ block size xs (i + 1)).flatten = xs.take (k * size) := by
  induction k with
  | zero => simp
  | succ k ih =>
    rw [List.range_succ, List.map_append, List.flatten_append, ih, List.map_singleton,
      List.flatten_singleton, take_append_block]

/-- The blocks put together again are the list. -/
theorem flatten_blocks {size : Nat} (hs : 0 < size) (xs : List α) :
    (blocks size xs).flatten = xs := by
  rw [blocks, flatten_blocks_prefix, take_blockCount hs]

/-- A list shorter than a block is its own only block. -/
theorem block_one_of_length_lt {size : Nat} {xs : List α} (h : xs.length < size) :
    block size xs 1 = xs := by
  simpa [block] using List.take_of_length_le (Nat.le_of_lt h)

/-- A list shorter than a block has one block. -/
theorem blockCount_of_length_lt {size : Nat} {xs : List α} (h : xs.length < size) :
    blockCount size xs = 1 := by
  rw [blockCount, Nat.div_eq_of_lt h]

/-- A list shorter than a block is one block. -/
theorem blocks_of_length_lt {size : Nat} {xs : List α} (h : xs.length < size) :
    blocks size xs = [xs] := by
  rw [blocks, blockCount_of_length_lt h]
  simp [block_one_of_length_lt h]

/-- Any other list is a full block and the blocks of the rest. -/
theorem blocks_of_le {size : Nat} (hs : 0 < size) {xs : List α} (h : size ≤ xs.length) :
    blocks size xs = xs.take size :: blocks size (xs.drop size) := by
  have hcount : blockCount size xs = blockCount size (xs.drop size) + 1 := by
    rw [blockCount, blockCount, List.length_drop, ← Nat.div_eq_sub_div hs h]
  rw [blocks, hcount, List.range_succ_eq_map, List.map_cons, List.map_map]
  congr 1
  · simp [block]
  · rw [blocks]
    apply List.map_congr_left
    intro i _
    simp only [Function.comp_apply, block_succ, List.drop_drop]
    rw [Nat.succ_mul, Nat.add_comm]

/-- The full blocks and what is left of the list behind them. -/
theorem blocks_eq_append {size : Nat} (hs : 0 < size) (xs : List α) :
    blocks size xs = ((List.range (xs.length / size)).map fun i ↦ block size xs (i + 1)) ++
      [xs.drop (xs.length / size * size)] := by
  rw [blocks, blockCount, List.range_succ, List.map_append, List.map_singleton, block_succ]
  congr 2
  apply List.take_of_length_le
  have hmod := Nat.div_add_mod' xs.length size
  have hlt := Nat.mod_lt xs.length hs
  rw [List.length_drop]
  omega

/-- A full block is full. -/
theorem length_full_block {size : Nat} (hs : 0 < size) {xs : List α} {k : Nat}
    (h : k < xs.length / size) : (block size xs (k + 1)).length = size := by
  have hcovered : (k + 1) * size ≤ xs.length := (Nat.le_div_iff_mul_le hs).mp h
  rw [Nat.succ_mul] at hcovered
  rw [length_block_succ]
  omega

/-- Blocks as a receiver expects them: all but the last are full, the last is not, and together
they are the stream. -/
structure Framed (size : Nat) (stream : List α) (bs : List (List α)) : Prop where
  full : ∀ b ∈ bs.dropLast, b.length = size
  short : ∃ last ∈ bs.getLast?, last.length < size
  flatten : bs.flatten = stream

/-- The frame of blocks with a last one. -/
theorem framed_concat_iff {size : Nat} {stream last : List α} {bs : List (List α)} :
    Framed size stream (bs ++ [last]) ↔
      (∀ b ∈ bs, b.length = size) ∧ last.length < size ∧ bs.flatten ++ last = stream := by
  have hflat : (bs ++ [last]).flatten = bs.flatten ++ last := by simp
  constructor
  · rintro ⟨hfull, ⟨b, hb, hshort⟩, hstream⟩
    rw [List.dropLast_concat] at hfull
    rw [List.getLast?_concat, Option.mem_some_iff] at hb
    rw [← hb] at hshort
    exact ⟨hfull, hshort, hflat ▸ hstream⟩
  · rintro ⟨hfull, hshort, hstream⟩
    refine ⟨?_, ⟨last, ?_, hshort⟩, hflat.trans hstream⟩
    · rw [List.dropLast_concat]
      exact hfull
    · rw [List.getLast?_concat, Option.mem_some_iff]

/-- The frame of blocks with a first one. -/
theorem framed_cons_iff {size : Nat} {b : List α} {bs : List (List α)} :
    Framed size (b :: bs).flatten (b :: bs) ↔
      b.length < size ∧ bs = [] ∨ b.length = size ∧ Framed size bs.flatten bs := by
  cases bs with
  | nil =>
    constructor
    · rintro ⟨-, ⟨last, hlast, hshort⟩, -⟩
      obtain rfl := Option.some.inj hlast
      exact .inl ⟨hshort, rfl⟩
    · rintro (⟨hshort, -⟩ | ⟨-, -, ⟨last, hlast, -⟩, -⟩)
      · exact ⟨fun x hx ↦ absurd hx List.not_mem_nil, ⟨b, rfl, hshort⟩, rfl⟩
      · cases hlast
  | cons b' bs =>
    constructor
    · rintro ⟨hfull, hshort, -⟩
      rw [List.dropLast_cons_cons] at hfull
      rw [List.getLast?_cons_cons] at hshort
      exact .inr ⟨hfull b List.mem_cons_self,
        fun x hx ↦ hfull x (List.mem_cons_of_mem b hx), hshort, rfl⟩
    · rintro (⟨-, h⟩ | ⟨hb, hfull, hshort, -⟩)
      · cases h
      · refine ⟨?_, ?_, rfl⟩
        · rw [List.dropLast_cons_cons]
          exact List.forall_mem_cons.mpr ⟨hb, hfull⟩
        · rw [List.getLast?_cons_cons]
          exact hshort

end CppTftp.Lib
