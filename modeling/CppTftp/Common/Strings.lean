import CppTftp.Common.Tftp
import CppTftp.Lib.Terminated

/-!
# The strings of a buffer

`utils::extract_c_strings_from_buffer` gives the strings that are followed by a null byte. What
stands behind the last null byte is no string.
-/

namespace CppTftp.Utils

open Tftp Lib

/-- The strings extracted are the terminated ones. -/
theorem cStrings_of_splitsAs {rest tail : Bytes} {strings : List Bytes}
    (h : SplitsAs 0 rest strings tail) : cStrings rest = strings := by
  induction strings generalizing rest with
  | nil =>
    rw [h.eq, terminated_nil, List.nil_append]
    exact cStrings_of_not_mem h.tail
  | cons s strings ih =>
    have hrest : SplitsAs 0 (terminated 0 strings ++ tail) strings tail :=
      ⟨rfl, fun t ht ↦ h.strings t (List.mem_cons_of_mem s ht), h.tail⟩
    rw [h.eq, terminated_cons, List.append_assoc, List.cons_append,
      cStrings_append (h.strings s List.mem_cons_self), ih hrest]

/-- Whatever the bytes, they are the strings extracted and an unterminated tail. -/
theorem exists_tail (rest : Bytes) : ∃ tail, SplitsAs 0 rest (cStrings rest) tail := by
  obtain ⟨strings, tail, h⟩ := exists_splitsAs 0 rest
  refine ⟨tail, ?_⟩
  rw [cStrings_of_splitsAs h]
  exact h

/-- No string extracted holds a null byte. -/
theorem zero_not_mem_of_mem_cStrings {s rest : Bytes} (h : s ∈ cStrings rest) : 0 ∉ s := by
  obtain ⟨tail, hsplit⟩ := exists_tail rest
  exact hsplit.strings s h

/-- The strings extracted from an offset in the buffer, with their terminators, are what the
buffer holds from there up to a tail without null bytes; they are the only strings of which
this is true, and as many as there are null bytes. Both decoders that extract strings from
offset 2 give up before on a shorter buffer. -/
theorem extract_strings :
    (∀ (buffer : Bytes) (offset : Nat), offset ≤ buffer.length →
      ∃ skipped tail, skipped.length = offset ∧
        buffer = skipped ++ terminated 0 (extractCStringsFromBuffer buffer offset) ++ tail ∧
        (∀ s ∈ extractCStringsFromBuffer buffer offset, 0 ∉ s) ∧ 0 ∉ tail ∧
        (extractCStringsFromBuffer buffer offset).length = (buffer.drop offset).count 0 ∧
        ∀ strings tail', SplitsAs 0 (buffer.drop offset) strings tail' →
          strings = extractCStringsFromBuffer buffer offset ∧ tail' = tail) ∧
      ∀ data : Bytes, data.length < 2 →
        deserialiseRwPacket data = none ∧ deserialiseOackPacket data = none := by
  constructor
  · intro buffer offset hoffset
    obtain ⟨tail, h⟩ := exists_tail (buffer.drop offset)
    have hbuffer : buffer = buffer.take offset ++
        terminated 0 (extractCStringsFromBuffer buffer offset) ++ tail := by
      rw [List.append_assoc, extractCStringsFromBuffer, ← h.eq, List.take_append_drop]
    refine ⟨buffer.take offset, tail, ?_, hbuffer, h.strings, h.tail, h.length_eq, ?_⟩
    · rw [List.length_take]
      omega
    · intro strings tail' h'
      exact h'.unique h
  · intro data hshort
    constructor
    · rw [deserialiseRwPacket, if_pos (by omega)]
    · rw [deserialiseOackPacket, if_pos (.inl hshort)]

end CppTftp.Utils
