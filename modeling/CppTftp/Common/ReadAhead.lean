import CppTftp.Common.ReadCalls

/-!
# What the file reader keeps back

How much of a file is read in NETASCII mode by a number of calls of `read_in_to`, and what of its
encoding is still in the overflow buffer then. The device may fail at any point.
-/

namespace CppTftp

open Utils Lib

namespace TftpReadFile

/-- How many bytes of a file are asked for by a number of calls: each asks for what a block has
room for behind the bytes kept back by the calls before. -/
def asked (size : Nat) (file : Bytes) : Nat → Nat
  | 0 => 0
  | n + 1 =>
    asked size file n +
      (size - ((nativeToNetascii (file.take (asked size file n))).length - n * size))

/-- After `n` calls the reader has the encoding of what it asked for, less the blocks it gave. -/
structure Ahead (size : Nat) (file : Bytes) (n : Nat) (r : TftpReadFile) : Prop where
  mode : r.mode ≠ .octet
  opened : ∃ f, r.fd = some f ∧ f.left = file.drop (asked size file n) ∧
    (f.error = true ∨ f.eof = true → f.left = [])
  overflow : r.overflowBuffer =
    (nativeToNetascii (file.take (asked size file n))).drop (n * size)
  bounded : r.overflowBuffer.length ≤ size
  given : n * size ≤ (nativeToNetascii (file.take (asked size file n))).length ∨
    file.length ≤ asked size file n

variable {size n : Nat} {file : Bytes} {r r' : TftpReadFile} {data : Bytes} {bs : List Bytes}

/-- A call asks for the next bytes of the file. -/
theorem Ahead.call (h : Ahead size file n r) (hread : r.readInTo size = .ok (data, r')) :
    Ahead size file (n + 1) r' := by
  obtain ⟨f, hfd, hleft, hend⟩ := h.opened
  obtain ⟨data₁, r₁, hok, hmode, hfd', -, hover⟩ := @readInTo_netascii r f size hfd h.mode
  rw [hread] at hok
  cases hok
  rw [sizeSub_of_le h.bounded] at hfd' hover
  -- `encoded` is what was encoded before this call, and `piece` what this call reads
  generalize hencoded : nativeToNetascii (file.take (asked size file n)) = encoded
  have hkept : r.overflowBuffer = encoded.drop (n * size) := hencoded ▸ h.overflow
  have hkeptLength : r.overflowBuffer.length = encoded.length - n * size := by
    rw [hkept, List.length_drop]
  have hasked : asked size file (n + 1) =
      asked size file n + (size - r.overflowBuffer.length) := by
    rw [asked, hencoded, hkeptLength]
  have hgiven := h.given
  rw [hencoded] at hgiven
  obtain ⟨hdata, hleft', hend'⟩ := left_netasciiLoop (size - r.overflowBuffer.length) hend
  generalize netasciiLoop (size - r.overflowBuffer.length) f [] = out at *
  have htake : nativeToNetascii (file.take (asked size file (n + 1))) =
      encoded ++ nativeToNetascii out.1 := by
    rw [hasked, List.take_add, nativeToNetascii_append, hencoded, hdata, hleft]
  have hshort := length_nativeToNetascii_le out.1
  have hlong := length_le_length_nativeToNetascii out.1
  have hpiece : out.1.length = min (size - r.overflowBuffer.length)
      (file.length - asked size file n) := by
    rw [hdata, hleft, List.length_take, List.length_drop]
  have hbounded := h.bounded
  refine ⟨hmode ▸ h.mode, ⟨out.2, hfd', ?_, hend'⟩, ?_, ?_, ?_⟩
  · rw [hleft', hleft, hasked, List.drop_drop]
  · rw [htake, hover, hkept, Nat.succ_mul, ← List.drop_drop]
    rcases hgiven with hgiven | hall
    · rw [List.drop_append_of_le_length hgiven]
    · have hnothing : out.1 = [] := by
        rw [← List.length_eq_zero_iff, hpiece]
        omega
      rw [hnothing, nativeToNetascii_nil, List.append_nil, List.append_nil]
  · rw [hover, List.length_drop, List.length_append]
    omega
  · rw [htake, List.length_append, hasked, Nat.succ_mul]
    omega

/-- A file just opened. -/
theorem ahead_openFile (size : Nat) (contents : FileContents) :
    Ahead size contents.readable 0 (({} : TftpReadFile).openFile (some contents) .netascii) := by
  refine ⟨Mode.noConfusion, ⟨_, rfl, ?_, ?_⟩, ?_, Nat.zero_le _, .inl ?_⟩
  · rw [FileIn.left_fopen, asked, List.drop_zero]
  · rintro (h | h)
    · cases h
    · cases h
  · rw [asked, List.take_zero, nativeToNetascii_nil, List.drop_nil]
    rfl
  · rw [Nat.zero_mul]
    exact Nat.zero_le _

/-- Any number of calls. -/
theorem ReadCalls.ahead (h : ReadCalls size r bs r') (ha : Ahead size file n r) :
    Ahead size file (n + bs.length) r' := by
  induction h generalizing n with
  | none r => exact ha
  | call hread _ ih =>
    rw [List.length_cons, Nat.add_comm _ 1, ← Nat.add_assoc]
    exact ih (ha.call hread)

/-- In OCTET mode nothing is ever kept back. -/
theorem ReadCalls.octet (h : ReadCalls size r bs r') (hm : r.mode = .octet) :
    r'.overflowBuffer = r.overflowBuffer := by
  induction h with
  | none r => rfl
  | @call r r' r'' data rest hread _ ih =>
    obtain ⟨f, hfd⟩ : ∃ f, r.fd = some f := by
      cases hfd : r.fd with
      | none =>
        rw [readInTo, hfd] at hread
        cases hread
      | some f => exact ⟨f, rfl⟩
    rw [readInTo_octet hfd hm] at hread
    cases hread
    exact ih hm

/-- A file that was not opened is not read. -/
theorem ReadCalls.closed (h : ReadCalls size r bs r') (hfd : r.fd = Option.none) :
    bs = [] ∧ r' = r := by
  cases h with
  | none => exact ⟨rfl, rfl⟩
  | call hread =>
    rw [readInTo, hfd] at hread
    cases hread

/-- What can be read of a file, if there is one. -/
def readablePart (contents : Option FileContents) : Bytes :=
  (contents.map FileContents.readable).getD []

/-- Nothing is kept back after any number of calls if and only if the mode is OCTET, or the encoding
of what they asked for fits into the blocks that they gave. -/
theorem overflow_eq_nil_iff {contents : Option FileContents} {mode : Mode}
    (h : ReadCalls size (({} : TftpReadFile).openFile contents mode) bs r') :
    r'.overflowBuffer = [] ↔ mode = .octet ∨
      (nativeToNetascii ((readablePart contents).take
        (asked size (readablePart contents) bs.length))).length ≤ bs.length * size := by
  cases mode with
  | octet =>
    rw [h.octet rfl]
    exact iff_of_true rfl (.inl rfl)
  | netascii =>
    have hmode : Mode.netascii ≠ .octet := Mode.noConfusion
    rw [or_iff_right hmode]
    cases contents with
    | none =>
      obtain ⟨rfl, rfl⟩ := h.closed rfl
      exact iff_of_true rfl (Nat.zero_le _)
    | some contents =>
      have ha := h.ahead (ahead_openFile size contents)
      rw [Nat.zero_add] at ha
      rw [ha.overflow, List.drop_eq_nil_iff]
      rfl

end TftpReadFile
end CppTftp
