import Mathlib.Algebra.Group.Int.Defs
import Mathlib.Algebra.Group.Nat.Defs
import Mathlib.Data.List.Basic
import Mathlib.Data.List.TakeWhile

/-!
# The parts of the C and C++ libraries that the program relies on

Bytes and byte strings, decimal conversions, stdio streams and the ways in which a
call can fail to return. A `char` is kept as its eight bits; where the source widens
one, the model says how.
-/

namespace CppTftp

/-- A `std::vector<char>` or a `std::string`. -/
abbrev Bytes := List UInt8

/-- The bytes of an ASCII literal. -/
def str (s : String) : Bytes := s.toList.map fun c ↦ UInt8.ofNat c.toNat

/-- Why a call does not return to its caller. -/
inductive Stop where
  | exception (what : String)
  | assertion
  | nullFile
  | hang
  deriving DecidableEq, Repr

/-- Release builds define `NDEBUG`, which compiles `assert` out; `Makefile:17–21`. -/
inductive Build where
  | release
  | debug
  deriving DecidableEq, Repr

/-! ### Strings and numbers -/

/-- `std::strcmp(s.c_str(), t) == 0` for a literal `t`: what follows a null byte in `s`
is not compared. -/
def strcmpEq (s t : Bytes) : Bool := s.takeWhile (· != 0) == t

/-- Where there is no null byte, everything is compared. -/
theorem takeWhile_of_not_mem {s : Bytes} (h : 0 ∉ s) : s.takeWhile (· != 0) = s := by
  rw [List.takeWhile_eq_self_iff]
  intro c hc
  rw [bne_iff_ne]
  rintro rfl
  exact h hc

/-- A string ends at the first null byte behind it. -/
theorem takeWhile_append_zero (s rest : Bytes) :
    (s ++ 0 :: rest).takeWhile (· != 0) = s.takeWhile (· != 0) := by
  induction s with
  | nil => rfl
  | cons c s ih => rw [List.cons_append, List.takeWhile_cons, List.takeWhile_cons, ih]

/-- `::toupper` in the C locale; bytes outside `a`–`z` are unchanged. -/
def toupper (c : UInt8) : UInt8 := if 97 ≤ c ∧ c ≤ 122 then c - 32 else c

/-- `isspace` in the C locale. -/
def isspace (c : UInt8) : Bool := c == 32 || (9 ≤ c && c ≤ 13)

/-- `isdigit`. -/
def isdigit (c : UInt8) : Bool := 48 ≤ c && c ≤ 57

/-- The value of a string of decimal digits. -/
def decimalValue (digits : Bytes) : Nat := digits.foldl (fun n c ↦ 10 * n + (c.toNat - 48)) 0

/-- `std::stoull`, and `std::stoul` on a 64-bit Linux: leading blanks, one sign, digits, and
anything after them. `none` where it throws: no digits, or a value beyond 64 bits. -/
def stoull (s : Bytes) : Option Nat :=
  let body := (s.takeWhile (· != 0)).dropWhile isspace
  let negative := body.head? == some 45
  let digits := (if negative || body.head? == some 43 then body.tail else body).takeWhile isdigit
  let value := decimalValue digits
  if digits = [] then none
  else if 2 ^ 64 ≤ value then none
  else some (if negative then (2 ^ 64 - value) % 2 ^ 64 else value)

/-- `std::to_string` of an unsigned number. -/
def toDecimal (n : Nat) : Bytes := (Nat.toDigits 10 n).map fun c ↦ UInt8.ofNat c.toNat

/-- The text of a number has its value. -/
theorem decimalValue_toDecimal (n : Nat) : decimalValue (toDecimal n) = n := by
  have hdigit : ∀ c ∈ Nat.toDigits 10 n, (UInt8.ofNat c.toNat).toNat = c.toNat := by
    intro c hc
    have hc := Char.isDigit_iff_toNat.mp
      (Nat.isDigit_of_mem_toDigits (by decide) (Nat.le_refl 10) hc)
    have hlast : '9'.toNat = 57 := rfl
    rw [UInt8.toNat_ofNat']
    omega
  have hvalue := @Nat.ofDigitChars_ten_toDigits n
  rw [Nat.ofDigitChars_eq_foldl] at hvalue
  rw [decimalValue, toDecimal, List.foldl_map]
  refine Eq.trans (List.foldl_ext _ _ _ ?_) hvalue
  intro value c hc
  rw [hdigit c hc]
  rfl

/-- Two numbers with the same text are the same. -/
theorem toDecimal_inj {m n : Nat} (h : toDecimal m = toDecimal n) : m = n := by
  rw [← decimalValue_toDecimal m, h, decimalValue_toDecimal]

/-- `static_cast<int>` of a `size_t`: the low 32 bits in two's complement. -/
def toInt32 (n : Nat) : Int :=
  if n % 2 ^ 32 < 2 ^ 31 then (n % 2 ^ 32 : Nat) else (n % 2 ^ 32 : Nat) - 2 ^ 32

/-- Subtraction of two `size_t`, which wraps around below zero. -/
def sizeSub (a b : Nat) : Nat := if b ≤ a then a - b else 2 ^ 64 + a - b

/-- Without underflow it is the subtraction of naturals. -/
theorem sizeSub_of_le {a b : Nat} (h : b ≤ a) : sizeSub a b = a - b := by
  simp [sizeSub, h]

/-! ### Streams open for reading -/

/-- What `fopen(…, "r")` finds: the bytes of the file, and how many of them can be read
before the device reports an error. -/
structure FileContents where
  bytes : Bytes
  failAt : Option Nat := none
  deriving DecidableEq, Repr

/-- The bytes of a file that can be read. -/
def FileContents.readable (file : FileContents) : Bytes :=
  match file.failAt with
  | none => file.bytes
  | some k => file.bytes.take k

/-- It is the first part of the file. -/
theorem FileContents.readable_prefix (file : FileContents) : file.readable <+: file.bytes := by
  unfold readable
  split
  · exact List.prefix_refl _
  · exact List.take_prefix _ _

/-- A `FILE` open for reading: the bytes not read yet and the two indicators. -/
structure FileIn where
  rest : Bytes
  failAt : Option Nat
  eof : Bool := false
  error : Bool := false
  deriving DecidableEq, Repr

namespace FileIn

/-- `fopen(…, "r")` on a file with these contents. -/
def fopen (file : FileContents) : FileIn := { rest := file.bytes, failAt := file.failAt }

/-- `fread` of `n` single bytes. The count is short only at the end of the file, which sets
the end-of-file indicator, or where the device fails, which sets the error indicator. -/
def fread (f : FileIn) (n : Nat) : Bytes × FileIn :=
  match f.failAt with
  | none =>
    (f.rest.take n, { f with rest := f.rest.drop n, eof := f.eof || f.rest.length < n })
  | some k =>
    if n ≤ k then
      (f.rest.take n,
        { f with rest := f.rest.drop n, failAt := some (k - n), eof := f.eof || f.rest.length < n })
    else if f.rest.length < k then
      (f.rest, { f with rest := [], failAt := some (k - f.rest.length), eof := true })
    else (f.rest.take k, { f with rest := f.rest.drop k, failAt := some 0, error := true })

/-- A read that sets no error indicator takes the next bytes of the file, as many as
there are, and reports the end of the file exactly when there are too few. -/
theorem fread_of_not_error {f : FileIn} {n : Nat} (h : (f.fread n).2.error = false) :
    (f.fread n).1 = f.rest.take n ∧ (f.fread n).2.rest = f.rest.drop n ∧
      (f.fread n).2.eof = (f.eof || f.rest.length < n) := by
  unfold fread at h ⊢
  split
  · exact ⟨rfl, rfl, rfl⟩
  · split
    · exact ⟨rfl, rfl, rfl⟩
    · split
      · next hn hk =>
        have hl : f.rest.length < n := by omega
        have hle := Nat.le_of_lt hl
        simp [hl, List.take_of_length_le hle, List.drop_of_length_le hle]
      · next hs hn hk => simp [hs, hn, hk] at h

/-- The bytes that can still be read. -/
def left (f : FileIn) : Bytes :=
  match f.failAt with
  | none => f.rest
  | some k => f.rest.take k

theorem left_fopen (file : FileContents) : (fopen file).left = file.readable := rfl

/-- A read takes as many of the readable bytes as it asks for, and sets no indicator before there
are too few. -/
theorem left_fread (f : FileIn) (n : Nat) :
    (f.fread n).1 = f.left.take n ∧ (f.fread n).2.left = f.left.drop n ∧
      ((f.fread n).2.error = true ∨ (f.fread n).2.eof = true →
        f.error = true ∨ f.eof = true ∨ f.left.length < n) := by
  unfold fread left
  cases hk : f.failAt with
  | none =>
    refine ⟨rfl, rfl, ?_⟩
    rintro (he | he)
    · exact .inl he
    · rw [Bool.or_eq_true, decide_eq_true_eq] at he
      exact .inr he
  | some k =>
    dsimp only
    split
    · next hn =>
      refine ⟨?_, ?_, ?_⟩
      · rw [List.take_take, Nat.min_eq_left hn]
      · exact (List.drop_take).symm
      · rintro (he | he)
        · exact .inl he
        · rw [Bool.or_eq_true, decide_eq_true_eq] at he
          rw [List.length_take]
          exact .inr (he.imp_right fun hlt ↦ by omega)
    · next hn =>
      have hshort : (f.rest.take k).length < n := by
        rw [List.length_take]
        omega
      split
      · next hl =>
        have hall : f.rest.take k = f.rest := List.take_of_length_le (Nat.le_of_lt hl)
        rw [hall] at hshort ⊢
        refine ⟨(List.take_of_length_le (Nat.le_of_lt hshort)).symm, ?_,
          fun _ ↦ .inr (.inr hshort)⟩
        rw [List.drop_of_length_le (Nat.le_of_lt hshort)]
        exact List.take_nil
      · refine ⟨(List.take_of_length_le (Nat.le_of_lt hshort)).symm, ?_,
          fun _ ↦ .inr (.inr hshort)⟩
        rw [List.drop_of_length_le (Nat.le_of_lt hshort)]
        exact List.take_zero

/-- A short count sets an indicator. -/
theorem length_fread (f : FileIn) (n : Nat) :
    (f.fread n).1.length = n ∨ (f.fread n).2.eof = true ∨ (f.fread n).2.error = true := by
  unfold fread
  split
  · by_cases h : f.rest.length < n
    · simp [h]
    · left; simp [List.length_take]; omega
  · split
    · by_cases h : f.rest.length < n
      · simp [h]
      · left; simp [List.length_take]; omega
    · split <;> simp

/-- On a device that does not fail no error indicator is set. -/
theorem error_fread_of_sound {f : FileIn} (h : f.failAt = none) (n : Nat) :
    (f.fread n).2.error = f.error ∧ (f.fread n).2.failAt = none := by
  simp [fread, h]

end FileIn

/-! ### Streams open for writing -/

/-- What `fopen(…, "w")` finds: how the device will behave. `short` bounds what each of the
next calls takes, and after these it takes everything, or nothing when it `refuses`. -/
structure FileSink where
  short : List Nat := []
  refuses : Bool := false
  deriving DecidableEq, Repr

/-- A `FILE` open for writing: the bytes the stream has taken, its indicators, and how its
device behaves from now on. -/
structure FileOut where
  taken : Bytes := []
  error : Bool := false
  eof : Bool := false
  short : List Nat
  refuses : Bool
  deriving DecidableEq, Repr

namespace FileOut

/-- `fopen(…, "w")` on such a device; what the file held before is gone. -/
def fopen (sink : FileSink) : FileOut := { short := sink.short, refuses := sink.refuses }

/-- The device takes every byte from now on. -/
def Sound (f : FileOut) : Prop := f.short = [] ∧ f.refuses = false

instance (f : FileOut) : Decidable f.Sound := inferInstanceAs (Decidable (_ ∧ _))

/-- How many of `n` bytes the next `fwrite` takes. -/
def limit (f : FileOut) (n : Nat) : Nat :=
  match f.short with
  | k :: _ => min k n
  | [] => if f.refuses then 0 else n

/-- `fwrite` of single bytes: a prefix is taken, and a short count sets the error
indicator, which stays set. -/
def fwrite (f : FileOut) (data : Bytes) : Nat × FileOut :=
  let n := f.limit data.length
  (n, { f with
    taken := f.taken ++ data.take n
    error := f.error || n < data.length
    short := f.short.tail })

/-- `fclose` on a device that has room for `capacity` bytes: what the file holds then, and
whether everything that the stream still kept could be written. -/
def fclose (f : FileOut) (capacity : Nat) : Bytes × Bool :=
  (f.taken.take capacity, f.taken.length ≤ capacity)

@[simp] theorem eof_fwrite (f : FileOut) (data : Bytes) : (f.fwrite data).2.eof = f.eof := rfl

@[simp] theorem refuses_fwrite (f : FileOut) (data : Bytes) :
    (f.fwrite data).2.refuses = f.refuses := rfl

@[simp] theorem short_fwrite (f : FileOut) (data : Bytes) :
    (f.fwrite data).2.short = f.short.tail := rfl

@[simp] theorem taken_fwrite (f : FileOut) (data : Bytes) :
    (f.fwrite data).2.taken = f.taken ++ data.take (f.limit data.length) := rfl

/-- No call takes more than it is given. -/
theorem limit_le (f : FileOut) (n : Nat) : f.limit n ≤ n := by
  unfold limit
  split
  · exact Nat.min_le_right _ _
  · split
    · exact Nat.zero_le n
    · exact Nat.le_refl n

/-- A sound stream takes the whole buffer and reports no error. -/
theorem fwrite_of_sound {f : FileOut} (h : f.Sound) (data : Bytes) :
    f.fwrite data = (data.length, { f with taken := f.taken ++ data }) := by
  obtain ⟨hs, hr⟩ := h
  simp [fwrite, limit, hs, hr]

end FileOut
end CppTftp
