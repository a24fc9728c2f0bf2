import CppTftp.Common.Stdlib

/-!
# Addresses in text

`inet_ntop` and `inet_pton` of the C library for IPv4: four octets in decimal with dots between
them. What the first prints the second reads.
-/

namespace CppTftp

/-- The address with these octets, the first of them the most significant. -/
def ofOctets (a b c d : UInt8) : UInt32 :=
  UInt32.ofNat (a.toNat * 2 ^ 24 + b.toNat * 2 ^ 16 + c.toNat * 2 ^ 8 + d.toNat)

/-- An octet of an address, by its shift. -/
def octet (address : UInt32) (shift : Nat) : UInt8 := UInt8.ofNat (address.toNat / 2 ^ shift)

/-- An octet in decimal. -/
def octetText (o : UInt8) : Bytes := toDecimal o.toNat

/-- `inet_ntop`, with the format `%u.%u.%u.%u`. -/
def inetNtop (address : UInt32) : Bytes :=
  octetText (octet address 24) ++ str "." ++ octetText (octet address 16) ++ str "." ++
    octetText (octet address 8) ++ str "." ++ octetText (octet address 0)

/-- What `inet_pton` has read: the octets closed by a dot, and the digits of the next one, if
there was one. -/
structure Quad where
  closed : List UInt8 := []
  current : Option UInt8 := none
  deriving DecidableEq, Repr

/-- One more character. An octet has no leading zero, and is at most 255. -/
def Quad.read (q : Quad) (c : UInt8) : Option Quad :=
  if isdigit c then
    match q.current with
    | none =>
      if q.closed.length = 4 then none
      else some { q with current := some (UInt8.ofNat (c.toNat - 48)) }
    | some value =>
      let new := 10 * value.toNat + (c.toNat - 48)
      if value = 0 then none
      else if 255 < new then none
      else some { q with current := some (UInt8.ofNat new) }
  else
    match q.current with
    | none => none
    | some value =>
      if c ≠ 46 then none
      else if q.closed.length = 3 then none
      else some { closed := q.closed ++ [value] }

/-- Four octets make an address. -/
def Quad.address : Quad → Option UInt32
  | { closed := [a, b, c], current := some d } => some (ofOctets a b c d)
  | _ => none

/-- `inet_pton` of a C string: `none` where it returns zero. -/
def inetPton (s : Bytes) : Option UInt32 :=
  ((s.takeWhile (· != 0)).foldlM Quad.read {}).bind Quad.address

/-! ### Digits -/

/-- The values of the digits. -/
theorem isdigit_iff {c : UInt8} : isdigit c = true ↔ 48 ≤ c.toNat ∧ c.toNat ≤ 57 := by
  rw [isdigit, Bool.and_eq_true, decide_eq_true_eq, decide_eq_true_eq, UInt8.le_iff_toNat_le,
    UInt8.le_iff_toNat_le]
  rfl

/-- The text of a number of one digit. -/
theorem toDecimal_of_lt {n : Nat} (h : n < 10) : toDecimal n = [UInt8.ofNat (48 + n)] := by
  have hall : ∀ n < 10, toDecimal n = [UInt8.ofNat (48 + n)] := by decide
  exact hall n h

/-- One more digit behind a number. -/
theorem toDecimal_append {n d : Nat} (hn : 0 < n) (hd : d < 10) :
    toDecimal (10 * n + d) = toDecimal n ++ toDecimal d := by
  rw [toDecimal, ← Nat.toDigits_append_toDigits (by decide) hn hd, List.map_append]
  rfl

/-- A decimal text has digits only. -/
theorem isdigit_of_mem_toDecimal {n : Nat} {c : UInt8} (h : c ∈ toDecimal n) :
    isdigit c = true := by
  obtain ⟨ch, hch, rfl⟩ := List.mem_map.mp h
  have hdigit := Char.isDigit_iff_toNat.mp
    (Nat.isDigit_of_mem_toDigits (by decide) (Nat.le_refl 10) hch)
  have hlast : '9'.toNat = 57 := rfl
  have hfirst : '0'.toNat = 48 := rfl
  rw [isdigit_iff, UInt8.toNat_ofNat']
  omega

/-- An address is made of its octets. -/
theorem ofOctets_octet (address : UInt32) :
    ofOctets (octet address 24) (octet address 16) (octet address 8) (octet address 0) =
      address := by
  have h := address.toNat_lt
  simp only [ofOctets, octet, ← UInt32.toNat_inj, UInt32.toNat_ofNat', UInt8.toNat_ofNat']
  omega

/-! ### What is printed is accepted -/

/-- The first digit of an octet. -/
theorem Quad.read_first {closed : List UInt8} {c : UInt8} (hc : isdigit c = true)
    (h : closed.length ≠ 4) :
    ({ closed } : Quad).read c = some { closed, current := some (UInt8.ofNat (c.toNat - 48)) } := by
  simp [Quad.read, hc, h]

/-- Another digit. -/
theorem Quad.read_digit {closed : List UInt8} {c : UInt8} {n : Nat} (hc : isdigit c = true)
    (hn : 0 < n) (h : 10 * n + (c.toNat - 48) ≤ 255) :
    ({ closed, current := some (UInt8.ofNat n) } : Quad).read c =
      some { closed, current := some (UInt8.ofNat (10 * n + (c.toNat - 48))) } := by
  have hvalue : (UInt8.ofNat n).toNat = n := by
    rw [UInt8.toNat_ofNat']
    omega
  have hzero : UInt8.ofNat n ≠ 0 := by
    intro hz
    rw [hz] at hvalue
    exact absurd hvalue (Nat.ne_of_lt hn)
  rw [Quad.read, if_pos hc]
  dsimp only
  rw [if_neg hzero, hvalue, if_neg (Nat.not_lt.mpr h)]

/-- A dot behind an octet that is not the last one. -/
theorem Quad.read_dot {closed : List UInt8} {o : UInt8} (h : closed.length ≠ 3) :
    ({ closed, current := some o } : Quad).read 46 = some { closed := closed ++ [o] } := by
  have hdigit : isdigit 46 = false := rfl
  simp [Quad.read, hdigit, h]

/-- A number is read digit by digit. The induction is on its value. -/
theorem foldlM_toDecimal {closed : List UInt8} (hclosed : closed.length ≠ 4) {n : Nat}
    (h : n ≤ 255) :
    (toDecimal n).foldlM Quad.read { closed } =
      some { closed, current := some (UInt8.ofNat n) } := by
  induction n using Nat.strong_induction_on with
  | h n ih =>
    have hdigit : ∀ d < 10, isdigit (UInt8.ofNat (48 + d)) = true ∧
        (UInt8.ofNat (48 + d)).toNat - 48 = d := by decide
    by_cases hlt : n < 10
    · obtain ⟨hc, hd⟩ := hdigit n hlt
      rw [toDecimal_of_lt hlt, List.foldlM_cons, Quad.read_first hc hclosed, hd]
      rfl
    · obtain ⟨hc, hd⟩ := hdigit (n % 10) (Nat.mod_lt n (by decide))
      have hsplit : 10 * (n / 10) + n % 10 = n := Nat.div_add_mod n 10
      have htext := toDecimal_append (show 0 < n / 10 by omega) (Nat.mod_lt n (by decide))
      have hnext := @Quad.read_digit closed _ _ hc (show 0 < n / 10 by omega) (by omega)
      rw [hsplit] at htext
      rw [hd, hsplit] at hnext
      rw [htext, List.foldlM_append, ih (n / 10) (by omega) (by omega),
        toDecimal_of_lt (Nat.mod_lt n (by decide))]
      show Quad.read _ _ >>= _ = _
      rw [hnext]
      rfl

/-- An octet and a dot are read. -/
theorem foldlM_octetText_dot {closed : List UInt8} (hclosed : closed.length < 3) (o : UInt8)
    (rest : Bytes) :
    (octetText o ++ str "." ++ rest).foldlM Quad.read { closed } =
      rest.foldlM Quad.read { closed := closed ++ [o] } := by
  have hvalue : o.toNat ≤ 255 := Nat.le_of_lt_succ o.toNat_lt
  have hread := @foldlM_toDecimal closed (by omega) _ hvalue
  rw [UInt8.ofNat_toNat] at hread
  rw [List.append_assoc, List.foldlM_append, octetText, hread]
  show Quad.read _ 46 >>= _ = _
  rw [Quad.read_dot (by omega)]
  rfl

/-- There is no zero byte in the text of an address. -/
theorem zero_not_mem_inetNtop (address : UInt32) : 0 ∉ inetNtop address := by
  have hoctet : ∀ o, 0 ∉ octetText o := fun o h ↦ absurd (isdigit_of_mem_toDecimal h) (by decide)
  have hdot : 0 ∉ str "." := by decide
  simp [inetNtop, hoctet, hdot]

/-- The text of an address is accepted, as that address. -/
theorem inetPton_inetNtop (address : UInt32) : inetPton (inetNtop address) = some address := by
  have hvalue : (octet address 0).toNat ≤ 255 := Nat.le_of_lt_succ (octet address 0).toNat_lt
  have hlast := @foldlM_toDecimal [octet address 24, octet address 16, octet address 8]
    (show 3 ≠ 4 by decide) _ hvalue
  rw [UInt8.ofNat_toNat] at hlast
  have hquad : (inetNtop address).foldlM Quad.read {} =
      some { closed := [octet address 24, octet address 16, octet address 8]
             current := some (octet address 0) } := by
    have hassoc : inetNtop address = octetText (octet address 24) ++ str "." ++
        (octetText (octet address 16) ++ str "." ++
          (octetText (octet address 8) ++ str "." ++ octetText (octet address 0))) := by
      simp [inetNtop]
    have hfirst := @foldlM_octetText_dot [] (show 0 < 3 by decide)
    have hsecond := @foldlM_octetText_dot [octet address 24] (show 1 < 3 by decide)
    have hthird := @foldlM_octetText_dot [octet address 24, octet address 16]
      (show 2 < 3 by decide)
    rw [hassoc]
    exact (hfirst _ _).trans ((hsecond _ _).trans ((hthird _ _).trans hlast))
  rw [inetPton, takeWhile_of_not_mem (zero_not_mem_inetNtop address), hquad]
  exact congrArg some (ofOctets_octet address)

end CppTftp
