import CppTftp.Common.Stdlib

/-!
# Netascii transcoding and string extraction

`src/common/utils.cpp:9–87,131–142`. The encoder is a symbol-by-symbol substitution.
The decoder reads one or two bytes a step and throws on a carriage return that no line
feed or null byte follows.
-/

namespace CppTftp.Utils

/-- `utils.cpp:12`. -/
def CR : UInt8 := 0x0D

/-- `utils.cpp:13`. -/
def LF : UInt8 := 0x0A

/-- `utils::native_to_netascii`, `utils.cpp:10–38`. -/
def nativeToNetascii : Bytes → Bytes
  | [] => []
  | c :: rest =>
    if c = LF then CR :: LF :: nativeToNetascii rest
    else if c = CR then CR :: 0 :: nativeToNetascii rest
    else c :: nativeToNetascii rest

/-- `utils::netascii_to_native`, `utils.cpp:41–87`. -/
def netasciiToNative : Bytes → Except Stop Bytes
  | [] => .ok []
  | c :: rest =>
    if c = CR then
      match rest with
      | [] => .error (.exception "Invalid character sequence : EOL after CR")
      | next :: rest' =>
        if next = 0 then (CR :: ·) <$> netasciiToNative rest'
        -- the CR is skipped and the LF is left for the next iteration
        else if next = LF then netasciiToNative (next :: rest')
        else .error (.exception "Invalid character sequence : CR with no LF or NULL")
    else (c :: ·) <$> netasciiToNative rest

/-- `utils::extract_c_strings_from_buffer`, `utils.cpp:132–142`, from the moving `start`. -/
def cStrings (rest : Bytes) : List Bytes :=
  if h : rest.findIdx (· == 0) < rest.length then
    rest.take (rest.findIdx (· == 0)) :: cStrings (rest.drop (rest.findIdx (· == 0) + 1))
  else []
termination_by rest.length
decreasing_by rw [List.length_drop]; omega

/-- `utils::extract_c_strings_from_buffer`, `utils.cpp:132`. -/
def extractCStringsFromBuffer (buffer : Bytes) (offset : Nat) : List Bytes :=
  cStrings (buffer.drop offset)

/-- Without a terminator there is no string. -/
theorem cStrings_of_not_mem {rest : Bytes} (h : 0 ∉ rest) : cStrings rest = [] := by
  have hi : ¬ rest.findIdx (· == 0) < rest.length := by
    simpa [List.findIdx_lt_length] using h
  rw [cStrings, dif_neg hi]

/-- The bytes up to the first terminator are the first string. -/
theorem cStrings_append {s : Bytes} (h : 0 ∉ s) (rest : Bytes) :
    cStrings (s ++ 0 :: rest) = s :: cStrings rest := by
  have hf : s.findIdx (· == 0) = s.length := by
    rw [List.findIdx_eq_length]
    intro c hc
    have hne : c ≠ 0 := fun he ↦ h (he ▸ hc)
    simpa using hne
  have hi : (s ++ 0 :: rest).findIdx (· == 0) = s.length := by
    rw [List.findIdx_append, hf, if_neg (Nat.lt_irrefl _)]
    simp [List.findIdx_cons]
  rw [cStrings, dif_pos (by rw [hi, List.length_append, List.length_cons]; omega), hi,
    List.take_left, ← List.drop_drop, List.drop_left]
  rfl

/-! ### The encoder -/

@[simp] theorem nativeToNetascii_nil : nativeToNetascii [] = [] := rfl

/-- The encoder works symbol by symbol. -/
theorem nativeToNetascii_append (x y : Bytes) :
    nativeToNetascii (x ++ y) = nativeToNetascii x ++ nativeToNetascii y := by
  induction x with
  | nil => rfl
  | cons c x ih =>
    simp only [List.cons_append, nativeToNetascii, ih]
    split
    · rfl
    · split <;> rfl

/-- Two bytes of a file become two bytes each. -/
def doubled (c : UInt8) : Bool := c == CR || c == LF

/-- The length of an encoding. -/
theorem length_nativeToNetascii (x : Bytes) :
    (nativeToNetascii x).length = x.length + x.countP doubled := by
  induction x with
  | nil => rfl
  | cons c x ih =>
    rw [nativeToNetascii, List.countP_cons]
    by_cases hl : c = LF
    · simp [hl, doubled, ih]
      omega
    · by_cases hr : c = CR
      · simp [hr, doubled, ih, show CR ≠ LF by decide]
        omega
      · simp [hl, hr, doubled, ih]
        omega

/-- Encoding never shortens. -/
theorem length_le_length_nativeToNetascii (x : Bytes) :
    x.length ≤ (nativeToNetascii x).length := by
  rw [length_nativeToNetascii]
  exact Nat.le_add_right _ _

/-- Encoding at most doubles the length. -/
theorem length_nativeToNetascii_le (x : Bytes) :
    (nativeToNetascii x).length ≤ 2 * x.length := by
  have hcount := List.countP_le_length (p := doubled) (l := x)
  rw [length_nativeToNetascii]
  omega

/-- A part encodes to no more than the whole. -/
theorem length_nativeToNetascii_le_of_prefix {x y : Bytes} (h : x <+: y) :
    (nativeToNetascii x).length ≤ (nativeToNetascii y).length := by
  obtain ⟨z, rfl⟩ := h
  rw [nativeToNetascii_append, List.length_append]
  exact Nat.le_add_right _ _

/-- An encoding is as long as the file when no byte of it is doubled. -/
theorem length_nativeToNetascii_eq_iff (x : Bytes) :
    (nativeToNetascii x).length = x.length ↔ ∀ c ∈ x, c ≠ CR ∧ c ≠ LF := by
  have hzero : x.countP doubled = 0 ↔ ∀ c ∈ x, c ≠ CR ∧ c ≠ LF := by
    simp [List.countP_eq_zero, doubled]
  rw [length_nativeToNetascii, ← hzero]
  omega

/-! ### The decoder, one step at a time -/

/-- An ordinary byte is copied. -/
theorem netasciiToNative_cons {c : UInt8} (h : c ≠ CR) (rest : Bytes) :
    netasciiToNative (c :: rest) = (c :: ·) <$> netasciiToNative rest := by
  cases rest <;> simp [netasciiToNative, h]

/-- CR LF becomes LF. -/
theorem netasciiToNative_crLf (rest : Bytes) :
    netasciiToNative (CR :: LF :: rest) = (LF :: ·) <$> netasciiToNative rest := by
  rw [← netasciiToNative_cons (by decide), netasciiToNative]
  simp [show LF ≠ 0 by decide]

/-- CR NUL becomes CR. -/
theorem netasciiToNative_crNul (rest : Bytes) :
    netasciiToNative (CR :: 0 :: rest) = (CR :: ·) <$> netasciiToNative rest := by
  simp [netasciiToNative]

/-- Decoding undoes encoding. -/
theorem netasciiToNative_nativeToNetascii (x : Bytes) :
    netasciiToNative (nativeToNetascii x) = .ok x := by
  induction x with
  | nil => rfl
  | cons c x ih =>
    rw [nativeToNetascii]
    split
    · next h => rw [netasciiToNative_crLf, ih, h]; rfl
    · split
      · next h => rw [netasciiToNative_crNul, ih, h]; rfl
      · next h => rw [netasciiToNative_cons h, ih]; rfl

/-! ### What the decoder accepts -/

/-- Every carriage return is followed by a line feed or a null byte. -/
def WellPaired (y : Bytes) : Prop :=
  ∀ i, y[i]? = some CR → y[i + 1]? = some LF ∨ y[i + 1]? = some 0

/-- The decoder accepts `y`. -/
def Accepted (y : Bytes) : Prop := ∃ x, netasciiToNative y = .ok x

private theorem map_eq_ok_iff {f : Bytes → Bytes} {o : Except Stop Bytes} {x : Bytes} :
    f <$> o = .ok x ↔ ∃ z, o = .ok z ∧ f z = x := by
  cases o <;> simp [Functor.map, Except.map]

private theorem exists_map_eq_ok {f : Bytes → Bytes} {o : Except Stop Bytes} :
    (∃ x, f <$> o = .ok x) ↔ ∃ x, o = .ok x := by
  simp only [map_eq_ok_iff]
  grind

private theorem map_eq_error {f : Bytes → Bytes} {o : Except Stop Bytes} {stop : Stop} :
    f <$> o = .error stop ↔ o = .error stop := by
  cases o <;> simp [Functor.map, Except.map]

private theorem wellPaired_cons {c : UInt8} (h : c ≠ CR) (rest : Bytes) :
    WellPaired (c :: rest) ↔ WellPaired rest := by
  constructor
  · intro hw i hi
    exact hw (i + 1) hi
  · intro hw i hi
    cases i with
    | zero => exact absurd (Option.some.inj hi) h
    | succ i => exact hw i hi

private theorem wellPaired_pair {d : UInt8} (h : d = LF ∨ d = 0) (rest : Bytes) :
    WellPaired (CR :: d :: rest) ↔ WellPaired rest := by
  have hd : d ≠ CR := by rcases h with rfl | rfl <;> decide
  rw [← wellPaired_cons hd rest]
  constructor
  · intro hw i hi
    exact hw (i + 1) hi
  · intro hw i hi
    cases i with
    | zero => rcases h with rfl | rfl <;> simp
    | succ i => exact hw i hi

/-- The decoder stops only by throwing. -/
theorem netasciiToNative_throws {y : Bytes} {stop : Stop} (h : netasciiToNative y = .error stop) :
    ∃ what, stop = .exception what := by
  induction y using netasciiToNative.induct with
  | case1 => cases h
  | case2 =>
    rw [netasciiToNative, if_pos rfl] at h
    cases h
    exact ⟨_, rfl⟩
  | case3 rest' ih =>
    rw [netasciiToNative_crNul] at h
    exact ih (map_eq_error.mp h)
  | case4 rest' _ ih =>
    rw [netasciiToNative_crLf] at h
    rw [netasciiToNative_cons (by decide)] at ih
    exact ih h
  | case5 next rest' hz hl =>
    simp only [netasciiToNative, ↓reduceIte, hz, hl] at h
    cases h
    exact ⟨_, rfl⟩
  | case6 c rest hc ih =>
    rw [netasciiToNative_cons hc] at h
    exact ih (map_eq_error.mp h)

/-- The decoder accepts exactly the well-paired sequences. -/
theorem accepted_iff (y : Bytes) : Accepted y ↔ WellPaired y := by
  induction y using netasciiToNative.induct with
  | case1 => exact ⟨fun _ i hi ↦ by simp at hi, fun _ ↦ ⟨[], rfl⟩⟩
  | case2 =>
    constructor
    · rintro ⟨x, hx⟩
      simp [netasciiToNative] at hx
    · intro hw
      have := hw 0 rfl
      simp at this
  | case3 rest' ih =>
    rw [wellPaired_pair (.inr rfl), ← ih, Accepted, netasciiToNative_crNul]
    exact exists_map_eq_ok
  | case4 rest' _ ih =>
    rw [wellPaired_pair (.inl rfl), ← wellPaired_cons (c := LF) (by decide), ← ih, Accepted,
      netasciiToNative_crLf, ← netasciiToNative_cons (by decide)]
    rfl
  | case5 next rest' hz hl =>
    constructor
    · rintro ⟨x, hx⟩
      simp [netasciiToNative, hz, hl] at hx
    · intro hw
      have := hw 0 rfl
      simp [hz, hl] at this
  | case6 c rest hc ih =>
    rw [wellPaired_cons hc, ← ih, Accepted, netasciiToNative_cons hc]
    exact exists_map_eq_ok

/-- Decoding an accepted sequence leaves the decoding of what follows unchanged. -/
theorem netasciiToNative_append {y x : Bytes} (h : netasciiToNative y = .ok x) (z : Bytes) :
    netasciiToNative (y ++ z) = (x ++ ·) <$> netasciiToNative z := by
  induction y using netasciiToNative.induct generalizing x with
  | case1 =>
    cases h
    cases hz : netasciiToNative z <;> simp [Functor.map, Except.map, hz]
  | case2 => simp [netasciiToNative] at h
  | case3 rest' ih =>
    rw [netasciiToNative_crNul] at h
    cases hr : netasciiToNative rest' with
    | error t => simp [hr, Functor.map, Except.map] at h
    | ok x' =>
      rw [hr] at h
      cases h
      rw [List.cons_append, List.cons_append, netasciiToNative_crNul, ih hr]
      cases hz : netasciiToNative z <;> simp [Functor.map, Except.map]
  | case4 rest' _ ih =>
    have hn : ∀ r, netasciiToNative (CR :: LF :: r) = netasciiToNative (LF :: r) := fun r ↦ by
      rw [netasciiToNative_crLf, netasciiToNative_cons (by decide)]
    rw [hn] at h
    exact (hn _).trans (ih h)
  | case5 next rest' hz hl => simp [netasciiToNative, hz, hl] at h
  | case6 c rest hc ih =>
    rw [netasciiToNative_cons hc] at h
    cases hr : netasciiToNative rest with
    | error t => simp [hr, Functor.map, Except.map] at h
    | ok x' =>
      rw [hr] at h
      cases h
      rw [List.cons_append, netasciiToNative_cons hc, ih hr]
      cases hz : netasciiToNative z <;> simp [Functor.map, Except.map]

/-! ### Encoding what was decoded -/

/-- Every line feed follows a carriage return. -/
def LinesPaired (y : Bytes) : Prop :=
  ∀ i, y[i]? = some LF → ∃ j, i = j + 1 ∧ y[j]? = some CR

private theorem linesPaired_cons {c : UInt8} (h : c ≠ CR) {rest : Bytes}
    (hy : LinesPaired (c :: rest)) : c ≠ LF ∧ LinesPaired rest := by
  constructor
  · intro hl
    obtain ⟨j, hj, -⟩ := hy 0 (congrArg some hl)
    omega
  · intro i hi
    obtain ⟨j, hj, hc⟩ := hy (i + 1) hi
    obtain rfl : i = j := by omega
    cases i with
    | zero => exact absurd (Option.some.inj hc) h
    | succ i => exact ⟨i, rfl, hc⟩

private theorem linesPaired_pair {d : UInt8} (h : d ≠ CR) {rest : Bytes}
    (hy : LinesPaired (CR :: d :: rest)) : LinesPaired rest := by
  intro i hi
  obtain ⟨j, hj, hc⟩ := hy (i + 2) hi
  obtain rfl : i + 1 = j := by omega
  cases i with
  | zero => exact absurd (Option.some.inj hc) h
  | succ i => exact ⟨i, rfl, hc⟩

/-- Encoding undoes decoding where every line feed follows a carriage return. The decoder
skips the CR of a CR LF and meets the LF in its next step, without the CR. -/
theorem nativeToNetascii_of_decoded {y x : Bytes} (h : netasciiToNative y = .ok x) :
    (LinesPaired y → nativeToNetascii x = y) ∧
      ∀ rest, y = LF :: rest → LinesPaired rest → nativeToNetascii x = CR :: y := by
  induction y using netasciiToNative.induct generalizing x with
  | case1 =>
    cases h
    exact ⟨fun _ ↦ rfl, fun rest hr ↦ by cases hr⟩
  | case2 => simp [netasciiToNative] at h
  | case3 rest' ih =>
    rw [netasciiToNative_crNul] at h
    obtain ⟨z, hz, rfl⟩ := map_eq_ok_iff.mp h
    constructor
    · intro hy
      have he := (ih hz).1 (linesPaired_pair (by decide) hy)
      rw [nativeToNetascii, if_neg (by decide), if_pos rfl, he]
    · intro rest hr
      cases hr
  | case4 rest' _ ih =>
    have hn : netasciiToNative (LF :: rest') = .ok x := by
      rw [netasciiToNative_cons (by decide), ← netasciiToNative_crLf]
      exact h
    constructor
    · intro hy
      exact (ih hn).2 rest' rfl (linesPaired_pair (by decide) hy)
    · intro rest hr
      cases hr
  | case5 next rest' hz hl => simp [netasciiToNative, hz, hl] at h
  | case6 c rest hc ih =>
    rw [netasciiToNative_cons hc] at h
    obtain ⟨z, hz, rfl⟩ := map_eq_ok_iff.mp h
    constructor
    · intro hy
      obtain ⟨hl, hr⟩ := linesPaired_cons hc hy
      rw [nativeToNetascii, if_neg hl, if_neg hc, (ih hz).1 hr]
    · intro rest' hr hy
      cases hr
      rw [nativeToNetascii, if_pos rfl, (ih hz).1 hy]

/-- The codec as a whole: decoding undoes encoding; what the decoder accepts; encoding undoes
decoding where lines are paired; and both work piece by piece. -/
theorem netascii_codec :
    (∀ x, netasciiToNative (nativeToNetascii x) = .ok x) ∧
      (∀ y, (∃ x, netasciiToNative y = .ok x) ↔ WellPaired y) ∧
      (∀ y x, netasciiToNative y = .ok x → LinesPaired y → nativeToNetascii x = y) ∧
      (∀ x₁ x₂, nativeToNetascii (x₁ ++ x₂) = nativeToNetascii x₁ ++ nativeToNetascii x₂) ∧
      ∀ y₁ y₂ x₁ x₂, netasciiToNative y₁ = .ok x₁ → netasciiToNative y₂ = .ok x₂ →
        netasciiToNative (y₁ ++ y₂) = .ok (x₁ ++ x₂) := by
  refine ⟨netasciiToNative_nativeToNetascii, accepted_iff, ?_, nativeToNetascii_append, ?_⟩
  · intro y x h
    exact (nativeToNetascii_of_decoded h).1
  · intro y₁ y₂ x₁ x₂ h₁ h₂
    rw [netasciiToNative_append h₁, h₂]
    rfl

end CppTftp.Utils
