import CppTftp.Common.Wire
import Mathlib.Data.List.Forall2

/-!
# Requests on the wire

What the decoder makes of an opcode and a row of strings, and of what the encoder writes. The
encoder writes the name of the file and the mode, and no options.
-/

namespace CppTftp.Tftp

open Utils Lib

/-! ### The mode -/

/-- The name of a mode in small letters. -/
def modeWord : Mode → Bytes
  | .octet => str "octet"
  | .netascii => str "netascii"

/-- `modeStr` is `word` with each letter small or capital. -/
def Spells (modeStr word : Bytes) : Prop :=
  List.Forall₂ (fun c letter ↦ c = letter ∨ c = letter - 32) modeStr word

/-- A small letter and its capital are what becomes that capital. -/
theorem toupper_eq_iff {c letter : UInt8} (h : 97 ≤ letter ∧ letter ≤ 122) :
    toupper c = letter - 32 ↔ c = letter ∨ c = letter - 32 := by
  obtain ⟨hlo, hhi⟩ := h
  rw [UInt8.le_iff_toNat_le] at hlo hhi
  have hlo : 97 ≤ letter.toNat := hlo
  have hhi : letter.toNat ≤ 122 := hhi
  have hcap : (letter - 32).toNat = letter.toNat - 32 := by
    rw [UInt8.toNat_sub_of_le]
    · rfl
    · rw [UInt8.le_iff_toNat_le]
      exact Nat.le_trans (by decide) hlo
  unfold toupper
  by_cases hc : 97 ≤ c ∧ c ≤ 122
  · rw [if_pos hc]
    have hcl : 97 ≤ c.toNat := UInt8.le_iff_toNat_le.mp hc.1
    have hne : c ≠ letter - 32 := by
      rintro rfl
      omega
    constructor
    · intro heq
      left
      rw [← UInt8.sub_add_cancel c 32, heq, UInt8.sub_add_cancel]
    · rintro (rfl | heq)
      · rfl
      · exact absurd heq hne
  · rw [if_neg hc]
    constructor
    · exact .inr
    · rintro (rfl | heq)
      · exact absurd ⟨UInt8.le_iff_toNat_le.mpr hlo, UInt8.le_iff_toNat_le.mpr hhi⟩ hc
      · exact heq

/-- Capitals decide whether a word is spelt. -/
theorem map_toupper_eq_iff {word : Bytes} (h : ∀ letter ∈ word, 97 ≤ letter ∧ letter ≤ 122)
    (modeStr : Bytes) : modeStr.map toupper = word.map (· - 32) ↔ Spells modeStr word := by
  induction word generalizing modeStr with
  | nil => simp [Spells]
  | cons letter word ih =>
    cases modeStr with
    | nil => simp [Spells]
    | cons c modeStr =>
      have hrest := ih (fun l hl ↦ h l (List.mem_cons_of_mem letter hl)) modeStr
      rw [List.map_cons, List.map_cons, List.cons.injEq, hrest,
        toupper_eq_iff (h letter List.mem_cons_self), Spells, Spells, List.forall₂_cons]

/-- The two names are written in small letters, and their capitals are what is compared. -/
theorem modeWord_capitals (mode : Mode) :
    (∀ letter ∈ modeWord mode, 97 ≤ letter ∧ letter ≤ 122) ∧
      (modeWord mode).map (· - 32) = modeTToString mode := by
  have hsmall : (modeWord mode).all (fun letter ↦ decide (97 ≤ letter ∧ letter ≤ 122)) = true := by
    cases mode with
    | octet => decide
    | netascii => decide
  constructor
  · intro letter h
    exact of_decide_eq_true (List.all_eq_true.mp hsmall letter h)
  · cases mode with
    | octet => decide
    | netascii => decide

/-- The capitals of a text are a mode's if and only if the text spells the mode. -/
theorem map_toupper_eq_mode_iff (modeStr : Bytes) (mode : Mode) :
    modeStr.map toupper = modeTToString mode ↔ Spells modeStr (modeWord mode) := by
  obtain ⟨hsmall, hcapitals⟩ := modeWord_capitals mode
  rw [← hcapitals]
  exact map_toupper_eq_iff hsmall modeStr

/-- A spelling has no null byte. -/
theorem zero_not_mem_of_spells {modeStr : Bytes} {mode : Mode}
    (h : Spells modeStr (modeWord mode)) : 0 ∉ modeStr := by
  intro hz
  have hmem : toupper 0 ∈ modeStr.map toupper := List.mem_map_of_mem hz
  rw [(map_toupper_eq_mode_iff modeStr mode).mpr h] at hmem
  cases mode with
  | octet => exact absurd hmem (by decide)
  | netascii => exact absurd hmem (by decide)

/-- A mode is recognised in every spelling, and only so. -/
theorem stringToModeT_eq_some_iff {modeStr : Bytes} (h : 0 ∉ modeStr) (mode : Mode) :
    stringToModeT modeStr = some mode ↔ Spells modeStr (modeWord mode) := by
  have hzero : ∀ c : UInt8, toupper c = 0 → c = 0 := by
    intro c hc
    unfold toupper at hc
    split at hc
    · next hcase =>
      have hlo : 97 ≤ c.toNat := UInt8.le_iff_toNat_le.mp hcase.1
      have hsub : c = 32 := by
        rw [← UInt8.sub_add_cancel c 32, hc]
        rfl
      rw [hsub] at hlo
      exact absurd hlo (by decide)
    · exact hc
  have hupper : 0 ∉ modeStr.map toupper := by
    intro hmem
    obtain ⟨c, hc, he⟩ := List.mem_map.mp hmem
    exact h (hzero c he ▸ hc)
  have hoctet := map_toupper_eq_mode_iff modeStr .octet
  have hnetascii := map_toupper_eq_mode_iff modeStr .netascii
  unfold stringToModeT strcmpEq
  simp only [takeWhile_of_not_mem hupper, beq_iff_eq]
  split
  · next ho =>
    have hn : modeStr.map toupper ≠ netasciiModeStr := by
      rw [ho]
      decide
    cases mode with
    | octet => exact iff_of_true rfl (hoctet.mp ho)
    | netascii => exact iff_of_false (by simp) (mt hnetascii.mpr hn)
  · next ho =>
    split
    · next hn =>
      cases mode with
      | octet => exact iff_of_false (by simp) (mt hoctet.mpr ho)
      | netascii => exact iff_of_true rfl (hnetascii.mp hn)
    · next hn =>
      cases mode with
      | octet => exact iff_of_false (by simp) (mt hoctet.mpr ho)
      | netascii => exact iff_of_false (by simp) (mt hnetascii.mpr hn)

/-! ### The decoder -/

/-- Names and values in capitals. -/
def upperCased (options : List (Bytes × Bytes)) : List (Bytes × Bytes) :=
  options.map fun opt ↦ (opt.1.map toupper, opt.2.map toupper)

/-- The bytes of a request: the opcode, a row of strings and what follows them. -/
def requestBytes (type : PacketT) (strings : List Bytes) (tail : Bytes) : Bytes :=
  [0, type.code] ++ terminated 0 strings ++ tail

/-- The strings of a request are extracted as they are. -/
theorem extract_requestBytes (type : PacketT) {strings : List Bytes} {tail : Bytes}
    (hs : ∀ s ∈ strings, 0 ∉ s) (ht : 0 ∉ tail) :
    extractCStringsFromBuffer (requestBytes type strings tail) 2 = strings := by
  have h : SplitsAs 0 (terminated 0 strings ++ tail) strings tail := ⟨rfl, hs, ht⟩
  exact cStrings_of_splitsAs h

/-- Less than a name and a mode is no request. -/
theorem deserialiseRwPacket_of_few (type : PacketT) {strings : List Bytes} {tail : Bytes}
    (hs : ∀ s ∈ strings, 0 ∉ s) (ht : 0 ∉ tail) (hfew : strings.length < 2) :
    deserialiseRwPacket (requestBytes type strings tail) = none := by
  rw [deserialiseRwPacket, extract_requestBytes type hs ht]
  split
  · rfl
  · split
    · rfl
    · cases strings with
      | nil => rfl
      | cons s strings =>
        cases strings with
        | nil => rfl
        | cons s' strings =>
          rw [List.length_cons, List.length_cons] at hfew
          omega

/-- With a name and a mode the two decide, and the rest are the options. -/
theorem deserialiseRwPacket_of_strings {type : PacketT} (htype : type = .read ∨ type = .write)
    {filename modeStr tail : Bytes} {params : List Bytes} (hf : 0 ∉ filename) (hm : 0 ∉ modeStr)
    (hp : ∀ s ∈ params, 0 ∉ s) (ht : 0 ∉ tail) :
    deserialiseRwPacket (requestBytes type (filename :: modeStr :: params) tail) =
      (stringToModeT modeStr).map fun mode ↦ { type, filename, mode, options :=
        if params.length % 2 = 0 then upperCased (pairs params) else [] } := by
  have hs : ∀ s ∈ filename :: modeStr :: params, 0 ∉ s := by
    simp only [List.mem_cons, forall_eq_or_imp]
    exact ⟨hf, hm, hp⟩
  have hlen : ¬(requestBytes type (filename :: modeStr :: params) tail).length < 4 := by
    simp only [requestBytes, terminated_cons, List.length_append, List.length_cons,
      List.length_nil]
    omega
  have hcode : byteAt (requestBytes type (filename :: modeStr :: params) tail) 1 = type.code := rfl
  rw [deserialiseRwPacket, if_neg hlen, hcode, extract_requestBytes type hs ht]
  have hopcode : ¬(type.code ≠ PacketT.read.code ∧ type.code ≠ PacketT.write.code) := by
    rcases htype with rfl | rfl
    · decide
    · decide
  have hread : (if type.code = PacketT.read.code then PacketT.read else PacketT.write) = type := by
    rcases htype with rfl | rfl
    · rfl
    · rfl
  rw [if_neg hopcode, hread]
  dsimp only
  cases stringToModeT modeStr with
  | none => rfl
  | some mode =>
    dsimp only [Option.map_some]
    by_cases heven : params.length % 2 = 0
    · rw [if_neg (not_not.mpr heven), if_pos heven]
      rfl
    · rw [if_pos heven, if_neg heven]

/-- The request decoder on an opcode, strings and an unterminated tail: it gives the type, the
name and the mode, in any spelling, and the options in pairs if they are paired; and nothing
with another mode, or with less than two strings. -/
theorem request_decoded {type : PacketT} (htype : type = .read ∨ type = .write) :
    (∀ (filename modeStr : Bytes) (params : List Bytes) (tail : Bytes) (mode : Mode),
      0 ∉ filename → Spells modeStr (modeWord mode) → (∀ s ∈ params, 0 ∉ s) → 0 ∉ tail →
      deserialiseRwPacket (requestBytes type (filename :: modeStr :: params) tail) =
        some { type, filename, mode, options :=
          if params.length % 2 = 0 then upperCased (pairs params) else [] }) ∧
      (∀ (filename modeStr : Bytes) (params : List Bytes) (tail : Bytes),
        0 ∉ filename → 0 ∉ modeStr → (∀ mode, ¬Spells modeStr (modeWord mode)) →
        (∀ s ∈ params, 0 ∉ s) → 0 ∉ tail →
        deserialiseRwPacket (requestBytes type (filename :: modeStr :: params) tail) = none) ∧
      ∀ (strings : List Bytes) (tail : Bytes), (∀ s ∈ strings, 0 ∉ s) → 0 ∉ tail →
        strings.length < 2 → deserialiseRwPacket (requestBytes type strings tail) = none := by
  refine ⟨?_, ?_, ?_⟩
  · intro filename modeStr params tail mode hf hspells hp ht
    have hm := zero_not_mem_of_spells hspells
    rw [deserialiseRwPacket_of_strings htype hf hm hp ht,
      (stringToModeT_eq_some_iff hm mode).mpr hspells]
    rfl
  · intro filename modeStr params tail hf hm hnone hp ht
    have hmode : stringToModeT modeStr = none := by
      rw [Option.eq_none_iff_forall_ne_some]
      intro mode hmode
      exact hnone mode ((stringToModeT_eq_some_iff hm mode).mp hmode)
    rw [deserialiseRwPacket_of_strings htype hf hm hp ht, hmode]
    rfl
  · intro strings tail hs ht hfew
    exact deserialiseRwPacket_of_few type hs ht hfew

/-- A WRITE request in mixed spelling, with one option and something unterminated behind it. -/
theorem request_decoded_mixed :
    deserialiseRwPacket (requestBytes .write
        [str "a", str "NetASCII", str "tsize", str "10k"] (str "x")) =
      some {
        type := .write
        filename := str "a"
        mode := .netascii
        options := [(str "TSIZE", str "10K")] } :=
  (request_decoded (.inr rfl)).1 (str "a") (str "NetASCII") [str "tsize", str "10k"] (str "x")
    .netascii (by decide) ((map_toupper_eq_mode_iff _ _).mp (by decide)) (by decide) (by decide)

/-! ### The encoder -/

/-- What the encoder writes: two strings. -/
theorem serialiseRwPacket_eq (packet : RwPacket) : serialiseRwPacket packet =
    requestBytes packet.type [packet.filename, modeTToString packet.mode] [] := by
  simp [serialiseRwPacket, requestBytes]

/-- A request arrives without its options. -/
theorem deserialise_serialiseRwPacket {packet : RwPacket}
    (htype : packet.type = .read ∨ packet.type = .write) (hf : 0 ∉ packet.filename) :
    deserialiseRwPacket (serialiseRwPacket packet) = some { packet with options := [] } := by
  have hmode : 0 ∉ modeTToString packet.mode ∧
      stringToModeT (modeTToString packet.mode) = some packet.mode := by
    cases packet.mode with
    | octet => exact ⟨by decide, by decide⟩
    | netascii => exact ⟨by decide, by decide⟩
  have hnone : ∀ s ∈ ([] : List Bytes), 0 ∉ s := fun s hs ↦ absurd hs List.not_mem_nil
  rw [serialiseRwPacket_eq,
    deserialiseRwPacket_of_strings htype hf hmode.1 hnone List.not_mem_nil, hmode.2]
  rfl

/-- A request survives the wire if and only if it has no options. -/
theorem request_survives_iff {packet : RwPacket}
    (htype : packet.type = .read ∨ packet.type = .write) (hf : 0 ∉ packet.filename) :
    deserialiseRwPacket (serialiseRwPacket packet) =
        some { packet with options := upperCased packet.options } ↔
      packet.options = [] := by
  rw [deserialise_serialiseRwPacket htype hf, Option.some.injEq]
  constructor
  · intro h
    have hoptions := congrArg RwPacket.options h
    exact List.map_eq_nil_iff.mp hoptions.symm
  · intro h
    rw [h]
    rfl

/-- A READ request without options survives. -/
theorem request_survives_plain :
    deserialiseRwPacket (serialiseRwPacket { filename := str "a" }) =
      some { filename := str "a" } :=
  (request_survives_iff (.inl rfl) (by decide)).mpr rfl

/-- The only option of a request does not reach the wire. -/
theorem request_loses_option : ∃ packet : RwPacket,
    packet.type = .read ∧ packet.filename = str "a" ∧ packet.options = [(str "TSIZE", str "0")] ∧
      deserialiseRwPacket (serialiseRwPacket packet) ≠
        some { packet with options := upperCased packet.options } := by
  refine ⟨{ filename := str "a", options := [(str "TSIZE", str "0")] }, rfl, rfl, rfl, ?_⟩
  rw [deserialise_serialiseRwPacket (.inl rfl) (by decide), ne_eq, Option.some.injEq]
  decide

end CppTftp.Tftp
