import CppTftp.Common.Tftp
import CppTftp.Lib.Blocks

/-!
# The file reader

`src/common/tftp_read_file.cpp`. In NETASCII mode a block is cut from the bytes left
over by the block before and the encoding of newly read ones; what does not fit is kept
for the next call.
-/

namespace CppTftp

open Utils Tftp Lib

/-- `tftp_read_file`, `tftp_read_file.hpp:9–28`; `fd` is `none` where it is `NULL`. -/
structure TftpReadFile where
  fd : Option FileIn := none
  mode : Mode := .octet
  overflowBuffer : Bytes := []
  deriving DecidableEq, Repr

/-- The bytes a transfer carries for a file: its own, or their netascii encoding. -/
def transferStream (mode : Mode) (file : Bytes) : Bytes :=
  if mode = .octet then file else nativeToNetascii file

/-- The DATA datagram of a block. -/
def dataFrame (size : Nat) (stream : Bytes) (n : Nat) : Bytes :=
  serialiseDataPacket { data := block size stream n, blockNumber := UInt16.ofNat n }

@[simp] theorem transferStream_octet (file : Bytes) : transferStream .octet file = file := rfl

@[simp] theorem transferStream_netascii (file : Bytes) :
    transferStream .netascii file = nativeToNetascii file := rfl

@[simp] theorem deserialise_dataFrame (size : Nat) (stream : Bytes) (n : Nat) :
    deserialiseDataPacket (dataFrame size stream n) =
      some { data := block size stream n, blockNumber := UInt16.ofNat n } :=
  deserialise_serialiseDataPacket _

/-- What a receive limit that leaves the header makes of a DATA datagram. -/
theorem deserialise_take_dataFrame (size : Nat) (stream : Bytes) (n : Nat) {limit : Nat}
    (h : 4 ≤ limit) : deserialiseDataPacket ((dataFrame size stream n).take limit) =
      some { data := (block size stream n).take (limit - 4), blockNumber := UInt16.ofNat n } :=
  deserialise_take_serialiseDataPacket _ h

private theorem loop_decreases {f : FileIn} {n len want : Nat} (hn : 0 < n) (hl : len < want)
    (he : f.error = false ∧ f.eof = false) :
    (if (f.fread n).2.error = true ∨ (f.fread n).2.eof = true then 0
      else 1 + (want - (len + (f.fread n).1.length))) <
    if f.error = true ∨ f.eof = true then 0 else 1 + (want - len) := by
  rw [he.1, he.2]
  simp only [Bool.false_eq_true, or_self, ↓reduceIte]
  split
  · omega
  · next hx =>
    rcases length_eq f n with h | h
    · omega
    · exact absurd h hx
where
  length_eq (f : FileIn) (n : Nat) :
      (f.fread n).1.length = n ∨ ((f.fread n).2.error = true ∨ (f.fread n).2.eof = true) := by
    rcases f.length_fread n with h | h | h
    · exact .inl h
    · exact .inr (.inr h)
    · exact .inr (.inl h)

namespace TftpReadFile

/-- `tftp_read_file::open`, `tftp_read_file.cpp:31–39`; it throws exactly when `fd` is then
`none`. -/
def openFile (r : TftpReadFile) (file : Option FileContents) (mode : Mode) : TftpReadFile :=
  { r with mode, fd := file.map FileIn.fopen }

/-- `tftp_read_file::eof`, `tftp_read_file.cpp:42–45`. -/
def eof (r : TftpReadFile) : Bool := r.overflowBuffer.isEmpty && (r.fd.map (·.eof)).getD false

/-- `tftp_read_file::error`, `tftp_read_file.cpp:48–51`. -/
def error (r : TftpReadFile) : Bool := (r.fd.map (·.error)).getD false

/-- The NETASCII loop, `tftp_read_file.cpp:62–65`: every call asks for all of
`bytes_from_file` again. -/
def netasciiLoop (bytesFromFile : Nat) (f : FileIn) (ret : Bytes) : Bytes × FileIn :=
  if _h : (f.error = false ∧ f.eof = false) ∧ ret.length < bytesFromFile then
    netasciiLoop bytesFromFile (f.fread bytesFromFile).2 (ret ++ (f.fread bytesFromFile).1)
  else (ret, f)
termination_by if f.error = true ∨ f.eof = true then 0 else 1 + (bytesFromFile - ret.length)
decreasing_by
  rw [List.length_append]
  exact loop_decreases (by omega) _h.2 _h.1

/-- The OCTET loop, `tftp_read_file.cpp:88–91`. -/
def octetLoop (sizeBytes : Nat) (f : FileIn) (ret : Bytes) : Bytes × FileIn :=
  if _h : (f.error = false ∧ f.eof = false) ∧ ret.length < sizeBytes then
    octetLoop sizeBytes (f.fread (sizeBytes - ret.length)).2
      (ret ++ (f.fread (sizeBytes - ret.length)).1)
  else (ret, f)
termination_by if f.error = true ∨ f.eof = true then 0 else 1 + (sizeBytes - ret.length)
decreasing_by
  rw [List.length_append]
  exact loop_decreases (by omega) _h.2 _h.1

/-- `tftp_read_file::read_in_to`, `tftp_read_file.cpp:54–94`. -/
def readInTo (r : TftpReadFile) (sizeBytes : Nat) : Except Stop (Bytes × TftpReadFile) :=
  match r.fd with
  | none => .error .nullFile
  | some f =>
    if r.mode ≠ .octet then
      let bytesFromFile := sizeSub sizeBytes r.overflowBuffer.length
      let (fresh, f') := netasciiLoop bytesFromFile f []
      let ret := r.overflowBuffer ++ nativeToNetascii fresh
      if ret.length > sizeBytes then
        .ok (ret.take sizeBytes,
          { r with fd := some f', overflowBuffer := ret.drop sizeBytes })
      else .ok (ret, { r with fd := some f', overflowBuffer := [] })
    else
      let (ret, f') := octetLoop sizeBytes f []
      .ok (ret, { r with fd := some f' })

/-- `tftp_read_file::~tftp_read_file`, `tftp_read_file.cpp:21–28`. Closing a file that was read
loses nothing; a debug build stops if something was kept back. -/
def destroy (b : Build) (r : TftpReadFile) : Except Stop Unit :=
  match b with
  | .debug => if r.overflowBuffer.isEmpty then .ok () else .error .assertion
  | .release => .ok ()

/-- What is still to be transferred: the overflow, then the rest of the file encoded. -/
def pending (r : TftpReadFile) : Bytes :=
  r.overflowBuffer ++ transferStream r.mode ((r.fd.map (·.rest)).getD [])

/-- The reader is open, has met no error, and its overflow fits a block of `size`. -/
structure Ready (r : TftpReadFile) (size : Nat) : Prop where
  opened : ∃ f, r.fd = some f ∧ f.error = false ∧ (f.eof = true → f.rest = [])
  octet : r.mode = .octet → r.overflowBuffer = []
  overflow : r.overflowBuffer.length ≤ size

/-! ### The two loops -/

private theorem netasciiLoop_exit {n : Nat} {f : FileIn} {ret : Bytes}
    (h : f.error = true ∨ f.eof = true ∨ n ≤ ret.length) : netasciiLoop n f ret = (ret, f) := by
  rw [netasciiLoop, dif_neg]
  rintro ⟨⟨he, hf⟩, hl⟩
  rcases h with h | h | h
  · rw [he] at h; cases h
  · rw [hf] at h; cases h
  · omega

private theorem octetLoop_exit {n : Nat} {f : FileIn} {ret : Bytes}
    (h : f.error = true ∨ f.eof = true ∨ n ≤ ret.length) : octetLoop n f ret = (ret, f) := by
  rw [octetLoop, dif_neg]
  rintro ⟨⟨he, hf⟩, hl⟩
  rcases h with h | h | h
  · rw [he] at h; cases h
  · rw [hf] at h; cases h
  · omega

private theorem fread_done (f : FileIn) (n : Nat) :
    (f.fread n).2.error = true ∨ (f.fread n).2.eof = true ∨ n ≤ (f.fread n).1.length := by
  rcases f.length_fread n with h | h | h
  · exact .inr (.inr (Nat.le_of_eq h.symm))
  · exact .inr (.inl h)
  · exact .inl h

/-- On a stream without indicators the NETASCII loop is one `fread`. -/
theorem netasciiLoop_eq {n : Nat} {f : FileIn} (he : f.error = false) (hf : f.eof = false)
    (hn : 0 < n) : netasciiLoop n f [] = f.fread n := by
  rw [netasciiLoop, dif_pos ⟨⟨he, hf⟩, hn⟩, List.nil_append]
  exact netasciiLoop_exit (fread_done f n)

/-- On a stream without indicators the OCTET loop is one `fread`. -/
theorem octetLoop_eq {n : Nat} {f : FileIn} (he : f.error = false) (hf : f.eof = false)
    (hn : 0 < n) : octetLoop n f [] = f.fread n := by
  rw [octetLoop, dif_pos ⟨⟨he, hf⟩, hn⟩, List.nil_append, List.length_nil, Nat.sub_zero]
  exact octetLoop_exit (fread_done f n)

/-- Where the indicators are set only at the end of what can be read, the loop takes as much of it
as was asked for, and leaves it so. -/
theorem left_netasciiLoop {f : FileIn} (n : Nat)
    (hf : f.error = true ∨ f.eof = true → f.left = []) :
    (netasciiLoop n f []).1 = f.left.take n ∧ (netasciiLoop n f []).2.left = f.left.drop n ∧
      ((netasciiLoop n f []).2.error = true ∨ (netasciiLoop n f []).2.eof = true →
        (netasciiLoop n f []).2.left = []) := by
  by_cases hx : f.error = true ∨ f.eof = true
  · rw [netasciiLoop_exit (hx.imp_right .inl), hf hx]
    exact ⟨List.take_nil.symm, List.drop_nil.symm, fun _ ↦ rfl⟩
  · by_cases hn : n = 0
    · rw [netasciiLoop_exit (.inr (.inr (Nat.le_of_eq hn))), hn]
      exact ⟨List.take_zero.symm, List.drop_zero.symm, fun h ↦ absurd h hx⟩
    · have he : f.error = false := Bool.eq_false_iff.mpr fun h ↦ hx (.inl h)
      have hfe : f.eof = false := Bool.eq_false_iff.mpr fun h ↦ hx (.inr h)
      obtain ⟨hdata, hleft, hend⟩ := f.left_fread n
      rw [netasciiLoop_eq he hfe (Nat.pos_of_ne_zero hn)]
      refine ⟨hdata, hleft, ?_⟩
      intro h
      rcases hend h with h' | h' | hshort
      · exact absurd (.inl h') hx
      · exact absurd (.inr h') hx
      · rw [hleft]
        exact List.drop_of_length_le (Nat.le_of_lt hshort)

/-- What a loop that met no error leaves: the next bytes of the file, a stream that goes
on after them, and the end reported only where nothing is left. -/
structure Took (f : FileIn) (n : Nat) (out : Bytes × FileIn) : Prop where
  data : out.1 = f.rest.take n
  rest : out.2.rest = f.rest.drop n
  eof : out.2.eof = true → out.2.rest = []

private theorem took_fread {f : FileIn} {n : Nat} (hf : f.eof = false)
    (h : (f.fread n).2.error = false) : Took f n (f.fread n) := by
  obtain ⟨hd, hr, he⟩ := FileIn.fread_of_not_error h
  refine ⟨hd, hr, fun hx ↦ ?_⟩
  rw [he, hf, Bool.false_or, decide_eq_true_eq] at hx
  rw [hr]
  exact List.drop_of_length_le (Nat.le_of_lt hx)

private theorem took_nothing {f : FileIn} {n : Nat} (hf : f.eof = true → f.rest = [])
    (h : f.eof = true ∨ n = 0) : Took f n ([], f) := by
  rcases h with h | rfl
  · have hr := hf h
    exact ⟨by simp [hr], by simp [hr], hf⟩
  · exact ⟨by simp, by simp, hf⟩

/-- Asking again for what was asked before makes no difference: the first `fread` already
ends the loop. -/
theorem octetLoop_eq_netasciiLoop (n : Nat) (f : FileIn) :
    octetLoop n f [] = netasciiLoop n f [] := by
  by_cases hx : f.error = true ∨ f.eof = true ∨ n ≤ ([] : Bytes).length
  · rw [octetLoop_exit hx, netasciiLoop_exit hx]
  · have he : f.error = false := Bool.eq_false_iff.mpr fun h ↦ hx (.inl h)
    have hf : f.eof = false := Bool.eq_false_iff.mpr fun h ↦ hx (.inr (.inl h))
    have hn : 0 < n := Nat.not_le.mp fun h ↦ hx (.inr (.inr h))
    rw [octetLoop_eq he hf hn, netasciiLoop_eq he hf hn]

/-- What the loop does where the stream is good and no error is met. -/
theorem took_netasciiLoop {f : FileIn} {n : Nat} (he : f.error = false)
    (hf : f.eof = true → f.rest = []) (h : (netasciiLoop n f []).2.error = false) :
    Took f n (netasciiLoop n f []) := by
  by_cases hx : f.eof = true ∨ n = 0
  · rw [netasciiLoop_exit (by rcases hx with hx | hx <;> simp [hx])]
    exact took_nothing hf hx
  · have hfe : f.eof = false := Bool.eq_false_iff.mpr fun h ↦ hx (.inl h)
    have hn : 0 < n := Nat.pos_of_ne_zero fun h0 ↦ hx (.inr h0)
    rw [netasciiLoop_eq he hfe hn] at h ⊢
    exact took_fread hfe h

/-- A loop that met no error and took less than was asked for reached the end of the file. -/
theorem eof_netasciiLoop {f : FileIn} {n : Nat} (h : (netasciiLoop n f []).2.error = false)
    (hshort : (netasciiLoop n f []).1.length < n) : (netasciiLoop n f []).2.eof = true := by
  by_cases hx : f.error = true ∨ f.eof = true
  · rw [netasciiLoop_exit (hx.imp_right .inl)] at h ⊢
    rcases hx with hx | hx
    · rw [hx] at h
      cases h
    · exact hx
  · have he : f.error = false := Bool.eq_false_iff.mpr fun h ↦ hx (.inl h)
    have hf : f.eof = false := Bool.eq_false_iff.mpr fun h ↦ hx (.inr h)
    rw [netasciiLoop_eq he hf (by omega)] at h hshort ⊢
    rcases fread_done f n with hd | hd | hd
    · rw [h] at hd
      cases hd
    · exact hd
    · omega

/-- On a device that does not fail the loop meets no error. -/
theorem netasciiLoop_sound {f : FileIn} (hs : f.failAt = none) (he : f.error = false) (n : Nat) :
    (netasciiLoop n f []).2.error = false ∧ (netasciiLoop n f []).2.failAt = none := by
  by_cases hx : f.eof = true ∨ n = 0
  · rw [netasciiLoop_exit (by rcases hx with hx | hx <;> simp [hx])]
    exact ⟨he, hs⟩
  · have hf : f.eof = false := Bool.eq_false_iff.mpr fun h ↦ hx (.inl h)
    have hn : 0 < n := Nat.pos_of_ne_zero fun h0 ↦ hx (.inr h0)
    rw [netasciiLoop_eq he hf hn, ← he]
    exact FileIn.error_fread_of_sound hs n

/-! ### One call of `read_in_to` -/

/-- The device under the reader never fails. -/
def Sound (r : TftpReadFile) : Prop := ∀ f, r.fd = some f → f.failAt = none

/-- What one call delivers when it meets no error: the next `size` bytes of what was
pending, fewer only when there are no more. -/
structure Delivered (r : TftpReadFile) (size : Nat) (data : Bytes) (r' : TftpReadFile) :
    Prop where
  data_eq : data = r.pending.take size
  pending_eq : r'.pending = r.pending.drop size
  ready : r'.Ready size
  mode : r'.mode = r.mode

/-- In NETASCII mode what does not fit is kept back. -/
theorem readInTo_netascii {r : TftpReadFile} {f : FileIn} {size : Nat} (hfd : r.fd = some f)
    (hm : r.mode ≠ .octet) :
    ∃ data r', r.readInTo size = .ok (data, r') ∧ r'.mode = r.mode ∧
      r'.fd = some (netasciiLoop (sizeSub size r.overflowBuffer.length) f []).2 ∧
      data = (r.overflowBuffer ++ nativeToNetascii
        (netasciiLoop (sizeSub size r.overflowBuffer.length) f []).1).take size ∧
      r'.overflowBuffer = (r.overflowBuffer ++ nativeToNetascii
        (netasciiLoop (sizeSub size r.overflowBuffer.length) f []).1).drop size := by
  simp only [readInTo, hfd, ne_eq, hm, not_false_eq_true, ↓reduceIte]
  split
  · exact ⟨_, _, rfl, rfl, rfl, rfl, rfl⟩
  · next hle =>
    have hle := Nat.not_lt.mp hle
    exact ⟨_, _, rfl, rfl, rfl, (List.take_of_length_le hle).symm,
      (List.drop_of_length_le hle).symm⟩

/-- In OCTET mode nothing is kept back. -/
theorem readInTo_octet {r : TftpReadFile} {f : FileIn} {size : Nat} (hfd : r.fd = some f)
    (hm : r.mode = .octet) :
    r.readInTo size = .ok ((netasciiLoop size f []).1,
      { r with fd := some (netasciiLoop size f []).2 }) := by
  simp [readInTo, hfd, hm, octetLoop_eq_netasciiLoop]

private theorem pending_netascii {r : TftpReadFile} {f : FileIn} (hfd : r.fd = some f)
    (hm : r.mode ≠ .octet) : r.pending = r.overflowBuffer ++ nativeToNetascii f.rest := by
  simp [pending, hfd, transferStream, hm]

-- The read asks for as many file bytes as the block still has room for; their encoding is
-- at least as long, so the block is filled unless the file ran out.
private theorem delivered_netascii {r r' : TftpReadFile} {f : FileIn} {size : Nat} {data : Bytes}
    {out : Bytes × FileIn} (hr : r.Ready size) (hfd : r.fd = some f) (hm : r.mode ≠ .octet)
    (hmode : r'.mode = r.mode) (hfd' : r'.fd = some out.2) (herr : out.2.error = false)
    (ht : Took f (size - r.overflowBuffer.length) out)
    (hdata : data = (r.overflowBuffer ++ nativeToNetascii out.1).take size)
    (hover : r'.overflowBuffer = (r.overflowBuffer ++ nativeToNetascii out.1).drop size) :
    Delivered r size data r' := by
  have hov := hr.overflow
  have hsplit : r.pending =
      (r.overflowBuffer ++ nativeToNetascii out.1) ++ nativeToNetascii out.2.rest := by
    rw [pending_netascii hfd hm, List.append_assoc, ← nativeToNetascii_append, ht.data, ht.rest,
      List.take_append_drop]
  have hfull : size ≤ (r.overflowBuffer ++ nativeToNetascii out.1).length ∨ out.2.rest = [] := by
    by_cases hl : size - r.overflowBuffer.length ≤ f.rest.length
    · left
      have he := length_le_length_nativeToNetascii out.1
      have hd : out.1.length = size - r.overflowBuffer.length := by
        rw [ht.data, List.length_take, Nat.min_eq_left hl]
      rw [List.length_append]
      omega
    · right
      rw [ht.rest]
      exact List.drop_of_length_le (by omega)
  have hm' : r'.mode ≠ .octet := hmode ▸ hm
  constructor
  · rw [hdata, hsplit]
    rcases hfull with h | h
    · rw [List.take_append_of_le_length h]
    · rw [h, nativeToNetascii_nil, List.append_nil]
  · rw [pending_netascii hfd' hm', hover, hsplit]
    rcases hfull with h | h
    · rw [List.drop_append_of_le_length h]
    · rw [h, nativeToNetascii_nil, List.append_nil, List.append_nil]
  · refine ⟨⟨out.2, hfd', herr, ht.eof⟩, fun h ↦ absurd h hm', ?_⟩
    have he := length_nativeToNetascii_le out.1
    have hd : out.1.length ≤ size - r.overflowBuffer.length := by
      rw [ht.data, List.length_take]
      exact Nat.min_le_left _ _
    rw [hover, List.length_drop, List.length_append]
    omega
  · exact hmode

/-- A call on a good reader returns, and delivers the next block unless the device fails. -/
theorem readInTo_spec {r : TftpReadFile} {size : Nat} (hr : r.Ready size) :
    ∃ data r', r.readInTo size = .ok (data, r') ∧
      (r'.error = false → Delivered r size data r') ∧
      (r.Sound → r'.error = false ∧ r'.Sound) := by
  obtain ⟨f, hfd, he, hf⟩ := hr.opened
  by_cases hm : r.mode = .octet
  · refine ⟨_, _, readInTo_octet hfd hm, fun herr ↦ ?_, fun hs ↦ ?_⟩
    · have ht := took_netasciiLoop he hf herr
      have ho := hr.octet hm
      refine ⟨?_, ?_, ⟨⟨_, rfl, herr, ht.eof⟩, fun _ ↦ ho, hr.overflow⟩, rfl⟩
      · simp [pending, hfd, hm, ho, ht.data]
      · simp [pending, hfd, hm, ho, ht.rest]
    · obtain ⟨h1, h2⟩ := netasciiLoop_sound (hs f hfd) he size
      refine ⟨h1, fun f' hf' ↦ ?_⟩
      rw [← Option.some.inj hf']
      exact h2
  · obtain ⟨data, r', hok, hmode, hfd', hdata, hover⟩ :=
      @readInTo_netascii r f size hfd hm
    rw [sizeSub_of_le hr.overflow] at hfd' hdata hover
    refine ⟨data, r', hok, fun herr ↦ ?_, fun hs ↦ ?_⟩
    · have herr' : (netasciiLoop (size - r.overflowBuffer.length) f []).2.error = false := by
        simpa [error, hfd'] using herr
      exact delivered_netascii hr hfd hm hmode hfd' herr' (took_netasciiLoop he hf herr') hdata
        hover
    · obtain ⟨h1, h2⟩ := netasciiLoop_sound (hs f hfd) he (size - r.overflowBuffer.length)
      refine ⟨by simpa [error, hfd'] using h1, fun f' hf' ↦ ?_⟩
      rw [hfd'] at hf'
      rw [← Option.some.inj hf']
      exact h2

/-- A call that returns found the file open and leaves it open. -/
theorem isSome_readInTo {r r' : TftpReadFile} {size : Nat} {data : Bytes}
    (h : r.readInTo size = .ok (data, r')) : r'.fd.isSome := by
  cases hfd : r.fd with
  | none =>
    rw [readInTo, hfd] at h
    cases h
  | some f =>
    by_cases hm : r.mode = .octet
    · rw [readInTo_octet hfd hm] at h
      cases h
      rfl
    · obtain ⟨data₁, r₁, hok, -, hfd', -, -⟩ := @readInTo_netascii r f size hfd hm
      rw [h] at hok
      cases hok
      rw [hfd']
      rfl

/-- A short block leaves nothing behind and the reader at the end of its file. -/
theorem ended_of_short {r r' : TftpReadFile} {size : Nat} {data : Bytes} (hr : r.Ready size)
    (h : r.readInTo size = .ok (data, r')) (herr : r'.error = false) (hshort : data.length < size) :
    r'.overflowBuffer = [] ∧ r'.eof = true := by
  obtain ⟨f, hfd, -, -⟩ := hr.opened
  by_cases hm : r.mode = .octet
  · rw [readInTo_octet hfd hm] at h
    cases h
    have ho := hr.octet hm
    have heof := eof_netasciiLoop herr hshort
    exact ⟨ho, by simp [eof, ho, heof]⟩
  · obtain ⟨data₁, r₁, hok, -, hfd', hdata, hover⟩ := @readInTo_netascii r f size hfd hm
    rw [h] at hok
    cases hok
    rw [sizeSub_of_le hr.overflow] at hfd' hdata hover
    have herr' : (netasciiLoop (size - r.overflowBuffer.length) f []).2.error = false := by
      simpa [error, hfd'] using herr
    -- the encoding is no shorter than what was read, so a short block means a short read
    have hlen : r.overflowBuffer.length +
        (nativeToNetascii
          (netasciiLoop (size - r.overflowBuffer.length) f []).1).length < size := by
      rw [hdata, List.length_take, List.length_append] at hshort
      omega
    have hle := length_le_length_nativeToNetascii
      (netasciiLoop (size - r.overflowBuffer.length) f []).1
    have heof := eof_netasciiLoop herr' (by omega)
    have ho : r'.overflowBuffer = [] := by
      rw [hover]
      apply List.drop_of_length_le
      rw [List.length_append]
      omega
    exact ⟨ho, by simp [eof, ho, hfd', heof]⟩

/-- A file just opened is good for every block size, with its whole stream pending. -/
theorem ready_openFile (r : TftpReadFile) (file : FileContents) (mode : Mode) (size : Nat)
    (h : r.overflowBuffer = []) :
    (r.openFile (some file) mode).Ready size ∧
      (r.openFile (some file) mode).pending = transferStream mode file.bytes := by
  refine ⟨⟨⟨_, rfl, rfl, fun hf ↦ ?_⟩, fun _ ↦ h, ?_⟩, ?_⟩
  · simp [FileIn.fopen] at hf
  · simp [openFile, h]
  · simp [pending, openFile, h, FileIn.fopen]

end TftpReadFile
end CppTftp
