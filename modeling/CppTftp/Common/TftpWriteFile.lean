import CppTftp.Common.Tftp

/-!
# The file writer

`src/common/tftp_write_file.cpp`. Both loops keep a count of the bytes written but hand
`fwrite` the start of the data again; only the NETASCII one stops on an error.
-/

namespace CppTftp

open Utils

/-- `tftp_write_file`, `tftp_write_file.hpp:9–27`; `fd` is `none` where it is `NULL`. -/
structure TftpWriteFile where
  fd : Option FileOut := none
  mode : Mode := .octet
  deriving DecidableEq, Repr

/-- The bytes a payload stands for: itself, or its decoding, which can throw. -/
def nativePayload (mode : Mode) (data : Bytes) : Except Stop Bytes :=
  if mode ≠ .octet then netasciiToNative data else .ok data

/-- A payload has a meaning in OCTET mode, and in NETASCII mode when it is well paired. -/
theorem nativePayload_iff (mode : Mode) (data : Bytes) :
    (∃ nativeData, nativePayload mode data = .ok nativeData) ↔
      mode = .octet ∨ WellPaired data := by
  unfold nativePayload
  by_cases h : mode = .octet
  · simp [h]
  · rw [if_pos h, ← accepted_iff, Accepted]
    simp [h]

namespace TftpWriteFile

/-- `tftp_write_file::open`, `tftp_write_file.cpp:30–38`; it throws exactly when `fd` is then
`none`. -/
def openFile (w : TftpWriteFile) (file : Option FileSink) (mode : Mode) : TftpWriteFile :=
  { w with mode, fd := file.map FileOut.fopen }

/-- `tftp_write_file::error`, `tftp_write_file.cpp:47–50`. -/
def error (w : TftpWriteFile) : Bool := (w.fd.map (·.error)).getD false

/-- The loops of `tftp_write_file.cpp:59–62,66–69`; `stopsOnError` says whether the condition
has `!ferror(_fd)`. Once the listed short counts are used up the device takes all or
nothing for good, so a loop still running then never ends. -/
def fwriteLoop (stopsOnError : Bool) (data : Bytes) : Nat → FileOut → Nat → Except Stop FileOut
  | 0, _, _ => .error .hang
  | fuel + 1, f, bytesWritten =>
    if (stopsOnError && f.error) = false ∧ f.eof = false ∧ bytesWritten < data.length then
      let (n, f') := f.fwrite (data.take (data.length - bytesWritten))
      fwriteLoop stopsOnError data fuel f' (bytesWritten + n)
    else .ok f

/-- `tftp_write_file::write`, `tftp_write_file.cpp:53–71`. -/
def write (w : TftpWriteFile) (data : Bytes) : Except Stop TftpWriteFile :=
  match nativePayload w.mode data with
  | .error stop => .error stop
  | .ok nativeData =>
    match w.fd with
    | none => .error .nullFile
    | some f =>
      match fwriteLoop (w.mode != .octet) nativeData (f.short.length + 2) f 0 with
      | .error stop => .error stop
      | .ok f' => .ok { w with fd := some f' }

/-- `tftp_write_file::~tftp_write_file`, `tftp_write_file.cpp:21–27`: the file it leaves, if there
is one. The result of `fclose` is dropped. -/
def destroy (w : TftpWriteFile) (capacity : Nat) : Option Bytes :=
  w.fd.map fun f ↦ (f.fclose capacity).1

/-- The writer is open on a device that takes everything, and nothing went wrong so far. -/
def Good (w : TftpWriteFile) : Prop :=
  ∃ f, w.fd = some f ∧ f.Sound ∧ f.error = false ∧ f.eof = false

/-- The bytes the stream has taken. -/
def taken (w : TftpWriteFile) : Bytes := (w.fd.map (·.taken)).getD []

/-- A file just opened has no error. -/
@[simp] theorem error_openFile (w : TftpWriteFile) (file : Option FileSink) (mode : Mode) :
    (w.openFile file mode).error = false := by
  cases file <;> rfl

/-- A file just opened on a device that takes everything is good. -/
theorem good_openFile (w : TftpWriteFile) {sink : FileSink} (h : (FileOut.fopen sink).Sound)
    (mode : Mode) : (w.openFile (some sink) mode).Good :=
  ⟨_, rfl, h, rfl, rfl⟩

private theorem fwriteLoop_of_sound {f : FileOut} (hs : f.Sound) (he : f.error = false)
    (hf : f.eof = false) (stopsOnError : Bool) (data : Bytes) :
    fwriteLoop stopsOnError data (f.short.length + 2) f 0 =
      .ok { f with taken := f.taken ++ data } := by
  have hfuel : f.short.length + 2 = 2 := by rw [hs.1]; rfl
  rw [hfuel, fwriteLoop]
  by_cases hd : 0 < data.length
  · rw [if_pos ⟨by simp [he], hf, hd⟩, Nat.sub_zero, List.take_length,
      FileOut.fwrite_of_sound hs]
    simp only
    rw [fwriteLoop, if_neg (by omega)]
  · have hn : data = [] := List.eq_nil_of_length_eq_zero (by omega)
    rw [if_neg (fun h ↦ hd h.2.2), hn, List.append_nil]

/-- A good writer appends what a decodable payload stands for and stays good. -/
theorem write_of_good {w : TftpWriteFile} (h : w.Good) {data nativeData : Bytes}
    (hd : nativePayload w.mode data = .ok nativeData) :
    ∃ w', w.write data = .ok w' ∧ w'.Good ∧ w'.error = false ∧ w'.mode = w.mode ∧
      w'.taken = w.taken ++ nativeData := by
  obtain ⟨f, hfd, hs, he, hf⟩ := h
  refine ⟨{ w with fd := some { f with taken := f.taken ++ nativeData } }, ?_, ?_, he, rfl, ?_⟩
  · rw [write, hd]
    simp only [hfd]
    rw [fwriteLoop_of_sound hs he hf]
  · exact ⟨_, rfl, hs, he, hf⟩
  · simp [taken, hfd]

/-- A call that returns keeps a good writer good. -/
theorem good_write {w w' : TftpWriteFile} {data : Bytes} (h : w.Good)
    (hw : w.write data = .ok w') : w'.Good := by
  cases hd : nativePayload w.mode data with
  | error stop =>
    rw [write, hd] at hw
    cases hw
  | ok nativeData =>
    obtain ⟨w₁, hw₁, hg, -⟩ := write_of_good h hd
    rw [hw₁] at hw
    cases hw
    exact hg

/-- A payload that does not decode makes the call throw. -/
theorem write_of_not_decodable {w : TftpWriteFile} {data : Bytes} {stop : Stop}
    (hd : nativePayload w.mode data = .error stop) : w.write data = .error stop := by
  rw [write, hd]

/-- A call that returns keeps the mode. -/
theorem mode_write {w w' : TftpWriteFile} {data : Bytes} (h : w.write data = .ok w') :
    w'.mode = w.mode ∧ w'.fd.isSome := by
  rw [write] at h
  split at h
  · cases h
  · split at h
    · cases h
    · split at h
      · cases h
      · cases h
        exact ⟨rfl, rfl⟩

/-- A loop that returns with no error had none before. -/
theorem error_fwriteLoop {stopsOnError : Bool} {data : Bytes} {fuel n : Nat}
    {f f' : FileOut} (h : fwriteLoop stopsOnError data fuel f n = .ok f')
    (he : f'.error = false) : f.error = false := by
  induction fuel generalizing f n with
  | zero => simp [fwriteLoop] at h
  | succ fuel ih =>
    rw [fwriteLoop] at h
    split at h
    · have hw := ih h
      exact (Bool.or_eq_false_iff.mp hw).1
    · cases h
      exact he

end TftpWriteFile
end CppTftp
