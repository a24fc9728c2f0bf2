import CppTftp.Server.StoredUploads

/-!
# Why an upload is one block

A WRITE connection receives into a buffer of the block size, so that the header takes four bytes
of it and every payload it sees is a short one. It takes the first block it accepts for the
last.
-/

namespace CppTftp

open Utils

/-! ### What one block can add to the file -/

/-- Decoding never lengthens. -/
theorem Utils.length_le_of_netasciiToNative {y x : Bytes} (h : netasciiToNative y = .ok x) :
    x.length ≤ y.length := by
  induction y using netasciiToNative.induct generalizing x with
  | case1 =>
    cases h
    exact Nat.le_refl 0
  | case2 =>
    rw [netasciiToNative, if_pos rfl] at h
    cases h
  | case3 rest ih =>
    rw [netasciiToNative_crNul] at h
    cases hrest : netasciiToNative rest with
    | error stop =>
      rw [hrest] at h
      cases h
    | ok x' =>
      rw [hrest] at h
      cases h
      have hle := ih hrest
      simp only [List.length_cons]
      omega
  | case4 rest hz ih =>
    rw [netasciiToNative_crLf] at h
    rw [netasciiToNative_cons (by decide)] at ih
    have hle := ih h
    simp only [List.length_cons] at hle ⊢
    omega
  | case5 next rest hz hl =>
    simp only [netasciiToNative, ↓reduceIte, hz, hl] at h
    cases h
  | case6 c rest hc ih =>
    rw [netasciiToNative_cons hc] at h
    cases hrest : netasciiToNative rest with
    | error stop =>
      rw [hrest] at h
      cases h
    | ok x' =>
      rw [hrest] at h
      cases h
      have hle := ih hrest
      simp only [List.length_cons]
      omega

/-- A payload stands for at most as many bytes as it has. -/
theorem length_nativePayload_le {mode : Mode} {data nativeData : Bytes}
    (h : nativePayload mode data = .ok nativeData) : nativeData.length ≤ data.length := by
  rw [nativePayload] at h
  split at h
  · exact length_le_of_netasciiToNative h
  · cases h
    exact Nat.le_refl _

namespace TftpWriteFile

/-- A loop that returns has had no more taken than it was to count, however often it began
the payload again. -/
theorem length_taken_fwriteLoop {stopsOnError : Bool} {data : Bytes} {fuel n : Nat}
    {f f' : FileOut} (h : fwriteLoop stopsOnError data fuel f n = .ok f') :
    f'.taken.length ≤ f.taken.length + (data.length - n) := by
  induction fuel generalizing f n with
  | zero => simp [fwriteLoop] at h
  | succ fuel ih =>
    rw [fwriteLoop] at h
    split at h
    · have hrest := ih h
      have hlimit := f.limit_le (data.take (data.length - n)).length
      simp only [List.length_append, List.length_take] at hrest hlimit
      omega
    · cases h
      exact Nat.le_add_right _ _

/-- A write adds at most as many bytes as it is given. -/
theorem length_taken_write {w w' : TftpWriteFile} {data : Bytes} (h : w.write data = .ok w') :
    w'.taken.length ≤ w.taken.length + data.length := by
  rw [write] at h
  split at h
  · cases h
  · next nativeData hd =>
    split at h
    · cases h
    · next f hfd =>
      split at h
      · cases h
      · next f' hl =>
        cases h
        have hloop := length_taken_fwriteLoop hl
        have hle := length_nativePayload_le hd
        simp only [taken, hfd, Option.map_some, Option.getD_some]
        omega

end TftpWriteFile

namespace TftpServerConnection

open Tftp Lib

variable {b : Build} {c c' : TftpServerConnection} {e : Event} {es : List Event}
  {l log : List Action} {w : World} {request : RwPacket}

/-- A payload that was received fits the buffer with its header. -/
theorem Accepts.length_le {d : Bytes} {p : DataPacket} (h : c.Accepts d p) :
    p.data.length + 4 ≤ c.blockSize := by
  have hdecoded := h.decoded
  have hfour := (opcode_of_deserialiseDataPacket hdecoded).1
  rw [deserialiseDataPacket] at hdecoded
  split at hdecoded
  · cases hdecoded
  · cases hdecoded
    simp only [List.length_drop, List.length_take] at hfour ⊢
    omega

/-! ### One block at most -/

/-- Nothing was written, or one block that fits the buffer with its header, and the next packet
is then the final ACK or an ERROR packet. -/
inductive AtMostOne (c : TftpServerConnection) (log : List Action) : Prop where
  | none (writes : writes log = []) (taken : c.fileWriter.taken = [])
  | one (data : Bytes) (writes : writes log = [data]) (fits : data.length + 4 ≤ c.blockSize)
      (taken : c.fileWriter.taken.length ≤ data.length) (answering : c.Answering)

/-- An upload that took at most one block. -/
structure OneBlock (c : TftpServerConnection) (log : List Action) : Prop where
  side : c.Uploading ∨ c.state = .error
  blocks : AtMostOne c log

/-- A connection about to answer awaits nothing. -/
theorem Answering.not_accepts (h : c.Answering) (d : Bytes) (p : DataPacket) :
    ¬c.Accepts d p := by
  intro hacc
  rcases h with ⟨hs, -⟩ | ⟨hs, -⟩
  · rw [hacc.state] at hs
    cases hs
  · rw [hacc.state] at hs
    cases hs

/-- One event of an upload. -/
theorem OneBlock.step (h : OneBlock c log)
    (hs : TftpServerConnection.step b c e = .ok l c') : OneBlock c' (log ++ l) := by
  have hsize := (kept_step hs).blockSize
  by_cases hb : ∃ d p, e = .readable (.datagram d) ∧ c.Accepts d p
  · obtain ⟨d, p, rfl, hacc⟩ := hb
    obtain ⟨hl, hwrote⟩ := hacc.returns hs
    have hfits := hacc.length_le
    cases h.blocks with
    | one data writes fits taken answering => exact absurd hacc (answering.not_accepts d p)
    | none writes taken =>
      have hadded := TftpWriteFile.length_taken_write hwrote.write
      rw [taken, List.length_nil, Nat.zero_add] at hadded
      have hwrites : TftpServerConnection.writes (log ++ l) = [p.data] := by
        rw [writes_append, writes, hl, List.nil_append]
      rw [← hsize] at hfits
      cases he : c'.fileWriter.error with
      | true =>
        have hst := hwrote.failed he
        exact ⟨.inr hst.1, .one p.data hwrites hfits hadded (.inr hst)⟩
      | false =>
        have hst := hwrote.state he
        -- the header takes part of the buffer, so the block is short
        have hfinal := hwrote.finalAck he (by omega)
        exact ⟨.inl (.inl hst), .one p.data hwrites hfits hadded (.inl ⟨hst, hfinal⟩)⟩
  · have hno : ∀ d p, e = .readable (.datagram d) → ¬c.Accepts d p :=
      fun d p he hacc ↦ hb ⟨d, p, he, hacc⟩
    obtain ⟨hl, hu⟩ := untouched_step h.side hno hs
    have hwrites : TftpServerConnection.writes (log ++ l) = TftpServerConnection.writes log := by
      rw [writes_append, hl, List.append_nil]
    refine ⟨hu.side, ?_⟩
    cases h.blocks with
    | none writes taken =>
      apply AtMostOne.none
      · exact hwrites.trans writes
      · rw [hu.fileWriter]
        exact taken
    | one data writes fits taken answering =>
      apply AtMostOne.one data
      · exact hwrites.trans writes
      · rw [hsize]
        exact fits
      · rw [hu.fileWriter]
        exact taken
      · exact hu.answering answering

/-- It starts with nothing written. -/
theorem oneBlock_create (ht : request.type = .write) : OneBlock (create w request) [] := by
  refine ⟨(storing_create ht).side, .none rfl ?_⟩
  rw [(files_create w request).2]
  split
  · cases w.writable with
    | none => rfl
    | some sink => rfl
  · rfl

/-- Every run of a WRITE connection. -/
theorem oneBlock_runs (ht : request.type = .write)
    (hr : Runs (step b) (create w request) es log c) : OneBlock c log :=
  hr.invariant (I := fun l c ↦ OneBlock c l) (oneBlock_create ht) fun _ _ _ _ _ h hs ↦ h.step hs

/-- A WRITE connection writes one block at most, whatever the client, the network, the device and
the clock do: it is shorter than the block size by the header at least, the file never holds
more than that, and after it no further block is awaited. -/
theorem upload_is_one_block (ht : request.type = .write)
    (hr : Runs (step b) (create w request) es log c) :
    (writes log).length ≤ 1 ∧
      (∀ data ∈ writes log, data.length + 4 ≤ (create w request).blockSize) ∧
      c.fileWriter.taken.length ≤ (create w request).blockSize - 4 ∧
      (c.state = .waitForData → writes log = []) := by
  have hsize := (kept_runs hr).blockSize
  cases (oneBlock_runs ht hr).blocks with
  | none writes taken =>
    rw [writes, taken]
    simp
  | one data writes fits taken answering =>
    rw [writes, ← hsize]
    refine ⟨Nat.le_refl 1, ?_, by omega, ?_⟩
    · intro d hd
      rw [List.mem_singleton.mp hd]
      exact fits
    · intro hwait
      rcases answering with ⟨hs, -⟩ | ⟨hs, -⟩
      · rw [hwait] at hs
        cases hs
      · rw [hwait] at hs
        cases hs

/-- One byte of the block arrived, and the client sends the next block. -/
theorem upload_is_one_block_next :
    ∃ log c, Runs (step .release) (create { writable := some {} } { type := .write })
        [.writable .sent, .readable (.datagram [0, 3, 0, 1, 7]), .writable .sent,
          .readable (.datagram [0, 3, 0, 2, 8])] log c ∧
      writes log = [[7]] ∧ (writes log).length ≤ 1 ∧ c.fileWriter.taken.length ≤ 508 := by
  have hr : Runs (step .release) (create { writable := some {} } { type := .write })
      [.writable .sent, .readable (.datagram [0, 3, 0, 1, 7]), .writable .sent,
        .readable (.datagram [0, 3, 0, 2, 8])] _ _ := rfl
  have h := upload_is_one_block rfl hr
  exact ⟨_, _, hr, rfl, h.1, h.2.2.1⟩

end TftpServerConnection
end CppTftp
