import CppTftp.Common.BlockCoding
import Mathlib.Algebra.GroupWithZero.Nat

/-!
# Writing to a device that takes less than it is given

Both loops of the file writer hand `fwrite` the start of the payload at every call. The NETASCII
loop stops at the first short count. The OCTET loop goes on, and what it appends then is right
only where the payload happens to begin again.
-/

namespace CppTftp

open Utils

namespace TftpWriteFile

variable {stopsOnError : Bool} {data : Bytes} {f f' : FileOut} {fuel n : Nat}

/-! ### One round of a loop -/

/-- A round calls `fwrite` once, with the start of the payload. -/
theorem fwriteLoop_round (h : (stopsOnError && f.error) = false) (hf : f.eof = false)
    (hn : n < data.length) :
    fwriteLoop stopsOnError data (fuel + 1) f n =
      fwriteLoop stopsOnError data fuel (f.fwrite (data.take (data.length - n))).2
        (n + f.limit (data.length - n)) := by
  have hlen : (data.take (data.length - n)).length = data.length - n := by
    rw [List.length_take]
    omega
  rw [fwriteLoop, if_pos ⟨h, hf, hn⟩]
  simp only [FileOut.fwrite, hlen]

/-- Once everything is counted the loop returns. -/
theorem fwriteLoop_done (hn : data.length ≤ n) :
    fwriteLoop stopsOnError data (fuel + 1) f n = .ok f := by
  rw [fwriteLoop, if_neg]
  intro h
  omega

/-- Nothing taken is given up again. -/
theorem taken_fwriteLoop (h : fwriteLoop stopsOnError data fuel f n = .ok f') :
    f.taken <+: f'.taken := by
  induction fuel generalizing f n with
  | zero => simp [fwriteLoop] at h
  | succ fuel ih =>
    rw [fwriteLoop] at h
    split at h
    · exact (List.prefix_append _ _).trans (ih h)
    · cases h
      exact List.prefix_rfl

/-- Where no error was set, the first call took everything that was left. -/
theorem limit_of_not_error (hf : f.eof = false) (hn : n < data.length)
    (h : fwriteLoop stopsOnError data (fuel + 1) f n = .ok f') (he : f'.error = false) :
    f.limit (data.length - n) = data.length - n := by
  have herr : (stopsOnError && f.error) = false := by
    rw [error_fwriteLoop h he, Bool.and_false]
  rw [fwriteLoop_round herr hf hn] at h
  have hshort := error_fwriteLoop h he
  have hle := f.limit_le (data.length - n)
  simp only [FileOut.fwrite, List.length_take, Bool.or_eq_false_iff,
    decide_eq_false_iff_not] at hshort
  have hmin : min (data.length - n) data.length = data.length - n := by omega
  rw [hmin] at hshort
  omega

/-- A loop that returns with no error has appended what was not counted yet. -/
theorem taken_of_not_error (hf : f.eof = false)
    (h : fwriteLoop stopsOnError data fuel f n = .ok f') (he : f'.error = false) :
    f'.taken = f.taken ++ data.take (data.length - n) := by
  cases fuel with
  | zero => simp [fwriteLoop] at h
  | succ fuel =>
    by_cases hn : n < data.length
    · have hall := limit_of_not_error hf hn h he
      have herr : (stopsOnError && f.error) = false := by
        rw [error_fwriteLoop h he, Bool.and_false]
      rw [fwriteLoop_round herr hf hn] at h
      have hlen : (data.take (data.length - n)).length = data.length - n := by
        rw [List.length_take]
        omega
      cases fuel with
      | zero => simp [fwriteLoop] at h
      | succ fuel =>
        rw [fwriteLoop_done (by omega)] at h
        cases h
        rw [FileOut.taken_fwrite, hlen, hall, List.take_take, Nat.min_self]
    · rw [fwriteLoop_done (Nat.not_lt.mp hn)] at h
      cases h
      rw [Nat.sub_eq_zero_of_le (Nat.not_lt.mp hn), List.take_zero, List.append_nil]

/-! ### A loop that does not return -/

/-- On a device that refuses every byte the loop that ignores errors goes on for ever. -/
theorem fwriteLoop_refused (hshort : f.short = []) (hr : f.refuses = true) (hf : f.eof = false)
    (hn : n < data.length) (fuel : Nat) : fwriteLoop false data fuel f n = .error .hang := by
  induction fuel generalizing f with
  | zero => rfl
  | succ fuel ih =>
    have hlimit : f.limit (data.length - n) = 0 := by
      simp [FileOut.limit, hshort, hr]
    rw [fwriteLoop_round (Bool.false_and _) hf hn, hlimit]
    apply ih
    · rw [FileOut.short_fwrite, hshort, List.tail_nil]
    · exact hr
    · exact hf

/-- The fuel of the model is enough: a loop that has not returned when the device's short counts
are used up never returns. -/
theorem fwriteLoop_hangs (hf : f.eof = false)
    (h : fwriteLoop stopsOnError data (f.short.length + 2) f n = .error .hang) (fuel : Nat) :
    fwriteLoop stopsOnError data fuel f n = .error .hang := by
  generalize hks : f.short = ks at h
  induction ks generalizing f n fuel with
  | nil =>
    by_cases hc : (stopsOnError && f.error) = false ∧ n < data.length
    · obtain ⟨herr, hn⟩ := hc
      rw [List.length_nil, Nat.zero_add, fwriteLoop_round herr hf hn] at h
      by_cases hr : f.refuses = true
      · -- only the loop that ignores errors makes a second round
        cases stopsOnError with
        | false => exact fwriteLoop_refused hks hr hf hn fuel
        | true =>
          have hset : ((f.fwrite (data.take (data.length - n))).2).error = true := by
            have hpos : 0 < data.length - n := by omega
            simp [FileOut.fwrite, FileOut.limit, hks, hr]
            omega
          rw [fwriteLoop, if_neg (by simp [hset])] at h
          cases h
      · have hall : f.limit (data.length - n) = data.length - n := by
          simp [FileOut.limit, hks, hr]
        rw [fwriteLoop_done (by omega)] at h
        cases h
    · rw [List.length_nil, fwriteLoop, if_neg (fun hx ↦ hc ⟨hx.1, hx.2.2⟩)] at h
      cases h
  | cons k ks ih =>
    cases fuel with
    | zero => rfl
    | succ fuel =>
      by_cases hc : (stopsOnError && f.error) = false ∧ n < data.length
      · obtain ⟨herr, hn⟩ := hc
        rw [List.length_cons, Nat.add_right_comm, fwriteLoop_round herr hf hn] at h
        rw [fwriteLoop_round herr hf hn]
        have htail : ((f.fwrite (data.take (data.length - n))).2).short = ks := by
          rw [FileOut.short_fwrite, hks, List.tail_cons]
        exact ih (f := (f.fwrite (data.take (data.length - n))).2) hf fuel htail h
      · rw [List.length_cons, fwriteLoop, if_neg (fun hx ↦ hc ⟨hx.1, hx.2.2⟩)] at h
        cases h

/-- The OCTET loop returns if and only if the device does not come to refuse everything before
the whole payload is counted. -/
theorem fwriteLoop_octet_returns_iff (hf : f.eof = false) :
    (∃ f', fwriteLoop false data (f.short.length + 2) f n = .ok f') ↔
      (f.refuses = true → data.length ≤ n + f.short.sum) := by
  generalize hks : f.short = ks
  induction ks generalizing f n with
  | nil =>
    by_cases hn : n < data.length
    · by_cases hr : f.refuses = true
      · rw [fwriteLoop_refused hks hr hf hn]
        apply iff_of_false
        · rintro ⟨f', h⟩
          cases h
        · intro h
          have hle := h hr
          rw [List.sum_nil] at hle
          omega
      · have hlimit : f.limit (data.length - n) = data.length - n := by
          simp [FileOut.limit, hks, hr]
        rw [List.length_nil, Nat.zero_add, fwriteLoop_round (Bool.false_and _) hf hn,
          fwriteLoop_done (by omega)]
        exact iff_of_true ⟨_, rfl⟩ fun h ↦ absurd h hr
    · rw [List.length_nil, fwriteLoop_done (Nat.not_lt.mp hn)]
      apply iff_of_true ⟨f, rfl⟩
      intro _
      omega
  | cons k ks ih =>
    by_cases hn : n < data.length
    · have hlimit : f.limit (data.length - n) = min k (data.length - n) := by
        rw [FileOut.limit, hks]
      have htail : ((f.fwrite (data.take (data.length - n))).2).short = ks := by
        rw [FileOut.short_fwrite, hks, List.tail_cons]
      rw [List.length_cons, Nat.add_right_comm, fwriteLoop_round (Bool.false_and _) hf hn, hlimit]
      rw [ih (f := (f.fwrite (data.take (data.length - n))).2) hf htail, FileOut.refuses_fwrite,
        List.sum_cons]
      apply imp_congr_right
      intro _
      omega
    · rw [List.length_cons, fwriteLoop_done (Nat.not_lt.mp hn)]
      apply iff_of_true ⟨f, rfl⟩
      intro _
      omega

/-- The only way for a loop not to return is to go on. -/
theorem error_fwriteLoop_eq {stop : Stop}
    (h : fwriteLoop stopsOnError data fuel f n = .error stop) : stop = .hang := by
  induction fuel generalizing f n with
  | zero =>
    cases h
    rfl
  | succ fuel ih =>
    rw [fwriteLoop] at h
    split at h
    · exact ih h
    · cases h

/-! ### What the OCTET loop appends -/

/-- Each call takes what comes next in the payload, though it is handed its start, until all of
it has been taken: `ks` bounds what the next calls take, and `n` bytes are counted so far. -/
def Continues (data : Bytes) (refuses : Bool) : List Nat → Nat → Prop
  | [], n => data.take (if refuses then 0 else data.length - n) = data.drop n
  | k :: ks, n =>
    data.take (min k (data.length - n)) <+: data.drop n ∧
      Continues data refuses ks (n + min k (data.length - n))

/-- Nothing is left to take. -/
theorem continues_length (data : Bytes) (refuses : Bool) (ks : List Nat) :
    Continues data refuses ks data.length := by
  induction ks with
  | nil => simp [Continues]
  | cons k ks ih => simpa [Continues] using ih

private theorem take_append_prefix_iff {b : Bytes} :
    data.take n ++ b <+: data ↔ b <+: data.drop n := by
  have h := @List.prefix_append_right_inj _ b (data.drop n) (data.take n)
  rwa [List.take_append_drop] at h

private theorem take_append_take (b : Bytes) (hb : b <+: data.drop n) :
    data.take n ++ b = data.take (n + b.length) := by
  rw [List.take_add, ← List.prefix_iff_eq_take.mp hb]

/-- The OCTET loop returns, having appended the beginning of the payload, if and only if each
call takes what comes next. -/
theorem fwriteLoop_octet_iff {base : Bytes} (hf : f.eof = false) (hn : n ≤ data.length)
    (ht : f.taken = base ++ data.take n) :
    (∃ f' a, fwriteLoop false data (f.short.length + 2) f n = .ok f' ∧ f'.taken = base ++ a ∧
      a <+: data) ↔ Continues data f.refuses f.short n := by
  generalize hks : f.short = ks
  induction ks generalizing f n with
  | nil =>
    by_cases hlt : n < data.length
    · rw [List.length_nil, Nat.zero_add, fwriteLoop_round (Bool.false_and _) hf hlt]
      have hlimit : f.limit (data.length - n) = if f.refuses then 0 else data.length - n := by
        rw [FileOut.limit, hks]
      rw [hlimit, Continues]
      by_cases hr : f.refuses = true
      · -- nothing is taken any more, and the loop does not return
        rw [if_pos hr, Nat.add_zero, List.take_zero,
          fwriteLoop_refused (f := (f.fwrite (data.take (data.length - n))).2)
            (by rw [FileOut.short_fwrite, hks, List.tail_nil]) hr hf hlt]
        constructor
        · rintro ⟨f', a, h, -⟩
          cases h
        · intro h
          have hdrop := congrArg List.length h
          rw [List.length_nil, List.length_drop] at hdrop
          omega
      · rw [if_neg hr, fwriteLoop_done (by omega)]
        have hlen : (data.take (data.length - n)).length = data.length - n := by
          rw [List.length_take]
          omega
        have htaken : (f.fwrite (data.take (data.length - n))).2.taken =
            base ++ (data.take n ++ data.take (data.length - n)) := by
          rw [FileOut.taken_fwrite, hlen, hlimit, if_neg hr, List.take_take, Nat.min_self, ht,
            List.append_assoc]
        constructor
        · rintro ⟨f', a, h, hta, hpre⟩
          cases h
          rw [htaken, List.append_cancel_left_eq] at hta
          rw [← hta, take_append_prefix_iff] at hpre
          exact hpre.eq_of_length (by rw [hlen, List.length_drop])
        · intro h
          refine ⟨_, _, rfl, htaken, ?_⟩
          apply take_append_prefix_iff.mpr
          exact h ▸ List.prefix_rfl
    · obtain rfl : n = data.length := by omega
      rw [fwriteLoop_done (Nat.le_refl _)]
      refine iff_of_true ⟨f, _, rfl, ht, List.take_prefix _ _⟩ ?_
      exact continues_length data f.refuses []
  | cons k ks ih =>
    by_cases hlt : n < data.length
    · have hlimit : f.limit (data.length - n) = min k (data.length - n) := by
        rw [FileOut.limit, hks]
      have hlen : (data.take (data.length - n)).length = data.length - n := by
        rw [List.length_take]
        omega
      have htaken : (f.fwrite (data.take (data.length - n))).2.taken =
          base ++ (data.take n ++ data.take (min k (data.length - n))) := by
        rw [FileOut.taken_fwrite, hlen, hlimit, List.take_take, ht, List.append_assoc]
        congr 3
        omega
      have htail : ((f.fwrite (data.take (data.length - n))).2).short = ks := by
        rw [FileOut.short_fwrite, hks, List.tail_cons]
      rw [List.length_cons, Nat.add_right_comm, fwriteLoop_round (Bool.false_and _) hf hlt,
        hlimit, Continues]
      by_cases hnext : data.take (min k (data.length - n)) <+: data.drop n
      · have hcount : (data.take (min k (data.length - n))).length = min k (data.length - n) := by
          rw [List.length_take]
          omega
        rw [take_append_take _ hnext, hcount] at htaken
        rw [and_iff_right hnext]
        exact ih (f := (f.fwrite (data.take (data.length - n))).2) hf (by omega) htaken htail
      · refine iff_of_false ?_ fun h ↦ hnext h.1
        -- what was taken stays in front of everything that is taken later
        rintro ⟨f', a, h, hta, hpre⟩
        have hmono := taken_fwriteLoop h
        rw [htaken, hta, List.prefix_append_right_inj] at hmono
        exact hnext (take_append_prefix_iff.mp (hmono.trans hpre))
    · obtain rfl : n = data.length := by omega
      rw [List.length_cons, fwriteLoop_done (Nat.le_refl _)]
      refine iff_of_true ⟨f, _, rfl, ht, List.take_prefix _ _⟩ ?_
      exact continues_length data f.refuses (k :: ks)

/-! ### One call of `write` -/

/-- The NETASCII loop returns, having appended the beginning of the payload. -/
theorem exists_fwriteLoop_netascii (hf : f.eof = false) :
    ∃ f' a, fwriteLoop true data (f.short.length + 2) f 0 = .ok f' ∧ f'.taken = f.taken ++ a ∧
      a <+: data := by
  by_cases hc : f.error = false ∧ 0 < data.length
  · obtain ⟨he, hn⟩ := hc
    rw [fwriteLoop_round (by rw [he, Bool.and_false]) hf hn, Nat.sub_zero, List.take_length,
      Nat.zero_add]
    refine ⟨_, _, ?_, FileOut.taken_fwrite f data, List.take_prefix _ _⟩
    rw [fwriteLoop, if_neg]
    -- a short count has set the error indicator
    rintro ⟨herr, -, hless⟩
    simp [FileOut.fwrite, hless] at herr
  · refine ⟨f, [], ?_, (List.append_nil _).symm, List.nil_prefix⟩
    rw [fwriteLoop, if_neg fun h ↦ hc ⟨by simpa using h.1, h.2.2⟩]

/-- A call of `write` does what its loop does. -/
theorem write_iff_loop {w : TftpWriteFile} {data nativeData : Bytes} (hfd : w.fd = some f)
    (hf : f.eof = false) (hd : nativePayload w.mode data = .ok nativeData) :
    (∃ w' appended, w.write data = .ok w' ∧ w'.taken = w.taken ++ appended ∧
      appended <+: nativeData ∧ (w'.error = true ∨ appended = nativeData)) ↔
      ∃ f' a, fwriteLoop (w.mode != .octet) nativeData (f.short.length + 2) f 0 = .ok f' ∧
        f'.taken = f.taken ++ a ∧ a <+: nativeData := by
  rw [write, hd]
  simp only [hfd]
  constructor
  · rintro ⟨w', a, h, ht, hpre, -⟩
    split at h
    · cases h
    · next f' hloop =>
      cases h
      exact ⟨f', a, hloop, by simpa [taken, hfd] using ht, hpre⟩
  · rintro ⟨f', a, hloop, ht, hpre⟩
    rw [hloop]
    refine ⟨_, a, rfl, by simpa [taken, hfd] using ht, hpre, ?_⟩
    by_cases he : f'.error = true
    · exact .inl (by simpa [error] using he)
    · right
      have hall := taken_of_not_error hf hloop (Bool.eq_false_iff.mpr he)
      rw [ht, Nat.sub_zero, List.take_length, List.append_cancel_left_eq] at hall
      exact hall

/-- No call sets the end-of-file indicator of a stream for writing. -/
theorem eof_fwriteLoop (h : fwriteLoop stopsOnError data fuel f n = .ok f') : f'.eof = f.eof := by
  induction fuel generalizing f n with
  | zero => simp [fwriteLoop] at h
  | succ fuel ih =>
    rw [fwriteLoop] at h
    split at h
    · exact ih (f := (f.fwrite (data.take (data.length - n))).2) h
    · cases h
      rfl

/-- The writer is open in this mode, with no indicator set, and its stream has taken these
bytes. -/
structure Holds (w : TftpWriteFile) (f : FileOut) (mode : Mode) (bytes : Bytes) : Prop where
  mode : w.mode = mode
  fd : w.fd = some f
  eof : f.eof = false
  error : f.error = false
  taken : f.taken = bytes

namespace Holds

variable {w w' : TftpWriteFile} {mode : Mode} {bytes nativeData : Bytes}

/-- A writer that has just been opened holds nothing. -/
theorem openFile (w : TftpWriteFile) (sink : FileSink) (mode : Mode) :
    (w.openFile (some sink) mode).Holds (.fopen sink) mode [] :=
  ⟨rfl, rfl, rfl, rfl, rfl⟩

/-- What the file holds at the end is what the device had room for. -/
theorem destroy (h : w.Holds f mode bytes) (capacity : Nat) :
    w.destroy capacity = some (bytes.take capacity) := by
  rw [TftpWriteFile.destroy, h.fd, ← h.taken]
  rfl

/-- A call of `write` goes on for ever exactly in OCTET mode, on a device that comes to refuse
everything too early. -/
theorem write_hangs_iff (h : w.Holds f mode bytes) :
    w.write data = .error .hang ↔
      mode = .octet ∧ f.refuses = true ∧ f.short.sum < data.length := by
  have hmode := h.mode
  have hfd := h.fd
  rw [write, hmode]
  by_cases hm : mode = .octet
  · have hreturns := @fwriteLoop_octet_returns_iff data f 0 h.eof
    have hstop : (mode != .octet) = false := by
      rw [hm]
      rfl
    rw [nativePayload, if_neg (by simp [hm])]
    simp only [hfd, hstop]
    rw [Nat.zero_add] at hreturns
    cases hloop : fwriteLoop false data (f.short.length + 2) f 0 with
    | ok f' =>
      have hfits := hreturns.mp ⟨f', hloop⟩
      apply iff_of_false
      · intro h
        cases h
      · rintro ⟨-, hr, hlt⟩
        have hle := hfits hr
        omega
    | error stop =>
      rw [error_fwriteLoop_eq hloop]
      apply iff_of_true rfl
      have hfails : ¬(f.refuses = true → data.length ≤ f.short.sum) := by
        intro hle
        obtain ⟨f', hok⟩ := hreturns.mpr hle
        rw [hloop] at hok
        cases hok
      rw [Classical.not_imp, Nat.not_le] at hfails
      exact ⟨hm, hfails⟩
  · apply iff_of_false
    · intro h'
      have hstop : (mode != .octet) = true := bne_iff_ne.mpr hm
      rw [nativePayload, if_pos hm] at h'
      cases hd : netasciiToNative data with
      | error stop =>
        obtain ⟨what, rfl⟩ := netasciiToNative_throws hd
        simp [hd] at h'
      | ok nativeData =>
        obtain ⟨f', a, hloop, -⟩ := @exists_fwriteLoop_netascii nativeData f h.eof
        simp [hd, hfd, hstop, hloop] at h'
    · intro h'
      exact hm h'.1

/-- No error has been set. -/
theorem error_eq (h : w.Holds f mode bytes) : w.error = false := by
  rw [TftpWriteFile.error, h.fd]
  exact h.error

/-- A call that returns with no error has appended what the payload stands for, which the device
took at once. -/
theorem write (h : w.Holds f mode bytes) (hw : w.write data = .ok w') (he : w'.error = false) :
    ∃ f' nativeData, nativePayload mode data = .ok nativeData ∧
      nativeData.length ≤ f.limit nativeData.length ∧
      w'.Holds f' mode (bytes ++ nativeData) := by
  have hmode := h.mode
  have hfd := h.fd
  rw [TftpWriteFile.write, hmode] at hw
  split at hw
  · cases hw
  · next nativeData hd =>
    simp only [hfd] at hw
    split at hw
    · cases hw
    · next f' hloop =>
      cases hw
      have he' : f'.error = false := by simpa [TftpWriteFile.error] using he
      have htaken := taken_of_not_error h.eof hloop he'
      rw [Nat.sub_zero, List.take_length, h.taken] at htaken
      have hall : nativeData.length ≤ f.limit nativeData.length := by
        by_cases hn : 0 < nativeData.length
        · have hlimit := limit_of_not_error h.eof hn hloop he'
          rw [Nat.sub_zero] at hlimit
          exact Nat.le_of_eq hlimit.symm
        · omega
      exact ⟨f', nativeData, hd, hall, rfl, rfl, (eof_fwriteLoop hloop).trans h.eof, he', htaken⟩

/-- What the device takes at once is appended, and no error is set. -/
theorem write_of_limit (h : w.Holds f mode bytes) (hd : nativePayload mode data = .ok nativeData)
    (hall : nativeData.length ≤ f.limit nativeData.length) :
    ∃ w', w.write data = .ok w' ∧ w'.error = false := by
  have hmode := h.mode
  have hfd := h.fd
  have hlimit : f.limit nativeData.length = nativeData.length :=
    Nat.le_antisymm (f.limit_le _) hall
  have hloop : ∃ f', fwriteLoop (mode != .octet) nativeData (f.short.length + 2) f 0 = .ok f' ∧
      f'.error = false := by
    by_cases hn : 0 < nativeData.length
    · rw [fwriteLoop_round (by rw [h.error, Bool.and_false]) h.eof hn, Nat.sub_zero,
        List.take_length, Nat.zero_add, hlimit, fwriteLoop_done (Nat.le_refl _)]
      refine ⟨_, rfl, ?_⟩
      simp [FileOut.fwrite, h.error, hlimit]
    · rw [fwriteLoop_done (Nat.not_lt.mp hn)]
      exact ⟨f, rfl, h.error⟩
  obtain ⟨f', hloop, he⟩ := hloop
  refine ⟨{ w with fd := some f' }, ?_, he⟩
  rw [TftpWriteFile.write, hmode, hd]
  simp only [hfd, hloop]

end Holds

/-- A writer that has been written to is open, in its mode, and not at an end of file. -/
theorem opened_writeBlocks {earlier : List Bytes} {w w' : TftpWriteFile} (hfd : w.fd = some f)
    (hf : f.eof = false) (h : writeBlocks w earlier = .ok w') :
    w'.mode = w.mode ∧ ∃ f', w'.fd = some f' ∧ f'.eof = false := by
  induction earlier generalizing w f with
  | nil =>
    cases h
    exact ⟨rfl, f, hfd, hf⟩
  | cons b bs ih =>
    rw [writeBlocks] at h
    cases hb : w.write b with
    | error stop => simp [hb] at h
    | ok w₁ =>
      rw [hb] at h
      have hmode := (mode_write hb).1
      have hopen : ∃ f₁, w₁.fd = some f₁ ∧ f₁.eof = false := by
        rw [write] at hb
        split at hb
        · cases hb
        · simp only [hfd] at hb
          split at hb
          · cases hb
          · next f₁ hloop =>
            cases hb
            exact ⟨f₁, rfl, (eof_fwriteLoop hloop).trans hf⟩
      obtain ⟨f₁, hfd₁, hf₁⟩ := hopen
      rw [← hmode]
      exact ih hfd₁ hf₁ h

/-- A call of `write` returns, having appended the beginning of what the payload stands for,
all of it unless an error is set, if and only if the mode is not OCTET or each call of `fwrite`
takes what comes next. -/
theorem write_appends_iff {sink : FileSink} {mode : Mode} {earlier : List Bytes}
    {w : TftpWriteFile} (hw : writeBlocks (({} : TftpWriteFile).openFile (some sink) mode) earlier =
      .ok w) {f : FileOut} (hfd : w.fd = some f) {data nativeData : Bytes}
    (hd : nativePayload mode data = .ok nativeData) :
    (∃ w' appended, w.write data = .ok w' ∧ w'.taken = w.taken ++ appended ∧
      appended <+: nativeData ∧ (w'.error = true ∨ appended = nativeData)) ↔
      (mode = .octet → Continues nativeData f.refuses f.short 0) := by
  obtain ⟨hmode, f₀, hfd₀, hf⟩ := opened_writeBlocks (f := .fopen sink) rfl rfl hw
  obtain rfl : f₀ = f := Option.some.inj (hfd₀.symm.trans hfd)
  have hmode : w.mode = mode := hmode
  rw [← hmode] at hd ⊢
  rw [write_iff_loop hfd hf hd]
  by_cases hoctet : w.mode = .octet
  · have hstop : (w.mode != .octet) = false := by
      rw [hoctet]
      rfl
    rw [hstop, fwriteLoop_octet_iff hf (Nat.zero_le _) (by rw [List.take_zero, List.append_nil])]
    exact ⟨fun h _ ↦ h, fun h ↦ h hoctet⟩
  · have hstop : (w.mode != .octet) = true := bne_iff_ne.mpr hoctet
    rw [hstop]
    exact iff_of_true (exists_fwriteLoop_netascii hf) fun h ↦ absurd h hoctet

/-- Three equal bytes of which the device takes one at first: the rest is the same again. -/
theorem write_appends_equal :
    ∃ w' appended,
      (({} : TftpWriteFile).openFile (some { short := [1] }) .octet).write [7, 7, 7] = .ok w' ∧
      w'.taken = (({} : TftpWriteFile).openFile (some { short := [1] }) .octet).taken ++ appended ∧
      appended <+: [7, 7, 7] ∧ (w'.error = true ∨ appended = [7, 7, 7]) := by
  have hcont : Continues [7, 7, 7] false [1] 0 := by
    constructor
    · decide
    · rfl
  exact (@write_appends_iff { short := [1] } .octet [] _ rfl _ rfl [7, 7, 7] [7, 7, 7] rfl).mpr
    fun _ ↦ hcont

/-- Of the payload 1, 2, 3 the device takes one byte at first: the second call starts again, and
the bytes 1, 1, 2 are in the file. On a device that takes nothing any more the loop never
returns. -/
theorem write_starts_again :
    (({} : TftpWriteFile).openFile (some { short := [1] }) .octet).write [1, 2, 3] =
        .ok { fd := some { taken := [1, 1, 2], error := true, short := [], refuses := false } } ∧
      ¬[1, 1, 2] <+: [1, 2, 3] ∧
      ∀ fuel, fwriteLoop false [1, 2, 3] fuel (.fopen { refuses := true }) 0 = .error .hang := by
  refine ⟨rfl, by decide, ?_⟩
  intro fuel
  exact fwriteLoop_refused rfl rfl rfl (by decide) fuel

end TftpWriteFile
end CppTftp
