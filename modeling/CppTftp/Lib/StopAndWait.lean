import Mathlib.Data.List.Basic
import Mathlib.Data.List.Destutter

/-!
# Stop and wait

What the sending end of a stop-and-wait transfer knows of it. It has at most one frame in
flight and moves on when the number of that frame, taken modulo `M`, comes back.
-/

namespace CppTftp.Lib

universe u v

/-- How many frames were acknowledged, and the frame in flight since. -/
structure Window (φ : Type u) where
  acked : Nat := 0
  inFlight : Option φ := none
  deriving DecidableEq, Repr

namespace Window

variable {φ : Type u} {M : Nat} {w : Window φ} {number : Nat}

/-- A frame goes out. -/
def transmit (w : Window φ) (frame : φ) : Window φ := { w with inFlight := some frame }

/-- A number comes back. It counts only for a frame in flight. -/
def acknowledge (M : Nat) (w : Window φ) (number : Nat) : Window φ :=
  if w.inFlight.isSome ∧ number = (w.acked + 1) % M then { acked := w.acked + 1 } else w

/-- The frame in turn when there are `count` of them: the last one stays in turn. -/
def turn (count : Nat) (w : Window φ) : Nat := min (w.acked + 1) count

@[simp] theorem acked_transmit (frame : φ) : (w.transmit frame).acked = w.acked := rfl

@[simp] theorem inFlight_transmit (frame : φ) : (w.transmit frame).inFlight = some frame := rfl

/-- The number of the frame in flight moves the window on. -/
theorem acknowledge_of_eq (hf : w.inFlight.isSome) (hn : number = (w.acked + 1) % M) :
    w.acknowledge M number = { acked := w.acked + 1 } := by
  rw [acknowledge, if_pos ⟨hf, hn⟩]

/-- Any other number leaves the window as it is. -/
theorem acknowledge_of_ne (hn : number ≠ (w.acked + 1) % M) : w.acknowledge M number = w := by
  rw [acknowledge, if_neg fun h ↦ hn h.2]

/-- With nothing in flight no number counts. -/
theorem acknowledge_of_idle (hf : w.inFlight = none) : w.acknowledge M number = w := by
  rw [acknowledge, if_neg fun h ↦ by simp [hf] at h]

/-- While not every frame is acknowledged, the one in turn is the next. -/
theorem turn_of_lt {count : Nat} (h : w.acked < count) : w.turn count = w.acked + 1 :=
  Nat.min_eq_left h

/-- When every frame is acknowledged, the last one is in turn. -/
theorem turn_of_eq {count : Nat} (h : w.acked = count) : w.turn count = count := by
  rw [turn, h]
  exact Nat.min_eq_right (Nat.le_succ _)

/-- The frame in turn is one of the frames. -/
theorem turn_bounds {count : Nat} (h : 0 < count) (w : Window φ) :
    1 ≤ w.turn count ∧ w.turn count ≤ count := by
  unfold turn
  omega

/-! ### The frames that went out -/

/-- How many of `count` frames went out. -/
def sent (count : Nat) (w : Window φ) : Nat :=
  min (w.acked + if w.inFlight.isSome then 1 else 0) count

/-- A number that comes back sends nothing. -/
@[simp] theorem sent_acknowledge (count : Nat) :
    (w.acknowledge M number).sent count = w.sent count := by
  by_cases h : w.inFlight.isSome ∧ number = (w.acked + 1) % M
  · rw [acknowledge_of_eq h.1 h.2, sent, sent, if_pos h.1]
    rfl
  · rw [acknowledge, if_neg h]

/-- With a frame in flight the frames sent end with the one in turn. -/
@[simp] theorem sent_transmit (count : Nat) (frame : φ) :
    (w.transmit frame).sent count = w.turn count := rfl

/-- The frame in turn was sent last, or it is the next one. -/
theorem turn_eq_sent_or {count : Nat} (h : 0 < count) (w : Window φ) :
    (w.turn count = w.sent count ∧ 0 < w.sent count) ∨ w.turn count = w.sent count + 1 := by
  unfold turn sent
  split
  · omega
  · omega

end Window

/-! ### Repetitions -/

section Repetitions

variable {φ : Type u} [DecidableEq φ]

/-- The frames that went out, each without the repetitions that follow it. -/
def withoutRepetitions (frames : List φ) : List φ := frames.destutter (· ≠ ·)

private theorem destutter'_concat (first : φ) (frames : List φ) (frame : φ) :
    (frames ++ [frame]).destutter' (· ≠ ·) first =
      frames.destutter' (· ≠ ·) first ++
        if (frames.destutter' (· ≠ ·) first).getLast? = some frame then [] else [frame] := by
  induction frames generalizing first with
  | nil =>
    by_cases h : first = frame
    · simp [h]
    · simp [h]
  | cons next frames ih =>
    rw [List.cons_append]
    by_cases h : first = next
    · rw [List.destutter'_cons_neg _ (not_not.mpr h), List.destutter'_cons_neg _ (not_not.mpr h)]
      exact ih first
    · have hlast := List.getLast?_eq_some_getLast
        (List.destutter'_ne_nil frames (· ≠ ·) (a := next))
      rw [List.destutter'_cons_pos _ h, List.destutter'_cons_pos _ h, ih next, List.cons_append,
        List.getLast?_cons, hlast]
      rfl

/-- One more frame is a repetition of the last one, or is added. -/
theorem withoutRepetitions_concat (frames : List φ) (frame : φ) :
    withoutRepetitions (frames ++ [frame]) = withoutRepetitions frames ++
      if (withoutRepetitions frames).getLast? = some frame then [] else [frame] := by
  cases frames with
  | nil => rfl
  | cons first frames => exact destutter'_concat first frames frame

/-- A sender that transmits the frame in turn has sent the frames up to that one, each any number
of times in a row. -/
theorem withoutRepetitions_transmit {ψ : Type v} {frame : Nat → φ} {frames : List φ} {count : Nat}
    {w : Window ψ} (hne : ∀ n, frame n ≠ frame (n + 1)) (hcount : 0 < count)
    (h : withoutRepetitions frames = (List.range (w.sent count)).map fun i ↦ frame (i + 1)) :
    withoutRepetitions (frames ++ [frame (w.turn count)]) =
      (List.range (w.turn count)).map fun i ↦ frame (i + 1) := by
  rw [withoutRepetitions_concat, h]
  rcases Window.turn_eq_sent_or hcount w with ⟨hturn, hpos⟩ | hturn
  · obtain ⟨k, hk⟩ := Nat.exists_eq_add_of_le' hpos
    rw [hturn, hk, List.range_succ, List.map_append, List.map_singleton, List.getLast?_concat,
      if_pos rfl, List.append_nil]
  · rw [hturn, List.range_succ, List.map_append, List.map_singleton, if_neg]
    cases w.sent count with
    | zero => exact fun heq ↦ Option.some_ne_none _ heq.symm
    | succ k =>
      rw [List.range_succ, List.map_append, List.map_singleton, List.getLast?_concat]
      exact fun heq ↦ hne _ (Option.some.inj heq)

end Repetitions
end CppTftp.Lib
