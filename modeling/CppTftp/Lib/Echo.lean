import Mathlib.Algebra.Order.Group.Nat
import Mathlib.Data.List.Basic
import Mathlib.Logic.Relation

/-!
# Stop and wait with a receiver that echoes

A sender sends frame after frame and moves on when the number of the current frame comes back.
The receiver returns every number it gets, over a path that keeps the order and loses nothing
but may repeat. When the number before the current one comes back, the sender sends the
current frame again. So a copy made once is made again for every later frame; how many copies
there can be in total is what this module counts.
-/

namespace CppTftp.Lib

/-- What such a transfer comes to. The path there and back holds copies of the number before
the current one, and behind them copies of the current one. Number zero is an offer, whose
transmissions are not counted. -/
structure Echo where
  current : Nat
  previous : Nat := 0
  copies : Nat := 0
  /-- One if the current frame is to be sent. -/
  pending : Nat := 1
  /-- One if the timer ran out. -/
  expired : Nat := 0
  sentBefore : Nat := 0
  sentCurrent : Nat := 0
  /-- How often the timer ran out or the path repeated a number. -/
  spare : Nat := 0

namespace Echo

/-- The numbers on the path, in the order in which they will come back. -/
def path (f : Echo) : List Nat :=
  List.replicate f.previous (f.current - 1) ++ List.replicate f.copies f.current

/-- How many frames were sent, the offer apart. -/
def total (f : Echo) : Nat := f.sentBefore + if f.current = 0 then 0 else f.sentCurrent

/-- What can happen. -/
inductive Step : Echo → Echo → Prop
  | send {f : Echo} : f.pending = 1 →
      Step f { f with
        copies := f.copies + 1, pending := 0, expired := 0, sentCurrent := f.sentCurrent + 1 }
  | fire {f : Echo} : f.expired = 0 → Step f { f with expired := 1, spare := f.spare + 1 }
  | retry {f : Echo} : f.pending = 0 → f.expired = 1 →
      Step f { f with pending := 1, expired := 0 }
  | ignore {f : Echo} : f.expired = 1 → Step f { f with expired := 0 }
  | repeatPrevious {f : Echo} : Step f { f with previous := f.previous + 1, spare := f.spare + 1 }
  | repeatCurrent {f : Echo} : Step f { f with copies := f.copies + 1, spare := f.spare + 1 }
  | again {f : Echo} : 0 < f.previous → f.pending = 0 →
      Step f { f with previous := f.previous - 1, pending := 1 }
  | advance {f : Echo} : f.previous = 0 → 0 < f.copies → f.pending = 0 →
      Step f { f with
        current := f.current + 1, previous := f.copies - 1, copies := 0, pending := 1,
        sentBefore := f.total, sentCurrent := 0 }
  | finish {f : Echo} : f.previous = 0 → 0 < f.copies → Step f { f with copies := f.copies - 1 }

/-- Copies on the path, a frame to be sent and an expiration can each turn into one more
transmission of every later frame. -/
structure Bounded (f : Echo) : Prop where
  onPath : f.previous + f.copies + f.pending + f.expired ≤ 1 + f.spare
  now : f.previous + f.sentCurrent + f.pending + f.expired ≤ 1 + f.spare
  before : f.sentBefore ≤ (f.current - 1) * (1 + f.spare)

variable {f g : Echo}

/-- A larger allowance bounds as much. -/
private theorem before_spare (h : f.sentBefore ≤ (f.current - 1) * (1 + f.spare)) :
    f.sentBefore ≤ (f.current - 1) * (1 + (f.spare + 1)) :=
  Nat.le_trans h (Nat.mul_le_mul_left _ (by omega))

theorem Bounded.step (h : Bounded f) (hs : Step f g) : Bounded g := by
  obtain ⟨hpath, hnow, hbefore⟩ := h
  cases hs with
  | send hp => exact ⟨by dsimp only; omega, by dsimp only; omega, hbefore⟩
  | fire he => exact ⟨by dsimp only; omega, by dsimp only; omega, before_spare hbefore⟩
  | retry hp he => exact ⟨by dsimp only; omega, by dsimp only; omega, hbefore⟩
  | ignore he => exact ⟨by dsimp only; omega, by dsimp only; omega, hbefore⟩
  | repeatPrevious => exact ⟨by dsimp only; omega, by dsimp only; omega, before_spare hbefore⟩
  | repeatCurrent => exact ⟨by dsimp only; omega, by dsimp only; omega, before_spare hbefore⟩
  | again hx hp => exact ⟨by dsimp only; omega, by dsimp only; omega, hbefore⟩
  | finish hx hy => exact ⟨by dsimp only; omega, hnow, hbefore⟩
  | advance hx hy hp =>
    refine ⟨by dsimp only; omega, by dsimp only; omega, ?_⟩
    show f.total ≤ (f.current + 1 - 1) * (1 + f.spare)
    rw [total, Nat.add_sub_cancel]
    by_cases hz : f.current = 0
    · rw [hz, Nat.zero_sub, Nat.zero_mul] at hbefore
      rw [if_pos hz]
      omega
    · have hm : f.current * (1 + f.spare) =
          (f.current - 1) * (1 + f.spare) + (1 + f.spare) := by
        rw [← Nat.succ_mul, Nat.succ_eq_add_one, Nat.sub_add_cancel (Nat.pos_of_ne_zero hz)]
      rw [if_neg hz, hm]
      omega

/-- So each frame is sent at most once for the transfer, and once more for every expiration and
every repetition. -/
theorem Bounded.total_le (h : Bounded f) : f.total ≤ f.current * (1 + f.spare) := by
  obtain ⟨-, hnow, hbefore⟩ := h
  rw [total]
  by_cases hz : f.current = 0
  · rw [hz, Nat.zero_sub, Nat.zero_mul] at hbefore
    rw [if_pos hz]
    omega
  · have hm : f.current * (1 + f.spare) = (f.current - 1) * (1 + f.spare) + (1 + f.spare) := by
      rw [← Nat.succ_mul, Nat.succ_eq_add_one, Nat.sub_add_cancel (Nat.pos_of_ne_zero hz)]
    rw [if_neg hz, hm]
    omega

/-- At the start nothing is on the path. -/
theorem bounded_start (n : Nat) : Bounded { current := n } :=
  ⟨Nat.le_refl 1, Nat.le_refl 1, Nat.zero_le _⟩

/-! ### The path -/

/-- The path begins with a copy of the number before the current one, if there is one. -/
theorem path_of_previous (h : 0 < f.previous) :
    f.path = (f.current - 1) :: { f with previous := f.previous - 1 }.path := by
  rw [path, path, show f.previous = f.previous - 1 + 1 by omega, List.replicate_succ]
  rfl

/-- Otherwise with a copy of the current one. -/
theorem path_of_copies (hx : f.previous = 0) (hy : 0 < f.copies) :
    f.path = f.current :: { f with copies := f.copies - 1 }.path := by
  rw [path, path, hx, show f.copies = f.copies - 1 + 1 by omega, List.replicate_succ]
  rfl

/-- A transmission puts the current number at the end. -/
theorem path_send : { f with copies := f.copies + 1 }.path = f.path ++ [f.current] := by
  rw [path, path, List.replicate_succ', List.append_assoc]

/-- When the sender moves on, the other copies of the current number come before the new one. -/
theorem path_advance (hx : f.previous = 0) :
    { f with current := f.current + 1, previous := f.copies - 1, copies := 0 }.path =
      { f with copies := f.copies - 1 }.path := by
  rw [path, path, hx]
  exact List.append_nil _

/-- A number at the head of the path is one of the two. -/
theorem path_cons {n : Nat} {rest : List Nat} (h : f.path = n :: rest) :
    (0 < f.previous ∧ n = f.current - 1 ∧ rest = { f with previous := f.previous - 1 }.path) ∨
      f.previous = 0 ∧ 0 < f.copies ∧ n = f.current ∧
        rest = { f with copies := f.copies - 1 }.path := by
  by_cases hx : 0 < f.previous
  · rw [path_of_previous hx] at h
    obtain ⟨hn, hr⟩ := List.cons.inj h
    exact .inl ⟨hx, hn.symm, hr.symm⟩
  · have hx : f.previous = 0 := by omega
    by_cases hy : 0 < f.copies
    · rw [path_of_copies hx hy] at h
      obtain ⟨hn, hr⟩ := List.cons.inj h
      exact .inr ⟨hx, hy, hn.symm, hr.symm⟩
    · have hy : f.copies = 0 := by omega
      rw [path, hx, hy] at h
      cases h

/-- A number that is repeated in place adds a copy of one of the two. -/
theorem path_repeat {before after : List Nat} {n : Nat} (h : f.path = before ++ n :: after) :
    (0 < f.previous ∧
        before ++ n :: n :: after = { f with previous := f.previous + 1 }.path) ∨
      before ++ n :: n :: after = { f with copies := f.copies + 1 }.path := by
  induction before generalizing f with
  | nil =>
    rw [List.nil_append] at h ⊢
    rcases path_cons h with ⟨hx, hn, -⟩ | ⟨hx, hy, hn, -⟩
    · refine .inl ⟨hx, ?_⟩
      rw [← h, hn]
      exact (path_of_previous (f := { f with previous := f.previous + 1 }) (Nat.succ_pos _)).symm
    · right
      rw [← h, hn]
      exact (path_of_copies (f := { f with copies := f.copies + 1 }) hx (Nat.succ_pos _)).symm
  | cons p before ih =>
    rcases path_cons h with ⟨hx, hp, hr⟩ | ⟨hx, hy, hp, hr⟩
    · rcases ih hr.symm with ⟨-, he⟩ | he
      · refine .inl ⟨hx, ?_⟩
        rw [List.cons_append, he, hp,
          path_of_previous (f := { f with previous := f.previous + 1 }) (Nat.succ_pos _)]
        dsimp only
        rw [Nat.sub_add_cancel hx, Nat.add_sub_cancel]
      · right
        rw [List.cons_append, he, hp]
        exact (path_of_previous (f := { f with copies := f.copies + 1 }) hx).symm
    · rcases ih hr.symm with ⟨hx', -⟩ | he
      · -- nothing but copies of the current number is left
        exact absurd hx' (Nat.not_lt.mpr (Nat.le_of_eq hx))
      · right
        rw [List.cons_append, he, hp,
          path_of_copies (f := { f with copies := f.copies + 1 }) hx (Nat.succ_pos _)]
        dsimp only
        rw [Nat.sub_add_cancel hy, Nat.add_sub_cancel]

end Echo
end CppTftp.Lib
