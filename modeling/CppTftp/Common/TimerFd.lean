import CppTftp.Common.Descriptors

/-!
# The timer with a clock

`src/common/timer.cpp` again, now with the monotonic clock that the `timerfd` runs on, in
nanoseconds. What `Timer` leaves to an event of its own, the end of the time, follows from the
clock here.
-/

namespace CppTftp

/-- A second of the monotonic clock. -/
def nsPerSecond : Nat := 10 ^ 9

/-- A one-shot `timerfd`: the time at which it runs out, until that is read. -/
structure TimerFd where
  deadline : Option Nat := none
  deriving DecidableEq, Repr

namespace TimerFd

variable {now now' seconds : Nat} {t : TimerFd}

/-- `timer::arm_timer`, `timer.cpp:38–49`: the time is relative and replaces what was set
before; a zero time disarms. -/
def armTimer (now seconds : Nat) : TimerFd :=
  { deadline := if seconds = 0 then none else some (now + seconds * nsPerSecond) }

/-- `timer::has_expired`, `timer.cpp:66–71`: whether `read` found an expiration, which it
consumes. -/
def hasExpired (t : TimerFd) (now : Nat) : Bool × TimerFd :=
  match t.deadline with
  | none => (false, t)
  | some d => if d ≤ now then (true, {}) else (false, t)

/-- What the timer is at a time. -/
def observe (t : TimerFd) (now : Nat) : Timer :=
  match t.deadline with
  | none => .disarmed
  | some d => if d ≤ now then .expired else .armed

theorem observe_none (h : t.deadline = none) (now : Nat) : t.observe now = .disarmed := by
  rw [observe, h]

theorem observe_due {d : Nat} (h : t.deadline = some d) (hd : d ≤ now) :
    t.observe now = .expired := by
  rw [observe, h]
  exact if_pos hd

theorem observe_running {d : Nat} (h : t.deadline = some d) (hd : now < d) :
    t.observe now = .armed := by
  rw [observe, h]
  exact if_neg (by omega)

/-- A timer is found expired when its time has come. -/
theorem observe_eq_expired_iff : t.observe now = .expired ↔ ∃ d, t.deadline = some d ∧ d ≤ now := by
  constructor
  · intro h
    cases hd : t.deadline with
    | none =>
      rw [observe_none hd] at h
      cases h
    | some d =>
      refine ⟨d, rfl, ?_⟩
      by_contra hlt
      rw [observe_running hd (by omega)] at h
      cases h
  · rintro ⟨d, hd, hle⟩
    exact observe_due hd hle

/-- Arming with the clock is arming without it. -/
theorem observe_armTimer (now seconds : Nat) :
    (armTimer now seconds).observe now = .armTimer seconds := by
  by_cases h : seconds = 0
  · rw [armTimer, if_pos h, Timer.armTimer, if_pos h]
    rfl
  · have hpos : 0 < seconds * nsPerSecond := Nat.mul_pos (by omega) (by decide)
    rw [armTimer, if_neg h, Timer.armTimer, if_neg h]
    exact observe_running rfl (by omega)

/-- A timer that was armed runs out after that time. -/
theorem deadline_armTimer {u : Nat} (hpos : 0 < seconds)
    (h : (armTimer now seconds).deadline = some u) : u = now + seconds * nsPerSecond := by
  rw [armTimer, if_neg (by omega)] at h
  exact (Option.some.inj h).symm

/-- Reading an expiration consumes it. -/
theorem hasExpired_due {d : Nat} (h : t.deadline = some d) (hd : d ≤ now) :
    t.hasExpired now = (true, {}) := by
  rw [hasExpired, h]
  exact if_pos hd

/-- Reading changes nothing before the time has come. -/
theorem hasExpired_of_ne (h : t.observe now ≠ .expired) : t.hasExpired now = (false, t) := by
  cases hd : t.deadline with
  | none => rw [hasExpired, hd]
  | some d =>
    rw [hasExpired, hd]
    exact if_neg fun hle ↦ h (observe_due hd hle)

/-- Reading with the clock is reading without it. -/
theorem hasExpired_observe (t : TimerFd) (now : Nat) :
    ((t.hasExpired now).1, (t.hasExpired now).2.observe now) = (t.observe now).hasExpired := by
  by_cases h : t.observe now = .expired
  · obtain ⟨d, hd, hle⟩ := observe_eq_expired_iff.mp h
    rw [hasExpired_due hd hle, h]
    rfl
  · rw [hasExpired_of_ne h]
    cases ht : t.observe now with
    | disarmed => rfl
    | armed => rfl
    | expired => exact absurd ht h

/-- When the clock goes on, the timer runs out or stays as it was found. -/
theorem observe_later (t : TimerFd) (h : now ≤ now') :
    t.observe now' = t.observe now ∨ t.observe now' = (t.observe now).elapse := by
  cases hd : t.deadline with
  | none =>
    left
    rw [observe_none hd, observe_none hd]
  | some d =>
    by_cases hle : d ≤ now
    · left
      rw [observe_due hd hle, observe_due hd (by omega)]
    · have hrun : t.observe now = .armed := observe_running hd (by omega)
      rw [hrun]
      by_cases hle' : d ≤ now'
      · right
        exact observe_due hd hle'
      · left
        exact observe_running hd (by omega)

/-- A running timer runs out, given the time. -/
theorem exists_elapse (t : TimerFd) (now : Nat) :
    ∃ ns, t.observe (now + ns) = (t.observe now).elapse := by
  cases hd : t.deadline with
  | none =>
    refine ⟨0, ?_⟩
    rw [observe_none hd, observe_none hd]
    rfl
  | some d =>
    refine ⟨d, ?_⟩
    rw [observe_due hd (by omega)]
    by_cases hle : d ≤ now
    · rw [observe_due hd hle]
      rfl
    · rw [observe_running hd (by omega)]
      rfl

end TimerFd
end CppTftp
