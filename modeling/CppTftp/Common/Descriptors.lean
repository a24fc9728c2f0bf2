import CppTftp.Common.Stdlib

/-!
# The socket and the timer of a connection

`src/common/udp_connection.cpp:118–121,139–157` and `src/common/timer.cpp:38–71`. The
outcome of a system call is an argument of the model; what the wrapper makes of it is
computed.
-/

namespace CppTftp

/-! ### The socket -/

/-- What `::recv` on the non-blocking socket finds. -/
inductive RecvResult where
  | datagram (data : Bytes)
  | wouldBlock
  | failed (what : String)
  deriving DecidableEq, Repr

/-- What becomes of a `::send`. -/
inductive SendResult where
  | sent
  | wouldBlock
  | failed
  deriving DecidableEq, Repr

/-- `udp_connection::recv`, `udp_connection.cpp:139–157`: at most `size` bytes of the next
datagram, whose tail is lost; nothing when there is none; an exception on other errors. -/
def RecvResult.recv (r : RecvResult) (size : Nat) : Except Stop Bytes :=
  match r with
  | .datagram data => .ok (data.take size)
  | .wouldBlock => .ok []
  | .failed what => .error (.exception what)

/-- Whether the call took a datagram off the socket. -/
def RecvResult.consumes : RecvResult → Bool
  | .datagram _ => true
  | _ => false

@[simp] theorem recv_datagram (data : Bytes) (size : Nat) :
    (RecvResult.datagram data).recv size = .ok (data.take size) := rfl

@[simp] theorem recv_wouldBlock (size : Nat) : RecvResult.wouldBlock.recv size = .ok [] := rfl

@[simp] theorem recv_failed (what : String) (size : Nat) :
    (RecvResult.failed what).recv size = .error (.exception what) := rfl

/-! ### The timer -/

/-- A one-shot `timerfd`: not armed, running, or run out and not read yet. -/
inductive Timer where
  | disarmed
  | armed
  | expired
  deriving DecidableEq, Repr

namespace Timer

/-- `timer::arm_timer`, `timer.cpp:38–49`: a new time replaces the old one and an expiration
not read yet; a zero time disarms. -/
def armTimer (seconds : Nat) : Timer := if seconds = 0 then .disarmed else .armed

/-- `timer::has_expired`, `timer.cpp:66–71`: the answer, and the timer after the read. -/
def hasExpired : Timer → Bool × Timer
  | .expired => (true, .disarmed)
  | t => (false, t)

/-- The time of a running timer is over. -/
def elapse : Timer → Timer
  | .armed => .expired
  | t => t

@[simp] theorem hasExpired_fst (t : Timer) : t.hasExpired.1 = true ↔ t = .expired := by
  cases t <;> simp [hasExpired]

/-- A positive time arms the timer. -/
theorem armTimer_of_pos {seconds : Nat} (h : 0 < seconds) : armTimer seconds = .armed := by
  rw [armTimer, if_neg (by omega)]

/-- A timer just armed has not run out. -/
theorem armTimer_ne_expired (seconds : Nat) : armTimer seconds ≠ .expired := by
  unfold armTimer
  split
  · exact Timer.noConfusion
  · exact Timer.noConfusion

end Timer
end CppTftp
