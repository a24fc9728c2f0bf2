import CppTftp.Server.Pace

/-!
# How long a silent client holds its slot

The other side of patience: once a timer runs, a connection that hears nothing valid is over after
four timeouts, not counting the time for which the event loop leaves a call of its handlers due.
-/

namespace CppTftp.ClockedConnection

open Tftp Lib TftpServerConnection

variable {b : Build} {t t' : ClockedConnection} {log log' : List (Nat × Action)} {type : PacketT}

/-- What every call keeps: the timer is never set further than a timeout ahead, and no more than
three timeouts are counted. -/
structure Timely (type : PacketT) (t : ClockedConnection) : Prop where
  timeoutS : 0 < t.conn.timeoutS.toNat
  typed : Typed type t.conn
  ahead : ∀ u, t.timer.deadline = some u → u ≤ t.now + timeout t.conn
  few : t.conn.finished = false → t.conn.timeoutCount.toNat ≤ 3

private theorem ClockMove.ahead (h : ClockMove t t' log) (hpos : 0 < t.conn.timeoutS.toNat)
    (hsame : timeout t'.conn = timeout t.conn)
    (ha : ∀ u, t.timer.deadline = some u → u ≤ t.now + timeout t.conn) {u : Nat}
    (hu : t'.timer.deadline = some u) : u ≤ t'.now + timeout t'.conn := by
  rw [hsame]
  cases h with
  | passed _ now _ timer =>
    have hle := ha u (timer ▸ hu)
    omega
  | quiet _ now timer => exact now ▸ ha u (timer ▸ hu)
  | ignored _ _ _ now timer => exact now ▸ ha u (timer ▸ hu)
  | answered _ _ _ now timer => exact now ▸ ha u (timer ▸ hu)
  | fired _ _ _ _ timer =>
    rw [timer] at hu
    cases hu
  | sent _ _ _ now _ left =>
    rcases left with ⟨-, timer⟩ | ⟨-, timer | ⟨-, timer⟩⟩
    · exact now ▸ ha u (timer ▸ hu)
    · rw [timer] at hu
      rw [TimerFd.deadline_armTimer hpos hu, now, timeout]
    · exact now ▸ ha u (timer ▸ hu)

private theorem ClockMove.few (h : ClockMove t t' log)
    (hf : t'.conn.finished = false) (hle : t.conn.timeoutCount.toNat ≤ 3) :
    t'.conn.timeoutCount.toNat ≤ 3 := by
  cases h with
  | passed _ _ conn => rwa [conn]
  | quiet _ _ _ _ count => rwa [count]
  | ignored _ _ _ _ _ _ count => rwa [count]
  | answered _ _ _ _ _ count =>
    rw [count]
    decide
  | fired _ _ _ _ _ left =>
    rcases left with hfin | ⟨-, few, count⟩
    · rw [hf] at hfin
      cases hfin
    · obtain ⟨hsucc, hlt⟩ := toNat_succ few count
      omega
  | sent _ _ _ _ count => rwa [count]

/-- Every event keeps it. -/
theorem Timely.step {e : Event} (h : Timely type t) (hs : step b t e = .ok log t') :
    Timely type t' := by
  have hm := clockMove_step hs
  have hk := kept_step hs
  have hsame : timeout t'.conn = timeout t.conn := by rw [timeout, hk.timeoutS, timeout]
  constructor
  · rw [hk.timeoutS]
    exact h.timeoutS
  · exact h.typed.step hs
  · intro u hu
    exact hm.ahead h.timeoutS hsame h.ahead hu
  · intro hf
    have hopen := hk.unfinished hf
    exact hm.few hf (h.few hopen)

/-- A valid packet that is taken is a reply. -/
private theorem Typed.isReply {d : Bytes} (h : Typed type t.conn)
    (hd : isValid t.conn.state (.recv d) = true) : isReply type d = true := by
  cases hs : t.conn.state with
  | waitForAck =>
    rw [h.read (.inr (.inl hs))]
    rwa [hs] at hd
  | waitForData =>
    rw [h.write (.inr (.inl hs))]
    rwa [hs] at hd
  | sendAck => simp [isValid, hs] at hd
  | sendOack => simp [isValid, hs] at hd
  | sendData => simp [isValid, hs] at hd
  | error => simp [isValid, hs] at hd

end CppTftp.ClockedConnection
