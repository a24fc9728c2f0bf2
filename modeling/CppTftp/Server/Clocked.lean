import CppTftp.Common.TimerFd
import CppTftp.Server.Startup

/-!
# A connection and the clock

A connection whose timer runs on the monotonic clock: time passes between the calls of its
handlers, and the log says when each action was taken. Against it, the connection whose timer
runs out whenever an event says so is exact: the runs of either are the runs of the other.
-/

namespace CppTftp

open Tftp Lib TftpServerConnection

/-- A connection, its timer and the time. -/
structure ClockedConnection where
  conn : TftpServerConnection
  timer : TimerFd := {}
  now : Nat := 0
  deriving DecidableEq, Repr

namespace ClockedConnection

/-- The connection as it finds its timer now. -/
def view (t : ClockedConnection) : TftpServerConnection :=
  { t.conn with timer := t.timer.observe t.now }

/-- Whether a call of `handle_write` ended with `arm_timer`, `tftp_server_connection.cpp:474,502`:
a DATA packet or an ACK that is not the last one was sent. -/
def arms (c c' : TftpServerConnection) : Bool :=
  c.state = .sendData && c'.state = .waitForAck || c.state = .sendAck && c'.state = .waitForData

/-- The outcome of a call made now, with the timer that the call leaves. -/
def stamp (t : ClockedConnection) (o : HandlerOutcome) (timer : TftpServerConnection → TimerFd) :
    Outcome (Nat × Action) Stop ClockedConnection :=
  ⟨o.log.map fun a ↦ (t.now, a), o.next.map fun c ↦ { t with conn := c, timer := timer c }⟩

/-- `tftp_server_connection::handle_read`, which reads the timer first,
`tftp_server_connection.cpp:301`. -/
def handleRead (b : Build) (t : ClockedConnection) (r : RecvResult) :
    Outcome (Nat × Action) Stop ClockedConnection :=
  t.stamp (TftpServerConnection.handleRead b t.view r) fun _ ↦ (t.timer.hasExpired t.now).2

/-- `tftp_server_connection::handle_write`. -/
def handleWrite (t : ClockedConnection) (s : SendResult) :
    Outcome (Nat × Action) Stop ClockedConnection :=
  t.stamp (t.view.handleWrite s) fun c ↦
    if arms t.conn c then .armTimer t.now c.timeoutS.toNat else t.timer

/-- What can happen: the clock goes on, or the event loop finds something for the connection. -/
inductive Event where
  | elapse (ns : Nat)
  | readable (r : RecvResult)
  | writable (s : SendResult)
  | hangup
  deriving DecidableEq, Repr

/-- The effect of one event. -/
def step (b : Build) (t : ClockedConnection) :
    Event → Outcome (Nat × Action) Stop ClockedConnection
  | .elapse ns => .ok [] { t with now := t.now + ns }
  | .readable r => t.handleRead b r
  | .writable s => t.handleWrite s
  | .hangup => .ok [] { t with conn := t.conn.setFinished true }

variable {b : Build} {t t' : ClockedConnection} {c c' : TftpServerConnection} {l : List Action}

/-! ### What the handlers do to the timer -/

private theorem timer_timeoutMove (h : TimeoutMove c c') : c'.timer = c.timer := by
  cases h with
  | gaveUp => rfl
  | resendData => rfl
  | resendAck => rfl
  | late => rfl

private theorem timer_readAckMove {d : Bytes} (h : ReadAckMove c d c') : c'.timer = c.timer := by
  cases h with
  | repeated => rfl
  | last => rfl
  | next => rfl
  | wrong => rfl
  | refused => rfl
  | ignored => rfl

private theorem timer_readDataMove {d : Bytes} (h : ReadDataMove c d l c') :
    c'.timer = c.timer := by
  cases h with
  | repeated => rfl
  | block decoded number move =>
    cases move with
    | failed => rfl
    | done => rfl
  | wrong => rfl
  | refused => rfl
  | ignored => rfl

/-- All that `handle_read` does to the timer is to read it. -/
theorem timer_handleRead {r : RecvResult}
    (h : TftpServerConnection.handleRead b c r = .ok l c') : c'.timer = c.timer.hasExpired.2 := by
  cases handleReadMove h with
  | timeout expired move =>
    rw [timer_timeoutMove move, expired]
    rfl
  | @ack d timer =>
    rw [timer_readAckMove (readAckMove c d)]
    cases hc : c.timer with
    | disarmed => rfl
    | armed => rfl
    | expired => exact absurd hc timer
  | data timer state recv read =>
    rw [timer_readDataMove (readDataMove read)]
    cases hc : c.timer with
    | disarmed => rfl
    | armed => rfl
    | expired => exact absurd hc timer
  | idle timer =>
    cases hc : c.timer with
    | disarmed => rfl
    | armed => rfl
    | expired => exact absurd hc timer

/-- A call that stays in its state, or fails, has not armed the timer. -/
private theorem timer_of_stays (hs : c'.state = c.state ∨ c'.state = .error)
    (ht : c'.timer = c.timer) :
    c'.timer = if arms c c' then .armTimer c.timeoutS.toNat else c.timer := by
  have ha : arms c c' = false := by
    rcases hs with h | h
    · cases hc : c.state <;> simp [arms, h, hc]
    · simp [arms, h]
  rw [ha]
  exact ht

/-- A call that enters a waiting state from the state that it belongs to has armed it. -/
private theorem timer_of_waits (ha : arms c c' = true)
    (ht : c'.timer = .armTimer c.timeoutS.toNat) :
    c'.timer = if arms c c' then .armTimer c.timeoutS.toNat else c.timer := by
  rw [if_pos ha]
  exact ht

/-- `handle_write` leaves the timer alone, unless it ends with `arm_timer`. -/
theorem timer_handleWrite {s : SendResult} (h : c.handleWrite s = .ok l c') :
    c'.timer = if arms c c' then .armTimer c.timeoutS.toNat else c.timer := by
  have hm : Move c (.writable s) l c' := move_of_step (b := .release) h
  cases hm with
  | sendData state move =>
    cases move with
    | cached ready move =>
      cases move with
      | sent => exact timer_of_waits (by simp [arms, state, waitWithTimer]) rfl
      | blocked => exact timer_of_stays (.inl rfl) rfl
      | failed => exact timer_of_stays (.inr rfl) rfl
    | failed => exact timer_of_stays (.inr rfl) rfl
    | loaded ready read error move =>
      cases move with
      | sent => exact timer_of_waits (by simp [arms, state, waitWithTimer]) rfl
      | blocked => exact timer_of_stays (.inl rfl) rfl
      | failed => exact timer_of_stays (.inr rfl) rfl
  | sendAck state move =>
    cases move with
    | sentFinal => exact timer_of_stays (.inl rfl) rfl
    | sent => exact timer_of_waits (by simp [arms, state, waitWithTimer]) rfl
    | blocked => exact timer_of_stays (.inl rfl) rfl
    | failed => exact timer_of_stays (.inr rfl) rfl
  | sendOack state move =>
    have ha : arms c c' = false := by simp [arms, state]
    rw [ha]
    cases move with
    | sentRead => rfl
    | sentWrite => rfl
    | blocked => rfl
    | failed => rfl
  | sendError state move =>
    cases move with
    | sent => exact timer_of_stays (.inl rfl) rfl
    | blocked => exact timer_of_stays (.inl rfl) rfl
    | failed => exact timer_of_stays (.inl rfl) rfl

/-! ### The connection without the clock -/

/-- A call that returns, from that of the connection as it finds its timer. -/
theorem stamp_eq_ok_iff {o : HandlerOutcome} {timer : TftpServerConnection → TimerFd}
    {log : List (Nat × Action)} : t.stamp o timer = .ok log t' ↔
      ∃ l c', o = .ok l c' ∧ log = l.map (fun a ↦ (t.now, a)) ∧
        t' = { t with conn := c', timer := timer c' } := by
  constructor
  · intro h
    have hlog : o.log.map (fun a ↦ (t.now, a)) = log := congrArg Outcome.log h
    have hnext : o.next.map (fun c ↦ { t with conn := c, timer := timer c }) = .ok t' :=
      congrArg Outcome.next h
    cases hn : o.next with
    | error stop =>
      rw [hn] at hnext
      cases hnext
    | ok c' =>
      rw [hn] at hnext
      exact ⟨o.log, c', Outcome.eq_ok_of_next hn, hlog.symm, (Except.ok.inj hnext).symm⟩
  · rintro ⟨l, c', rfl, rfl, rfl⟩
    rfl

/-- The timer that `handle_read` leaves is found as its call found it. -/
theorem view_handleRead {r : RecvResult}
    (h : TftpServerConnection.handleRead b t.view r = .ok l c') :
    view { t with conn := c', timer := (t.timer.hasExpired t.now).2 } = c' := by
  have ht := timer_handleRead h
  have hv := congrArg Prod.snd (TimerFd.hasExpired_observe t.timer t.now)
  show { c' with timer := (t.timer.hasExpired t.now).2.observe t.now } = c'
  rw [show (t.timer.hasExpired t.now).2.observe t.now = c'.timer from hv.trans ht.symm]

/-- The timer that `handle_write` leaves is found as its call left it. -/
theorem view_handleWrite {s : SendResult} (h : t.view.handleWrite s = .ok l c') :
    view { t with
      conn := c', timer := if arms t.conn c' then .armTimer t.now c'.timeoutS.toNat
        else t.timer } = c' := by
  have ht := timer_handleWrite h
  have hk := (kept_step (b := .release) (e := .writable s) h).timeoutS
  have ha : arms t.view c' = arms t.conn c' := rfl
  rw [ha] at ht
  show { c' with timer := TimerFd.observe (if arms t.conn c' then _ else _) t.now } = c'
  have hsame : (if arms t.conn c' then TimerFd.armTimer t.now c'.timeoutS.toNat
      else t.timer).observe t.now = c'.timer := by
    rw [ht]
    split
    · rw [TimerFd.observe_armTimer, hk]
    · rfl
  rw [hsame]

/-- Time leaves the connection alone; any other event is a call of it as it finds its timer. -/
theorem call_of_step {e : Event} {log : List (Nat × Action)} (h : step b t e = .ok log t') :
    (∃ ns, log = [] ∧ t' = { t with now := t.now + ns }) ∨
      ∃ e' l, TftpServerConnection.step b t.view e' = .ok l t'.view ∧ l = log.map Prod.snd := by
  cases e with
  | elapse ns =>
    obtain ⟨rfl, rfl⟩ := Outcome.ok_inj.mp h
    exact .inl ⟨ns, rfl, rfl⟩
  | readable r =>
    obtain ⟨l, c', hc, rfl, rfl⟩ := stamp_eq_ok_iff.mp h
    rw [view_handleRead hc]
    exact .inr ⟨.readable r, l, hc, by simp [Function.comp_def]⟩
  | writable s =>
    obtain ⟨l, c', hc, rfl, rfl⟩ := stamp_eq_ok_iff.mp h
    rw [view_handleWrite hc]
    exact .inr ⟨.writable s, l, hc, by simp [Function.comp_def]⟩
  | hangup =>
    obtain ⟨rfl, rfl⟩ := Outcome.ok_inj.mp h
    exact .inr ⟨.hangup, [], rfl, rfl⟩

/-- Every event keeps what the constructor fixed. -/
theorem kept_step {e : Event} {log : List (Nat × Action)} (h : step b t e = .ok log t') :
    Kept t.conn t'.conn := by
  rcases call_of_step h with ⟨ns, -, rfl⟩ | ⟨e', l, hs, -⟩
  · exact Kept.refl t.conn
  · have hk := TftpServerConnection.kept_step hs
    exact ⟨hk.fixed, hk.finished, hk.offer⟩

/-- What the clock does is a tick, or nothing. -/
private theorem view_elapse (t : ClockedConnection) (ns : Nat) :
    ∃ es, Runs (TftpServerConnection.step b) t.view es [] (view { t with now := t.now + ns }) := by
  rcases t.timer.observe_later (Nat.le_add_right t.now ns) with h | h
  · have hv : view { t with now := t.now + ns } = t.view := by
      show { t.conn with timer := t.timer.observe (t.now + ns) } = t.view
      rw [h]
      rfl
    rw [hv]
    exact ⟨[], Runs.nil _⟩
  · have hs : TftpServerConnection.step b t.view .tick =
        .ok [] (view { t with now := t.now + ns }) := by
      show _ = Outcome.ok [] { t.conn with timer := t.timer.observe (t.now + ns) }
      rw [h]
      rfl
    exact ⟨[.tick], Runs.cons hs (Runs.nil _)⟩

/-- Every event with the clock is a run without it. -/
private theorem step_without_clock {e : Event} {log : List (Nat × Action)}
    (h : step b t e = .ok log t') :
    ∃ es l, Runs (TftpServerConnection.step b) t.view es l t'.view ∧ l = log.map Prod.snd := by
  rcases call_of_step h with ⟨ns, rfl, rfl⟩ | ⟨e', l, hs, hl⟩
  · obtain ⟨es, hr⟩ := view_elapse t ns
    exact ⟨es, [], hr, rfl⟩
  · have hr := Runs.cons hs (Runs.nil _)
    rw [List.append_nil] at hr
    exact ⟨_, l, hr, hl⟩

/-- Every event without the clock is one with it, after the right time. -/
private theorem step_with_clock {e : TftpServerConnection.Event}
    (h : TftpServerConnection.step b t.view e = .ok l c') :
    ∃ e' log t', step b t e' = .ok log t' ∧ log.map Prod.snd = l ∧ t'.view = c' := by
  cases e with
  | readable r =>
    refine ⟨.readable r, _, _, stamp_eq_ok_iff.mpr ⟨l, c', h, rfl, rfl⟩, ?_, view_handleRead h⟩
    simp [Function.comp_def]
  | writable s =>
    refine ⟨.writable s, _, _, stamp_eq_ok_iff.mpr ⟨l, c', h, rfl, rfl⟩, ?_, view_handleWrite h⟩
    simp [Function.comp_def]
  | tick =>
    obtain ⟨rfl, rfl⟩ := Outcome.ok_inj.mp h
    obtain ⟨ns, hns⟩ := t.timer.exists_elapse t.now
    refine ⟨.elapse ns, [], _, rfl, rfl, ?_⟩
    show { t.conn with timer := t.timer.observe (t.now + ns) } = _
    rw [hns]
    rfl
  | hangup =>
    obtain ⟨rfl, rfl⟩ := Outcome.ok_inj.mp h
    exact ⟨.hangup, [], _, rfl, rfl, rfl⟩

/-- A run with the clock is one without it. -/
theorem runs_without_clock {es : List Event} {log : List (Nat × Action)}
    (h : Runs (step b) t es log t') :
    ∃ es', Runs (TftpServerConnection.step b) t.view es' (log.map Prod.snd) t'.view := by
  have hsim : ∃ es' log' c', Runs (TftpServerConnection.step b) t.view es' log' c' ∧
      log'.map id = log.map Prod.snd ∧ t'.view = c' := by
    apply h.simulates (fun t c ↦ t.view = c) Prod.snd id rfl
    rintro t _ e log t' rfl hs
    obtain ⟨es', l, hr, rfl⟩ := step_without_clock hs
    exact ⟨es', _, _, hr, List.map_id _, rfl⟩
  obtain ⟨es', log', _, hr, hl, rfl⟩ := hsim
  rw [List.map_id] at hl
  rw [hl] at hr
  exact ⟨es', hr⟩

/-- A run without the clock is one with it. -/
theorem runs_with_clock {es : List TftpServerConnection.Event}
    (h : Runs (TftpServerConnection.step b) t.view es l c') :
    ∃ es' log t', Runs (step b) t es' log t' ∧ log.map Prod.snd = l ∧ t'.view = c' := by
  have hsim : ∃ es' log t', Runs (step b) t es' log t' ∧
      log.map Prod.snd = l.map id ∧ t'.view = c' := by
    apply h.simulates (fun c t ↦ view t = c) id Prod.snd rfl
    rintro _ t e l c' rfl hs
    obtain ⟨e', log, t', hs', hl, ht⟩ := step_with_clock hs
    refine ⟨[e'], log ++ [], t', Runs.cons hs' (Runs.nil t'), ?_, ht⟩
    rw [List.append_nil, List.map_id]
    exact hl
  obtain ⟨es', log, t', hr, hl, ht⟩ := hsim
  rw [List.map_id] at hl
  exact ⟨es', log, t', hr, hl, ht⟩

/-- A call with the clock stops exactly when the call without it does, after the same actions. -/
private theorem stops_with_clock_iff {stop : Stop} :
    (∃ e log, step b t e = .stop log stop ∧ log.map Prod.snd = l) ↔
      ∃ e, TftpServerConnection.step b t.view e = .stop l stop := by
  have hstamp : ∀ (o : HandlerOutcome) (timer : TftpServerConnection → TimerFd),
      (∃ log, t.stamp o timer = .stop log stop ∧ log.map Prod.snd = l) ↔ o = .stop l stop := by
    intro o timer
    constructor
    · rintro ⟨log, h, rfl⟩
      have hlog : o.log.map (fun a ↦ (t.now, a)) = log := congrArg Outcome.log h
      have hnext : o.next.map (fun c ↦ { t with conn := c, timer := timer c }) = .error stop :=
        congrArg Outcome.next h
      cases hn : o.next with
      | ok c =>
        rw [hn] at hnext
        cases hnext
      | error stop' =>
        rw [hn] at hnext
        cases hnext
        rw [Outcome.eq_stop_of_next hn, ← hlog]
        simp [Function.comp_def]
    · rintro rfl
      exact ⟨_, rfl, by simp [Function.comp_def]⟩
  constructor
  · rintro ⟨e, log, h, hl⟩
    cases e with
    | elapse ns => exact absurd h.symm Outcome.stop_ne_ok
    | readable r => exact ⟨.readable r, (hstamp _ _).mp ⟨log, h, hl⟩⟩
    | writable s => exact ⟨.writable s, (hstamp _ _).mp ⟨log, h, hl⟩⟩
    | hangup => exact absurd h.symm Outcome.stop_ne_ok
  · rintro ⟨e, h⟩
    cases e with
    | readable r => exact ⟨.readable r, (hstamp _ _).mpr h⟩
    | writable s => exact ⟨.writable s, (hstamp _ _).mpr h⟩
    | tick => exact absurd h.symm Outcome.stop_ne_ok
    | hangup => exact absurd h.symm Outcome.stop_ne_ok

/-- The connection with the clock refines the one without it, and nothing is lost in the other
direction: they have the same logs of actions and the same states at the end of their runs, and
they stop for the same reasons after the same actions. -/
theorem clock_refines (b : Build) (t : ClockedConnection) (l : List Action) :
    (∀ c', (∃ es, Runs (TftpServerConnection.step b) t.view es l c') ↔
      ∃ es log t', Runs (step b) t es log t' ∧ log.map Prod.snd = l ∧ t'.view = c') ∧
    ∀ stop, (∃ es, exec (TftpServerConnection.step b) t.view es = .stop l stop) ↔
      ∃ es log, exec (step b) t es = .stop log stop ∧ log.map Prod.snd = l := by
  constructor
  · intro c'
    constructor
    · rintro ⟨es, hr⟩
      exact runs_with_clock hr
    · rintro ⟨es, log, t', hr, rfl, rfl⟩
      exact runs_without_clock hr
  · intro stop
    constructor
    · rintro ⟨es, h⟩
      have hn : (exec (TftpServerConnection.step b) t.view es).next = .error stop := by rw [h]; rfl
      obtain ⟨pre, e, post, l₁, c, rfl, hr, hs⟩ := exists_call_of_stop hn
      rw [hr.exec_stop hs] at h
      obtain rfl : l₁ ++ (TftpServerConnection.step b c e).log = l := congrArg Outcome.log h
      obtain ⟨es', log₁, t₁, hr', rfl, rfl⟩ := runs_with_clock hr
      obtain ⟨e', log₂, hs', hl⟩ := stops_with_clock_iff.mpr ⟨e, Outcome.eq_stop_of_next hs⟩
      refine ⟨es' ++ e' :: [], _, hr'.exec_stop (by rw [hs']; rfl) [], ?_⟩
      rw [List.map_append, hs']
      exact congrArg _ hl
    · rintro ⟨es, log, h, rfl⟩
      have hn : (exec (step b) t es).next = .error stop := by rw [h]; rfl
      obtain ⟨pre, e, post, log₁, t₁, rfl, hr, hs⟩ := exists_call_of_stop hn
      rw [hr.exec_stop hs] at h
      obtain rfl : log₁ ++ (step b t₁ e).log = log := congrArg Outcome.log h
      obtain ⟨es', hr'⟩ := runs_without_clock hr
      obtain ⟨e', hs'⟩ := stops_with_clock_iff.mp ⟨e, _, Outcome.eq_stop_of_next hs, rfl⟩
      refine ⟨es' ++ e' :: [], ?_⟩
      rw [hr'.exec_stop (by rw [hs']; rfl) [], List.map_append, hs']
      rfl

end ClockedConnection
end CppTftp
