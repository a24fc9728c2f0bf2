import CppTftp.Lib.Pacing
import CppTftp.Server.Clocked
import CppTftp.Server.GivingUp
import CppTftp.Server.OpenFiles

/-!
# The pace of a connection

With the clock it can be said how much traffic a connection makes and how long it waits: a packet
is sent in answer to one that was received or after a full timeout, and no client is given up on
that was heard from less than three timeouts ago.
-/

namespace CppTftp.ClockedConnection

open Tftp Lib TftpServerConnection

variable {b : Build} {t t' : ClockedConnection} {log log' : List (Nat × Action)}

/-! ### What one event does to the traffic and the timer -/

/-- A datagram comes in. -/
def isRecv : Action → Bool
  | .recv _ => true
  | _ => false

/-- Entries of one call that neither send nor receive. -/
def Quiet (now : Nat) (log : List (Nat × Action)) : Prop :=
  ∀ e ∈ log, e.1 = now ∧ isSend e.2 = false ∧ isRecv e.2 = false

/-- The moves of the clock, the timer, the waiting states, the count of timeouts and the log. -/
inductive ClockMove (t t' : ClockedConnection) (log : List (Nat × Action)) : Prop
  | passed (traffic : log = []) (now : t.now ≤ t'.now) (conn : t'.conn = t.conn)
      (timer : t'.timer = t.timer)
  | quiet (traffic : Quiet t.now log) (now : t'.now = t.now) (timer : t'.timer = t.timer)
      (waiting : t'.conn.waitForRead = t.conn.waitForRead)
      (count : t'.conn.timeoutCount = t.conn.timeoutCount)
  | ignored {d : Bytes} (awaiting : t.conn.waitForRead = true)
      (traffic : log = [(t.now, .recv d)]) (kind : isValid t.conn.state (.recv d) = false)
      (now : t'.now = t.now) (timer : t'.timer = t.timer)
      (waiting : t'.conn.waitForRead = t.conn.waitForRead)
      (count : t'.conn.timeoutCount = t.conn.timeoutCount)
  | answered {d : Bytes} {w : List (Nat × Action)}
      (running : ∀ u, t.timer.deadline = some u → t.now < u)
      (traffic : log = (t.now, .recv d) :: w) (rest : Quiet t.now w) (now : t'.now = t.now)
      (timer : t'.timer = t.timer) (count : t'.conn.timeoutCount = 0)
      (kind : isValid t.conn.state (.recv d) = true)
  | fired {u : Nat} (deadline : t.timer.deadline = some u) (due : u ≤ t.now) (traffic : log = [])
      (now : t'.now = t.now) (timer : t'.timer = {})
      (left : t'.conn.finished = true ∨ t'.conn.waitForRead = false ∧
        t.conn.timeoutCount < maxTimeouts ∧
        t'.conn.timeoutCount = t.conn.timeoutCount + 1)
  | sent {d : Bytes} {w : List (Nat × Action)} (busy : t.conn.waitForRead = false)
      (traffic : log = w ++ [(t.now, .send d)]) (rest : Quiet t.now w) (now : t'.now = t.now)
      (count : t'.conn.timeoutCount = t.conn.timeoutCount)
      (left : t'.conn.finished = true ∧ t'.timer = t.timer ∨ t'.conn.waitForRead = true ∧
        (t'.timer = .armTimer t.now t.conn.timeoutS.toNat ∨
          t.conn.state = .sendOack ∧ t'.timer = t.timer))

variable {c c' : TftpServerConnection} {l : List Action}

private theorem quiet_nil (now : Nat) : Quiet now [] := fun _ h ↦ absurd h List.not_mem_nil

private theorem quiet_map (now : Nat) (h : ∀ a ∈ l, isSend a = false ∧ isRecv a = false) :
    Quiet now (l.map fun a ↦ (now, a)) := by
  intro e he
  obtain ⟨a, ha, rfl⟩ := List.mem_map.mp he
  exact ⟨rfl, h a ha⟩

private theorem quiet_readInTo (now : Nat) : Quiet now [(now, .readInTo)] := by
  intro e he
  rw [List.mem_singleton.mp he]
  exact ⟨rfl, rfl, rfl⟩

/-- A timer that is not found expired has its time before it. -/
private theorem running_of_ne (h : t.view.timer ≠ .expired) :
    (∀ u, t.timer.deadline = some u → t.now < u) ∧ (t.timer.hasExpired t.now).2 = t.timer := by
  have h : t.timer.observe t.now ≠ .expired := h
  refine ⟨fun u hu ↦ ?_, by rw [TimerFd.hasExpired_of_ne h]⟩
  by_contra hle
  exact h (TimerFd.observe_due hu (by omega))

private theorem ReadAckMove.clockMove {d : Bytes} (h : ReadAckMove t.view d c')
    (hs : t.conn.state = .waitForAck) (ht : t.view.timer ≠ .expired) :
    ClockMove t { t with conn := c', timer := (t.timer.hasExpired t.now).2 }
      [(t.now, .recv d)] := by
  obtain ⟨hrun, hread⟩ := running_of_ne ht
  have hwait : t.conn.waitForRead = true := by simp [waitForRead, hs]
  rw [hread]
  have hkind : deserialiseAckPacket d = none → isValid t.conn.state (.recv d) = false := by
    intro hd
    rw [hs]
    simp [isValid, hd]
  have hvalid : ∀ p, deserialiseAckPacket d = some p → isValid t.conn.state (.recv d) = true := by
    intro p hd
    rw [hs]
    simp [isValid, hd]
  cases h with
  | repeated decoded => exact .answered hrun rfl (quiet_nil t.now) rfl rfl rfl (hvalid _ decoded)
  | last decoded => exact .answered hrun rfl (quiet_nil t.now) rfl rfl rfl (hvalid _ decoded)
  | next decoded => exact .answered hrun rfl (quiet_nil t.now) rfl rfl rfl (hvalid _ decoded)
  | wrong decoded => exact .answered hrun rfl (quiet_nil t.now) rfl rfl rfl (hvalid _ decoded)
  | refused decoded => exact .ignored hwait rfl (hkind decoded) rfl rfl rfl rfl
  | ignored decoded => exact .ignored hwait rfl (hkind decoded) rfl rfl rfl rfl

private theorem ReadDataMove.clockMove {d : Bytes} (h : ReadDataMove t.view d l c')
    (hs : t.conn.state = .waitForData) (ht : t.view.timer ≠ .expired) :
    ClockMove t { t with conn := c', timer := (t.timer.hasExpired t.now).2 }
      ((t.now, .recv d) :: l.map fun a ↦ (t.now, a)) := by
  obtain ⟨hrun, hread⟩ := running_of_ne ht
  have hwait : t.conn.waitForRead = true := by simp [waitForRead, hs]
  rw [hread]
  have hkind : deserialiseDataPacket d = none → isValid t.conn.state (.recv d) = false := by
    intro hd
    rw [hs]
    simp [isValid, hd]
  have hvalid : ∀ p, deserialiseDataPacket d = some p → isValid t.conn.state (.recv d) = true := by
    intro p hd
    rw [hs]
    simp [isValid, hd]
  cases h with
  | repeated decoded => exact .answered hrun rfl (quiet_nil t.now) rfl rfl rfl (hvalid _ decoded)
  | @block p _ decoded number move =>
    have hquiet : Quiet t.now ([Action.write p.data].map fun a ↦ (t.now, a)) := by
      apply quiet_map
      intro a ha
      rw [List.mem_singleton.mp ha]
      exact ⟨rfl, rfl⟩
    have hcount : c'.timeoutCount = 0 := by cases move <;> rfl
    exact .answered hrun rfl hquiet rfl rfl hcount (hvalid _ decoded)
  | wrong decoded => exact .answered hrun rfl (quiet_nil t.now) rfl rfl rfl (hvalid _ decoded)
  | refused decoded => exact .ignored hwait rfl (hkind decoded) rfl rfl rfl rfl
  | ignored decoded => exact .ignored hwait rfl (hkind decoded) rfl rfl rfl rfl

private theorem TimeoutMove.clockMove (h : TimeoutMove { t.view with timer := .disarmed } c')
    (ht : t.view.timer = .expired) :
    ClockMove t { t with conn := c', timer := (t.timer.hasExpired t.now).2 } [] := by
  have ht : t.timer.observe t.now = .expired := ht
  obtain ⟨u, hu, hle⟩ := TimerFd.observe_eq_expired_iff.mp ht
  rw [TimerFd.hasExpired_due hu hle]
  cases h with
  | gaveUp => exact .fired hu hle rfl rfl rfl (.inl rfl)
  | resendData few => exact .fired hu hle rfl rfl rfl (.inr ⟨rfl, few, rfl⟩)
  | resendAck few => exact .fired hu hle rfl rfl rfl (.inr ⟨rfl, few, rfl⟩)
  | late few busy => exact .fired hu hle rfl rfl rfl (.inr ⟨busy, few, rfl⟩)

/-- A call of `handle_read` makes one of these moves. -/
private theorem clockMove_read {r : RecvResult} (h : t.handleRead b r = .ok log t') :
    ClockMove t t' log := by
  obtain ⟨l, c', hc, rfl, rfl⟩ := stamp_eq_ok_iff.mp h
  cases handleReadMove hc with
  | timeout expired move => exact TimeoutMove.clockMove move expired
  | @ack d timer state recv =>
    cases r with
    | datagram data => exact ReadAckMove.clockMove (readAckMove t.view d) state timer
    | wouldBlock =>
      cases recv
      exact .quiet (quiet_nil t.now) rfl (running_of_ne timer).2 rfl rfl
    | failed what => cases recv
  | data timer state recv read =>
    cases r with
    | datagram data => exact ReadDataMove.clockMove (readDataMove read) state timer
    | wouldBlock =>
      cases recv
      obtain ⟨rfl, rfl⟩ := Outcome.ok_inj.mp read
      exact .quiet (quiet_nil t.now) rfl (running_of_ne timer).2 rfl rfl
    | failed what => cases recv
  | idle timer => exact .quiet (quiet_nil t.now) rfl (running_of_ne timer).2 rfl rfl

/-- The timer after a call of `handle_write` that ends in `c'`. -/
private def timerAfter (t : ClockedConnection) (c' : TftpServerConnection) : TimerFd :=
  if arms t.conn c' then .armTimer t.now c'.timeoutS.toNat else t.timer

/-- A call of `handle_write` that sends nothing. -/
private theorem ClockMove.unsent (ha : arms t.conn c' = false) (hq : Quiet t.now log)
    (hw : c'.waitForRead = t.conn.waitForRead) (hc : c'.timeoutCount = t.conn.timeoutCount) :
    ClockMove t { t with conn := c', timer := timerAfter t c' } log := by
  rw [timerAfter, ha]
  exact .quiet hq rfl rfl hw hc

/-- A call of `handle_write` that sends a packet and waits for the answer to it. -/
private theorem ClockMove.waits {d : Bytes} {w : List (Nat × Action)}
    (hbusy : t.conn.waitForRead = false) (ha : arms t.conn c' = true)
    (hl : log = w ++ [(t.now, .send d)]) (hq : Quiet t.now w) (hw : c'.waitForRead = true)
    (hc : c'.timeoutCount = t.conn.timeoutCount) (hk : c'.timeoutS = t.conn.timeoutS) :
    ClockMove t { t with conn := c', timer := timerAfter t c' } log := by
  rw [timerAfter, if_pos ha, hk]
  exact .sent hbusy hl hq rfl hc (.inr ⟨hw, .inl rfl⟩)

/-- A call of `handle_write` that sends a packet without arming the timer. -/
private theorem ClockMove.ends {d : Bytes} (hbusy : t.conn.waitForRead = false)
    (ha : arms t.conn c' = false) (hl : log = [(t.now, .send d)])
    (hc : c'.timeoutCount = t.conn.timeoutCount)
    (hleft : c'.finished = true ∨ c'.waitForRead = true ∧ t.conn.state = .sendOack) :
    ClockMove t { t with conn := c', timer := timerAfter t c' } log := by
  rw [timerAfter, ha]
  refine .sent hbusy hl (quiet_nil t.now) rfl hc ?_
  rcases hleft with hf | ⟨hw, ho⟩
  · exact .inl ⟨hf, rfl⟩
  · exact .inr ⟨hw, .inr ⟨ho, rfl⟩⟩

private theorem SendDataMove.clockMove {s : SendResult} (h : SendDataMove t.view s l c')
    (hs : t.conn.state = .sendData) :
    ClockMove t { t with conn := c', timer := timerAfter t c' } (l.map fun a ↦ (t.now, a)) := by
  have hbusy : t.conn.waitForRead = false := by simp [waitForRead, hs]
  have hwaits : ∀ c : TftpServerConnection, c.state = .waitForAck → arms t.conn c = true := by
    intro c hc
    simp [arms, hs, hc]
  have hstays : ∀ c : TftpServerConnection, c.state = .sendData ∨ c.state = .error →
      arms t.conn c = false ∧ c.waitForRead = t.conn.waitForRead := by
    rintro c (hc | hc)
    · simp [arms, waitForRead, hs, hc]
    · simp [arms, waitForRead, hs, hc]
  cases h with
  | cached ready move =>
    cases move with
    | sent => exact .waits hbusy (hwaits _ rfl) rfl (quiet_nil t.now) rfl rfl rfl
    | blocked =>
      exact .unsent (hstays _ (.inl hs)).1 (quiet_nil t.now) (hstays _ (.inl hs)).2 rfl
    | failed =>
      exact .unsent (hstays _ (.inr rfl)).1 (quiet_nil t.now) (hstays _ (.inr rfl)).2 rfl
  | failed =>
    exact .unsent (hstays _ (.inr rfl)).1 (quiet_readInTo t.now) (hstays _ (.inr rfl)).2 rfl
  | loaded ready read error move =>
    cases move with
    | sent => exact .waits hbusy (hwaits _ rfl) rfl (quiet_readInTo t.now) rfl rfl rfl
    | blocked =>
      exact .unsent (hstays _ (.inl hs)).1 (quiet_readInTo t.now) (hstays _ (.inl hs)).2 rfl
    | failed =>
      exact .unsent (hstays _ (.inr rfl)).1 (quiet_readInTo t.now) (hstays _ (.inr rfl)).2 rfl

private theorem SendAckMove.clockMove {s : SendResult} (h : SendAckMove t.view s l c')
    (hs : t.conn.state = .sendAck) :
    ClockMove t { t with conn := c', timer := timerAfter t c' } (l.map fun a ↦ (t.now, a)) := by
  have hbusy : t.conn.waitForRead = false := by simp [waitForRead, hs]
  cases h with
  | sentFinal => exact .ends hbusy (by simp [arms, hs, view]) rfl rfl (.inl rfl)
  | sent =>
    exact .waits hbusy (by simp [arms, hs, waitWithTimer]) rfl (quiet_nil t.now) rfl rfl rfl
  | blocked => exact .unsent (by simp [arms, hs, view]) (quiet_nil t.now) rfl rfl
  | failed => exact .unsent (by simp [arms]) (quiet_nil t.now) (by rw [hbusy]; rfl) rfl

private theorem SendOackMove.clockMove {s : SendResult} (h : SendOackMove t.view s l c')
    (hs : t.conn.state = .sendOack) :
    ClockMove t { t with conn := c', timer := timerAfter t c' } (l.map fun a ↦ (t.now, a)) := by
  have hbusy : t.conn.waitForRead = false := by simp [waitForRead, hs]
  have ha : ∀ c : TftpServerConnection, arms t.conn c = false := fun c ↦ by simp [arms, hs]
  cases h with
  | sentRead => exact .ends hbusy (ha _) rfl rfl (.inr ⟨rfl, hs⟩)
  | sentWrite => exact .ends hbusy (ha _) rfl rfl (.inr ⟨rfl, hs⟩)
  | blocked => exact .unsent (ha _) (quiet_nil t.now) rfl rfl
  | failed => exact .unsent (ha _) (quiet_nil t.now) rfl rfl

private theorem SendErrorMove.clockMove {s : SendResult} (h : SendErrorMove t.view s l c')
    (hs : t.conn.state = .error) :
    ClockMove t { t with conn := c', timer := timerAfter t c' } (l.map fun a ↦ (t.now, a)) := by
  have hbusy : t.conn.waitForRead = false := by simp [waitForRead, hs]
  have ha : ∀ c : TftpServerConnection, arms t.conn c = false := fun c ↦ by simp [arms, hs]
  cases h with
  | sent => exact .ends hbusy (ha _) rfl rfl (.inl rfl)
  | blocked => exact .unsent (ha _) (quiet_nil t.now) rfl rfl
  | failed => exact .unsent (ha _) (quiet_nil t.now) rfl rfl

/-- A call of `handle_write` makes one of these moves. -/
private theorem clockMove_write {s : SendResult} (h : t.handleWrite s = .ok log t') :
    ClockMove t t' log := by
  obtain ⟨l, c', hc, rfl, rfl⟩ := stamp_eq_ok_iff.mp h
  have hm : Move t.view (.writable s) l c' := move_of_step (b := .release) hc
  cases hm with
  | sendData state move => exact SendDataMove.clockMove move state
  | sendAck state move => exact SendAckMove.clockMove move state
  | sendOack state move => exact SendOackMove.clockMove move state
  | sendError state move => exact SendErrorMove.clockMove move state

/-- Every event makes one of these moves. -/
theorem clockMove_step {e : Event} (h : step b t e = .ok log t') : ClockMove t t' log := by
  cases e with
  | elapse ns =>
    obtain ⟨rfl, rfl⟩ := Outcome.ok_inj.mp h
    exact .passed rfl (Nat.le_add_right t.now ns) rfl rfl
  | readable r => exact clockMove_read h
  | writable s => exact clockMove_write h
  | hangup =>
    obtain ⟨rfl, rfl⟩ := Outcome.ok_inj.mp h
    exact .quiet (quiet_nil t.now) rfl rfl rfl rfl

/-! ### A paced connection -/

/-- The time that a packet is given to be answered. -/
def timeout (c : TftpServerConnection) : Nat := c.timeoutS.toNat * nsPerSecond

/-- The log is in the order of the clock. -/
structure Ordered (log : List (Nat × Action)) (now : Nat) : Prop where
  sorted : log.Pairwise fun e e' ↦ e.1 ≤ e'.1
  past : ∀ e ∈ log, e.1 ≤ now

/-- The log of a call goes to the end of an ordered log. -/
private theorem Ordered.append {now now' : Nat} (h : Ordered log now) (hn : now ≤ now')
    (hl : ∀ e ∈ log', e.1 = now) : Ordered (log ++ log') now' := by
  constructor
  · refine List.pairwise_append.mpr ⟨h.sorted, ?_, fun e he e' he' ↦ hl e' he' ▸ h.past e he⟩
    apply List.pairwise_iff_getElem.mpr
    intro i j hi hj _
    rw [hl _ (List.getElem_mem hi), hl _ (List.getElem_mem hj)]
  · intro e he
    rcases List.mem_append.mp he with he | he
    · exact Nat.le_trans (h.past e he) hn
    · rw [hl e he]
      exact hn

/-- All entries of a call are made at the time of the call. -/
private theorem ClockMove.now_of_mem (h : ClockMove t t' log) {e : Nat × Action} (he : e ∈ log) :
    e.1 = t.now := by
  have hquiet : ∀ {w : List (Nat × Action)}, Quiet t.now w → e ∈ w → e.1 = t.now :=
    fun hq hw ↦ (hq e hw).1
  cases h with
  | passed traffic =>
    rw [traffic] at he
    cases he
  | quiet traffic => exact hquiet traffic he
  | ignored awaiting traffic =>
    rw [traffic] at he
    rw [List.mem_singleton.mp he]
  | answered running traffic rest =>
    rw [traffic] at he
    rcases List.mem_cons.mp he with rfl | he
    · rfl
    · exact hquiet rest he
  | fired deadline due traffic =>
    rw [traffic] at he
    cases he
  | sent busy traffic rest =>
    rw [traffic] at he
    rcases List.mem_append.mp he with he | he
    · exact hquiet rest he
    · rw [List.mem_singleton.mp he]

/-- The clock does not go back. -/
private theorem ClockMove.now_le (h : ClockMove t t' log) : t.now ≤ t'.now := by
  cases h with
  | passed _ now => exact now
  | quiet _ now => exact Nat.le_of_eq now.symm
  | ignored _ _ _ now => exact Nat.le_of_eq now.symm
  | answered _ _ _ now => exact Nat.le_of_eq now.symm
  | fired _ _ _ now => exact Nat.le_of_eq now.symm
  | sent _ _ _ now => exact Nat.le_of_eq now.symm

/-- The last packet that was sent at `s` and not answered leaves the connection waiting for a
timeout, or to be sent again after one. -/
structure Answerable (s : Nat) (t : ClockedConnection) : Prop where
  waiting : t.conn.waitForRead = true → ∀ u, t.timer.deadline = some u → s + timeout t.conn ≤ u
  due : t.conn.waitForRead = false → s + timeout t.conn ≤ t.now

/-- What the log and the state of an unfinished connection have to do with each other. -/
structure OnPace (log : List (Nat × Action)) (t : ClockedConnection) : Prop where
  timeoutS : 0 < t.conn.timeoutS.toNat
  ordered : Ordered log t.now
  paced : Paced isSend isRecv (timeout t.conn) none log
  offer : t.conn.state = .sendOack → t.timer.deadline = none
  answerable : t.conn.finished = false →
    ∀ s, unanswered isSend isRecv none log = some s → Answerable s t

/-- Quiet entries change nothing about the last packet. -/
private theorem unanswered_quiet {now : Nat} (h : Quiet now log') (x : Option Nat) :
    unanswered isSend isRecv x log' = x := by
  induction log' with
  | nil => rfl
  | cons e l ih =>
    obtain ⟨-, hs, hr⟩ := h e List.mem_cons_self
    have hnote : noteEntry isSend isRecv x e = x := by simp [noteEntry, hs, hr]
    rw [unanswered_cons, hnote]
    exact ih fun e' he' ↦ h e' (List.mem_cons_of_mem e he')

private theorem paced_quiet {now gap : Nat} (h : Quiet now log') (x : Option Nat) :
    Paced isSend isRecv gap x log' :=
  paced_of_no_send fun e he ↦ (h e he).2.1

/-- Without an entry for the traffic a move keeps the last packet answerable. -/
private theorem Answerable.kept {s : Nat} (h : Answerable s t) (hn : t.now ≤ t'.now)
    (hw : t'.conn.waitForRead = t.conn.waitForRead) (ht : t'.timer = t.timer)
    (hk : timeout t'.conn = timeout t.conn) : Answerable s t' := by
  constructor
  · intro hw' u hu
    rw [hk]
    exact h.waiting (hw ▸ hw') u (ht ▸ hu)
  · intro hw'
    rw [hk]
    exact Nat.le_trans (h.due (hw ▸ hw')) hn

/-- The packets of a call are sent a timeout after the last one, if nothing answered that. -/
private theorem ClockMove.paced (h : ClockMove t t' log) {x : Option Nat}
    (hx : ∀ s, x = some s → Answerable s t) :
    Paced isSend isRecv (timeout t.conn) x log := by
  cases h with
  | passed traffic =>
    rw [traffic]
    trivial
  | quiet traffic => exact paced_quiet traffic x
  | ignored awaiting traffic =>
    rw [traffic]
    exact ⟨fun hs ↦ absurd hs Bool.false_ne_true, trivial⟩
  | answered running traffic rest =>
    rw [traffic]
    exact ⟨fun hs ↦ absurd hs Bool.false_ne_true, paced_quiet rest _⟩
  | fired deadline due traffic =>
    rw [traffic]
    trivial
  | sent busy traffic rest =>
    rw [traffic, paced_append, unanswered_quiet rest]
    exact ⟨paced_quiet rest x, fun _ s hs ↦ (hx s hs).due busy, trivial⟩

/-- An OACK is sent without a timer. -/
private theorem ClockMove.offer (h : ClockMove t t' log) (ho : t'.conn.state = .sendOack)
    (hnone : t.timer.deadline = none) : t'.timer.deadline = none := by
  cases h with
  | passed _ _ _ timer => exact timer ▸ hnone
  | quiet _ _ timer => exact timer ▸ hnone
  | ignored _ _ _ _ timer => exact timer ▸ hnone
  | answered _ _ _ _ timer => exact timer ▸ hnone
  | fired _ _ _ _ timer => rw [timer]
  | sent busy traffic rest now count left =>
    rcases left with ⟨-, timer⟩ | ⟨hw, -⟩
    · exact timer ▸ hnone
    · simp [waitForRead, ho] at hw

/-- A call that leaves the connection unfinished leaves the last packet answerable. -/
private theorem ClockMove.answerable (h : ClockMove t t' log) (hk : Kept t.conn t'.conn)
    (hpos : 0 < t.conn.timeoutS.toNat)
    (hoffer : t.conn.state = .sendOack → t.timer.deadline = none)
    {x : Option Nat} (hx : ∀ s, x = some s → Answerable s t) (hf : t'.conn.finished = false)
    {s : Nat} (hs : unanswered isSend isRecv x log = some s) : Answerable s t' := by
  have hsame : timeout t'.conn = timeout t.conn := by rw [timeout, hk.timeoutS, timeout]
  cases h with
  | passed traffic now conn timer =>
    rw [traffic] at hs
    exact (hx s hs).kept now (by rw [conn]) timer hsame
  | quiet traffic now timer waiting =>
    rw [unanswered_quiet traffic] at hs
    exact (hx s hs).kept (Nat.le_of_eq now.symm) waiting timer hsame
  | ignored awaiting traffic =>
    rw [traffic] at hs
    cases hs
  | answered running traffic rest =>
    have hnone : unanswered isSend isRecv x log = none := by
      rw [traffic, unanswered_cons, unanswered_quiet rest]
      rfl
    rw [hs] at hnone
    cases hnone
  | fired deadline due traffic now timer left =>
    rw [traffic] at hs
    obtain ⟨hwait, hdue⟩ := hx s hs
    have hle : s + timeout t.conn ≤ t.now := by
      cases hw : t.conn.waitForRead with
      | true => exact Nat.le_trans (hwait hw _ deadline) due
      | false => exact hdue hw
    rcases left with hfin | ⟨hleft, -⟩
    · rw [hf] at hfin
      cases hfin
    · refine ⟨fun hw ↦ ?_, fun _ ↦ by rw [hsame, now]; exact hle⟩
      rw [hleft] at hw
      cases hw
  | sent busy traffic rest now count left =>
    have hsent : unanswered isSend isRecv x log = some t.now := by
      rw [traffic, unanswered_append]
      rfl
    obtain rfl := Option.some.inj (hsent.symm.trans hs)
    rcases left with ⟨hfin, -⟩ | ⟨hw, timer⟩
    · rw [hf] at hfin
      cases hfin
    · refine ⟨fun _ u hu ↦ ?_, fun hbusy ↦ ?_⟩
      · rcases timer with timer | ⟨ho, timer⟩
        · rw [timer] at hu
          rw [TimerFd.deadline_armTimer hpos hu, hsame, timeout]
        · rw [timer, hoffer ho] at hu
          cases hu
      · rw [hw] at hbusy
        cases hbusy

/-- Every event of an unfinished connection keeps the pace. -/
theorem OnPace.step {e : Event} (h : OnPace log t) (hf : t.conn.finished = false)
    (hs : step b t e = .ok log' t') : OnPace (log ++ log') t' := by
  have hm := clockMove_step hs
  have hk := kept_step hs
  have hsame : timeout t'.conn = timeout t.conn := by rw [timeout, hk.timeoutS, timeout]
  have hans := h.answerable hf
  constructor
  · rw [hk.timeoutS]
    exact h.timeoutS
  · exact h.ordered.append hm.now_le fun e he ↦ hm.now_of_mem he
  · rw [hsame, paced_append]
    exact ⟨h.paced, hm.paced hans⟩
  · intro ho
    exact hm.offer ho (h.offer (hk.offer ho))
  · intro hf' s hopen
    rw [unanswered_append] at hopen
    exact hm.answerable hk h.timeoutS h.offer hans hf' hopen

/-- Before its first event a connection is on pace. -/
theorem onPace_create (w : World) (request : RwPacket) :
    OnPace [] { conn := create w request } := by
  refine ⟨(started_create w request).timeoutS, ⟨List.Pairwise.nil, fun e he ↦ ?_⟩, trivial,
    fun _ ↦ rfl, fun _ s hs ↦ ?_⟩
  · cases he
  · cases hs

/-- In any window of time a connection sends at most one packet for every datagram that it
receives in the window, one for every timeout that fits into it, and one more, as long as its
handlers are not called after it has finished. -/
theorem send_rate_bounded {w : World} {request : RwPacket} {es : List Event}
    {window : List (Nat × Action)} {t₀ t₁ : Nat}
    (hr : Runs (step b) { conn := create w request } es log t)
    (hlive : Along (step b) (fun t _ ↦ t.conn.finished = false) { conn := create w request } es)
    (hpart : window <:+: log) (hle : t₀ ≤ t₁) (hwindow : ∀ e ∈ window, t₀ ≤ e.1 ∧ e.1 ≤ t₁) :
    window.countP (isSend ·.2) ≤ window.countP (isRecv ·.2) + 1 +
      (t₁ - t₀) / timeout (create w request) := by
  have hall : OnPace log t ∧ timeout t.conn = timeout (create w request) := by
    apply hr.logInvariantAlong (I := fun log t ↦ OnPace log t ∧
      timeout t.conn = timeout (create w request)) hlive ⟨onPace_create w request, rfl⟩
    intro log t e log' t' h hf hs
    refine ⟨h.1.step hf hs, ?_⟩
    rw [← h.2, timeout, (kept_step hs).timeoutS, timeout]
  obtain ⟨h, hgap⟩ := hall
  have hpos : 0 < timeout (create w request) :=
    Nat.mul_pos (started_create w request).timeoutS (by decide)
  have hpaced := h.paced
  have hsorted := h.ordered.sorted.sublist hpart.sublist
  obtain ⟨pre, post, rfl⟩ := hpart
  rw [hgap, paced_append, paced_append] at hpaced
  exact hpaced.1.2.countP_le hpos hsorted hle hwindow

/-- A WRITE request whose client stays silent: ACK 0 goes out again after two seconds. -/
theorem send_rate_bounded_silent : ∃ window : List (Nat × Action),
    window.countP (isSend ·.2) = 2 ∧
    window.countP (isSend ·.2) ≤ window.countP (isRecv ·.2) + 1 +
      (2 * nsPerSecond - 0) / timeout (create { writable := some {} } { type := .write }) := by
  have hr : ∃ log t, Runs (step .release)
        { conn := create { writable := some {} } { type := .write } }
        [.writable .sent, .elapse (2 * nsPerSecond), .readable .wouldBlock, .writable .sent] log t ∧
      log = [(0, .send [0, 4, 0, 0]), (2 * nsPerSecond, .send [0, 4, 0, 0])] :=
    ⟨_, _, rfl, rfl⟩
  obtain ⟨log, t, hr, rfl⟩ := hr
  refine ⟨_, rfl, send_rate_bounded hr ?_ List.infix_rfl (Nat.zero_le _) (by decide)⟩
  exact Along.cons rfl rfl (Along.cons rfl rfl (Along.cons rfl rfl (Along.cons rfl rfl trivial)))

/-! ### Patience -/

/-- The datagrams that a connection of a type waits for. -/
def isReply (type : PacketT) (d : Bytes) : Bool :=
  match type with
  | .read => (deserialiseAckPacket d).isSome
  | _ => (deserialiseDataPacket d).isSome

/-- The states of a connection are those of the type of its request. -/
structure Typed (type : PacketT) (c : TftpServerConnection) : Prop where
  read : c.Downloading → type = .read
  write : c.Uploading → type = .write

/-- What the count of timeouts says about the time since `a`. -/
structure Since (a : Nat) (t : ClockedConnection) : Prop where
  past : a ≤ t.now
  elapsed : a + t.conn.timeoutCount.toNat * timeout t.conn ≤ t.now + timeout t.conn
  waiting : t.conn.waitForRead = true → ∀ u, t.timer.deadline = some u →
    a + t.conn.timeoutCount.toNat * timeout t.conn ≤ u
  running : t.conn.waitForRead = false → t.timer.deadline ≠ none → t.conn.timeoutCount = 0

/-- A valid reply is a sign of life at its own time. -/
private theorem ClockMove.since_reply {type : PacketT} (h : ClockMove t t' log)
    (htype : Typed type t.conn) {a : Nat} {d : Bytes} (hmem : (a, .recv d) ∈ log)
    (hreply : isReply type d = true) : Since a t' := by
  have hquiet : ∀ {w : List (Nat × Action)}, Quiet t.now w → (a, .recv d) ∉ w := by
    intro w hq hw
    exact absurd (hq _ hw).2.2 (Bool.false_ne_true ∘ Eq.symm)
  cases h with
  | passed traffic =>
    rw [traffic] at hmem
    cases hmem
  | quiet traffic => exact absurd hmem (hquiet traffic)
  | ignored awaiting traffic kind =>
    rw [traffic] at hmem
    cases List.mem_singleton.mp hmem
    -- the datagram that the state waits for is the one that the type waits for
    cases hs : t.conn.state with
    | waitForAck =>
      rw [htype.read (.inr (.inl hs))] at hreply
      rw [hs] at kind
      exact absurd (hreply.symm.trans kind) (by decide)
    | waitForData =>
      rw [htype.write (.inr (.inl hs))] at hreply
      rw [hs] at kind
      exact absurd (hreply.symm.trans kind) (by decide)
    | sendAck => simp [waitForRead, hs] at awaiting
    | sendOack => simp [waitForRead, hs] at awaiting
    | sendData => simp [waitForRead, hs] at awaiting
    | error => simp [waitForRead, hs] at awaiting
  | @answered d' w running traffic rest now timer count =>
    have ha : a = t.now := by
      rw [traffic] at hmem
      rcases List.mem_cons.mp hmem with he | he
      · exact congrArg Prod.fst he
      · exact absurd he (hquiet rest)
    refine ⟨by rw [now, ha], ?_, fun _ u hu ↦ ?_, fun _ _ ↦ count⟩
    · rw [count, now, ha]
      simp
    · rw [timer] at hu
      have hlt := running u hu
      rw [count, ha]
      simp
      omega
  | fired deadline due traffic =>
    rw [traffic] at hmem
    cases hmem
  | sent busy traffic rest =>
    rw [traffic] at hmem
    rcases List.mem_append.mp hmem with he | he
    · exact absurd he (hquiet rest)
    · cases List.mem_singleton.mp he

/-- It is kept while neither the timer nor the count changes. -/
private theorem Since.kept {a : Nat} (h : Since a t) (now : t.now ≤ t'.now)
    (timer : t'.timer = t.timer) (waiting : t'.conn.waitForRead = t.conn.waitForRead)
    (count : t'.conn.timeoutCount = t.conn.timeoutCount)
    (same : timeout t'.conn = timeout t.conn) : Since a t' := by
  constructor
  · exact Nat.le_trans h.past now
  · rw [count, same]
    exact Nat.le_trans h.elapsed (Nat.add_le_add_right now _)
  · rw [waiting, timer, count, same]
    exact h.waiting
  · rw [waiting, timer, count]
    exact h.running

/-- A call that leaves the connection unfinished keeps what is known since `a`. -/
private theorem ClockMove.since (h : ClockMove t t' log) (hk : Kept t.conn t'.conn)
    (hpos : 0 < t.conn.timeoutS.toNat) (hoffer : t.conn.state = .sendOack → t.timer.deadline = none)
    (hf : t'.conn.finished = false) {a : Nat} (ha : Since a t) : Since a t' := by
  have hsame : timeout t'.conn = timeout t.conn := by rw [timeout, hk.timeoutS, timeout]
  cases h with
  | passed traffic now conn timer =>
    exact ha.kept now timer (by rw [conn]) (by rw [conn]) hsame
  | quiet traffic now timer waiting count =>
    exact ha.kept (Nat.le_of_eq now.symm) timer waiting count hsame
  | ignored awaiting traffic kind now timer waiting count =>
    exact ha.kept (Nat.le_of_eq now.symm) timer waiting count hsame
  | answered running traffic rest now timer count =>
    have hpast := ha.past
    refine ⟨now ▸ hpast, ?_, fun _ u hu ↦ ?_, fun _ _ ↦ count⟩
    · rw [count, now, UInt8.toNat_zero, Nat.zero_mul]
      omega
    · rw [timer] at hu
      have hlt := running u hu
      rw [count, UInt8.toNat_zero, Nat.zero_mul]
      omega
  | @fired u deadline due traffic now timer left =>
    rcases left with hfin | ⟨hleft, few, count⟩
    · rw [hf] at hfin
      cases hfin
    · have hcount : t'.conn.timeoutCount.toNat = t.conn.timeoutCount.toNat + 1 :=
        (toNat_succ few count).1
      -- an expiration takes a timeout while waiting, and is the first one after a reply otherwise
      have hle : a + t.conn.timeoutCount.toNat * timeout t.conn ≤ t.now := by
        cases hw : t.conn.waitForRead with
        | true => exact Nat.le_trans (ha.waiting hw u deadline) due
        | false =>
          rw [ha.running hw (by rw [deadline]; exact Option.some_ne_none u), UInt8.toNat_zero,
            Nat.zero_mul]
          exact ha.past
      refine ⟨now ▸ ha.past, ?_, fun hw ↦ ?_, fun _ hne ↦ ?_⟩
      · rw [hcount, hsame, now, Nat.add_mul, Nat.one_mul]
        omega
      · rw [hleft] at hw
        cases hw
      · rw [timer] at hne
        exact absurd rfl hne
  | sent busy traffic rest now count left =>
    rcases left with ⟨hfin, -⟩ | ⟨hw, timer⟩
    · rw [hf] at hfin
      cases hfin
    · refine ⟨now ▸ ha.past, ?_, fun _ u hu ↦ ?_, fun hbusy ↦ ?_⟩
      · rw [count, hsame, now]
        exact ha.elapsed
      · rcases timer with timer | ⟨ho, timer⟩
        · rw [timer] at hu
          rw [TimerFd.deadline_armTimer hpos hu, count, hsame]
          exact ha.elapsed
        · rw [timer, hoffer ho] at hu
          cases hu
      · rw [hw] at hbusy
        cases hbusy

/-- What is known of a connection that has not finished: since its start, and since every valid
reply. -/
structure Patient (type : PacketT) (log : List (Nat × Action)) (t : ClockedConnection) : Prop where
  timeoutS : 0 < t.conn.timeoutS.toNat
  offer : t.conn.state = .sendOack → t.timer.deadline = none
  typed : Typed type t.conn
  start : Since 0 t
  reply : ∀ a d, (a, .recv d) ∈ log → isReply type d = true → Since a t

/-- No call leaves the states of the type. -/
theorem Typed.step {type : PacketT} {e : Event} (h : Typed type t.conn)
    (hs : step b t e = .ok log t') : Typed type t'.conn := by
  rcases call_of_step hs with ⟨ns, -, rfl⟩ | ⟨e', l, hc, -⟩
  · exact h
  · constructor
    · intro hd
      exact h.read ((readerKept_step hc).downloading hd)
    · intro hu
      have hlast : LastingWrite fun _ ↦ True := fun _ _ _ _ _ ↦ trivial
      exact h.write (Uploading.step hlast hc hu).1

/-- Every event that leaves the connection unfinished keeps what is known. -/
theorem Patient.step {type : PacketT} {e : Event} (h : Patient type log t)
    (hs : step b t e = .ok log' t') (hf : t'.conn.finished = false) :
    Patient type (log ++ log') t' := by
  have hm := clockMove_step hs
  have hk := kept_step hs
  constructor
  · rw [hk.timeoutS]
    exact h.timeoutS
  · intro ho
    exact hm.offer ho (h.offer (hk.offer ho))
  · exact h.typed.step hs
  · exact hm.since hk h.timeoutS h.offer hf h.start
  · intro a d hmem hreply
    rcases List.mem_append.mp hmem with hold | hnew
    · exact hm.since hk h.timeoutS h.offer hf (h.reply a d hold hreply)
    · exact hm.since_reply h.typed hnew hreply

theorem typed_create (w : World) (request : RwPacket) :
    Typed request.type (create w request) :=
  ⟨fun hd ↦ (downloading_create hd).2, fun hu ↦ (uploading_create hu).2.1⟩

private theorem patient_create (w : World) (request : RwPacket) :
    Patient request.type [] { conn := create w request } := by
  have hstart := started_create w request
  refine ⟨hstart.timeoutS, fun _ ↦ rfl, typed_create w request, ⟨Nat.le_refl 0, ?_, ?_, ?_⟩, ?_⟩
  · rw [hstart.timeoutCount, UInt8.toNat_zero, Nat.zero_mul]
    omega
  · intro _ u hu
    cases hu
  · intro _ hne
    exact absurd rfl hne
  · intro a d hmem
    cases hmem

/-- A connection gives up only when three timeouts have passed since it started and since every
valid reply that it received. -/
theorem gives_up_after_silence {w : World} {request : RwPacket} {es : List Event} {r : RecvResult}
    (hr : Runs (step b) { conn := create w request } es log t) (hgive : GivesUp b t.view r) :
    3 * timeout (create w request) ≤ t.now ∧
      ∀ a d, (a, .recv d) ∈ log → isReply request.type d = true →
        a + 3 * timeout (create w request) ≤ t.now := by
  have hall : timeout t.conn = timeout (create w request) ∧
      (t.conn.finished = false → Patient request.type log t) := by
    apply hr.invariant (I := fun log t ↦ timeout t.conn = timeout (create w request) ∧
      (t.conn.finished = false → Patient request.type log t))
    · exact And.intro rfl fun _ ↦ patient_create w request
    · intro log t e log' t' h hs
      have hk := kept_step hs
      refine ⟨by rw [← h.1, timeout, hk.timeoutS, timeout], fun hf ↦ ?_⟩
      have hopen := hk.unfinished hf
      exact (h.2 hopen).step hs hf
  obtain ⟨hgap, hpatient⟩ := hall
  have hmany : 3 ≤ t.conn.timeoutCount.toNat := UInt8.le_iff_toNat_le.mp hgive.count
  obtain ⟨hexp, hf, -⟩ := hgive
  have hexp : t.timer.observe t.now = .expired := hexp
  obtain ⟨u, hu, hle⟩ := TimerFd.observe_eq_expired_iff.mp hexp
  have h := hpatient hf
  have hsince : ∀ a, Since a t → a + 3 * timeout (create w request) ≤ t.now := by
    intro a ha
    have hwait : t.conn.waitForRead = true := by
      rw [← Bool.not_eq_false]
      intro hbusy
      have hzero := ha.running hbusy (by rw [hu]; exact Option.some_ne_none u)
      rw [hzero] at hmany
      exact absurd hmany (by decide)
    have hlong := ha.waiting hwait u hu
    have hmul := Nat.mul_le_mul_right (timeout t.conn) hmany
    rw [← hgap]
    omega
  refine ⟨?_, fun a d hmem hreply ↦ hsince a (h.reply a d hmem hreply)⟩
  have hzero := hsince 0 h.start
  rwa [Nat.zero_add] at hzero

/-- No more than three: block 0 is repeated just before the first timeout, which is then found too
late to resend anything and still counts. -/
theorem gives_up_after_silence_late : ∃ t : ClockedConnection,
    GivesUp .release t.view .wouldBlock ∧ t.now = 8 * nsPerSecond ∧
      2 * nsPerSecond - 1 + 3 * timeout (create { writable := some {} } { type := .write }) ≤
        t.now := by
  have hr : ∃ log t, Runs (step .release)
        { conn := create { writable := some {} } { type := .write } }
        [.writable .sent, .elapse (2 * nsPerSecond - 1), .readable (.datagram [0, 3, 0, 0, 7]),
          .elapse 1, .readable .wouldBlock, .writable .sent, .elapse (2 * nsPerSecond),
          .readable .wouldBlock, .writable .sent, .elapse (2 * nsPerSecond), .readable .wouldBlock,
          .writable .sent, .elapse (2 * nsPerSecond)] log t ∧
      (2 * nsPerSecond - 1, .recv [0, 3, 0, 0, 7]) ∈ log ∧ t.now = 8 * nsPerSecond ∧
      GivesUp .release t.view .wouldBlock :=
    ⟨_, _, rfl, List.mem_cons_of_mem _ List.mem_cons_self, by decide, by decide, rfl, _, rfl, rfl⟩
  obtain ⟨log, t, hr, hmem, hnow, hgive⟩ := hr
  exact ⟨t, hgive, hnow, (gives_up_after_silence hr hgive).2 _ _ hmem rfl⟩

end CppTftp.ClockedConnection
