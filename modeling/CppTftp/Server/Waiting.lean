import CppTftp.Server.Startup

/-!
# Waiting and the timer

What one event can do to the waiting states, the timer and the count of timeouts, said once.
From it: when a waiting connection has something left that could wake it, when a
retransmission is requested, and which datagrams keep `handle_read` from returning.
-/

namespace CppTftp.TftpServerConnection

open Tftp Lib Utils

variable {b : Build} {c c' : TftpServerConnection} {e : Event} {l log : List Action}

/-! ### What one event does to the timer -/

/-- The moves of waiting states and timer. -/
inductive TimerMove (c : TftpServerConnection) (e : Event) (c' : TftpServerConnection) : Prop
  | idle (waiting : c'.waitForRead = c.waitForRead) (timer : c'.timer = c.timer)
      (count : c'.timeoutCount = c.timeoutCount)
  | answered (waiting : c.waitForRead = true) (running : c.timer ≠ .expired)
      (timer : c'.timer = c.timer) (count : c'.timeoutCount = 0)
  | fired (expired : c.timer = .expired) (timer : c'.timer = .disarmed)
      (left : c'.waitForRead = false ∨ c'.finished = true)
  | armed (waiting : c'.waitForRead = true) (timer : c'.timer = .armTimer c.timeoutS.toNat)
  | offered (state : c.state = .sendOack) (waiting : c'.waitForRead = true)
      (timer : c'.timer = c.timer)
  | ticked (tick : e = .tick) (waiting : c'.waitForRead = c.waitForRead)
      (timer : c'.timer = c.timer.elapse) (count : c'.timeoutCount = c.timeoutCount)

private theorem waiting_of_ack (h : c.state = .waitForAck) : c.waitForRead = true := by
  simp [waitForRead, h]

private theorem waiting_of_data (h : c.state = .waitForData) : c.waitForRead = true := by
  simp [waitForRead, h]

private theorem ReadAckMove.timerMove {d : Bytes} (h : ReadAckMove c d c')
    (hs : c.state = .waitForAck) (ht : c.timer ≠ .expired) : TimerMove c e c' := by
  have hw := waiting_of_ack hs
  cases h with
  | repeated => exact .answered hw ht rfl rfl
  | last => exact .answered hw ht rfl rfl
  | next => exact .answered hw ht rfl rfl
  | wrong => exact .answered hw ht rfl rfl
  | refused => exact .idle rfl rfl rfl
  | ignored => exact .idle rfl rfl rfl

private theorem WriteBlockMove.timer {data : Bytes} (h : WriteBlockMove c data c') :
    c'.timer = c.timer ∧ c'.timeoutCount = c.timeoutCount := by
  cases h with
  | failed => exact ⟨rfl, rfl⟩
  | done => exact ⟨rfl, rfl⟩

private theorem ReadDataMove.timerMove {d : Bytes} (h : ReadDataMove c d l c')
    (hs : c.state = .waitForData) (ht : c.timer ≠ .expired) : TimerMove c e c' := by
  have hw := waiting_of_data hs
  cases h with
  | repeated => exact .answered hw ht rfl rfl
  | block decoded number move => exact .answered hw ht move.timer.1 move.timer.2
  | wrong => exact .answered hw ht rfl rfl
  | refused => exact .idle rfl rfl rfl
  | ignored => exact .idle rfl rfl rfl

private theorem TimeoutMove.timerMove (h : TimeoutMove { c with timer := .disarmed } c')
    (ht : c.timer = .expired) : TimerMove c e c' := by
  cases h with
  | gaveUp => exact .fired ht rfl (.inr rfl)
  | resendData => exact .fired ht rfl (.inl rfl)
  | resendAck => exact .fired ht rfl (.inl rfl)
  | late few busy => exact .fired ht rfl (.inl busy)

private theorem HandleReadMove.timerMove {r : RecvResult} (h : HandleReadMove c r l c') :
    TimerMove c e c' := by
  cases h with
  | timeout expired move => exact move.timerMove expired
  | @ack d timer state => exact (readAckMove c d).timerMove state timer
  | data timer state recv read => exact (readDataMove read).timerMove state timer
  | idle => exact .idle rfl rfl rfl

private theorem TransmitMove.timerMove {s : SendResult} (h : TransmitMove c s l c')
    (hw : c.waitForRead = false) : TimerMove c e c' := by
  cases h with
  | sent => exact .armed rfl rfl
  | blocked => exact .idle rfl rfl rfl
  | failed => exact .idle (by rw [hw]; rfl) rfl rfl

private theorem SendDataMove.timerMove {s : SendResult} (h : SendDataMove c s l c')
    (hs : c.state = .sendData) : TimerMove c e c' := by
  have hw : c.waitForRead = false := by simp [waitForRead, hs]
  cases h with
  | cached ready move => exact move.timerMove hw
  | failed => exact .idle (by rw [hw]; rfl) rfl rfl
  | loaded ready read error move =>
    -- what is read into the cached packet plays no part in the move
    cases move with
    | sent => exact .armed rfl rfl
    | blocked => exact .idle rfl rfl rfl
    | failed => exact .idle (by rw [hw]; rfl) rfl rfl

private theorem SendAckMove.timerMove {s : SendResult} (h : SendAckMove c s l c')
    (hs : c.state = .sendAck) : TimerMove c e c' := by
  have hw : c.waitForRead = false := by simp [waitForRead, hs]
  cases h with
  | sentFinal => exact .idle rfl rfl rfl
  | sent => exact .armed rfl rfl
  | blocked => exact .idle rfl rfl rfl
  | failed => exact .idle (by rw [hw]; rfl) rfl rfl

private theorem SendOackMove.timerMove {s : SendResult} (h : SendOackMove c s l c')
    (hs : c.state = .sendOack) : TimerMove c e c' := by
  cases h with
  | sentRead => exact .offered hs rfl rfl
  | sentWrite => exact .offered hs rfl rfl
  | blocked => exact .idle rfl rfl rfl
  | failed => exact .idle rfl rfl rfl

private theorem SendErrorMove.timerMove {s : SendResult} (h : SendErrorMove c s l c') :
    TimerMove c e c' := by
  cases h with
  | sent => exact .idle rfl rfl rfl
  | blocked => exact .idle rfl rfl rfl
  | failed => exact .idle rfl rfl rfl

/-- Every event makes one of these moves. -/
theorem timerMove_step (h : step b c e = .ok l c') : TimerMove c e c' := by
  cases move_of_step h with
  | read move => exact move.timerMove
  | sendData state move => exact move.timerMove state
  | sendAck state move => exact move.timerMove state
  | sendOack state move => exact move.timerMove state
  | sendError state move => exact move.timerMove
  | tick => exact .ticked rfl rfl rfl rfl
  | hangup => exact .idle rfl rfl rfl

/-! ### Something is left that could wake a waiting connection -/

/-- Without an OACK to send, a connection that waits has a timer that runs or ran out. -/
structure Wakeable (c : TftpServerConnection) : Prop where
  noOack : c.state ≠ .sendOack
  timeoutS : 0 < c.timeoutS.toNat
  timer : c.finished = false → c.waitForRead = true → c.timer ≠ .disarmed

/-- No event leaves a waiting connection without a timer, unless it sends an OACK. -/
theorem Wakeable.step (h : Wakeable c) (hs : step b c e = .ok l c') : Wakeable c' := by
  have hk := kept_step hs
  have hf : c'.finished = false → c.finished = false := by
    intro hf
    apply Bool.eq_false_iff.mpr
    intro hc
    rw [hk.finished hc] at hf
    cases hf
  refine ⟨fun ho ↦ h.noOack (hk.offer ho), hk.timeoutS.symm ▸ h.timeoutS, ?_⟩
  intro hfin hwait
  cases timerMove_step hs with
  | idle waiting timer =>
    rw [timer]
    exact h.timer (hf hfin) (waiting ▸ hwait)
  | answered waiting _ timer =>
    rw [timer]
    exact h.timer (hf hfin) waiting
  | fired _ _ left =>
    rcases left with hl | hl
    · rw [hl] at hwait
      cases hwait
    · rw [hl] at hfin
      cases hfin
  | armed _ timer =>
    rw [timer, Timer.armTimer_of_pos h.timeoutS]
    exact Timer.noConfusion
  | offered state => exact absurd state h.noOack
  | ticked _ waiting timer =>
    have ht := h.timer (hf hfin) (waiting ▸ hwait)
    rw [timer]
    cases hc : c.timer with
    | disarmed => exact absurd hc ht
    | armed => exact Timer.noConfusion
    | expired => exact Timer.noConfusion

/-- Sending the OACK enters a waiting state and leaves the timer as it is. -/
theorem handleWrite_oack (hs : c.state = .sendOack) :
    ∃ l c', c.handleWrite .sent = .ok l c' ∧ c'.waitForRead = true ∧ c'.timer = c.timer ∧
      c'.finished = c.finished := by
  simp only [handleWrite, hs, handleWriteOack]
  by_cases ht : c.type = .read
  · rw [if_pos ht]
    exact ⟨_, _, rfl, rfl, rfl, rfl⟩
  · rw [if_neg ht]
    exact ⟨_, _, rfl, rfl, rfl, rfl⟩

/-- In all runs of a connection a waiting state has its timer, if and only if the connection
does not start with an OACK. -/
theorem wait_has_timer_iff (b : Build) (w : World) (request : RwPacket) :
    (∀ es log c, Runs (step b) (create w request) es log c →
      c.finished = false → c.waitForRead = true → c.timer ≠ .disarmed) ↔
    ¬StartsWithOack w request := by
  have hstart := started_create w request
  rw [← state_create_eq_sendOack_iff]
  constructor
  · intro h hs
    obtain ⟨l, c', ho, hw, ht, hf⟩ := handleWrite_oack hs
    have hr : Runs (step b) (create w request) [.writable .sent] (l ++ []) c' :=
      Runs.cons ho (Runs.nil c')
    exact h _ _ c' hr (hf.trans hstart.finished) hw (ht.trans hstart.timer)
  · intro hs es log c hr
    have h0 : Wakeable (create w request) := by
      refine ⟨hs, hstart.timeoutS, fun _ hwait ↦ ?_⟩
      rw [hstart.waiting] at hwait
      cases hwait
    have h : Wakeable c := hr.stateInvariant h0 fun _ _ _ _ h hs ↦ h.step hs
    exact h.timer

/-- A client that asks for a timeout and whose first DATA packet is lost leaves a connection
that nothing wakes. -/
theorem wait_without_timer : ∃ log c,
    Runs (step .release)
      (create { writable := some {} } { type := .write, options := [(str "TIMEOUT", str "5")] })
      [.writable .sent] log c ∧
    c.finished = false ∧ c.waitForRead = true ∧ c.timer = .disarmed :=
  ⟨_, _, rfl, rfl, rfl, rfl⟩

/-! ### Retransmissions are requested while waiting -/

/-- A retransmission requested now would be requested in a waiting state. -/
def RetransmitsWaiting (c : TftpServerConnection) : Prop :=
  c.timer = .expired → c.timeoutCount < maxTimeouts → c.waitForRead = true

/-- The timer runs out only in a waiting state. -/
def TimelyTick (c : TftpServerConnection) (e : Event) : Prop :=
  e = .tick → c.timer = .armed → c.waitForRead = true

/-- Outside the waiting states a timer that is not disarmed belongs to an answered wait. -/
def AnsweredTimer (c : TftpServerConnection) : Prop :=
  c.waitForRead = false → c.timer ≠ .disarmed → c.timeoutCount = 0

/-- Answering is what leaves a running timer behind. -/
theorem AnsweredTimer.step (h : AnsweredTimer c) (hs : step b c e = .ok l c') :
    AnsweredTimer c' := by
  intro hwait ht
  cases timerMove_step hs with
  | idle waiting timer count =>
    rw [count]
    exact h (waiting ▸ hwait) (timer ▸ ht)
  | answered _ _ _ count => exact count
  | fired _ timer => exact absurd timer ht
  | armed waiting =>
    rw [waiting] at hwait
    cases hwait
  | offered _ waiting =>
    rw [waiting] at hwait
    cases hwait
  | ticked _ waiting timer count =>
    rw [count]
    apply h (waiting ▸ hwait)
    intro hd
    rw [timer, hd] at ht
    exact ht rfl

/-- With timely ticks the timer is found expired only in a waiting state. -/
theorem expired_waiting_step (h : c.timer = .expired → c.waitForRead = true)
    (htick : TimelyTick c e) (hs : step b c e = .ok l c') :
    c'.timer = .expired → c'.waitForRead = true := by
  intro ht
  cases timerMove_step hs with
  | idle waiting timer =>
    rw [waiting]
    exact h (timer ▸ ht)
  | answered _ running timer => exact absurd (timer ▸ ht) running
  | fired _ timer =>
    rw [timer] at ht
    cases ht
  | armed waiting => exact waiting
  | offered _ waiting => exact waiting
  | ticked tick waiting timer =>
    rw [waiting]
    rw [timer] at ht
    cases hc : c.timer with
    | disarmed =>
      rw [hc] at ht
      cases ht
    | armed => exact htick tick hc
    | expired => exact h hc

/-- For all events that reach a connection: every state on the way would request a
retransmission only while waiting, if and only if the timer ran out only while waiting. -/
theorem retransmits_waiting_iff (b : Build) (w : World) (request : RwPacket) (es : List Event) :
    (∀ pre post l₁ c₁, es = pre ++ post → Runs (step b) (create w request) pre l₁ c₁ →
      RetransmitsWaiting c₁) ↔ Along (step b) TimelyTick (create w request) es := by
  have hstart := started_create w request
  constructor
  · intro h
    apply along_of_prefixes
    intro pre e post l₁ c₁ hes hpre he harmed
    -- a late tick is found by the state after it
    by_contra hwait
    have hstep : step b c₁ e = .ok [] { c₁ with timer := c₁.timer.elapse } := by rw [he]; rfl
    have hanswered : AnsweredTimer c₁ :=
      hpre.stateInvariant (fun _ _ ↦ hstart.timeoutCount) fun _ _ _ _ h hs ↦ h.step hs
    have hcount : c₁.timeoutCount = 0 := by
      apply hanswered (Bool.eq_false_iff.mpr hwait)
      rw [harmed]
      exact Timer.noConfusion
    have hlate := h (pre ++ [e]) post _ _ (by rw [hes, List.append_assoc]; rfl)
      (hpre.snoc hstep) (by rw [harmed]; rfl) (by rw [hcount]; decide)
    exact hwait hlate
  · intro h pre post l₁ c₁ hes hpre
    rw [hes] at h
    have h0 : (create w request).timer = .expired → (create w request).waitForRead = true := by
      intro ht
      rw [hstart.timer] at ht
      cases ht
    have hexp : c₁.timer = .expired → c₁.waitForRead = true :=
      hpre.invariantAlong h.left h0 fun _ _ _ _ h ht hs ↦ expired_waiting_step h ht hs
    exact fun ht _ ↦ hexp ht

/-- A timer that runs out between the reception of a block and its ACK: `handle_read` then
asks for a retransmission in SEND_ACK, which the debug build aborts on. -/
theorem retransmits_late : ∃ log c,
    Runs (step .debug) (create { writable := some {} } { type := .write })
      [.writable .sent, .readable (.datagram [0, 3, 0, 1, 7]), .tick] log c ∧
    c.timer = .expired ∧ c.timeoutCount < maxTimeouts ∧ c.waitForRead = false ∧
    handleRead .debug c .wouldBlock = .stop [] .assertion :=
  ⟨_, _, rfl, rfl, by decide, rfl, rfl⟩

/-! ### Datagrams that keep `handle_read` from returning -/

/-- The states between an upload's request and its end. -/
def Uploading (c : TftpServerConnection) : Prop :=
  c.state = .sendAck ∨ c.state = .waitForData ∨ c.state = .sendOack ∧ c.type ≠ .read

private theorem not_uploading (h1 : c.state ≠ .sendAck) (h2 : c.state ≠ .waitForData)
    (h3 : c.state ≠ .sendOack) : ¬c.Uploading := by
  rintro (h | h | h)
  · exact h1 h
  · exact h2 h
  · exact h3 h.1

/-- What no call of the file writer ends. -/
def LastingWrite (P : TftpWriteFile → Prop) : Prop :=
  ∀ w w' data, P w → w.write data = .ok w' → P w'

variable {P : TftpWriteFile → Prop}

private theorem WriteBlockMove.keeps {data : Bytes} (h : WriteBlockMove c data c')
    (hP : LastingWrite P) (hw : P c.fileWriter) : P c'.fileWriter := by
  cases h with
  | failed write error => exact hP _ _ _ hw write
  | done write error => exact hP _ _ _ hw write

private theorem ReadDataMove.keeps {d : Bytes} (h : ReadDataMove c d l c')
    (hP : LastingWrite P) (hw : P c.fileWriter) : P c'.fileWriter := by
  cases h with
  | block decoded number move => exact move.keeps hP hw
  | repeated => exact hw
  | wrong => exact hw
  | refused => exact hw
  | ignored => exact hw

private theorem ReadAckMove.not_uploading {d : Bytes} (h : ReadAckMove c d c')
    (hs : c.state = .waitForAck) : ¬c'.Uploading := by
  cases h with
  | repeated => exact not_uploading nofun nofun nofun
  | next => exact not_uploading nofun nofun nofun
  | wrong => exact not_uploading nofun nofun nofun
  | last => simp [Uploading, hs]
  | refused => simp [Uploading, hs]
  | ignored => simp [Uploading, hs]

private theorem TimeoutMove.uploading (hm : TimeoutMove c c') (h : c'.Uploading) :
    c.Uploading ∧ c'.fileWriter = c.fileWriter := by
  cases hm with
  | gaveUp => exact ⟨h, rfl⟩
  | resendData => exact absurd h (not_uploading nofun nofun nofun)
  | resendAck few state => exact ⟨.inr (.inl state), rfl⟩
  | late => exact ⟨h, rfl⟩

private theorem HandleReadMove.uploading {r : RecvResult} (hm : HandleReadMove c r l c')
    (hP : LastingWrite P) (h : c'.Uploading) :
    c.Uploading ∧ (P c.fileWriter → P c'.fileWriter) := by
  cases hm with
  | timeout expired move =>
    obtain ⟨hu, hf⟩ := move.uploading h
    exact ⟨hu, fun hg ↦ hf ▸ hg⟩
  | @ack d timer state => exact absurd h ((readAckMove c d).not_uploading state)
  | data timer state recv read => exact ⟨.inr (.inl state), (readDataMove read).keeps hP⟩
  | idle => exact ⟨h, id⟩

private theorem TransmitMove.not_uploading {s : SendResult} (h : TransmitMove c s l c')
    (hs : c.state = .sendData) : ¬c'.Uploading := by
  cases h with
  | sent => exact not_uploading nofun nofun nofun
  | blocked => simp [Uploading, hs]
  | failed => exact not_uploading nofun nofun nofun

private theorem SendDataMove.not_uploading {s : SendResult} (h : SendDataMove c s l c')
    (hs : c.state = .sendData) : ¬c'.Uploading := by
  cases h with
  | cached ready move => exact move.not_uploading hs
  | failed => exact not_uploading nofun nofun nofun
  | loaded ready read error move => exact move.not_uploading hs

private theorem SendAckMove.fileWriter {s : SendResult} (h : SendAckMove c s l c') :
    c'.fileWriter = c.fileWriter := by
  cases h with
  | sentFinal => rfl
  | sent => rfl
  | blocked => rfl
  | failed => rfl

private theorem SendOackMove.uploading {s : SendResult} (hm : SendOackMove c s l c')
    (hs : c.state = .sendOack) (h : c'.Uploading) :
    c.Uploading ∧ c'.fileWriter = c.fileWriter := by
  cases hm with
  | sentRead => exact absurd h (not_uploading nofun nofun nofun)
  | sentWrite type => exact ⟨.inr (.inr ⟨hs, type⟩), rfl⟩
  | blocked => exact ⟨h, rfl⟩
  | failed => exact ⟨h, rfl⟩

private theorem SendErrorMove.not_uploading {s : SendResult} (h : SendErrorMove c s l c')
    (hs : c.state = .error) : ¬c'.Uploading := by
  cases h with
  | sent => simp [Uploading, hs]
  | blocked => simp [Uploading, hs]
  | failed => simp [Uploading, hs]

/-- An upload was one before, and keeps what no call of the file writer ends. -/
theorem Uploading.step (hP : LastingWrite P) (hs : step b c e = .ok l c') (h : c'.Uploading) :
    c.Uploading ∧ (P c.fileWriter → P c'.fileWriter) := by
  cases move_of_step hs with
  | read move => exact move.uploading hP h
  | sendData state move => exact absurd h (move.not_uploading state)
  | sendAck state move => exact ⟨.inl state, fun hg ↦ move.fileWriter ▸ hg⟩
  | sendOack state move =>
    obtain ⟨hu, hf⟩ := move.uploading state h
    exact ⟨hu, fun hg ↦ hf ▸ hg⟩
  | sendError state move => exact absurd h (move.not_uploading state)
  | tick => exact ⟨h, id⟩
  | hangup => exact ⟨h, id⟩

/-- An upload starts with an allowed WRITE request and a file that could be opened. -/
theorem uploading_create {w : World} {request : RwPacket} (h : (create w request).Uploading) :
    w.notAllowed = none ∧ request.type = .write ∧ w.writable.isSome := by
  have herror : (create w request).state ≠ .error := by
    intro he
    exact absurd h (not_uploading (by simp [he]) (by simp [he]) (by simp [he]))
  cases ha : w.notAllowed with
  | some error =>
    apply absurd _ herror
    unfold create
    rw [ha]
  | none =>
    cases ht : request.type with
    | read =>
      have hs := state_startRead w request ((blank .read).processOptions w request)
      rw [← create_read ht ha] at hs
      rcases h with h | h | ⟨-, h⟩
      · rw [h] at hs
        split at hs
        · cases hs
        · cases hs
      · rw [h] at hs
        split at hs
        · cases hs
        · cases hs
      · exact absurd (type_create_read ht ha) h
    | write =>
      rw [create_write ht ha, state_startWrite] at herror
      cases hw : w.writable with
      | none => simp [hw] at herror
      | some sink => exact ⟨rfl, rfl, rfl⟩
    | data => exact absurd (state_create_other ha (.inl ht)) herror
    | ack => exact absurd (state_create_other ha (.inr (.inl ht))) herror
    | error => exact absurd (state_create_other ha (.inr (.inr (.inl ht)))) herror
    | oack => exact absurd (state_create_other ha (.inr (.inr (.inr ht)))) herror

/-- On a device that takes everything an upload starts with a good file. -/
theorem good_create {w : World} {request : RwPacket}
    (hsink : ∀ sink, w.writable = some sink → (FileOut.fopen sink).Sound)
    (h : (create w request).Uploading) : (create w request).fileWriter.Good := by
  obtain ⟨ha, ht, hw⟩ := uploading_create h
  obtain ⟨sink, hw⟩ := Option.isSome_iff_exists.mp hw
  rw [create_write ht ha, fileWriter_startWrite, hw]
  exact TftpWriteFile.good_openFile _ (hsink sink hw) _

/-- In every run of an upload on a device that takes everything the file stays good. -/
theorem good_runs {w : World} {request : RwPacket} {es : List Event}
    (hsink : ∀ sink, w.writable = some sink → (FileOut.fopen sink).Sound)
    (hr : Runs (TftpServerConnection.step b) (create w request) es log c) (h : c.Uploading) :
    c.fileWriter.Good := by
  have hall : c.Uploading → c.fileWriter.Good := by
    apply hr.stateInvariant (I := fun c ↦ c.Uploading → c.fileWriter.Good) (good_create hsink)
    intro c e l c' hc hs hu
    have hgood : LastingWrite TftpWriteFile.Good := fun _ _ _ ↦ TftpWriteFile.good_write
    obtain ⟨hu', hg⟩ := Uploading.step hgood hs hu
    exact hg (hc hu')
  exact hall h

/-- Writing to a good file returns exactly when the payload has a meaning. -/
theorem writeBlock_returns_iff {data : Bytes} (h : c.fileWriter.Good) :
    (∃ l c', c.writeBlock data = .ok l c') ↔ c.fileWriter.mode = .octet ∨ WellPaired data := by
  rw [← nativePayload_iff]
  unfold writeBlock
  cases hd : nativePayload c.fileWriter.mode data with
  | error stop => simp [TftpWriteFile.write_of_not_decodable hd]
  | ok nativeData =>
    obtain ⟨w', hw, -, he, -⟩ := TftpWriteFile.write_of_good h hd
    simp [hw, he]

/-- Bytes received while a block is expected keep the handler from returning only when they
are that block and have no meaning. -/
theorem readData_returns_iff {d : Bytes} (h : c.fileWriter.Good) :
    (∃ l c', c.readData d = .ok l c') ↔
      ¬(c.fileWriter.mode = .netascii ∧ ∃ data, deserialiseDataPacket d =
        some { data, blockNumber := c.blockNumber } ∧ ¬WellPaired data) := by
  unfold readData
  cases hd : deserialiseDataPacket d with
  | none =>
    dsimp only
    split
    · simp
    · simp
  | some p =>
    dsimp only
    by_cases hp : isPrevious p.blockNumber c.blockNumber = true
    · have hne : p.blockNumber ≠ c.blockNumber := by
        intro he
        rw [he, isPrevious_iff] at hp
        omega
      rw [if_pos hp]
      simp [DataPacket.ext_iff, hne]
    · rw [if_neg hp]
      by_cases hn : p.blockNumber = c.blockNumber
      · rw [if_pos hn, writeBlock_returns_iff (by exact h)]
        have hmode : c.fileWriter.mode = .octet ↔ ¬c.fileWriter.mode = .netascii := by
          cases c.fileWriter.mode <;> simp
        simp only [DataPacket.ext_iff, Option.some.injEq, hn, hmode]
        grind
      · rw [if_neg hn]
        simp [DataPacket.ext_iff, hn]

/-- A datagram that keeps `handle_read` from returning: a block in NETASCII mode that has the
number expected and does not decode; or, in the debug build, any one after a late timeout. -/
def StopsOn (b : Build) (c : TftpServerConnection) (d : Bytes) : Prop :=
  (c.timer ≠ .expired ∧ c.state = .waitForData ∧ c.fileWriter.mode = .netascii ∧
    ∃ data, deserialiseDataPacket (d.take c.blockSize) =
      some { data, blockNumber := c.blockNumber } ∧ ¬WellPaired data) ∨
  (b = .debug ∧ ¬RetransmitsWaiting c)

private theorem handleRead_returns (ht : c.timer ≠ .expired) (hs : c.state ≠ .waitForData)
    (d : Bytes) : ∃ l c', handleRead b c (.datagram d) = .ok l c' := by
  rw [handleRead, if_neg (mt (Timer.hasExpired_fst _).mp ht)]
  split
  · exact ⟨_, _, rfl⟩
  · next h => exact absurd h hs
  · exact ⟨_, _, rfl⟩

private theorem after_returns_iff {o : HandlerOutcome} {earlier : List Action} :
    (∃ l c', o.after earlier = .ok l c') ↔ ∃ l c', o = .ok l c' := by
  constructor
  · rintro ⟨l, c', h⟩
    obtain ⟨l', h', -⟩ := ok_of_after h
    exact ⟨l', c', h'⟩
  · rintro ⟨l, c', rfl⟩
    exact ⟨_, _, rfl⟩

private theorem retransmit_returns_iff (b : Build) (c : TftpServerConnection) :
    (∃ c', retransmit b c = .ok c') ↔ (b = .debug → c.waitForRead = true) := by
  unfold retransmit waitForRead
  cases hs : c.state <;> cases b <;> simp

-- Only the debug build stops here, and only where no retransmission should be requested.
private theorem onTimeout_returns_iff (ht : c.timer = .expired) :
    (∃ l c', onTimeout b { c with timer := .disarmed } = .ok l c') ↔
      (b = .debug → RetransmitsWaiting c) := by
  unfold onTimeout RetransmitsWaiting
  dsimp only
  split
  · next hc =>
    constructor
    · intro _ _ _ hlt
      exact absurd hc (UInt8.not_le.mpr hlt)
    · intro _
      exact ⟨_, _, rfl⟩
  · next hc =>
    have hlt := UInt8.not_le.mp hc
    have hr := retransmit_returns_iff b
      { c with timer := .disarmed, timeoutCount := c.timeoutCount + 1 }
    constructor
    · rintro ⟨l, c', h⟩ hb _ _
      split at h
      · next c₁ hc₁ => exact hr.mp ⟨c₁, hc₁⟩ hb
      · exact absurd h Outcome.stop_ne_ok
    · intro h
      obtain ⟨c₁, hc₁⟩ := hr.mpr fun hb ↦ h hb ht hlt
      rw [hc₁]
      exact ⟨_, _, rfl⟩

/-- From every reachable state `handle_read` returns, except on those datagrams. -/
theorem handleRead_returns_iff {w : World} {request : RwPacket} {es : List Event}
    (hsink : ∀ sink, w.writable = some sink → (FileOut.fopen sink).Sound)
    (hr : Runs (step b) (create w request) es log c) (d : Bytes) :
    (∃ l c', handleRead b c (.datagram d) = .ok l c') ↔ ¬StopsOn b c d := by
  by_cases ht : c.timer = .expired
  · rw [handleRead_expired ht, onTimeout_returns_iff ht, StopsOn]
    constructor
    · rintro h (⟨hx, -⟩ | ⟨hb, hw⟩)
      · exact hx ht
      · exact hw (h hb)
    · intro h hb
      by_contra hw
      exact h (.inr ⟨hb, hw⟩)
  · have hw : RetransmitsWaiting c := fun hx ↦ absurd hx ht
    by_cases hs : c.state = .waitForData
    · rw [handleRead_waitForData ht hs, after_returns_iff,
        readData_returns_iff (good_runs hsink hr (.inr (.inl hs)))]
      simp [StopsOn, ht, hs, hw]
    · have hreturns := @handleRead_returns b c ht hs d
      simp [StopsOn, hs, hw, hreturns]

/-- A block that is the encoding of a line feed is received. -/
theorem handleRead_returns_crLf : ∃ c,
    Runs (step .release) (create { writable := some {} } { type := .write, mode := .netascii })
      [.writable .sent] [.send (serialiseAckPacket { blockNumber := 0 })] c ∧
    ∃ l c', handleRead .release c (.datagram [0, 3, 0, 1, 13, 10]) = .ok l c' := by
  have hsink : ∀ sink : FileSink, some {} = some sink → (FileOut.fopen sink).Sound := by
    intro sink h
    cases h
    decide
  have hpaired : WellPaired [13, 10] := (accepted_iff _).mp ⟨[10], rfl⟩
  refine Exists.imp (fun c hr ↦ ⟨hr, (handleRead_returns_iff hsink hr _).mpr ?_⟩) ⟨_, rfl⟩
  rintro (⟨-, -, -, data, hd, hw⟩ | ⟨hb, -⟩)
  · have hsize : c.blockSize = 512 := (kept_runs hr).blockSize
    rw [hsize] at hd
    have hdata : [13, 10] = data := congrArg DataPacket.data (Option.some.inj hd)
    exact hw (hdata ▸ hpaired)
  · cases hb

/-- A carriage return before a letter makes the decoder throw, and nothing catches it. -/
theorem handleRead_throws : ∃ log c,
    Runs (step .release) (create { writable := some {} } { type := .write, mode := .netascii })
      [.writable .sent] log c ∧
    handleRead .release c (.datagram [0, 3, 0, 1, 13, 65]) =
      .stop [.recv [0, 3, 0, 1, 13, 65], .write [13, 65]]
        (.exception "Invalid character sequence : CR with no LF or NULL") :=
  ⟨_, _, rfl, rfl⟩

end CppTftp.TftpServerConnection
