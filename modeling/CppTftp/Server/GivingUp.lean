import CppTftp.Server.Waiting

/-!
# Giving up

What the count of timeouts counts: the retransmissions that were requested since the last valid
packet, and the expirations found too late to request one. A tally that is kept beside the
connection tells the two apart.
-/

namespace CppTftp.TftpServerConnection

open Tftp Lib

variable {b : Build} {c c' : TftpServerConnection} {e : Event} {l log : List Action}

/-! ### Telling the calls apart -/

/-- What a call means for the packet that is outstanding. -/
inductive CallKind where
  | valid
  | retry
  | late
  | sent
  | other
  deriving DecidableEq, Repr

/-- The datagram that the state waits for comes in. -/
def isValid (state : ConnState) : Action → Bool
  | .recv d =>
    match state with
    | .waitForAck => (deserialiseAckPacket d).isSome
    | .waitForData => (deserialiseDataPacket d).isSome
    | _ => false
  | _ => false

/-- A datagram goes out. -/
def isSend : Action → Bool
  | .send _ => true
  | _ => false

/-- A valid packet from the client is received, a retransmission is requested, an expiration is
found with nothing to retransmit, the current packet is sent, or none of these. -/
def callKind (c : TftpServerConnection) (e : Event) (l : List Action) : CallKind :=
  match e with
  | .readable _ =>
    if c.timer = .expired then
      if c.timeoutCount ≥ maxTimeouts then .other
      else if c.waitForRead then .retry
      else .late
    else if l.any (isValid c.state) then .valid
    else .other
  | .writable _ => if c.state ≠ .error ∧ l.any isSend then .sent else .other
  | _ => .other

/-- Counted since the last valid packet: how often the current packet was sent, how often of
these on timeout, and the expirations that were found too late. `onTimeout` says that the next
one goes out on timeout. -/
structure Tally where
  sent : Nat := 0
  retransmitted : Nat := 0
  late : Nat := 0
  onTimeout : Bool := false
  deriving DecidableEq, Repr

/-- The tally after a call. -/
def Tally.count (t : Tally) : CallKind → Tally
  | .valid => {}
  | .retry => { t with onTimeout := true }
  | .late => { t with late := t.late + 1 }
  | .sent =>
    { t with
      sent := t.sent + 1, retransmitted := t.retransmitted + t.onTimeout.toNat, onTimeout := false }
  | .other => t

/-- A connection with its tally. -/
def tallied (b : Build) : TftpServerConnection × Tally → Event →
    Outcome Action Stop (TftpServerConnection × Tally) :=
  withGhost (step b) fun t c e l ↦ t.count (callKind c e l)

/-- The tally only watches: the runs with it are those of the connection. -/
theorem runs_iff_tallied {es : List Event} :
    Runs (step b) c es log c' ↔ ∃ t, Runs (tallied b) (c, {}) es log (c', t) := by
  constructor
  · intro hr
    exact hr.exists_ghost ({} : Tally)
  · rintro ⟨t, hr⟩
    exact hr.of_ghost

/-! ### What each kind of call does -/

/-- The moves of the state, the timer and the count of timeouts in a call of a kind. -/
inductive CountMove (c c' : TftpServerConnection) : CallKind → Prop
  | valid (count : c'.timeoutCount = 0) (left : c'.waitForRead = false ∨ c'.finished = true) :
      CountMove c c' .valid
  | retry (waiting : c.waitForRead = true) (expired : c.timer = .expired)
      (left : c'.waitForRead = false) (few : c.timeoutCount < maxTimeouts)
      (count : c'.timeoutCount = c.timeoutCount + 1) : CountMove c c' .retry
  | late (busy : c.waitForRead = false) (state : c'.state = c.state)
      (few : c.timeoutCount < maxTimeouts) (count : c'.timeoutCount = c.timeoutCount + 1) :
      CountMove c c' .late
  | sent (busy : c.waitForRead = false) (state : c.state ≠ .error)
      (left : c'.waitForRead = true ∨ c'.finished = true)
      (count : c'.timeoutCount = c.timeoutCount) : CountMove c c' .sent
  | other (state : c'.state = c.state ∨ c'.state = .error)
      (timer : c'.timer ≠ .disarmed → c.timer ≠ .disarmed)
      (count : c'.timeoutCount = c.timeoutCount) : CountMove c c' .other

private theorem TimeoutMove.countMove (h : TimeoutMove { c with timer := .disarmed } c')
    (ht : c.timer = .expired) :
    CountMove c c' (if c.timeoutCount ≥ maxTimeouts then .other
      else if c.waitForRead then .retry else .late) := by
  cases h with
  | gaveUp many =>
    rw [if_pos many]
    exact .other (.inl rfl) (fun hn ↦ absurd rfl hn) rfl
  | resendData few state =>
    have hwait : c.waitForRead = true := by simp [waitForRead, show c.state = _ from state]
    rw [if_neg (UInt8.not_le.mpr few), if_pos hwait]
    exact .retry hwait ht rfl few rfl
  | resendAck few state =>
    have hwait : c.waitForRead = true := by simp [waitForRead, show c.state = _ from state]
    rw [if_neg (UInt8.not_le.mpr few), if_pos hwait]
    exact .retry hwait ht rfl few rfl
  | late few busy =>
    have hbusy : c.waitForRead = false := busy
    rw [if_neg (UInt8.not_le.mpr few), hbusy, if_neg Bool.false_ne_true]
    exact .late hbusy rfl few rfl

private theorem ReadAckMove.countMove {d : Bytes} (h : ReadAckMove c d c') :
    CountMove c c' (if (deserialiseAckPacket d).isSome then .valid else .other) := by
  cases h with
  | repeated decoded =>
    rw [decoded]
    exact .valid rfl (.inl rfl)
  | last decoded =>
    rw [decoded]
    exact .valid rfl (.inr rfl)
  | next decoded =>
    rw [decoded]
    exact .valid rfl (.inl rfl)
  | wrong decoded =>
    rw [decoded]
    exact .valid rfl (.inl rfl)
  | refused decoded =>
    rw [decoded]
    exact .other (.inl rfl) id rfl
  | ignored decoded =>
    rw [decoded]
    exact .other (.inl rfl) id rfl

private theorem WriteBlockMove.count {data : Bytes} (h : WriteBlockMove c data c') :
    c'.timeoutCount = c.timeoutCount ∧ c'.waitForRead = false := by
  cases h with
  | failed => exact ⟨rfl, rfl⟩
  | done => exact ⟨rfl, rfl⟩

private theorem ReadDataMove.countMove {d : Bytes} (h : ReadDataMove c d l c') :
    CountMove c c' (if (deserialiseDataPacket d).isSome then .valid else .other) := by
  cases h with
  | repeated decoded =>
    rw [decoded]
    exact .valid rfl (.inl rfl)
  | block decoded number move =>
    rw [decoded]
    exact .valid move.count.1 (.inl move.count.2)
  | wrong decoded =>
    rw [decoded]
    exact .valid rfl (.inl rfl)
  | refused decoded =>
    rw [decoded]
    exact .other (.inl rfl) id rfl
  | ignored decoded =>
    rw [decoded]
    exact .other (.inl rfl) id rfl

private theorem any_received (state : ConnState) (r : RecvResult) {limit : Nat} {d : Bytes}
    (h : r.recv limit = .ok d) :
    (received r d).any (isValid state) = isValid state (.recv d) := by
  cases r with
  | datagram data => simp
  | wouldBlock =>
    cases h
    cases state <;> rfl
  | failed what => cases h

private theorem ReadDataMove.not_valid {d : Bytes} (h : ReadDataMove c d l c')
    (state : ConnState) : l.any (isValid state) = false := by
  cases h <;> rfl

private theorem HandleReadMove.countMove {r : RecvResult} (h : HandleReadMove c r l c') :
    CountMove c c' (callKind c (.readable r) l) := by
  unfold callKind
  dsimp only
  cases h with
  | timeout expired move =>
    rw [if_pos expired]
    exact move.countMove expired
  | @ack d timer state recv =>
    rw [if_neg timer, any_received _ r recv, state]
    exact (readAckMove c d).countMove
  | data timer state recv read =>
    have move := readDataMove read
    rw [if_neg timer, List.any_append, any_received _ r recv, move.not_valid, Bool.or_false, state]
    exact move.countMove
  | idle timer busy =>
    rw [if_neg timer]
    exact .other (.inl rfl) id rfl

private theorem SendDataMove.countMove {s : SendResult} (h : SendDataMove c s l c')
    (hs : c.state = .sendData) : CountMove c c' (if l.any isSend then .sent else .other) := by
  have hbusy : c.waitForRead = false := by simp [waitForRead, hs]
  have hne : c.state ≠ .error := by simp [hs]
  cases h with
  | cached ready move =>
    cases move with
    | sent => exact .sent hbusy hne (.inl rfl) rfl
    | blocked => exact .other (.inl rfl) id rfl
    | failed => exact .other (.inr rfl) id rfl
  | failed => exact .other (.inr rfl) id rfl
  | loaded ready read error move =>
    -- what is read into the cached packet plays no part in the move
    cases move with
    | sent => exact .sent hbusy hne (.inl rfl) rfl
    | blocked => exact .other (.inl rfl) id rfl
    | failed => exact .other (.inr rfl) id rfl

private theorem SendAckMove.countMove {s : SendResult} (h : SendAckMove c s l c')
    (hs : c.state = .sendAck) : CountMove c c' (if l.any isSend then .sent else .other) := by
  have hbusy : c.waitForRead = false := by simp [waitForRead, hs]
  have hne : c.state ≠ .error := by simp [hs]
  cases h with
  | sentFinal => exact .sent hbusy hne (.inr rfl) rfl
  | sent => exact .sent hbusy hne (.inl rfl) rfl
  | blocked => exact .other (.inl rfl) id rfl
  | failed => exact .other (.inr rfl) id rfl

private theorem SendOackMove.countMove {s : SendResult} (h : SendOackMove c s l c')
    (hs : c.state = .sendOack) : CountMove c c' (if l.any isSend then .sent else .other) := by
  have hbusy : c.waitForRead = false := by simp [waitForRead, hs]
  have hne : c.state ≠ .error := by simp [hs]
  cases h with
  | sentRead => exact .sent hbusy hne (.inl rfl) rfl
  | sentWrite => exact .sent hbusy hne (.inl rfl) rfl
  | blocked => exact .other (.inl rfl) id rfl
  | failed => exact .other (.inl rfl) id rfl

private theorem SendErrorMove.countMove {s : SendResult} (h : SendErrorMove c s l c') :
    CountMove c c' .other := by
  cases h with
  | sent => exact .other (.inl rfl) id rfl
  | blocked => exact .other (.inl rfl) id rfl
  | failed => exact .other (.inl rfl) id rfl

private theorem callKind_writable {s : SendResult} (hs : c.state ≠ .error) :
    callKind c (.writable s) l = if l.any isSend then .sent else .other := by
  simp [callKind, hs]

/-- Every call makes the move of its kind. -/
theorem countMove_step (h : step b c e = .ok l c') : CountMove c c' (callKind c e l) := by
  cases move_of_step h with
  | read move => exact move.countMove
  | sendData state move =>
    rw [callKind_writable (by simp [state])]
    exact move.countMove state
  | sendAck state move =>
    rw [callKind_writable (by simp [state])]
    exact move.countMove state
  | sendOack state move =>
    rw [callKind_writable (by simp [state])]
    exact move.countMove state
  | sendError state move =>
    unfold callKind
    dsimp only
    rw [if_neg fun hx ↦ hx.1 state]
    exact move.countMove
  | tick =>
    refine .other (.inl rfl) (fun ht hc ↦ ht ?_) rfl
    show c.timer.elapse = .disarmed
    rw [hc]
    rfl
  | hangup => exact .other (.inl rfl) id rfl

/-! ### The count and the tally -/

/-- What the count of timeouts has to do with the tally. -/
structure Counted (c : TftpServerConnection) (t : Tally) : Prop where
  count : c.timeoutCount.toNat = t.retransmitted + t.onTimeout.toNat + t.late
  bound : c.timeoutCount.toNat ≤ 3
  waiting : c.waitForRead = true → t.onTimeout = false
  outstanding : c.finished = false → c.waitForRead = true → c.timer ≠ .disarmed →
    t.sent = t.retransmitted + 1
  due : c.finished = false → c.waitForRead = false → c.state ≠ .error →
    t.sent = t.retransmitted + t.onTimeout.toNat
  answered : AnsweredTimer c

variable {t : Tally}

/-- Another timeout below the limit is counted without overflow. -/
theorem toNat_succ (h : c.timeoutCount < maxTimeouts)
    (hc : c'.timeoutCount = c.timeoutCount + 1) :
    c'.timeoutCount.toNat = c.timeoutCount.toNat + 1 ∧ c'.timeoutCount.toNat ≤ 3 := by
  have hlt : c.timeoutCount.toNat < 3 := UInt8.lt_iff_toNat_lt.mp h
  have hsucc : (c.timeoutCount + 1).toNat = c.timeoutCount.toNat + 1 := by
    rw [UInt8.toNat_add]
    change (c.timeoutCount.toNat + 1) % 2 ^ 8 = _
    omega
  rw [hc, hsucc]
  omega

/-- Every call keeps the count and the tally together. -/
theorem Counted.step (h : Counted c t) (hs : step b c e = .ok l c') :
    Counted c' (t.count (callKind c e l)) := by
  have hanswered := h.answered.step hs
  have hfin : c'.finished = false → c.finished = false := by
    intro hf
    rw [Bool.eq_false_iff] at hf ⊢
    exact fun hc ↦ hf ((kept_step hs).finished hc)
  have hm := countMove_step hs
  generalize callKind c e l = kind at hm ⊢
  cases hm with
  | valid count left =>
    refine ⟨by rw [count]; rfl, by rw [count]; decide, fun _ ↦ rfl, ?_, fun _ _ _ ↦ rfl, hanswered⟩
    intro hf hw
    rcases left with hl | hl
    · rw [hw] at hl
      cases hl
    · rw [hf] at hl
      cases hl
  | retry waiting expired left few count =>
    obtain ⟨hsucc, hbound⟩ := toNat_succ few count
    have hoff := h.waiting waiting
    have hcount := h.count
    rw [hoff] at hcount
    refine ⟨?_, hbound, ?_, ?_, ?_, hanswered⟩
    · rw [hsucc, hcount]
      simp only [Tally.count, Bool.toNat_true, Bool.toNat_false]
      omega
    · intro hw
      rw [left] at hw
      cases hw
    · intro _ hw
      rw [left] at hw
      cases hw
    · intro hf _ _
      have hne : c.timer ≠ .disarmed := by
        rw [expired]
        exact Timer.noConfusion
      exact h.outstanding (hfin hf) waiting hne
  | late busy state few count =>
    obtain ⟨hsucc, hbound⟩ := toNat_succ few count
    have hbusy : c'.waitForRead = false := by
      rw [waitForRead, state]
      exact busy
    refine ⟨?_, hbound, ?_, ?_, ?_, hanswered⟩
    · rw [hsucc, h.count]
      simp only [Tally.count]
      omega
    · intro hw
      rw [hbusy] at hw
      cases hw
    · intro _ hw
      rw [hbusy] at hw
      cases hw
    · intro hf _ he
      exact h.due (hfin hf) busy (state ▸ he)
  | sent busy state left count =>
    have hcount : c'.timeoutCount.toNat =
        (t.count .sent).retransmitted + (t.count .sent).onTimeout.toNat + (t.count .sent).late := by
      rw [count, h.count]
      simp [Tally.count]
    refine ⟨hcount, by rw [count]; exact h.bound, fun _ ↦ rfl, ?_, ?_, hanswered⟩
    · intro hf _ _
      have hdue := h.due (hfin hf) busy state
      show t.sent + 1 = t.retransmitted + t.onTimeout.toNat + 1
      rw [hdue]
    · intro hf hw
      rcases left with hl | hl
      · rw [hw] at hl
        cases hl
      · rw [hf] at hl
        cases hl
  | other state timer count =>
    have hsame : c'.waitForRead = true → c'.state = c.state := by
      intro hw
      rcases state with hst | hst
      · exact hst
      · simp [waitForRead, hst] at hw
    have hwait : c'.waitForRead = true → c.waitForRead = true := by
      intro hw
      rw [waitForRead, hsame hw] at hw
      exact hw
    refine ⟨by rw [count]; exact h.count, by rw [count]; exact h.bound,
      fun hw ↦ h.waiting (hwait hw), ?_, ?_, hanswered⟩
    · intro hf hw ht
      exact h.outstanding (hfin hf) (hwait hw) (timer ht)
    · intro hf hw he
      rcases state with hst | hst
      · rw [waitForRead, hst] at hw
        rw [hst] at he
        exact h.due (hfin hf) hw he
      · exact absurd hst he

/-- A connection starts with nothing counted. -/
theorem counted_create (w : World) (request : RwPacket) : Counted (create w request) {} := by
  have hstart := started_create w request
  refine ⟨by rw [hstart.timeoutCount]; rfl, by rw [hstart.timeoutCount]; decide, fun _ ↦ rfl, ?_,
    fun _ _ _ ↦ rfl, ?_⟩
  · intro _ hw
    rw [hstart.waiting] at hw
    cases hw
  · intro _ ht
    exact absurd hstart.timer ht

/-- The connection is finished by an expiration. -/
def GivesUp (b : Build) (c : TftpServerConnection) (r : RecvResult) : Prop :=
  c.timer = .expired ∧ c.finished = false ∧
    ∃ c', handleRead b c r = .ok [] c' ∧ c'.finished = true

private theorem finished_retransmit (h : retransmit b c = .ok c') : c'.finished = c.finished := by
  unfold retransmit at h
  split at h
  · cases h
    rfl
  · cases h
    rfl
  · split at h
    · cases h
    · cases h
      rfl

/-- Only the largest count gives up. -/
theorem GivesUp.count {r : RecvResult} (h : GivesUp b c r) : c.timeoutCount ≥ maxTimeouts := by
  obtain ⟨ht, hf, c', hread, hf'⟩ := h
  by_cases hmany : c.timeoutCount ≥ maxTimeouts
  · exact hmany
  · rw [handleRead_expired ht, onTimeout, if_neg hmany] at hread
    split at hread
    · next c₁ hc₁ =>
      obtain ⟨-, rfl⟩ := Outcome.ok_inj.mp hread
      have hsame := finished_retransmit hc₁
      rw [hf', hf] at hsame
      cases hsame
    · exact absurd hread Outcome.stop_ne_ok

/-- Between two valid packets the packet is retransmitted on timeout three times at most, and a
connection that gives up has sent it once and retransmitted it three times, if and only if no
expiration was found since the last valid packet while there was one to send. -/
theorem gives_up_iff {w : World} {request : RwPacket} {es : List Event}
    (hr : Runs (tallied b) (create w request, {}) es log (c, t)) :
    t.retransmitted ≤ 3 ∧
      ∀ r, GivesUp b c r → (t.sent = 1 + 3 ∧ t.retransmitted = 3 ↔ t.late = 0) := by
  have h : Counted c t := by
    apply hr.stateInvariant (I := fun p ↦ Counted p.1 p.2) (counted_create w request)
    intro p e l p' hp hs
    have hs : withGhost (step b) _ (p.1, p.2) e = .ok l (p'.1, p'.2) := hs
    obtain ⟨hs, ht⟩ := withGhost_eq_ok_iff.mp hs
    rw [ht]
    exact hp.step hs
  have hcount := h.count
  have hbound := h.bound
  refine ⟨by omega, ?_⟩
  intro r hgive
  have hmany : 3 ≤ c.timeoutCount.toNat := UInt8.le_iff_toNat_le.mp hgive.count
  obtain ⟨ht, hf, -⟩ := hgive
  have hne : c.timer ≠ .disarmed := by
    rw [ht]
    exact Timer.noConfusion
  -- outside the waiting states the count of a running timer is zero
  have hwait : c.waitForRead = true := by
    rw [← Bool.not_eq_false]
    intro hbusy
    have hzero := h.answered hbusy hne
    rw [hzero] at hmany
    exact absurd hmany (by decide)
  have hsent := h.outstanding hf hwait hne
  rw [h.waiting hwait, Bool.toNat_false] at hcount
  omega

/-- A WRITE connection whose client stays silent: ACK 0 is sent once and three times more. -/
theorem gives_up_silent : ∃ l c t,
    Runs (tallied .release) (create { writable := some {} } { type := .write }, {})
      [.writable .sent, .tick, .readable .wouldBlock, .writable .sent, .tick,
        .readable .wouldBlock, .writable .sent, .tick, .readable .wouldBlock, .writable .sent,
        .tick] l (c, t) ∧
      GivesUp .release c .wouldBlock ∧ t.sent = 1 + 3 ∧ t.retransmitted = 3 := by
  have hr : ∃ l c t,
      Runs (tallied .release) (create { writable := some {} } { type := .write }, {})
        [.writable .sent, .tick, .readable .wouldBlock, .writable .sent, .tick,
          .readable .wouldBlock, .writable .sent, .tick, .readable .wouldBlock, .writable .sent,
          .tick] l (c, t) ∧
        GivesUp .release c .wouldBlock ∧ t.late = 0 :=
    ⟨_, _, _, rfl, ⟨rfl, rfl, _, rfl, rfl⟩, rfl⟩
  obtain ⟨l, c, t, hr, hgive, hlate⟩ := hr
  exact ⟨l, c, t, hr, hgive, ((gives_up_iff hr).2 _ hgive).mpr hlate⟩

/-- The same, but the client repeats block 0 and the timer of the first wait is found expired
before ACK 0 goes out again: the connection gives up after two retransmissions. -/
theorem gives_up_early : ∃ l c t,
    Runs (tallied .release) (create { writable := some {} } { type := .write }, {})
      [.writable .sent, .readable (.datagram [0, 3, 0, 0, 7]), .tick, .readable .wouldBlock,
        .writable .sent, .tick, .readable .wouldBlock, .writable .sent, .tick,
        .readable .wouldBlock, .writable .sent, .tick] l (c, t) ∧
      GivesUp .release c .wouldBlock ∧ t.sent = 1 + 2 ∧ t.retransmitted = 2 :=
  ⟨_, _, _, rfl, ⟨rfl, rfl, _, rfl, rfl⟩, rfl, rfl⟩

end CppTftp.TftpServerConnection
