import CppTftp.Server.Pace
import CppTftp.Server.Sessions
import Mathlib.Algebra.Order.BigOperators.Group.List
import Mathlib.Algebra.Order.Ring.Nat

/-!
# The traffic of the server

How many datagrams the server sends for those it receives. A connection has something to send
when it was made and whenever it was answered, and then at most three more times for as long as
it hears nothing.
-/

namespace CppTftp

open Lib TftpServerConnection

namespace TftpServerConnection

open ClockedConnection (isRecv)

variable {b : Build} {c c' : TftpServerConnection} {e : Event} {l : List Action}

/-- What a connection may still send if it hears nothing more: the packet that is to go out, and
one for each timeout that is left. A connection that has finished should send nothing. -/
def credit (c : TftpServerConnection) : Nat :=
  if c.finished then 0
  else maxTimeouts.toNat - c.timeoutCount.toNat + if c.waitForRead then 0 else 1

/-- A connection may send four packets at the most. -/
theorem credit_le (c : TftpServerConnection) : c.credit ≤ 4 := by
  have hmax : maxTimeouts.toNat = 3 := rfl
  unfold credit
  split
  · exact Nat.zero_le 4
  · split
    · omega
    · omega

/-- What a call sends and what the connection may still send behind it is covered by what it might
send before, and by four packets for every datagram that was received. Only a connection that has
finished sends a packet beyond this. -/
def Covered (c : TftpServerConnection) (l : List Action) (c' : TftpServerConnection) : Prop :=
  l.countP isSend + c'.credit ≤
    c.credit + (4 * l.countP isRecv + if c.finished then 1 else 0)

/-- Whatever was received covers all that may be sent before the next datagram. -/
private theorem covered_received (hs : l.countP isSend = 0) (hr : 0 < l.countP isRecv) :
    Covered c l c' := by
  have hle := credit_le c'
  unfold Covered
  omega

/-- Where nothing is sent and nothing counted, nothing is gained. -/
private theorem covered_quiet (hs : l.countP isSend = 0)
    (hk : c.finished = true → c'.finished = true)
    (hw : c'.waitForRead = c.waitForRead) (hn : c'.timeoutCount = c.timeoutCount) :
    Covered c l c' := by
  have hle : c'.credit ≤ c.credit := by
    unfold credit
    rw [hw, hn]
    cases hf : c.finished with
    | true => simp [hk hf]
    | false =>
      split
      · exact Nat.zero_le _
      · exact Nat.le_refl _
  unfold Covered
  omega

/-- A packet is sent by a connection that had it to send. -/
private theorem covered_sent (hs : l.countP isSend = 1) (hbusy : c.waitForRead = false)
    (hk : c.finished = true → c'.finished = true)
    (hleft : c'.waitForRead = true ∨ c'.finished = true)
    (hn : c'.timeoutCount = c.timeoutCount) : Covered c l c' := by
  have hle : 1 + c'.credit ≤ c.credit + if c.finished then 1 else 0 := by
    unfold credit
    rw [hbusy, hn]
    cases hf : c.finished with
    | true => simp [hk hf]
    | false =>
      rcases hleft with hw | hf'
      · rw [hw]
        split
        · simp
        · simp
          omega
      · rw [hf']
        simp
  unfold Covered
  omega

/-- A timeout is paid for with one of those left, also where a packet is to go out again. -/
private theorem covered_timeout (hfew : c.timeoutCount < maxTimeouts)
    (hn : c'.timeoutCount = c.timeoutCount + 1) (hbusy : c'.waitForRead = false)
    (hk : c.finished = true → c'.finished = true) : Covered c [] c' := by
  obtain ⟨hsucc, hbound⟩ := toNat_succ hfew hn
  have hmax : maxTimeouts.toNat = 3 := rfl
  have hle : c'.credit ≤ c.credit := by
    unfold credit
    rw [hbusy, hsucc]
    cases hf : c.finished with
    | true => simp [hk hf]
    | false =>
      split
      · exact Nat.zero_le _
      · simp
        omega
  unfold Covered
  simp
  omega

private theorem TimeoutMove.covered (h : TimeoutMove { c with timer := .disarmed } c') :
    Covered c [] c' := by
  cases h with
  | gaveUp =>
    have hnone : credit { c with timer := .disarmed, finished := true } = 0 := rfl
    unfold Covered
    rw [hnone]
    simp
  | resendData few => exact covered_timeout few rfl rfl id
  | resendAck few => exact covered_timeout few rfl rfl id
  | late few busy => exact covered_timeout few rfl busy id

private theorem ReadDataMove.unsent {d : Bytes} (h : ReadDataMove c d l c') :
    l.countP isSend = 0 := by
  cases h <;> rfl

private theorem HandleReadMove.covered {r : RecvResult} (h : HandleReadMove c r l c') :
    Covered c l c' := by
  cases h with
  | timeout expired move => exact move.covered
  | ack timer state recv =>
    cases r with
    | datagram data => exact covered_received rfl Nat.one_pos
    | wouldBlock =>
      cases recv
      exact covered_quiet rfl id rfl rfl
    | failed what => cases recv
  | data timer state recv read =>
    cases r with
    | datagram data =>
      have hunsent := (readDataMove read).unsent
      apply covered_received
      · simp [received, hunsent, isSend]
      · simp [received, RecvResult.consumes, isRecv]
    | wouldBlock =>
      cases recv
      obtain ⟨rfl, rfl⟩ := Outcome.ok_inj.mp read
      exact covered_quiet rfl id rfl rfl
    | failed what => cases recv
  | idle timer busy => exact covered_quiet rfl id rfl rfl

private theorem TransmitMove.covered {s : SendResult} (h : TransmitMove c s l c')
    (hbusy : c.waitForRead = false) : Covered c l c' := by
  cases h with
  | sent => exact covered_sent rfl hbusy id (.inl rfl) rfl
  | blocked => exact covered_quiet rfl id rfl rfl
  | failed => exact covered_quiet rfl id (by rw [hbusy]; rfl) rfl

private theorem SendDataMove.covered {s : SendResult} (h : SendDataMove c s l c')
    (hs : c.state = .sendData) : Covered c l c' := by
  have hbusy : c.waitForRead = false := by simp [waitForRead, hs]
  cases h with
  | cached ready move => exact move.covered hbusy
  | failed => exact covered_quiet rfl id (by rw [hbusy]; rfl) rfl
  | loaded ready read error move => exact move.covered hbusy

private theorem SendAckMove.covered {s : SendResult} (h : SendAckMove c s l c')
    (hs : c.state = .sendAck) : Covered c l c' := by
  have hbusy : c.waitForRead = false := by simp [waitForRead, hs]
  cases h with
  | sentFinal => exact covered_sent rfl hbusy (fun _ ↦ rfl) (.inr rfl) rfl
  | sent => exact covered_sent rfl hbusy id (.inl rfl) rfl
  | blocked => exact covered_quiet rfl id rfl rfl
  | failed => exact covered_quiet rfl id (by rw [hbusy]; rfl) rfl

private theorem SendOackMove.covered {s : SendResult} (h : SendOackMove c s l c')
    (hs : c.state = .sendOack) : Covered c l c' := by
  have hbusy : c.waitForRead = false := by simp [waitForRead, hs]
  cases h with
  | sentRead => exact covered_sent rfl hbusy id (.inl rfl) rfl
  | sentWrite => exact covered_sent rfl hbusy id (.inl rfl) rfl
  | blocked => exact covered_quiet rfl id rfl rfl
  | failed => exact covered_quiet rfl (fun _ ↦ rfl) rfl rfl

private theorem SendErrorMove.covered {s : SendResult} (h : SendErrorMove c s l c')
    (hs : c.state = .error) : Covered c l c' := by
  have hbusy : c.waitForRead = false := by simp [waitForRead, hs]
  cases h with
  | sent => exact covered_sent rfl hbusy (fun _ ↦ rfl) (.inr rfl) rfl
  | blocked => exact covered_quiet rfl id rfl rfl
  | failed => exact covered_quiet rfl (fun _ ↦ rfl) rfl rfl

/-- Every call is covered. -/
theorem covered_step (h : step b c e = .ok l c') : Covered c l c' := by
  cases move_of_step h with
  | read move => exact move.covered
  | sendData state move => exact move.covered state
  | sendAck state move => exact move.covered state
  | sendOack state move => exact move.covered state
  | sendError state move => exact move.covered state
  | tick => exact covered_quiet rfl id rfl rfl
  | hangup => exact covered_quiet rfl (fun _ ↦ rfl) rfl rfl

end TftpServerConnection

namespace TftpServer

open ServerAction
open ClockedConnection (isRecv)

variable {b : Build} {s s' : TftpServer} {l log : List ServerAction}

/-- How many of the actions of all handler calls are of a kind. -/
def actions (b : Build) (kind : Action → Bool) (log : List ServerAction) : Nat :=
  (log.map fun
    | .called _ e c => (TftpServerConnection.step b c e).log.countP kind
    | _ => 0).sum

/-- How many handlers of connections that had finished were called. -/
def lateCalls (log : List ServerAction) : Nat :=
  log.countP fun
    | .called _ _ c => c.finished
    | _ => false

/-- What all connections together may send if they hear nothing more. -/
def totalCredit (s : TftpServer) : Nat := (s.conns.map credit).sum

@[simp] theorem actions_append (b : Build) (kind : Action → Bool) (l l' : List ServerAction) :
    actions b kind (l ++ l') = actions b kind l + actions b kind l' := by
  simp [actions]

@[simp] theorem lateCalls_append (l l' : List ServerAction) :
    lateCalls (l ++ l') = lateCalls l + lateCalls l' := List.countP_append

/-- The requests accepted and the datagrams that connections received, four times, and the late
calls. -/
def income (b : Build) (log : List ServerAction) : Nat :=
  4 * ((creations log).length + actions b isRecv log) + lateCalls log

theorem income_append (b : Build) (l l' : List ServerAction) :
    income b (l ++ l') = income b l + income b l' := by
  simp [income]
  omega

/-- Changing one element changes a sum by the difference. -/
theorem sum_map_set {α : Type} (f : α → Nat) {xs : List α} {i : Nat} {x y : α}
    (h : xs[i]? = some x) : ((xs.set i y).map f).sum + f x = (xs.map f).sum + f y := by
  induction xs generalizing i with
  | nil => cases h
  | cons x' xs ih =>
    cases i with
    | zero =>
      obtain rfl := Option.some.inj h
      simp only [List.set_cons_zero, List.map_cons, List.sum_cons]
      omega
    | succ i =>
      have hrest := ih (i := i) h
      simp only [List.set_cons_succ, List.map_cons, List.sum_cons]
      omega

/-- Where no handler is called nothing is done. -/
theorem actions_of_not_called {kind : Action → Bool} (h : ∀ i e c, .called i e c ∉ l) :
    actions b kind l = 0 := by
  apply List.sum_eq_zero
  intro n hn
  obtain ⟨a, ha, rfl⟩ := List.mem_map.mp hn
  cases a with
  | called i e c => exact absurd ha (h i e c)
  | arrived a => rfl
  | created r => rfl
  | deregistered r => rfl
  | pastTheEnd => rfl

/-- New connections are covered by the requests that they were made for. -/
private theorem sum_credit_create (taken : List (RequestT × World)) :
    ((taken.map fun p ↦ create p.2 p.1.request).map credit).sum ≤ 4 * taken.length := by
  induction taken with
  | nil => exact Nat.le_refl _
  | cons p taken ih =>
    have hle := credit_le (create p.2 p.1.request)
    simp only [List.map_cons, List.sum_cons, List.length_cons]
    omega

/-- An occurrence is covered. -/
theorem covered_handle {o : Occurrence} (h : s.handle b o = .ok l s') :
    actions b isSend l + s'.totalCredit ≤ s.totalCredit + income b l := by
  rcases conns_handle h with ⟨taken, hl, hnone, hconns, -⟩ | ⟨-, hone⟩
  · have hle := sum_credit_create taken
    have htotal : s'.totalCredit = s.totalCredit +
        ((taken.map fun p ↦ create p.2 p.1.request).map credit).sum := by
      rw [totalCredit, hconns, List.map_append, List.sum_append]
      rfl
    rw [actions_of_not_called hnone, htotal, income, hl, List.length_map]
    omega
  · cases hone with
    | idle hlog hconns =>
      subst hlog
      rw [totalCredit, hconns]
      exact Nat.le_of_eq (Nat.zero_add _)
    | @step i e performed c c' found hstep hlog hconns =>
      have hsum := sum_map_set credit (y := c') found
      have hcovered := covered_step hstep
      unfold Covered at hcovered
      rw [← hconns] at hsum
      change s'.totalCredit + _ = s.totalCredit + _ at hsum
      rcases hlog with rfl | ⟨rfl, rfl⟩
      · have hperformed : (TftpServerConnection.step b c e).log = performed := by
          rw [hstep]
          rfl
        have hkind : ∀ kind, actions b kind [.called i e c] = performed.countP kind := by
          intro kind
          simp [actions, hperformed]
        have hlate : lateCalls [.called i e c] = if c.finished then 1 else 0 := by
          simp [lateCalls, List.countP_cons]
        have hmade : creations [.called i e c] = [] := rfl
        rw [income, hkind, hkind, hlate, hmade]
        simp only [List.length_nil]
        omega
      · -- a timer that runs out is not a call
        obtain ⟨-, rfl⟩ := Outcome.ok_inj.mp hstep
        have hsame : credit { c with timer := c.timer.elapse } = credit c := rfl
        have hnone : actions b isSend [] = 0 := rfl
        rw [hsame] at hsum
        rw [hnone]
        omega

/-- The clean-up sends nothing, and what it erases has nothing more to send. -/
theorem covered_cleanUp {n : EndIncrement} (h : s.cleanUp n = .ok l s') :
    actions b isSend l + s'.totalCredit ≤ s.totalCredit + income b l := by
  have hlog : (s.cleanUp n).log = l := by
    rw [h]
    rfl
  have hnone : actions b isSend l = 0 := actions_of_not_called fun i e c hm ↦
    called_cleanUp n s (hlog ▸ hm)
  have hsub := ((sublist_of_cleanUp h).map Registered.conn).map credit
  have hle : s'.totalCredit ≤ s.totalCredit := hsub.sum_le_sum fun credit _ ↦ Nat.zero_le credit
  rw [hnone]
  omega

/-- An iteration is covered. -/
theorem covered_iterate {n : EndIncrement} {wait : EpollWait} (h : s.iterate n b wait = .ok l s') :
    actions b isSend l + s'.totalCredit ≤ s.totalCredit + income b l := by
  rcases iterate_cases h with ⟨-, rfl, rfl⟩ | ⟨batch, l₁, s₁, l₂, -, hb, hc, rfl⟩
  · exact Nat.le_of_eq (Nat.zero_add _)
  · have hbatch := hb.amortised (actions_append b isSend) (income_append b)
      fun _ _ _ _ hs ↦ covered_handle hs
    have hclean := covered_cleanUp (b := b) hc
    rw [actions_append, income_append]
    omega

/-- The server sends at most four datagrams for each request that it accepts and for each datagram
that one of its connections receives, and one for each handler that it calls for a connection that
has finished, whatever the clients do and however the events come. -/
theorem traffic_bounded {n : EndIncrement} {max : Nat} {waits : List EpollWait}
    (hr : Runs (iterate n b) (start max) waits log s) :
    actions b isSend log ≤
      4 * ((creations log).length + actions b isRecv log) + lateCalls log := by
  have h := hr.amortised (actions_append b isSend) (income_append b)
    fun _ _ _ _ hs ↦ covered_iterate hs
  have hstart : (start max).totalCredit = 0 := rfl
  rw [hstart, income] at h
  omega

/-- A client reads an empty file, and asks for its only block again with ACK 0. -/
def askedAgain : List EpollWait :=
  [.events (askFor someDatagram someRequest.client emptyFile),
    .events [.socket 0 { epollout := true } .wouldBlock .sent],
    .events [.socket 0 { epollin := true } (.datagram [0, 4, 0, 0]) .wouldBlock],
    .events [.socket 0 { epollout := true } .wouldBlock .sent]]

/-- The connection of that client once it has sent the block. -/
private def sentOnce : TftpServerConnection :=
  { create emptyFile someRequest.request with
    fileReader := { fd := some { rest := [], failAt := none, eof := true } }
    dataPkt := { data := [], blockNumber := 1 }
    finalAck := true
    pktReady := true
    state := .waitForAck
    blockNumber := 1
    timer := .armed }

/-- The same once it was asked for the block again. -/
private def askedOnce : TftpServerConnection := { sentOnce with state := .sendData }

private theorem step_sentOnce : TftpServerConnection.step .release
    (create emptyFile someRequest.request) (.writable .sent) =
      .ok [.readInTo, .send [0, 3, 0, 1]] sentOnce :=
  congrArg₂ Outcome.mk (by decide +kernel) (by decide +kernel)

private theorem step_askedOnce : TftpServerConnection.step .release sentOnce
    (.readable (.datagram [0, 4, 0, 0])) = .ok [.recv [0, 4, 0, 0]] askedOnce := rfl

private theorem step_sentAgain : TftpServerConnection.step .release askedOnce (.writable .sent) =
    .ok [.send [0, 3, 0, 1]] sentOnce := rfl

/-- The connection sends the block, receives the ACK and sends the block once more. -/
theorem traffic_bounded_askedAgain : ∃ log s,
    Runs (iterate .wraps .release) (start 1) askedAgain log s ∧
      actions .release isSend log = 2 ∧ actions .release isRecv log = 1 ∧
      actions .release isSend log ≤
        4 * ((creations log).length + actions .release isRecv log) + lateCalls log := by
  have hask := @iterate_askFor .wraps .release _ _ _ parse_someDatagram emptyFile rfl
  have hsent : (serving (create emptyFile someRequest.request)).iterate .wraps .release
      (.events [.socket 0 { epollout := true } .wouldBlock .sent]) = .ok _ (serving sentOnce) :=
    iterate_socket .wraps rfl step_sentOnce rfl
  have hasked : (serving sentOnce).iterate .wraps .release
      (.events [.socket 0 { epollin := true } (.datagram [0, 4, 0, 0]) .wouldBlock]) =
        .ok _ (serving askedOnce) :=
    iterate_socket .wraps rfl step_askedOnce rfl
  have hagain : (serving askedOnce).iterate .wraps .release
      (.events [.socket 0 { epollout := true } .wouldBlock .sent]) = .ok _ (serving sentOnce) :=
    iterate_socket .wraps rfl step_sentAgain rfl
  have hr := Runs.cons hask (Runs.cons hsent (Runs.cons hasked (Runs.cons hagain (Runs.nil _))))
  refine ⟨_, _, hr, ?_, ?_, traffic_bounded hr⟩
  · simp [actions, step_sentOnce, step_askedOnce, step_sentAgain, isSend]
  · simp [actions, step_sentOnce, step_askedOnce, step_sentAgain, isRecv]

end TftpServer
end CppTftp
