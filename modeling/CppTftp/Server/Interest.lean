import CppTftp.Server.Frame
import CppTftp.Server.Requests

/-!
# What each socket is polled for

The events of a batch were collected before any of them is handled. A connection has two
descriptors, so the handler called for one event may find what the other event's handler left.
Still no event leads to `handle_write` in a state that waits for a datagram.
-/

namespace CppTftp

open Lib

namespace TftpServerConnection

theorem interest_eq_read_iff (c : TftpServerConnection) :
    c.interest = .read ↔ c.waitForRead = true := by
  cases h : c.waitForRead <;> simp [interest, h]

theorem interest_eq_write_iff (c : TftpServerConnection) :
    c.interest = .write ↔ c.waitForWrite = true := by
  cases h : c.waitForRead <;> simp [interest, waitForWrite_eq, h]

/-- Reading the file stops a call only for want of an open stream. -/
theorem stop_readInTo {r : TftpReadFile} {n : Nat} {t : Stop} (h : r.readInTo n = .error t) :
    t = .nullFile := by
  rw [TftpReadFile.readInTo] at h
  cases hf : r.fd with
  | none => rw [hf] at h; exact (Except.error.inj h).symm
  | some f =>
    rw [hf] at h
    dsimp only at h
    split at h
    · split at h
      · cases h
      · cases h
    · cases h

/-- A connection with a packet to send gets no exception out of `handle_write`. -/
theorem stop_handleWrite {c : TftpServerConnection} {s : SendResult} {t : Stop}
    (hw : c.waitForWrite = true) (h : (c.handleWrite s).next = .error t) : t = .nullFile := by
  cases hc : c.state with
  | waitForAck => simp [waitForWrite, hc] at hw
  | waitForData => simp [waitForWrite, hc] at hw
  | sendAck =>
    cases s <;> simp [handleWrite, hc, handleWriteAck] at h
    split at h <;> cases h
  | sendOack =>
    cases s <;> simp [handleWrite, hc, handleWriteOack] at h
    split at h <;> cases h
  | error => cases s <;> simp [handleWrite, hc, handleWriteError] at h
  | sendData =>
    rw [handleWrite, hc] at h
    dsimp only at h
    rw [handleWriteData] at h
    split at h
    · cases s <;> cases h
    · split at h
      · next hr => exact (Except.error.inj h) ▸ stop_readInTo hr
      · dsimp only at h
        split at h
        · cases h
        · cases s <;> cases h

end TftpServerConnection

/-! ### Batches -/

/-- A descriptor that the loop polls. -/
inductive Descriptor where
  | listening
  | socket (i : Nat)
  | timer (i : Nat)
  deriving DecidableEq, Repr

namespace Occurrence

/-- Which descriptor an event is about. -/
def descriptor : Occurrence → Option Descriptor
  | .requests _ => some .listening
  | .socket i _ _ _ => some (.socket i)
  | .timer i _ => some (.timer i)
  | .arrival _ | .tick _ => none

/-- What `epoll_wait` can report: events for registered descriptors, and for a socket only what
it is polled for, besides errors. -/
def Reported (s : TftpServer) : Occurrence → Prop
  | .socket i events _ _ => ∃ r, s.clientConnections[i]? = some r ∧
      (events.epollin = true → r.interest = .read) ∧
      (events.epollout = true → r.interest = .write)
  | .timer i _ => i < s.clientConnections.length
  | _ => True

/-- An event that leads to `handle_write` finds a packet to send. -/
def Ready (s : TftpServer) : Occurrence → Prop
  | .socket i events _ _ => ∃ r, s.clientConnections[i]? = some r ∧
      (events.epollin = false → events.epollout = true → r.conn.waitForWrite = true)
  | _ => True

end Occurrence

namespace TftpServer

/-- A batch holds at most one event for each descriptor, collected in the state `s`. -/
structure Collected (s : TftpServer) (batch : List Occurrence) : Prop where
  once : (batch.filterMap Occurrence.descriptor).Nodup
  reported : ∀ o ∈ batch, o.Reported s

/-- What `epoll_wait` comes back with fits the state in which it blocked. -/
def Answers (s : TftpServer) : EpollWait → Prop
  | .events batch => s.Collected batch
  | _ => True

/-- Every socket is polled for what its connection waits for. -/
def InterestMatches (s : TftpServer) : Prop :=
  ∀ r ∈ s.clientConnections, (r.interest = .read ↔ r.conn.waitForRead = true) ∧
    (r.interest = .write ↔ r.conn.waitForWrite = true)

/-- The same with the function that the loop computes. -/
def Polled (s : TftpServer) : Prop := ∀ r ∈ s.clientConnections, r.interest = r.conn.interest

theorem Polled.interestMatches {s : TftpServer} (h : s.Polled) : s.InterestMatches := by
  intro r hr
  rw [h r hr]
  exact ⟨r.conn.interest_eq_read_iff, r.conn.interest_eq_write_iff⟩

/-- `handle_write` was called with a packet to send and threw no `Error state`. -/
def SendsReady : ServerAction → Prop
  | .called _ (.writable snd) c =>
      c.waitForWrite = true ∧ (c.handleWrite snd).next ≠ .error (.exception "Error state")
  | _ => True

/-! ### One occurrence -/

theorem Polled.set {s : TftpServer} (h : s.Polled) (i : Nat) (c : TftpServerConnection) :
    ({ s with clientConnections := s.clientConnections.set i ⟨c, c.interest⟩ } :
      TftpServer).Polled := by
  intro r hr
  rcases List.mem_or_eq_of_mem_set hr with hr | rfl
  · exact h r hr
  · rfl

/-- Servicing a connection registers it for what it waits for then. -/
theorem serviceClient_meets {b : Build} {s : TftpServer} (h : s.Polled) (i : Nat)
    (event : Option TftpServerConnection.Event)
    (he : ∀ snd r, event = some (.writable snd) → s.clientConnections[i]? = some r →
      r.conn.waitForWrite = true) :
    (s.serviceClient b i event).Meets SendsReady Polled fun _ ↦ True := by
  rw [serviceClient]
  cases hc : s.clientConnections[i]? with
  | none => exact Outcome.meets_ok_nil h
  | some registered =>
    cases event with
    | none => exact Outcome.meets_ok_nil (h.set i _)
    | some e =>
      have hcall : SendsReady (.called i e registered.conn) := by
        cases e with
        | writable snd =>
          have hw := he snd registered rfl hc
          refine ⟨hw, fun hn ↦ ?_⟩
          exact Stop.noConfusion (TftpServerConnection.stop_handleWrite hw hn)
        | _ => trivial
      have hlog : ∀ a ∈ [ServerAction.called i e registered.conn], SendsReady a := by
        intro a ha
        rw [List.mem_singleton.mp ha]
        exact hcall
      dsimp only
      split
      · exact Outcome.meets_stop hlog trivial
      · exact Outcome.meets_ok hlog (h.set i _)

theorem acceptRequests_meets {s : TftpServer} (h : s.Polled)
    (worlds : Nat → Except Stop World) (queue : List RequestT) :
    (s.acceptRequests worlds queue).Meets SendsReady Polled fun _ ↦ True := by
  induction queue generalizing s worlds with
  | nil => exact Outcome.meets_ok_nil h
  | cons newRequest queue ih =>
    rw [acceptRequests]
    split
    · split
      · exact Outcome.meets_stop_nil trivial
      · refine (ih ?_ _).after ?_
        · intro r hr
          rcases List.mem_append.mp hr with hr | hr
          · exact h r hr
          · rw [List.mem_singleton.mp hr]
        · intro a ha
          rw [List.mem_singleton.mp ha]
          trivial
    · exact Outcome.meets_ok_nil h

/-- One occurrence keeps every registration in step and calls no handler too early. -/
theorem handle_meets {b : Build} {s : TftpServer} {o : Occurrence} (h : s.Polled)
    (ho : o.Ready s) : (s.handle b o).Meets SendsReady Polled fun _ ↦ True := by
  cases o with
  | requests worlds =>
    rw [handle, handleRequests]
    split
    · exact Outcome.meets_stop_nil trivial
    · next connHandler _ => exact acceptRequests_meets (s := { s with connHandler }) h _ _
  | socket i events r snd =>
    apply serviceClient_meets h
    intro snd' reg he hi
    obtain ⟨reg', hi', hw⟩ := ho
    obtain rfl : reg = reg' := Option.some.inj (hi.symm.trans hi')
    rw [selectHandler] at he
    split at he
    · cases he
    · next hin =>
      split at he
      · next hout => exact hw (by simpa using hin) hout
      · split at he
        · cases he
        · cases he
  | timer i r =>
    rw [handle]
    apply serviceClient_meets h
    intro snd' reg he
    cases he
  | arrival a =>
    refine Outcome.meets_ok (fun x hx ↦ ?_) h
    rw [List.mem_singleton.mp hx]
    trivial
  | tick i =>
    refine Outcome.meets_ok_nil fun r hr ↦ ?_
    obtain ⟨k, hk⟩ := List.mem_iff_getElem?.mp hr
    rw [List.getElem?_modify] at hk
    obtain ⟨r', hr', rfl⟩ := Option.map_eq_some_iff.mp hk
    have hp := h r' (List.mem_of_getElem? hr')
    split
    · exact hp
    · exact hp

/-! ### A batch -/

/-- What servicing one connection leaves of the others, and of itself without `handle_write`. -/
theorem exists_after_serviceClient {b : Build} {s s' : TftpServer} {i j : Nat}
    {event : Option TftpServerConnection.Event} {l : List ServerAction} {r : Registered}
    (h : s.serviceClient b i event = .ok l s') (hj : s.clientConnections[j]? = some r) :
    ∃ r', s'.clientConnections[j]? = some r' ∧
      (r'.conn = r.conn ∨
        i = j ∧ ∃ e, event = some e ∧
          (TftpServerConnection.step b r.conn e).next = .ok r'.conn) := by
  rw [serviceClient] at h
  split at h
  · obtain ⟨-, rfl⟩ := Outcome.ok_inj.mp h
    exact ⟨r, hj, .inl rfl⟩
  · next registered hi =>
    by_cases hij : i = j
    · subst hij
      obtain rfl : registered = r := Option.some.inj (hi.symm.trans hj)
      obtain ⟨hlt, -⟩ := List.getElem?_eq_some_iff.mp hi
      split at h
      · obtain ⟨-, rfl⟩ := Outcome.ok_inj.mp h
        exact ⟨_, List.getElem?_set_self hlt, .inl rfl⟩
      · next e =>
        split at h
        · exact absurd h Outcome.stop_ne_ok
        · next conn hc =>
          obtain ⟨-, rfl⟩ := Outcome.ok_inj.mp h
          exact ⟨_, List.getElem?_set_self hlt, .inr ⟨rfl, e, rfl, hc⟩⟩
    · split at h
      · obtain ⟨-, rfl⟩ := Outcome.ok_inj.mp h
        exact ⟨r, by rw [List.getElem?_set_ne hij]; exact hj, .inl rfl⟩
      · split at h
        · exact absurd h Outcome.stop_ne_ok
        · obtain ⟨-, rfl⟩ := Outcome.ok_inj.mp h
          exact ⟨r, by rw [List.getElem?_set_ne hij]; exact hj, .inl rfl⟩

/-- A connection with a packet to send still has one behind everything but its own socket's
event. -/
theorem waitForWrite_after_handle {b : Build} {s s' : TftpServer} {o : Occurrence}
    {l : List ServerAction} {j : Nat} {r : Registered} (h : s.handle b o = .ok l s')
    (hj : s.clientConnections[j]? = some r) (ho : o.descriptor ≠ some (.socket j)) :
    ∃ r', s'.clientConnections[j]? = some r' ∧
      (r.conn.waitForWrite = true → r'.conn.waitForWrite = true) := by
  cases o with
  | requests worlds =>
    rw [handle, handleRequests] at h
    split at h
    · exact absurd h Outcome.stop_ne_ok
    · obtain ⟨new, hc, -⟩ := (accepted_acceptRequests h).connections
      obtain ⟨hlt, -⟩ := List.getElem?_eq_some_iff.mp hj
      refine ⟨r, ?_, id⟩
      rw [hc, List.getElem?_append_left hlt]
      exact hj
  | socket i events rr snd =>
    obtain ⟨r', hr', hc⟩ := exists_after_serviceClient h hj
    rcases hc with hc | ⟨rfl, -⟩
    · exact ⟨r', hr', fun hw ↦ hc ▸ hw⟩
    · exact absurd rfl ho
  | timer i rr =>
    rw [handle] at h
    obtain ⟨r', hr', hc⟩ := exists_after_serviceClient h hj
    refine ⟨r', hr', fun hw ↦ ?_⟩
    rcases hc with hc | ⟨rfl, e, he, hstep⟩
    · exact hc ▸ hw
    · obtain rfl := Option.some.inj he
      have hs := TftpServerConnection.state_handleRead_of_waitForWrite hw
        (Outcome.eq_ok_of_next hstep)
      rw [TftpServerConnection.waitForWrite, hs]
      exact hw
  | arrival a =>
    obtain ⟨-, rfl⟩ := Outcome.ok_inj.mp h
    exact ⟨r, hj, id⟩
  | tick i =>
    obtain ⟨-, rfl⟩ := Outcome.ok_inj.mp h
    refine ⟨_, by rw [List.getElem?_modify, hj]; rfl, fun hw ↦ ?_⟩
    split
    · exact hw
    · exact hw

/-- Events for other descriptors do not make an event of the batch come too early. -/
theorem ready_after_handle {b : Build} {s s' : TftpServer} {o o' : Occurrence}
    {l : List ServerAction} (h : s.handle b o = .ok l s') (hr : o'.Ready s)
    (hd : ∀ d, o'.descriptor = some d → o.descriptor ≠ some d) : o'.Ready s' := by
  cases o' with
  | socket j events rr snd =>
    obtain ⟨r, hj, hw⟩ := hr
    obtain ⟨r', hr', hk⟩ := waitForWrite_after_handle h hj (hd _ rfl)
    exact ⟨r', hr', fun hin hout ↦ hk (hw hin hout)⟩
  | _ => trivial

/-- In a batch with one event for each descriptor every event comes in time. -/
theorem along_ready {b : Build} {s : TftpServer} {batch : List Occurrence}
    (hn : (batch.filterMap Occurrence.descriptor).Nodup) (hr : ∀ o ∈ batch, o.Ready s) :
    Along (TftpServer.handle b) (fun s o ↦ o.Ready s) s batch := by
  induction batch generalizing s with
  | nil => trivial
  | cons o batch ih =>
    refine ⟨hr o List.mem_cons_self, fun l s' hs ↦ ih ?_ fun o' ho' ↦ ?_⟩
    · cases hd : o.descriptor with
      | none => rwa [List.filterMap_cons_none hd] at hn
      | some d => exact (List.nodup_cons.mp (List.filterMap_cons_some hd ▸ hn)).2
    · apply ready_after_handle hs (hr o' (List.mem_cons_of_mem o ho'))
      intro d hd' hd
      rw [List.filterMap_cons_some hd] at hn
      exact (List.nodup_cons.mp hn).1 (List.mem_filterMap.mpr ⟨o', ho', hd'⟩)

/-- What was reported under the registrations of a state in step with them is in time. -/
theorem ready_of_reported {s : TftpServer} {o : Occurrence} (h : s.Polled)
    (hr : o.Reported s) : o.Ready s := by
  cases o with
  | socket i events r snd =>
    obtain ⟨reg, hi, -, hout⟩ := hr
    refine ⟨reg, hi, fun _ he ↦ ?_⟩
    apply reg.conn.interest_eq_write_iff.mp
    rw [← h reg (List.mem_of_getElem? hi)]
    exact hout he
  | _ => trivial

/-! ### Runs -/

theorem cleanUp_meets (n : EndIncrement) {s : TftpServer} (h : s.Polled) :
    (s.cleanUp n).Meets SendsReady Polled fun _ ↦ True := by
  refine ⟨fun a ha ↦ ?_, fun s' hs r hr ↦ ?_, fun _ _ ↦ trivial⟩
  · rcases log_cleanUp n s ha with rfl | ⟨r, rfl⟩
    · trivial
    · trivial
  · exact h r ((sublist_of_cleanUp (Outcome.eq_ok_of_next hs)).subset hr)

theorem iterate_meets (n : EndIncrement) {b : Build} {s : TftpServer} {e : EpollWait}
    (h : s.Polled) (ha : s.Answers e) :
    (s.iterate n b e).Meets SendsReady Polled fun _ ↦ True := by
  cases e with
  | interrupted => exact Outcome.meets_ok_nil h
  | failed => exact Outcome.meets_stop_nil trivial
  | events batch =>
    have hb : (exec (TftpServer.handle b) s batch).Meets SendsReady Polled fun _ ↦ True := by
      apply exec_meets (along_ready ha.once fun o ho ↦ ready_of_reported h (ha.reported o ho)) h
      intro c o hc ho
      exact handle_meets hc ho
    exact hb.andThen fun s' hs' ↦ cleanUp_meets n hs'

/-- At every wait of every run each socket is polled for exactly what its connection waits for,
and in the whole run `handle_write` is called only with a packet to send. -/
theorem interest_matches {max : Nat} {n : EndIncrement} {b : Build} {waits : List EpollWait}
    (ha : Along (iterate n b) Answers (start max) waits) :
    (∀ s, (exec (iterate n b) (start max) waits).next = .ok s → s.InterestMatches) ∧
      ∀ i snd c,
        .called i (.writable snd) c ∈ (exec (iterate n b) (start max) waits).log →
          c.waitForWrite = true ∧
            (c.handleWrite snd).next ≠ .error (.exception "Error state") := by
  have h0 : (start max).Polled := fun r hr ↦ absurd hr List.not_mem_nil
  have hm := exec_meets ha h0 fun c e hc he ↦ iterate_meets n hc he
  exact ⟨fun s hs ↦ (hm.returned s hs).interestMatches, fun i snd c hc ↦ hm.log _ hc⟩

/-- A socket can be written to, and the timer of the same connection is read behind it. -/
def sendThenTimer : List Occurrence :=
  [.socket 0 { epollout := true } .wouldBlock .sent, .timer 0 .wouldBlock]

/-- Three requests at two slots, and both descriptors of one of the two connections. -/
theorem interest_sendThenTimer :
    (∀ s, (exec (iterate .wraps .release) (start 2)
        [.events threeRequests, .events sendThenTimer]).next = .ok s → s.InterestMatches) ∧
      ∀ i snd c,
        .called i (.writable snd) c ∈ (exec (iterate .wraps .release) (start 2)
            [.events threeRequests, .events sendThenTimer]).log →
          c.waitForWrite = true ∧
            (c.handleWrite snd).next ≠ .error (.exception "Error state") := by
  obtain ⟨l, hb⟩ := runs_threeRequests
  have h₁ : (start 2).Collected threeRequests := by
    refine ⟨by decide, fun o ho ↦ ?_⟩
    simp only [threeRequests, List.mem_cons, List.not_mem_nil, or_false] at ho
    rcases ho with rfl | rfl | rfl | rfl <;> trivial
  have h₂ : Collected ⟨2, ⟨[], [someRequest]⟩, [someClient, someClient]⟩ sendThenTimer := by
    refine ⟨by decide, fun o ho ↦ ?_⟩
    simp only [sendThenTimer, List.mem_cons, List.not_mem_nil, or_false] at ho
    rcases ho with rfl | rfl
    · exact ⟨someClient, rfl, nofun, fun _ ↦ rfl⟩
    · exact Nat.zero_lt_two
  exact interest_matches (Along.cons h₁ (iterate_inside .wraps hb rfl)
    ⟨h₂, fun _ _ _ ↦ trivial⟩)

end TftpServer
end CppTftp
