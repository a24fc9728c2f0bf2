import CppTftp.Lib.Interleaving
import CppTftp.Server.Interest
import CppTftp.Server.Sessions

/-!
# The order of the events in a batch

`epoll_wait` reports the events of a batch in any order. What the server does with them
depends only on their order for each connection, and for the listening socket.
-/

namespace CppTftp

open Lib

namespace Occurrence

/-- Which connection an occurrence is about; none is the listening socket. -/
def target : Occurrence → Option Nat
  | .requests _ | .arrival _ => none
  | .socket i _ _ _ | .timer i _ | .tick i => some i

/-- The connection that an occurrence is about is there. -/
def Present (s : TftpServer) (o : Occurrence) : Prop :=
  ∀ i, o.target = some i → i < s.clientConnections.length

/-- The events of the connection `i` in an occurrence: at most one. -/
def eventOf (i : Nat) : Occurrence → Option TftpServerConnection.Event
  | .socket j events r s => if j = i then TftpServer.selectHandler events r s else none
  | .timer j r => if j = i then some (.readable r) else none
  | .tick j => if j = i then some .tick else none
  | .requests _ | .arrival _ => none

end Occurrence

namespace TftpServer

open ServerAction

variable {b : Build} {s s' : TftpServer} {l : List ServerAction} {o : Occurrence}

/-! ### What an occurrence depends on -/

/-- The loop over new requests looks at the number of connections only, and adds to them. -/
theorem acceptRequests_other {worlds : Nat → Except Stop World} {queue : List RequestT}
    (h : s.acceptRequests worlds queue = .ok l s') : ∃ connHandler new,
      s' = { s with connHandler, clientConnections := s.clientConnections ++ new } ∧
      ∀ cs, cs.length = s.clientConnections.length →
        ({ s with clientConnections := cs } : TftpServer).acceptRequests worlds queue =
          .ok l { s with connHandler, clientConnections := cs ++ new } := by
  induction queue generalizing worlds s l with
  | nil =>
    obtain ⟨rfl, rfl⟩ := Outcome.ok_inj.mp h
    refine ⟨_, [], by rw [List.append_nil], fun cs _ ↦ ?_⟩
    rw [List.append_nil]
    rfl
  | cons newRequest queue ih =>
    rw [acceptRequests] at h
    split at h
    · next hfree =>
      split at h
      · exact absurd h Outcome.stop_ne_ok
      · next w hw =>
        obtain ⟨log, hr, rfl⟩ := Outcome.after_eq_ok_iff.mp h
        obtain ⟨connHandler, new, rfl, hall⟩ := ih hr
        refine ⟨connHandler, _ :: new, by rw [List.append_assoc]; rfl, fun cs hcs ↦ ?_⟩
        rw [acceptRequests, if_pos (by rw [hcs]; exact hfree), hw]
        dsimp only
        rw [hall (cs ++ [_]) (by simp [hcs]), List.append_assoc]
        rfl
    · next hfull =>
      obtain ⟨rfl, rfl⟩ := Outcome.ok_inj.mp h
      refine ⟨_, [], by rw [List.append_nil], fun cs hcs ↦ ?_⟩
      rw [acceptRequests, if_neg (by rw [hcs]; exact hfull), List.append_nil]

/-- What the listening socket does is the same for all connections that are there. -/
theorem handle_listening (ho : o.target = none) (h : s.handle b o = .ok l s') :
    ∃ connHandler new,
      s' = { s with connHandler, clientConnections := s.clientConnections ++ new } ∧
      ∀ cs, cs.length = s.clientConnections.length →
        ({ s with clientConnections := cs } : TftpServer).handle b o =
          .ok l { s with connHandler, clientConnections := cs ++ new } := by
  cases o with
  | requests worlds =>
    rw [handle, handleRequests] at h
    split at h
    · exact absurd h Outcome.stop_ne_ok
    · next connHandler hd =>
      obtain ⟨connHandler', new, rfl, hall⟩ := acceptRequests_other h
      refine ⟨connHandler', new, rfl, fun cs hcs ↦ ?_⟩
      rw [handle, handleRequests]
      dsimp only
      rw [hd]
      exact hall cs hcs
  | arrival a =>
    obtain ⟨rfl, rfl⟩ := Outcome.ok_inj.mp h
    refine ⟨_, [], by rw [List.append_nil], fun cs _ ↦ ?_⟩
    rw [List.append_nil]
    rfl
  | socket i events r snd => cases ho
  | timer i r => cases ho
  | tick i => cases ho

/-- Servicing a connection looks at that connection only, which takes the event's step. -/
theorem serviceClient_other {i : Nat} {event : Option TftpServerConnection.Event} {r : Registered}
    (hr : s.clientConnections[i]? = some r) (h : s.serviceClient b i event = .ok l s') : ∃ r',
      (∃ log, Runs (TftpServerConnection.step b) r.conn event.toList log r'.conn) ∧
      s' = { s with clientConnections := s.clientConnections.set i r' } ∧
      ∀ s₁ : TftpServer, s₁.clientConnections[i]? = some r →
        s₁.serviceClient b i event =
          .ok l { s₁ with clientConnections := s₁.clientConnections.set i r' } := by
  rw [serviceClient, hr] at h
  cases event with
  | none =>
    obtain ⟨rfl, rfl⟩ := Outcome.ok_inj.mp h
    refine ⟨{ r with interest := r.conn.interest }, ⟨[], Runs.nil _⟩, rfl, fun s₁ h₁ ↦ ?_⟩
    rw [serviceClient, h₁]
  | some e =>
    dsimp only at h
    split at h
    · exact absurd h Outcome.stop_ne_ok
    · next conn hc =>
      obtain ⟨rfl, rfl⟩ := Outcome.ok_inj.mp h
      refine ⟨_, ⟨_, Runs.cons (Outcome.eq_ok_of_next hc) (Runs.nil _)⟩, rfl, fun s₁ h₁ ↦ ?_⟩
      rw [serviceClient, h₁]
      dsimp only
      rw [hc]

/-- An occurrence for a connection looks at that connection only, which takes its step. -/
theorem handle_local {i : Nat} {r : Registered} (ho : o.target = some i)
    (hr : s.clientConnections[i]? = some r) (h : s.handle b o = .ok l s') : ∃ r',
      (∃ log, Runs (TftpServerConnection.step b) r.conn (o.eventOf i).toList log r'.conn) ∧
      s' = { s with clientConnections := s.clientConnections.set i r' } ∧
      ∀ s₁ : TftpServer, s₁.clientConnections[i]? = some r →
        s₁.handle b o = .ok l { s₁ with clientConnections := s₁.clientConnections.set i r' } := by
  cases o with
  | requests worlds => cases ho
  | arrival a => cases ho
  | socket j events rr snd =>
    obtain rfl := Option.some.inj ho
    rw [Occurrence.eventOf, if_pos rfl]
    exact serviceClient_other hr h
  | timer j rr =>
    obtain rfl := Option.some.inj ho
    rw [Occurrence.eventOf, if_pos rfl]
    rw [handle] at h
    obtain ⟨r', hrun, hs', hall⟩ := serviceClient_other hr h
    exact ⟨r', hrun, hs', fun s₁ h₁ ↦ by rw [handle]; exact hall s₁ h₁⟩
  | tick j =>
    obtain rfl := Option.some.inj ho
    obtain ⟨rfl, rfl⟩ := Outcome.ok_inj.mp h
    have hmodify : ∀ s₁ : TftpServer, s₁.clientConnections[j]? = some r →
        s₁.clientConnections.modify j Registered.elapse =
          s₁.clientConnections.set j r.elapse := by
      intro s₁ h₁
      rw [List.modify_eq_set_getElem?, h₁]
      rfl
    rw [Occurrence.eventOf, if_pos rfl]
    refine ⟨r.elapse, ⟨[], Runs.cons (l := []) rfl (Runs.nil _)⟩, ?_, fun s₁ h₁ ↦ ?_⟩
    · rw [hmodify s hr]
    · rw [handle, hmodify s₁ h₁]

/-! ### The order of a batch -/

/-- Setting two different positions, in either order. -/
private theorem other_position {γ : Type} {xs : List γ} {i j : Nat} {x y : γ} (h : i ≠ j)
    (hj : xs[j]? = some y) : (xs.set i x)[j]? = some y := by
  rw [List.getElem?_set_ne h]
  exact hj

/-- Events for different connections, or for a connection and the listening socket, commute. -/
theorem commutes_handle (b : Build) :
    Commutes (TftpServer.handle b) Occurrence.target fun s o ↦ o.Present s := by
  have hfound : ∀ {s : TftpServer} {o : Occurrence} {i : Nat}, o.target = some i → o.Present s →
      ∃ r, s.clientConnections[i]? = some r := by
    intro s o i ho hp
    exact ⟨_, List.getElem?_eq_getElem (hp i ho)⟩
  constructor
  · intro s s' e f l he hf hs i hi
    cases ht : e.target with
    | none =>
      obtain ⟨connHandler, new, rfl, -⟩ := handle_listening ht hs
      rw [List.length_append]
      exact Nat.lt_add_right _ (hf i hi)
    | some j =>
      obtain ⟨r, hr⟩ := hfound ht he
      obtain ⟨r', -, rfl, -⟩ := handle_local ht hr hs
      rw [List.length_set]
      exact hf i hi
  · intro s s₁ s₂ e f l₁ l₂ hne he hf h₁ h₂
    cases ht : e.target with
    | none =>
      obtain ⟨connHandler, new, rfl, hall⟩ := handle_listening ht h₁
      cases hu : f.target with
      | none => exact absurd (ht.trans hu.symm) hne
      | some j =>
        obtain ⟨r, hr⟩ := hfound hu hf
        have hlt := hf j hu
        have hr₁ : (s.clientConnections ++ new)[j]? = some r := by
          rw [List.getElem?_append_left hlt]
          exact hr
        obtain ⟨r', -, rfl, hback⟩ := handle_local hu hr₁ h₂
        refine ⟨_, hback s hr, ?_⟩
        rw [hall _ List.length_set, List.set_append_left _ _ hlt]
    | some i =>
      obtain ⟨r, hr⟩ := hfound ht he
      obtain ⟨r', -, rfl, hall⟩ := handle_local ht hr h₁
      cases hu : f.target with
      | none =>
        obtain ⟨connHandler, new, rfl, hback⟩ := handle_listening hu h₂
        have hlt := he i ht
        have hback := hback s.clientConnections List.length_set.symm
        refine ⟨_, hback, ?_⟩
        have hr₁ : (s.clientConnections ++ new)[i]? = some r := by
          rw [List.getElem?_append_left hlt]
          exact hr
        rw [hall _ hr₁, List.set_append_left _ _ hlt]
      | some j =>
        have hij : i ≠ j := fun hij ↦ hne (ht.trans (hij ▸ hu.symm))
        obtain ⟨y, hy⟩ := hfound hu hf
        obtain ⟨y', -, rfl, hback⟩ := handle_local hu (other_position hij hy) h₂
        refine ⟨_, hback s hy, ?_⟩
        rw [hall _ (other_position hij.symm hr), List.set_comm _ _ hij.symm]

/-- Whatever order `epoll_wait` reports a batch in, the events of each connection and those of
the listening socket keeping theirs: the server comes to the same state by the same calls. -/
theorem batch_order_irrelevant {batch batch' : List Occurrence}
    (hp : ∀ o ∈ batch, o.Present s)
    (hsame : ∀ k, batch.filter (·.target = k) = batch'.filter (·.target = k))
    (hr : Runs (TftpServer.handle b) s batch l s') :
    ∃ l', Runs (TftpServer.handle b) s batch' l' s' ∧ l.Perm l' :=
  (Runs.interleaved (commutes_handle b) (interleaved_of_filter_eq hsame) hp hr).2

/-- Two connections of which nothing is known yet. -/
def twoClients : TftpServer where
  maxClients := 2
  clientConnections := [someClient, someClient]

/-- The same with an error on the first socket. -/
def firstFailed : TftpServer where
  maxClients := 2
  clientConnections := [⟨someClient.conn.setFinished true, .write⟩, someClient]

/-- The error of one socket and the timer of the other connection. -/
def failAndTick : List Occurrence :=
  [.socket 0 { epollerr := true } .wouldBlock .wouldBlock, .tick 1]

private theorem present_failAndTick : ∀ o ∈ failAndTick, o.Present twoClients := by
  intro o ho i hi
  simp only [failAndTick, List.mem_cons, List.not_mem_nil, or_false] at ho
  rcases ho with rfl | rfl
  · obtain rfl := Option.some.inj hi
    decide
  · obtain rfl := Option.some.inj hi
    decide

private theorem runs_failAndTick : Runs (TftpServer.handle .release) twoClients failAndTick
    [.called 0 .hangup someClient.conn] firstFailed := rfl

/-- They may come in either order. -/
theorem failAndTick_either_order : ∃ l',
    Runs (TftpServer.handle .release) twoClients
      [.tick 1, .socket 0 { epollerr := true } .wouldBlock .wouldBlock] l' firstFailed ∧
    [ServerAction.called 0 .hangup someClient.conn].Perm l' := by
  refine batch_order_irrelevant present_failAndTick (fun k ↦ ?_) runs_failAndTick
  by_cases h0 : some 0 = k
  · subst h0
    rfl
  · by_cases h1 : some 1 = k
    · subst h1
      rfl
    · simp [failAndTick, Occurrence.target, h0, h1]

/-! ### One connection in a batch -/

/-- In an occurrence, a connection takes the step of its own event, if it has one. -/
theorem handle_projects {i : Nat} {r : Registered} (ho : o.Present s)
    (hi : s.clientConnections[i]? = some r) (hs : s.handle b o = .ok l s') : ∃ r' log,
      s'.clientConnections[i]? = some r' ∧
      Runs (TftpServerConnection.step b) r.conn (o.eventOf i).toList log r'.conn := by
  have hother : o.target ≠ some i → o.eventOf i = none := by
    intro hne
    cases o with
    | requests => rfl
    | arrival => rfl
    | socket j => exact if_neg fun hj ↦ hne (congrArg some hj)
    | timer j => exact if_neg fun hj ↦ hne (congrArg some hj)
    | tick j => exact if_neg fun hj ↦ hne (congrArg some hj)
  cases ht : o.target with
  | none =>
    obtain ⟨connHandler, new, rfl, -⟩ := handle_listening ht hs
    rw [hother (by rw [ht]; exact (Option.some_ne_none i).symm)]
    refine ⟨r, [], ?_, Runs.nil _⟩
    rw [List.getElem?_append_left (List.getElem?_eq_some_iff.mp hi).1]
    exact hi
  | some j =>
    by_cases hij : j = i
    · subst hij
      obtain ⟨r₁, ⟨log, hrun⟩, rfl, -⟩ := handle_local ht hi hs
      exact ⟨r₁, log, List.getElem?_set_self (ho j ht), hrun⟩
    · obtain ⟨r₁, -, rfl, -⟩ := handle_local ht (List.getElem?_eq_getElem (ho j ht)) hs
      rw [hother (by rw [ht]; exact fun he ↦ hij (Option.some.inj he))]
      exact ⟨r, [], other_position hij hi, Runs.nil _⟩

/-- In a batch, a connection takes the steps of its own events, and no others: nothing that
comes for other connections or for the listening socket reaches it. -/
theorem batch_projects {batch : List Occurrence} {i : Nat} {r : Registered}
    (hp : ∀ o ∈ batch, o.Present s) (hi : s.clientConnections[i]? = some r)
    (hr : Runs (TftpServer.handle b) s batch l s') : ∃ r' log,
      s'.clientConnections[i]? = some r' ∧
      Runs (TftpServerConnection.step b) r.conn (batch.filterMap (Occurrence.eventOf i)) log
        r'.conn := by
  induction batch generalizing s l r with
  | nil =>
    obtain ⟨rfl, rfl⟩ := Outcome.ok_inj.mp hr
    exact ⟨r, [], hi, Runs.nil _⟩
  | cons o batch ih =>
    obtain ⟨l₁, s₁, l₂, hs, hrest, rfl⟩ := runs_cons_iff.mp hr
    have ho := hp o List.mem_cons_self
    have hp₁ : ∀ o' ∈ batch, o'.Present s₁ := fun o' ho' ↦
      (commutes_handle b).kept ho (hp o' (List.mem_cons_of_mem o ho')) hs
    obtain ⟨r₁, log₁, h₁, hrun₁⟩ := handle_projects ho hi hs
    obtain ⟨r₂, log₂, h₂, hrun₂⟩ := ih hp₁ h₁ hrest
    refine ⟨r₂, log₁ ++ log₂, h₂, ?_⟩
    have happend := hrun₁.append hrun₂
    rw [List.filterMap_cons]
    cases he : o.eventOf i with
    | none =>
      rw [he] at happend
      exact happend
    | some e =>
      rw [he] at happend
      exact happend

/-- The second connection does not notice that the socket of the first one fails. -/
theorem second_projects : ∃ r' log, firstFailed.clientConnections[1]? = some r' ∧
    Runs (TftpServerConnection.step .release) someClient.conn [.tick] log r'.conn := by
  have hi : twoClients.clientConnections[1]? = some someClient := rfl
  exact batch_projects present_failAndTick hi runs_failAndTick

end TftpServer
end CppTftp
