import CppTftp.Server.CleanUp

/-!
# From the listening socket to the connections

A request passes from the socket to the queue and from the queue to a connection. Nothing is
lost, repeated or reordered on the way; what can happen is that a request waits in the queue
although a connection has gone.
-/

namespace CppTftp

open Lib Utils Tftp

namespace ServerAction

/-- What reached the listening socket. -/
def arrivals (log : List ServerAction) : List Arrival :=
  log.filterMap fun
    | .arrived a => some a
    | _ => none

/-- The requests for which connections were created. -/
def creations (log : List ServerAction) : List RequestT :=
  log.filterMap fun
    | .created r => some r
    | _ => none

@[simp] theorem arrivals_append (l l' : List ServerAction) :
    arrivals (l ++ l') = arrivals l ++ arrivals l' := List.filterMap_append

@[simp] theorem creations_append (l l' : List ServerAction) :
    creations (l ++ l') = creations l ++ creations l' := List.filterMap_append

/-- Neither an arrival nor a creation. -/
def Internal : ServerAction → Prop
  | .arrived _ | .created _ => False
  | _ => True

theorem arrivals_of_internal {l : List ServerAction} (h : ∀ a ∈ l, a.Internal) :
    arrivals l = [] := by
  apply List.filterMap_eq_nil_iff.mpr
  intro a ha
  cases a with
  | arrived a => exact (h _ ha).elim
  | _ => rfl

theorem creations_of_internal {l : List ServerAction} (h : ∀ a ∈ l, a.Internal) :
    creations l = [] := by
  apply List.filterMap_eq_nil_iff.mpr
  intro a ha
  cases a with
  | created r => exact (h _ ha).elim
  | _ => rfl

theorem arrivals_created (rs : List RequestT) : arrivals (rs.map .created) = [] := by
  apply List.filterMap_eq_nil_iff.mpr
  intro a ha
  obtain ⟨r, -, rfl⟩ := List.mem_map.mp ha
  rfl

theorem creations_created (rs : List RequestT) : creations (rs.map .created) = rs := by
  induction rs with
  | nil => rfl
  | cons r rs ih => exact congrArg (r :: ·) ih

end ServerAction

namespace TftpServer

open ServerAction TftpConnectionHandler

/-! ### What one occurrence does -/

/-- What the loop over new requests does with the queue. -/
structure Accepted (s : TftpServer) (queue : List RequestT) (l : List ServerAction)
    (s' : TftpServer) : Prop where
  maxClients : s'.maxClients = s.maxClients
  unread : s'.connHandler.unread = s.connHandler.unread
  served : ∃ taken, l = taken.map .created ∧ queue = taken ++ s'.connHandler.requestQueue
  connections : ∃ new, s'.clientConnections = s.clientConnections ++ new ∧
    ∀ r ∈ new, ∃ w request,
      r = ⟨.create w request, (TftpServerConnection.create w request).interest⟩
  within : s.clientConnections.length ≤ s.maxClients →
    s'.clientConnections.length ≤ s.maxClients
  full : s'.connHandler.requestQueue ≠ [] → s.maxClients ≤ s'.clientConnections.length

/-- The spec of the loop over new requests. -/
theorem accepted_acceptRequests {worlds : Nat → Except Stop World} {s s' : TftpServer}
    {queue : List RequestT} {l : List ServerAction}
    (h : s.acceptRequests worlds queue = .ok l s') : Accepted s queue l s' := by
  induction queue generalizing worlds s l with
  | nil =>
    obtain ⟨rfl, rfl⟩ := Outcome.ok_inj.mp h
    refine ⟨rfl, rfl, ⟨[], rfl, rfl⟩, ⟨[], ?_, ?_⟩, id, absurd rfl⟩
    · exact (List.append_nil _).symm
    · exact fun _ hr ↦ absurd hr List.not_mem_nil
  | cons newRequest queue ih =>
    rw [acceptRequests] at h
    split at h
    · next hfree =>
      split at h
      · exact absurd h Outcome.stop_ne_ok
      · next w hw =>
        obtain ⟨log, hr, rfl⟩ := Outcome.after_eq_ok_iff.mp h
        have a := ih hr
        obtain ⟨taken, ht, hq⟩ := a.served
        obtain ⟨new, hc, hnew⟩ := a.connections
        refine ⟨a.maxClients, a.unread, ⟨newRequest :: taken, ?_, ?_⟩, ?_, fun _ ↦ ?_, a.full⟩
        · rw [ht]
          rfl
        · rw [hq]
          rfl
        · refine ⟨_ :: new, by rw [hc, List.append_assoc]; rfl, fun r hr ↦ ?_⟩
          rcases List.mem_cons.mp hr with rfl | hr
          · exact ⟨w, newRequest.request, rfl⟩
          · exact hnew r hr
        · apply a.within
          show (s.clientConnections ++ [_]).length ≤ s.maxClients
          rw [List.length_append, List.length_singleton]
          omega
    · next hfull =>
      obtain ⟨rfl, rfl⟩ := Outcome.ok_inj.mp h
      refine ⟨rfl, rfl, ⟨[], rfl, rfl⟩, ⟨[], ?_, ?_⟩, id, fun _ ↦ Nat.not_lt.mp hfull⟩
      · exact (List.append_nil _).symm
      · exact fun _ hr ↦ absurd hr List.not_mem_nil

/-- Servicing a connection leaves the requests and the number of connections alone. -/
structure Serviced (s : TftpServer) (l : List ServerAction) (s' : TftpServer) : Prop where
  maxClients : s'.maxClients = s.maxClients
  connHandler : s'.connHandler = s.connHandler
  length : s'.clientConnections.length = s.clientConnections.length
  internal : ∀ a ∈ l, a.Internal

theorem serviced_serviceClient {b : Build} {s s' : TftpServer} {i : Nat}
    {event : Option TftpServerConnection.Event} {l : List ServerAction}
    (h : s.serviceClient b i event = .ok l s') : Serviced s l s' := by
  rw [serviceClient] at h
  split at h
  · obtain ⟨rfl, rfl⟩ := Outcome.ok_inj.mp h
    exact ⟨rfl, rfl, rfl, fun _ ha ↦ absurd ha List.not_mem_nil⟩
  · split at h
    · obtain ⟨rfl, rfl⟩ := Outcome.ok_inj.mp h
      exact ⟨rfl, rfl, List.length_set, fun _ ha ↦ absurd ha List.not_mem_nil⟩
    · split at h
      · exact absurd h Outcome.stop_ne_ok
      · obtain ⟨rfl, rfl⟩ := Outcome.ok_inj.mp h
        refine ⟨rfl, rfl, List.length_set, fun a ha ↦ ?_⟩
        rw [List.mem_singleton.mp ha]
        trivial

/-- Every occurrence takes in new requests, adds an arrival, or leaves the requests alone. -/
theorem handle_cases {b : Build} {s s' : TftpServer} {o : Occurrence} {l : List ServerAction}
    (h : s.handle b o = .ok l s') :
    (∃ connHandler, s.connHandler.handleRead = .ok connHandler ∧
      Accepted { s with connHandler } connHandler.requestQueue l s') ∨
    (∃ a, l = [.arrived a] ∧ s' = { s with
      connHandler := { s.connHandler with unread := s.connHandler.unread ++ [a] } }) ∨
    Serviced s l s' := by
  cases o with
  | requests worlds =>
    left
    rw [handle, handleRequests] at h
    split at h
    · exact absurd h Outcome.stop_ne_ok
    · next connHandler hd => exact ⟨connHandler, hd, accepted_acceptRequests h⟩
  | socket i events r snd => exact .inr (.inr (serviced_serviceClient h))
  | timer i r =>
    rw [handle] at h
    exact .inr (.inr (serviced_serviceClient h))
  | arrival a =>
    obtain ⟨rfl, rfl⟩ := Outcome.ok_inj.mp h
    exact .inr (.inl ⟨a, rfl, rfl⟩)
  | tick i =>
    obtain ⟨rfl, rfl⟩ := Outcome.ok_inj.mp h
    refine .inr (.inr ⟨rfl, rfl, ?_, fun _ ha ↦ absurd ha List.not_mem_nil⟩)
    exact List.length_modify _ _ _

/-! ### Requests are served in order -/

/-- Where the requests are that arrived, in order: with a connection, in the queue, or still
on the socket. And there are at most `max` connections. -/
structure InOrder (max : Nat) (log : List ServerAction) (s : TftpServer) : Prop where
  maxClients : s.maxClients = max
  requests : creations log ++ s.connHandler.requestQueue ++ requests s.connHandler.unread =
    requests (arrivals log)
  within : s.clientConnections.length ≤ max

theorem InOrder.handle {max : Nat} {b : Build} {log l : List ServerAction} {s s' : TftpServer}
    {o : Occurrence} (i : InOrder max log s) (h : s.handle b o = .ok l s') :
    InOrder max (log ++ l) s' := by
  rcases handle_cases h with ⟨connHandler, hd, a⟩ | ⟨a, rfl, rfl⟩ | v
  · obtain ⟨taken, rfl, hq⟩ := a.served
    have hm : s'.maxClients = max := a.maxClients.trans i.maxClients
    have hd := requests_drain hd
    refine ⟨hm, ?_, ?_⟩
    · rw [creations_append, creations_created, arrivals_append, arrivals_created,
        List.append_nil, a.unread, ← i.requests, List.append_assoc (creations log), ← hq]
      rw [List.append_assoc, hd, List.append_assoc]
    · rw [← i.maxClients]
      exact a.within (by rw [i.maxClients]; exact i.within)
  · refine ⟨i.maxClients, ?_, i.within⟩
    have hc : creations [.arrived a] = [] := rfl
    have ha : arrivals [.arrived a] = [a] := rfl
    rw [creations_append, hc, List.append_nil, arrivals_append, ha, requests_append,
      requests_append, ← i.requests, List.append_assoc _ _ (TftpConnectionHandler.requests [a])]
  · refine ⟨v.maxClients.trans i.maxClients, ?_, ?_⟩
    · rw [creations_append, arrivals_append, creations_of_internal v.internal,
        arrivals_of_internal v.internal, List.append_nil, List.append_nil, v.connHandler]
      exact i.requests
    · rw [v.length]
      exact i.within

theorem InOrder.batch {max : Nat} {b : Build} {log l : List ServerAction} {s s' : TftpServer}
    {batch : List Occurrence} (i : InOrder max log s)
    (hr : Runs (TftpServer.handle b) s batch l s') : InOrder max (log ++ l) s' := by
  apply hr.invariant (I := fun l s ↦ InOrder max (log ++ l) s)
  · rw [List.append_nil]
    exact i
  · intro l c e l' c' hi hs
    rw [← List.append_assoc]
    exact hi.handle hs

/-- The clean-up neither takes in requests nor creates connections. -/
theorem internal_cleanUp {n : EndIncrement} {s s' : TftpServer} {l : List ServerAction}
    (h : s.cleanUp n = .ok l s') : ∀ a ∈ l, a.Internal := by
  intro a ha
  have hlog : a ∈ (s.cleanUp n).log := by
    rw [h]
    exact ha
  rcases log_cleanUp n s hlog with rfl | ⟨r, rfl⟩
  · trivial
  · trivial

theorem InOrder.cleanUp {max : Nat} {n : EndIncrement} {log l : List ServerAction}
    {s s' : TftpServer} (i : InOrder max log s) (h : s.cleanUp n = .ok l s') :
    InOrder max (log ++ l) s' := by
  have hi := internal_cleanUp h
  obtain ⟨hc, hm⟩ := cleanUp_other h
  refine ⟨hm.trans i.maxClients, ?_, Nat.le_trans (sublist_of_cleanUp h).length_le i.within⟩
  rw [creations_append, arrivals_append, creations_of_internal hi, arrivals_of_internal hi,
    List.append_nil, List.append_nil, hc]
  exact i.requests

/-- An iteration that returns is an interrupted wait, or a batch and a clean-up. -/
theorem iterate_cases {n : EndIncrement} {b : Build} {s s' : TftpServer} {e : EpollWait}
    {l : List ServerAction} (h : s.iterate n b e = .ok l s') :
    (e = .interrupted ∧ l = [] ∧ s' = s) ∨
      ∃ batch l₁ s₁ l₂, e = .events batch ∧ Runs (TftpServer.handle b) s batch l₁ s₁ ∧
        s₁.cleanUp n = .ok l₂ s' ∧ l = l₁ ++ l₂ := by
  cases e with
  | interrupted =>
    obtain ⟨rfl, rfl⟩ := Outcome.ok_inj.mp h
    exact .inl ⟨rfl, rfl, rfl⟩
  | failed => exact absurd h Outcome.stop_ne_ok
  | events batch =>
    obtain ⟨l₁, s₁, l₂, hb, hc, hl⟩ := Outcome.andThen_eq_ok_iff.mp h
    exact .inr ⟨batch, l₁, s₁, l₂, rfl, hb, hc, hl⟩

/-- An iteration whose clean-up stays inside the list. -/
theorem iterate_inside (n : EndIncrement) {b : Build} {s s₁ : TftpServer}
    {l₁ : List ServerAction} {batch : List Occurrence}
    (hb : exec (TftpServer.handle b) s batch = .ok l₁ s₁)
    (hw : (walk isFinished s₁.clientConnections).overrun = false) :
    s.iterate n b (.events batch) =
      .ok (l₁ ++ (walk isFinished s₁.clientConnections).log.map ofErasure)
        { s₁ with clientConnections := (walk isFinished s₁.clientConnections).kept } :=
  Outcome.andThen_eq_ok_iff.mpr ⟨l₁, s₁, _, hb, cleanUp_inside n hw, rfl⟩

theorem InOrder.iterate {max : Nat} {n : EndIncrement} {b : Build} {log l : List ServerAction}
    {s s' : TftpServer} {e : EpollWait} (i : InOrder max log s)
    (h : s.iterate n b e = .ok l s') : InOrder max (log ++ l) s' := by
  rcases iterate_cases h with ⟨-, rfl, rfl⟩ | ⟨batch, l₁, s₁, l₂, -, hb, hc, rfl⟩
  · rw [List.append_nil]
    exact i
  · rw [← List.append_assoc]
    exact (i.batch hb).cleanUp hc

/-- The server starts without requests and connections. -/
theorem inOrder_start (max : Nat) : InOrder max [] (start max) := ⟨rfl, rfl, Nat.zero_le _⟩

theorem inOrder_runs {max : Nat} {n : EndIncrement} {b : Build} {waits : List EpollWait}
    {log : List ServerAction} {s : TftpServer}
    (hr : Runs (iterate n b) (start max) waits log s) : InOrder max log s := by
  apply hr.invariant (I := InOrder max) (inOrder_start max)
  intro l c e l' c' i hs
  exact i.iterate hs

/-! #### A run of two batches -/

/-- A request to read a file. -/
def someRequest : RequestT where
  request := { type := .read, filename := str "a", mode := .octet, options := [] }
  client := { address := 0x7f000001, port := 5000 }

/-- Its bytes. -/
def someDatagram : Bytes := [0, 1] ++ (str "a" ++ 0 :: (str "octet" ++ 0 :: []))

theorem parse_someDatagram : parse someDatagram someRequest.client = some someRequest := by
  have hs : extractCStringsFromBuffer someDatagram 2 = [str "a", str "octet"] := by
    show cStrings (str "a" ++ 0 :: (str "octet" ++ 0 :: [])) = _
    rw [cStrings_append (by decide), cStrings_append (by decide), cStrings_of_not_mem (by decide)]
  show (deserialiseRwPacket someDatagram).map _ = _
  rw [deserialiseRwPacket, hs]
  rfl

/-- What the connections find: an empty file. -/
def emptyFile : World := { readable := some { bytes := [] } }

/-- The connection for the request. -/
def someClient : Registered := ⟨.create emptyFile someRequest.request, .write⟩

/-- Three requests arrive at a server with two slots. -/
def threeRequests : List Occurrence :=
  [.arrival (.datagram someDatagram someRequest.client),
    .arrival (.datagram someDatagram someRequest.client),
    .arrival (.datagram someDatagram someRequest.client), .requests fun _ ↦ .ok emptyFile]

/-- The socket of the first client reports an error. -/
def firstFails : List Occurrence := [.socket 0 { epollerr := true } .wouldBlock .wouldBlock]

theorem runs_threeRequests :
    ∃ l, Runs (TftpServer.handle .release) (start 2) threeRequests l
      ⟨2, ⟨[], [someRequest]⟩, [someClient, someClient]⟩ := by
  have ha : handleRead
      ⟨List.replicate 3 (.datagram someDatagram someRequest.client), []⟩ =
        .ok ⟨[], [someRequest, someRequest, someRequest]⟩ := by
    have hne : someDatagram ≠ [] := nofun
    simp [handleRead, drain, List.replicate, hne, parse_someDatagram]
  have hr : TftpServer.handle .release
      ⟨2, ⟨List.replicate 3 (.datagram someDatagram someRequest.client), []⟩, []⟩
      (.requests fun _ ↦ .ok emptyFile) =
        .ok [.created someRequest, .created someRequest]
          ⟨2, ⟨[], [someRequest]⟩, [someClient, someClient]⟩ := by
    rw [TftpServer.handle, handleRequests, ha]
    rfl
  exact ⟨_, Runs.cons rfl (Runs.cons rfl (Runs.cons rfl (Runs.cons hr (Runs.nil _))))⟩

private theorem runs_firstFails :
    ∃ log s, Runs (iterate .wraps .release) (start 2) [.events threeRequests, .events firstFails]
        log s ∧
      s = ⟨2, ⟨[], [someRequest]⟩, [someClient]⟩ := by
  obtain ⟨l, hb⟩ := runs_threeRequests
  have h₁ := iterate_inside .wraps hb rfl
  have h₂ := @iterate_inside .wraps .release
    ⟨2, ⟨[], [someRequest]⟩, [someClient, someClient]⟩ _ _ firstFails rfl rfl
  exact ⟨_, _, Runs.cons h₁ (Runs.cons h₂ (Runs.nil _)), rfl⟩

/-! #### A server with one slot -/

/-- A server with one slot, which a connection has taken. -/
def serving (c : TftpServerConnection) : TftpServer := ⟨1, {}, [⟨c, c.interest⟩]⟩

/-- A client asks for a file, and its connection finds `w`. -/
def askFor (data : Bytes) (client : SockaddrIn) (w : World) : List Occurrence :=
  [.arrival (.datagram data client), .requests fun _ ↦ .ok w]

/-- The event of the listening socket makes the connection. -/
theorem handle_requests {b : Build} {data : Bytes} {client : SockaddrIn} {r : RequestT}
    (hp : parse data client = some r) (w : World) :
    TftpServer.handle b ⟨1, ⟨[.datagram data client], []⟩, []⟩ (.requests fun _ ↦ .ok w) =
      .ok [.created r] (serving (.create w r.request)) := by
  have hne : data ≠ [] := by
    rintro rfl
    cases hp
  have hread : TftpConnectionHandler.handleRead ⟨[.datagram data client], []⟩ =
      .ok ⟨[], [r]⟩ := by
    simp [TftpConnectionHandler.handleRead, TftpConnectionHandler.drain, hne, hp]
  rw [TftpServer.handle, handleRequests, hread]
  rfl

/-- An event of the connection's socket calls its handler. -/
theorem handle_serving {b : Build} {c c' : TftpServerConnection} {events : EpollEvents}
    {rr : RecvResult} {snd : SendResult} {e : TftpServerConnection.Event}
    {l : List Action} (he : selectHandler events rr snd = some e)
    (hs : TftpServerConnection.step b c e = .ok l c') :
    TftpServer.handle b (serving c) (.socket 0 events rr snd) =
      .ok [.called 0 e c] (serving c') := by
  rw [TftpServer.handle, he, serviceClient]
  simp only [serving, List.getElem?_cons_zero, hs, Outcome.next_ok, List.set_cons_zero]

/-- A connection that has not finished survives the clean-up. -/
theorem iterate_serving (n : EndIncrement) {b : Build} {s : TftpServer} {batch : List Occurrence}
    {l : List ServerAction} {c : TftpServerConnection}
    (hb : Runs (TftpServer.handle b) s batch l (serving c)) (hc : c.finished = false) :
    s.iterate n b (.events batch) = .ok l (serving c) := by
  have hwalk : walk isFinished (serving c).clientConnections =
      ⟨(serving c).clientConnections, [], false⟩ := by
    simp [serving, walk, isFinished, hc]
  rw [iterate_inside n hb (by rw [hwalk]), hwalk]
  exact Outcome.ok_inj.mpr ⟨List.append_nil l, rfl⟩

/-- An iteration in which the request comes in. -/
theorem iterate_askFor (n : EndIncrement) {b : Build} {data : Bytes} {client : SockaddrIn}
    {r : RequestT} (hp : parse data client = some r) {w : World}
    (hw : (TftpServerConnection.create w r.request).finished = false) :
    (start 1).iterate n b (.events (askFor data client w)) =
      .ok [.arrived (.datagram data client), .created r] (serving (.create w r.request)) := by
  have harrival : TftpServer.handle b (start 1) (.arrival (.datagram data client)) =
      .ok [.arrived (.datagram data client)] ⟨1, ⟨[.datagram data client], []⟩, []⟩ := rfl
  have hr := Runs.cons harrival (Runs.cons (handle_requests hp w) (Runs.nil _))
  exact iterate_serving n hr hw

/-- An iteration in which the connection's socket is ready. -/
theorem iterate_socket (n : EndIncrement) {b : Build} {c c' : TftpServerConnection}
    {events : EpollEvents} {rr : RecvResult} {snd : SendResult} {e : TftpServerConnection.Event}
    {l : List Action} (he : selectHandler events rr snd = some e)
    (hs : TftpServerConnection.step b c e = .ok l c') (hc : c'.finished = false) :
    (serving c).iterate n b (.events [.socket 0 events rr snd]) =
      .ok [.called 0 e c] (serving c') :=
  iterate_serving n (Runs.cons (handle_serving he hs) (Runs.nil _)) hc

/-! #### The result -/

/-- At every moment of every run, the requests served, the requests queued and the requests on
the socket are the requests that arrived, in their order, and there are at most `max`
connections. -/
theorem requests_served_in_order {max : Nat} {n : EndIncrement} {b : Build}
    {waits : List EpollWait} {log l : List ServerAction} {s s' : TftpServer}
    {batch : List Occurrence} (hr : Runs (iterate n b) (start max) waits log s)
    (hb : Runs (TftpServer.handle b) s batch l s') :
    creations (log ++ l) ++ s'.connHandler.requestQueue ++ requests s'.connHandler.unread =
        requests (arrivals (log ++ l)) ∧
      s'.clientConnections.length ≤ max := by
  have i := (inOrder_runs hr).batch hb
  exact ⟨i.requests, i.within⟩

/-- Three requests at two slots: two are served and one is queued. -/
theorem threeRequests_in_order :
    ∃ log s, Runs (iterate .wraps .release) (start 2) [.events threeRequests, .events firstFails]
        log s ∧
      creations (log ++ []) ++ s.connHandler.requestQueue ++ requests s.connHandler.unread =
        requests (arrivals (log ++ [])) ∧ s.clientConnections.length ≤ 2 := by
  obtain ⟨log, s, hr, -⟩ := runs_firstFails
  exact ⟨log, s, hr, requests_served_in_order (b := .release) hr (Runs.nil s)⟩

/-! ### Requests left waiting -/

/-- No request waits in the queue while a slot is free. -/
def NoneStranded (s : TftpServer) : Prop :=
  s.connHandler.requestQueue ≠ [] → s.clientConnections.length = s.maxClients

/-- Behind the events of a batch, no connection is finished or no request waits in the queue. -/
def FreesWhenIdle (b : Build) (s : TftpServer) : EpollWait → Prop
  | .events batch => ∀ l s', Runs (TftpServer.handle b) s batch l s' →
      s'.connHandler.requestQueue = [] ∨ ∀ r ∈ s'.clientConnections, ¬ isFinished r = true
  | _ => True

theorem NoneStranded.handle {max : Nat} {b : Build} {log l : List ServerAction}
    {s s' : TftpServer} {o : Occurrence} (i : InOrder max log s) (hs : s.NoneStranded)
    (h : s.handle b o = .ok l s') : s'.NoneStranded := by
  have i' := i.handle h
  rcases handle_cases h with ⟨connHandler, hd, a⟩ | ⟨a, rfl, rfl⟩ | v
  · intro hq
    have hf : s.maxClients ≤ s'.clientConnections.length := a.full hq
    have hm := i.maxClients
    have hm' := i'.maxClients
    have hw := i'.within
    omega
  · exact hs
  · rw [NoneStranded, v.connHandler, v.length, v.maxClients]
    exact hs

theorem NoneStranded.batch {max : Nat} {b : Build} {log l : List ServerAction}
    {s s' : TftpServer} {batch : List Occurrence} (i : InOrder max log s)
    (hs : s.NoneStranded) (hr : Runs (TftpServer.handle b) s batch l s') : s'.NoneStranded := by
  have hi : InOrder max (log ++ l) s' ∧ s'.NoneStranded := by
    apply hr.invariant (I := fun l s ↦ InOrder max (log ++ l) s ∧ s.NoneStranded)
    · rw [List.append_nil]
      exact ⟨i, hs⟩
    · intro l c o l' c' hi ho
      rw [← List.append_assoc]
      exact ⟨hi.1.handle ho, NoneStranded.handle hi.1 hi.2 ho⟩
  exact hi.2

/-- A clean-up strands a request exactly when it frees a slot while the queue is not empty. -/
theorem noneStranded_cleanUp_iff {n : EndIncrement} {l : List ServerAction}
    {s s' : TftpServer} (hs : s.NoneStranded) (h : s.cleanUp n = .ok l s') :
    s'.NoneStranded ↔
      s.connHandler.requestQueue = [] ∨ ∀ r ∈ s.clientConnections, ¬ isFinished r = true := by
  obtain ⟨hc, hm⟩ := cleanUp_other h
  have hle := (sublist_of_cleanUp h).length_le
  have hfree := cleanUp_frees_iff h
  rw [NoneStranded, hc, hm]
  by_cases hq : s.connHandler.requestQueue = []
  · simp [hq]
  · have hfull := hs hq
    by_cases hfin : ∃ r ∈ s.clientConnections, isFinished r = true
    · have hlt := hfree.mpr hfin
      constructor
      · intro hn
        have := hn hq
        omega
      · rintro (hn | hn)
        · exact absurd hn hq
        · obtain ⟨r, hr, hf⟩ := hfin
          exact absurd hf (hn r hr)
    · constructor
      · intro _
        exact .inr fun r hr hf ↦ hfin ⟨r, hr, hf⟩
      · intro _ _
        have hge : ¬ s'.clientConnections.length < s.clientConnections.length :=
          fun hlt ↦ hfin (hfree.mp hlt)
        omega

/-- One iteration from a state without stranded requests leads to another one exactly when it
frees no slot over a waiting request. -/
theorem noneStranded_iterate_iff {max : Nat} {n : EndIncrement} {b : Build}
    {log l : List ServerAction} {s s' : TftpServer} {e : EpollWait} (i : InOrder max log s)
    (hs : s.NoneStranded) (h : s.iterate n b e = .ok l s') :
    s'.NoneStranded ↔ FreesWhenIdle b s e := by
  rcases iterate_cases h with ⟨rfl, rfl, rfl⟩ | ⟨batch, l₁, s₁, l₂, rfl, hb, hc, rfl⟩
  · exact ⟨fun _ ↦ trivial, fun _ ↦ hs⟩
  · rw [noneStranded_cleanUp_iff (hs.batch i hb) hc]
    constructor
    · intro hidle l s' hb'
      obtain ⟨-, rfl⟩ := Outcome.ok_inj.mp (hb.symm.trans hb')
      exact hidle
    · intro hidle
      exact hidle l₁ s₁ hb

/-- No request is stranded at any wait of a run exactly when in no iteration of it a connection
is finished while a request waits. -/
theorem noneStranded_along_iff {max : Nat} {n : EndIncrement} {b : Build}
    {waits : List EpollWait} {log : List ServerAction} {s : TftpServer}
    (hr : Runs (iterate n b) (start max) waits log s) :
    (∀ pre post l s', waits = pre ++ post → Runs (iterate n b) (start max) pre l s' →
        s'.NoneStranded) ↔
      Along (iterate n b) (FreesWhenIdle b) (start max) waits := by
  constructor
  · intro h
    apply along_of_prefixes
    intro pre e post l c he hpre
    have hs := h pre (e :: post) l c he hpre
    obtain ⟨l', c', hstep⟩ : ∃ l' c', c.iterate n b e = .ok l' c' := by
      rw [he] at hr
      exact hr.next_of_append hpre
    have hs' := h (pre ++ [e]) post (l ++ l') c' (by simp [he]) (hpre.snoc hstep)
    exact (noneStranded_iterate_iff (inOrder_runs hpre) hs hstep).mp hs'
  · intro ha pre post l s' he hpre
    rw [he] at ha
    have hi : InOrder max l s' ∧ s'.NoneStranded := by
      apply hpre.logInvariantAlong (I := fun l s ↦ InOrder max l s ∧ s.NoneStranded) ha.left
      · exact ⟨inOrder_start max, absurd rfl⟩
      · intro l c e l' c' hi hp hs
        exact ⟨hi.1.iterate hs, (noneStranded_iterate_iff hi.1 hi.2 hs).mpr hp⟩
    exact hi.2

/-- In this run a connection is finished while a request waits. -/
theorem threeRequests_not_idle :
    ¬ Along (iterate .wraps .release) (FreesWhenIdle .release) (start 2)
      [.events threeRequests, .events firstFails] := by
  intro ha
  obtain ⟨log, s, hr, rfl⟩ := runs_firstFails
  have hn := (noneStranded_along_iff hr).mpr ha _ [] log _ (List.append_nil _).symm hr
  exact absurd (hn (List.cons_ne_nil _ _)) (by decide)

/-- Behind these two batches a request waits while a slot is free. -/
theorem threeRequests_strand :
    ∃ log s, Runs (iterate .wraps .release) (start 2) [.events threeRequests, .events firstFails]
        log s ∧
      s.connHandler.requestQueue = [someRequest] ∧ s.clientConnections = [someClient] ∧
      s.maxClients = 2 ∧ ¬ s.NoneStranded := by
  obtain ⟨log, s, hr, rfl⟩ := runs_firstFails
  refine ⟨log, _, hr, rfl, rfl, rfl, fun hn ↦ ?_⟩
  exact absurd (hn (List.cons_ne_nil _ _)) (by decide)

end TftpServer
end CppTftp
