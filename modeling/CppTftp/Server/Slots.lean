import CppTftp.Server.Batches
import CppTftp.Server.Waiting
import Mathlib.Data.List.Nodup

/-!
# Silent clients and the slots of the server

A connection that has sent its OACK waits without a timer. A client that asks for an option and
then says nothing keeps its slot for good, and as many such clients as there are slots keep
everybody else out.
-/

namespace CppTftp

open Lib TftpServerConnection

/-! ### One connection -/

namespace TftpServerConnection

/-- The connection waits, and no timer runs. -/
structure Deaf (c : TftpServerConnection) : Prop where
  waiting : c.waitForRead = true
  timer : c.timer = .disarmed
  finished : c.finished = false

/-- A silent client leaves its connection these two events. -/
def SilentEvent (e : Event) : Prop := e = .readable .wouldBlock ∨ e = .tick

variable {b : Build} {c c' : TftpServerConnection}

/-- No event that comes without a datagram does anything to it. -/
theorem Deaf.step (h : c.Deaf) {e : Event} (he : SilentEvent e) :
    TftpServerConnection.step b c e = .ok [] c := by
  rcases he with rfl | rfl
  · have ht : ¬c.timer.hasExpired.1 = true := by
      rw [h.timer]
      exact Bool.false_ne_true
    show handleRead b c .wouldBlock = _
    rw [handleRead, if_neg ht]
    cases hs : c.state with
    | waitForAck => rfl
    | waitForData => rfl
    | sendAck => rfl
    | sendOack => rfl
    | sendData => rfl
    | error => rfl
  · have ht : c.timer.elapse = c.timer := by
      rw [h.timer]
      rfl
    show Outcome.ok [] { c with timer := c.timer.elapse } = _
    rw [ht]

/-- Nor does any number of them. -/
theorem Deaf.runs (h : c.Deaf) {es : List Event} {log : List Action}
    (he : ∀ e ∈ es, SilentEvent e) (hr : Runs (TftpServerConnection.step b) c es log c') :
    c' = c := by
  induction es generalizing log with
  | nil => exact (Outcome.ok_inj.mp hr).2.symm
  | cons e es ih =>
    obtain ⟨l, c₁, log', hs, hr', -⟩ := runs_cons_iff.mp hr
    rw [h.step (he e List.mem_cons_self)] at hs
    obtain ⟨-, rfl⟩ := Outcome.ok_inj.mp hs
    exact ih (fun f hf ↦ he f (List.mem_cons_of_mem e hf)) hr'

/-- A connection whose OACK goes out is deaf. -/
theorem deaf_of_oack {w : World} {request : RwPacket} (h : StartsWithOack w request) :
    ∃ l c', (create w request).handleWrite .sent = .ok l c' ∧ c'.Deaf := by
  have hstart := started_create w request
  obtain ⟨l, c', hs, hw, ht, hf⟩ :=
    handleWrite_oack ((state_create_eq_sendOack_iff w request).mpr h)
  exact ⟨l, c', hs, hw, ht.trans hstart.timer, hf.trans hstart.finished⟩

end TftpServerConnection

/-! ### The server whose slots are taken -/

/-- Nothing comes from the clients that are connected. -/
def Occurrence.Silent : Occurrence → Prop
  | .socket _ events r _ => r = .wouldBlock ∧ events.epollerr = false
  | .timer _ r => r = .wouldBlock
  | _ => True

/-- Nothing comes from them in a batch. -/
def EpollWait.Silent : EpollWait → Prop
  | .events batch => ∀ o ∈ batch, o.Silent
  | _ => True

namespace TftpServer

open ServerAction TftpConnectionHandler

variable {b : Build} {s s' : TftpServer} {l log : List ServerAction} {n : EndIncrement}

/-- All slots are taken, and no connection will ever hear of a timer. -/
structure Stuck (s : TftpServer) : Prop where
  deaf : ∀ c ∈ s.conns, c.Deaf
  full : s.maxClients ≤ s.conns.length

/-- The connections and their number stay, and no request is accepted. -/
structure Unmoved (s : TftpServer) (l : List ServerAction) (s' : TftpServer) : Prop where
  conns : s'.conns = s.conns
  maxClients : s'.maxClients = s.maxClients
  creations : creations l = []

theorem Unmoved.stuck (h : Unmoved s l s') (hs : s.Stuck) : s'.Stuck := by
  refine ⟨?_, ?_⟩
  · rw [h.conns]
    exact hs.deaf
  · rw [h.conns, h.maxClients]
    exact hs.full

/-- With all slots taken the queue stays as it is. -/
theorem acceptRequests_full (h : s.maxClients ≤ s.clientConnections.length)
    (worlds : Nat → Except Stop World) (queue : List RequestT) :
    s.acceptRequests worlds queue =
      .ok [] { s with connHandler := { s.connHandler with requestQueue := queue } } := by
  cases queue with
  | nil => rfl
  | cons newRequest queue => rw [acceptRequests, if_neg (Nat.not_lt.mpr h)]

/-- A silent client's occurrence is a silent event of its connection. -/
theorem silentEvent_of_eventOf {o : Occurrence} {i : Nat} {r : Registered} (hsilent : o.Silent)
    (hready : o.Ready s) (hr : s.clientConnections[i]? = some r) (hdeaf : r.conn.Deaf) :
    ∀ e ∈ (o.eventOf i).toList, SilentEvent e := by
  intro e he
  cases o with
  | requests => exact absurd he List.not_mem_nil
  | arrival => exact absurd he List.not_mem_nil
  | tick j =>
    rw [Occurrence.eventOf] at he
    split at he
    · exact .inr (List.mem_singleton.mp he)
    · exact absurd he List.not_mem_nil
  | timer j rr =>
    obtain rfl : rr = .wouldBlock := hsilent
    rw [Occurrence.eventOf] at he
    split at he
    · exact .inl (List.mem_singleton.mp he)
    · exact absurd he List.not_mem_nil
  | socket j events rr snd =>
    obtain ⟨rfl, herr⟩ := hsilent
    rw [Occurrence.eventOf] at he
    split at he
    · next hj =>
      subst hj
      rw [selectHandler] at he
      by_cases hin : events.epollin = true
      · rw [if_pos hin] at he
        exact .inl (List.mem_singleton.mp he)
      · rw [if_neg hin] at he
        by_cases hout : events.epollout = true
        · -- nothing that waits is polled for writing
          obtain ⟨r', hr', hw⟩ := hready
          rw [hr] at hr'
          obtain rfl := Option.some.inj hr'
          have hwrite := hw (Bool.eq_false_iff.mpr hin) hout
          rw [waitForWrite_eq, hdeaf.waiting] at hwrite
          cases hwrite
        · rw [if_neg hout, herr] at he
          exact absurd he List.not_mem_nil
    · exact absurd he List.not_mem_nil

/-- An occurrence at one connection creates none. -/
theorem creations_of_target {o : Occurrence} {i : Nat} (ht : o.target = some i)
    (hs : s.handle b o = .ok l s') : creations l = [] := by
  cases o with
  | requests => cases ht
  | arrival => cases ht
  | socket => exact creations_of_internal (serviced_serviceClient hs).internal
  | timer =>
    rw [TftpServer.handle] at hs
    exact creations_of_internal (serviced_serviceClient hs).internal
  | tick =>
    obtain ⟨rfl, -⟩ := Outcome.ok_inj.mp hs
    rfl

/-- Nothing happens at a connection that is not there. -/
theorem handle_missing {o : Occurrence} {i : Nat} (ht : o.target = some i)
    (hi : s.clientConnections[i]? = none) (hs : s.handle b o = .ok l s') : s' = s := by
  cases o with
  | requests => cases ht
  | arrival => cases ht
  | socket j =>
    obtain rfl := Option.some.inj ht
    rw [TftpServer.handle, serviceClient, hi] at hs
    exact (Outcome.ok_inj.mp hs).2.symm
  | timer j =>
    obtain rfl := Option.some.inj ht
    rw [TftpServer.handle, serviceClient, hi] at hs
    exact (Outcome.ok_inj.mp hs).2.symm
  | tick j =>
    obtain rfl := Option.some.inj ht
    rw [TftpServer.handle, List.modify_eq_set_getElem?, hi] at hs
    exact (Outcome.ok_inj.mp hs).2.symm

/-- A silent occurrence moves nothing. -/
theorem Stuck.handle {o : Occurrence} (h : s.Stuck) (hsilent : o.Silent) (hready : o.Ready s)
    (hs : s.handle b o = .ok l s') : Unmoved s l s' := by
  have hfull : s.maxClients ≤ s.clientConnections.length := by
    have hle := h.full
    rw [conns, List.length_map] at hle
    exact hle
  cases ht : o.target with
  | none =>
    cases o with
    | requests worlds =>
      rw [TftpServer.handle, handleRequests] at hs
      split at hs
      · exact absurd hs Outcome.stop_ne_ok
      · next connHandler hd =>
        rw [acceptRequests_full (s := { s with connHandler }) hfull] at hs
        obtain ⟨rfl, rfl⟩ := Outcome.ok_inj.mp hs
        exact ⟨rfl, rfl, rfl⟩
    | arrival a =>
      obtain ⟨rfl, rfl⟩ := Outcome.ok_inj.mp hs
      exact ⟨rfl, rfl, rfl⟩
    | socket => cases ht
    | timer => cases ht
    | tick => cases ht
  | some i =>
    have hcreations := creations_of_target ht hs
    cases hi : s.clientConnections[i]? with
    | none =>
      rw [handle_missing ht hi hs]
      exact ⟨rfl, rfl, hcreations⟩
    | some r =>
      have hfound : s.conns[i]? = some r.conn := by
        rw [conns, List.getElem?_map, hi]
        rfl
      have hdeaf := h.deaf r.conn (List.mem_of_getElem? hfound)
      obtain ⟨r', ⟨log, hrun⟩, rfl, -⟩ := handle_local ht hi hs
      have hsame := hdeaf.runs (silentEvent_of_eventOf hsilent hready hi hdeaf) hrun
      refine ⟨?_, rfl, hcreations⟩
      rw [conns, List.map_set, hsame]
      exact set_of_getElem? hfound

/-- The clean-up keeps a list of connections that all go on. -/
theorem cleanUp_none (n : EndIncrement) (h : ∀ c ∈ s.conns, c.finished = false) :
    s.cleanUp n = .ok [] s := by
  have hnone : ∀ r ∈ s.clientConnections, ¬isFinished r = true := by
    intro r hr hf
    have hc : r.conn.finished = false := h r.conn (List.mem_map_of_mem hr)
    rw [isFinished, hc] at hf
    cases hf
  have hdrop : s.clientConnections.filter isFinished = [] := List.filter_eq_nil_iff.mpr hnone
  have hkeep : s.clientConnections.filter (fun r ↦ !isFinished r) = s.clientConnections :=
    List.filter_eq_self.mpr fun r hr ↦ by simpa using hnone r hr
  have he := (eraseLoop_eq_filter_iff n isFinished _).mpr (separated_of_none hnone)
  rw [hkeep, hdrop] at he
  exact cleanUp_eq_ok_iff.mpr ⟨_, _, he, rfl, rfl⟩

theorem Stuck.cleanUp (h : s.Stuck) (hs : s.cleanUp n = .ok l s') : Unmoved s l s' := by
  rw [cleanUp_none n fun c hc ↦ (h.deaf c hc).finished] at hs
  obtain ⟨rfl, rfl⟩ := Outcome.ok_inj.mp hs
  exact ⟨rfl, rfl, rfl⟩

theorem Unmoved.trans {s₁ : TftpServer} {l₁ : List ServerAction} (h : Unmoved s l s₁)
    (h' : Unmoved s₁ l₁ s') : Unmoved s (l ++ l₁) s' := by
  refine ⟨h'.conns.trans h.conns, h'.maxClients.trans h.maxClients, ?_⟩
  rw [creations_append, h.creations, h'.creations]
  rfl

/-- Nothing moves in a batch without a word from the clients that are connected. -/
theorem Stuck.batch {batch : List Occurrence} (h : s.Stuck) (hsilent : ∀ o ∈ batch, o.Silent)
    (ha : Along (TftpServer.handle b) (fun s o ↦ o.Ready s) s batch)
    (hr : Runs (TftpServer.handle b) s batch l s') : Unmoved s l s' := by
  induction batch generalizing s l with
  | nil =>
    obtain ⟨rfl, rfl⟩ := Outcome.ok_inj.mp hr
    exact ⟨rfl, rfl, rfl⟩
  | cons o batch ih =>
    obtain ⟨l₁, s₁, l₂, hs, hr', rfl⟩ := runs_cons_iff.mp hr
    have hu := h.handle (hsilent o List.mem_cons_self) ha.1 hs
    have hrest : ∀ o' ∈ batch, o'.Silent := fun o' ho' ↦ hsilent o' (List.mem_cons_of_mem o ho')
    exact hu.trans (ih (hu.stuck h) hrest (ha.2 l₁ s₁ hs) hr')

/-- Nothing moves in an iteration without a word from them. -/
theorem Stuck.iterate {wait : EpollWait} (h : s.Stuck) (hp : s.Polled) (ha : s.Answers wait)
    (hsilent : wait.Silent) (hs : s.iterate n b wait = .ok l s') : Unmoved s l s' := by
  rcases iterate_cases hs with ⟨-, rfl, rfl⟩ | ⟨batch, l₁, s₁, l₂, rfl, hb, hc, rfl⟩
  · exact ⟨rfl, rfl, rfl⟩
  · have ha : s.Collected batch := ha
    have hready : ∀ o ∈ batch, o.Ready s := fun o ho ↦ ready_of_reported hp (ha.reported o ho)
    have hu := h.batch hsilent (along_ready ha.once hready) hb
    exact hu.trans ((hu.stuck h).cleanUp hc)

/-- Nothing moves in a run without a word from the clients that are connected. -/
theorem Stuck.runs {waits : List EpollWait} (h : s.Stuck) (hp : s.Polled)
    (ha : Along (TftpServer.iterate n b) (fun s wait ↦ s.Answers wait ∧ wait.Silent) s waits)
    (hr : Runs (TftpServer.iterate n b) s waits log s') : Unmoved s log s' := by
  have hinv : Unmoved s log s' ∧ s'.Polled := by
    apply hr.logInvariantAlong (I := fun l s' ↦ Unmoved s l s' ∧ s'.Polled) ha
    · exact ⟨⟨rfl, rfl, rfl⟩, hp⟩
    · rintro l c wait l' c' ⟨hu, hc⟩ ⟨hans, hsilent⟩ hs
      refine ⟨hu.trans ((hu.stuck h).iterate hc hans hsilent hs), ?_⟩
      apply (iterate_meets n hc hans).returned c'
      rw [hs]
      rfl
  exact hinv.1

end TftpServer

/-! ### How the slots are taken -/

/-- A datagram that the server answers with an OACK, and what the constructor finds. -/
structure OptionRequest where
  data : Bytes
  request : RequestT
  world : World
  parsed : TftpConnectionHandler.parse data request.client = some request
  offers : StartsWithOack world request.request

namespace OptionRequest

/-- The connection that is created for it. -/
def registered (a : OptionRequest) : Registered :=
  ⟨create a.world a.request.request, (create a.world a.request.request).interest⟩

/-- How it comes in. -/
def arrival (a : OptionRequest) : Arrival := .datagram a.data a.request.client

/-- What the constructors find, one after the other. -/
def worlds (asks : List OptionRequest) (k : Nat) : Except Stop World :=
  .ok ((asks[k]?.map OptionRequest.world).getD {})

theorem data_ne_nil (a : OptionRequest) : a.data ≠ [] := by
  intro h
  have hp := a.parsed
  rw [h] at hp
  cases hp

end OptionRequest

namespace TftpServer

open ServerAction TftpConnectionHandler

variable {b : Build} {s : TftpServer} {n : EndIncrement}

/-- The requests arrive, and the listening socket is read. -/
def askAll (asks : List OptionRequest) : List Occurrence :=
  asks.map (fun a ↦ .arrival a.arrival) ++ [.requests (OptionRequest.worlds asks)]

/-- The sockets of `m` connections from the `i`th on can be written to. -/
def writeAll (i m : Nat) : List Occurrence :=
  (List.range' i m).map fun j ↦ .socket j { epollout := true } .wouldBlock .sent

/-- Arrivals only add to what the listening socket holds. -/
theorem runs_arrivals (b : Build) (s : TftpServer) (as : List Arrival) :
    Runs (TftpServer.handle b) s (as.map .arrival) (as.map .arrived) { s with
      connHandler := { s.connHandler with unread := s.connHandler.unread ++ as } } := by
  induction as generalizing s with
  | nil =>
    rw [List.append_nil]
    exact Runs.nil s
  | cons a as ih =>
    have hrest := ih { s with
      connHandler := { s.connHandler with unread := s.connHandler.unread ++ [a] } }
    dsimp only at hrest
    rw [List.append_assoc] at hrest
    have harrive : s.handle b (.arrival a) = .ok [.arrived a] { s with
        connHandler := { s.connHandler with unread := s.connHandler.unread ++ [a] } } := rfl
    exact Runs.cons harrive hrest

/-- All of them are parsed. -/
theorem drain_asks (asks : List OptionRequest) (queue : List RequestT) :
    drain (asks.map OptionRequest.arrival) queue =
      .ok { requestQueue := queue ++ asks.map OptionRequest.request } := by
  induction asks generalizing queue with
  | nil =>
    rw [List.map_nil, List.map_nil, List.append_nil]
    rfl
  | cons a asks ih =>
    rw [List.map_cons, OptionRequest.arrival, drain, if_neg a.data_ne_nil, a.parsed, ih,
      List.append_assoc]
    rfl

/-- All of them get a connection where there are slots enough. -/
theorem acceptRequests_asks {asks : List OptionRequest} {worlds : Nat → Except Stop World}
    (hw : ∀ k a, asks[k]? = some a → worlds k = .ok a.world)
    (hfree : s.clientConnections.length + asks.length ≤ s.maxClients) :
    s.acceptRequests worlds (asks.map OptionRequest.request) =
      .ok (asks.map fun a ↦ .created a.request) { s with
        connHandler := { s.connHandler with requestQueue := [] }
        clientConnections := s.clientConnections ++ asks.map OptionRequest.registered } := by
  induction asks generalizing s worlds with
  | nil =>
    rw [List.map_nil, List.map_nil, List.map_nil, List.append_nil]
    rfl
  | cons a asks ih =>
    rw [List.length_cons] at hfree
    have hlt : s.clientConnections.length < s.maxClients := by omega
    rw [List.map_cons, acceptRequests, if_pos hlt, hw 0 a rfl]
    dsimp only
    rw [ih (fun k x hx ↦ hw (k + 1) x hx)]
    · rw [List.append_assoc]
      rfl
    · dsimp only
      rw [List.length_append, List.length_singleton]
      omega

/-- What the first batch leaves behind. -/
def asked (asks : List OptionRequest) : TftpServer where
  maxClients := asks.length
  clientConnections := asks.map OptionRequest.registered

theorem runs_askAll (b : Build) (asks : List OptionRequest) :
    Runs (TftpServer.handle b) (start asks.length) (askAll asks)
      (asks.map (fun a ↦ .arrived a.arrival) ++ asks.map fun a ↦ .created a.request)
      (asked asks) := by
  have harrive := runs_arrivals b (start asks.length) (asks.map OptionRequest.arrival)
  rw [List.map_map, List.map_map] at harrive
  refine harrive.snoc ?_
  have hworlds : ∀ k a, asks[k]? = some a → OptionRequest.worlds asks k = .ok a.world := by
    intro k a ha
    rw [OptionRequest.worlds, ha]
    rfl
  rw [TftpServer.handle, handleRequests, TftpConnectionHandler.handleRead]
  dsimp only [start]
  rw [List.nil_append, drain_asks]
  dsimp only
  rw [List.nil_append, acceptRequests_asks hworlds (by simp)]
  rfl

/-- The OACK of every connection from the `i`th on goes out. -/
theorem runs_writeAll (b : Build) (max : Nat) (h : TftpConnectionHandler) (pre : List Registered)
    (asks : List OptionRequest) : ∃ log post,
      Runs (TftpServer.handle b) ⟨max, h, pre ++ asks.map OptionRequest.registered⟩
        (writeAll pre.length asks.length) log ⟨max, h, pre ++ post⟩ ∧
      creations log = [] ∧ post.length = asks.length ∧
      ∀ r ∈ post, r.conn.Deaf ∧ r.interest = r.conn.interest := by
  induction asks generalizing pre with
  | nil => exact ⟨[], [], Runs.nil _, rfl, rfl, fun r hr ↦ absurd hr List.not_mem_nil⟩
  | cons a asks ih =>
    obtain ⟨l, c', hwrite, hdeaf⟩ := deaf_of_oack a.offers
    obtain ⟨log, post, hr, hcreations, hlen, hpost⟩ := ih (pre ++ [⟨c', c'.interest⟩])
    have hfound : (pre ++ (a :: asks).map OptionRequest.registered)[pre.length]? =
        some a.registered := by
      rw [List.getElem?_append_right (Nat.le_refl _), Nat.sub_self]
      rfl
    have hfirst : TftpServer.handle b ⟨max, h, pre ++ (a :: asks).map OptionRequest.registered⟩
        (.socket pre.length { epollout := true } .wouldBlock .sent) =
        .ok [.called pre.length (.writable .sent) a.registered.conn]
          ⟨max, h, pre ++ [⟨c', c'.interest⟩] ++ asks.map OptionRequest.registered⟩ := by
      have hs : (step b a.registered.conn (.writable .sent)).next = .ok c' := by
        show ((create a.world a.request.request).handleWrite .sent).next = _
        rw [hwrite]
        rfl
      rw [TftpServer.handle, serviceClient]
      dsimp only
      rw [hfound]
      dsimp only [selectHandler]
      rw [if_neg Bool.false_ne_true, if_pos rfl]
      dsimp only
      rw [hs]
      dsimp only
      rw [List.set_append_right _ _ (Nat.le_refl _), Nat.sub_self, List.append_assoc]
      rfl
    rw [List.length_append, List.length_singleton] at hr
    rw [List.append_assoc pre [_] post] at hr
    refine ⟨_, ⟨c', c'.interest⟩ :: post, Runs.cons hfirst hr, ?_, ?_, ?_⟩
    · rw [creations_append, hcreations]
      rfl
    · rw [List.length_cons, List.length_cons, hlen]
    · intro r hmem
      rcases List.mem_cons.mp hmem with rfl | hmem
      · exact ⟨hdeaf, rfl⟩
      · exact hpost r hmem

/-- The first batch fits the state in which the server starts. -/
theorem collected_askAll (asks : List OptionRequest) :
    (start asks.length).Collected (askAll asks) := by
  constructor
  · have hnone : (asks.map fun a ↦ Occurrence.arrival a.arrival).filterMap
        Occurrence.descriptor = [] := by
      apply List.filterMap_eq_nil_iff.mpr
      intro o ho
      obtain ⟨a, -, rfl⟩ := List.mem_map.mp ho
      rfl
    rw [askAll, List.filterMap_append, hnone]
    exact List.nodup_cons.mpr ⟨List.not_mem_nil, List.nodup_nil⟩
  · intro o ho
    rcases List.mem_append.mp ho with ho | ho
    · obtain ⟨a, -, rfl⟩ := List.mem_map.mp ho
      trivial
    · rw [List.mem_singleton.mp ho]
      trivial

/-- A connection that offers options is polled for writing. -/
theorem OptionRequest.interest_eq (a : OptionRequest) : a.registered.interest = .write := by
  rw [OptionRequest.registered, interest_eq_write_iff, waitForWrite_eq,
    (started_create a.world a.request.request).waiting]
  rfl

/-- The second batch fits the state behind the first one. -/
theorem collected_writeAll (asks : List OptionRequest) :
    (asked asks).Collected (writeAll 0 asks.length) := by
  constructor
  · have hmap : (writeAll 0 asks.length).filterMap Occurrence.descriptor =
        (List.range' 0 asks.length).map Descriptor.socket := by
      rw [writeAll, List.filterMap_map, ← List.filterMap_eq_map]
      rfl
    rw [hmap]
    have hrange : (List.range' 0 asks.length).Nodup := List.nodup_range' 1
    exact hrange.map fun i j h ↦ Descriptor.socket.inj h
  · intro o ho
    obtain ⟨i, hi, rfl⟩ := List.mem_map.mp ho
    have hlt : i < asks.length := by
      rw [List.mem_range'_1] at hi
      omega
    refine ⟨(asks[i]).registered, ?_, fun h ↦ Bool.noConfusion h, fun _ ↦ ?_⟩
    · rw [asked, List.getElem?_map, List.getElem?_eq_getElem hlt]
      rfl
    · exact OptionRequest.interest_eq _

/-- What the two batches log is that the requests came in and were accepted. -/
theorem creations_asks (asks : List OptionRequest) {l : List ServerAction} (hl : creations l = []) :
    creations (asks.map (fun a ↦ ServerAction.arrived a.arrival) ++
      asks.map (fun a ↦ ServerAction.created a.request) ++ l) =
        asks.map OptionRequest.request := by
  have harrived : creations (asks.map fun a ↦ ServerAction.arrived a.arrival) = [] := by
    apply List.filterMap_eq_nil_iff.mpr
    intro x hx
    obtain ⟨a, -, rfl⟩ := List.mem_map.mp hx
    rfl
  have hcreated : creations (asks.map fun a ↦ ServerAction.created a.request) =
      asks.map OptionRequest.request := by
    rw [← creations_created (asks.map OptionRequest.request), List.map_map]
    rfl
  rw [creations_append, creations_append, harrived, hcreated, hl, List.nil_append,
    List.append_nil]

/-- Two batches take in the requests and send their OACKs; then all slots are taken. -/
theorem exists_stuck (n : EndIncrement) (b : Build) (asks : List OptionRequest) :
    ∃ waits log s, waits.length = 2 ∧ Runs (iterate n b) (start asks.length) waits log s ∧
      Along (iterate n b) Answers (start asks.length) waits ∧
      creations log = asks.map OptionRequest.request ∧ s.conns.length = asks.length ∧
      s.Stuck ∧ s.Polled ∧ s.connHandler = {} := by
  have hnone : ∀ c ∈ (asked asks).conns, c.finished = false := by
    intro c hc
    rw [conns, asked, List.map_map] at hc
    obtain ⟨a, -, rfl⟩ := List.mem_map.mp hc
    exact (started_create _ _).finished
  have hfirst : (start asks.length).iterate n b (.events (askAll asks)) =
      .ok _ (asked asks) :=
    Outcome.andThen_eq_ok_iff.mpr ⟨_, _, _, runs_askAll b asks, cleanUp_none n hnone, rfl⟩
  obtain ⟨l, post, hwrite, hl, hlen, hpost⟩ := runs_writeAll b asks.length {} [] asks
  rw [List.nil_append, List.nil_append] at hwrite
  have hstuck : Stuck ⟨asks.length, {}, post⟩ := by
    constructor
    · intro c hc
      obtain ⟨r, hr, rfl⟩ := List.mem_map.mp hc
      exact (hpost r hr).1
    · rw [conns, List.length_map, hlen]
  have hsecond : (asked asks).iterate n b (.events (writeAll 0 asks.length)) =
      .ok _ ⟨asks.length, {}, post⟩ :=
    Outcome.andThen_eq_ok_iff.mpr
      ⟨_, _, _, hwrite, cleanUp_none n fun c hc ↦ (hstuck.deaf c hc).finished, rfl⟩
  refine ⟨_, _, _, rfl, Runs.cons hfirst (Runs.cons hsecond (Runs.nil _)), ?_, ?_, ?_, hstuck,
    ?_, rfl⟩
  · exact Along.cons (collected_askAll asks) hfirst
      (Along.cons (collected_writeAll asks) hsecond trivial)
  · rw [List.append_nil, List.append_nil, List.append_nil]
    exact creations_asks asks hl
  · exact (List.length_map _).trans hlen
  · exact fun r hr ↦ (hpost r hr).2

/-- As many clients as there are slots, each of which asks for an option and then says nothing,
keep everybody else out: two batches bring the server to a state in which all slots are taken
and it creates no connection any more, as long as these clients are silent. Every request that
arrives from then on stays in the queue. -/
theorem silent_clients_fill_server (n : EndIncrement) (b : Build) (asks : List OptionRequest) :
    ∃ waits log s, waits.length = 2 ∧ Runs (iterate n b) (start asks.length) waits log s ∧
      Along (iterate n b) Answers (start asks.length) waits ∧
      creations log = asks.map OptionRequest.request ∧ s.conns.length = asks.length ∧
      ∀ waits' log' s',
        Along (iterate n b) (fun s wait ↦ s.Answers wait ∧ wait.Silent) s waits' →
        Runs (iterate n b) s waits' log' s' →
        creations log' = [] ∧ s'.conns = s.conns ∧
          s'.connHandler.requestQueue ++ requests s'.connHandler.unread =
            requests (arrivals log') := by
  obtain ⟨waits, log, s, htwo, hr, ha, hcreations, htaken, hstuck, hpolled, hhandler⟩ :=
    exists_stuck n b asks
  refine ⟨waits, log, s, htwo, hr, ha, hcreations, htaken, fun waits' log' s' ha' hr' ↦ ?_⟩
  have hu := hstuck.runs hpolled ha' hr'
  refine ⟨hu.creations, hu.conns, ?_⟩
  -- what is accepted, queued and unread is what arrived, before and after
  have hbefore := (inOrder_runs hr).requests
  have hafter := (inOrder_runs (hr.append hr')).requests
  rw [hhandler] at hbefore
  rw [creations_append, hu.creations, arrivals_append, requests_append, ← hbefore] at hafter
  simpa [requests, List.append_assoc] using hafter

/-- A request for a timeout of five seconds. -/
instance : Inhabited OptionRequest where
  default := {
    data :=
      [0, 1] ++ str "a" ++ [0] ++ str "octet" ++ [0] ++ str "TIMEOUT" ++ [0] ++ str "5" ++ [0]
    request :=
      { request := { filename := str "a", options := [(str "TIMEOUT", str "5")] }
        client := { address := 0x7f000001, port := 5000 } }
    world := emptyFile
    parsed := by decide +kernel
    offers := by decide +kernel }

end TftpServer
end CppTftp
