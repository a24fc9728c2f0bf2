import CppTftp.Server.Requests

/-!
# The server as independent sessions

A session is a connection together with its request, what its constructor found and the
events it was called for since. The event loop keeps nothing but sessions: what one client
does reaches no other connection.
-/

namespace CppTftp

open Lib TftpServerConnection

/-- A connection and the run of its own that led to it. -/
structure Session (b : Build) where
  request : RequestT
  world : World
  events : List Event
  log : List Action
  conn : TftpServerConnection
  run : Runs (step b) (create world request.request) events log conn

namespace Session

variable {b : Build}

/-- The session of a request that was just accepted. -/
def opened (request : RequestT) (world : World) : Session b where
  request := request
  world := world
  events := []
  log := []
  conn := create world request.request
  run := Runs.nil _

/-- The session after one more event. -/
def extend (x : Session b) {e : Event} {l : List Action} {c : TftpServerConnection}
    (h : step b x.conn e = .ok l c) : Session b where
  request := x.request
  world := x.world
  events := x.events ++ [e]
  log := x.log ++ l
  conn := c
  run := x.run.snoc h

end Session

namespace TftpServer

open ServerAction

variable {b : Build} {s s' : TftpServer} {l log : List ServerAction}

/-! ### What an occurrence does to the connections -/

/-- The connections in their order, without what they are registered for. -/
def conns (s : TftpServer) : List TftpServerConnection :=
  s.clientConnections.map Registered.conn

/-- Writing back what stands there changes nothing. -/
theorem set_of_getElem? {γ : Type} {xs : List γ} {i : Nat} {x : γ} (h : xs[i]? = some x) :
    xs.set i x = xs := by
  obtain ⟨hlt, rfl⟩ := List.getElem?_eq_some_iff.mp h
  exact List.set_getElem_self hlt

/-- The new connections are the constructor's, one for each request taken off the queue and each
with what its constructor found. -/
theorem conns_acceptRequests {worlds : Nat → Except Stop World} {queue : List RequestT}
    (h : s.acceptRequests worlds queue = .ok l s') :
    ∃ taken : List (RequestT × World), creations l = taken.map Prod.fst ∧
      s'.conns = s.conns ++ (taken.map fun p ↦ create p.2 p.1.request) ∧
      ∀ k p, taken[k]? = some p → worlds k = .ok p.2 := by
  induction queue generalizing worlds s l with
  | nil =>
    obtain ⟨rfl, rfl⟩ := Outcome.ok_inj.mp h
    exact ⟨[], rfl, (List.append_nil _).symm, fun k p hp ↦ absurd hp (by simp)⟩
  | cons newRequest queue ih =>
    rw [acceptRequests] at h
    split at h
    · split at h
      · exact absurd h Outcome.stop_ne_ok
      · next w hw =>
        obtain ⟨log, hr, rfl⟩ := Outcome.after_eq_ok_iff.mp h
        obtain ⟨taken, hl, hc, hworlds⟩ := ih hr
        refine ⟨(newRequest, w) :: taken, ?_, ?_, ?_⟩
        · rw [creations_append, hl]
          rfl
        · rw [hc, conns, conns, List.map_append, List.append_assoc]
          rfl
        · intro k p hp
          cases k with
          | zero =>
            obtain rfl := Option.some.inj hp
            exact hw
          | succ k => exact hworlds k p hp
    · obtain ⟨rfl, rfl⟩ := Outcome.ok_inj.mp h
      exact ⟨[], rfl, (List.append_nil _).symm, fun k p hp ↦ absurd hp (by simp)⟩

/-- One connection took a step, or none did. -/
inductive OneStep (b : Build) (s : TftpServer) (l : List ServerAction) (s' : TftpServer) : Prop
  | idle (log : l = []) (conns : s'.conns = s.conns)
  | step {i : Nat} {e : Event} {actions : List Action} {c c' : TftpServerConnection}
      (found : s.conns[i]? = some c) (step : TftpServerConnection.step b c e = .ok actions c')
      (log : l = [.called i e c] ∨ e = .tick ∧ l = [])
      (conns : s'.conns = s.conns.set i c')

theorem oneStep_serviceClient {i : Nat} {event : Option Event}
    (h : s.serviceClient b i event = .ok l s') : OneStep b s l s' := by
  rw [serviceClient] at h
  split at h
  · obtain ⟨rfl, rfl⟩ := Outcome.ok_inj.mp h
    exact .idle rfl rfl
  · next registered hi =>
    have hfound : s.conns[i]? = some registered.conn := by
      rw [conns, List.getElem?_map, hi]
      rfl
    split at h
    · obtain ⟨rfl, rfl⟩ := Outcome.ok_inj.mp h
      refine .idle rfl ?_
      rw [conns, List.map_set]
      exact set_of_getElem? hfound
    · split at h
      · exact absurd h Outcome.stop_ne_ok
      · next e _ conn hc =>
        obtain ⟨rfl, rfl⟩ := Outcome.ok_inj.mp h
        exact .step hfound (Outcome.eq_ok_of_next hc) (.inl rfl) List.map_set

/-- A timer that runs out is an event of its connection. -/
theorem oneStep_tick (s : TftpServer) (i : Nat) : OneStep b s [] { s with
    clientConnections := s.clientConnections.modify i Registered.elapse } := by
  rw [List.modify_eq_set_getElem?]
  cases hi : s.clientConnections[i]? with
  | none => exact .idle rfl rfl
  | some registered =>
    have hfound : s.conns[i]? = some registered.conn := by
      rw [conns, List.getElem?_map, hi]
      rfl
    exact .step hfound (e := .tick) rfl (.inr ⟨rfl, rfl⟩) List.map_set

/-- Every occurrence creates connections or is an event of at most one. -/
theorem conns_handle {o : Occurrence} (h : s.handle b o = .ok l s') :
    (∃ taken : List (RequestT × World), creations l = taken.map Prod.fst ∧
      (∀ i e c, .called i e c ∉ l) ∧
      s'.conns = s.conns ++ (taken.map fun p ↦ create p.2 p.1.request) ∧
      ∀ k p, taken[k]? = some p → ∃ worlds, o = .requests worlds ∧ worlds k = .ok p.2) ∨
    creations l = [] ∧ OneStep b s l s' := by
  cases o with
  | requests worlds =>
    left
    rw [handle, handleRequests] at h
    split at h
    · exact absurd h Outcome.stop_ne_ok
    · next connHandler hd =>
      obtain ⟨taken, hl, hc, hworlds⟩ := conns_acceptRequests h
      obtain ⟨served, hs, -⟩ := (accepted_acceptRequests h).served
      refine ⟨taken, hl, fun i e c hm ↦ ?_, hc, fun k p hp ↦ ⟨worlds, rfl, hworlds k p hp⟩⟩
      rw [hs] at hm
      obtain ⟨r, -, hr⟩ := List.mem_map.mp hm
      exact ServerAction.noConfusion hr
  | socket i events r snd =>
    exact .inr ⟨creations_of_internal (serviced_serviceClient h).internal, oneStep_serviceClient h⟩
  | timer i r =>
    rw [handle] at h
    exact .inr ⟨creations_of_internal (serviced_serviceClient h).internal, oneStep_serviceClient h⟩
  | arrival a =>
    obtain ⟨rfl, rfl⟩ := Outcome.ok_inj.mp h
    left
    refine ⟨[], rfl, fun i e c hm ↦ ?_, (List.append_nil _).symm, fun k p hp ↦ absurd hp (by simp)⟩
    exact ServerAction.noConfusion (List.mem_singleton.mp hm)
  | tick i =>
    obtain ⟨rfl, rfl⟩ := Outcome.ok_inj.mp h
    exact .inr ⟨rfl, oneStep_tick s i⟩

/-! ### Sessions -/

/-- Every handler call finds a session, and that of an accepted request. -/
def CallsSessions (b : Build) (log : List ServerAction) : Prop :=
  ∀ i e c, .called i e c ∈ log → ∃ x : Session b, x.conn = c ∧ x.request ∈ creations log

/-- The connections of the server are sessions, in the order in which their requests were
accepted. -/
structure Hosted (b : Build) (log : List ServerAction) (s : TftpServer) : Prop where
  sessions : ∃ xs : List (Session b), xs.map Session.conn = s.conns ∧
    (xs.map Session.request).Sublist (creations log)
  called : CallsSessions b log

theorem hosted_start (b : Build) (max : Nat) : Hosted b [] (start max) :=
  ⟨⟨[], rfl, List.Sublist.refl _⟩, fun _ _ _ h ↦ absurd h List.not_mem_nil⟩

/-- A connection of the server is a session. -/
theorem Hosted.exists_session (h : Hosted b log s) {i : Nat} {c : TftpServerConnection}
    (hi : s.conns[i]? = some c) :
    ∃ xs : List (Session b), ∃ x, xs[i]? = some x ∧ x.conn = c ∧ x.request ∈ creations log ∧
      xs.map Session.conn = s.conns ∧ (xs.map Session.request).Sublist (creations log) := by
  obtain ⟨xs, hx, hsub⟩ := h.sessions
  rw [← hx, List.getElem?_map] at hi
  obtain ⟨x, hxi, hxc⟩ := Option.map_eq_some_iff.mp hi
  refine ⟨xs, x, hxi, hxc, ?_, hx, hsub⟩
  exact hsub.subset (List.mem_map_of_mem (List.mem_of_getElem? hxi))

/-- Calls of connections of the server are calls of sessions. -/
theorem Hosted.called_append (h : Hosted b log s)
    (hl : ∀ i e c, .called i e c ∈ l → s.conns[i]? = some c) : CallsSessions b (log ++ l) := by
  intro i e c hm
  have hx : ∃ x : Session b, x.conn = c ∧ x.request ∈ creations log := by
    rcases List.mem_append.mp hm with hm | hm
    · exact h.called i e c hm
    · obtain ⟨xs, x, -, hc, hr, -, -⟩ := h.exists_session (hl i e c hm)
      exact ⟨x, hc, hr⟩
  obtain ⟨x, hc, hr⟩ := hx
  refine ⟨x, hc, ?_⟩
  rw [creations_append]
  exact List.mem_append_left _ hr

/-- An event of a connection goes on with its session. -/
theorem Hosted.oneStep (h : Hosted b log s) (hl : creations l = []) (hs : OneStep b s l s') :
    Hosted b (log ++ l) s' := by
  cases hs with
  | idle hlog hconns =>
    rw [hlog, List.append_nil]
    exact ⟨hconns ▸ h.sessions, h.called⟩
  | @step i e actions c c' found step hlog hconns =>
    obtain ⟨xs, x, hxi, rfl, -, hx, hsub⟩ := h.exists_session found
    constructor
    · refine ⟨xs.set i (x.extend step), ?_, ?_⟩
      · rw [hconns, List.map_set, hx]
        rfl
      · have hreq : (xs.map Session.request)[i]? = some (x.extend step).request := by
          rw [List.getElem?_map, hxi]
          rfl
        rw [creations_append, hl, List.append_nil, List.map_set, set_of_getElem? hreq]
        exact hsub
    · apply h.called_append
      intro j f c hm
      rcases hlog with rfl | ⟨-, rfl⟩
      · obtain ⟨rfl, -, rfl⟩ := ServerAction.called.inj (List.mem_singleton.mp hm)
        exact found
      · exact absurd hm List.not_mem_nil

/-- Every occurrence leads from sessions to sessions. -/
theorem Hosted.handle {o : Occurrence} (h : Hosted b log s) (hs : s.handle b o = .ok l s') :
    Hosted b (log ++ l) s' := by
  rcases conns_handle hs with ⟨taken, hl, hcalled, hconns, -⟩ | ⟨hl, hone⟩
  · constructor
    · obtain ⟨xs, hx, hsub⟩ := h.sessions
      refine ⟨xs ++ taken.map fun p ↦ Session.opened p.1 p.2, ?_, ?_⟩
      · rw [hconns, List.map_append, hx, List.map_map]
        rfl
      · rw [creations_append, hl, List.map_append, List.map_map]
        exact hsub.append (List.Sublist.refl _)
    · apply h.called_append
      intro i e c hm
      exact absurd hm (hcalled i e c)
  · exact h.oneStep hl hone

/-! ### Whole runs -/

/-- A batch leads from sessions to sessions. -/
theorem Hosted.batch {batch : List Occurrence} (h : Hosted b log s)
    (hr : Runs (TftpServer.handle b) s batch l s') : Hosted b (log ++ l) s' := by
  apply hr.invariant (I := fun l s ↦ Hosted b (log ++ l) s)
  · rw [List.append_nil]
    exact h
  · intro l' c o l'' c' hc hs
    rw [← List.append_assoc]
    exact hc.handle hs

/-- The clean-up calls no handler and creates nothing. -/
theorem called_cleanUp (n : EndIncrement) (s : TftpServer) {i : Nat} {e : Event}
    {c : TftpServerConnection} : .called i e c ∉ (s.cleanUp n).log := by
  intro hm
  rcases log_cleanUp n s hm with h | ⟨r, h⟩
  · exact ServerAction.noConfusion h
  · exact ServerAction.noConfusion h

/-- The clean-up leaves sessions, in their order. -/
theorem Hosted.cleanUp {n : EndIncrement} (h : Hosted b log s) (hs : s.cleanUp n = .ok l s') :
    Hosted b (log ++ l) s' := by
  have hlog : (s.cleanUp n).log = l := by
    rw [hs]
    rfl
  constructor
  · obtain ⟨xs, hx, hsub⟩ := h.sessions
    have hkept : s'.conns.Sublist (xs.map Session.conn) := by
      rw [hx]
      exact (sublist_of_cleanUp hs).map Registered.conn
    obtain ⟨ys, hys, hy⟩ := List.sublist_map_iff.mp hkept
    refine ⟨ys, hy.symm, ?_⟩
    rw [creations_append, creations_of_internal (internal_cleanUp hs), List.append_nil]
    exact (hys.map Session.request).trans hsub
  · apply h.called_append
    intro i e c hm
    rw [← hlog] at hm
    exact absurd hm (called_cleanUp n s)

/-- An iteration leads from sessions to sessions. -/
theorem Hosted.iterate {n : EndIncrement} {wait : EpollWait} (h : Hosted b log s)
    (hs : s.iterate n b wait = .ok l s') : Hosted b (log ++ l) s' := by
  rcases iterate_cases hs with ⟨-, rfl, rfl⟩ | ⟨batch, l₁, s₁, l₂, -, hb, hc, rfl⟩
  · rw [List.append_nil]
    exact h
  · rw [← List.append_assoc]
    exact (h.batch hb).cleanUp hc

end TftpServer
end CppTftp
