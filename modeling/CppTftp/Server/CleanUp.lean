import CppTftp.Server.TftpServer

/-!
# The clean-up behind every batch

`tftp_server.cpp:116–125` erases from the list it walks over and advances in any case. What it
does to every list of connections, and on which lists it does what it is for.
-/

namespace CppTftp.TftpServer

open Lib

/-- The clean-up deregisters and erases the finished connections in order, keeps the others
and stays inside the list. -/
def ErasesFinished (n : EndIncrement) (s : TftpServer) : Prop :=
  s.cleanUp n = .ok ((s.clientConnections.filter isFinished).map .deregistered)
    { s with clientConnections := s.clientConnections.filter fun r ↦ !isFinished r }

/-- No two neighbours are finished, and neither is the last connection. -/
def FinishedApart (s : TftpServer) : Prop := Separated isFinished s.clientConnections

instance (s : TftpServer) : Decidable s.FinishedApart :=
  inferInstanceAs (Decidable (Separated _ _))

/-- A clean-up that returns is a loop that ended. -/
theorem cleanUp_eq_ok_iff {n : EndIncrement} {s s' : TftpServer} {l : List ServerAction} :
    s.cleanUp n = .ok l s' ↔
      ∃ log kept, eraseLoop n isFinished s.clientConnections = .ok log kept ∧
        l = log.map ofErasure ∧ s' = { s with clientConnections := kept } := by
  rw [cleanUp]
  generalize eraseLoop n isFinished s.clientConnections = o
  obtain ⟨log, next⟩ := o
  cases next with
  | error t => simp [Outcome.ok]
  | ok kept =>
    simp only [Outcome.ok, Outcome.mk.injEq, Except.ok.injEq]
    constructor
    · rintro ⟨hl, hs⟩
      exact ⟨log, kept, ⟨rfl, rfl⟩, hl.symm, hs.symm⟩
    · rintro ⟨log', kept', ⟨hl, hk⟩, hl', hs⟩
      rw [hl, hk]
      exact ⟨hl'.symm, hs.symm⟩

/-- A clean-up whose walk stays inside the list. -/
theorem cleanUp_inside (n : EndIncrement) {s : TftpServer}
    (h : (walk isFinished s.clientConnections).overrun = false) :
    s.cleanUp n = .ok ((walk isFinished s.clientConnections).log.map ofErasure)
      { s with clientConnections := (walk isFinished s.clientConnections).kept } :=
  cleanUp_eq_ok_iff.mpr ⟨_, _, eraseLoop_inside n h, rfl, rfl⟩

/-- The actions of the clean-up tell which actions of the loop they stand for. -/
theorem ofErasure_injective : Function.Injective ofErasure := by
  intro a b h
  cases a with
  | erase r =>
    cases b with
    | erase r' => rw [ServerAction.deregistered.inj h]
    | pastTheEnd => exact ServerAction.noConfusion h
  | pastTheEnd =>
    cases b with
    | erase r' => exact ServerAction.noConfusion h
    | pastTheEnd => rfl

/-- The clean-up does what it is for exactly where the finished connections stand apart. -/
theorem erasesFinished_iff (n : EndIncrement) (s : TftpServer) :
    s.ErasesFinished n ↔ s.FinishedApart := by
  rw [FinishedApart, ← eraseLoop_eq_filter_iff n, ErasesFinished, cleanUp_eq_ok_iff]
  have hmap : (s.clientConnections.filter isFinished).map ServerAction.deregistered =
      ((s.clientConnections.filter isFinished).map Erasure.erase).map ofErasure := by
    rw [List.map_map]
    rfl
  constructor
  · rintro ⟨log, kept, ho, hl, hs⟩
    rw [hmap] at hl
    rw [ho, List.map_injective_iff.mpr ofErasure_injective hl]
    have hk : s.clientConnections.filter (fun r ↦ !isFinished r) = kept :=
      congrArg clientConnections hs
    rw [hk]
  · intro h
    exact ⟨_, _, h, hmap, rfl⟩

/-- Three connections of which the first two are finished. -/
def twoFinished : TftpServer where
  maxClients := 3
  clientConnections := [⟨{ type := .read, finished := true }, .write⟩,
    ⟨{ type := .write, finished := true }, .write⟩, ⟨{ type := .read }, .write⟩]

/-- What is left of them behind the clean-up. -/
def oneFinished : TftpServer where
  maxClients := 3
  clientConnections := [⟨{ type := .write, finished := true }, .write⟩,
    ⟨{ type := .read }, .write⟩]

private theorem cleanUp_twoFinished (n : EndIncrement) :
    twoFinished.cleanUp n =
      .ok [.deregistered ⟨{ type := .read, finished := true }, .write⟩] oneFinished :=
  cleanUp_inside n rfl

private theorem not_erases_twoFinished (n : EndIncrement) : ¬ twoFinished.ErasesFinished n := by
  intro h
  rw [ErasesFinished, cleanUp_twoFinished] at h
  have hl := congrArg List.length (Outcome.ok_inj.mp h).1
  exact absurd hl (by decide)

/-- Of two finished neighbours the second one stays registered. -/
theorem twoFinished_not_erased :
    ¬ twoFinished.ErasesFinished .undefined ∧ ¬ twoFinished.ErasesFinished .wraps ∧
      ∃ l, twoFinished.cleanUp .wraps = .ok l oneFinished ∧
        ∃ r ∈ oneFinished.clientConnections, isFinished r = true := by
  refine ⟨not_erases_twoFinished _, not_erases_twoFinished _, _, cleanUp_twoFinished _, ?_⟩
  exact ⟨_, List.mem_cons_self, rfl⟩

/-! ### What holds of every clean-up -/

/-- A clean-up that returns leaves a part of the connections, in their order. -/
theorem sublist_of_cleanUp {n : EndIncrement} {s s' : TftpServer} {l : List ServerAction}
    (h : s.cleanUp n = .ok l s') : s'.clientConnections.Sublist s.clientConnections := by
  obtain ⟨log, kept, ho, -, rfl⟩ := cleanUp_eq_ok_iff.mp h
  exact sublist_of_eraseLoop ho

/-- It frees a slot exactly when some connection is finished. -/
theorem cleanUp_frees_iff {n : EndIncrement} {s s' : TftpServer} {l : List ServerAction}
    (h : s.cleanUp n = .ok l s') :
    s'.clientConnections.length < s.clientConnections.length ↔
      ∃ r ∈ s.clientConnections, isFinished r = true := by
  obtain ⟨log, kept, ho, -, rfl⟩ := cleanUp_eq_ok_iff.mp h
  exact length_eraseLoop_lt_iff ho

/-- It looks at nothing but the connections. -/
theorem cleanUp_other {n : EndIncrement} {s s' : TftpServer} {l : List ServerAction}
    (h : s.cleanUp n = .ok l s') :
    s'.connHandler = s.connHandler ∧ s'.maxClients = s.maxClients := by
  obtain ⟨log, kept, -, -, rfl⟩ := cleanUp_eq_ok_iff.mp h
  exact ⟨rfl, rfl⟩

/-- Its actions concern connections that are being erased. -/
theorem log_cleanUp (n : EndIncrement) (s : TftpServer) {a : ServerAction}
    (h : a ∈ (s.cleanUp n).log) : a = .pastTheEnd ∨ ∃ r, a = .deregistered r := by
  rw [cleanUp] at h
  obtain ⟨x, -, rfl⟩ := List.mem_map.mp h
  cases x with
  | erase r => exact .inr ⟨r, rfl⟩
  | pastTheEnd => exact .inl rfl

/-- The only way in which it does not return is an increment of the end. -/
theorem stop_cleanUp {n : EndIncrement} {s : TftpServer} {t : ServerStop}
    (h : (s.cleanUp n).next = .error t) : t = .undefinedBehaviour := by
  rw [cleanUp] at h
  dsimp only at h
  split at h
  · exact absurd h nofun
  · exact (Except.error.inj h).symm

end CppTftp.TftpServer
