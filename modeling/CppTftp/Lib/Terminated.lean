import Mathlib.Data.List.Basic

/-!
# Terminated strings

Every list is, in exactly one way, a row of strings that do not hold the terminator, each with
one behind it, and a tail that does not hold it either.
-/

namespace CppTftp.Lib

universe u

variable {α : Type u} {z : α}

/-- Strings in a row, each with its terminator. -/
def terminated (z : α) (strings : List (List α)) : List α := strings.flatMap (· ++ [z])

/-- A list consists of these strings with their terminators and this tail. -/
structure SplitsAs (z : α) (xs : List α) (strings : List (List α)) (tail : List α) : Prop where
  eq : xs = terminated z strings ++ tail
  strings : ∀ s ∈ strings, z ∉ s
  tail : z ∉ tail

@[simp] theorem terminated_nil : terminated z [] = [] := rfl

@[simp] theorem terminated_cons (s : List α) (strings : List (List α)) :
    terminated z (s :: strings) = s ++ z :: terminated z strings := by
  simp [terminated]

/-- A row of strings ends with a terminator. -/
theorem getLast?_terminated {strings : List (List α)} (h : strings ≠ []) :
    (terminated z strings).getLast? = some z := by
  induction strings with
  | nil => exact absurd rfl h
  | cons s strings ih =>
    rw [terminated_cons]
    cases strings with
    | nil => simp
    | cons s' strings =>
      have hrest := ih (List.cons_ne_nil s' strings)
      rw [List.getLast?_append, List.getLast?_cons, hrest]
      rfl

/-- What stands before the first terminator is determined. -/
theorem first_unique {s s' rest rest' : List α} (hs : z ∉ s) (hs' : z ∉ s')
    (h : s ++ z :: rest = s' ++ z :: rest') : s = s' ∧ rest = rest' := by
  induction s generalizing s' with
  | nil =>
    cases s' with
    | nil => exact ⟨rfl, List.tail_eq_of_cons_eq h⟩
    | cons a s' => exact absurd (List.head_eq_of_cons_eq h ▸ List.mem_cons_self) hs'
  | cons a s ih =>
    cases s' with
    | nil => exact absurd ((List.head_eq_of_cons_eq h).symm ▸ List.mem_cons_self) hs
    | cons a' s' =>
      obtain ⟨rfl, hmore⟩ := List.cons.inj h
      have hmem := mt (List.mem_cons_of_mem a) hs
      have hmem' := mt (List.mem_cons_of_mem a) hs'
      obtain ⟨rfl, hrest⟩ := ih hmem hmem' hmore
      exact ⟨rfl, hrest⟩

/-- A string in front of what is split. -/
theorem SplitsAs.cons {xs s tail : List α} {strings : List (List α)}
    (h : SplitsAs z xs strings tail) (hs : z ∉ s) :
    SplitsAs z (s ++ z :: xs) (s :: strings) tail := by
  constructor
  · rw [h.eq, terminated_cons, List.append_assoc, List.cons_append]
  · intro s' hs'
    rcases List.mem_cons.mp hs' with rfl | hs'
    · exact hs
    · exact h.strings s' hs'
  · exact h.tail

/-- Without terminators there is only the tail. -/
theorem splitsAs_nil {xs : List α} (h : z ∉ xs) : SplitsAs z xs [] xs :=
  ⟨rfl, fun _ hs ↦ absurd hs List.not_mem_nil, h⟩

/-- Every list can be split. -/
theorem exists_splitsAs (z : α) (xs : List α) : ∃ strings tail, SplitsAs z xs strings tail := by
  classical
  induction xs with
  | nil => exact ⟨[], [], splitsAs_nil List.not_mem_nil⟩
  | cons x xs ih =>
    obtain ⟨strings, tail, h⟩ := ih
    by_cases hx : x = z
    · refine ⟨[] :: strings, tail, ?_⟩
      rw [hx]
      exact h.cons List.not_mem_nil
    · have hne : z ≠ x := Ne.symm hx
      cases strings with
      | nil =>
        refine ⟨[], x :: xs, splitsAs_nil ?_⟩
        rw [h.eq, terminated_nil, List.nil_append, List.mem_cons]
        exact not_or_intro hne h.tail
      | cons s strings =>
        refine ⟨(x :: s) :: strings, tail, ?_, ?_, h.tail⟩
        · rw [h.eq, terminated_cons, terminated_cons, List.cons_append, List.cons_append]
        · intro s' hs'
          rcases List.mem_cons.mp hs' with rfl | hs'
          · rw [List.mem_cons]
            exact not_or_intro hne (h.strings s List.mem_cons_self)
          · exact h.strings s' (List.mem_cons_of_mem s hs')

/-- A list can be split in one way only. -/
theorem SplitsAs.unique {xs tail tail' : List α} {strings strings' : List (List α)}
    (h : SplitsAs z xs strings tail) (h' : SplitsAs z xs strings' tail') :
    strings = strings' ∧ tail = tail' := by
  induction strings generalizing xs strings' with
  | nil =>
    cases strings' with
    | nil => exact ⟨rfl, h.eq.symm.trans h'.eq⟩
    | cons s' strings' =>
      have hz : z ∈ xs := by simp [h'.eq]
      rw [h.eq] at hz
      exact absurd hz h.tail
  | cons s strings ih =>
    cases strings' with
    | nil =>
      have hz : z ∈ xs := by simp [h.eq]
      rw [h'.eq] at hz
      exact absurd hz h'.tail
    | cons s' strings' =>
      have heq : s ++ z :: (terminated z strings ++ tail) =
          s' ++ z :: (terminated z strings' ++ tail') := by
        simpa using h.eq.symm.trans h'.eq
      obtain ⟨rfl, hrest⟩ :=
        first_unique (h.strings s List.mem_cons_self) (h'.strings s' List.mem_cons_self) heq
      have hmem : ∀ {ss : List (List α)}, (∀ t ∈ s :: ss, z ∉ t) → ∀ t ∈ ss, z ∉ t :=
        fun hall t ht ↦ hall t (List.mem_cons_of_mem s ht)
      obtain ⟨rfl, rfl⟩ := ih ⟨rfl, hmem h.strings, h.tail⟩ ⟨hrest, hmem h'.strings, h'.tail⟩
      exact ⟨rfl, rfl⟩

/-- There are as many strings as terminators. -/
theorem SplitsAs.length_eq [DecidableEq α] {xs tail : List α} {strings : List (List α)}
    (h : SplitsAs z xs strings tail) : strings.length = xs.count z := by
  induction strings generalizing xs with
  | nil =>
    rw [h.eq, terminated_nil, List.nil_append, List.count_eq_zero_of_not_mem h.tail]
    rfl
  | cons s strings ih =>
    have hrest : SplitsAs z (terminated z strings ++ tail) strings tail :=
      ⟨rfl, fun t ht ↦ h.strings t (List.mem_cons_of_mem s ht), h.tail⟩
    have hs : s.count z = 0 := List.count_eq_zero_of_not_mem (h.strings s List.mem_cons_self)
    rw [h.eq, terminated_cons, List.append_assoc, List.cons_append, List.count_append,
      List.count_cons_self, hs, List.length_cons, ih hrest, Nat.zero_add]

/-- Nothing is left behind the strings exactly when the last element is a terminator. -/
theorem SplitsAs.tail_eq_nil_iff {xs tail : List α} {strings : List (List α)}
    (h : SplitsAs z xs strings tail) : tail = [] ↔ ∀ a ∈ xs.getLast?, a = z := by
  constructor
  · rintro rfl
    intro a ha
    rw [h.eq, List.append_nil] at ha
    cases strings with
    | nil => cases ha
    | cons s strings =>
      rw [getLast?_terminated (List.cons_ne_nil s strings)] at ha
      exact (Option.some.inj ha).symm
  · intro hlast
    by_contra hne
    have hmem : tail.getLast hne = z := by
      apply hlast
      rw [h.eq, List.getLast?_append_of_ne_nil _ hne, List.getLast?_eq_some_getLast hne]
      rfl
    exact h.tail (hmem ▸ List.getLast_mem hne)

end CppTftp.Lib
