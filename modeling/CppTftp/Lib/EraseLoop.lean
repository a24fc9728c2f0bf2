import CppTftp.Lib.Run

/-!
# Erasing from a linked list while walking it

The loop `for (iter = begin; iter != end; ++iter) if (p(*iter)) iter = erase(iter);` over a
doubly linked list. An erasure already leads to the next element, so the increment skips
that element, and behind the last one it is applied to the end itself.
-/

namespace CppTftp.Lib

universe u

variable {α : Type u} {p : α → Bool}

/-- What an increment of the past-the-end iterator does: the language leaves it undefined, a
ring of nodes leads back to the first element. -/
inductive EndIncrement where
  | undefined
  | wraps
  deriving DecidableEq, Repr

/-- What the loop does. -/
inductive Erasure (α : Type u) where
  | erase (a : α)
  | pastTheEnd
  deriving DecidableEq, Repr

/-- One walk to the end of the list: what it keeps, what it erases, and whether it stepped
past the end. -/
structure Walk (α : Type u) where
  kept : List α
  erased : List α
  overrun : Bool

/-- The walk from an iterator that points at the first element of the list. -/
def walk (p : α → Bool) : List α → Walk α
  | [] => ⟨[], [], false⟩
  | a :: rest =>
    if p a then
      match rest with
      | [] => ⟨[], [a], true⟩
      -- the increment moves past `b`, which is not looked at
      | b :: rest =>
        let w := walk p rest
        ⟨b :: w.kept, a :: w.erased, w.overrun⟩
    else
      let w := walk p rest
      ⟨a :: w.kept, w.erased, w.overrun⟩

/-- The actions of a walk. -/
def Walk.log (w : Walk α) : List (Erasure α) :=
  w.erased.map .erase ++ if w.overrun then [.pastTheEnd] else []

theorem walk_last {a : α} (h : p a = true) : walk p [a] = ⟨[], [a], true⟩ := by
  simp [walk, h]

theorem walk_erase {a b : α} (rest : List α) (h : p a = true) :
    walk p (a :: b :: rest) =
      ⟨b :: (walk p rest).kept, a :: (walk p rest).erased, (walk p rest).overrun⟩ := by
  rw [walk, if_pos h]

theorem walk_keep {a : α} (rest : List α) (h : ¬ p a = true) :
    walk p (a :: rest) =
      ⟨a :: (walk p rest).kept, (walk p rest).erased, (walk p rest).overrun⟩ := by
  cases rest with
  | nil => simp [walk, h]
  | cons b rest => rw [walk, if_neg h]

/-- The walk's own case analysis: the end, a last element erased, an element erased with its
right neighbour skipped, an element kept. -/
theorem walk_induction {motive : List α → Prop} (nil : motive [])
    (last : ∀ a, p a = true → motive [a])
    (erase : ∀ a b rest, p a = true → motive rest → motive (a :: b :: rest))
    (keep : ∀ a rest, ¬ p a = true → motive rest → motive (a :: rest)) : ∀ l, motive l
  | [] => nil
  | [a] => by
    by_cases h : p a = true
    · exact last a h
    · exact keep a [] h nil
  | a :: b :: rest => by
    by_cases h : p a = true
    · exact erase a b rest h (walk_induction nil last erase keep rest)
    · exact keep a (b :: rest) h (walk_induction nil last erase keep (b :: rest))

/-- Every element is kept or erased. -/
theorem length_walk (p : α → Bool) (l : List α) :
    (walk p l).kept.length + (walk p l).erased.length = l.length := by
  induction l using walk_induction (p := p) with
  | nil => rfl
  | last a h => simp [walk_last h]
  | erase a b rest h ih => simp only [walk_erase rest h, List.length_cons]; omega
  | keep a rest h ih => simp only [walk_keep rest h, List.length_cons]; omega

/-- A walk past the end has erased the last element. -/
theorem erased_ne_nil_of_overrun {l : List α} (h : (walk p l).overrun = true) :
    (walk p l).erased ≠ [] := by
  induction l using walk_induction (p := p) with
  | nil => exact absurd h Bool.false_ne_true
  | last a ha => simp [walk_last ha]
  | erase a b rest ha ih => simp [walk_erase rest ha]
  | keep a rest ha ih =>
    rw [walk_keep rest ha] at h ⊢
    exact ih h

theorem length_kept_lt {l : List α} (h : (walk p l).overrun = true) :
    (walk p l).kept.length < l.length := by
  have he := List.length_pos_iff.mpr (erased_ne_nil_of_overrun h)
  have hl := length_walk p l
  omega

/-- The loop. Every walk past the end has erased something, so there are only finitely many. -/
def eraseLoop (e : EndIncrement) (p : α → Bool) (l : List α) :
    Outcome (Erasure α) Unit (List α) :=
  if _h : (walk p l).overrun = true then
    match e with
    | .undefined => .stop (walk p l).log ()
    | .wraps => (eraseLoop .wraps p (walk p l).kept).after (walk p l).log
  else .ok (walk p l).log (walk p l).kept
termination_by l.length
decreasing_by exact length_kept_lt _h

/-- A single walk that stays inside the list. -/
theorem eraseLoop_inside (e : EndIncrement) {l : List α} (h : (walk p l).overrun = false) :
    eraseLoop e p l = .ok (walk p l).log (walk p l).kept := by
  rw [eraseLoop.eq_def, dif_neg (by simp [h])]

/-- A walk past the end is the last one, or starts over. -/
theorem eraseLoop_undefined {l : List α} (h : (walk p l).overrun = true) :
    eraseLoop .undefined p l = .stop (walk p l).log () := by
  rw [eraseLoop.eq_def, dif_pos h]

theorem eraseLoop_wraps {l : List α} (h : (walk p l).overrun = true) :
    eraseLoop .wraps p l = (eraseLoop .wraps p (walk p l).kept).after (walk p l).log := by
  rw [eraseLoop.eq_def, dif_pos h]

/-- A loop that ends had a walk inside the list, or one past the end and then a loop over
what that one kept. -/
theorem eraseLoop_cases {e : EndIncrement} {l l' : List α} {log : List (Erasure α)}
    (h : eraseLoop e p l = .ok log l') :
    ((walk p l).overrun = false ∧ log = (walk p l).log ∧ l' = (walk p l).kept) ∨
      ((walk p l).overrun = true ∧
        ∃ log', eraseLoop e p (walk p l).kept = .ok log' l' ∧ log = (walk p l).log ++ log') := by
  cases ho : (walk p l).overrun with
  | false =>
    rw [eraseLoop_inside e ho] at h
    obtain ⟨hl, hk⟩ := Outcome.ok_inj.mp h
    exact .inl ⟨rfl, hl.symm, hk.symm⟩
  | true =>
    cases e with
    | undefined =>
      rw [eraseLoop_undefined ho] at h
      exact absurd h Outcome.stop_ne_ok
    | wraps =>
      rw [eraseLoop_wraps ho] at h
      exact .inr ⟨rfl, Outcome.after_eq_ok_iff.mp h⟩

/-! ### When the loop erases exactly the elements with the property -/

/-- Every element with the property is followed at once by one without it. -/
def Separated (p : α → Bool) : List α → Prop
  | [] => True
  | a :: rest => (p a = true → rest.head?.any (fun b ↦ !p b) = true) ∧ Separated p rest

instance decidableSeparated (p : α → Bool) : (l : List α) → Decidable (Separated p l)
  | [] => .isTrue trivial
  | _ :: rest => have := decidableSeparated p rest; inferInstanceAs (Decidable (_ ∧ _))

theorem not_separated_last {a : α} (h : p a = true) : ¬ Separated p [a] := fun hs ↦
  absurd (hs.1 h) Bool.false_ne_true

theorem separated_erase_iff {a b : α} (rest : List α) (h : p a = true) :
    Separated p (a :: b :: rest) ↔ ¬ p b = true ∧ Separated p rest := by
  constructor
  · intro hs
    have hb : ¬ p b = true := by simpa using hs.1 h
    exact ⟨hb, hs.2.2⟩
  · intro hs
    refine ⟨fun _ ↦ by simpa using hs.1, fun hb ↦ absurd hb hs.1, hs.2⟩

theorem separated_keep_iff {a : α} (rest : List α) (h : ¬ p a = true) :
    Separated p (a :: rest) ↔ Separated p rest :=
  ⟨fun hs ↦ hs.2, fun hs ↦ ⟨fun ha ↦ absurd ha h, hs⟩⟩

/-- On a separated list the walk stays inside the list and erases what it should. -/
theorem walk_of_separated {l : List α} (h : Separated p l) :
    (walk p l).kept = l.filter (fun a ↦ !p a) ∧ (walk p l).erased = l.filter p ∧
      (walk p l).overrun = false := by
  induction l using walk_induction (p := p) with
  | nil => exact ⟨rfl, rfl, rfl⟩
  | last a ha => exact absurd h (not_separated_last ha)
  | erase a b rest ha ih =>
    have hs := (separated_erase_iff rest ha).mp h
    obtain ⟨hk, he, ho⟩ := ih hs.2
    rw [walk_erase rest ha]
    simp [hk, he, ho, ha, hs.1]
  | keep a rest ha ih =>
    obtain ⟨hk, he, ho⟩ := ih h.2
    rw [walk_keep rest ha]
    simp [hk, he, ho, ha]

/-- A walk that stays inside the list and erases what it should was over a separated list. -/
theorem separated_of_walk {l : List α} (hk : (walk p l).kept = l.filter fun a ↦ !p a)
    (ho : (walk p l).overrun = false) : Separated p l := by
  induction l using walk_induction (p := p) with
  | nil => trivial
  | last a ha =>
    rw [walk_last ha] at ho
    exact absurd ho.symm Bool.false_ne_true
  | erase a b rest ha ih =>
    rw [walk_erase rest ha] at hk ho
    rw [separated_erase_iff rest ha]
    by_cases hb : p b = true
    · -- a second element with the property was skipped, but every kept one lacks it
      have hmem : b ∈ (a :: b :: rest).filter fun a ↦ !p a := by
        rw [← hk]
        exact List.mem_cons_self
      rw [List.mem_filter, hb] at hmem
      exact absurd hmem.2 Bool.false_ne_true
    · rw [List.filter_cons_of_neg (by simp [ha]), List.filter_cons_of_pos (by simpa using hb)] at hk
      exact ⟨hb, ih (List.cons_inj_right b |>.mp hk) ho⟩
  | keep a rest ha ih =>
    rw [walk_keep rest ha] at hk ho
    rw [List.filter_cons_of_pos (by simpa using ha)] at hk
    exact (separated_keep_iff rest ha).mpr (ih (List.cons_inj_right a |>.mp hk) ho)

/-- The loop erases exactly the elements with the property, keeps the others in order and
never steps past the end, exactly on the separated lists. -/
theorem eraseLoop_eq_filter_iff (e : EndIncrement) (p : α → Bool) (l : List α) :
    eraseLoop e p l = .ok ((l.filter p).map .erase) (l.filter fun a ↦ !p a) ↔
      Separated p l := by
  constructor
  · intro h
    rcases eraseLoop_cases h with ⟨ho, -, hk⟩ | ⟨ho, log', -, hlog⟩
    · exact separated_of_walk hk.symm ho
    · -- the step past the end is in the log, and it is no erasure
      have hmem : Erasure.pastTheEnd ∈ (l.filter p).map Erasure.erase := by
        rw [hlog, Walk.log, ho]
        simp
      simp at hmem
  · intro h
    obtain ⟨hk, he, ho⟩ := walk_of_separated h
    rw [eraseLoop_inside e ho, Walk.log, hk, he, ho]
    simp

/-! ### What the loop guarantees on every list -/

theorem kept_sublist (p : α → Bool) (l : List α) : (walk p l).kept.Sublist l := by
  induction l using walk_induction (p := p) with
  | nil => exact List.Sublist.refl []
  | last a ha => rw [walk_last ha]; exact List.nil_sublist _
  | erase a b rest ha ih =>
    rw [walk_erase rest ha]
    exact (ih.cons_cons b).cons a
  | keep a rest ha ih =>
    rw [walk_keep rest ha]
    exact ih.cons_cons a

/-- A walk over a list that has an element with the property erases one. -/
theorem erased_ne_nil {l : List α} (h : ∃ a ∈ l, p a = true) : (walk p l).erased ≠ [] := by
  induction l using walk_induction (p := p) with
  | nil => simp at h
  | last a ha => simp [walk_last ha]
  | erase a b rest ha ih => simp [walk_erase rest ha]
  | keep a rest ha ih =>
    rw [walk_keep rest ha]
    apply ih
    simpa [ha] using h

/-- What the loop returns is a part of the list, in its order. -/
theorem sublist_of_eraseLoop {e : EndIncrement} {l l' : List α} {log : List (Erasure α)}
    (h : eraseLoop e p l = .ok log l') : l'.Sublist l := by
  induction hn : l.length using Nat.strongRecOn generalizing l log with
  | ind n ih =>
    rcases eraseLoop_cases h with ⟨-, -, rfl⟩ | ⟨ho, log', hr, -⟩
    · exact kept_sublist p l
    · have hlt : (walk p l).kept.length < n := hn ▸ length_kept_lt ho
      exact (ih _ hlt hr rfl).trans (kept_sublist p l)

/-- Where no element has the property there is nothing to erase. -/
theorem separated_of_none {l : List α} (h : ∀ a ∈ l, ¬ p a = true) : Separated p l := by
  induction l with
  | nil => trivial
  | cons a rest ih =>
    refine ⟨fun ha ↦ absurd ha (h a List.mem_cons_self), ih fun b hb ↦ ?_⟩
    exact h b (List.mem_cons_of_mem a hb)

/-- The loop returns a shorter list exactly when some element has the property. -/
theorem length_eraseLoop_lt_iff {e : EndIncrement} {l l' : List α} {log : List (Erasure α)}
    (h : eraseLoop e p l = .ok log l') : l'.length < l.length ↔ ∃ a ∈ l, p a = true := by
  constructor
  · intro hlt
    by_cases hs : ∃ a ∈ l, p a = true
    · exact hs
    · have hnone : ∀ a ∈ l, ¬ p a = true := fun a ha hp ↦ hs ⟨a, ha, hp⟩
      rw [(eraseLoop_eq_filter_iff e p l).mpr (separated_of_none hnone)] at h
      obtain ⟨-, rfl⟩ := Outcome.ok_inj.mp h
      rw [List.filter_eq_self.mpr (by simpa using hnone)] at hlt
      omega
  · intro hs
    have hpos := List.length_pos_iff.mpr (erased_ne_nil hs)
    have hl := length_walk p l
    rcases eraseLoop_cases h with ⟨-, -, rfl⟩ | ⟨-, log', hr, -⟩
    · omega
    · have hle := (sublist_of_eraseLoop hr).length_le
      omega

/-! ### The loop over a list that another one is taken from -/

section Map

variable {β : Type u} {f : β → α}

/-- A walk looks at no more of an element than the property does. -/
theorem walk_map (l : List β) : walk p (l.map f) =
    ⟨(walk (p ∘ f) l).kept.map f, (walk (p ∘ f) l).erased.map f, (walk (p ∘ f) l).overrun⟩ := by
  induction l using walk_induction (p := p ∘ f) with
  | nil => rfl
  | last b hb =>
    have hfb : p (f b) = true := hb
    rw [List.map_singleton, walk_last hb, walk_last hfb]
    rfl
  | erase b c rest hb ih =>
    have hfb : p (f b) = true := hb
    rw [List.map_cons, List.map_cons, walk_erase _ hb, walk_erase _ hfb, ih]
    rfl
  | keep b rest hb ih =>
    have hfb : ¬ p (f b) = true := hb
    rw [List.map_cons, walk_keep _ hb, walk_keep _ hfb, ih]
    rfl

/-- Nor does the loop. -/
theorem eraseLoop_map {e : EndIncrement} {l : List β} {l' : List α} {log : List (Erasure α)}
    (h : eraseLoop e p (l.map f) = .ok log l') :
    ∃ log' kept, eraseLoop e (p ∘ f) l = .ok log' kept ∧ l' = kept.map f := by
  induction hn : l.length using Nat.strongRecOn generalizing l log with
  | ind n ih =>
    have hwalk := walk_map (p := p) (f := f) l
    rcases eraseLoop_cases h with ⟨ho, -, rfl⟩ | ⟨ho, log', hr, -⟩
    · rw [hwalk] at ho
      refine ⟨_, _, eraseLoop_inside e ho, ?_⟩
      rw [hwalk]
    · rw [hwalk] at ho hr
      have ho : (walk (p ∘ f) l).overrun = true := ho
      have hlt : (walk (p ∘ f) l).kept.length < n := hn ▸ length_kept_lt ho
      obtain ⟨log'', kept, hk, rfl⟩ := ih _ hlt hr rfl
      cases e with
      | undefined =>
        rw [eraseLoop_undefined (walk_map l ▸ ho)] at h
        exact absurd h Outcome.stop_ne_ok
      | wraps =>
        refine ⟨(walk (p ∘ f) l).log ++ log'', kept, ?_, rfl⟩
        rw [eraseLoop_wraps ho, hk]
        rfl

end Map

end CppTftp.Lib
