import Mathlib.Data.List.Basic

/-!
# Paced logs

A log of entries with the times at which they were made. Some entries are sends and some answer
what was sent before. The log is paced when a send that nothing has answered is followed by the
next one only after a gap. Then every window of time sees few sends.
-/

namespace CppTftp.Lib

universe u

variable {α : Type u} (isSend isAnswer : α → Bool)

/-- The time of the last send that nothing has answered, after one more entry. -/
def noteEntry (x : Option Nat) (e : Nat × α) : Option Nat :=
  if isSend e.2 then some e.1 else if isAnswer e.2 then none else x

/-- The time of the last send that nothing has answered. -/
def unanswered (x : Option Nat) (log : List (Nat × α)) : Option Nat :=
  log.foldl (noteEntry isSend isAnswer) x

/-- A send comes at least `gap` after the last one, if nothing has answered that. -/
def Paced (gap : Nat) : Option Nat → List (Nat × α) → Prop
  | _, [] => True
  | x, e :: log =>
    (isSend e.2 = true → ∀ s, x = some s → s + gap ≤ e.1) ∧
      Paced gap (noteEntry isSend isAnswer x e) log

variable {isSend isAnswer} {gap s t : Nat} {x : Option Nat} {l l' log : List (Nat × α)}

@[simp] theorem unanswered_nil (x : Option Nat) : unanswered isSend isAnswer x [] = x := rfl

theorem unanswered_cons (x : Option Nat) (e : Nat × α) (l : List (Nat × α)) :
    unanswered isSend isAnswer x (e :: l) =
      unanswered isSend isAnswer (noteEntry isSend isAnswer x e) l := rfl

/-- What is unanswered after two parts of a log. -/
theorem unanswered_append (x : Option Nat) (l l' : List (Nat × α)) :
    unanswered isSend isAnswer x (l ++ l') =
      unanswered isSend isAnswer (unanswered isSend isAnswer x l) l' :=
  List.foldl_append

/-- The two parts of a paced log. -/
theorem paced_append : Paced isSend isAnswer gap x (l ++ l') ↔
    Paced isSend isAnswer gap x l ∧
      Paced isSend isAnswer gap (unanswered isSend isAnswer x l) l' := by
  induction l generalizing x with
  | nil => exact (and_iff_right trivial).symm
  | cons e l ih =>
    rw [List.cons_append, Paced, Paced, ih, and_assoc]
    rfl

/-- Entries that are not sends keep a log paced. -/
theorem paced_of_no_send (h : ∀ e ∈ l, isSend e.2 = false) :
    Paced isSend isAnswer gap x l := by
  induction l generalizing x with
  | nil => trivial
  | cons e l ih =>
    have he := h e List.mem_cons_self
    refine ⟨fun hs ↦ ?_, ih fun e' he' ↦ h e' (List.mem_cons_of_mem e he')⟩
    rw [he] at hs
    cases hs

/-- What came before a paced log can be forgotten. -/
theorem Paced.forget (h : Paced isSend isAnswer gap x l) : Paced isSend isAnswer gap none l := by
  induction l generalizing x with
  | nil => trivial
  | cons e l ih =>
    refine ⟨fun _ s hs ↦ absurd hs (Option.some_ne_none s).symm, ?_⟩
    unfold noteEntry
    by_cases hs : isSend e.2
    · have ht := h.2
      rw [noteEntry, if_pos hs] at ht
      rw [if_pos hs]
      exact ht
    · rw [if_neg hs, ite_self]
      exact ih h.2

/-- In a paced log, sends that are not paid for by an answer are paid for by time. -/
private theorem Paced.count_aux (hp : Paced isSend isAnswer gap x l)
    (hsorted : l.Pairwise fun e e' ↦ e.1 ≤ e'.1) (hst : s ≤ t)
    (hlow : ∀ e ∈ l, s ≤ e.1) (hhigh : ∀ e ∈ l, e.1 ≤ t) :
    (x = none → l.countP (isSend ·.2) * gap + s ≤ (l.countP (isAnswer ·.2) + 1) * gap + t) ∧
      (x = some s → l.countP (isSend ·.2) * gap + s ≤ l.countP (isAnswer ·.2) * gap + t) := by
  induction l generalizing x s with
  | nil =>
    refine ⟨fun _ ↦ ?_, fun _ ↦ ?_⟩
    · simp only [List.countP_nil]
      omega
    · simp only [List.countP_nil]
      omega
  | cons e l ih =>
    have hse := hlow e List.mem_cons_self
    have het := hhigh e List.mem_cons_self
    have hlow' : ∀ e' ∈ l, s ≤ e'.1 := fun e' he' ↦ hlow e' (List.mem_cons_of_mem e he')
    have hhigh' : ∀ e' ∈ l, e'.1 ≤ t := fun e' he' ↦ hhigh e' (List.mem_cons_of_mem e he')
    have hsorted' := List.pairwise_cons.mp hsorted
    have hrest := hp.2
    by_cases hsend : isSend e.2
    · -- the time of this send is where the rest is counted from
      rw [noteEntry, if_pos hsend] at hrest
      have hcount := (ih hrest hsorted'.2 het hsorted'.1 hhigh').2 rfl
      have hanswers : l.countP (isAnswer ·.2) ≤ (e :: l).countP (isAnswer ·.2) :=
        (List.sublist_cons_self e l).countP_le
      have hmul := Nat.mul_le_mul_right gap hanswers
      have hgap : x = some s → s + gap ≤ e.1 := fun hx ↦ hp.1 hsend s hx
      have hcons := List.countP_cons_of_pos (p := fun e : Nat × α ↦ isSend e.2) (l := l) hsend
      rw [hcons]
      generalize l.countP (isSend ·.2) = n at hcount ⊢
      generalize (e :: l).countP (isAnswer ·.2) = m at hmul ⊢
      rw [Nat.add_mul, Nat.add_mul, Nat.one_mul]
      refine ⟨fun _ ↦ by omega, fun hx ↦ ?_⟩
      have hle := hgap hx
      omega
    · rw [noteEntry, if_neg hsend] at hrest
      have hcons := List.countP_cons_of_neg (p := fun e : Nat × α ↦ isSend e.2) (l := l) hsend
      rw [hcons]
      by_cases hanswer : isAnswer e.2
      · rw [if_pos hanswer] at hrest
        have hcount := (ih hrest hsorted'.2 hst hlow' hhigh').1 rfl
        have hcons := List.countP_cons_of_pos (p := fun e : Nat × α ↦ isAnswer e.2) (l := l) hanswer
        rw [hcons]
        refine ⟨fun _ ↦ ?_, fun _ ↦ hcount⟩
        rw [Nat.add_mul (_ + 1), Nat.one_mul]
        omega
      · rw [if_neg hanswer] at hrest
        have hcons := List.countP_cons_of_neg (p := fun e : Nat × α ↦ isAnswer e.2) (l := l) hanswer
        rw [hcons]
        exact ih hrest hsorted'.2 hst hlow' hhigh'

/-- The window rule: a part of a paced log between two times has at most one send for each of its
answers, one for each gap between the times, and one more. -/
theorem Paced.countP_le (hp : Paced isSend isAnswer gap x log) (hgap : 0 < gap)
    (hsorted : log.Pairwise fun e e' ↦ e.1 ≤ e'.1) (hst : s ≤ t)
    (hwindow : ∀ e ∈ log, s ≤ e.1 ∧ e.1 ≤ t) :
    log.countP (isSend ·.2) ≤ log.countP (isAnswer ·.2) + 1 + (t - s) / gap := by
  have hcount := (hp.forget.count_aux hsorted hst (fun e he ↦ (hwindow e he).1)
    (fun e he ↦ (hwindow e he).2)).1 rfl
  have hsub : (log.countP (isSend ·.2) - (log.countP (isAnswer ·.2) + 1)) * gap ≤ t - s := by
    rw [Nat.sub_mul]
    omega
  have hdiv := (Nat.le_div_iff_mul_le hgap).mpr hsub
  omega

end CppTftp.Lib
