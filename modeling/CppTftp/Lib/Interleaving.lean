import CppTftp.Lib.Run
import Mathlib.Data.List.Perm.Basic

/-!
# Interleavings of events with different targets

Every event has a target. Two orders of the same events with the same events for each target,
in the same order, differ by exchanges of neighbours with different targets; where such
neighbours commute, a run in one order is a run in the other.
-/

namespace CppTftp.Lib

universe u v w x y

variable {α : Type u} {τ : Type v} {σ : Type w} {ε : Type x} {κ : Type y}

/-- Orders that differ by exchanges of neighbours with different targets. -/
inductive Interleaved (target : ε → κ) : List ε → List ε → Prop
  | refl (es : List ε) : Interleaved target es es
  | cons {es fs : List ε} (e : ε) :
      Interleaved target es fs → Interleaved target (e :: es) (e :: fs)
  | swap {e f : ε} (es : List ε) :
      target e ≠ target f → Interleaved target (e :: f :: es) (f :: e :: es)
  | trans {es fs gs : List ε} :
      Interleaved target es fs → Interleaved target fs gs → Interleaved target es gs

variable {target : ε → κ}

/-- An event moves behind events for other targets. -/
theorem Interleaved.push {e : ε} {pre : List ε} (h : ∀ f ∈ pre, target e ≠ target f)
    (post : List ε) : Interleaved target (e :: (pre ++ post)) (pre ++ e :: post) := by
  induction pre with
  | nil => exact .refl _
  | cons f pre ih =>
    have hswap : Interleaved target (e :: f :: (pre ++ post)) (f :: e :: (pre ++ post)) :=
      .swap _ (h f List.mem_cons_self)
    exact hswap.trans ((ih fun g hg ↦ h g (List.mem_cons_of_mem f hg)).cons f)

/-- The first event for a target stands behind events for other targets only. -/
theorem exists_of_filter_eq_cons [DecidableEq κ] {es fs : List ε} {e : ε} {k : κ}
    (h : es.filter (target · = k) = e :: fs) :
    ∃ pre post, es = pre ++ e :: post ∧ (∀ f ∈ pre, target f ≠ k) ∧
      post.filter (target · = k) = fs := by
  obtain ⟨pre, post, rfl, hpre, -, hpost⟩ := List.filter_eq_cons_iff.mp h
  refine ⟨pre, post, rfl, fun f hf hk ↦ ?_, hpost⟩
  exact hpre f hf (decide_eq_true hk)

/-- Orders with the same events for each target, in the same order, are interleavings of each
other. -/
theorem interleaved_of_filter_eq [DecidableEq κ] {es fs : List ε}
    (h : ∀ k, es.filter (target · = k) = fs.filter (target · = k)) :
    Interleaved target es fs := by
  induction es generalizing fs with
  | nil =>
    have hnil : fs = [] := by
      rw [List.eq_nil_iff_forall_not_mem]
      intro f hf
      have hmem : f ∈ fs.filter (target · = target f) :=
        List.mem_filter.mpr ⟨hf, decide_eq_true rfl⟩
      rw [← h, List.filter_nil] at hmem
      cases hmem
    rw [hnil]
    exact .refl _
  | cons e es ih =>
    -- the first event of one order is moved to the front of the other
    have he := h (target e)
    rw [List.filter_cons_of_pos (p := (target · = target e)) (decide_eq_true rfl)] at he
    obtain ⟨pre, post, rfl, hpre, hpost⟩ := exists_of_filter_eq_cons he.symm
    have hpush := Interleaved.push (fun f hf ↦ (hpre f hf).symm) post
    refine (Interleaved.cons e (ih fun k ↦ ?_)).trans hpush
    have hk := h k
    rw [List.filter_append] at hk ⊢
    by_cases hek : target e = k
    · have hnone : pre.filter (target · = k) = [] := by
        rw [List.filter_eq_nil_iff]
        intro f hf hfk
        exact hpre f hf ((of_decide_eq_true hfk).trans hek.symm)
      have hpos : decide (target e = k) = true := decide_eq_true hek
      rw [List.filter_cons_of_pos (p := (target · = k)) hpos,
        List.filter_cons_of_pos (p := (target · = k)) hpos, hnone] at hk
      rw [hnone]
      exact (List.cons.inj hk).2
    · have hneg : ¬decide (target e = k) = true := fun hd ↦ hek (of_decide_eq_true hd)
      rw [List.filter_cons_of_neg (p := (target · = k)) hneg,
        List.filter_cons_of_neg (p := (target · = k)) hneg] at hk
      exact hk

/-- They hold the same events. -/
theorem Interleaved.mem_iff {es fs : List ε} (h : Interleaved target es fs) {e : ε} :
    e ∈ es ↔ e ∈ fs := by
  induction h with
  | refl => rfl
  | cons f _ ih => rw [List.mem_cons, List.mem_cons, ih]
  | @swap f g es _ => exact (List.Perm.swap g f es).mem_iff
  | trans _ _ ih ih' => exact ih.trans ih'

/-- In which states an event may come, where no other event takes that away, and that events
for different targets commute there. -/
structure Commutes (step : σ → ε → Outcome α τ σ) (target : ε → κ) (V : σ → ε → Prop) :
    Prop where
  kept : ∀ {s s' : σ} {e f : ε} {l : List α}, V s e → V s f → step s e = .ok l s' → V s' f
  commute : ∀ {s s₁ s₂ : σ} {e f : ε} {l₁ l₂ : List α}, target e ≠ target f → V s e → V s f →
    step s e = .ok l₁ s₁ → step s₁ f = .ok l₂ s₂ →
    ∃ s', step s f = .ok l₂ s' ∧ step s' e = .ok l₁ s₂

variable {step : σ → ε → Outcome α τ σ} {V : σ → ε → Prop}

/-- The rule of interleavings: a run in one order is a run in the other, with the same actions
and to the same state. -/
theorem Runs.interleaved (hc : Commutes step target V) {es fs : List ε}
    (h : Interleaved target es fs) {s s' : σ} {l : List α} (hv : ∀ e ∈ es, V s e)
    (hr : Runs step s es l s') :
    (∀ f ∈ fs, V s f) ∧ ∃ l', Runs step s fs l' s' ∧ l.Perm l' := by
  induction h generalizing s l s' with
  | refl => exact ⟨hv, l, hr, List.Perm.refl l⟩
  | @cons es fs e h ih =>
    obtain ⟨l₁, s₁, l₂, hs, hes, rfl⟩ := runs_cons_iff.mp hr
    have he := hv e List.mem_cons_self
    have hkept : ∀ f ∈ es, V s₁ f := fun f hf ↦
      hc.kept he (hv f (List.mem_cons_of_mem e hf)) hs
    obtain ⟨-, l', hr', hp⟩ := ih hkept hes
    refine ⟨?_, l₁ ++ l', Runs.cons hs hr', hp.append_left l₁⟩
    intro f hf
    rcases List.mem_cons.mp hf with rfl | hf
    · exact he
    · exact hv f (List.mem_cons_of_mem e (h.mem_iff.mpr hf))
  | @swap e f es hne =>
    obtain ⟨l₁, s₁, l', hs, hfs, rfl⟩ := runs_cons_iff.mp hr
    obtain ⟨l₂, s₂, l₃, hs₂, hes, rfl⟩ := runs_cons_iff.mp hfs
    have he := hv e List.mem_cons_self
    have hf := hv f (List.mem_cons_of_mem e List.mem_cons_self)
    obtain ⟨s₁', hs₁', hs₂'⟩ := hc.commute hne he hf hs hs₂
    refine ⟨fun g hg ↦ hv g ?_, l₂ ++ (l₁ ++ l₃), Runs.cons hs₁' (Runs.cons hs₂' hes), ?_⟩
    · exact (List.Perm.swap f e es).mem_iff.mpr hg
    · rw [← List.append_assoc, ← List.append_assoc]
      exact List.perm_append_comm.append_right l₃
  | trans h h' ih ih' =>
    obtain ⟨hv₁, l₁, hr₁, hp₁⟩ := ih hv hr
    obtain ⟨hv₂, l₂, hr₂, hp₂⟩ := ih' hv₁ hr₁
    exact ⟨hv₂, l₂, hr₂, hp₁.trans hp₂⟩

end CppTftp.Lib
