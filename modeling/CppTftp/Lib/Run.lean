import Mathlib.Data.List.Basic
import Mathlib.Logic.Relation

/-!
# Runs of a handler that logs its actions

A handler takes a state and an event, carries out actions in order, and either
returns the next state or stops for a reason. `exec` feeds it a list of events;
a run ends at the first event whose call does not return.
-/

namespace CppTftp.Lib

universe u v w x

/-- What one call leaves behind: its actions in order, and the state it returned
or the reason for which it did not return. -/
structure Outcome (α : Type u) (τ : Type v) (σ : Type w) where
  log : List α
  next : Except τ σ

variable {α : Type u} {τ : Type v} {σ : Type w} {ε : Type x}

namespace Outcome

/-- A call that returns `s` after the actions `log`. -/
def ok (log : List α) (s : σ) : Outcome α τ σ := ⟨log, .ok s⟩

/-- A call that stops for `t` after the actions `log`. -/
def stop (log : List α) (t : τ) : Outcome α τ σ := ⟨log, .error t⟩

/-- The same outcome with earlier actions put in front. -/
def after (o : Outcome α τ σ) (earlier : List α) : Outcome α τ σ := ⟨earlier ++ o.log, o.next⟩

@[simp] theorem log_ok (log : List α) (s : σ) : (ok log s : Outcome α τ σ).log = log := rfl

@[simp] theorem next_ok (log : List α) (s : σ) : (ok log s : Outcome α τ σ).next = .ok s := rfl

@[simp] theorem log_stop (log : List α) (t : τ) : (stop log t : Outcome α τ σ).log = log := rfl

@[simp] theorem next_stop (log : List α) (t : τ) :
    (stop log t : Outcome α τ σ).next = .error t := rfl

@[simp] theorem log_after (o : Outcome α τ σ) (earlier : List α) :
    (o.after earlier).log = earlier ++ o.log := rfl

@[simp] theorem next_after (o : Outcome α τ σ) (earlier : List α) :
    (o.after earlier).next = o.next := rfl

/-- One call, and another one from the state that it returned. -/
def andThen (o : Outcome α τ σ) (f : σ → Outcome α τ σ) : Outcome α τ σ :=
  match o.next with
  | .ok s => (f s).after o.log
  | .error t => .stop o.log t

@[simp] theorem ok_inj {l l' : List α} {s s' : σ} :
    (ok l s : Outcome α τ σ) = ok l' s' ↔ l = l' ∧ s = s' := by
  simp [ok]

@[simp] theorem stop_ne_ok {l l' : List α} {t : τ} {s : σ} :
    (stop l t : Outcome α τ σ) ≠ ok l' s := by
  simp [ok, stop]

/-- An outcome that returned is given by its log and its state. -/
theorem eq_ok_of_next {o : Outcome α τ σ} {s : σ} (h : o.next = .ok s) : o = ok o.log s := by
  rw [ok, ← h]

/-- An outcome that can be evaluated. -/
theorem exists_ok {o : Outcome α τ σ} {log : List α} {p : σ → Bool} (hlog : o.log = log)
    (h : o.next.toOption.any p = true) : ∃ s, o = .ok log s ∧ p s = true := by
  cases hn : o.next with
  | error t =>
    rw [hn] at h
    cases h
  | ok s =>
    rw [hn] at h
    rw [← hlog]
    exact ⟨s, eq_ok_of_next hn, h⟩

/-- An outcome that stopped is given by its log and its reason. -/
theorem eq_stop_of_next {o : Outcome α τ σ} {t : τ} (h : o.next = .error t) :
    o = stop o.log t := by
  rw [stop, ← h]

/-- Earlier actions do not change whether a call returns. -/
theorem after_eq_ok_iff {o : Outcome α τ σ} {earlier log : List α} {s : σ} :
    o.after earlier = .ok log s ↔ ∃ l, o = .ok l s ∧ log = earlier ++ l := by
  constructor
  · intro h
    have hn : o.next = .ok s := congrArg Outcome.next h
    exact ⟨o.log, eq_ok_of_next hn, (congrArg Outcome.log h).symm⟩
  · rintro ⟨l, rfl, rfl⟩
    rfl

/-- Both calls returned. -/
theorem andThen_eq_ok_iff {o : Outcome α τ σ} {f : σ → Outcome α τ σ} {log : List α} {s' : σ} :
    o.andThen f = .ok log s' ↔
      ∃ l s l', o = .ok l s ∧ f s = .ok l' s' ∧ log = l ++ l' := by
  obtain ⟨lo, n⟩ := o
  cases n with
  | error t => simp [andThen, ok, stop]
  | ok s =>
    constructor
    · intro h
      have hn : (f s).next = .ok s' := congrArg Outcome.next h
      have hl : lo ++ (f s).log = log := congrArg Outcome.log h
      exact ⟨lo, s, (f s).log, rfl, eq_ok_of_next hn, hl.symm⟩
    · rintro ⟨l, s₁, l', ho, hf, rfl⟩
      obtain ⟨rfl, hs⟩ := Outcome.mk.inj ho
      obtain rfl := Except.ok.inj hs
      rw [andThen]
      dsimp only
      rw [hf]
      rfl

/-- Every action meets `A`, a state returned meets `I` and a reason to stop meets `T`. -/
structure Meets (A : α → Prop) (I : σ → Prop) (T : τ → Prop) (o : Outcome α τ σ) : Prop where
  log : ∀ a ∈ o.log, A a
  returned : ∀ s, o.next = .ok s → I s
  stopped : ∀ t, o.next = .error t → T t

variable {A : α → Prop} {I J : σ → Prop} {T : τ → Prop} {o : Outcome α τ σ}

theorem meets_ok {l : List α} {s : σ} (hl : ∀ a ∈ l, A a) (hs : I s) :
    (ok l s : Outcome α τ σ).Meets A I T :=
  ⟨hl, fun _ h ↦ Except.ok.inj h ▸ hs, nofun⟩

theorem meets_stop {l : List α} {t : τ} (hl : ∀ a ∈ l, A a) (ht : T t) :
    (stop l t : Outcome α τ σ).Meets A I T :=
  ⟨hl, nofun, fun _ h ↦ Except.error.inj h ▸ ht⟩

/-- A call that returned without an action. -/
theorem meets_ok_nil {s : σ} (hs : I s) : (ok [] s : Outcome α τ σ).Meets A I T :=
  meets_ok (fun _ ha ↦ absurd ha List.not_mem_nil) hs

/-- A call that stopped before any action. -/
theorem meets_stop_nil {t : τ} (ht : T t) : (stop [] t : Outcome α τ σ).Meets A I T :=
  meets_stop (fun _ ha ↦ absurd ha List.not_mem_nil) ht

theorem Meets.after (h : o.Meets A I T) {earlier : List α} (he : ∀ a ∈ earlier, A a) :
    (o.after earlier).Meets A I T := by
  refine ⟨fun a ha ↦ ?_, h.returned, h.stopped⟩
  rcases List.mem_append.mp ha with ha | ha
  · exact he a ha
  · exact h.log a ha

/-- The rule of sequencing. -/
theorem Meets.andThen (h : o.Meets A I T) {f : σ → Outcome α τ σ}
    (hf : ∀ s, I s → (f s).Meets A J T) : (o.andThen f).Meets A J T := by
  obtain ⟨l, n⟩ := o
  cases n with
  | ok s => exact (hf s (h.returned s rfl)).after h.log
  | error t => exact meets_stop h.log (h.stopped t rfl)

end Outcome

/-! ### Running over a list of events -/

/-- Feed the events one by one; stop at the first call that does not return. -/
def exec (step : σ → ε → Outcome α τ σ) (s : σ) : List ε → Outcome α τ σ
  | [] => .ok [] s
  | e :: es =>
    match (step s e).next with
    | .ok s' => (exec step s' es).after (step s e).log
    | .error t => .stop (step s e).log t

/-- Every call of the run returned: from `s`, the events lead to `s'` with this log. -/
def Runs (step : σ → ε → Outcome α τ σ) (s : σ) (es : List ε) (log : List α) (s' : σ) : Prop :=
  exec step s es = .ok log s'

variable {step : σ → ε → Outcome α τ σ}

/-- The empty run. -/
theorem Runs.nil (s : σ) : Runs step s [] [] s := rfl

/-- A call that returns is followed by the execution of the other events. -/
theorem exec_cons_ok {s s' : σ} {e : ε} {l : List α} (h : step s e = .ok l s')
    (es : List ε) : exec step s (e :: es) = (exec step s' es).after l := by
  simp [exec, h]

/-- The log of a single call, whether it returns or not. -/
theorem log_exec_singleton (s : σ) (e : ε) : (exec step s [e]).log = (step s e).log := by
  rw [exec]
  split
  · exact List.append_nil _
  · rfl

/-- One call in front of a run. -/
theorem Runs.cons {s s₁ s' : σ} {e : ε} {es : List ε} {l log : List α}
    (h : step s e = .ok l s₁) (hr : Runs step s₁ es log s') :
    Runs step s (e :: es) (l ++ log) s' := by
  rw [Runs, exec_cons_ok h, hr]
  rfl

/-- A nonempty run is a call followed by a run. -/
theorem runs_cons_iff {s s' : σ} {e : ε} {es : List ε} {log : List α} :
    Runs step s (e :: es) log s' ↔
      ∃ l s₁ log', step s e = .ok l s₁ ∧ Runs step s₁ es log' s' ∧ log = l ++ log' := by
  constructor
  · intro h
    rw [Runs, exec] at h
    cases hn : (step s e).next with
    | error t => simp [hn] at h
    | ok s₁ =>
      have hs : step s e = .ok (step s e).log s₁ := Outcome.eq_ok_of_next hn
      simp only [hn] at h
      cases hx : (exec step s₁ es) with
      | mk l' n =>
        rw [hx] at h
        simp only [Outcome.after, Outcome.ok, Outcome.mk.injEq] at h
        obtain ⟨hl, hn'⟩ := h
        refine ⟨_, s₁, l', hs, ?_, hl.symm⟩
        rw [Runs, hx, hn']
        rfl
  · rintro ⟨l, s₁, log', hs, hr, rfl⟩
    exact Runs.cons hs hr

/-- Runs compose. -/
theorem Runs.append {s s₁ s' : σ} {es fs : List ε} {l l' : List α}
    (h : Runs step s es l s₁) (h' : Runs step s₁ fs l' s') :
    Runs step s (es ++ fs) (l ++ l') s' := by
  induction es generalizing s l with
  | nil =>
    obtain ⟨rfl, rfl⟩ := Outcome.ok_inj.mp h
    exact h'
  | cons e es ih =>
    obtain ⟨l₁, s₂, log', hs, hr, rfl⟩ := runs_cons_iff.mp h
    rw [List.append_assoc]
    exact Runs.cons hs (ih hr)

/-- One call at the end of a run. -/
theorem Runs.snoc {s s₁ s' : σ} {es : List ε} {e : ε} {l l' : List α}
    (h : Runs step s es l s₁) (h' : step s₁ e = .ok l' s') :
    Runs step s (es ++ [e]) (l ++ l') s' := by
  have hn : Runs step s' [] [] s' := Runs.nil s'
  have he := Runs.cons h' hn
  rw [List.append_nil] at he
  exact h.append he

/-- The invariant rule: what holds at the start and is kept by every returning call
holds of the log and the state of every run. -/
theorem Runs.invariant {I : List α → σ → Prop} {s s' : σ} {es : List ε} {log : List α}
    (hr : Runs step s es log s') (h0 : I [] s)
    (hstep : ∀ l c e l' c', I l c → step c e = .ok l' c' → I (l ++ l') c') : I log s' := by
  have all : ∀ (es : List ε) (pre : List α) (c : σ) (l : List α), I pre c →
      Runs step c es l s' → I (pre ++ l) s' := by
    intro es
    induction es with
    | nil =>
      intro pre c l hc h
      obtain ⟨rfl, rfl⟩ := Outcome.ok_inj.mp h
      rw [List.append_nil]
      exact hc
    | cons e es ih =>
      intro pre c l hc h
      obtain ⟨l₁, c₁, log', hs, hr, rfl⟩ := runs_cons_iff.mp h
      rw [← List.append_assoc]
      exact ih _ c₁ log' (hstep pre c e l₁ c₁ hc hs) hr
  exact all es [] s log h0 hr

/-- The invariant rule for a property of the state alone. -/
theorem Runs.stateInvariant {I : σ → Prop} {s s' : σ} {es : List ε} {log : List α}
    (hr : Runs step s es log s') (h0 : I s)
    (hstep : ∀ c e l c', I c → step c e = .ok l c' → I c') : I s' :=
  hr.invariant (I := fun _ c ↦ I c) h0 fun _ c e l' c' hc hs ↦ hstep c e l' c' hc hs

/-- The rule of savings: if in every call what it costs and what the state has saved behind it is
covered by what it had saved before and what the call brings in, then the same is true of a run. -/
theorem Runs.amortised {cost income : List α → Nat} {saved : σ → Nat} {s s' : σ} {es : List ε}
    {log : List α} (hr : Runs step s es log s')
    (hcost : ∀ l l', cost (l ++ l') = cost l + cost l')
    (hincome : ∀ l l', income (l ++ l') = income l + income l')
    (hstep : ∀ c e l c', step c e = .ok l c' → cost l + saved c' ≤ saved c + income l) :
    cost log + saved s' ≤ saved s + income log := by
  have hnone : cost [] = 0 := by
    have h := hcost [] []
    rw [List.append_nil] at h
    omega
  apply hr.invariant (I := fun l c ↦ cost l + saved c ≤ saved s + income l)
  · rw [hnone]
    omega
  · intro l c e l' c' h hs
    have hle := hstep c e l' c' hs
    rw [hcost, hincome]
    omega

/-- The condition `P` holds at every call of a run. -/
def Along (step : σ → ε → Outcome α τ σ) (P : σ → ε → Prop) (s : σ) : List ε → Prop
  | [] => True
  | e :: es => P s e ∧ ∀ l s', step s e = .ok l s' → Along step P s' es

/-- The invariant rule for runs whose calls all meet a condition. -/
theorem Runs.logInvariantAlong {I : List α → σ → Prop} {P : σ → ε → Prop} {s s' : σ}
    {es : List ε} {log : List α} (hr : Runs step s es log s') (ha : Along step P s es)
    (h0 : I [] s)
    (hstep : ∀ l c e l' c', I l c → P c e → step c e = .ok l' c' → I (l ++ l') c') :
    I log s' := by
  have all : ∀ (es : List ε) (pre : List α) (c : σ) (l : List α), I pre c → Along step P c es →
      Runs step c es l s' → I (pre ++ l) s' := by
    intro es
    induction es with
    | nil =>
      intro pre c l hc _ h
      obtain ⟨rfl, rfl⟩ := Outcome.ok_inj.mp h
      rw [List.append_nil]
      exact hc
    | cons e es ih =>
      intro pre c l hc ha h
      obtain ⟨l₁, c₁, log', hs, hr, rfl⟩ := runs_cons_iff.mp h
      rw [← List.append_assoc]
      exact ih _ c₁ log' (hstep pre c e l₁ c₁ hc ha.1 hs) (ha.2 l₁ c₁ hs) hr
  exact all es [] s log h0 ha hr

/-- The same rule for a property of the state alone. -/
theorem Runs.invariantAlong {I : σ → Prop} {P : σ → ε → Prop} {s s' : σ} {es : List ε}
    {log : List α} (hr : Runs step s es log s') (ha : Along step P s es) (h0 : I s)
    (hstep : ∀ c e l c', I c → P c e → step c e = .ok l c' → I c') : I s' :=
  hr.logInvariantAlong (I := fun _ c ↦ I c) ha h0 fun _ c e l' c' hc hp hs ↦
    hstep c e l' c' hc hp hs

/-- The call that follows a beginning of a run returned. -/
theorem Runs.next_of_append {s s₁ s' : σ} {pre post : List ε} {e : ε} {log l : List α}
    (hr : Runs step s (pre ++ e :: post) log s') (hpre : Runs step s pre l s₁) :
    ∃ l₁ s₂, step s₁ e = .ok l₁ s₂ := by
  induction pre generalizing s log l with
  | nil =>
    obtain ⟨-, rfl⟩ := Outcome.ok_inj.mp hpre
    obtain ⟨l₁, s₂, _, hs, -, -⟩ := runs_cons_iff.mp hr
    exact ⟨l₁, s₂, hs⟩
  | cons e' pre ih =>
    obtain ⟨l₁, s₂, _, hs, hr', -⟩ := runs_cons_iff.mp hr
    obtain ⟨l₂, s₃, _, hs', hpre', -⟩ := runs_cons_iff.mp hpre
    obtain ⟨-, rfl⟩ := Outcome.ok_inj.mp (hs.symm.trans hs')
    exact ih hr' hpre'

/-- A condition holds along a run when it holds at its first call and along the rest. -/
theorem Along.cons {P : σ → ε → Prop} {s s₁ : σ} {e : ε} {es : List ε} {l : List α}
    (hp : P s e) (hs : step s e = .ok l s₁) (ha : Along step P s₁ es) :
    Along step P s (e :: es) := by
  refine ⟨hp, fun l' s' hs' ↦ ?_⟩
  rw [hs] at hs'
  obtain ⟨-, rfl⟩ := Outcome.ok_inj.mp hs'
  exact ha

/-- A condition along a run holds along its beginnings. -/
theorem Along.left {P : σ → ε → Prop} {s : σ} {es fs : List ε}
    (h : Along step P s (es ++ fs)) : Along step P s es := by
  induction es generalizing s with
  | nil => trivial
  | cons e es ih => exact ⟨h.1, fun l s' hs ↦ ih (h.2 l s' hs)⟩

/-- A condition holds along a run when it holds at every call after every beginning. -/
theorem along_of_prefixes {P : σ → ε → Prop} {s : σ} {es : List ε}
    (h : ∀ pre e post l c, es = pre ++ e :: post → Runs step s pre l c → P c e) :
    Along step P s es := by
  induction es generalizing s with
  | nil => trivial
  | cons e es ih =>
    refine ⟨h [] e es [] s rfl (Runs.nil s), ?_⟩
    intro l s' hs
    apply ih
    intro pre e' post l' c he hr
    exact h (e :: pre) e' post (l ++ l') c (by rw [he]; rfl) (Runs.cons hs hr)

/-- A condition along a run holds at the call that follows a beginning of it. -/
theorem Along.next {P : σ → ε → Prop} {s c : σ} {pre post : List ε} {e : ε} {l : List α}
    (h : Along step P s (pre ++ e :: post)) (hr : Runs step s pre l c) : P c e := by
  induction pre generalizing s l with
  | nil =>
    obtain ⟨-, rfl⟩ := Outcome.ok_inj.mp hr
    exact h.1
  | cons e' pre ih =>
    obtain ⟨l₁, s₁, _, hs, hr', -⟩ := runs_cons_iff.mp hr
    exact ih (h.2 l₁ s₁ hs) hr'

/-- The execution that follows a run is that of its last call. -/
theorem Runs.exec_snoc {s c : σ} {pre : List ε} {l : List α} (hr : Runs step s pre l c) (e : ε) :
    exec step s (pre ++ [e]) = (step c e).after l := by
  induction pre generalizing s l with
  | nil =>
    obtain ⟨rfl, rfl⟩ := Outcome.ok_inj.mp hr
    rw [List.nil_append, exec]
    split
    · next s' hn =>
      rw [Outcome.eq_ok_of_next hn, exec]
      simp [Outcome.after, Outcome.ok]
    · next t hn =>
      rw [Outcome.eq_stop_of_next hn]
      rfl
  | cons e' pre ih =>
    obtain ⟨l₁, s₁, l₂, hs, hr', rfl⟩ := runs_cons_iff.mp hr
    rw [List.cons_append, exec_cons_ok hs, ih hr']
    simp [Outcome.after]

/-- An execution stops at the first call that stops. -/
theorem exists_call_of_stop {s : σ} {es : List ε} {t : τ} (h : (exec step s es).next = .error t) :
    ∃ pre e post l c, es = pre ++ e :: post ∧ Runs step s pre l c ∧ (step c e).next = .error t := by
  induction es generalizing s with
  | nil => cases h
  | cons e es ih =>
    rw [exec] at h
    split at h
    · next s₁ hn =>
      obtain ⟨pre, e', post, l, c, rfl, hr, hs⟩ := ih h
      exact ⟨e :: pre, e', post, _, c, rfl, Runs.cons (Outcome.eq_ok_of_next hn) hr, hs⟩
    · next t' hn =>
      cases h
      exact ⟨[], e, es, [], s, rfl, Runs.nil s, hn⟩

/-- What an execution that stops leaves behind: the run up to its last call, and that call. -/
theorem Runs.exec_stop {s c : σ} {pre : List ε} {l : List α} (hr : Runs step s pre l c) {e : ε}
    {t : τ} (hs : (step c e).next = .error t) (post : List ε) :
    exec step s (pre ++ e :: post) = .stop (l ++ (step c e).log) t := by
  induction pre generalizing s l with
  | nil =>
    obtain ⟨rfl, rfl⟩ := Outcome.ok_inj.mp hr
    rw [List.nil_append, exec, hs]
    rfl
  | cons e' pre ih =>
    obtain ⟨l₁, s₁, l₂, hs₁, hr', rfl⟩ := runs_cons_iff.mp hr
    rw [List.cons_append, exec_cons_ok hs₁, ih hr', List.append_assoc]
    rfl

/-- The rule of exact conditions: if a call keeps `G` exactly when it meets `P`, and what `G`
forbids stays forbidden, then a run keeps `G` exactly when all its calls meet `P`. -/
theorem Runs.iff_along {I G : List α → σ → Prop} {P : σ → ε → Prop} {s s' : σ} {es : List ε}
    {log : List α} (hr : Runs step s es log s') (h0 : I [] s)
    (hstep : ∀ l c e l' c', I l c → step c e = .ok l' c' →
      I (l ++ l') c' ∧ (G (l ++ l') c' ↔ G l c ∧ P c e)) :
    G log s' ↔ G [] s ∧ Along step P s es := by
  have all : ∀ (es : List ε) (pre : List α) (c : σ) (l : List α), I pre c →
      Runs step c es l s' → (G (pre ++ l) s' ↔ G pre c ∧ Along step P c es) := by
    intro es
    induction es with
    | nil =>
      intro pre c l _ h
      obtain ⟨rfl, rfl⟩ := Outcome.ok_inj.mp h
      rw [List.append_nil]
      exact (and_iff_left trivial).symm
    | cons e es ih =>
      intro pre c l hc h
      obtain ⟨l₁, c₁, log', hs, hr, rfl⟩ := runs_cons_iff.mp h
      have hc₁ := hstep pre c e l₁ c₁ hc hs
      rw [← List.append_assoc, ih _ c₁ log' hc₁.1 hr, hc₁.2, and_assoc]
      apply and_congr_right
      intro _
      constructor
      · intro ha
        exact Along.cons ha.1 hs ha.2
      · intro ha
        exact ⟨ha.1, ha.2 l₁ c₁ hs⟩
  exact all es [] s log h0 hr

/-- The log rule: if every call, returning or not, adds to a good log only what keeps it
good, then the log of every execution is good, also when its last call stops. -/
theorem exec_log {I : List α → σ → Prop} {Q : List α → Prop} {s : σ} (es : List ε)
    (h0 : I [] s) (hgood : ∀ l c, I l c → Q l)
    (hstep : ∀ l c e l' c', I l c → step c e = .ok l' c' → I (l ++ l') c')
    (hstop : ∀ l c e l' t, I l c → step c e = .stop l' t → Q (l ++ l')) :
    Q (exec step s es).log := by
  have all : ∀ (es : List ε) (pre : List α) (c : σ), I pre c → Q (pre ++ (exec step c es).log) := by
    intro es
    induction es with
    | nil =>
      intro pre c hc
      simpa [exec] using hgood pre c hc
    | cons e es ih =>
      intro pre c hc
      rw [exec]
      cases hn : (step c e).next with
      | error t =>
        exact hstop pre c e _ t hc (Outcome.eq_stop_of_next hn)
      | ok c' =>
        have h := ih _ c' (hstep pre c e _ c' hc (Outcome.eq_ok_of_next hn))
        rwa [List.append_assoc] at h
  simpa using all es [] s h0

/-- The rule of runs for `Meets`: a condition at every call and an invariant under it carry
over to the whole execution, also where its last call stops. -/
theorem exec_meets {A : α → Prop} {I : σ → Prop} {T : τ → Prop} {P : σ → ε → Prop} {s : σ}
    {es : List ε} (ha : Along step P s es) (h0 : I s)
    (hstep : ∀ c e, I c → P c e → (step c e).Meets A I T) : (exec step s es).Meets A I T := by
  induction es generalizing s with
  | nil => exact Outcome.meets_ok_nil h0
  | cons e es ih =>
    have hs := hstep s e h0 ha.1
    rw [exec]
    split
    · next s' hn =>
      have h := ih (ha.2 _ s' (Outcome.eq_ok_of_next hn)) (hs.returned s' hn)
      exact h.after hs.log
    · next t hn => exact Outcome.meets_stop hs.log (hs.stopped t hn)

/-! ### Ghost states -/

section Ghost

universe y

variable {γ : Type y}

/-- The same handler with a ghost state beside its own, which is updated after every call from
what the call was about and what it did. -/
def withGhost (step : σ → ε → Outcome α τ σ) (update : γ → σ → ε → List α → γ) (s : σ × γ)
    (e : ε) : Outcome α τ (σ × γ) :=
  ⟨(step s.1 e).log, (step s.1 e).next.map fun s' ↦ (s', update s.2 s.1 e (step s.1 e).log)⟩

variable {update : γ → σ → ε → List α → γ}

/-- A call with a ghost state is the call without it. -/
theorem withGhost_eq_ok_iff {s s' : σ} {x x' : γ} {e : ε} {l : List α} :
    withGhost step update (s, x) e = .ok l (s', x') ↔
      step s e = .ok l s' ∧ x' = update x s e l := by
  unfold withGhost
  constructor
  · intro h
    have hlog : (step s e).log = l := congrArg Outcome.log h
    have hnext : (step s e).next.map (fun s' ↦ (s', update x s e (step s e).log)) =
        .ok (s', x') := congrArg Outcome.next h
    cases hn : (step s e).next with
    | error t =>
      rw [hn] at hnext
      cases hnext
    | ok s₁ =>
      rw [hn] at hnext
      obtain ⟨rfl, rfl⟩ := Prod.mk.inj (Except.ok.inj hnext)
      rw [← hlog]
      exact ⟨Outcome.eq_ok_of_next hn, rfl⟩
  · rintro ⟨h, rfl⟩
    rw [h]
    rfl

/-- Every run can be watched by a ghost state. -/
theorem Runs.exists_ghost {s s' : σ} {es : List ε} {log : List α} (h : Runs step s es log s')
    (x : γ) : ∃ x', Runs (withGhost step update) (s, x) es log (s', x') := by
  induction es generalizing s log x with
  | nil =>
    obtain ⟨rfl, rfl⟩ := Outcome.ok_inj.mp h
    exact ⟨x, Runs.nil _⟩
  | cons e es ih =>
    obtain ⟨l, s₁, log', hs, hr, rfl⟩ := runs_cons_iff.mp h
    obtain ⟨x', hr'⟩ := ih hr (update x s e l)
    exact ⟨x', Runs.cons (withGhost_eq_ok_iff.mpr ⟨hs, rfl⟩) hr'⟩

/-- A ghost state only watches. -/
theorem Runs.of_ghost {p p' : σ × γ} {es : List ε} {log : List α}
    (h : Runs (withGhost step update) p es log p') : Runs step p.1 es log p'.1 := by
  induction es generalizing p log with
  | nil =>
    obtain ⟨rfl, rfl⟩ := Outcome.ok_inj.mp h
    exact Runs.nil _
  | cons e es ih =>
    obtain ⟨l, p₁, log', hs, hr, rfl⟩ := runs_cons_iff.mp h
    have hs : withGhost step update (p.1, p.2) e = .ok l (p₁.1, p₁.2) := hs
    exact Runs.cons (withGhost_eq_ok_iff.mp hs).1 (ih hr)

end Ghost

/-! ### Simulation -/

section Simulation

universe u' v' w' x' z

variable {α' : Type u'} {τ' : Type v'} {σ' : Type w'} {ε' : Type x'} {β : Type z}

/-- The simulation rule: if every call that returns is matched by a run of another handler that
shows the same of its log and ends in a related state, then so is every run. -/
theorem Runs.simulates {step' : σ' → ε' → Outcome α' τ' σ'} (R : σ → σ' → Prop) (f : α → β)
    (g : α' → β) {s t : σ} {s' : σ'} {es : List ε} {log : List α} (hr : Runs step s es log t)
    (h0 : R s s')
    (hstep : ∀ s s' e l t, R s s' → step s e = .ok l t →
      ∃ es' l' t', Runs step' s' es' l' t' ∧ l'.map g = l.map f ∧ R t t') :
    ∃ es' log' t', Runs step' s' es' log' t' ∧ log'.map g = log.map f ∧ R t t' := by
  induction es generalizing s s' log with
  | nil =>
    obtain ⟨rfl, rfl⟩ := Outcome.ok_inj.mp hr
    exact ⟨[], [], s', Runs.nil s', rfl, h0⟩
  | cons e es ih =>
    obtain ⟨l, s₁, log₁, hs, hrest, rfl⟩ := runs_cons_iff.mp hr
    obtain ⟨es₁, l₁, s₁', hr₁, hl₁, h₁⟩ := hstep s s' e l s₁ h0 hs
    obtain ⟨es₂, l₂, t', hr₂, hl₂, ht⟩ := ih hrest h₁
    refine ⟨es₁ ++ es₂, l₁ ++ l₂, t', hr₁.append hr₂, ?_, ht⟩
    rw [List.map_append, List.map_append, hl₁, hl₂]

end Simulation

/-! ### Steps of a relation -/

/-- The invariant rule for a relation: what holds at the start and is kept by every step holds
of every state reached. -/
theorem invariant_reachable {R : σ → σ → Prop} {I : σ → Prop} {s t : σ}
    (h : Relation.ReflTransGen R s t) (h0 : I s) (hstep : ∀ t u, I t → R t u → I u) : I t := by
  induction h with
  | refl => exact h0
  | tail _ hr ih => exact hstep _ _ ih hr

/-- `n` steps of a relation in a row. -/
inductive Steps (R : σ → σ → Prop) : Nat → σ → σ → Prop
  | none (s : σ) : Steps R 0 s s
  | snoc {n : Nat} {s t u : σ} : Steps R n s t → R t u → Steps R (n + 1) s u

/-- The invariant rule with a count: what one step carries from `n` to `n + 1` holds after
any number of steps. -/
theorem Steps.invariant {R : σ → σ → Prop} {I : Nat → σ → Prop} {n : Nat} {s t : σ}
    (h : Steps R n s t) (h0 : I 0 s) (hstep : ∀ n t u, I n t → R t u → I (n + 1) u) : I n t := by
  induction h with
  | none => exact h0
  | snoc _ hr ih => exact hstep _ _ _ (ih h0) hr

end CppTftp.Lib
