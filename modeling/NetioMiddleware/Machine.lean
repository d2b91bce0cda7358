import Mathlib.Logic.Relation

namespace NetioMiddleware

/-- A labelled transition system. -/
structure Machine (σ ι : Type*) where
  init : σ → Prop
  step : σ → ι → σ → Prop

namespace Machine

variable {σ ι : Type*} {M : Machine σ ι} {ok : σ → ι → Prop} {I : σ → Prop} {s : σ}

/-- The states of the runs all of whose steps are `ok`. -/
inductive Reach (M : Machine σ ι) (ok : σ → ι → Prop) : σ → Prop
  | init {s : σ} : M.init s → Reach M ok s
  | step {s s' : σ} {l : ι} : Reach M ok s → ok s l → M.step s l s' → Reach M ok s'

/-- The states of all runs. -/
abbrev Reachable (M : Machine σ ι) : σ → Prop := M.Reach (fun _ _ => True)

theorem Reach.invariant (hinit : ∀ s, M.init s → I s)
    (hstep : ∀ s l s', I s → ok s l → M.step s l s' → I s') (h : M.Reach ok s) : I s := by
  induction h with
  | init h => exact hinit _ h
  | step _ hok hs ih => exact hstep _ _ _ ih hok hs

/-- A run of one machine, followed step by step by the runs of another. -/
theorem Reach.simulate {τ κ : Type*} {N : Machine τ κ} {P : τ → κ → Prop} {R : σ → τ → Prop}
    (hinit : ∀ s, M.init s → ∃ t, N.init t ∧ R s t)
    (hstep : ∀ s l s' t, R s t → N.Reach P t → ok s l → M.step s l s' →
      ∃ t', N.Reach P t' ∧ R s' t')
    (h : M.Reach ok s) : ∃ t, N.Reach P t ∧ R s t := by
  induction h with
  | init h =>
    obtain ⟨t, ht, hr⟩ := hinit _ h
    exact ⟨t, .init ht, hr⟩
  | step _ hok hs ih =>
    obtain ⟨t, ht, hr⟩ := ih
    exact hstep _ _ _ t hr ht hok hs

/-- Two runs that take the same steps in turn, from one pair of states to another. -/
inductive InStep (M : Machine σ ι) (ok : σ → σ → ι → Prop) (s t : σ) : σ → σ → Prop
  | start : InStep M ok s t s t
  | step {s1 t1 s2 t2 : σ} {l : ι} : InStep M ok s t s1 t1 → ok s1 t1 l → M.step s1 l s2 →
      M.step t1 l t2 → InStep M ok s t s2 t2

theorem InStep.relation {R : σ → σ → Prop} {ok : σ → σ → ι → Prop} {t s' t' : σ} (hstart : R s t)
    (hstep : ∀ s1 t1 l s2 t2, R s1 t1 → ok s1 t1 l → M.step s1 l s2 → M.step t1 l t2 → R s2 t2)
    (h : M.InStep ok s t s' t') : R s' t' := by
  induction h with
  | start => exact hstart
  | step _ hok hs ht ih => exact hstep _ _ _ _ _ ih hok hs ht

section

variable {ε : Type*} (step : σ → ι → Except ε σ) (allowed : σ → ι → Bool)

/-- The state after a list of labels, when every step is allowed and succeeds. -/
def follow (s : σ) : List ι → Option σ
  | [] => some s
  | l :: ls =>
    if allowed s l then
      match step s l with
      | .ok s => follow s ls
      | .error _ => none
    else none

variable {step allowed}

theorem Reach.follow (hstep : ∀ s l s', allowed s l = true → step s l = .ok s' → ok s l ∧ M.step s l s')
    {s s' : σ} {ls : List ι} (hs : M.Reach ok s) (h : follow step allowed s ls = some s') :
    M.Reach ok s' := by
  induction ls generalizing s with
  | nil => cases Option.some.inj h; exact hs
  | cons l ls ih =>
    unfold Machine.follow at h
    split at h
    next hallowed =>
      split at h
      next s1 hs1 =>
        obtain ⟨hok, hM⟩ := hstep s l s1 hallowed hs1
        exact ih (hs.step hok hM) h
      next => contradiction
    next => contradiction

end

end Machine

end NetioMiddleware
