import NetioMiddleware.Machine
import Mathlib.Data.List.Basic

namespace NetioMiddleware

namespace Machine

variable {σ ι : Type*} {M : Machine σ ι} {ok : σ → ι → Prop} {s s' : σ}

/-- The runs from one state to another with the labels they take. -/
inductive Run (M : Machine σ ι) (ok : σ → ι → Prop) : σ → List ι → σ → Prop
  | nil {s : σ} : Run M ok s [] s
  | cons {s s1 s' : σ} {l : ι} {ls : List ι} : ok s l → M.step s l s1 → Run M ok s1 ls s' →
      Run M ok s (l :: ls) s'

theorem Reach.run {ls : List ι} (hs : M.Reach ok s) (h : M.Run ok s ls s') : M.Reach ok s' := by
  induction h with
  | nil => exact hs
  | cons hok hstep _ ih => exact ih (hs.step hok hstep)

theorem Reach.mono {ok' : σ → ι → Prop} (hok : ∀ s l, ok s l → ok' s l) (h : M.Reach ok s) :
    M.Reach ok' s := by
  induction h with
  | init h => exact .init h
  | step _ hl hstep ih => exact ih.step (hok _ _ hl) hstep

theorem Run.invariant {I : σ → Prop} (hstep : ∀ s l s', I s → ok s l → M.step s l s' → I s')
    {ls : List ι} (hs : I s) (h : M.Run ok s ls s') : I s' := by
  induction h with
  | nil => exact hs
  | cons hok hs' _ ih => exact ih (hstep _ _ _ hs hok hs')

theorem Run.concat {s1 : σ} {l : ι} {ls : List ι} (h : M.Run ok s ls s1) (hok : ok s1 l)
    (hstep : M.step s1 l s') : M.Run ok s (ls ++ [l]) s' := by
  induction h with
  | nil => exact .cons hok hstep .nil
  | cons hok1 hstep1 _ ih => exact .cons hok1 hstep1 (ih hok hstep)

theorem Run.append {s1 : σ} {ls ls' : List ι} (h : M.Run ok s ls s1) (h' : M.Run ok s1 ls' s') :
    M.Run ok s (ls ++ ls') s' := by
  induction h with
  | nil => exact h'
  | cons hok hstep _ ih => exact .cons hok hstep (ih h')

theorem Reach.exists_run (h : M.Reach ok s') : ∃ s ls, M.init s ∧ M.Run ok s ls s' := by
  induction h with
  | init h => exact ⟨_, [], h, .nil⟩
  | step _ hok hstep ih =>
    obtain ⟨s, ls, hs, hrun⟩ := ih
    exact ⟨s, _, hs, hrun.concat hok hstep⟩

theorem Run.split {ls ls' : List ι} (h : M.Run ok s (ls ++ ls') s') :
    ∃ s1, M.Run ok s ls s1 ∧ M.Run ok s1 ls' s' := by
  induction ls generalizing s with
  | nil => exact ⟨s, .nil, h⟩
  | cons l ls ih =>
    cases h with
    | cons hok hstep h =>
      obtain ⟨s1, h1, h2⟩ := ih h
      exact ⟨s1, .cons hok hstep h1, h2⟩

theorem Run.follow {ε : Type*} {step : σ → ι → Except ε σ} {allowed : σ → ι → Bool}
    (hstep : ∀ s l s', allowed s l = true → step s l = .ok s' → ok s l ∧ M.step s l s') {ls : List ι}
    (h : follow step allowed s ls = some s') : M.Run ok s ls s' := by
  induction ls generalizing s with
  | nil =>
    cases Option.some.inj h
    exact .nil
  | cons l ls ih =>
    unfold Machine.follow at h
    split at h
    next hallowed =>
      split at h
      next s1 hs1 =>
        obtain ⟨hok, hM⟩ := hstep s l s1 hallowed hs1
        exact .cons hok hM (ih h)
      next => contradiction
    next => contradiction

/-- A run with given labels exists where every state of an invariant has each step. -/
theorem Run.exists_of_total {I : σ → Prop} {ls : List ι}
    (htotal : ∀ s, I s → ∀ l ∈ ls, ∃ s', ok s l ∧ M.step s l s' ∧ I s') (hs : I s) :
    ∃ s', M.Run ok s ls s' := by
  induction ls generalizing s with
  | nil => exact ⟨s, .nil⟩
  | cons l ls ih =>
    obtain ⟨s1, hok, hstep, h1⟩ := htotal s hs l List.mem_cons_self
    obtain ⟨s', h'⟩ := ih (fun s hs l hl => htotal s hs l (List.mem_cons_of_mem _ hl)) h1
    exact ⟨s', .cons hok hstep h'⟩

/-- Steps that each take something off a measure. -/
theorem Run.length_le {I : σ → Prop} {work : σ → Nat}
    (hstep : ∀ s l s', I s → ok s l → M.step s l s' → I s' ∧ work s' < work s) {ls : List ι} (hs : I s)
    (h : M.Run ok s ls s') : ls.length + work s' ≤ work s := by
  induction h with
  | nil => exact Nat.le_of_eq (Nat.zero_add _)
  | cons hok hs' _ ih =>
    obtain ⟨hkept, hless⟩ := hstep _ _ _ hs hok hs'
    have hrest := ih hkept
    rw [List.length_cons]
    omega

/-- A measure of the work left: a step changes nothing or does some of it, and
while work is left one of the agents can do some. -/
structure Settling (M : Machine σ ι) (ok : σ → ι → Prop) (I : σ → Prop) (work : σ → Nat)
    (agents : List ι) : Prop where
  keeps : ∀ s l s', I s → ok s l → M.step s l s' → I s'
  works : ∀ s l s', I s → ok s l → M.step s l s' → s' = s ∨ work s' < work s
  awake : ∀ s, I s → 0 < work s → ∃ l ∈ agents, ∀ s', ok s l → M.step s l s' → s' ≠ s

variable {I : σ → Prop} {work : σ → Nat} {agents : List ι}

theorem Settling.run_le (h : M.Settling ok I work agents) {ls : List ι} (hs : I s)
    (hrun : M.Run ok s ls s') : work s' ≤ work s := by
  induction hrun with
  | nil => exact Nat.le_refl _
  | cons hok hstep _ ih =>
    have hrest := ih (h.keeps _ _ _ hs hok hstep)
    rcases h.works _ _ _ hs hok hstep with rfl | hless
    · exact hrest
    · omega

/-- A round in which every agent has its turn does some work, if any is left. -/
theorem Settling.round (h : M.Settling ok I work agents) {ls : List ι} (hs : I s)
    (hall : ∀ l ∈ agents, l ∈ ls) (hwork : 0 < work s) (hrun : M.Run ok s ls s') :
    work s' < work s := by
  obtain ⟨l, hl, hawake⟩ := h.awake s hs hwork
  have hl := hall l hl
  clear hall hwork
  induction hrun with
  | nil => contradiction
  | @cons s s1 _ l' ls hok hstep hrest ih =>
    rcases h.works _ _ _ hs hok hstep with rfl | hless
    · rcases List.mem_cons.mp hl with rfl | hl
      · exact absurd rfl (hawake _ hok hstep)
      · exact ih hs hawake hl
    · have := h.run_le (h.keeps _ _ _ hs hok hstep) hrest
      omega

/-- As many rounds as there is work leave none. -/
theorem Settling.rounds (h : M.Settling ok I work agents) {rounds : List (List ι)} (hs : I s)
    (hall : ∀ r ∈ rounds, ∀ l ∈ agents, l ∈ r) (hrun : M.Run ok s rounds.flatten s')
    (hlen : work s ≤ rounds.length) : work s' = 0 := by
  induction rounds generalizing s with
  | nil =>
    have := h.run_le hs hrun
    rw [List.length_nil] at hlen
    omega
  | cons r rounds ih =>
    rw [List.flatten_cons] at hrun
    obtain ⟨s1, h1, h2⟩ := hrun.split
    have hle := h.run_le hs h1
    refine ih (h1.invariant h.keeps hs) (fun r hr => hall r (List.mem_cons_of_mem _ hr)) h2 ?_
    rw [List.length_cons] at hlen
    by_cases hwork : 0 < work s
    · have := h.round hs (hall r List.mem_cons_self) hwork h1
      omega
    · omega

end Machine

end NetioMiddleware
