import Mathlib.Algebra.BigOperators.Group.Finset.Basic
import Mathlib.Algebra.GroupWithZero.Nat
import Mathlib.Algebra.BigOperators.Group.Finset.Piecewise

namespace NetioMiddleware

section

variable {κ μ : Type*} [DecidableEq κ] (keys : Finset κ) (p : κ → μ → Bool)

/-- How many messages of a family of queues are counted, each by the test of
its queue. -/
def tally (queues : κ → List μ) : Nat := ∑ key ∈ keys, (queues key).countP (p key)

/-- What one message in a queue adds to the tally. -/
def weight (key : κ) (x : μ) : Nat := if key ∈ keys ∧ p key x = true then 1 else 0

theorem tally_update (queues : κ → List μ) (key : κ) (q : List μ) :
    tally keys p (Function.update queues key q) +
        (if key ∈ keys then (queues key).countP (p key) else 0) =
      tally keys p queues + if key ∈ keys then q.countP (p key) else 0 := by
  unfold tally
  by_cases hkey : key ∈ keys
  · have hrest : ∑ k ∈ keys.erase key, (Function.update queues key q k).countP (p k) =
        ∑ k ∈ keys.erase key, (queues k).countP (p k) := by
      refine Finset.sum_congr rfl fun k hk => ?_
      rw [Function.update_of_ne (Finset.ne_of_mem_erase hk)]
    have hnew := Finset.add_sum_erase keys (fun k => (Function.update queues key q k).countP (p k)) hkey
    have hold := Finset.add_sum_erase keys (fun k => (queues k).countP (p k)) hkey
    simp only [Function.update_self] at hnew hold
    rw [if_pos hkey, if_pos hkey]
    omega
  · have hsame : ∑ k ∈ keys, (Function.update queues key q k).countP (p k) =
        ∑ k ∈ keys, (queues k).countP (p k) := by
      refine Finset.sum_congr rfl fun k hk => ?_
      rw [Function.update_of_ne (ne_of_mem_of_not_mem hk hkey)]
    rw [hsame, if_neg hkey, if_neg hkey]

variable {keys p} {queues : κ → List μ} {key : κ} {x : μ}

theorem tally_append (x : μ) :
    tally keys p (Function.update queues key (queues key ++ [x])) =
      tally keys p queues + weight keys p key x := by
  have h := tally_update keys p queues key (queues key ++ [x])
  rw [List.countP_append, List.countP_singleton] at h
  unfold weight
  by_cases hkey : key ∈ keys
  · simp only [hkey, if_true, true_and] at h ⊢
    omega
  · simp only [hkey, if_false, false_and] at h ⊢
    omega

theorem tally_take {rest : List μ} (hp : (queues key).Perm (x :: rest)) :
    tally keys p (Function.update queues key rest) + weight keys p key x = tally keys p queues := by
  have h := tally_update keys p queues key rest
  rw [hp.countP_eq, List.countP_cons] at h
  unfold weight
  by_cases hkey : key ∈ keys
  · simp only [hkey, if_true, true_and] at h ⊢
    omega
  · simp only [hkey, if_false, false_and] at h ⊢
    omega

/-- A queue whose messages do not count may change. -/
theorem tally_ignore (hp : ∀ x, p key x = false) (q : List μ) :
    tally keys p (Function.update queues key q) = tally keys p queues := by
  have none : ∀ l : List μ, l.countP (p key) = 0 := fun l =>
    List.countP_eq_zero.mpr (fun x _ => by simp [hp x])
  have h := tally_update keys p queues key q
  rw [none, none] at h
  omega

omit [DecidableEq κ] in
theorem tally_nil (h : ∀ key, queues key = []) : tally keys p queues = 0 := by
  unfold tally
  exact Finset.sum_eq_zero fun key _ => by rw [h key]; rfl

theorem tally_pos (hkey : key ∈ keys) (hx : x ∈ queues key) (hp : p key x = true) :
    0 < tally keys p queues := by
  have hone : 0 < (queues key).countP (p key) := List.countP_pos_iff.mpr ⟨x, hx, hp⟩
  have hsum := Finset.add_sum_erase keys (fun k => (queues k).countP (p k)) hkey
  unfold tally
  omega

theorem weight_cases (keys : Finset κ) (p : κ → μ → Bool) (key : κ) (x : μ) :
    weight keys p key x = 0 ∨ (key ∈ keys ∧ p key x = true ∧ weight keys p key x = 1) := by
  unfold weight
  split
  next h => exact Or.inr ⟨h.1, h.2, rfl⟩
  next => exact Or.inl rfl

omit [DecidableEq κ] in
theorem exists_of_tally_pos (h : 0 < tally keys p queues) :
    ∃ key ∈ keys, ∃ x ∈ queues key, p key x = true := by
  unfold tally at h
  obtain ⟨key, hkey, hne⟩ := Finset.exists_ne_zero_of_sum_ne_zero (Nat.ne_of_gt h)
  exact ⟨key, hkey, List.countP_pos_iff.mp (Nat.pos_of_ne_zero hne)⟩

end

section

variable {κ μ : Type*} [DecidableEq κ] (keys : Finset κ) (price : κ → μ → Nat)

/-- The prices of the messages of a family of queues together. -/
def load (queues : κ → List μ) : Nat := ∑ key ∈ keys, ((queues key).map (price key)).sum

theorem load_update (queues : κ → List μ) (key : κ) (q : List μ) :
    load keys price (Function.update queues key q) +
        (if key ∈ keys then ((queues key).map (price key)).sum else 0) =
      load keys price queues + if key ∈ keys then (q.map (price key)).sum else 0 := by
  unfold load
  by_cases hkey : key ∈ keys
  · have hrest : ∑ k ∈ keys.erase key, ((Function.update queues key q k).map (price k)).sum =
        ∑ k ∈ keys.erase key, ((queues k).map (price k)).sum := by
      refine Finset.sum_congr rfl fun k hk => ?_
      rw [Function.update_of_ne (Finset.ne_of_mem_erase hk)]
    have hnew := Finset.add_sum_erase keys
      (fun k => ((Function.update queues key q k).map (price k)).sum) hkey
    have hold := Finset.add_sum_erase keys (fun k => ((queues k).map (price k)).sum) hkey
    simp only [Function.update_self] at hnew hold
    rw [if_pos hkey, if_pos hkey]
    omega
  · have hsame : ∑ k ∈ keys, ((Function.update queues key q k).map (price k)).sum =
        ∑ k ∈ keys, ((queues k).map (price k)).sum := by
      refine Finset.sum_congr rfl fun k hk => ?_
      rw [Function.update_of_ne (ne_of_mem_of_not_mem hk hkey)]
    rw [hsame, if_neg hkey, if_neg hkey]

variable {keys price} {queues : κ → List μ} {key : κ} {x : μ}

theorem load_append (x : μ) :
    load keys price (Function.update queues key (queues key ++ [x])) =
      load keys price queues + if key ∈ keys then price key x else 0 := by
  have h := load_update keys price queues key (queues key ++ [x])
  rw [List.map_append, List.sum_append, List.map_singleton, List.sum_singleton] at h
  by_cases hkey : key ∈ keys
  · simp only [hkey, if_true] at h ⊢
    omega
  · simp only [hkey, if_false] at h ⊢
    omega

theorem load_take {rest : List μ} (hp : (queues key).Perm (x :: rest)) :
    load keys price (Function.update queues key rest) + (if key ∈ keys then price key x else 0) =
      load keys price queues := by
  have h := load_update keys price queues key rest
  rw [(hp.map (price key)).sum_eq, List.map_cons, List.sum_cons] at h
  by_cases hkey : key ∈ keys
  · simp only [hkey, if_true] at h ⊢
    omega
  · simp only [hkey, if_false] at h ⊢
    omega

omit [DecidableEq κ] in
/-- Messages that all cost something leave no load only when there are none. -/
theorem load_eq_zero (hpos : ∀ key ∈ keys, ∀ x ∈ queues key, 0 < price key x) :
    load keys price queues = 0 ↔ ∀ key ∈ keys, queues key = [] := by
  unfold load
  rw [Finset.sum_eq_zero_iff]
  refine forall₂_congr fun key hkey => ⟨fun h => ?_, fun h => by rw [h]; rfl⟩
  rw [List.sum_eq_zero_iff_forall_eq_nat] at h
  refine List.eq_nil_iff_forall_not_mem.mpr fun x hx => ?_
  have hzero := h _ (List.mem_map_of_mem hx)
  have := hpos key hkey x hx
  omega

end

end NetioMiddleware
