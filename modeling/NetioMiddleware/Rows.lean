import Mathlib.Data.List.Forall2

namespace NetioMiddleware

/-- Two lists of one length whose entries are related in pairs, all but n of them by R. -/
inductive Rows {α : Type} (R D : α → α → Prop) : Nat → List α → List α → Prop
  | nil : Rows R D 0 [] []
  | same {n x y l l'} : R x y → Rows R D n l l' → Rows R D n (x :: l) (y :: l')
  | other {n x y l l'} : D x y → Rows R D n l l' → Rows R D (n + 1) (x :: l) (y :: l')

section

variable {α : Type} {R R' D : α → α → Prop} {n : Nat} {l l' : List α} {x y : α}

theorem Rows.refl (hR : ∀ x, R x x) (l : List α) : Rows R D 0 l l := by
  induction l with
  | nil => exact .nil
  | cons x l ih => exact .same (hR x) ih

theorem Rows.concat (h : Rows R D n l l') (hxy : R x y) : Rows R D n (l ++ [x]) (l' ++ [y]) := by
  induction h with
  | nil => exact .same hxy .nil
  | same hr _ ih => exact .same hr ih
  | other hd _ ih => exact .other hd ih

theorem Rows.concat_other (h : Rows R D n l l') (hxy : D x y) :
    Rows R D (n + 1) (l ++ [x]) (l' ++ [y]) := by
  induction h with
  | nil => exact .other hxy .nil
  | same hr _ ih => exact .same hr ih
  | other hd _ ih => exact .other hd ih

theorem Rows.flip (hR : ∀ x y, R x y → R y x) (h : Rows R D n l l') :
    Rows R (fun x y => D y x) n l' l := by
  induction h with
  | nil => exact .nil
  | same hr _ ih => exact .same (hR _ _ hr) ih
  | other hd _ ih => exact .other hd ih

theorem Rows.forall₂ (hR : ∀ x y, R x y → R' x y) (h : Rows R D 0 l l') : List.Forall₂ R' l l' := by
  induction l generalizing l' with
  | nil =>
    cases h
    exact .nil
  | cons x l ih =>
    cases h with
    | same hr h => exact .cons (hR _ _ hr) (ih h)

theorem Rows.find? {p : α → Bool} (hp : ∀ x y, R x y ∨ D x y → p x = p y) (h : Rows R D n l l') :
    Option.Rel (fun x y => R x y ∨ D x y) (l.find? p) (l'.find? p) := by
  induction h with
  | nil => exact .none
  | @same _ x y _ _ hr _ ih =>
    rw [List.find?_cons, List.find?_cons, ← hp x y (Or.inl hr)]
    split
    next => exact .some (Or.inl hr)
    next => exact ih
  | @other _ x y _ _ hd _ ih =>
    rw [List.find?_cons, List.find?_cons, ← hp x y (Or.inr hd)]
    split
    next => exact .some (Or.inr hd)
    next => exact ih

end

section

variable {α : Type} {R R' : α → α → Prop} {a a' b b' : Option α}

theorem rel_refl (hR : ∀ x, R x x) (a : Option α) : Option.Rel R a a := by
  cases a with
  | none => exact .none
  | some x => exact .some (hR x)

theorem rel_symm (hR : ∀ x y, R x y → R' y x) (h : Option.Rel R a b) : Option.Rel R' b a := by
  cases h with
  | none => exact .none
  | some h => exact .some (hR _ _ h)

theorem rel_none (h : Option.Rel R a b) (ha : a = none) : b = none := by
  subst ha
  cases h
  rfl

theorem rel_some {x : α} (h : Option.Rel R a b) (ha : a = some x) : ∃ y, b = some y ∧ R x y := by
  subst ha
  cases h with
  | some hxy => exact ⟨_, rfl, hxy⟩

theorem or_rel (ha : Option.Rel R a a') (hb : Option.Rel R b b') : Option.Rel R (a.or b) (a'.or b') := by
  cases ha with
  | none => exact hb
  | some h => exact .some h

/-- Lists related place by place stay so when one place is replaced in both. -/
theorem rel_set {l l' : List α} {x y : α} (h : ∀ i : Nat, Option.Rel R l[i]? l'[i]?) (hxy : R x y)
    (i : Nat) : ∀ j : Nat, Option.Rel R (l.set i x)[j]? (l'.set i y)[j]? := by
  intro j
  rw [List.getElem?_set, List.getElem?_set]
  by_cases hij : i = j
  · subst hij
    rw [if_pos rfl, if_pos rfl]
    by_cases hlt : i < l.length
    · obtain ⟨z, hz, _⟩ := rel_some (h i) (List.getElem?_eq_getElem hlt)
      rw [if_pos hlt, if_pos (List.getElem?_eq_some_iff.mp hz).1]
      exact .some hxy
    · have hnone := rel_none (h i) (List.getElem?_eq_none (by omega))
      have hge := List.getElem?_eq_none_iff.mp hnone
      rw [if_neg hlt, if_neg (by omega)]
      exact .none
  · rw [if_neg hij, if_neg hij]
    exact h j

end

end NetioMiddleware
