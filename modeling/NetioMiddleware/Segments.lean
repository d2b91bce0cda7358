import Mathlib.Algebra.GroupWithZero.Nat

namespace NetioMiddleware

/-- What stands between the separators of s: lists without the separator that
join to s. -/
structure Segments {α : Type} (sep : α) (s : List α) (segs : List (List α)) : Prop where
  nonempty : segs ≠ []
  free : ∀ p ∈ segs, sep ∉ p
  join : [sep].intercalate segs = s

theorem Segments.tail {α : Type} {sep : α} {s p q : List α} {segs : List (List α)}
    (h : Segments sep s (p :: q :: segs)) :
    Segments sep ([sep].intercalate (q :: segs)) (q :: segs) :=
  ⟨by simp, fun r hr => h.free r (List.mem_cons_of_mem p hr), rfl⟩

theorem intercalate_length {α : Type} {sep : α} {l : List (List α)} (h : l ≠ []) :
    ([sep].intercalate l).length + 1 = (l.map (fun p => p.length + 1)).sum := by
  induction l with
  | nil => contradiction
  | cons p l ih =>
    cases l with
    | nil => simp
    | cons q l =>
      have hl := ih (List.cons_ne_nil q l)
      rw [List.intercalate_cons_cons, List.map_cons, List.sum_cons, ← hl]
      simp only [List.length_append, List.length_cons, List.length_nil]
      omega

/-- With a separator behind each, the segments take as much room as the text and
one separator more. -/
theorem Segments.total_length {α : Type} {sep : α} {s : List α} {segs : List (List α)}
    (h : Segments sep s segs) : (segs.map (fun p => p.length + 1)).sum = s.length + 1 := by
  rw [← intercalate_length h.nonempty, h.join]

section

variable {α : Type} [BEq α] [LawfulBEq α] {sep : α} {s : List α} {segs : List (List α)}

theorem splitOn_mem {p : List α} (h : p ∈ s.splitOn sep) : sep ∉ p ∧ ∀ x ∈ p, x ∈ s := by
  induction s generalizing p with
  | nil =>
    have : p = [] := by simpa using h
    simp [this]
  | cons y s ih =>
    rw [List.splitOn_cons_eq_if_modifyHead] at h
    split at h
    next =>
      rcases List.mem_cons.mp h with rfl | h
      · simp
      · exact ⟨(ih h).1, fun x hx => List.mem_cons_of_mem y ((ih h).2 x hx)⟩
    next hne =>
      obtain ⟨front, rest, hs⟩ := List.exists_cons_of_ne_nil (List.splitOn_ne_nil sep s)
      rw [hs, List.modifyHead_cons] at h
      rcases List.mem_cons.mp h with rfl | h
      · obtain ⟨hfree, hsub⟩ := ih (p := front) (by simp [hs])
        refine ⟨?_, ?_⟩
        · simp only [List.mem_cons, not_or]
          exact ⟨fun he => hne (by simp [he]), hfree⟩
        · intro x hx
          exact (List.mem_cons.mp hx).elim (fun he => by simp [he])
            (fun hx => List.mem_cons_of_mem y (hsub x hx))
      · obtain ⟨hfree, hsub⟩ := ih (p := p) (by simp [hs, h])
        exact ⟨hfree, fun x hx => List.mem_cons_of_mem y (hsub x hx)⟩

theorem segments_splitOn (sep : α) (s : List α) : Segments sep s (s.splitOn sep) :=
  ⟨List.splitOn_ne_nil sep s, fun _ hp => (splitOn_mem hp).1, List.intercalate_splitOn sep⟩

namespace Segments

theorem splitOn_eq (h : Segments sep s segs) : s.splitOn sep = segs := by
  rw [← h.join]
  exact List.splitOn_intercalate sep h.free h.nonempty

theorem length_eq (h : Segments sep s segs) : segs.length = s.count sep + 1 := by
  induction segs generalizing s with
  | nil => exact absurd rfl h.nonempty
  | cons p segs ih =>
    have hp : p.count sep = 0 := List.count_eq_zero_of_not_mem (h.free p (by simp))
    cases segs with
    | nil =>
      have hs : s = p := by rw [← h.join, List.intercalate_singleton]
      simp [hs, hp]
    | cons q segs =>
      have hs : s = p ++ [sep] ++ [sep].intercalate (q :: segs) := by
        rw [← h.join, List.intercalate_cons_cons]
      have hlen := ih h.tail
      rw [hs, List.count_append, List.count_append, hp, List.count_singleton_self, List.length_cons]
      omega

/-- The only list that joins to nothing is the one empty segment. -/
theorem of_nil (h : Segments sep [] segs) : segs = [[]] := by
  rw [← h.splitOn_eq, List.splitOn_nil]

end Segments

end

end NetioMiddleware
