import Mathlib.Algebra.Order.BigOperators.Group.List
import NetioMiddleware.CmdRoundTrip

namespace NetioMiddleware

/-- The room a parameter takes, with the separator behind it. -/
def pairLength (e : Bytes × Bytes) : Nat := e.1.length + e.2.length + 2

theorem joinPairs_length {l : List (Bytes × Bytes)} (h : l ≠ []) :
    (joinPairs l).length + 1 = (l.map pairLength).sum := by
  have hmap : l.map (fun e => e.1 ++ 61 :: e.2) ≠ [] := by simpa using h
  rw [joinPairs, intercalate_length hmap, List.map_map]
  congr 1
  apply List.map_congr_left
  intro e _
  simp only [Function.comp_apply, List.length_append, List.length_cons, pairLength]
  omega

theorem trim_length (s : Bytes) : (trim s).length ≤ s.length := by
  have hdrop := (List.dropWhile_sublist isTrimmed (l := s)).length_le
  have hrdrop := (List.rdropWhile_prefix isTrimmed (s.dropWhile isTrimmed)).length_le
  rw [trim_eq]
  omega

/-- A segment has room for the parameter it holds. -/
theorem pairOf_length {p : Bytes} {e : Bytes × Bytes} (h : pairOf p = some e) :
    pairLength e ≤ p.length + 1 := by
  obtain ⟨_, l, r, rfl, hk, hv⟩ := pairOf_eq_some_iff.mp h
  have hkey := trim_length l
  have hval := trim_length r
  simp only [pairLength, ← hk, ← hv, List.length_append, List.length_cons]
  omega

theorem filterMap_length {l : List Bytes} :
    ((l.filterMap pairOf).map pairLength).sum ≤ (l.map (fun p => p.length + 1)).sum := by
  induction l with
  | nil => exact Nat.le_refl _
  | cons p l ih =>
    rw [List.filterMap_cons, List.map_cons, List.sum_cons]
    split
    next => omega
    next e he =>
      have hp := pairOf_length he
      rw [List.map_cons, List.sum_cons]
      omega

theorem pairsOf_length (s : Bytes) : ((pairsOf s).map pairLength).sum ≤ s.length + 1 := by
  rw [pairsOf_eq, ← (segments_splitOn 38 s).total_length]
  exact filterMap_length

/-- Printing the parameters InitCCmd keeps of a text takes no more room than the text. -/
theorem dataMap_length (s : Bytes) :
    (joinPairs (dataMap (SortedMap.empty.insertAll (pairsOf s))).entries).length ≤ s.length := by
  by_cases hnil : (dataMap (SortedMap.empty.insertAll (pairsOf s))).entries = []
  · rw [hnil]
    exact Nat.zero_le _
  · have hsub : (dataMap (SortedMap.empty.insertAll (pairsOf s))).entries ⊆ pairsOf s :=
      fun _ he => dataMap_entry_mem he
    obtain ⟨l, hperm, hl⟩ := List.subperm_of_subset (SortedMap.entries_nodup _) hsub
    have hsum : (l.map pairLength).sum ≤ ((pairsOf s).map pairLength).sum :=
      (hl.map pairLength).sum_le_sum (fun _ _ => Nat.zero_le _)
    have hentries := (hperm.map pairLength).sum_eq
    have hjoin := joinPairs_length hnil
    have htext := pairsOf_length s
    omega

end NetioMiddleware
