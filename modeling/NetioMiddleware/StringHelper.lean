import Mathlib.Data.List.DropRight
import NetioMiddleware.CText
import NetioMiddleware.Segments

namespace NetioMiddleware

abbrev StrMap := SortedMap Bytes Bytes

/-- The loop of SplitString over the shrinking copy sTmp; the last element is
pushed after the loop, whichever way it ends. -/
def splitLoop (cSep : UInt8) (sTmp : Bytes) : List Bytes :=
  if _hne : sTmp = [] then [sTmp]
  else
    match sTmp.idxOf? cSep with
    | none => [sTmp]
    | some nPos => sTmp.take nPos :: splitLoop cSep (sTmp.drop (nPos + 1))
termination_by sTmp.length
decreasing_by
  have := List.length_pos_iff.mpr _hne
  simp only [List.length_drop]
  omega

def splitString (sSrc : Bytes) (cSep : UInt8) : List Bytes :=
  if sSrc = [] then [] else splitLoop cSep sSrc

def isTrimmed (c : UInt8) : Bool := c ∈ bytes " \x0c\n\r\t\x0b"

def findFirstNotOf (s : Bytes) : Option Nat := s.findIdx? (fun c => !isTrimmed c)

def findLastNotOf (s : Bytes) : Option Nat :=
  (s.reverse.findIdx? (fun c => !isTrimmed c)).map (fun i => s.length - 1 - i)

def trim (s : Bytes) : Bytes :=
  if s.length = 0 then s
  else
    match findFirstNotOf s, findLastNotOf s with
    | some iBeg, some iEnd => if iEnd < iBeg then [] else (s.drop iBeg).take (iEnd - iBeg + 1)
    | _, _ => []

def strPairAppendToMap (sSrc : Bytes) (mpStr : StrMap) : StrMap :=
  (splitString sSrc 38).foldl
    (fun mp p =>
      match splitString p 61 with
      | [sKey, sVal] => mp.insert (trim sKey) (trim sVal)
      | _ => mp)
    mpStr

theorem splitLoop_eq_splitOn (cSep : UInt8) (s : Bytes) : splitLoop cSep s = s.splitOn cSep := by
  induction s using splitLoop.induct cSep with
  | case1 => simp [splitLoop]
  | case2 s hne hn =>
    have hmem : cSep ∉ s := List.idxOf?_eq_none_iff.mp hn
    rw [splitLoop, dif_neg hne, hn, List.splitOn_eq_singleton hmem]
  | case3 s hne nPos hs ih =>
    obtain ⟨hlt, hsep, hbefore⟩ := List.idxOf?_eq_some_iff.mp hs
    have hcut : s = s.take nPos ++ cSep :: s.drop (nPos + 1) := by
      rw [← hsep, List.getElem_cons_drop, List.take_append_drop]
    have hfree : cSep ∉ s.take nPos := by
      intro hm
      obtain ⟨j, hj, he⟩ := List.mem_iff_getElem.mp hm
      have hjn : j < nPos := by
        rw [List.length_take] at hj
        omega
      exact hbefore j hjn (by simpa using he)
    have hsplit := List.splitOn_append_cons_self_of_not_mem hfree (s.drop (nPos + 1))
    rw [← hcut] at hsplit
    rw [splitLoop, dif_neg hne, hs, hsplit, ← ih]

theorem splitString_eq (s : Bytes) (cSep : UInt8) :
    splitString s cSep = if s = [] then [] else s.splitOn cSep := by
  rw [splitString, splitLoop_eq_splitOn]

theorem splitString_segments (cSep : UInt8) {s : Bytes} (hs : s ≠ []) :
    Segments cSep s (splitString s cSep) := by
  rw [splitString_eq, if_neg hs]
  exact segments_splitOn cSep s

theorem Segments.splitString_eq {cSep : UInt8} {s : Bytes} {segs : List Bytes}
    (h : Segments cSep s segs) (hs : s ≠ []) : splitString s cSep = segs := by
  rw [NetioMiddleware.splitString_eq, if_neg hs, h.splitOn_eq]

theorem splitString_two {p l r : Bytes} (h : splitString p 61 = [l, r]) :
    p.count 61 = 1 ∧ p = l ++ 61 :: r := by
  have hp : p ≠ [] := by
    rintro rfl
    simp [splitString] at h
  have hsegs := h ▸ splitString_segments 61 hp
  have hlen := hsegs.length_eq
  have hjoin := hsegs.join
  rw [List.intercalate_cons_cons, List.intercalate_singleton] at hjoin
  refine ⟨?_, ?_⟩
  · simp only [List.length_cons, List.length_nil] at hlen
    omega
  · simpa using hjoin.symm

/-- Splitting and joining undo each other, but for the empty string, which is
split into nothing and not into one empty string. -/
theorem splitString_inverts_join (cSep : UInt8) :
    (∀ s, s ≠ [] →
      Segments cSep s (splitString s cSep) ∧
      (∀ segs, Segments cSep s segs → segs = splitString s cSep) ∧
      (splitString s cSep).length = s.count cSep + 1) ∧
    ∀ segs, (∀ p ∈ segs, cSep ∉ p) → (2 ≤ segs.length ∨ ∃ p, p ≠ [] ∧ segs = [p]) →
      splitString ([cSep].intercalate segs) cSep = segs := by
  refine ⟨?_, ?_⟩
  · intro s hs
    have hsegs := splitString_segments cSep hs
    exact ⟨hsegs, fun segs h => (h.splitString_eq hs).symm, hsegs.length_eq⟩
  · intro segs hfree hsize
    have hne : segs ≠ [] := by
      rintro rfl
      simp at hsize
    have hsegs : Segments cSep ([cSep].intercalate segs) segs := ⟨hne, hfree, rfl⟩
    refine hsegs.splitString_eq ?_
    intro hnil
    obtain rfl : segs = [[]] := (hnil ▸ hsegs).of_nil
    simp at hsize

theorem splitString_inverts_join_amp :
    (splitString (bytes "&a&&") 38).length = 4 ∧ splitString [38] 38 = [[], []] :=
  ⟨((splitString_inverts_join 38).1 (bytes "&a&&") (by decide)).2.2,
    (splitString_inverts_join 38).2 [[], []] (by decide) (Or.inl (by decide))⟩

theorem dropWhile_eq_drop_of_findIdx? {l : Bytes} {p : UInt8 → Bool} {i : Nat}
    (h : l.findIdx? (fun c => !p c) = some i) : l.dropWhile p = l.drop i := by
  obtain ⟨_, hi⟩ := List.findIdx?_eq_some_iff_findIdx_eq.mp h
  rw [List.dropWhile_eq_drop_findIdx_not, hi]

theorem findIdx?_take {l : Bytes} {p : UInt8 → Bool} {i n : Nat} (hn : i < n)
    (h : l.findIdx? p = some i) : (l.take n).findIdx? p = some i := by
  obtain ⟨hi, hp, hbefore⟩ := List.findIdx?_eq_some_iff_getElem.mp h
  refine List.findIdx?_eq_some_iff_getElem.mpr ⟨by simp; omega, by simpa using hp, ?_⟩
  intro j hj
  simpa using hbefore j hj

/-- Trim keeps what stands between the first and the last byte that is not blank. -/
theorem trim_eq (s : Bytes) : trim s = (s.dropWhile isTrimmed).rdropWhile isTrimmed := by
  cases hf : findFirstNotOf s with
  | none =>
    have hall : ∀ c ∈ s, isTrimmed c = true := by
      simpa [findFirstNotOf, List.findIdx?_eq_none_iff] using hf
    rw [List.dropWhile_eq_nil_iff.mpr hall]
    unfold trim
    split
    next h0 => simpa using h0
    next => simp [hf]
  | some iBeg =>
    obtain ⟨hb, hbc, _⟩ := List.findIdx?_eq_some_iff_getElem.mp hf
    obtain ⟨j, hj⟩ : ∃ j, s.reverse.findIdx? (fun c => !isTrimmed c) = some j := by
      cases h : s.reverse.findIdx? (fun c => !isTrimmed c) with
      | none =>
        have := List.findIdx?_eq_none_iff.mp h s[iBeg] (by simp)
        exact absurd hbc (by simp [this])
      | some j => exact ⟨j, rfl⟩
    have hle : j ≤ s.length - 1 - iBeg := by
      obtain ⟨_, _, hbefore⟩ := List.findIdx?_eq_some_iff_getElem.mp hj
      by_contra hlt
      refine hbefore (s.length - 1 - iBeg) (by omega) ?_
      simpa [show s.length - 1 - (s.length - 1 - iBeg) = iBeg by omega] using hbc
    have hlast : findLastNotOf s = some (s.length - 1 - j) := by simp [findLastNotOf, hj]
    have htake := dropWhile_eq_drop_of_findIdx? (findIdx?_take (n := s.length - iBeg) (by omega) hj)
    have htrim : trim s = (s.drop iBeg).take (s.length - j - iBeg) := by
      rw [trim, if_neg (by omega), hf, hlast]
      simp only [if_neg (show ¬s.length - 1 - j < iBeg by omega)]
      rw [show s.length - 1 - j - iBeg + 1 = s.length - j - iBeg by omega]
    rw [htrim, dropWhile_eq_drop_of_findIdx? hf, List.rdropWhile, List.reverse_drop, htake,
      List.drop_take, List.drop_reverse, List.take_reverse, List.reverse_reverse, List.drop_take]
    simp only [List.length_take]
    congr 1
    · omega
    · congr 1; omega

theorem trim_mem {s : Bytes} {c : UInt8} (h : c ∈ trim s) : c ∈ s := by
  rw [trim_eq] at h
  exact (List.dropWhile_sublist _).subset ((List.rdropWhile_prefix _ _).subset h)

theorem trim_eq_self_of_no_blank {s : Bytes} (h : ∀ c ∈ s, isTrimmed c = false) : trim s = s := by
  have hd : s.dropWhile isTrimmed = s :=
    List.dropWhile_eq_self_iff.mpr (fun hl => by simp [h s[0] (by simp)])
  rw [trim_eq, hd]
  exact List.rdropWhile_eq_self_iff.mpr (fun hl => by simp [h _ (List.getLast_mem hl)])

theorem trim_idempotent (s : Bytes) : trim (trim s) = trim s := by
  have hd : (trim s).dropWhile isTrimmed = trim s := by
    apply List.dropWhile_eq_self_iff.mpr
    intro hl
    have hpre : trim s <+: s.dropWhile isTrimmed := trim_eq s ▸ List.rdropWhile_prefix _ _
    have hl' : 0 < (s.dropWhile isTrimmed).length := lt_of_lt_of_le hl hpre.length_le
    rw [List.IsPrefix.getElem hpre hl]
    simpa using List.dropWhile_get_zero_not isTrimmed s hl'
  rw [trim_eq (trim s), hd]
  conv_lhs => rw [trim_eq s]
  rw [List.rdropWhile_idempotent, ← trim_eq]

/-- The binding one segment contributes: none unless it has exactly one '='. -/
def pairOf (p : Bytes) : Option (Bytes × Bytes) :=
  match splitString p 61 with
  | [sKey, sVal] => some (trim sKey, trim sVal)
  | _ => none

def pairsOf (s : Bytes) : List (Bytes × Bytes) := (splitString s 38).filterMap pairOf

def joinPairs (l : List (Bytes × Bytes)) : Bytes :=
  [38].intercalate (l.map (fun e => e.1 ++ 61 :: e.2))

/-- What a trimmed side of a parsed segment looks like. -/
structure CleanText (s : Bytes) : Prop where
  no_amp : 38 ∉ s
  no_eq : 61 ∉ s
  trimmed : trim s = s

theorem strPairAppendToMap_eq (s : Bytes) (m : StrMap) :
    strPairAppendToMap s m = m.insertAll (pairsOf s) := by
  unfold strPairAppendToMap pairsOf
  induction splitString s 38 generalizing m with
  | nil => rfl
  | cons p ps ih =>
    rw [List.foldl_cons, ih]
    unfold pairOf
    split
    next sKey sVal hp => rw [List.filterMap_cons]; simp only [hp]; rfl
    next hp =>
      rw [List.filterMap_cons]
      split
      next => rfl
      next e he =>
        split at he
        next sKey sVal hp' => exact absurd hp' (hp sKey sVal)
        next => contradiction

theorem joinPairs_cons_cons (e d : Bytes × Bytes) (l : List (Bytes × Bytes)) :
    joinPairs (e :: d :: l) = (e.1 ++ 61 :: e.2) ++ 38 :: joinPairs (d :: l) := by
  simp [joinPairs, List.intercalate_cons_cons]

theorem pairOf_nil : pairOf [] = none := by simp [pairOf, splitString]

theorem pairOf_field {k v : Bytes} (hk : 61 ∉ k) (hv : 61 ∉ v) :
    pairOf (k ++ 61 :: v) = some (trim k, trim v) := by
  have hs : splitString (k ++ 61 :: v) 61 = [k, v] := by
    rw [splitString_eq, if_neg (by simp), List.splitOn_append_cons_self_of_not_mem hk,
      List.splitOn_eq_singleton hv]
  simp [pairOf, hs]

theorem count_sides {l r : Bytes} (h : (l ++ 61 :: r).count 61 = 1) : 61 ∉ l ∧ 61 ∉ r := by
  rw [List.count_append, List.count_cons_self] at h
  exact ⟨List.count_eq_zero.mp (by omega), List.count_eq_zero.mp (by omega)⟩

/-- A segment with exactly one '=', whose left part trims to k and right part to v. -/
def IsPair (p k v : Bytes) : Prop :=
  p.count 61 = 1 ∧ ∃ l r, p = l ++ 61 :: r ∧ trim l = k ∧ trim r = v

/-- The parser's test for two elements is the test for exactly one '='. -/
theorem pairOf_eq_some_iff {p k v : Bytes} : pairOf p = some (k, v) ↔ IsPair p k v := by
  constructor
  · intro h
    unfold pairOf at h
    split at h
    next sKey sVal hs =>
      obtain ⟨hcount, hp⟩ := splitString_two hs
      cases Option.some.inj h
      exact ⟨hcount, sKey, sVal, hp, rfl, rfl⟩
    next => contradiction
  · rintro ⟨hcount, l, r, rfl, rfl, rfl⟩
    obtain ⟨hl, hr⟩ := count_sides hcount
    exact pairOf_field hl hr

theorem pairsOf_eq (s : Bytes) : pairsOf s = (s.splitOn 38).filterMap pairOf := by
  rw [pairsOf, splitString_eq]
  split
  next h => simp [h, pairOf_nil]
  next => rfl

theorem Segments.pairsOf_eq {s : Bytes} {segs : List Bytes} (h : Segments 38 s segs) :
    pairsOf s = segs.filterMap pairOf := by
  rw [NetioMiddleware.pairsOf_eq, h.splitOn_eq]

theorem pairsOf_nil : pairsOf [] = [] := by simp [pairsOf, splitString]

theorem pairsOf_append (a b : Bytes) : pairsOf (a ++ 38 :: b) = pairsOf a ++ pairsOf b := by
  simp only [pairsOf_eq, List.splitOn_append_cons_self, List.filterMap_append]

theorem pairsOf_field {k v : Bytes} (hk : CleanText k) (hv : CleanText v) :
    pairsOf (k ++ 61 :: v) = [(k, v)] := by
  have hamp : 38 ∉ k ++ 61 :: v := by simp [hk.no_amp, hv.no_amp]
  rw [pairsOf_eq, List.splitOn_eq_singleton hamp]
  simp [pairOf_field hk.no_eq hv.no_eq, hk.trimmed, hv.trimmed]

/-- A list of clean bindings survives joining and parsing. -/
theorem pairsOf_joinPairs {l : List (Bytes × Bytes)}
    (h : ∀ e ∈ l, CleanText e.1 ∧ CleanText e.2) : pairsOf (joinPairs l) = l := by
  induction l with
  | nil => exact pairsOf_nil
  | cons e l ih =>
    obtain ⟨hk, hv⟩ := h e (by simp)
    have hl := ih (fun d hd => h d (List.mem_cons_of_mem e hd))
    cases l with
    | nil => simpa [joinPairs] using pairsOf_field hk hv
    | cons d l =>
      rw [joinPairs_cons_cons, pairsOf_append, pairsOf_field hk hv, hl]
      rfl

theorem joinPairs_mem {l : List (Bytes × Bytes)} {c : UInt8} (h : c ∈ joinPairs l) :
    (c = 38 ∨ c = 61) ∨ ∃ e ∈ l, c ∈ e.1 ∨ c ∈ e.2 := by
  induction l with
  | nil => contradiction
  | cons e l ih =>
    have here : c ∈ e.1 ++ 61 :: e.2 → (c = 38 ∨ c = 61) ∨ ∃ d ∈ e :: l, c ∈ d.1 ∨ c ∈ d.2 := by
      intro hc
      simp only [List.mem_append, List.mem_cons] at hc
      rcases hc with hc | rfl | hc
      · exact Or.inr ⟨e, by simp, Or.inl hc⟩
      · exact Or.inl (Or.inr rfl)
      · exact Or.inr ⟨e, by simp, Or.inr hc⟩
    cases l with
    | nil => exact here (by simpa [joinPairs] using h)
    | cons d l =>
      rw [joinPairs_cons_cons, List.mem_append, List.mem_cons] at h
      rcases h with h | rfl | h
      · exact here h
      · exact Or.inl (Or.inl rfl)
      · rcases ih h with h | ⟨x, hx, h⟩
        · exact Or.inl h
        · exact Or.inr ⟨x, List.mem_cons_of_mem e hx, h⟩

theorem pairsOf_mem {s : Bytes} {e : Bytes × Bytes} (h : e ∈ pairsOf s) :
    (CleanText e.1 ∧ CleanText e.2) ∧ (∀ c ∈ e.1, c ∈ s) ∧ ∀ c ∈ e.2, c ∈ s := by
  rw [pairsOf_eq] at h
  obtain ⟨p, hp, he⟩ := List.mem_filterMap.mp h
  obtain ⟨hamp, hsub⟩ := splitOn_mem hp
  obtain ⟨hcount, l, r, rfl, hk, hv⟩ := pairOf_eq_some_iff.mp he
  obtain ⟨hl, hr⟩ := count_sides hcount
  have clean : ∀ t : Bytes, 61 ∉ t → (∀ c ∈ t, c ∈ l ++ 61 :: r) → CleanText (trim t) := fun t heq ht =>
    ⟨fun hm => hamp (ht _ (trim_mem hm)), fun hm => heq (trim_mem hm), trim_idempotent t⟩
  have left : ∀ c ∈ l, c ∈ l ++ 61 :: r := fun c hc => List.mem_append_left _ hc
  have right : ∀ c ∈ r, c ∈ l ++ 61 :: r :=
    fun c hc => List.mem_append_right l (List.mem_cons_of_mem 61 hc)
  rw [← hk, ← hv]
  exact ⟨⟨clean l hl left, clean r hr right⟩, fun c hc => hsub c (left c (trim_mem hc)),
    fun c hc => hsub c (right c (trim_mem hc))⟩

section

variable {k v : Bytes}

theorem strPairAppendToMap_find? (s : Bytes) (m : StrMap) (k : Bytes) :
    (strPairAppendToMap s m).find? k = (m.find? k).or (firstValue k (pairsOf s)) := by
  rw [strPairAppendToMap_eq, SortedMap.find?_insertAll]

theorem firstValue_pairs_isSome {segs : List Bytes} :
    (firstValue k (segs.filterMap pairOf)).isSome ↔ ∃ p ∈ segs, ∃ v, IsPair p k v := by
  rw [Option.isSome_iff_exists]
  constructor
  · rintro ⟨v, hv⟩
    obtain ⟨p, hp, he⟩ := List.mem_filterMap.mp (firstValue_mem hv)
    exact ⟨p, hp, v, pairOf_eq_some_iff.mp he⟩
  · rintro ⟨p, hp, v, hpair⟩
    have hmem : (k, v) ∈ segs.filterMap pairOf :=
      List.mem_filterMap.mpr ⟨p, hp, pairOf_eq_some_iff.mpr hpair⟩
    cases hf : firstValue k (segs.filterMap pairOf) with
    | none => exact absurd rfl (firstValue_eq_none_iff.mp hf _ hmem)
    | some w => exact ⟨w, rfl⟩

theorem firstValue_pairs_first {before after : List Bytes} {p : Bytes} (hp : IsPair p k v)
    (hbefore : ∀ q ∈ before, ∀ w, ¬IsPair q k w) :
    firstValue k ((before ++ p :: after).filterMap pairOf) = some v := by
  have hnone : firstValue k (before.filterMap pairOf) = none := by
    apply firstValue_eq_none_iff.mpr
    rintro ⟨k', w⟩ he rfl
    obtain ⟨q, hq, hqe⟩ := List.mem_filterMap.mp he
    exact hbefore q hq w (pairOf_eq_some_iff.mp hqe)
  rw [List.filterMap_append, List.filterMap_cons, pairOf_eq_some_iff.mpr hp, firstValue_append,
    hnone, Option.none_or]
  simp [firstValue]

end

/-- strPairAppendToMap turns joining with '&' into one call after the other,
keeps what the map holds, and binds a new key to its first segment's value. -/
theorem strPairAppendToMap_first_wins :
    (∀ s1 s2 m, strPairAppendToMap (s1 ++ 38 :: s2) m =
      strPairAppendToMap s2 (strPairAppendToMap s1 m)) ∧
    (∀ s m k v, m.find? k = some v → (strPairAppendToMap s m).find? k = some v) ∧
    ∀ s m k segs, m.find? k = none → Segments 38 s segs →
      (((strPairAppendToMap s m).find? k).isSome ↔ ∃ p ∈ segs, ∃ v, IsPair p k v) ∧
      ∀ before p after v, segs = before ++ p :: after → IsPair p k v →
        (∀ q ∈ before, ∀ w, ¬IsPair q k w) → (strPairAppendToMap s m).find? k = some v := by
  refine ⟨?_, ?_, ?_⟩
  · intro s1 s2 m
    rw [strPairAppendToMap_eq, strPairAppendToMap_eq, strPairAppendToMap_eq, pairsOf_append,
      SortedMap.insertAll_append]
  · intro s m k v hv
    rw [strPairAppendToMap_find?, hv, Option.some_or]
  · intro s m k segs hm hsegs
    rw [strPairAppendToMap_find?, hm, Option.none_or, hsegs.pairsOf_eq]
    refine ⟨firstValue_pairs_isSome, ?_⟩
    rintro before p after v rfl hp hbefore
    exact firstValue_pairs_first hp hbefore

theorem strPairAppendToMap_first_wins_sample :
    (strPairAppendToMap (bytes "b&a=1& a =2") (SortedMap.empty.assign (bytes "z") [])).find?
        (bytes "z") = some [] ∧
      (strPairAppendToMap (bytes "b&a=1& a =2") (SortedMap.empty.assign (bytes "z") [])).find?
        (bytes "a") = some (bytes "1") := by
  have hpair : IsPair (bytes "a=1") (bytes "a") (bytes "1") :=
    ⟨by decide, bytes "a", bytes "1", by decide, by decide, by decide⟩
  have hsegs : Segments 38 (bytes "b&a=1& a =2") [bytes "b", bytes "a=1", bytes " a =2"] :=
    ⟨by decide, by decide, by decide⟩
  have hbefore : ∀ q ∈ [bytes "b"], ∀ w, ¬IsPair q (bytes "a") w := by
    intro q hq w hw
    obtain rfl := List.mem_singleton.mp hq
    exact absurd hw.1 (by decide)
  exact ⟨strPairAppendToMap_first_wins.2.1 _ _ (bytes "z") [] (by decide),
    (strPairAppendToMap_first_wins.2.2 _ _ (bytes "a") _ (by decide) hsegs).2 [bytes "b"] _ _ _ rfl
      hpair hbefore⟩

end NetioMiddleware
