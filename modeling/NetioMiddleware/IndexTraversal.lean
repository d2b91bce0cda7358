import NetioMiddleware.IndexHistory

namespace NetioMiddleware

section

variable {T : Type} [ChunkType T]

/-- Every bucket with its node, once and in the order of the indices. -/
def allBuckets (o : IndexObject T) (mem : ChunkMemory T) (n : Nat) : List (Int × T) :=
  (List.range n).map fun j => (o.bucket j, mem.node (o.bucket j))

variable {i : IndexInit} {o : IndexObject T} {now now' : UInt32} {mem : ChunkMemory T}
variable {pCache pEnd it : Int}

/-- The loop prints from where the iterator is up to the end, and leaves it one bucket behind. -/
theorem printLoop_visits (mem : ChunkMemory T) (m : Nat) (it : Int) :
    IndexObject.printLoop mem (it + m * IndexObject.unit T) it =
      ((List.range (m + 1)).map fun j : Nat =>
        (it + j * IndexObject.unit T, mem.node (it + j * IndexObject.unit T)),
        it + ((m + 1 : Nat) : Int) * IndexObject.unit T) := by
  have hunit := IndexObject.unit_pos (T := T)
  induction m generalizing it with
  | zero =>
    have hgo := (IndexObject.compare_le_iff (T := T) it it).mpr (by omega)
    have hstop : ¬IndexObject.compare (T := T) (it + IndexObject.unit T) it ≤ 0 := by
      rw [IndexObject.compare_le_iff]
      omega
    rw [IndexObject.add_zero_unit, IndexObject.printLoop, if_pos hgo, IndexObject.next,
      IndexObject.printLoop, if_neg hstop, IndexObject.add_succ_unit, IndexObject.add_zero_unit]
    simp only [Nat.zero_add, List.range_one, List.map_cons, List.map_nil, IndexObject.add_zero_unit]
  | succ m ih =>
    have hmul := IndexObject.mul_unit_nonneg (T := T) m
    have hgo := (IndexObject.compare_le_iff (T := T) it
      (it + IndexObject.unit T + m * IndexObject.unit T)).mpr (by omega)
    rw [IndexObject.add_succ_unit it m, IndexObject.printLoop, if_pos hgo, IndexObject.next, ih,
      IndexObject.add_succ_unit it (m + 1), List.range_succ_eq_map (n := m + 1), List.map_cons, List.map_map,
      IndexObject.add_zero_unit]
    refine congrArg₂ Prod.mk (congrArg (_ :: ·) (List.map_congr_left fun j _ => ?_)) rfl
    simp only [Function.comp, Nat.succ_eq_add_one, IndexObject.add_succ_unit]

theorem printLoop_stops (h : pEnd + IndexObject.unit T ≤ it) :
    IndexObject.printLoop mem pEnd it = ([], it) := by
  have hstop : ¬IndexObject.compare (T := T) it pEnd ≤ 0 := by
    rw [IndexObject.compare_le_iff]
    omega
  rw [IndexObject.printLoop, if_neg hstop]

/-- No bucket behind the end is printed. -/
theorem printLoop_before (mem : ChunkMemory T) (pEnd it : Int) :
    ∀ x ∈ (IndexObject.printLoop mem pEnd it).1, x.1 < pEnd + IndexObject.unit T := by
  fun_induction IndexObject.printLoop mem pEnd it with
  | case1 it hle rest ih =>
    intro x hx
    rcases List.mem_cons.mp hx with rfl | hx
    · exact (IndexObject.compare_le_iff _ _).mp hle
    · exact ih x hx
  | case2 it hgt =>
    intro x hx
    exact absurd hx List.not_mem_nil

/-- The loop leaves the iterator behind the end. -/
theorem printLoop_left (mem : ChunkMemory T) (pEnd it : Int) :
    pEnd + IndexObject.unit T ≤ (IndexObject.printLoop mem pEnd it).2 := by
  fun_induction IndexObject.printLoop mem pEnd it with
  | case1 it hle rest ih => exact ih
  | case2 it hgt =>
    rw [IndexObject.compare_le_iff] at hgt
    omega

theorem printAll_eq (mem : ChunkMemory T) (hinited : o.m_stHead.iInited ≠ 0)
    (hstart : o.m_pIteratorStart = some it) (hend : o.m_pIteratorEnd = some pEnd) :
    o.printAll mem = .ok ((IndexObject.printLoop mem pEnd it).1,
      { o with m_pIteratorStart := some (IndexObject.printLoop mem pEnd it).2 }) := by
  unfold IndexObject.printAll IndexObject.mustInit
  rw [if_neg hinited, hstart, hend]
  rfl

theorem printTimes_succ {first : List (Int × T) × IndexObject T} (h : o.printAll mem = .ok first)
    {t : Nat} {rest : List (List (Int × T)) × IndexObject T}
    (hrest : IndexObject.printTimes mem t first.2 = .ok rest) :
    IndexObject.printTimes mem (t + 1) o = .ok (first.1 :: rest.1, rest.2) := by
  show Except.bind (o.printAll mem) _ = _
  rw [h]
  show Except.bind (IndexObject.printTimes mem t first.2) _ = _
  rw [hrest]
  rfl

theorem printTimes_ok (mem : ChunkMemory T) (t : Nat) (hinited : o.m_stHead.iInited ≠ 0)
    (hstart : o.m_pIteratorStart = some it) (hend : o.m_pIteratorEnd = some pEnd) :
    ∃ r, IndexObject.printTimes mem t o = .ok r ∧ r.1.length = t := by
  induction t generalizing o it with
  | zero => exact ⟨([], o), rfl, rfl⟩
  | succ t ih =>
    have hfirst := printAll_eq mem hinited hstart hend
    obtain ⟨rest, hrest, hlen⟩ := ih (o := { o with
      m_pIteratorStart := some (IndexObject.printLoop mem pEnd it).2 }) hinited rfl hend
    exact ⟨_, printTimes_succ hfirst hrest, congrArg (· + 1) hlen⟩

variable {n : Nat}

theorem allBuckets_ne_nil (hn : 0 < n) : allBuckets o mem n ≠ [] := by
  intro h
  have hlen := congrArg List.length h
  rw [allBuckets, List.length_map, List.length_range, List.length_nil] at hlen
  omega

/-- A first traversal prints every bucket exactly if the end pointer is the last bucket. -/
theorem printLoop_all_iff (hn : 0 < n)
    (hshort : pEnd ≠ o.bucket (n - 1) → pEnd + IndexObject.unit T ≤ o.bucket (n - 1)) :
    (IndexObject.printLoop mem pEnd o.m_stHead.pPucketsStart).1 = allBuckets o mem n ↔
      pEnd = o.bucket (n - 1) := by
  constructor
  · intro hall
    by_contra hne
    have hle := hshort hne
    have hlast : (o.bucket (n - 1), mem.node (o.bucket (n - 1))) ∈ allBuckets o mem n :=
      List.mem_map.mpr ⟨n - 1, List.mem_range.mpr (by omega), rfl⟩
    rw [← hall] at hlast
    have hbefore := printLoop_before mem pEnd o.m_stHead.pPucketsStart _ hlast
    dsimp only at hbefore
    omega
  · intro hend
    have hvisits := printLoop_visits mem (n - 1) o.m_stHead.pPucketsStart
    rw [show n - 1 + 1 = n by omega] at hvisits
    rw [hend]
    exact congrArg Prod.fst hvisits

/-- A second one begins where the first has ended and prints nothing. -/
theorem printTimes_iff (mem : ChunkMemory T) (ho : o.Ready n)
    (hstart : o.m_pIteratorStart = some o.m_stHead.pPucketsStart)
    (hend : o.m_pIteratorEnd = some pEnd)
    (hshort : pEnd ≠ o.bucket (n - 1) → pEnd + IndexObject.unit T ≤ o.bucket (n - 1)) (t : Nat) :
    ∃ r, IndexObject.printTimes mem t o = .ok r ∧ r.1.length = t ∧
      ((∀ printed ∈ r.1, printed = allBuckets o mem n) ↔ t = 0 ∨ t = 1 ∧ pEnd = o.bucket (n - 1)) := by
  have hfirst := printAll_eq mem ho.inited hstart hend
  match t with
  | 0 => exact ⟨([], o), rfl, rfl, fun _ => Or.inl rfl, fun _ _ h => absurd h List.not_mem_nil⟩
  | 1 =>
    refine ⟨_, printTimes_succ hfirst rfl, rfl, ?_⟩
    rw [List.forall_mem_singleton, printLoop_all_iff ho.pos hshort]
    exact ⟨fun h => Or.inr ⟨rfl, h⟩, fun h => (h.resolve_left Nat.one_ne_zero).2⟩
  | t + 2 =>
    let second : IndexObject T := { o with
      m_pIteratorStart := some (IndexObject.printLoop mem pEnd o.m_stHead.pPucketsStart).2 }
    have hsecond := printAll_eq (o := second) mem ho.inited rfl hend
    rw [printLoop_stops (printLoop_left mem pEnd _)] at hsecond
    obtain ⟨rest, hrest, hlen⟩ := printTimes_ok (o := { second with
      m_pIteratorStart := some (IndexObject.printLoop mem pEnd o.m_stHead.pPucketsStart).2 })
      mem t ho.inited rfl hend
    refine ⟨_, printTimes_succ hfirst (printTimes_succ hsecond hrest), congrArg (· + 2) hlen, ?_, ?_⟩
    · intro hall
      have hempty := hall [] (List.mem_cons_of_mem _ List.mem_cons_self)
      exact absurd hempty.symm (allBuckets_ne_nil ho.pos)
    · rintro (h | ⟨h, -⟩) <;> omega

/-- Any number of traversals of a table whose buckets end where the end pointer says comes to an end; each
of them prints every bucket exactly if there is at most one and the buckets end there. -/
theorem index_traversal (o : IndexObject T) (now now' : UInt32) (mem : ChunkMemory T) (pCache : Int)
    (hpos : 0 < (i.iBuckNums T).toInt) (mem' : ChunkMemory T) (t : Nat) :
    (i.Ends T → ∃ r, IndexObject.printTimes mem' t (i.run o now now' mem pCache).2.1 = .ok r ∧
      r.1.length = t) ∧
    ((∃ r, IndexObject.printTimes mem' t (i.run o now now' mem pCache).2.1 = .ok r ∧ r.1.length = t ∧
      ∀ printed ∈ r.1, printed = allBuckets (i.run o now now' mem pCache).2.1 mem'
        (i.iBuckNums T).toInt.toNat) ↔
      t = 0 ∨ t = 1 ∧ i.Ends T) := by
  have hready : (i.run o now now' mem pCache).2.1.Ready _ := IndexInit.run_ready hpos
  have hiterators : (i.run o now now' mem pCache).2.1.m_pIteratorStart = some _ ∧
    (i.run o now now' mem pCache).2.1.m_pIteratorEnd = some _ := IndexInit.run_iterators
  have hends : (i.run o now now' mem pCache).2.1.m_stHead.pPBucketsEnd =
      (i.run o now now' mem pCache).2.1.bucket ((i.iBuckNums T).toInt.toNat - 1) ↔ i.Ends T :=
    IndexInit.run_ends_iff hpos
  have hshort : ¬i.Ends T → (i.run o now now' mem pCache).2.1.m_stHead.pPBucketsEnd + IndexObject.unit T ≤
      (i.run o now now' mem pCache).2.1.bucket ((i.iBuckNums T).toInt.toNat - 1) := by
    intro he
    rw [IndexInit.run_last hpos]
    exact IndexInit.run_short hpos he
  obtain ⟨r, hr, hlen, hiff⟩ := printTimes_iff mem' hready hiterators.1 hiterators.2
    (fun hne => hshort fun he => hne (hends.mpr he)) t
  have hall := hiff.trans (or_congr_right (and_congr_right fun _ => hends))
  refine ⟨fun _ => ⟨r, hr, hlen⟩, ?_, fun h => ⟨r, hr, hlen, hall.mpr h⟩⟩
  rintro ⟨r', hr', -, hprinted⟩
  cases Except.ok.inj (hr'.symm.trans hr)
  exact hall.mp hprinted

end

/-- The second traversal of two buckets prints nothing. -/
theorem index_traversal_fails :
    ∃ r, IndexObject.printTimes (zeroedTable (.byNodeCount 2)).2.2 2 (zeroedTable (.byNodeCount 2)).2.1 =
        .ok r ∧
      ¬∀ printed ∈ r.1, printed =
        allBuckets (zeroedTable (.byNodeCount 2)).2.1 (zeroedTable (.byNodeCount 2)).2.2 2 := by
  have hready : (zeroedTable (.byNodeCount 2)).2.1.Ready 2 :=
    IndexInit.run_ready (i := .byNodeCount 2) (by decide)
  obtain ⟨r, hr, -, hiff⟩ := printTimes_iff (zeroedTable (.byNodeCount 2)).2.2 hready rfl rfl
    (fun hne => absurd (by decide) hne) 2
  refine ⟨r, hr, fun hall => ?_⟩
  have h := hiff.mp hall
  omega

theorem index_traversal_sample :
    ∃ r, IndexObject.printTimes (zeroedTable (.byNodeCount 2)).2.2 1 (zeroedTable (.byNodeCount 2)).2.1 =
        .ok r ∧
      ∀ printed ∈ r.1, printed =
        allBuckets (zeroedTable (.byNodeCount 2)).2.1 (zeroedTable (.byNodeCount 2)).2.2 2 := by
  have hends : IndexInit.Ends Int32 (.byNodeCount 2) := by
    show (2 : Int32).toInt * IndexObject.unit Int32 < 2 ^ 31
    decide
  obtain ⟨-, hiff⟩ := index_traversal (i := .byNodeCount 2) (IndexObject.new Int32) 0 0
    ⟨fun _ => 0, fun _ => 0⟩ 4096 (by decide) (zeroedTable (.byNodeCount 2)).2.2 1
  obtain ⟨r, hr, -, hprinted⟩ := hiff.mpr (Or.inr ⟨rfl, hends⟩)
  exact ⟨r, hr, hprinted⟩

end NetioMiddleware
