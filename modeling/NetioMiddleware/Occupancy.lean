import NetioMiddleware.IndexHistory

namespace NetioMiddleware

section

variable {T : Type} [ChunkType T]

/-- How many of the n buckets are occupied. -/
def occupied (o : IndexObject T) (mem : ChunkMemory T) (n : Nat) : Nat :=
  (List.range n).countP fun j => decide (mem.Occupied (o.bucket j))

/-- The counts a table gives are those of its buckets. -/
structure CountsRight (o : IndexObject T) (mem : ChunkMemory T) (n : Nat) : Prop where
  indexed : ∃ x, o.getIndexedNodeCount = .ok x ∧ x.toInt = occupied o mem n
  free : ∃ x y z, o.getFreeNodeCount = .ok x ∧ o.getIndexedNodeCount = .ok y ∧
    o.getTotalNodeCount = .ok z ∧ x + y = z
  empty : ∃ b, o.isEmpty = .ok b ∧ (b = true ↔ ∀ j, j < n → ¬mem.Occupied (o.bucket j))

/-- A call that cannot occupy a bucket. -/
def IndexCall.Empties (o : IndexObject T) : IndexCall T → Prop
  | add _ _ => False
  | fullFillValue vecX => Int32.ofNat vecX.length ≠ o.m_stHead.iBuckNums
  | _ => True

variable {i : IndexInit} {o : IndexObject T} {now now' : UInt32} {mem mem' : ChunkMemory T}
variable {pCache : Int} {n j : Nat}

theorem occupied_eq_zero : occupied o mem n = 0 ↔ ∀ j, j < n → ¬mem.Occupied (o.bucket j) := by
  unfold occupied
  rw [List.countP_eq_zero]
  constructor
  · intro h j hj hocc
    exact h j (List.mem_range.mpr hj) (decide_eq_true hocc)
  · intro h j hj hocc
    exact h j (List.mem_range.mp hj) (of_decide_eq_true hocc)

/-- A free count that equals the number of buckets is right exactly if no bucket is occupied. -/
theorem countsRight_iff (mem : ChunkMemory T) (ho : o.Ready n)
    (hfree : o.m_stHead.iFreeNodeCount = o.m_stHead.iBuckNums) :
    CountsRight o mem n ↔ ∀ j, j < n → ¬mem.Occupied (o.bucket j) := by
  have hindexed : o.getIndexedNodeCount = .ok 0 := by
    unfold IndexObject.getIndexedNodeCount
    rw [ho.mustInit, hfree, Int32.sub_self]
    rfl
  have hfreecount : o.getFreeNodeCount = .ok o.m_stHead.iBuckNums := by
    unfold IndexObject.getFreeNodeCount
    rw [ho.mustInit, hfree]
    rfl
  have htotal : o.getTotalNodeCount = .ok o.m_stHead.iBuckNums := by
    unfold IndexObject.getTotalNodeCount
    rw [ho.mustInit]
    rfl
  have hempty : o.isEmpty = .ok true := by
    unfold IndexObject.isEmpty
    rw [ho.mustInit, hfree, beq_self_eq_true]
    rfl
  constructor
  · intro h
    obtain ⟨x, hx, hcount⟩ := h.indexed
    cases Except.ok.inj (hindexed.symm.trans hx)
    apply occupied_eq_zero.mp
    exact Int.ofNat_inj.mp hcount.symm
  · intro h
    refine ⟨⟨0, hindexed, ?_⟩, ⟨_, _, _, hfreecount, hindexed, htotal, Int32.add_zero _⟩,
      ⟨true, hempty, fun _ => h, fun _ => rfl⟩⟩
    rw [occupied_eq_zero.mpr h]
    rfl

/-- Setting iInvalid of one bucket leaves iHasSet of every bucket as it is. -/
theorem setInvalid_iHasSet (o : IndexObject T) (mem : ChunkMemory T) (m j : Nat) (v : Int32) :
    (mem.setInvalid (o.bucket m) v).iHasSet (o.bucket j) = mem.iHasSet (o.bucket j) := by
  apply ChunkMemory.setInvalid_word
  by_cases heq : j = m
  · rw [heq]
    omega
  · have hapart := o.bucket_apart heq
    unfold Apart at hapart
    omega

theorem resetLoop_iHasSet {pEnd p : Int} (m : Nat) (hp : p = o.bucket m) :
    (IndexObject.resetLoop pEnd p mem).iHasSet (o.bucket j) = mem.iHasSet (o.bucket j) := by
  fun_induction IndexObject.resetLoop pEnd p mem generalizing m with
  | case1 p mem hle ih =>
    have hnext : p + IndexObject.unit T = o.bucket (m + 1) := by
      rw [hp]
      unfold IndexObject.bucket
      rw [Int.natCast_add, Int.add_mul]
      omega
    rw [ih (m + 1) hnext, hp]
    exact setInvalid_iHasSet o mem m j 1
  | case2 => rfl

theorem IndexCall.Empties.iHasSet (ho : o.Ready n) {c : IndexCall T} (hc : c.Empties o)
    {r : Int32 × ChunkMemory T} (hr : c.run o mem = .ok r) (j : Nat) :
    r.2.iHasSet (o.bucket j) = mem.iHasSet (o.bucket j) := by
  cases c with
  | add k v => exact hc.elim
  | delete k =>
    cases Except.ok.inj ((ho.delete mem k).symm.trans hr)
    exact setInvalid_iHasSet o mem _ j 1
  | reset =>
    cases Except.ok.inj ((ho.reset mem).symm.trans hr)
    apply resetLoop_iHasSet 0
    unfold IndexObject.bucket
    omega
  | fullFillValue vecX =>
    cases Except.ok.inj ((ho.fullFillValue_rejects mem hc).symm.trans hr)
    rfl

theorem runCalls_iHasSet (ho : o.Ready n) {calls : List (IndexCall T)}
    (hc : ∀ c ∈ calls, IndexCall.Empties o c) (hr : runCalls o mem calls = .ok mem') (j : Nat) :
    mem'.iHasSet (o.bucket j) = mem.iHasSet (o.bucket j) :=
  runCalls_keeps (f := fun m => m.iHasSet (o.bucket j)) ho
    (fun c hm _ _ hfirst => (hc c hm).iHasSet ho hfirst j) hr

/-- After any calls the counts are right exactly if no bucket is occupied, and they stay right as long as no
call occupies one. -/
theorem index_occupancy (o : IndexObject T) (now now' : UInt32) (mem : ChunkMemory T) (pCache : Int)
    (hpos : 0 < (i.iBuckNums T).toInt)
    (hz : mem.Zeroed pCache (64 + (i.iBuckNums T).toInt * IndexObject.unit T))
    (calls : List (IndexCall T)) :
    ∃ mem', runCalls (i.run o now now' mem pCache).2.1 (i.run o now now' mem pCache).2.2 calls = .ok mem' ∧
      (CountsRight (i.run o now now' mem pCache).2.1 mem' (i.iBuckNums T).toInt.toNat ↔
        ∀ j, j < (i.iBuckNums T).toInt.toNat →
          ¬mem'.Occupied ((i.run o now now' mem pCache).2.1.bucket j)) ∧
      ((∀ c ∈ calls, IndexCall.Empties (i.run o now now' mem pCache).2.1 c) →
        CountsRight (i.run o now now' mem pCache).2.1 mem' (i.iBuckNums T).toInt.toNat) := by
  have hready : (i.run o now now' mem pCache).2.1.Ready _ := IndexInit.run_ready hpos
  obtain ⟨mem', hrun⟩ := runCalls_ok hready calls (i.run o now now' mem pCache).2.2
  have hiff := countsRight_iff mem' hready IndexInit.run_iFreeNodeCount
  refine ⟨mem', hrun, hiff, fun hc => hiff.mpr fun j hj hocc => hocc.1 ?_⟩
  rw [runCalls_iHasSet hready hc hrun j]
  exact zeroed_iHasSet hpos hz hj

end

/-- One bucket of two has been added to, and none is counted. -/
theorem index_occupancy_fails :
    ∃ mem', runCalls (zeroedTable (.byNodeCount 2)).2.1 (zeroedTable (.byNodeCount 2)).2.2
        [.add (zeroedKey "b") 7] = .ok mem' ∧
      ¬CountsRight (zeroedTable (.byNodeCount 2)).2.1 mem' 2 := by
  have hready : (zeroedTable (.byNodeCount 2)).2.1.Ready 2 :=
    IndexInit.run_ready (i := .byNodeCount 2) (by decide)
  have hadd := hready.add (zeroedTable (.byNodeCount 2)).2.2 (zeroedKey "b") 7
  refine ⟨_, runCalls_cons (c := .add (zeroedKey "b") 7) hadd [], fun h => ?_⟩
  apply (countsRight_iff _ hready rfl).mp h 0 (by decide)
  decide +kernel

theorem index_occupancy_sample :
    ∃ mem', runCalls (zeroedTable (.byCacheSize 200)).2.1 (zeroedTable (.byCacheSize 200)).2.2
        [.delete (zeroedKey "b"), .reset, .fullFillValue [1]] = .ok mem' ∧
      CountsRight (zeroedTable (.byCacheSize 200)).2.1 mem' 3 := by
  obtain ⟨mem', hrun, -, hkeeps⟩ := index_occupancy (i := .byCacheSize 200) (IndexObject.new Int32) 0 0
    ⟨fun _ => 0, fun _ => 0⟩ 4096 (by decide) (fun _ _ _ => rfl)
    [.delete (zeroedKey "b"), .reset, .fullFillValue [1]]
  refine ⟨mem', hrun, hkeeps fun c hc => ?_⟩
  simp only [List.mem_cons, List.not_mem_nil, or_false] at hc
  rcases hc with rfl | rfl | rfl
  · trivial
  · trivial
  · show (1 : Int32) ≠ 3
    decide

end NetioMiddleware
