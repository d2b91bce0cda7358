import NetioMiddleware.IndexHistory

namespace NetioMiddleware

/-- A segment mapped at base, as memory of a CModHashV1<string,int>: the node of a bucket is the int behind
its meta data. -/
def Segment.memory (seg : Segment) (base : Int) : ChunkMemory Int32 where
  word q := seg (q - base).toNat
  node p := seg (p - base + 32).toNat

/-- An object and a table that lie in one segment and have the same buckets. -/
structure SameTable (t : CModHashV1) (o : IndexObject Int32) (base : Int) : Prop where
  ready : o.Ready t.m_stHead.iBuckNums
  start : o.m_stHead.pPucketsStart = base + t.m_stHead.pPucketsStart

section

variable {behind : Bytes → Nat → UInt8} {t : CModHashV1} {o : IndexObject Int32} {base : Int}
variable {seg seg' : Segment} {sKey : Bytes} {p j : Nat}

theorem unit_int : IndexObject.unit Int32 = 36 := rfl

theorem hash_segment (behind : Bytes → Nat → UInt8) (sKey : Bytes) :
    (IndexKey.string sKey (behind sKey)).hash = hashSum behind sKey := rfl

/-- What the segment holds in the bucket at an offset. -/
theorem value_memory (seg : Segment) (base : Int) (p : Nat) :
    (seg.memory base).value (base + p) =
      if seg (CModHashV1.iHasSet p) ≠ 0 ∧ seg (CModHashV1.iInvalid p) = 0 then
        some (seg (CModHashV1.node p))
      else none := by
  have hset : (base + p + 8 - base).toNat = CModHashV1.iHasSet p := by
    unfold CModHashV1.iHasSet
    omega
  have hinv : (base + p + 12 - base).toNat = CModHashV1.iInvalid p := by
    unfold CModHashV1.iInvalid
    omega
  have hnode : (base + p - base + 32).toNat = CModHashV1.node p := by
    unfold CModHashV1.node
    omega
  rw [← hset, ← hinv, ← hnode]
  rfl

theorem value_memory_congr (h : ∀ q, CModHashV1.InBucket p q → seg' q = seg q) :
    (seg'.memory base).value (base + p) = (seg.memory base).value (base + p) := by
  have hset := h (CModHashV1.iHasSet p)
    (by simp only [CModHashV1.InBucket, CModHashV1.iHasSet, sizeofBucket]; omega)
  have hinv := h (CModHashV1.iInvalid p)
    (by simp only [CModHashV1.InBucket, CModHashV1.iInvalid, sizeofBucket]; omega)
  have hnode := h (CModHashV1.node p)
    (by simp only [CModHashV1.InBucket, CModHashV1.node, sizeofBucket]; omega)
  simp only [value_memory, hset, hinv, hnode]

/-- The offset of a bucket. -/
def offset (t : CModHashV1) (j : Nat) : Nat := t.m_stHead.pPucketsStart + j * sizeofBucket

theorem SameTable.bucket (h : SameTable t o base) (j : Nat) : o.bucket j = base + offset t j := by
  unfold IndexObject.bucket offset sizeofBucket
  rw [h.start, unit_int]
  omega

theorem pBuck_eq_offset :
    t.pBuck behind sKey = offset t ((hashSum behind sKey).toNat % t.m_stHead.iBuckNums) := rfl

theorem offset_apart {i j q : Nat} (h : i ≠ j) (hq : CModHashV1.InBucket (offset t i) q) :
    ¬CModHashV1.InBucket (offset t j) q := by
  simp only [CModHashV1.InBucket, offset, sizeofBucket] at hq ⊢
  omega

/-- Find on the segment is Find of the object. -/
theorem SameTable.find (h : SameTable t o base) (seg : Segment) (sKey : Bytes) (indexNode : Int32) :
    o.find (seg.memory base) (.string sKey (behind sKey)) indexNode =
      .ok (t.find behind seg sKey indexNode) := by
  rw [h.ready.find, h.bucket, hash_segment, value_memory, ← pBuck_eq_offset]
  unfold CModHashV1.find
  dsimp only
  by_cases hocc : seg (CModHashV1.iHasSet (t.pBuck behind sKey)) ≠ 0 ∧
      seg (CModHashV1.iInvalid (t.pBuck behind sKey)) = 0
  · rw [if_pos hocc, if_pos hocc]
  · rw [if_neg hocc, if_neg hocc]
    rfl

theorem value_of_found {n : Nat} (ho : o.Ready n) {mem : ChunkMemory Int32} {k : IndexKey} {v w : Int32}
    (h : o.find mem k w = .ok (0, v)) : mem.value (o.bucket (k.hash.toNat % n)) = some v := by
  have hcode : (1003 : Int32) ≠ 0 := by decide
  rw [ho.find] at h
  cases hval : mem.value (o.bucket (k.hash.toNat % n)) with
  | some x =>
    rw [hval] at h
    have hx : x = v := congrArg Prod.snd (Except.ok.inj h)
    rw [hx]
  | none =>
    rw [hval] at h
    exact absurd (congrArg Prod.fst (Except.ok.inj h)) hcode

theorem value_of_not_found {n : Nat} (ho : o.Ready n) {mem : ChunkMemory Int32} {k : IndexKey} {w : Int32}
    (h : o.find mem k w = .ok (CModHashV1.KEY_NOT_FOUND, w)) :
    mem.value (o.bucket (k.hash.toNat % n)) = none := by
  have hcode : (0 : Int32) ≠ CModHashV1.KEY_NOT_FOUND := by decide
  rw [ho.find] at h
  cases hval : mem.value (o.bucket (k.hash.toNat % n)) with
  | some x =>
    rw [hval] at h
    exact absurd (congrArg Prod.fst (Except.ok.inj h)) hcode
  | none => rfl

/-- A call on the segment that changes no bucket but the one of its key. -/
theorem SameTable.frame (h : SameTable t o base)
    (hframe : ∀ q, ¬CModHashV1.InBucket (t.pBuck behind sKey) q → seg' q = seg q)
    (hkey : (hashSum behind sKey).toNat % t.m_stHead.iBuckNums ≠ j) :
    (seg'.memory base).value (o.bucket j) = (seg.memory base).value (o.bucket j) := by
  rw [h.bucket]
  apply value_memory_congr
  intro q hq
  exact hframe q fun hin => offset_apart hkey hin hq

/-- Add on the segment leaves in every bucket what Add of the object does. -/
theorem SameTable.add (h : SameTable t o base) (seg : Segment) (sKey : Bytes) (v : Int32) (j : Nat) :
    ((t.add behind seg sKey v).2.memory base).value (o.bucket j) =
      (IndexCall.add (.string sKey (behind sKey)) v).touch t.m_stHead.iBuckNums j
        ((seg.memory base).value (o.bucket j)) := by
  unfold IndexCall.touch
  dsimp only
  rw [hash_segment]
  by_cases hkey : (hashSum behind sKey).toNat % t.m_stHead.iBuckNums = j
  · rw [if_pos hkey, ← hkey, ← hash_segment]
    apply value_of_found h.ready (w := 0)
    rw [h.find, CModHashV1.find_add]
  · rw [if_neg hkey]
    exact h.frame (fun q hq => CModHashV1.add_frame hq v) hkey

/-- So does Delete. -/
theorem SameTable.delete (h : SameTable t o base) (seg : Segment) (sKey : Bytes) (j : Nat) :
    ((t.delete behind seg sKey).2.memory base).value (o.bucket j) =
      (IndexCall.delete (.string sKey (behind sKey))).touch t.m_stHead.iBuckNums j
        ((seg.memory base).value (o.bucket j)) := by
  unfold IndexCall.touch
  dsimp only
  rw [hash_segment]
  by_cases hkey : (hashSum behind sKey).toNat % t.m_stHead.iBuckNums = j
  · rw [if_pos hkey, ← hkey, ← hash_segment]
    apply value_of_not_found h.ready (w := 0)
    rw [h.find, CModHashV1.find_delete]
  · rw [if_neg hkey]
    exact h.frame (fun q hq => CModHashV1.delete_frame hq) hkey

/-- InitalizeByNodeCount sets both up alike. -/
theorem initalize_sameTable {dwNodeCount : Nat} (hpos : 0 < dwNodeCount) (hlt : dwNodeCount < 2 ^ 31)
    (o : IndexObject Int32) (seg : Segment) (pCache : Nat) (address : UInt64) (now now' : UInt32)
    (base : Int) (mem : ChunkMemory Int32) :
    SameTable (initalizeByNodeCount address now now' pCache dwNodeCount hpos seg).1
      (o.initalizeByNodeCount now now' mem (base + pCache) (Int32.ofNat dwNodeCount)).2.1 base := by
  have hcount : (Int32.ofNat dwNodeCount).toInt = dwNodeCount := Int32.toInt_ofNat_of_lt hlt
  have hinited : (1 : Int32) ≠ 0 := by decide
  refine ⟨⟨hinited, hcount, hpos⟩, ?_⟩
  show base + pCache + IndexObject.iHeadSize.toInt = base + ((pCache + sizeofHead : Nat) : Int)
  rw [IndexObject.toInt_iHeadSize]
  unfold sizeofHead
  omega

end

end NetioMiddleware
