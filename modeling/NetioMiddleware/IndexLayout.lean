import NetioMiddleware.HashIndex

namespace NetioMiddleware

/-- A call of one of the two initialisers. -/
inductive IndexInit
  | byCacheSize (dwCacheLength : Int32)
  | byNodeCount (dwNodeCount : Int32)

section

variable {T : Type} [ChunkType T]

def IndexInit.run (o : IndexObject T) (now now' : UInt32) (mem : ChunkMemory T) (pCache : Int) :
    IndexInit → Int32 × IndexObject T × ChunkMemory T
  | byCacheSize dwCacheLength => o.initalizeByCacheSize now now' mem pCache dwCacheLength
  | byNodeCount dwNodeCount => o.initalizeByNodeCount now now' mem pCache dwNodeCount

end

/-- The number of buckets an initialiser sets. -/
def IndexInit.iBuckNums (T : Type) [ChunkType T] : IndexInit → Int32
  | byCacheSize dwCacheLength =>
    (dwCacheLength - IndexObject.iHeadSize) / IndexObject.iUintBuckSize T
  | byNodeCount dwNodeCount => dwNodeCount

theorem IndexInit.iBuckNums_byCacheSize (T : Type) [ChunkType T] (len : Int32) :
    (byCacheSize len).iBuckNums T = (len - IndexObject.iHeadSize) / IndexObject.iUintBuckSize T := rfl

theorem IndexInit.iBuckNums_byNodeCount (T : Type) [ChunkType T] (count : Int32) :
    (byNodeCount count).iBuckNums T = count := rfl

/-- The int expressions an initialiser evaluates, as exact numbers. -/
def IndexInit.ints (T : Type) [ChunkType T] : IndexInit → List Int
  | byCacheSize dwCacheLength =>
    let iLeft := dwCacheLength.toInt - 64
    let iBuckNums := iLeft.tdiv (IndexObject.unit T)
    [iLeft, iBuckNums, iBuckNums * IndexObject.unit T, iLeft - iBuckNums * IndexObject.unit T]
  | byNodeCount dwNodeCount =>
    [dwNodeCount.toInt * IndexObject.unit T, dwNodeCount.toInt * IndexObject.unit T + 64]

/-- The buckets an initialiser counts end where its end pointer says. -/
def IndexInit.Ends (T : Type) [ChunkType T] : IndexInit → Prop
  | byCacheSize dwCacheLength => 0 ≤ dwCacheLength.toInt
  | byNodeCount dwNodeCount => dwNodeCount.toInt * IndexObject.unit T < 2 ^ 31

/-- No signed overflow. -/
def FitsInt (x : Int) : Prop := -2 ^ 31 ≤ x ∧ x < 2 ^ 31

theorem toInt_fits (a : Int32) : FitsInt a.toInt := ⟨a.le_toInt, a.toInt_lt⟩

theorem toInt_add_of_fitsInt {a b : Int32} (h : FitsInt (a.toInt + b.toInt)) :
    (a + b).toInt = a.toInt + b.toInt := by
  unfold FitsInt at h
  rw [Int32.toInt_add]
  exact Int.bmod_eq_of_le (by omega) (by omega)

theorem toInt_sub_of_fitsInt {a b : Int32} (h : FitsInt (a.toInt - b.toInt)) :
    (a - b).toInt = a.toInt - b.toInt := by
  unfold FitsInt at h
  rw [Int32.toInt_sub]
  exact Int.bmod_eq_of_le (by omega) (by omega)

theorem toInt_mul_of_fitsInt {a b : Int32} (h : FitsInt (a.toInt * b.toInt)) :
    (a * b).toInt = a.toInt * b.toInt := by
  unfold FitsInt at h
  rw [Int32.toInt_mul]
  exact Int.bmod_eq_of_le (by omega) (by omega)

/-- A product too large for an int loses a multiple of 2^32. -/
theorem toInt_mul_of_large {a b : Int32} (h : 2 ^ 31 ≤ a.toInt * b.toInt) :
    (a * b).toInt ≤ a.toInt * b.toInt - 2 ^ 32 := by
  rw [Int32.toInt_mul, Int.bmod_def]
  split <;> omega

namespace IndexObject

/-- An object that has n buckets to look keys up in. -/
structure Ready {T : Type} (o : IndexObject T) (n : Nat) : Prop where
  inited : o.m_stHead.iInited ≠ 0
  iBuckNums : o.m_stHead.iBuckNums.toInt = n
  pos : 0 < n

section

variable {T : Type} {o : IndexObject T} {n : Nat}

theorem toInt_iHeadSize : iHeadSize.toInt = 64 := by decide

theorem Ready.lt (h : o.Ready n) : n < 2 ^ 31 := by
  have hlt := o.m_stHead.iBuckNums.toInt_lt
  rw [h.iBuckNums] at hlt
  omega

theorem Ready.mustInit (h : o.Ready n) : o.mustInit = .ok () := if_neg h.inited

/-- A positive count is divided by as it is. -/
theorem Ready.toNat_iBuckNums (h : o.Ready n) : o.m_stHead.iBuckNums.toInt64.toUInt64.toNat = n := by
  have hle : (0 : Int64) ≤ o.m_stHead.iBuckNums.toInt64 := by
    rw [Int64.le_iff_toInt_le, Int32.toInt_toInt64, h.iBuckNums]
    exact Int.natCast_nonneg n
  rw [Int64.toNat_toUInt64_of_le hle, ← Int64.toNat_toInt, Int32.toInt_toInt64, h.iBuckNums]
  exact Int.toNat_natCast n

/-- The remainder is an index of a bucket. -/
theorem Ready.modToUint (h : o.Ready n) (k : IndexKey) :
    ∃ i, o.modToUint k = .ok i ∧ i.toInt = (k.hash.toNat % n : Nat) := by
  have hlt := h.lt
  have hpos := h.pos
  have hnat := h.toNat_iBuckNums
  have hne : o.m_stHead.iBuckNums.toInt64.toUInt64 ≠ 0 := by
    intro hz
    rw [hz] at hnat
    exact hpos.ne hnat
  refine ⟨(k.hash % o.m_stHead.iBuckNums.toInt64.toUInt64).toUInt32.toInt32, if_neg hne, ?_⟩
  have hmod := Nat.mod_lt k.hash.toNat hpos
  have hword : (k.hash % o.m_stHead.iBuckNums.toInt64.toUInt64).toUInt32.toNat = k.hash.toNat % n := by
    rw [UInt64.toNat_toUInt32, UInt64.toNat_mod, hnat]
    exact Nat.mod_eq_of_lt (by omega)
  have hint : ∀ x : UInt32, x.toNat < 2 ^ 31 → x.toInt32.toInt = x.toNat := by
    intro x hx
    exact BitVec.toInt_eq_toNat_of_lt (x := x.toBitVec) (show 2 * x.toNat < 2 ^ 32 by omega)
  rw [hint _ (by omega), hword]

end

section

variable {T : Type} [ChunkType T] {o : IndexObject T} {n : Nat}

theorem unit_lt : unit T < 2 ^ 31 := by
  have h : ChunkType.sizeofBucket T < 2 ^ 31 := ChunkType.fits
  unfold unit
  omega

theorem toInt_iUintBuckSize : (iUintBuckSize T).toInt = unit T := by
  have h : ChunkType.sizeofBucket T < 2 ^ 31 := ChunkType.fits
  exact Int32.toInt_ofNat_of_lt h

/-- The address of the bucket with an index. -/
def bucket (o : IndexObject T) (i : Nat) : Int := o.m_stHead.pPucketsStart + i * unit T

theorem Ready.pBuck (h : o.Ready n) (k : IndexKey) :
    o.pBuck k = .ok (o.bucket (k.hash.toNat % n)) := by
  obtain ⟨i, hmod, hi⟩ := h.modToUint k
  unfold IndexObject.pBuck bucket
  rw [h.mustInit, hmod, ← hi]
  rfl

end

end IndexObject

namespace IndexInit

section

variable {T : Type} [ChunkType T] {i : IndexInit} {o : IndexObject T} {now now' : UInt32}
variable {mem : ChunkMemory T} {pCache : Int}

theorem run_ready (h : 0 < (i.iBuckNums T).toInt) :
    (i.run o now now' mem pCache).2.1.Ready (i.iBuckNums T).toInt.toNat := by
  have hcast := (Int.toNat_of_nonneg h.le).symm
  have hpos : 0 < (i.iBuckNums T).toInt.toNat := by omega
  have hinited : (1 : Int32) ≠ 0 := by decide
  cases i with
  | byCacheSize len => exact ⟨hinited, hcast, hpos⟩
  | byNodeCount count => exact ⟨hinited, hcast, hpos⟩

theorem run_pPucketsStart :
    (i.run o now now' mem pCache).2.1.m_stHead.pPucketsStart = pCache + 64 := by
  cases i with
  | byCacheSize len => exact congrArg (pCache + ·) IndexObject.toInt_iHeadSize
  | byNodeCount count => exact congrArg (pCache + ·) IndexObject.toInt_iHeadSize

theorem run_iFreeNodeCount :
    (i.run o now now' mem pCache).2.1.m_stHead.iFreeNodeCount =
      (i.run o now now' mem pCache).2.1.m_stHead.iBuckNums := by
  cases i with
  | byCacheSize len => rfl
  | byNodeCount count => rfl

theorem run_iInited : (i.run o now now' mem pCache).2.1.m_stHead.iInited = 1 := by
  cases i with
  | byCacheSize len => rfl
  | byNodeCount count => rfl

theorem run_iterators :
    (i.run o now now' mem pCache).2.1.m_pIteratorStart =
        some (i.run o now now' mem pCache).2.1.m_stHead.pPucketsStart ∧
      (i.run o now now' mem pCache).2.1.m_pIteratorEnd =
        some (i.run o now now' mem pCache).2.1.m_stHead.pPBucketsEnd := by
  cases i with
  | byCacheSize len => exact ⟨rfl, rfl⟩
  | byNodeCount count => exact ⟨rfl, rfl⟩

/-- Both initialisers store the head they have set. -/
theorem run_memory :
    (i.run o now now' mem pCache).2.2 =
      mem.memcpy pCache (i.run o now now' mem pCache).2.1.m_stHead.words := by
  cases i with
  | byCacheSize len => rfl
  | byNodeCount count => rfl

theorem toInt_div_unit {iLeft : Int32} (h : 0 ≤ iLeft.toInt) :
    (iLeft / IndexObject.iUintBuckSize T).toInt = iLeft.toInt / IndexObject.unit T := by
  have hleft := toInt_fits iLeft
  have hle : iLeft.toInt / IndexObject.unit T ≤ iLeft.toInt := Int.ediv_le_self _ h
  have hge : 0 ≤ iLeft.toInt / IndexObject.unit T := Int.ediv_nonneg h IndexObject.unit_nonneg
  unfold FitsInt at hleft
  rw [Int32.toInt_div, IndexObject.toInt_iUintBuckSize, Int.tdiv_eq_ediv_of_nonneg h]
  exact Int.bmod_eq_of_le (by omega) (by omega)

/-- A negative length is not divided into a positive count. -/
theorem cacheSize_nonneg {iLeft : Int32} (h : 0 < (iLeft / IndexObject.iUintBuckSize T).toInt) :
    0 ≤ iLeft.toInt := by
  have hunit := IndexObject.unit_pos (T := T)
  have hleft := toInt_fits iLeft
  unfold FitsInt at hleft
  by_contra hneg
  have hdiv := Int.tdiv_nonneg (a := -iLeft.toInt) (b := IndexObject.unit T) (by omega) (by omega)
  have hlow : -iLeft.toInt / IndexObject.unit T ≤ -iLeft.toInt := Int.ediv_le_self _ (by omega)
  rw [Int32.toInt_div, IndexObject.toInt_iUintBuckSize, Int.bmod_eq_of_le] at h
  all_goals rw [Int.neg_tdiv] at hdiv
  · omega
  · rw [← Int.neg_neg (iLeft.toInt.tdiv _), ← Int.neg_tdiv, Int.tdiv_eq_ediv_of_nonneg (by omega)]
    omega
  · omega

/-- A count that is positive is the exact quotient, and what is left is the remainder. -/
theorem cacheSize_quotient {iLeft : Int32} (h : 0 < (iLeft / IndexObject.iUintBuckSize T).toInt) :
    (iLeft / IndexObject.iUintBuckSize T).toInt = iLeft.toInt / IndexObject.unit T ∧
      IndexObject.unit T ≤ iLeft.toInt ∧
      (iLeft - iLeft / IndexObject.iUintBuckSize T * IndexObject.iUintBuckSize T).toInt =
        iLeft.toInt % IndexObject.unit T := by
  have hunit := IndexObject.unit_pos (T := T)
  have hleft := toInt_fits iLeft
  have hsize := IndexObject.toInt_iUintBuckSize (T := T)
  unfold FitsInt at hleft
  have hpos := cacheSize_nonneg h
  have hquot := toInt_div_unit (T := T) hpos
  have hrem : iLeft.toInt % IndexObject.unit T =
      iLeft.toInt - iLeft.toInt / IndexObject.unit T * IndexObject.unit T := by
    rw [Int.emod_def, Int.mul_comm]
  have hrem0 := Int.emod_nonneg iLeft.toInt (b := IndexObject.unit T) (by omega)
  have hmulpos := Int.mul_nonneg (Int.ediv_nonneg hpos (IndexObject.unit_nonneg (T := T)))
    (IndexObject.unit_nonneg (T := T))
  rw [hquot] at h
  refine ⟨hquot, (Int.le_ediv_iff_mul_le (by omega)).mp h |>.trans' (by omega), ?_⟩
  have hmul : (iLeft / IndexObject.iUintBuckSize T * IndexObject.iUintBuckSize T).toInt =
      iLeft.toInt / IndexObject.unit T * IndexObject.unit T := by
    rw [toInt_mul_of_fitsInt, hquot, hsize]
    rw [hquot, hsize]
    exact ⟨by omega, by omega⟩
  rw [toInt_sub_of_fitsInt, hmul, hrem]
  rw [hmul]
  exact ⟨by omega, by omega⟩

theorem cacheSize_pos {iLeft : Int32} (h : IndexObject.unit T ≤ iLeft.toInt) :
    0 < (iLeft / IndexObject.iUintBuckSize T).toInt := by
  have hunit := IndexObject.unit_pos (T := T)
  have hone : 1 ≤ iLeft.toInt / IndexObject.unit T :=
    (Int.le_ediv_iff_mul_le (by omega)).mpr (by omega)
  rw [toInt_div_unit (by omega)]
  omega

theorem toInt_cacheSize_left {dwCacheLength : Int32} (h : FitsInt (dwCacheLength.toInt - 64)) :
    (dwCacheLength - IndexObject.iHeadSize).toInt = dwCacheLength.toInt - 64 := by
  have hfits := toInt_sub_of_fitsInt (a := dwCacheLength) (b := IndexObject.iHeadSize)
  rw [IndexObject.toInt_iHeadSize] at hfits
  exact hfits h

/-- The end pointer is the last bucket. -/
theorem run_pPBucketsEnd (h : 0 < (i.iBuckNums T).toInt) (he : i.Ends T) :
    (i.run o now now' mem pCache).2.1.m_stHead.pPBucketsEnd =
      pCache + 64 + ((i.iBuckNums T).toInt - 1) * IndexObject.unit T := by
  have hsize := IndexObject.toInt_iUintBuckSize (T := T)
  cases i with
  | byCacheSize len =>
    have hlen := toInt_fits len
    unfold Ends at he
    unfold FitsInt at hlen
    have hleft : (len - IndexObject.iHeadSize).toInt = len.toInt - 64 :=
      toInt_cacheSize_left ⟨by omega, by omega⟩
    obtain ⟨hquot, -, hrem⟩ := cacheSize_quotient (T := T) h
    show pCache + len.toInt - (Int32.toInt _) - (IndexObject.iUintBuckSize T).toInt = _
    rw [iBuckNums_byCacheSize, hrem, hquot, hsize, hleft, Int.sub_mul, Int.emod_def,
      Int.mul_comm (IndexObject.unit T)]
    omega
  | byNodeCount count =>
    unfold Ends at he
    have hmul := toInt_mul_of_fitsInt (a := count) (b := IndexObject.iUintBuckSize T)
    have hnonneg := Int.mul_nonneg h.le (IndexObject.unit_nonneg (T := T))
    rw [iBuckNums_byNodeCount] at hnonneg ⊢
    rw [hsize] at hmul
    show pCache + IndexObject.iHeadSize.toInt + (Int32.toInt _) - (IndexObject.iUintBuckSize T).toInt = _
    rw [hmul ⟨by omega, he⟩, hsize, IndexObject.toInt_iHeadSize, Int.sub_mul]
    omega

/-- Otherwise it lies at least one bucket in front of it. -/
theorem run_short (h : 0 < (i.iBuckNums T).toInt) (he : ¬i.Ends T) :
    (i.run o now now' mem pCache).2.1.m_stHead.pPBucketsEnd + IndexObject.unit T ≤
      pCache + 64 + ((i.iBuckNums T).toInt - 1) * IndexObject.unit T := by
  have hunit := IndexObject.unit_pos (T := T)
  have hlt := IndexObject.unit_lt (T := T)
  have hsize := IndexObject.toInt_iUintBuckSize (T := T)
  have hnonneg := Int.mul_nonneg (by omega : 0 ≤ (i.iBuckNums T).toInt - 1)
    (IndexObject.unit_nonneg (T := T))
  cases i with
  | byCacheSize len =>
    unfold Ends at he
    obtain ⟨-, -, hrem⟩ := cacheSize_quotient (T := T) h
    have hrem0 := Int.emod_nonneg (len - IndexObject.iHeadSize).toInt (b := IndexObject.unit T) (by omega)
    have hend : ((byCacheSize len).run o now now' mem pCache).2.1.m_stHead.pPBucketsEnd =
        pCache + len.toInt - (len - IndexObject.iHeadSize).toInt % IndexObject.unit T -
          IndexObject.unit T := by
      rw [← hrem, ← hsize]
      rfl
    omega
  | byNodeCount count =>
    unfold Ends at he
    have hmul := toInt_mul_of_large (a := count) (b := IndexObject.iUintBuckSize T)
    rw [hsize] at hmul
    have hlarge := hmul (by omega)
    have hend : ((byNodeCount count).run o now now' mem pCache).2.1.m_stHead.pPBucketsEnd =
        pCache + 64 + (count * IndexObject.iUintBuckSize T).toInt - IndexObject.unit T := by
      rw [← hsize, ← IndexObject.toInt_iHeadSize]
      rfl
    rw [iBuckNums_byNodeCount, Int.sub_mul] at hnonneg ⊢
    rw [hend]
    omega

theorem run_last (h : 0 < (i.iBuckNums T).toInt) :
    (i.run o now now' mem pCache).2.1.bucket ((i.iBuckNums T).toInt.toNat - 1) =
      pCache + 64 + ((i.iBuckNums T).toInt - 1) * IndexObject.unit T := by
  have hone : (((i.iBuckNums T).toInt.toNat - 1 : Nat) : Int) = (i.iBuckNums T).toInt - 1 := by omega
  unfold IndexObject.bucket
  rw [run_pPucketsStart, hone]

theorem run_ends_iff (h : 0 < (i.iBuckNums T).toInt) :
    (i.run o now now' mem pCache).2.1.m_stHead.pPBucketsEnd =
      (i.run o now now' mem pCache).2.1.bucket ((i.iBuckNums T).toInt.toNat - 1) ↔ i.Ends T := by
  rw [run_last h]
  refine ⟨fun heq => ?_, run_pPBucketsEnd h⟩
  by_contra he
  have hunit := IndexObject.unit_pos (T := T)
  have hle : (i.run o now now' mem pCache).2.1.m_stHead.pPBucketsEnd + _ ≤ _ := run_short h he
  omega

end

end IndexInit

/-- The table has n buckets, which lie in its area one behind the other, and every key is looked up in one
of them. -/
structure IndexObject.Placed {T : Type} [ChunkType T] (o : IndexObject T) (pCache n : Int) : Prop where
  iBuckNums : o.m_stHead.iBuckNums.toInt = n
  pos : 1 ≤ n
  fits : 64 + n * unit T ≤ o.m_stHead.iTotalSize.toInt
  first : o.m_stHead.pPucketsStart = pCache + 64
  last : o.m_stHead.pPBucketsEnd = pCache + 64 + (n - 1) * unit T
  lookups : ∀ k, ∃ i, o.modToUint k = .ok i ∧ 0 ≤ i.toInt ∧ i.toInt < n ∧
    o.m_stHead.pPucketsStart + i.toInt * unit T + unit T ≤ pCache + o.m_stHead.iTotalSize.toInt

namespace IndexInit

section

variable {T : Type} [ChunkType T]

/-- An initialiser fails, or it sets a table up without an overflow. -/
def WellSet (o : IndexObject T) (now now' : UInt32) (mem : ChunkMemory T) (pCache : Int)
    (i : IndexInit) : Prop :=
  (i.run o now now' mem pCache).1 < 0 ∨
    (∀ x ∈ i.ints T, FitsInt x) ∧ ∃ n, (i.run o now now' mem pCache).2.1.Placed pCache n

variable (T) in
/-- There is room for a bucket, and the size of the area is an int. -/
def Roomy : IndexInit → Prop
  | byCacheSize dwCacheLength => 64 + IndexObject.unit T ≤ dwCacheLength.toInt
  | byNodeCount dwNodeCount =>
    1 ≤ dwNodeCount.toInt ∧ dwNodeCount.toInt * IndexObject.unit T + 64 < 2 ^ 31

variable {i : IndexInit} {o : IndexObject T} {now now' : UInt32} {mem : ChunkMemory T} {pCache : Int}

theorem run_succeeds : (i.run o now now' mem pCache).1 = 0 := by
  cases i with
  | byCacheSize len => rfl
  | byNodeCount count => rfl

theorem Roomy.ends (h : i.Roomy T) : i.Ends T := by
  have hunit := IndexObject.unit_pos (T := T)
  cases i with
  | byCacheSize len =>
    unfold Roomy at h
    unfold Ends
    omega
  | byNodeCount count =>
    unfold Roomy at h
    unfold Ends
    omega

theorem Roomy.ints_fit (h : i.Roomy T) : ∀ x ∈ i.ints T, FitsInt x := by
  have hunit := IndexObject.unit_pos (T := T)
  cases i with
  | byCacheSize len =>
    have hlen := toInt_fits len
    unfold Roomy at h
    unfold FitsInt at hlen
    have hge : 0 ≤ (len.toInt - 64) / IndexObject.unit T := Int.ediv_nonneg (by omega) (by omega)
    have hle : (len.toInt - 64) / IndexObject.unit T ≤ len.toInt - 64 := Int.ediv_le_self _ (by omega)
    have hmul := Int.mul_nonneg hge (IndexObject.unit_nonneg (T := T))
    have hexact := Int.ediv_mul_le (len.toInt - 64) (by omega : IndexObject.unit T ≠ 0)
    intro x hx
    simp only [ints, Int.tdiv_eq_ediv_of_nonneg (by omega : 0 ≤ len.toInt - 64), List.mem_cons,
      List.not_mem_nil, or_false] at hx
    unfold FitsInt
    rcases hx with rfl | rfl | rfl | rfl <;> omega
  | byNodeCount count =>
    unfold Roomy at h
    have hmul := Int.mul_nonneg (by omega : 0 ≤ count.toInt) (IndexObject.unit_nonneg (T := T))
    intro x hx
    simp only [ints, List.mem_cons, List.not_mem_nil, or_false] at hx
    unfold FitsInt
    rcases hx with rfl | rfl <;> omega

theorem Roomy.pos (h : i.Roomy T) : 0 < (i.iBuckNums T).toInt := by
  have hfits := h.ints_fit
  cases i with
  | byCacheSize len =>
    unfold Roomy at h
    have hleft := toInt_cacheSize_left (hfits _ List.mem_cons_self)
    exact cacheSize_pos (by omega)
  | byNodeCount count =>
    unfold Roomy at h
    rw [iBuckNums_byNodeCount]
    omega

theorem Roomy.total (h : i.Roomy T) :
    64 + (i.iBuckNums T).toInt * IndexObject.unit T ≤
      (i.run o now now' mem pCache).2.1.m_stHead.iTotalSize.toInt := by
  have hunit := IndexObject.unit_pos (T := T)
  have hfits := h.ints_fit
  have hpos := h.pos
  cases i with
  | byCacheSize len =>
    have hleft := toInt_cacheSize_left (hfits _ List.mem_cons_self)
    obtain ⟨hquot, -, -⟩ := cacheSize_quotient (T := T) hpos
    have hexact := Int.ediv_mul_le (len.toInt - 64) (by omega : IndexObject.unit T ≠ 0)
    show 64 + _ ≤ len.toInt
    rw [iBuckNums_byCacheSize, hquot, hleft]
    omega
  | byNodeCount count =>
    have hsize := IndexObject.toInt_iUintBuckSize (T := T)
    have hmul : (count * IndexObject.iUintBuckSize T).toInt = count.toInt * IndexObject.unit T := by
      rw [← hsize]
      apply toInt_mul_of_fitsInt
      rw [hsize]
      exact hfits _ List.mem_cons_self
    have htotal : (count * IndexObject.iUintBuckSize T + IndexObject.iHeadSize).toInt =
        count.toInt * IndexObject.unit T + 64 := by
      rw [toInt_add_of_fitsInt, hmul, IndexObject.toInt_iHeadSize]
      rw [hmul, IndexObject.toInt_iHeadSize]
      exact hfits _ (List.mem_cons_of_mem _ List.mem_cons_self)
    show 64 + _ ≤ (count * IndexObject.iUintBuckSize T + IndexObject.iHeadSize).toInt
    rw [htotal, iBuckNums_byNodeCount]
    omega

theorem Roomy.placed (h : i.Roomy T) :
    (i.run o now now' mem pCache).2.1.Placed pCache (i.iBuckNums T).toInt := by
  have hpos := h.pos
  have hready : (i.run o now now' mem pCache).2.1.Ready _ := run_ready hpos
  have htotal : _ ≤ (i.run o now now' mem pCache).2.1.m_stHead.iTotalSize.toInt := h.total
  have hcast := Int.toNat_of_nonneg hpos.le
  refine ⟨hready.iBuckNums.trans hcast, hpos, htotal, run_pPucketsStart,
    run_pPBucketsEnd hpos h.ends, ?_⟩
  intro k
  obtain ⟨j, hj, hval⟩ := hready.modToUint k
  have hlt := Nat.mod_lt k.hash.toNat hready.pos
  have hmul := IndexObject.mul_unit_le (T := T) (by omega : j.toInt < (i.iBuckNums T).toInt)
  refine ⟨j, hj, by omega, by omega, ?_⟩
  rw [run_pPucketsStart]
  omega

theorem WellSet.roomy (h : WellSet o now now' mem pCache i) : i.Roomy T := by
  rcases h with hneg | ⟨hfits, n, hplaced⟩
  · rw [run_succeeds] at hneg
    exact absurd hneg (by decide)
  · have hpos := hplaced.pos
    cases i with
    | byCacheSize len =>
      have hcount : ((len - IndexObject.iHeadSize) / IndexObject.iUintBuckSize T).toInt = n :=
        hplaced.iBuckNums
      have hleft := toInt_cacheSize_left (hfits _ List.mem_cons_self)
      obtain ⟨-, hroom, -⟩ := cacheSize_quotient (T := T)
        (by omega : 0 < ((len - IndexObject.iHeadSize) / IndexObject.iUintBuckSize T).toInt)
      unfold Roomy
      omega
    | byNodeCount count =>
      have hcount : count.toInt = n := hplaced.iBuckNums
      have hsize := hfits _ (List.mem_cons_of_mem _ List.mem_cons_self)
      exact ⟨by omega, hsize.2⟩

/-- What the initialisers set is right exactly if there is room for a bucket and the size of the area is an
int; then both put the same number of buckets in the same places. -/
theorem initalize_wellSet (o : IndexObject T) (now now' : UInt32) (mem : ChunkMemory T) (pCache : Int) :
    (∀ i, WellSet o now now' mem pCache i ↔ i.Roomy T) ∧
    ∀ i i' : IndexInit, i.Roomy T → i'.Roomy T → i.iBuckNums T = i'.iBuckNums T →
      (i.run o now now' mem pCache).2.1.m_stHead.pPucketsStart =
          (i'.run o now now' mem pCache).2.1.m_stHead.pPucketsStart ∧
        (i.run o now now' mem pCache).2.1.m_stHead.pPBucketsEnd =
          (i'.run o now now' mem pCache).2.1.m_stHead.pPBucketsEnd := by
  constructor
  · intro i
    exact ⟨WellSet.roomy, fun h => Or.inr ⟨h.ints_fit, _, h.placed⟩⟩
  · intro i i' h h' hsame
    have hplaced : (i.run o now now' mem pCache).2.1.Placed _ _ := h.placed
    have hplaced' : (i'.run o now now' mem pCache).2.1.Placed _ _ := h'.placed
    rw [run_pPucketsStart, run_pPucketsStart, hplaced.last, hplaced'.last, hsame]
    exact ⟨rfl, rfl⟩

end

/-- 99 bytes hold a head and no bucket, and the size of a head and 59652323 buckets of 36 bytes is not an
int. -/
theorem initalize_not_wellSet :
    ¬WellSet (IndexObject.new Int32) 0 0 ⟨fun _ => 0, fun _ => 0⟩ 4096 (byCacheSize 99) ∧
      ¬WellSet (IndexObject.new Int32) 0 0 ⟨fun _ => 0, fun _ => 0⟩ 4096 (byNodeCount 59652323) := by
  have hunit : IndexObject.unit Int32 = 36 := rfl
  constructor
  · intro h
    have hroom : 64 + IndexObject.unit Int32 ≤ (99 : Int32).toInt := h.roomy
    rw [hunit] at hroom
    exact absurd hroom (by decide)
  · intro h
    have hroom : 1 ≤ (59652323 : Int32).toInt ∧
        (59652323 : Int32).toInt * IndexObject.unit Int32 + 64 < 2 ^ 31 := h.roomy
    rw [hunit] at hroom
    exact absurd hroom (by decide)

end IndexInit

end NetioMiddleware
