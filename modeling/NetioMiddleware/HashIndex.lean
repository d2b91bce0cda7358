import NetioMiddleware.ModHash

namespace NetioMiddleware

/-- A type of chunks. A bucket is eight ints of meta data and one chunk, and its
size is an int. -/
class ChunkType (T : Type) where
  sizeofBucket : Nat
  holds : 32 < sizeofBucket
  fits : sizeofBucket < 2 ^ 31

instance : ChunkType Int32 := ⟨36, by decide, by decide⟩

/-- A key object: a string with the bytes that lie behind its NUL, an int, a
long, or an object of a type ModToUint does not know. -/
inductive IndexKey
  | string (chars : Bytes) (behind : Nat → UInt8)
  | int (i : Int32)
  | long (l : Int64)
  | other

/-- The hash ModToUint computes before it takes the remainder. int and long are
extended by their sign. -/
def IndexKey.hash : IndexKey → UInt64
  | string chars behind => hashSum (fun _ => behind) chars
  | int i => i.toInt64.toUInt64
  | long l => l.toUInt64
  | other => 0

/-- Memory: the int at each address, and the node of the bucket at each address. -/
structure ChunkMemory (T : Type) where
  word : Int → Int32
  node : Int → T

/-- stHead with its ints as they are; a pointer is an address. -/
structure IndexHead where
  dwSpecifier : UInt32
  iInited : Int32
  iBuckNums : Int32
  iGlobalLock : Int32
  iVersion : Int32
  dwAccessCount : UInt32
  dwCreateTime : UInt32
  dwLastResetTime : UInt32
  iTotalSize : Int32
  iFreeNodeCount : Int32
  pCache : Int
  pPucketsStart : Int
  pPBucketsEnd : Int

def IndexHead.words (h : IndexHead) : List Int32 :=
  [h.dwSpecifier.toInt32, h.iInited, h.iBuckNums, h.iGlobalLock, h.iVersion,
    h.dwAccessCount.toInt32, h.dwCreateTime.toInt32, h.dwLastResetTime.toInt32,
    h.iTotalSize, h.iFreeNodeCount] ++
  pointerWords (UInt64.ofInt h.pCache) 0 ++ pointerWords (UInt64.ofInt h.pPucketsStart) 0 ++
    pointerWords (UInt64.ofInt h.pPBucketsEnd) 0

namespace ChunkMemory

section

variable {T : Type} (mem : ChunkMemory T)

def memcpy (p : Int) (words : List Int32) : ChunkMemory T where
  word q :=
    if p ≤ q ∧ q < p + 4 * words.length ∧ (q - p) % 4 = 0 then words.getD ((q - p) / 4).toNat 0
    else mem.word q
  node := mem.node

/-- The pointer that lies at an address. -/
def pointer (q : Int) : Int :=
  ((mem.word (q + 4)).toUInt32.toUInt64 <<< 32 ||| (mem.word q).toUInt32.toUInt64).toNat

/-- What memcpy of a head from an address gives. -/
def head (p : Int) : IndexHead where
  dwSpecifier := (mem.word p).toUInt32
  iInited := mem.word (p + 4)
  iBuckNums := mem.word (p + 8)
  iGlobalLock := mem.word (p + 12)
  iVersion := mem.word (p + 16)
  dwAccessCount := (mem.word (p + 20)).toUInt32
  dwCreateTime := (mem.word (p + 24)).toUInt32
  dwLastResetTime := (mem.word (p + 28)).toUInt32
  iTotalSize := mem.word (p + 32)
  iFreeNodeCount := mem.word (p + 36)
  pCache := mem.pointer (p + 40)
  pPucketsStart := mem.pointer (p + 48)
  pPBucketsEnd := mem.pointer (p + 56)

def iHasSet (pBuck : Int) : Int32 := mem.word (pBuck + 8)
def iInvalid (pBuck : Int) : Int32 := mem.word (pBuck + 12)

def setHasSet (pBuck : Int) (v : Int32) : ChunkMemory T :=
  { mem with word := Function.update mem.word (pBuck + 8) v }

def setInvalid (pBuck : Int) (v : Int32) : ChunkMemory T :=
  { mem with word := Function.update mem.word (pBuck + 12) v }

def setNode (pBuck : Int) (v : T) : ChunkMemory T :=
  { mem with node := Function.update mem.node pBuck v }

/-- Placement new and the two flags. -/
def place (pBuck : Int) (v : T) : ChunkMemory T :=
  ((mem.setNode pBuck v).setHasSet pBuck 1).setInvalid pBuck 0

/-- The test Find makes of a bucket. -/
def Occupied (pBuck : Int) : Prop := mem.iHasSet pBuck ≠ 0 ∧ mem.iInvalid pBuck = 0

instance (pBuck : Int) : Decidable (mem.Occupied pBuck) := inferInstanceAs (Decidable (_ ∧ _))

end

end ChunkMemory

/-- How a call on a table can stop the process. -/
inductive IndexFault
  | mustInit
  | divideByZero
  | nullIterator
  | nullPointer
  deriving DecidableEq

/-- A CModHashV1<K,T>. An iterator it owns is null or points to a bucket. The
specifier is set by the constructor and tested before a head is taken over. -/
structure IndexObject (T : Type) where
  m_stHead : IndexHead
  m_pIteratorStart : Option Int
  m_pIteratorEnd : Option Int
  specifier : m_stHead.dwSpecifier = SPECIFIER

namespace IndexObject

/-- The constructor. -/
def new (T : Type) : IndexObject T where
  m_stHead :=
    { dwSpecifier := SPECIFIER
      iInited := 0
      iBuckNums := 0
      iGlobalLock := 0
      iVersion := 0
      dwAccessCount := 0
      dwCreateTime := 0
      dwLastResetTime := 0
      iTotalSize := 0
      iFreeNodeCount := 0
      pCache := 0
      pPucketsStart := 0
      pPBucketsEnd := 0 }
  m_pIteratorStart := none
  m_pIteratorEnd := none
  specifier := rfl

section

variable {T : Type} [ChunkType T]

def iHeadSize : Int32 := Int32.ofNat sizeofHead

variable (T) in
def iUintBuckSize : Int32 := Int32.ofNat (ChunkType.sizeofBucket T)

variable (T) in
/-- The size of a bucket in pointer arithmetic. -/
def unit : Int := ChunkType.sizeofBucket T

/-- InitalizeByCacheSize, StoreHead included. The area at pCache is memory of the process. -/
def initalizeByCacheSize (o : IndexObject T) (now now' : UInt32) (mem : ChunkMemory T) (pCache : Int)
    (dwCacheLength : Int32) : Int32 × IndexObject T × ChunkMemory T :=
  let iLeft := dwCacheLength - iHeadSize
  let iBuckNums := iLeft / iUintBuckSize T
  let iLeftLength := iLeft - iBuckNums * iUintBuckSize T
  let pPucketsStart := pCache + iHeadSize.toInt
  let pPBucketsEnd := pCache + dwCacheLength.toInt - iLeftLength.toInt - (iUintBuckSize T).toInt
  let head :=
    { o.m_stHead with
      iInited := 1
      iBuckNums := iBuckNums
      iGlobalLock := 0
      dwAccessCount := 0
      dwCreateTime := now
      dwLastResetTime := now'
      iTotalSize := dwCacheLength
      iFreeNodeCount := iBuckNums
      pCache := pCache
      pPucketsStart := pPucketsStart
      pPBucketsEnd := pPBucketsEnd }
  (0, ⟨head, some pPucketsStart, some pPBucketsEnd, o.specifier⟩, mem.memcpy pCache head.words)

/-- InitalizeByNodeCount, StoreHead included. -/
def initalizeByNodeCount (o : IndexObject T) (now now' : UInt32) (mem : ChunkMemory T) (pCache : Int)
    (dwNodeCount : Int32) : Int32 × IndexObject T × ChunkMemory T :=
  let iBucksSize := dwNodeCount * iUintBuckSize T
  let pPucketsStart := pCache + iHeadSize.toInt
  let pPBucketsEnd := pCache + iHeadSize.toInt + iBucksSize.toInt - (iUintBuckSize T).toInt
  let head :=
    { o.m_stHead with
      iInited := 1
      iBuckNums := dwNodeCount
      iGlobalLock := 0
      dwAccessCount := 0
      dwCreateTime := now
      dwLastResetTime := now'
      iTotalSize := iBucksSize + iHeadSize
      iFreeNodeCount := dwNodeCount
      pCache := pCache
      pPucketsStart := pPucketsStart
      pPBucketsEnd := pPBucketsEnd }
  (0, ⟨head, some pPucketsStart, some pPBucketsEnd, o.specifier⟩, mem.memcpy pCache head.words)

def mustInit (o : IndexObject T) : Except IndexFault Unit :=
  if o.m_stHead.iInited = 0 then .error .mustInit else .ok ()

/-- The number of buckets is converted to unsigned long before the division. -/
def modToUint (o : IndexObject T) (nodeKey : IndexKey) : Except IndexFault Int32 :=
  let n := o.m_stHead.iBuckNums.toInt64.toUInt64
  if n = 0 then .error .divideByZero else .ok (nodeKey.hash % n).toUInt32.toInt32

/-- How Find, Delete and Add begin: MustInit, ModToUint and the pointer. -/
def pBuck (o : IndexObject T) (sIndexkey : IndexKey) : Except IndexFault Int := do
  o.mustInit
  let iBuckIndex ← o.modToUint sIndexkey
  return o.m_stHead.pPucketsStart + iBuckIndex.toInt * unit T

def find (o : IndexObject T) (mem : ChunkMemory T) (sIndexkey : IndexKey) (indexNode : T) :
    Except IndexFault (Int32 × T) := do
  let pBuck ← o.pBuck sIndexkey
  return if mem.Occupied pBuck then (0, mem.node pBuck) else (1003, indexNode)

def delete (o : IndexObject T) (mem : ChunkMemory T) (sIndexkey : IndexKey) :
    Except IndexFault (Int32 × ChunkMemory T) := do
  let pBuck ← o.pBuck sIndexkey
  return (0, mem.setInvalid pBuck 1)

def add (o : IndexObject T) (mem : ChunkMemory T) (sIndexkey : IndexKey) (indexNode : T) :
    Except IndexFault (Int32 × ChunkMemory T) := do
  let pBuck ← o.pBuck sIndexkey
  return (0, mem.place pBuck indexNode)

theorem unit_pos : 32 < unit T := by
  have h : 32 < ChunkType.sizeofBucket T := ChunkType.holds
  unfold unit
  omega

theorem unit_nonneg : 0 ≤ unit T := by
  have h := unit_pos (T := T)
  omega

theorem mul_unit_nonneg (j : Nat) : 0 ≤ (j : Int) * unit T :=
  Int.mul_nonneg (Int.natCast_nonneg j) unit_nonneg

/-- A bucket ends where the next one starts. -/
theorem mul_unit_le {j n : Int} (h : j < n) : j * unit T + unit T ≤ n * unit T := by
  have hmul := Int.mul_le_mul_of_nonneg_right (by omega : j + 1 ≤ n) (unit_nonneg (T := T))
  rwa [Int.add_mul, Int.one_mul] at hmul

theorem add_zero_unit (p : Int) : p + ((0 : Nat) : Int) * unit T = p := by
  omega

theorem add_succ_unit (p : Int) (m : Nat) :
    p + ((m + 1 : Nat) : Int) * unit T = p + unit T + m * unit T := by
  rw [Int.natCast_add, Int.add_mul]
  omega

/-- The loop of Reset. -/
def resetLoop (pPBucketsEnd pBuck : Int) (mem : ChunkMemory T) : ChunkMemory T :=
  if pBuck ≤ pPBucketsEnd then
    resetLoop pPBucketsEnd (pBuck + unit T) (mem.setInvalid pBuck 1)
  else mem
termination_by (pPBucketsEnd + 1 - pBuck).toNat
decreasing_by
  have h := unit_pos (T := T)
  omega

def reset (o : IndexObject T) (mem : ChunkMemory T) : Except IndexFault (Int32 × ChunkMemory T) := do
  o.mustInit
  return (0, resetLoop o.m_stHead.pPBucketsEnd o.m_stHead.pPucketsStart mem)

/-- The loop of FullFillValue over the values it copies. -/
def fillLoop (pStBucketTemp : Int) (mem : ChunkMemory T) : List T → ChunkMemory T
  | [] => mem
  | v :: vs => fillLoop (pStBucketTemp + unit T) (mem.place pStBucketTemp v) vs

/-- size() is cut down to an int. -/
def fullFillValue (o : IndexObject T) (mem : ChunkMemory T) (vecX : List T) :
    Except IndexFault (Int32 × ChunkMemory T) := do
  o.mustInit
  let iInputSize := Int32.ofNat vecX.length
  return if iInputSize ≠ o.m_stHead.iBuckNums then (1002, mem)
    else (0, fillLoop o.m_stHead.pPucketsStart mem (vecX.take iInputSize.toInt.toNat))

def isEmpty (o : IndexObject T) : Except IndexFault Bool := do
  o.mustInit
  return o.m_stHead.iFreeNodeCount == o.m_stHead.iBuckNums

def getIndexedNodeCount (o : IndexObject T) : Except IndexFault Int32 := do
  o.mustInit
  return o.m_stHead.iBuckNums - o.m_stHead.iFreeNodeCount

def getFreeNodeCount (o : IndexObject T) : Except IndexFault Int32 := do
  o.mustInit
  return o.m_stHead.iFreeNodeCount

def getTotalNodeCount (o : IndexObject T) : Except IndexFault Int32 := do
  o.mustInit
  return o.m_stHead.iBuckNums

/-- SetIndexPointer, which is ReadAndCheckHead. A null pointer goes past the first test, and the memcpy of
the head reads from it. -/
def setIndexPointer (o : IndexObject T) (mem : ChunkMemory T) (pIndexPointer : Int) :
    Except IndexFault (Int32 × IndexObject T) :=
  if pIndexPointer = o.m_stHead.pCache ∧ pIndexPointer ≠ 0 then .ok (0, o)
  else if pIndexPointer = 0 then .error .nullPointer
  else if h : (mem.head pIndexPointer).dwSpecifier ≠ SPECIFIER then .ok (1000, o)
  else if (mem.head pIndexPointer).iInited ≠ 0 then .ok (1001, o)
  else .ok (0, { o with m_stHead := mem.head pIndexPointer, specifier := not_not.mp h })

/-- Next moves an iterator by one bucket. -/
def next (it : Int) : Int := it + unit T

/-- Compare, which goes by the difference of two pointers to buckets of one table. -/
def compare (it it2 : Int) : Int32 :=
  let ddwResult := (it - it2).tdiv (unit T)
  if ddwResult > 0 then 1 else if ddwResult < 0 then -1 else 0

theorem compare_le_iff (it it2 : Int) : compare (T := T) it it2 ≤ 0 ↔ it < it2 + unit T := by
  have hunit := unit_pos (T := T)
  unfold compare
  dsimp only
  split
  next h =>
    have hle : unit T ≤ it - it2 := by
      by_contra hlt
      rcases Int.lt_or_le (it - it2) 0 with hneg | hpos
      · have hdiv := Int.tdiv_nonneg (a := -(it - it2)) (b := unit T) (by omega) (by omega)
        rw [Int.neg_tdiv] at hdiv
        omega
      · rw [Int.tdiv_eq_zero_of_lt hpos (by omega)] at h
        omega
    exact ⟨fun hone => absurd hone (by decide), fun hlt => by omega⟩
  next h =>
    have hlt : it < it2 + unit T := by
      by_contra hge
      have hone : 1 ≤ (it - it2).tdiv (unit T) := by
        rw [Int.tdiv_eq_ediv_of_nonneg (by omega)]
        exact (Int.le_ediv_iff_mul_le (by omega)).mpr (by omega)
      omega
    refine ⟨fun _ => hlt, fun _ => ?_⟩
    split
    next => decide
    next => decide

/-- The loop of PrintAll over one table: the nodes it prints with the buckets they are in, and where it
leaves the iterator. -/
def printLoop (mem : ChunkMemory T) (pPBucketsEnd it : Int) : List (Int × T) × Int :=
  if compare (T := T) it pPBucketsEnd ≤ 0 then
    let rest := printLoop mem pPBucketsEnd (next (T := T) it)
    ((it, mem.node it) :: rest.1, rest.2)
  else ([], it)
termination_by (pPBucketsEnd + unit T - it).toNat
decreasing_by
  have hunit := unit_pos (T := T)
  have hlt := (compare_le_iff (T := T) _ _).mp ‹_›
  unfold next
  omega

/-- One traversal as in PrintAll. Begin and End give out the iterators of the table itself. -/
def printAll (o : IndexObject T) (mem : ChunkMemory T) :
    Except IndexFault (List (Int × T) × IndexObject T) := do
  o.mustInit
  match o.m_pIteratorStart, o.m_pIteratorEnd with
  | some it, some pEnd =>
    let printed := printLoop mem pEnd it
    return (printed.1, { o with m_pIteratorStart := some printed.2 })
  | _, _ => .error .nullIterator

/-- Some traversals, one after the other. -/
def printTimes (mem : ChunkMemory T) : Nat → IndexObject T →
    Except IndexFault (List (List (Int × T)) × IndexObject T)
  | 0, o => .ok ([], o)
  | n + 1, o => do
    let first ← o.printAll mem
    let rest ← printTimes mem n first.2
    return (first.1 :: rest.1, rest.2)

end

end IndexObject

end NetioMiddleware
