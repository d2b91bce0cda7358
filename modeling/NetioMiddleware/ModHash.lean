import Mathlib.Logic.Function.Basic
import NetioMiddleware.GlobalDefine

namespace NetioMiddleware

/-- A shared segment: the int at each byte offset. Every access of the cache
is to an int at a multiple of four. -/
abbrev Segment := Nat → Int32

/-- memcpy of ints to an offset. -/
def Segment.memcpy (seg : Segment) (p : Nat) (words : List Int32) : Segment := fun q =>
  if p ≤ q ∧ q < p + 4 * words.length ∧ (q - p) % 4 = 0 then words.getD ((q - p) / 4) 0 else seg q

/-- stHead. Its three pointers are offsets into the segment. -/
structure StHead where
  dwSpecifier : UInt32
  iInited : Int32
  iBuckNums : Nat
  iGlobalLock : Int32
  iVersion : Int32
  dwAccessCount : UInt32
  dwCreateTime : UInt32
  dwLastResetTime : UInt32
  iTotalSize : Nat
  iFreeNodeCount : Nat
  pCache : Nat
  pPucketsStart : Nat
  pPBucketsEnd : Nat

def SPECIFIER : UInt32 := 17607181

/-- sizeof(stHead): ten ints and three pointers. -/
def sizeofHead : Nat := 64

/-- sizeof(stModHashV1Bucket): eight ints of meta data and the node. -/
def sizeofBucket : Nat := 36

/-- The two halves of a pointer into a segment mapped at base. -/
def pointerWords (base : UInt64) (offset : Nat) : List Int32 :=
  let p := base + UInt64.ofNat offset
  [p.toUInt32.toInt32, (p >>> 32).toUInt32.toInt32]

/-- The head as it lies in memory. -/
def StHead.words (h : StHead) (base : UInt64) : List Int32 :=
  [h.dwSpecifier.toInt32, h.iInited, Int32.ofNat h.iBuckNums, h.iGlobalLock, h.iVersion,
    h.dwAccessCount.toInt32, h.dwCreateTime.toInt32, h.dwLastResetTime.toInt32,
    Int32.ofNat h.iTotalSize, Int32.ofNat h.iFreeNodeCount] ++
  pointerWords base h.pCache ++ pointerWords base h.pPucketsStart ++ pointerWords base h.pPBucketsEnd

/-- A CModHashV1<string,int> after InitalizeByNodeCount: MustInit passes and
there is a bucket. -/
structure CModHashV1 where
  m_stHead : StHead
  inited : m_stHead.iInited ≠ 0
  buckets : 0 < m_stHead.iBuckNums

/-- InitalizeByNodeCount, StoreHead included. The two times are what GetTimeNow
returns. -/
def initalizeByNodeCount (base : UInt64) (now now' : UInt32) (pCache dwNodeCount : Nat)
    (hpos : 0 < dwNodeCount) (seg : Segment) : CModHashV1 × Segment :=
  let iBucksSize := dwNodeCount * sizeofBucket
  let head : StHead :=
    { dwSpecifier := SPECIFIER
      iInited := 1
      iBuckNums := dwNodeCount
      iGlobalLock := 0
      iVersion := 0
      dwAccessCount := 0
      dwCreateTime := now
      dwLastResetTime := now'
      iTotalSize := iBucksSize + sizeofHead
      iFreeNodeCount := dwNodeCount
      pCache := pCache
      pPucketsStart := pCache + sizeofHead
      pPBucketsEnd := pCache + sizeofHead + iBucksSize - sizeofBucket }
  (⟨head, show (1 : Int32) ≠ 0 by decide, hpos⟩, seg.memcpy pCache (head.words base))

/-- The bytes ModToUint reads from c_str() on: the key, its NUL, and what lies
behind it in memory. -/
def charAt (behind : Bytes → Nat → UInt8) (nodeKey : Bytes) (i : Nat) : UInt8 :=
  if i < nodeKey.length then nodeKey.getD i 0
  else if i = nodeKey.length then 0
  else behind nodeKey (i - nodeKey.length - 1)

/-- The loop of ModToUint over one char more than sizeof(nodeKey), which is the
size of a pointer. char is signed. -/
def hashSum (behind : Bytes → Nat → UInt8) (nodeKey : Bytes) : UInt64 :=
  (List.range 9).foldl (fun h i => h + UInt64.ofInt (charAt behind nodeKey i).toInt8.toInt) 0

theorem memcpy_frame (seg : Segment) {p q : Nat} {words : List Int32}
    (h : q < p ∨ p + 4 * words.length ≤ q) : seg.memcpy p words q = seg q := by
  unfold Segment.memcpy
  rw [if_neg]
  omega

namespace CModHashV1

/-- The error code of Find for a bucket that holds nothing. -/
def KEY_NOT_FOUND : Int32 := 1003

section

variable (behind : Bytes → Nat → UInt8) (t : CModHashV1)

def modToUint (nodeKey : Bytes) : Nat := (hashSum behind nodeKey).toNat % t.m_stHead.iBuckNums

/-- pPucketsStart + iBuckIndex. -/
def pBuck (nodeKey : Bytes) : Nat :=
  t.m_stHead.pPucketsStart + t.modToUint behind nodeKey * sizeofBucket

def iHasSet (pBuck : Nat) : Nat := pBuck + 8
def iInvalid (pBuck : Nat) : Nat := pBuck + 12
def node (pBuck : Nat) : Nat := pBuck + 32

/-- Find: its return value and what it leaves in indexNode. -/
def find (seg : Segment) (sIndexkey : Bytes) (indexNode : Int32) : Int32 × Int32 :=
  let pBuck := t.pBuck behind sIndexkey
  if seg (iHasSet pBuck) ≠ 0 ∧ seg (iInvalid pBuck) = 0 then (0, seg (node pBuck))
  else (KEY_NOT_FOUND, indexNode)

def delete (seg : Segment) (sIndexkey : Bytes) : Int32 × Segment :=
  (0, Function.update seg (iInvalid (t.pBuck behind sIndexkey)) 1)

def add (seg : Segment) (sIndexkey : Bytes) (indexNode : Int32) : Int32 × Segment :=
  let pBuck := t.pBuck behind sIndexkey
  let seg := Function.update seg (node pBuck) indexNode
  let seg := Function.update seg (iHasSet pBuck) 1
  (0, Function.update seg (iInvalid pBuck) 0)

end

/-- Whether an offset belongs to a bucket. -/
def InBucket (p q : Nat) : Prop := p ≤ q ∧ q < p + sizeofBucket

section

variable {behind : Bytes → Nat → UInt8} {t : CModHashV1} {seg seg' : Segment} {sIndexkey : Bytes}

theorem modToUint_lt (behind : Bytes → Nat → UInt8) (t : CModHashV1) (nodeKey : Bytes) :
    t.modToUint behind nodeKey < t.m_stHead.iBuckNums := Nat.mod_lt _ t.buckets

/-- Find looks at the bucket of the key only. -/
theorem find_congr (h : ∀ q, InBucket (t.pBuck behind sIndexkey) q → seg' q = seg q)
    (indexNode : Int32) : t.find behind seg' sIndexkey indexNode = t.find behind seg sIndexkey indexNode := by
  have hset := h (iHasSet (t.pBuck behind sIndexkey))
    (by simp only [InBucket, iHasSet, sizeofBucket]; omega)
  have hinv := h (iInvalid (t.pBuck behind sIndexkey))
    (by simp only [InBucket, iInvalid, sizeofBucket]; omega)
  have hnode := h (node (t.pBuck behind sIndexkey)) (by simp only [InBucket, node, sizeofBucket]; omega)
  simp only [find, hset, hinv, hnode]

theorem add_frame {q : Nat} (hq : ¬InBucket (t.pBuck behind sIndexkey) q) (v : Int32) :
    (t.add behind seg sIndexkey v).2 q = seg q := by
  simp only [InBucket, sizeofBucket] at hq
  unfold add iInvalid iHasSet node
  dsimp only
  rw [Function.update_of_ne (by omega), Function.update_of_ne (by omega),
    Function.update_of_ne (by omega)]

theorem delete_frame {q : Nat} (hq : ¬InBucket (t.pBuck behind sIndexkey) q) :
    (t.delete behind seg sIndexkey).2 q = seg q := by
  simp only [InBucket, sizeofBucket] at hq
  unfold delete iInvalid
  exact Function.update_of_ne (by omega) _ _

theorem find_add (v indexNode : Int32) :
    t.find behind (t.add behind seg sIndexkey v).2 sIndexkey indexNode = (0, v) := by
  have h1 : node (t.pBuck behind sIndexkey) ≠ iInvalid (t.pBuck behind sIndexkey) := by
    simp only [node, iInvalid]; omega
  have h2 : node (t.pBuck behind sIndexkey) ≠ iHasSet (t.pBuck behind sIndexkey) := by
    simp only [node, iHasSet]; omega
  have h3 : iHasSet (t.pBuck behind sIndexkey) ≠ iInvalid (t.pBuck behind sIndexkey) := by
    simp only [iHasSet, iInvalid]; omega
  unfold find add
  simp [Function.update_of_ne h1, Function.update_of_ne h2, Function.update_of_ne h3]

theorem find_delete (indexNode : Int32) :
    t.find behind (t.delete behind seg sIndexkey).2 sIndexkey indexNode =
      (KEY_NOT_FOUND, indexNode) := by
  unfold find delete
  simp

end

end CModHashV1

end NetioMiddleware
