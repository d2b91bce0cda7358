import NetioMiddleware.ModHash

namespace NetioMiddleware

structure CCacheManager where
  NetIoStat : CModHashV1
  ContainerOneStat : CModHashV1
  ContainerTwoStat : CModHashV1

/-- CCacheManager::Initalize once the segment is attached at base: the marker
in front tells whether the segment has been used before, and both branches set
the three tables up. now gives the results of GetTimeNow. -/
def initalize (base : UInt64) (now : Nat → UInt32) (seg : Segment) : CCacheManager × Segment :=
  let pNetIoCacheStart := 4
  let netIo := initalizeByNodeCount base (now 0) (now 1) pNetIoCacheStart 1 (by decide) seg
  let pContainerOneCacheStart := pNetIoCacheStart + netIo.1.m_stHead.iTotalSize
  let one := initalizeByNodeCount base (now 2) (now 3) pContainerOneCacheStart 100 (by decide) netIo.2
  let pContainerTwoCacheStart := pContainerOneCacheStart + one.1.m_stHead.iTotalSize
  let two := initalizeByNodeCount base (now 4) (now 5) pContainerTwoCacheStart 100 (by decide) one.2
  (⟨netIo.1, one.1, two.1⟩, if seg 0 = 0 then Function.update two.2 0 1 else two.2)

namespace CCacheManager

section

variable (behind : Bytes → Nat → UInt8) (m : CCacheManager)

/-- The table each of the four calls picks by the beginning of the key. -/
def hashObj (sKey : Bytes) : Option CModHashV1 :=
  if (bytes "c1_").isPrefixOf sKey then some m.ContainerOneStat
  else if (bytes "c2_").isPrefixOf sKey then some m.ContainerTwoStat
  else if (bytes "netio_").isPrefixOf sKey then some m.NetIoStat
  else none

def set (seg : Segment) (sKey : Bytes) (iValue : Int32) : Int32 × Segment :=
  match m.hashObj sKey with
  | none => (-1, seg)
  | some hashObj => hashObj.add behind seg sKey iValue

/-- Get: its return value and what it leaves in iValue. -/
def get (seg : Segment) (sKey : Bytes) (iValue : Int32) : Int32 × Int32 :=
  match m.hashObj sKey with
  | none => (-1, iValue)
  | some hashObj => hashObj.find behind seg sKey iValue

def delete (seg : Segment) (sKey : Bytes) : Int32 × Segment :=
  match m.hashObj sKey with
  | none => (-1, seg)
  | some hashObj => hashObj.delete behind seg sKey

def incr (seg : Segment) (sKey : Bytes) (iValue : Int32) : Int32 × Segment :=
  match m.hashObj sKey with
  | none => (-1, seg)
  | some hashObj =>
    let i := hashObj.find behind seg sKey 0
    if i.1 = 0 then hashObj.add behind seg sKey (i.2 + iValue)
    else hashObj.add behind seg sKey iValue

/-- The bucket a key is kept in. -/
def bucket (sKey : Bytes) : Option Nat := (m.hashObj sKey).map (fun t => t.pBuck behind sKey)

end

end CCacheManager

/-- A call of one of the four functions. -/
inductive CacheCall
  | set (sKey : Bytes) (iValue : Int32)
  | incr (sKey : Bytes) (iValue : Int32)
  | delete (sKey : Bytes)
  | get (sKey : Bytes)

namespace CacheCall

def sKey : CacheCall → Bytes
  | set sKey _ => sKey
  | incr sKey _ => sKey
  | delete sKey => sKey
  | get sKey => sKey

/-- What a call leaves in the segment. -/
def run (behind : Bytes → Nat → UInt8) (m : CCacheManager) (seg : Segment) : CacheCall → Segment
  | set sKey iValue => (m.set behind seg sKey iValue).2
  | incr sKey iValue => (m.incr behind seg sKey iValue).2
  | delete sKey => (m.delete behind seg sKey).2
  | get _ => seg

/-- What a call does to the value of key k in a finite map. -/
def apply (k : Bytes) (old : Option Int) : CacheCall → Option Int
  | set sKey iValue => if sKey = k then some iValue.toInt else old
  | incr sKey iValue => if sKey = k then some (old.getD 0 + iValue.toInt) else old
  | delete sKey => if sKey = k then none else old
  | get _ => old

end CacheCall

/-- The finite map: the value a key has after some calls. -/
def mapValue (calls : List CacheCall) (k : Bytes) : Option Int := calls.foldl (CacheCall.apply k) none

/-- No sum leaves the range of int. -/
def SumsFit (calls : List CacheCall) : Prop :=
  ∀ pre, pre <+: calls → ∀ k v, mapValue pre k = some v → -2 ^ 31 ≤ v ∧ v < 2 ^ 31

/-- The result of Get is the value of the key in the finite map. -/
def Returns (iValue : Int32) (got : Int32 × Int32) : Option Int → Prop
  | some v => got.1 = 0 ∧ got.2.toInt = v
  | none => got.1 ≠ 0 ∧ got.2 = iValue

/-- The segment of a manager set up on zeroed memory, after some calls. -/
def cacheAfter (behind : Bytes → Nat → UInt8) (base : UInt64) (now : Nat → UInt32)
    (calls : List CacheCall) : Segment :=
  let start := initalize base now (fun _ => 0)
  calls.foldl (CacheCall.run behind start.1) start.2

section

variable {behind : Bytes → Nat → UInt8} {base : UInt64} {now : Nat → UInt32}

/-- Where the tables of a manager lie. -/
structure LaidOut (m : CCacheManager) : Prop where
  netIo : m.NetIoStat.m_stHead.pPucketsStart = 68 ∧ m.NetIoStat.m_stHead.iBuckNums = 1
  one : m.ContainerOneStat.m_stHead.pPucketsStart = 168 ∧ m.ContainerOneStat.m_stHead.iBuckNums = 100
  two : m.ContainerTwoStat.m_stHead.pPucketsStart = 3832 ∧ m.ContainerTwoStat.m_stHead.iBuckNums = 100

theorem initalize_laidOut (base : UInt64) (now : Nat → UInt32) (seg : Segment) :
    LaidOut (initalize base now seg).1 :=
  ⟨⟨rfl, rfl⟩, ⟨rfl, rfl⟩, ⟨rfl, rfl⟩⟩

theorem hashObj_cases {m : CCacheManager} {sKey : Bytes} {t : CModHashV1}
    (h : m.hashObj sKey = some t) : t = m.ContainerOneStat ∨ t = m.ContainerTwoStat ∨ t = m.NetIoStat := by
  unfold CCacheManager.hashObj at h
  split at h
  next => exact Or.inl (Option.some.inj h).symm
  next =>
    split at h
    next => exact Or.inr (Or.inl (Option.some.inj h).symm)
    next =>
      split at h
      next => exact Or.inr (Or.inr (Option.some.inj h).symm)
      next => contradiction

theorem bucket_range {m : CCacheManager} (hm : LaidOut m) {sKey : Bytes} {p : Nat}
    (h : m.bucket behind sKey = some p) :
    p = 68 ∨ (∃ i, i < 100 ∧ p = 168 + i * 36) ∨ ∃ i, i < 100 ∧ p = 3832 + i * 36 := by
  obtain ⟨t, ht, hp⟩ := Option.map_eq_some_iff.mp h
  obtain ⟨hnet1, hnet2⟩ := hm.netIo
  obtain ⟨hone1, hone2⟩ := hm.one
  obtain ⟨htwo1, htwo2⟩ := hm.two
  have hlt := t.modToUint_lt behind sKey
  unfold CModHashV1.pBuck sizeofBucket at hp
  rcases hashObj_cases ht with rfl | rfl | rfl
  · rw [hone1] at hp
    rw [hone2] at hlt
    exact Or.inr (Or.inl ⟨_, hlt, hp.symm⟩)
  · rw [htwo1] at hp
    rw [htwo2] at hlt
    exact Or.inr (Or.inr ⟨_, hlt, hp.symm⟩)
  · rw [hnet1] at hp
    rw [hnet2] at hlt
    exact Or.inl (by omega)

/-- Two buckets are one or have no int in common. -/
theorem buckets_apart {behind' : Bytes → Nat → UInt8} {m : CCacheManager} (hm : LaidOut m) {k k' : Bytes}
    {p p' q : Nat} (h : m.bucket behind k = some p) (h' : m.bucket behind' k' = some p') (hne : p ≠ p')
    (hq : CModHashV1.InBucket p q) : ¬CModHashV1.InBucket p' q := by
  have hp := bucket_range hm h
  have hp' := bucket_range hm h'
  simp only [CModHashV1.InBucket, sizeofBucket] at hq ⊢
  rcases hp with rfl | ⟨i, hi, rfl⟩ | ⟨i, hi, rfl⟩
  all_goals rcases hp' with rfl | ⟨j, hj, rfl⟩ | ⟨j, hj, rfl⟩
  all_goals omega

theorem storeHead_frame {pCache dwNodeCount : Nat} {hpos : 0 < dwNodeCount} {t t' : UInt32}
    {seg : Segment} {q : Nat} (h : q < pCache ∨ pCache + 64 ≤ q) :
    (initalizeByNodeCount base t t' pCache dwNodeCount hpos seg).2 q = seg q :=
  memcpy_frame seg h

/-- Setting the tables up changes no bucket. -/
theorem initalize_frame {m : CCacheManager} (hm : LaidOut m) {seg : Segment} {sKey : Bytes} {p q : Nat}
    (h : m.bucket behind sKey = some p) (hq : CModHashV1.InBucket p q) :
    (initalize base now seg).2 q = seg q := by
  have hp := bucket_range hm h
  simp only [CModHashV1.InBucket, sizeofBucket] at hq
  have hnet : q < 4 ∨ 4 + 64 ≤ q := by
    rcases hp with rfl | ⟨i, hi, rfl⟩ | ⟨i, hi, rfl⟩ <;> omega
  have hone : q < 104 ∨ 104 + 64 ≤ q := by
    rcases hp with rfl | ⟨i, hi, rfl⟩ | ⟨i, hi, rfl⟩ <;> omega
  have htwo : q < 3768 ∨ 3768 + 64 ≤ q := by
    rcases hp with rfl | ⟨i, hi, rfl⟩ | ⟨i, hi, rfl⟩ <;> omega
  have hheads : (initalizeByNodeCount base (now 4) (now 5) 3768 100 (by decide)
      (initalizeByNodeCount base (now 2) (now 3) 104 100 (by decide)
        (initalizeByNodeCount base (now 0) (now 1) 4 1 (by decide) seg).2).2).2 q = seg q := by
    rw [storeHead_frame htwo, storeHead_frame hone, storeHead_frame hnet]
  have hmark : q ≠ 0 := by omega
  unfold initalize
  dsimp only
  split
  next => exact (Function.update_of_ne hmark _ _).trans hheads
  next => exact hheads

end

end NetioMiddleware
