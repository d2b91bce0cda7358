import Mathlib.Data.List.Infix
import NetioMiddleware.CacheRefinement
import NetioMiddleware.Machine

namespace NetioMiddleware

/-- The segment and the processes that have attached it, each with the tables its own Initalize has set
up. -/
structure SharedCache where
  seg : Segment
  processes : List CCacheManager

inductive SharedCacheLabel
  | attach (base : UInt64) (now : Nat → UInt32)
  | call (i : Nat) (c : CacheCall)

/-- One process attaches the segment, or makes one call. -/
def SharedCache.step (behind : Bytes → Nat → UInt8) (s : SharedCache) :
    SharedCacheLabel → Option SharedCache
  | .attach base now =>
    let m := initalize base now s.seg
    some ⟨m.2, s.processes ++ [m.1]⟩
  | .call i c => (s.processes[i]?).map fun m => ⟨c.run behind m s.seg, s.processes⟩

/-- The segment is zero when it is created. -/
def sharedCache (behind : Bytes → Nat → UInt8) : Machine SharedCache SharedCacheLabel where
  init s := s = ⟨fun _ => 0, []⟩
  step s l s' := s.step behind l = some s'

/-- The beginnings of keys that name an area. -/
def keyPrefixes : List Bytes := [bytes "netio_", bytes "c1_", bytes "c2_"]

section

variable {behind : Bytes → Nat → UInt8} {m m' : CCacheManager} {seg seg' : Segment} {k k' : Bytes}

theorem keyPrefixes_prefix_eq :
    ∀ p ∈ keyPrefixes, ∀ p' ∈ keyPrefixes, p.isPrefixOf p' = true → p = p' := by
  decide +kernel

/-- A key begins in one way only. -/
theorem prefix_unique {p p' : Bytes} (hp : p ∈ keyPrefixes) (hp' : p' ∈ keyPrefixes) (h : p <+: k)
    (h' : p' <+: k) : p = p' := by
  rcases List.prefix_or_prefix_of_prefix h h' with hpp | hpp
  · exact keyPrefixes_prefix_eq p hp p' hp' (List.isPrefixOf_iff_prefix.mpr hpp)
  · exact (keyPrefixes_prefix_eq p' hp' p hp (List.isPrefixOf_iff_prefix.mpr hpp)).symm

/-- A key without a prefix has no bucket, and each prefix has an area of its own. -/
theorem hashObj_prefix (m : CCacheManager) (k : Bytes) :
    (m.hashObj k = some m.ContainerOneStat ∧ bytes "c1_" <+: k) ∨
    (m.hashObj k = some m.ContainerTwoStat ∧ bytes "c2_" <+: k) ∨
    (m.hashObj k = some m.NetIoStat ∧ bytes "netio_" <+: k) ∨
    (m.hashObj k = none ∧ ∀ p ∈ keyPrefixes, ¬p <+: k) := by
  unfold CCacheManager.hashObj
  split
  next h => exact Or.inl ⟨rfl, List.isPrefixOf_iff_prefix.mp h⟩
  next hone =>
    split
    next h => exact Or.inr (Or.inl ⟨rfl, List.isPrefixOf_iff_prefix.mp h⟩)
    next htwo =>
      split
      next h => exact Or.inr (Or.inr (Or.inl ⟨rfl, List.isPrefixOf_iff_prefix.mp h⟩))
      next hnet =>
        refine Or.inr (Or.inr (Or.inr ⟨rfl, ?_⟩))
        intro p hp hpk
        have hpk := List.isPrefixOf_iff_prefix.mpr hpk
        simp only [keyPrefixes, List.mem_cons, List.not_mem_nil, or_false] at hp
        rcases hp with rfl | rfl | rfl
        · exact hnet hpk
        · exact hone hpk
        · exact htwo hpk

/-- The bucket of a key is the same for every process. -/
theorem bucket_laidOut (behind : Bytes → Nat → UInt8) (hm : LaidOut m) (hm' : LaidOut m') (k : Bytes) :
    m'.bucket behind k = m.bucket behind k := by
  have hpBuck : ∀ {t t' : CModHashV1} {p n : Nat},
      t.m_stHead.pPucketsStart = p ∧ t.m_stHead.iBuckNums = n →
      t'.m_stHead.pPucketsStart = p ∧ t'.m_stHead.iBuckNums = n →
      t'.pBuck behind k = t.pBuck behind k := by
    intro t t' p n h h'
    unfold CModHashV1.pBuck CModHashV1.modToUint
    rw [h.1, h.2, h'.1, h'.2]
  unfold CCacheManager.bucket CCacheManager.hashObj
  split
  · exact congrArg some (hpBuck hm.one hm'.one)
  split
  · exact congrArg some (hpBuck hm.two hm'.two)
  split
  · exact congrArg some (hpBuck hm.netIo hm'.netIo)
  · rfl

theorem get_of_bucket_none (h : m.bucket behind k = none) (iValue : Int32) :
    m.get behind seg k iValue = (-1, iValue) := by
  have hnone := Option.map_eq_none_iff.mp h
  unfold CCacheManager.get
  rw [hnone]

theorem get_of_bucket {p : Nat} (h : m.bucket behind k = some p) (iValue : Int32) :
    m.get behind seg k iValue =
      if seg (CModHashV1.iHasSet p) ≠ 0 ∧ seg (CModHashV1.iInvalid p) = 0 then
        (0, seg (CModHashV1.node p))
      else (CModHashV1.KEY_NOT_FOUND, iValue) := by
  obtain ⟨t, ht, rfl⟩ := Option.map_eq_some_iff.mp h
  rw [CCacheManager.get_eq_find ht]
  rfl

/-- Every process gets the same. -/
theorem get_laidOut (behind : Bytes → Nat → UInt8) (hm : LaidOut m) (hm' : LaidOut m') (seg : Segment)
    (k : Bytes) (iValue : Int32) :
    m'.get behind seg k iValue = m.get behind seg k iValue := by
  have hb := bucket_laidOut behind hm hm' k
  cases h : m.bucket behind k with
  | none => rw [get_of_bucket_none h, get_of_bucket_none (hb.trans h)]
  | some p => rw [get_of_bucket h, get_of_bucket (hb.trans h)]

/-- Setting the tables up again changes Get for no key. -/
theorem get_initalize (behind : Bytes → Nat → UInt8) (hm : LaidOut m) (base : UInt64)
    (now : Nat → UInt32) (seg : Segment) (k : Bytes) (iValue : Int32) :
    m.get behind (initalize base now seg).2 k iValue = m.get behind seg k iValue := by
  cases h : m.bucket behind k with
  | none => rw [get_of_bucket_none h, get_of_bucket_none h]
  | some p =>
    exact CCacheManager.get_congr h (fun q hq => initalize_frame hm h hq) iValue

theorem run_of_bucket_none {c : CacheCall} (h : m.bucket behind c.sKey = none) :
    c.run behind m seg = seg := by
  have hnone := Option.map_eq_none_iff.mp h
  cases c with
  | set sKey v =>
    have hkey : m.hashObj sKey = none := hnone
    show (m.set behind seg sKey v).2 = seg
    unfold CCacheManager.set
    rw [hkey]
  | incr sKey v =>
    have hkey : m.hashObj sKey = none := hnone
    show (m.incr behind seg sKey v).2 = seg
    unfold CCacheManager.incr
    rw [hkey]
  | delete sKey =>
    have hkey : m.hashObj sKey = none := hnone
    show (m.delete behind seg sKey).2 = seg
    unfold CCacheManager.delete
    rw [hkey]
  | get sKey => rfl

/-- The buckets of two areas have no int in common. -/
theorem bucket_ne_of_prefix {behind' : Bytes → Nat → UInt8} (hm : LaidOut m) {p p' : Bytes} (hp : p ∈ keyPrefixes)
    (hp' : p' ∈ keyPrefixes) (hne : p ≠ p') (h : p <+: k) (h' : p' <+: k') {b b' : Nat}
    (hb : m.bucket behind k = some b) (hb' : m.bucket behind' k' = some b') : b ≠ b' := by
  obtain ⟨t, ht, rfl⟩ := Option.map_eq_some_iff.mp hb
  obtain ⟨t', ht', rfl⟩ := Option.map_eq_some_iff.mp hb'
  have hlt' := t'.modToUint_lt behind' k'
  have hone := hm.one
  have htwo := hm.two
  have hnet := hm.netIo
  have hc1 : bytes "c1_" ∈ keyPrefixes := by simp [keyPrefixes]
  have hc2 : bytes "c2_" ∈ keyPrefixes := by simp [keyPrefixes]
  have hn : bytes "netio_" ∈ keyPrefixes := by simp [keyPrefixes]
  unfold CModHashV1.pBuck sizeofBucket
  rcases hashObj_prefix m k with ⟨hk, hkp⟩ | ⟨hk, hkp⟩ | ⟨hk, hkp⟩ | ⟨hk, hkp⟩
  all_goals rw [hk] at ht; cases ht
  all_goals rcases hashObj_prefix m k' with ⟨hk', hkp'⟩ | ⟨hk', hkp'⟩ | ⟨hk', hkp'⟩ | ⟨hk', hkp'⟩
  all_goals rw [hk'] at ht'; cases ht'
  · exact absurd ((prefix_unique hp hc1 h hkp).trans (prefix_unique hc1 hp' hkp' h')) hne
  · omega
  · omega
  · omega
  · exact absurd ((prefix_unique hp hc2 h hkp).trans (prefix_unique hc2 hp' hkp' h')) hne
  · omega
  · omega
  · omega
  · exact absurd ((prefix_unique hp hn h hkp).trans (prefix_unique hn hp' hkp' h')) hne

/-- A call on a key of one area leaves Get for the keys of the others as it is. -/
theorem get_other_prefix (hm : LaidOut m) (hm' : LaidOut m') {c : CacheCall} {p p' : Bytes}
    (hp : p ∈ keyPrefixes) (hp' : p' ∈ keyPrefixes) (hne : p ≠ p') (h : p <+: c.sKey) (h' : p' <+: k)
    (iValue : Int32) :
    m.get behind (c.run behind m' seg) k iValue = m.get behind seg k iValue := by
  cases hc : m'.bucket behind c.sKey with
  | none => rw [run_of_bucket_none hc]
  | some b =>
    cases hk : m.bucket behind k with
    | none => rw [get_of_bucket_none hk, get_of_bucket_none hk]
    | some b' =>
      have hc1 := (bucket_laidOut behind hm' hm c.sKey).trans hc
      have hbb := bucket_ne_of_prefix hm hp hp' hne h h' hc1 hk
      apply CCacheManager.get_congr hk
      intro q hq
      exact CCacheManager.run_frame hc (buckets_apart hm hk hc1 (Ne.symm hbb) hq)

theorem initalize_marks (base : UInt64) (now : Nat → UInt32) (seg : Segment) :
    (initalize base now seg).2 0 ≠ 0 := by
  have hheads : (initalizeByNodeCount base (now 4) (now 5) 3768 100 (by decide)
      (initalizeByNodeCount base (now 2) (now 3) 104 100 (by decide)
        (initalizeByNodeCount base (now 0) (now 1) 4 1 (by decide) seg).2).2).2 0 = seg 0 := by
    rw [storeHead_frame (by omega), storeHead_frame (by omega), storeHead_frame (by omega)]
  unfold initalize
  dsimp only
  split
  next =>
    rw [Function.update_self]
    decide
  next h =>
    intro hz
    exact h (hheads.symm.trans hz)

theorem run_marked (behind : Bytes → Nat → UInt8) (hm : LaidOut m) (seg : Segment) (c : CacheCall) :
    c.run behind m seg 0 = seg 0 := by
  cases hc : m.bucket behind c.sKey with
  | none => rw [run_of_bucket_none hc]
  | some b =>
    apply CCacheManager.run_frame hc
    have hb := bucket_range hm hc
    unfold CModHashV1.InBucket
    rcases hb with rfl | ⟨i, hi, rfl⟩ | ⟨i, hi, rfl⟩ <;> omega

end

/-- Every process has its tables in the same place, and the segment is marked once one has attached it. -/
structure SharedCache.Inv (s : SharedCache) : Prop where
  laidOut : ∀ m ∈ s.processes, LaidOut m
  marked : s.processes ≠ [] → s.seg 0 ≠ 0

section

variable {behind : Bytes → Nat → UInt8} {s s' : SharedCache}

theorem SharedCache.step_inv {l : SharedCacheLabel} (hs : s.Inv) (h : s.step behind l = some s') :
    s'.Inv := by
  cases l with
  | attach base now =>
    cases h
    refine ⟨?_, fun _ => initalize_marks base now s.seg⟩
    intro m hm
    rcases List.mem_append.mp hm with hm | hm
    · exact hs.laidOut m hm
    · cases List.mem_singleton.mp hm
      exact initalize_laidOut base now s.seg
  | call i c =>
    obtain ⟨m, hm, rfl⟩ := Option.map_eq_some_iff.mp h
    have hmem := List.mem_of_getElem? hm
    refine ⟨hs.laidOut, fun hne => ?_⟩
    have hsame := run_marked behind (hs.laidOut m hmem) s.seg c
    exact fun hz => hs.marked hne (hsame.symm.trans hz)

theorem sharedCache_inv (h : (sharedCache behind).Reachable s) : s.Inv := by
  apply h.invariant
  · rintro s rfl
    exact ⟨fun m hm => absurd hm List.not_mem_nil, fun hne => absurd rfl hne⟩
  · intro s l s' hs _ hstep
    exact SharedCache.step_inv hs hstep

/-- A process that attaches the marked segment changes what Get returns for no key and gets the same
itself, and no call on a key of one prefix changes Get for a key of another. -/
theorem sharedCache_restart (h : (sharedCache behind).Reachable s) {m : CCacheManager}
    (hm : m ∈ s.processes) :
    s.seg 0 ≠ 0 ∧
    (∀ base now k iValue,
      m.get behind (initalize base now s.seg).2 k iValue = m.get behind s.seg k iValue ∧
      (initalize base now s.seg).1.get behind (initalize base now s.seg).2 k iValue =
        m.get behind s.seg k iValue) ∧
    ∀ p ∈ keyPrefixes, ∀ p' ∈ keyPrefixes, p ≠ p' → ∀ m' ∈ s.processes, ∀ c : CacheCall, ∀ k iValue,
      p <+: c.sKey → p' <+: k →
        m.get behind (c.run behind m' s.seg) k iValue = m.get behind s.seg k iValue := by
  have hinv := sharedCache_inv h
  have hlaid := hinv.laidOut m hm
  refine ⟨hinv.marked (List.ne_nil_of_mem hm), ?_, ?_⟩
  · intro base now k iValue
    have hsame := get_initalize behind hlaid base now s.seg k iValue
    have hother := get_laidOut behind hlaid (initalize_laidOut base now s.seg)
      (initalize base now s.seg).2 k iValue
    exact ⟨hsame, hother.trans hsame⟩
  · intro p hp p' hp' hne m' hm' c k iValue hc hk
    exact get_other_prefix hlaid (hinv.laidOut m' hm') hp hp' hne hc hk iValue

theorem sharedCache_created (behind : Bytes → Nat → UInt8) :
    (sharedCache behind).Reachable ⟨fun _ => 0, []⟩ := .init rfl

theorem sharedCache_attach (h : (sharedCache behind).Reachable s) (base : UInt64) (now : Nat → UInt32) :
    (sharedCache behind).Reachable
      ⟨(initalize base now s.seg).2, s.processes ++ [(initalize base now s.seg).1]⟩ :=
  h.step (l := SharedCacheLabel.attach base now) trivial rfl

theorem sharedCache_call (h : (sharedCache behind).Reachable s) (i : Nat) {m : CCacheManager}
    (hm : s.processes[i]? = some m) (c : CacheCall) :
    (sharedCache behind).Reachable ⟨c.run behind m s.seg, s.processes⟩ := by
  have hstep : s.step behind (.call i c) = some ⟨c.run behind m s.seg, s.processes⟩ :=
    Option.map_eq_some_iff.mpr ⟨m, hm, rfl⟩
  exact h.step (l := SharedCacheLabel.call i c) trivial hstep

end

/-- Two processes, the second of which has counted a request under netio_1. -/
def sampleSharedCache : SharedCache :=
  let one := initalize 4096 (fun _ => 7) (fun _ => 0)
  let two := initalize 8192 (fun _ => 9) one.2
  ⟨(CacheCall.incr (bytes "netio_1") 1).run (fun _ _ => 0) two.1 two.2, [one.1, two.1]⟩

theorem sampleSharedCache_reach : (sharedCache (fun _ _ => 0)).Reachable sampleSharedCache := by
  have hone := sharedCache_attach (sharedCache_created (fun _ _ => 0)) 4096 (fun _ => 7)
  have htwo := sharedCache_attach hone 8192 (fun _ => 9)
  exact sharedCache_call htwo 1 rfl (.incr (bytes "netio_1") 1)

theorem sharedCache_restart_sample :
    ∃ m ∈ sampleSharedCache.processes, m.get (fun _ _ => 0) sampleSharedCache.seg (bytes "netio_1") 5 = (0, 1) ∧
      (∀ base now, (initalize base now sampleSharedCache.seg).1.get (fun _ _ => 0)
        (initalize base now sampleSharedCache.seg).2 (bytes "netio_1") 5 = (0, 1)) ∧
      ∀ m' ∈ sampleSharedCache.processes, m.get (fun _ _ => 0)
        ((CacheCall.delete (bytes "c1_1")).run (fun _ _ => 0) m' sampleSharedCache.seg)
          (bytes "netio_1") 5 = (0, 1) := by
  have hget : (initalize 4096 (fun _ => 7) (fun _ => 0)).1.get (fun _ _ => 0) sampleSharedCache.seg
      (bytes "netio_1") 5 = (0, 1) := by decide +kernel
  have hmem : (initalize 4096 (fun _ => 7) (fun _ => 0)).1 ∈ sampleSharedCache.processes :=
    List.mem_cons_self
  obtain ⟨-, hrestart, hother⟩ := sharedCache_restart sampleSharedCache_reach hmem
  refine ⟨_, hmem, hget, ?_, ?_⟩
  · intro base now
    exact (hrestart base now (bytes "netio_1") 5).2.trans hget
  · intro m' hm'
    have hsame := hother (bytes "c1_") (by simp [keyPrefixes]) (bytes "netio_") (by simp [keyPrefixes])
      (by decide) m' hm' (.delete (bytes "c1_1")) (bytes "netio_1") 5
      (List.isPrefixOf_iff_prefix.mp (by decide)) (List.isPrefixOf_iff_prefix.mp (by decide))
    exact hsame.trans hget

end NetioMiddleware
