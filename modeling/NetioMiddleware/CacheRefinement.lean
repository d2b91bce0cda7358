import Mathlib.Data.Set.Function
import NetioMiddleware.CacheManager

namespace NetioMiddleware

theorem mapValue_append (calls : List CacheCall) (c : CacheCall) (k : Bytes) :
    mapValue (calls ++ [c]) k = c.apply k (mapValue calls k) := by
  unfold mapValue
  rw [List.foldl_append, List.foldl_cons, List.foldl_nil]

theorem apply_other {c : CacheCall} {k : Bytes} (h : c.sKey ≠ k) (old : Option Int) :
    c.apply k old = old := by
  cases c with
  | get _ => rfl
  | set _ _ | incr _ _ | delete _ => exact if_neg h

theorem cacheAfter_append (behind : Bytes → Nat → UInt8) (base : UInt64) (now : Nat → UInt32)
    (calls : List CacheCall) (c : CacheCall) :
    cacheAfter behind base now (calls ++ [c]) =
      c.run behind (initalize base now (fun _ => 0)).1 (cacheAfter behind base now calls) := by
  unfold cacheAfter
  rw [List.foldl_append, List.foldl_cons, List.foldl_nil]

theorem SumsFit.before {calls : List CacheCall} {c : CacheCall} (h : SumsFit (calls ++ [c])) :
    SumsFit calls :=
  fun pre hpre => h pre (hpre.trans (List.prefix_append _ _))

theorem sumsFit_set (k : Bytes) (v : Int32) : SumsFit [CacheCall.set k v] := by
  intro pre hpre k' w hw
  rcases List.prefix_cons_iff.mp hpre with rfl | ⟨pre', rfl, hnil⟩
  · cases hw
  · rw [List.prefix_nil.mp hnil] at hw
    simp only [mapValue, List.foldl_cons, List.foldl_nil, CacheCall.apply] at hw
    split at hw
    next =>
      cases hw
      exact ⟨v.le_toInt, v.toInt_lt⟩
    next => cases hw

/-- A sum that does not leave the range of int is the sum. -/
theorem toInt_add_of_fits {a b : Int32} (hlow : -2 ^ 31 ≤ a.toInt + b.toInt)
    (hhigh : a.toInt + b.toInt < 2 ^ 31) : (a + b).toInt = a.toInt + b.toInt := by
  rw [Int32.toInt_add]
  exact Int.bmod_eq_of_le (by omega) (by omega)

namespace CCacheManager

variable {behind : Bytes → Nat → UInt8} {m : CCacheManager} {seg seg' : Segment}
variable {k k' : Bytes} {p p' : Nat}

theorem get_eq_find {t : CModHashV1} (h : m.hashObj k = some t) (iValue : Int32) :
    m.get behind seg k iValue = t.find behind seg k iValue := by
  unfold get
  rw [h]

theorem returns_not_found (iValue : Int32) : Returns iValue (CModHashV1.KEY_NOT_FOUND, iValue) none := by
  have hcode : CModHashV1.KEY_NOT_FOUND ≠ 0 := by decide
  exact ⟨hcode, rfl⟩

/-- Get looks at the bucket of the key only. -/
theorem get_congr (h : m.bucket behind k = some p) (hseg : ∀ q, CModHashV1.InBucket p q → seg' q = seg q)
    (iValue : Int32) : m.get behind seg' k iValue = m.get behind seg k iValue := by
  obtain ⟨t, ht, rfl⟩ := Option.map_eq_some_iff.mp h
  rw [get_eq_find ht, get_eq_find ht]
  exact CModHashV1.find_congr hseg iValue

/-- Two keys of one bucket are one key to Get. -/
theorem get_shared (h : m.bucket behind k = some p) (h' : m.bucket behind k' = some p) (iValue : Int32) :
    m.get behind seg k iValue = m.get behind seg k' iValue := by
  obtain ⟨t, ht, hp⟩ := Option.map_eq_some_iff.mp h
  obtain ⟨t', ht', hp'⟩ := Option.map_eq_some_iff.mp h'
  rw [get_eq_find ht, get_eq_find ht']
  unfold CModHashV1.find
  rw [hp, hp']

theorem get_set (h : m.bucket behind k = some p) (v iValue : Int32) :
    m.get behind (m.set behind seg k v).2 k iValue = (0, v) := by
  obtain ⟨t, ht, -⟩ := Option.map_eq_some_iff.mp h
  rw [get_eq_find ht]
  unfold set
  rw [ht]
  exact CModHashV1.find_add v iValue

theorem get_delete (h : m.bucket behind k = some p) (iValue : Int32) :
    m.get behind (m.delete behind seg k).2 k iValue = (CModHashV1.KEY_NOT_FOUND, iValue) := by
  obtain ⟨t, ht, -⟩ := Option.map_eq_some_iff.mp h
  rw [get_eq_find ht]
  unfold delete
  rw [ht]
  exact CModHashV1.find_delete iValue

/-- Incr is Find, then Add of the sum or of the value alone. -/
theorem incr_eq_set (h : m.bucket behind k = some p) (v : Int32) :
    m.incr behind seg k v =
      m.set behind seg k (if (m.get behind seg k 0).1 = 0 then (m.get behind seg k 0).2 + v else v) := by
  obtain ⟨t, ht, -⟩ := Option.map_eq_some_iff.mp h
  rw [get_eq_find ht]
  unfold incr set
  rw [ht]
  dsimp only
  split
  next => rfl
  next => rfl

/-- A call leaves every bucket but its own key's as it is. -/
theorem run_frame {c : CacheCall} (h : m.bucket behind c.sKey = some p) {q : Nat}
    (hq : ¬CModHashV1.InBucket p q) : c.run behind m seg q = seg q := by
  have hset : ∀ {sKey : Bytes} (v : Int32), m.bucket behind sKey = some p →
      (m.set behind seg sKey v).2 q = seg q := by
    intro sKey v hb
    obtain ⟨t, ht, rfl⟩ := Option.map_eq_some_iff.mp hb
    unfold set
    rw [ht]
    exact CModHashV1.add_frame hq v
  cases c with
  | set sKey v => exact hset v h
  | incr sKey v =>
    have hb : m.bucket behind sKey = some p := h
    show (m.incr behind seg sKey v).2 q = seg q
    rw [incr_eq_set hb v]
    exact hset _ hb
  | delete sKey =>
    have hb : m.bucket behind sKey = some p := h
    obtain ⟨t, ht, rfl⟩ := Option.map_eq_some_iff.mp hb
    show (m.delete behind seg sKey).2 q = seg q
    unfold delete
    rw [ht]
    exact CModHashV1.delete_frame hq
  | get sKey => rfl

end CCacheManager

section

variable {behind : Bytes → Nat → UInt8} {m : CCacheManager} {K : Set Bytes}

/-- The keys of K have in the segment the values the finite map has after the
calls. -/
def Agrees (behind : Bytes → Nat → UInt8) (m : CCacheManager) (K : Set Bytes) (seg : Segment)
    (calls : List CacheCall) : Prop :=
  ∀ k ∈ K, ∀ iValue, Returns iValue (m.get behind seg k iValue) (mapValue calls k)

theorem bucket_of_hashObj (behind : Bytes → Nat → UInt8) (hK : ∀ k ∈ K, (m.hashObj k).isSome) {k : Bytes}
    (hk : k ∈ K) : ∃ p, m.bucket behind k = some p := by
  obtain ⟨t, ht⟩ := Option.isSome_iff_exists.mp (hK k hk)
  exact ⟨t.pBuck behind k, Option.map_eq_some_iff.mpr ⟨t, ht, rfl⟩⟩

/-- What a call leaves under its own key. -/
theorem run_own {c : CacheCall} {seg : Segment} {p : Nat} {calls : List CacheCall}
    (hb : m.bucket behind c.sKey = some p)
    (h : ∀ iValue, Returns iValue (m.get behind seg c.sKey iValue) (mapValue calls c.sKey))
    (hfit : SumsFit (calls ++ [c])) (iValue : Int32) :
    Returns iValue (m.get behind (c.run behind m seg) c.sKey iValue) (mapValue (calls ++ [c]) c.sKey) := by
  have hfit' := hfit (calls ++ [c]) List.prefix_rfl c.sKey
  rw [mapValue_append] at hfit' ⊢
  cases c with
  | set sKey v =>
    simp only [CacheCall.sKey, CacheCall.run, CacheCall.apply, if_true] at hb ⊢
    rw [CCacheManager.get_set hb v iValue]
    exact ⟨rfl, rfl⟩
  | incr sKey v =>
    simp only [CacheCall.sKey, CacheCall.run, CacheCall.apply, if_true] at hb h hfit' ⊢
    have hold := h 0
    have hsum := hfit' _ rfl
    rw [CCacheManager.incr_eq_set hb v, CCacheManager.get_set hb _ iValue]
    refine ⟨rfl, ?_⟩
    cases hw : mapValue calls sKey with
    | none =>
      rw [hw] at hold
      rw [if_neg hold.1, Option.getD_none, zero_add]
    | some w =>
      rw [hw] at hold hsum
      obtain ⟨hfound, hval⟩ := hold
      rw [if_pos hfound, Option.getD_some, ← hval]
      rw [Option.getD_some, ← hval] at hsum
      exact toInt_add_of_fits hsum.1 hsum.2
  | delete sKey =>
    simp only [CacheCall.sKey, CacheCall.run, CacheCall.apply, if_true] at hb ⊢
    rw [CCacheManager.get_delete hb iValue]
    exact CCacheManager.returns_not_found iValue
  | get sKey => exact h iValue

/-- A call on a key of K, when no two keys of K share a bucket. -/
theorem run_agrees (hm : LaidOut m) (hK : ∀ k ∈ K, (m.hashObj k).isSome)
    (hinj : Set.InjOn (m.bucket behind) K) {c : CacheCall} (hc : c.sKey ∈ K) {seg : Segment}
    {calls : List CacheCall} (hfit : SumsFit (calls ++ [c])) (h : Agrees behind m K seg calls) :
    Agrees behind m K (c.run behind m seg) (calls ++ [c]) := by
  intro k hk iValue
  obtain ⟨p, hp⟩ := bucket_of_hashObj behind hK hk
  obtain ⟨p', hp'⟩ := bucket_of_hashObj behind hK hc
  by_cases heq : c.sKey = k
  · subst heq
    exact run_own hp (fun v => h c.sKey hc v) hfit iValue
  · have hne : p ≠ p' := by
      intro hpp
      apply heq
      apply hinj hc hk
      rw [hp, hp', hpp]
    have hframe : ∀ q, CModHashV1.InBucket p q → c.run behind m seg q = seg q :=
      fun q hq => CCacheManager.run_frame hp' (buckets_apart hm hp hp' hne hq)
    rw [CCacheManager.get_congr hp hframe, mapValue_append, apply_other heq]
    exact h k hk iValue

theorem zeroed_get {base : UInt64} {now : Nat → UInt32} {k : Bytes} {p : Nat}
    (hp : (initalize base now (fun _ => 0)).1.bucket behind k = some p) (iValue : Int32) :
    (initalize base now (fun _ => 0)).1.get behind (initalize base now (fun _ => 0)).2 k iValue =
      (CModHashV1.KEY_NOT_FOUND, iValue) := by
  have hframe : ∀ q, CModHashV1.InBucket p q → (initalize base now (fun _ => 0)).2 q = 0 :=
    fun q => initalize_frame (initalize_laidOut base now (fun _ => 0)) hp
  rw [CCacheManager.get_congr hp hframe]
  obtain ⟨t, ht, -⟩ := Option.map_eq_some_iff.mp hp
  rw [CCacheManager.get_eq_find ht]
  rfl

/-- Whole runs, when no two keys of K share a bucket. -/
theorem cacheAfter_agrees {base : UInt64} {now : Nat → UInt32}
    (hK : ∀ k ∈ K, ((initalize base now (fun _ => 0)).1.hashObj k).isSome)
    (hinj : Set.InjOn ((initalize base now (fun _ => 0)).1.bucket behind) K)
    (calls : List CacheCall) (hc : ∀ c ∈ calls, c.sKey ∈ K) (hfit : SumsFit calls) :
    Agrees behind (initalize base now (fun _ => 0)).1 K (cacheAfter behind base now calls) calls := by
  induction calls using List.reverseRecOn with
  | nil =>
    intro k hk iValue
    obtain ⟨p, hp⟩ := bucket_of_hashObj behind hK hk
    have hget := zeroed_get hp iValue
    show Returns iValue (CCacheManager.get behind _ _ k iValue) none
    unfold cacheAfter
    rw [List.foldl_nil, hget]
    exact CCacheManager.returns_not_found iValue
  | append_singleton calls c ih =>
    rw [cacheAfter_append]
    have hbefore := ih (fun c' h => hc c' (List.mem_append_left _ h)) hfit.before
    exact run_agrees (initalize_laidOut _ _ _) hK hinj (hc c (by simp)) hfit hbefore

/-- The manager is a finite map on the keys of K exactly if no two of them
share a bucket. -/
theorem cache_refines_map (behind : Bytes → Nat → UInt8) (base : UInt64) (now : Nat → UInt32)
    (K : Set Bytes) (hK : ∀ k ∈ K, ((initalize base now (fun _ => 0)).1.hashObj k).isSome) :
    (∀ calls, (∀ c ∈ calls, c.sKey ∈ K) → SumsFit calls → ∀ k ∈ K, ∀ iValue,
      Returns iValue
        ((initalize base now (fun _ => 0)).1.get behind (cacheAfter behind base now calls) k iValue)
        (mapValue calls k)) ↔
    Set.InjOn ((initalize base now (fun _ => 0)).1.bucket behind) K := by
  constructor
  · intro h k hk k' hk' hbucket
    by_contra hne
    obtain ⟨p, hp⟩ := bucket_of_hashObj behind hK hk
    have hp' := hbucket.symm.trans hp
    have hother : mapValue [CacheCall.set k 1] k' = none := if_neg hne
    have hset := h [CacheCall.set k 1] (by simpa [CacheCall.sKey] using hk) (sumsFit_set k 1) k' hk' 0
    rw [hother, CCacheManager.get_shared hp' hp] at hset
    exact hset.1 (congrArg Prod.fst (CCacheManager.get_set hp 1 0))
  · intro hinj calls hc hfit
    exact cacheAfter_agrees hK hinj calls hc hfit

end

/-- One statistic of netio and one of a container. -/
def sampleKeys : Set Bytes := {bytes "netio_0", bytes "c1_7"}

theorem cache_refines_map_sample :
    Set.InjOn ((initalize 0 (fun _ => 0) (fun _ => 0)).1.bucket (fun _ _ => 0)) sampleKeys ∧
      ∀ calls, (∀ c ∈ calls, c.sKey ∈ sampleKeys) → SumsFit calls → ∀ k ∈ sampleKeys, ∀ iValue,
        Returns iValue ((initalize 0 (fun _ => 0) (fun _ => 0)).1.get (fun _ _ => 0)
          (cacheAfter (fun _ _ => 0) 0 (fun _ => 0) calls) k iValue) (mapValue calls k) := by
  have hnet : (initalize 0 (fun _ => 0) (fun _ => 0)).1.bucket (fun _ _ => 0) (bytes "netio_0") =
      some 68 := by
    decide +kernel
  have hone : (initalize 0 (fun _ => 0) (fun _ => 0)).1.bucket (fun _ _ => 0) (bytes "c1_7") =
      some 3696 := by
    decide +kernel
  have hinj : Set.InjOn ((initalize 0 (fun _ => 0) (fun _ => 0)).1.bucket (fun _ _ => 0)) sampleKeys := by
    rintro k (rfl | rfl) k' (rfl | rfl) hbucket
    · rfl
    · rw [hnet, hone] at hbucket
      cases hbucket
    · rw [hnet, hone] at hbucket
      cases hbucket
    · rfl
  have hK : ∀ k ∈ sampleKeys, ((initalize 0 (fun _ => 0) (fun _ => 0)).1.hashObj k).isSome := by
    rintro k (rfl | rfl)
    · decide +kernel
    · decide +kernel
  exact ⟨hinj, (cache_refines_map (fun _ _ => 0) 0 (fun _ => 0) sampleKeys hK).mpr hinj⟩

/-- netio_1 has never been set. -/
theorem cache_shares_bucket :
    SumsFit [CacheCall.set (bytes "netio_0") 1] ∧
      ¬Returns 0 ((initalize 0 (fun _ => 0) (fun _ => 0)).1.get (fun _ _ => 0)
        (cacheAfter (fun _ _ => 0) 0 (fun _ => 0) [CacheCall.set (bytes "netio_0") 1]) (bytes "netio_1") 0)
        (mapValue [CacheCall.set (bytes "netio_0") 1] (bytes "netio_1")) := by
  have hget : (initalize 0 (fun _ => 0) (fun _ => 0)).1.get (fun _ _ => 0)
      (cacheAfter (fun _ _ => 0) 0 (fun _ => 0) [CacheCall.set (bytes "netio_0") 1]) (bytes "netio_1") 0 =
      (0, 1) := by decide +kernel
  have hvalue : mapValue [CacheCall.set (bytes "netio_0") 1] (bytes "netio_1") = none := by decide +kernel
  refine ⟨sumsFit_set _ _, ?_⟩
  rw [hget, hvalue]
  intro h
  exact h.1 rfl

end NetioMiddleware
