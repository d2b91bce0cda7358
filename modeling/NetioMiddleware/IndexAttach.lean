import NetioMiddleware.IndexHistory

namespace NetioMiddleware

/-- A head that has been stored at an address by an initialiser. -/
def StoredHead {T : Type} (mem : ChunkMemory T) (p : Int) : Prop :=
  (mem.head p).dwSpecifier = SPECIFIER ∧ (mem.head p).iInited ≠ 0

/-- SetIndexPointer succeeds, and from then on b finds what a finds. -/
def Attaches {T : Type} [ChunkType T] (a b : IndexObject T) (mem : ChunkMemory T) (p : Int) : Prop :=
  ∃ b', b.setIndexPointer mem p = .ok (0, b') ∧ ∀ calls mem', runCalls a mem calls = .ok mem' →
    ∀ k indexNode, b'.find mem' k indexNode = a.find mem' k indexNode

/-- SetIndexPointer returns an error and leaves the head as it is. -/
def Refuses {T : Type} (b : IndexObject T) (mem : ChunkMemory T) (p : Int) : Prop :=
  ∃ code b', b.setIndexPointer mem p = .ok (code, b') ∧ code ≠ 0 ∧ b'.m_stHead = b.m_stHead

/-- b has a head of its own for the buckets of a. -/
structure SharesBuckets {T : Type} (a b : IndexObject T) : Prop where
  inited : b.m_stHead.iInited ≠ 0
  iBuckNums : b.m_stHead.iBuckNums = a.m_stHead.iBuckNums
  pPucketsStart : b.m_stHead.pPucketsStart = a.m_stHead.pPucketsStart

section

variable {T : Type} {mem : ChunkMemory T} {b : IndexObject T} {p : Int}

theorem head_memcpy (mem : ChunkMemory T) (p : Int) (h : IndexHead) :
    ((mem.memcpy p h.words).head p).dwSpecifier = h.dwSpecifier ∧
      ((mem.memcpy p h.words).head p).iInited = h.iInited := by
  have hlen : h.words.length = 16 := rfl
  have h0 : (mem.memcpy p h.words).word p = h.dwSpecifier.toInt32 := by
    unfold ChunkMemory.memcpy
    dsimp only
    rw [hlen, if_pos (by omega), Int.sub_self]
    rfl
  have h4 : (mem.memcpy p h.words).word (p + 4) = h.iInited := by
    have hindex : ((p + 4 - p) / 4).toNat = 1 := by omega
    unfold ChunkMemory.memcpy
    dsimp only
    rw [hlen, if_pos (by omega), hindex]
    rfl
  exact ⟨congrArg Int32.toUInt32 h0, h4⟩

/-- An object that is at the address already takes the head over without a look. -/
theorem setIndexPointer_same (h : b.m_stHead.pCache = p ∧ p ≠ 0) :
    b.setIndexPointer mem p = .ok (0, b) :=
  if_pos ⟨h.1.symm, h.2⟩

theorem setIndexPointer_null : b.setIndexPointer mem 0 = .error .nullPointer := by
  unfold IndexObject.setIndexPointer
  rw [if_neg fun h => h.2 rfl, if_pos rfl]

/-- A head that has been stored is refused. -/
theorem setIndexPointer_stored (h : ¬(b.m_stHead.pCache = p ∧ p ≠ 0)) (hnull : p ≠ 0)
    (hstored : StoredHead mem p) : b.setIndexPointer mem p = .ok (1001, b) := by
  unfold IndexObject.setIndexPointer
  rw [if_neg fun hp => h ⟨hp.1.symm, hp.2⟩, if_neg hnull, dif_neg (not_not.mpr hstored.1),
    if_pos hstored.2]

theorem refuses_of_eq {code : Int32} {b' : IndexObject T} (h : b.setIndexPointer mem p = .ok (code, b')) :
    Refuses b mem p ↔ code ≠ 0 ∧ b'.m_stHead = b.m_stHead := by
  refine ⟨?_, fun hcode => ⟨code, b', h, hcode⟩⟩
  rintro ⟨code', b'', hset, hcode⟩
  cases Except.ok.inj (hset.symm.trans h)
  exact hcode

/-- Where no head has been stored, SetIndexPointer returns an error exactly if the pointer is not null, the
object is not there already and the specifier is missing. -/
theorem refuses_iff (hstored : ¬StoredHead mem p) :
    Refuses b mem p ↔ p ≠ 0 ∧ b.m_stHead.pCache ≠ p ∧ (mem.head p).dwSpecifier ≠ SPECIFIER := by
  by_cases hnull : p = 0
  · subst hnull
    refine ⟨?_, fun h => absurd rfl h.1⟩
    rintro ⟨code, b', hset, -⟩
    rw [setIndexPointer_null] at hset
    contradiction
  by_cases hp : b.m_stHead.pCache = p
  · rw [refuses_of_eq (setIndexPointer_same ⟨hp, hnull⟩)]
    exact ⟨fun h => absurd rfl h.1, fun h => absurd hp h.2.1⟩
  have hne : ¬(p = b.m_stHead.pCache ∧ p ≠ 0) := fun h => hp h.1.symm
  by_cases hspec : (mem.head p).dwSpecifier = SPECIFIER
  · have hinited : ¬(mem.head p).iInited ≠ 0 := fun h => hstored ⟨hspec, h⟩
    have hset : b.setIndexPointer mem p =
        .ok (0, { b with m_stHead := mem.head p, specifier := hspec }) := by
      unfold IndexObject.setIndexPointer
      rw [if_neg hne, if_neg hnull, dif_neg (not_not.mpr hspec), if_neg hinited]
    rw [refuses_of_eq hset]
    exact ⟨fun h => absurd rfl h.1, fun h => absurd hspec h.2.2⟩
  · have hset : b.setIndexPointer mem p = .ok (1000, b) := by
      unfold IndexObject.setIndexPointer
      rw [if_neg hne, if_neg hnull, dif_pos hspec]
    have hcode : (1000 : Int32) ≠ 0 := by decide
    rw [refuses_of_eq hset]
    exact ⟨fun _ => ⟨hnull, hp, hspec⟩, fun _ => ⟨hcode, rfl⟩⟩

/-- Deleting one bucket empties no other. -/
theorem occupied_setInvalid {q : Int} (hne : q ≠ p) (h : mem.Occupied q) : (mem.setInvalid p 1).Occupied q := by
  have hone : (1 : Int32) ≠ 0 := by decide
  have hinv : (mem.setInvalid p 1).iInvalid q = mem.iInvalid q :=
    ChunkMemory.setInvalid_word p 1 (by omega)
  refine ⟨?_, hinv.trans h.2⟩
  by_cases heq : q + 8 = p + 12
  · have hset : (mem.setInvalid p 1).iHasSet q = 1 := by
      unfold ChunkMemory.iHasSet ChunkMemory.setInvalid
      rw [heq]
      exact Function.update_self _ _ _
    rw [hset]
    exact hone
  · have hset : (mem.setInvalid p 1).iHasSet q = mem.iHasSet q := ChunkMemory.setInvalid_word p 1 heq
    rw [hset]
    exact h.1

end

section

variable {T : Type} [ChunkType T] {i : IndexInit} {a b o : IndexObject T} {now now' : UInt32}
variable {mem mem' : ChunkMemory T} {pCache p q : Int} {n : Nat} {k : IndexKey}

theorem bucket_ge (o : IndexObject T) (j : Nat) : o.m_stHead.pPucketsStart ≤ o.bucket j := by
  have hge := IndexObject.mul_unit_nonneg (T := T) j
  unfold IndexObject.bucket
  omega

/-- No call writes in front of the buckets. -/
theorem IndexCall.run_before (ho : o.Ready n) {c : IndexCall T} {r : Int32 × ChunkMemory T}
    (hr : c.run o mem = .ok r) (hq : q < o.m_stHead.pPucketsStart + 8) : r.2.word q = mem.word q := by
  cases c with
  | add k v =>
    have hge := bucket_ge o (k.hash.toNat % n)
    cases Except.ok.inj ((ho.add mem k v).symm.trans hr)
    exact ChunkMemory.place_word _ v (by omega) (by omega)
  | delete k =>
    have hge := bucket_ge o (k.hash.toNat % n)
    cases Except.ok.inj ((ho.delete mem k).symm.trans hr)
    exact ChunkMemory.setInvalid_word _ 1 (by omega)
  | reset =>
    cases Except.ok.inj ((ho.reset mem).symm.trans hr)
    exact IndexObject.resetLoop_word (Or.inl (by omega))
  | fullFillValue vecX =>
    by_cases hlen : Int32.ofNat vecX.length = o.m_stHead.iBuckNums
    · cases Except.ok.inj ((ho.fullFillValue_fits mem hlen).symm.trans hr)
      exact IndexObject.fillLoop_word hq
    · cases Except.ok.inj ((ho.fullFillValue_rejects mem hlen).symm.trans hr)
      rfl

theorem runCalls_before (ho : o.Ready n) {calls : List (IndexCall T)}
    (hr : runCalls o mem calls = .ok mem') (hq : q < o.m_stHead.pPucketsStart + 8) :
    mem'.word q = mem.word q :=
  runCalls_keeps (f := fun m => m.word q) ho (fun _ _ _ _ hfirst => IndexCall.run_before ho hfirst hq) hr

/-- The head an initialiser has stored stays stored. -/
theorem run_storedHead (hpos : 0 < (i.iBuckNums T).toInt) {calls : List (IndexCall T)}
    (hr : runCalls (i.run o now now' mem pCache).2.1 (i.run o now now' mem pCache).2.2 calls = .ok mem') :
    StoredHead mem' pCache := by
  have hready : (i.run o now now' mem pCache).2.1.Ready _ := IndexInit.run_ready hpos
  have hstart : (i.run o now now' mem pCache).2.1.m_stHead.pPucketsStart = pCache + 64 :=
    IndexInit.run_pPucketsStart
  have h0 : mem'.word pCache = _ := runCalls_before hready hr (by omega)
  have h4 : mem'.word (pCache + 4) = _ := runCalls_before hready hr (by omega)
  rw [IndexInit.run_memory] at h0 h4
  obtain ⟨hspec, hinited⟩ := head_memcpy mem pCache (i.run o now now' mem pCache).2.1.m_stHead
  have hone : (1 : Int32) ≠ 0 := by decide
  refine ⟨(congrArg Int32.toUInt32 h0).trans (hspec.trans ?_), fun hz => hone ?_⟩
  · exact (i.run o now now' mem pCache).2.1.specifier
  · exact (IndexInit.run_iInited.symm.trans (hinited.symm.trans (h4.symm.trans hz)))

theorem find_of_pBuck (mem : ChunkMemory T) (hk : o.pBuck k = .ok p) (indexNode : T) :
    o.find mem k indexNode =
      .ok (if mem.Occupied p then (0, mem.node p) else (1003, indexNode)) := by
  unfold IndexObject.find
  rw [hk]
  rfl

theorem find_congr_pBuck (hk : b.pBuck k = a.pBuck k) (mem : ChunkMemory T) (indexNode : T) :
    b.find mem k indexNode = a.find mem k indexNode := by
  unfold IndexObject.find
  rw [hk]

/-- A find that succeeds has looked at a bucket. -/
theorem pBuck_of_find {r : Int32 × T} {indexNode : T} (h : b.find mem k indexNode = .ok r) :
    ∃ q, b.pBuck k = .ok q := by
  unfold IndexObject.find at h
  cases hq : b.pBuck k with
  | ok q => exact ⟨q, rfl⟩
  | error e =>
    rw [hq] at h
    contradiction

/-- If b finds what a finds after an Add and after a Delete, both look at one bucket. -/
theorem pBuck_eq_of_finds (ha : a.Ready n) (hfind : ∀ calls mem', runCalls a mem calls = .ok mem' →
      ∀ k indexNode, b.find mem' k indexNode = a.find mem' k indexNode) (k : IndexKey) :
    b.pBuck k = a.pBuck k := by
  have hadd := ha.add mem k (mem.node 0)
  have hdelete := ha.delete (mem.place (a.bucket (k.hash.toNat % n)) (mem.node 0)) k
  have h1 := hfind _ _ (runCalls_cons (c := .add k (mem.node 0)) hadd []) k (mem.node 0)
  have h2 := hfind _ _ ((runCalls_cons (c := .add k (mem.node 0)) hadd [.delete k]).trans
    (runCalls_cons (c := .delete k) hdelete [])) k (mem.node 0)
  dsimp only at h1 h2
  rw [ha.find, ChunkMemory.value_place] at h1
  rw [ha.find, ChunkMemory.value_setInvalid] at h2
  obtain ⟨q, hq⟩ := pBuck_of_find h1
  rw [find_of_pBuck _ hq] at h1 h2
  rw [hq, ha.pBuck]
  have hfound : (0 : Int32) ≠ 1003 := by decide
  have hocc : (mem.place (a.bucket (k.hash.toNat % n)) (mem.node 0)).Occupied q := by
    by_contra hempty
    rw [if_neg hempty] at h1
    exact hfound (congrArg Prod.fst (Except.ok.inj h1)).symm
  by_contra hne
  have hstill := occupied_setInvalid (p := a.bucket (k.hash.toNat % n)) (fun h => hne (congrArg _ h)) hocc
  rw [if_pos hstill] at h2
  exact hfound (congrArg Prod.fst (Except.ok.inj h2))

theorem SharesBuckets.pBuck (h : SharesBuckets a b) (ha : a.Ready n) (k : IndexKey) : b.pBuck k = a.pBuck k := by
  unfold IndexObject.pBuck IndexObject.mustInit IndexObject.modToUint
  rw [if_neg h.inited, if_neg ha.inited, h.iBuckNums, h.pPucketsStart]

/-- What a lookup that gives a bucket says about the head. -/
theorem pBuck_ok (h : b.pBuck k = .ok q) :
    b.m_stHead.iInited ≠ 0 ∧ b.m_stHead.iBuckNums.toInt64.toUInt64 ≠ 0 ∧
      q = b.m_stHead.pPucketsStart +
        (k.hash % b.m_stHead.iBuckNums.toInt64.toUInt64).toUInt32.toInt32.toInt * IndexObject.unit T := by
  unfold IndexObject.pBuck IndexObject.mustInit IndexObject.modToUint at h
  by_cases hinited : b.m_stHead.iInited = 0
  · rw [if_pos hinited] at h
    contradiction
  by_cases hzero : b.m_stHead.iBuckNums.toInt64.toUInt64 = 0
  · rw [if_neg hinited, if_pos hzero] at h
    contradiction
  rw [if_neg hinited, if_neg hzero] at h
  exact ⟨hinited, hzero, (Except.ok.inj h).symm⟩

/-- Two counts that leave every number the same remainder are the same. -/
theorem eq_of_remainders {m n : UInt64} (hn : 0 < n.toNat) (hlt : n.toNat < 2 ^ 31) (hm : m ≠ 0)
    (h : ∀ x : UInt64, (x % m).toUInt32.toInt32.toInt = (x.toNat % n.toNat : Nat)) : m = n := by
  have hmpos : 0 < m.toNat := by
    rcases Nat.eq_zero_or_pos m.toNat with hz | hpos
    · exact absurd (UInt64.toNat.inj hz) hm
    · exact hpos
  have hself : m % m = 0 := by
    apply UInt64.toNat.inj
    rw [UInt64.toNat_mod, Nat.mod_self]
    rfl
  have hle : n.toNat % m.toNat ≤ n.toNat := Nat.mod_le _ _
  have hsmall : (n % m).toUInt32.toInt32.toInt = (n.toNat % m.toNat : Nat) := by
    have hword : (n % m).toUInt32.toNat = n.toNat % m.toNat := by
      rw [UInt64.toNat_toUInt32, UInt64.toNat_mod]
      exact Nat.mod_eq_of_lt (by omega)
    rw [← hword]
    exact BitVec.toInt_eq_toNat_of_lt (x := (n % m).toUInt32.toBitVec)
      (show 2 * (n % m).toUInt32.toNat < 2 ^ 32 by omega)
  have hnm := hsmall.symm.trans (h n)
  rw [Nat.mod_self] at hnm
  have hmn := h m
  rw [hself] at hmn
  have hdvd : m.toNat ∣ n.toNat := Nat.dvd_of_mod_eq_zero (by omega)
  have hdvd' : n.toNat ∣ m.toNat := by
    apply Nat.dvd_of_mod_eq_zero
    have hz : (UInt64.toUInt32 0).toInt32.toInt = 0 := rfl
    omega
  exact UInt64.toNat.inj (Nat.dvd_antisymm hdvd hdvd')

theorem toInt64_toUInt64_inj {x y : Int32} (h : x.toInt64.toUInt64 = y.toInt64.toUInt64) : x = y := by
  have hsame : x.toInt64 = y.toInt64 := by
    rw [← Int64.toInt64_toUInt64 x.toInt64, h, Int64.toInt64_toUInt64]
  apply Int32.toInt.inj
  rw [← Int32.toInt_toInt64, hsame, Int32.toInt_toInt64]

/-- An object that looks every key up in the same bucket has a head for the same buckets. -/
theorem sharesBuckets_of_pBuck (ha : a.Ready n) (h : ∀ k, b.pBuck k = a.pBuck k) : SharesBuckets a b := by
  have hunit := IndexObject.unit_pos (T := T)
  have hn := ha.toNat_iBuckNums
  have hbuck : ∀ l : Int64, _ := fun l => pBuck_ok ((h (.long l)).trans (ha.pBuck (.long l)))
  have hstart : b.m_stHead.pPucketsStart = a.m_stHead.pPucketsStart := by
    obtain ⟨-, -, hfirst⟩ := hbuck 0
    have hzero : (0 : UInt64) % b.m_stHead.iBuckNums.toInt64.toUInt64 = 0 := by
      apply UInt64.toNat.inj
      rw [UInt64.toNat_mod]
      exact Nat.zero_mod _
    have hindex : (IndexKey.long 0).hash.toNat % n = 0 := Nat.zero_mod n
    have hrem : ((IndexKey.long 0).hash % b.m_stHead.iBuckNums.toInt64.toUInt64).toUInt32.toInt32.toInt = 0 := by
      show ((0 : UInt64) % _).toUInt32.toInt32.toInt = 0
      rw [hzero]
      rfl
    rw [hrem, hindex, Int.zero_mul] at hfirst
    unfold IndexObject.bucket at hfirst
    omega
  obtain ⟨hinited, hne, -⟩ := hbuck 0
  have hrem : ∀ x : UInt64, (x % b.m_stHead.iBuckNums.toInt64.toUInt64).toUInt32.toInt32.toInt =
      (x.toNat % a.m_stHead.iBuckNums.toInt64.toUInt64.toNat : Nat) := by
    intro x
    obtain ⟨-, -, hx⟩ := hbuck x.toInt64
    have hhash : (IndexKey.long x.toInt64).hash = x := UInt64.toUInt64_toInt64 x
    rw [hhash, hstart] at hx
    unfold IndexObject.bucket at hx
    rw [hn]
    exact Int.eq_of_mul_eq_mul_right (by omega) (Int.add_left_cancel hx).symm
  have hlt := ha.lt
  have hpos := ha.pos
  exact ⟨hinited, toInt64_toUInt64_inj (eq_of_remainders (by omega) (by omega) hne hrem), hstart⟩

/-- A second object attaches a table exactly if its own head is at the address already and is a head for the
same buckets; where no head is stored it is refused exactly if the pointer is not null, the object is not
there and the specifier is missing. -/
theorem index_attach (o : IndexObject T) (now now' : UInt32) (mem : ChunkMemory T) (pCache : Int)
    (hpos : 0 < (i.iBuckNums T).toInt) (calls : List (IndexCall T)) (b : IndexObject T) :
    (∃ mem', runCalls (i.run o now now' mem pCache).2.1 (i.run o now now' mem pCache).2.2 calls = .ok mem' ∧
      (Attaches (i.run o now now' mem pCache).2.1 b mem' pCache ↔
        (b.m_stHead.pCache = pCache ∧ pCache ≠ 0) ∧ SharesBuckets (i.run o now now' mem pCache).2.1 b)) ∧
    ∀ (mem : ChunkMemory T) p, ¬StoredHead mem p →
      (Refuses b mem p ↔
        p ≠ 0 ∧ b.m_stHead.pCache ≠ p ∧ (mem.head p).dwSpecifier ≠ SPECIFIER) := by
  have hready : (i.run o now now' mem pCache).2.1.Ready _ := IndexInit.run_ready hpos
  obtain ⟨mem', hrun⟩ := runCalls_ok hready calls (i.run o now now' mem pCache).2.2
  have hstored := run_storedHead hpos hrun
  refine ⟨⟨mem', hrun, ?_, ?_⟩, fun mem p hp => refuses_iff hp⟩
  · rintro ⟨b', hset, hfind⟩
    by_cases hsame : b.m_stHead.pCache = pCache ∧ pCache ≠ 0
    · rw [setIndexPointer_same hsame] at hset
      cases hset
      exact ⟨hsame, sharesBuckets_of_pBuck hready (pBuck_eq_of_finds hready hfind)⟩
    · by_cases hnull : pCache = 0
      · subst hnull
        rw [setIndexPointer_null] at hset
        contradiction
      · rw [setIndexPointer_stored hsame hnull hstored] at hset
        have hcode : (1001 : Int32) ≠ 0 := by decide
        exact absurd (congrArg Prod.fst (Except.ok.inj hset)) hcode
  · rintro ⟨hsame, htable⟩
    refine ⟨b, setIndexPointer_same hsame, fun _ mem _ k indexNode => ?_⟩
    exact find_congr_pBuck (htable.pBuck hready k) mem indexNode

end

/-- Memory that holds the specifier and nothing else. -/
def specifierOnly : ChunkMemory Int32 :=
  ⟨Function.update (fun _ => 0) 4096 SPECIFIER.toInt32, fun _ => 0⟩

/-- A new object does not attach a table, and takes over a head that has never been stored. -/
theorem index_attach_fails :
    ¬Attaches (zeroedTable (.byNodeCount 2)).2.1 (IndexObject.new Int32)
        (zeroedTable (.byNodeCount 2)).2.2 4096 ∧
      ¬StoredHead specifierOnly 4096 ∧ ¬Refuses (IndexObject.new Int32) specifierOnly 4096 := by
  have hcode : ((IndexObject.new Int32).setIndexPointer (zeroedTable (.byNodeCount 2)).2.2 4096).toOption.any
      (fun r => decide (r.1 ≠ 0)) = true := by
    decide +kernel
  have hzero : ((IndexObject.new Int32).setIndexPointer specifierOnly 4096).toOption.any
      (fun r => decide (r.1 = 0)) = true := by
    decide +kernel
  refine ⟨?_, ?_, ?_⟩
  · rintro ⟨b', hset, -⟩
    rw [hset] at hcode
    contradiction
  · intro h
    exact absurd h.2 (by decide +kernel)
  · rintro ⟨code, b', hset, hne, -⟩
    rw [hset] at hzero
    exact hne (of_decide_eq_true hzero)

theorem index_attach_sample :
    ∃ mem', runCalls (zeroedTable (.byNodeCount 2)).2.1 (zeroedTable (.byNodeCount 2)).2.2
        [.add (zeroedKey "a") 7] = .ok mem' ∧
      Attaches (zeroedTable (.byNodeCount 2)).2.1 (zeroedTable (.byNodeCount 2)).2.1 mem' 4096 ∧
      Refuses (zeroedTable (.byNodeCount 2)).2.1 ⟨fun _ => 0, fun _ => 0⟩ 8192 := by
  obtain ⟨⟨mem', hrun, hattach⟩, hrefuse⟩ := index_attach (i := .byNodeCount 2) (IndexObject.new Int32) 0 0
    ⟨fun _ => 0, fun _ => 0⟩ 4096 (by decide) [.add (zeroedKey "a") 7] (zeroedTable (.byNodeCount 2)).2.1
  have hinited : (1 : Int32) ≠ 0 := by decide
  refine ⟨mem', hrun, hattach.mpr ⟨⟨rfl, by decide⟩, ⟨hinited, rfl, rfl⟩⟩, (hrefuse _ 8192 ?_).mpr ⟨?_, ?_, ?_⟩⟩
  · exact fun h => absurd h.1 (by decide +kernel)
  · decide
  · decide +kernel
  · decide +kernel

end NetioMiddleware
