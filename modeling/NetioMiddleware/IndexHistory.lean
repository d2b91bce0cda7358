import NetioMiddleware.IndexLayout

namespace NetioMiddleware

/-- What Find would find in a bucket. -/
def ChunkMemory.value {T : Type} (mem : ChunkMemory T) (pBuck : Int) : Option T :=
  if mem.Occupied pBuck then some (mem.node pBuck) else none

/-- Two buckets whose meta data have no int in common. -/
def Apart (p q : Int) : Prop := p + 8 ≤ q ∨ q + 8 ≤ p

namespace ChunkMemory

section

variable {T : Type} {mem mem' : ChunkMemory T} {p q : Int}

theorem value_of_occupied (h : mem.Occupied p) : mem.value p = some (mem.node p) := if_pos h

theorem value_of_not_occupied (h : ¬mem.Occupied p) : mem.value p = none := if_neg h

theorem value_congr (hset : mem'.iHasSet p = mem.iHasSet p) (hinv : mem'.iInvalid p = mem.iInvalid p)
    (hnode : mem'.node p = mem.node p) : mem'.value p = mem.value p := by
  have hocc : mem'.Occupied p ↔ mem.Occupied p := by
    unfold Occupied
    rw [hset, hinv]
  by_cases h : mem.Occupied p
  · rw [value_of_occupied h, value_of_occupied (hocc.mpr h), hnode]
  · rw [value_of_not_occupied h, value_of_not_occupied (fun h' => h (hocc.mp h'))]

theorem place_word (p : Int) (v : T) {q : Int} (h8 : q ≠ p + 8) (h12 : q ≠ p + 12) :
    (mem.place p v).word q = mem.word q := by
  unfold place setInvalid setHasSet setNode
  dsimp only
  rw [Function.update_of_ne h12, Function.update_of_ne h8]

theorem place_node (p : Int) (v : T) {q : Int} (h : q ≠ p) : (mem.place p v).node q = mem.node q :=
  Function.update_of_ne h _ _

theorem setInvalid_word (p : Int) (v : Int32) {q : Int} (h : q ≠ p + 12) :
    (mem.setInvalid p v).word q = mem.word q :=
  Function.update_of_ne h _ _

theorem memcpy_word (p : Int) (words : List Int32) {q : Int} (h : q < p ∨ p + 4 * words.length ≤ q) :
    (mem.memcpy p words).word q = mem.word q := by
  unfold memcpy
  dsimp only
  rw [if_neg]
  omega

theorem value_place (mem : ChunkMemory T) (p : Int) (v : T) : (mem.place p v).value p = some v := by
  have hset : (mem.place p v).iHasSet p = 1 := by
    have hne : p + 8 ≠ p + 12 := by omega
    unfold iHasSet place setInvalid setHasSet
    dsimp only
    rw [Function.update_of_ne hne, Function.update_self]
  have hinv : (mem.place p v).iInvalid p = 0 := Function.update_self _ _ _
  have hnode : (mem.place p v).node p = v := Function.update_self _ _ _
  have hone : (1 : Int32) ≠ 0 := by decide
  have hocc : (mem.place p v).Occupied p := ⟨fun hz => hone (hset.symm.trans hz), hinv⟩
  rw [value_of_occupied hocc, hnode]

theorem value_place_apart (v : T) (h : Apart p q) : (mem.place q v).value p = mem.value p := by
  unfold Apart at h
  apply value_congr
  · exact place_word q v (by omega) (by omega)
  · exact place_word q v (by omega) (by omega)
  · exact place_node q v (by omega)

theorem value_setInvalid (mem : ChunkMemory T) (p : Int) : (mem.setInvalid p 1).value p = none := by
  have hinv : (mem.setInvalid p 1).iInvalid p = 1 := Function.update_self _ _ _
  have hone : (1 : Int32) ≠ 0 := by decide
  exact value_of_not_occupied fun hocc => hone (hinv.symm.trans hocc.2)

theorem value_setInvalid_apart (v : Int32) (h : Apart p q) :
    (mem.setInvalid q v).value p = mem.value p := by
  unfold Apart at h
  apply value_congr
  · exact setInvalid_word q v (by omega)
  · exact setInvalid_word q v (by omega)
  · rfl

end

end ChunkMemory

namespace IndexObject

section

variable {T : Type} [ChunkType T] {o : IndexObject T} {n : Nat} {mem : ChunkMemory T} {p q : Int}

theorem bucket_apart (o : IndexObject T) {i j : Nat} (h : i ≠ j) : Apart (o.bucket i) (o.bucket j) := by
  have hunit := unit_pos (T := T)
  unfold Apart bucket
  rcases Nat.lt_or_gt_of_ne h with hlt | hlt
  · have hmul := mul_unit_le (T := T) (Int.ofNat_lt.mpr hlt)
    omega
  · have hmul := mul_unit_le (T := T) (Int.ofNat_lt.mpr hlt)
    omega

/-- The loop of Reset writes from where it is up to the last int of the meta data at its end. -/
theorem resetLoop_word {pEnd : Int} (h : q < p + 12 ∨ pEnd + 12 < q) :
    (resetLoop pEnd p mem).word q = mem.word q := by
  have hunit := unit_pos (T := T)
  fun_induction resetLoop pEnd p mem with
  | case1 p mem hle ih =>
    rw [ih (by omega)]
    exact ChunkMemory.setInvalid_word p 1 (by omega)
  | case2 => rfl

theorem resetLoop_node {pEnd : Int} : (resetLoop pEnd p mem).node = mem.node := by
  fun_induction resetLoop pEnd p mem with
  | case1 p mem hle ih => exact ih
  | case2 => rfl

/-- It reaches every bucket up to its end. -/
theorem resetLoop_value (m : Nat) {j : Nat} (hj : j ≤ m) :
    (resetLoop (p + m * unit T) p mem).value (p + j * unit T) = none := by
  have hunit := unit_pos (T := T)
  induction m generalizing p mem j with
  | zero =>
    obtain rfl : j = 0 := by omega
    rw [resetLoop, if_pos (by omega), resetLoop, if_neg (by omega), add_zero_unit]
    exact ChunkMemory.value_setInvalid _ p
  | succ m ih =>
    have hge := mul_unit_nonneg (T := T) m
    have hend := add_succ_unit (T := T) p m
    rw [resetLoop, if_pos (by omega), hend]
    cases j with
    | zero =>
      rw [add_zero_unit, ← ChunkMemory.value_setInvalid mem p]
      apply ChunkMemory.value_congr
      · exact resetLoop_word (Or.inl (by omega))
      · exact resetLoop_word (Or.inl (by omega))
      · rw [resetLoop_node]
    | succ j =>
      rw [add_succ_unit]
      exact ih (by omega)

theorem fillLoop_word {vs : List T} (h : q < p + 8) : (fillLoop p mem vs).word q = mem.word q := by
  have hunit := unit_pos (T := T)
  induction vs generalizing p mem with
  | nil => rfl
  | cons v vs ih =>
    rw [fillLoop, ih (by omega)]
    exact ChunkMemory.place_word p v (by omega) (by omega)

theorem fillLoop_node {vs : List T} (h : q < p) : (fillLoop p mem vs).node q = mem.node q := by
  have hunit := unit_pos (T := T)
  induction vs generalizing p mem with
  | nil => rfl
  | cons v vs ih =>
    rw [fillLoop, ih (by omega)]
    exact ChunkMemory.place_node p v (by omega)

/-- FullFillValue copies the values to the buckets in order. -/
theorem fillLoop_value {vs : List T} {j : Nat} {v : T} (h : vs[j]? = some v) :
    (fillLoop p mem vs).value (p + j * unit T) = some v := by
  have hunit := unit_pos (T := T)
  induction vs generalizing p mem j with
  | nil => simp at h
  | cons w vs ih =>
    rw [fillLoop]
    cases j with
    | zero =>
      cases h
      rw [add_zero_unit, ← ChunkMemory.value_place mem p v]
      apply ChunkMemory.value_congr
      · exact fillLoop_word (by omega)
      · exact fillLoop_word (by omega)
      · exact fillLoop_node (by omega)
    | succ j =>
      rw [add_succ_unit]
      exact ih h

/-- Find in terms of the bucket of the key. -/
theorem Ready.find (h : o.Ready n) (mem : ChunkMemory T) (k : IndexKey) (indexNode : T) :
    o.find mem k indexNode = .ok (match mem.value (o.bucket (k.hash.toNat % n)) with
      | some v => (0, v)
      | none => (1003, indexNode)) := by
  unfold IndexObject.find ChunkMemory.value
  rw [h.pBuck]
  by_cases hocc : mem.Occupied (o.bucket (k.hash.toNat % n))
  · simp only [if_pos hocc]
    exact congrArg Except.ok (if_pos hocc)
  · simp only [if_neg hocc]
    exact congrArg Except.ok (if_neg hocc)

theorem Ready.add (h : o.Ready n) (mem : ChunkMemory T) (k : IndexKey) (v : T) :
    o.add mem k v = .ok (0, mem.place (o.bucket (k.hash.toNat % n)) v) := by
  unfold IndexObject.add
  rw [h.pBuck]
  rfl

theorem Ready.delete (h : o.Ready n) (mem : ChunkMemory T) (k : IndexKey) :
    o.delete mem k = .ok (0, mem.setInvalid (o.bucket (k.hash.toNat % n)) 1) := by
  unfold IndexObject.delete
  rw [h.pBuck]
  rfl

theorem Ready.reset (h : o.Ready n) (mem : ChunkMemory T) :
    o.reset mem = .ok (0, resetLoop o.m_stHead.pPBucketsEnd o.m_stHead.pPucketsStart mem) := by
  unfold IndexObject.reset
  rw [h.mustInit]
  rfl

theorem Ready.fullFillValue_fits (h : o.Ready n) (mem : ChunkMemory T) {vecX : List T}
    (hlen : Int32.ofNat vecX.length = o.m_stHead.iBuckNums) :
    o.fullFillValue mem vecX =
      .ok (0, fillLoop o.m_stHead.pPucketsStart mem (vecX.take n)) := by
  have hn : (Int32.ofNat vecX.length).toInt.toNat = n := by
    rw [hlen, h.iBuckNums]
    exact Int.toNat_natCast n
  unfold IndexObject.fullFillValue
  rw [h.mustInit, ← hn]
  exact congrArg Except.ok (if_neg (not_not.mpr hlen))

theorem Ready.fullFillValue_rejects (h : o.Ready n) (mem : ChunkMemory T) {vecX : List T}
    (hlen : Int32.ofNat vecX.length ≠ o.m_stHead.iBuckNums) :
    o.fullFillValue mem vecX = .ok (1002, mem) := by
  unfold IndexObject.fullFillValue
  rw [h.mustInit]
  exact congrArg Except.ok (if_pos hlen)

end

end IndexObject

/-- A call that changes a table. -/
inductive IndexCall (T : Type)
  | add (sIndexkey : IndexKey) (indexNode : T)
  | delete (sIndexkey : IndexKey)
  | reset
  | fullFillValue (vecX : List T)

namespace IndexCall

section

variable {T : Type}

def run [ChunkType T] (o : IndexObject T) (mem : ChunkMemory T) :
    IndexCall T → Except IndexFault (Int32 × ChunkMemory T)
  | add sIndexkey indexNode => o.add mem sIndexkey indexNode
  | delete sIndexkey => o.delete mem sIndexkey
  | reset => o.reset mem
  | fullFillValue vecX => o.fullFillValue mem vecX

/-- What a call does to the bucket with index j of n: none is an empty bucket. -/
def touch (n j : Nat) (old : Option T) : IndexCall T → Option T
  | add sIndexkey indexNode => if sIndexkey.hash.toNat % n = j then some indexNode else old
  | delete sIndexkey => if sIndexkey.hash.toNat % n = j then none else old
  | reset => none
  | fullFillValue vecX => if vecX.length = n then vecX[j]? else old

/-- A Reset sweeps all buckets, and the size of a vector is not mistaken for their number. -/
def Plain (T : Type) [ChunkType T] (i : IndexInit) : IndexCall T → Prop
  | reset => i.Ends T
  | fullFillValue vecX =>
    Int32.ofNat vecX.length = i.iBuckNums T → vecX.length = (i.iBuckNums T).toInt.toNat
  | _ => True

end

end IndexCall

/-- The calls one after the other. -/
def runCalls {T : Type} [ChunkType T] (o : IndexObject T) (mem : ChunkMemory T) :
    List (IndexCall T) → Except IndexFault (ChunkMemory T)
  | [] => .ok mem
  | c :: calls => do
    let r ← c.run o mem
    runCalls o r.2 calls

/-- What the last call that touched a bucket has left in it. -/
def lastWrite {T : Type} (n j : Nat) (calls : List (IndexCall T)) : Option T :=
  calls.foldl (IndexCall.touch n j) none

/-- No int of an area is set. -/
def ChunkMemory.Zeroed {T : Type} (mem : ChunkMemory T) (p len : Int) : Prop :=
  ∀ q, p ≤ q → q < p + len → mem.word q = 0

section

variable {T : Type} [ChunkType T] {i : IndexInit} {o : IndexObject T} {now now' : UInt32}
variable {mem mem' : ChunkMemory T} {pCache : Int} {n : Nat}

/-- The same of the object that has been set up. -/
def IndexCall.Covers (o : IndexObject T) (n : Nat) : IndexCall T → Prop
  | reset => o.m_stHead.pPBucketsEnd = o.bucket (n - 1)
  | fullFillValue vecX => Int32.ofNat vecX.length = o.m_stHead.iBuckNums → vecX.length = n
  | _ => True

theorem IndexCall.Plain.covers (hpos : 0 < (i.iBuckNums T).toInt) {c : IndexCall T} (h : c.Plain T i) :
    c.Covers (i.run o now now' mem pCache).2.1 (i.iBuckNums T).toInt.toNat := by
  cases c with
  | add k v => trivial
  | delete k => trivial
  | reset => exact (IndexInit.run_ends_iff hpos).mpr h
  | fullFillValue vecX =>
    cases i with
    | byCacheSize len => exact h
    | byNodeCount count => exact h

/-- What a call leaves in every bucket. -/
theorem IndexCall.run_value (ho : o.Ready n) {c : IndexCall T} (hc : c.Covers o n)
    (mem : ChunkMemory T) :
    ∃ r, c.run o mem = .ok r ∧
      ∀ j, j < n → r.2.value (o.bucket j) = c.touch n j (mem.value (o.bucket j)) := by
  cases c with
  | add k v =>
    refine ⟨_, ho.add mem k v, fun j hj => ?_⟩
    unfold touch
    by_cases hkey : k.hash.toNat % n = j
    · simp only [hkey, if_true]
      exact ChunkMemory.value_place _ _ v
    · simp only [hkey, if_false]
      exact ChunkMemory.value_place_apart v (o.bucket_apart (Ne.symm hkey))
  | delete k =>
    refine ⟨_, ho.delete mem k, fun j hj => ?_⟩
    unfold touch
    by_cases hkey : k.hash.toNat % n = j
    · simp only [hkey, if_true]
      exact ChunkMemory.value_setInvalid _ _
    · simp only [hkey, if_false]
      exact ChunkMemory.value_setInvalid_apart 1 (o.bucket_apart (Ne.symm hkey))
  | reset =>
    refine ⟨_, ho.reset mem, fun j hj => ?_⟩
    have hend : o.m_stHead.pPBucketsEnd = o.bucket (n - 1) := hc
    rw [hend]
    exact IndexObject.resetLoop_value (n - 1) (by omega)
  | fullFillValue vecX =>
    have hlen : Int32.ofNat vecX.length = o.m_stHead.iBuckNums ↔ vecX.length = n := by
      refine ⟨hc, fun heq => ?_⟩
      rw [← Int32.toInt_inj, ho.iBuckNums, heq]
      exact Int32.toInt_ofNat_of_lt ho.lt
    by_cases heq : vecX.length = n
    · refine ⟨_, ho.fullFillValue_fits mem (hlen.mpr heq), fun j hj => ?_⟩
      have hsome : vecX[j]? = some vecX[j] := List.getElem?_eq_getElem (by omega)
      have htake : (vecX.take n)[j]? = some vecX[j] := by
        rw [List.getElem?_take_of_lt hj, hsome]
      unfold touch
      simp only [heq, if_true, hsome]
      exact IndexObject.fillLoop_value htake
    · refine ⟨_, ho.fullFillValue_rejects mem fun h => heq (hlen.mp h), fun j hj => ?_⟩
      unfold touch
      simp only [heq, if_false]

theorem runCalls_cons {c : IndexCall T} {r : Int32 × ChunkMemory T} (h : c.run o mem = .ok r)
    (calls : List (IndexCall T)) : runCalls o mem (c :: calls) = runCalls o r.2 calls := by
  show Except.bind (c.run o mem) _ = _
  rw [h]
  rfl

theorem IndexCall.run_ok (ho : o.Ready n) (mem : ChunkMemory T) (c : IndexCall T) :
    ∃ r, c.run o mem = .ok r := by
  cases c with
  | add k v => exact ⟨_, ho.add mem k v⟩
  | delete k => exact ⟨_, ho.delete mem k⟩
  | reset => exact ⟨_, ho.reset mem⟩
  | fullFillValue vecX =>
    by_cases hlen : Int32.ofNat vecX.length = o.m_stHead.iBuckNums
    · exact ⟨_, ho.fullFillValue_fits mem hlen⟩
    · exact ⟨_, ho.fullFillValue_rejects mem hlen⟩

theorem runCalls_ok (ho : o.Ready n) (calls : List (IndexCall T)) (mem : ChunkMemory T) :
    ∃ mem', runCalls o mem calls = .ok mem' := by
  induction calls generalizing mem with
  | nil => exact ⟨mem, rfl⟩
  | cons c calls ih =>
    obtain ⟨r, hr⟩ := IndexCall.run_ok ho mem c
    obtain ⟨mem', hrest⟩ := ih r.2
    exact ⟨mem', (runCalls_cons hr calls).trans hrest⟩

/-- What every call of a list keeps, the list keeps. -/
theorem runCalls_keeps {α : Type} {f : ChunkMemory T → α} (ho : o.Ready n) {calls : List (IndexCall T)}
    (hstep : ∀ c ∈ calls, ∀ mem r, c.run o mem = .ok r → f r.2 = f mem)
    {mem mem' : ChunkMemory T} (hr : runCalls o mem calls = .ok mem') : f mem' = f mem := by
  induction calls generalizing mem with
  | nil => cases Except.ok.inj hr; rfl
  | cons c calls ih =>
    obtain ⟨r, hfirst⟩ := IndexCall.run_ok ho mem c
    rw [runCalls_cons hfirst] at hr
    rw [ih (fun c' h => hstep c' (List.mem_cons_of_mem _ h)) hr]
    exact hstep c List.mem_cons_self mem r hfirst

/-- What some calls leave in every bucket. -/
theorem runCalls_value (ho : o.Ready n) {calls : List (IndexCall T)}
    (hc : ∀ c ∈ calls, IndexCall.Covers o n c) (mem : ChunkMemory T) :
    ∃ mem', runCalls o mem calls = .ok mem' ∧ ∀ j, j < n →
      mem'.value (o.bucket j) = calls.foldl (IndexCall.touch n j) (mem.value (o.bucket j)) := by
  induction calls generalizing mem with
  | nil => exact ⟨mem, rfl, fun j _ => rfl⟩
  | cons c calls ih =>
    obtain ⟨r, hr, hfirst⟩ := IndexCall.run_value ho (hc c List.mem_cons_self) mem
    obtain ⟨mem', hrest, hval⟩ := ih (fun c' h => hc c' (List.mem_cons_of_mem _ h)) r.2
    refine ⟨mem', (runCalls_cons hr calls).trans hrest, fun j hj => ?_⟩
    rw [hval j hj, hfirst j hj, List.foldl_cons]

theorem run_word {q : Int} (h : q < pCache ∨ pCache + 64 ≤ q) :
    (i.run o now now' mem pCache).2.2.word q = mem.word q := by
  rw [IndexInit.run_memory]
  exact ChunkMemory.memcpy_word _ _ h

theorem zeroed_iHasSet (hpos : 0 < (i.iBuckNums T).toInt)
    (hz : mem.Zeroed pCache (64 + (i.iBuckNums T).toInt * IndexObject.unit T)) {j : Nat}
    (hj : j < (i.iBuckNums T).toInt.toNat) :
    (i.run o now now' mem pCache).2.2.iHasSet ((i.run o now now' mem pCache).2.1.bucket j) = 0 := by
  have hunit := IndexObject.unit_pos (T := T)
  have hge := IndexObject.mul_unit_nonneg (T := T) j
  have hle := IndexObject.mul_unit_le (T := T) (by omega : (j : Int) < (i.iBuckNums T).toInt)
  unfold ChunkMemory.iHasSet IndexObject.bucket
  rw [IndexInit.run_pPucketsStart, run_word (Or.inr (by omega))]
  exact hz _ (by omega) (by omega)

/-- The buckets of a table set up over a zeroed area are empty. -/
theorem zeroed_value (hpos : 0 < (i.iBuckNums T).toInt)
    (hz : mem.Zeroed pCache (64 + (i.iBuckNums T).toInt * IndexObject.unit T)) {j : Nat}
    (hj : j < (i.iBuckNums T).toInt.toNat) :
    (i.run o now now' mem pCache).2.2.value ((i.run o now now' mem pCache).2.1.bucket j) = none :=
  ChunkMemory.value_of_not_occupied fun hocc => hocc.1 (zeroed_iHasSet hpos hz hj)

/-- Find of any key looks at a bucket of the table and finds there what the last call that touched the
bucket has left. -/
theorem index_history (o : IndexObject T) (now now' : UInt32) (mem : ChunkMemory T) (pCache : Int)
    (hpos : 0 < (i.iBuckNums T).toInt)
    (hz : mem.Zeroed pCache (64 + (i.iBuckNums T).toInt * IndexObject.unit T))
    (calls : List (IndexCall T)) (hplain : ∀ c ∈ calls, c.Plain T i) :
    ∃ mem', runCalls (i.run o now now' mem pCache).2.1 (i.run o now now' mem pCache).2.2 calls = .ok mem' ∧
      ∀ k, ∃ j, (i.run o now now' mem pCache).2.1.modToUint k = .ok j ∧
        0 ≤ j.toInt ∧ j.toInt < (i.iBuckNums T).toInt ∧
        ∀ indexNode, (i.run o now now' mem pCache).2.1.find mem' k indexNode =
          .ok (match lastWrite (i.iBuckNums T).toInt.toNat j.toInt.toNat calls with
            | some v => (0, v)
            | none => (1003, indexNode)) := by
  have hready : (i.run o now now' mem pCache).2.1.Ready _ := IndexInit.run_ready hpos
  obtain ⟨mem', hrun, hval⟩ := runCalls_value hready (fun c h => (hplain c h).covers hpos)
    (i.run o now now' mem pCache).2.2
  refine ⟨mem', hrun, fun k => ?_⟩
  obtain ⟨j, hmod, hj⟩ := hready.modToUint k
  have hlt := Nat.mod_lt k.hash.toNat hready.pos
  have hnat : j.toInt.toNat = k.hash.toNat % (i.iBuckNums T).toInt.toNat := by omega
  refine ⟨j, hmod, by omega, by omega, fun indexNode => ?_⟩
  rw [hready.find mem' k indexNode, hval _ hlt, zeroed_value hpos hz hlt, hnat]
  rfl

end

/-- A table of ints over zeroed memory. -/
def zeroedTable (i : IndexInit) : Int32 × IndexObject Int32 × ChunkMemory Int32 :=
  i.run (IndexObject.new Int32) 0 0 ⟨fun _ => 0, fun _ => 0⟩ 4096

/-- A string key with zeros behind it. -/
def zeroedKey (s : String) : IndexKey := .string (bytes s) fun _ => 0

/-- Of two buckets the second has been filled, emptied by the key a and filled again. -/
theorem index_history_sample :
    ∃ mem', runCalls (zeroedTable (.byNodeCount 2)).2.1 (zeroedTable (.byNodeCount 2)).2.2
        [.fullFillValue [3, 4], .delete (zeroedKey "a"), .reset, .add (zeroedKey "c") 9] = .ok mem' ∧
      (zeroedTable (.byNodeCount 2)).2.1.find mem' (zeroedKey "a") 0 = .ok (0, 9) ∧
      (zeroedTable (.byNodeCount 2)).2.1.find mem' (zeroedKey "b") 8 = .ok (1003, 8) := by
  have hplain : ∀ c ∈ [IndexCall.fullFillValue [3, 4], .delete (zeroedKey "a"), .reset, .add (zeroedKey "c") 9],
      c.Plain Int32 (.byNodeCount 2) := by
    intro c hc
    simp only [List.mem_cons, List.not_mem_nil, or_false] at hc
    rcases hc with rfl | rfl | rfl | rfl
    · intro _
      rfl
    · trivial
    · show (2 : Int32).toInt * IndexObject.unit Int32 < 2 ^ 31
      decide
    · trivial
  obtain ⟨mem', hrun, hfind⟩ := index_history (i := .byNodeCount 2) (IndexObject.new Int32) 0 0
    ⟨fun _ => 0, fun _ => 0⟩ 4096 (by decide) (fun _ _ _ => rfl) _ hplain
  refine ⟨mem', hrun, ?_, ?_⟩
  · obtain ⟨j, hmod, -, -, hval⟩ := hfind (zeroedKey "a")
    have hone : (zeroedTable (.byNodeCount 2)).2.1.modToUint (zeroedKey "a") = .ok 1 := by decide +kernel
    cases Except.ok.inj (hmod.symm.trans hone)
    exact hval 0
  · obtain ⟨j, hmod, -, -, hval⟩ := hfind (zeroedKey "b")
    have hzero : (zeroedTable (.byNodeCount 2)).2.1.modToUint (zeroedKey "b") = .ok 0 := by decide +kernel
    cases Except.ok.inj (hmod.symm.trans hzero)
    exact hval 8

/-- 59652324 buckets of 36 bytes take more than an int can count, and Reset stops at once. -/
theorem index_history_fails :
    lastWrite 59652324 0 [.add (zeroedKey "") 7, .reset] = (none : Option Int32) ∧
      ∃ mem', runCalls (zeroedTable (.byNodeCount 59652324)).2.1
          (zeroedTable (.byNodeCount 59652324)).2.2 [.add (zeroedKey "") 7, .reset] = .ok mem' ∧
        (zeroedTable (.byNodeCount 59652324)).2.1.modToUint (zeroedKey "") = .ok 0 ∧
        (zeroedTable (.byNodeCount 59652324)).2.1.find mem' (zeroedKey "") 0 = .ok (0, 7) := by
  have hready : (zeroedTable (.byNodeCount 59652324)).2.1.Ready 59652324 :=
    IndexInit.run_ready (i := .byNodeCount 59652324) (by decide)
  have hend : ¬(zeroedTable (.byNodeCount 59652324)).2.1.m_stHead.pPucketsStart ≤
      (zeroedTable (.byNodeCount 59652324)).2.1.m_stHead.pPBucketsEnd := by decide +kernel
  have hzero : (zeroedTable (.byNodeCount 59652324)).2.1.modToUint (zeroedKey "") = .ok 0 := by decide +kernel
  have hindex : (zeroedKey "").hash.toNat % 59652324 = 0 := by decide +kernel
  have hadd := hready.add (zeroedTable (.byNodeCount 59652324)).2.2 (zeroedKey "") 7
  rw [hindex] at hadd
  refine ⟨rfl, (zeroedTable (.byNodeCount 59652324)).2.2.place
    ((zeroedTable (.byNodeCount 59652324)).2.1.bucket 0) 7, ?_, hzero, ?_⟩
  · have hreset := hready.reset ((zeroedTable (.byNodeCount 59652324)).2.2.place
      ((zeroedTable (.byNodeCount 59652324)).2.1.bucket 0) 7)
    rw [IndexObject.resetLoop, if_neg hend] at hreset
    exact (runCalls_cons (c := .add (zeroedKey "") 7) hadd _).trans (runCalls_cons (c := .reset) hreset [])
  · rw [hready.find, hindex, ChunkMemory.value_place]

end NetioMiddleware
