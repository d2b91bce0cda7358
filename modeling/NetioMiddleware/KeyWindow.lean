import Mathlib.Data.List.Basic
import NetioMiddleware.IndexHistory

namespace NetioMiddleware

theorem hashSum_congr {behind behind' : Bytes → Nat → UInt8} {nodeKey : Bytes}
    (h : ∀ i, i < 9 → charAt behind nodeKey i = charAt behind' nodeKey i) :
    hashSum behind nodeKey = hashSum behind' nodeKey := by
  unfold hashSum
  apply List.foldl_ext
  intro sum i hi
  rw [h i (List.mem_range.mp hi)]

/-- The nine characters of a key of at least eight do not go past its NUL. -/
theorem hash_string_long {chars : Bytes} (h : 8 ≤ chars.length) (behind behind' : Nat → UInt8) :
    (IndexKey.string chars behind).hash = (IndexKey.string chars behind').hash := by
  apply hashSum_congr
  intro i hi
  unfold charAt
  by_cases hlt : i < chars.length
  · rw [if_pos hlt, if_pos hlt]
  · have heq : i = chars.length := by omega
    rw [if_neg hlt, if_neg hlt, if_pos heq, if_pos heq]

/-- Memory behind a key that is zero but for the ninth character the hash reads. -/
def ninth (chars : Bytes) (b : UInt8) (m : Nat) : UInt8 := if m = 7 - chars.length then b else 0

theorem charAt_ninth {chars : Bytes} (h : chars.length < 8) (b : UInt8) :
    charAt (fun _ => ninth chars b) chars 8 = b := by
  unfold charAt
  rw [if_neg (by omega), if_neg (by omega)]
  exact if_pos (by omega)

theorem charAt_before_ninth {chars : Bytes} (b : UInt8) {i : Nat} (hi : i < 8) :
    charAt (fun _ => ninth chars b) chars i = charAt (fun _ => ninth chars 0) chars i := by
  unfold charAt
  by_cases hlt : i < chars.length
  · rw [if_pos hlt, if_pos hlt]
  by_cases heq : i = chars.length
  · rw [if_neg hlt, if_neg hlt, if_pos heq, if_pos heq]
  · have hne : i - chars.length - 1 ≠ 7 - chars.length := by omega
    rw [if_neg hlt, if_neg hlt, if_neg heq, if_neg heq]
    exact (if_neg hne).trans (if_neg hne).symm

theorem hash_ninth {chars : Bytes} (h : chars.length < 8) (b : UInt8) :
    (IndexKey.string chars (ninth chars b)).hash =
      (IndexKey.string chars (ninth chars 0)).hash + UInt64.ofInt b.toInt8.toInt := by
  have hrange : List.range 9 = List.range 8 ++ [8] := rfl
  have hfold : ∀ c : UInt8,
      (List.range 8).foldl (fun sum i =>
        sum + UInt64.ofInt (charAt (fun _ => ninth chars c) chars i).toInt8.toInt) 0 =
      (List.range 8).foldl (fun sum i =>
        sum + UInt64.ofInt (charAt (fun _ => ninth chars 0) chars i).toInt8.toInt) 0 := by
    intro c
    apply List.foldl_ext
    intro sum i hi
    rw [charAt_before_ninth c (List.mem_range.mp hi)]
  have hzero : UInt64.ofInt (0 : UInt8).toInt8.toInt = 0 := by decide
  unfold IndexKey.hash hashSum
  dsimp only
  rw [hrange, List.foldl_append, List.foldl_append, hfold b]
  simp only [List.foldl_cons, List.foldl_nil, charAt_ninth h]
  rw [hzero, UInt64.add_zero]

/-- Of three numbers in a row two have different remainders, whether or not the sum wraps. -/
theorem mod_differs {n : Nat} (hn : 2 ≤ n) (x : UInt64) :
    x.toNat % n ≠ (x + 1).toNat % n ∨ (x + 1).toNat % n ≠ (x + 2).toNat % n := by
  have hx := x.toNat_lt
  have hone : (x + 1).toNat = (x.toNat + 1) % 2 ^ 64 := UInt64.toNat_add x 1
  have htwo : (x + 2).toNat = (x.toNat + 2) % 2 ^ 64 := UInt64.toNat_add x 2
  have hsucc : ∀ m : Nat, m % n ≠ (m + 1) % n := by
    intro m hm
    have hdvd := (Nat.modEq_iff_dvd' (Nat.le_succ m)).mp hm
    rw [Nat.succ_sub (Nat.le_refl m), Nat.sub_self] at hdvd
    have hle := Nat.le_of_dvd (by omega) hdvd
    omega
  rcases Nat.lt_or_ge (x.toNat + 1) (2 ^ 64) with hlt | hge
  · left
    rw [hone, Nat.mod_eq_of_lt hlt]
    exact hsucc x.toNat
  · right
    have h0 : (x + 1).toNat = 0 := by omega
    have h1 : (x + 2).toNat = 0 + 1 := by omega
    rw [h0, h1]
    exact hsucc 0

section

variable {T : Type} {o : IndexObject T} {n : Nat}

theorem modToUint_inj (ho : o.Ready n) {k k' : IndexKey} (h : o.modToUint k = o.modToUint k') :
    k.hash.toNat % n = k'.hash.toNat % n := by
  obtain ⟨i, hi, hval⟩ := ho.modToUint k
  obtain ⟨i', hi', hval'⟩ := ho.modToUint k'
  have heq := Except.ok.inj (hi.symm.trans (h.trans hi'))
  rw [heq] at hval
  omega

theorem modToUint_congr (ho : o.Ready n) {k k' : IndexKey}
    (h : k.hash.toNat % n = k'.hash.toNat % n) : o.modToUint k = o.modToUint k' := by
  obtain ⟨i, hi, hval⟩ := ho.modToUint k
  obtain ⟨i', hi', hval'⟩ := ho.modToUint k'
  rw [hi, hi', Int32.toInt_inj.mp (hval.trans (h ▸ hval'.symm))]

end

section

variable {T : Type} [ChunkType T] {o : IndexObject T} {n : Nat}

/-- Whether the bucket of a string goes by its characters alone: exactly if it has at least eight of them
or there is only one bucket. -/
theorem string_bucket_iff (ho : o.Ready n) (chars : Bytes) :
    (∀ behind behind' : Nat → UInt8,
      o.modToUint (.string chars behind) = o.modToUint (.string chars behind') ∧
      ∀ (mem : ChunkMemory T) (v indexNode : T), ∃ mem', o.add mem (.string chars behind) v = .ok (0, mem') ∧
        o.find mem' (.string chars behind') indexNode = .ok (0, v)) ↔
    8 ≤ chars.length ∨ n = 1 := by
  constructor
  · intro h
    by_contra hcon
    have hshort : chars.length < 8 := by omega
    have hn := ho.pos
    have hsame : ∀ b c : UInt8, (IndexKey.string chars (ninth chars b)).hash.toNat % n =
        (IndexKey.string chars (ninth chars c)).hash.toNat % n :=
      fun b c => modToUint_inj ho (h (ninth chars b) (ninth chars c)).1
    have hone := hash_ninth hshort 1
    have htwo := hash_ninth hshort 2
    rw [show UInt64.ofInt (1 : UInt8).toInt8.toInt = 1 by decide] at hone
    rw [show UInt64.ofInt (2 : UInt8).toInt8.toInt = 2 by decide] at htwo
    rcases mod_differs (by omega : 2 ≤ n) (IndexKey.string chars (ninth chars 0)).hash with hne | hne
    · rw [← hone] at hne
      exact hne (hsame 0 1)
    · rw [← hone, ← htwo] at hne
      exact hne (hsame 1 2)
  · intro h behind behind'
    have hindex : (IndexKey.string chars behind).hash.toNat % n =
        (IndexKey.string chars behind').hash.toNat % n := by
      rcases h with hlong | rfl
      · rw [hash_string_long hlong behind behind']
      · rw [Nat.mod_one, Nat.mod_one]
    refine ⟨modToUint_congr ho hindex, fun mem v indexNode => ⟨_, ho.add mem _ v, ?_⟩⟩
    rw [ho.find, ← hindex, ChunkMemory.value_place]

end

/-- With two buckets the byte behind the NUL of c1_7 counts. -/
theorem string_bucket_differs :
    (zeroedTable (.byNodeCount 2)).2.1.modToUint (.string (bytes "c1_7") (fun _ => 0)) = .ok 0 ∧
      (zeroedTable (.byNodeCount 2)).2.1.modToUint
        (.string (bytes "c1_7") (fun m => if m = 0 then 1 else 0)) = .ok 1 := by
  decide +kernel

theorem string_bucket_iff_sample :
    (zeroedTable (.byNodeCount 100)).2.1.modToUint (.string (bytes "c1_12345") (fun _ => 0)) =
      (zeroedTable (.byNodeCount 100)).2.1.modToUint (.string (bytes "c1_12345") (fun _ => 1)) := by
  have hready : (zeroedTable (.byNodeCount 100)).2.1.Ready 100 :=
    IndexInit.run_ready (i := .byNodeCount 100) (by decide)
  exact ((string_bucket_iff hready (bytes "c1_12345")).mpr (Or.inl (by decide)) _ _).1

end NetioMiddleware
