import Mathlib.Data.List.Sort
import Mathlib.Data.List.Lex

namespace NetioMiddleware

instance linearOrderUInt8 : LinearOrder UInt8 where
  le_refl := UInt8.le_refl
  le_trans _ _ _ := UInt8.le_trans
  le_antisymm _ _ := UInt8.le_antisymm
  le_total := UInt8.le_total
  lt_iff_le_not_ge a b := by
    simp only [UInt8.le_iff_toNat_le, UInt8.lt_iff_toNat_lt]
    omega
  toDecidableLE a b := inferInstance

instance linearOrderInt32 : LinearOrder Int32 where
  le_refl := Int32.le_refl
  le_trans _ _ _ := Int32.le_trans
  le_antisymm _ _ := Int32.le_antisymm
  le_total := Int32.le_total
  lt_iff_le_not_ge a b := by
    simp only [Int32.le_iff_toInt_le, Int32.lt_iff_toInt_lt]
    omega
  toDecidableLE a b := inferInstance

/-- An ordered map kept as its entries in strictly increasing key order, so
that walking the entries is walking the keys from the least upwards. -/
structure SortedMap (κ α : Type) [LinearOrder κ] where
  entries : List (κ × α)
  sorted : entries.Pairwise (fun x y => x.1 < y.1)

def assignEntry {κ α : Type} [LinearOrder κ] (k : κ) (v : α) : List (κ × α) → List (κ × α)
  | [] => [(k, v)]
  | e :: rest =>
    if k < e.1 then (k, v) :: e :: rest
    else if k = e.1 then (k, v) :: rest
    else e :: assignEntry k v rest

section

variable {κ α : Type} [LinearOrder κ]

theorem assignEntry_mem {k : κ} {v : α} {l : List (κ × α)} {e : κ × α}
    (h : e ∈ assignEntry k v l) : e = (k, v) ∨ e ∈ l := by
  induction l with
  | nil => simpa [assignEntry] using h
  | cons d rest ih =>
    simp only [assignEntry] at h
    split at h
    next => exact List.mem_cons.mp h
    next =>
      split at h
      next => exact (List.mem_cons.mp h).imp_right (List.mem_cons_of_mem d)
      next =>
        rcases List.mem_cons.mp h with rfl | h
        · exact Or.inr (by simp)
        · exact (ih h).imp_right (List.mem_cons_of_mem d)

theorem assignEntry_sorted {k : κ} {v : α} {l : List (κ × α)}
    (hs : l.Pairwise (fun x y => x.1 < y.1)) :
    (assignEntry k v l).Pairwise (fun x y => x.1 < y.1) := by
  induction l with
  | nil => simp [assignEntry]
  | cons d rest ih =>
    obtain ⟨hd, hrest⟩ := List.pairwise_cons.mp hs
    simp only [assignEntry]
    split
    next hlt =>
      refine List.pairwise_cons.mpr ⟨?_, hs⟩
      intro e he
      rcases List.mem_cons.mp he with rfl | he
      · exact hlt
      · exact lt_trans hlt (hd e he)
    next hge =>
      split
      next heq => exact List.pairwise_cons.mpr ⟨fun e he => heq ▸ hd e he, hrest⟩
      next hne =>
        refine List.pairwise_cons.mpr ⟨?_, ih hrest⟩
        intro e he
        rcases assignEntry_mem he with rfl | he
        · exact lt_of_le_of_ne (not_lt.mp hge) (Ne.symm hne)
        · exact hd e he

theorem assignEntry_mem_iff {k : κ} {v : α} {l : List (κ × α)} {e : κ × α}
    (hs : l.Pairwise (fun x y => x.1 < y.1)) :
    e ∈ assignEntry k v l ↔ e = (k, v) ∨ (e.1 ≠ k ∧ e ∈ l) := by
  induction l with
  | nil => simp [assignEntry]
  | cons d rest ih =>
    obtain ⟨hd, hrest⟩ := List.pairwise_cons.mp hs
    simp only [assignEntry]
    split
    next hlt =>
      have hne : ∀ x ∈ d :: rest, x.1 ≠ k := by
        intro x hx
        rcases List.mem_cons.mp hx with rfl | hx
        · exact ne_of_gt hlt
        · exact ne_of_gt (lt_trans hlt (hd x hx))
      simp only [List.mem_cons (b := (k, v))]
      exact or_congr_right ⟨fun h => ⟨hne e h, h⟩, And.right⟩
    next =>
      split
      next heq =>
        have hne : ∀ x ∈ rest, x.1 ≠ k := fun x hx => heq ▸ ne_of_gt (hd x hx)
        have hmem : (e.1 ≠ k ∧ e ∈ d :: rest) ↔ e ∈ rest := by
          constructor
          · rintro ⟨hk, he⟩
            exact (List.mem_cons.mp he).resolve_left (fun h => hk (by rw [h, heq]))
          · exact fun he => ⟨hne e he, List.mem_cons_of_mem d he⟩
        rw [List.mem_cons, hmem]
      next hne =>
        rw [List.mem_cons, ih hrest, List.mem_cons]
        constructor
        · rintro (rfl | rfl | ⟨hk, he⟩)
          · exact Or.inr ⟨Ne.symm hne, Or.inl rfl⟩
          · exact Or.inl rfl
          · exact Or.inr ⟨hk, Or.inr he⟩
        · rintro (rfl | ⟨hk, rfl | he⟩)
          · exact Or.inr (Or.inl rfl)
          · exact Or.inl rfl
          · exact Or.inr (Or.inr ⟨hk, he⟩)

end

/-- The value of the first binding of a key in a list of bindings. -/
def firstValue {κ α : Type} [LinearOrder κ] (k : κ) : List (κ × α) → Option α
  | [] => none
  | e :: rest => if e.1 = k then some e.2 else firstValue k rest

section

variable {κ α : Type} [LinearOrder κ]

theorem firstValue_append (k : κ) (l l' : List (κ × α)) :
    firstValue k (l ++ l') = (firstValue k l).or (firstValue k l') := by
  induction l with
  | nil => simp [firstValue]
  | cons e l ih =>
    by_cases hk : e.1 = k
    · simp [firstValue, hk]
    · simp [firstValue, hk, ih]

theorem firstValue_eq_none_iff {k : κ} {l : List (κ × α)} :
    firstValue k l = none ↔ ∀ e ∈ l, e.1 ≠ k := by
  induction l with
  | nil => simp [firstValue]
  | cons e l ih =>
    by_cases hk : e.1 = k
    · simp [firstValue, hk]
    · simp [firstValue, hk, ih]

theorem firstValue_mem {k : κ} {v : α} {l : List (κ × α)} (h : firstValue k l = some v) :
    (k, v) ∈ l := by
  induction l with
  | nil => contradiction
  | cons e l ih =>
    rw [firstValue] at h
    split at h
    next hk => cases Option.some.inj h; simp [← hk]
    next => exact List.mem_cons_of_mem e (ih h)

theorem firstValue_eq_some_iff {l : List (κ × α)} (hkeys : (l.map Prod.fst).Nodup) {k : κ} {v : α} :
    firstValue k l = some v ↔ (k, v) ∈ l := by
  refine ⟨firstValue_mem, ?_⟩
  intro h
  cases hf : firstValue k l with
  | none => exact absurd rfl (firstValue_eq_none_iff.mp hf (k, v) h)
  | some w =>
    have hsame := List.inj_on_of_nodup_map hkeys (firstValue_mem hf) h rfl
    rw [(Prod.mk.inj hsame).2]

end

namespace SortedMap

variable {κ α : Type} [LinearOrder κ]

def empty : SortedMap κ α := ⟨[], List.Pairwise.nil⟩

def find? (m : SortedMap κ α) (k : κ) : Option α := firstValue k m.entries

/-- Overwrite or create the entry of a key. -/
def assign (m : SortedMap κ α) (k : κ) (v : α) : SortedMap κ α :=
  ⟨assignEntry k v m.entries, assignEntry_sorted m.sorted⟩

/-- Create the entry of a key unless the key is bound already. -/
def insert (m : SortedMap κ α) (k : κ) (v : α) : SortedMap κ α :=
  if (m.find? k).isSome then m else m.assign k v

def erase (m : SortedMap κ α) (k : κ) : SortedMap κ α :=
  ⟨m.entries.filter (fun e => e.1 ≠ k), m.sorted.filter _⟩

def insertAll (m : SortedMap κ α) (l : List (κ × α)) : SortedMap κ α :=
  l.foldl (fun m e => m.insert e.1 e.2) m

def eraseAll (m : SortedMap κ α) (ks : List κ) : SortedMap κ α :=
  ks.foldl erase m

theorem entries_key_injective (m : SortedMap κ α) {x y : κ × α}
    (hx : x ∈ m.entries) (hy : y ∈ m.entries) (hk : x.1 = y.1) : x = y := by
  obtain ⟨i, hi, rfl⟩ := List.mem_iff_getElem.mp hx
  obtain ⟨j, hj, rfl⟩ := List.mem_iff_getElem.mp hy
  have ordered := List.pairwise_iff_getElem.mp m.sorted
  rcases lt_trichotomy i j with hij | rfl | hij
  · exact absurd hk (ne_of_lt (ordered i j hi hj hij))
  · rfl
  · exact absurd hk.symm (ne_of_lt (ordered j i hj hi hij))

theorem find?_eq_none_iff {m : SortedMap κ α} {k : κ} :
    m.find? k = none ↔ ∀ e ∈ m.entries, e.1 ≠ k :=
  firstValue_eq_none_iff

theorem find?_eq_some_iff {m : SortedMap κ α} {k : κ} {v : α} :
    m.find? k = some v ↔ (k, v) ∈ m.entries := by
  constructor
  · exact firstValue_mem
  · intro h
    cases hf : m.find? k with
    | none => exact absurd rfl (find?_eq_none_iff.mp hf (k, v) h)
    | some w => exact congrArg (fun e => some e.2) (m.entries_key_injective (firstValue_mem hf) h rfl)

theorem entries_nodup (m : SortedMap κ α) : m.entries.Nodup :=
  m.sorted.imp (fun hlt heq => absurd (congrArg Prod.fst heq) (ne_of_lt hlt))

/-- Two maps with the same lookups have the same entries in the same order. -/
theorem ext_find? {m m' : SortedMap κ α} (h : ∀ k, m.find? k = m'.find? k) : m = m' := by
  have mem : ∀ e, e ∈ m.entries ↔ e ∈ m'.entries := by
    intro e
    rw [← find?_eq_some_iff (k := e.1) (v := e.2), h, find?_eq_some_iff]
  have perm := (List.perm_ext_iff_of_nodup m.entries_nodup m'.entries_nodup).mpr mem
  have eq := perm.eq_of_pairwise (fun _ _ _ _ hab hba => absurd hab (lt_asymm hba))
    m.sorted m'.sorted
  cases m; cases m'
  simpa using eq

@[simp] theorem find?_empty (k : κ) : (empty : SortedMap κ α).find? k = none := rfl

theorem find?_assign (m : SortedMap κ α) (k k' : κ) (v : α) :
    (m.assign k v).find? k' = if k' = k then some v else m.find? k' := by
  apply Option.ext
  intro w
  rw [find?_eq_some_iff]
  simp only [assign]
  rw [assignEntry_mem_iff m.sorted]
  by_cases hk : k' = k
  · simp [hk, eq_comm]
  · simp [hk, find?_eq_some_iff]

theorem find?_erase (m : SortedMap κ α) (k k' : κ) :
    (m.erase k).find? k' = if k' = k then none else m.find? k' := by
  apply Option.ext
  intro w
  rw [find?_eq_some_iff]
  by_cases hk : k' = k
  · simp [erase, hk]
  · simp [erase, hk, find?_eq_some_iff]

/-- A new key adds one entry. -/
theorem assign_entries_perm {m : SortedMap κ α} {k : κ} (h : m.find? k = none) (v : α) :
    (m.assign k v).entries.Perm ((k, v) :: m.entries) := by
  have habsent := find?_eq_none_iff.mp h
  have hnew : ((k, v) :: m.entries).Nodup :=
    List.nodup_cons.mpr ⟨fun hm => habsent _ hm rfl, m.entries_nodup⟩
  refine (List.perm_ext_iff_of_nodup (m.assign k v).entries_nodup hnew).mpr fun e => ?_
  rw [List.mem_cons]
  refine (assignEntry_mem_iff m.sorted).trans (or_congr_right ?_)
  exact ⟨And.right, fun he => ⟨habsent e he, he⟩⟩

/-- A bound key takes one entry away. -/
theorem erase_entries_perm {m : SortedMap κ α} {k : κ} {v : α} (h : m.find? k = some v) :
    m.entries.Perm ((k, v) :: (m.erase k).entries) := by
  have hmem := find?_eq_some_iff.mp h
  have habsent : ∀ e ∈ (m.erase k).entries, e.1 ≠ k := by
    intro e he
    simpa using (List.mem_filter.mp he).2
  have hnew : ((k, v) :: (m.erase k).entries).Nodup :=
    List.nodup_cons.mpr ⟨fun hm => habsent _ hm rfl, (m.erase k).entries_nodup⟩
  refine (List.perm_ext_iff_of_nodup m.entries_nodup hnew).mpr fun e => ?_
  rw [List.mem_cons]
  constructor
  · intro he
    by_cases hk : e.1 = k
    · exact Or.inl (m.entries_key_injective he hmem hk)
    · exact Or.inr (List.mem_filter.mpr ⟨he, by simpa using hk⟩)
  · rintro (rfl | he)
    · exact hmem
    · exact (List.mem_filter.mp he).1

theorem find?_insert (m : SortedMap κ α) (k k' : κ) (v : α) :
    (m.insert k v).find? k' = (m.find? k').or (if k' = k then some v else none) := by
  unfold insert
  split
  next h =>
    obtain ⟨w, hw⟩ := Option.isSome_iff_exists.mp h
    by_cases hk : k' = k
    · simp [hk, hw]
    · simp [hk]
  next h =>
    have hn : m.find? k = none := by simpa using h
    rw [find?_assign]
    by_cases hk : k' = k
    · simp [hk, hn]
    · simp [hk]

theorem find?_insertAll (m : SortedMap κ α) (l : List (κ × α)) (k : κ) :
    (m.insertAll l).find? k = (m.find? k).or (firstValue k l) := by
  induction l generalizing m with
  | nil => simp [insertAll, firstValue]
  | cons e l ih =>
    change ((m.insert e.1 e.2).insertAll l).find? k = _
    rw [ih, find?_insert, firstValue]
    by_cases hk : e.1 = k
    · subst hk
      cases m.find? e.1 <;> simp
    · cases m.find? k <;> simp [hk, Ne.symm hk]

theorem insertAll_append (m : SortedMap κ α) (l l' : List (κ × α)) :
    m.insertAll (l ++ l') = (m.insertAll l).insertAll l' :=
  List.foldl_append

theorem empty_insertAll_entries (m : SortedMap κ α) : empty.insertAll m.entries = m := by
  apply ext_find?
  intro k
  rw [find?_insertAll, find?_empty, Option.none_or, find?]

theorem find?_eraseAll (m : SortedMap κ α) (ks : List κ) (k : κ) :
    (m.eraseAll ks).find? k = if k ∈ ks then none else m.find? k := by
  induction ks generalizing m with
  | nil => simp [eraseAll]
  | cons a ks ih =>
    change ((m.erase a).eraseAll ks).find? k = _
    rw [ih, find?_erase]
    by_cases hk : k = a <;> by_cases hks : k ∈ ks <;> simp [hk, hks]

end SortedMap

end NetioMiddleware
