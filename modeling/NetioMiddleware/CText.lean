import Mathlib.Data.Nat.Digits.Lemmas
import Mathlib.Data.List.TakeWhile
import NetioMiddleware.SortedMap

namespace NetioMiddleware

abbrev Bytes := List UInt8

/-- The bytes of an ASCII string literal. -/
def bytes (s : String) : Bytes := s.toList.map (fun c => UInt8.ofNat c.toNat)

/-- The string a char array holds: everything before its first NUL. -/
def cStr (b : Bytes) : Bytes := b.takeWhile (fun c => c ≠ 0)

/-- isspace in the C locale. -/
def isSpace (c : UInt8) : Bool := c ∈ bytes " \t\n\x0b\x0c\r"

def isDigit (c : UInt8) : Bool := 48 ≤ c ∧ c ≤ 57

def printNat (n : Nat) : Bytes :=
  if n = 0 then bytes "0" else (Nat.digits 10 n).reverse.map (fun d => UInt8.ofNat (48 + d))

/-- The conversion of %d, and of an int written to a stream. -/
def printInt (z : Int) : Bytes :=
  if z < 0 then 45 :: printNat z.natAbs else printNat z.natAbs

def digitsValue (s : Bytes) : Nat := s.foldl (fun acc c => 10 * acc + (c.toNat - 48)) 0

def signedValue : Bytes → Int
  | 45 :: r => -(digitsValue (r.takeWhile isDigit) : Int)
  | 43 :: r => digitsValue (r.takeWhile isDigit)
  | r => digitsValue (r.takeWhile isDigit)

/-- atoll: leading spaces, one optional sign, the longest run of digits, with
the result held at the ends of the long long range. -/
def atoll (s : Bytes) : Int :=
  max (-2 ^ 63) (min (signedValue (s.dropWhile isSpace)) (2 ^ 63 - 1))

theorem cStr_eq_self {b : Bytes} (h : 0 ∉ b) : cStr b = b := by
  apply List.takeWhile_eq_self_iff.mpr
  intro c hc
  simpa using fun h0 : c = 0 => h (h0 ▸ hc)

theorem cStr_no_nul (b : Bytes) : 0 ∉ cStr b := by
  intro h
  simpa using List.mem_takeWhile_imp h

theorem cStr_append_nul {b rest : Bytes} (h : 0 ∉ b) : cStr (b ++ 0 :: rest) = b := by
  have hb : ∀ c ∈ b, decide (c ≠ 0) = true := by
    intro c hc
    simpa using fun h0 : c = 0 => h (h0 ▸ hc)
  rw [cStr, List.takeWhile_append_of_pos hb, List.takeWhile_cons_of_neg (by simp), List.append_nil]

theorem digit_byte {d : Nat} (h : d < 10) :
    isDigit (UInt8.ofNat (48 + d)) = true ∧ (UInt8.ofNat (48 + d)).toNat - 48 = d := by
  have hv : (UInt8.ofNat (48 + d)).toNat = 48 + d := by
    rw [UInt8.toNat_ofNat']
    exact Nat.mod_eq_of_lt (by omega)
  refine ⟨?_, by omega⟩
  simp only [isDigit, UInt8.le_iff_toNat_le, hv, decide_eq_true_eq]
  refine ⟨?_, ?_⟩
  · change 48 ≤ 48 + d; omega
  · change 48 + d ≤ 57; omega

theorem printNat_digits {n : Nat} : ∀ c ∈ printNat n, isDigit c = true := by
  intro c hc
  unfold printNat at hc
  split at hc
  next =>
    rw [List.mem_singleton.mp hc]
    decide
  next =>
    obtain ⟨d, hd, rfl⟩ := List.mem_map.mp hc
    exact (digit_byte (Nat.digits_lt_base (by omega) (List.mem_reverse.mp hd))).1

theorem printNat_ne_nil (n : Nat) : printNat n ≠ [] := by
  unfold printNat
  split
  next => decide
  next hn => simpa using Nat.digits_ne_nil_iff_ne_zero.mpr hn

theorem digitsValue_printNat (n : Nat) : digitsValue (printNat n) = n := by
  unfold printNat
  split
  next hn => subst hn; decide
  next =>
    have step : ∀ l : List Nat, (∀ d ∈ l, d < 10) →
        digitsValue (l.reverse.map (fun d => UInt8.ofNat (48 + d))) = Nat.ofDigits 10 l := by
      intro l hl
      induction l with
      | nil => rfl
      | cons d l ih =>
        have hd := (digit_byte (hl d (by simp))).2
        have hl' := ih (fun x hx => hl x (List.mem_cons_of_mem d hx))
        unfold digitsValue at hl' ⊢
        simp only [List.reverse_cons, List.map_append, List.map_cons, List.map_nil,
          List.foldl_append, List.foldl_cons, List.foldl_nil, hl', hd, Nat.ofDigits_cons]
        omega
    rw [step _ (fun d hd => Nat.digits_lt_base (by omega) hd), Nat.ofDigits_digits]

theorem printNat_length {n k : Nat} (h : n < 10 ^ (k + 1)) : (printNat n).length ≤ k + 1 := by
  unfold printNat
  split
  next => simp [bytes]
  next => simpa using (Nat.digits_length_le_iff (by omega) n).mpr h

theorem digit_not_space {c : UInt8} (h : isDigit c = true) : isSpace c = false := by
  have spaces : (bytes " \t\n\x0b\x0c\r").all (fun x => !isDigit x) = true := by decide
  by_contra hs
  have hm : c ∈ bytes " \t\n\x0b\x0c\r" := by simpa [isSpace] using hs
  have hc := List.all_eq_true.mp spaces c hm
  rw [h] at hc
  contradiction

theorem digit_ne_sign {c : UInt8} (h : isDigit c = true) : c ≠ 45 ∧ c ≠ 43 := by
  constructor
  · rintro rfl; revert h; decide
  · rintro rfl; revert h; decide

theorem signedValue_digits {s : Bytes} (hs : ∀ c ∈ s, isDigit c = true) :
    signedValue s = digitsValue s := by
  have htake := List.takeWhile_eq_self_iff.mpr hs
  unfold signedValue
  split
  next => exact absurd rfl (digit_ne_sign (hs 45 (by simp))).1
  next => exact absurd rfl (digit_ne_sign (hs 43 (by simp))).2
  next => rw [htake]

theorem signedValue_printInt (z : Int) : signedValue (printInt z) = z := by
  have hdigits := printNat_digits (n := z.natAbs)
  have hval := digitsValue_printNat z.natAbs
  by_cases hz : z < 0
  · have hp : printInt z = 45 :: printNat z.natAbs := by simp [printInt, hz]
    rw [hp, signedValue, List.takeWhile_eq_self_iff.mpr hdigits, hval]
    omega
  · have hp : printInt z = printNat z.natAbs := by simp [printInt, hz]
    rw [hp, signedValue_digits hdigits, hval]
    omega

theorem printInt_ne_nil (z : Int) : printInt z ≠ [] := by
  unfold printInt
  split
  next => simp
  next => exact printNat_ne_nil _

theorem printInt_bytes {z : Int} {c : UInt8} (h : c ∈ printInt z) : c = 45 ∨ isDigit c = true := by
  unfold printInt at h
  split at h
  next => exact (List.mem_cons.mp h).imp_right (printNat_digits c)
  next => exact Or.inr (printNat_digits c h)

theorem printInt_not_space {z : Int} {c : UInt8} (h : c ∈ printInt z) : isSpace c = false := by
  rcases printInt_bytes h with rfl | h
  · decide
  · exact digit_not_space h

/-- Reading back a printed number recovers it. -/
theorem atoll_printInt {z : Int} (lo : -2 ^ 63 ≤ z) (hi : z < 2 ^ 63) : atoll (printInt z) = z := by
  obtain ⟨c, rest, hc⟩ := List.exists_cons_of_ne_nil (printInt_ne_nil z)
  have hsp : isSpace c = false := printInt_not_space (z := z) (by simp [hc])
  have hdrop : (printInt z).dropWhile isSpace = printInt z := by
    rw [hc, List.dropWhile_cons_of_neg (by simp [hsp])]
  rw [atoll, hdrop, signedValue_printInt]
  omega

theorem printInt_length {z : Int} {k : Nat} (h : z.natAbs < 10 ^ (k + 1)) :
    (printInt z).length ≤ k + 2 := by
  have := printNat_length h
  unfold printInt
  split
  · simpa using this
  · omega

end NetioMiddleware
