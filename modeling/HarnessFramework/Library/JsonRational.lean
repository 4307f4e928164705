import HarnessFramework.Library.JsonParse
import Mathlib.Algebra.Order.Field.Power
import Mathlib.Tactic.Ring

/-!
# Numbers and their values

A number is written with no zero at either end, so its value determines it.

## Main results

* `JsonNumber.toRat_injective` — numbers with one value are one
* `JsonNumber.toRat_ofNat` — the value of a natural number
-/

namespace HarnessFramework

namespace JsonNumber

/-! ### The number that digits write -/

theorem natOf_append_singleton (ds : List (Fin 10)) (d : Fin 10) :
    natOf (ds ++ [d]) = 10 * natOf ds + d := by
  simp only [natOf, List.map_append, List.map_singleton, List.reverse_append, List.reverse_singleton,
    List.singleton_append, Nat.ofDigits_cons]
  omega

theorem natOf_append_zeros (ds : List (Fin 10)) (b : ℕ) :
    natOf (ds ++ List.replicate b 0) = natOf ds * 10 ^ b := by
  induction b with
  | zero => simp
  | succ b ih =>
    rw [List.replicate_succ', ← List.append_assoc, natOf_append_singleton, ih]
    simp only [Fin.val_zero]
    ring

/-- Digits that do not start with a zero are those of the number they write. -/
theorem natDigits_natOf {ds : List (Fin 10)} (h : ds.head? ≠ some 0) : natDigits (natOf ds) = ds := by
  have hdigits : Nat.digits 10 (natOf ds) = (ds.map Fin.val).reverse := by
    refine Nat.digits_ofDigits 10 (by decide) _ ?_ ?_
    · intro l hl
      obtain ⟨d, -, rfl⟩ := List.mem_map.mp (List.mem_reverse.mp hl)
      exact d.isLt
    · intro hne hlast
      rw [List.getLast_reverse] at hlast
      cases ds with
      | nil => exact hne rfl
      | cons d ds =>
        refine h (congrArg some (Fin.ext ?_))
        simpa using hlast
  have hval : (Fin.ofNat 10 ∘ Fin.val : Fin 10 → Fin 10) = id := by
    funext d
    simp
  rw [natDigits, hdigits, List.reverse_reverse, List.map_map, hval, List.map_id]

/-- Digits that do not end with a zero write a number that ten does not divide. -/
theorem natOf_mod_ten {ds : List (Fin 10)} (hne : ds ≠ []) (h : ds.getLast? ≠ some 0) :
    natOf ds % 10 ≠ 0 := by
  obtain ⟨front, d, rfl⟩ := (List.eq_nil_or_concat ds).resolve_left hne
  rw [List.concat_eq_append] at h ⊢
  have hd : (d : ℕ) ≠ 0 := fun hzero => h (by simp [Fin.ext_iff, hzero])
  have hlt := d.isLt
  rw [natOf_append_singleton]
  omega

/-! ### Values -/

/-- The mantissa and the exponent of a power of ten are determined by the value. -/
theorem eq_of_mul_zpow_eq {m n : ℕ} {p q : ℤ} (hm : m % 10 ≠ 0) (hn : n % 10 ≠ 0)
    (h : (m : ℚ) * 10 ^ p = n * 10 ^ q) : m = n ∧ p = q := by
  wlog hle : p ≤ q generalizing m n p q
  · obtain ⟨hmn, hpq⟩ := this hn hm h.symm (by omega)
    exact ⟨hmn.symm, hpq.symm⟩
  obtain ⟨k, rfl⟩ : ∃ k : ℕ, q = p + k := ⟨(q - p).toNat, by omega⟩
  have hten : (10 : ℚ) ^ p ≠ 0 := zpow_ne_zero _ (by norm_num)
  have hmul : (m : ℚ) = n * 10 ^ k := by
    rw [zpow_add₀ (by norm_num), zpow_natCast, ← mul_assoc, mul_right_comm] at h
    exact mul_right_cancel₀ hten h
  have hnat : m = n * 10 ^ k := by exact_mod_cast hmul
  cases k with
  | zero => exact ⟨by simpa using hnat, by simp⟩
  | succ k =>
    rw [pow_succ, ← mul_assoc] at hnat
    omega

theorem magnitude_nonneg (ds : List (Fin 10)) (p : ℤ) : (0 : ℚ) ≤ natOf ds * 10 ^ p :=
  mul_nonneg (Nat.cast_nonneg _) (zpow_nonneg (by norm_num) p)

/-- The value of a number without its sign. -/
theorem abs_toRat (x : JsonNumber) :
    |x.toRat| = natOf x.digits * 10 ^ (x.exponent - x.digits.length) := by
  have hpos := magnitude_nonneg x.digits (x.exponent - x.digits.length)
  rw [toRat]
  cases x.negative
  · rw [if_neg (by simp), one_mul, abs_of_nonneg hpos]
  · rw [if_pos rfl, neg_one_mul, neg_mul, abs_neg, abs_of_nonneg hpos]

theorem natOf_pos {ds : List (Fin 10)} (hne : ds ≠ []) (h : ds.getLast? ≠ some 0) : 0 < natOf ds := by
  have hmod := natOf_mod_ten hne h
  omega

theorem toRat_eq_zero_iff {x : JsonNumber} : x.toRat = 0 ↔ x.digits = [] := by
  rw [← abs_eq_zero, abs_toRat]
  constructor
  · intro h
    by_contra hne
    have hpos := natOf_pos hne x.last_ne
    have hten : (10 : ℚ) ^ (x.exponent - x.digits.length) ≠ 0 := zpow_ne_zero _ (by norm_num)
    rcases mul_eq_zero.mp h with hzero | hzero
    · have : natOf x.digits = 0 := by exact_mod_cast hzero
      omega
    · exact hten hzero
  · intro h
    rw [h]
    simp [natOf]

/-- A number is negative when its value is. -/
theorem negative_iff {x : JsonNumber} : x.negative = true ↔ x.toRat < 0 := by
  have hpos := magnitude_nonneg x.digits (x.exponent - x.digits.length)
  constructor
  · intro h
    have hne : x.toRat ≠ 0 := fun hzero => by
      have hsign := (x.zero (toRat_eq_zero_iff.mp hzero)).1
      rw [h] at hsign
      cases hsign
    refine lt_of_le_of_ne ?_ hne
    rw [toRat, if_pos h, neg_one_mul, neg_mul]
    exact neg_nonpos.mpr hpos
  · intro h
    rw [← Bool.not_eq_false]
    intro hfalse
    rw [toRat, if_neg (by simp [hfalse]), one_mul] at h
    exact absurd h (not_lt.mpr hpos)

/-- **The value of a number determines it.** -/
theorem toRat_injective : Function.Injective toRat := by
  intro x y h
  have hsign : x.negative = y.negative := Bool.eq_iff_iff.mpr (by rw [negative_iff, negative_iff, h])
  by_cases hzero : x.toRat = 0
  · have hx := toRat_eq_zero_iff.mp hzero
    have hy := toRat_eq_zero_iff.mp (h ▸ hzero)
    exact ext_parts hsign (hx.trans hy.symm) ((x.zero hx).2.trans (y.zero hy).2.symm)
  · have hx : x.digits ≠ [] := fun hnil => hzero (toRat_eq_zero_iff.mpr hnil)
    have hy : y.digits ≠ [] := fun hnil => hzero (h.trans (toRat_eq_zero_iff.mpr hnil))
    have habs := congrArg abs h
    rw [abs_toRat, abs_toRat] at habs
    obtain ⟨hmantissa, hpower⟩ :=
      eq_of_mul_zpow_eq (natOf_mod_ten hx x.last_ne) (natOf_mod_ten hy y.last_ne) habs
    have hdigits : x.digits = y.digits := by
      rw [← natDigits_natOf x.head_ne, hmantissa, natDigits_natOf y.head_ne]
    refine ext_parts hsign hdigits ?_
    rw [hdigits] at hpower
    omega

/-- The value of a number that is written with the digits of a natural number. -/
theorem toRat_ofParts (n : ℕ) (point : ℤ) :
    (ofParts false (natDigits n) point).toRat = n * 10 ^ (point - (natDigits n).length) := by
  by_cases hnil : trim (natDigits n) = []
  · have hzero : n = 0 := by
      have h := natOf_natDigits n
      rw [trim_natDigits_eq_nil hnil] at h
      exact h.symm
    rw [toRat_eq_zero_iff.mpr (show (ofParts false (natDigits n) point).digits = [] from hnil), hzero]
    simp
  · obtain ⟨b, hb⟩ := trim_natDigits_append n
    have hvalue : (n : ℚ) = natOf (trim (natDigits n)) * 10 ^ b := by
      have h : n = natOf (trim (natDigits n)) * 10 ^ b := by
        rw [← natOf_append_zeros, ← hb, natOf_natDigits]
      exact_mod_cast h
    have hlength : point - (trim (natDigits n)).length = b + (point - (natDigits n).length) := by
      have h := congrArg List.length hb
      rw [List.length_append, List.length_replicate] at h
      omega
    rw [toRat, ofParts]
    simp only [Bool.false_and, Bool.false_eq_true, if_false, if_neg hnil, leadingZeros_natDigits,
      Nat.cast_zero, sub_zero, one_mul, hlength]
    rw [zpow_add₀ (by norm_num), zpow_natCast, ← mul_assoc, ← hvalue]

/-- The value of a natural number. -/
@[simp] theorem toRat_ofNat (n : ℕ) : (ofNat n).toRat = n := by
  rw [ofNat, toRat_ofParts, sub_self, zpow_zero, mul_one]

/-- A number that is a natural number is written as one. -/
theorem eq_ofNat_of_toRat {x : JsonNumber} (hden : x.toRat.den = 1) (hnum : 0 ≤ x.toRat.num) :
    x = ofNat x.toRat.num.toNat := by
  refine toRat_injective ?_
  rw [toRat_ofNat]
  have hvalue : (x.toRat.num : ℚ) = x.toRat := (Rat.den_eq_one_iff _).mp hden
  have hcast : ((x.toRat.num.toNat : ℤ) : ℚ) = x.toRat.num := by rw [Int.toNat_of_nonneg hnum]
  rw [← hvalue]
  exact hcast.symm

/-! ### Integers that are doubles -/

theorem roundHalfEven_intCast (z : ℤ) : roundHalfEven z = z := by
  rw [roundHalfEven, Int.floor_intCast, sub_self]
  exact if_pos (.inl (by norm_num))

theorem floor_le_roundHalfEven (q : ℚ) : ⌊q⌋ ≤ roundHalfEven q := by
  simp only [roundHalfEven]
  split <;> omega

/-- An integer below `2 ^ 53` is a double. -/
theorem toDouble_natCast {n : ℕ} (h : n < 2 ^ 53) : toDouble n = n := by
  rcases Nat.eq_zero_or_pos n with rfl | hpos
  · have hzero : roundHalfEven 0 = 0 := roundHalfEven_intCast 0
    simp only [toDouble, Nat.cast_zero, zero_div, hzero, Int.cast_zero, zero_mul]
  · have hlog : Int.log 2 (n : ℚ) ≤ 52 := by
      rw [Int.log_natCast]
      have hlt : Nat.log 2 n < 53 := Nat.log_lt_of_lt_pow (by omega) h
      omega
    obtain ⟨k, hk⟩ : ∃ k : ℕ, max (-1074) (Int.log 2 (n : ℚ) - 52) = -(k : ℤ) :=
      ⟨(-max (-1074) (Int.log 2 (n : ℚ) - 52)).toNat, by omega⟩
    have hunit : (n : ℚ) / 2 ^ (-(k : ℤ)) = ((n * 2 ^ k : ℕ) : ℤ) := by
      rw [zpow_neg, div_inv_eq_mul, zpow_natCast]
      push_cast
      rfl
    have hne : (2 : ℚ) ^ (-(k : ℤ)) ≠ 0 := zpow_ne_zero _ (by norm_num)
    simp only [toDouble, hk]
    rw [hunit, roundHalfEven_intCast, ← hunit, div_mul_cancel₀ _ hne]

/-- Only an integer below `2 ^ 53` itself rounds to it. -/
theorem eq_of_toDouble_natCast {m n : ℕ} (hn : n < 2 ^ 53) (h : toDouble m = n) : m = n := by
  by_cases hm : m < 2 ^ 53
  · rw [toDouble_natCast hm] at h
    exact_mod_cast h
  · exfalso
    have hmpos : m ≠ 0 := by omega
    have hlog : 53 ≤ Nat.log 2 m := Nat.le_log_of_pow_le (by omega) (by omega)
    obtain ⟨k, hk⟩ : ∃ k : ℕ, Nat.log 2 m = 52 + k := ⟨Nat.log 2 m - 52, by omega⟩
    have hexponent : max (-1074) (Int.log 2 (m : ℚ) - 52) = (k : ℤ) := by
      rw [Int.log_natCast]
      omega
    have hpow : (2 : ℚ) ^ k ≠ 0 := pow_ne_zero _ (by norm_num)
    have hfloor : (2 ^ 52 : ℤ) ≤ ⌊(m : ℚ) / 2 ^ k⌋ := by
      rw [Int.le_floor, le_div_iff₀ (by positivity)]
      have hle : 2 ^ (52 + k) ≤ m := hk ▸ Nat.pow_log_le_self 2 hmpos
      rw [pow_add] at hle
      exact_mod_cast hle
    have hround := hfloor.trans (floor_le_roundHalfEven ((m : ℚ) / 2 ^ k))
    simp only [toDouble, hexponent, zpow_natCast] at h
    have hlow : ((2 ^ 52 : ℤ) : ℚ) * 2 ^ k ≤ n := by
      rw [← h]
      exact mul_le_mul_of_nonneg_right (by exact_mod_cast hround) (by positivity)
    have hlow' : 2 ^ 52 * 2 ^ k ≤ n := by exact_mod_cast hlow
    have hk1 : 2 ^ 1 ≤ 2 ^ k := Nat.pow_le_pow_right (by omega) (by omega)
    omega

/-- A multiple of a power of ten rounds to an integer when it is the integer. -/
theorem toDouble_mul_pow {n : ℕ} (hn : n < 2 ^ 53) (m j : ℕ) :
    toDouble (((m : ℤ) : ℚ) * 10 ^ (j : ℤ)) = n ↔ m * 10 ^ j = n := by
  have hcast : ((m : ℤ) : ℚ) * 10 ^ (j : ℤ) = ((m * 10 ^ j : ℕ) : ℚ) := by
    rw [zpow_natCast]
    push_cast
    rfl
  rw [hcast]
  constructor
  · exact eq_of_toDouble_natCast hn
  · intro h
    rw [h, toDouble_natCast hn]

theorem shortestIn_pow {n : ℕ} (hn : n < 2 ^ 53) (j : ℕ) :
    shortestIn n (10 ^ (j : ℤ)) = if 10 ^ j ∣ n then some ((n / 10 ^ j : ℕ) : ℤ) else none := by
  have hlow : ⌊(n : ℚ) / 10 ^ (j : ℤ)⌋ = ((n / 10 ^ j : ℕ) : ℤ) := by
    rw [zpow_natCast]
    have h := Rat.floor_natCast_div_natCast n (10 ^ j)
    rw [Nat.cast_pow, Nat.cast_ofNat] at h
    rw [h, Int.natCast_div]
  have hself : toDouble ((((n / 10 ^ j : ℕ) : ℤ) : ℚ) * 10 ^ (j : ℤ)) = n ↔ 10 ^ j ∣ n := by
    rw [toDouble_mul_pow hn]
    constructor
    · exact fun h => ⟨n / 10 ^ j, by rw [mul_comm, h]⟩
    · exact fun h => Nat.div_mul_cancel h
  have hnext : ¬ toDouble (((((n / 10 ^ j : ℕ) : ℤ) + 1 : ℤ) : ℚ) * 10 ^ (j : ℤ)) = n := by
    have h := toDouble_mul_pow hn (n / 10 ^ j + 1) j
    rw [Nat.cast_add, Nat.cast_one] at h
    rw [h, mul_comm]
    exact (Nat.lt_mul_div_succ n (by positivity)).ne'
  simp only [shortestIn, hlow, hself, hnext, decide_false, Bool.false_eq_true, if_false, false_imp_iff,
    and_true, decide_eq_true_eq]

/-- What `k + 1` digits make of a double. -/
def candidate (v : ℚ) (k : ℕ) : Option (ℕ × ℤ) :=
  (shortestIn v (10 ^ (Int.log 10 v + 1 - ((k : ℤ) + 1)))).map fun s =>
    (s.toNat, Int.log 10 v + 1 - ((k : ℤ) + 1))

theorem shortest_eq {negative : Bool} {v : ℚ} {digits : ℕ} {exponent : ℤ}
    (h : (List.range 17).findSome? (candidate v) = some (digits, exponent)) :
    shortest negative v = ofParts negative (natDigits digits) (exponent + (natDigits digits).length) := by
  have hlist : (do let k ← List.range 17; pure (k : ℤ) : List ℤ) = (List.range 17).map Nat.cast := rfl
  simp only [shortest, hlist, List.findSome?_map]
  show ofParts negative (natDigits (((List.range 17).findSome? (candidate v)).getD (0, 0)).1)
    ((((List.range 17).findSome? (candidate v)).getD (0, 0)).2 +
      (natDigits (((List.range 17).findSome? (candidate v)).getD (0, 0)).1).length) = _
  rw [h]
  rfl

theorem candidate_natCast {n : ℕ} (hn : n < 2 ^ 53) {k : ℕ} (hk : k ≤ Nat.log 10 n) :
    candidate n k = if 10 ^ (Nat.log 10 n - k) ∣ n then
      some (n / 10 ^ (Nat.log 10 n - k), ((Nat.log 10 n - k : ℕ) : ℤ)) else none := by
  have hexponent : Int.log 10 (n : ℚ) + 1 - ((k : ℤ) + 1) = ((Nat.log 10 n - k : ℕ) : ℤ) := by
    rw [Int.log_natCast]
    omega
  rw [candidate, hexponent, shortestIn_pow hn]
  split
  · rw [Option.map_some, Int.toNat_natCast]
  · rfl

/-- An integer below `2 ^ 53` is written with its digits. -/
theorem shortest_natCast {n : ℕ} (hn : n < 2 ^ 53) : shortest false n = ofNat n := by
  have hlog : Nat.log 10 n < 17 := Nat.log_lt_of_lt_pow' (by omega) (by omega)
  -- The number of its digits is enough.
  have henough : candidate n (Nat.log 10 n) = some (n, 0) := by
    rw [candidate_natCast hn le_rfl, Nat.sub_self, pow_zero, if_pos (one_dvd n), Nat.div_one]
    rfl
  obtain ⟨found, hfound⟩ : ∃ found, (List.range 17).findSome? (candidate n) = some found := by
    rw [← Option.isSome_iff_exists, List.findSome?_isSome_iff]
    exact ⟨Nat.log 10 n, List.mem_range.mpr hlog, by rw [henough]; rfl⟩
  obtain ⟨earlier, k, later, hrange, hk, hearlier⟩ := List.findSome?_eq_some_iff.mp hfound
  have hle : k ≤ Nat.log 10 n := by
    by_contra hlt
    have hsorted : (earlier ++ k :: later).Pairwise (· < ·) := hrange ▸ List.pairwise_lt_range
    have hmem : Nat.log 10 n ∈ earlier := by
      have hin : Nat.log 10 n ∈ earlier ++ k :: later := hrange ▸ List.mem_range.mpr hlog
      rcases List.mem_append.mp hin with h | h
      · exact h
      · rcases List.mem_cons.mp h with h | h
        · omega
        · have hrel := List.rel_of_pairwise_cons (List.pairwise_append.mp hsorted).2.1 h
          omega
    rw [hearlier _ hmem] at henough
    cases henough
  rw [candidate_natCast hn hle] at hk
  obtain ⟨hdvd, hk⟩ := Option.ite_none_right_eq_some.mp hk
  obtain rfl := Option.some_inj.mp hk
  rw [shortest_eq hfound]
  refine toRat_injective ?_
  rw [toRat_ofParts, toRat_ofNat, add_sub_cancel_right, zpow_natCast]
  have hmul := Nat.div_mul_cancel hdvd
  exact_mod_cast hmul

/-- **An integer below `2 ^ 53` is read as it was written.** -/
theorem round_ofNat {n : ℕ} (hn : n < 2 ^ 53) : (ofNat n).round = some (ofNat n) := by
  have hdouble : toDouble |(ofNat n).toRat| = n := by
    rw [toRat_ofNat, Nat.abs_cast, toDouble_natCast hn]
  have hsign : (ofNat n).negative = false := rfl
  simp only [round, hdouble, hsign]
  split
  · next hzero =>
    have hzero' : n = 0 := by exact_mod_cast hzero
    rw [hzero']
  · have hlt : (n : ℚ) < 2 ^ 53 := by exact_mod_cast hn
    have hfinite : (n : ℚ) < 2 ^ 1024 := hlt.trans (pow_lt_pow_right₀ (by norm_num) (by norm_num))
    rw [if_pos hfinite, shortest_natCast hn]

end JsonNumber

end HarnessFramework
