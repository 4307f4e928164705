import Mathlib.Algebra.Field.Rat
import Mathlib.Data.List.DropRight
import Mathlib.Data.Nat.Digits.Lemmas

/-!
# Finite JSON numbers and their decimal text

A finite double is determined by its shortest decimal, so a JSON number is kept here as that
decimal: a sign, the significant digits `d₁ … dₖ` and the position `n` of the decimal point,
standing for `± 0.d₁ … dₖ × 10 ^ n`. The two zeros are one number.

`JsonNumber.toChars` is the text that ECMAScript gives such a number: plain notation for
`-6 < n ≤ 21`, exponent notation outside. `JsonNumber.decode` reads the number back, which is what
makes the text injective.

## Main definitions

* `JsonNumber` — a sign, significant digits without outer zeros, and an exponent
* `JsonNumber.ofParts` — the number with the given digits, its outer zeros trimmed
* `JsonNumber.ofNat` — a natural number
* `JsonNumber.toChars`, `JsonNumber.decode` — its text, and back
* `JsonNumber.toRat` — its value

## Main results

* `JsonNumber.decode_toChars`, `JsonNumber.toChars_injective`
* `JsonNumber.ofNat_injective`
* `JsonNumber.numeric_of_mem_toChars` — the characters a number is written with
-/

namespace HarnessFramework

/-- A finite number in shortest decimal form, `± 0.d₁ … dₖ × 10 ^ exponent`. -/
structure JsonNumber where
  negative : Bool
  digits : List (Fin 10)
  exponent : ℤ
  /-- No leading zero. -/
  head_ne : digits.head? ≠ some 0
  /-- No trailing zero. -/
  last_ne : digits.getLast? ≠ some 0
  /-- There is one zero. -/
  zero : digits = [] → negative = false ∧ exponent = 0
  deriving DecidableEq

namespace JsonNumber

theorem ext_parts {x y : JsonNumber} (hn : x.negative = y.negative) (hd : x.digits = y.digits)
    (he : x.exponent = y.exponent) : x = y := by
  cases x; cases y; simp_all

/-! ### Digits -/

/-- The character of a decimal digit. -/
def digitChar (d : Fin 10) : Char := Char.ofNat (48 + d)

/-- The digit a character stands for, `0` for any other character. -/
def charDigit (c : Char) : Fin 10 := Fin.ofNat 10 (c.toNat - 48)

@[simp] theorem charDigit_digitChar (d : Fin 10) : charDigit (digitChar d) = d := by
  revert d; decide

@[simp] theorem map_charDigit_map_digitChar (ds : List (Fin 10)) :
    (ds.map digitChar).map charDigit = ds := by
  simp [Function.comp_def]

theorem digitChar_ne_e (d : Fin 10) : digitChar d ≠ 'e' := by revert d; decide

theorem digitChar_ne_dot (d : Fin 10) : digitChar d ≠ '.' := by revert d; decide

theorem digitChar_ne_minus (d : Fin 10) : digitChar d ≠ '-' := by revert d; decide

/-- The decimal digits of a natural number, most significant first; none for `0`. -/
def natDigits (n : ℕ) : List (Fin 10) := (Nat.digits 10 n).reverse.map (Fin.ofNat 10)

theorem map_val_natDigits (n : ℕ) : (natDigits n).map Fin.val = (Nat.digits 10 n).reverse := by
  rw [natDigits, List.map_map]
  refine (List.map_congr_left fun d hd => ?_).trans (List.map_id _)
  have hlt : d < 10 := Nat.digits_lt_base (by norm_num) (List.mem_reverse.mp hd)
  simp [Fin.ofNat, Nat.mod_eq_of_lt hlt]

/-- The number that a list of decimal digits denotes, most significant first. -/
def natOf (ds : List (Fin 10)) : ℕ := Nat.ofDigits 10 (ds.map Fin.val).reverse

@[simp] theorem natOf_natDigits (n : ℕ) : natOf (natDigits n) = n := by
  rw [natOf, map_val_natDigits, List.reverse_reverse, Nat.ofDigits_digits]

theorem natDigits_injective : Function.Injective natDigits :=
  Function.LeftInverse.injective natOf_natDigits

theorem head?_natDigits (n : ℕ) : (natDigits n).head? ≠ some 0 := by
  intro h
  have hval : ((natDigits n).map Fin.val).head? = some 0 := by rw [List.head?_map, h]; rfl
  rw [map_val_natDigits, List.head?_reverse] at hval
  have hne : Nat.digits 10 n ≠ [] := by rintro h0; simp [h0] at hval
  rw [List.getLast?_eq_some_getLast hne, Option.some_inj] at hval
  exact Nat.getLast_digit_ne_zero 10 (Nat.digits_ne_nil_iff_ne_zero.mp hne) hval

/-! ### Trimming outer zeros -/

/-- The digits without outer zeros. -/
def trim (ds : List (Fin 10)) : List (Fin 10) := (ds.dropWhile (· == 0)).rdropWhile (· == 0)

/-- How many zeros lead the digits. -/
def leadingZeros (ds : List (Fin 10)) : ℕ := (ds.takeWhile (· == 0)).length

theorem head?_trim (ds : List (Fin 10)) : (trim ds).head? ≠ some 0 := by
  intro h
  have hpre : trim ds <+: ds.dropWhile (· == 0) := List.rdropWhile_prefix _ _
  obtain ⟨t, ht⟩ := hpre
  have hd : (ds.dropWhile (· == 0)).head? = some 0 := by rw [← ht, List.head?_append, h]; rfl
  have := List.head?_dropWhile_not (· == 0) ds
  rw [hd] at this
  simp at this

theorem getLast?_trim (ds : List (Fin 10)) : (trim ds).getLast? ≠ some 0 := by
  intro h
  have hne : trim ds ≠ [] := by rintro h0; simp [h0] at h
  rw [List.getLast?_eq_some_getLast hne, Option.some_inj] at h
  have := List.rdropWhile_last_not (· == 0) (ds.dropWhile (· == 0)) hne
  simp only [beq_iff_eq] at this
  exact this h

theorem dropWhile_pad {ds : List (Fin 10)} (hh : ds.head? ≠ some 0) (hne : ds ≠ []) (a : ℕ)
    (rest : List (Fin 10)) :
    (List.replicate a 0 ++ (ds ++ rest)).dropWhile (· == 0) = ds ++ rest := by
  obtain ⟨d, ds, rfl⟩ := List.exists_cons_of_ne_nil hne
  have hd : d ≠ 0 := by simpa using hh
  rw [List.dropWhile_append_of_pos (by simp), List.cons_append,
    List.dropWhile_cons_of_neg (by simpa using hd)]

theorem rdropWhile_pad {ds : List (Fin 10)} (hl : ds.getLast? ≠ some 0) (b : ℕ) :
    (ds ++ List.replicate b 0).rdropWhile (· == 0) = ds := by
  induction b with
  | zero =>
    rw [List.replicate_zero, List.append_nil, List.rdropWhile_eq_self_iff]
    intro hne h0
    rw [List.getLast?_eq_some_getLast hne] at hl
    simp_all
  | succ b ih =>
    rw [List.replicate_succ', ← List.append_assoc, List.rdropWhile_concat_pos _ _ _ (by simp), ih]

/-- Padding with zeros on both sides is trimmed away. -/
theorem trim_pad {ds : List (Fin 10)} (hh : ds.head? ≠ some 0) (hl : ds.getLast? ≠ some 0)
    (hne : ds ≠ []) (a b : ℕ) :
    trim (List.replicate a 0 ++ (ds ++ List.replicate b 0)) = ds := by
  rw [trim, dropWhile_pad hh hne, rdropWhile_pad hl]

theorem leadingZeros_pad {ds : List (Fin 10)} (hh : ds.head? ≠ some 0) (hne : ds ≠ []) (a : ℕ)
    (rest : List (Fin 10)) : leadingZeros (List.replicate a 0 ++ (ds ++ rest)) = a := by
  obtain ⟨d, ds, rfl⟩ := List.exists_cons_of_ne_nil hne
  have hd : d ≠ 0 := by simpa using hh
  rw [leadingZeros, List.takeWhile_append_of_pos (by simp), List.cons_append,
    List.takeWhile_cons_of_neg (by simpa using hd)]
  simp

/-- The number `± 0.ds × 10 ^ point`, its outer zeros trimmed. -/
def ofParts (negative : Bool) (ds : List (Fin 10)) (point : ℤ) : JsonNumber where
  negative := negative && !(trim ds).isEmpty
  digits := trim ds
  exponent := if trim ds = [] then 0 else point - leadingZeros ds
  head_ne := head?_trim ds
  last_ne := getLast?_trim ds
  zero h := by simp [h]

/-- A number is what its own digits make, however they are padded with zeros. -/
theorem ofParts_pad (x : JsonNumber) (hne : x.digits ≠ []) (a b : ℕ) (point : ℤ)
    (hp : point = x.exponent + a) :
    ofParts x.negative (List.replicate a 0 ++ (x.digits ++ List.replicate b 0)) point = x := by
  have ht := trim_pad x.head_ne x.last_ne hne a b
  refine ext_parts ?_ ht ?_
  · simp [ofParts, ht, hne]
  · simp only [ofParts, ht, hne, if_false, leadingZeros_pad x.head_ne hne]
    omega

/-! ### Natural numbers -/

/-- The number `n`. -/
def ofNat (n : ℕ) : JsonNumber := ofParts false (natDigits n) (natDigits n).length

theorem leadingZeros_natDigits (n : ℕ) : leadingZeros (natDigits n) = 0 := by
  have h := head?_natDigits n
  cases hd : natDigits n with
  | nil => rfl
  | cons d ds =>
    have hd0 : d ≠ 0 := by simpa [hd] using h
    rw [leadingZeros, List.takeWhile_cons_of_neg (by simpa using hd0)]
    rfl

/-- The digits of `n` are the trimmed digits with their trailing zeros put back. -/
theorem trim_natDigits_append (n : ℕ) :
    ∃ b, natDigits n = trim (natDigits n) ++ List.replicate b 0 := by
  have hdrop : (natDigits n).dropWhile (· == 0) = natDigits n := by
    have h := leadingZeros_natDigits n
    have := List.takeWhile_append_dropWhile (p := (· == 0)) (l := natDigits n)
    rwa [List.length_eq_zero_iff.mp h, List.nil_append] at this
  refine ⟨((natDigits n).rtakeWhile (· == 0)).length, ?_⟩
  have hz : (natDigits n).rtakeWhile (· == 0)
      = List.replicate ((natDigits n).rtakeWhile (· == 0)).length 0 :=
    List.eq_replicate_of_mem fun d hd => by simpa using List.mem_rtakeWhile_imp hd
  rw [trim, hdrop, ← hz, List.rdropWhile_append_rtakeWhile]

theorem trim_natDigits_eq_nil {n : ℕ} (h : trim (natDigits n) = []) : natDigits n = [] := by
  obtain ⟨b, hb⟩ := trim_natDigits_append n
  rw [h, List.nil_append] at hb
  cases b with
  | zero => exact hb
  | succ b => exact absurd (by rw [hb]; rfl) (head?_natDigits n)

theorem ofNat_injective : Function.Injective ofNat := by
  intro n m h
  apply natDigits_injective
  have hd : trim (natDigits n) = trim (natDigits m) := congrArg digits h
  have he : (ofNat n).exponent = (ofNat m).exponent := congrArg exponent h
  by_cases h0 : trim (natDigits n) = []
  · rw [trim_natDigits_eq_nil h0, trim_natDigits_eq_nil (hd ▸ h0)]
  · simp only [ofNat, ofParts, h0, hd ▸ h0, if_false, leadingZeros_natDigits] at he
    obtain ⟨a, ha⟩ := trim_natDigits_append n
    obtain ⟨b, hb⟩ := trim_natDigits_append m
    have hlen : (natDigits n).length = (natDigits m).length := by omega
    rw [ha, hb, hd, List.length_append, List.length_append, List.length_replicate,
      List.length_replicate, Nat.add_left_cancel_iff] at hlen
    rw [ha, hb, hd, hlen]

/-! ### Text -/

/-- The sign of an exponent. -/
def signChar (e : ℤ) : Char := if e < 0 then '-' else '+'

/-- The exponent part, `e+21` for instance. -/
def exponentChars (e : ℤ) : List Char := 'e' :: signChar e :: (natDigits e.natAbs).map digitChar

/-- The digits with the decimal point in place, or in exponent notation. -/
def magnitudeChars (ds : List (Fin 10)) (n : ℤ) : List Char :=
  if ds.length ≤ n ∧ n ≤ 21 then
    (ds ++ List.replicate (n - ds.length).toNat 0).map digitChar
  else if 0 < n ∧ n ≤ 21 then
    (ds.take n.toNat).map digitChar ++ '.' :: (ds.drop n.toNat).map digitChar
  else if -6 < n ∧ n ≤ 0 then
    digitChar 0 :: '.' :: (List.replicate (-n).toNat 0 ++ ds).map digitChar
  else
    -- one digit before the point, which is left out when no digit follows it
    (ds.take 1).map digitChar
      ++ (if ds.length = 1 then [] else '.' :: (ds.drop 1).map digitChar) ++ exponentChars (n - 1)

/-- The text of a number. -/
def toChars (x : JsonNumber) : List Char :=
  if x.digits = [] then [digitChar 0]
  else (if x.negative then ['-'] else []) ++ magnitudeChars x.digits x.exponent

/-- The value of an exponent part, `0` when there is none. -/
def decodeExponent : List Char → ℤ
  | 'e' :: sign :: ds =>
    if sign = '-' then -(natOf (ds.map charDigit)) else natOf (ds.map charDigit)
  | _ => 0

/-- Everything before the first `x`. -/
def before (x : Char) (cs : List Char) : List Char := cs.takeWhile (· != x)

/-- Everything from the first `x` on. -/
def since (x : Char) (cs : List Char) : List Char := cs.dropWhile (· != x)

/-- Read a number without its sign. -/
def decodeMagnitude (negative : Bool) (cs : List Char) : JsonNumber :=
  let mantissa := before 'e' cs
  let whole := before '.' mantissa
  let fraction := (since '.' mantissa).tail
  ofParts negative ((whole ++ fraction).map charDigit)
    (whole.length + decodeExponent (since 'e' cs))

/-- Read a number. -/
def decode : List Char → JsonNumber
  | '-' :: cs => decodeMagnitude true cs
  | cs => decodeMagnitude false cs

theorem before_append {x : Char} {as : List Char} (h : x ∉ as) (bs : List Char) :
    before x (as ++ x :: bs) = as := by
  rw [before, List.takeWhile_append_of_pos (by simp only [bne_iff_ne]; rintro c hc rfl; exact h hc)]
  simp

theorem since_append {x : Char} {as : List Char} (h : x ∉ as) (bs : List Char) :
    since x (as ++ x :: bs) = x :: bs := by
  rw [since, List.dropWhile_append_of_pos (by simp only [bne_iff_ne]; rintro c hc rfl; exact h hc)]
  simp

theorem before_of_notMem {x : Char} {as : List Char} (h : x ∉ as) : before x as = as :=
  List.takeWhile_eq_self_iff.mpr (by simp only [bne_iff_ne]; rintro c hc rfl; exact h hc)

theorem since_of_notMem {x : Char} {as : List Char} (h : x ∉ as) : since x as = [] :=
  List.dropWhile_eq_nil_iff.mpr (by simp only [bne_iff_ne]; rintro c hc rfl; exact h hc)

theorem e_notMem_digits (ds : List (Fin 10)) : 'e' ∉ ds.map digitChar := by
  simpa using fun d _ => digitChar_ne_e d

theorem dot_notMem_digits (ds : List (Fin 10)) : '.' ∉ ds.map digitChar := by
  simpa using fun d _ => digitChar_ne_dot d

@[simp] theorem decodeExponent_exponentChars (e : ℤ) : decodeExponent (exponentChars e) = e := by
  rw [exponentChars, decodeExponent, map_charDigit_map_digitChar, natOf_natDigits, signChar]
  by_cases he : e < 0
  · rw [if_pos he, if_pos rfl]; omega
  · rw [if_neg he, if_neg (by decide)]; omega

/-- Reading digits with neither point nor exponent. -/
theorem decodeMagnitude_whole (negative : Bool) (ds : List (Fin 10)) :
    decodeMagnitude negative (ds.map digitChar) = ofParts negative ds ds.length := by
  simp only [decodeMagnitude, before_of_notMem (e_notMem_digits ds),
    since_of_notMem (e_notMem_digits ds), before_of_notMem (dot_notMem_digits ds),
    since_of_notMem (dot_notMem_digits ds), List.tail_nil, List.append_nil,
    map_charDigit_map_digitChar, List.length_map, decodeExponent, add_zero]

/-- Reading digits around a point. -/
theorem decodeMagnitude_point (negative : Bool) (ws fs : List (Fin 10)) :
    decodeMagnitude negative (ws.map digitChar ++ '.' :: fs.map digitChar)
      = ofParts negative (ws ++ fs) ws.length := by
  have he : 'e' ∉ ws.map digitChar ++ '.' :: fs.map digitChar := by
    simpa using ⟨fun d _ => digitChar_ne_e d, fun d _ => digitChar_ne_e d⟩
  simp only [decodeMagnitude, before_of_notMem he, since_of_notMem he,
    before_append (dot_notMem_digits ws), since_append (dot_notMem_digits ws), List.tail_cons,
    ← List.map_append, map_charDigit_map_digitChar, List.length_map, decodeExponent, add_zero]

/-- Reading exponent notation. -/
theorem decodeMagnitude_exponent (negative : Bool) (ws fs : List (Fin 10)) (e : ℤ) :
    decodeMagnitude negative (ws.map digitChar
        ++ (if fs = [] then [] else '.' :: fs.map digitChar) ++ exponentChars e)
      = ofParts negative (ws ++ fs) (ws.length + e) := by
  by_cases hfs : fs = []
  · subst hfs
    simp only [if_true, List.append_nil, decodeMagnitude]
    rw [exponentChars, before_append (e_notMem_digits ws), since_append (e_notMem_digits ws),
      ← exponentChars, decodeExponent_exponentChars, before_of_notMem (dot_notMem_digits ws),
      since_of_notMem (dot_notMem_digits ws)]
    simp only [List.tail_nil, List.append_nil, map_charDigit_map_digitChar, List.length_map]
  · have he : 'e' ∉ ws.map digitChar ++ '.' :: fs.map digitChar := by
      simpa using ⟨fun d _ => digitChar_ne_e d, fun d _ => digitChar_ne_e d⟩
    simp only [if_neg hfs, decodeMagnitude]
    rw [exponentChars, before_append he, since_append he, ← exponentChars,
      decodeExponent_exponentChars, before_append (dot_notMem_digits ws),
      since_append (dot_notMem_digits ws)]
    simp only [List.tail_cons, ← List.map_append, map_charDigit_map_digitChar, List.length_map]

/-- Reading the magnitude of a number gives the number back, whichever notation it is in. -/
theorem decodeMagnitude_magnitudeChars (x : JsonNumber) (hne : x.digits ≠ []) :
    decodeMagnitude x.negative (magnitudeChars x.digits x.exponent) = x := by
  have hk : 0 < x.digits.length := List.length_pos_iff.mpr hne
  rw [magnitudeChars]
  split
  · next h =>
    rw [decodeMagnitude_whole]
    have := ofParts_pad x hne 0 (x.exponent - x.digits.length).toNat
      (x.digits ++ List.replicate (x.exponent - x.digits.length).toNat 0).length
      (by rw [List.length_append, List.length_replicate]; omega)
    simpa using this
  split
  · next h h' =>
    rw [decodeMagnitude_point, List.take_append_drop]
    have := ofParts_pad x hne 0 0 (x.digits.take x.exponent.toNat).length
      (by rw [List.length_take]; omega)
    simpa using this
  split
  · next h h' h'' =>
    have hd := decodeMagnitude_point x.negative [0]
      (List.replicate (-x.exponent).toNat 0 ++ x.digits)
    simp only [List.map_cons, List.map_nil, List.cons_append, List.nil_append] at hd
    rw [hd]
    have := ofParts_pad x hne ((-x.exponent).toNat + 1) 0
      ([0] : List (Fin 10)).length (by simp; omega)
    simpa [List.replicate_succ] using this
  · have hd := decodeMagnitude_exponent x.negative (x.digits.take 1) (x.digits.drop 1)
      (x.exponent - 1)
    rw [List.take_append_drop] at hd
    have hiff : x.digits.drop 1 = [] ↔ x.digits.length = 1 := by
      rw [List.drop_eq_nil_iff]; omega
    simp only [hiff] at hd
    rw [hd]
    have := ofParts_pad x hne 0 0 ((x.digits.take 1).length + (x.exponent - 1))
      (by rw [List.length_take]; omega)
    simpa using this

theorem ne_minus_of_mem_head_magnitudeChars (ds : List (Fin 10)) (n : ℤ) (hne : ds ≠ []) :
    (magnitudeChars ds n).head? ≠ some '-' := by
  obtain ⟨d, ds, rfl⟩ := List.exists_cons_of_ne_nil hne
  rw [magnitudeChars]
  split
  · simpa using digitChar_ne_minus d
  split
  · next h h' =>
    have : n.toNat = (n.toNat - 1) + 1 := by omega
    rw [this]
    simpa using digitChar_ne_minus d
  split
  · simpa using digitChar_ne_minus 0
  · simpa using digitChar_ne_minus d

/-- **Reading a number's text gives the number back.** -/
@[simp] theorem decode_toChars (x : JsonNumber) : decode (toChars x) = x := by
  rw [toChars]
  by_cases hne : x.digits = []
  · obtain ⟨hn, he⟩ := x.zero hne
    rw [if_pos hne]
    exact ext_parts (by rw [hn]; decide) (by rw [hne]; decide) (by rw [he]; decide)
  · rw [if_neg hne]
    cases hneg : x.negative with
    | true =>
      rw [if_pos rfl, List.singleton_append, decode, ← hneg]
      exact decodeMagnitude_magnitudeChars x hne
    | false =>
      rw [if_neg (by decide), List.nil_append]
      have hhead := ne_minus_of_mem_head_magnitudeChars x.digits x.exponent hne
      rw [decode, ← hneg]
      · exact decodeMagnitude_magnitudeChars x hne
      · rintro cs hcs
        rw [hcs] at hhead
        exact hhead rfl

theorem toChars_injective : Function.Injective toChars :=
  Function.LeftInverse.injective decode_toChars

/-! ### The characters of a number -/

/-- The characters that numbers are written with. -/
def Numeric (c : Char) : Prop := (∃ d, digitChar d = c) ∨ c = '-' ∨ c = '+' ∨ c = '.' ∨ c = 'e'

theorem numeric_digitChar (d : Fin 10) : Numeric (digitChar d) := .inl ⟨d, rfl⟩

theorem numeric_of_mem_map {ds : List (Fin 10)} {c : Char} (h : c ∈ ds.map digitChar) :
    Numeric c := by
  obtain ⟨d, _, rfl⟩ := List.mem_map.mp h
  exact numeric_digitChar d

theorem numeric_of_mem_exponentChars {e : ℤ} {c : Char} (h : c ∈ exponentChars e) :
    Numeric c := by
  simp only [exponentChars, List.mem_cons] at h
  rcases h with rfl | rfl | h
  · simp [Numeric]
  · rw [signChar]; split <;> simp [Numeric]
  · exact numeric_of_mem_map h

theorem numeric_of_mem_magnitudeChars {ds : List (Fin 10)} {n : ℤ} {c : Char}
    (h : c ∈ magnitudeChars ds n) : Numeric c := by
  rw [magnitudeChars] at h
  split at h
  · exact numeric_of_mem_map h
  split at h
  · rcases List.mem_append.mp h with h | h
    · exact numeric_of_mem_map h
    · rcases List.mem_cons.mp h with rfl | h
      · simp [Numeric]
      · exact numeric_of_mem_map h
  split at h
  · simp only [List.mem_cons] at h
    rcases h with rfl | rfl | h
    · exact numeric_digitChar 0
    · simp [Numeric]
    · exact numeric_of_mem_map h
  · rcases List.mem_append.mp h with h | h
    · rcases List.mem_append.mp h with h | h
      · exact numeric_of_mem_map h
      · split at h
        · simp at h
        · rcases List.mem_cons.mp h with rfl | h
          · simp [Numeric]
          · exact numeric_of_mem_map h
    · exact numeric_of_mem_exponentChars h

theorem numeric_of_mem_toChars {x : JsonNumber} {c : Char} (h : c ∈ toChars x) : Numeric c := by
  rw [toChars] at h
  split at h
  · rw [List.mem_singleton.mp h]; exact numeric_digitChar 0
  · rcases List.mem_append.mp h with h | h
    · split at h
      · rw [List.mem_singleton.mp h]; simp [Numeric]
      · simp at h
    · exact numeric_of_mem_magnitudeChars h

/-- The value of a number. -/
def toRat (x : JsonNumber) : ℚ :=
  (if x.negative then -1 else 1) * natOf x.digits * 10 ^ (x.exponent - x.digits.length)

/-- The text of a number starts with a digit or a minus sign. -/
theorem exists_toChars (x : JsonNumber) :
    ∃ c cs, toChars x = c :: cs ∧ ((∃ d, digitChar d = c) ∨ c = '-') := by
  rw [toChars]
  split
  · exact ⟨_, _, rfl, .inl ⟨0, rfl⟩⟩
  · next hne =>
    obtain ⟨d, ds, hds⟩ := List.exists_cons_of_ne_nil hne
    cases x.negative
    · rw [if_neg (by simp), List.nil_append, magnitudeChars, hds]
      split
      · exact ⟨_, _, rfl, .inl ⟨d, rfl⟩⟩
      split
      · next hn =>
        obtain ⟨k, hk⟩ : ∃ k, x.exponent.toNat = k + 1 := ⟨x.exponent.toNat - 1, by omega⟩
        exact ⟨_, _, by rw [hk]; rfl, .inl ⟨d, rfl⟩⟩
      split
      · exact ⟨_, _, rfl, .inl ⟨0, rfl⟩⟩
      · exact ⟨_, _, rfl, .inl ⟨d, rfl⟩⟩
    · exact ⟨'-', _, rfl, .inr rfl⟩

theorem toChars_ne_nil (x : JsonNumber) : toChars x ≠ [] := by
  obtain ⟨c, cs, hcs, -⟩ := exists_toChars x
  rw [hcs]
  exact List.cons_ne_nil c cs

end JsonNumber

end HarnessFramework
