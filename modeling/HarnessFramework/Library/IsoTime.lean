import Mathlib.Algebra.Order.Group.Nat
import Mathlib.Data.List.Basic
import Mathlib.Data.List.Induction
import Mathlib.Tactic.Common

/-!
# Points in time and their ISO 8601 texts

A text in the grammar of `z.string().datetime()` (UTC, seconds and their fraction optional) is
stored in a `timestamptz` column, which keeps microseconds, and is read back as a JavaScript `Date`,
which keeps milliseconds and prints itself with exactly three fraction digits.

## Main definitions

* `parseDatetime` — the grammar
* `CivilDate`, `Timestamptz`, `JsDate` — days, column values and `Date` objects
* `timestamptz`, `Timestamptz.toDate`, `JsDate.toISOString` — storing, reading back and printing

## Main results

* `timestamptz_toISOString` — what a `Date` prints is stored as the point in time it is
* `toISOString_readBack_iff` — a text comes back as it was written exactly when it has three
  fraction digits
-/

namespace HarnessFramework

/-! ## Fixed-width numbers -/

/-- The value of a decimal digit. -/
def digit? (c : Char) : Option ℕ := if 48 ≤ c.toNat ∧ c.toNat ≤ 57 then some (c.toNat - 48) else none

/-- The number that a list of digits writes. -/
def readNat (cs : List Char) : Option ℕ := cs.foldlM (fun n c => (digit? c).map (10 * n + ·)) 0

/-- The last `k` digits of a number. -/
def pad : ℕ → ℕ → List Char
  | 0, _ => []
  | k + 1, n => pad k (n / 10) ++ [Char.ofNat (48 + n % 10)]

@[simp] theorem length_pad (k n : ℕ) : (pad k n).length = k := by
  induction k generalizing n with
  | zero => rfl
  | succ k ih => simp [pad, ih]

theorem digit?_ofNat : ∀ d < 10, digit? (Char.ofNat (48 + d)) = some d := by decide

theorem digit?_eq_some {c : Char} {d : ℕ} (h : digit? c = some d) :
    d < 10 ∧ c = Char.ofNat (48 + d) := by
  simp only [digit?, Option.ite_none_right_eq_some, Option.some.injEq] at h
  obtain ⟨⟨hlo, hhi⟩, rfl⟩ := h
  refine ⟨by omega, ?_⟩
  rw [show 48 + (c.toNat - 48) = c.toNat by omega, Char.ofNat_toNat]

@[simp] theorem readNat_nil : readNat [] = some 0 := rfl

theorem readNat_append_singleton (cs : List Char) (c : Char) :
    readNat (cs ++ [c]) = (readNat cs).bind fun n => (digit? c).map (10 * n + ·) := by
  simp [readNat, List.foldlM_append, Option.bind_eq_bind]

theorem readNat_pad {k n : ℕ} (h : n < 10 ^ k) : readNat (pad k n) = some n := by
  induction k generalizing n with
  | zero => simp_all [pad]
  | succ k ih =>
    have hn : n / 10 < 10 ^ k := by rw [pow_succ] at h; omega
    rw [pad, readNat_append_singleton, ih hn, digit?_ofNat _ (Nat.mod_lt _ (by decide))]
    simp only [Option.map_some, Option.bind_some, Option.some.injEq]
    omega

/-- Reading inverts padding to the same width. -/
theorem pad_readNat {cs : List Char} {n : ℕ} (h : readNat cs = some n) :
    n < 10 ^ cs.length ∧ cs = pad cs.length n := by
  induction cs using List.reverseRecOn generalizing n with
  | nil =>
    obtain rfl : 0 = n := by simpa using h
    exact ⟨by decide, rfl⟩
  | append_singleton cs c ih =>
    rw [readNat_append_singleton] at h
    obtain ⟨m, hm, hmd⟩ := Option.bind_eq_some_iff.mp h
    obtain ⟨d, hd, rfl⟩ := Option.map_eq_some_iff.mp hmd
    obtain ⟨hlt, rfl⟩ := digit?_eq_some hd
    obtain ⟨hm, hcs⟩ := ih hm
    rw [List.length_append, List.length_singleton, pad]
    refine ⟨by rw [pow_succ]; omega, ?_⟩
    rw [show (10 * m + d) / 10 = m by omega, show (10 * m + d) % 10 = d by omega, ← hcs]

/-! ## The grammar -/

/-- The fields of a text in the grammar. -/
structure Datetime where
  year : ℕ
  month : ℕ
  day : ℕ
  hour : ℕ
  minute : ℕ
  second : ℕ
  /-- The digits of the fraction of a second. -/
  fraction : List Char

/-- The number of days of a month. -/
def daysInMonth (year month : ℕ) : ℕ :=
  if month = 2 then if year % 4 = 0 ∧ (year % 100 ≠ 0 ∨ year % 400 = 0) then 29 else 28
  else if month = 4 ∨ month = 6 ∨ month = 9 ∨ month = 11 then 30 else 31

/-- A day and a time that exist. -/
def Datetime.Valid (d : Datetime) : Prop :=
  (1 ≤ d.month ∧ d.month ≤ 12) ∧ (1 ≤ d.day ∧ d.day ≤ daysInMonth d.year d.month) ∧
    d.hour ≤ 23 ∧ d.minute ≤ 59 ∧ d.second ≤ 59

instance (d : Datetime) : Decidable d.Valid := by unfold Datetime.Valid; infer_instance

/-- Read a number of `k` digits. -/
def scanNat (k : ℕ) (cs : List Char) : Option (ℕ × List Char) :=
  if k ≤ cs.length then (readNat (cs.take k)).map (·, cs.drop k) else none

/-- Read the character `c`. -/
def scanChar (c : Char) : List Char → Option (List Char)
  | [] => none
  | c' :: cs => if c' = c then some cs else none

/-- Read `.ddd…Z` or `Z`: the digits of a fraction. -/
def scanFraction : List Char → Option (List Char)
  | [] => none
  | c :: cs =>
    if c = 'Z' ∧ cs = [] then some []
    else if c = '.' ∧ cs.getLast? = some 'Z' ∧ cs.dropLast ≠ [] ∧ (readNat cs.dropLast).isSome then
      some cs.dropLast
    else none

/-- Read `:ss.ddd…Z`, `:ssZ` or `Z`. -/
def scanSecond (cs : List Char) : Option (ℕ × List Char) :=
  if cs = ['Z'] then some (0, [])
  else do
    let cs ← scanChar ':' cs
    let (second, cs) ← scanNat 2 cs
    let fraction ← scanFraction cs
    return (second, fraction)

/-- The fields of `yyyy-mm-ddThh:mm:ss.ddd…Z`. -/
def scanDatetime (cs : List Char) : Option Datetime := do
  let (year, cs) ← scanNat 4 cs
  let cs ← scanChar '-' cs
  let (month, cs) ← scanNat 2 cs
  let cs ← scanChar '-' cs
  let (day, cs) ← scanNat 2 cs
  let cs ← scanChar 'T' cs
  let (hour, cs) ← scanNat 2 cs
  let cs ← scanChar ':' cs
  let (minute, cs) ← scanNat 2 cs
  let (second, fraction) ← scanSecond cs
  return ⟨year, month, day, hour, minute, second, fraction⟩

/-- `z.string().datetime()`: the fields of a text, if the day and the time exist. -/
def parseDatetime (text : String) : Option Datetime :=
  (scanDatetime text.toList).filter fun d => d.Valid

/-- The text is in the grammar. -/
def IsDatetime (text : String) : Prop := (parseDatetime text).isSome

instance (text : String) : Decidable (IsDatetime text) := by unfold IsDatetime; infer_instance

/-- The text has three fraction digits. -/
def ThreeFractionDigits (text : String) : Prop :=
  ∀ d ∈ parseDatetime text, d.fraction.length = 3

instance (text : String) : Decidable (ThreeFractionDigits text) :=
  match h : parseDatetime text with
  | none => .isTrue (by simp [ThreeFractionDigits, h])
  | some d => decidable_of_iff (d.fraction.length = 3) (by simp [ThreeFractionDigits, h])

theorem scanNat_eq_some {k n : ℕ} {cs rest : List Char} :
    scanNat k cs = some (n, rest) ↔ n < 10 ^ k ∧ cs = pad k n ++ rest := by
  rw [scanNat]
  constructor
  · intro h
    simp only [Option.ite_none_right_eq_some, Option.map_eq_some_iff, Prod.mk.injEq] at h
    obtain ⟨hk, m, hm, rfl, rfl⟩ := h
    obtain ⟨hlt, htake⟩ := pad_readNat hm
    rw [List.length_take, min_eq_left hk] at hlt htake
    exact ⟨hlt, by rw [← htake, List.take_append_drop]⟩
  · rintro ⟨hn, rfl⟩
    have htake : (pad k n ++ rest).take k = pad k n := List.take_left' (length_pad k n)
    have hdrop : (pad k n ++ rest).drop k = rest := List.drop_left' (length_pad k n)
    rw [if_pos (by simp), htake, hdrop, readNat_pad hn, Option.map_some]

theorem scanChar_eq_some {c : Char} {cs rest : List Char} :
    scanChar c cs = some rest ↔ cs = c :: rest := by
  cases cs with
  | nil => simp [scanChar]
  | cons c' cs => simp [scanChar]

/-- The text of the fields up to the minute. -/
def minuteText (d : Datetime) : List Char :=
  pad 4 d.year ++ '-' :: (pad 2 d.month ++ '-' :: (pad 2 d.day ++ 'T' :: (pad 2 d.hour ++
    ':' :: pad 2 d.minute)))

/-- **The grammar, from the fields.** -/
theorem scanDatetime_eq_some {cs : List Char} {d : Datetime} :
    scanDatetime cs = some d ↔ ∃ rest, cs = minuteText d ++ rest ∧
      scanSecond rest = some (d.second, d.fraction) ∧ d.year < 10 ^ 4 ∧ d.month < 10 ^ 2 ∧
      d.day < 10 ^ 2 ∧ d.hour < 10 ^ 2 ∧ d.minute < 10 ^ 2 := by
  obtain ⟨year, month, day, hour, minute, second, fraction⟩ := d
  simp only [scanDatetime, Option.bind_eq_bind, Option.bind_eq_some_iff, Prod.exists,
    scanNat_eq_some, scanChar_eq_some, Option.pure_def, Option.some.injEq, Datetime.mk.injEq,
    minuteText]
  constructor
  · rintro ⟨y, _, ⟨hy, rfl⟩, _, rfl, mo, _, ⟨hmo, rfl⟩, _, rfl, da, _, ⟨hda, rfl⟩, _, rfl, ho, _,
      ⟨hho, rfl⟩, _, rfl, mi, rest, ⟨hmi, rfl⟩, se, fr, hs, rfl, rfl, rfl, rfl, rfl, rfl, rfl⟩
    exact ⟨rest, by simp, hs, hy, hmo, hda, hho, hmi⟩
  · rintro ⟨rest, rfl, hs, hy, hmo, hda, hho, hmi⟩
    exact ⟨year, _, ⟨hy, by simp⟩, _, rfl, month, _, ⟨hmo, rfl⟩, _, rfl, day, _, ⟨hda, rfl⟩, _, rfl,
      hour, _, ⟨hho, rfl⟩, _, rfl, minute, rest, ⟨hmi, rfl⟩, second, fraction, hs, rfl, rfl, rfl, rfl,
      rfl, rfl, rfl⟩

/-- Seconds with a fraction. -/
theorem scanSecond_fraction {cs fraction : List Char} {second : ℕ} (h : fraction ≠ []) :
    scanSecond cs = some (second, fraction) ↔ second < 10 ^ 2 ∧ (readNat fraction).isSome ∧
      cs = ':' :: (pad 2 second ++ '.' :: (fraction ++ ['Z'])) := by
  rw [scanSecond]
  split
  · next hz =>
    simp only [Option.some.injEq, Prod.mk.injEq]
    constructor
    · rintro ⟨_, rfl⟩; exact absurd rfl h
    · rintro ⟨_, _, hcs⟩; simp [hz] at hcs
  · simp only [Option.bind_eq_bind, Option.bind_eq_some_iff, Prod.exists, scanChar_eq_some,
      scanNat_eq_some, Option.pure_def, Option.some.injEq, Prod.mk.injEq]
    constructor
    · rintro ⟨_, rfl, s, rest, ⟨hs, rfl⟩, f, hf, rfl, rfl⟩
      cases rest with
      | nil => simp [scanFraction] at hf
      | cons c rest =>
        rw [scanFraction] at hf
        split at hf
        · exact absurd (Option.some_inj.mp hf).symm h
        · simp only [Option.ite_none_right_eq_some, Option.some.injEq] at hf
          obtain ⟨⟨rfl, hlast, _, hread⟩, rfl⟩ := hf
          refine ⟨hs, hread, ?_⟩
          rw [List.dropLast_append_getLast? _ hlast]
    · rintro ⟨hs, hread, rfl⟩
      refine ⟨_, rfl, second, _, ⟨hs, rfl⟩, fraction, ?_, rfl, rfl⟩
      simp [scanFraction, h, hread]

/-! ## Points in time -/

/-- A day of the Gregorian calendar, from the year 1 on. -/
structure CivilDate where
  year : ℕ
  month : ℕ
  day : ℕ
  year_pos : 1 ≤ year
  month_mem : 1 ≤ month ∧ month ≤ 12
  day_mem : 1 ≤ day ∧ day ≤ daysInMonth year month
deriving DecidableEq

theorem daysInMonth_mem (year month : ℕ) :
    28 ≤ daysInMonth year month ∧ daysInMonth year month ≤ 31 := by
  unfold daysInMonth
  split
  · split <;> omega
  · split <;> omega

/-- The day after. -/
def CivilDate.next (d : CivilDate) : CivilDate :=
  if h : d.day < daysInMonth d.year d.month then
    ⟨d.year, d.month, d.day + 1, d.year_pos, d.month_mem, by omega, h⟩
  else if h : d.month < 12 then
    ⟨d.year, d.month + 1, 1, d.year_pos, ⟨by omega, h⟩, le_rfl,
      le_trans (by decide) (daysInMonth_mem _ _).1⟩
  else
    ⟨d.year + 1, 1, 1, by omega, by decide, le_rfl, le_trans (by decide) (daysInMonth_mem _ _).1⟩

/-- A `timestamptz` value: a day and the microseconds since its midnight. -/
structure Timestamptz where
  date : CivilDate
  micros : ℕ
  micros_lt : micros < 86400000000
deriving DecidableEq

/-- A `Date`: a day and the milliseconds since its midnight. -/
structure JsDate where
  date : CivilDate
  millis : ℕ
  millis_lt : millis < 86400000
deriving DecidableEq

/-- A fraction of a second in microseconds, to the nearest, ties to even. -/
def fractionMicros (fraction : List Char) : ℕ :=
  let unit := 10 ^ fraction.length
  let scaled := (readNat fraction).getD 0 * 1000000
  if unit < 2 * (scaled % unit) ∨ 2 * (scaled % unit) = unit ∧ scaled / unit % 2 = 1 then
    scaled / unit + 1
  else scaled / unit

/-- Store a text in a `timestamptz` column. The year 0 is refused. -/
def timestamptz (text : String) : Option Timestamptz :=
  match parseDatetime text with
  | none => none
  | some d =>
    if h : 1 ≤ d.year ∧ d.Valid then
      let date : CivilDate := ⟨d.year, d.month, d.day, h.1, h.2.1, h.2.2.1⟩
      let micros := (d.hour * 3600 + d.minute * 60 + d.second) * 1000000 + fractionMicros d.fraction
      if hm : micros < 86400000000 then some ⟨date, micros, hm⟩
      else some ⟨date.next, micros % 86400000000, Nat.mod_lt _ (by decide)⟩
    else none

/-- Read a column value back. -/
def Timestamptz.toDate (t : Timestamptz) : JsDate :=
  ⟨t.date, t.micros / 1000, by have := t.micros_lt; omega⟩

/-- The column value of a `Date`. -/
def JsDate.toTimestamptz (d : JsDate) : Timestamptz :=
  ⟨d.date, d.millis * 1000, by have := d.millis_lt; omega⟩

@[simp] theorem toDate_toTimestamptz (d : JsDate) : d.toTimestamptz.toDate = d := by
  simp [JsDate.toTimestamptz, Timestamptz.toDate]

/-- Years up to 9999 have four digits, later ones a sign and six. -/
def isoYear (year : ℕ) : List Char := if year ≤ 9999 then pad 4 year else '+' :: pad 6 year

/-- `Date.prototype.toISOString`. -/
def JsDate.toISOString (d : JsDate) : String := String.ofList <|
  isoYear d.date.year ++ '-' :: (pad 2 d.date.month ++ '-' :: (pad 2 d.date.day ++ 'T' ::
    (pad 2 (d.millis / 3600000) ++ ':' :: (pad 2 (d.millis / 60000 % 60) ++
      ':' :: (pad 2 (d.millis / 1000 % 60) ++ '.' :: (pad 3 (d.millis % 1000) ++ ['Z']))))))

/-- The fields that a `Date` prints. -/
def JsDate.fields (d : JsDate) : Datetime :=
  ⟨d.date.year, d.date.month, d.date.day, d.millis / 3600000, d.millis / 60000 % 60,
    d.millis / 1000 % 60, pad 3 (d.millis % 1000)⟩

theorem pad_three_ne_nil (n : ℕ) : pad 3 n ≠ [] := by simp [pad]

/-- What a `Date` prints is in the grammar. -/
theorem parseDatetime_toISOString {d : JsDate} (h : d.date.year ≤ 9999) :
    parseDatetime d.toISOString = some d.fields := by
  have hms := d.millis_lt
  obtain ⟨hm, hm'⟩ := d.date.month_mem
  obtain ⟨hd, hd'⟩ := d.date.day_mem
  have hdim := (daysInMonth_mem d.date.year d.date.month).2
  have hscan : scanDatetime d.toISOString.toList = some d.fields := by
    refine scanDatetime_eq_some.mpr ⟨':' :: (pad 2 (d.millis / 1000 % 60) ++ '.' ::
      (pad 3 (d.millis % 1000) ++ ['Z'])), ?_, ?_, ?_⟩
    · simp [JsDate.toISOString, isoYear, h, minuteText, JsDate.fields]
    · refine (scanSecond_fraction (pad_three_ne_nil _)).mpr ⟨?_, ?_, rfl⟩
      · change d.millis / 1000 % 60 < 10 ^ 2; omega
      · simp only [readNat_pad (show d.millis % 1000 < 10 ^ 3 by omega)]; rfl
    · simp only [JsDate.fields]; omega
  have hvalid : d.fields.Valid := by
    refine ⟨d.date.month_mem, d.date.day_mem, ?_⟩
    simp only [JsDate.fields]; omega
  rw [parseDatetime, hscan, Option.filter_some, if_pos (by simpa using hvalid)]

theorem fractionMicros_of_length {fraction : List Char} {n : ℕ} (h : readNat fraction = some n)
    (hlen : fraction.length = 3) : fractionMicros fraction = n * 1000 := by
  simp only [fractionMicros, h, hlen, Option.getD_some]
  rw [show n * 1000000 % 10 ^ 3 = 0 by omega, show n * 1000000 / 10 ^ 3 = n * 1000 by omega]
  simp

/-- **What a `Date` prints is stored as the point in time it is.** -/
theorem timestamptz_toISOString {d : JsDate} (h : d.date.year ≤ 9999) :
    timestamptz d.toISOString = some d.toTimestamptz := by
  have hms := d.millis_lt
  have hparse := parseDatetime_toISOString h
  have hvalid : d.fields.Valid := by
    have := Option.filter_eq_some_iff.mp hparse
    simpa using this.2
  have hfrac : fractionMicros d.fields.fraction = d.millis % 1000 * 1000 :=
    fractionMicros_of_length (readNat_pad (by omega)) (length_pad _ _)
  have hmicros : (d.fields.hour * 3600 + d.fields.minute * 60 + d.fields.second) * 1000000
      + fractionMicros d.fields.fraction = d.millis * 1000 := by
    rw [hfrac]; simp only [JsDate.fields]; omega
  simp only [timestamptz, hparse]
  rw [dif_pos ⟨d.date.year_pos, hvalid⟩, dif_pos (by rw [hmicros]; omega)]
  simp only [hmicros]
  rfl

theorem threeFractionDigits_toISOString (d : JsDate) : ThreeFractionDigits d.toISOString := by
  intro e he
  by_cases h : d.date.year ≤ 9999
  · rw [parseDatetime_toISOString h] at he
    obtain rfl := Option.mem_some_iff.mp he
    exact length_pad 3 _
  · -- A sign is no digit, so a later year is not in the grammar.
    have hscan : scanDatetime d.toISOString.toList = none := by
      simp [scanDatetime, JsDate.toISOString, isoYear, h, scanNat, readNat, digit?]
    simp [parseDatetime, hscan] at he

/-- A text with three fraction digits, from its fields. -/
theorem toList_eq_of_threeFractionDigits {text : String} {d : Datetime}
    (h : parseDatetime text = some d) (hlen : d.fraction.length = 3) :
    ∃ n < 1000, readNat d.fraction = some n ∧
      text.toList = minuteText d ++ ':' :: (pad 2 d.second ++ '.' :: (pad 3 n ++ ['Z'])) := by
  obtain ⟨rest, htext, hsec, -⟩ := scanDatetime_eq_some.mp (Option.filter_eq_some_iff.mp h).1
  have hne : d.fraction ≠ [] := by intro h0; simp [h0] at hlen
  obtain ⟨-, hread, rfl⟩ := (scanSecond_fraction hne).mp hsec
  obtain ⟨n, hn⟩ := Option.isSome_iff_exists.mp hread
  obtain ⟨hlt, hpad⟩ := pad_readNat hn
  rw [hlen] at hlt hpad
  exact ⟨n, hlt, hn, hpad ▸ htext⟩

/-- **A text comes back as it was written exactly when it has three fraction digits.** -/
theorem toISOString_readBack_iff {text : String} {t : Timestamptz} (h : timestamptz text = some t) :
    t.toDate.toISOString = text ↔ ThreeFractionDigits text := by
  constructor
  · rintro rfl; exact threeFractionDigits_toISOString _
  intro hthree
  cases hparse : parseDatetime text with
  | none => simp [timestamptz, hparse] at h
  | some d =>
    obtain ⟨n, hn, hread, htext⟩ := toList_eq_of_threeFractionDigits hparse (hthree d hparse)
    obtain ⟨hyear, hvalid⟩ : 1 ≤ d.year ∧ d.Valid := by
      by_contra hno; simp [timestamptz, hparse, hno] at h
    have hfour : d.year ≤ 9999 := by
      have := scanDatetime_eq_some.mp (Option.filter_eq_some_iff.mp hparse).1
      obtain ⟨_, -, -, hy, -⟩ := this
      omega
    obtain ⟨-, -, hh, hm, hs⟩ := id hvalid
    have hmicros := fractionMicros_of_length hread (hthree d hparse)
    simp only [timestamptz, hparse, hmicros] at h
    rw [dif_pos ⟨hyear, hvalid⟩, dif_pos (by omega)] at h
    obtain rfl := Option.some_inj.mp h
    rw [← String.ofList_toList (s := text), htext]
    simp only [JsDate.toISOString, Timestamptz.toDate, isoYear, hfour, if_true, minuteText]
    congr 1
    rw [show ((d.hour * 3600 + d.minute * 60 + d.second) * 1000000 + n * 1000) / 1000
      = (d.hour * 3600 + d.minute * 60 + d.second) * 1000 + n by omega]
    simp only [List.append_assoc, List.cons_append]
    rw [show ((d.hour * 3600 + d.minute * 60 + d.second) * 1000 + n) / 3600000 = d.hour by omega,
      show ((d.hour * 3600 + d.minute * 60 + d.second) * 1000 + n) / 60000 % 60 = d.minute by omega,
      show ((d.hour * 3600 + d.minute * 60 + d.second) * 1000 + n) / 1000 % 60 = d.second by omega,
      show ((d.hour * 3600 + d.minute * 60 + d.second) * 1000 + n) % 1000 = n by omega]

end HarnessFramework
