import HarnessFramework.Library.JsonParse
import Mathlib.Tactic.FinCases

/-!
# Reading what was written

`JSON.parse` makes of the text that `JSON.stringify` writes the value that was written. Two things are
asked of the value, and every value that a program holds has them: its numbers are doubles, and the
members of its objects stand in the order in which they are enumerated.

The reader is followed along the text. Each part is read off the front of what is left, up to the
delimiter that comes next.

## Main definitions

* `Members.Enumerated` — members with keys of their own, in the order of enumeration
* `Json.Held` — a value that a program holds

## Main results

* `JsonNumber.readNumber_toChars`, `Json.readString_quoteTail` — numbers and strings are read whole
* `Json.readValue_stringify` — so are values
* `Json.parse_stringify` — the value comes back
-/

namespace HarnessFramework

/-! ## Members -/

namespace Members

variable {α : Type}

/-- Members with keys of their own, each after those that are enumerated before it. -/
def Enumerated (members : List (String × α)) : Prop :=
  (keys members).Pairwise fun key later => key ≠ later ∧ before later key = false

theorem set_last {key : String} {members : List (String × α)}
    (h : ∀ key' ∈ keys members, key' ≠ key ∧ before key key' = false) (value : α) :
    set key value members = members ++ [(key, value)] := by
  have hnew : key ∉ keys members := fun hmem => (h key hmem).1 rfl
  have hbefore : ∀ member ∈ members, (!before key member.1) = true := fun member hmember => by
    rw [(h member.1 (List.mem_map_of_mem hmember)).2]
    rfl
  rw [set, if_neg hnew, insertNew, List.takeWhile_eq_self_iff.mpr hbefore,
    List.dropWhile_eq_nil_iff.mpr hbefore]

theorem spread_append {current update : List (String × α)} (h : Enumerated (current ++ update)) :
    spread current update = current ++ update := by
  induction update generalizing current with
  | nil => rw [List.append_nil]; rfl
  | cons member update ih =>
    have hlast : ∀ key' ∈ keys current, key' ≠ member.1 ∧ before member.1 key' = false := by
      intro key' hkey'
      rw [Enumerated, keys, List.map_append, List.pairwise_append] at h
      exact h.2.2 key' hkey' member.1 (by simp)
    have hnext : Enumerated ((current ++ [member]) ++ update) := by
      rwa [List.append_assoc, List.singleton_append]
    rw [spread, List.foldl_cons, set_last hlast]
    show spread (current ++ [member]) update = _
    rw [ih hnext, List.append_assoc, List.singleton_append]

/-- `Object.fromEntries` leaves members as they are that stand in the order of enumeration. -/
theorem Enumerated.fromEntries {members : List (String × α)} (h : Enumerated members) :
    fromEntries members = members :=
  @spread_append _ [] members h

end Members

/-! ## Numbers -/

namespace JsonNumber

open JsonText (readDigits readFraction readExponent readMagnitude readNumber)

/-- The text goes on with no digit. -/
def NoDigit (r : List Char) : Prop := ∀ c ∈ r.head?, c.isDigit = false

theorem isDigit_digitChar (d : Fin 10) : (digitChar d).isDigit = true := by revert d; decide

theorem noDigit_of_head {r : List Char} {c : Char} (hc : c.isDigit = false) : NoDigit (c :: r) := by
  intro c' hc'
  obtain rfl : c = c' := by simpa using hc'
  exact hc

theorem noDigit_delimited {r : List Char} (hr : JsonText.Delimited r) : NoDigit r := by
  intro c hc
  rw [← Bool.not_eq_true]
  intro hdigit
  refine hr c hc (.inl ⟨charDigit c, ?_⟩)
  have hbounds : 48 ≤ c.toNat ∧ c.toNat ≤ 57 := by
    simpa [Char.isDigit, UInt32.le_iff_toNat_le] using hdigit
  have hval : ((charDigit c : Fin 10) : ℕ) = c.toNat - 48 := by
    simp only [charDigit, Fin.val_ofNat]
    omega
  rw [digitChar, hval, show 48 + (c.toNat - 48) = c.toNat by omega, Char.ofNat_toNat]

theorem takeWhile_digits (ds : List (Fin 10)) {r : List Char} (hr : NoDigit r) :
    (ds.map digitChar ++ r).takeWhile Char.isDigit = ds.map digitChar := by
  rw [List.takeWhile_append_of_pos (by simp [isDigit_digitChar])]
  cases r with
  | nil => simp
  | cons c r => rw [List.takeWhile_cons_of_neg (by simp [hr c rfl]), List.append_nil]

theorem dropWhile_digits (ds : List (Fin 10)) {r : List Char} (hr : NoDigit r) :
    (ds.map digitChar ++ r).dropWhile Char.isDigit = r := by
  rw [List.dropWhile_append_of_pos (by simp [isDigit_digitChar])]
  cases r with
  | nil => rfl
  | cons c r => rw [List.dropWhile_cons_of_neg (by simp [hr c rfl])]

theorem readDigits_append {ds : List (Fin 10)} (hne : ds ≠ []) {r : List Char} (hr : NoDigit r) :
    readDigits (ds.map digitChar ++ r) = some (ds.map digitChar, r) := by
  rw [readDigits, takeWhile_digits ds hr, dropWhile_digits ds hr, if_neg (by simpa using hne)]

/-- The part after a decimal point, if there is one. -/
def fractionChars (fs : List (Fin 10)) : List Char := if fs = [] then [] else '.' :: fs.map digitChar

/-- The power of ten, if there is one. -/
def powerChars (e : ℤ) : List Char := if e = 0 then [] else exponentChars e

theorem natDigits_ne_nil {n : ℕ} (hn : n ≠ 0) : natDigits n ≠ [] := by
  intro h
  have hzero := natOf_natDigits n
  rw [h] at hzero
  exact hn hzero.symm

theorem noDigit_power {e : ℤ} {r : List Char} (hr : JsonText.Delimited r) : NoDigit (powerChars e ++ r) := by
  rw [powerChars]
  split
  · exact noDigit_delimited hr
  · exact noDigit_of_head (by decide)

theorem noDigit_fraction {fs : List (Fin 10)} {e : ℤ} {r : List Char} (hr : JsonText.Delimited r) :
    NoDigit (fractionChars fs ++ (powerChars e ++ r)) := by
  rw [fractionChars]
  split
  · exact noDigit_power hr
  · exact noDigit_of_head (by decide)

theorem readExponent_power {e : ℤ} {r : List Char} (hr : JsonText.Delimited r)
    (hupper : r.head? ≠ some 'E') : readExponent (powerChars e ++ r) = some (powerChars e, r) := by
  rw [powerChars]
  split
  · cases r with
    | nil => rfl
    | cons c r =>
      have hlower : c ≠ 'e' := by
        rintro rfl
        exact hr 'e' rfl (by simp [Numeric])
      have hupper' : c ≠ 'E' := by
        rintro rfl
        exact hupper rfl
      rw [List.nil_append]
      unfold readExponent
      exact if_neg (by simp [hlower, hupper'])
  · next he =>
    have hdigits := readDigits_append (natDigits_ne_nil (Int.natAbs_ne_zero.mpr he))
      (noDigit_delimited hr)
    rw [exponentChars, List.cons_append, List.cons_append, signChar]
    unfold readExponent
    by_cases hneg : e < 0
    · simp only [if_pos hneg, hdigits, Option.map_some, true_or, if_true]
    · simp only [if_neg hneg, hdigits, Option.map_some, true_or, if_true]

theorem readFraction_power {fs : List (Fin 10)} {e : ℤ} {r : List Char}
    (hr : JsonText.Delimited r) : readFraction (fractionChars fs ++ (powerChars e ++ r)) =
      some (fractionChars fs, powerChars e ++ r) := by
  rw [fractionChars]
  split
  · have hdot : (powerChars e ++ r).head? ≠ some '.' := by
      rw [powerChars]
      split
      · intro h
        exact hr '.' (by simpa using h) (by simp [Numeric])
      · simp [exponentChars]
    rw [List.nil_append]
    cases hrest : powerChars e ++ r with
    | nil => rfl
    | cons c cs =>
      rw [hrest] at hdot
      have hc : c ≠ '.' := by simpa using hdot
      unfold readFraction
      split
      · next heq => exact absurd (List.cons.inj heq).1 hc
      · rfl
  · next hfs =>
    rw [List.cons_append]
    unfold readFraction
    simp only [readDigits_append hfs (noDigit_power hr), Option.map_some]

/-- A number without its sign is read whole. -/
theorem readMagnitude_append {ws fs : List (Fin 10)} {e : ℤ} (hne : ws ≠ [])
    (hzero : ws.head? = some 0 → ws = [0]) {r : List Char} (hr : JsonText.Delimited r)
    (hupper : r.head? ≠ some 'E') :
    readMagnitude (ws.map digitChar ++ (fractionChars fs ++ (powerChars e ++ r))) =
      some (ws.map digitChar ++ fractionChars fs ++ powerChars e, r) := by
  have hlead : ¬((ws.map digitChar).head? = some '0' ∧ ws.map digitChar ≠ ['0']) := by
    rintro ⟨hhead, hmore⟩
    obtain ⟨w, ws, rfl⟩ := List.exists_cons_of_ne_nil hne
    have hw : w = 0 := by
      have hchar : digitChar w = digitChar 0 := (Option.some.inj hhead).trans rfl
      simpa using congrArg charDigit hchar
    subst hw
    rw [hzero rfl] at hmore
    exact hmore rfl
  simp only [readMagnitude, readDigits_append hne (noDigit_fraction hr), Option.bind_eq_bind,
    Option.bind_some, if_neg hlead, readFraction_power hr, readExponent_power hr hupper]
  rfl

/-- The four ways to write a number are one: digits, a fraction and a power of ten. -/
theorem exists_magnitude {ds : List (Fin 10)} (hne : ds ≠ []) (hhead : ds.head? ≠ some 0) (n : ℤ) :
    ∃ ws fs e, ws ≠ [] ∧ (ws.head? = some 0 → ws = [0]) ∧
      magnitudeChars ds n = ws.map digitChar ++ fractionChars fs ++ powerChars e := by
  obtain ⟨d, rest, rfl⟩ := List.exists_cons_of_ne_nil hne
  have hd : d ≠ 0 := fun h => hhead (by rw [h]; rfl)
  rw [magnitudeChars]
  split
  · refine ⟨(d :: rest) ++ List.replicate (n - (d :: rest).length).toNat 0, [], 0, by simp, ?_, ?_⟩
    · intro h
      exact absurd (Option.some.inj h) hd
    · simp [fractionChars, powerChars]
  split
  · next hlong hn =>
    obtain ⟨k, hk⟩ : ∃ k, n.toNat = k + 1 := ⟨n.toNat - 1, by omega⟩
    refine ⟨(d :: rest).take n.toNat, (d :: rest).drop n.toNat, 0, ?_, ?_, ?_⟩
    · simp [hk]
    · intro h
      rw [hk] at h
      exact absurd (Option.some.inj h) hd
    · have hmore : (d :: rest).drop n.toNat ≠ [] := by
        rw [Ne, List.drop_eq_nil_iff]
        omega
      rw [fractionChars, if_neg hmore, powerChars, if_pos rfl, List.append_nil]
  split
  · refine ⟨[0], List.replicate (-n).toNat 0 ++ (d :: rest), 0, by simp, fun _ => rfl, ?_⟩
    rw [fractionChars, if_neg (by simp), powerChars, if_pos rfl, List.append_nil]
    rfl
  · next hlow hhigh =>
    refine ⟨[d], rest, n - 1, by simp, ?_, ?_⟩
    · intro h
      exact absurd (Option.some.inj h) hd
    · rw [powerChars, if_neg (show n - 1 ≠ 0 by omega), fractionChars]
      cases rest <;> simp

/-- The text goes on with what may follow a value, or ends. -/
def Ends (r : List Char) : Prop := ∀ c ∈ r.head?, c = ',' ∨ c = ']' ∨ c = '}'

theorem Ends.delimited {r : List Char} (hr : Ends r) : JsonText.Delimited r := fun c hc =>
  JsonText.not_numeric_delimiter (hr c hc)

theorem Ends.head_ne {r : List Char} (hr : Ends r) : r.head? ≠ some 'E' := by
  intro h
  rcases hr 'E' h with h' | h' | h' <;> exact absurd h' (by decide)

/-- **A number is read whole.** -/
theorem readNumber_toChars (x : JsonNumber) {r : List Char} (hr : Ends r) :
    readNumber (x.toChars ++ r) = some (x.toChars, r) := by
  have hpositive : ∀ {cs : List Char}, (∀ c ∈ cs.head?, c ≠ '-') → readNumber cs = readMagnitude cs := by
    intro cs hcs
    unfold readNumber
    split
    · exact absurd rfl (hcs '-' rfl)
    · rfl
  rw [toChars]
  split
  · rw [hpositive (by simp [digitChar_ne_minus])]
    exact @readMagnitude_append [0] [] 0 (by simp) (fun _ => rfl) r hr.delimited hr.head_ne
  · next hne =>
    obtain ⟨ws, fs, e, hws, hzero, hchars⟩ := exists_magnitude hne x.head_ne x.exponent
    have hread := @readMagnitude_append ws fs e hws hzero r hr.delimited hr.head_ne
    rw [hchars]
    cases x.negative
    · rw [if_neg (by simp), List.nil_append, hpositive]
      · rw [List.append_assoc, List.append_assoc, hread, List.append_assoc]
      · obtain ⟨w, ws, rfl⟩ := List.exists_cons_of_ne_nil hws
        simp [digitChar_ne_minus]
    · rw [if_pos rfl]
      unfold readNumber
      simp only [List.cons_append, List.nil_append, List.append_assoc] at hread ⊢
      rw [hread]
      rfl

end JsonNumber

/-! ## Strings -/

namespace Json

open JsonText (readUnit readEscaped readChar readChars readString hexDigit?)

theorem hexDigit?_hexChar : ∀ n < 16, hexDigit? (hexChar n) = some n := by decide

/-- One character of a quoted text is read as it was before it was escaped. -/
theorem readChar_escape (c : Char) (r : List Char) : readChar (escape c ++ r) = some (c, r) := by
  rw [escape]
  split
  · next h => rw [h]; rfl
  split
  · next h => rw [h]; rfl
  split
  · next h => rw [eq_ofNat_of_toNat h]; rfl
  split
  · next h => rw [eq_ofNat_of_toNat h]; rfl
  split
  · next h => rw [eq_ofNat_of_toNat h]; rfl
  split
  · next h => rw [eq_ofNat_of_toNat h]; rfl
  split
  · next h => rw [eq_ofNat_of_toNat h]; rfl
  split
  · next h =>
    have hzero : hexDigit? '0' = some 0 := by decide
    have hunit : readUnit ('0' :: '0' :: hexChar (c.toNat / 16) :: hexChar (c.toNat % 16) :: r) =
        some (c.toNat, r) := by
      simp only [readUnit, hzero, hexDigit?_hexChar _ (show c.toNat / 16 < 16 by omega),
        hexDigit?_hexChar _ (show c.toNat % 16 < 16 by omega), Option.bind_eq_bind, Option.bind_some]
      exact congrArg some (Prod.ext (by simp only; omega) rfl)
    show readEscaped ('0' :: '0' :: hexChar (c.toNat / 16) :: hexChar (c.toNat % 16) :: r) = _
    simp only [readEscaped, hunit, Option.bind_eq_bind, Option.bind_some]
    rw [if_neg (by omega), Char.ofNat_toNat]
    rfl
  · next hquote hslash _ _ _ _ _ hlow =>
    rw [List.cons_append, List.nil_append]
    unfold readChar
    split <;> simp_all

/-- What a character is written as does not start with a quote. -/
theorem head?_escape (c : Char) : ∃ d cs, escape c = d :: cs ∧ d ≠ '"' := by
  rw [escape]
  split
  · exact ⟨_, _, rfl, by decide⟩
  · next h =>
    split_ifs
    all_goals first
      | exact ⟨_, _, rfl, by decide⟩
      | exact ⟨_, _, rfl, h⟩

theorem readChars_quoteTail (cs r : List Char) (fuel : ℕ) (hfuel : cs.length < fuel) :
    readChars fuel (quoteTail cs ++ r) = some (cs, r) := by
  induction cs generalizing fuel with
  | nil =>
    obtain ⟨fuel, rfl⟩ : ∃ n, fuel = n + 1 := ⟨fuel - 1, by omega⟩
    rfl
  | cons c cs ih =>
    obtain ⟨fuel, rfl⟩ : ∃ n, fuel = n + 1 := ⟨fuel - 1, by omega⟩
    have hread := readChar_escape c (quoteTail cs ++ r)
    obtain ⟨d, ds, hds, hd⟩ := head?_escape c
    rw [quoteTail, List.append_assoc]
    rw [hds, List.cons_append] at hread ⊢
    rw [readChars]
    · simp only [hread, ih fuel (by simp at hfuel; omega), Option.bind_eq_bind, Option.bind_some]
      rfl
    · intro r' heq
      exact absurd (List.cons.inj heq).1 hd

theorem length_le_quoteTail (cs : List Char) : cs.length < (quoteTail cs).length := by
  induction cs with
  | nil => simp [quoteTail]
  | cons c cs ih =>
    obtain ⟨d, ds, hds, -⟩ := head?_escape c
    rw [quoteTail, hds]
    simp
    omega

/-- **A string is read whole**, after its opening quote. -/
theorem readString_quoteTail (s : String) (r : List Char) :
    readString (quoteTail s.toList ++ r) = some (s, r) := by
  have hlength := length_le_quoteTail s.toList
  rw [readString, readChars_quoteTail _ _ _ (by rw [List.length_append]; omega), Option.map_some,
    String.ofList_toList]

/-! ## Values -/

open JsonText (readValue readItems readMember readMembers readNumber skipSpace)

theorem isSpace_of_kind {c : Char} (hc : JsonText.isSpace c = true) : JsonNumber.Numeric c → False := by
  rintro (⟨d, rfl⟩ | rfl | rfl | rfl | rfl)
  · revert d; decide
  all_goals exact absurd hc (by decide)

/-- No white space stands before a value. -/
theorem skipSpace_stringify (v : Json) (r : List Char) :
    skipSpace (stringify v ++ r) = stringify v ++ r := by
  have hskip : ∀ {c : Char} (cs : List Char), JsonText.isSpace c = false →
      skipSpace (c :: cs) = c :: cs := by
    intro c cs hc
    rw [skipSpace, List.dropWhile_cons_of_neg (by simp [hc])]
  match v with
  | .null | .bool true | .bool false | .arr [] | .obj [] => rfl
  | .str s => exact hskip _ (by decide)
  | .arr (x :: xs) =>
    rw [stringify]
    exact hskip _ (by decide)
  | .obj ((k, v) :: ms) =>
    rw [stringify]
    exact hskip _ (by decide)
  | .num n =>
    obtain ⟨c, cs, hcs, hc⟩ := n.exists_toChars
    rw [stringify, hcs]
    refine hskip _ (Bool.eq_false_iff.mpr fun hspace => isSpace_of_kind hspace ?_)
    exact hc.imp_right .inl

theorem skipSpace_stringifyItems (items : List Json) (r : List Char) :
    skipSpace (stringifyItems items ++ r) = stringifyItems items ++ r := by
  cases items <;> rfl

theorem skipSpace_stringifyMembers (members : List (String × Json)) (r : List Char) :
    skipSpace (stringifyMembers members ++ r) = stringifyMembers members ++ r := by
  cases members <;> rfl

theorem ends_items (items : List Json) (r : List Char) : JsonNumber.Ends (stringifyItems items ++ r) := by
  cases items <;> simp [stringifyItems, JsonNumber.Ends]

theorem ends_members (members : List (String × Json)) (r : List Char) :
    JsonNumber.Ends (stringifyMembers members ++ r) := by
  cases members <;> simp [stringifyMembers, JsonNumber.Ends]

/-- A text that starts as a number does is read as one. -/
theorem readValue_number {c : Char} (hc : (∃ d, JsonNumber.digitChar d = c) ∨ c = '-') (fuel : ℕ)
    (r : List Char) : readValue (fuel + 1) (c :: r) =
      (readNumber (c :: r)).map fun read => (.num read.1, read.2) := by
  rcases hc with ⟨d, rfl⟩ | rfl
  · fin_cases d <;> rfl
  · rfl

/-- A value does not start with a closing bracket. -/
theorem stringify_ne_close (v : Json) (r rest : List Char) : stringify v ++ r ≠ ']' :: rest := by
  intro h
  obtain ⟨c, cs, hcs, hkind⟩ := JsonText.exists_toChars (spelled_toText v)
  rw [stringify_eq, hcs] at h
  obtain rfl : c = ']' := (List.cons.inj h).1
  cases v with
  | num n =>
    obtain ⟨d, ds, hds, hd⟩ := n.exists_toChars
    rw [toText, JsonText.toChars, hds] at hcs
    obtain rfl : d = ']' := (List.cons.inj hcs).1
    rcases hd with ⟨d, hd⟩ | hd
    · revert d; decide
    · exact absurd hd (by decide)
  | bool b => cases b <;> simp [toText, JsonText.kind, JsonText.kindOfChar] at hkind
  | _ => simp [toText, JsonText.kind, JsonText.kindOfChar] at hkind

/-- An array with items is read from its first item on. -/
theorem readValue_array (fuel : ℕ) {cs : List Char} (hskip : skipSpace cs = cs)
    (hclose : ∀ rest, cs ≠ ']' :: rest) :
    readValue (fuel + 1) ('[' :: cs) = (readValue fuel cs).bind fun item =>
      (readItems fuel (skipSpace item.2)).map fun items => (.arr (item.1 :: items.1), items.2) := by
  rw [readValue, hskip]
  split
  · next rest => exact absurd rfl (hclose rest)
  · cases readValue fuel cs with
    | none => rfl
    | some item => cases hitems : readItems fuel (skipSpace item.2) <;> simp [hitems]

/-- An object with members is read from its first member on. -/
theorem readValue_object (fuel : ℕ) (cs : List Char) :
    readValue (fuel + 1) ('{' :: '"' :: cs) = (readMember fuel ('"' :: cs)).bind fun member =>
      (readMembers fuel (skipSpace member.2)).map fun members =>
        (.obj (member.1 :: members.1), members.2) := by
  have hskip : skipSpace ('"' :: cs) = '"' :: cs := rfl
  rw [readValue, hskip]
  cases hmember : readMember fuel ('"' :: cs) with
  | none => simp [hmember]
  | some member =>
    cases hmembers : readMembers fuel (skipSpace member.2) <;> simp [hmember, hmembers]

/-- A member is read from its key on. -/
theorem readMember_append (fuel : ℕ) (key : String) (cs : List Char) :
    readMember (fuel + 1) (quote key ++ ':' :: cs) =
      (readValue fuel (skipSpace cs)).map fun value => ((key, value.1), value.2) := by
  have hskip : skipSpace (':' :: cs) = ':' :: cs := rfl
  rw [quote, List.cons_append, readMember]
  simp only [readString_quoteTail, Option.bind_eq_bind, Option.bind_some, hskip]
  cases readValue fuel (skipSpace cs) <;> rfl

mutual

/-- **A value is read whole.** A level of the value takes at least one character of its text. -/
theorem readValue_stringify : ∀ (v : Json) (fuel : ℕ) (r : List Char), (stringify v).length ≤ fuel →
    JsonNumber.Ends r → readValue fuel (stringify v ++ r) = some (v.toText, r)
  | .null, fuel, r, hfuel, _ => by
    obtain ⟨n, rfl⟩ : ∃ n, fuel = n + 1 := ⟨fuel - 1, by simp [stringify] at hfuel; omega⟩
    rfl
  | .bool true, fuel, r, hfuel, _ => by
    obtain ⟨n, rfl⟩ : ∃ n, fuel = n + 1 := ⟨fuel - 1, by simp [stringify] at hfuel; omega⟩
    rfl
  | .bool false, fuel, r, hfuel, _ => by
    obtain ⟨n, rfl⟩ : ∃ n, fuel = n + 1 := ⟨fuel - 1, by simp [stringify] at hfuel; omega⟩
    rfl
  | .num x, fuel, r, hfuel, hr => by
    have hread := JsonNumber.readNumber_toChars x hr
    obtain ⟨c, cs, hcs, hc⟩ := x.exists_toChars
    rw [stringify, hcs] at hfuel ⊢
    obtain ⟨n, rfl⟩ : ∃ n, fuel = n + 1 := ⟨fuel - 1, by simp at hfuel; omega⟩
    rw [hcs] at hread
    rw [List.cons_append, readValue_number hc, ← List.cons_append, hread, toText, hcs]
    rfl
  | .str s, fuel, r, hfuel, _ => by
    obtain ⟨n, rfl⟩ : ∃ n, fuel = n + 1 := ⟨fuel - 1, by simp [stringify, quote] at hfuel; omega⟩
    rw [stringify, quote, List.cons_append, readValue, readString_quoteTail]
    rfl
  | .arr [], fuel, r, hfuel, _ => by
    obtain ⟨n, rfl⟩ : ∃ n, fuel = n + 1 := ⟨fuel - 1, by simp [stringify] at hfuel; omega⟩
    rfl
  | .arr (item :: items), fuel, r, hfuel, _ => by
    simp only [stringify, List.length_cons, List.length_append] at hfuel
    obtain ⟨n, rfl⟩ : ∃ n, fuel = n + 1 := ⟨fuel - 1, by omega⟩
    have hitem := readValue_stringify item n (stringifyItems items ++ r) (by omega) (ends_items items r)
    have hitems := readItems_stringify items n r (by omega)
    rw [stringify, List.cons_append, List.append_assoc, readValue_array _
      (skipSpace_stringify item _) (stringify_ne_close item _), hitem, Option.bind_some,
      skipSpace_stringifyItems, hitems]
    rfl
  | .obj [], fuel, r, hfuel, _ => by
    obtain ⟨n, rfl⟩ : ∃ n, fuel = n + 1 := ⟨fuel - 1, by simp [stringify] at hfuel; omega⟩
    rfl
  | .obj ((key, value) :: members), fuel, r, hfuel, _ => by
    simp only [stringify, List.length_cons, List.length_append, quote] at hfuel
    obtain ⟨n, rfl⟩ : ∃ n, fuel = n + 2 := ⟨fuel - 2, by omega⟩
    have hvalue := readValue_stringify value n (stringifyMembers members ++ r) (by omega)
      (ends_members members r)
    have hmembers := readMembers_stringify members (n + 1) r (by omega)
    have hmember := readMember_append n key (stringify value ++ (stringifyMembers members ++ r))
    rw [skipSpace_stringify, hvalue, Option.map_some] at hmember
    rw [quote, List.cons_append] at hmember
    rw [stringify, quote, List.cons_append, List.cons_append, List.cons_append, List.append_assoc,
      List.cons_append, List.append_assoc, readValue_object, hmember, Option.bind_some,
      skipSpace_stringifyMembers, hmembers]
    rfl

theorem readItems_stringify : ∀ (items : List Json) (fuel : ℕ) (r : List Char),
    (stringifyItems items).length ≤ fuel →
    readItems fuel (stringifyItems items ++ r) = some (itemsText items, r)
  | [], fuel, r, hfuel => by
    obtain ⟨n, rfl⟩ : ∃ n, fuel = n + 1 := ⟨fuel - 1, by simp [stringifyItems] at hfuel; omega⟩
    rfl
  | item :: items, fuel, r, hfuel => by
    simp only [stringifyItems, List.length_cons, List.length_append] at hfuel
    obtain ⟨n, rfl⟩ : ∃ n, fuel = n + 1 := ⟨fuel - 1, by omega⟩
    have hitem := readValue_stringify item n (stringifyItems items ++ r) (by omega) (ends_items items r)
    have hitems := readItems_stringify items n r (by omega)
    rw [stringifyItems, List.cons_append, List.append_assoc, readItems]
    simp only [skipSpace_stringify, hitem, Option.bind_eq_bind, Option.bind_some,
      skipSpace_stringifyItems, hitems]
    rfl

theorem readMembers_stringify : ∀ (members : List (String × Json)) (fuel : ℕ) (r : List Char),
    (stringifyMembers members).length ≤ fuel →
    readMembers fuel (stringifyMembers members ++ r) = some (membersText members, r)
  | [], fuel, r, hfuel => by
    obtain ⟨n, rfl⟩ : ∃ n, fuel = n + 1 := ⟨fuel - 1, by simp [stringifyMembers] at hfuel; omega⟩
    rfl
  | (key, value) :: members, fuel, r, hfuel => by
    simp only [stringifyMembers, List.length_cons, List.length_append, quote] at hfuel
    obtain ⟨n, rfl⟩ : ∃ n, fuel = n + 2 := ⟨fuel - 2, by omega⟩
    have hvalue := readValue_stringify value n (stringifyMembers members ++ r) (by omega)
      (ends_members members r)
    have hmembers := readMembers_stringify members (n + 1) r (by omega)
    have hskip : ∀ cs, skipSpace (quote key ++ cs) = quote key ++ cs := fun cs => rfl
    rw [stringifyMembers, List.cons_append, List.append_assoc, List.cons_append, List.append_assoc,
      readMembers]
    simp only [hskip, readMember_append, skipSpace_stringify, hvalue, Option.bind_eq_bind,
      Option.bind_some, Option.map_some, skipSpace_stringifyMembers, hmembers]
    rfl

end

/-- The tree of what was written. -/
theorem parse_text (v : Json) : JsonText.parse (stringify v) = some v.toText := by
  have hskip : skipSpace (stringify v) = stringify v := by
    have h := skipSpace_stringify v []
    rwa [List.append_nil] at h
  have hread := readValue_stringify v (2 * (stringify v).length + 1) [] (by omega) (by simp [JsonNumber.Ends])
  rw [List.append_nil] at hread
  rw [JsonText.parse, hskip, hread]
  rfl

mutual

/-- A value that a program holds: its numbers are doubles, its members stand in the order in which they
are enumerated. -/
def Held : Json → Prop
  | .num n => n.round = some n
  | .arr items => ItemsHeld items
  | .obj members => Members.Enumerated members ∧ MembersHeld members
  | .null => True
  | .bool _ => True
  | .str _ => True

/-- Items that a program holds. -/
def ItemsHeld : List Json → Prop
  | [] => True
  | item :: items => Held item ∧ ItemsHeld items

/-- Members that a program holds. -/
def MembersHeld : List (String × Json) → Prop
  | [] => True
  | (_, value) :: members => Held value ∧ MembersHeld members

end

mutual

theorem toJson?_toText : ∀ v : Json, v.Held → v.toText.toJson? = some v
  | .null, _ => rfl
  | .bool _, _ => rfl
  | .str _, _ => rfl
  | .num n, h => by
    have hround : n.round = some n := h
    rw [toText, JsonText.toJson?, JsonNumber.decode_toChars, hround, Option.map_some]
  | .arr items, h => by
    rw [toText, JsonText.toJson?, itemsJson?_itemsText items h, Option.map_some]
  | .obj members, h => by
    rw [toText, JsonText.toJson?, membersJson?_membersText members h.2, Option.map_some, h.1.fromEntries]

theorem itemsJson?_itemsText : ∀ items : List Json, ItemsHeld items →
    JsonText.itemsJson? (itemsText items) = some items
  | [], _ => rfl
  | item :: items, h => by
    rw [itemsText, JsonText.itemsJson?, toJson?_toText item h.1, itemsJson?_itemsText items h.2]
    rfl

theorem membersJson?_membersText : ∀ members : List (String × Json), MembersHeld members →
    JsonText.membersJson? (membersText members) = some members
  | [], _ => rfl
  | (key, value) :: members, h => by
    rw [membersText, JsonText.membersJson?, toJson?_toText value h.1,
      membersJson?_membersText members h.2]
    rfl

end

/-- **What was written is read back**: `JSON.parse(JSON.stringify(value))` is the value. -/
theorem parse_stringify {v : Json} (h : v.Held) :
    (JsonText.parse (stringify v)).bind JsonText.toJson? = some v := by
  rw [parse_text, Option.bind_some, toJson?_toText v h]

end Json

end HarnessFramework
