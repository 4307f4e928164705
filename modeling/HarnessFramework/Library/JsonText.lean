import HarnessFramework.Library.JsonNumber

/-!
# The text of a JSON value

A text without white space, as a tree whose numbers are the characters they are spelled with. A value
followed by a delimiter can be split from the rest in one way only (`JsonText.toChars_cancel`), so
the characters determine the tree, whatever spells the numbers.

## Main definitions

* `Json.quote` — the text of a string
* `JsonText`, `JsonText.toChars` — a text as a tree, and its characters
* `JsonText.Spelled` — its numbers are spelled with numeric characters

## Main results

* `Json.quote_cancel`, `JsonText.toChars_cancel`, `JsonText.toChars_inj`
-/

namespace HarnessFramework

namespace Json

/-! ### The text of a string -/

/-- A hexadecimal digit. -/
def hexChar (n : ℕ) : Char := if n < 10 then Char.ofNat (48 + n) else Char.ofNat (87 + n)

/-- The value of a hexadecimal digit. -/
def hexVal (c : Char) : ℕ := if c.toNat < 58 then c.toNat - 48 else c.toNat - 87

/-- A character as it stands inside a quoted string. -/
def escape (c : Char) : List Char :=
  if c = '"' then ['\\', '"']
  else if c = '\\' then ['\\', '\\']
  else if c.toNat = 8 then ['\\', 'b']
  else if c.toNat = 9 then ['\\', 't']
  else if c.toNat = 10 then ['\\', 'n']
  else if c.toNat = 12 then ['\\', 'f']
  else if c.toNat = 13 then ['\\', 'r']
  else if c.toNat < 32 then ['\\', 'u', '0', '0', hexChar (c.toNat / 16), hexChar (c.toNat % 16)]
  else [c]

/-- Read one character of a quoted string; `none` at the closing quote. -/
def unescape : List Char → Option (Char × List Char)
  | '\\' :: 'b' :: r => some (Char.ofNat 8, r)
  | '\\' :: 't' :: r => some (Char.ofNat 9, r)
  | '\\' :: 'n' :: r => some (Char.ofNat 10, r)
  | '\\' :: 'f' :: r => some (Char.ofNat 12, r)
  | '\\' :: 'r' :: r => some (Char.ofNat 13, r)
  | '\\' :: 'u' :: '0' :: '0' :: h :: l :: r => some (Char.ofNat (16 * hexVal h + hexVal l), r)
  | '\\' :: c :: r => some (c, r)
  | '"' :: _ => none
  | c :: r => some (c, r)
  | [] => none

theorem hexVal_hexChar : ∀ n < 16, hexVal (hexChar n) = n := by decide

theorem eq_ofNat_of_toNat {c : Char} {n : ℕ} (h : c.toNat = n) : c = Char.ofNat n := by
  rw [← h, Char.ofNat_toNat]

/-- One character of a quoted string can be read in one way only. -/
theorem unescape_escape (c : Char) (r : List Char) : unescape (escape c ++ r) = some (c, r) := by
  rw [escape]
  split
  · next h => rw [h]; rfl
  split
  · next h => rw [h]; rfl
  split
  · next h => rw [eq_ofNat_of_toNat h]; rfl
  split
  · next h => rw [eq_ofNat_of_toNat h]; rfl
  split
  · next h => rw [eq_ofNat_of_toNat h]; rfl
  split
  · next h => rw [eq_ofNat_of_toNat h]; rfl
  split
  · next h => rw [eq_ofNat_of_toNat h]; rfl
  split
  · next h =>
    have hval : 16 * hexVal (hexChar (c.toNat / 16)) + hexVal (hexChar (c.toNat % 16)) = c.toNat := by
      rw [hexVal_hexChar _ (by omega), hexVal_hexChar _ (by omega)]; omega
    simp only [List.cons_append, List.nil_append, unescape, hval, Char.ofNat_toNat]
  · next hq hb _ _ _ _ _ _ =>
    simp only [List.cons_append, List.nil_append]
    rw [unescape.eq_def]
    split <;> simp_all

theorem unescape_quote (r : List Char) : unescape ('"' :: r) = none := rfl

/-- The text of a string, after its opening quote. -/
def quoteTail : List Char → List Char
  | [] => ['"']
  | c :: cs => escape c ++ quoteTail cs

/-- The text of a string. -/
def quote (s : String) : List Char := '"' :: quoteTail s.toList

theorem quoteTail_cancel {cs ds r s : List Char} (h : quoteTail cs ++ r = quoteTail ds ++ s) :
    cs = ds ∧ r = s := by
  induction cs generalizing ds with
  | nil =>
    cases ds with
    | nil => exact ⟨rfl, by simpa [quoteTail] using h⟩
    | cons d ds =>
      have := congrArg unescape h
      simp [quoteTail, unescape_escape, unescape_quote] at this
  | cons c cs ih =>
    cases ds with
    | nil =>
      have := congrArg unescape h
      simp [quoteTail, unescape_escape, unescape_quote] at this
    | cons d ds =>
      have := congrArg unescape h
      simp only [quoteTail, List.append_assoc, unescape_escape, Option.some_inj,
        Prod.mk.injEq] at this
      obtain ⟨rfl, hrest⟩ := this
      obtain ⟨rfl, hr⟩ := ih hrest
      exact ⟨rfl, hr⟩

/-- A quoted string can be split from what follows it in one way only. -/
theorem quote_cancel {s t : String} {r u : List Char} (h : quote s ++ r = quote t ++ u) :
    s = t ∧ r = u := by
  obtain ⟨hst, hru⟩ := quoteTail_cancel (List.cons.inj h).2
  exact ⟨String.toList_inj.mp hst, hru⟩

end Json

/-- A text, as a tree. -/
inductive JsonText where
  | null
  | bool (b : Bool)
  | num (chars : List Char)
  | str (s : String)
  | arr (items : List JsonText)
  | obj (members : List (String × JsonText))

namespace JsonText

open Json (quote quoteTail quote_cancel)

/-! ### Characters -/

mutual

/-- The characters of a text. -/
def toChars : JsonText → List Char
  | .null => ['n', 'u', 'l', 'l']
  | .bool true => ['t', 'r', 'u', 'e']
  | .bool false => ['f', 'a', 'l', 's', 'e']
  | .num chars => chars
  | .str s => quote s
  | .arr [] => ['[', ']']
  | .arr (item :: items) => '[' :: (toChars item ++ itemsChars items)
  | .obj [] => ['{', '}']
  | .obj ((key, value) :: members) =>
    '{' :: (quote key ++ ':' :: (toChars value ++ membersChars members))

/-- The items of an array after the first, with the closing bracket. -/
def itemsChars : List JsonText → List Char
  | [] => [']']
  | item :: items => ',' :: (toChars item ++ itemsChars items)

/-- The members of an object after the first, with the closing brace. -/
def membersChars : List (String × JsonText) → List Char
  | [] => ['}']
  | (key, value) :: members =>
    ',' :: (quote key ++ ':' :: (toChars value ++ membersChars members))

end

mutual

/-- Numbers are spelled with numeric characters. -/
def Spelled : JsonText → Prop
  | .num chars => chars ≠ [] ∧ ∀ c ∈ chars, JsonNumber.Numeric c
  | .arr items => ItemsSpelled items
  | .obj members => MembersSpelled members
  | .null => True
  | .bool _ => True
  | .str _ => True

/-- The numbers in the items are spelled with numeric characters. -/
def ItemsSpelled : List JsonText → Prop
  | [] => True
  | item :: items => Spelled item ∧ ItemsSpelled items

/-- The numbers in the members are spelled with numeric characters. -/
def MembersSpelled : List (String × JsonText) → Prop
  | [] => True
  | (_, value) :: members => Spelled value ∧ MembersSpelled members

end

/-! ### The first character -/

/-- The kinds of values that their first character tells apart. -/
inductive Kind
  | null | true | false | num | str | arr | obj
  deriving DecidableEq

/-- The kind of a value. -/
def kind : JsonText → Kind
  | .null => .null
  | .bool true => .true
  | .bool false => .false
  | .num _ => .num
  | .str _ => .str
  | .arr _ => .arr
  | .obj _ => .obj

/-- The kind of value that starts with a character. -/
def kindOfChar (c : Char) : Kind :=
  if c = 'n' then .null else if c = 't' then .true else if c = 'f' then .false
  else if c = '"' then .str else if c = '[' then .arr else if c = '{' then .obj else .num

theorem kindOfChar_numeric {c : Char} (h : JsonNumber.Numeric c) : kindOfChar c = .num := by
  rcases h with ⟨d, rfl⟩ | rfl | rfl | rfl | rfl
  · revert d; decide
  all_goals decide

theorem exists_toChars {a : JsonText} (ha : a.Spelled) :
    ∃ c cs, a.toChars = c :: cs ∧ kindOfChar c = a.kind := by
  match a with
  | .null | .bool true | .bool false | .arr [] | .obj [] => exact ⟨_, _, rfl, by decide⟩
  | .str s => exact ⟨'"', quoteTail s.toList, by simp [toChars, quote], by simp [kind, kindOfChar]⟩
  | .arr (x :: xs) => exact ⟨'[', _, by rw [toChars], by simp [kind, kindOfChar]⟩
  | .obj ((k, v) :: ms) => exact ⟨'{', _, by rw [toChars], by simp [kind, kindOfChar]⟩
  | .num chars =>
    rw [Spelled] at ha
    obtain ⟨c, cs, hc⟩ := List.exists_cons_of_ne_nil ha.1
    exact ⟨c, cs, by rw [toChars, hc], kindOfChar_numeric (ha.2 c (by rw [hc]; exact .head _))⟩

/-- Equal characters start values of one kind. -/
theorem kind_eq_of_toChars {a b : JsonText} (ha : a.Spelled) (hb : b.Spelled) {r s : List Char}
    (h : a.toChars ++ r = b.toChars ++ s) : a.kind = b.kind := by
  obtain ⟨c, cs, hc, hk⟩ := exists_toChars ha
  obtain ⟨d, ds, hd, hk'⟩ := exists_toChars hb
  rw [hc, hd] at h
  rw [← hk, ← hk', (List.cons.inj h).1]

/-! ### Splitting off a value -/

/-- The text goes on with a delimiter, or ends. -/
def Delimited (r : List Char) : Prop := ∀ c ∈ r.head?, ¬ JsonNumber.Numeric c

theorem delimited_nil : Delimited [] := by simp [Delimited]

theorem not_numeric_delimiter {c : Char} (h : c = ',' ∨ c = ']' ∨ c = '}') :
    ¬ JsonNumber.Numeric c := by
  rintro (⟨d, rfl⟩ | hc)
  · revert d; decide
  · rcases h with rfl | rfl | rfl <;> simp at hc

theorem delimited_items (items : List JsonText) (r : List Char) :
    Delimited (itemsChars items ++ r) := by
  cases items <;>
    simp [itemsChars, Delimited, not_numeric_delimiter]

theorem delimited_members (members : List (String × JsonText)) (r : List Char) :
    Delimited (membersChars members ++ r) := by
  cases members <;>
    simp [membersChars, Delimited, not_numeric_delimiter]

/-- A value starts with no closing bracket. -/
theorem toChars_ne_bracket {a : JsonText} (ha : a.Spelled) (r s : List Char) :
    ']' :: r ≠ a.toChars ++ s := by
  obtain ⟨c, cs, hc, hk⟩ := exists_toChars ha
  rintro h
  rw [hc] at h
  obtain rfl := (List.cons.inj h).1
  match a with
  | .num chars =>
    rw [Spelled] at ha
    rw [toChars] at hc
    exact not_numeric_delimiter (c := ']') (by simp) (ha.2 ']' (by rw [hc]; exact .head _))
  | .null | .bool true | .bool false | .arr _ | .obj _ | .str _ => simp [kind, kindOfChar] at hk

/-- A number can be split from a delimiter in one way only. -/
theorem numeric_cancel {m n r s : List Char} (hm : ∀ c ∈ m, JsonNumber.Numeric c)
    (hn : ∀ c ∈ n, JsonNumber.Numeric c) (hr : Delimited r) (hs : Delimited s)
    (h : m ++ r = n ++ s) : m = n ∧ r = s := by
  classical
  let p : Char → Bool := fun c => decide (JsonNumber.Numeric c)
  have htake : ∀ {x t : List Char}, (∀ c ∈ x, JsonNumber.Numeric c) → Delimited t →
      (x ++ t).takeWhile p = x := by
    intro x t hx ht
    rw [List.takeWhile_append_of_pos (by simpa [p] using hx)]
    cases t with
    | nil => simp
    | cons c cs => simp [p, show ¬ JsonNumber.Numeric c from ht c rfl]
  have hmn : m = n := by rw [← htake hm hr, ← htake hn hs, h]
  subst hmn
  exact ⟨rfl, List.append_cancel_left h⟩

mutual

/-- **A value can be split from the delimiter after it in one way only.** -/
theorem toChars_cancel (a b : JsonText) (ha : a.Spelled) (hb : b.Spelled) {r s : List Char}
    (hr : Delimited r) (hs : Delimited s) (h : a.toChars ++ r = b.toChars ++ s) : a = b ∧ r = s := by
  have hk := kind_eq_of_toChars ha hb h
  match a, b with
  | .null, .null | .bool true, .bool true | .bool false, .bool false | .arr [], .arr []
  | .obj [], .obj [] => exact ⟨rfl, by simpa [toChars] using h⟩
  | .num m, .num n =>
    rw [Spelled] at ha hb
    obtain ⟨rfl, hrs⟩ := numeric_cancel ha.2 hb.2 hr hs (by simpa [toChars] using h)
    exact ⟨rfl, hrs⟩
  | .str m, .str n =>
    obtain ⟨rfl, hrs⟩ := quote_cancel (by simpa only [toChars] using h)
    exact ⟨rfl, hrs⟩
  | .arr (x :: xs), .arr (y :: ys) =>
    simp only [Spelled, ItemsSpelled] at ha hb
    simp only [toChars, List.cons_append, List.cons.injEq, true_and, List.append_assoc] at h
    obtain ⟨rfl, htail⟩ :=
      toChars_cancel x y ha.1 hb.1 (delimited_items _ _) (delimited_items _ _) h
    obtain ⟨rfl, hrs⟩ := itemsChars_cancel xs ys ha.2 hb.2 htail
    exact ⟨rfl, hrs⟩
  | .arr [], .arr (y :: ys) =>
    simp only [Spelled, ItemsSpelled] at hb
    simp only [toChars, List.cons_append, List.cons.injEq, true_and, List.append_assoc] at h
    exact absurd h (by simpa using toChars_ne_bracket hb.1 _ _)
  | .arr (x :: xs), .arr [] =>
    simp only [Spelled, ItemsSpelled] at ha
    simp only [toChars, List.cons_append, List.cons.injEq, true_and, List.append_assoc] at h
    exact absurd h.symm (by simpa using toChars_ne_bracket ha.1 _ _)
  | .obj ((k, v) :: ms), .obj ((k', v') :: ms') =>
    simp only [Spelled, MembersSpelled] at ha hb
    simp only [toChars, List.cons_append, List.cons.injEq, true_and, List.append_assoc] at h
    obtain ⟨rfl, hval⟩ := quote_cancel h
    obtain ⟨rfl, htail⟩ := toChars_cancel v v' ha.1 hb.1 (delimited_members _ _)
      (delimited_members _ _) (List.cons.inj hval).2
    obtain ⟨rfl, hrs⟩ := membersChars_cancel ms ms' ha.2 hb.2 htail
    exact ⟨rfl, hrs⟩
  | .obj [], .obj ((k', v') :: ms') => simp [toChars, quote] at h
  | .obj ((k, v) :: ms), .obj [] => simp [toChars, quote] at h

theorem itemsChars_cancel (xs ys : List JsonText) (hxs : ItemsSpelled xs) (hys : ItemsSpelled ys)
    {r s : List Char} (h : itemsChars xs ++ r = itemsChars ys ++ s) : xs = ys ∧ r = s := by
  match xs, ys with
  | [], [] => exact ⟨rfl, by simpa [itemsChars] using h⟩
  | [], y :: ys => simp [itemsChars] at h
  | x :: xs, [] => simp [itemsChars] at h
  | x :: xs, y :: ys =>
    rw [ItemsSpelled] at hxs hys
    simp only [itemsChars, List.cons_append, List.cons.injEq, true_and, List.append_assoc] at h
    obtain ⟨rfl, htail⟩ :=
      toChars_cancel x y hxs.1 hys.1 (delimited_items _ _) (delimited_items _ _) h
    obtain ⟨rfl, hrs⟩ := itemsChars_cancel xs ys hxs.2 hys.2 htail
    exact ⟨rfl, hrs⟩

theorem membersChars_cancel (ms ms' : List (String × JsonText)) (hms : MembersSpelled ms)
    (hms' : MembersSpelled ms') {r s : List Char}
    (h : membersChars ms ++ r = membersChars ms' ++ s) : ms = ms' ∧ r = s := by
  match ms, ms' with
  | [], [] => exact ⟨rfl, by simpa [membersChars] using h⟩
  | [], (k', v') :: ms' => simp [membersChars] at h
  | (k, v) :: ms, [] => simp [membersChars] at h
  | (k, v) :: ms, (k', v') :: ms' =>
    rw [MembersSpelled] at hms hms'
    simp only [membersChars, List.cons_append, List.cons.injEq, true_and, List.append_assoc] at h
    obtain ⟨rfl, hval⟩ := quote_cancel h
    obtain ⟨rfl, htail⟩ := toChars_cancel v v' hms.1 hms'.1 (delimited_members _ _)
      (delimited_members _ _) (List.cons.inj hval).2
    obtain ⟨rfl, hrs⟩ := membersChars_cancel ms ms' hms.2 hms'.2 htail
    exact ⟨rfl, hrs⟩

end

/-- **The characters determine the text.** -/
theorem toChars_inj {a b : JsonText} (ha : a.Spelled) (hb : b.Spelled) :
    a.toChars = b.toChars ↔ a = b :=
  ⟨fun h => (toChars_cancel a b ha hb delimited_nil delimited_nil (by rw [h])).1,
    fun h => by rw [h]⟩

end JsonText

end HarnessFramework
