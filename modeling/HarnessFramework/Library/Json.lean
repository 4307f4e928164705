import HarnessFramework.Library.JsonText
import Mathlib.Data.List.Lex

/-!
# JSON values and their text

A JSON document as a JavaScript program holds it: an object is the list of its members in the
order in which they are enumerated. `Json.stringify` is the text without white space, and it
determines the value (`Json.stringify_injective`).

## Main definitions

* `Json` — values
* `Json.stringify` — the text of a value
* `Json.get?` — a member of an object
* `propertyKey` — the key JavaScript enumerates properties by

## Main results

* `Json.stringify_injective`
* `propertyKey_injective`
-/

namespace HarnessFramework

/-- A JSON value. -/
inductive Json where
  | null
  | bool (b : Bool)
  | num (n : JsonNumber)
  | str (s : String)
  | arr (items : List Json)
  | obj (members : List (String × Json))

namespace Json

instance : Inhabited Json := ⟨.null⟩

/-- The number `n`. -/
def nat (n : ℕ) : Json := .num (.ofNat n)

/-- The member of an object under a key; `none` where JavaScript reads `undefined`. -/
def get? : Json → String → Option Json
  | .obj members, key => (members.find? (·.1 = key)).map Prod.snd
  | _, _ => none

/-! ### The text of a value -/

mutual

/-- The text of a value. -/
def stringify : Json → List Char
  | .null => ['n', 'u', 'l', 'l']
  | .bool true => ['t', 'r', 'u', 'e']
  | .bool false => ['f', 'a', 'l', 's', 'e']
  | .num n => n.toChars
  | .str s => quote s
  | .arr [] => ['[', ']']
  | .arr (item :: items) => '[' :: (stringify item ++ stringifyItems items)
  | .obj [] => ['{', '}']
  | .obj ((key, value) :: members) =>
    '{' :: (quote key ++ ':' :: (stringify value ++ stringifyMembers members))

/-- The items of an array after the first, with the closing bracket. -/
def stringifyItems : List Json → List Char
  | [] => [']']
  | item :: items => ',' :: (stringify item ++ stringifyItems items)

/-- The members of an object after the first, with the closing brace. -/
def stringifyMembers : List (String × Json) → List Char
  | [] => ['}']
  | (key, value) :: members =>
    ',' :: (quote key ++ ':' :: (stringify value ++ stringifyMembers members))

end

mutual

/-- The text of a value, as a tree. -/
def toText : Json → JsonText
  | .null => .null
  | .bool b => .bool b
  | .num n => .num n.toChars
  | .str s => .str s
  | .arr items => .arr (itemsText items)
  | .obj members => .obj (membersText members)

/-- The texts of items. -/
def itemsText : List Json → List JsonText
  | [] => []
  | item :: items => toText item :: itemsText items

/-- The texts of members. -/
def membersText : List (String × Json) → List (String × JsonText)
  | [] => []
  | (key, value) :: members => (key, toText value) :: membersText members

end

mutual

theorem stringify_eq : ∀ a : Json, stringify a = a.toText.toChars
  | .null | .bool true | .bool false | .num _ | .str _ | .arr [] | .obj [] => by
    simp [stringify, toText, itemsText, membersText, JsonText.toChars]
  | .arr (item :: items) => by
    rw [stringify, stringify_eq item, stringifyItems_eq items, toText, itemsText, JsonText.toChars]
  | .obj ((key, value) :: members) => by
    rw [stringify, stringify_eq value, stringifyMembers_eq members, toText, membersText,
      JsonText.toChars]

theorem stringifyItems_eq : ∀ items, stringifyItems items = JsonText.itemsChars (itemsText items)
  | [] => rfl
  | item :: items => by
    rw [stringifyItems, stringify_eq item, stringifyItems_eq items, itemsText, JsonText.itemsChars]

theorem stringifyMembers_eq :
    ∀ members, stringifyMembers members = JsonText.membersChars (membersText members)
  | [] => rfl
  | (key, value) :: members => by
    rw [stringifyMembers, stringify_eq value, stringifyMembers_eq members, membersText,
      JsonText.membersChars]

end

mutual

theorem spelled_toText : ∀ a : Json, a.toText.Spelled
  | .num n => by
    rw [toText, JsonText.Spelled]
    exact ⟨n.toChars_ne_nil, fun _ => JsonNumber.numeric_of_mem_toChars⟩
  | .arr items => by rw [toText, JsonText.Spelled]; exact spelled_itemsText items
  | .obj members => by rw [toText, JsonText.Spelled]; exact spelled_membersText members
  | .null | .bool _ | .str _ => by simp [toText, JsonText.Spelled]

theorem spelled_itemsText : ∀ items, JsonText.ItemsSpelled (itemsText items)
  | [] => trivial
  | item :: items => ⟨spelled_toText item, spelled_itemsText items⟩

theorem spelled_membersText : ∀ members, JsonText.MembersSpelled (membersText members)
  | [] => trivial
  | (_, value) :: members => ⟨spelled_toText value, spelled_membersText members⟩

end

mutual

theorem toText_inj (a b : Json) (h : a.toText = b.toText) : a = b := by
  match a, b with
  | .null, .null => rfl
  | .bool b, .bool b' => simpa [toText] using h
  | .num m, .num n =>
    rw [toText, toText, JsonText.num.injEq] at h
    rw [JsonNumber.toChars_injective h]
  | .str s, .str t => simpa [toText] using h
  | .arr xs, .arr ys =>
    rw [toText, toText, JsonText.arr.injEq] at h
    rw [itemsText_inj xs ys h]
  | .obj ms, .obj ms' =>
    rw [toText, toText, JsonText.obj.injEq] at h
    rw [membersText_inj ms ms' h]

theorem itemsText_inj (xs ys : List Json) (h : itemsText xs = itemsText ys) : xs = ys := by
  match xs, ys with
  | [], [] => rfl
  | x :: xs, y :: ys =>
    rw [itemsText, itemsText, List.cons.injEq] at h
    rw [toText_inj x y h.1, itemsText_inj xs ys h.2]

theorem membersText_inj (ms ms' : List (String × Json)) (h : membersText ms = membersText ms') :
    ms = ms' := by
  match ms, ms' with
  | [], [] => rfl
  | (k, v) :: ms, (k', v') :: ms' =>
    rw [membersText, membersText, List.cons.injEq, Prod.mk.injEq] at h
    obtain ⟨⟨rfl, hv⟩, hms⟩ := h
    rw [toText_inj v v' hv, membersText_inj ms ms' hms]

end

theorem stringify_injective : Function.Injective stringify := fun a b h =>
  toText_inj a b <| (JsonText.toChars_inj (spelled_toText a) (spelled_toText b)).mp <| by
    rw [← stringify_eq, ← stringify_eq, h]

instance : DecidableEq Json := fun a b =>
  decidable_of_iff (a.stringify = b.stringify) stringify_injective.eq_iff

/-! ### The order of properties -/

/-- The UTF-16 code units of a character. -/
def codeUnits (c : Char) : List ℕ :=
  if c.toNat < 0x10000 then [c.toNat]
  else [0xD800 + (c.toNat - 0x10000) / 0x400, 0xDC00 + (c.toNat - 0x10000) % 0x400]

/-- The UTF-16 code units of a string. -/
def utf16 (s : String) : List ℕ := s.toList.flatMap codeUnits

theorem codeUnits_cancel {c d : Char} {r s : List ℕ} (h : codeUnits c ++ r = codeUnits d ++ s) :
    c = d ∧ r = s := by
  have hc := c.valid
  have hd := d.valid
  have hsurrogate : ∀ e : Char, e.toNat < 0xD800 ∨ 0xDFFF < e.toNat ∧ e.toNat < 0x110000 :=
    fun e => e.valid
  rcases hsurrogate c with hc | hc <;> rcases hsurrogate d with hd | hd
  all_goals
    simp only [codeUnits] at h
    split at h <;> split at h <;>
      simp only [List.cons_append, List.nil_append, List.cons.injEq] at h
  all_goals first
    | exact ⟨Char.toNat_inj.mp (by omega), h.2⟩
    | exact ⟨Char.toNat_inj.mp (by omega), h.2.2⟩
    | omega

theorem utf16_injective : Function.Injective utf16 := by
  have key : ∀ cs ds : List Char, cs.flatMap codeUnits = ds.flatMap codeUnits → cs = ds := by
    intro cs
    induction cs with
    | nil =>
      rintro (_ | ⟨d, ds⟩) h
      · rfl
      · simp only [List.flatMap_nil, List.flatMap_cons, codeUnits] at h
        split at h <;> simp at h
    | cons c cs ih =>
      rintro (_ | ⟨d, ds⟩) h
      · simp only [List.flatMap_nil, List.flatMap_cons, codeUnits] at h
        split at h <;> simp at h
      · rw [List.flatMap_cons, List.flatMap_cons] at h
        obtain ⟨rfl, hrest⟩ := codeUnits_cancel h
        rw [ih ds hrest]
  exact fun s t h => String.toList_inj.mp (key _ _ h)

/-- The decimal text of a natural number. -/
def natChars (n : ℕ) : List Char :=
  if n = 0 then ['0'] else (JsonNumber.natDigits n).map JsonNumber.digitChar

/-- The array index a property key spells, when it does: a number below `2 ^ 32 - 1` written
without leading zeros. -/
def arrayIndex? (key : String) : Option ℕ :=
  if key.toList.all fun c => c = JsonNumber.digitChar (JsonNumber.charDigit c) then
    let n := JsonNumber.natOf (key.toList.map JsonNumber.charDigit)
    if key.toList = natChars n ∧ n < 2 ^ 32 - 1 then some n else none
  else none

/-- The key JavaScript enumerates properties by, for properties added in the order of their code
units: array indices come first and in numeric order. -/
def propertyKey (key : String) : List ℕ :=
  match arrayIndex? key with
  | some n => [0, n]
  | none => 1 :: utf16 key

theorem arrayIndex?_inj {s t : String} {n : ℕ} (hs : arrayIndex? s = some n)
    (ht : arrayIndex? t = some n) : s = t := by
  have key : ∀ u : String, arrayIndex? u = some n → u.toList = natChars n := by
    intro u hu
    obtain ⟨-, hu⟩ := Option.ite_none_right_eq_some.mp hu
    obtain ⟨⟨hn, _⟩, rfl⟩ := Option.ite_none_right_eq_some.mp hu |>.imp_right Option.some_inj.mp
    exact hn
  exact String.toList_inj.mp ((key s hs).trans (key t ht).symm)

theorem propertyKey_injective : Function.Injective propertyKey := by
  intro s t h
  simp only [propertyKey] at h
  cases hs : arrayIndex? s with
  | some n =>
    cases ht : arrayIndex? t with
    | some m =>
      rw [hs, ht] at h
      obtain rfl : n = m := by simpa using h
      exact arrayIndex?_inj hs ht
    | none => rw [hs, ht] at h; simp at h
  | none =>
    cases ht : arrayIndex? t with
    | some m => rw [hs, ht] at h; simp at h
    | none => rw [hs, ht] at h; exact utf16_injective (List.cons.inj h).2

/-! ### Conversion to a string -/

mutual

/-- `String(value)`. -/
def toJsString : Json → List Char
  | .null => "null".toList
  | .bool true => "true".toList
  | .bool false => "false".toList
  | .num n => n.toChars
  | .str s => s.toList
  | .arr [] => []
  | .arr (item :: items) => joinedItem item ++ joinItems items
  | .obj _ => "[object Object]".toList

/-- The items of an array after the first, joined by commas. -/
def joinItems : List Json → List Char
  | [] => []
  | item :: items => ',' :: (joinedItem item ++ joinItems items)

/-- An item of an array that is joined. -/
def joinedItem : Json → List Char
  | .null => []
  | .bool b => toJsString (.bool b)
  | .num n => toJsString (.num n)
  | .str s => toJsString (.str s)
  | .arr items => toJsString (.arr items)
  | .obj members => toJsString (.obj members)

end

end Json

end HarnessFramework
