import HarnessFramework.Contracts.Canonical
import Mathlib.Data.List.Sort

/-!
# The values of the compiler

`serde_json::Value`, its canonical form and its text as `crates/harness-compiler/src/main.rs` uses
them, and what `JSON.parse` makes of the text. The compiler sorts members by the bytes of their keys
and JavaScript by code units with array indices first; both write the same text exactly for the
values that are `Value.Alike`.

Rust compares strings by their UTF-8 bytes, which sort as code points do. How a decimal is spelled is
left to the crate that spells it: `spell` is a parameter, and what it writes reads back as the same
decimal.

## Main definitions

* `Value`, `Value.WellFormed` — values, whose objects have one member a key
* `canonical`, `Value.text` — the compiler's canonical form, and its text
* `jsInteger`, `Value.toJs` — what JavaScript reads
* `Value.Alike` — both languages write the value in the same way

## Main results

* `text_canonical_iff` — the canonical texts are the same exactly for values that are alike
-/

namespace HarnessFramework

namespace HarnessCompiler

open Json (natChars arrayIndex? propertyKey)

/-! ## Values -/

/-- A number: an integer of 64 bits, or a decimal. -/
inductive Number
  | int (n : ℤ)
  | decimal (x : JsonNumber)
deriving DecidableEq

/-- A `serde_json::Value`. -/
inductive Value where
  | null
  | bool (b : Bool)
  | number (n : Number)
  | string (s : String)
  | array (items : List Value)
  | object (members : List (String × Value))

namespace Value

/-- The natural number `n`. -/
def nat (n : ℕ) : Value := .number (.int n)

/-- An array of strings. -/
def strings (texts : List String) : Value := .array (texts.map string)

/-- The member of an object under a key. -/
def get? (key : String) : Value → Option Value
  | .object members => members.lookup key
  | _ => none

mutual

/-- Objects have one member a key. -/
def WellFormed : Value → Prop
  | .array items => ItemsWellFormed items
  | .object members => (members.map Prod.fst).Nodup ∧ MembersWellFormed members
  | .null => True
  | .bool _ => True
  | .number _ => True
  | .string _ => True

/-- The items are well formed. -/
def ItemsWellFormed : List Value → Prop
  | [] => True
  | item :: items => WellFormed item ∧ ItemsWellFormed items

/-- The values of the members are well formed. -/
def MembersWellFormed : List (String × Value) → Prop
  | [] => True
  | (_, value) :: members => WellFormed value ∧ MembersWellFormed members

end

theorem itemsWellFormed_iff {items : List Value} :
    ItemsWellFormed items ↔ ∀ item ∈ items, item.WellFormed := by
  induction items with
  | nil => simp [ItemsWellFormed]
  | cons item items ih => rw [ItemsWellFormed, ih, List.forall_mem_cons]

theorem membersWellFormed_iff {members : List (String × Value)} :
    MembersWellFormed members ↔ ∀ m ∈ members, m.2.WellFormed := by
  induction members with
  | nil => simp [MembersWellFormed]
  | cons m members ih => rw [MembersWellFormed, ih, List.forall_mem_cons]

end Value

/-! ## The canonical form -/

/-- The code points of a key. -/
def codePoints (key : String) : List ℕ := key.toList.map Char.toNat

theorem codePoints_injective : Function.Injective codePoints := fun _ _ h =>
  String.toList_inj.mp (List.map_injective_iff.mpr (fun _ _ => Char.toNat_inj.mp) h)

/-- Members in the order of the bytes of their keys. -/
def sortMembers {β : Type} (members : List (String × β)) : List (String × β) :=
  members.insertionSort fun m m' => codePoints m.1 ≤ codePoints m'.1

mutual

/-- `canonical`. -/
def canonical : Value → Value
  | .array items => .array (canonicalItems items)
  | .object members => .object (sortMembers (canonicalMembers members))
  | .null => .null
  | .bool b => .bool b
  | .number n => .number n
  | .string s => .string s

/-- The items, each canonical. -/
def canonicalItems : List Value → List Value
  | [] => []
  | item :: items => canonical item :: canonicalItems items

/-- The members, each with a canonical value. -/
def canonicalMembers : List (String × Value) → List (String × Value)
  | [] => []
  | (key, value) :: members => (key, canonical value) :: canonicalMembers members

end

/-- The digits of an integer. -/
def intChars (n : ℤ) : List Char := (if n < 0 then ['-'] else []) ++ natChars n.natAbs

section

variable (spell : JsonNumber → List Char)

/-- The text of a number. -/
def Number.chars : Number → List Char
  | .int n => intChars n
  | .decimal x => spell x

mutual

/-- The text of a value, as a tree. -/
def Value.text : Value → JsonText
  | .null => .null
  | .bool b => .bool b
  | .number n => .num (n.chars spell)
  | .string s => .str s
  | .array items => .arr (itemsText items)
  | .object members => .obj (membersText members)

/-- The texts of items. -/
def itemsText : List Value → List JsonText
  | [] => []
  | item :: items => item.text :: itemsText items

/-- The texts of members. -/
def membersText : List (String × Value) → List (String × JsonText)
  | [] => []
  | (key, value) :: members => (key, value.text) :: membersText members

end

/-- `serde_json::to_vec(&canonical(value))`. -/
def canonicalText (value : Value) : List Char := ((canonical value).text spell).toChars

end

/-! ## What JavaScript reads -/

/-- The double next to a natural number, ties to even. -/
def roundDouble (n : ℕ) : ℕ :=
  let unit := 2 ^ (n.log2 + 1 - 53)
  let low := n / unit * unit
  if 2 * (n % unit) < unit ∨ 2 * (n % unit) = unit ∧ n / unit % 2 = 0 then low else low + unit

/-- The multiple of `unit` next to the double `m` that rounds to it. -/
def multiple? (m unit : ℕ) : Option ℕ :=
  let low := m / unit * unit
  let high := low + unit
  if roundDouble low = m ∧ (roundDouble high = m → m - low < high - m ∨
      m - low = high - m ∧ m / unit % 2 = 0) then some low
  else if roundDouble high = m then some high
  else none

/-- The integer that JavaScript writes for an integer of at most 21 digits: the one with the fewest
digits among those that round to its double. -/
def jsInteger (n : ℕ) : ℕ :=
  let m := roundDouble n
  ((List.range 21).reverse.findSome? fun i => multiple? m (10 ^ i)).getD m

example : jsInteger (2 ^ 53 + 1) = 2 ^ 53 ∧ jsInteger (2 ^ 64 - 1) = 18446744073709552000 := by
  decide +kernel

/-- A number as JavaScript reads it. -/
def Number.toJs : Number → JsonNumber
  | .int n =>
    let digits := JsonNumber.natDigits (jsInteger n.natAbs)
    .ofParts (n < 0) digits digits.length
  | .decimal x => x

/-- Members in the order in which JavaScript enumerates them: array indices first. -/
def enumerate {β : Type} (members : List (String × β)) : List (String × β) :=
  (members.filter fun m => (arrayIndex? m.1).isSome).insertionSort
      (fun m m' => propertyKey m.1 ≤ propertyKey m'.1) ++
    members.filter fun m => (arrayIndex? m.1).isNone

mutual

/-- What `JSON.parse` makes of the text of a value. -/
def Value.toJs : Value → Json
  | .null => .null
  | .bool b => .bool b
  | .number n => .num n.toJs
  | .string s => .str s
  | .array items => .arr (itemsToJs items)
  | .object members => .obj (enumerate (membersToJs members))

/-- The items of an array, as JavaScript reads them. -/
def itemsToJs : List Value → List Json
  | [] => []
  | item :: items => item.toJs :: itemsToJs items

/-- The members of an object, as JavaScript reads them. -/
def membersToJs : List (String × Value) → List (String × Json)
  | [] => []
  | (key, value) :: members => (key, value.toJs) :: membersToJs members

end

/-! ## Values that both languages write in the same way -/

/-- JavaScript enumerates the keys in the order of their bytes. -/
def KeysAlike (keys : List String) : Prop :=
  ∀ a ∈ keys, ∀ b ∈ keys, codePoints a < codePoints b → propertyKey a < propertyKey b

section

variable (spell : JsonNumber → List Char)

mutual

/-- JavaScript spells each number as the compiler does, and enumerates the keys of each object in the
order of their bytes. -/
def Value.Alike : Value → Prop
  | .number n => n.chars spell = n.toJs.toChars
  | .array items => ItemsAlike items
  | .object members => KeysAlike (members.map Prod.fst) ∧ MembersAlike members
  | .null => True
  | .bool _ => True
  | .string _ => True

/-- The items are alike. -/
def ItemsAlike : List Value → Prop
  | [] => True
  | item :: items => item.Alike ∧ ItemsAlike items

/-- The values of the members are alike. -/
def MembersAlike : List (String × Value) → Prop
  | [] => True
  | (_, value) :: members => value.Alike ∧ MembersAlike members

end

end

instance : DecidablePred KeysAlike := fun keys => by unfold KeysAlike; infer_instance

mutual

instance decidableAlike (spell : JsonNumber → List Char) :
    ∀ value : Value, Decidable (value.Alike spell)
  | .number n => decidable_of_iff (n.chars spell = n.toJs.toChars) (by rw [Value.Alike])
  | .array items =>
    let := decidableItemsAlike spell items
    decidable_of_iff (ItemsAlike spell items) (by rw [Value.Alike])
  | .object members =>
    let := decidableMembersAlike spell members
    decidable_of_iff (KeysAlike (members.map Prod.fst) ∧ MembersAlike spell members)
      (by rw [Value.Alike])
  | .null => .isTrue (by rw [Value.Alike]; trivial)
  | .bool _ => .isTrue (by rw [Value.Alike]; trivial)
  | .string _ => .isTrue (by rw [Value.Alike]; trivial)

instance decidableItemsAlike (spell : JsonNumber → List Char) :
    ∀ items : List Value, Decidable (ItemsAlike spell items)
  | [] => .isTrue (by rw [ItemsAlike]; trivial)
  | item :: items =>
    let := decidableAlike spell item
    let := decidableItemsAlike spell items
    decidable_of_iff (item.Alike spell ∧ ItemsAlike spell items) (by rw [ItemsAlike])

instance decidableMembersAlike (spell : JsonNumber → List Char) :
    ∀ members : List (String × Value), Decidable (MembersAlike spell members)
  | [] => .isTrue (by rw [MembersAlike]; trivial)
  | (_, value) :: members =>
    let := decidableAlike spell value
    let := decidableMembersAlike spell members
    decidable_of_iff (value.Alike spell ∧ MembersAlike spell members) (by rw [MembersAlike])

end

/-! ## Member lists -/

theorem canonicalMembers_eq_map (members : List (String × Value)) :
    canonicalMembers members = members.map fun m => (m.1, canonical m.2) := by
  induction members with
  | nil => rfl
  | cons m members ih => rw [canonicalMembers, ih, List.map_cons]

theorem membersToJs_eq_map (members : List (String × Value)) :
    membersToJs members = members.map fun m => (m.1, m.2.toJs) := by
  induction members with
  | nil => rfl
  | cons m members ih => rw [membersToJs, ih, List.map_cons]

theorem membersText_eq_map (spell : JsonNumber → List Char) (members : List (String × Value)) :
    membersText spell members = members.map fun m => (m.1, m.2.text spell) := by
  induction members with
  | nil => rfl
  | cons m members ih => rw [membersText, ih, List.map_cons]

theorem jsonMembersText_eq_map (members : List (String × Json)) :
    Json.membersText members = members.map fun m => (m.1, m.2.toText) := by
  induction members with
  | nil => rfl
  | cons m members ih => rw [Json.membersText, ih, List.map_cons]

theorem sortMembers_perm {β : Type} (members : List (String × β)) :
    (sortMembers members).Perm members := List.perm_insertionSort _ _

theorem sortMembers_sorted {β : Type} {members : List (String × β)}
    (h : (members.map Prod.fst).Nodup) :
    (sortMembers members).Pairwise fun m m' => codePoints m.1 < codePoints m'.1 := by
  have hle : (sortMembers members).Pairwise fun m m' => codePoints m.1 ≤ codePoints m'.1 :=
    List.pairwise_insertionSort _ _
  have hne : (sortMembers members).Pairwise fun m m' => m.1 ≠ m'.1 :=
    List.pairwise_map.mp (((sortMembers_perm members).map Prod.fst).nodup_iff.mpr h)
  exact (hle.and hne).imp fun ⟨hle, hne⟩ => lt_of_le_of_ne hle fun heq =>
    hne (codePoints_injective heq)

theorem enumerate_perm {β : Type} (members : List (String × β)) :
    (enumerate members).Perm members := by
  refine ((List.perm_insertionSort _ _).append_right _).trans ?_
  simpa using List.filter_append_perm (fun m => (arrayIndex? m.1).isSome) members

theorem insertMember_perm {key : String} {value : Json} {members : List (String × Json)}
    (h : key ∉ members.map Prod.fst) :
    (insertMember key value members).Perm ((key, value) :: members) := by
  induction members with
  | nil => exact .refl _
  | cons m members ih =>
    rw [List.map_cons, List.mem_cons, not_or] at h
    rw [insertMember, if_neg h.1]
    split
    · exact .refl _
    · exact ((ih h.2).cons m).trans (.swap _ _ _)

theorem canonicalizeMembers_perm {members : List (String × Json)}
    (h : (members.map Prod.fst).Nodup) :
    (canonicalizeMembers members).Perm (members.map fun m => (m.1, canonicalize m.2)) := by
  induction members with
  | nil => rw [canonicalizeMembers]; exact .refl _
  | cons m members ih =>
    obtain ⟨key, value⟩ := m
    rw [List.map_cons, List.nodup_cons] at h
    have hkeys : ((canonicalizeMembers members).map Prod.fst).Perm (members.map Prod.fst) := by
      simpa [Function.comp_def] using (ih h.2).map Prod.fst
    rw [canonicalizeMembers, List.map_cons]
    exact (insertMember_perm fun hmem => h.1 (hkeys.mem_iff.mp hmem)).trans ((ih h.2).cons _)

/-- **Two sortings of members with distinct keys.** They are the same exactly when the members are,
and one order implies the other. -/
theorem sorted_eq_sorted_iff {β γ : Type} (left right : String → List ℕ)
    {members : List (String × γ)} (hkeys : (members.map Prod.fst).Nodup) {f g : γ → β} {as bs : List (String × β)}
    (has : as.Perm (members.map fun m => (m.1, f m.2)))
    (hbs : bs.Perm (members.map fun m => (m.1, g m.2)))
    (hleft : as.Pairwise fun a b => left a.1 < left b.1)
    (hright : bs.Pairwise fun a b => right a.1 < right b.1) :
    as = bs ↔ (∀ a ∈ members.map Prod.fst, ∀ b ∈ members.map Prod.fst, left a < left b →
      right a < right b) ∧ ∀ m ∈ members, f m.2 = g m.2 := by
  constructor
  · rintro rfl
    constructor
    · have hboth : as.Pairwise fun a b => (left a.1 < left b.1 → right a.1 < right b.1) ∧
          (left b.1 < left a.1 → right b.1 < right a.1) :=
        (hleft.and hright).imp fun ⟨hl, hr⟩ => ⟨fun _ => hr, fun hl' => absurd hl' hl.asymm⟩
      have : Std.Symm fun a b : String × β => (left a.1 < left b.1 → right a.1 < right b.1) ∧
          (left b.1 < left a.1 → right b.1 < right a.1) := ⟨fun _ _ h => ⟨h.2, h.1⟩⟩
      have hall := hboth.forall_of_forall
        fun _ _ => ⟨fun h => absurd h (lt_irrefl _), fun h => absurd h (lt_irrefl _)⟩
      intro a ha b hb
      obtain ⟨m, hm, rfl⟩ := List.mem_map.mp ha
      obtain ⟨m', hm', rfl⟩ := List.mem_map.mp hb
      exact (hall (has.mem_iff.mpr (List.mem_map_of_mem hm))
        (has.mem_iff.mpr (List.mem_map_of_mem hm'))).1
    · intro m hm
      have hmem := has.mem_iff.mp (hbs.mem_iff.mpr (List.mem_map_of_mem hm))
      obtain ⟨m', hm', heq⟩ := List.mem_map.mp hmem
      obtain ⟨hkey, hval⟩ := Prod.mk.injEq .. ▸ heq
      obtain rfl := List.inj_on_of_nodup_map hkeys hm' hm hkey
      exact hval
  · rintro ⟨horder, hvalues⟩
    have hmaps : (members.map fun m => (m.1, f m.2)) = members.map fun m => (m.1, g m.2) :=
      List.map_congr_left fun m hm => by rw [hvalues m hm]
    have hkey : ∀ a ∈ as, a.1 ∈ members.map Prod.fst := by
      intro a ha
      obtain ⟨m, hm, rfl⟩ := List.mem_map.mp (has.mem_iff.mp ha)
      exact List.mem_map_of_mem hm
    refine List.Perm.eq_of_pairwise (fun a b _ _ hab hba => absurd hba hab.asymm)
      (hleft.imp_of_mem fun {a b} ha hb hlt => horder _ (hkey a ha) _ (hkey b hb) hlt) hright ?_
    exact has.trans (hmaps ▸ hbs.symm)

/-! ## The texts -/

section

variable {spell : JsonNumber → List Char}

mutual

/-- The texts, as trees. -/
theorem canonical_text_iff : ∀ value : Value, value.WellFormed →
    ((canonical value).text spell = (canonicalize value.toJs).toText ↔ value.Alike spell)
  | .null, _ | .bool _, _ | .string _, _ => by
    simp [canonical, Value.text, Value.toJs, canonicalize, Json.toText, Value.Alike]
  | .number n, _ => by
    simp [canonical, Value.text, Value.toJs, canonicalize, Json.toText, Value.Alike]
  | .array items, h => by
    rw [Value.WellFormed] at h
    rw [canonical, Value.text, Value.toJs, canonicalize, Json.toText, Value.Alike,
      JsonText.arr.injEq]
    exact canonicalItems_text_iff items h
  | .object members, h => by
    rw [Value.WellFormed] at h
    obtain ⟨hkeys, hmembers⟩ := h
    have hjs : ((enumerate (membersToJs members)).map Prod.fst).Perm (members.map Prod.fst) := by
      simpa [membersToJs_eq_map, Function.comp_def] using
        (enumerate_perm (membersToJs members)).map Prod.fst
    rw [canonical, Value.text, Value.toJs, canonicalize, Json.toText, Value.Alike,
      JsonText.obj.injEq, membersText_eq_map, jsonMembersText_eq_map,
      ← canonicalMembers_text_iff members hmembers]
    refine sorted_eq_sorted_iff codePoints propertyKey hkeys
      (f := fun value => (canonical value).text spell)
      (g := fun value => (canonicalize value.toJs).toText) ?_ ?_ ?_ ?_
    · simpa [canonicalMembers_eq_map, Function.comp_def] using
        (sortMembers_perm (canonicalMembers members)).map fun m => (m.1, m.2.text spell)
    · have hperm := ((canonicalizeMembers_perm (hjs.nodup_iff.mpr hkeys)).trans
        ((enumerate_perm (membersToJs members)).map _)).map fun m => (m.1, m.2.toText)
      simpa [membersToJs_eq_map, Function.comp_def] using hperm
    · refine List.pairwise_map.mpr (sortMembers_sorted ?_)
      simpa [canonicalMembers_eq_map, Function.comp_def] using hkeys
    · exact List.pairwise_map.mpr (sortedMembers_canonicalizeMembers _)

theorem canonicalItems_text_iff : ∀ items : List Value, Value.ItemsWellFormed items →
    (itemsText spell (canonicalItems items) = Json.itemsText (canonicalizeItems (itemsToJs items)) ↔
      ItemsAlike spell items)
  | [], _ => by simp [canonicalItems, itemsText, itemsToJs, canonicalizeItems, Json.itemsText, ItemsAlike]
  | item :: items, h => by
    rw [Value.ItemsWellFormed] at h
    rw [canonicalItems, itemsText, itemsToJs, canonicalizeItems, Json.itemsText, ItemsAlike,
      List.cons.injEq, canonical_text_iff item h.1, canonicalItems_text_iff items h.2]

theorem canonicalMembers_text_iff : ∀ members : List (String × Value),
    Value.MembersWellFormed members →
    ((∀ m ∈ members, (canonical m.2).text spell = (canonicalize m.2.toJs).toText) ↔
      MembersAlike spell members)
  | [], _ => by simp [MembersAlike]
  | (key, value) :: members, h => by
    rw [Value.MembersWellFormed] at h
    rw [List.forall_mem_cons, MembersAlike, canonical_text_iff value h.1,
      canonicalMembers_text_iff members h.2]

end

theorem numeric_natChars {n : ℕ} : ∀ c ∈ natChars n, JsonNumber.Numeric c := by
  intro c hc
  unfold natChars at hc
  split at hc
  · obtain rfl := List.mem_singleton.mp hc
    exact JsonNumber.numeric_digitChar 0
  · exact JsonNumber.numeric_of_mem_map hc

theorem natChars_ne_nil (n : ℕ) : natChars n ≠ [] := by
  unfold natChars
  split
  · simp
  · next h => simpa [JsonNumber.natDigits, Nat.digits_ne_nil_iff_ne_zero] using h

/-- What spells decimals spells them with numeric characters. -/
def Spells (spell : JsonNumber → List Char) : Prop :=
  ∀ x, spell x ≠ [] ∧ ∀ c ∈ spell x, JsonNumber.Numeric c

theorem spells_toChars : Spells JsonNumber.toChars := fun x =>
  ⟨x.toChars_ne_nil, fun _ => JsonNumber.numeric_of_mem_toChars⟩

mutual

theorem spelled_text (hspell : Spells spell) : ∀ value : Value, (value.text spell).Spelled
  | .number (.decimal x) => by
    rw [Value.text, JsonText.Spelled]
    exact hspell x
  | .number (.int n) => by
    rw [Value.text, JsonText.Spelled]
    refine ⟨by simp [Number.chars, intChars, natChars_ne_nil], fun c hc => ?_⟩
    rcases List.mem_append.mp hc with hc | hc
    · split at hc
      · obtain rfl := List.mem_singleton.mp hc
        exact .inr (.inl rfl)
      · cases hc
    · exact numeric_natChars c hc
  | .array items => by rw [Value.text, JsonText.Spelled]; exact spelled_itemsText hspell items
  | .object members => by rw [Value.text, JsonText.Spelled]; exact spelled_membersText hspell members
  | .null | .bool _ | .string _ => by simp [Value.text, JsonText.Spelled]

theorem spelled_itemsText (hspell : Spells spell) :
    ∀ items, JsonText.ItemsSpelled (itemsText spell items)
  | [] => trivial
  | item :: items => ⟨spelled_text hspell item, spelled_itemsText hspell items⟩

theorem spelled_membersText (hspell : Spells spell) :
    ∀ members, JsonText.MembersSpelled (membersText spell members)
  | [] => trivial
  | (_, value) :: members => ⟨spelled_text hspell value, spelled_membersText hspell members⟩

end

/-- **The canonical texts are the same exactly for values that are alike.** -/
theorem text_canonical_iff (hspell : Spells spell) {value : Value} (h : value.WellFormed) :
    canonicalJson value.toJs = canonicalText spell value ↔ value.Alike spell := by
  rw [canonicalJson, canonicalText, Json.stringify_eq, JsonText.toChars_inj (Json.spelled_toText _)
    (spelled_text hspell _), eq_comm, canonical_text_iff value h]

end

end HarnessCompiler

end HarnessFramework
