import HarnessFramework.Library.StableSort
import HarnessFramework.RuntimeCore.Transforms
import Mathlib.Data.Prod.Lex

/-!
# The sort transform

Two numbers are compared as numbers, any other two keys by their texts. The text of a string starts with
a quote, which comes before minus signs and digits, and the text of every other value with a letter or
a bracket, which come after them. So the keys are ordered in three blocks — strings, numbers, other
values — and within a block by one linear order (`SortKey.rank`), whatever types are mixed.

## Main definitions

* `SortKey.rank` — where a key comes
* `SortOrder` — the order of values by their keys, in a direction

## Main results

* `compareKeys_nonpos_iff` — two keys are compared as their ranks are
* `transformValue_sort` — the comparator is a total preorder, and the transform sorts by it stably
-/

namespace HarnessFramework

namespace RuntimeCore

/-! ## The text of a key -/

/-- The code units by which a key is compared to one of another type. -/
def SortKey.units (key : SortKey) : List ℕ := key.chars.flatMap Json.codeUnits

/-- The block of keys that a text is in, by its first code unit. -/
def textBlock : List ℕ → ℕ
  | [] => 0
  | unit :: _ => if unit < 45 then 0 else if unit < 58 then 1 else 2

/-- Texts in an earlier block come first. -/
theorem lt_of_textBlock_lt {u v : List ℕ} (h : textBlock u < textBlock v) : u < v := by
  match u, v with
  | _, [] => simp [textBlock] at h
  | [], b :: v => exact List.nil_lt_cons b v
  | a :: u, b :: v =>
    refine List.cons_lt_cons_iff.mpr (.inl ?_)
    simp only [textBlock] at h
    split at h <;> split at h <;> (try split at h) <;> (try split at h) <;> omega

/-- Keys that are printed values: only numbers print as numbers do. -/
def SortKey.Printed : SortKey → Prop
  | .number n => textBlock (SortKey.number n).units = 1
  | .text cs => textBlock (SortKey.text cs).units ≠ 1

theorem codeUnits_of_lt {c : Char} (h : c.toNat < 0x10000) : Json.codeUnits c = [c.toNat] := if_pos h

theorem printed_number (n : JsonNumber) : (SortKey.number n).Printed := by
  obtain ⟨c, cs, hcs, hc⟩ := n.exists_toChars
  have hunit : 45 ≤ c.toNat ∧ c.toNat < 58 := by
    rcases hc with ⟨d, rfl⟩ | rfl
    · have hdigit : ∀ d : Fin 10, 45 ≤ (JsonNumber.digitChar d).toNat ∧
          (JsonNumber.digitChar d).toNat < 58 := by decide
      exact hdigit d
    · decide
  rw [SortKey.Printed, SortKey.units, SortKey.chars, hcs, List.flatMap_cons,
    codeUnits_of_lt (by omega)]
  simp only [List.singleton_append, textBlock]
  rw [if_neg (by omega), if_pos hunit.2]

/-- A character that starts the text of a value other than a number. -/
theorem textBlock_of_kind {c : Char} (hc : JsonText.kindOfChar c ≠ .num) (cs : List Char) :
    textBlock ((c :: cs).flatMap Json.codeUnits) ≠ 1 := by
  have hcases : c = 'n' ∨ c = 't' ∨ c = 'f' ∨ c = '"' ∨ c = '[' ∨ c = '{' := by
    by_contra hne
    rw [JsonText.kindOfChar] at hc
    simp only [not_or] at hne
    obtain ⟨h1, h2, h3, h4, h5, h6⟩ := hne
    simp [h1, h2, h3, h4, h5, h6] at hc
  rw [List.flatMap_cons]
  rcases hcases with rfl | rfl | rfl | rfl | rfl | rfl <;>
    simp [Json.codeUnits, textBlock, Char.toNat]

theorem printed_text {value : Json} (h : ∀ n, value ≠ .num n) : (SortKey.text value.stringify).Printed := by
  obtain ⟨c, cs, hcs, hkind⟩ := JsonText.exists_toChars (Json.spelled_toText value)
  rw [SortKey.Printed, SortKey.units, SortKey.chars, Json.stringify_eq, hcs]
  refine textBlock_of_kind ?_ cs
  rw [hkind]
  rcases value with _ | (_ | _) | n | _ | _ | _
  case num => exact absurd rfl (h n)
  all_goals simp [Json.toText, JsonText.kind]

theorem printed_comparable (value : JsValue) : (comparable value).Printed := by
  match value with
  | .num n => exact printed_number n
  | .undefined | .null | .bool _ | .str _ | .arr _ | .obj _ =>
    exact printed_text fun n => by simp [jsonOrNull, JsValue.toJson]

/-! ## The order of keys -/

/-- **Where a key comes**: its block, and in its block the number or the text. -/
def SortKey.rank (key : SortKey) : ℕ ×ₗ ℚ ×ₗ List ℕ :=
  toLex (textBlock key.units, match key with
    | .number n => toLex (n.toRat, [])
    | .text _ => toLex (0, key.units))

theorem rank_lt_of_units_lt {a b : SortKey} (hne : textBlock a.units ≠ textBlock b.units)
    (h : a.units < b.units) : a.rank < b.rank := by
  refine Prod.Lex.toLex_lt_toLex.mpr (.inl ?_)
  rcases lt_or_gt_of_ne hne with hlt | hgt
  · exact hlt
  · exact absurd (lt_of_textBlock_lt hgt) h.asymm

/-- Keys that are not both numbers are ordered as their texts are. -/
theorem rank_lt_iff_units_lt {a b : SortKey} (ha : a.Printed) (hb : b.Printed)
    (h : ∀ m n, ¬(a = .number m ∧ b = .number n)) : a.rank < b.rank ↔ a.units < b.units := by
  by_cases hblock : textBlock a.units = textBlock b.units
  · match a, b with
    | .number m, .number n => exact absurd ⟨rfl, rfl⟩ (h m n)
    | .number m, .text cs => exact absurd (hblock ▸ ha) hb
    | .text cs, .number n => exact absurd (hblock.trans hb) ha
    | .text cs, .text ds =>
      simp only [SortKey.rank, Prod.Lex.toLex_lt_toLex, hblock, lt_irrefl, false_or, true_and]
  · refine ⟨fun hrank => ?_, rank_lt_of_units_lt hblock⟩
    rcases lt_or_gt_of_ne hblock with hlt | hgt
    · exact lt_of_textBlock_lt hlt
    · exact absurd (rank_lt_of_units_lt (Ne.symm hblock) (lt_of_textBlock_lt hgt)) hrank.asymm

theorem rank_number_lt_iff (m n : JsonNumber) :
    (SortKey.number m).rank < (SortKey.number n).rank ↔ m.toRat < n.toRat := by
  have hm : textBlock (SortKey.number m).units = 1 := printed_number m
  have hn : textBlock (SortKey.number n).units = 1 := printed_number n
  simp [SortKey.rank, Prod.Lex.toLex_lt_toLex, hm, hn]

/-! ## The comparator -/

theorem compareKeys_eq (direction : ℚ) (a b : SortKey) :
    compareKeys direction a b = compareKeys 1 a b * direction := by
  match a, b with
  | .number _, .number _ | .number _, .text _ | .text _, .number _ | .text _, .text _ =>
    simp only [compareKeys, mul_one]

/-- Keys that are compared by their texts. -/
theorem compareKeys_text {a b : SortKey} (h : ∀ m n, ¬(a = .number m ∧ b = .number n)) :
    compareKeys 1 a b = if a.units < b.units then -1 else if b.units < a.units then 1 else 0 := by
  match a, b with
  | .number m, .number n => exact absurd ⟨rfl, rfl⟩ (h m n)
  | .number _, .text _ | .text _, .number _ | .text _, .text _ =>
    rw [compareKeys, mul_one]
    · rfl
    · simp

/-- Whether a key comes before another, as the comparator says. -/
theorem compareKeys_neg_iff {a b : SortKey} (ha : a.Printed) (hb : b.Printed) :
    compareKeys 1 a b < 0 ↔ a.rank < b.rank := by
  by_cases hnumbers : ∃ m n, a = .number m ∧ b = .number n
  · obtain ⟨m, n, rfl, rfl⟩ := hnumbers
    rw [rank_number_lt_iff, compareKeys, mul_one, sub_neg]
  · have htext : ∀ m n, ¬(a = .number m ∧ b = .number n) := fun m n h => hnumbers ⟨m, n, h⟩
    rw [rank_lt_iff_units_lt ha hb htext, compareKeys_text htext]
    split
    · next h => simp [h]
    split
    · next h => simp [h.asymm]
    · next h _ => simp [h]

/-- Keys that are swapped compare the other way. -/
theorem compareKeys_swap (a b : SortKey) : compareKeys 1 b a = -compareKeys 1 a b := by
  by_cases hnumbers : ∃ m n, a = .number m ∧ b = .number n
  · obtain ⟨m, n, rfl, rfl⟩ := hnumbers
    simp only [compareKeys]
    ring
  · rw [compareKeys_text fun m n h => hnumbers ⟨m, n, h⟩,
      compareKeys_text fun m n h => hnumbers ⟨n, m, h.2, h.1⟩]
    split
    · next h => simp [h.asymm]
    split <;> simp

/-- **Two keys are compared as their ranks are.** -/
theorem compareKeys_nonpos_iff {a b : SortKey} (ha : a.Printed) (hb : b.Printed) :
    compareKeys 1 a b ≤ 0 ↔ a.rank ≤ b.rank := by
  rw [← not_lt, ← not_lt, ← compareKeys_neg_iff hb ha, compareKeys_swap a b, neg_lt_zero]

/-! ## Sorting values -/

section

variable (path : Option String)

/-- The order of values by what is selected of them, as the comparator says. -/
def KeyOrder (left right : JsValue) : Prop := comparator path 1 left right ≤ 0

instance : DecidableRel (KeyOrder path) := fun _ _ => inferInstanceAs (Decidable (_ ≤ _))

/-- The order in a direction. -/
def SortOrder (desc : Bool) (left right : JsValue) : Prop :=
  if desc then KeyOrder path right left else KeyOrder path left right

instance (desc : Bool) : DecidableRel (SortOrder path desc) := fun left right =>
  inferInstanceAs (Decidable (if desc then KeyOrder path right left else KeyOrder path left right))

theorem totalPreorder_keyOrder : TotalPreorder (KeyOrder path) := by
  have hrank := TotalPreorder.of_linearOrder.comap (α := ℕ ×ₗ ℚ ×ₗ List ℕ)
    fun value => (comparable (getPath value path)).rank
  have hiff : ∀ left right, KeyOrder path left right ↔
      (comparable (getPath left path)).rank ≤ (comparable (getPath right path)).rank :=
    fun left right => compareKeys_nonpos_iff (printed_comparable _) (printed_comparable _)
  refine ⟨fun hab hbc => ?_, fun a b => ?_⟩
  · rw [hiff] at hab hbc ⊢
    exact hrank.trans hab hbc
  · rw [hiff, hiff]
    exact hrank.total a b

theorem totalPreorder_sortOrder (desc : Bool) : TotalPreorder (SortOrder path desc) := by
  cases desc
  · exact totalPreorder_keyOrder path
  · exact (totalPreorder_keyOrder path).swap

theorem comparator_swap (direction : ℚ) (left right : JsValue) :
    comparator path direction right left = -comparator path direction left right := by
  rw [comparator, comparator, compareKeys_eq, compareKeys_swap, compareKeys_eq direction, neg_mul]

/-- What the comparator of a direction says. -/
theorem comparator_nonpos_iff (desc : Bool) (left right : JsValue) :
    comparator path (if desc then -1 else 1) left right ≤ 0 ↔ SortOrder path desc left right := by
  cases desc
  · rfl
  · show comparator path (-1) left right ≤ 0 ↔ comparator path 1 right left ≤ 0
    rw [comparator_swap, comparator, comparator, compareKeys_eq (-1)]
    simp

/-- Values without `undefined` are sorted stably. -/
theorem stableSort_sorted (desc : Bool) {items : List JsValue} (h : ∀ item ∈ items, item ≠ .undefined) :
    StableSort (SortOrder path desc) items (sorted path (if desc then -1 else 1) items) := by
  have hdefined : ∀ item ∈ items, isUndefined item = false := by
    intro item hitem
    cases item with
    | undefined => exact absurd rfl (h _ hitem)
    | _ => rfl
  have hall : items.filter (fun item => !isUndefined item) = items :=
    List.filter_eq_self.mpr fun item hitem => by rw [hdefined item hitem]; rfl
  have hnone : items.filter isUndefined = [] :=
    List.filter_eq_nil_iff.mpr fun item hitem => by rw [hdefined item hitem]; decide
  rw [sorted, hall, hnone, List.append_nil]
  simp only [comparator_nonpos_iff]
  exact (totalPreorder_sortOrder path desc).stableSort_mergeSort items

end

theorem ofJson_ne_undefined (value : Json) : JsValue.ofJson value ≠ .undefined := by
  cases value <;> simp [JsValue.ofJson]

/-- **The comparator is a total preorder of values of any types, and a sort is a stable sort by it**,
or by the reversed preorder. -/
theorem transformValue_sort (sha256 : List Char → String) {config : List (String × Json)}
    (hsort : textSetting config "operation" "identity" = "sort") (items : List Json) :
    let path := configuredPath config
    let desc := decide (lastMember "direction" config = some (.str "desc"))
    TotalPreorder (KeyOrder path) ∧
      (∀ left right, comparator path 1 right left = -comparator path 1 left right ∧
        comparator path (-1) left right = comparator path 1 right left) ∧
      ∃ result,
        transformValue sha256 config (.arr (items.map .ofJson)) = .ok (.arr result) ∧
          StableSort (SortOrder path desc) (items.map .ofJson) result := by
  intro path desc
  refine ⟨totalPreorder_keyOrder path, fun left right => ⟨comparator_swap path 1 left right, ?_⟩,
    sorted path (if desc then -1 else 1) (items.map .ofJson), ?_, ?_⟩
  · rw [comparator_swap, comparator, comparator, compareKeys_eq (-1)]
    ring
  · simp only [transformValue, hsort, desc, decide_eq_true_eq]
    rfl
  · refine stableSort_sorted path desc fun item hitem => ?_
    obtain ⟨value, -, rfl⟩ := List.mem_map.mp hitem
    exact ofJson_ne_undefined value

/-- Numbers and texts that are sorted by a path, backwards. -/
theorem transformValue_sort_sample :
    let config : List (String × Json) :=
      [("operation", .str "sort"), ("path", .str "/k"), ("direction", .str "desc")]
    let items : List Json := [.obj [("k", .nat 10)], .obj [("k", .str "9")], .obj [], .obj [("k", .nat 9)]]
    let path := configuredPath config
    let desc := decide (lastMember "direction" config = some (.str "desc"))
    TotalPreorder (KeyOrder path) ∧
      (∀ left right, comparator path 1 right left = -comparator path 1 left right ∧
        comparator path (-1) left right = comparator path 1 right left) ∧
      ∃ result,
        transformValue String.ofList config (.arr (items.map .ofJson)) = .ok (.arr result) ∧
          StableSort (SortOrder path desc) (items.map .ofJson) result :=
  transformValue_sort String.ofList (by simp [textSetting, lastMember, Json.toJsString]) _

end RuntimeCore

end HarnessFramework
