import HarnessFramework.Library.JsonRoundTrip
import HarnessFramework.Library.LevelOrder
import HarnessFramework.RuntimeCore.Conditions

/-!
# Model calls

`packages/adapters/src/index.ts`: what a model call cost, as the metadata of the provider says it
somewhere, and what the model answered, as JSON that may be fenced.

The cost is searched for with a queue. What is found is on the first level of the metadata that has a
cost, however deep.

## Main definitions

* `numberOf` — `Number(text)`
* `modelCallCost` — the cost of a call
* `parseModelOutput` — the answer as a value

## Main results

* `modelCallCost_first` — which cost is found
* `parseModelOutput_stringify` — an answer that is JSON is read, fenced or not
-/

namespace HarnessFramework

namespace Adapters

open RuntimeCore (isSpace)
open LevelOrder

/-! ## Numbers in texts -/

/-- `text.trim()`. -/
def trim (cs : List Char) : List Char := (cs.dropWhile isSpace).rdropWhile isSpace

/-- The digits that characters stand for. -/
def digitsOf (cs : List Char) : List (Fin 10) := cs.map JsonNumber.charDigit

/-- The exponent of a decimal literal, after its `e`. -/
def exponentOf (cs : List Char) : Option ℤ :=
  let (negative, digits) := match cs with
    | '-' :: r => (true, r)
    | '+' :: r => (false, r)
    | r => (false, r)
  if digits = [] ∨ ¬ digits.all Char.isDigit then none
  else some (if negative then -(JsonNumber.natOf (digitsOf digits))
    else JsonNumber.natOf (digitsOf digits))

/-- A decimal literal without its sign: the digits, and where the point is. -/
def decimalOf (cs : List Char) : Option (List (Fin 10) × ℤ) :=
  let whole := cs.takeWhile Char.isDigit
  let (fraction, r) := match cs.dropWhile Char.isDigit with
    | '.' :: r => (r.takeWhile Char.isDigit, r.dropWhile Char.isDigit)
    | r => ([], r)
  if whole = [] ∧ fraction = [] then none
  else match r with
    | [] => some (digitsOf (whole ++ fraction), whole.length)
    | c :: r => if c = 'e' ∨ c = 'E' then
        (exponentOf r).map fun exponent => (digitsOf (whole ++ fraction), whole.length + exponent)
      else none

/-- The value of the digits of a radix. -/
def radixOf (radix : ℕ) (cs : List Char) : Option JsonNumber :=
  (cs.mapM fun c => (JsonText.hexDigit? c).filter (· < radix)).bind fun digits =>
    if digits = [] then none else some (.ofNat (digits.foldl (fun n digit => n * radix + digit) 0))

/-- A literal, before it is rounded. -/
def literalOf : List Char → Option JsonNumber
  | '0' :: 'x' :: r | '0' :: 'X' :: r => radixOf 16 r
  | '0' :: 'o' :: r | '0' :: 'O' :: r => radixOf 8 r
  | '0' :: 'b' :: r | '0' :: 'B' :: r => radixOf 2 r
  | '-' :: r => (decimalOf r).map fun decimal => .ofParts true decimal.1 decimal.2
  | '+' :: r => (decimalOf r).map fun decimal => .ofParts false decimal.1 decimal.2
  | r => (decimalOf r).map fun decimal => .ofParts false decimal.1 decimal.2

/-- `Number(text)` where it is finite. -/
def numberOf (cs : List Char) : Option JsonNumber :=
  if trim cs = [] then some (.ofNat 0) else (literalOf (trim cs)).bind JsonNumber.round

/-! ## Costs -/

/-- The names under which a cost is looked for, in lower case. -/
def costKeys : List String :=
  ["cost", "costusd", "totalcost", "totalcostusd", "total_cost", "total_cost_usd"]

/-- A name in lower case. No other character becomes a letter of a key. -/
def lowered (name : String) : String := String.ofList (name.toList.map Char.toLower)

/-- The number that a value is or says. -/
def numberIn : Json → Option JsonNumber
  | .num n => some n
  | .str text => if trim text.toList = [] then none else numberOf text.toList
  | _ => none

/-- The cost that a member states. -/
def costOf (member : String × Json) : Option JsonNumber :=
  if lowered member.1 ∈ costKeys then (numberIn member.2).filter fun n => 0 ≤ n.toRat else none

/-- `Object.entries(value)`, of an object or an array. -/
def entries : Json → List (String × Json)
  | .obj members => members
  | .arr items => items.zipIdx.map fun item => (String.ofList (Json.natChars item.2), item.1)
  | _ => []

/-- The value is an object or an array. -/
def isContainer : Json → Bool
  | .obj _ | .arr _ => true
  | _ => false

/-- The objects and arrays that are members of a value. -/
def containers (value : Json) : List Json := ((entries value).map Prod.snd).filter isContainer

mutual

/-- How many values there are in a value. -/
def weight : Json → ℕ
  | .arr items => weightItems items + 1
  | .obj members => weightMembers members + 1
  | _ => 1

/-- How many values there are in items. -/
def weightItems : List Json → ℕ
  | [] => 0
  | item :: items => weight item + weightItems items

/-- How many values there are in members. -/
def weightMembers : List (String × Json) → ℕ
  | [] => 0
  | (_, value) :: members => weight value + weightMembers members

end

/-- `modelCallCost`. -/
def modelCallCost (metadata : Json) : Option JsonNumber :=
  if isContainer metadata then
    searchQueue containers (fun value => (entries value).findSome? costOf) (weight metadata) [metadata]
  else none

/-- The members on a level of the metadata. -/
def membersAt (metadata : Json) (n : ℕ) : List (String × Json) :=
  (level containers n [metadata]).flatMap entries

theorem total_items (items : List Json) : total weight items = weightItems items := by
  induction items with
  | nil => rfl
  | cons item items ih => rw [total_cons, ih, weightItems]

theorem total_members (members : List (String × Json)) :
    total weight (members.map Prod.snd) = weightMembers members := by
  induction members with
  | nil => rfl
  | cons member members ih => rw [List.map_cons, total_cons, ih, weightMembers]

theorem total_filter_le (p : Json → Bool) (values : List Json) :
    total weight (values.filter p) ≤ total weight values := by
  induction values with
  | nil => exact Nat.le_refl _
  | cons value values ih =>
    rw [List.filter_cons, total_cons]
    split
    · rw [total_cons]
      omega
    · omega

/-- What is inside a value weighs less. -/
theorem total_containers (value : Json) : total weight (containers value) < weight value := by
  have hle := total_filter_le isContainer ((entries value).map Prod.snd)
  cases value with
  | obj members =>
    rw [entries, total_members] at hle
    rw [containers, entries, weight]
    omega
  | arr items =>
    have hitems : (entries (.arr items)).map Prod.snd = items := by
      rw [entries, List.map_map]
      exact List.zipIdx_map_fst 0 items
    rw [hitems, total_items items] at hle
    rw [containers, hitems, weight]
    omega
  | null | bool | num | str => exact Nat.zero_lt_one

theorem findSome?_membersAt (metadata : Json) (n : ℕ) :
    (level containers n [metadata]).findSome? (fun value => (entries value).findSome? costOf) =
      (membersAt metadata n).findSome? costOf :=
  (findSome?_flatMap _ _).symm

theorem membersAt_of_not_container {metadata : Json} (h : isContainer metadata = false) (n : ℕ) :
    membersAt metadata n = [] := by
  have hentries : entries metadata = [] := by
    cases metadata with
    | obj | arr => cases h
    | null | bool | num | str => rfl
  rw [membersAt]
  cases n with
  | zero => simp [level, hentries]
  | succ n =>
    have hinside : [metadata].flatMap containers = [] := by simp [containers, hentries]
    rw [level, hinside, level_nil, List.flatMap_nil]

/-- **The cost of a call is the first on the first level of the metadata that states one**, and there is
none when no level does. -/
theorem modelCallCost_first (metadata : Json) :
    (∀ cost, modelCallCost metadata = some cost ↔ ∃ n,
      (membersAt metadata n).findSome? costOf = some cost ∧
        ∀ m < n, ∀ member ∈ membersAt metadata m, costOf member = none) ∧
    (modelCallCost metadata = none ↔ ∀ n, ∀ member ∈ membersAt metadata n, costOf member = none) := by
  have hfuel : total weight [metadata] ≤ weight metadata := by
    rw [total_cons]
    exact Nat.le_refl _
  constructor
  · intro cost
    rw [modelCallCost]
    split
    · rw [searchQueue_eq_some total_containers hfuel]
      simp only [findSome?_membersAt, List.findSome?_eq_none_iff]
    · next hcontainer =>
      simp [membersAt_of_not_container (Bool.eq_false_iff.mpr hcontainer)]
  · rw [modelCallCost]
    split
    · rw [searchQueue_eq_none total_containers hfuel]
      simp only [membersAt, List.mem_flatMap, List.findSome?_eq_none_iff]
      constructor
      · rintro h n member ⟨value, hvalue, hmember⟩
        exact h n value hvalue member hmember
      · intro h n value hvalue member hmember
        exact h n member ⟨value, hvalue, hmember⟩
    · next hcontainer =>
      simp [membersAt_of_not_container (Bool.eq_false_iff.mpr hcontainer)]

/-- What lies higher comes first, and a cost in a text counts too. -/
example : (modelCallCost (.obj [("openrouter", .obj [("usage", .obj [("cost", .nat 2)])]),
    ("gateway", .obj [("Total_Cost", .str " 0x1 ")])])).map JsonNumber.toChars = some ['1'] := by
  decide +kernel

/-! ## Answers -/

def fence : List Char := ['\x60', '\x60', '\x60']

/-- ``/^```(?:json)?\s*/i`` taken away. -/
def dropOpening (cs : List Char) : List Char :=
  if fence <+: cs then
    let r := cs.drop 3
    (if (r.take 4).map Char.toLower = "json".toList then r.drop 4 else r).dropWhile isSpace
  else cs

/-- ``/\s*```$/`` taken away. -/
def dropClosing (cs : List Char) : List Char :=
  if fence <:+ cs then (cs.take (cs.length - 3)).rdropWhile isSpace else cs

/-- `parseModelOutput`. A number that is no finite double gives no value here. -/
def parseModelOutput (text : List Char) : Option Json :=
  match JsonText.parse (dropClosing (dropOpening (trim text))) with
  | some tree => tree.toJson?
  | none => some (.obj [("text", .str (String.ofList (trim text)))])

/-- A character that is neither a space, nor of a fence, nor the first letter of its tag. -/
def solid (c : Char) : Bool := !isSpace c && c != '\x60' && c.toLower != 'j'

/-- A text between solid characters. -/
structure Solid (cs : List Char) : Prop where
  first : ∃ c r, cs = c :: r ∧ solid c = true
  last : ∃ r c, cs = r ++ [c] ∧ solid c = true

theorem isSpace_of_solid {c : Char} (hc : solid c = true) : isSpace c = false := by
  simp only [solid, Bool.and_eq_true, Bool.not_eq_true'] at hc
  exact hc.1.1

theorem ne_fence_of_solid {c : Char} (hc : solid c = true) : c ≠ '\x60' := by
  simp only [solid, Bool.and_eq_true, bne_iff_ne] at hc
  exact hc.1.2

theorem solid_of_numeric {c : Char} (hc : JsonNumber.Numeric c) : solid c = true := by
  rcases hc with ⟨d, rfl⟩ | rfl | rfl | rfl | rfl
  · revert d
    decide
  all_goals decide

/-- What is written ends with its quote. -/
theorem quoteTail_snoc (cs : List Char) : ∃ r, Json.quoteTail cs = r ++ ['"'] := by
  induction cs with
  | nil => exact ⟨[], rfl⟩
  | cons c cs ih =>
    obtain ⟨r, hr⟩ := ih
    exact ⟨Json.escape c ++ r, by rw [Json.quoteTail, hr, List.append_assoc]⟩

theorem stringifyItems_snoc (items : List Json) : ∃ r, Json.stringifyItems items = r ++ [']'] := by
  induction items with
  | nil => exact ⟨[], rfl⟩
  | cons item items ih =>
    obtain ⟨r, hr⟩ := ih
    refine ⟨',' :: Json.stringify item ++ r, ?_⟩
    rw [Json.stringifyItems, hr, List.cons_append, List.cons_append, List.append_assoc]

theorem stringifyMembers_snoc (members : List (String × Json)) :
    ∃ r, Json.stringifyMembers members = r ++ ['}'] := by
  induction members with
  | nil => exact ⟨[], rfl⟩
  | cons member members ih =>
    obtain ⟨key, value⟩ := member
    obtain ⟨r, hr⟩ := ih
    refine ⟨',' :: Json.quote key ++ ':' :: Json.stringify value ++ r, ?_⟩
    rw [Json.stringifyMembers, hr]
    simp only [List.cons_append, List.append_assoc]

/-- **The text of a value stands between solid characters.** -/
theorem solid_stringify (v : Json) : Solid (Json.stringify v) := by
  cases v with
  | null => exact ⟨⟨'n', _, rfl, by decide⟩, ['n', 'u', 'l'], 'l', rfl, by decide⟩
  | bool b =>
    cases b with
    | false => exact ⟨⟨'f', _, rfl, by decide⟩, ['f', 'a', 'l', 's'], 'e', rfl, by decide⟩
    | true => exact ⟨⟨'t', _, rfl, by decide⟩, ['t', 'r', 'u'], 'e', rfl, by decide⟩
  | num n =>
    have hsolid : ∀ c ∈ n.toChars, solid c = true := fun c hc =>
      solid_of_numeric (JsonNumber.numeric_of_mem_toChars hc)
    have hne := JsonNumber.toChars_ne_nil n
    rw [Json.stringify]
    constructor
    · obtain ⟨c, r, hcs⟩ := List.exists_cons_of_ne_nil hne
      exact ⟨c, r, hcs, hsolid c (by rw [hcs]; exact List.mem_cons_self)⟩
    · exact ⟨n.toChars.dropLast, n.toChars.getLast hne, (List.dropLast_append_getLast hne).symm,
        hsolid _ (List.getLast_mem hne)⟩
  | str text =>
    obtain ⟨r, hr⟩ := quoteTail_snoc text.toList
    refine ⟨⟨'"', _, rfl, by decide⟩, '"' :: r, '"', ?_, by decide⟩
    rw [Json.stringify, Json.quote, hr, List.cons_append]
  | arr items =>
    cases items with
    | nil => exact ⟨⟨'[', _, rfl, by decide⟩, ['['], ']', rfl, by decide⟩
    | cons item items =>
      obtain ⟨r, hr⟩ := stringifyItems_snoc items
      refine ⟨⟨'[', _, by rw [Json.stringify], by decide⟩,
        '[' :: (Json.stringify item ++ r), ']', ?_, by decide⟩
      rw [Json.stringify, hr, List.cons_append, List.append_assoc]
  | obj members =>
    cases members with
    | nil => exact ⟨⟨'{', _, rfl, by decide⟩, ['{'], '}', rfl, by decide⟩
    | cons member members =>
      obtain ⟨key, value⟩ := member
      obtain ⟨r, hr⟩ := stringifyMembers_snoc members
      refine ⟨⟨'{', _, by rw [Json.stringify], by decide⟩,
        '{' :: (Json.quote key ++ ':' :: (Json.stringify value ++ r)), '}', ?_, by decide⟩
      rw [Json.stringify, hr]
      simp only [List.cons_append, List.append_assoc]

/-! ### Spaces and fences taken away -/

/-- Characters that are all spaces. -/
def Spaces (cs : List Char) : Prop := ∀ c ∈ cs, isSpace c = true

theorem dropWhile_spaces {before cs : List Char} (hbefore : Spaces before)
    (hfirst : ∃ c r, cs = c :: r ∧ isSpace c = false) : (before ++ cs).dropWhile isSpace = cs := by
  obtain ⟨c, r, rfl, hc⟩ := hfirst
  rw [List.dropWhile_append_of_pos hbefore,
    List.dropWhile_cons_of_neg (by rw [hc]; exact Bool.false_ne_true)]

theorem rdropWhile_spaces {cs after : List Char} (hafter : Spaces after)
    (hlast : ∃ r c, cs = r ++ [c] ∧ isSpace c = false) : (cs ++ after).rdropWhile isSpace = cs := by
  obtain ⟨r, c, rfl, hc⟩ := hlast
  rw [List.rdropWhile, List.reverse_append, dropWhile_spaces, List.reverse_reverse]
  · intro d hd
    exact hafter d (List.mem_reverse.mp hd)
  · exact ⟨c, r.reverse, by rw [List.reverse_append]; rfl, hc⟩

theorem trim_spaces {before cs after : List Char} (hbefore : Spaces before) (hafter : Spaces after)
    (hfirst : ∃ c r, cs = c :: r ∧ isSpace c = false)
    (hlast : ∃ r c, cs = r ++ [c] ∧ isSpace c = false) :
    trim (before ++ (cs ++ after)) = cs := by
  have hstart : ∃ c r, cs ++ after = c :: r ∧ isSpace c = false := by
    obtain ⟨c, r, rfl, hc⟩ := hfirst
    exact ⟨c, r ++ after, rfl, hc⟩
  rw [trim, dropWhile_spaces hbefore hstart, rdropWhile_spaces hafter hlast]

theorem Solid.starts {cs : List Char} (h : Solid cs) : ∃ c r, cs = c :: r ∧ isSpace c = false := by
  obtain ⟨c, r, hcs, hc⟩ := h.first
  exact ⟨c, r, hcs, isSpace_of_solid hc⟩

theorem Solid.ends {cs : List Char} (h : Solid cs) : ∃ r c, cs = r ++ [c] ∧ isSpace c = false := by
  obtain ⟨r, c, hcs, hc⟩ := h.last
  exact ⟨r, c, hcs, isSpace_of_solid hc⟩

theorem Solid.dropOpening {cs : List Char} (h : Solid cs) (after : List Char) :
    dropOpening (cs ++ after) = cs ++ after := by
  obtain ⟨c, r, rfl, hc⟩ := h.first
  rw [Adapters.dropOpening, if_neg]
  rintro ⟨s, hs⟩
  exact ne_fence_of_solid hc (List.cons.inj hs).1.symm

theorem Solid.dropClosing {cs : List Char} (h : Solid cs) : dropClosing cs = cs := by
  obtain ⟨r, c, rfl, hc⟩ := h.last
  rw [Adapters.dropClosing, if_neg]
  rintro ⟨s, hs⟩
  have hlast := congrArg List.getLast? hs
  rw [fence, List.getLast?_append, List.getLast?_append] at hlast
  exact ne_fence_of_solid hc (Option.some.inj hlast).symm

theorem toLower_ne_of_isSpace {c : Char} (hc : isSpace c = true) : c.toLower ≠ 'j' := by
  intro hlower
  delta Char.toLower at hlower
  split at hlower
  · next hupper =>
    have hlow : 65 ≤ c.toNat := hupper.1
    have hhigh : c.toNat ≤ 90 := hupper.2
    simp only [isSpace, Bool.or_eq_true, Bool.and_eq_true, decide_eq_true_eq, List.mem_cons,
      List.not_mem_nil, or_false] at hc
    omega
  · rw [hlower] at hc
    exact absurd hc (by decide)

/-- **A tagged fence in front is taken away.** -/
theorem dropOpening_fence {tag gap cs : List Char} (htag : tag = [] ∨ tag.map Char.toLower = "json".toList)
    (hgap : Spaces gap) (hcs : ∃ c r, cs = c :: r ∧ solid c = true) :
    dropOpening (fence ++ (tag ++ (gap ++ cs))) = cs := by
  have hspaces : (gap ++ cs).dropWhile isSpace = cs := by
    obtain ⟨c, r, hcs, hc⟩ := hcs
    exact dropWhile_spaces hgap ⟨c, r, hcs, isSpace_of_solid hc⟩
  have hdrop : (fence ++ (tag ++ (gap ++ cs))).drop 3 = tag ++ (gap ++ cs) := rfl
  rw [dropOpening, if_pos (List.prefix_append _ _)]
  simp only [hdrop]
  rcases htag with rfl | htag
  · rw [List.nil_append, if_neg, hspaces]
    -- neither a space nor a solid character is the first letter of the tag
    intro hjson
    obtain ⟨c, r, hcr, hc⟩ : ∃ c r, gap ++ cs = c :: r ∧ c.toLower ≠ 'j' := by
      obtain ⟨d, s, rfl, hd⟩ := hcs
      cases gap with
      | nil =>
        simp only [solid, Bool.and_eq_true, bne_iff_ne] at hd
        exact ⟨d, s, rfl, hd.2⟩
      | cons c gap =>
        exact ⟨c, _, rfl, toLower_ne_of_isSpace (hgap c List.mem_cons_self)⟩
    rw [hcr, List.take_succ_cons, List.map_cons] at hjson
    exact hc (List.cons.inj hjson).1
  · have hlength : tag.length = 4 := by
      have h := congrArg List.length htag
      rwa [List.length_map] at h
    rw [List.take_left' hlength, if_pos htag, List.drop_left' hlength, hspaces]

/-- **A fence at the end is taken away.** -/
theorem dropClosing_fence {cs gap : List Char} (hgap : Spaces gap) (hcs : Solid cs) :
    dropClosing (cs ++ (gap ++ fence)) = cs := by
  have hlength : (cs ++ (gap ++ fence)).length - 3 = (cs ++ gap).length := by
    simp only [List.length_append, fence, List.length_cons, List.length_nil]
    omega
  rw [← List.append_assoc] at hlength ⊢
  rw [dropClosing, if_pos (List.suffix_append _ _), hlength, List.take_left,
    rdropWhile_spaces hgap hcs.ends]

/-- A text in a fence. -/
def fenced (tag opening cs closing : List Char) : List Char :=
  fence ++ (tag ++ (opening ++ (cs ++ (closing ++ fence))))

theorem fenced_starts (tag opening cs closing : List Char) :
    ∃ c r, fenced tag opening cs closing = c :: r ∧ isSpace c = false :=
  ⟨'\x60', _, rfl, by decide⟩

theorem fenced_ends (tag opening cs closing : List Char) :
    ∃ r c, fenced tag opening cs closing = r ++ [c] ∧ isSpace c = false :=
  ⟨fence ++ (tag ++ (opening ++ (cs ++ (closing ++ ['\x60', '\x60'])))), '\x60', by simp [fenced, fence],
    by decide⟩

/-- **An answer that is the JSON of a value is read as that value**, bare or fenced, whatever spaces stand
around it. -/
theorem parseModelOutput_stringify {v : Json} (h : v.Held) {before opening closing after : List Char}
    (hbefore : Spaces before) (hopening : Spaces opening) (hclosing : Spaces closing)
    (hafter : Spaces after) {tag : List Char} (htag : tag = [] ∨ tag.map Char.toLower = "json".toList) :
    parseModelOutput (before ++ (Json.stringify v ++ after)) = some v ∧
    parseModelOutput (before ++ (fenced tag opening (Json.stringify v) closing ++ after)) = some v := by
  have hsolid := solid_stringify v
  constructor
  · have hopen := hsolid.dropOpening []
    rw [List.append_nil] at hopen
    rw [parseModelOutput, trim_spaces hbefore hafter hsolid.starts hsolid.ends, hopen, hsolid.dropClosing]
    have hparse := Json.parse_stringify h
    rw [Json.parse_text] at hparse ⊢
    exact hparse
  · have hfirst : ∃ c r, Json.stringify v ++ (closing ++ fence) = c :: r ∧ solid c = true := by
      obtain ⟨c, r, hcs, hc⟩ := hsolid.first
      exact ⟨c, r ++ (closing ++ fence), by rw [hcs]; rfl, hc⟩
    rw [parseModelOutput, trim_spaces hbefore hafter (fenced_starts ..) (fenced_ends ..), fenced,
      dropOpening_fence htag hopening hfirst, dropClosing_fence hclosing hsolid]
    have hparse := Json.parse_stringify h
    rw [Json.parse_text] at hparse ⊢
    exact hparse

theorem parseModelOutput_stringify_sample :
    parseModelOutput ([] ++ (Json.stringify (.obj [("outcome", .str "REVIEW")]) ++ ['\n'])) =
        some (.obj [("outcome", .str "REVIEW")]) ∧
      parseModelOutput ([] ++ (fenced "JSON".toList ['\n']
        (Json.stringify (.obj [("outcome", .str "REVIEW")])) ['\n'] ++ ['\n'])) =
        some (.obj [("outcome", .str "REVIEW")]) :=
  have hline : Spaces ['\n'] := by simp [Spaces, isSpace]
  have hnone : Spaces [] := by simp [Spaces]
  have hheld : Json.Held (.obj [("outcome", .str "REVIEW")]) :=
    ⟨by unfold Members.Enumerated; decide, trivial, trivial⟩
  parseModelOutput_stringify hheld hnone hline hline hline (.inr (by decide))

end Adapters

end HarnessFramework
