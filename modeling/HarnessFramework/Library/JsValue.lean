import HarnessFramework.Library.Json
import Mathlib.Data.List.Dedup
import Mathlib.Data.List.Perm.Basic

/-!
# Values of a JavaScript program

The JSON values and `undefined`, as a program passes them around in memory. An object is the list of
its own members in the order in which they are enumerated; what it inherits is left out.

`Members` is about such lists: a key that is set keeps its place or takes the one it is enumerated
at, so an object made of entries holds the last entry of each key.

## Main definitions

* `Members.lookup`, `Members.set`, `Members.spread`, `Members.fromEntries`
* `JsValue` — values
* `JsValue.ofJson`, `JsValue.toJson` — from JSON, and to JSON without `undefined`
* `JsValue.get` — a property of an object or an array

## Main results

* `Members.lookup_spread`, `Members.lookup_fromEntries` — the last entry of a key wins
* `Members.length_fromEntries_eq_iff` — no entry is lost exactly when the keys are distinct
* `JsValue.toJson_ofJson` — what was parsed is written as it was
-/

namespace HarnessFramework

/-! ## Members -/

namespace Members

variable {α : Type}

/-- The keys of members. -/
def keys (members : List (String × α)) : List String := members.map Prod.fst

/-- The first value under a key. -/
def lookup (key : String) : List (String × α) → Option α
  | [] => none
  | (key', value) :: members => if key' = key then some value else lookup key members

/-- Whether a new key is enumerated before another: array indices come first, in numeric order. -/
def before (key other : String) : Bool :=
  match Json.arrayIndex? key, Json.arrayIndex? other with
  | some m, some n => m < n
  | some _, none => true
  | none, _ => false

/-- Replace the value under a key. -/
def replace (key : String) (value : α) (members : List (String × α)) : List (String × α) :=
  members.map fun member => if member.1 = key then (key, value) else member

/-- Add a key that is new. -/
def insertNew (key : String) (value : α) (members : List (String × α)) : List (String × α) :=
  members.takeWhile (fun member => !before key member.1) ++
    (key, value) :: members.dropWhile fun member => !before key member.1

/-- Set a property. -/
def set (key : String) (value : α) (members : List (String × α)) : List (String × α) :=
  if key ∈ keys members then replace key value members else insertNew key value members

/-- `{ ...current, ...update }`. -/
def spread (current update : List (String × α)) : List (String × α) :=
  update.foldl (fun members member => set member.1 member.2 members) current

/-- `Object.fromEntries`. -/
def fromEntries (entries : List (String × α)) : List (String × α) := spread [] entries

@[simp] theorem lookup_nil (key : String) : lookup key ([] : List (String × α)) = none := rfl

theorem lookup_cons (key : String) (member : String × α) (members : List (String × α)) :
    lookup key (member :: members) = if member.1 = key then some member.2 else lookup key members := rfl

theorem lookup_map {β : Type} (f : α → β) (key : String) (members : List (String × α)) :
    lookup key (members.map fun member => (member.1, f member.2)) = (lookup key members).map f := by
  induction members with
  | nil => rfl
  | cons member members ih =>
    rw [List.map_cons, lookup_cons, lookup_cons, ih]
    split <;> rfl

@[simp] theorem keys_nil : keys ([] : List (String × α)) = [] := rfl

theorem keys_cons (member : String × α) (members : List (String × α)) :
    keys (member :: members) = member.1 :: keys members := rfl

theorem lookup_append (key : String) (left right : List (String × α)) :
    lookup key (left ++ right) = (lookup key left).or (lookup key right) := by
  induction left with
  | nil => rfl
  | cons member left ih =>
    rw [List.cons_append, lookup_cons, lookup_cons, ih]
    split <;> simp

theorem lookup_eq_none_iff {key : String} {members : List (String × α)} :
    lookup key members = none ↔ key ∉ keys members := by
  induction members with
  | nil => simp
  | cons member members ih =>
    rw [lookup_cons, keys, List.map_cons, List.mem_cons, not_or, ← keys, ← ih]
    split
    case isTrue h => simp [h]
    case isFalse h => simp [Ne.symm h]

theorem mem_of_lookup {key : String} {value : α} {members : List (String × α)}
    (h : lookup key members = some value) : (key, value) ∈ members := by
  induction members with
  | nil => cases h
  | cons member members ih =>
    rw [lookup_cons] at h
    split at h
    · next hkey =>
      obtain rfl := Option.some_inj.mp h
      exact hkey ▸ List.mem_cons_self
    · exact List.mem_cons_of_mem _ (ih h)

/-- The value of a member whose key occurs once. -/
theorem lookup_eq_of_mem {member : String × α} {members : List (String × α)}
    (hnodup : (keys members).Nodup) (h : member ∈ members) :
    lookup member.1 members = some member.2 := by
  induction members with
  | nil => cases h
  | cons member' members ih =>
    rw [keys, List.map_cons, List.nodup_cons] at hnodup
    rw [lookup_cons]
    rcases List.mem_cons.mp h with rfl | h
    · rw [if_pos rfl]
    · rw [if_neg, ih hnodup.2 h]
      intro heq
      exact hnodup.1 (heq ▸ List.mem_map_of_mem h)

/-! ### Setting a property -/

theorem keys_replace (key : String) (value : α) (members : List (String × α)) :
    keys (replace key value members) = keys members := by
  rw [keys, keys, replace, List.map_map]
  refine List.map_congr_left fun member _ => ?_
  show (if member.1 = key then (key, value) else member).1 = member.1
  split
  case isTrue h => exact h.symm
  case isFalse => rfl

theorem keys_insertNew (key : String) (value : α) (members : List (String × α)) :
    (keys (insertNew key value members)).Perm (key :: keys members) := by
  have hsplit := List.takeWhile_append_dropWhile (p := fun member => !before key member.1) (l := members)
  rw [insertNew]
  conv_rhs => rw [← hsplit]
  rw [keys, keys, List.map_append, List.map_append, List.map_cons]
  exact List.perm_middle

theorem mem_keys_set {key key' : String} {value : α} {members : List (String × α)} :
    key' ∈ keys (set key value members) ↔ key' = key ∨ key' ∈ keys members := by
  rw [set]
  split
  case isTrue h =>
    rw [keys_replace]
    constructor
    · exact .inr
    · rintro (rfl | h')
      · exact h
      · exact h'
  case isFalse => rw [(keys_insertNew key value members).mem_iff, List.mem_cons]

theorem nodup_keys_set {key : String} {value : α} {members : List (String × α)}
    (h : (keys members).Nodup) : (keys (set key value members)).Nodup := by
  rw [set]
  split
  case isTrue => rwa [keys_replace]
  case isFalse hnew =>
    rw [(keys_insertNew key value members).nodup_iff]
    exact List.nodup_cons.mpr ⟨hnew, h⟩

theorem lookup_replace {key : String} (value : α) {members : List (String × α)}
    (h : key ∈ keys members) (key' : String) :
    lookup key' (replace key value members)
      = if key = key' then some value else lookup key' members := by
  induction members with
  | nil => cases h
  | cons member members ih =>
    rw [keys, List.map_cons, List.mem_cons, ← keys] at h
    rw [replace, List.map_cons, lookup_cons, lookup_cons, ← replace]
    by_cases hhead : member.1 = key
    · rw [if_pos hhead]
      by_cases hkey : key = key'
      · rw [if_pos hkey, if_pos hkey]
      · rw [if_neg hkey, if_neg hkey, if_neg (hhead ▸ hkey)]
        by_cases hmem : key ∈ keys members
        · rw [ih hmem, if_neg hkey]
        · have hid : replace key value members = members := by
            refine (List.map_congr_left fun m hm => if_neg ?_).trans (List.map_id' members)
            rintro rfl
            exact hmem (List.mem_map_of_mem hm)
          rw [hid]
    · rw [if_neg hhead, ih (h.resolve_left (Ne.symm hhead))]
      by_cases hkey : key = key'
      · rw [if_pos hkey, if_pos hkey, if_neg (hkey ▸ hhead)]
      · rw [if_neg hkey, if_neg hkey]

theorem lookup_insertNew {key : String} (value : α) {members : List (String × α)}
    (h : key ∉ keys members) (key' : String) :
    lookup key' (insertNew key value members)
      = if key = key' then some value else lookup key' members := by
  have hsplit := List.takeWhile_append_dropWhile (p := fun member => !before key member.1) (l := members)
  have hparts : lookup key' members = _ := congrArg (lookup key') hsplit.symm
  rw [insertNew, lookup_append, lookup_cons]
  by_cases hkey : key = key'
  · have hnone : lookup key' (members.takeWhile fun member => !before key member.1) = none := by
      rw [lookup_eq_none_iff, ← hkey]
      intro hmem
      exact h (List.map_subset _ (List.takeWhile_subset _) hmem)
    rw [hnone, if_pos hkey, if_pos hkey, Option.none_or]
  · rw [if_neg hkey, if_neg hkey, hparts, lookup_append]

/-- **A property that is set changes, and no other.** -/
theorem lookup_set (key : String) (value : α) (members : List (String × α)) (key' : String) :
    lookup key' (set key value members) = if key = key' then some value else lookup key' members := by
  rw [set]
  split
  case isTrue h => exact lookup_replace value h key'
  case isFalse h => exact lookup_insertNew value h key'

/-! ### Several properties -/

/-- **Of an update the last member of each key counts.** -/
theorem lookup_spread (current update : List (String × α)) (key : String) :
    lookup key (spread current update) = (lookup key update.reverse).or (lookup key current) := by
  induction update generalizing current with
  | nil => rfl
  | cons member update ih =>
    rw [spread, List.foldl_cons, ← spread, ih, lookup_set, List.reverse_cons, lookup_append,
      Option.or_assoc, lookup_cons]
    split <;> simp

theorem mem_keys_spread {current update : List (String × α)} {key : String} :
    key ∈ keys (spread current update) ↔ key ∈ keys update ∨ key ∈ keys current := by
  induction update generalizing current with
  | nil => simp [spread]
  | cons member update ih =>
    rw [spread, List.foldl_cons, ← spread, ih, mem_keys_set]
    simp only [keys, List.map_cons, List.mem_cons]
    tauto

theorem nodup_keys_spread {current : List (String × α)} (update : List (String × α))
    (h : (keys current).Nodup) : (keys (spread current update)).Nodup := by
  induction update generalizing current with
  | nil => exact h
  | cons member update ih => exact ih (nodup_keys_set h)

/-- **An object made of entries holds the last entry of each key.** -/
theorem lookup_fromEntries (entries : List (String × α)) (key : String) :
    lookup key (fromEntries entries) = lookup key entries.reverse := by
  rw [fromEntries, lookup_spread, lookup_nil, Option.or_none]

theorem mem_keys_fromEntries {entries : List (String × α)} {key : String} :
    key ∈ keys (fromEntries entries) ↔ key ∈ keys entries := by
  rw [fromEntries, mem_keys_spread]; simp

theorem nodup_keys_fromEntries (entries : List (String × α)) : (keys (fromEntries entries)).Nodup :=
  nodup_keys_spread entries List.nodup_nil

theorem keys_fromEntries_perm (entries : List (String × α)) :
    (keys (fromEntries entries)).Perm (keys entries).dedup := by
  rw [List.perm_ext_iff_of_nodup (nodup_keys_fromEntries entries) (List.nodup_dedup _)]
  intro key
  rw [mem_keys_fromEntries, List.mem_dedup]

/-- **No entry is lost exactly when the keys are distinct.** -/
theorem length_fromEntries_eq_iff (entries : List (String × α)) :
    (fromEntries entries).length = entries.length ↔ (keys entries).Nodup := by
  have hlength : (fromEntries entries).length = (keys entries).dedup.length := by
    rw [← (keys_fromEntries_perm entries).length_eq, keys, List.length_map]
  have hentries : entries.length = (keys entries).length := (List.length_map _).symm
  rw [hlength, hentries]
  constructor
  · intro h
    rw [← (List.dedup_sublist (keys entries)).eq_of_length h]
    exact List.nodup_dedup _
  · intro h
    rw [h.dedup]

theorem lookup_fromEntries_of_mem {entries : List (String × α)} (hnodup : (keys entries).Nodup)
    {entry : String × α} (h : entry ∈ entries) :
    lookup entry.1 (fromEntries entries) = some entry.2 := by
  rw [lookup_fromEntries]
  refine lookup_eq_of_mem ?_ (List.mem_reverse.mpr h)
  rw [keys, List.map_reverse, List.nodup_reverse]
  exact hnodup

end Members

/-! ## Values -/

/-- A JSON value or `undefined`, in an object or array also inside. -/
inductive JsValue where
  | undefined
  | null
  | bool (b : Bool)
  | num (n : JsonNumber)
  | str (s : String)
  | arr (items : List JsValue)
  | obj (members : List (String × JsValue))

namespace JsValue

instance : Inhabited JsValue := ⟨.undefined⟩

mutual

/-- A value that was parsed. -/
def ofJson : Json → JsValue
  | .null => .null
  | .bool b => .bool b
  | .num n => .num n
  | .str s => .str s
  | .arr items => .arr (ofItems items)
  | .obj members => .obj (ofMembers members)

/-- The items of an array that was parsed. -/
def ofItems : List Json → List JsValue
  | [] => []
  | item :: items => ofJson item :: ofItems items

/-- The members of an object that was parsed. -/
def ofMembers : List (String × Json) → List (String × JsValue)
  | [] => []
  | (key, value) :: members => (key, ofJson value) :: ofMembers members

end

mutual

/-- What `JSON.stringify` writes of a value: nothing of `undefined`. -/
def toJson : JsValue → Option Json
  | .undefined => none
  | .null => some .null
  | .bool b => some (.bool b)
  | .num n => some (.num n)
  | .str s => some (.str s)
  | .arr items => some (.arr (toItems items))
  | .obj members => some (.obj (toMembers members))

/-- The items of an array, `null` for `undefined`. -/
def toItems : List JsValue → List Json
  | [] => []
  | item :: items => (toJson item).getD .null :: toItems items

/-- The members of an object that are not `undefined`. -/
def toMembers : List (String × JsValue) → List (String × Json)
  | [] => []
  | (key, value) :: members =>
    match toJson value with
    | some json => (key, json) :: toMembers members
    | none => toMembers members

end

/-- `current && typeof current === "object" ? current[key] : undefined`. -/
def get (key : String) : JsValue → JsValue
  | .obj members => (Members.lookup key members).getD .undefined
  | .arr items =>
    match Json.arrayIndex? key with
    | some index => items.getD index .undefined
    | none => if key = "length" then .num (.ofNat items.length) else .undefined
  | _ => .undefined

/-- The own members of an object or an array. -/
def own? : JsValue → Option (List (String × JsValue))
  | .obj members => some members
  | .arr items => some (items.zipIdx.map fun item => (String.ofList (Json.natChars item.2), item.1))
  | _ => none

/-- `value === null || value === undefined`. -/
def Nullish (value : JsValue) : Prop := value = .null ∨ value = .undefined

mutual

@[simp] theorem toJson_ofJson (value : Json) : (ofJson value).toJson = some value := by
  match value with
  | .null | .bool _ | .num _ | .str _ => rfl
  | .arr items => rw [ofJson, toJson, toItems_ofItems]
  | .obj members => rw [ofJson, toJson, toMembers_ofMembers]

theorem toItems_ofItems (items : List Json) : toItems (ofItems items) = items := by
  match items with
  | [] => rfl
  | item :: items => rw [ofItems, toItems, toJson_ofJson item, toItems_ofItems items, Option.getD_some]

theorem toMembers_ofMembers (members : List (String × Json)) :
    toMembers (ofMembers members) = members := by
  match members with
  | [] => rfl
  | (key, value) :: members =>
    rw [ofMembers, toMembers, toJson_ofJson value, toMembers_ofMembers members]

end

theorem ofItems_eq_map (items : List Json) : ofItems items = items.map ofJson := by
  induction items with
  | nil => rfl
  | cons item items ih => rw [ofItems, ih, List.map_cons]

theorem ofMembers_eq_map (members : List (String × Json)) :
    ofMembers members = members.map fun member => (member.1, ofJson member.2) := by
  induction members with
  | nil => rfl
  | cons member members ih => rw [ofMembers, ih, List.map_cons]

@[simp] theorem get_obj (key : String) (members : List (String × JsValue)) :
    get key (.obj members) = (Members.lookup key members).getD .undefined := rfl

end JsValue

end HarnessFramework
