import HarnessFramework.Contracts.SameValue

/-!
# Schemas

What the schemas of `packages/contracts/src/index.ts` are made of, as zod parses with them. Strict
objects take no member that is not declared; a member that is not there may have a default. A record
is any object.

## Main definitions

* `Schema`, `Schema.parse` — schemas, and parsing
* `Schema.Complete` — every member with a default is there
* `Schema.NoDefaults` — no member has a default

## Main results

* `Schema.parse_complete` — parsing changes nothing where every member with a default is there
* `Schema.complete_of_noDefaults`
-/

namespace HarnessFramework

/-- What an object does without a declared member. -/
inductive Presence
  | required
  | optional
  | default (value : Json)

/-- Whether there is a default. -/
def Presence.hasDefault : Presence → Bool
  | .default _ => true
  | .required | .optional => false

/-- A schema. -/
inductive Schema
  | unknown
  | text (accepts : String → Bool)
  | number (accepts : JsonNumber → Bool)
  | boolean
  | record
  | array (item : Schema)
  | nullable (schema : Schema)
  /-- A strict object, and a check of its parsed members. -/
  | object (fields : List (String × Presence × Schema)) (accepts : List (String × Json) → Bool)

namespace Schema

/-! ## Parsing -/

/-- The member that stands for one that is missing, if it may be missing. -/
def missing (key : String) : Presence → Option (List (String × Json))
  | .required => none
  | .optional => some []
  | .default value => some [(key, value)]

mutual

/-- `parse`. -/
def parse : Schema → Json → Option Json
  | .unknown, value => some value
  | .text accepts, .str s => if accepts s then some (.str s) else none
  | .number accepts, .num n => if accepts n then some (.num n) else none
  | .boolean, .bool b => some (.bool b)
  | .record, .obj members => some (.obj members)
  | .array item, .arr items => (items.mapM (parse item)).map .arr
  | .nullable schema, value => if value = .null then some .null else parse schema value
  | .object fields accepts, .obj members =>
    if members.all fun member => member.1 ∈ fields.map Prod.fst then
      (parseFields fields members).bind fun parsed =>
        if accepts parsed then some (.obj parsed) else none
    else none
  | _, _ => none

/-- The declared members of an object. -/
def parseFields : List (String × Presence × Schema) → List (String × Json) →
    Option (List (String × Json))
  | [], _ => some []
  | (key, presence, schema) :: fields, members =>
    (match lastMember key members with
      | some value => (parse schema value).map fun value => [(key, value)]
      | none => missing key presence).bind fun parsed =>
    (parseFields fields members).map (parsed ++ ·)

end

mutual

/-- Every member with a default is there, also further inside. -/
def Complete : Schema → Json → Prop
  | .array item, .arr items => ∀ value ∈ items, Complete item value
  | .nullable schema, value => Complete schema value
  | .object fields _, .obj members => CompleteFields fields members
  | _, _ => True

/-- Every declared member with a default is there. -/
def CompleteFields : List (String × Presence × Schema) → List (String × Json) → Prop
  | [], _ => True
  | (key, presence, schema) :: fields, members =>
    (match lastMember key members with
      | some value => Complete schema value
      | none => ∀ value, presence ≠ .default value) ∧ CompleteFields fields members

end

mutual

/-- No member has a default. -/
def NoDefaults : Schema → Bool
  | .array item => NoDefaults item
  | .nullable schema => NoDefaults schema
  | .object fields _ => NoDefaultFields fields
  | _ => true

/-- No declared member has a default. -/
def NoDefaultFields : List (String × Presence × Schema) → Bool
  | [] => true
  | (_, presence, schema) :: fields =>
    !presence.hasDefault && NoDefaults schema && NoDefaultFields fields

end

/-! ## Complete values -/

mutual

theorem complete_of_noDefaults (schema : Schema) (h : schema.NoDefaults = true) (value : Json) :
    schema.Complete value := by
  match schema, value with
  | .array item, .arr items =>
    rw [Complete]
    exact fun value _ => complete_of_noDefaults item h value
  | .nullable schema, value =>
    rw [Complete]
    exact complete_of_noDefaults schema h value
  | .object fields _, .obj members =>
    rw [Complete]
    exact completeFields_of_noDefaults fields h members
  | .unknown, _ | .text _, _ | .number _, _ | .boolean, _ | .record, _ => simp [Complete]
  | .array _, .null | .array _, .bool _ | .array _, .num _ | .array _, .str _ | .array _, .obj _ =>
    simp [Complete]
  | .object _ _, .null | .object _ _, .bool _ | .object _ _, .num _ | .object _ _, .str _
  | .object _ _, .arr _ => simp [Complete]

theorem completeFields_of_noDefaults (fields : List (String × Presence × Schema))
    (h : NoDefaultFields fields = true) (members : List (String × Json)) :
    CompleteFields fields members := by
  match fields with
  | [] => trivial
  | (key, presence, schema) :: fields =>
    rw [NoDefaultFields, Bool.and_eq_true, Bool.and_eq_true] at h
    obtain ⟨⟨hpresence, hschema⟩, hfields⟩ := h
    refine ⟨?_, completeFields_of_noDefaults fields hfields members⟩
    cases lastMember key members with
    | none =>
      rintro value rfl
      cases hpresence
    | some value => exact complete_of_noDefaults schema hschema value

end

/-! ## Parsing complete values -/

theorem forall₂_of_mapM {α β : Type} {f : α → Option β} {as : List α} {bs : List β}
    (h : as.mapM f = some bs) : List.Forall₂ (fun a b => f a = some b) as bs := by
  induction as generalizing bs with
  | nil => obtain rfl : [] = bs := Option.some_inj.mp h; exact .nil
  | cons a as ih =>
    rw [List.mapM_cons] at h
    obtain ⟨b, hb, h⟩ := Option.bind_eq_some_iff.mp h
    obtain ⟨bs', hbs, h⟩ := Option.bind_eq_some_iff.mp h
    obtain rfl : b :: bs' = bs := Option.some_inj.mp h
    exact .cons hb (ih hbs)

theorem sameValue_refl (value : Json) : value.SameValue value := canonicalize_eq_iff.mp rfl

/-- What is looked up is there on both sides, and the same. -/
def Looked (parsed value : Option Json) : Prop :=
  parsed.isSome = value.isSome ∧ ∀ a b, parsed = some a → value = some b → a.SameValue b

theorem looked_iff {parsed value : Option Json} :
    Looked parsed value ↔ parsed.map canonicalize = value.map canonicalize := by
  rw [Looked]
  cases parsed <;> cases value <;> simp [canonicalize_eq_iff]

theorem sameValue_obj {as bs : List (String × Json)}
    (h : ∀ key, Looked (lastMember key as) (lastMember key bs)) : (Json.obj as).SameValue (.obj bs) :=
  .obj as bs (fun key => (h key).1) fun key => (h key).2

mutual

/-- **Parsing changes nothing where every member with a default is there.** -/
theorem parse_complete (schema : Schema) {value parsed : Json} (h : schema.parse value = some parsed)
    (hcomplete : schema.Complete value) : parsed.SameValue value := by
  match schema, value with
  | .unknown, value =>
    obtain rfl : value = parsed := Option.some_inj.mp h
    exact sameValue_refl value
  | .text accepts, .str s =>
    obtain ⟨-, h⟩ := Option.ite_none_right_eq_some.mp h
    obtain rfl := Option.some_inj.mp h
    exact .str s
  | .number accepts, .num n =>
    obtain ⟨-, h⟩ := Option.ite_none_right_eq_some.mp h
    obtain rfl := Option.some_inj.mp h
    exact .num n
  | .boolean, .bool b =>
    obtain rfl := Option.some_inj.mp h
    exact .bool b
  | .record, .obj members =>
    obtain rfl := Option.some_inj.mp h
    exact sameValue_refl _
  | .array item, .arr items =>
    rw [parse] at h
    rw [Complete] at hcomplete
    obtain ⟨items', hitems, rfl⟩ := Option.map_eq_some_iff.mp h
    have hall := forall₂_of_mapM hitems
    refine .arr _ _ hall.length_eq.symm fun i x y hx hy => ?_
    obtain ⟨hi', rfl⟩ := List.getElem?_eq_some_iff.mp hx
    obtain ⟨hi, rfl⟩ := List.getElem?_eq_some_iff.mp hy
    exact parse_complete item (hall.get hi hi') (hcomplete _ (List.getElem_mem hi))
  | .nullable schema, value =>
    rw [parse] at h
    rw [Complete] at hcomplete
    split at h
    · next hnull =>
      obtain rfl := Option.some_inj.mp h
      rw [hnull]
      exact .null
    · exact parse_complete schema h hcomplete
  | .object fields accepts, .obj members =>
    rw [parse] at h
    rw [Complete] at hcomplete
    obtain ⟨hstrict, h⟩ := Option.ite_none_right_eq_some.mp h
    obtain ⟨parsed', hparsed, h⟩ := Option.bind_eq_some_iff.mp h
    obtain ⟨-, h⟩ := Option.ite_none_right_eq_some.mp h
    obtain rfl := Option.some_inj.mp h
    obtain ⟨hdeclared, hother⟩ := parseFields_complete fields hparsed hcomplete
    refine sameValue_obj fun key => ?_
    by_cases hkey : key ∈ fields.map Prod.fst
    · exact hdeclared key hkey
    · have hnone : lastMember key members = none := by
        cases hlast : lastMember key members with
        | none => rfl
        | some value =>
          have := List.all_eq_true.mp hstrict _ (mem_of_lastMember hlast)
          exact absurd (by simpa using this) hkey
      rw [hother key hkey, hnone]
      exact ⟨rfl, nofun⟩
  | .text _, .null | .text _, .bool _ | .text _, .num _ | .text _, .arr _ | .text _, .obj _ => cases h
  | .number _, .null | .number _, .bool _ | .number _, .str _ | .number _, .arr _
  | .number _, .obj _ => cases h
  | .boolean, .null | .boolean, .num _ | .boolean, .str _ | .boolean, .arr _ | .boolean, .obj _ => cases h
  | .record, .null | .record, .bool _ | .record, .num _ | .record, .str _ | .record, .arr _ => cases h
  | .array _, .null | .array _, .bool _ | .array _, .num _ | .array _, .str _ | .array _, .obj _ => cases h
  | .object _ _, .null | .object _ _, .bool _ | .object _ _, .num _ | .object _ _, .str _
  | .object _ _, .arr _ => cases h

theorem parseFields_complete (fields : List (String × Presence × Schema))
    {members parsed : List (String × Json)} (h : parseFields fields members = some parsed)
    (hcomplete : CompleteFields fields members) :
    (∀ key ∈ fields.map Prod.fst, Looked (lastMember key parsed) (lastMember key members)) ∧
      ∀ key ∉ fields.map Prod.fst, lastMember key parsed = none := by
  match fields with
  | [] =>
    obtain rfl := Option.some_inj.mp h
    exact ⟨nofun, fun _ _ => rfl⟩
  | (key, presence, schema) :: fields =>
    rw [parseFields] at h
    obtain ⟨first, hfirst, h⟩ := Option.bind_eq_some_iff.mp h
    obtain ⟨rest, hrest, rfl⟩ := Option.map_eq_some_iff.mp h
    obtain ⟨hhead, htail⟩ := hcomplete
    obtain ⟨hdeclared, hother⟩ := parseFields_complete fields hrest htail
    -- What the first field contributes.
    have hkey : (∀ key', key' ≠ key → lastMember key' first = none) ∧
        Looked (lastMember key first) (lastMember key members) := by
      cases hlast : lastMember key members with
      | some value =>
        rw [hlast] at hfirst hhead
        obtain ⟨value', hvalue, rfl⟩ := Option.map_eq_some_iff.mp hfirst
        refine ⟨fun key' hne => by simp [lastMember, Ne.symm hne], ?_⟩
        have hsame := parse_complete schema hvalue hhead
        simpa [Looked, lastMember] using hsame
      | none =>
        rw [hlast] at hfirst hhead
        cases presence with
        | required => cases hfirst
        | optional =>
          obtain rfl := Option.some_inj.mp hfirst
          exact ⟨fun _ _ => rfl, rfl, nofun⟩
        | default value => exact absurd rfl (hhead value)
    refine ⟨fun key' hmem => ?_, fun key' hmem => ?_⟩
    · rw [lastMember_append]
      by_cases htail : key' ∈ fields.map Prod.fst
      · have hlooked := hdeclared key' htail
        cases hlast : lastMember key' rest with
        | some value =>
          rw [hlast] at hlooked
          rwa [Option.some_or]
        | none =>
          rw [hlast] at hlooked
          rw [Option.none_or]
          by_cases heq : key' = key
          · rw [heq]; exact hkey.2
          · rw [hkey.1 key' heq]; exact hlooked
      · obtain rfl : key' = key := (List.mem_cons.mp hmem).resolve_right htail
        rw [hother key' htail, Option.none_or]
        exact hkey.2
    · rw [List.map_cons, List.mem_cons, not_or] at hmem
      rw [lastMember_append, hother key' hmem.2, hkey.1 key' hmem.1, Option.none_or]

end

/-! ## The members of parsed objects -/

/-- A parsed object has declared members, in their order. -/
theorem keys_parseFields {fields : List (String × Presence × Schema)} {members parsed : List (String × Json)}
    (h : parseFields fields members = some parsed) :
    (parsed.map Prod.fst).Sublist (fields.map Prod.fst) := by
  induction fields generalizing parsed with
  | nil =>
    obtain rfl := Option.some_inj.mp h
    exact List.Sublist.refl _
  | cons field fields ih =>
    obtain ⟨key, presence, schema⟩ := field
    rw [parseFields] at h
    obtain ⟨first, hfirst, h⟩ := Option.bind_eq_some_iff.mp h
    obtain ⟨rest, hrest, rfl⟩ := Option.map_eq_some_iff.mp h
    have hkeys : first = [] ∨ ∃ value, first = [(key, value)] := by
      split at hfirst
      · obtain ⟨value, -, rfl⟩ := Option.map_eq_some_iff.mp hfirst
        exact .inr ⟨value, rfl⟩
      · cases presence with
        | required => cases hfirst
        | optional => exact .inl (Option.some_inj.mp hfirst).symm
        | default value => exact .inr ⟨value, (Option.some_inj.mp hfirst).symm⟩
    rcases hkeys with rfl | ⟨value, rfl⟩
    · exact (ih hrest).cons key
    · exact (ih hrest).cons_cons key

/-- A parsed object has distinct keys. -/
theorem parse_object {fields : List (String × Presence × Schema)} {accepts : List (String × Json) → Bool}
    (hfields : (fields.map Prod.fst).Nodup) {value parsed : Json}
    (h : (Schema.object fields accepts).parse value = some parsed) :
    ∃ members, parsed = .obj members ∧ (members.map Prod.fst).Nodup := by
  cases value with
  | obj members =>
    rw [parse] at h
    obtain ⟨-, h⟩ := Option.ite_none_right_eq_some.mp h
    obtain ⟨members', hmembers, h⟩ := Option.bind_eq_some_iff.mp h
    obtain ⟨-, h⟩ := Option.ite_none_right_eq_some.mp h
    exact ⟨members', (Option.some_inj.mp h).symm, hfields.sublist (keys_parseFields hmembers)⟩
  | null | bool | num | str | arr => cases h

/-- What is parsed of a member. -/
theorem lastMember_parseFields {fields : List (String × Presence × Schema)}
    {members parsed : List (String × Json)} (hfields : (fields.map Prod.fst).Nodup)
    (h : parseFields fields members = some parsed) (field : String × Presence × Schema)
    (hfield : field ∈ fields) {value : Json} (hvalue : lastMember field.1 members = some value) :
    ∃ value', field.2.2.parse value = some value' ∧ lastMember field.1 parsed = some value' := by
  induction fields generalizing parsed with
  | nil => cases hfield
  | cons head fields ih =>
    obtain ⟨key, presence, schema⟩ := head
    rw [List.map_cons, List.nodup_cons] at hfields
    rw [parseFields] at h
    obtain ⟨first, hfirst, h⟩ := Option.bind_eq_some_iff.mp h
    obtain ⟨rest, hrest, rfl⟩ := Option.map_eq_some_iff.mp h
    rw [lastMember_append]
    rcases List.mem_cons.mp hfield with rfl | htail
    · have hother : lastMember key rest = none := by
        cases hlast : lastMember key rest with
        | none => rfl
        | some value' =>
          have hmem := (keys_parseFields hrest).subset (List.mem_map_of_mem (mem_of_lastMember hlast))
          exact absurd hmem hfields.1
      rw [hvalue] at hfirst
      obtain ⟨value', hparse, rfl⟩ := Option.map_eq_some_iff.mp hfirst
      exact ⟨value', hparse, by rw [hother]; simp [lastMember]⟩
    · obtain ⟨value', hparse, hlast⟩ := ih hfields.2 hrest htail
      exact ⟨value', hparse, by rw [hlast, Option.some_or]⟩

/-- What is declared parses member by member. -/
theorem isSome_parseFields {fields : List (String × Presence × Schema)} {members : List (String × Json)} :
    (parseFields fields members).isSome ↔ ∀ field ∈ fields, match lastMember field.1 members with
      | some value => (field.2.2.parse value).isSome
      | none => field.2.1 ≠ .required := by
  induction fields with
  | nil => simp [parseFields]
  | cons field fields ih =>
    obtain ⟨key, presence, schema⟩ := field
    rw [parseFields, List.forall_mem_cons, ← ih]
    cases hlast : lastMember key members with
    | some value =>
      cases hparse : schema.parse value <;> simp [hparse]
    | none => cases presence <;> simp [missing]

/-- **An object passes a check of its members when it parses without and passes.** -/
theorem parse_object_isSome {fields : List (String × Presence × Schema)}
    {accepts : List (String × Json) → Bool} {members : List (String × Json)} :
    ((Schema.object fields accepts).parse (.obj members)).isSome ↔
      ∃ parsed, (Schema.object fields fun _ => true).parse (.obj members) = some (.obj parsed) ∧
        parseFields fields members = some parsed ∧ accepts parsed = true := by
  rw [parse, parse]
  split
  · cases hparsed : parseFields fields members with
    | none => simp
    | some parsed => cases haccepts : accepts parsed <;> simp [haccepts]
  · simp

end Schema

end HarnessFramework
