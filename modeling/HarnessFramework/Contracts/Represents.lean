import HarnessFramework.Contracts.Schema

/-!
# Types for schemas

A type represents a schema when its values, written as JSON, are exactly what the schema parses to. A
value that was written is then accepted as it stands, and whatever is accepted is a value that was
written: the checks of the schema are the checks of the type, and its defaults are filled in.

Objects are put together from members, a structure of values from a structure of types.

## Main definitions

* `Schema.Represents`, `Schema.RepresentsFields` — types for schemas and for members of objects

## Main results

* `Schema.RepresentsFields.append`, `Schema.RepresentsFields.strict` — members, and strict objects
* `Schema.Represents.array` — arrays
-/

namespace HarnessFramework

namespace Schema

/-- **A type represents a schema**: what is parsed are its valid values, written as JSON, and these are
parsed to themselves. -/
structure Represents {α : Type} (schema : Schema) (encode : α → Json) (Valid : α → Prop) : Prop where
  parse_encode : ∀ a, Valid a → schema.parse (encode a) = some (encode a)
  exists_encode : ∀ value parsed, schema.parse value = some parsed → ∃ a, Valid a ∧ encode a = parsed
  injective : Function.Injective encode

/-- A type represents declared members of an object. -/
structure RepresentsFields {α : Type} (fields : List (String × Presence × Schema))
    (encode : α → List (String × Json)) (Valid : α → Prop) : Prop where
  keys : ∀ a, ∀ member ∈ encode a, member.1 ∈ fields.map Prod.fst
  /-- Members that are looked up in an object as they were written are parsed to themselves. -/
  parse_encode : ∀ a, Valid a → ∀ members,
    (∀ key ∈ fields.map Prod.fst, lastMember key members = lastMember key (encode a)) →
    parseFields fields members = some (encode a)
  exists_encode : ∀ members parsed, parseFields fields members = some parsed →
    ∃ a, Valid a ∧ encode a = parsed
  injective : Function.Injective encode

variable {α β : Type} {schema : Schema} {encode : α → Json} {Valid : α → Prop}

/-! ## Values -/

/-- Another type that is in bijection with the first. -/
theorem Represents.comp (h : schema.Represents encode Valid) {f : β → α} (hf : Function.Bijective f) :
    schema.Represents (fun b => encode (f b)) fun b => Valid (f b) where
  parse_encode b hb := h.parse_encode (f b) hb
  exists_encode value parsed hparsed := by
    obtain ⟨a, ha, rfl⟩ := h.exists_encode value parsed hparsed
    obtain ⟨b, rfl⟩ := hf.surjective a
    exact ⟨b, ha, rfl⟩
  injective := h.injective.comp hf.injective

theorem Represents.congr (h : schema.Represents encode Valid) {encode' : α → Json} {Valid' : α → Prop}
    (hencode : ∀ a, encode a = encode' a) (hvalid : ∀ a, Valid a ↔ Valid' a) :
    schema.Represents encode' Valid' := by
  obtain rfl : encode = encode' := funext hencode
  obtain rfl : Valid = Valid' := funext fun a => propext (hvalid a)
  exact h

/-- A text with a check. -/
theorem represents_text {accepts : String → Bool} {p : String → Prop}
    (h : ∀ s, accepts s = true ↔ p s) :
    (Schema.text accepts).Represents (fun s : { s // p s } => .str s.val) fun _ => True where
  parse_encode s _ := by rw [parse, if_pos ((h s.val).mpr s.property)]
  exists_encode value parsed hparsed := by
    cases value with
    | str s =>
      obtain ⟨hs, hparsed⟩ := Option.ite_none_right_eq_some.mp hparsed
      exact ⟨⟨s, (h s).mp hs⟩, trivial, Option.some_inj.mp hparsed⟩
    | null | bool | num | arr | obj => cases hparsed
  injective s t hst := Subtype.ext (Json.str.inj hst)

/-- A text of an enumeration. -/
theorem represents_enum {accepts : String → Bool} {text : α → String}
    (htext : Function.Injective text) (h : ∀ s, accepts s = true ↔ ∃ a, text a = s) :
    (Schema.text accepts).Represents (fun a => .str (text a)) fun _ => True where
  parse_encode a _ := by rw [parse, if_pos ((h (text a)).mpr ⟨a, rfl⟩)]
  exists_encode value parsed hparsed := by
    cases value with
    | str s =>
      obtain ⟨hs, hparsed⟩ := Option.ite_none_right_eq_some.mp hparsed
      obtain ⟨a, rfl⟩ := (h s).mp hs
      exact ⟨a, trivial, Option.some_inj.mp hparsed⟩
    | null | bool | num | arr | obj => cases hparsed
  injective a b hab := htext (Json.str.inj hab)

/-- Any object. -/
theorem represents_record : Schema.record.Represents Json.obj fun _ => True where
  parse_encode _ _ := rfl
  exists_encode value parsed hparsed := by
    cases value with
    | obj members => exact ⟨members, trivial, Option.some_inj.mp hparsed⟩
    | null | bool | num | str | arr => cases hparsed
  injective _ _ h := Json.obj.inj h

/-- An array of values. -/
theorem Represents.array (h : schema.Represents encode Valid) :
    (Schema.array schema).Represents (fun items : List α => .arr (items.map encode))
      fun items => ∀ a ∈ items, Valid a where
  parse_encode items hitems := by
    have hall : (items.map encode).mapM schema.parse = some (items.map encode) := by
      induction items with
      | nil => rfl
      | cons a items ih =>
        rw [List.map_cons, List.mapM_cons, h.parse_encode a (hitems a List.mem_cons_self),
          ih fun a ha => hitems a (List.mem_cons_of_mem _ ha)]
        rfl
    rw [parse, hall, Option.map_some]
  exists_encode value parsed hparsed := by
    cases value with
    | arr values =>
      obtain ⟨parsed', hparsed', rfl⟩ := Option.map_eq_some_iff.mp hparsed
      have hitems : ∃ items : List α, (∀ a ∈ items, Valid a) ∧ items.map encode = parsed' := by
        have hall := forall₂_of_mapM hparsed'
        clear hparsed hparsed'
        induction hall with
        | nil => exact ⟨[], nofun, rfl⟩
        | cons hhead _ ih =>
          obtain ⟨a, ha, rfl⟩ := h.exists_encode _ _ hhead
          obtain ⟨items, hitems, rfl⟩ := ih
          exact ⟨a :: items, List.forall_mem_cons.mpr ⟨ha, hitems⟩, rfl⟩
      obtain ⟨items, hitems, rfl⟩ := hitems
      exact ⟨items, hitems, rfl⟩
    | null | bool | num | str | obj => cases hparsed
  injective _ _ hxy := h.injective.list_map (Json.arr.inj hxy)

/-! ## Members -/

theorem lastMember_singleton (key key' : String) (value : Json) :
    lastMember key' [(key, value)] = if key = key' then some value else none := by
  by_cases h : key = key' <;> simp [lastMember, h]

/-- A member that must be there. -/
theorem Represents.required (h : schema.Represents encode Valid) (key : String) :
    RepresentsFields [(key, .required, schema)] (fun a => [(key, encode a)]) Valid where
  keys a member hmember := by
    obtain rfl := List.mem_singleton.mp hmember
    exact List.mem_singleton_self _
  parse_encode a ha members hmembers := by
    have hlast : lastMember key members = some (encode a) := by
      rw [hmembers key (by simp), lastMember_singleton, if_pos rfl]
    simp only [parseFields, hlast, h.parse_encode a ha]
    rfl
  exists_encode members parsed hparsed := by
    cases hlast : lastMember key members with
    | none => simp [parseFields, hlast, missing] at hparsed
    | some value =>
      simp only [parseFields, hlast] at hparsed
      cases hvalue : schema.parse value with
      | none => simp [hvalue] at hparsed
      | some parsed' =>
        obtain ⟨a, ha, rfl⟩ := h.exists_encode value parsed' hvalue
        exact ⟨a, ha, by simpa [hvalue] using hparsed⟩
  injective a b hab := h.injective (by simpa using hab)

/-- A member that has a default. -/
theorem Represents.default (h : schema.Represents encode Valid) (key : String) (a₀ : α)
    (ha₀ : Valid a₀) :
    RepresentsFields [(key, .default (encode a₀), schema)] (fun a => [(key, encode a)]) Valid where
  keys a member hmember := by
    obtain rfl := List.mem_singleton.mp hmember
    exact List.mem_singleton_self _
  parse_encode a ha members hmembers := by
    have hlast : lastMember key members = some (encode a) := by
      rw [hmembers key (by simp), lastMember_singleton, if_pos rfl]
    simp only [parseFields, hlast, h.parse_encode a ha]
    rfl
  exists_encode members parsed hparsed := by
    cases hlast : lastMember key members with
    | none => exact ⟨a₀, ha₀, by simpa [parseFields, hlast, missing] using hparsed⟩
    | some value =>
      simp only [parseFields, hlast] at hparsed
      cases hvalue : schema.parse value with
      | none => simp [hvalue] at hparsed
      | some parsed' =>
        obtain ⟨a, ha, rfl⟩ := h.exists_encode value parsed' hvalue
        exact ⟨a, ha, by simpa [hvalue] using hparsed⟩
  injective a b hab := h.injective (by simpa using hab)

/-- A member that may be left out. -/
theorem Represents.optional (h : schema.Represents encode Valid) (key : String) :
    RepresentsFields [(key, .optional, schema)]
      (fun a : Option α => (a.map fun a => (key, encode a)).toList) fun a => ∀ b ∈ a, Valid b where
  keys a member hmember := by
    cases a with
    | none => cases hmember
    | some a =>
      obtain rfl := List.mem_singleton.mp hmember
      exact List.mem_singleton_self _
  parse_encode a ha members hmembers := by
    have hlast := hmembers key (by simp)
    cases a with
    | none =>
      have hnone : lastMember key members = none := hlast
      simp only [parseFields, hnone]
      rfl
    | some a =>
      have hsome : lastMember key members = some (encode a) := by
        rw [hlast]
        exact (lastMember_singleton key key (encode a)).trans (if_pos rfl)
      simp only [parseFields, hsome, h.parse_encode a (ha a rfl)]
      rfl
  exists_encode members parsed hparsed := by
    cases hlast : lastMember key members with
    | none => exact ⟨none, nofun, by simpa [parseFields, hlast, missing] using hparsed⟩
    | some value =>
      simp only [parseFields, hlast] at hparsed
      cases hvalue : schema.parse value with
      | none => simp [hvalue] at hparsed
      | some parsed' =>
        obtain ⟨a, ha, rfl⟩ := h.exists_encode value parsed' hvalue
        refine ⟨some a, ?_, by simpa [hvalue] using hparsed⟩
        rintro b hb
        obtain rfl := Option.some_inj.mp hb
        exact ha
  injective a b hab := by
    cases a <;> cases b <;> simp_all [h.injective.eq_iff]

variable {fields fields' : List (String × Presence × Schema)} {write : α → List (String × Json)}
  {write' : β → List (String × Json)} {Valid' : β → Prop}

theorem parseFields_append (members : List (String × Json)) :
    parseFields (fields ++ fields') members = (parseFields fields members).bind fun parsed =>
      (parseFields fields' members).map (parsed ++ ·) := by
  induction fields with
  | nil => simp [parseFields]
  | cons field fields ih =>
    obtain ⟨key, presence, schema⟩ := field
    rw [List.cons_append, parseFields, parseFields, ih, Option.bind_assoc]
    refine congrArg _ (funext fun first => ?_)
    cases parseFields fields members with
    | none => rfl
    | some rest => cases parseFields fields' members <;> simp

/-- What is written under a key stands among the members that declare it. -/
theorem RepresentsFields.lastMember_eq_none (h : RepresentsFields fields write Valid) {key : String}
    (hkey : key ∉ fields.map Prod.fst) (a : α) : lastMember key (write a) = none := by
  cases hlast : lastMember key (write a) with
  | none => rfl
  | some value => exact absurd (h.keys a _ (mem_of_lastMember hlast)) hkey

/-- **Members side by side.** -/
theorem RepresentsFields.append (h : RepresentsFields fields write Valid)
    (h' : RepresentsFields fields' write' Valid')
    (hdisjoint : ∀ key ∈ fields.map Prod.fst, key ∉ fields'.map Prod.fst) :
    RepresentsFields (fields ++ fields') (fun p : α × β => write p.1 ++ write' p.2)
      fun p => Valid p.1 ∧ Valid' p.2 where
  keys p member hmember := by
    rw [List.map_append, List.mem_append]
    exact (List.mem_append.mp hmember).imp (h.keys p.1 member) (h'.keys p.2 member)
  parse_encode p hp members hmembers := by
    have hleft : parseFields fields members = some (write p.1) := by
      refine h.parse_encode p.1 hp.1 members fun key hkey => ?_
      rw [hmembers key (by rw [List.map_append]; exact List.mem_append_left _ hkey), lastMember_append,
        h'.lastMember_eq_none (hdisjoint key hkey), Option.none_or]
    have hright : parseFields fields' members = some (write' p.2) := by
      refine h'.parse_encode p.2 hp.2 members fun key hkey => ?_
      have hother : key ∉ fields.map Prod.fst := fun hmem => hdisjoint key hmem hkey
      rw [hmembers key (by rw [List.map_append]; exact List.mem_append_right _ hkey),
        lastMember_append, h.lastMember_eq_none hother, Option.or_none]
    rw [parseFields_append, hleft, hright]
    rfl
  exists_encode members parsed hparsed := by
    rw [parseFields_append] at hparsed
    obtain ⟨left, hleft, hparsed⟩ := Option.bind_eq_some_iff.mp hparsed
    obtain ⟨right, hright, rfl⟩ := Option.map_eq_some_iff.mp hparsed
    obtain ⟨a, ha, rfl⟩ := h.exists_encode members left hleft
    obtain ⟨b, hb, rfl⟩ := h'.exists_encode members right hright
    exact ⟨(a, b), ⟨ha, hb⟩, rfl⟩
  injective := by
    -- The members of either side are those with its keys.
    have hfilter : ∀ p : α × β, (write p.1 ++ write' p.2).filter
        (fun member => decide (member.1 ∈ fields.map Prod.fst)) = write p.1 := by
      intro p
      rw [List.filter_append, List.filter_eq_self.mpr fun member hmember => by
          simpa using h.keys p.1 member hmember, List.filter_eq_nil_iff.mpr, List.append_nil]
      intro member hmember hmem
      exact hdisjoint member.1 (of_decide_eq_true hmem) (h'.keys p.2 member hmember)
    intro p q hpq
    have hleft : write p.1 = write q.1 := by
      rw [← hfilter p, ← hfilter q]
      exact congrArg _ hpq
    have hright : write' p.2 = write' q.2 := by
      have hpq' : write p.1 ++ write' p.2 = write q.1 ++ write' q.2 := hpq
      rw [hleft] at hpq'
      exact List.append_cancel_left hpq'
    exact Prod.ext (h.injective hleft) (h'.injective hright)

/-- A member that may be left out is not there after parsing when it was not there before. -/
theorem lastMember_parseFields_none {members parsed : List (String × Json)}
    (hfields : (fields.map Prod.fst).Nodup) (h : parseFields fields members = some parsed) {key : String}
    (hfield : (key, .optional, schema) ∈ fields) (hnone : lastMember key members = none) :
    lastMember key parsed = none := by
  obtain ⟨left, right, rfl⟩ := List.append_of_mem hfield
  rw [parseFields_append, parseFields, hnone] at h
  obtain ⟨first, hfirst, h⟩ := Option.bind_eq_some_iff.mp h
  obtain ⟨rest, hrest, rfl⟩ := Option.map_eq_some_iff.mp h
  obtain ⟨rest', hrest', rfl⟩ := Option.map_eq_some_iff.mp hrest
  rw [List.map_append, List.map_cons] at hfields
  have hleft : key ∉ left.map Prod.fst := fun hmem =>
    (List.nodup_append.mp hfields).2.2 key hmem key List.mem_cons_self rfl
  have hright : key ∉ right.map Prod.fst :=
    (List.nodup_cons.mp (List.nodup_append.mp hfields).2.1).1
  have hother : ∀ {fields : List (String × Presence × Schema)} {parsed : List (String × Json)},
      parseFields fields members = some parsed → key ∉ fields.map Prod.fst →
      lastMember key parsed = none := by
    intro fields parsed hparsed hkey
    cases hlast : lastMember key parsed with
    | none => rfl
    | some value =>
      have hmem := (keys_parseFields hparsed).subset (List.mem_map_of_mem (mem_of_lastMember hlast))
      exact absurd hmem hkey
  rw [lastMember_append, List.nil_append, hother hrest' hright, hother hfirst hleft]
  rfl

/-- Another type that is in bijection with the first. -/
theorem RepresentsFields.comp (h : RepresentsFields fields write Valid) {f : β → α}
    (hf : Function.Bijective f) :
    RepresentsFields fields (fun b => write (f b)) fun b => Valid (f b) where
  keys b := h.keys (f b)
  parse_encode b hb := h.parse_encode (f b) hb
  exists_encode members parsed hparsed := by
    obtain ⟨a, ha, rfl⟩ := h.exists_encode members parsed hparsed
    obtain ⟨b, rfl⟩ := hf.surjective a
    exact ⟨b, ha, rfl⟩
  injective := h.injective.comp hf.injective

/-- **A strict object of the members.** -/
theorem RepresentsFields.strict (h : RepresentsFields fields write Valid) :
    (Schema.object fields fun _ => true).Represents (fun a => .obj (write a)) Valid where
  parse_encode a ha := by
    have hall : (write a).all (fun member => member.1 ∈ fields.map Prod.fst) = true :=
      List.all_eq_true.mpr fun member hmember => decide_eq_true (h.keys a member hmember)
    rw [parse, if_pos hall, h.parse_encode a ha _ fun _ _ => rfl]
    rfl
  exists_encode value parsed hparsed := by
    cases value with
    | obj members =>
      rw [parse] at hparsed
      obtain ⟨-, hparsed⟩ := Option.ite_none_right_eq_some.mp hparsed
      obtain ⟨members', hmembers, hparsed⟩ := Option.bind_eq_some_iff.mp hparsed
      obtain ⟨a, ha, rfl⟩ := h.exists_encode members members' hmembers
      exact ⟨a, ha, Option.some_inj.mp hparsed⟩
    | null | bool | num | str | arr => cases hparsed
  injective _ _ hab := h.injective (Json.obj.inj hab)

end Schema

end HarnessFramework
