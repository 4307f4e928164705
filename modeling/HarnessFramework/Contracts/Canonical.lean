import HarnessFramework.Library.Json

/-!
# Canonical JSON and digests

`packages/contracts/src/index.ts` digests a value by writing it as JSON with the members of every
object sorted. The sort is by code unit, but JavaScript enumerates the members of the object it
builds with array indices first; `Json.propertyKey` is the resulting order, and `insertMember` keeps
a member list in it.

SHA-256 is a parameter `sha256` from texts to digests here and everywhere below.

## Main definitions

* `canonicalize`, `canonicalJson`, `stableDigest`
* `Jsonb` — the values of a `jsonb` column: JSON values up to the order of members

## Main results

* `canonicalize_canonicalize` — sorting twice changes nothing
* `stableDigest_injective` — without collisions a digest determines the canonical value
* `canonicalize_obj_congr` — objects with the same keys and equal canonical members
-/

namespace HarnessFramework

open Json (propertyKey propertyKey_injective)

/-! ## Sorting members -/

/-- Add a member in front of `members`, in the place its key is enumerated at. A later member of
the same name wins. -/
def insertMember (key : String) (value : Json) : List (String × Json) → List (String × Json)
  | [] => [(key, value)]
  | (key', value') :: members =>
    if key = key' then (key', value') :: members
    else if propertyKey key < propertyKey key' then (key, value) :: (key', value') :: members
    else (key', value') :: insertMember key value members

mutual

/-- Sort the members of every object in a value. -/
def canonicalize : Json → Json
  | .arr items => .arr (canonicalizeItems items)
  | .obj members => .obj (canonicalizeMembers members)
  | .null => .null
  | .bool b => .bool b
  | .num n => .num n
  | .str s => .str s

/-- The items of an array, each canonical. -/
def canonicalizeItems : List Json → List Json
  | [] => []
  | item :: items => canonicalize item :: canonicalizeItems items

/-- The members of an object, sorted and each canonical. -/
def canonicalizeMembers : List (String × Json) → List (String × Json)
  | [] => []
  | (key, value) :: members => insertMember key (canonicalize value) (canonicalizeMembers members)

end

/-- The canonical text of a value. -/
def canonicalJson (value : Json) : List Char := (canonicalize value).stringify

section Digest

variable (sha256 : List Char → String)

/-- The digest of a value. -/
def stableDigest (value : Json) : String := sha256 (canonicalJson value)

end Digest

/-! ## Canonical values -/

/-- Members in the order of their keys, each key once. -/
def SortedMembers (members : List (String × Json)) : Prop :=
  members.Pairwise fun m m' => propertyKey m.1 < propertyKey m'.1

theorem mem_insertMember {key : String} {value : Json} {members : List (String × Json)}
    {m : String × Json} (h : m ∈ insertMember key value members) :
    m = (key, value) ∨ m ∈ members := by
  induction members with
  | nil => exact .inl (List.mem_singleton.mp h)
  | cons m' members ih =>
    obtain ⟨key', value'⟩ := m'
    rw [insertMember] at h
    split at h
    · exact .inr h
    split at h
    · exact List.mem_cons.mp h
    · rcases List.mem_cons.mp h with rfl | h
      · exact .inr (.head _)
      · exact (ih h).imp_right (List.mem_cons_of_mem _)

theorem sortedMembers_insertMember {key : String} {value : Json} {members : List (String × Json)}
    (h : SortedMembers members) : SortedMembers (insertMember key value members) := by
  induction members with
  | nil => exact List.pairwise_singleton _ _
  | cons m' members ih =>
    obtain ⟨key', value'⟩ := m'
    obtain ⟨hhead, htail⟩ := List.pairwise_cons.mp h
    rw [insertMember]
    split
    · exact h
    split
    · next hlt =>
      refine List.pairwise_cons.mpr ⟨fun m hm => ?_, h⟩
      rcases List.mem_cons.mp hm with rfl | hm
      · exact hlt
      · exact hlt.trans (hhead m hm)
    · next hne hlt =>
      refine List.pairwise_cons.mpr ⟨fun m hm => ?_, ih htail⟩
      rcases mem_insertMember hm with rfl | hm
      · exact lt_of_le_of_ne (not_lt.mp hlt) fun heq => hne (propertyKey_injective heq.symm)
      · exact hhead m hm

theorem sortedMembers_canonicalizeMembers (members : List (String × Json)) :
    SortedMembers (canonicalizeMembers members) := by
  induction members with
  | nil => rw [canonicalizeMembers]; exact List.Pairwise.nil
  | cons m members ih => rw [canonicalizeMembers]; exact sortedMembers_insertMember ih

theorem insertMember_of_sorted {key : String} {value : Json} {members : List (String × Json)}
    (h : SortedMembers ((key, value) :: members)) :
    insertMember key value members = (key, value) :: members := by
  cases members with
  | nil => rfl
  | cons m' members =>
    have hlt := (List.pairwise_cons.mp h).1 m' (.head _)
    rw [insertMember, if_neg, if_pos hlt]
    rintro rfl
    exact lt_irrefl _ hlt

/-- Sorted members with canonical values are canonical. -/
theorem canonicalizeMembers_of_sorted {members : List (String × Json)} (h : SortedMembers members)
    (hv : ∀ m ∈ members, canonicalize m.2 = m.2) : canonicalizeMembers members = members := by
  induction members with
  | nil => rw [canonicalizeMembers]
  | cons m members ih =>
    obtain ⟨key, value⟩ := m
    rw [canonicalizeMembers, ih (List.pairwise_cons.mp h).2 fun m hm => hv m (.tail _ hm),
      hv _ (.head _), insertMember_of_sorted h]

mutual

/-- **Sorting twice changes nothing.** -/
theorem canonicalize_canonicalize (value : Json) :
    canonicalize (canonicalize value) = canonicalize value := by
  match value with
  | .null | .bool _ | .num _ | .str _ => simp only [canonicalize]
  | .arr items => rw [canonicalize, canonicalize, canonicalizeItems_canonicalizeItems]
  | .obj members =>
    rw [canonicalize, canonicalize, canonicalizeMembers_of_sorted
      (sortedMembers_canonicalizeMembers members) (canonicalize_of_mem members)]

theorem canonicalizeItems_canonicalizeItems (items : List Json) :
    canonicalizeItems (canonicalizeItems items) = canonicalizeItems items := by
  match items with
  | [] => simp only [canonicalizeItems]
  | item :: items =>
    simp only [canonicalizeItems, canonicalize_canonicalize item,
      canonicalizeItems_canonicalizeItems items]

theorem canonicalize_of_mem (members : List (String × Json)) :
    ∀ m ∈ canonicalizeMembers members, canonicalize m.2 = m.2 := by
  match members with
  | [] => simp [canonicalizeMembers]
  | (key, value) :: members =>
    intro m hm
    rw [canonicalizeMembers] at hm
    rcases mem_insertMember hm with rfl | hm
    · exact canonicalize_canonicalize value
    · exact canonicalize_of_mem members m hm

end

/-- The value of a `jsonb` column: a JSON value without an order of members. -/
def Jsonb : Type := { value : Json // canonicalize value = value }

namespace Jsonb

instance : DecidableEq Jsonb := inferInstanceAs (DecidableEq { value : Json // canonicalize value = value })

/-- Store a value in a `jsonb` column. -/
def ofJson (value : Json) : Jsonb := ⟨canonicalize value, canonicalize_canonicalize value⟩

@[simp] theorem canonicalize_val (value : Jsonb) : canonicalize value.val = value.val := value.2

@[simp] theorem val_ofJson (value : Json) : (ofJson value).val = canonicalize value := rfl

end Jsonb

/-! ## Members of canonical objects -/

/-- The last member under a key. -/
def lastMember (key : String) : List (String × Json) → Option Json
  | [] => none
  | (key', value) :: members => (lastMember key members).or (if key' = key then some value else none)

theorem mem_of_lastMember {key : String} {value : Json} {members : List (String × Json)}
    (h : lastMember key members = some value) : (key, value) ∈ members := by
  induction members with
  | nil => cases h
  | cons m members ih =>
    obtain ⟨key', value'⟩ := m
    rw [lastMember, Option.or_eq_some_iff] at h
    rcases h with h | ⟨-, h⟩
    · exact List.mem_cons_of_mem _ (ih h)
    · obtain ⟨rfl, hvalue⟩ := Option.ite_none_right_eq_some.mp h
      obtain rfl := Option.some_inj.mp hvalue
      exact List.mem_cons_self

theorem lastMember_append (key : String) (left right : List (String × Json)) :
    lastMember key (left ++ right) = (lastMember key right).or (lastMember key left) := by
  induction left with
  | nil => simp [lastMember]
  | cons member left ih => rw [List.cons_append, lastMember, lastMember, ih, Option.or_assoc]

theorem lastMember_insertMember (key key' : String) (value : Json)
    {members : List (String × Json)} (h : SortedMembers members) :
    lastMember key (insertMember key' value members)
      = (lastMember key members).or (if key' = key then some value else none) := by
  induction members with
  | nil => rfl
  | cons m members ih =>
    obtain ⟨k, v⟩ := m
    obtain ⟨hhead, htail⟩ := List.pairwise_cons.mp h
    rw [insertMember]
    split
    · next heq =>
      subst heq
      by_cases hk : key' = key <;> simp [lastMember, hk]
    split
    · rfl
    · simp only [lastMember, ih htail]
      by_cases hk : k = key
      · have hne : key' ≠ key := by rintro rfl; simp_all
        simp [hk, hne]
      · simp [hk]

/-- Looking a member up in a canonical object. -/
theorem lastMember_canonicalizeMembers (key : String) (members : List (String × Json)) :
    lastMember key (canonicalizeMembers members) = (lastMember key members).map canonicalize := by
  induction members with
  | nil => simp [canonicalizeMembers, lastMember]
  | cons m members ih =>
    obtain ⟨k, v⟩ := m
    rw [canonicalizeMembers, lastMember_insertMember _ _ _ (sortedMembers_canonicalizeMembers _), ih,
      lastMember]
    cases lastMember key members <;> by_cases hk : k = key <;> simp [hk]

/-- Where keys are distinct the first member is the last one. -/
theorem get?_eq_lastMember {members : List (String × Json)} (h : (members.map Prod.fst).Nodup)
    (key : String) : (Json.obj members).get? key = lastMember key members := by
  induction members with
  | nil => rfl
  | cons member members ih =>
    rw [List.map_cons, List.nodup_cons] at h
    rw [Json.get?, List.find?_cons, lastMember]
    by_cases hkey : member.1 = key
    · have hnone : lastMember key members = none := by
        cases hlast : lastMember key members with
        | none => rfl
        | some value => exact absurd (List.mem_map_of_mem (mem_of_lastMember hlast)) (hkey ▸ h.1)
      simp [hkey, hnone]
    · rw [← ih h.2]
      simp [hkey, Json.get?]

theorem SortedMembers.nodup {members : List (String × Json)} (h : SortedMembers members) :
    (members.map Prod.fst).Nodup := by
  refine List.pairwise_map.mpr (h.imp fun hlt heq => ?_)
  rw [heq] at hlt
  exact lt_irrefl _ hlt

/-- A member of a canonical object. -/
theorem get?_canonicalize (members : List (String × Json)) (key : String) :
    (canonicalize (.obj members)).get? key = (lastMember key members).map canonicalize := by
  rw [canonicalize, get?_eq_lastMember (sortedMembers_canonicalizeMembers _).nodup,
    lastMember_canonicalizeMembers]

/-- Equal canonical objects have equal canonical members. -/
theorem canonicalize_lastMember_eq {as bs : List (String × Json)}
    (h : canonicalize (.obj as) = canonicalize (.obj bs)) (key : String) :
    (lastMember key as).map canonicalize = (lastMember key bs).map canonicalize := by
  simp only [canonicalize, Json.obj.injEq] at h
  rw [← lastMember_canonicalizeMembers, ← lastMember_canonicalizeMembers, h]

/-- Objects with the same keys in the same order and equal canonical values. -/
theorem canonicalize_obj_congr {as bs : List (String × Json)}
    (h : List.Forall₂ (fun a b => a.1 = b.1 ∧ canonicalize a.2 = canonicalize b.2) as bs) :
    canonicalize (.obj as) = canonicalize (.obj bs) := by
  suffices canonicalizeMembers as = canonicalizeMembers bs by simp only [canonicalize, this]
  induction h with
  | nil => rfl
  | cons hab _ ih => simp only [canonicalizeMembers, hab.1, hab.2, ih]

/-- **Without collisions a digest determines the canonical value.** -/
theorem stableDigest_injective {sha256 : List Char → String} (hsha : Function.Injective sha256)
    {a b : Json} (h : stableDigest sha256 a = stableDigest sha256 b) :
    canonicalize a = canonicalize b := Json.stringify_injective (hsha h)

end HarnessFramework
