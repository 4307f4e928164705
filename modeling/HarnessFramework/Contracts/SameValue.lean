import HarnessFramework.Contracts.Canonical

/-!
# What a canonical text says

Two JSON documents are the same value when their arrays agree item by item and their objects member by
member, whatever the order of the members. The canonical text is the same exactly for documents that are
the same value, so digests tell apart exactly the others.

## Main definitions

* `Json.SameValue` — the same value, objects being unordered at every depth

## Main results

* `sortedMembers_ext` — sorted members are determined by what is looked up in them
* `canonicalize_eq_iff` — the canonical forms of the same values
* `canonical_encoding` — the canonical text and the digest determine exactly the value
-/

namespace HarnessFramework

/-- The same value: objects are equal member by member, in any order. -/
inductive Json.SameValue : Json → Json → Prop
  | null : SameValue .null .null
  | bool (b) : SameValue (.bool b) (.bool b)
  | num (n) : SameValue (.num n) (.num n)
  | str (s) : SameValue (.str s) (.str s)
  | arr (xs ys) : xs.length = ys.length →
      (∀ (i : ℕ) x y, xs[i]? = some x → ys[i]? = some y → SameValue x y) →
      SameValue (.arr xs) (.arr ys)
  | obj (as bs) : (∀ key, (lastMember key as).isSome = (lastMember key bs).isSome) →
      (∀ key a b, lastMember key as = some a → lastMember key bs = some b → SameValue a b) →
      SameValue (.obj as) (.obj bs)

/-! ## Looking members up -/

/-- What is looked up in sorted members is what is there. -/
theorem mem_iff_lastMember {members : List (String × Json)} (h : SortedMembers members) (key : String)
    (value : Json) : (key, value) ∈ members ↔ lastMember key members = some value := by
  refine ⟨fun hmem => ?_, mem_of_lastMember⟩
  induction members with
  | nil => cases hmem
  | cons m members ih =>
    obtain ⟨key', value'⟩ := m
    obtain ⟨hhead, htail⟩ := List.pairwise_cons.mp h
    rw [lastMember, Option.or_eq_some_iff]
    rcases List.mem_cons.mp hmem with heq | hmem
    · obtain ⟨rfl, rfl⟩ := Prod.mk.inj heq
      refine .inr ⟨?_, if_pos rfl⟩
      -- The key of the first member is not the key of another one.
      by_contra hne
      obtain ⟨later, hlater⟩ := Option.ne_none_iff_exists'.mp hne
      exact lt_irrefl _ (hhead (_, later) (mem_of_lastMember hlater))
    · exact .inl (ih htail hmem)

/-- **Sorted members are determined by what is looked up in them.** -/
theorem sortedMembers_ext {ms ms' : List (String × Json)} (h : SortedMembers ms) (h' : SortedMembers ms')
    (heq : ∀ key, lastMember key ms = lastMember key ms') : ms = ms' := by
  have hnodup {l : List (String × Json)} (hl : SortedMembers l) : l.Nodup :=
    hl.imp fun {a b} hlt => by
      rintro rfl
      exact lt_irrefl _ hlt
  have hperm : ms.Perm ms' := by
    refine (List.perm_ext_iff_of_nodup (hnodup h) (hnodup h')).mpr fun m => ?_
    rw [mem_iff_lastMember h, mem_iff_lastMember h', heq]
  exact List.Perm.eq_of_pairwise (fun a b _ _ hab hba => absurd hba hab.asymm) h h' hperm

theorem canonicalizeItems_eq_map (items : List Json) : canonicalizeItems items = items.map canonicalize := by
  induction items with
  | nil => rfl
  | cons item items ih => rw [canonicalizeItems, ih, List.map_cons]

/-! ## Canonical forms -/

/-- The same value has one canonical form. -/
theorem Json.SameValue.canonicalize_eq {a b : Json} (h : a.SameValue b) :
    canonicalize a = canonicalize b := by
  induction h with
  | null | bool | num | str => rfl
  | arr xs ys hlength _ ih =>
    rw [canonicalize, canonicalize, canonicalizeItems_eq_map, canonicalizeItems_eq_map]
    congr 1
    refine List.ext_getElem? fun i => ?_
    rw [List.getElem?_map, List.getElem?_map]
    rcases lt_or_ge i xs.length with hlt | hge
    · rw [List.getElem?_eq_getElem hlt, List.getElem?_eq_getElem (hlength ▸ hlt)]
      exact congrArg some (ih i _ _ (List.getElem?_eq_getElem hlt) (List.getElem?_eq_getElem _))
    · rw [List.getElem?_eq_none hge, List.getElem?_eq_none (hlength ▸ hge)]
  | obj as bs hsome _ ih =>
    rw [canonicalize, canonicalize]
    congr 1
    refine sortedMembers_ext (sortedMembers_canonicalizeMembers as) (sortedMembers_canonicalizeMembers bs)
      fun key => ?_
    rw [lastMember_canonicalizeMembers, lastMember_canonicalizeMembers]
    have hkey := hsome key
    cases ha : lastMember key as with
    | none =>
      rw [ha, Option.isSome_none, eq_comm, Option.isSome_eq_false_iff, Option.isNone_iff_eq_none] at hkey
      rw [hkey]
    | some a =>
      rw [ha, Option.isSome_some, eq_comm, Option.isSome_iff_exists] at hkey
      obtain ⟨b, hb⟩ := hkey
      rw [hb, Option.map_some, Option.map_some, ih key a b ha hb]

/-- **A canonical form is that of one value.** -/
theorem sameValue_of_canonicalize {a b : Json} (h : canonicalize a = canonicalize b) :
    a.SameValue b := by
  match a, b with
  | .null, .null => exact .null
  | .bool b, .bool b' =>
    obtain rfl : b = b' := by simpa [canonicalize] using h
    exact .bool b
  | .num n, .num n' =>
    obtain rfl : n = n' := by simpa [canonicalize] using h
    exact .num n
  | .str s, .str s' =>
    obtain rfl : s = s' := by simpa [canonicalize] using h
    exact .str s
  | .arr xs, .arr ys =>
    rw [canonicalize, canonicalize, Json.arr.injEq, canonicalizeItems_eq_map,
      canonicalizeItems_eq_map] at h
    refine .arr xs ys (by simpa using congrArg List.length h) fun i x y hx hy => ?_
    have hmem : x ∈ xs := List.mem_of_getElem? hx
    have hitem := congrArg (·[i]?) h
    simp only [List.getElem?_map, hx, hy, Option.map_some, Option.some.injEq] at hitem
    exact sameValue_of_canonicalize hitem
  | .obj as, .obj bs =>
    have hlookup := canonicalize_lastMember_eq h
    refine .obj as bs (fun key => ?_) fun key x y hx hy => ?_
    · have hkey := congrArg Option.isSome (hlookup key)
      rwa [Option.isSome_map, Option.isSome_map] at hkey
    · have hmem : (key, x) ∈ as := mem_of_lastMember hx
      have hmember := hlookup key
      rw [hx, hy, Option.map_some, Option.map_some, Option.some.injEq] at hmember
      exact sameValue_of_canonicalize hmember
termination_by sizeOf a
decreasing_by
  · have := List.sizeOf_lt_of_mem hmem
    simp
    omega
  · have := List.sizeOf_lt_of_mem hmem
    simp at *
    omega

theorem canonicalize_eq_iff {a b : Json} : canonicalize a = canonicalize b ↔ a.SameValue b :=
  ⟨sameValue_of_canonicalize, Json.SameValue.canonicalize_eq⟩

theorem Json.SameValue.symm {a b : Json} (h : a.SameValue b) : b.SameValue a :=
  sameValue_of_canonicalize h.canonicalize_eq.symm

instance : DecidableRel Json.SameValue := fun _ _ => decidable_of_iff _ canonicalize_eq_iff

/-! ## Texts and digests -/

theorem canonicalJson_eq_iff {a b : Json} : canonicalJson a = canonicalJson b ↔ a.SameValue b := by
  rw [canonicalJson, canonicalJson, Json.stringify_injective.eq_iff, canonicalize_eq_iff]

/-- **The canonical text and, without collisions, the digest determine exactly the value.** -/
theorem canonical_encoding {sha256 : List Char → String} (hsha : Function.Injective sha256) (a b : Json) :
    (canonicalJson a = canonicalJson b ↔ a.SameValue b) ∧
      canonicalize (canonicalize a) = canonicalize a ∧
      (stableDigest sha256 a = stableDigest sha256 b ↔ a.SameValue b) := by
  refine ⟨canonicalJson_eq_iff, canonicalize_canonicalize a, ?_⟩
  rw [stableDigest, stableDigest, hsha.eq_iff, canonicalJson_eq_iff]

/-- Members in another order. -/
theorem canonical_encoding_sample :
    let a : Json := .obj [("10", .nat 1), ("9", .arr [.obj [("b", .null), ("a", .bool true)]])]
    let b : Json := .obj [("9", .arr [.obj [("a", .bool true), ("b", .null)]]), ("10", .nat 1)]
    (canonicalJson a = canonicalJson b ↔ a.SameValue b) ∧
      canonicalize (canonicalize a) = canonicalize a ∧
      (stableDigest String.ofList a = stableDigest String.ofList b ↔ a.SameValue b) :=
  canonical_encoding (fun _ _ => String.ofList_injective) _ _

end HarnessFramework
