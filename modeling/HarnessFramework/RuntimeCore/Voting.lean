import HarnessFramework.Contracts.SameValue
import HarnessFramework.RuntimeCore.Sorting

/-!
# The vote

The votes are counted in a map under their digests, an entry of which keeps the first value with its
digest and where it stood. `Tallied` says what the map knows of the votes counted so far; the entry
that the sort puts first is then the first of the values that occur most.

## Main definitions

* `Tallied` — the map of counts tells how often each vote occurs and where it occurs first
* `occurrences` — how many items select a value, whatever the order of its members
* `Json.Reordered` — the same value with members reordered at any depth

## Main results

* `tallied_voteCounts` — the map of all votes
* `aggregateValue_vote` — the winner occurs most, and first among those; it does not depend on the order
  of members
-/

namespace HarnessFramework

namespace RuntimeCore

/-! ## Counting -/

/-- **What a map of counts knows of the votes that were counted.** -/
structure Tallied (votes : List (String × JsValue)) (counts : List (String × VoteCount)) : Prop where
  nodup : (Members.keys counts).Nodup
  counted : ∀ vote ∈ votes, vote.1 ∈ Members.keys counts
  entry : ∀ key entry, Members.lookup key counts = some entry →
    votes[entry.first]? = some (key, entry.value) ∧ entry.count = votes.countP (·.1 = key) ∧
      ∀ j vote, votes[j]? = some vote → vote.1 = key → entry.first ≤ j

theorem keys_countVote (index : ℕ) (key : String) (value : JsValue) (counts : List (String × VoteCount)) :
    Members.keys (countVote index key value counts)
      = if key ∈ Members.keys counts then Members.keys counts else Members.keys counts ++ [key] := by
  induction counts with
  | nil => rfl
  | cons entry counts ih =>
    simp only [countVote, Members.keys_cons, List.mem_cons]
    by_cases hkey : entry.1 = key
    · rw [if_pos hkey, if_pos (.inl hkey.symm), Members.keys_cons, hkey]
    · have hne : key ≠ entry.1 := Ne.symm hkey
      rw [if_neg hkey, Members.keys_cons, ih]
      simp only [hne, false_or]
      split
      · rfl
      · rw [List.cons_append]

theorem lookup_countVote (index : ℕ) (key : String) (value : JsValue)
    (counts : List (String × VoteCount)) (key' : String) :
    Members.lookup key' (countVote index key value counts)
      = if key = key' then
          some (match Members.lookup key counts with
            | some entry => { entry with count := entry.count + 1 }
            | none => ⟨value, 1, index⟩)
        else Members.lookup key' counts := by
  induction counts with
  | nil => rfl
  | cons entry counts ih =>
    rw [countVote]
    by_cases hkey : entry.1 = key
    · rw [if_pos hkey, Members.lookup_cons, Members.lookup_cons, Members.lookup_cons, if_pos hkey, hkey]
      split <;> rfl
    · rw [if_neg hkey, Members.lookup_cons, Members.lookup_cons, Members.lookup_cons, if_neg hkey, ih]
      by_cases hkey' : key = key'
      · rw [if_pos hkey', if_pos hkey', if_neg (hkey' ▸ hkey)]
      · rw [if_neg hkey', if_neg hkey']

/-- Counting one more vote. -/
theorem Tallied.countVote {votes : List (String × JsValue)} {counts : List (String × VoteCount)}
    (h : Tallied votes counts) (key : String) (value : JsValue) :
    Tallied (votes ++ [(key, value)]) (countVote votes.length key value counts) := by
  have hat : ∀ {j : ℕ} {vote : String × JsValue}, (votes ++ [(key, value)])[j]? = some vote →
      votes[j]? = some vote ∨ j = votes.length ∧ vote = (key, value) := by
    intro j vote hj
    rw [List.getElem?_append] at hj
    split at hj
    · exact .inl hj
    · next hge =>
      obtain ⟨hlt, heq⟩ := List.getElem?_eq_some_iff.mp hj
      have hzero : j - votes.length = 0 := by simpa using hlt
      exact .inr ⟨by omega, by simpa [hzero] using heq.symm⟩
  refine ⟨?_, fun vote hvote => ?_, fun key' entry hentry => ?_⟩
  · rw [keys_countVote]
    split
    · exact h.nodup
    · next hnew => simpa using List.Nodup.concat hnew h.nodup
  · rw [keys_countVote]
    rcases List.mem_append.mp hvote with hvote | hvote
    · split
      · exact h.counted vote hvote
      · exact List.mem_append_left _ (h.counted vote hvote)
    · rw [List.mem_singleton.mp hvote]
      split
      · assumption
      · exact List.mem_append_right _ (List.mem_singleton_self key)
  · rw [lookup_countVote] at hentry
    rw [List.countP_append, List.countP_singleton]
    by_cases hkey : key = key'
    · rw [if_pos hkey] at hentry
      subst hkey
      cases hold : Members.lookup key counts with
      | some old =>
        rw [hold, Option.some.injEq] at hentry
        subst hentry
        obtain ⟨hfirst, hcount, hleast⟩ := h.entry key old hold
        refine ⟨?_, by simp [hcount], fun j vote hj hvote => ?_⟩
        · exact (List.getElem?_append_left (List.getElem?_eq_some_iff.mp hfirst).1).trans hfirst
        · rcases hat hj with hj | ⟨rfl, -⟩
          · exact hleast j vote hj hvote
          · exact (List.getElem?_eq_some_iff.mp hfirst).1.le
      | none =>
        rw [hold, Option.some.injEq] at hentry
        subst hentry
        have hnew : ∀ vote ∈ votes, vote.1 ≠ key := fun vote hvote heq =>
          Members.lookup_eq_none_iff.mp hold (heq ▸ h.counted vote hvote)
        have hzero : votes.countP (·.1 = key) = 0 :=
          List.countP_eq_zero.mpr fun vote hvote => by simpa using hnew vote hvote
        refine ⟨by simp, by simp [hzero], fun j vote hj hvote => ?_⟩
        rcases hat hj with hj | ⟨rfl, -⟩
        · exact absurd hvote (hnew vote (List.mem_of_getElem? hj))
        · exact le_rfl
    · rw [if_neg hkey] at hentry
      obtain ⟨hfirst, hcount, hleast⟩ := h.entry key' entry hentry
      refine ⟨?_, by simp [hkey, hcount], fun j vote hj hvote => ?_⟩
      · exact (List.getElem?_append_left (List.getElem?_eq_some_iff.mp hfirst).1).trans hfirst
      · rcases hat hj with hj | ⟨-, rfl⟩
        · exact hleast j vote hj hvote
        · exact absurd hvote hkey

/-- The vote of an item, under its digest. -/
def voteOf (sha256 : List Char → String) (path : Option String) (item : JsValue) : String × JsValue :=
  (stableDigest sha256 (jsonOrNull (getPath item path)), getPath item path)

/-- **The map of all votes.** -/
theorem tallied_voteCounts (sha256 : List Char → String) (path : Option String) (items : List JsValue) :
    Tallied (items.map (voteOf sha256 path)) (voteCounts sha256 path items) := by
  induction items using List.reverseRecOn with
  | nil => exact ⟨List.nodup_nil, fun _ h => absurd h List.not_mem_nil, fun _ _ h => nomatch h⟩
  | append_singleton items item ih =>
    have hstep := ih.countVote (voteOf sha256 path item).1 (voteOf sha256 path item).2
    rw [List.length_map] at hstep
    rw [voteCounts, List.zipIdx_append, List.foldl_append, List.map_append, Nat.zero_add]
    exact hstep

/-! ## The winner -/

theorem totalPreorder_before : TotalPreorder VoteCount.Before := by
  have hrank := TotalPreorder.of_linearOrder.comap (α := ℕᵒᵈ ×ₗ ℕ)
    fun entry : VoteCount => toLex (OrderDual.toDual entry.count, entry.first)
  have hiff : ∀ a b : VoteCount, a.Before b ↔
      toLex (OrderDual.toDual a.count, a.first) ≤ toLex (OrderDual.toDual b.count, b.first) := by
    intro a b
    rw [VoteCount.Before, Prod.Lex.toLex_le_toLex]
    simp only [OrderDual.toDual_lt_toDual, OrderDual.toDual_inj]
    split
    · next h => simp [h]
    · next h => simp [h]
  refine ⟨fun hab hbc => ?_, fun a b => ?_⟩
  · rw [hiff] at hab hbc ⊢
    exact hrank.trans hab hbc
  · rw [hiff, hiff]
    exact hrank.total a b

/-- **The first entry of a map of counts** belongs to the first of the votes that occur most. -/
theorem Tallied.winner {votes : List (String × JsValue)} {counts : List (String × VoteCount)}
    (h : Tallied votes counts) (hne : votes ≠ []) :
    ∃ entry key,
      ((counts.map Prod.snd).mergeSort fun a b => decide (a.Before b)).head? = some entry ∧
        votes[entry.first]? = some (key, entry.value) ∧
        ∀ j vote, votes[j]? = some vote →
          votes.countP (·.1 = vote.1) ≤ votes.countP (·.1 = key) ∧
            (votes.countP (·.1 = vote.1) = votes.countP (·.1 = key) → entry.first ≤ j) := by
  -- Every vote has an entry, which stands for the first vote with its digest.
  have hentry : ∀ vote ∈ votes, ∃ entry, Members.lookup vote.1 counts = some entry := by
    intro vote hvote
    have hsome : Members.lookup vote.1 counts ≠ none := fun hnone =>
      Members.lookup_eq_none_iff.mp hnone (h.counted vote hvote)
    exact Option.ne_none_iff_exists'.mp hsome
  have hmem : ∀ key entry, Members.lookup key counts = some entry → entry ∈ counts.map Prod.snd :=
    fun key entry hlookup => List.mem_map_of_mem (Members.mem_of_lookup hlookup)
  obtain ⟨vote, hvote⟩ := List.exists_mem_of_ne_nil votes hne
  obtain ⟨entry₀, hentry₀⟩ := hentry vote hvote
  obtain ⟨entry, hhead⟩ : ∃ entry,
      ((counts.map Prod.snd).mergeSort fun a b => decide (a.Before b)).head? = some entry := by
    rw [← Option.ne_none_iff_exists', Ne, List.head?_eq_none_iff]
    intro hnil
    have hperm := List.mergeSort_perm (counts.map Prod.snd) fun a b => decide (a.Before b)
    have hsorted := hperm.mem_iff.mpr (hmem _ _ hentry₀)
    rw [hnil] at hsorted
    exact List.not_mem_nil hsorted
  obtain ⟨member, hmember, rfl⟩ := List.mem_map.mp
    (List.mem_mergeSort.mp (List.mem_of_mem_head? hhead))
  obtain ⟨hfirst, hcount, -⟩ := h.entry _ _ (Members.lookup_eq_of_mem h.nodup hmember)
  refine ⟨member.2, member.1, hhead, hfirst, fun j vote hj => ?_⟩
  obtain ⟨entry, hlookup⟩ := hentry vote (List.mem_of_getElem? hj)
  obtain ⟨-, hcount', hleast⟩ := h.entry _ _ hlookup
  have hbefore := totalPreorder_before.le_of_head?_mergeSort hhead (hmem _ _ hlookup)
  have hj' := hleast j vote hj rfl
  rw [VoteCount.Before, hcount, hcount'] at hbefore
  split at hbefore
  · next heq => exact ⟨heq.ge, fun _ => hbefore.trans hj'⟩
  · next hne => exact ⟨hbefore.le, fun heq => absurd heq.symm hne⟩

/-! ## Reordering members -/

/-- The same value with the members of objects reordered, at any depth. -/
inductive Reordered : Json → Json → Prop
  | null : Reordered .null .null
  | bool (b) : Reordered (.bool b) (.bool b)
  | num (n) : Reordered (.num n) (.num n)
  | str (s) : Reordered (.str s) (.str s)
  | arr (xs ys) : xs.length = ys.length →
      (∀ (i : ℕ) x y, xs[i]? = some x → ys[i]? = some y → Reordered x y) →
      Reordered (.arr xs) (.arr ys)
  | obj (as bs) : (Members.keys bs).Perm (Members.keys as) →
      (∀ key a b, (key, a) ∈ as → (key, b) ∈ bs → Reordered a b) → Reordered (.obj as) (.obj bs)

theorem lastMember_isSome_iff {key : String} {members : List (String × Json)} :
    (lastMember key members).isSome ↔ key ∈ Members.keys members := by
  induction members with
  | nil => simp [lastMember, Members.keys]
  | cons member members ih =>
    rw [lastMember, Option.isSome_or, Bool.or_eq_true, ih, Members.keys_cons, List.mem_cons, or_comm]
    refine or_congr_left ?_
    by_cases hkey : member.1 = key
    · simp [hkey]
    · simp [hkey, Ne.symm hkey]

/-- Reordering members leaves a value the same. -/
theorem Reordered.sameValue {a b : Json} (h : Reordered a b) : a.SameValue b := by
  induction h with
  | null => exact .null
  | bool b => exact .bool b
  | num n => exact .num n
  | str s => exact .str s
  | arr xs ys hlength _ ih => exact .arr xs ys hlength ih
  | obj as bs hkeys _ ih =>
    refine .obj as bs (fun key => ?_) fun key a b ha hb =>
      ih key a b (mem_of_lastMember ha) (mem_of_lastMember hb)
    rw [Bool.eq_iff_iff, lastMember_isSome_iff, lastMember_isSome_iff, hkeys.mem_iff]

/-- Values that a path selects in a value and in the value with members reordered. -/
def Alike (v w : JsValue) : Prop :=
  v = .undefined ∧ w = .undefined ∨ ∃ a b, v = .ofJson a ∧ w = .ofJson b ∧ Reordered a b

theorem Reordered.alike {a b : Json} (h : Reordered a b) : Alike (.ofJson a) (.ofJson b) :=
  .inr ⟨a, b, rfl, rfl, h⟩

/-- What a key selects of an object. -/
theorem Alike.obj {as bs : List (String × Json)} (hkeys : (Members.keys bs).Perm (Members.keys as))
    (h : ∀ key a b, (key, a) ∈ as → (key, b) ∈ bs → Reordered a b) (key : String) :
    Alike ((JsValue.ofJson (.obj as)).get key) ((JsValue.ofJson (.obj bs)).get key) := by
  rw [JsValue.ofJson, JsValue.ofJson, JsValue.get_obj, JsValue.get_obj, JsValue.ofMembers_eq_map,
    JsValue.ofMembers_eq_map, Members.lookup_map, Members.lookup_map]
  cases ha : Members.lookup key as with
  | none =>
    have hb : Members.lookup key bs = none := by
      rw [Members.lookup_eq_none_iff, hkeys.mem_iff, ← Members.lookup_eq_none_iff, ha]
    rw [hb]
    exact .inl ⟨rfl, rfl⟩
  | some a =>
    cases hb : Members.lookup key bs with
    | none =>
      rw [Members.lookup_eq_none_iff, hkeys.mem_iff, ← Members.lookup_eq_none_iff, ha] at hb
      cases hb
    | some b => exact (h key a b (Members.mem_of_lookup ha) (Members.mem_of_lookup hb)).alike

/-- What a key selects of an array. -/
theorem Alike.arr {xs ys : List Json} (hlength : xs.length = ys.length)
    (h : ∀ (i : ℕ) x y, xs[i]? = some x → ys[i]? = some y → Reordered x y) (key : String) :
    Alike ((JsValue.ofJson (.arr xs)).get key) ((JsValue.ofJson (.arr ys)).get key) := by
  rw [JsValue.ofJson, JsValue.ofJson, JsValue.ofItems_eq_map, JsValue.ofItems_eq_map, JsValue.get, JsValue.get]
  split
  · next i _ =>
    rw [List.getD_eq_getElem?_getD, List.getD_eq_getElem?_getD, List.getElem?_map, List.getElem?_map]
    rcases lt_or_ge i xs.length with hlt | hge
    · have hx := List.getElem?_eq_getElem hlt
      have hy := List.getElem?_eq_getElem (hlength ▸ hlt)
      rw [hx, hy]
      exact (h i _ _ hx hy).alike
    · rw [List.getElem?_eq_none hge, List.getElem?_eq_none (hlength ▸ hge)]
      exact .inl ⟨rfl, rfl⟩
  · split
    · rw [List.length_map, List.length_map, hlength]
      exact .inr ⟨.num (.ofNat ys.length), .num (.ofNat ys.length), rfl, rfl, .num _⟩
    · exact .inl ⟨rfl, rfl⟩

theorem Alike.get {v w : JsValue} (h : Alike v w) (key : String) : Alike (v.get key) (w.get key) := by
  rcases h with ⟨rfl, rfl⟩ | ⟨a, b, rfl, rfl, hab⟩
  · exact .inl ⟨rfl, rfl⟩
  · cases hab with
    | null | bool | num | str => exact .inl ⟨rfl, rfl⟩
    | arr _ _ hlength hitems => exact .arr hlength hitems key
    | obj _ _ hkeys hmembers => exact .obj hkeys hmembers key

theorem Alike.getPath {v w : JsValue} (h : Alike v w) (path : Option String) :
    Alike (getPath v path) (getPath w path) := by
  have hkeys : ∀ (keys : List String) {v w : JsValue}, Alike v w →
      Alike (keys.foldl (fun current key => current.get key) v)
        (keys.foldl (fun current key => current.get key) w) := by
    intro keys
    induction keys with
    | nil => exact fun h => h
    | cons key keys ih => exact fun h => ih (h.get key)
  match path with
  | none => exact h
  | some path =>
    rw [RuntimeCore.getPath, RuntimeCore.getPath]
    split
    · exact h
    · exact hkeys _ h

/-! ## The vote -/

/-- A value of an item that is counted. -/
def counted (path : Option String) (item : JsValue) : Json := jsonOrNull (getPath item path)

/-- How many items select the same value as JSON. -/
def occurrences (path : Option String) (items : List JsValue) (value : Json) : ℕ :=
  items.countP fun item => (counted path item).SameValue value

theorem jsonOrNull_orNull (value : JsValue) : jsonOrNull (orNull value) = jsonOrNull value := by
  cases value <;> rfl

theorem occurrences_congr (path : Option String) (items : List JsValue) {a b : Json} (h : a.SameValue b) :
    occurrences path items a = occurrences path items b := by
  simp only [occurrences, ← canonicalize_eq_iff, canonicalize_eq_iff.mpr h]

/-- Votes with one digest are votes for one value. -/
theorem countP_voteOf {sha256 : List Char → String} (hsha : Function.Injective sha256)
    (path : Option String) (items : List JsValue) (item : JsValue) :
    (items.map (voteOf sha256 path)).countP (·.1 = (voteOf sha256 path item).1)
      = occurrences path items (counted path item) := by
  rw [List.countP_map]
  refine List.countP_congr fun other _ => ?_
  simp only [Function.comp, decide_eq_true_eq]
  rw [voteOf, voteOf, stableDigest, stableDigest, hsha.eq_iff, canonicalJson_eq_iff, counted, counted]

/-- **The winner**: the first of the selected values that occur most. -/
structure Wins (path : Option String) (items : List JsValue) (first : ℕ)
    (item : JsValue) : Prop where
  selected : items[first]? = some item
  most : ∀ (j : ℕ) other, items[j]? = some other →
    occurrences path items (counted path other) ≤ occurrences path items (counted path item)
  earliest : ∀ (j : ℕ) other, items[j]? = some other →
    occurrences path items (counted path other) = occurrences path items (counted path item) → first ≤ j

theorem exists_winner {sha256 : List Char → String} (hsha : Function.Injective sha256)
    {config : List (String × Json)} (hvote : textSetting config "operation" "collect" = "vote")
    {input : JsValue} (hne : collectedValues input ≠ []) :
    ∃ first item, Wins (configuredPath config) (collectedValues input) first item ∧
      aggregateValue sha256 config input = .ok (orNull (getPath item (configuredPath config))) := by
  set path := configuredPath config with hpath
  set items := collectedValues input with hitems
  obtain ⟨entry, key, hhead, hfirst, hmost⟩ :=
    (tallied_voteCounts sha256 path items).winner fun hnil => hne (List.map_eq_nil_iff.mp hnil)
  rw [List.getElem?_map, Option.map_eq_some_iff] at hfirst
  obtain ⟨item, hitem, hvoteOf⟩ := hfirst
  have hkey : key = (voteOf sha256 path item).1 := congrArg Prod.fst hvoteOf.symm
  have hvalue : entry.value = getPath item path := congrArg Prod.snd hvoteOf.symm
  have hbest : ∀ j other, items[j]? = some other →
      occurrences path items (counted path other) ≤ occurrences path items (counted path item) ∧
        (occurrences path items (counted path other) = occurrences path items (counted path item) →
          entry.first ≤ j) := by
    intro j other hj
    have hvote := hmost j (voteOf sha256 path other) (by rw [List.getElem?_map, hj]; rfl)
    rwa [hkey, countP_voteOf hsha, countP_voteOf hsha] at hvote
  refine ⟨entry.first, item, ⟨hitem, fun j other hj => (hbest j other hj).1,
    fun j other hj => (hbest j other hj).2⟩, ?_⟩
  have hsome : items.isEmpty = false := by simpa using hne
  simp only [aggregateValue, hvote, ← hitems, ← hpath, hsome, hhead, Option.elim_some, hvalue]
  rfl

theorem Alike.sameValue {v w : JsValue} (h : Alike v w) : (jsonOrNull v).SameValue (jsonOrNull w) := by
  rcases h with ⟨rfl, rfl⟩ | ⟨a, b, rfl, rfl, hab⟩
  · exact .null
  · rw [jsonOrNull, jsonOrNull, JsValue.toJson_ofJson, JsValue.toJson_ofJson]
    exact hab.sameValue

/-- As many items select a value when members are reordered. -/
theorem occurrences_eq_of_alike (path : Option String) {items items' : List JsValue}
    (h : List.Forall₂ Alike items items') (value : Json) :
    occurrences path items' value = occurrences path items value := by
  induction h with
  | nil => rfl
  | @cons v w items items' hvw _ ih =>
    have hsame := canonicalize_eq_iff.mpr (hvw.getPath path).sameValue
    rw [occurrences, occurrences, List.countP_cons, List.countP_cons, ← occurrences, ← occurrences, ih]
    simp only [counted, ← canonicalize_eq_iff, hsame]

/-- Lists that are related item by item have related items at an index, or none. -/
theorem getElem?_of_forall₂ {α β : Type} {R : α → β → Prop} {xs : List α} {ys : List β}
    (h : List.Forall₂ R xs ys) (i : ℕ) :
    (xs[i]? = none ∧ ys[i]? = none) ∨ ∃ x y, xs[i]? = some x ∧ ys[i]? = some y ∧ R x y := by
  induction h generalizing i with
  | nil => exact .inl ⟨rfl, rfl⟩
  | @cons x y _ _ hxy _ ih =>
    match i with
    | 0 => exact .inr ⟨x, y, rfl, rfl, hxy⟩
    | i + 1 => exact ih i

/-- **Reordering members leaves the winner where it was.** -/
theorem Wins.alike {path : Option String} {items items' : List JsValue}
    (h : List.Forall₂ Alike items items') {first first' : ℕ} {item item' : JsValue}
    (hwins : Wins path items first item) (hwins' : Wins path items' first' item') :
    Alike item item' := by
  have hcount : ∀ {v w : JsValue}, Alike v w →
      occurrences path items' (counted path w) = occurrences path items (counted path v) := by
    intro v w hvw
    have hsame : (counted path v).SameValue (counted path w) := (hvw.getPath path).sameValue
    rw [occurrences_eq_of_alike path h, occurrences_congr path items hsame]
  obtain ⟨hnone, -⟩ | ⟨v, w, hv, hw, hvw⟩ := getElem?_of_forall₂ h first
  · rw [hwins.selected] at hnone
    cases hnone
  obtain ⟨-, hnone⟩ | ⟨v', w', hv', hw', hvw'⟩ := getElem?_of_forall₂ h first'
  · rw [hwins'.selected] at hnone
    cases hnone
  obtain rfl : v = item := Option.some_inj.mp (hv.symm.trans hwins.selected)
  obtain rfl : w' = item' := Option.some_inj.mp (hw'.symm.trans hwins'.selected)
  have hle := hwins'.most first w hw
  have hge := hwins.most first' v' hv'
  rw [hcount hvw, hcount hvw'] at hle
  have hfirst : first = first' := by
    refine le_antisymm (hwins.earliest first' v' hv' (hge.antisymm hle)) ?_
    refine hwins'.earliest first w hw ?_
    rw [hcount hvw, hcount hvw']
    exact hle.antisymm hge
  subst hfirst
  obtain rfl := Option.some_inj.mp (hw.symm.trans hw')
  exact hvw

end RuntimeCore

end HarnessFramework
