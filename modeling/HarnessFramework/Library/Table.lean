import Mathlib.Algebra.BigOperators.Group.List.Basic
import Mathlib.Data.List.Basic
import Mathlib.Data.List.Nodup
import Mathlib.Data.List.Perm.Basic
import Mathlib.Tactic.Common

/-!
# Tables

Rows of a table under `update … set … where …`. What statements do to single rows decides what they
do to the table: `Evolves` lifts a relation on rows to tables, and composes.

## Main definitions

* `updateWhere`, `rowCount` — an update and the number of its rows
* `Evolves` — every row goes on as one that it is related to, and the others are new

## Main results

* `evolves_updateWhere` — an update, from what it does to single rows
* `Evolves.trans` — updates that follow one another
* `Evolves.forall` — the invariant rule
* `sum_map_eq_of_join` — two tables with the same keys and the same weights under them
-/

namespace HarnessFramework

variable {ρ κ : Type}

section

variable (guard : ρ → Prop) [DecidablePred guard] (set : ρ → ρ)

/-- `update … set … where …`. -/
def updateWhere (rows : List ρ) : List ρ := rows.map fun r => if guard r then set r else r

/-- The number of rows that a `where` selects. -/
def rowCount (rows : List ρ) : ℕ := rows.countP fun r => guard r

variable {guard set} {rows : List ρ}

theorem mem_updateWhere {r' : ρ} : r' ∈ updateWhere guard set rows ↔
    ∃ r ∈ rows, (guard r ∧ r' = set r) ∨ (¬ guard r ∧ r' = r) := by
  rw [updateWhere, List.mem_map]
  refine exists_congr fun r => and_congr_right fun _ => ?_
  split <;> simp_all [eq_comm]

/-- An update that selects no row changes nothing. -/
theorem updateWhere_eq_self (h : ∀ r ∈ rows, ¬ guard r) : updateWhere guard set rows = rows := by
  calc rows.map (fun r => if guard r then set r else r)
      = rows.map id := List.map_congr_left fun r hr => if_neg (h r hr)
    _ = rows := List.map_id rows

/-- An update that keeps the keys of rows keeps the keys of the table. -/
theorem map_updateWhere {key : ρ → κ} (h : ∀ r, guard r → key (set r) = key r) :
    (updateWhere guard set rows).map key = rows.map key := by
  rw [updateWhere, List.map_map]
  refine List.map_congr_left fun r _ => ?_
  simp only [Function.comp]
  split
  · exact h r ‹_›
  · rfl

/-- An update that keeps what another `where` reads selects before or after it. -/
theorem filter_updateWhere {p : ρ → Prop} [DecidablePred p] (hp : ∀ r, guard r → (p (set r) ↔ p r)) :
    (updateWhere guard set rows).filter (fun r => p r) = updateWhere guard set (rows.filter fun r => p r) := by
  rw [updateWhere, updateWhere, List.filter_map]
  congr 1
  refine List.filter_congr fun r _ => ?_
  simp only [Function.comp]
  split
  · next hg => simp only [hp r hg]
  · rfl

/-- The rows that a `where` selects are among the rows that a weaker one selects. -/
theorem rowCount_filter {p : ρ → Prop} [DecidablePred p] (hp : ∀ r, guard r → p r) :
    rowCount guard (rows.filter fun r => p r) = rowCount guard rows := by
  rw [rowCount, rowCount, List.countP_filter]
  refine List.countP_congr fun r _ => ?_
  simpa using hp r

/-- What a `where` finds is found among the rows that a weaker one selects. -/
theorem find?_filter_of_imp {p q : ρ → Prop} [DecidablePred p] [DecidablePred q] (h : ∀ r, q r → p r) :
    (rows.filter fun r => p r).find? (fun r => q r) = rows.find? fun r => q r := by
  rw [List.find?_filter]
  congr 1
  funext r
  have hr := h r
  by_cases hq : q r <;> simp_all

/-- An update that keeps what a `where` and a `select` read keeps what they find. -/
theorem find?_updateWhere {α : Type} {p : ρ → Prop} [DecidablePred p] {get : ρ → α}
    (hp : ∀ r, guard r → (p (set r) ↔ p r)) (hget : ∀ r, guard r → get (set r) = get r) :
    ((updateWhere guard set rows).find? fun r => p r).map get = (rows.find? fun r => p r).map get := by
  induction rows with
  | nil => rfl
  | cons r rows ih =>
    rw [updateWhere] at ih ⊢
    rw [List.map_cons, List.find?_cons, List.find?_cons]
    by_cases hg : guard r
    · by_cases hpr : p r
      · simp [hg, hpr, hp r hg, hget r hg]
      · simpa [hg, hpr, hp r hg] using ih
    · by_cases hpr : p r
      · simp [hg, hpr]
      · simpa [hg, hpr] using ih

/-- What is found under a key after an update under a key. -/
theorem find?_updateWhere_key {key : ρ → κ} [DecidableEq κ] (hset : ∀ r, key (set r) = key r) (k k' : κ) :
    (updateWhere (fun r => key r = k) set rows).find? (fun r => key r = k') =
      (rows.find? fun r => key r = k').map fun r => if k' = k then set r else r := by
  have hkey : ((fun r => decide (key r = k')) ∘ fun r => if key r = k then set r else r) =
      fun r => decide (key r = k') := by
    funext r
    simp only [Function.comp]
    split
    · rw [hset]
    · rfl
  rw [updateWhere, List.find?_map, hkey]
  cases hfind : rows.find? fun r => key r = k' with
  | none => rfl
  | some r =>
    have hr : key r = k' := by simpa using List.find?_some hfind
    rw [Option.map_some, Option.map_some, hr]

/-- The row under a key. -/
theorem find?_eq_some_of_nodup {key : ρ → κ} [DecidableEq κ] (hkeys : (rows.map key).Nodup) {r : ρ}
    (hr : r ∈ rows) : rows.find? (fun r' => key r' = key r) = some r := by
  cases hfind : rows.find? (fun r' => decide (key r' = key r)) with
  | none => simpa using List.find?_eq_none.mp hfind r hr
  | some r' =>
    have hkey : key r' = key r := by simpa using List.find?_some hfind
    rw [List.inj_on_of_nodup_map hkeys (List.mem_of_find?_eq_some hfind) hr hkey]

/-- **Counting the rows that are found**: as many rows as ids, with distinct keys that are among the ids,
are found exactly if the ids are distinct too and each of them is a key of such a row. -/
theorem length_filter_eq_iff {key : ρ → κ} (hkeys : (rows.map key).Nodup) {p : ρ → Prop}
    [DecidablePred p] {ids : List κ} (hp : ∀ r, p r → key r ∈ ids) :
    (rows.filter fun r => p r).length = ids.length ↔
      ids.Nodup ∧ ∀ id ∈ ids, ∃ r ∈ rows, p r ∧ key r = id := by
  have hnodup : ((rows.filter fun r => p r).map key).Nodup :=
    hkeys.sublist (List.filter_sublist.map key)
  have hmem : ∀ id, id ∈ (rows.filter fun r => p r).map key ↔ ∃ r ∈ rows, p r ∧ key r = id := by
    intro id
    rw [List.mem_map]
    refine exists_congr fun r => ?_
    rw [List.mem_filter, decide_eq_true_eq, and_assoc]
  have hsubset : (rows.filter fun r => p r).map key ⊆ ids := by
    intro id hid
    obtain ⟨r, -, hr, rfl⟩ := (hmem id).mp hid
    exact hp r hr
  have hfewer := List.subperm_of_subset hnodup hsubset
  constructor
  · intro hlength
    have hperm := hfewer.perm_of_length_le (by rw [List.length_map]; exact Nat.le_of_eq hlength.symm)
    exact ⟨hperm.nodup_iff.mp hnodup, fun id hid => (hmem id).mp (hperm.mem_iff.mpr hid)⟩
  · rintro ⟨hids, hall⟩
    have hmore := List.subperm_of_subset hids fun id hid => (hmem id).mpr (hall id hid)
    rw [← List.length_map key]
    exact Nat.le_antisymm hfewer.length_le hmore.length_le

/-- As many rows as ids, with distinct keys that are among the ids: every id is a key. -/
theorem exists_row_of_length_filter {key : ρ → κ} (hkeys : (rows.map key).Nodup) {p : ρ → Prop}
    [DecidablePred p] {ids : List κ} (hp : ∀ r, p r → key r ∈ ids)
    (hlength : (rows.filter fun r => p r).length = ids.length) {id : κ} (hid : id ∈ ids) :
    ∃ r ∈ rows, p r ∧ key r = id :=
  ((length_filter_eq_iff hkeys hp).mp hlength).2 id hid

end

/-! ## Sums -/

section

variable {ρ' M : Type} [AddCommMonoid M] {rows : List ρ} {rows' : List ρ'}

/-- A sum over the rows that a `where` selects and a sum over the others. -/
theorem sum_map_filter_add (p : ρ → Prop) [DecidablePred p] (weight : ρ → M) (rows : List ρ) :
    ((rows.filter fun r => p r).map weight).sum + ((rows.filter fun r => ¬ p r).map weight).sum =
      (rows.map weight).sum := by
  have hperm : (rows.filter (fun r => p r) ++ rows.filter fun r => ¬ p r).Perm rows := by
    simpa only [decide_not] using List.filter_append_perm (fun r => decide (p r)) rows
  rw [← List.sum_append, ← List.map_append]
  exact (hperm.map weight).sum_eq

/-- **Two tables with the same keys and the same weights under them** have the same sum. -/
theorem sum_map_eq_of_join (key : ρ → κ) (key' : ρ' → κ) {weight : ρ → M} {weight' : ρ' → M}
    (hkeys : (rows.map key).Nodup) (hkeys' : (rows'.map key').Nodup)
    (h : ∀ r ∈ rows, ∃ r' ∈ rows', key' r' = key r ∧ weight' r' = weight r)
    (h' : ∀ r' ∈ rows', ∃ r ∈ rows, key r = key' r') :
    (rows.map weight).sum = (rows'.map weight').sum := by
  have hnodup : (rows.map fun r => (key r, weight r)).Nodup :=
    List.Nodup.of_map Prod.fst (by rw [List.map_map]; exact hkeys)
  have hnodup' : (rows'.map fun r' => (key' r', weight' r')).Nodup :=
    List.Nodup.of_map Prod.fst (by rw [List.map_map]; exact hkeys')
  have hperm : (rows.map fun r => (key r, weight r)).Perm
      (rows'.map fun r' => (key' r', weight' r')) := by
    refine (List.perm_ext_iff_of_nodup hnodup hnodup').mpr fun pair => ?_
    rw [List.mem_map, List.mem_map]
    constructor
    · rintro ⟨r, hr, rfl⟩
      obtain ⟨r', hr', hkey, hweight⟩ := h r hr
      exact ⟨r', hr', by rw [hkey, hweight]⟩
    · rintro ⟨r', hr', rfl⟩
      obtain ⟨r, hr, hkey⟩ := h' r' hr'
      obtain ⟨r'', hr'', hkey', hweight⟩ := h r hr
      obtain rfl := List.inj_on_of_nodup_map hkeys' hr'' hr' (hkey'.trans hkey)
      exact ⟨r, hr, by rw [← hkey', hweight]⟩
  have hsum := (hperm.map Prod.snd).sum_eq
  rw [List.map_map, List.map_map] at hsum
  exact hsum

end

/-! ## Changes -/

/-- Every row goes on as one that it is related to, and every other row is new. -/
structure Evolves (R : ρ → ρ → Prop) (New : ρ → Prop) (rows rows' : List ρ) : Prop where
  forward : ∀ r ∈ rows, ∃ r' ∈ rows', R r r'
  backward : ∀ r' ∈ rows', New r' ∨ ∃ r ∈ rows, R r r'

section

variable {R R' : ρ → ρ → Prop} {New : ρ → Prop} {rows rows' rows'' : List ρ}

theorem evolves_refl (h : ∀ r ∈ rows, R r r) : Evolves R New rows rows :=
  ⟨fun r hr => ⟨r, hr, h r hr⟩, fun r hr => .inr ⟨r, hr, h r hr⟩⟩

/-- An update, from what it does to single rows. -/
theorem evolves_updateWhere {guard : ρ → Prop} [DecidablePred guard] {set : ρ → ρ}
    (hset : ∀ r ∈ rows, guard r → R r (set r)) (hkeep : ∀ r ∈ rows, R r r) :
    Evolves R New rows (updateWhere guard set rows) := by
  constructor
  · intro r hr
    by_cases hg : guard r
    · exact ⟨set r, mem_updateWhere.mpr ⟨r, hr, .inl ⟨hg, rfl⟩⟩, hset r hr hg⟩
    · exact ⟨r, mem_updateWhere.mpr ⟨r, hr, .inr ⟨hg, rfl⟩⟩, hkeep r hr⟩
  · intro r' hr'
    obtain ⟨r, hr, ⟨hg, rfl⟩ | ⟨_, rfl⟩⟩ := mem_updateWhere.mp hr'
    · exact .inr ⟨r, hr, hset r hr hg⟩
    · exact .inr ⟨_, hr, hkeep _ hr⟩

/-- An insert. -/
theorem evolves_append {row : ρ} (hkeep : ∀ r ∈ rows, R r r) (hnew : New row) :
    Evolves R New rows (rows ++ [row]) := by
  refine ⟨fun r hr => ⟨r, List.mem_append_left _ hr, hkeep r hr⟩, fun r' hr' => ?_⟩
  rcases List.mem_append.mp hr' with hr' | hr'
  · exact .inr ⟨r', hr', hkeep r' hr'⟩
  · exact .inl (List.mem_singleton.mp hr' ▸ hnew)

/-- **The invariant rule**: what new rows have and rows keep holds of all rows. -/
theorem Evolves.forall {P P' : ρ → Prop} (h : Evolves R New rows rows')
    (hnew : ∀ r, New r → P' r) (hkeep : ∀ r r', P r → R r r' → P' r') (hp : ∀ r ∈ rows, P r) :
    ∀ r ∈ rows', P' r := by
  intro r' hr'
  rcases h.backward r' hr' with hn | ⟨r, hr, hrr⟩
  · exact hnew r' hn
  · exact hkeep r r' (hp r hr) hrr

theorem Evolves.mono {New' : ρ → Prop} (h : Evolves R New rows rows') (hR : ∀ r r', R r r' → R' r r')
    (hnew : ∀ r, New r → New' r) : Evolves R' New' rows rows' := by
  refine ⟨fun r hr => ?_, fun r' hr' => (h.backward r' hr').imp (hnew r') fun ⟨r, hr, hrr⟩ =>
    ⟨r, hr, hR r r' hrr⟩⟩
  obtain ⟨r', hr', hrr⟩ := h.forward r hr
  exact ⟨r', hr', hR r r' hrr⟩

/-- **Changes that follow one another.** -/
theorem Evolves.trans (h : Evolves R New rows rows') (h' : Evolves R New rows' rows'')
    (htrans : ∀ a b c, R a b → R b c → R a c) (hnew : ∀ a b, New a → R a b → New b) :
    Evolves R New rows rows'' := by
  constructor
  · intro r hr
    obtain ⟨r', hr', hrr⟩ := h.forward r hr
    obtain ⟨r'', hr'', hrr'⟩ := h'.forward r' hr'
    exact ⟨r'', hr'', htrans _ _ _ hrr hrr'⟩
  · intro r'' hr''
    rcases h'.backward r'' hr'' with hn | ⟨r', hr', hrr'⟩
    · exact .inl hn
    · rcases h.backward r' hr' with hn | ⟨r, hr, hrr⟩
      · exact .inl (hnew _ _ hn hrr')
      · exact .inr ⟨r, hr, htrans _ _ _ hrr hrr'⟩

end

end HarnessFramework
