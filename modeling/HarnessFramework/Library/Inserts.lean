import HarnessFramework.Library.Interleaving
import Mathlib.Data.List.Pairwise

/-!
# Transactions that insert rows

Transactions that read tables and insert rows into them, side by side, one statement of one session at
a time. A statement sees what is committed and what its own transaction inserted. Rows have unique keys:
a row whose key is taken is refused or, with `on conflict do nothing`, left out, and a row whose key a
transaction that is still open has inserted waits for that transaction. Named locks are held to the
end. Every session may fail at any statement, and rows may change in the background.

A contract says what transactions rely on while others commit: some rows stay as they are, and rows that
are guarded by a lock are inserted by its holder only.

## Main definitions

* `Inserts`, `Inserts.run` — transactions, and their execution at once
* `Inserts.Sees` — a transaction that reads only some of the rows
* `UniqueKeys` — which rows cannot both be there
* `Inserting`, `Inserters`, `Inserters.Step`, `Inserters.Reachable` — sessions side by side
* `InsertContract`, `Inserts.wp` — rely and guarantee

## Main results

* `Inserts.Sees.run_filter` — without the other rows it does the same
* `Inserts.wp_add_bind` and the other `wp_` rules
* `Inserters.Reachable.sound` — under a contract the invariant holds, and calls do what they promise
* `Inserters.Reachable.traced` — rows come from calls
* `Inserters.meets_entryOf` — so does a call that is executed at once
* `Inserters.reachable_run` — a call that is alone runs to its end
-/

namespace HarnessFramework

/-- A transaction that inserts rows `ρ`, takes locks named `ν`, throws `ε` and returns `α`. -/
inductive Inserts (ν ρ ε α : Type) : Type
  /-- Commit and return. -/
  | ret (a : α)
  /-- Roll back and throw. -/
  | throw (e : ε)
  /-- Wait for a named lock and hold it to the end. -/
  | advisory (name : ν) (next : Inserts ν ρ ε α)
  /-- Read the rows. -/
  | read (next : List ρ → Inserts ν ρ ε α)
  /-- Insert a row. -/
  | insert (row : ρ) (next : Inserts ν ρ ε α)
  /-- Insert a row `on conflict do nothing`. -/
  | insertNew (row : ρ) (next : Inserts ν ρ ε α)

/-- Which rows cannot both be there, which of these conflicts `on conflict` names, and what an insert
throws otherwise. -/
structure UniqueKeys (ρ ε : Type) where
  Clash : ρ → ρ → Prop
  Target : ρ → ρ → Prop
  violation : ε
  symm : ∀ r r', Clash r r' → Clash r' r
  target : ∀ r r', Target r r' → Clash r r'

namespace UniqueKeys

variable {ρ ε : Type} (U : UniqueKeys ρ ε)

/-- The keys of the row are free. -/
def Fits (row : ρ) (rows : List ρ) : Prop := ∀ r ∈ rows, ¬ U.Clash row r

/-- There is a row already that `on conflict` leaves as it is. -/
def Present (row : ρ) (rows : List ρ) : Prop := ∃ r ∈ rows, U.Target row r

/-- No two rows clash. -/
def Unclashed (rows : List ρ) : Prop := rows.Pairwise fun r r' => ¬ U.Clash r r'

variable {U} {row : ρ} {rows own : List ρ}

theorem unclashed_append : U.Unclashed (rows ++ own) ↔
    U.Unclashed rows ∧ U.Unclashed own ∧ ∀ r ∈ own, U.Fits r rows := by
  rw [Unclashed, List.pairwise_append]
  refine and_congr_right fun _ => and_congr_right fun _ => ?_
  constructor
  · intro h r hr r' hr' hclash
    exact h r' hr' r hr (U.symm _ _ hclash)
  · intro h r hr r' hr' hclash
    exact h r' hr' r hr (U.symm _ _ hclash)

/-- A row that fits can be added. -/
theorem Unclashed.concat (h : U.Unclashed rows) (hfits : U.Fits row rows) :
    U.Unclashed (rows ++ [row]) :=
  unclashed_append.mpr ⟨h, List.pairwise_singleton _ _, by simpa using hfits⟩

/-- Rows that clash are one row. -/
theorem Unclashed.eq_of_clash (h : U.Unclashed rows) {r r' : ρ} (hr : r ∈ rows) (hr' : r' ∈ rows)
    (hclash : U.Clash r r') : r = r' := by
  by_contra hne
  have : Std.Symm fun r r' => ¬ U.Clash r r' := ⟨fun _ _ hr hbad => hr (U.symm _ _ hbad)⟩
  exact List.Pairwise.forall h hr hr' hne hclash

end UniqueKeys

namespace Inserts

variable {ν ρ ε α β : Type}

/-- Sequencing. -/
def bind : Inserts ν ρ ε α → (α → Inserts ν ρ ε β) → Inserts ν ρ ε β
  | ret a, f => f a
  | throw e, _ => throw e
  | advisory name next, f => advisory name (next.bind f)
  | read next, f => read fun rows => (next rows).bind f
  | insert row next, f => insert row (next.bind f)
  | insertNew row next, f => insertNew row (next.bind f)

instance : Monad (Inserts ν ρ ε) where
  pure := ret
  bind := bind

/-- Wait for a named lock. -/
def advisoryLock (name : ν) : Inserts ν ρ ε Unit := advisory name (ret ())

/-- The rows as they stand. -/
def get : Inserts ν ρ ε (List ρ) := read ret

/-- Insert a row. -/
def add (row : ρ) : Inserts ν ρ ε Unit := insert row (ret ())

/-- Insert a row `on conflict do nothing`. -/
def addNew (row : ρ) : Inserts ν ρ ε Unit := insertNew row (ret ())

/-- Throw `e` unless `p` holds. -/
def require (p : Prop) [Decidable p] (e : ε) : Inserts ν ρ ε Unit := if p then ret () else throw e

/-! ## Execution at once -/

section

variable (U : UniqueKeys ρ ε) [DecidableRel U.Clash] [DecidableRel U.Target]

instance (row : ρ) (rows : List ρ) : Decidable (U.Fits row rows) := by
  unfold UniqueKeys.Fits; infer_instance

instance (row : ρ) (rows : List ρ) : Decidable (U.Present row rows) := by
  unfold UniqueKeys.Present; infer_instance

/-- Execute a transaction at once: what it returns, and the rows that it inserted. -/
def run : Inserts ν ρ ε α → List ρ → List ρ → Except ε (α × List ρ)
  | ret a, _, own => .ok (a, own)
  | throw e, _, _ => .error e
  | advisory _ next, rows, own => next.run rows own
  | read next, rows, own => (next (rows ++ own)).run rows own
  | insert row next, rows, own =>
    if U.Fits row (rows ++ own) then next.run rows (own ++ [row]) else .error U.violation
  | insertNew row next, rows, own =>
    if U.Present row (rows ++ own) then next.run rows own
    else if U.Fits row (rows ++ own) then next.run rows (own ++ [row]) else .error U.violation

end

section

variable {U : UniqueKeys ρ ε} [DecidableRel U.Clash] [DecidableRel U.Target] {rows own : List ρ}
  {a : α × List ρ}

/-- A requirement that is met. -/
theorem run_require_bind_eq_ok {q : Prop} [Decidable q] {e : ε} {f : Unit → Inserts ν ρ ε α} :
    (require q e >>= f).run U rows own = .ok a ↔ q ∧ (f ()).run U rows own = .ok a := by
  by_cases hq : q
  · simp only [require, hq, true_and]
    exact Iff.rfl
  · simp only [require, hq, false_and, iff_false]
    intro h
    cases h

theorem run_advisoryLock_bind {name : ν} {f : Unit → Inserts ν ρ ε α} :
    (advisoryLock name >>= f).run U rows own = (f ()).run U rows own := rfl

theorem run_get_bind {f : List ρ → Inserts ν ρ ε α} :
    (get >>= f).run U rows own = (f (rows ++ own)).run U rows own := rfl

theorem run_add_bind_eq_ok {row : ρ} {f : Unit → Inserts ν ρ ε α} :
    (add row >>= f).run U rows own = .ok a ↔
      U.Fits row (rows ++ own) ∧ (f ()).run U rows (own ++ [row]) = .ok a := by
  change (if U.Fits row (rows ++ own) then (f ()).run U rows (own ++ [row]) else .error U.violation) =
    .ok a ↔ _
  split <;> simp_all

/-- A row that is new is inserted, unless it is there. -/
theorem run_addNew_bind_eq_ok {row : ρ} {f : Unit → Inserts ν ρ ε α}
    (h : (addNew row >>= f).run U rows own = .ok a) :
    (f ()).run U rows own = .ok a ∨ (f ()).run U rows (own ++ [row]) = .ok a := by
  change (if U.Present row (rows ++ own) then (f ()).run U rows own
    else if U.Fits row (rows ++ own) then (f ()).run U rows (own ++ [row]) else .error U.violation) =
      .ok a at h
  split at h
  · exact .inl h
  · split at h
    · exact .inr h
    · cases h

end

/-! ## What a transaction sees -/

/-- The transaction reads only what `keep` keeps of the rows, and inserts rows that satisfy `Q`. -/
def Sees (keep : ρ → Bool) (Q : ρ → Prop) : Inserts ν ρ ε α → Prop
  | ret _ | throw _ => True
  | advisory _ next => next.Sees keep Q
  | read next => (∀ rows, next (rows.filter keep) = next rows) ∧ ∀ rows, (next rows).Sees keep Q
  | insert row next | insertNew row next => Q row ∧ next.Sees keep Q

section

variable {keep : ρ → Bool} {Q : ρ → Prop} {p : Inserts ν ρ ε α} {rows own : List ρ}

theorem sees_require_bind {q : Prop} [Decidable q] {e : ε} {f : Unit → Inserts ν ρ ε α}
    (h : q → (f ()).Sees keep Q) : (require q e >>= f).Sees keep Q := by
  by_cases hq : q
  · rw [require, if_pos hq]
    exact h hq
  · rw [require, if_neg hq]
    trivial

theorem sees_get_bind {f : List ρ → Inserts ν ρ ε α} (hf : ∀ rows, f (rows.filter keep) = f rows)
    (h : ∀ rows, (f rows).Sees keep Q) : (get >>= f).Sees keep Q := ⟨hf, h⟩

variable {U : UniqueKeys ρ ε}

/-- A key is free with or without rows that do not take it. -/
theorem fits_filter {row : ρ} (h : ∀ r ∈ rows, keep r = false → ¬ U.Clash row r) :
    U.Fits row (rows.filter keep ++ own) ↔ U.Fits row (rows ++ own) := by
  simp only [UniqueKeys.Fits, List.mem_append, List.mem_filter]
  constructor
  · rintro hfits r (hr | hr)
    · cases hk : keep r with
      | false => exact h r hr hk
      | true => exact hfits r (.inl ⟨hr, hk⟩)
    · exact hfits r (.inr hr)
  · rintro hfits r (⟨hr, -⟩ | hr)
    · exact hfits r (.inl hr)
    · exact hfits r (.inr hr)

theorem present_filter {row : ρ} (h : ∀ r ∈ rows, keep r = false → ¬ U.Clash row r) :
    U.Present row (rows.filter keep ++ own) ↔ U.Present row (rows ++ own) := by
  simp only [UniqueKeys.Present, List.mem_append, List.mem_filter]
  constructor
  · rintro ⟨r, ⟨hr, -⟩ | hr, ht⟩
    · exact ⟨r, .inl hr, ht⟩
    · exact ⟨r, .inr hr, ht⟩
  · rintro ⟨r, hr | hr, ht⟩
    · cases hk : keep r with
      | false => exact absurd (U.target _ _ ht) (h r hr hk)
      | true => exact ⟨r, .inl ⟨hr, hk⟩, ht⟩
    · exact ⟨r, .inr hr, ht⟩

variable [DecidableRel U.Clash] [DecidableRel U.Target]

/-- It inserts such rows. -/
theorem Sees.run (h : p.Sees keep Q) (hown : ∀ r ∈ own, Q r) {a : α} {own' : List ρ}
    (hrun : p.run U rows own = .ok (a, own')) : ∀ r ∈ own', Q r := by
  induction p generalizing own with
  | ret b =>
    cases hrun
    exact hown
  | throw e => cases hrun
  | advisory name next ih => exact ih h hown hrun
  | read next ih => exact ih _ (h.2 _) hown hrun
  | insert row next ih =>
    have hrow : ∀ r ∈ own ++ [row], Q r := by simpa [or_imp, forall_and, h.1] using hown
    rw [Inserts.run] at hrun
    split at hrun
    · exact ih h.2 hrow hrun
    · cases hrun
  | insertNew row next ih =>
    have hrow : ∀ r ∈ own ++ [row], Q r := by simpa [or_imp, forall_and, h.1] using hown
    rw [Inserts.run] at hrun
    split at hrun
    · exact ih h.2 hown hrun
    · split at hrun
      · exact ih h.2 hrow hrun
      · cases hrun

/-- **It does the same without the rows that it does not see**, unless one of those takes a key. -/
theorem Sees.run_filter (h : p.Sees keep Q) (hkeep : ∀ r, Q r → keep r = true)
    (hclash : ∀ row, Q row → ∀ r ∈ rows, keep r = false → ¬ U.Clash row r) (hown : ∀ r ∈ own, Q r) :
    p.run U (rows.filter keep) own = p.run U rows own := by
  induction p generalizing own with
  | ret b => rfl
  | throw e => rfl
  | advisory name next ih => exact ih h hown
  | read next ih =>
    have hall : own.filter keep = own := List.filter_eq_self.mpr fun r hr => hkeep r (hown r hr)
    have hread : next (rows.filter keep ++ own) = next (rows ++ own) := by
      rw [← h.1 (rows ++ own), List.filter_append, hall]
    rw [Inserts.run, Inserts.run, hread]
    exact ih _ (h.2 _) hown
  | insert row next ih =>
    have hrow : ∀ r ∈ own ++ [row], Q r := by simpa [or_imp, forall_and, h.1] using hown
    rw [Inserts.run, Inserts.run, ih h.2 hrow]
    simp only [fits_filter (hclash row h.1)]
  | insertNew row next ih =>
    have hrow : ∀ r ∈ own ++ [row], Q r := by simpa [or_imp, forall_and, h.1] using hown
    rw [Inserts.run, Inserts.run, ih h.2 hown, ih h.2 hrow]
    simp only [fits_filter (hclash row h.1), present_filter (hclash row h.1)]

end

end Inserts

/-! ## Sessions -/

/-- A session: its call, what is left of the transaction, the rows it inserted and its locks. -/
structure Inserting (ν C ρ ε α : Type) where
  call : C
  rest : Inserts ν ρ ε α
  own : List ρ
  names : List ν

/-- Sessions side by side over rows. -/
structure Inserters (ι ν C ρ ε α : Type) where
  rows : List ρ
  log : List (Entry C (List ρ) ε α)
  session : ι → Option (Inserting ν C ρ ε α)

namespace Inserters

variable {ι ν C ρ ε α : Type} [DecidableEq ι]

/-- The session `i` goes on as `x`. -/
def put (s : Inserters ι ν C ρ ε α) (i : ι) (x : Inserting ν C ρ ε α) : Inserters ι ν C ρ ε α :=
  { s with session := Function.update s.session i (some x) }

/-- The session `i` ends. -/
def drop (s : Inserters ι ν C ρ ε α) (i : ι) : Inserters ι ν C ρ ε α :=
  { s with session := Function.update s.session i none }

/-- The session `i` ends, and its call is answered. -/
def finish (s : Inserters ι ν C ρ ε α) (i : ι) (c : C) (result : Except ε α) (own : List ρ) :
    Inserters ι ν C ρ ε α where
  rows := s.rows ++ own
  log := s.log ++ [⟨c, result, s.rows, s.rows ++ own⟩]
  session := Function.update s.session i none

/-- No other session has inserted a row that clashes. -/
def Free (U : UniqueKeys ρ ε) (s : Inserters ι ν C ρ ε α) (i : ι) (row : ρ) : Prop :=
  ∀ j y, s.session j = some y → j ≠ i → U.Fits row y.own

/-- One statement of one session, a failure, or a change in the background. -/
inductive Step (txn : C → Inserts ν ρ ε α) (U : UniqueKeys ρ ε) (change : ρ → ρ → Prop) :
    Inserters ι ν C ρ ε α → Inserters ι ν C ρ ε α → Prop
  | begin (s) (i c) : s.session i = none → Step txn U change s (s.put i ⟨c, txn c, [], []⟩)
  | advisory (s) (i x name next) : s.session i = some x → x.rest = .advisory name next →
      (∀ j y, s.session j = some y → j ≠ i → name ∉ y.names) →
      Step txn U change s (s.put i { x with rest := next, names := name :: x.names })
  | read (s) (i x next) : s.session i = some x → x.rest = .read next →
      Step txn U change s (s.put i { x with rest := next (s.rows ++ x.own) })
  | insert (s) (i x row next) : s.session i = some x → x.rest = .insert row next →
      U.Fits row (s.rows ++ x.own) → s.Free U i row →
      Step txn U change s (s.put i { x with rest := next, own := x.own ++ [row] })
  | refuse (s) (i x row next) : s.session i = some x → x.rest = .insert row next →
      ¬ U.Fits row (s.rows ++ x.own) →
      Step txn U change s (s.finish i x.call (.error U.violation) [])
  | skip (s) (i x row next) : s.session i = some x → x.rest = .insertNew row next →
      U.Present row (s.rows ++ x.own) → Step txn U change s (s.put i { x with rest := next })
  | insertNew (s) (i x row next) : s.session i = some x → x.rest = .insertNew row next →
      U.Fits row (s.rows ++ x.own) → s.Free U i row →
      Step txn U change s (s.put i { x with rest := next, own := x.own ++ [row] })
  | refuseNew (s) (i x row next) : s.session i = some x → x.rest = .insertNew row next →
      ¬ U.Present row (s.rows ++ x.own) → ¬ U.Fits row (s.rows ++ x.own) →
      Step txn U change s (s.finish i x.call (.error U.violation) [])
  | commit (s) (i x a) : s.session i = some x → x.rest = .ret a →
      Step txn U change s (s.finish i x.call (.ok a) x.own)
  | rollback (s) (i x e) : s.session i = some x → x.rest = .throw e →
      Step txn U change s (s.finish i x.call (.error e) [])
  /-- The database, the connection or the process fails. -/
  | fail (s) (i x) : s.session i = some x → Step txn U change s (s.drop i)
  | change (s) (before row row' after) : s.rows = before ++ row :: after → change row row' →
      Step txn U change s { s with rows := before ++ row' :: after }

/-- The states that sessions side by side reach. -/
inductive Reachable (txn : C → Inserts ν ρ ε α) (U : UniqueKeys ρ ε) (change : ρ → ρ → Prop) :
    Inserters ι ν C ρ ε α → Prop
  | start : Reachable txn U change ⟨[], [], fun _ => none⟩
  | step {s s'} : Reachable txn U change s → Step txn U change s s' → Reachable txn U change s'

end Inserters

/-! ## Contracts -/

/-- What transactions rely on, and what they promise: the lock that guards a row, the rows that stay as
they are, what holds of the rows, and what a call does when it returns or throws. -/
structure InsertContract (ν C ρ ε α : Type) where
  guard : ρ → Option ν
  Stays : ρ → Prop
  Invariant : List ρ → Prop
  Returns : C → List ρ → α → List ρ → Prop
  Throws : C → List ρ → ε → Prop

namespace InsertContract

variable {ν C ρ ε α : Type} (K : InsertContract ν C ρ ε α)

/-- The locks that guard the row are held. -/
def Guarded (names : List ν) (row : ρ) : Prop := ∀ name ∈ K.guard row, name ∈ names

/-- Rows that stay are there later, and there are no new rows under the locks. -/
structure Later (names : List ν) (rows rows' : List ρ) : Prop where
  stays : ∀ r ∈ rows, K.Stays r → r ∈ rows'
  guarded : ∀ r ∈ rows', ∀ name ∈ K.guard r, name ∈ names → r ∈ rows

variable {K} {names : List ν} {rows rows' rows'' : List ρ}

theorem Later.refl : K.Later names rows rows := ⟨fun _ hr _ => hr, fun _ hr _ _ _ => hr⟩

theorem Later.trans (h : K.Later names rows rows') (h' : K.Later names rows' rows'') :
    K.Later names rows rows'' where
  stays := fun r hr hstays => h'.stays r (h.stays r hr hstays) hstays
  guarded := fun r hr name hname hmem =>
    h.guarded r (h'.guarded r hr name hname hmem) name hname hmem

end InsertContract

namespace Inserts

variable {ν C ρ ε α β : Type} (K : InsertContract ν C ρ ε α) (U : UniqueKeys ρ ε)

/-- **Whatever others commit in between, the transaction holds the locks that its rows need, and what it
returns or throws is as promised.** -/
def wp {β : Type} (Q : β → List ν → List ρ → List ρ → Prop) (E : List ρ → ε → Prop) :
    Inserts ν ρ ε β → List ν → List ρ → List ρ → Prop
  | ret b, names, own, rows => ∀ rows', K.Later names rows rows' → K.Invariant rows' →
      Q b names own rows'
  | throw e, names, _, rows => ∀ rows', K.Later names rows rows' → K.Invariant rows' → E rows' e
  | advisory name next, names, own, rows => ∀ rows', K.Later names rows rows' → K.Invariant rows' →
      next.wp Q E (name :: names) own rows'
  | read next, names, own, rows => ∀ rows', K.Later names rows rows' → K.Invariant rows' →
      (next (rows' ++ own)).wp Q E names own rows'
  | insert row next, names, own, rows => K.Guarded names row ∧
      ∀ rows', K.Later names rows rows' → K.Invariant rows' →
        (U.Fits row (rows' ++ own) → next.wp Q E names (own ++ [row]) rows') ∧
        (¬ U.Fits row (rows' ++ own) → E rows' U.violation)
  | insertNew row next, names, own, rows => K.Guarded names row ∧
      ∀ rows', K.Later names rows rows' → K.Invariant rows' →
        (U.Present row (rows' ++ own) → next.wp Q E names own rows') ∧
        (U.Fits row (rows' ++ own) → next.wp Q E names (own ++ [row]) rows') ∧
        (¬ U.Present row (rows' ++ own) → ¬ U.Fits row (rows' ++ own) → E rows' U.violation)

variable {K U} {Q : β → List ν → List ρ → List ρ → Prop} {E : List ρ → ε → Prop}
  {p : Inserts ν ρ ε β} {names : List ν} {own rows rows' : List ρ}

/-- What others commit does not invalidate a transaction. -/
theorem wp_later (h : p.wp K U Q E names own rows) (hlater : K.Later names rows rows') :
    p.wp K U Q E names own rows' := by
  cases p with
  | ret b => exact fun rows'' h' => h rows'' (hlater.trans h')
  | throw e => exact fun rows'' h' => h rows'' (hlater.trans h')
  | advisory name next => exact fun rows'' h' => h rows'' (hlater.trans h')
  | read next => exact fun rows'' h' => h rows'' (hlater.trans h')
  | insert row next => exact ⟨h.1, fun rows'' h' => h.2 rows'' (hlater.trans h')⟩
  | insertNew row next => exact ⟨h.1, fun rows'' h' => h.2 rows'' (hlater.trans h')⟩

variable {γ : Type} {f : Unit → Inserts ν ρ ε γ} {g : List ρ → Inserts ν ρ ε γ}
  {Q' : γ → List ν → List ρ → List ρ → Prop}

theorem wp_require_bind {q : Prop} [Decidable q] {e : ε} (hpos : q → (f ()).wp K U Q' E names own rows)
    (hneg : ¬ q → ∀ rows', K.Later names rows rows' → K.Invariant rows' → E rows' e) :
    (require q e >>= f).wp K U Q' E names own rows := by
  rw [require]
  split
  · next hq => exact hpos hq
  · next hq => exact hneg hq

theorem wp_advisoryLock_bind {name : ν} (h : ∀ rows', K.Later names rows rows' → K.Invariant rows' →
    (f ()).wp K U Q' E (name :: names) own rows') :
    (advisoryLock name >>= f).wp K U Q' E names own rows := h

theorem wp_get_bind (h : ∀ rows', K.Later names rows rows' → K.Invariant rows' →
    (g (rows' ++ own)).wp K U Q' E names own rows') : (get >>= g).wp K U Q' E names own rows := h

theorem wp_add_bind {row : ρ} (hguarded : K.Guarded names row)
    (hfits : ∀ rows', K.Later names rows rows' → K.Invariant rows' → U.Fits row (rows' ++ own) →
      (f ()).wp K U Q' E names (own ++ [row]) rows')
    (hclash : ∀ rows', K.Later names rows rows' → K.Invariant rows' → ¬ U.Fits row (rows' ++ own) →
      E rows' U.violation) : (add row >>= f).wp K U Q' E names own rows :=
  ⟨hguarded, fun rows' hlater hrows => ⟨hfits rows' hlater hrows, hclash rows' hlater hrows⟩⟩

theorem wp_addNew_bind {row : ρ} (hguarded : K.Guarded names row)
    (hpresent : ∀ rows', K.Later names rows rows' → K.Invariant rows' → U.Present row (rows' ++ own) →
      (f ()).wp K U Q' E names own rows')
    (hfits : ∀ rows', K.Later names rows rows' → K.Invariant rows' → U.Fits row (rows' ++ own) →
      (f ()).wp K U Q' E names (own ++ [row]) rows')
    (hclash : ∀ rows', K.Later names rows rows' → K.Invariant rows' → ¬ U.Fits row (rows' ++ own) →
      E rows' U.violation) : (addNew row >>= f).wp K U Q' E names own rows :=
  ⟨hguarded, fun rows' hlater hrows => ⟨hpresent rows' hlater hrows, hfits rows' hlater hrows,
    fun _ => hclash rows' hlater hrows⟩⟩

theorem wp_pure {b : β} (h : ∀ rows', K.Later names rows rows' → K.Invariant rows' → Q b names own rows') :
    (pure b : Inserts ν ρ ε β).wp K U Q E names own rows := h

/-- What a transaction that is executed at once returns or throws. -/
theorem wp_run [DecidableRel U.Clash] [DecidableRel U.Target] (h : p.wp K U Q E names own rows)
    (hrows : K.Invariant rows) : match p.run U rows own with
      | .ok (b, own') => ∃ names', Q b names' own' rows
      | .error e => E rows e := by
  induction p generalizing names own with
  | ret b => exact ⟨names, h rows .refl hrows⟩
  | throw e => exact h rows .refl hrows
  | advisory name next ih => exact ih (h rows .refl hrows)
  | read next ih => exact ih _ (h rows .refl hrows)
  | insert row next ih =>
    rw [run]
    by_cases hfits : U.Fits row (rows ++ own)
    · rw [if_pos hfits]
      exact ih ((h.2 rows .refl hrows).1 hfits)
    · rw [if_neg hfits]
      exact (h.2 rows .refl hrows).2 hfits
  | insertNew row next ih =>
    obtain ⟨hskip, hinsert, hclash⟩ := h.2 rows .refl hrows
    rw [run]
    by_cases hpresent : U.Present row (rows ++ own)
    · rw [if_pos hpresent]
      exact ih (hskip hpresent)
    · rw [if_neg hpresent]
      by_cases hfits : U.Fits row (rows ++ own)
      · rw [if_pos hfits]
        exact ih (hinsert hfits)
      · rw [if_neg hfits]
        exact hclash hpresent hfits

end Inserts

namespace InsertContract

variable {ν C ρ ε α : Type} (K : InsertContract ν C ρ ε α) (U : UniqueKeys ρ ε)

/-- Calls keep the contract, and so do changes in the background. -/
structure Valid (txn : C → Inserts ν ρ ε α) (change : ρ → ρ → Prop) : Prop where
  start : K.Invariant []
  changes : ∀ row row', change row row' →
    ¬ K.Stays row ∧ K.guard row' = none ∧ ∀ r, U.Clash row' r → U.Clash row r
  background : ∀ before row row' after, change row row' → U.Unclashed (before ++ row' :: after) →
    K.Invariant (before ++ row :: after) → K.Invariant (before ++ row' :: after)
  commit : ∀ call rows a own, K.Invariant rows → U.Unclashed (rows ++ own) →
    K.Returns call rows a own → K.Invariant (rows ++ own)
  calls : ∀ call rows, K.Invariant rows →
    (txn call).wp K U (fun a _ own rows => K.Returns call rows a own) (K.Throws call) [] [] rows

/-- What a call that is answered did to the rows. -/
def Meets (e : Entry C (List ρ) ε α) : Prop :=
  K.Invariant e.before ∧ match e.result with
  | .ok a => ∃ own, e.after = e.before ++ own ∧ K.Returns e.call e.before a own
  | .error err => e.after = e.before ∧ K.Throws e.call e.before err

/-- A session that keeps to the contract. -/
structure Keeps (rows : List ρ) (x : Inserting ν C ρ ε α) : Prop where
  unclashed : U.Unclashed x.own
  fits : ∀ r ∈ x.own, U.Fits r rows
  guarded : ∀ r ∈ x.own, K.Guarded x.names r
  valid : x.rest.wp K U (fun a _ own rows => K.Returns x.call rows a own) (K.Throws x.call)
    x.names x.own rows

end InsertContract

namespace Inserters

variable {ι ν C ρ ε α : Type} [DecidableEq ι] {K : InsertContract ν C ρ ε α} {U : UniqueKeys ρ ε}
  {txn : C → Inserts ν ρ ε α} {change : ρ → ρ → Prop} {s s' : Inserters ι ν C ρ ε α}

/-- Neither rows nor locks of two sessions clash. -/
structure Apart (U : UniqueKeys ρ ε) (x y : Inserting ν C ρ ε α) : Prop where
  own : ∀ r ∈ x.own, U.Fits r y.own
  names : ∀ name ∈ x.names, name ∉ y.names

theorem Apart.symm {x y : Inserting ν C ρ ε α} (h : Apart U x y) : Apart U y x where
  own := fun r hr r' hr' hclash => h.own r' hr' r hr (U.symm _ _ hclash)
  names := fun name hy hx => h.names name hx hy

/-- What holds under a contract: of the rows, of the sessions and of the calls that were answered. -/
structure Sound (K : InsertContract ν C ρ ε α) (U : UniqueKeys ρ ε) (s : Inserters ι ν C ρ ε α) :
    Prop where
  invariant : K.Invariant s.rows
  unclashed : U.Unclashed s.rows
  keeps : ∀ i x, s.session i = some x → K.Keeps U s.rows x
  apart : ∀ i j x y, s.session i = some x → s.session j = some y → i ≠ j → Apart U x y
  meets : ∀ e ∈ s.log, K.Meets e
  logged : s.log.Pairwise fun e e' => K.Later [] e.after e'.before
  later : ∀ e ∈ s.log, K.Later [] e.after s.rows

/-! ### One step -/

/-- A session goes on. -/
theorem Sound.put (h : Sound K U s) {i : ι} {x : Inserting ν C ρ ε α} (hkeeps : K.Keeps U s.rows x)
    (hapart : ∀ j y, s.session j = some y → j ≠ i → Apart U x y) : Sound K U (s.put i x) where
  invariant := h.invariant
  unclashed := h.unclashed
  keeps := by
    intro j y hy
    simp only [Inserters.put, Function.update_apply] at hy
    split at hy
    · obtain rfl := Option.some_inj.mp hy
      exact hkeeps
    · exact h.keeps j y hy
  apart := by
    intro j k y z hy hz hne
    simp only [Inserters.put, Function.update_apply] at hy hz
    split at hy <;> split at hz
    · next hj hk => exact absurd (hj.trans hk.symm) hne
    · next hj hk =>
      obtain rfl := Option.some_inj.mp hy
      exact hapart k z hz hk
    · next hj hk =>
      obtain rfl := Option.some_inj.mp hz
      exact (hapart j y hy hj).symm
    · exact h.apart j k y z hy hz hne
  meets := h.meets
  logged := h.logged
  later := h.later

/-- A session fails. -/
theorem Sound.drop (h : Sound K U s) (i : ι) : Sound K U (s.drop i) where
  invariant := h.invariant
  unclashed := h.unclashed
  keeps := by
    intro j y hy
    simp only [Inserters.drop, Function.update_apply] at hy
    split at hy
    · cases hy
    · exact h.keeps j y hy
  apart := by
    intro j k y z hy hz hne
    simp only [Inserters.drop, Function.update_apply] at hy hz
    split at hy
    · cases hy
    · split at hz
      · cases hz
      · exact h.apart j k y z hy hz hne
  meets := h.meets
  logged := h.logged
  later := h.later

omit [DecidableEq ι] in
/-- What others insert does not come under the locks of a session. -/
theorem Sound.later_own (h : Sound K U s) {i j : ι} {x y : Inserting ν C ρ ε α}
    (hx : s.session i = some x) (hy : s.session j = some y) (hne : j ≠ i) {own : List ρ}
    (hown : ∀ r ∈ own, r ∈ x.own) : K.Later y.names s.rows (s.rows ++ own) where
  stays := fun r hr _ => List.mem_append_left _ hr
  guarded := by
    intro r hr name hname hmem
    rcases List.mem_append.mp hr with hr | hr
    · exact hr
    · have hheld := (h.keeps i x hx).guarded r (hown r hr) name hname
      exact absurd hheld ((h.apart j i y x hy hx hne).names name hmem)

/-- A session ends, with all of its rows or with none. -/
theorem Sound.finish (h : Sound K U s) {i : ι} {x : Inserting ν C ρ ε α} (hx : s.session i = some x)
    {result : Except ε α} {own : List ρ} (hown : own = x.own ∨ own = [])
    (hinvariant : K.Invariant (s.rows ++ own))
    (hmeets : K.Meets ⟨x.call, result, s.rows, s.rows ++ own⟩) :
    Sound K U (s.finish i x.call result own) := by
  have hsub : ∀ r ∈ own, r ∈ x.own := by
    rcases hown with rfl | rfl
    · exact fun r hr => hr
    · exact nofun
  have hkeeps := h.keeps i x hx
  have hlater : K.Later [] s.rows (s.rows ++ own) :=
    ⟨fun r hr _ => List.mem_append_left _ hr, fun _ _ _ _ => nofun⟩
  refine ⟨hinvariant, ?_, ?_, ?_, ?_, ?_, ?_⟩
  · rcases hown with rfl | rfl
    · exact UniqueKeys.unclashed_append.mpr ⟨h.unclashed, hkeeps.unclashed, hkeeps.fits⟩
    · show U.Unclashed (s.rows ++ [])
      rw [List.append_nil]
      exact h.unclashed
  · intro j y hy
    simp only [Inserters.finish, Function.update_apply] at hy
    split at hy
    · cases hy
    · next hne =>
      have hkeeps' := h.keeps j y hy
      refine ⟨hkeeps'.unclashed, ?_, hkeeps'.guarded, ?_⟩
      · intro r hr r' hr'
        rcases List.mem_append.mp hr' with hr' | hr'
        · exact hkeeps'.fits r hr r' hr'
        · exact (h.apart j i y x hy hx hne).own r hr r' (hsub r' hr')
      · exact Inserts.wp_later hkeeps'.valid (h.later_own hx hy hne hsub)
  · intro j k y z hy hz hne
    simp only [Inserters.finish, Function.update_apply] at hy hz
    split at hy
    · cases hy
    · split at hz
      · cases hz
      · exact h.apart j k y z hy hz hne
  · intro e he
    rcases List.mem_append.mp he with he | he
    · exact h.meets e he
    · obtain rfl := List.mem_singleton.mp he
      exact hmeets
  · refine List.pairwise_append.mpr ⟨h.logged, List.pairwise_singleton _ _, ?_⟩
    intro e he e' he'
    obtain rfl := List.mem_singleton.mp he'
    exact h.later e he
  · intro e he
    rcases List.mem_append.mp he with he | he
    · exact (h.later e he).trans hlater
    · obtain rfl := List.mem_singleton.mp he
      exact .refl

omit [DecidableEq ι] in
/-- A row changes in the background. -/
theorem Sound.background (hvalid : K.Valid U txn change) (h : Sound K U s) {before after : List ρ}
    {row row' : ρ} (hrows : s.rows = before ++ row :: after) (hchange : change row row') :
    Sound K U { s with rows := before ++ row' :: after } := by
  obtain ⟨hstays, hguard, hclash⟩ := hvalid.changes row row' hchange
  have hmem : ∀ r ∈ before ++ row' :: after, r = row' ∨ r ∈ s.rows := by
    intro r hr
    rw [hrows]
    simp only [List.mem_append, List.mem_cons] at hr ⊢
    tauto
  have hlater : ∀ names, K.Later names s.rows (before ++ row' :: after) := by
    refine fun names => ⟨fun r hr hrstays => ?_, fun r hr name hname _ => ?_⟩
    · rw [hrows] at hr
      have hne : r ≠ row := by
        rintro rfl
        exact hstays hrstays
      simp only [List.mem_append, List.mem_cons] at hr ⊢
      tauto
    · rcases hmem r hr with rfl | hr
      · rw [hguard] at hname
        cases hname
      · exact hr
  have hfits : ∀ r, U.Fits r s.rows → U.Fits r (before ++ row' :: after) := by
    intro r hr r' hr' hbad
    rcases hmem r' hr' with rfl | hr'
    · exact hr row (hrows ▸ List.mem_append_right _ List.mem_cons_self)
        (U.symm _ _ (hclash r (U.symm _ _ hbad)))
    · exact hr r' hr' hbad
  have hunclashed' : U.Unclashed (before ++ row' :: after) := by
    have hunclashed : U.Unclashed (before ++ row :: after) := hrows ▸ h.unclashed
    rw [UniqueKeys.Unclashed, List.pairwise_append, List.pairwise_cons] at hunclashed
    obtain ⟨hbefore, ⟨hrow, hafter⟩, hacross⟩ := hunclashed
    rw [UniqueKeys.Unclashed, List.pairwise_append, List.pairwise_cons]
    refine ⟨hbefore, ⟨fun r hr hbad => hrow r hr (hclash r hbad), hafter⟩, fun r hr r' hr' hbad => ?_⟩
    rcases List.mem_cons.mp hr' with rfl | hr'
    · exact hacross r hr row List.mem_cons_self (U.symm _ _ (hclash r (U.symm _ _ hbad)))
    · exact hacross r hr r' (List.mem_cons_of_mem _ hr') hbad
  refine ⟨hvalid.background before row row' after hchange hunclashed' (hrows ▸ h.invariant), hunclashed',
    fun i x hx => ?_, h.apart, h.meets, h.logged, fun e he => (h.later e he).trans (hlater [])⟩
  have hkeeps := h.keeps i x hx
  exact ⟨hkeeps.unclashed, fun r hr => hfits r (hkeeps.fits r hr), hkeeps.guarded,
    Inserts.wp_later hkeeps.valid (hlater _)⟩

/-- A session inserts a row. -/
theorem Sound.insert (h : Sound K U s) {i : ι} {x : Inserting ν C ρ ε α} (hx : s.session i = some x)
    {row : ρ} {next : Inserts ν ρ ε α} (hguarded : K.Guarded x.names row)
    (hfits : U.Fits row (s.rows ++ x.own)) (hfree : s.Free U i row)
    (hnext : next.wp K U (fun a _ own rows => K.Returns x.call rows a own) (K.Throws x.call)
      x.names (x.own ++ [row]) s.rows) :
    Sound K U (s.put i { x with rest := next, own := x.own ++ [row] }) := by
  have hkeeps := h.keeps i x hx
  refine h.put ⟨?_, ?_, ?_, hnext⟩ fun j y hy hne => ⟨?_, (h.apart i j x y hx hy (Ne.symm hne)).names⟩
  · exact hkeeps.unclashed.concat fun r hr => hfits r (List.mem_append_right _ hr)
  · intro r hr
    rcases List.mem_append.mp hr with hr | hr
    · exact hkeeps.fits r hr
    · obtain rfl := List.mem_singleton.mp hr
      exact fun r' hr' => hfits r' (List.mem_append_left _ hr')
  · intro r hr
    rcases List.mem_append.mp hr with hr | hr
    · exact hkeeps.guarded r hr
    · obtain rfl := List.mem_singleton.mp hr
      exact hguarded
  · intro r hr
    rcases List.mem_append.mp hr with hr | hr
    · exact (h.apart i j x y hx hy (Ne.symm hne)).own r hr
    · obtain rfl := List.mem_singleton.mp hr
      exact hfree j y hy hne

/-- A session ends with an error. -/
theorem Sound.throws (h : Sound K U s) {i : ι} {x : Inserting ν C ρ ε α} (hx : s.session i = some x)
    {e : ε} (hthrows : K.Throws x.call s.rows e) : Sound K U (s.finish i x.call (.error e) []) := by
  refine h.finish hx (.inr rfl) ?_ ⟨h.invariant, List.append_nil _, hthrows⟩
  rw [List.append_nil]
  exact h.invariant

theorem Sound.step (hvalid : K.Valid U txn change) (h : Sound K U s) (hstep : Step txn U change s s') :
    Sound K U s' := by
  cases hstep with
  | begin i c hnone =>
    refine h.put ⟨List.Pairwise.nil, nofun, nofun, hvalid.calls c s.rows h.invariant⟩ fun j y hy hne => ?_
    exact ⟨nofun, nofun⟩
  | advisory i x name next hx hrest hfree =>
    have hkeeps := h.keeps i x hx
    have hwp := hkeeps.valid
    rw [hrest] at hwp
    refine h.put ⟨hkeeps.unclashed, hkeeps.fits, fun r hr name' hname' => ?_, ?_⟩ fun j y hy hne => ?_
    · exact List.mem_cons_of_mem _ (hkeeps.guarded r hr name' hname')
    · exact hwp s.rows .refl h.invariant
    · have hapart := h.apart i j x y hx hy (Ne.symm hne)
      refine ⟨hapart.own, fun name' hname' => ?_⟩
      rcases List.mem_cons.mp hname' with rfl | hname'
      · exact hfree j y hy hne
      · exact hapart.names name' hname'
  | read i x next hx hrest =>
    have hkeeps := h.keeps i x hx
    have hwp := hkeeps.valid
    rw [hrest] at hwp
    refine h.put ⟨hkeeps.unclashed, hkeeps.fits, hkeeps.guarded, hwp s.rows .refl h.invariant⟩ ?_
    intro j y hy hne
    obtain ⟨hown, hnames⟩ := h.apart i j x y hx hy (Ne.symm hne)
    exact ⟨hown, hnames⟩
  | insert i x row next hx hrest hfits hfree =>
    have hwp := (h.keeps i x hx).valid
    rw [hrest] at hwp
    exact h.insert hx hwp.1 hfits hfree ((hwp.2 s.rows .refl h.invariant).1 hfits)
  | refuse i x row next hx hrest hfits =>
    have hwp := (h.keeps i x hx).valid
    rw [hrest] at hwp
    exact h.throws hx ((hwp.2 s.rows .refl h.invariant).2 hfits)
  | skip i x row next hx hrest hpresent =>
    have hkeeps := h.keeps i x hx
    have hwp := hkeeps.valid
    rw [hrest] at hwp
    refine h.put ⟨hkeeps.unclashed, hkeeps.fits, hkeeps.guarded,
      (hwp.2 s.rows .refl h.invariant).1 hpresent⟩ fun j y hy hne => ?_
    obtain ⟨hown, hnames⟩ := h.apart i j x y hx hy (Ne.symm hne)
    exact ⟨hown, hnames⟩
  | insertNew i x row next hx hrest hfits hfree =>
    have hwp := (h.keeps i x hx).valid
    rw [hrest] at hwp
    exact h.insert hx hwp.1 hfits hfree ((hwp.2 s.rows .refl h.invariant).2.1 hfits)
  | refuseNew i x row next hx hrest hpresent hfits =>
    have hwp := (h.keeps i x hx).valid
    rw [hrest] at hwp
    exact h.throws hx ((hwp.2 s.rows .refl h.invariant).2.2 hpresent hfits)
  | commit i x a hx hrest =>
    have hkeeps := h.keeps i x hx
    have hwp := hkeeps.valid
    rw [hrest] at hwp
    have hreturns := hwp s.rows .refl h.invariant
    have hunclashed := UniqueKeys.unclashed_append.mpr ⟨h.unclashed, hkeeps.unclashed, hkeeps.fits⟩
    exact h.finish hx (.inl rfl) (hvalid.commit _ _ _ _ h.invariant hunclashed hreturns)
      ⟨h.invariant, x.own, rfl, hreturns⟩
  | rollback i x e hx hrest =>
    have hwp := (h.keeps i x hx).valid
    rw [hrest] at hwp
    exact h.throws hx (hwp s.rows .refl h.invariant)
  | fail i x hx => exact h.drop i
  | change before row row' after hrows hchange => exact h.background hvalid hrows hchange

/-- **Under a contract the invariant holds in every interleaving, and calls do what they promise.** -/
theorem Reachable.sound (hvalid : K.Valid U txn change) (h : Reachable txn U change s) : Sound K U s := by
  induction h with
  | start =>
    exact ⟨hvalid.start, List.Pairwise.nil, nofun, nofun, nofun, List.Pairwise.nil, nofun⟩
  | step _ hstep ih => exact ih.step hvalid hstep

/-! ### Where rows come from -/

/-- The call inserted the row. -/
def Inserted (e : Entry C (List ρ) ε α) (r : ρ) : Prop := ∃ own, e.after = e.before ++ own ∧ r ∈ own

/-- Every row that satisfies `P` was inserted by a call, and before the calls that found it. -/
structure Traced (P : ρ → Prop) (s : Inserters ι ν C ρ ε α) : Prop where
  rows : ∀ r ∈ s.rows, P r → ∃ e ∈ s.log, Inserted e r
  before : ∀ earlier e later, s.log = earlier ++ e :: later → ∀ r ∈ e.before, P r →
    ∃ e' ∈ earlier, Inserted e' r

theorem Traced.finish {P : ρ → Prop} (h : Traced P s) (i : ι) (c : C) (result : Except ε α)
    (own : List ρ) : Traced P (s.finish i c result own) where
  rows := by
    intro r hr hp
    rcases List.mem_append.mp hr with hr | hr
    · obtain ⟨e, he, hinserted⟩ := h.rows r hr hp
      exact ⟨e, List.mem_append_left _ he, hinserted⟩
    · exact ⟨_, List.mem_append_right _ (List.mem_singleton_self _), own, rfl, hr⟩
  before := by
    intro earlier e later hlog r hr hp
    rcases List.eq_nil_or_concat later with rfl | ⟨later, last, rfl⟩
    · obtain ⟨rfl, hlast⟩ := List.append_inj' hlog rfl
      obtain rfl := (List.cons.inj hlast).1
      exact h.rows r hr hp
    · rw [List.concat_eq_append, ← List.cons_append, ← List.append_assoc] at hlog
      exact h.before earlier e later (List.append_inj' hlog rfl).1 r hr hp

/-- **Rows that do not arise in the background come from calls.** -/
theorem Reachable.traced {P : ρ → Prop} (hchange : ∀ row row', change row row' → ¬ P row')
    (h : Reachable txn U change s) : Traced P s := by
  induction h with
  | start => exact ⟨nofun, fun earlier e later hlog => by simp at hlog⟩
  | step _ hstep ih =>
    cases hstep with
    | refuse | refuseNew | commit | rollback => exact ih.finish ..
    | change before row row' after hrows hstep =>
      refine ⟨fun r hr hp => ih.rows r ?_ hp, ih.before⟩
      have hne : r ≠ row' := by
        rintro rfl
        exact hchange row r hstep hp
      rw [hrows]
      simp only [List.mem_append, List.mem_cons, hne, false_or] at hr ⊢
      exact hr.imp_right .inr
    | begin | advisory | read | insert | skip | insertNew | fail => exact ⟨ih.rows, ih.before⟩

/-! ## Calls one after another -/

/-- No session, over some rows. -/
def idle (rows : List ρ) (log : List (Entry C (List ρ) ε α)) : Inserters ι ν C ρ ε α :=
  ⟨rows, log, fun _ => none⟩

section

variable [DecidableRel U.Clash] [DecidableRel U.Target] {rows own own' : List ρ}
  {log : List (Entry C (List ρ) ε α)} {c : C} {names : List ν} {i : ι}

/-- The entry of a call that is executed at once. -/
def entryOf (rows : List ρ) (c : C) : Except ε (α × List ρ) → Entry C (List ρ) ε α
  | .ok (a, own) => ⟨c, .ok a, rows, rows ++ own⟩
  | .error e => ⟨c, .error e, rows, rows⟩

/-- **Under a contract a call that is executed at once does what it promises.** -/
theorem meets_entryOf (hvalid : K.Valid U txn change) (hrows : K.Invariant rows) :
    K.Meets (entryOf rows c ((txn c).run U rows [])) := by
  have hrun := Inserts.wp_run (hvalid.calls c rows hrows) hrows
  cases h : (txn c).run U rows [] with
  | ok returned =>
    obtain ⟨a, own⟩ := returned
    rw [h] at hrun
    obtain ⟨-, hreturns⟩ := hrun
    exact ⟨hrows, own, rfl, hreturns⟩
  | error e =>
    rw [h] at hrun
    exact ⟨hrows, rfl, hrun⟩

theorem entryOf_before {run : Except ε (α × List ρ)} : (entryOf rows c run).before = rows := by
  cases run <;> rfl

theorem put_idle_put {x y : Inserting ν C ρ ε α} :
    ((idle rows log : Inserters ι ν C ρ ε α).put i x).put i y = (idle rows log).put i y := by
  rw [put, put, put]
  simp only [Function.update_idem]

theorem finish_put_idle {x : Inserting ν C ρ ε α} {result : Except ε α} :
    ((idle rows log : Inserters ι ν C ρ ε α).put i x).finish i c result own =
      idle (rows ++ own) (log ++ [⟨c, result, rows, rows ++ own⟩]) := by
  rw [finish, put, idle]
  simp only [Function.update_idem]
  congr 1
  exact Function.update_eq_self i _

theorem idle_put_session {x : Inserting ν C ρ ε α} :
    ((idle rows log : Inserters ι ν C ρ ε α).put i x).session i = some x := Function.update_self ..

theorem idle_put_session_of_ne {x y : Inserting ν C ρ ε α} {j : ι}
    (h : ((idle rows log : Inserters ι ν C ρ ε α).put i x).session j = some y) : ¬ j ≠ i := by
  intro hne
  have hidle : (none : Option (Inserting ν C ρ ε α)) = some y :=
    (Function.update_of_ne hne _ _).symm.trans h
  cases hidle

/-- **A call that is alone runs to its end.** -/
theorem reachable_run {p : Inserts ν ρ ε α}
    (h : Reachable txn U change ((idle rows log : Inserters ι ν C ρ ε α).put i ⟨c, p, own, names⟩)) :
    Reachable txn U change
      (idle (entryOf rows c (p.run U rows own)).after (log ++ [entryOf rows c (p.run U rows own)])
        : Inserters ι ν C ρ ε α) := by
  have hthrow : ∀ {x : Inserting ν C ρ ε α} {e : ε},
      Reachable txn U change (((idle rows log : Inserters ι ν C ρ ε α).put i x).finish i c (.error e) []) →
      Reachable txn U change (idle rows (log ++ [⟨c, .error e, rows, rows⟩]) : Inserters ι ν C ρ ε α) := by
    intro x e hreach
    rwa [finish_put_idle, List.append_nil] at hreach
  induction p generalizing own names with
  | ret a =>
    have hreach := h.step (.commit _ i _ a idle_put_session rfl)
    rwa [finish_put_idle] at hreach
  | throw e => exact hthrow (h.step (.rollback _ i _ e idle_put_session rfl))
  | advisory name next ih =>
    refine @ih own (name :: names) ?_
    have hreach := h.step (.advisory _ i _ name next idle_put_session rfl
      fun j y hy hne => absurd hne (idle_put_session_of_ne hy))
    rwa [put_idle_put] at hreach
  | read next ih =>
    refine @ih _ own names ?_
    have hreach := h.step (.read _ i _ next idle_put_session rfl)
    rwa [put_idle_put] at hreach
  | insert row next ih =>
    rw [Inserts.run]
    by_cases hfits : U.Fits row (rows ++ own)
    · rw [if_pos hfits]
      refine @ih (own ++ [row]) names ?_
      have hreach := h.step (.insert _ i _ row next idle_put_session rfl hfits
        fun j y hy hne => absurd hne (idle_put_session_of_ne hy))
      rwa [put_idle_put] at hreach
    · rw [if_neg hfits]
      exact hthrow (h.step (.refuse _ i _ row next idle_put_session rfl hfits))
  | insertNew row next ih =>
    rw [Inserts.run]
    by_cases hpresent : U.Present row (rows ++ own)
    · rw [if_pos hpresent]
      refine @ih own names ?_
      have hreach := h.step (.skip _ i _ row next idle_put_session rfl hpresent)
      rwa [put_idle_put] at hreach
    · rw [if_neg hpresent]
      by_cases hfits : U.Fits row (rows ++ own)
      · rw [if_pos hfits]
        refine @ih (own ++ [row]) names ?_
        have hreach := h.step (.insertNew _ i _ row next idle_put_session rfl hfits
          fun j y hy hne => absurd hne (idle_put_session_of_ne hy))
        rwa [put_idle_put] at hreach
      · rw [if_neg hfits]
        exact hthrow (h.step (.refuseNew _ i _ row next idle_put_session rfl hpresent hfits))

/-- Calls that are executed one after another. -/
def serve (txn : C → Inserts ν ρ ε α) (U : UniqueKeys ρ ε) [DecidableRel U.Clash]
    [DecidableRel U.Target] : List C → List ρ → List (Entry C (List ρ) ε α) → Inserters ι ν C ρ ε α
  | [], rows, log => idle rows log
  | c :: cs, rows, log =>
    let entry := entryOf rows c ((txn c).run U rows [])
    serve txn U cs entry.after (log ++ [entry])

theorem entryOf_call {run : Except ε (α × List ρ)} : (entryOf rows c run).call = c := by
  cases run <;> rfl

omit [DecidableEq ι] in
/-- Calls that are executed one after another are answered in their order. -/
theorem serve_calls (cs : List C) {rows : List ρ} {log : List (Entry C (List ρ) ε α)} :
    (serve txn U cs rows log : Inserters ι ν C ρ ε α).log.map Entry.call = log.map Entry.call ++ cs := by
  induction cs generalizing rows log with
  | nil => exact (List.append_nil _).symm
  | cons c cs ih => rw [serve, ih, List.map_append, List.map_singleton, entryOf_call, List.append_assoc,
      List.singleton_append]

/-- Calls that follow one another are an interleaving. -/
theorem reachable_serve [Nonempty ι] (cs : List C) {rows : List ρ} {log : List (Entry C (List ρ) ε α)}
    (h : Reachable txn U change (idle rows log : Inserters ι ν C ρ ε α)) :
    Reachable txn U change (serve txn U cs rows log : Inserters ι ν C ρ ε α) := by
  induction cs generalizing rows log with
  | nil => exact h
  | cons c cs ih => exact ih (reachable_run (h.step (.begin _ (Classical.arbitrary ι) c rfl)))

end

end Inserters

end HarnessFramework
