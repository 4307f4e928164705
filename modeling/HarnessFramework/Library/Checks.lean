import Mathlib.Data.List.Forall2
import Mathlib.Tactic.Common

/-!
# Checks that throw

Sequences of checks, each of which throws or goes on. `Checks.ensure_bind_eq_ok` and
`Checks.orThrow_bind_eq_ok` take a sequence that ran through apart into what each check found, and
`Checks.mapM_eq_ok` a loop into its rounds.
-/

namespace HarnessFramework

namespace Checks

variable {ε α β : Type}

/-- Throw `e` unless `p` holds. -/
def ensure (p : Prop) [Decidable p] (e : ε) : Except ε Unit := if p then .ok () else .error e

/-- The value, or throw `e`. -/
def orThrow (e : ε) : Option α → Except ε α
  | some a => .ok a
  | none => .error e

@[simp] theorem ensure_eq_ok {p : Prop} [Decidable p] {e : ε} {u : Unit} :
    ensure p e = .ok u ↔ p := by
  unfold ensure; split <;> simp [*]

theorem ensure_pos {p : Prop} [Decidable p] {e : ε} (h : p) : ensure p e = .ok () := ensure_eq_ok.mpr h

@[simp] theorem orThrow_eq_ok {e : ε} {o : Option α} {a : α} : orThrow e o = .ok a ↔ o = some a := by
  cases o <;> simp [orThrow]

@[simp] theorem ensure_bind_eq_ok {p : Prop} [Decidable p] {e : ε} {f : Unit → Except ε β} {b : β} :
    (ensure p e >>= f) = .ok b ↔ p ∧ f () = .ok b := by
  by_cases hp : p
  · simp only [ensure, hp, true_and]; rfl
  · simp only [ensure, hp, false_and, iff_false]; nofun

@[simp] theorem orThrow_bind_eq_ok {e : ε} {o : Option α} {f : α → Except ε β} {b : β} :
    (orThrow e o >>= f) = .ok b ↔ ∃ a, o = some a ∧ f a = .ok b := by
  cases o with
  | none => simp only [orThrow, reduceCtorEq, false_and, exists_false, iff_false]; nofun
  | some a => simp only [orThrow, Option.some.injEq, exists_eq_left']; rfl

@[simp] theorem pure_eq_ok {a b : α} : (pure a : Except ε α) = .ok b ↔ a = b := by
  simp [pure, Except.pure]

theorem ok_bind {a : α} {f : α → Except ε β} : (.ok a : Except ε α) >>= f = f a := rfl

/-- A sequence that ran through. -/
theorem bind_eq_ok {x : Except ε α} {f : α → Except ε β} {b : β} :
    (x >>= f) = .ok b ↔ ∃ a, x = .ok a ∧ f a = .ok b := by
  cases x with
  | error e => exact iff_of_false nofun nofun
  | ok a =>
    change f a = .ok b ↔ _
    simp

/-- A map that throws nowhere is a result for each element. -/
theorem mapM_eq_ok {f : α → Except ε β} {as : List α} {bs : List β} :
    as.mapM f = .ok bs ↔ List.Forall₂ (fun a b => f a = .ok b) as bs := by
  induction as generalizing bs with
  | nil => simp [pure, Except.pure, eq_comm]
  | cons a as ih =>
    rw [List.mapM_cons]
    cases hf : f a with
    | error e =>
      refine iff_of_false nofun ?_
      rintro (_ | ⟨hab, -⟩)
      rw [hf] at hab
      cases hab
    | ok b =>
      change (as.mapM f >>= fun bs => pure (b :: bs)) = .ok _ ↔ _
      cases has : as.mapM f with
      | error e =>
        refine iff_of_false nofun ?_
        rintro (_ | ⟨-, htail⟩)
        rw [ih.mpr htail] at has
        cases has
      | ok bs' =>
        change (pure (b :: bs') : Except ε (List β)) = .ok bs ↔ _
        rw [pure_eq_ok]
        constructor
        · rintro rfl
          exact .cons hf (ih.mp has)
        · rintro (_ | ⟨hab, htail⟩)
          rw [hf, Except.ok.injEq] at hab
          have htail := has.symm.trans (ih.mpr htail)
          rw [Except.ok.injEq] at htail
          rw [hab, htail]

theorem exists_of_mapM {f : α → Except ε β} {as : List α} {bs : List β} (h : as.mapM f = .ok bs) {a : α}
    (ha : a ∈ as) : ∃ b, f a = .ok b := by
  have hall := mapM_eq_ok.mp h
  clear h
  induction hall with
  | nil => cases ha
  | cons hab _ ih =>
    rcases List.mem_cons.mp ha with rfl | ha
    · exact ⟨_, hab⟩
    · exact ih ha

/-- A map that throws or returns what a function does is a map. -/
theorem map_of_mapM {f : α → Except ε β} {g : α → β} (hf : ∀ {a b}, f a = .ok b → b = g a) {as : List α}
    {bs : List β} (h : as.mapM f = .ok bs) : bs = as.map g := by
  have hall := mapM_eq_ok.mp h
  clear h
  induction hall with
  | nil => rfl
  | cons hab _ ih => rw [List.map_cons, hf hab, ih]

end Checks

end HarnessFramework
