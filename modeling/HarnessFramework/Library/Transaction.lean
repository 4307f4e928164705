import Mathlib.Tactic.Common

/-!
# Transactions

A `Txn` is a database transaction on a value of type `σ`: its statements read and write the value,
take locks and emit messages, and at its end it either returns, which commits, or throws, which
rolls back. `Txn.run` executes a transaction at once; `Interleaving` executes many side by side.

## Main definitions

* `Txn`, `Txn.run`, `Txn.Yields` — transactions and their execution at once
* `Txn.zoom` — a transaction on a part of a larger value
* `Txn.wp` — the weakest precondition of a postcondition
* `Txn.underLock` — the same for a transaction that locks its key after unlocked reads
* `Txn.returns` — a transaction that only reads, and returns

## Main results

* `Txn.yields_bind` and the other `yields_` lemmas — how executions compose
* `Txn.throws_bind` and the other `throws_` lemmas — how throwing composes
* `Txn.wp_iff`, `Txn.wp_bind` and the other `wp_` rules
-/

namespace HarnessFramework

/-- A transaction on a value of type `σ`, emitting messages `μ`, throwing `ε` and returning `α`. -/
inductive Txn (σ μ ε α : Type) : Type
  /-- Commit and return. -/
  | ret (a : α)
  /-- Roll back and throw. -/
  | throw (e : ε)
  /-- Read the value. -/
  | read (next : σ → Txn σ μ ε α)
  /-- Change the value. -/
  | write (f : σ → σ) (next : Txn σ μ ε α)
  /-- Emit a message, delivered when the transaction commits. -/
  | emit (m : μ) (next : Txn σ μ ε α)
  /-- Wait for a named lock and hold it to the end. -/
  | advisory (name : String) (next : Txn σ μ ε α)
  /-- Wait for the lock of the key and hold it to the end. -/
  | lock (next : Txn σ μ ε α)

namespace Txn

variable {σ τ μ ε α β : Type}

/-- Sequencing. -/
def bind : Txn σ μ ε α → (α → Txn σ μ ε β) → Txn σ μ ε β
  | ret a, f => f a
  | throw e, _ => throw e
  | read next, f => read fun s => (next s).bind f
  | write g next, f => write g (next.bind f)
  | emit m next, f => emit m (next.bind f)
  | advisory name next, f => advisory name (next.bind f)
  | lock next, f => lock (next.bind f)

instance : Monad (Txn σ μ ε) where
  pure := ret
  bind := bind

/-- The value as it stands. -/
def get : Txn σ μ ε σ := read ret

/-- Change the value. -/
def modify (f : σ → σ) : Txn σ μ ε Unit := write f (ret ())

/-- Emit a message. -/
def send (m : μ) : Txn σ μ ε Unit := emit m (ret ())

/-- Throw `e` unless `p` holds. -/
def require (p : Prop) [Decidable p] (e : ε) : Txn σ μ ε Unit := if p then ret () else throw e

/-- The value of an option, or throw `e`. -/
def getOrThrow (e : ε) : Option α → Txn σ μ ε α
  | some a => ret a
  | none => throw e

/-- A pure computation that may throw. -/
def ofExcept : Except ε α → Txn σ μ ε α
  | .ok a => ret a
  | .error e => throw e

/-- Throw `f e` in place of `e`. -/
def mapThrow {ε' : Type} (f : ε → ε') : Txn σ μ ε α → Txn σ μ ε' α
  | ret a => ret a
  | throw e => throw (f e)
  | read next => read fun s => (next s).mapThrow f
  | write g next => write g (next.mapThrow f)
  | emit m next => emit m (next.mapThrow f)
  | advisory name next => advisory name (next.mapThrow f)
  | lock next => lock (next.mapThrow f)

/-- Wait for a named lock. -/
def advisoryLock (name : String) : Txn σ μ ε Unit := advisory name (ret ())

/-- Wait for the lock of the key. -/
def lockKey : Txn σ μ ε Unit := lock (ret ())

/-- Run a transaction on a part of a larger value. -/
def zoom (part : τ → σ) (put : σ → τ → τ) : Txn σ μ ε α → Txn τ μ ε α
  | ret a => ret a
  | throw e => throw e
  | read next => read fun t => (next (part t)).zoom part put
  | write f next => write (fun t => put (f (part t)) t) (next.zoom part put)
  | emit m next => emit m (next.zoom part put)
  | advisory name next => advisory name (next.zoom part put)
  | lock next => lock (next.zoom part put)

/-! ## Execution at once -/

/-- Execute a transaction at once: what it returns, the new value and the messages. -/
def run : Txn σ μ ε α → σ → Except ε (α × σ × List μ)
  | ret a, s => .ok (a, s, [])
  | throw e, _ => .error e
  | read next, s => (next s).run s
  | write f next, s => next.run (f s)
  | emit m next, s => (next.run s).map fun r => (r.1, r.2.1, m :: r.2.2)
  | advisory _ next, s => next.run s
  | lock next, s => next.run s

/-- The transaction returns `a`, leaving the value `s'` and emitting `ms`. -/
def Yields (p : Txn σ μ ε α) (s : σ) (a : α) (s' : σ) (ms : List μ) : Prop :=
  p.run s = .ok (a, s', ms)

theorem Yields.unique {p : Txn σ μ ε α} {s s₁ s₂ : σ} {a b : α} {ms ns : List μ}
    (h : p.Yields s a s₁ ms) (h' : p.Yields s b s₂ ns) : a = b ∧ s₁ = s₂ ∧ ms = ns := by
  have := (Except.ok.inj (h.symm.trans h'))
  simpa using this

@[simp] theorem yields_ret {a b : α} {s s' : σ} {ms : List μ} :
    (ret a : Txn σ μ ε α).Yields s b s' ms ↔ b = a ∧ s' = s ∧ ms = [] := by
  simp only [Yields, run, Except.ok.injEq, Prod.mk.injEq]
  exact ⟨fun ⟨ha, hs, hm⟩ => ⟨ha.symm, hs.symm, hm.symm⟩, fun ⟨ha, hs, hm⟩ => ⟨ha.symm, hs.symm, hm.symm⟩⟩

@[simp] theorem yields_pure {a b : α} {s s' : σ} {ms : List μ} :
    (pure a : Txn σ μ ε α).Yields s b s' ms ↔ b = a ∧ s' = s ∧ ms = [] := yields_ret

@[simp] theorem yields_throw {e : ε} {a : α} {s s' : σ} {ms : List μ} :
    ¬ (throw e : Txn σ μ ε α).Yields s a s' ms := by simp [Yields, run]

@[simp] theorem yields_read {next : σ → Txn σ μ ε α} {a : α} {s s' : σ} {ms : List μ} :
    (read next).Yields s a s' ms ↔ (next s).Yields s a s' ms := Iff.rfl

@[simp] theorem yields_write {f : σ → σ} {next : Txn σ μ ε α} {a : α} {s s' : σ} {ms : List μ} :
    (write f next).Yields s a s' ms ↔ next.Yields (f s) a s' ms := Iff.rfl

@[simp] theorem yields_advisory {name : String} {next : Txn σ μ ε α} {a : α} {s s' : σ}
    {ms : List μ} : (advisory name next).Yields s a s' ms ↔ next.Yields s a s' ms := Iff.rfl

@[simp] theorem yields_lock {next : Txn σ μ ε α} {a : α} {s s' : σ} {ms : List μ} :
    (lock next).Yields s a s' ms ↔ next.Yields s a s' ms := Iff.rfl

@[simp] theorem yields_emit {m : μ} {next : Txn σ μ ε α} {a : α} {s s' : σ} {ms : List μ} :
    (emit m next).Yields s a s' ms ↔ ∃ ns, next.Yields s a s' ns ∧ ms = m :: ns := by
  simp only [Yields, run]
  cases h : next.run s with
  | error e => simp [Except.map]
  | ok r =>
    obtain ⟨b, t, ns⟩ := r
    simp only [Except.map, Except.ok.injEq, Prod.mk.injEq]
    constructor
    · rintro ⟨rfl, rfl, rfl⟩; exact ⟨ns, ⟨rfl, rfl, rfl⟩, rfl⟩
    · rintro ⟨ns', ⟨rfl, rfl, rfl⟩, rfl⟩; exact ⟨rfl, rfl, rfl⟩

/-- **An execution of a sequence is an execution of each part.** -/
theorem yields_bind {p : Txn σ μ ε α} {f : α → Txn σ μ ε β} {b : β} {s s' : σ} {ms : List μ} :
    (p >>= f).Yields s b s' ms ↔ ∃ a s₁ ms₁ ms₂,
      p.Yields s a s₁ ms₁ ∧ (f a).Yields s₁ b s' ms₂ ∧ ms = ms₁ ++ ms₂ := by
  change (p.bind f).Yields s b s' ms ↔ _
  induction p generalizing s ms with
  | ret a =>
    simp only [bind, yields_ret]
    constructor
    · intro h; exact ⟨a, s, [], ms, ⟨rfl, rfl, rfl⟩, h, rfl⟩
    · rintro ⟨a', s₁, ms₁, ms₂, ⟨rfl, rfl, rfl⟩, h, rfl⟩; exact h
  | throw e => simp [bind]
  | read next ih => simp only [bind, yields_read, ih]
  | write g next ih => simp only [bind, yields_write, ih]
  | advisory name next ih => simp only [bind, yields_advisory, ih]
  | lock next ih => simp only [bind, yields_lock, ih]
  | emit m next ih =>
    simp only [bind, yields_emit, ih]
    constructor
    · rintro ⟨ns, ⟨a, s₁, ms₁, ms₂, hp, hf, rfl⟩, rfl⟩
      exact ⟨a, s₁, m :: ms₁, ms₂, ⟨ms₁, hp, rfl⟩, hf, rfl⟩
    · rintro ⟨a, s₁, _, ms₂, ⟨ms₁, hp, rfl⟩, hf, rfl⟩
      exact ⟨ms₁ ++ ms₂, ⟨a, s₁, ms₁, ms₂, hp, hf, rfl⟩, rfl⟩

@[simp] theorem yields_get {a s s' : σ} {ms : List μ} :
    (get : Txn σ μ ε σ).Yields s a s' ms ↔ a = s ∧ s' = s ∧ ms = [] := by simp [get]

@[simp] theorem yields_modify {f : σ → σ} {a : Unit} {s s' : σ} {ms : List μ} :
    (modify f : Txn σ μ ε Unit).Yields s a s' ms ↔ s' = f s ∧ ms = [] := by simp [modify]

@[simp] theorem yields_send {m : μ} {a : Unit} {s s' : σ} {ms : List μ} :
    (send m : Txn σ μ ε Unit).Yields s a s' ms ↔ s' = s ∧ ms = [m] := by
  simp only [send, yields_emit, yields_ret, true_and]
  constructor
  · rintro ⟨ns, ⟨rfl, rfl⟩, rfl⟩; exact ⟨rfl, rfl⟩
  · rintro ⟨rfl, rfl⟩; exact ⟨[], ⟨rfl, rfl⟩, rfl⟩

@[simp] theorem yields_require {p : Prop} [Decidable p] {e : ε} {a : Unit} {s s' : σ}
    {ms : List μ} : (require p e : Txn σ μ ε Unit).Yields s a s' ms ↔ p ∧ s' = s ∧ ms = [] := by
  by_cases hp : p <;> simp [require, hp]

@[simp] theorem yields_getOrThrow {e : ε} {o : Option α} {a : α} {s s' : σ} {ms : List μ} :
    (getOrThrow e o : Txn σ μ ε α).Yields s a s' ms ↔ o = some a ∧ s' = s ∧ ms = [] := by
  cases o with
  | none => simp [getOrThrow]
  | some b =>
    simp only [getOrThrow, yields_ret, Option.some_inj]
    exact and_congr_left fun _ => eq_comm

@[simp] theorem yields_ofExcept {x : Except ε α} {a : α} {s s' : σ} {ms : List μ} :
    (ofExcept x : Txn σ μ ε α).Yields s a s' ms ↔ x = .ok a ∧ s' = s ∧ ms = [] := by
  cases x with
  | error e => simp [ofExcept]
  | ok b =>
    simp only [ofExcept, yields_ret, Except.ok.injEq]
    exact and_congr_left fun _ => eq_comm

@[simp] theorem yields_mapThrow {ε' : Type} {f : ε → ε'} {p : Txn σ μ ε α} {a : α} {s s' : σ}
    {ms : List μ} : (p.mapThrow f).Yields s a s' ms ↔ p.Yields s a s' ms := by
  induction p generalizing s ms with
  | ret b => simp only [mapThrow, yields_ret]
  | throw e => simp [mapThrow]
  | read next ih => simp only [mapThrow, yields_read, ih]
  | write g next ih => simp only [mapThrow, yields_write, ih]
  | emit m next ih => simp only [mapThrow, yields_emit, ih]
  | advisory name next ih => simp only [mapThrow, yields_advisory, ih]
  | lock next ih => simp only [mapThrow, yields_lock, ih]

/-- **Running on a part changes that part and nothing else.** -/
theorem yields_zoom {part : τ → σ} {put : σ → τ → τ} (hpart : ∀ s t, part (put s t) = s)
    (hput : ∀ s s' t, put s (put s' t) = put s t) (hself : ∀ t, put (part t) t = t)
    {p : Txn σ μ ε α} {a : α} {t t' : τ} {ms : List μ} :
    (p.zoom part put).Yields t a t' ms ↔ ∃ s', p.Yields (part t) a s' ms ∧ t' = put s' t := by
  induction p generalizing t ms with
  | ret b =>
    simp only [zoom, yields_ret]
    constructor
    · rintro ⟨rfl, rfl, rfl⟩; exact ⟨_, ⟨rfl, rfl, rfl⟩, (hself _).symm⟩
    · rintro ⟨s', ⟨rfl, rfl, rfl⟩, rfl⟩; exact ⟨rfl, hself _, rfl⟩
  | throw e => simp [zoom]
  | read next ih => simp only [zoom, yields_read, ih]
  | write f next ih => simp only [zoom, yields_write, ih, hpart, hput]
  | advisory name next ih => simp only [zoom, yields_advisory, ih]
  | lock next ih => simp only [zoom, yields_lock, ih]
  | emit m next ih =>
    simp only [zoom, yields_emit, ih]
    constructor
    · rintro ⟨ns, ⟨s', hp, rfl⟩, rfl⟩; exact ⟨s', ⟨ns, hp, rfl⟩, rfl⟩
    · rintro ⟨s', ⟨ns, hp, rfl⟩, rfl⟩; exact ⟨ns, ⟨s', hp, rfl⟩, rfl⟩

/-! ## Throwing -/

/-- The transaction throws `e`. -/
def Throws (p : Txn σ μ ε α) (s : σ) (e : ε) : Prop := p.run s = .error e

@[simp] theorem throws_ret {a : α} {s : σ} {e : ε} : ¬ (ret a : Txn σ μ ε α).Throws s e := nofun

@[simp] theorem throws_pure {a : α} {s : σ} {e : ε} : ¬ (pure a : Txn σ μ ε α).Throws s e := nofun

@[simp] theorem throws_throw {e e' : ε} {s : σ} : (throw e : Txn σ μ ε α).Throws s e' ↔ e = e' :=
  ⟨Except.error.inj, congrArg _⟩

@[simp] theorem throws_read {next : σ → Txn σ μ ε α} {s : σ} {e : ε} :
    (read next).Throws s e ↔ (next s).Throws s e := Iff.rfl

@[simp] theorem throws_write {f : σ → σ} {next : Txn σ μ ε α} {s : σ} {e : ε} :
    (write f next).Throws s e ↔ next.Throws (f s) e := Iff.rfl

@[simp] theorem throws_advisory {name : String} {next : Txn σ μ ε α} {s : σ} {e : ε} :
    (advisory name next).Throws s e ↔ next.Throws s e := Iff.rfl

@[simp] theorem throws_lock {next : Txn σ μ ε α} {s : σ} {e : ε} :
    (lock next).Throws s e ↔ next.Throws s e := Iff.rfl

@[simp] theorem throws_emit {m : μ} {next : Txn σ μ ε α} {s : σ} {e : ε} :
    (emit m next).Throws s e ↔ next.Throws s e := by
  simp only [Throws, run]
  cases next.run s <;> simp [Except.map]

/-- **A sequence throws what its first part throws**, or what the second throws after it. -/
theorem throws_bind {p : Txn σ μ ε α} {f : α → Txn σ μ ε β} {s : σ} {e : ε} :
    (p >>= f).Throws s e ↔
      p.Throws s e ∨ ∃ a s' ms, p.Yields s a s' ms ∧ (f a).Throws s' e := by
  change (p.bind f).Throws s e ↔ _
  induction p generalizing s with
  | ret a =>
    simp only [bind, throws_ret, false_or, yields_ret]
    exact ⟨fun h => ⟨a, s, [], ⟨rfl, rfl, rfl⟩, h⟩, fun ⟨_, _, _, ⟨rfl, rfl, rfl⟩, h⟩ => h⟩
  | throw e' => simp [bind]
  | read next ih => simp only [bind, throws_read, yields_read, ih]
  | write g next ih => simp only [bind, throws_write, yields_write, ih]
  | advisory name next ih => simp only [bind, throws_advisory, yields_advisory, ih]
  | lock next ih => simp only [bind, throws_lock, yields_lock, ih]
  | emit m next ih =>
    simp only [bind, throws_emit, yields_emit, ih]
    refine or_congr_right ⟨?_, ?_⟩
    · rintro ⟨a, s', ms, hy, ht⟩
      exact ⟨a, s', m :: ms, ⟨ms, hy, rfl⟩, ht⟩
    · rintro ⟨a, s', _, ⟨ms, hy, rfl⟩, ht⟩
      exact ⟨a, s', ms, hy, ht⟩

/-- What a sequence throws after a part that returns. -/
theorem throws_bind_of_yields {p : Txn σ μ ε α} {f : α → Txn σ μ ε β} {a : α} {s s' : σ} {ms : List μ}
    {e : ε} (h : p.Yields s a s' ms) : (p >>= f).Throws s e ↔ (f a).Throws s' e := by
  rw [throws_bind]
  constructor
  · rintro (hp | ⟨b, t, ns, hy, ht⟩)
    · exact absurd (hp.symm.trans h) nofun
    · obtain ⟨rfl, rfl, -⟩ := h.unique hy
      exact ht
  · exact fun ht => .inr ⟨a, s', ms, h, ht⟩

@[simp] theorem throws_get_bind {f : σ → Txn σ μ ε α} {s : σ} {e : ε} :
    ((get : Txn σ μ ε σ) >>= f).Throws s e ↔ (f s).Throws s e := Iff.rfl

@[simp] theorem throws_modify {f : σ → σ} {s : σ} {e : ε} :
    ¬ (modify f : Txn σ μ ε Unit).Throws s e := nofun

@[simp] theorem throws_require {p : Prop} [Decidable p] {s : σ} {e e' : ε} :
    (require p e : Txn σ μ ε Unit).Throws s e' ↔ ¬ p ∧ e = e' := by
  by_cases hp : p <;> simp [require, hp]

@[simp] theorem throws_getOrThrow {o : Option α} {s : σ} {e e' : ε} :
    (getOrThrow e o : Txn σ μ ε α).Throws s e' ↔ o = none ∧ e = e' := by
  cases o <;> simp [getOrThrow]

@[simp] theorem throws_ofExcept {x : Except ε α} {s : σ} {e : ε} :
    (ofExcept x : Txn σ μ ε α).Throws s e ↔ x = .error e := by
  cases x <;> simp [ofExcept]

/-! ## Weakest preconditions -/

/-- What must hold before so that every execution that returns satisfies `Q`, on what it returns,
the new value and the messages. -/
def wp : Txn σ μ ε α → (α → σ → List μ → Prop) → σ → Prop
  | ret a, Q, s => Q a s []
  | throw _, _, _ => True
  | read next, Q, s => (next s).wp Q s
  | write f next, Q, s => next.wp Q (f s)
  | emit m next, Q, s => next.wp (fun a s' ms => Q a s' (m :: ms)) s
  | advisory _ next, Q, s => next.wp Q s
  | lock next, Q, s => next.wp Q s

/-- **A weakest precondition speaks of every execution that returns.** -/
theorem wp_iff {p : Txn σ μ ε α} {Q : α → σ → List μ → Prop} {s : σ} :
    p.wp Q s ↔ ∀ a s' ms, p.Yields s a s' ms → Q a s' ms := by
  induction p generalizing s Q with
  | ret a =>
    simp only [wp, yields_ret]
    exact ⟨fun h _ _ _ ⟨ha, hs, hm⟩ => ha ▸ hs ▸ hm ▸ h, fun h => h a s [] ⟨rfl, rfl, rfl⟩⟩
  | throw e => simp [wp]
  | read next ih => simp only [wp, yields_read, ih]
  | write f next ih => simp only [wp, yields_write, ih]
  | advisory name next ih => simp only [wp, yields_advisory, ih]
  | lock next ih => simp only [wp, yields_lock, ih]
  | emit m next ih =>
    simp only [wp, yields_emit, ih]
    constructor
    · rintro h a s' _ ⟨ns, hy, rfl⟩; exact h a s' ns hy
    · intro h a s' ns hy; exact h a s' (m :: ns) ⟨ns, hy, rfl⟩

@[simp] theorem wp_pure {a : α} {Q : α → σ → List μ → Prop} {s : σ} :
    (pure a : Txn σ μ ε α).wp Q s ↔ Q a s [] := Iff.rfl

@[simp] theorem wp_ret {a : α} {Q : α → σ → List μ → Prop} {s : σ} :
    (ret a : Txn σ μ ε α).wp Q s ↔ Q a s [] := Iff.rfl

/-- **The precondition of a sequence.** -/
@[simp] theorem wp_bind {p : Txn σ μ ε α} {f : α → Txn σ μ ε β} {Q : β → σ → List μ → Prop} {s : σ} :
    (p >>= f).wp Q s ↔
      p.wp (fun a s₁ ms₁ => (f a).wp (fun b s₂ ms₂ => Q b s₂ (ms₁ ++ ms₂)) s₁) s := by
  simp only [wp_iff, yields_bind]
  constructor
  · intro h a s₁ ms₁ h₁ b s₂ ms₂ h₂; exact h b s₂ _ ⟨a, s₁, ms₁, ms₂, h₁, h₂, rfl⟩
  · rintro h b s₂ _ ⟨a, s₁, ms₁, ms₂, h₁, h₂, rfl⟩; exact h a s₁ ms₁ h₁ b s₂ ms₂ h₂

@[simp] theorem wp_get {Q : σ → σ → List μ → Prop} {s : σ} :
    (get : Txn σ μ ε σ).wp Q s ↔ Q s s [] := Iff.rfl

@[simp] theorem wp_modify {f : σ → σ} {Q : Unit → σ → List μ → Prop} {s : σ} :
    (modify f : Txn σ μ ε Unit).wp Q s ↔ Q () (f s) [] := Iff.rfl

@[simp] theorem wp_require {p : Prop} [Decidable p] {e : ε} {Q : Unit → σ → List μ → Prop} {s : σ} :
    (require p e : Txn σ μ ε Unit).wp Q s ↔ (p → Q () s []) := by
  by_cases hp : p <;> simp [require, hp, wp]

@[simp] theorem wp_getOrThrow {e : ε} {o : Option α} {Q : α → σ → List μ → Prop} {s : σ} :
    (getOrThrow e o : Txn σ μ ε α).wp Q s ↔ ∀ a, o = some a → Q a s [] := by
  cases o <;> simp [getOrThrow, wp]

@[simp] theorem wp_ofExcept {x : Except ε α} {Q : α → σ → List μ → Prop} {s : σ} :
    (ofExcept x : Txn σ μ ε α).wp Q s ↔ ∀ a, x = .ok a → Q a s [] := by
  cases x <;> simp [ofExcept, wp]

@[simp] theorem wp_send {m : μ} {Q : Unit → σ → List μ → Prop} {s : σ} :
    (send m : Txn σ μ ε Unit).wp Q s ↔ Q () s [m] := Iff.rfl

@[simp] theorem wp_mapThrow {ε' : Type} {f : ε → ε'} {p : Txn σ μ ε α}
    {Q : α → σ → List μ → Prop} {s : σ} : (p.mapThrow f).wp Q s ↔ p.wp Q s := by
  simp only [wp_iff, yields_mapThrow]

@[simp] theorem wp_advisoryLock {name : String} {Q : Unit → σ → List μ → Prop} {s : σ} :
    (advisoryLock name : Txn σ μ ε Unit).wp Q s ↔ Q () s [] := Iff.rfl

@[simp] theorem wp_lockKey {Q : Unit → σ → List μ → Prop} {s : σ} :
    (lockKey : Txn σ μ ε Unit).wp Q s ↔ Q () s [] := Iff.rfl

theorem wp_mono {p : Txn σ μ ε α} {Q Q' : α → σ → List μ → Prop} {s : σ} (h : p.wp Q s)
    (hQ : ∀ a s' ms, Q a s' ms → Q' a s' ms) : p.wp Q' s :=
  wp_iff.mpr fun a s' ms hy => hQ a s' ms (wp_iff.mp h a s' ms hy)

/-! ## Transactions that lock their key -/

/-- Nothing is written before the key is locked, and every execution that waits for its lock, after
reads of values in `P` that others commit in the meantime, satisfies `Q` from the value it finds under
it. One that returns without the lock satisfies `Q` with no change, whatever the value is. -/
def underLock (P : σ → Prop) : Txn σ μ ε α → (σ → α → σ → List μ → Prop) → Prop
  | ret a, Q => ∀ s, Q s a s []
  | throw _, _ => True
  | read next, Q => ∀ s, P s → (next s).underLock P Q
  | write _ _, _ => False
  | emit _ _, _ => False
  | advisory _ next, Q => next.underLock P Q
  | lock next, Q => ∀ s, next.wp (Q s) s

section

variable {P : σ → Prop} {Q : σ → α → σ → List μ → Prop}

theorem underLock_mono {p : Txn σ μ ε α} {Q' : σ → α → σ → List μ → Prop} (h : p.underLock P Q)
    (hQ : ∀ s a s' ms, Q s a s' ms → Q' s a s' ms) : p.underLock P Q' := by
  induction p with
  | ret a => exact fun s => hQ s a s [] (h s)
  | throw => trivial
  | read next ih => exact fun s hs => ih s (h s hs)
  | write | emit => exact h
  | advisory name next ih => exact ih h
  | lock next ih => exact fun s => wp_mono (h s) fun a s' ms => hQ s a s' ms

/-- Two facts about a transaction are one. -/
theorem underLock_and {p : Txn σ μ ε α} {Q' : σ → α → σ → List μ → Prop} (h : p.underLock P Q)
    (h' : p.underLock P Q') : p.underLock P fun s a s' ms => Q s a s' ms ∧ Q' s a s' ms := by
  induction p with
  | ret a => exact fun s => ⟨h s, h' s⟩
  | throw => trivial
  | read next ih => exact fun s hs => ih s (h s hs) (h' s hs)
  | write | emit => exact h
  | advisory name next ih => exact ih h h'
  | lock next ih =>
    intro s
    refine wp_iff.mpr fun a s' ms hy => ?_
    exact ⟨wp_iff.mp (h s) a s' ms hy, wp_iff.mp (h' s) a s' ms hy⟩

/-- An execution at once is one of them. -/
theorem Yields.underLock {p : Txn σ μ ε α} {s s' : σ} {a : α} {ms : List μ}
    (hy : p.Yields s a s' ms) (h : p.underLock P Q) (hs : P s) : Q s a s' ms := by
  induction p with
  | ret b =>
    obtain ⟨rfl, rfl, rfl⟩ := yields_ret.mp hy
    exact h s'
  | throw => exact absurd hy yields_throw
  | read next ih => exact ih s hy (h s hs)
  | write | emit => exact h.elim
  | advisory name next ih => exact ih hy h
  | lock next => exact wp_iff.mp (h s) a s' ms hy

@[simp] theorem underLock_ret {a : α} :
    (ret a : Txn σ μ ε α).underLock P Q ↔ ∀ s, Q s a s [] := Iff.rfl

@[simp] theorem underLock_pure {a : α} :
    (pure a : Txn σ μ ε α).underLock P Q ↔ ∀ s, Q s a s [] := Iff.rfl

@[simp] theorem underLock_throw {e : ε} : (throw e : Txn σ μ ε α).underLock P Q := trivial

@[simp] theorem underLock_get_bind {f : σ → Txn σ μ ε α} :
    (get >>= f).underLock P Q ↔ ∀ s, P s → (f s).underLock P Q := Iff.rfl

@[simp] theorem underLock_advisoryLock_bind {name : String} {f : Unit → Txn σ μ ε α} :
    (advisoryLock name >>= f).underLock P Q ↔ (f ()).underLock P Q := Iff.rfl

@[simp] theorem underLock_lockKey_bind {f : Unit → Txn σ μ ε α} :
    (lockKey >>= f).underLock P Q ↔ ∀ s, (f ()).wp (Q s) s := Iff.rfl

@[simp] theorem underLock_require_bind {p : Prop} [Decidable p] {e : ε} {f : Unit → Txn σ μ ε α} :
    (require p e >>= f).underLock P Q ↔ (p → (f ()).underLock P Q) := by
  by_cases hp : p
  · simp only [require, hp, if_true, forall_const]; rfl
  · simp only [require, hp, if_false, false_implies, iff_true]; trivial

@[simp] theorem underLock_getOrThrow_bind {β : Type} {e : ε} {o : Option β}
    {f : β → Txn σ μ ε α} :
    (getOrThrow e o >>= f).underLock P Q ↔ ∀ b, o = some b → (f b).underLock P Q := by
  cases o with
  | none => simp only [getOrThrow, reduceCtorEq, false_implies, implies_true, iff_true]; trivial
  | some b => simp only [getOrThrow, Option.some.injEq, forall_eq']; rfl

@[simp] theorem underLock_mapThrow {ε' : Type} {f : ε → ε'} {p : Txn σ μ ε α} :
    (p.mapThrow f).underLock P Q ↔ p.underLock P Q := by
  induction p with
  | read next ih => simp only [mapThrow, underLock, ih]
  | advisory name next ih => simp only [mapThrow, underLock, ih]
  | lock next ih => simp only [mapThrow, underLock, wp_mapThrow]
  | _ => rfl

/-- A transaction whose result is taken on. -/
theorem underLock_bind_pure {β : Type} {f : α → β} {p : Txn σ μ ε α} {R : σ → β → σ → List μ → Prop} :
    (p >>= fun a => pure (f a)).underLock P R ↔ p.underLock P fun s a s' ms => R s (f a) s' ms := by
  induction p with
  | read next ih => exact forall₂_congr fun s _ => ih s
  | advisory name next ih => exact ih
  | lock next ih =>
    refine forall_congr' fun s => wp_bind.trans ?_
    simp only [wp_pure, List.append_nil]
  | _ => rfl

end

/-! ## Transactions that only read -/

/-- Every execution that finds values in `P` returns something in `R`, and writes nothing. -/
def returns (P : σ → Prop) (R : α → Prop) : Txn σ μ ε α → Prop
  | ret a => R a
  | throw _ => False
  | read next => ∀ s, P s → (next s).returns P R
  | write _ _ => False
  | emit _ _ => False
  | advisory _ next => next.returns P R
  | lock next => next.returns P R

section

variable {P : σ → Prop} {R : α → Prop}

@[simp] theorem returns_pure {a : α} : (pure a : Txn σ μ ε α).returns P R ↔ R a := Iff.rfl

@[simp] theorem returns_get_bind {f : σ → Txn σ μ ε α} :
    (get >>= f).returns P R ↔ ∀ s, P s → (f s).returns P R := Iff.rfl

@[simp] theorem returns_advisoryLock_bind {name : String} {f : Unit → Txn σ μ ε α} :
    (advisoryLock name >>= f).returns P R ↔ (f ()).returns P R := Iff.rfl

@[simp] theorem returns_lockKey_bind {f : Unit → Txn σ μ ε α} :
    (lockKey >>= f).returns P R ↔ (f ()).returns P R := Iff.rfl

@[simp] theorem returns_require_bind {p : Prop} [Decidable p] {e : ε} {f : Unit → Txn σ μ ε α} :
    (require p e >>= f).returns P R ↔ p ∧ (f ()).returns P R := by
  by_cases hp : p
  · simp only [require, hp, if_true, true_and]; rfl
  · simp only [require, hp, if_false, false_and, iff_false]; exact id

@[simp] theorem returns_getOrThrow_bind {β : Type} {e : ε} {o : Option β} {f : β → Txn σ μ ε α} :
    (getOrThrow e o >>= f).returns P R ↔ ∃ b, o = some b ∧ (f b).returns P R := by
  cases o with
  | none => simp only [getOrThrow, reduceCtorEq, false_and, exists_false, iff_false]; exact id
  | some b => simp only [getOrThrow, Option.some.injEq, exists_eq_left']; rfl

@[simp] theorem returns_mapThrow {ε' : Type} {f : ε → ε'} {p : Txn σ μ ε α} :
    (p.mapThrow f).returns P R ↔ p.returns P R := by
  induction p with
  | read next ih => simp only [mapThrow, returns, ih]
  | advisory name next ih => simp only [mapThrow, returns, ih]
  | lock next ih => simp only [mapThrow, returns, ih]
  | _ => rfl

theorem returns_bind_pure {β : Type} {f : α → β} {p : Txn σ μ ε α} {R' : β → Prop} :
    (p >>= fun a => pure (f a)).returns P R' ↔ p.returns P fun a => R' (f a) := by
  induction p with
  | read next ih => exact forall₂_congr fun s _ => ih s
  | advisory name next ih => exact ih
  | lock next ih => exact ih
  | _ => rfl

/-- On its own, a transaction that only reads returns. -/
theorem run_of_returns {p : Txn σ μ ε α} {s : σ} (h : p.returns P R) (hs : P s) :
    ∃ a, R a ∧ p.run s = .ok (a, s, []) := by
  induction p with
  | ret a => exact ⟨a, h, rfl⟩
  | throw e => exact h.elim
  | read next ih => exact ih s (h s hs)
  | write f next ih => exact h.elim
  | emit m next ih => exact h.elim
  | advisory name next ih => exact ih h
  | lock next ih => exact ih h

end

end Txn

end HarnessFramework
