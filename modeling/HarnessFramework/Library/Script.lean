import Mathlib.Logic.Function.Basic
import Mathlib.Logic.Relation
import Mathlib.Tactic.Common

/-!
# Requests that issue statements

A server works on tables. The handler of a request is a script: it issues one statement after another,
each of which is atomic, and goes on with what it got. Requests interleave, statement by statement, may
die between any two statements, and the tables may change under them for other reasons.

A discipline says what a statement needs when it is issued, and what everybody leaves as it is. A
handler is valid if it has what its statements need whatever the others do in between.

## Main definitions

* `Script` — what is left of a request
* `Server`, `Traffic`, `Traffic.Step`, `Traffic.Reachable` — requests side by side
* `Discipline`, `Discipline.Valid` — rely and guarantee
* `Issue`, `Script.Runs`, `Traffic.Traced` — the statements of a request, with the tables they found
* `Traffic.act`, `Traffic.run`, `Traffic.trace` — events of a system, to run it

## Main results

* `Discipline.Valid.mono` — what the others do keeps a script valid
* `Discipline.Valid.of_forall` — a request of which nothing is asked
* `Traffic.Reachable.sound` — under a discipline the invariant holds, and all scripts are valid
* `Traffic.Reachable.invariant` — what statements preserve when they have what they need
* `Traffic.Traced.runs` — whatever the others do, a request runs its handler
* `Traffic.traced_run` — a run with its trace
-/

namespace HarnessFramework

/-- A computation that issues statements. -/
inductive Script (τ : Type → Type 1) (α : Type) : Type 1
  | done (a : α)
  | query {β : Type} (statement : τ β) (next : β → Script τ α)

/-- All statements that a script may come to issue are of a kind. -/
def Script.All {τ : Type → Type 1} {α : Type} (P : {β : Type} → τ β → Prop) : Script τ α → Prop
  | .done _ => True
  | .query statement next => P statement ∧ ∀ result, (next result).All P

/-- A statement, and the tables it found. -/
structure Issue (σ : Type) (τ : Type → Type 1) : Type 1 where
  {β : Type}
  statement : τ β
  found : σ

/-- The script goes on to another one by statements that find some tables each. -/
inductive Script.Runs {σ : Type} {τ : Type → Type 1} {α : Type}
    (exec : {β : Type} → τ β → σ → β × σ) : Script τ α → List (Issue σ τ) → Script τ α → Prop
  | nil (script) : Runs exec script [] script
  | cons {β : Type} (statement : τ β) (next t issues script) :
      Runs exec (next (exec statement t).1) issues script →
      Runs exec (.query statement next) (⟨statement, t⟩ :: issues) script

theorem Script.Runs.concat {σ : Type} {τ : Type → Type 1} {α β : Type}
    {exec : {β : Type} → τ β → σ → β × σ} {script : Script τ α} {issues : List (Issue σ τ)}
    {statement : τ β} {next : β → Script τ α} {t : σ}
    (h : script.Runs exec issues (.query statement next)) :
    script.Runs exec (issues ++ [⟨statement, t⟩]) (next (exec statement t).1) := by
  generalize hrest : Script.query statement next = rest at h
  induction h with
  | nil script =>
    subst hrest
    exact .cons statement next t [] _ (.nil _)
  | cons statement' next' t' issues script _ ih => exact .cons statement' next' t' _ _ (ih hrest)

/-- A run of a script that issues a statement first. -/
theorem Script.runs_query {σ : Type} {τ : Type → Type 1} {α β : Type}
    {exec : {β : Type} → τ β → σ → β × σ} {statement : τ β} {next : β → Script τ α}
    {issues : List (Issue σ τ)} {a : α} (h : (Script.query statement next).Runs exec issues (.done a)) :
    ∃ t rest, issues = ⟨statement, t⟩ :: rest ∧
      (next (exec statement t).1).Runs exec rest (.done a) := by
  cases h with
  | cons _ _ t rest _ h => exact ⟨t, rest, rfl, h⟩

/-- A run of a script that is done. -/
theorem Script.runs_done {σ : Type} {τ : Type → Type 1} {α : Type}
    {exec : {β : Type} → τ β → σ → β × σ} {issues : List (Issue σ τ)} {a a' : α}
    (h : (Script.done a).Runs exec issues (.done a')) : issues = [] ∧ a = a' := by
  cases h with
  | nil => exact ⟨rfl, rfl⟩

/-- A server: what statements do, the handlers of requests, and what else changes the tables. -/
structure Server (σ : Type) (τ : Type → Type 1) (ρ α : Type) where
  exec : {β : Type} → τ β → σ → β × σ
  handle : ρ → Script τ α
  Environment : σ → σ → Prop

/-- A request, and what is left of it. -/
structure Handling (τ : Type → Type 1) (ρ α : Type) : Type 1 where
  call : ρ
  script : Script τ α
  crashed : Bool

/-- Requests side by side. -/
structure Traffic (σ : Type) (τ : Type → Type 1) (ρ α : Type) : Type 1 where
  tables : σ
  sessions : ℕ → Option (Handling τ ρ α)

variable {σ : Type} {τ : Type → Type 1} {ρ α : Type}

namespace Traffic

/-- The system after the session `id` came to `session`. -/
def put (s : Traffic σ τ ρ α) (tables : σ) (id : ℕ) (session : Handling τ ρ α) : Traffic σ τ ρ α where
  tables
  sessions := Function.update s.sessions id (some session)

@[simp] theorem put_sessions_self {s : Traffic σ τ ρ α} {tables : σ} {id : ℕ} {session : Handling τ ρ α} :
    (s.put tables id session).sessions id = some session := Function.update_self ..

theorem put_sessions_of_ne {s : Traffic σ τ ρ α} {tables : σ} {id i : ℕ} {session : Handling τ ρ α}
    (h : i ≠ id) : (s.put tables id session).sessions i = s.sessions i := Function.update_of_ne h ..

variable (S : Server σ τ ρ α) (Ok : ρ → {β : Type} → τ β → σ → Prop)

/-- A statement of the session `id`. -/
inductive Turn (id : ℕ) (s : Traffic σ τ ρ α) : Traffic σ τ ρ α → Prop
  | query {β : Type} (call) (statement : τ β) (next) :
      s.sessions id = some ⟨call, .query statement next, false⟩ → Ok call statement s.tables →
      Turn id s (s.put (S.exec statement s.tables).2 id
        ⟨call, next (S.exec statement s.tables).1, false⟩)

/-- What happens. Statements are such that `Ok` holds when they are issued. -/
inductive Step (s : Traffic σ τ ρ α) : Traffic σ τ ρ α → Prop
  | arrive (id) (call) : s.sessions id = none → Step s (s.put s.tables id ⟨call, S.handle call, false⟩)
  | turn (id) (s') : Turn S Ok id s s' → Step s s'
  | crash (id) (session) : s.sessions id = some session →
      Step s (s.put s.tables id { session with crashed := true })
  | environment (tables) : S.Environment s.tables tables → Step s { s with tables }

/-- No request. -/
def start (tables : σ) : Traffic σ τ ρ α := ⟨tables, fun _ => none⟩

/-- The systems that steps reach. -/
def Reachable (tables : σ) (s : Traffic σ τ ρ α) : Prop :=
  Relation.ReflTransGen (Step S Ok) (start tables) s

end Traffic

/-- What statements need, and what everybody leaves as it is. -/
structure Discipline (S : Server σ τ ρ α) (Ok : ρ → {β : Type} → τ β → σ → Prop) where
  /-- What holds of the tables. -/
  Inv : σ → Prop
  /-- How the tables go on. -/
  Rely : σ → σ → Prop
  /-- What a statement needs. -/
  Pre : ρ → {β : Type} → τ β → σ → Prop
  /-- What an answer promises. -/
  Post : ρ → α → σ → Prop
  refl : ∀ t, Rely t t
  trans : ∀ {t t' t''}, Rely t t' → Rely t' t'' → Rely t t''
  exec : ∀ {t call} {β : Type} {statement : τ β}, Inv t → Pre call statement t → Ok call statement t →
    Inv (S.exec statement t).2 ∧ Rely t (S.exec statement t).2
  environment : ∀ {t t'}, Inv t → S.Environment t t' → Inv t' ∧ Rely t t'

namespace Discipline

variable {S : Server σ τ ρ α} {Ok : ρ → {β : Type} → τ β → σ → Prop} (D : Discipline S Ok)

/-- A script has what its statements need, whatever the others do in between. -/
def Valid (call : ρ) : Script τ α → σ → Prop
  | .done a, t => ∀ t', D.Inv t' → D.Rely t t' → D.Post call a t'
  | .query statement next, t => ∀ t', D.Inv t' → D.Rely t t' → D.Pre call statement t' ∧
      (Ok call statement t' → Valid call (next (S.exec statement t').1) (S.exec statement t').2)

variable {D}

/-- **What the others do keeps a script valid.** -/
theorem Valid.mono {call : ρ} {script : Script τ α} {t t' : σ} (h : D.Valid call script t)
    (hrely : D.Rely t t') : D.Valid call script t' := by
  cases script with
  | done a => exact fun u hu hr => h u hu (D.trans hrely hr)
  | query statement next => exact fun u hu hr => h u hu (D.trans hrely hr)

/-- A request whose statements are of a kind that needs nothing. -/
theorem Valid.of_all {call : ρ} {P : {β : Type} → τ β → Prop} {script : Script τ α}
    (h : script.All @P) (hpre : ∀ {β : Type} (statement : τ β) t, P statement → D.Pre call statement t)
    (hpost : ∀ a t, D.Post call a t) (t : σ) : D.Valid call script t := by
  induction script generalizing t with
  | done a => exact fun t' _ _ => hpost a t'
  | query statement next ih => exact fun t' _ _ => ⟨hpre statement t' h.1, fun _ => ih _ (h.2 _) _⟩

/-- A request of which nothing is asked. -/
theorem Valid.of_forall {call : ρ} (hpre : ∀ {β : Type} (statement : τ β) t, D.Pre call statement t)
    (hpost : ∀ a t, D.Post call a t) (script : Script τ α) (t : σ) : D.Valid call script t := by
  induction script generalizing t with
  | done a => exact fun t' _ _ => hpost a t'
  | query statement next ih => exact fun t' _ _ => ⟨hpre statement t', fun _ => ih _ _⟩

end Discipline

namespace Traffic

variable {S : Server σ τ ρ α} {Ok : ρ → {β : Type} → τ β → σ → Prop} {D : Discipline S Ok}
  {s s' : Traffic σ τ ρ α} {t : σ}

/-- The invariant of the tables and of the requests that are not dead. -/
structure Sound (D : Discipline S Ok) (s : Traffic σ τ ρ α) : Prop where
  tables : D.Inv s.tables
  sessions : ∀ id session, s.sessions id = some session → session.crashed = false →
    D.Valid session.call session.script s.tables

/-- A session goes on to a valid script, with what it does to the tables. -/
theorem Sound.put (h : Sound D s) {tables : σ} (hinv : D.Inv tables) (hrely : D.Rely s.tables tables)
    (id : ℕ) {session : Handling τ ρ α}
    (hvalid : session.crashed = false → D.Valid session.call session.script tables) :
    Sound D (s.put tables id session) := by
  refine ⟨hinv, fun i other hother hlive => ?_⟩
  by_cases hi : i = id
  · subst hi
    rw [put_sessions_self, Option.some.injEq] at hother
    subst hother
    exact hvalid hlive
  · rw [put_sessions_of_ne hi] at hother
    exact (h.sessions i other hother hlive).mono hrely

/-- What is known of a statement when it is issued. -/
theorem Sound.pre (h : Sound D s) {id : ℕ} {call : ρ} {β : Type} {statement : τ β}
    {next : β → Script τ α} (hsession : s.sessions id = some ⟨call, .query statement next, false⟩) :
    D.Pre call statement s.tables :=
  (h.sessions id _ hsession rfl s.tables h.tables (D.refl _)).1

theorem Sound.turn (h : Sound D s) {id : ℕ} (hturn : Turn S Ok id s s') : Sound D s' := by
  cases hturn with
  | query call statement next hsession hok =>
    obtain ⟨hpre, hnext⟩ := h.sessions id _ hsession rfl s.tables h.tables (D.refl _)
    obtain ⟨hinv, hrely⟩ := D.exec h.tables hpre hok
    exact h.put hinv hrely id fun _ => hnext hok

theorem Sound.step (hhandle : ∀ call t, D.Inv t → D.Valid call (S.handle call) t) (h : Sound D s)
    (hstep : Step S Ok s s') : Sound D s' := by
  cases hstep with
  | arrive id call => exact h.put h.tables (D.refl _) id fun _ => hhandle call s.tables h.tables
  | turn id _ hturn => exact h.turn hturn
  | crash id session => exact h.put h.tables (D.refl _) id nofun
  | environment tables henv =>
    obtain ⟨hinv, hrely⟩ := D.environment h.tables henv
    exact ⟨hinv, fun id session hsession hlive => (h.sessions id session hsession hlive).mono hrely⟩

/-- **Under a discipline the invariant holds, and all scripts are valid.** -/
theorem Reachable.sound (hhandle : ∀ call t, D.Inv t → D.Valid call (S.handle call) t)
    (hinit : D.Inv t) (h : Reachable S Ok t s) : Sound D s := by
  induction h with
  | refl => exact ⟨hinit, fun id session hsession => nomatch hsession⟩
  | tail _ hstep ih => exact ih.step hhandle hstep

/-- **What statements preserve when they have what they need holds of the tables.** -/
theorem Reachable.invariant (hhandle : ∀ call t, D.Inv t → D.Valid call (S.handle call) t)
    (hinit : D.Inv t) {I : σ → Prop} (hI : I t)
    (hexec : ∀ {t call} {β : Type} {statement : τ β}, D.Inv t → D.Pre call statement t →
      Ok call statement t → I t → I (S.exec statement t).2)
    (henvironment : ∀ {t t'}, D.Inv t → S.Environment t t' → I t → I t')
    (h : Reachable S Ok t s) : I s.tables := by
  induction h with
  | refl => exact hI
  | tail hreachable hstep ih =>
    have hsound := Reachable.sound hhandle hinit hreachable
    cases hstep with
    | arrive | crash => exact ih
    | turn id _ hturn =>
      cases hturn with
      | query call statement next hsession hok =>
        exact hexec hsound.tables (hsound.pre hsession) hok ih
    | environment tables henv => exact henvironment hsound.tables henv ih

/-- Steps that meet a condition meet every weaker one. -/
theorem Step.weaken {Ok' : ρ → {β : Type} → τ β → σ → Prop}
    (hok : ∀ call {β : Type} (statement : τ β) t, Ok call statement t → Ok' call statement t)
    (h : Step S Ok s s') : Step S Ok' s s' := by
  cases h with
  | arrive id call hnone => exact .arrive id call hnone
  | turn id _ hturn =>
    cases hturn with
    | query call statement next hsession h =>
      exact .turn id _ (.query call statement next hsession (hok call statement _ h))
  | crash id session hsession => exact .crash id session hsession
  | environment tables henv => exact .environment tables henv

/-! ## The statements of a request -/

/-- The systems that steps reach, with the statements that sessions issued. -/
inductive Traced (S : Server σ τ ρ α) (Ok : ρ → {β : Type} → τ β → σ → Prop) (tables : σ) :
    List (ℕ × Issue σ τ) → Traffic σ τ ρ α → Prop
  | start : Traced S Ok tables [] (start tables)
  | arrive (trace) (s) (id) (call) : Traced S Ok tables trace s → s.sessions id = none →
      Traced S Ok tables trace (s.put s.tables id ⟨call, S.handle call, false⟩)
  | query {β : Type} (trace) (s : Traffic σ τ ρ α) (id) (call) (statement : τ β) (next) :
      Traced S Ok tables trace s → s.sessions id = some ⟨call, .query statement next, false⟩ →
      Ok call statement s.tables →
      Traced S Ok tables (trace ++ [(id, ⟨statement, s.tables⟩)])
        (s.put (S.exec statement s.tables).2 id ⟨call, next (S.exec statement s.tables).1, false⟩)
  | crash (trace) (s) (id) (session) : Traced S Ok tables trace s → s.sessions id = some session →
      Traced S Ok tables trace (s.put s.tables id { session with crashed := true })
  | environment (trace) (s) (tables') : Traced S Ok tables trace s → S.Environment s.tables tables' →
      Traced S Ok tables trace { s with tables := tables' }

/-- The statements of the session `id`. -/
def issued (id : ℕ) (trace : List (ℕ × Issue σ τ)) : List (Issue σ τ) :=
  (trace.filter fun entry => entry.1 = id).map (·.2)

theorem issued_concat {id i : ℕ} {trace : List (ℕ × Issue σ τ)} {issue : Issue σ τ} :
    issued i (trace ++ [(id, issue)]) = issued i trace ++ if id = i then [issue] else [] := by
  unfold issued
  by_cases h : id = i <;> simp [h]

/-- **Whatever the others do, a request runs its handler.** -/
theorem Traced.runs {trace : List (ℕ × Issue σ τ)} (h : Traced S Ok t trace s) (id : ℕ) :
    (s.sessions id = none → issued id trace = []) ∧ ∀ session, s.sessions id = some session →
      (S.handle session.call).Runs S.exec (issued id trace) session.script := by
  induction h with
  | start => exact ⟨fun _ => rfl, fun session h => nomatch h⟩
  | arrive trace s i call _ hnone ih =>
    by_cases hi : id = i
    · subst hi
      rw [put_sessions_self, ih.1 hnone]
      refine ⟨nofun, ?_⟩
      rintro _ ⟨⟩
      exact .nil _
    · rwa [put_sessions_of_ne hi]
  | query trace s i call statement next _ hsession _ ih =>
    by_cases hi : id = i
    · subst hi
      rw [put_sessions_self, issued_concat, if_pos rfl]
      refine ⟨nofun, ?_⟩
      rintro _ ⟨⟩
      exact (ih.2 _ hsession).concat
    · rwa [put_sessions_of_ne hi, issued_concat, if_neg fun h => hi h.symm, List.append_nil]
  | crash trace s i session _ hsession ih =>
    by_cases hi : id = i
    · subst hi
      rw [put_sessions_self]
      refine ⟨nofun, ?_⟩
      rintro _ ⟨⟩
      exact ih.2 session hsession
    · rwa [put_sessions_of_ne hi]
  | environment trace s tables _ _ ih => exact ih

/-- Every run has a trace. -/
theorem Reachable.traced (h : Reachable S Ok t s) : ∃ trace, Traced S Ok t trace s := by
  induction h with
  | refl => exact ⟨[], .start⟩
  | tail _ hstep ih =>
    obtain ⟨trace, ih⟩ := ih
    cases hstep with
    | arrive id call hnone => exact ⟨trace, .arrive trace _ id call ih hnone⟩
    | turn id _ hturn =>
      cases hturn with
      | query call statement next hsession hok =>
        exact ⟨_, .query trace _ id call statement next ih hsession hok⟩
    | crash id session hsession => exact ⟨trace, .crash trace _ id session ih hsession⟩
    | environment tables henv => exact ⟨trace, .environment trace _ tables ih henv⟩

/-! ## Running a system -/

/-- What happens next. -/
inductive Event (ρ : Type)
  | arrive (id : ℕ) (call : ρ)
  | turn (id : ℕ)
  | crash (id : ℕ)

section

variable (S) (Ok) [∀ call {β : Type} (statement : τ β) t, Decidable (Ok call statement t)]

/-- The system after an event, if it can happen. -/
def act (s : Traffic σ τ ρ α) : Event ρ → Option (Traffic σ τ ρ α)
  | .arrive id call => match s.sessions id with
    | none => some (s.put s.tables id ⟨call, S.handle call, false⟩)
    | some _ => none
  | .turn id => match s.sessions id with
    | some ⟨call, .query statement next, false⟩ =>
      if Ok call statement s.tables then
        let (result, tables) := S.exec statement s.tables
        some (s.put tables id ⟨call, next result, false⟩)
      else none
    | _ => none
  | .crash id => (s.sessions id).map fun session => s.put s.tables id { session with crashed := true }

/-- The system after events. -/
def run : Traffic σ τ ρ α → List (Event ρ) → Option (Traffic σ τ ρ α)
  | s, [] => some s
  | s, event :: events => (s.act S Ok event).bind fun s => run s events

variable {S Ok}

theorem turn_act {id : ℕ} (h : s.act S Ok (.turn id) = some s') : Turn S Ok id s s' := by
  simp only [act] at h
  split at h
  · next call _ statement next hsession =>
    split at h <;> cases h
    next hok => exact .query call statement next hsession hok
  · cases h

theorem step_act {event : Event ρ} (h : s.act S Ok event = some s') : Step S Ok s s' := by
  cases event with
  | arrive id call =>
    simp only [act] at h
    split at h <;> cases h
    exact .arrive id call ‹_›
  | turn id => exact .turn id _ (turn_act h)
  | crash id =>
    obtain ⟨session, hsession, rfl⟩ := Option.map_eq_some_iff.mp h
    exact .crash id session hsession

/-- What events preserve one by one relates the ends of a run. -/
theorem run_induction {R : Traffic σ τ ρ α → Traffic σ τ ρ α → Prop}
    (hact : ∀ {s s' event}, s.act S Ok event = some s' → R s s') {events : List (Event ρ)}
    (h : run S Ok s events = some s') : Relation.ReflTransGen R s s' := by
  induction events generalizing s with
  | nil => cases h; exact .refl
  | cons event events ih =>
    obtain ⟨s₁, hact', h⟩ := Option.bind_eq_some_iff.mp h
    exact .head (hact hact') (ih h)

theorem reachable_run {events : List (Event ρ)} (h : (start t).run S Ok events = some s) :
    Reachable S Ok t s := run_induction step_act h

/-- The statement that an event issues. -/
def issue? (s : Traffic σ τ ρ α) : Event ρ → Option (ℕ × Issue σ τ)
  | .turn id => match s.sessions id with
    | some ⟨_, .query statement _, false⟩ => some (id, ⟨statement, s.tables⟩)
    | _ => none
  | _ => none

variable (S Ok) in
/-- The statements that events issue. -/
def trace : Traffic σ τ ρ α → List (Event ρ) → List (ℕ × Issue σ τ)
  | _, [] => []
  | s, event :: events => match s.act S Ok event with
    | none => []
    | some s' => (s.issue? event).toList ++ trace s' events

theorem traced_act {trace : List (ℕ × Issue σ τ)} (htraced : Traced S Ok t trace s) {event : Event ρ}
    (h : s.act S Ok event = some s') : Traced S Ok t (trace ++ (s.issue? event).toList) s' := by
  cases event with
  | arrive id call =>
    simp only [act] at h
    split at h <;> cases h
    simpa [issue?] using Traced.arrive trace s id call htraced ‹_›
  | turn id =>
    cases turn_act h with
    | query call statement next hsession hok =>
      simpa [issue?, hsession] using Traced.query trace s id call statement next htraced hsession hok
  | crash id =>
    obtain ⟨session, hsession, rfl⟩ := Option.map_eq_some_iff.mp h
    simpa [issue?] using Traced.crash trace s id session htraced hsession

/-- A run with its trace. -/
theorem traced_run {events : List (Event ρ)} (h : (start t).run S Ok events = some s) :
    Traced S Ok t ((start t).trace S Ok events) s := by
  suffices hsteps : ∀ trace₀ s₀, Traced S Ok t trace₀ s₀ → run S Ok s₀ events = some s →
      Traced S Ok t (trace₀ ++ trace S Ok s₀ events) s by
    simpa using hsteps [] _ .start h
  clear h
  induction events with
  | nil =>
    rintro trace₀ s₀ htraced h
    cases h
    simpa [trace] using htraced
  | cons event events ih =>
    rintro trace₀ s₀ htraced h
    obtain ⟨s₁, hact, h⟩ := Option.bind_eq_some_iff.mp h
    simpa [trace, hact] using ih _ s₁ (traced_act htraced hact) h

end

end Traffic

end HarnessFramework
