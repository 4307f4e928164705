import HarnessFramework.Library.Transaction
import Mathlib.Data.List.Induction
import Mathlib.Logic.Relation

/-!
# Transactions side by side

A store keeps one value per key, and sessions run transactions on it side by side, one statement of
one session at a time. A session that holds the row lock of its key works on a private copy; a lock
that is taken makes others wait; every session may fail at any statement; messages leave with the
commit and are from then on in the hands of a relay.

Row locks make this as good as running whole transactions one after another:
`System.Reachable.store` takes a reachable interleaving to a sequence of `Store.Step`s with the same
committed values, messages and answers. What is proved of such sequences by the invariant rule
`Store.Reachable.invariant` therefore holds under every interleaving.

## Main definitions

* `Service` — the calls that sessions make, each with its key and its transaction
* `System`, `System.Step`, `System.Reachable` — sessions side by side
* `System.Works` — steps of the sessions that have begun
* `Store`, `Store.Step`, `Store.Reachable` — whole transactions, one after another
* `History` — the calls on one key

## Main results

* `System.Step.db_eq_or_returns` — committed values change only when a call returns
* `System.Reachable.store` — every interleaving is a sequence of whole transactions
* `Store.Reachable.invariant` — the invariant rule
* `Store.Reachable.history` — the calls on a key lead from its first value to its last
* `System.works_call` — a call that is alone runs to its end
* `System.reachable_calls` — calls that follow one another are an interleaving
-/

namespace HarnessFramework

/-- The calls of a service: the key each works on and the transaction it runs. -/
structure Service (K C σ μ ε α : Type) where
  key : C → K
  txn : C → Txn σ μ ε α

variable {ι K C σ μ ε α : Type} [DecidableEq ι] [DecidableEq K]

/-! ## Whole transactions -/

/-- `q` is left of `p` after reads without a lock that found values in `P`. -/
inductive Unlocked (P : σ → Prop) : Txn σ μ ε α → Txn σ μ ε α → Prop
  | refl (p) : Unlocked P p p
  | read (s : σ) {p next} : P s → Unlocked P p (.read next) → Unlocked P p (next s)
  | advisory {p name next} : Unlocked P p (.advisory name next) → Unlocked P p next

theorem Unlocked.underLock {P : σ → Prop} {Q : σ → α → σ → List μ → Prop} {p q : Txn σ μ ε α}
    (hu : Unlocked P p q) (h : p.underLock P Q) : q.underLock P Q := by
  induction hu with
  | refl => exact h
  | read t ht _ ih => exact ih h t ht
  | advisory _ ih => exact ih h

theorem Unlocked.mono {P P' : σ → Prop} {p q : Txn σ μ ε α} (hu : Unlocked P p q)
    (h : ∀ s, P s → P' s) : Unlocked P' p q := by
  induction hu with
  | refl => exact .refl _
  | read t ht _ ih => exact .read t (h t ht) ih
  | advisory _ ih => exact .advisory ih

/-- What became of a call, and the value under its key before and after. -/
structure Entry (C σ ε α : Type) where
  call : C
  result : Except ε α
  before : σ
  after : σ

/-- The committed state: a value per key, the messages sent, and what became of the calls. -/
structure Store (K C σ μ ε α : Type) where
  db : K → σ
  outbox : List μ
  log : List (Entry C σ ε α)

/-- The calls `es`, each doing what `Q` says or throwing and changing nothing, lead from `s` to the
value at the end. -/
inductive History (Q : C → σ → α → σ → List μ → Prop) (s : σ) : List (Entry C σ ε α) → σ → Prop
  | nil : History Q s [] s
  | returns {es t} (c a v ms) : History Q s es t → Q c t a v ms →
      History Q s (es ++ [⟨c, .ok a, t, v⟩]) v
  | throws {es t} (c e) : History Q s es t → History Q s (es ++ [⟨c, .error e, t, t⟩]) t

/-- What a call in a history did. -/
theorem History.of_mem {Q : C → σ → α → σ → List μ → Prop} {s t : σ} {es : List (Entry C σ ε α)}
    (h : History Q s es t) {e : Entry C σ ε α} (he : e ∈ es) {a : α} (ha : e.result = .ok a) :
    ∃ ms, Q e.call e.before a e.after ms := by
  induction h with
  | nil => exact absurd he List.not_mem_nil
  | returns c b v ms _ hq ih =>
    rcases List.mem_append.mp he with he | he
    · exact ih he
    · obtain rfl := List.mem_singleton.mp he
      obtain rfl := Except.ok.inj ha
      exact ⟨ms, hq⟩
  | throws c e' _ ih =>
    rcases List.mem_append.mp he with he | he
    · exact ih he
    · obtain rfl := List.mem_singleton.mp he
      cases ha

/-- A call that threw changed nothing. -/
theorem History.of_throws {Q : C → σ → α → σ → List μ → Prop} {s t : σ} {es : List (Entry C σ ε α)}
    (h : History Q s es t) {e : Entry C σ ε α} (he : e ∈ es) {x : ε} (hx : e.result = .error x) :
    e.after = e.before := by
  induction h with
  | nil => exact absurd he List.not_mem_nil
  | returns c b v ms _ _ ih =>
    rcases List.mem_append.mp he with he | he
    · exact ih he
    · obtain rfl := List.mem_singleton.mp he
      cases hx
  | throws c e' _ ih =>
    rcases List.mem_append.mp he with he | he
    · exact ih he
    · obtain rfl := List.mem_singleton.mp he
      rfl

/-- The calls before a call lead to the value it found. -/
theorem History.upTo {Q : C → σ → α → σ → List μ → Prop} {s t : σ}
    {pre post : List (Entry C σ ε α)} {e : Entry C σ ε α} (h : History Q s (pre ++ e :: post) t) :
    History Q s pre e.before := by
  generalize hes : pre ++ e :: post = es at h
  induction h generalizing post with
  | nil => simp at hes
  | @returns es t c b v ms h _ ih =>
    rcases List.eq_nil_or_concat post with rfl | ⟨post, x, rfl⟩
    · obtain ⟨rfl, he⟩ := List.append_inj' hes rfl
      obtain rfl := List.singleton_inj.mp he
      exact h
    · rw [List.concat_eq_append, ← List.cons_append, ← List.append_assoc] at hes
      exact ih (List.append_inj' hes rfl).1
  | @throws es t c x h ih =>
    rcases List.eq_nil_or_concat post with rfl | ⟨post, y, rfl⟩
    · obtain ⟨rfl, he⟩ := List.append_inj' hes rfl
      obtain rfl := List.singleton_inj.mp he
      exact h
    · rw [List.concat_eq_append, ← List.cons_append, ← List.append_assoc] at hes
      exact ih (List.append_inj' hes rfl).1

namespace Store

/-- The value is under the key, or was. -/
def Past (S : Service K C σ μ ε α) (st : Store K C σ μ ε α) (k : K) (v : σ) : Prop :=
  v = st.db k ∨ ∃ e ∈ st.log, S.key e.call = k ∧ e.before = v

/-- The call `c` commits the value `v`, sends `ms` and returns `a`. -/
def commit (S : Service K C σ μ ε α) (st : Store K C σ μ ε α) (c : C) (a : α) (v : σ)
    (ms : List μ) : Store K C σ μ ε α where
  db := Function.update st.db (S.key c) v
  outbox := st.outbox ++ ms
  log := st.log ++ [⟨c, .ok a, st.db (S.key c), v⟩]

/-- The call `c` ends without a change. -/
def answer (S : Service K C σ μ ε α) (st : Store K C σ μ ε α) (c : C) (r : Except ε α) :
    Store K C σ μ ε α :=
  { st with log := st.log ++ [⟨c, r, st.db (S.key c), st.db (S.key c)⟩] }

section

variable {S : Service K C σ μ ε α} {st : Store K C σ μ ε α} {c : C} {a : α} {v : σ} {ms : List μ}
  {r : Except ε α}

@[simp] theorem commit_db_self : (st.commit S c a v ms).db (S.key c) = v := by simp [commit]

theorem commit_db_of_ne {k : K} (h : k ≠ S.key c) : (st.commit S c a v ms).db k = st.db k := by
  simp [commit, Function.update_of_ne h]

@[simp] theorem commit_outbox : (st.commit S c a v ms).outbox = st.outbox ++ ms := rfl

@[simp] theorem commit_log :
    (st.commit S c a v ms).log = st.log ++ [⟨c, .ok a, st.db (S.key c), v⟩] := rfl

omit [DecidableEq K] in
@[simp] theorem answer_db : (st.answer S c r).db = st.db := rfl

omit [DecidableEq K] in
@[simp] theorem answer_outbox : (st.answer S c r).outbox = st.outbox := rfl

omit [DecidableEq K] in
@[simp] theorem answer_log :
    (st.answer S c r).log = st.log ++ [⟨c, r, st.db (S.key c), st.db (S.key c)⟩] := rfl

omit [DecidableEq K] in
/-- What was under a key stays in its past. -/
theorem Past.log {st' : Store K C σ μ ε α} {e : Entry C σ ε α} {k : K} (h : st.Past S k v)
    (hlog : st'.log = st.log ++ [e]) (hbefore : e.before = st.db (S.key e.call))
    (hdb : k ≠ S.key e.call → st'.db k = st.db k) : st'.Past S k v := by
  rcases h with rfl | ⟨e', he', hk, hv⟩
  · by_cases hk : k = S.key e.call
    · subst hk
      exact .inr ⟨e, by rw [hlog]; exact List.mem_append_right _ (List.mem_singleton_self e), rfl, hbefore⟩
    · exact .inl (hdb hk).symm
  · exact .inr ⟨e', by rw [hlog]; exact List.mem_append_left _ he', hk, hv⟩

/-- Returning without a change is committing the value as it is. -/
theorem answer_eq_commit : st.answer S c (.ok a) = st.commit S c a (st.db (S.key c)) [] := by
  simp [answer, commit]

end

/-- One whole transaction, a call that fails, or a step of the relay. -/
inductive Step (S : Service K C σ μ ε α) (relay : List μ → List μ → Prop) :
    Store K C σ μ ε α → Store K C σ μ ε α → Prop
  /-- The part of a transaction under the row lock runs at once. -/
  | commit (st) (c q a v ms) : Unlocked (st.Past S (S.key c)) (S.txn c) (.lock q) → q.Yields (st.db (S.key c)) a v ms →
      Step S relay st (st.commit S c a v ms)
  /-- A call that only read returns. -/
  | answer (st) (c a) : Unlocked (st.Past S (S.key c)) (S.txn c) (.ret a) →
      Step S relay st (st.answer S c (.ok a))
  /-- A call that throws. -/
  | fail (st) (c e) : Step S relay st (st.answer S c (.error e))
  | relay (st) (out) : relay st.outbox out → Step S relay st { st with outbox := out }

/-- The stores that whole transactions reach. -/
inductive Reachable (S : Service K C σ μ ε α) (relay : List μ → List μ → Prop) (init : K → σ) :
    Store K C σ μ ε α → Prop
  | start : Reachable S relay init ⟨init, [], []⟩
  | step {st st'} : Reachable S relay init st → Step S relay st st' → Reachable S relay init st'

variable {S : Service K C σ μ ε α} {relay : List μ → List μ → Prop}

/-- What a call may do to the committed state: what it does under the row lock if it returns, and
nothing if it throws. -/
theorem Step.cases {Q : C → σ → α → σ → List μ → Prop} {st st' : Store K C σ μ ε α}
    (hQ : ∀ c, (S.txn c).underLock (st.Past S (S.key c)) (Q c)) (h : Step S relay st st') :
    (∃ c a v ms, Q c (st.db (S.key c)) a v ms ∧ st' = st.commit S c a v ms) ∨
    (∃ c e, st' = st.answer S c (.error e)) ∨
    (∃ out, relay st.outbox out ∧ st' = { st with outbox := out }) := by
  cases h with
  | commit c q a v ms hu hy =>
    exact .inl ⟨c, a, v, ms, Txn.wp_iff.mp (hu.underLock (hQ c) _) a v ms hy, rfl⟩
  | answer c a hu => exact .inl ⟨c, a, _, [], hu.underLock (hQ c) _, answer_eq_commit⟩
  | fail c e => exact .inr (.inl ⟨c, e, rfl⟩)
  | relay out hrel => exact .inr (.inr ⟨out, hrel, rfl⟩)

/-- **The invariant rule.** -/
theorem Reachable.invariant {init : K → σ} (P : Store K C σ μ ε α → Prop) (hinit : P ⟨init, [], []⟩)
    (hstep : ∀ st st', P st → Step S relay st st' → P st') {st : Store K C σ μ ε α}
    (h : Reachable S relay init st) : P st := by
  induction h with
  | start => exact hinit
  | step _ hs ih => exact hstep _ _ ih hs

/-- **What every call carries on, the past carries on to the present.** -/
theorem Reachable.past {R : σ → σ → Prop} (hrefl : ∀ v, R v v)
    (htrans : ∀ {u v w}, R u v → R v w → R u w)
    (hR : ∀ P c, (S.txn c).underLock P fun v _ v' _ => R v v') {init : K → σ}
    {st : Store K C σ μ ε α} (h : Reachable S relay init st) (k : K) {v : σ} (hv : st.Past S k v) :
    R v (st.db k) := by
  revert k v
  refine h.invariant (fun st => ∀ k v, st.Past S k v → R v (st.db k)) ?_ ?_
  · rintro k v (rfl | ⟨e, he, -⟩)
    · exact hrefl _
    · exact absurd he List.not_mem_nil
  · intro st st' ih hstep k v hv
    rcases hstep.cases fun c => hR _ c with ⟨c, a, w, ms, hw, rfl⟩ | ⟨c, e, rfl⟩ | ⟨out, -, rfl⟩
    · have hnow : R (st.db k) ((st.commit S c a w ms).db k) := by
        by_cases hk : k = S.key c
        · subst hk
          rwa [commit_db_self]
        · rw [commit_db_of_ne hk]
          exact hrefl _
      rcases hv with rfl | ⟨e, he, hk, hbefore⟩
      · exact hrefl _
      · rw [commit_log] at he
        rcases List.mem_append.mp he with he | he
        · exact htrans (ih k v (.inr ⟨e, he, hk, hbefore⟩)) hnow
        · obtain rfl := List.mem_singleton.mp he
          subst hk hbefore
          exact hnow
    · rcases hv with rfl | ⟨e', he, hk, hbefore⟩
      · exact hrefl _
      · rw [answer_log] at he
        rcases List.mem_append.mp he with he | he
        · exact ih k v (.inr ⟨e', he, hk, hbefore⟩)
        · obtain rfl := List.mem_singleton.mp he
          subst hk hbefore
          exact hrefl _
    · exact ih k v hv

/-! ## Histories -/

/-- What became of the calls on a key. -/
def history (S : Service K C σ μ ε α) (st : Store K C σ μ ε α) (k : K) : List (Entry C σ ε α) :=
  st.log.filter fun e => S.key e.call = k

section

variable {st : Store K C σ μ ε α}

theorem history_commit_self {c : C} {a : α} {v : σ} {ms : List μ} :
    (st.commit S c a v ms).history S (S.key c) =
      st.history S (S.key c) ++ [⟨c, .ok a, st.db (S.key c), v⟩] := by
  simp [history]

theorem history_answer_self {c : C} {r : Except ε α} :
    (st.answer S c r).history S (S.key c) =
      st.history S (S.key c) ++ [⟨c, r, st.db (S.key c), st.db (S.key c)⟩] := by
  simp [history]

theorem history_commit_of_ne {c : C} {a : α} {v : σ} {ms : List μ} {k : K} (h : k ≠ S.key c) :
    (st.commit S c a v ms).history S k = st.history S k := by
  simp [history, Ne.symm h]

theorem history_answer_of_ne {c : C} {r : Except ε α} {k : K} (h : k ≠ S.key c) :
    (st.answer S c r).history S k = st.history S k := by
  simp [history, Ne.symm h]

end

/-- **The calls on a key lead from its first value to its last**, each doing what `Q` says or
throwing. -/
theorem Reachable.history {Q : C → σ → α → σ → List μ → Prop}
    (hQ : ∀ P c, (S.txn c).underLock P (Q c)) {init : K → σ} {st : Store K C σ μ ε α}
    (h : Reachable S relay init st) (k : K) : History Q (init k) (st.history S k) (st.db k) := by
  refine h.invariant (fun st => History Q (init k) (st.history S k) (st.db k)) .nil ?_
  intro st st' ih hstep
  rcases hstep.cases fun c => hQ _ c with ⟨c, a, v, ms, hq, rfl⟩ | ⟨c, e, rfl⟩ | ⟨out, -, rfl⟩
  · by_cases hk : k = S.key c
    · subst hk
      rw [history_commit_self, commit_db_self]
      exact ih.returns c a v ms hq
    · rwa [history_commit_of_ne hk, commit_db_of_ne hk]
  · by_cases hk : k = S.key c
    · subst hk
      rw [history_answer_self]
      exact ih.throws c e
    · rwa [history_answer_of_ne hk]
  · exact ih

end Store

/-- What a call in the log did. -/
theorem Store.Reachable.of_mem_log {S : Service K C σ μ ε α} {relay : List μ → List μ → Prop}
    {Q : C → σ → α → σ → List μ → Prop} (hQ : ∀ P c, (S.txn c).underLock P (Q c)) {init : K → σ}
    {st : Store K C σ μ ε α} (h : Store.Reachable S relay init st) {e : Entry C σ ε α} (he : e ∈ st.log)
    {a : α} (ha : e.result = .ok a) : ∃ ms, Q e.call e.before a e.after ms :=
  (h.history hQ (S.key e.call)).of_mem (List.mem_filter.mpr ⟨he, by simp⟩) ha

/-! ## Sessions -/

/-- A session that runs a call. -/
structure Session (C σ μ ε α : Type) where
  call : C
  /-- What is left to run. -/
  rest : Txn σ μ ε α
  /-- The private copy, from the row lock on. -/
  work : Option σ
  /-- The messages to send at the commit. -/
  sent : List μ
  /-- The named locks held. -/
  names : List String

/-- What a statement of the session sees: its own changes, else what is committed. -/
def Session.view (x : Session C σ μ ε α) (s : σ) : σ := x.work.getD s

/-- What is left of a session that only reads, and the copy that it reads. -/
def Session.OnlyReads (P : σ → Prop) (R : α → Prop) (x : Session C σ μ ε α) : Prop :=
  x.rest.returns P R ∧ ∀ w, x.work = some w → P w

/-- Sessions side by side over a store. -/
structure System (ι K C σ μ ε α : Type) extends Store K C σ μ ε α where
  session : ι → Option (Session C σ μ ε α)

namespace System

/-- The session `i` goes on as `x`. -/
def put (s : System ι K C σ μ ε α) (i : ι) (x : Session C σ μ ε α) : System ι K C σ μ ε α :=
  { s with session := Function.update s.session i (some x) }

/-- The session `i` ends, leaving the store `st`. -/
def finish (s : System ι K C σ μ ε α) (i : ι) (st : Store K C σ μ ε α) :
    System ι K C σ μ ε α :=
  { st with session := Function.update s.session i none }

/-- The store after the session `x` commits and returns `a`. -/
def committed (S : Service K C σ μ ε α) (st : Store K C σ μ ε α) (x : Session C σ μ ε α) (a : α) :
    Store K C σ μ ε α where
  db := match x.work with
    | none => st.db
    | some w => Function.update st.db (S.key x.call) w
  outbox := st.outbox ++ x.sent
  log := st.log ++ [⟨x.call, .ok a, st.db (S.key x.call), x.work.getD (st.db (S.key x.call))⟩]

/-- One statement of one session, a failure, or a step of the relay. -/
inductive Step (S : Service K C σ μ ε α) (relay : List μ → List μ → Prop) :
    System ι K C σ μ ε α → System ι K C σ μ ε α → Prop
  | begin (s) (i c) : s.session i = none → Step S relay s (s.put i ⟨c, S.txn c, none, [], []⟩)
  | read (s) (i x next) : s.session i = some x → x.rest = .read next →
      Step S relay s (s.put i { x with rest := next (x.view (s.db (S.key x.call))) })
  | write (s) (i x f next w) : s.session i = some x → x.rest = .write f next → x.work = some w →
      Step S relay s (s.put i { x with rest := next, work := some (f w) })
  | emit (s) (i x m next w) : s.session i = some x → x.rest = .emit m next → x.work = some w →
      Step S relay s (s.put i { x with rest := next, sent := x.sent ++ [m] })
  | advisory (s) (i x name next) : s.session i = some x → x.rest = .advisory name next →
      (∀ j y, s.session j = some y → j ≠ i → name ∉ y.names) →
      Step S relay s (s.put i { x with rest := next, names := name :: x.names })
  | lock (s) (i x next) : s.session i = some x → x.rest = .lock next →
      (∀ j y, s.session j = some y → j ≠ i → S.key y.call = S.key x.call → y.work = none) →
      Step S relay s (s.put i { x with rest := next, work := some (x.view (s.db (S.key x.call))) })
  | commit (s) (i x a) : s.session i = some x → x.rest = .ret a →
      Step S relay s (s.finish i (committed S s.toStore x a))
  | rollback (s) (i x e) : s.session i = some x → x.rest = .throw e →
      Step S relay s (s.finish i (s.toStore.answer S x.call (.error e)))
  /-- The database, the connection or the process fails. -/
  | fail (s) (i x e) : s.session i = some x →
      Step S relay s (s.finish i (s.toStore.answer S x.call (.error e)))
  | relay (s) (out) : relay s.outbox out → Step S relay s { s with outbox := out }

/-- The states that sessions side by side reach. -/
inductive Reachable (S : Service K C σ μ ε α) (relay : List μ → List μ → Prop) (init : K → σ) :
    System ι K C σ μ ε α → Prop
  | start : Reachable S relay init ⟨⟨init, [], []⟩, fun _ => none⟩
  | step {s s'} : Reachable S relay init s → Step S relay s s' → Reachable S relay init s'

/-- A step by which no session begins. -/
def Works (S : Service K C σ μ ε α) (relay : List μ → List μ → Prop) (s s' : System ι K C σ μ ε α) :
    Prop :=
  Step S relay s s' ∧ ∀ i, s.session i = none → s'.session i = none

variable {S : Service K C σ μ ε α} {relay : List μ → List μ → Prop}

/-- **Committed values change only when a call returns**: not at a statement, and not at a call
that throws. -/
theorem Step.db_eq_or_returns {s s' : System ι K C σ μ ε α} (h : Step S relay s s') :
    s'.db = s.db ∨ ∃ i x a, s.session i = some x ∧ x.rest = .ret a ∧
      s' = s.finish i (committed S s.toStore x a) := by
  cases h with
  | commit i x a hi hr => exact .inr ⟨i, x, a, hi, hr, rfl⟩
  | _ => exact .inl rfl

omit [DecidableEq K] in
theorem session_put {s : System ι K C σ μ ε α} {i j : ι} {x y : Session C σ μ ε α}
    (h : (s.put i y).session j = some x) : j = i ∧ x = y ∨ j ≠ i ∧ s.session j = some x := by
  by_cases hj : j = i
  · subst hj
    simp only [System.put, Function.update_self, Option.some_inj] at h
    exact .inl ⟨rfl, h.symm⟩
  · simp only [System.put, Function.update_of_ne hj] at h
    exact .inr ⟨hj, h⟩

omit [DecidableEq K] in
theorem session_finish {s : System ι K C σ μ ε α} {i j : ι} {st : Store K C σ μ ε α}
    {x : Session C σ μ ε α} (h : (s.finish i st).session j = some x) : j ≠ i ∧ s.session j = some x := by
  by_cases hj : j = i
  · subst hj; simp [System.finish] at h
  · exact ⟨hj, by simpa [System.finish, Function.update_of_ne hj] using h⟩

/-- A session works on the call that it began with. -/
theorem Step.session {s s' : System ι K C σ μ ε α} (h : Step S relay s s') {i : ι}
    {x : Session C σ μ ε α} (hx : s'.session i = some x) :
    s.session i = none ∨ ∃ y, s.session i = some y ∧ y.call = x.call := by
  have hput {j : ι} {y z : Session C σ μ ε α} (hj : s.session j = some y)
      (hx : (s.put j z).session i = some x) (hcall : y.call = z.call) :
      s.session i = none ∨ ∃ y, s.session i = some y ∧ y.call = x.call := by
    rcases session_put hx with ⟨rfl, rfl⟩ | ⟨-, hx⟩
    · exact .inr ⟨y, hj, hcall⟩
    · exact .inr ⟨x, hx, rfl⟩
  cases h with
  | begin j c hj =>
    rcases session_put hx with ⟨rfl, -⟩ | ⟨-, hx⟩
    · exact .inl hj
    · exact .inr ⟨x, hx, rfl⟩
  | read j y next hj | write j y f next w hj | emit j y m next w hj | advisory j y name next hj
  | lock j y next hj => exact hput hj hx rfl
  | commit | rollback | fail => exact .inr ⟨x, (session_finish hx).2, rfl⟩
  | relay => exact .inr ⟨x, hx, rfl⟩

/-- The log grows by what became of a session. -/
theorem Step.log_eq {s s' : System ι K C σ μ ε α} (h : Step S relay s s') :
    s'.log = s.log ∨ ∃ i x e, s.session i = some x ∧ e.call = x.call ∧ s'.log = s.log ++ [e] := by
  cases h with
  | commit i x a hi | rollback i x e hi | fail i x e hi => exact .inr ⟨i, x, _, hi, rfl, rfl⟩
  | _ => exact .inl rfl

/-! ## From sessions to whole transactions -/

/-- What ties the sessions to the committed store. -/
structure Coherent (S : Service K C σ μ ε α) (s : System ι K C σ μ ε α) : Prop where
  /-- One session at most holds the row lock of a key. -/
  exclusive : ∀ i j x y, s.session i = some x → s.session j = some y → i ≠ j →
    S.key x.call = S.key y.call → x.work.isSome → y.work = none
  /-- Under the row lock, what is left of the transaction on the private copy is what all of it
  would do on the committed value. -/
  locked : ∀ i x w, s.session i = some x → x.work = some w → ∃ q,
    Unlocked (s.Past S (S.key x.call)) (S.txn x.call) (.lock q) ∧
    ∀ a v ms, x.rest.Yields w a v ms → q.Yields (s.db (S.key x.call)) a v (x.sent ++ ms)
  /-- Without it, nothing but reads has happened. -/
  unlocked : ∀ i x, s.session i = some x → x.work = none →
    x.sent = [] ∧ Unlocked (s.Past S (S.key x.call)) (S.txn x.call) x.rest

omit [DecidableEq ι] [DecidableEq K] in
theorem coherent_start (init : K → σ) :
    Coherent S (⟨⟨init, [], []⟩, fun _ => none⟩ : System ι K C σ μ ε α) where
  exclusive := by simp
  locked := by simp
  unlocked := by simp

omit [DecidableEq K] in
/-- A session that goes on keeps the state coherent when it is tied to the store itself and takes
no lock that another holds. -/
theorem Coherent.put {s : System ι K C σ μ ε α} (h : Coherent S s) {i : ι}
    {y : Session C σ μ ε α}
    (hex : ∀ j z, s.session j = some z → j ≠ i → S.key z.call = S.key y.call →
      y.work.isSome → z.work = none)
    (hex' : ∀ j z, s.session j = some z → j ≠ i → S.key z.call = S.key y.call →
      z.work.isSome → y.work = none)
    (hlocked : ∀ w, y.work = some w → ∃ q,
      Unlocked (s.Past S (S.key y.call)) (S.txn y.call) (.lock q) ∧
      ∀ a v ms, y.rest.Yields w a v ms → q.Yields (s.db (S.key y.call)) a v (y.sent ++ ms))
    (hunlocked : y.work = none →
      y.sent = [] ∧ Unlocked (s.Past S (S.key y.call)) (S.txn y.call) y.rest) :
    Coherent S (s.put i y) := by
  refine ⟨?_, ?_, ?_⟩
  · intro j k x z hx hz hjk hkey hwork
    rcases session_put hx with ⟨rfl, rfl⟩ | ⟨hj, hx'⟩ <;>
      rcases session_put hz with ⟨rfl, rfl⟩ | ⟨hk, hz'⟩
    · exact absurd rfl hjk
    · exact hex k z hz' hk hkey.symm hwork
    · exact hex' j x hx' hj hkey hwork
    · exact h.exclusive j k x z hx' hz' hjk hkey hwork
  · intro j z w hz hw
    rcases session_put hz with ⟨rfl, rfl⟩ | ⟨_, hz⟩
    · exact hlocked w hw
    · exact h.locked j z w hz hw
  · intro j z hz hw
    rcases session_put hz with ⟨rfl, rfl⟩ | ⟨_, hz⟩
    · exact hunlocked hw
    · exact h.unlocked j z hz hw

omit [DecidableEq K] in
/-- A session that runs on without a new lock keeps the state coherent. -/
theorem Coherent.put_same {s : System ι K C σ μ ε α} (h : Coherent S s) {i : ι}
    {x y : Session C σ μ ε α} (hi : s.session i = some x) (hcall : y.call = x.call)
    (hwork : y.work.isSome = x.work.isSome)
    (hlocked : ∀ w, y.work = some w → ∃ q,
      Unlocked (s.Past S (S.key y.call)) (S.txn y.call) (.lock q) ∧
      ∀ a v ms, y.rest.Yields w a v ms → q.Yields (s.db (S.key y.call)) a v (y.sent ++ ms))
    (hunlocked : y.work = none →
      y.sent = [] ∧ Unlocked (s.Past S (S.key y.call)) (S.txn y.call) y.rest) :
    Coherent S (s.put i y) := by
  refine h.put ?_ ?_ hlocked hunlocked
  · intro j z hz hj hkey hy
    exact h.exclusive i j x z hi hz (Ne.symm hj) (by rw [hkey, hcall]) (hwork ▸ hy)
  · intro j z hz hj hkey hzw
    have := h.exclusive j i z x hz hi hj (by rw [hkey, hcall]) hzw
    rw [this] at hwork
    simpa using hwork

/-- When a session ends, the others stay tied to a store that differs under its key at most, if it
held the lock of that key. -/
theorem Coherent.finish {s : System ι K C σ μ ε α} (h : Coherent S s) {i : ι}
    {x : Session C σ μ ε α} (hi : s.session i = some x) {st : Store K C σ μ ε α}
    (hpast : ∀ k v, s.Past S k v → st.Past S k v)
    (hdb : st.db = s.db ∨ x.work.isSome ∧ ∃ v, st.db = Function.update s.db (S.key x.call) v) :
    Coherent S (s.finish i st) := by
  refine ⟨?_, ?_, ?_⟩
  · intro j k y z hy hz
    exact h.exclusive j k y z (session_finish hy).2 (session_finish hz).2
  · intro j z w hz hw
    obtain ⟨hj, hz⟩ := session_finish hz
    obtain ⟨q, hq, hrun⟩ := h.locked j z w hz hw
    refine ⟨q, hq.mono (hpast _), ?_⟩
    change ∀ a v ms, z.rest.Yields w a v ms → q.Yields (st.db (S.key z.call)) a v (z.sent ++ ms)
    rcases hdb with hdb | ⟨hx, v, hdb⟩
    · rw [hdb]; exact hrun
    · have hne : S.key z.call ≠ S.key x.call := by
        intro hkey
        have := h.exclusive i j x z hi hz (Ne.symm hj) hkey.symm hx
        simp [this] at hw
      rw [hdb, Function.update_of_ne hne]
      exact hrun
  · intro j z hz hw
    obtain ⟨hsent, hu⟩ := h.unlocked j z (session_finish hz).2 hw
    exact ⟨hsent, hu.mono (hpast _)⟩

theorem Coherent.step {s s' : System ι K C σ μ ε α} (h : Coherent S s)
    (hs : Step S relay s s') : Coherent S s' := by
  cases hs with
  | begin i c hi =>
    refine h.put ?_ ?_ ?_ ?_
    · simp
    · simp
    · simp
    · intro _; exact ⟨rfl, .refl _⟩
  | read i x next hi hr =>
    refine h.put_same hi rfl rfl ?_ ?_
    · intro w hw
      obtain ⟨q, hq, hrun⟩ := h.locked i x w hi hw
      refine ⟨q, hq, fun a v ms hy => hrun a v ms ?_⟩
      rw [hr, Txn.yields_read]
      simpa [Session.view, show x.work = some w from hw] using hy
    · intro hw
      obtain ⟨hsent, hu⟩ := h.unlocked i x hi hw
      refine ⟨hsent, .read _ (.inl ?_) (hr ▸ hu)⟩
      rw [Session.view, show x.work = none from hw, Option.getD_none]
  | write i x f next w hi hr hw =>
    refine h.put_same hi rfl (by simp [hw]) ?_ (by simp)
    intro w' hw'
    obtain rfl := Option.some_inj.mp hw'
    obtain ⟨q, hq, hrun⟩ := h.locked i x w hi hw
    exact ⟨q, hq, fun a v ms hy => hrun a v ms (by rw [hr, Txn.yields_write]; exact hy)⟩
  | emit i x m next w hi hr hw =>
    refine h.put_same hi rfl rfl ?_ (by simp [hw])
    intro w' hw'
    obtain rfl := Option.some_inj.mp (hw.symm.trans hw')
    obtain ⟨q, hq, hrun⟩ := h.locked i x w hi hw
    refine ⟨q, hq, fun a v ms hy => ?_⟩
    have := hrun a v (m :: ms) (by rw [hr, Txn.yields_emit]; exact ⟨ms, hy, rfl⟩)
    simpa using this
  | advisory i x name next hi hr _ =>
    refine h.put_same hi rfl rfl ?_ ?_
    · intro w hw
      obtain ⟨q, hq, hrun⟩ := h.locked i x w hi hw
      exact ⟨q, hq, fun a v ms hy => hrun a v ms (by rw [hr, Txn.yields_advisory]; exact hy)⟩
    · intro hw
      obtain ⟨hsent, hu⟩ := h.unlocked i x hi hw
      exact ⟨hsent, .advisory (hr ▸ hu)⟩
  | lock i x next hi hr hfree =>
    refine h.put (fun j z hz hj hkey _ => hfree j z hz hj hkey) ?_ ?_ (by simp)
    · intro j z hz hj hkey hzw
      rw [hfree j z hz hj hkey] at hzw
      simp at hzw
    · intro w hw
      obtain rfl := Option.some_inj.mp hw
      cases hwork : x.work with
      | none =>
        obtain ⟨hsent, hu⟩ := h.unlocked i x hi hwork
        refine ⟨next, hr ▸ hu, fun a v ms hy => ?_⟩
        simpa [Session.view, hwork, hsent] using hy
      | some w =>
        obtain ⟨q, hq, hrun⟩ := h.locked i x w hi hwork
        refine ⟨q, hq, fun a v ms hy => hrun a v ms ?_⟩
        rw [hr, Txn.yields_lock]
        simpa [Session.view, hwork] using hy
  | commit i x a hi hr =>
    refine h.finish hi (fun k v hv => hv.log rfl rfl fun hk => ?_) ?_
    · cases hw : x.work with
      | none => simp [committed, hw]
      | some w => simp [committed, hw, Function.update_of_ne hk]
    · cases hw : x.work with
      | none => exact .inl (by simp [committed, hw])
      | some w => exact .inr ⟨rfl, w, by simp [committed, hw]⟩
  | rollback i x e hi hr => exact h.finish hi (fun k v hv => hv.log rfl rfl fun _ => rfl) (.inl rfl)
  | fail i x e hi => exact h.finish hi (fun k v hv => hv.log rfl rfl fun _ => rfl) (.inl rfl)
  | relay out hrel => exact ⟨h.exclusive, h.locked, h.unlocked⟩

theorem Reachable.coherent {init : K → σ} {s : System ι K C σ μ ε α}
    (h : Reachable S relay init s) : Coherent S s := by
  induction h with
  | start => exact coherent_start init
  | step _ hs ih => exact ih.step hs

/-- A step of a session is none of the store, or one whole transaction. -/
theorem Step.store {s s' : System ι K C σ μ ε α} (h : Coherent S s) (hs : Step S relay s s') :
    s'.toStore = s.toStore ∨ Store.Step S relay s.toStore s'.toStore := by
  cases hs with
  | commit i x a hi hr =>
    right
    change Store.Step S relay s.toStore (committed S s.toStore x a)
    cases hw : x.work with
    | none =>
      obtain ⟨hsent, hu⟩ := h.unlocked i x hi hw
      have : Store.Step S relay s.toStore _ := .answer s.toStore x.call a (hr ▸ hu)
      simpa [committed, hw, hsent, Store.answer] using this
    | some w =>
      obtain ⟨q, hq, hrun⟩ := h.locked i x w hi hw
      have hy := hrun a w [] (by rw [hr, Txn.yields_ret]; exact ⟨rfl, rfl, rfl⟩)
      have : Store.Step S relay s.toStore _ := .commit s.toStore x.call q a w (x.sent ++ []) hq hy
      simpa [committed, hw, Store.commit] using this
  | rollback i x e hi hr => exact .inr (.fail s.toStore x.call e)
  | fail i x e hi => exact .inr (.fail s.toStore x.call e)
  | relay out hrel => exact .inr (.relay s.toStore out hrel)
  | _ => exact .inl rfl

/-- **Every interleaving is a sequence of whole transactions.** -/
theorem Reachable.store {init : K → σ} {s : System ι K C σ μ ε α} (h : Reachable S relay init s) :
    Store.Reachable S relay init s.toStore := by
  induction h with
  | start => exact .start
  | step hr hs ih =>
    rcases hs.store hr.coherent with heq | hstep
    · rw [heq]; exact ih
    · exact ih.step hstep

theorem Reachable.steps {init : K → σ} {s s' : System ι K C σ μ ε α} (h : Reachable S relay init s)
    (hsteps : Relation.ReflTransGen (Step S relay) s s') : Reachable S relay init s' := by
  induction hsteps with
  | refl => exact h
  | tail _ hstep ih => exact ih.step hstep

theorem Reachable.works {init : K → σ} {s s' : System ι K C σ μ ε α} (h : Reachable S relay init s)
    (hworks : Relation.ReflTransGen (Works S relay) s s') : Reachable S relay init s' := by
  induction hworks with
  | refl => exact h
  | tail _ hstep ih => exact ih.step hstep.1

/-- **What every call carries on, steps carry on.** -/
theorem Reachable.carries {R : σ → σ → Prop} (hrefl : ∀ v, R v v)
    (htrans : ∀ {u v w}, R u v → R v w → R u w)
    (hR : ∀ P c, (S.txn c).underLock P fun v _ v' _ => R v v') {init : K → σ} {s s' : System ι K C σ μ ε α}
    (h : Reachable S relay init s) (hsteps : Relation.ReflTransGen (Step S relay) s s') (k : K) :
    R (s.db k) (s'.db k) := by
  induction hsteps with
  | refl => exact hrefl _
  | @tail s₁ s₂ hsteps hstep ih =>
    refine htrans ih ?_
    rcases hstep.store (h.steps hsteps).coherent with heq | hstore
    · rw [show s₂.db = s₁.db from congrArg Store.db heq]
      exact hrefl _
    · generalize s₂.toStore = st₂ at hstore
      rcases hstore.cases fun c => hR _ c with ⟨c, a, w, ms, hw, rfl⟩ | ⟨c, e, rfl⟩ | ⟨out, -, rfl⟩
      · by_cases hk : k = S.key c
        · subst hk
          rwa [Store.commit_db_self]
        · rw [Store.commit_db_of_ne hk]
          exact hrefl _
      · exact hrefl _
      · exact hrefl _

/-- What is logged is what became of a call on the committed value of its key. -/
theorem Step.log_before {s s' : System ι K C σ μ ε α} (h : Step S relay s s') :
    s'.log = s.log ∨ ∃ e, s'.log = s.log ++ [e] ∧ e.before = s.db (S.key e.call) := by
  cases h with
  | commit i x a hi | rollback i x e hi | fail i x e hi => exact .inr ⟨_, rfl, rfl⟩
  | _ => exact .inl rfl

/-- **What every call carries on, steps carry on to the calls that are logged after them.** -/
theorem Reachable.carries_before {R : σ → σ → Prop} (hrefl : ∀ v, R v v)
    (htrans : ∀ {u v w}, R u v → R v w → R u w)
    (hR : ∀ P c, (S.txn c).underLock P fun v _ v' _ => R v v') {init : K → σ} {s s' : System ι K C σ μ ε α}
    (h : Reachable S relay init s) (hsteps : Relation.ReflTransGen (Step S relay) s s') :
    ∃ later, s'.log = s.log ++ later ∧ ∀ e ∈ later, R (s.db (S.key e.call)) e.before := by
  induction hsteps with
  | refl => exact ⟨[], (List.append_nil _).symm, List.forall_mem_nil _⟩
  | @tail s₁ s₂ hsteps hstep ih =>
    obtain ⟨later, hlog, hlater⟩ := ih
    rcases hstep.log_before with hlog' | ⟨e, hlog', hbefore⟩
    · exact ⟨later, hlog'.trans hlog, hlater⟩
    · refine ⟨later ++ [e], by rw [hlog', hlog, List.append_assoc], ?_⟩
      rw [List.forall_mem_append, List.forall_mem_singleton]
      refine ⟨hlater, ?_⟩
      rw [hbefore]
      exact h.carries hrefl htrans hR hsteps _

/-! ## Sessions that only read -/

theorem Step.mem_log {s s' : System ι K C σ μ ε α} (h : Step S relay s s') {e : Entry C σ ε α}
    (he : e ∈ s.log) : e ∈ s'.log := by
  rcases h.log_eq with hlog | ⟨i, x, e', -, -, hlog⟩
  · rwa [hlog]
  · rw [hlog]
    exact List.mem_append_left _ he

/-- A session that begins with calls that only read goes on to read, as long as the value under its key
is one that they expect. -/
theorem Step.onlyReads {P : σ → Prop} {R : α → Prop} {A : C → Prop}
    {s s' : System ι K C σ μ ε α} (hA : ∀ c, A c → P (s.db (S.key c)) ∧ (S.txn c).returns P R) {i : ι}
    (h : ∀ x, s.session i = some x → A x.call → x.OnlyReads P R) (hstep : Step S relay s s') :
    ∀ x, s'.session i = some x → A x.call → x.OnlyReads P R := by
  intro x hx hcall
  have hview (y : Session C σ μ ε α) (hy : y.OnlyReads P R) (hc : A y.call) :
      P (y.view (s.db (S.key y.call))) := by
    cases hw : y.work with
    | none => rw [Session.view, hw, Option.getD_none]; exact (hA _ hc).1
    | some w => rw [Session.view, hw, Option.getD_some]; exact hy.2 w hw
  cases hstep with
  | begin j c hj =>
    rcases session_put hx with ⟨rfl, rfl⟩ | ⟨-, hx⟩
    · exact ⟨(hA c hcall).2, fun w hw => absurd hw (by simp)⟩
    · exact h x hx hcall
  | read j y next hj hr =>
    rcases session_put hx with ⟨rfl, rfl⟩ | ⟨-, hx⟩
    · have hy := h y hj hcall
      have hreturns := hy.1
      rw [hr] at hreturns
      exact ⟨hreturns _ (hview y hy hcall), hy.2⟩
    · exact h x hx hcall
  | write j y f next w hj hr hw =>
    rcases session_put hx with ⟨rfl, rfl⟩ | ⟨-, hx⟩
    · have hreturns := (h y hj hcall).1
      rw [hr] at hreturns
      exact hreturns.elim
    · exact h x hx hcall
  | emit j y m next w hj hr hw =>
    rcases session_put hx with ⟨rfl, rfl⟩ | ⟨-, hx⟩
    · have hreturns := (h y hj hcall).1
      rw [hr] at hreturns
      exact hreturns.elim
    · exact h x hx hcall
  | advisory j y name next hj hr _ =>
    rcases session_put hx with ⟨rfl, rfl⟩ | ⟨-, hx⟩
    · have hy := h y hj hcall
      have hreturns := hy.1
      rw [hr] at hreturns
      exact ⟨hreturns, hy.2⟩
    · exact h x hx hcall
  | lock j y next hj hr _ =>
    rcases session_put hx with ⟨rfl, rfl⟩ | ⟨-, hx⟩
    · have hy := h y hj hcall
      have hreturns := hy.1
      rw [hr] at hreturns
      refine ⟨hreturns, fun w hw => ?_⟩
      obtain rfl := Option.some_inj.mp hw
      exact hview y hy hcall
    · exact h x hx hcall
  | commit j y a hj hr => exact h x (session_finish hx).2 hcall
  | rollback j y e hj hr => exact h x (session_finish hx).2 hcall
  | fail j y e hj => exact h x (session_finish hx).2 hcall
  | relay out hrel => exact h x hx hcall

/-! ## One session at a time -/

/-- Only the session `i` is busy. -/
def alone (st : Store K C σ μ ε α) (i : ι) (x : Session C σ μ ε α) : System ι K C σ μ ε α :=
  { st with session := Function.update (fun _ => none) i (some x) }

/-- No session is busy. -/
def idle (st : Store K C σ μ ε α) : System ι K C σ μ ε α := { st with session := fun _ => none }

omit [DecidableEq K] in
@[simp] theorem alone_session (st : Store K C σ μ ε α) (i : ι) (x : Session C σ μ ε α) :
    (alone st i x).session i = some x := by simp [alone]

omit [DecidableEq K] in
theorem alone_session_of_ne (st : Store K C σ μ ε α) {i j : ι} (x : Session C σ μ ε α) (h : j ≠ i) :
    (alone st i x).session j = none := by simp [alone, h]

omit [DecidableEq K] in
@[simp] theorem alone_put (st : Store K C σ μ ε α) (i : ι) (x y : Session C σ μ ε α) :
    (alone st i x).put i y = alone st i y := by
  simp [alone, System.put]

omit [DecidableEq K] in
@[simp] theorem alone_finish (st st' : Store K C σ μ ε α) (i : ι) (x : Session C σ μ ε α) :
    (alone st i x).finish i st' = idle st' := by
  simp [alone, idle, System.finish]

section

variable {st st' : Store K C σ μ ε α} {i : ι} {c : C} {a : α} {v : σ} {ms : List μ}
  {x y : Session C σ μ ε α}

/-- A session that is alone goes on. -/
theorem works_put (h : Step S relay (alone st i x) ((alone st i x).put i y)) :
    Works S relay (alone st i x) (alone st i y) := by
  rw [alone_put] at h
  refine ⟨h, fun j hj => ?_⟩
  by_cases hne : j = i
  · subst hne
    rw [alone_session] at hj
    cases hj
  · exact alone_session_of_ne st y hne

/-- A session that is alone ends. -/
theorem works_finish (h : Step S relay (alone st i x) ((alone st i x).finish i st')) :
    Works S relay (alone st i x) (idle st') := by
  rw [alone_finish] at h
  exact ⟨h, fun _ _ => rfl⟩


/-- Under the row lock, a session that is alone runs to its commit. -/
theorem works_locked {p : Txn σ μ ε α} {w : σ} {sent : List μ} {names : List String}
    (hy : p.Yields w a v ms) :
    Relation.ReflTransGen (Works S relay) (alone st i ⟨c, p, some w, sent, names⟩)
      (idle (ι := ι) (st.commit S c a v (sent ++ ms))) := by
  induction p generalizing w sent names ms with
  | ret b =>
    obtain ⟨rfl, rfl, rfl⟩ := Txn.yields_ret.mp hy
    have hcommitted : committed S st ⟨c, .ret a, some v, sent, names⟩ a = st.commit S c a v (sent ++ []) := by
      simp [committed, Store.commit]
    rw [← hcommitted]
    exact .single (works_finish (.commit _ i _ a (alone_session _ _ _) rfl))
  | throw e => exact absurd hy Txn.yields_throw
  | read next ih => exact .head (works_put (.read _ i _ next (alone_session _ _ _) rfl)) (ih w hy)
  | write f next ih =>
    exact .head (works_put (.write _ i _ f next w (alone_session _ _ _) rfl rfl)) (ih hy)
  | emit m next ih =>
    obtain ⟨ns, hns, rfl⟩ := Txn.yields_emit.mp hy
    have hworks : Works S relay (alone st i ⟨c, .emit m next, some w, sent, names⟩)
        (alone st i ⟨c, next, some w, sent ++ [m], names⟩) :=
      works_put (.emit _ i _ m next w (alone_session _ _ _) rfl rfl)
    have hrest : Relation.ReflTransGen (Works S relay) (alone st i ⟨c, next, some w, sent ++ [m], names⟩)
        (idle (ι := ι) (st.commit S c a v (sent ++ [m] ++ ns))) := ih hns
    rw [List.append_assoc, List.singleton_append] at hrest
    exact .head hworks hrest
  | advisory name next ih =>
    exact .head (works_put (.advisory _ i _ name next (alone_session _ _ _) rfl fun j y hj hne => by
      simp [alone_session_of_ne st _ hne] at hj)) (ih hy)
  | lock next ih =>
    exact .head (works_put (.lock _ i _ next (alone_session _ _ _) rfl fun j y hj hne _ => by
      simp [alone_session_of_ne st _ hne] at hj)) (ih hy)

/-- Before it locks its key, a session that is alone runs to its commit. -/
theorem works_unlocked {Q : σ → α → σ → List μ → Prop} {p : Txn σ μ ε α}
    {names : List String} (hp : p.underLock (· = st.db (S.key c)) Q)
    (hy : p.Yields (st.db (S.key c)) a v ms) :
    Relation.ReflTransGen (Works S relay) (alone st i ⟨c, p, none, [], names⟩)
      (idle (ι := ι) (st.commit S c a v ms)) := by
  induction p generalizing names with
  | ret b =>
    obtain ⟨rfl, rfl, rfl⟩ := Txn.yields_ret.mp hy
    have hcommitted : committed S st ⟨c, .ret a, none, [], names⟩ a =
        st.commit S c a (st.db (S.key c)) [] := by
      simp [committed, Store.commit]
    rw [← hcommitted]
    exact .single (works_finish (.commit _ i _ a (alone_session _ _ _) rfl))
  | throw e => exact absurd hy Txn.yields_throw
  | read next ih =>
    exact .head (works_put (.read _ i _ next (alone_session _ _ _) rfl)) (ih _ (hp _ rfl) hy)
  | write f next ih => exact hp.elim
  | emit m next ih => exact hp.elim
  | advisory name next ih =>
    exact .head (works_put (.advisory _ i _ name next (alone_session _ _ _) rfl fun j y hj hne => by
      simp [alone_session_of_ne st _ hne] at hj)) (ih hp hy)
  | lock next ih =>
    exact .head (works_put (.lock _ i _ next (alone_session _ _ _) rfl fun j y hj hne _ => by
      simp [alone_session_of_ne st _ hne] at hj)) (works_locked hy)

end

end System

/-! ## Whole calls, one after another -/

section

variable (S : Service K C σ μ ε α)

/-- One call, on its own. -/
def Store.call (st : Store K C σ μ ε α) (c : C) : Store K C σ μ ε α :=
  match (S.txn c).run (st.db (S.key c)) with
  | .ok (a, v, ms) => st.commit S c a v ms
  | .error e => st.answer S c (.error e)

theorem Store.call_of_yields {S : Service K C σ μ ε α} {st : Store K C σ μ ε α} {c : C} {a : α} {v : σ}
    {ms : List μ} (h : (S.txn c).Yields (st.db (S.key c)) a v ms) : st.call S c = st.commit S c a v ms := by
  have hrun : (S.txn c).run (st.db (S.key c)) = .ok (a, v, ms) := h
  rw [Store.call, hrun]

/-- Calls, one after another. -/
def Store.calls (st : Store K C σ μ ε α) (cs : List C) : Store K C σ μ ε α := cs.foldl (·.call S) st

variable {S} {relay : List μ → List μ → Prop} {init : K → σ} {st : Store K C σ μ ε α}

theorem Store.call_log (st : Store K C σ μ ε α) (c : C) :
    (st.call S c).log.map Entry.call = st.log.map Entry.call ++ [c] := by
  rw [Store.call]; split <;> simp

/-- The log is the calls. -/
theorem Store.calls_log (st : Store K C σ μ ε α) (cs : List C) :
    (st.calls S cs).log.map Entry.call = st.log.map Entry.call ++ cs := by
  induction cs generalizing st with
  | nil => simp [Store.calls]
  | cons c cs ih =>
    change ((st.call S c).calls S cs).log.map Entry.call = _
    rw [ih, call_log, List.append_assoc, List.singleton_append]

/-- A call that is alone runs to its end. -/
theorem System.works_call {Q : C → σ → α → σ → List μ → Prop}
    (hQ : ∀ P c, (S.txn c).underLock P (Q c)) (i : ι) (c : C) :
    Relation.ReflTransGen (System.Works S relay) ((System.idle st).put i ⟨c, S.txn c, none, [], []⟩)
      (System.idle (st.call S c)) := by
  change Relation.ReflTransGen (System.Works S relay) (System.alone st i _) _
  rw [Store.call]
  split
  · next a v ms hrun => exact System.works_unlocked (hQ _ c) hrun
  · next e hrun => exact .single (System.works_finish (.fail _ i _ e (System.alone_session _ _ _)))

theorem System.Reachable.call [Nonempty ι] {Q : C → σ → α → σ → List μ → Prop}
    (hQ : ∀ P c, (S.txn c).underLock P (Q c)) (h : System.Reachable S relay init (idle (ι := ι) st))
    (c : C) : System.Reachable S relay init (idle (ι := ι) (st.call S c)) := by
  obtain ⟨i⟩ := ‹Nonempty ι›
  have hbegin : System.Reachable S relay init ((System.idle st).put i ⟨c, S.txn c, none, [], []⟩) :=
    h.step (.begin _ i c rfl)
  exact hbegin.works (System.works_call hQ i c)

/-- **Calls that follow one another are an interleaving.** -/
theorem System.reachable_calls [Nonempty ι] {Q : C → σ → α → σ → List μ → Prop}
    (hQ : ∀ P c, (S.txn c).underLock P (Q c)) (cs : List C) :
    System.Reachable S relay init (idle (ι := ι) (Store.calls S ⟨init, [], []⟩ cs)) := by
  induction cs using List.reverseRecOn with
  | nil => exact .start
  | append_singleton cs c ih =>
    rw [Store.calls, List.foldl_append]
    exact ih.call hQ c

end

end HarnessFramework
