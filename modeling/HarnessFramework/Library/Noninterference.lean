import Mathlib.Data.List.Basic
import Mathlib.Tactic.Common

/-!
# Two histories side by side

A system that many parties act on, and what one of them sees of it. Two histories begin in one state.
What the others do happens in either of them, and what the party does happens in both. The histories
look the same to the party as long as nothing that it does tells them apart.

## Main definitions

* `Histories` — two histories, as the pairs of states that they come through
* `play` — the histories that a list of turns makes
* `serveAll` — requests one after another

## Main results

* `Histories.view_eq` — the unwinding rule
* `Histories.forall` — the invariant rule, for each of the two histories
* `serveAll_purge` — a party is served as if the others were not there
-/

namespace HarnessFramework

namespace Noninterference

variable {σ α β : Type} (act : σ → α → Option σ) (Initial : σ → Prop)
  (Alone : σ → α → σ → Prop) (Joint : σ × σ → α × α → σ × σ → Prop)

/-- Two histories. The list has the pairs of states that they come through, the last pair first. -/
inductive Histories : List (σ × σ) → Prop
  | start (s) : Initial s → Histories [(s, s)]
  | left (s s' t) (action) (past) : Histories ((s, s') :: past) → act s action = some t →
      Alone s action t → Histories ((t, s') :: (s, s') :: past)
  | right (s s' t') (action) (past) : Histories ((s, s') :: past) → act s' action = some t' →
      Alone s' action t' → Histories ((s, t') :: (s, s') :: past)
  | both (s s' t t') (action action') (past) : Histories ((s, s') :: past) → act s action = some t →
      act s' action' = some t' → Joint (s, s') (action, action') (t, t') →
      Histories ((t, t') :: (s, s') :: past)

variable {act Initial Alone Joint} {past : List (σ × σ)}

/-- **Unwinding.** What the others do does not show, and what is done in both shows in the same way
where `Fair` holds. -/
theorem Histories.view_eq {view : σ → β} {Fair : σ × σ → Prop}
    (hAlone : ∀ s action t, act s action = some t → Alone s action t → view t = view s)
    (hJoint : ∀ p actions p', act p.1 actions.1 = some p'.1 → act p.2 actions.2 = some p'.2 →
      Joint p actions p' → Fair p → view p.1 = view p.2 → view p'.1 = view p'.2)
    (h : Histories act Initial Alone Joint past) (hfair : ∀ p ∈ past, Fair p) :
    ∀ p ∈ past, view p.1 = view p.2 := by
  induction h with
  | start s hs => exact List.forall_mem_singleton.mpr rfl
  | left s s' t action past _ hact halone ih =>
    have hpast := ih fun p hp => hfair p (List.mem_cons_of_mem _ hp)
    refine List.forall_mem_cons.mpr ⟨?_, hpast⟩
    calc view t = view s := hAlone s action t hact halone
      _ = view s' := hpast _ List.mem_cons_self
  | right s s' t' action past _ hact halone ih =>
    have hpast := ih fun p hp => hfair p (List.mem_cons_of_mem _ hp)
    refine List.forall_mem_cons.mpr ⟨?_, hpast⟩
    calc view s = view s' := hpast _ List.mem_cons_self
      _ = view t' := (hAlone s' action t' hact halone).symm
  | both s s' t t' action action' past _ hact hact' hjoint ih =>
    have hpast := ih fun p hp => hfair p (List.mem_cons_of_mem _ hp)
    refine List.forall_mem_cons.mpr ⟨?_, hpast⟩
    exact hJoint (s, s') (action, action') (t, t') hact hact' hjoint
      (hfair _ (List.mem_cons_of_mem _ List.mem_cons_self)) (hpast _ List.mem_cons_self)

/-- What every action keeps holds all along both histories. -/
theorem Histories.forall {P : σ → Prop} (hInitial : ∀ s, Initial s → P s)
    (hact : ∀ s action t, act s action = some t → P s → P t)
    (h : Histories act Initial Alone Joint past) : ∀ p ∈ past, P p.1 ∧ P p.2 := by
  induction h with
  | start s hs => exact List.forall_mem_singleton.mpr ⟨hInitial s hs, hInitial s hs⟩
  | left s s' t action past _ ht _ ih =>
    have hlast := ih _ List.mem_cons_self
    exact List.forall_mem_cons.mpr ⟨⟨hact s action t ht hlast.1, hlast.2⟩, ih⟩
  | right s s' t' action past _ ht _ ih =>
    have hlast := ih _ List.mem_cons_self
    exact List.forall_mem_cons.mpr ⟨⟨hlast.1, hact s' action t' ht hlast.2⟩, ih⟩
  | both s s' t t' action action' past _ ht ht' _ ih =>
    have hlast := ih _ List.mem_cons_self
    exact List.forall_mem_cons.mpr ⟨⟨hact s action t ht hlast.1, hact s' action' t' ht' hlast.2⟩, ih⟩

/-! ## Playing histories -/

/-- What happens next, and in which history. -/
inductive Turn (α : Type)
  | left (action : α)
  | right (action : α)
  | both (action action' : α)

variable (act Alone Joint)
variable [∀ s action t, Decidable (Alone s action t)] [∀ p actions p', Decidable (Joint p actions p')]

/-- The pair of states after a turn, if it can happen. -/
def Turn.step : Turn α → σ × σ → Option (σ × σ)
  | .left action, (s, s') => (act s action).bind fun t =>
    if Alone s action t then some (t, s') else none
  | .right action, (s, s') => (act s' action).bind fun t' =>
    if Alone s' action t' then some (s, t') else none
  | .both action action', (s, s') => (act s action).bind fun t => (act s' action').bind fun t' =>
    if Joint (s, s') (action, action') (t, t') then some (t, t') else none

/-- The histories after turns, if they can happen. -/
def play : List (Turn α) → List (σ × σ) → Option (List (σ × σ))
  | turn :: turns, p :: past => (turn.step act Alone Joint p).bind fun p' => play turns (p' :: p :: past)
  | _, past => some past

variable {act Alone Joint}

theorem Histories.turn {turn : Turn α} {p p' : σ × σ} (h : Histories act Initial Alone Joint (p :: past))
    (hturn : turn.step act Alone Joint p = some p') :
    Histories act Initial Alone Joint (p' :: p :: past) := by
  obtain ⟨s, s'⟩ := p
  cases turn with
  | left action =>
    obtain ⟨t, ht, hif⟩ := Option.bind_eq_some_iff.mp hturn
    split at hif <;> cases hif
    exact .left s s' t action past h ht ‹_›
  | right action =>
    obtain ⟨t, ht, hif⟩ := Option.bind_eq_some_iff.mp hturn
    split at hif <;> cases hif
    exact .right s s' t action past h ht ‹_›
  | both action action' =>
    obtain ⟨t, ht, hturn⟩ := Option.bind_eq_some_iff.mp hturn
    obtain ⟨t', ht', hif⟩ := Option.bind_eq_some_iff.mp hturn
    split at hif <;> cases hif
    exact .both s s' t t' action action' past h ht ht' ‹_›

theorem histories_play {turns : List (Turn α)} {past' : List (σ × σ)}
    (h : Histories act Initial Alone Joint past) (hplay : play act Alone Joint turns past = some past') :
    Histories act Initial Alone Joint past' := by
  induction turns generalizing past with
  | nil => cases hplay; exact h
  | cons turn turns ih =>
    cases past with
    | nil => cases hplay; exact h
    | cons p past =>
      obtain ⟨p', hturn, hplay⟩ := Option.bind_eq_some_iff.mp hplay
      exact ih (h.turn hturn) hplay

/-! ## Requests one after another -/

section

variable {ι ο : Type} (serve : σ → ι → ο × σ)

/-- Requests, one after another, each with its reply, and the state after them. -/
def serveAll : σ → List ι → List (ι × ο) × σ
  | s, [] => ([], s)
  | s, i :: is =>
    let (reply, s) := serve s i
    let (replies, s) := serveAll s is
    ((i, reply) :: replies, s)

variable {serve} {see : σ → σ} {Mine Allowed : ι → Prop} [DecidablePred Mine] {Valid : σ → Prop}

/-- **Purging.** When a party's requests are served alike on what it sees of the state, and the requests of
the others do not change that, its replies and what it sees are as if the others had not been there. -/
theorem serveAll_purge (hvalid : ∀ s i, Valid s → Allowed i → Valid (serve s i).2)
    (hmine : ∀ s i, Valid s → Allowed i → Mine i →
      serve (see s) i = ((serve s i).1, see (serve s i).2))
    (hothers : ∀ s i, Valid s → Allowed i → ¬ Mine i → see (serve s i).2 = see s)
    {s : σ} {is : List ι} (hs : Valid s) (his : ∀ i ∈ is, Allowed i) :
    serveAll serve (see s) (is.filter fun i => Mine i) =
      ((serveAll serve s is).1.filter fun r => Mine r.1, see (serveAll serve s is).2) := by
  induction is generalizing s with
  | nil => rfl
  | cons i is ih =>
    obtain ⟨hi, his⟩ := List.forall_mem_cons.mp his
    have hrest := ih (hvalid s i hs hi) his
    by_cases hm : Mine i
    · have hserve := hmine s i hs hi hm
      rw [List.filter_cons_of_pos (by simpa using hm)]
      simp only [serveAll]
      rw [hserve]
      simp only [hrest]
      rw [List.filter_cons_of_pos (by simpa using hm)]
    · rw [List.filter_cons_of_neg (by simpa using hm), ← hothers s i hs hi hm, hrest]
      simp only [serveAll]
      rw [List.filter_cons_of_neg (by simpa using hm)]

end

end Noninterference

end HarnessFramework
