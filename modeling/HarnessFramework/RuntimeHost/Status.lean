import HarnessFramework.Persistence.RunTable
import HarnessFramework.RuntimeHost.Executor
import Mathlib.Data.List.Basic
import Mathlib.Logic.Function.Basic

/-!
# The runtime host

The routes of `apps/runtime-host/src/app.ts`. An invocation that is posted gets an entry under its id, in the
place of one that is there, and an executor starts. When the executor settles, its entry says how, and a
timer is set that drops the entry under the id, whichever it is then. Executors of one id may run side by
side, and each has its own entry.

An entry belongs to one execution, so the two are one record here, with how the executor settled. Requests
that are not authorized and bodies that are no invocation change nothing.

## Main definitions

* `Execution`, `Host` — executions with their entries, and the map that the routes read
* `Action`, `Host.act` — posts, executors that settle, requests to cancel, and timers
* `Truthful` — what is reported is so
* `Keeps`, `Kept` — the steps that keep it so, and the states they come to
* `Invariant` — what these steps keep

## Main results

* `Invariant.act`, `Invariant.truthful` — the invariant is kept, and makes reports truthful
* `truthful_iff_keeps` — every other step makes a report untrue at once
* `graphResult_cancelled` — an executor that is told to stop returns a result
* `reports_truthful` — reports are truthful as long as the steps keep them so
-/

namespace HarnessFramework

namespace RuntimeHost

open Persistence RuntimeLanggraph RuntimeCore

/-! ## Executions -/

/-- The states of a `runtimeInvocationStatusSchema`. -/
inductive InvocationState
  | pending
  | running
  | completed
  | failed
  | cancelled
  | unknown
deriving DecidableEq

/-- How an executor settles. One that returns something else than a result counts as one that throws. -/
inductive Outcome
  | returned (result : RuntimeInvocationResult)
  | threw

/-- What an entry says when its executor has settled. -/
def settledState (aborted : Bool) : Outcome → InvocationState
  | .returned result => if result.status = .completed then .completed else .failed
  | .threw => if aborted then .cancelled else .failed

theorem settledState_eq_completed {aborted : Bool} {outcome : Outcome}
    (h : settledState aborted outcome = .completed) :
    ∃ result, outcome = .returned result ∧ result.status = .completed := by
  cases outcome with
  | threw =>
    rw [settledState] at h
    split at h <;> cases h
  | returned result =>
    rw [settledState] at h
    split at h
    next hcompleted => exact ⟨result, rfl, hcompleted⟩
    next => cases h

/-- An execution, with its entry. -/
structure Execution where
  invocationId : String
  state : InvocationState
  /-- `entry.controller.signal.aborted` -/
  aborted : Bool
  /-- How the executor settled, and whether it had been told to stop before. -/
  settled : Option (Outcome × Bool)
  /-- When the timer drops what is under the id, as long as it is set. -/
  timer : Option Time

namespace Execution

/-- A new execution. -/
def run (invocationId : String) : Execution := ⟨invocationId, .running, false, none, none⟩

/-- The executor is told to stop. -/
def abort (e : Execution) : Execution := { e with aborted := true }

/-- The executor settles, and the timer is set. -/
def settle (e : Execution) (outcome : Outcome) (now : Time) : Execution :=
  { e with
    state := settledState e.aborted outcome
    settled := some (outcome, e.aborted)
    timer := some (now + 5 * 60) }

/-- The timer has fired. -/
def disarm (e : Execution) : Execution := { e with timer := none }

theorem invocationId_settle (outcome : Outcome) (now : Time) (e : Execution) :
    (e.settle outcome now).invocationId = e.invocationId := rfl

theorem invocationId_disarm (e : Execution) : e.disarm.invocationId = e.invocationId := rfl

/-- The executor stopped because of a request to cancel: it throws, or returns the code that says so. -/
def StoppedByCancel (e : Execution) : Prop :=
  match e.settled with
  | some (.threw, aborted) => aborted = true
  | some (.returned result, aborted) =>
    aborted = true ∧ result.status ≠ .completed ∧ result.errorCode = some "runtime.cancelled"
  | none => False

/-- A report on the execution is still needed: the executor runs, or it stopped because of a request to
cancel and the timer has not fired. -/
def Needed (e : Execution) : Prop :=
  e.settled = none ∨ e.StoppedByCancel ∧ e.timer ≠ none

end Execution

/-! ## Routes and timers -/

structure Host where
  now : Time
  executions : List Execution
  /-- `inFlight`, with the number of the execution that an entry belongs to. -/
  inFlight : String → Option ℕ

namespace Host

/-- A host that was just started. -/
def start : Host := ⟨0, [], fun _ => none⟩

/-- An execution is replaced by what becomes of it. -/
def update (h : Host) (k : ℕ) (f : Execution → Execution) : Host :=
  { h with executions := h.executions.modify k f }

/-- `inFlight.delete` -/
def forget (h : Host) (invocationId : String) : Host :=
  { h with inFlight := Function.update h.inFlight invocationId none }

/-- `GET /invocations/:invocationId`. -/
def status (h : Host) (invocationId : String) : InvocationState :=
  match (h.inFlight invocationId).bind fun k => h.executions[k]? with
  | some e => e.state
  | none => .unknown

/-- `POST /invocations/:invocationId/cancel`: its status code, and the host after it. -/
def cancel (h : Host) (invocationId : String) : ℕ × Host :=
  match h.inFlight invocationId with
  | some k => (202, h.update k .abort)
  | none => (404, h)

/-- `POST /invocations`, up to the call of the executor. -/
def post (h : Host) (invocationId : String) : Host :=
  { h with
    executions := h.executions ++ [.run invocationId]
    inFlight := Function.update h.inFlight invocationId (some h.executions.length) }

end Host

inductive Action
  /-- `POST /invocations` -/
  | post (invocationId : String)
  /-- The executor of an execution settles. -/
  | settle (k : ℕ) (outcome : Outcome)
  | cancel (invocationId : String)
  /-- The timer of an execution fires. -/
  | expire (k : ℕ)
  | wait (seconds : ℚ)

/-- What happens, if it can. -/
def Host.act (h : Host) : Action → Option Host
  | .post invocationId => some (h.post invocationId)
  | .settle k outcome => do
    let e ← h.executions[k]?
    guard e.settled.isNone
    return h.update k (·.settle outcome h.now)
  | .cancel invocationId => some (h.cancel invocationId).2
  | .expire k => do
    let e ← h.executions[k]?
    let due ← e.timer
    guard (due ≤ h.now)
    return (h.update k .disarm).forget e.invocationId
  | .wait seconds => if 0 ≤ seconds then some { h with now := h.now + seconds } else none

/-! ## Truthful reports -/

/-- The id of an execution. -/
def Host.idAt (h : Host) (k : ℕ) : Option String := h.executions[k]?.map (·.invocationId)

/-- The latest execution of an id. -/
def Host.Latest (h : Host) (invocationId : String) (k : ℕ) : Prop :=
  h.idAt k = some invocationId ∧ ∀ k', h.idAt k' = some invocationId → k' ≤ k

/-- **What the host reports is so**: an invocation that is executing is reported running, and a request to
cancel it tells its executor to stop; one that stopped because of such a request is reported cancelled,
until its timer fires; and one is reported completed only if its latest execution returned a completed
result. -/
structure Truthful (h : Host) : Prop where
  running : ∀ k e, h.executions[k]? = some e → e.settled = none →
    h.status e.invocationId = .running ∧ h.cancel e.invocationId = (202, h.update k .abort)
  cancelled : ∀ id k e, h.Latest id k → h.executions[k]? = some e → e.StoppedByCancel →
    e.timer ≠ none → h.status id = .cancelled
  completed : ∀ id, h.status id = .completed → ∃ k e result aborted, h.Latest id k ∧
    h.executions[k]? = some e ∧ e.settled = some (.returned result, aborted) ∧ result.status = .completed

/-- The steps that keep reports truthful: no id is posted while it is executing; an executor that stops
because it was told to throws, and does not return the code of a cancellation; and when a timer fires, it is
the one of the latest execution of its id, or no report on that one is needed any more. -/
def Keeps (h : Host) : Action → Prop
  | .post invocationId => ∀ (k : ℕ) e, h.executions[k]? = some e → e.invocationId = invocationId →
      e.settled ≠ none
  | .settle k outcome => ∀ e result, h.executions[k]? = some e → e.aborted = true →
      outcome = .returned result → result.status ≠ .completed →
      result.errorCode ≠ some "runtime.cancelled"
  | .expire k => ∀ e k' e', h.executions[k]? = some e → h.Latest e.invocationId k' →
      h.executions[k']? = some e' → k' ≠ k → ¬ e'.Needed
  | .cancel _ | .wait _ => True

/-- The states that such steps come to. -/
inductive Kept : Host → Prop
  | start : Kept .start
  | step {h h' : Host} {a : Action} : Kept h → Keeps h a → h.act a = some h' → Kept h'

/-! ## Entries -/

namespace Execution

/-- What an entry says is what its execution did, and one that stopped because of a request to cancel
threw. -/
structure Sound (e : Execution) : Prop where
  running : e.settled = none → e.state = .running ∧ e.timer = none
  settled : ∀ outcome aborted, e.settled = some (outcome, aborted) →
    e.state = settledState aborted outcome
  threw : e.StoppedByCancel → e.settled = some (.threw, true)

variable {e : Execution}

theorem Sound.run (invocationId : String) : (run invocationId).Sound :=
  ⟨fun _ => ⟨rfl, rfl⟩, by simp [Execution.run], by simp [Execution.run, StoppedByCancel]⟩

theorem Sound.abort (he : e.Sound) : e.abort.Sound := ⟨he.running, he.settled, he.threw⟩

theorem Sound.disarm (he : e.Sound) : e.disarm.Sound :=
  ⟨fun hs => ⟨(he.running hs).1, rfl⟩, he.settled, he.threw⟩

theorem Sound.settle {outcome : Outcome} (now : Time)
    (h : ∀ result, e.aborted = true → outcome = .returned result → result.status ≠ .completed →
      result.errorCode ≠ some "runtime.cancelled") : (e.settle outcome now).Sound := by
  refine ⟨by simp [Execution.settle], ?_, ?_⟩
  · rintro outcome' aborted hs
    obtain ⟨rfl, rfl⟩ : outcome = outcome' ∧ e.aborted = aborted := by
      simpa [Execution.settle] using hs
    rfl
  · intro hs
    cases outcome with
    | threw =>
      have ha : e.aborted = true := hs
      simp [Execution.settle, ha]
    | returned result =>
      obtain ⟨ha, hne, hcode⟩ := hs
      exact absurd hcode (h result ha rfl hne)

/-- A timer that has fired leaves a report needed only if none was set. -/
theorem Sound.not_needed_disarm (he : e.Sound) {due : Time} (hdue : e.timer = some due) :
    ¬ e.disarm.Needed := by
  rintro (hs | ⟨-, ht⟩)
  · rw [(he.running hs).2] at hdue
    cases hdue
  · exact ht rfl

end Execution

namespace Host

variable {h h' : Host} {id id' : String} {j k k' : ℕ} {e : Execution} {f : Execution → Execution}

theorem idAt_eq (he : h.executions[k]? = some e) : h.idAt k = some e.invocationId := by
  rw [idAt, he, Option.map_some]

/-- An id is the one of an execution. -/
theorem exists_of_idAt (hk : h.idAt k = some id) :
    ∃ e, h.executions[k]? = some e ∧ e.invocationId = id :=
  Option.map_eq_some_iff.mp hk

theorem Latest.eq (hk : h.Latest id k) (hk' : h.Latest id k') : k = k' :=
  Nat.le_antisymm (hk'.2 k hk.1) (hk.2 k' hk'.1)

/-- The entry under an id says what the status is. -/
theorem status_eq (hk : h.inFlight id = some k) (he : h.executions[k]? = some e) :
    h.status id = e.state := by
  simp [status, hk, he]

theorem cancel_eq (hk : h.inFlight id = some k) : h.cancel id = (202, h.update k .abort) := by
  simp [cancel, hk]

theorem inFlight_forget_self : (h.forget id).inFlight id = none := Function.update_self ..

theorem inFlight_forget_ne (hne : id' ≠ id) : (h.forget id).inFlight id' = h.inFlight id' :=
  Function.update_of_ne hne ..

/-! ### An execution changes -/

theorem getElem?_update_self (he : h.executions[k]? = some e) :
    (h.update k f).executions[k]? = some (f e) := by
  simp [update, he]

theorem getElem?_update_ne (hne : k ≠ j) :
    (h.update k f).executions[j]? = h.executions[j]? := by
  simp [update, hne]

/-- What is among the executions afterwards. -/
theorem getElem?_update (hj : (h.update k f).executions[j]? = some e) :
    (k ≠ j ∧ h.executions[j]? = some e) ∨
      ∃ e', k = j ∧ h.executions[j]? = some e' ∧ e = f e' := by
  by_cases hkj : k = j
  · subst hkj
    have hj : (h.executions[k]?).map f = some e := by
      simpa [update, List.getElem?_modify] using hj
    obtain ⟨e', he', rfl⟩ := Option.map_eq_some_iff.mp hj
    exact .inr ⟨e', rfl, he', rfl⟩
  · rw [getElem?_update_ne hkj] at hj
    exact .inl ⟨hkj, hj⟩

theorem latest_update (hid : ∀ e, (f e).invocationId = e.invocationId) :
    (h.update k f).Latest id j ↔ h.Latest id j := by
  have hat : ∀ j, (h.update k f).idAt j = h.idAt j := by
    intro j
    by_cases hkj : k = j
    · subst hkj
      simp only [idAt, update, List.getElem?_modify, Option.map_eq_map, Option.map_map, if_pos,
        Function.comp_def, hid]
    · rw [idAt, getElem?_update_ne hkj, idAt]
  rw [Latest, Latest, hat]
  simp only [hat]

/-! ### An execution starts -/

/-- What is among the executions when one has started. -/
theorem getElem?_post (hj : (h.post id).executions[j]? = some e) :
    h.executions[j]? = some e ∨ j = h.executions.length ∧ e = .run id := by
  have hj : (h.executions ++ [Execution.run id])[j]? = some e := hj
  rcases Nat.lt_or_ge j h.executions.length with hlt | hge
  · rw [List.getElem?_append_left hlt] at hj
    exact .inl hj
  · rw [List.getElem?_append_right hge] at hj
    obtain ⟨hzero, rfl⟩ : j - h.executions.length = 0 ∧ Execution.run id = e := by
      simpa [List.getElem?_eq_some_iff] using hj
    exact .inr ⟨by omega, rfl⟩

theorem getElem?_post_of (he : h.executions[j]? = some e) :
    (h.post id).executions[j]? = some e := by
  rw [post, List.getElem?_append_left (List.getElem?_eq_some_iff.mp he).1, he]

theorem getElem?_post_length : (h.post id).executions[h.executions.length]? = some (.run id) := by
  simp [post]

theorem inFlight_post_self : (h.post id).inFlight id = some h.executions.length :=
  Function.update_self ..

theorem inFlight_post_ne (hne : id' ≠ id) : (h.post id).inFlight id' = h.inFlight id' :=
  Function.update_of_ne hne ..

theorem latest_post : (h.post id).Latest id h.executions.length := by
  refine ⟨idAt_eq getElem?_post_length, fun j hj => ?_⟩
  obtain ⟨e, he, -⟩ := exists_of_idAt hj
  have hlt := (List.getElem?_eq_some_iff.mp he).1
  rw [post, List.length_append, List.length_singleton] at hlt
  omega

/-- The other ids have the executions they had. -/
theorem idAt_post_ne (hne : id' ≠ id) : (h.post id).idAt j = some id' ↔ h.idAt j = some id' := by
  constructor <;> intro hj
  · obtain ⟨e, he, rfl⟩ := exists_of_idAt hj
    rcases getElem?_post he with he | ⟨-, rfl⟩
    · exact idAt_eq he
    · exact absurd rfl hne
  · obtain ⟨e, he, rfl⟩ := exists_of_idAt hj
    exact idAt_eq (getElem?_post_of he)

theorem latest_post_ne (hne : id' ≠ id) : (h.post id).Latest id' j ↔ h.Latest id' j := by
  simp only [Latest, idAt_post_ne hne]

/-! ### What happens -/

theorem act_settle {outcome : Outcome} (hact : h.act (.settle k outcome) = some h') :
    ∃ e, h.executions[k]? = some e ∧ e.settled = none ∧
      h' = h.update k (·.settle outcome h.now) := by
  rw [act, Option.bind_eq_bind, Option.bind_eq_some_iff] at hact
  obtain ⟨e, he, hact⟩ := hact
  by_cases hs : e.settled.isNone
  · simp only [hs, guard_true] at hact
    exact ⟨e, he, Option.isNone_iff_eq_none.mp hs, (Option.some.inj hact).symm⟩
  · simp [hs] at hact

theorem act_expire (hact : h.act (.expire k) = some h') :
    ∃ e due, h.executions[k]? = some e ∧ e.timer = some due ∧ due ≤ h.now ∧
      h' = (h.update k .disarm).forget e.invocationId := by
  rw [act, Option.bind_eq_bind, Option.bind_eq_some_iff] at hact
  obtain ⟨e, he, hact⟩ := hact
  rw [Option.bind_eq_bind, Option.bind_eq_some_iff] at hact
  obtain ⟨due, hdue, hact⟩ := hact
  by_cases hle : due ≤ h.now
  · simp only [hle, guard_true] at hact
    exact ⟨e, due, he, hdue, hle, (Option.some.inj hact).symm⟩
  · simp [hle] at hact

theorem act_wait {seconds : ℚ} (hact : h.act (.wait seconds) = some h') :
    0 ≤ seconds ∧ h' = { h with now := h.now + seconds } := by
  rw [act] at hact
  split at hact
  next hle => exact ⟨hle, (Option.some.inj hact).symm⟩
  next => cases hact

end Host

/-! ## What the steps keep -/

/-- **What these steps keep**: the entry under an id is the one of its latest execution, and it is there while
a report on that one is needed; only latest executions run; and entries are sound. -/
structure Invariant (h : Host) : Prop where
  latest : ∀ id k, h.inFlight id = some k → h.Latest id k
  needed : ∀ id k e, h.Latest id k → h.executions[k]? = some e → e.Needed → h.inFlight id = some k
  executing : ∀ k e, h.executions[k]? = some e → e.settled = none → h.Latest e.invocationId k
  sound : ∀ (k : ℕ) e, h.executions[k]? = some e → e.Sound

namespace Invariant

open Host

variable {h h' : Host} {id : String} {k : ℕ} {e : Execution} {f : Execution → Execution} {a : Action}

theorem start : Invariant .start :=
  ⟨nofun, fun _ _ _ _ => nofun, fun _ _ => nofun, fun _ _ => nofun⟩

/-- The entry under the id of an execution that runs is its own. -/
theorem inFlight_eq (hi : Invariant h) (he : h.executions[k]? = some e) (hs : e.settled = none) :
    h.inFlight e.invocationId = some k :=
  hi.needed _ k e (hi.executing k e he hs) he (.inl hs)

/-- An execution changes, and no report becomes needed. -/
theorem update (hi : Invariant h) (hid : ∀ e, (f e).invocationId = e.invocationId)
    (hsettled : ∀ e, (f e).settled = none → e.settled = none)
    (hneeded : ∀ e, h.executions[k]? = some e → (f e).Needed → e.Needed)
    (hsound : ∀ e, h.executions[k]? = some e → (f e).Sound) : Invariant (h.update k f) := by
  refine ⟨fun id j hj => ?_, fun id j e hj he hn => ?_, fun j e he hs => ?_, fun j e he => ?_⟩
  · exact (latest_update hid).mpr (hi.latest id j hj)
  · rw [latest_update hid] at hj
    rcases getElem?_update he with ⟨-, he⟩ | ⟨e', rfl, he', rfl⟩
    · exact hi.needed id j e hj he hn
    · exact hi.needed id k e' hj he' (hneeded e' he' hn)
  · rw [latest_update hid]
    rcases getElem?_update he with ⟨-, he⟩ | ⟨e', rfl, he', rfl⟩
    · exact hi.executing j e he hs
    · rw [hid]
      exact hi.executing k e' he' (hsettled e' hs)
  · rcases getElem?_update he with ⟨-, he⟩ | ⟨e', rfl, he', rfl⟩
    · exact hi.sound j e he
    · exact hsound e' he'

/-- An entry is dropped that is not needed. -/
theorem forget (hi : Invariant h)
    (hid : ∀ k e, h.Latest id k → h.executions[k]? = some e → ¬ e.Needed) :
    Invariant (h.forget id) := by
  refine ⟨fun id' k hk => ?_, fun id' k e hk he hn => ?_, hi.executing, hi.sound⟩
  · by_cases hne : id' = id
    · subst hne
      rw [inFlight_forget_self] at hk
      cases hk
    · rw [inFlight_forget_ne hne] at hk
      exact hi.latest id' k hk
  · have hne : id' ≠ id := by
      rintro rfl
      exact hid k e hk he hn
    rw [inFlight_forget_ne hne]
    exact hi.needed id' k e hk he hn

/-- An execution starts, of an id that is not executing. -/
theorem post (hi : Invariant h)
    (hid : ∀ (k : ℕ) e, h.executions[k]? = some e → e.invocationId = id → e.settled ≠ none) :
    Invariant (h.post id) := by
  refine ⟨fun id' k hk => ?_, fun id' k e hk he hn => ?_, fun k e he hs => ?_, fun k e he => ?_⟩
  · by_cases hne : id' = id
    · subst hne
      rw [inFlight_post_self] at hk
      cases hk
      exact latest_post
    · rw [inFlight_post_ne hne] at hk
      exact (latest_post_ne hne).mpr (hi.latest id' k hk)
  · by_cases hne : id' = id
    · subst hne
      rw [inFlight_post_self, hk.eq latest_post]
    · rw [latest_post_ne hne] at hk
      rcases getElem?_post he with he | ⟨-, rfl⟩
      · rw [inFlight_post_ne hne]
        exact hi.needed id' k e hk he hn
      · obtain ⟨e', he', -⟩ := exists_of_idAt hk.1
        have hat : (h.post id).executions[k]? = some e' := getElem?_post_of he'
        rw [he] at hat
        cases hat
        rw [inFlight_post_ne hne]
        exact hi.needed id' k _ hk he' hn
  · rcases getElem?_post he with he | ⟨rfl, rfl⟩
    · have hne : e.invocationId ≠ id := fun heq => hid k e he heq hs
      exact (latest_post_ne hne).mpr (hi.executing k e he hs)
    · exact latest_post
  · rcases getElem?_post he with he | ⟨rfl, rfl⟩
    · exact hi.sound k e he
    · exact Execution.Sound.run id

theorem settle (hi : Invariant h) {outcome : Outcome} (he : h.executions[k]? = some e)
    (hs : e.settled = none) (hkeeps : Keeps h (.settle k outcome)) :
    Invariant (h.update k (·.settle outcome h.now)) := by
  refine hi.update (fun _ => rfl) (fun _ => nofun) (fun e' he' _ => ?_) (fun e' he' => ?_)
  · rw [he] at he'
    cases he'
    exact .inl hs
  · exact Execution.Sound.settle h.now fun result => hkeeps e' result he'

theorem cancel (hi : Invariant h) (id : String) : Invariant (h.cancel id).2 := by
  rw [Host.cancel]
  split
  · exact hi.update (fun _ => rfl) (fun _ hs => hs) (fun _ _ hn => hn)
      fun e he => (hi.sound _ e he).abort
  · exact hi

theorem expire (hi : Invariant h) {due : Time} (he : h.executions[k]? = some e)
    (hdue : e.timer = some due) (hkeeps : Keeps h (.expire k)) :
    Invariant ((h.update k .disarm).forget e.invocationId) := by
  have hd : Invariant (h.update k .disarm) := by
    refine hi.update (fun _ => rfl) (fun _ hs => hs) (fun e' _ hn => ?_)
      fun e' he' => (hi.sound k e' he').disarm
    rcases hn with hs | ⟨-, ht⟩
    · exact .inl hs
    · exact absurd rfl ht
  refine hd.forget fun k' e' hk' he' => ?_
  rw [latest_update Execution.invocationId_disarm] at hk'
  rcases getElem?_update he' with ⟨hne, hat⟩ | ⟨e', rfl, hat, rfl⟩
  · exact hkeeps e k' e' he hk' hat hne.symm
  · rw [he] at hat
    cases hat
    exact (hi.sound k e he).not_needed_disarm hdue

/-- **What a step keeps.** -/
theorem act (hi : Invariant h) (hkeeps : Keeps h a) (hact : h.act a = some h') : Invariant h' := by
  cases a with
  | post id =>
    cases hact
    exact hi.post hkeeps
  | settle k outcome =>
    obtain ⟨e, he, hs, rfl⟩ := act_settle hact
    exact hi.settle he hs hkeeps
  | cancel id =>
    cases hact
    exact hi.cancel id
  | expire k =>
    obtain ⟨e, due, he, hdue, -, rfl⟩ := act_expire hact
    exact hi.expire he hdue hkeeps
  | wait seconds =>
    obtain ⟨-, rfl⟩ := act_wait hact
    exact ⟨hi.latest, hi.needed, hi.executing, hi.sound⟩

/-- **The invariant makes reports truthful.** -/
theorem truthful (hi : Invariant h) : Truthful h := by
  refine ⟨fun k e he hs => ?_, fun id k e hk he hstopped htimer => ?_, fun id hstatus => ?_⟩
  · have hk := hi.inFlight_eq he hs
    rw [status_eq hk he, cancel_eq hk]
    exact ⟨((hi.sound k e he).running hs).1, rfl⟩
  · have hsound := hi.sound k e he
    rw [status_eq (hi.needed id k e hk he (.inr ⟨hstopped, htimer⟩)) he,
      hsound.settled _ _ (hsound.threw hstopped)]
    rfl
  · cases hin : h.inFlight id with
    | none => simp [status, hin] at hstatus
    | some k =>
      have hk := hi.latest id k hin
      obtain ⟨e, he, -⟩ := exists_of_idAt hk.1
      rw [status_eq hin he] at hstatus
      have hsound := hi.sound k e he
      cases hs : e.settled with
      | none => rw [(hsound.running hs).1] at hstatus; cases hstatus
      | some settled =>
        obtain ⟨outcome, aborted⟩ := settled
        rw [hsound.settled outcome aborted hs] at hstatus
        obtain ⟨result, rfl, hcompleted⟩ := settledState_eq_completed hstatus
        exact ⟨k, e, result, aborted, hk, he, hs, hcompleted⟩

end Invariant

theorem Kept.invariant {h : Host} (hh : Kept h) : Invariant h := by
  induction hh with
  | start => exact .start
  | step _ hkeeps hact ih => exact ih.act hkeeps hact

/-! ## Every other step makes a report untrue -/

section

open Host

variable {h h' : Host} {k : ℕ} {e : Execution}

/-- An id that is posted while it is executing has an execution that cannot be cancelled. -/
theorem not_truthful_post (he : h.executions[k]? = some e) (hs : e.settled = none) :
    ¬ Truthful (h.post e.invocationId) := by
  intro ht
  have hlt := (List.getElem?_eq_some_iff.mp he).1
  have hcancel := (ht.running k e (getElem?_post_of he) hs).2
  rw [cancel_eq inFlight_post_self] at hcancel
  have hexec := congrArg (fun r : ℕ × Host => r.2.executions[h.executions.length]?) hcancel
  simp only [getElem?_update_self getElem?_post_length, getElem?_update_ne hlt.ne,
    getElem?_post_length] at hexec
  cases hexec

/-- An executor that returns the code of a cancellation is reported failed. -/
theorem not_truthful_settle (hi : Invariant h) (he : h.executions[k]? = some e)
    (hs : e.settled = none) {result : RuntimeInvocationResult} (ha : e.aborted = true)
    (hne : result.status ≠ .completed) (hcode : result.errorCode = some "runtime.cancelled") :
    ¬ Truthful (h.update k (·.settle (.returned result) h.now)) := by
  intro ht
  have he' : (h.update k (·.settle (.returned result) h.now)).executions[k]? =
      some (e.settle (.returned result) h.now) := getElem?_update_self he
  have hcancelled := ht.cancelled e.invocationId k _
    ((latest_update (Execution.invocationId_settle (.returned result) h.now)).mpr
      (hi.executing k e he hs)) he' ⟨ha, hne, hcode⟩ nofun
  have hin : (h.update k (·.settle (.returned result) h.now)).inFlight e.invocationId = some k :=
    hi.inFlight_eq he hs
  rw [status_eq hin he'] at hcancelled
  simp [Execution.settle, settledState, hne] at hcancelled

/-- A timer of an earlier execution drops the entry of the latest one. -/
theorem not_truthful_expire {k' : ℕ} {e' : Execution} (hk' : h.Latest e.invocationId k')
    (he' : h.executions[k']? = some e') (hne : k' ≠ k) (hneeded : e'.Needed) :
    ¬ Truthful ((h.update k .disarm).forget e.invocationId) := by
  intro ht
  have hat : ((h.update k .disarm).forget e.invocationId).executions[k']? = some e' := by
    rw [← he']
    exact getElem?_update_ne hne.symm
  have hunknown :
      ((h.update k .disarm).forget e.invocationId).status e.invocationId = .unknown := by
    simp [status, inFlight_forget_self]
  have hid : e'.invocationId = e.invocationId := by
    have hat := hk'.1
    rw [idAt_eq he'] at hat
    exact Option.some.inj hat
  rcases hneeded with hs | ⟨hstopped, htimer⟩
  · have hrunning := (ht.running k' e' hat hs).1
    rw [hid, hunknown] at hrunning
    cases hrunning
  · have hlatest : ((h.update k .disarm).forget e.invocationId).Latest e.invocationId k' :=
      (latest_update (h := h) (k := k) Execution.invocationId_disarm).mpr hk'
    rw [ht.cancelled _ k' e' hlatest hat hstopped htimer] at hunknown
    cases hunknown

/-- **Exactly which steps keep reports truthful**, from the states that such steps come to. -/
theorem truthful_iff_keeps {a : Action} (hi : Invariant h) (hact : h.act a = some h') :
    Truthful h' ↔ Keeps h a := by
  refine ⟨fun ht => ?_, fun hkeeps => (hi.act hkeeps hact).truthful⟩
  cases a with
  | post id =>
    cases hact
    rintro k e he rfl hs
    exact not_truthful_post he hs ht
  | settle k outcome =>
    rintro e result he ha rfl hne hcode
    obtain ⟨e', he', hs, rfl⟩ := act_settle hact
    rw [he] at he'
    cases he'
    exact not_truthful_settle hi he hs ha hne hcode ht
  | cancel id => trivial
  | expire k =>
    rintro e k' e' he hk' he' hne hneeded
    obtain ⟨e'', due, he'', -, -, rfl⟩ := act_expire hact
    rw [he] at he''
    cases he''
    exact not_truthful_expire hk' he' hne hneeded ht
  | wait seconds => trivial

end

/-- **An executor that is told to stop returns a result**, completed or with the code that says so. -/
theorem graphResult_cancelled {runtime : Runtime} {plan : GraphPlan} {g : StateGraph String}
    {initial : HarnessState} {surroundings : Surroundings} {recursionLimit : ℕ}
    (hc : surroundings.cancelled = true) :
    let result := graphResult runtime plan g initial surroundings recursionLimit
    result.status = .completed ∨
      result.status ≠ .completed ∧ result.errorCode = some "runtime.cancelled" := by
  intro result
  simp only [result, graphResult, hc, if_true]
  split
  next => exact .inl rfl
  next =>
    refine .inr ⟨?_, rfl⟩
    split <;> simp

/-- The executor of the host does not keep reports truthful when it is told to stop and does. -/
theorem not_keeps_graphResult {runtime : Runtime} {plan : GraphPlan} {g : StateGraph String}
    {initial : HarnessState} {surroundings : Surroundings} {recursionLimit : ℕ} {h : Host} {k : ℕ}
    {e : Execution} (he : h.executions[k]? = some e) (ha : e.aborted = true)
    (hc : surroundings.cancelled = true)
    (hne : (graphResult runtime plan g initial surroundings recursionLimit).status ≠ .completed) :
    ¬ Keeps h (.settle k (.returned (graphResult runtime plan g initial surroundings
      recursionLimit))) := by
  intro hkeeps
  rcases @graphResult_cancelled runtime plan g initial surroundings recursionLimit hc with hcompleted | ⟨-, hcode⟩
  · exact hne hcompleted
  · exact hkeeps e _ he ha rfl hne hcode

/-! ## Reports -/

/-- What a sequence of actions comes to. -/
def Host.acts (h : Host) (actions : List Action) : Option Host := actions.foldlM Host.act h

/-- An invocation that is told to stop. -/
def toldToStop : Host := ((Host.start.post "inv-1").cancel "inv-1").2

/-- Its executor returns what `executeRuntimeInvocation` does. -/
def cancelRun : List Action :=
  [.post "inv-1", .cancel "inv-1",
    .settle 0 (.returned ⟨.failed, .null, some "runtime.cancelled"⟩)]

/-- An invocation that is completed. -/
def completedOnce : Host :=
  (Host.start.post "inv-1").update 0 (·.settle (.returned ⟨.completed, .obj [], none⟩) 0)

/-- It is posted again, five minutes after it was completed. -/
def reposted : Host := { completedOnce.post "inv-1" with now := 0 + 300 }

/-- An invocation that is posted again, and the timer of the first. -/
def repostRun : List Action :=
  [.post "inv-1", .settle 0 (.returned ⟨.completed, .obj [], none⟩), .post "inv-1", .wait 300,
    .expire 0]

theorem acts_repostRun :
    Host.start.acts repostRun = some ((reposted.update 0 .disarm).forget "inv-1") := by
  have hwait : (completedOnce.post "inv-1").act (.wait 300) = some reposted := by
    have hle : (0 : ℚ) ≤ 300 := by norm_num
    rw [Host.act, if_pos hle]
    rfl
  have hexpire : reposted.act (.expire 0) =
      some ((reposted.update 0 .disarm).forget "inv-1") := by
    have hdue : (0 + 5 * 60 : ℚ) ≤ 0 + 300 := by norm_num
    show (guard ((0 + 5 * 60 : Time) ≤ 0 + 300) >>= fun _ => some _) = _
    rw [guard, if_pos hdue]
    rfl
  show ((completedOnce.post "inv-1").act (.wait 300) >>= fun h =>
    h.act (.expire 0) >>= pure) = _
  rw [hwait]
  show (reposted.act (.expire 0) >>= pure) = _
  rw [hexpire]
  rfl

theorem kept_toldToStop : Kept toldToStop :=
  .step (a := .cancel "inv-1") (.step (a := .post "inv-1") .start (fun _ _ => nofun) rfl) trivial rfl

/-- **Reports are truthful as long as every step keeps them so**, and the first step that does not makes one
untrue: an id is posted while it is executing, an executor returns the code of a cancellation, or the timer
of an earlier execution fires while a report on the latest one is needed. -/
theorem reports_truthful {h : Host} (hh : Kept h) :
    Truthful h ∧ ∀ h' a, h.act a = some h' → (Truthful h' ↔ Keeps h a) :=
  ⟨hh.invariant.truthful, fun _ _ hact => truthful_iff_keeps hh.invariant hact⟩

theorem reports_truthful_sample :
    Truthful toldToStop ∧ toldToStop.status "inv-1" = .running ∧
      Truthful (toldToStop.update 0 (·.settle .threw 0)) ∧
      (toldToStop.update 0 (·.settle .threw 0)).status "inv-1" = .cancelled :=
  ⟨(reports_truthful kept_toldToStop).1, rfl,
    ((reports_truthful kept_toldToStop).2 _ (.settle 0 .threw) rfl).mpr fun _ _ _ _ => nofun, rfl⟩

/-- An invocation that stopped because of a request to cancel is reported failed, and one that is executing
is unknown. -/
theorem cancelled_reported_failed :
    (∃ h, Host.start.acts cancelRun = some h ∧ h.status "inv-1" = .failed ∧ ¬ Truthful h) ∧
      ∃ h, Host.start.acts repostRun = some h ∧ h.status "inv-1" = .unknown ∧ ¬ Truthful h := by
  refine ⟨⟨_, rfl, rfl, ?_⟩, _, acts_repostRun, rfl, ?_⟩
  · exact not_truthful_settle (h := toldToStop) (k := 0) (e := (Execution.run "inv-1").abort)
      kept_toldToStop.invariant rfl rfl rfl nofun rfl
  · exact not_truthful_expire (h := reposted) (k := 0)
      (e := (Execution.run "inv-1").settle (.returned ⟨.completed, .obj [], none⟩) 0)
      (Host.latest_post (h := completedOnce)) rfl (by decide) (.inl rfl)

end RuntimeHost

end HarnessFramework
