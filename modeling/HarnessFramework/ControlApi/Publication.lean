import HarnessFramework.ControlApi.Duties

/-!
# Refused publications

A publication admits the plan of the draft, then compares its actor with the contributors, then updates
the draft, and then records the event. Each of these is a statement of its own, so what a refusal comes
after stays: a plan that was admitted before its publisher turned out to be an author is there, and may
be started.

## Main definitions

* `Untouched` — a statement leaves plans, drafts and events as they are
* `Harmless` — the plan is there already, and there is no draft to publish

## Main results

* `refused_publish_iff` — a refused publication changes nothing if and only if all that it does is harmless
-/

namespace HarnessFramework

namespace ControlApi

open Persistence HarnessCompiler Identity

variable {S : PlanSchema} {sha256 : List Char → String}

/-! ## What the statements of a publication do -/

/-- Plans, drafts and events are the same. -/
structure SameAuthoring (t t' : Tables S) : Prop where
  plans : t'.plans = t.plans
  drafts : t'.drafts = t.drafts
  events : t'.events = t.events

/-- A statement left plans, drafts and events as it found them. -/
def Untouched (sha256 : List Char → String) {β : Type} (statement : Statement S β) (t : Tables S) : Prop :=
  SameAuthoring t (statement.exec sha256 t).2

/-- A statement found the plan that it admits, and no draft that it advances. -/
def Harmless {β : Type} (statement : Statement S β) (t : Tables S) : Prop :=
  match statement with
  | .insertPlan tenantId plan => ∃ p ∈ t.plans, p.tenantId = tenantId ∧ p.planDigest = plan.planDigest
  | .setLifecycle draftId input => ∀ d ∈ t.drafts, ¬ input.Selects draftId d
  | _ => True

instance {β : Type} (statement : Statement S β) (t : Tables S) : Decidable (Harmless statement t) := by
  induction statement using Statement.casesOn <;> dsimp only [Harmless] <;> infer_instance

/-- The statements that a publication issues before it is refused. -/
def OfRefusal {β : Type} (statement : Statement S β) (t : Tables S) : Prop :=
  match statement with
  | .getDraft _ _ | .contributors _ | .insertPlan _ _ => True
  | .setLifecycle _ input => input.expectedStatus ≠ input.status
  | .insertEvent event => ∃ e ∈ t.events, e.eventId = event.eventId
  | _ => False

/-- An insert into a list that is the same afterwards did not insert. -/
theorem append_singleton_ne {α : Type} (xs : List α) (x : α) : xs ++ [x] ≠ xs := by
  intro h
  have hlength := congrArg List.length h
  rw [List.length_append, List.length_singleton] at hlength
  omega

/-- Admission leaves the plans as they are if and only if the plan is there. -/
theorem untouched_insertPlan_iff {t : Tables S} {tenantId : String} {plan : S.Plan} :
    Untouched sha256 (.insertPlan tenantId plan) t ↔ Harmless (.insertPlan tenantId plan) t := by
  dsimp only [Untouched, Harmless, Statement.exec]
  constructor
  · rintro ⟨hplans, -, -⟩
    by_contra hnew
    rw [if_neg hnew] at hplans
    exact append_singleton_ne _ _ hplans
  · intro hfound
    rw [if_pos hfound]
    exact ⟨rfl, rfl, rfl⟩

/-- A transition leaves the drafts as they are if and only if it selects none. -/
theorem untouched_setLifecycle_iff {t : Tables S} {draftId : String} {input : LifecycleInput S}
    (hstatus : input.expectedStatus ≠ input.status) :
    Untouched sha256 (.setLifecycle draftId input) t ↔ Harmless (.setLifecycle draftId input) t := by
  dsimp only [Untouched, Harmless, Statement.exec]
  constructor
  · rintro ⟨-, hdrafts, -⟩ d hd hg
    -- Row by row: the one that is selected would have to keep its status.
    have hmap : (t.drafts.map fun d => if input.Selects draftId d then d.advance t.clock input else d) =
        t.drafts.map id := by rw [List.map_id]; exact hdrafts
    have hsame := List.map_inj_left.mp hmap d hd
    rw [if_pos hg] at hsame
    have hadvanced : input.status = d.status := congrArg DraftRow.status hsame
    exact hstatus (hg.2.symm.trans hadvanced.symm)
  · intro hnone
    exact ⟨rfl, updateWhere_eq_self hnone, rfl⟩

/-- **What a publication does before it is refused changes nothing if and only if it is harmless.** -/
theorem untouched_iff {β : Type} {statement : Statement S β} {t : Tables S} (h : OfRefusal statement t) :
    Untouched sha256 statement t ↔ Harmless statement t := by
  cases statement with
  | getDraft | contributors => exact iff_of_true ⟨rfl, rfl, rfl⟩ trivial
  | insertPlan tenantId plan => exact untouched_insertPlan_iff
  | setLifecycle draftId input => exact untouched_setLifecycle_iff h
  | insertEvent event =>
    have hfound : ∃ e ∈ t.events, e.eventId = event.eventId := h
    refine iff_of_true ?_ trivial
    rw [Untouched, Statement.exec, if_pos hfound]
    exact ⟨rfl, rfl, rfl⟩
  | _ => exact h.elim

/-! ## The statements of a publication that is refused -/

section

variable {issues : List (Issue (Tables S) (Statement S))} {response : Response S}

/-- A script whose runs end with a refusal issue such statements only. -/
def Refusing (sha256 : List Char → String) (script : Handler S) : Prop :=
  ∀ issues response, script.Runs (Statement.exec sha256) issues (.done response) →
    response.error.isSome → ∀ issue ∈ issues, OfRefusal issue.statement issue.found

/-- An answer issues nothing. -/
theorem refusing_done : Refusing sha256 (.done response) := by
  intro issues response' hruns _ issue hissue
  obtain ⟨rfl, -⟩ := Script.runs_done hruns
  exact absurd hissue List.not_mem_nil

theorem refusing_query {β : Type} {statement : Statement S β} {next : β → Handler S}
    (hstatement : ∀ t, OfRefusal statement t) (hnext : ∀ result, Refusing sha256 (next result)) :
    Refusing sha256 (.query statement next) := by
  intro issues response hruns herror issue hissue
  obtain ⟨t, rest, rfl, hrest⟩ := Script.runs_query hruns
  rcases List.mem_cons.mp hissue with rfl | hissue
  · exact hstatement t
  · exact hnext _ rest response hrest herror issue hissue

/-- The event of a transition is the last thing that may fail: if it does, it is not recorded. -/
theorem refusing_insertEvent {event : AuthoringEventRow} {next : Except String Unit → Handler S}
    (hok : ∃ response, next (.ok ()) = .done response ∧ response.error = none)
    (hnext : ∀ message, Refusing sha256 (next (.error message))) :
    Refusing sha256 (.query (.insertEvent event) next) := by
  intro issues response hruns herror issue hissue
  obtain ⟨t, rest, rfl, hrest⟩ := Script.runs_query hruns
  simp only [Statement.exec] at hrest
  split at hrest
  · next hfound =>
    rcases List.mem_cons.mp hissue with rfl | hissue
    · exact hfound
    · exact hnext _ rest response hrest herror issue hissue
  · obtain ⟨answer, hanswer, hnone⟩ := hok
    rw [hanswer] at hrest
    obtain ⟨-, rfl⟩ := Script.runs_done hrest
    rw [hnone] at herror
    exact absurd herror (by simp)

theorem refusing_publishDraft {principal : Principal} {uuid : ℕ → String} {draftId : String} :
    Refusing sha256 (publishDraft (S := S) sha256 principal uuid draftId) := by
  refine refusing_query (fun _ => trivial) fun draft? => ?_
  dsimp only
  split
  · split
    · exact refusing_done
    · rw [admitPlan, PlanSchema.read_val]
      dsimp only
      split
      · refine refusing_query (fun _ => trivial) fun created => ?_
        rw [setAuthoringLifecycle, if_pos (by simp [transition])]
        refine refusing_query (fun _ => trivial) fun contributors => ?_
        split
        · exact refusing_done
        · refine refusing_query (fun _ => by simp [OfRefusal, transition]) fun row? => ?_
          cases row? with
          | none => exact refusing_done
          | some row => exact refusing_insertEvent ⟨_, rfl, rfl⟩ fun message => refusing_done
      · exact refusing_done
  · exact refusing_done

theorem refusing_handle {tools : AuthoringTools} {call : Call} {draftId : String} (hroute : call.route = .publishDraft draftId) :
    Refusing sha256 (handle (S := S) tools sha256 call) := by
  rw [handle, hroute]
  split
  · exact refusing_done
  · exact refusing_publishDraft

end

namespace Sample

/-- Ann writes a draft, bob approves it, and ann asks twice to publish it. -/
def publishedByAuthor : List (Traffic.Event Call) :=
  requests
    [(ask "ann" "1" (.createDraft none none), 2), (ask "ann" "2" (.compileDraft firstDraft), 4),
      (ask "ann" "3" (.evaluateDraft firstDraft), 4), (ask "bob" "4" (.approveDraft firstDraft), 3),
      (ask "ann" "5" (.publishDraft firstDraft), 3), (ask "ann" "6" (.publishDraft firstDraft), 3)]

/-- A control API. -/
abbrev api : Server (Tables schema) (Statement schema) Call (Response schema) :=
  server (tools digest) digest schema

/-- Nothing yet. -/
abbrev nothing : Tables schema := .start ⟨[], [], []⟩ 0

/-- What the statements of that run were. -/
def publishedTrace : List (ℕ × Issue (Tables schema) (Statement schema)) :=
  (Traffic.start nothing).trace api (fun _ _ _ _ => True) publishedByAuthor

/-- The answer to a publication. -/
def publishAnswer (s : Traffic (Tables schema) (Statement schema) Call (Response schema)) (id : ℕ) :
    Option (String × ℕ × Option String) :=
  match s.sessions id with
  | some ⟨⟨_, .publishDraft draftId, _⟩, .done response, _⟩ => some (draftId, response.status, response.error)
  | _ => none

theorem exists_of_publishAnswer {s : Traffic (Tables schema) (Statement schema) Call (Response schema)}
    {id : ℕ} {draftId : String} {status : ℕ} {error : Option String}
    (h : publishAnswer s id = some (draftId, status, error)) : ∃ principal uuid response crashed,
      s.sessions id = some ⟨⟨principal, .publishDraft draftId, uuid⟩, .done response, crashed⟩ ∧
      response.status = status ∧ response.error = error := by
  simp only [publishAnswer] at h
  split at h
  · next principal draftId uuid response crashed hsession =>
    cases h
    exact ⟨principal, uuid, response, crashed, hsession, rfl, rfl⟩
  · cases h

theorem publishedByAuthor_answers : ((Traffic.start nothing).run api (fun _ _ _ _ => True)
    publishedByAuthor).map (fun s => (publishAnswer s 4, publishAnswer s 5)) =
      some (some (firstDraft, 403, some "authoring.separation_of_duties"),
        some (firstDraft, 403, some "authoring.separation_of_duties")) := by decide +kernel

/-- How many plans there are before and after each statement of the first. -/
theorem publishedByAuthor_plans : (Traffic.issued 4 publishedTrace).map (fun issue =>
    (issue.found.plans.length, (issue.statement.exec digest issue.found).2.plans.length)) =
      [(0, 0), (0, 1), (1, 1)] := by decide +kernel

theorem publishedByAuthor_harmless :
    ∀ issue ∈ Traffic.issued 5 publishedTrace, Harmless issue.statement issue.found := by decide +kernel

end Sample

/-- **A refused publication changes nothing if and only if all that it does is harmless**: when it
admits the plan, it is admitted already, and when it publishes the draft, the draft is not approved any
more. This is so whatever the other requests do in between. -/
theorem refused_publish_iff {tools : AuthoringTools} {t : Tables S}
    {trace : List (ℕ × Issue (Tables S) (Statement S))}
    {s : Traffic (Tables S) (Statement S) Call (Response S)}
    (h : Traffic.Traced (server tools sha256 S) (fun _ _ _ _ => True) t trace s) {id : ℕ}
    {principal : Principal} {draftId : String} {uuid : ℕ → String} {response : Response S} {crashed : Bool}
    (hsession : s.sessions id = some ⟨⟨principal, .publishDraft draftId, uuid⟩, .done response, crashed⟩)
    (herror : response.error.isSome) :
    (∀ issue ∈ Traffic.issued id trace, Untouched sha256 issue.statement issue.found) ↔
      ∀ issue ∈ Traffic.issued id trace, Harmless issue.statement issue.found := by
  have hruns := (h.runs id).2 _ hsession
  have hrefusing : Refusing sha256 (handle (S := S) tools sha256 ⟨principal, .publishDraft draftId, uuid⟩) :=
    refusing_handle rfl
  have hrefused := hrefusing _ response hruns herror
  exact forall₂_congr fun issue hissue => untouched_iff (hrefused issue hissue)

/-- Ann is refused again, with the plan admitted already. -/
theorem refused_publish_sample : ∃ s,
    (Traffic.start Sample.nothing).run Sample.api (fun _ _ _ _ => True) Sample.publishedByAuthor = some s ∧
    Sample.publishAnswer s 5 = some (Sample.firstDraft, 403, some "authoring.separation_of_duties") ∧
    ∀ issue ∈ Traffic.issued 5 Sample.publishedTrace,
      Untouched Sample.digest issue.statement issue.found := by
  obtain ⟨s, hrun, hanswers⟩ := Option.map_eq_some_iff.mp Sample.publishedByAuthor_answers
  have hanswer := congrArg Prod.snd hanswers
  obtain ⟨principal, uuid, response, crashed, hsession, -, herror⟩ := Sample.exists_of_publishAnswer hanswer
  refine ⟨s, hrun, hanswer, ?_⟩
  exact (refused_publish_iff (Traffic.traced_run hrun) hsession (by rw [herror]; rfl)).mpr
    Sample.publishedByAuthor_harmless

/-- An author is refused the publication of a draft, and its plan is admitted. -/
theorem refused_publish_admits : ∃ trace s principal uuid response crashed,
    Traffic.Traced Sample.api (fun _ _ _ _ => True) Sample.nothing trace s ∧
    s.sessions 4 =
      some ⟨⟨principal, .publishDraft Sample.firstDraft, uuid⟩, .done response, crashed⟩ ∧
    response.error = some "authoring.separation_of_duties" ∧
    ¬ ∀ issue ∈ Traffic.issued 4 trace, Untouched Sample.digest issue.statement issue.found := by
  obtain ⟨s, hrun, hanswers⟩ := Option.map_eq_some_iff.mp Sample.publishedByAuthor_answers
  obtain ⟨principal, uuid, response, crashed, hsession, -, herror⟩ :=
    Sample.exists_of_publishAnswer (congrArg Prod.fst hanswers)
  refine ⟨Sample.publishedTrace, s, principal, uuid, response, crashed, Traffic.traced_run hrun, hsession,
    herror, fun huntouched => ?_⟩
  have hmem : (0, 1) ∈ (Traffic.issued 4 Sample.publishedTrace).map fun issue =>
      (issue.found.plans.length, (issue.statement.exec Sample.digest issue.found).2.plans.length) := by
    rw [Sample.publishedByAuthor_plans]
    simp
  obtain ⟨issue, hissue, hlengths⟩ := List.mem_map.mp hmem
  obtain ⟨hbefore, hafter⟩ := Prod.mk.inj hlengths
  rw [(huntouched issue hissue).plans, hbefore] at hafter
  exact absurd hafter (by simp)

end ControlApi

end HarnessFramework
