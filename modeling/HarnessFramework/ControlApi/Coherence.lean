import HarnessFramework.ControlApi.Lifecycle

/-!
# What drafts say of themselves

A draft that was compiled has a plan of its sources, one that was evaluated has a report on its plan,
and one that was published has the digest of its plan, which is admitted. `setAuthoringLifecycle`
guards the status and nothing else, so this holds as long as the draft that an update finds is still
what its request had read: the same sources when it is compiled, the same plan when it is evaluated or
published. `updateAuthoringSources` guards the revision.

## Main definitions

* `DraftRow.Coherent` — what a draft says of itself is so
* `Current` — what an update was made from is what it finds

## Main results

* `coherent_exec_iff` — an update keeps drafts coherent if and only if so
* `drafts_coherent` — drafts are coherent in every run whose steps are so
-/

namespace HarnessFramework

namespace ControlApi

open Persistence HarnessCompiler Identity

variable {S : PlanSchema}

/-! ## Coherence -/

/-- A plan is admitted: its digest is, with the content that it has. -/
def Tables.Admits (t : Tables S) (tenantId : String) (plan : S.Plan) : Prop :=
  ∃ p ∈ t.plans, InScope p.tenantId tenantId ∧ p.planDigest = plan.planDigest ∧
    canonicalize (planContent p.plan.val) = canonicalize (planContent plan.val)

/-- What a draft says of itself is so. -/
structure DraftRow.Coherent (t : Tables S) (d : DraftRow S) : Prop where
  compiled : d.status ≠ .draft → ∃ c, d.compiledPlan = some c ∧ c.sources = d.sources
  evaluated : d.status ≠ .draft → d.status ≠ .compiled → ∃ c report, d.compiledPlan = some c ∧
    d.evaluationReport = some report ∧ report.planDigest = c.plan.planDigest
  published : d.status = .published → ∃ c, d.compiledPlan = some c ∧
    d.publishedPlanDigest = some c.plan.planDigest ∧ t.Admits d.tenantId c.plan

/-- The digest of the plan of a draft. -/
def DraftRow.planDigest? (d : DraftRow S) : Option String := d.compiledPlan.map (·.plan.planDigest)

/-- A draft is still what was read, as far as an update was made from it. -/
def LifecycleInput.Fits (input : LifecycleInput S) (d : DraftRow S) : Prop :=
  match input.status with
  | .compiled => ∀ read ∈ input.read, d.sources = read.sources
  | .evaluated | .published => ∀ read ∈ input.read, d.planDigest? = read.planDigest?
  | .draft | .approved => True

instance (input : LifecycleInput S) : DecidablePred input.Fits := fun d => by
  unfold LifecycleInput.Fits
  split <;> infer_instance

/-- The draft that an update finds is still what its request had read. -/
def Current (_ : Call) {β : Type} (statement : Statement S β) (t : Tables S) : Prop :=
  match statement with
  | .setLifecycle draftId input => ∀ d ∈ t.drafts, input.Selects draftId d → input.Fits d
  | _ => True

instance (call : Call) {β : Type} (statement : Statement S β) (t : Tables S) :
    Decidable (Current call statement t) := by
  unfold Current
  split <;> infer_instance

/-- Drafts are coherent, and plans have the digest that they name. -/
structure Tables.Consistent (sha256 : List Char → String) (t : Tables S) : Prop where
  coherent : ∀ d ∈ t.drafts, d.Coherent t
  compiled : ∀ d ∈ t.drafts, ∀ c ∈ d.compiledPlan, verifyPlanDigest sha256 c.plan.val = true
  plans : ∀ p ∈ t.plans, p.planDigest = p.plan.planDigest ∧ verifyPlanDigest sha256 p.plan.val = true

/-! ## What statements do to it -/

section

variable {tools : AuthoringTools} {sha256 : List Char → String} {call : Call} {t t' : Tables S}

/-- Plans with one digest have one content. -/
theorem planContent_eq (hsha : Function.Injective sha256) {plan plan' : S.Plan}
    (h : verifyPlanDigest sha256 plan.val = true) (h' : verifyPlanDigest sha256 plan'.val = true)
    (heq : plan.planDigest = plan'.planDigest) :
    canonicalize (planContent plan.val) = canonicalize (planContent plan'.val) := by
  rw [PlanSchema.Plan.planDigest_of_verify h, PlanSchema.Plan.planDigest_of_verify h'] at heq
  exact stableDigest_injective hsha heq

/-- Drafts stay coherent while plans are added. -/
theorem DraftRow.Coherent.mono {d : DraftRow S} (h : d.Coherent t) (hplans : ∀ p ∈ t.plans, p ∈ t'.plans) :
    d.Coherent t' where
  compiled := h.compiled
  evaluated := h.evaluated
  published hstatus := by
    obtain ⟨c, hc, hdigest, p, hp, hadmits⟩ := h.published hstatus
    exact ⟨c, hc, hdigest, p, hplans p hp, hadmits⟩

theorem Tables.Consistent.congr (h : t.Consistent sha256) (hdrafts : t'.drafts = t.drafts)
    (hplans : t'.plans = t.plans) : t'.Consistent sha256 := by
  constructor
  · intro d hd
    exact (h.coherent d (hdrafts ▸ hd)).mono fun p hp => hplans ▸ hp
  · intro d hd
    exact h.compiled d (hdrafts ▸ hd)
  · intro p hp
    exact h.plans p (hplans ▸ hp)

/-- An update keeps drafts coherent if it makes coherent ones of those that it selects. -/
theorem Tables.Consistent.update (h : t.Consistent sha256) {guard : DraftRow S → Prop}
    [DecidablePred guard] {set : DraftRow S → DraftRow S} {authors : List Authorship}
    (hcoherent : ∀ d ∈ t.drafts, guard d → (set d).Coherent t)
    (hcompiled : ∀ d ∈ t.drafts, guard d → ∀ c ∈ (set d).compiledPlan,
      verifyPlanDigest sha256 c.plan.val = true) :
    Tables.Consistent sha256 { t with drafts := updateWhere guard set t.drafts, authors } := by
  refine ⟨fun d' hd' => ?_, fun d' hd' => ?_, h.plans⟩
  · obtain ⟨d, hd, ⟨hg, rfl⟩ | ⟨hg, rfl⟩⟩ := mem_updateWhere.mp hd'
    · exact (hcoherent d hd hg).mono fun p hp => hp
    · exact (h.coherent d' hd).mono fun p hp => hp
  · obtain ⟨d, hd, ⟨hg, rfl⟩ | ⟨hg, rfl⟩⟩ := mem_updateWhere.mp hd'
    · exact hcompiled d hd hg
    · exact h.compiled d' hd

/-- A draft is coherent after an update that fits it. -/
theorem DraftRow.Coherent.advance (hsha : Function.Injective sha256) (h : t.Consistent sha256)
    (hids : t.Ids) {draftId : String} {input : LifecycleInput S} (hformed : input.Formed sha256 draftId t)
    {d : DraftRow S} (hd : d ∈ t.drafts) (hg : input.Selects draftId d) (hfits : input.Fits d) :
    (d.advance t.clock input).Coherent t := by
  have hcoherent := h.coherent d hd
  cases hformed with
  | @compile actor diagnostics read compilation hsources _ =>
    refine ⟨fun _ => ⟨compilation, rfl, hsources.trans (hfits read rfl).symm⟩, fun _ hne => absurd rfl hne, nofun⟩
  | @evaluate actor report read compilation hread hreport =>
    obtain ⟨c, hc, hsources⟩ := hcoherent.compiled (by rw [hg.2]; nofun)
    have hdigest : c.plan.planDigest = compilation.plan.planDigest := by
      have hsame := hfits read rfl
      rw [DraftRow.planDigest?, DraftRow.planDigest?, hc, hread] at hsame
      exact Option.some.inj hsame
    exact ⟨fun _ => ⟨c, hc, hsources⟩, fun _ _ => ⟨c, report, hc, rfl, hreport.trans hdigest.symm⟩, nofun⟩
  | approve =>
    have hcompiled := hcoherent.compiled (by rw [hg.2]; nofun)
    have hevaluated := hcoherent.evaluated (by rw [hg.2]; nofun) (by rw [hg.2]; nofun)
    exact ⟨fun _ => hcompiled, fun _ _ => hevaluated, nofun⟩
  | @publish actor contributors read compilation hnot hread hhas hadmitted =>
    obtain ⟨c, hc, hsources⟩ := hcoherent.compiled (by rw [hg.2]; nofun)
    obtain ⟨c', report, hc', hreport⟩ := hcoherent.evaluated (by rw [hg.2]; nofun) (by rw [hg.2]; nofun)
    have hdigest : c.plan.planDigest = compilation.plan.planDigest := by
      have hsame := hfits read rfl
      rw [DraftRow.planDigest?, DraftRow.planDigest?, hc, hread] at hsame
      exact Option.some.inj hsame
    have htenant : d.tenantId = read.tenantId := hids.tenant_eq hhas hd hg.1
    obtain ⟨p, hp, hscope, hpdigest⟩ := hadmitted
    obtain ⟨hself, hverify⟩ := h.plans p hp
    have hcontent := planContent_eq hsha hverify (h.compiled d hd c hc)
      ((hself.symm.trans hpdigest).trans hdigest.symm)
    refine ⟨fun _ => ⟨c, hc, hsources⟩, fun _ _ => ⟨c', report, hc', hreport⟩, fun _ => ⟨c, hc, ?_, p, hp, ?_⟩⟩
    · exact congrArg some hdigest.symm
    · exact ⟨htenant ▸ hscope, hpdigest.trans hdigest.symm, hcontent⟩

/-- **Statements that have what they need keep drafts coherent.** -/
theorem Tables.Consistent.exec (hsha : Function.Injective sha256) (h : t.Consistent sha256) (hids : t.Ids)
    {β : Type} {statement : Statement S β}
    (hpre : (lifecycle tools sha256 (@Current S)).Pre call statement t) (hok : Current call statement t) :
    (statement.exec sha256 t).2.Consistent sha256 := by
  cases statement with
  | insertDraft input =>
    simp only [Statement.exec]
    split
    · exact h
    · refine ⟨fun d hd => ?_, fun d hd => ?_, h.plans⟩
      · rcases List.mem_append.mp hd with hd | hd
        · exact (h.coherent d hd).mono fun p hp => hp
        · obtain rfl := List.mem_singleton.mp hd
          exact ⟨fun hne => absurd rfl hne, fun hne => absurd rfl hne, by rintro ⟨⟩⟩
      · rcases List.mem_append.mp hd with hd | hd
        · exact h.compiled d hd
        · obtain rfl := List.mem_singleton.mp hd
          rintro _ ⟨⟩
  | updateSources draftId input =>
    refine h.update (fun d _ _ => ?_) (by rintro _ _ _ _ ⟨⟩)
    exact ⟨fun hne => absurd rfl hne, fun hne => absurd rfl hne, by rintro ⟨⟩⟩
  | setLifecycle draftId input =>
    refine h.update (by exact fun d hd hg => .advance hsha h hids hpre hd hg (hok d hd hg))
      fun d hd hg c hc => ?_
    cases hpre with
    | compile _ hverify =>
      obtain rfl := Option.some.inj hc
      exact hverify
    | evaluate | approve | publish => exact h.compiled d hd c hc
  | insertPlan tenantId plan =>
    simp only [Statement.exec]
    split
    · exact h
    · refine ⟨fun d hd => (h.coherent d hd).mono fun p hp => List.mem_append_left _ hp, h.compiled, ?_⟩
      intro p hp
      rcases List.mem_append.mp hp with hp | hp
      · exact h.plans p hp
      · obtain rfl := List.mem_singleton.mp hp
        exact ⟨rfl, hpre⟩
  | insertEvent event =>
    simp only [Statement.exec]
    split <;> exact h.congr rfl rfl
  | appendEvent input =>
    obtain ⟨runs, runEvents, heq⟩ := appendEvent_eq input t
    rw [Statement.exec, heq]
    exact h.congr rfl rfl
  | insertNodeAttempt row =>
    obtain ⟨nodeAttempts, heq⟩ := insertNodeAttempt_eq row t
    rw [Statement.exec, heq]
    exact h.congr rfl rfl
  | _ => exact h.congr rfl rfl

/-- **An update keeps drafts coherent if and only if it finds what its request had read.** -/
theorem coherent_exec_iff (hsha : Function.Injective sha256) (h : t.Consistent sha256) (hids : t.Ids)
    {draftId : String} {input : LifecycleInput S}
    (hpre : (lifecycle tools sha256 (@Current S)).Pre call (.setLifecycle draftId input) t) :
    (∀ d ∈ ((Statement.setLifecycle draftId input).exec sha256 t).2.drafts,
      d.Coherent ((Statement.setLifecycle draftId input).exec sha256 t).2) ↔
      Current call (.setLifecycle draftId input) t := by
  refine ⟨fun hcoherent d hd hg => ?_, fun hok => (h.exec hsha hids hpre hok).coherent⟩
  have hafter := hcoherent (d.advance t.clock input) (mem_updateWhere.mpr ⟨d, hd, .inl ⟨hg, rfl⟩⟩)
  cases hpre with
  | @compile actor diagnostics read compilation hsources _ =>
    rintro _ ⟨⟩
    obtain ⟨c, hc, hsame⟩ := hafter.compiled nofun
    obtain rfl : compilation = c := Option.some.inj hc
    exact hsame.symm.trans hsources
  | @evaluate actor report read compilation hread hreport =>
    rintro _ ⟨⟩
    obtain ⟨c, report', hc, hreport', hsame⟩ := hafter.evaluated nofun nofun
    obtain rfl : report = report' := Option.some.inj hreport'
    have hc : d.compiledPlan = some c := hc
    rw [DraftRow.planDigest?, DraftRow.planDigest?, hc, hread]
    exact congrArg some (hsame.symm.trans hreport)
  | approve => trivial
  | @publish actor contributors read compilation hnot hread hhas hadmitted =>
    rintro _ ⟨⟩
    obtain ⟨c, hc, hdigest, -⟩ := hafter.published rfl
    have hc : d.compiledPlan = some c := hc
    rw [DraftRow.planDigest?, DraftRow.planDigest?, hc, hread]
    exact hdigest.symm

theorem Tables.Consistent.environment (h : t.Consistent sha256) (henv : Environment t t') :
    t'.Consistent sha256 := by
  cases henv with
  | event input =>
    obtain ⟨runs, runEvents, heq⟩ := appendEvent_eq input t
    rw [heq]
    exact h.congr rfl rfl
  | _ => exact h.congr rfl rfl

theorem Tables.consistent_start {registry : Registry} {clock : Time} :
    (Tables.start (S := S) registry clock).Consistent sha256 :=
  ⟨List.forall_mem_nil _, List.forall_mem_nil _, List.forall_mem_nil _⟩

/-- **Drafts are coherent** in every run in which updates find what their requests had read. -/
theorem drafts_coherent (hsha : Function.Injective sha256) {registry : Registry} {clock : Time}
    {s : Traffic (Tables S) (Statement S) Call (Response S)}
    (h : Traffic.Reachable (server tools sha256 S) Current (.start registry clock) s) :
    ∀ d ∈ s.tables.drafts, d.Coherent s.tables := by
  have hconsistent : s.tables.Consistent sha256 := by
    refine h.invariant (D := lifecycle tools sha256 (@Current S)) (fun call t _ => forms_handle call t)
      Tables.ids_start Tables.consistent_start ?_ ?_
    · exact fun hids hpre hok hI => hI.exec hsha hids hpre hok
    · exact fun _ henv hI => hI.environment henv
  exact hconsistent.coherent

end

namespace Sample

/-- The sources of a draft, and of its plan. -/
structure Origin where
  status : AuthoringStatus
  sources : Sources
  compiledFrom : Option Sources
deriving DecidableEq

/-- The sources of the drafts, and of their plans. -/
def origins (s : Traffic (Tables schema) (Statement schema) Call (Response schema)) : List Origin :=
  s.tables.drafts.map fun d => ⟨d.status, d.sources, d.compiledPlan.map (·.sources)⟩

theorem origins_authored : ((Traffic.start (.start ⟨[], [], []⟩ 0)).run
    (server (tools String.ofList) String.ofList schema) Current (authored "bob" "cat")).map origins =
      some [⟨.published, ⟨"package", "workflow"⟩, some ⟨"package", "workflow"⟩⟩] := by decide +kernel

/-- Bob changes the sources while ann compiles them. -/
def overtaken : List (Traffic.Event Call) :=
  requests [(ask "ann" "1" (.createDraft none none), 2)] ++
    [.arrive 1 (ask "ann" "2" (.compileDraft firstDraft)), .turn 1, .turn 1,
      .arrive 2 (ask "bob" "3" (.putDraft firstDraft (some (1, ⟨"package", "changed"⟩)))), .turn 2, .turn 2,
      .turn 1, .turn 1]

theorem origins_overtaken : ((Traffic.start (.start ⟨[], [], []⟩ 0)).run
    (server (tools String.ofList) String.ofList schema) (fun _ _ _ _ => True) overtaken).map origins =
      some [⟨.compiled, ⟨"package", "changed"⟩, some ⟨"package", "workflow"⟩⟩] := by decide +kernel

end Sample

/-- A draft goes its way. -/
theorem drafts_coherent_sample : ∃ s,
    (Traffic.start (.start ⟨[], [], []⟩ 0)).run
      (server (Sample.tools String.ofList) String.ofList Sample.schema) Current
      (Sample.authored "bob" "cat") = some s ∧
    Sample.origins s = [⟨.published, ⟨"package", "workflow"⟩, some ⟨"package", "workflow"⟩⟩] ∧
    ∀ d ∈ s.tables.drafts, d.Coherent s.tables := by
  obtain ⟨s, hrun, horigins⟩ := Option.map_eq_some_iff.mp Sample.origins_authored
  exact ⟨s, hrun, horigins,
    drafts_coherent (fun _ _ => String.ofList_injective) (Traffic.reachable_run hrun)⟩

/-- The plan of a draft is one of the sources that it had. -/
theorem drafts_incoherent : ∃ s,
    Traffic.Reachable (server (Sample.tools String.ofList) String.ofList Sample.schema)
      (fun _ _ _ _ => True) (.start ⟨[], [], []⟩ 0) s ∧
    Sample.origins s = [⟨.compiled, ⟨"package", "changed"⟩, some ⟨"package", "workflow"⟩⟩] ∧
    ¬ ∀ d ∈ s.tables.drafts, d.Coherent s.tables := by
  obtain ⟨s, hrun, horigins⟩ := Option.map_eq_some_iff.mp Sample.origins_overtaken
  refine ⟨s, Traffic.reachable_run hrun, horigins, fun hcoherent => ?_⟩
  obtain ⟨d, hdrafts, heq⟩ := List.map_eq_singleton_iff.mp horigins
  obtain ⟨hstatus, hsources, hcompiled⟩ := Sample.Origin.mk.inj heq
  obtain ⟨c, hc, hsame⟩ := (hcoherent d (hdrafts ▸ List.mem_singleton_self d)).compiled
    (by rw [hstatus]; nofun)
  rw [hc, Option.map_some, hsame, hsources] at hcompiled
  exact absurd hcompiled (by decide)

end ControlApi

end HarnessFramework
