import HarnessFramework.CaseStore.Ledger

/-!
# The disposition of a case

Three commands move the status of a case, and one of them decides it. Over the history of a case,
the statuses are a path of the status graph, and a decision is the effect of one authorized
`FinalizeDisposition`.

## Main definitions

* `CaseHistory` — the calls on a case
* `statuses`, `finalizations` — the statuses after them, and those that finalized a disposition
* `Authorizes` — what such a call found and did
* `StatusPath`, `Undecided`, `Decided` — the invariant

## Main results

* `CaseHistory.statusPath` — the statuses are a path
* `CaseHistory.decided` — a case is undecided, or decided by one finalization
* `disposition_safety` — both, in every state that clients reach side by side
-/

namespace HarnessFramework

namespace CaseStore

/-- What became of a call on the case store. -/
abbrev CaseEntry : Type := Entry Call CaseTables Failure Answer

/-- The calls on a case, from its first to its last state. -/
abbrev CaseHistory (sha256 : List Char → String) : List CaseEntry → CaseTables → Prop :=
  History (Effect sha256) .empty

/-- The status of a case. -/
def CaseTables.status (t : CaseTables) : Option KycCaseStatus := t.cases.map (·.status)

/-- The statuses of a case after the calls on it. -/
def statuses (entries : List CaseEntry) : List KycCaseStatus := entries.filterMap (·.after.status)

/-- The call finalized a disposition: it is an accepted `FinalizeDisposition`, and not the replay of
one. -/
def Finalizes (entry : CaseEntry) : Prop :=
  match entry.call, entry.result with
  | .submitBusinessCommand _ command, .ok (.response _ false) =>
    command.commandType = .finalizeDisposition
  | _, _ => False

instance : DecidablePred Finalizes := fun entry => by
  unfold Finalizes
  split <;> infer_instance

/-- The calls that finalized a disposition. -/
def finalizations (entries : List CaseEntry) : List CaseEntry := entries.filter Finalizes

/-- The call is a `FinalizeDisposition` of a human with a KYC role, issued under human review, with
no open contradiction of high materiality. It names a recommendation of the case that was authorized
by a gate result, writes the disposition `d` and moves the status to its outcome. -/
structure Authorizes (entry : CaseEntry) (d : DispositionRow) : Prop where
  command : ∃ env command, entry.call = .submitBusinessCommand env command ∧
    command.commandType = .finalizeDisposition ∧
    command.actor.type = .human ∧ HasKycRole command.actor ∧
    field command "recommendationRef" = some (.str d.recommendationRef)
  status : entry.before.status = some .humanReview
  recommendation : ∃ r ∈ entry.before.objects.recommendations,
    r.recommendationId = d.recommendationRef
  gate : ∃ g ∈ entry.before.objects.gateResults, g.gateResultId = d.gateResultRef ∧
    g.decision = .authorized ∧ g.recommendationRef = d.recommendationRef
  contradictions : ¬ ∃ r ∈ entry.before.objects.contradictions, r.BlocksDisposition
  disposition : entry.after.objects.dispositions = entry.before.objects.dispositions ++ [d]
  outcome : entry.after.status = some d.outcome.status

/-! ## The status graph -/

/-- The statuses begin with `INTAKE`, each is the one before it or a transition from it, and the
last one is the status now. -/
structure StatusPath (path : List KycCaseStatus) (now : Option KycCaseStatus) : Prop where
  first : ∀ status ∈ path.head?, status = .intake
  step : path.IsChain fun a b => b = a ∨ b ∈ allowedTransitions a
  last : path.getLast? = now

theorem StatusPath.nil : StatusPath [] none := ⟨by simp, .nil, rfl⟩

theorem StatusPath.start {path : List KycCaseStatus} (h : StatusPath path none) :
    StatusPath (path ++ [.intake]) (some .intake) := by
  obtain rfl := List.getLast?_eq_none_iff.mp h.last
  exact ⟨by simp, .singleton _, rfl⟩

theorem StatusPath.concat {path : List KycCaseStatus} {a b : KycCaseStatus}
    (h : StatusPath path (some a)) (hab : b = a ∨ b ∈ allowedTransitions a) :
    StatusPath (path ++ [b]) (some b) := by
  refine ⟨?_, h.step.append (.singleton b) ?_, by simp⟩
  · intro status hs
    refine h.first status ?_
    cases path with
    | nil => cases h.last
    | cons => exact hs
  · rw [h.last]
    rintro _ ⟨⟩ _ ⟨⟩
    exact hab

/-! ## What a call does to status and disposition -/

/-- A call keeps the status, creates the case, moves the status to no disposition, or finalizes a
disposition. -/
inductive Progress (entry : CaseEntry) : Prop
  | same : ¬ Finalizes entry → entry.after.status = entry.before.status →
      entry.after.objects.dispositions = entry.before.objects.dispositions → Progress entry
  | created : ¬ Finalizes entry → entry.before.status = none → entry.after.status = some .intake →
      entry.after.objects.dispositions = entry.before.objects.dispositions → Progress entry
  | moved (a b) : ¬ Finalizes entry → entry.before.status = some a → entry.after.status = some b →
      b ∈ allowedTransitions a → b ≠ .approved ∧ b ≠ .declined →
      entry.after.objects.dispositions = entry.before.objects.dispositions → Progress entry
  | finalized (d) : Finalizes entry → Authorizes entry d → Progress entry

/-- Gate results are about recommendations of the case. -/
def GatesNamed (t : CaseTables) : Prop :=
  ∀ g ∈ t.objects.gateResults, ∃ r ∈ t.objects.recommendations,
    r.recommendationId = g.recommendationRef

section

variable {sha256 : List Char → String} {call : Call} {t t' : CaseTables} {answer : Answer}
  {ms : List OutboxRow} {command : BusinessCommand} {current : CaseRow} {mutation : MutationResult}

theorem Accepts.status (h : Accepts sha256 command t t' ms current mutation) :
    t.status = some current.status ∧
      t'.status = some (mutation.nextStatus.getD current.status) := by
  obtain ⟨updatedAt, hcases⟩ := h.cases
  simp [CaseTables.status, h.found, hcases]

theorem Mutates.gatesNamed {s s' : ObjectTables} (h : Mutates command current s mutation s')
    (hg : ∀ g ∈ s.gateResults, ∃ r ∈ s.recommendations, r.recommendationId = g.recommendationRef) :
    ∀ g ∈ s'.gateResults, ∃ r ∈ s'.recommendations, r.recommendationId = g.recommendationRef := by
  rcases h with ⟨-, hr | hm⟩ | ⟨-, d, hd⟩
  · intro g hmem
    obtain ⟨r, hr', hid⟩ : ∃ r ∈ s.recommendations, r.recommendationId = g.recommendationRef := by
      rcases hr.gateResults g hmem with hmem | hrec
      · exact hg g hmem
      · exact hrec
    exact ⟨r, hr.recommendations hr', hid⟩
  · rw [hm.objects]; exact hg
  · rw [hd.objects]; exact hg

theorem Effect.gatesNamed (he : Effect sha256 call t answer t' ms) (hg : GatesNamed t) :
    GatesNamed t' := by
  cases he with
  | replayed => exact hg
  | existing => exact hg
  | created env request idempotencyKey t row eventId t' ms hc =>
    rw [GatesNamed, hc.objects]; exact hg
  | accepted env command t response t' ms current mutation hc =>
    obtain ⟨objects, edges, hm, hobj⟩ := hc.objects
    rw [GatesNamed, hobj]; exact hm.gatesNamed hg
  | registered key evidenceId t t' ms hr =>
    obtain ⟨-, rows, rfl⟩ := hr
    exact hg

/-- **What a call that returns does to status and disposition.** -/
theorem Effect.progress (he : Effect sha256 call t answer t' ms) (hg : GatesNamed t) :
    Progress ⟨call, .ok answer, t, t'⟩ := by
  cases he with
  | replayed => exact .same (by simp [Finalizes]) rfl rfl
  | existing => exact .same (by simp [Finalizes]) rfl rfl
  | created env request idempotencyKey t row eventId t' ms hc =>
    obtain ⟨createdAt, hcases⟩ := hc.cases
    refine .created (by simp [Finalizes]) ?_ ?_ (by rw [hc.objects])
    · simp [CaseTables.status, hc.absent]
    · simp [CaseTables.status, hcases, newCaseRow]
  | accepted env command t response t' ms current mutation hc =>
    obtain ⟨hbefore, hafter⟩ := hc.status
    obtain ⟨objects, edges, hm, hobj⟩ := hc.objects
    rcases hm with ⟨hne, hr | hm⟩ | ⟨htype, d, hd⟩
    · refine .same (by simpa [Finalizes] using hne) ?_ ?_
      · rw [hafter, hr.nextStatus, hbefore]; rfl
      · rw [hobj]; exact hr.dispositions
    · obtain ⟨status, hallowed, hno, hno', hnext⟩ := hm.nextStatus
      refine .moved current.status status (by simpa [Finalizes] using hne) hbefore ?_ hallowed
        ⟨hno, hno'⟩ ?_
      · rw [hafter, hnext]; rfl
      · rw [hobj, hm.objects]
    · obtain ⟨g, hgmem, hgid, hauthorized, hgrec⟩ := hd.gate
      obtain ⟨r, hr, hrid⟩ := hg g hgmem
      refine .finalized d (by simpa [Finalizes] using htype) ?_
      exact {
        command := ⟨env, command, rfl, htype, hd.actor.1, hd.actor.2, hd.recommendation⟩
        status := by rw [hbefore, hd.status]
        recommendation := ⟨r, hr, hrid.trans hgrec⟩
        gate := ⟨g, hgmem, hgid, hauthorized, hgrec⟩
        contradictions := hd.contradictions
        disposition := by rw [hobj, hd.objects]
        outcome := by rw [hafter, hd.nextStatus]; rfl }
  | registered key evidenceId t t' ms hr =>
    obtain ⟨-, rows, rfl⟩ := hr
    exact .same (by simp [Finalizes]) rfl rfl

/-- The status stays, or moves along the status graph. -/
theorem Progress.status {entry : CaseEntry} (h : Progress entry) {a : KycCaseStatus}
    (ha : entry.before.status = some a) :
    ∃ b, entry.after.status = some b ∧ (b = a ∨ b ∈ allowedTransitions a) := by
  cases h with
  | same _ hstatus _ => exact ⟨a, hstatus.trans ha, .inl rfl⟩
  | created _ hbefore _ _ => cases hbefore.symm.trans ha
  | moved a' b _ hbefore hafter hallowed _ _ =>
    obtain rfl := Option.some_inj.mp (hbefore.symm.trans ha)
    exact ⟨b, hafter, .inr hallowed⟩
  | finalized d _ hd =>
    obtain rfl := Option.some_inj.mp (hd.status.symm.trans ha)
    exact ⟨d.outcome.status, hd.outcome, .inr (by cases d.outcome <;> decide)⟩

/-! ## Histories -/

theorem CaseHistory.gatesNamed {es : List CaseEntry} (h : CaseHistory sha256 es t) : GatesNamed t := by
  induction h with
  | nil => exact fun g hg => nomatch hg
  | returns call answer t' ms _ he ih => exact he.gatesNamed ih
  | throws call e _ ih => exact ih

/-- The rule for what every call on a case keeps. -/
theorem CaseHistory.rule {P : List CaseEntry → CaseTables → Prop} (hnil : P [] .empty)
    (hstep : ∀ es entry, P es entry.before → Progress entry → P (es ++ [entry]) entry.after)
    {es : List CaseEntry} (h : CaseHistory sha256 es t) : P es t := by
  induction h with
  | nil => exact hnil
  | @returns es t call answer t' ms hist he ih =>
    exact hstep es ⟨call, .ok answer, t, t'⟩ ih (he.progress (CaseHistory.gatesNamed hist))
  | @throws es t call e _ ih =>
    exact hstep es ⟨call, .error e, t, t⟩ ih (.same (by simp [Finalizes]) rfl rfl)

/-- **The statuses are a path of the status graph.** -/
theorem CaseHistory.statusPath {es : List CaseEntry} (h : CaseHistory sha256 es t) :
    StatusPath (statuses es) t.status := by
  refine CaseHistory.rule (P := fun es t => StatusPath (statuses es) t.status) .nil ?_ h
  intro es entry ih hp
  have hconcat : statuses (es ++ [entry]) = statuses es ++ entry.after.status.toList := by
    cases hs : entry.after.status <;> simp [statuses, hs]
  rw [hconcat]
  cases hp with
  | same _ hstatus _ =>
    rw [hstatus]
    cases hs : entry.before.status with
    | none => simpa [hs] using ih
    | some a => rw [hs] at ih; exact ih.concat (.inl rfl)
  | created _ hbefore hafter _ =>
    rw [hbefore] at ih
    rw [hafter]
    exact ih.start
  | moved a b _ hbefore hafter hallowed _ _ =>
    rw [hbefore] at ih
    rw [hafter]
    exact ih.concat (.inr hallowed)
  | finalized d _ ha =>
    rw [ha.status] at ih
    rw [ha.outcome]
    exact ih.concat (.inr (by cases d.outcome <;> decide))

/-- No disposition was finalized. -/
structure Undecided (es : List CaseEntry) (t : CaseTables) : Prop where
  finalizations : finalizations es = []
  dispositions : t.objects.dispositions = []
  status : t.status ≠ some .approved ∧ t.status ≠ some .declined

/-- One call finalized the disposition `d`, and the case has been closed since or has its outcome as
its status. -/
structure Decided (es : List CaseEntry) (t : CaseTables) (entry : CaseEntry) (d : DispositionRow) :
    Prop where
  finalizations : finalizations es = [entry]
  authorizes : Authorizes entry d
  dispositions : t.objects.dispositions = [d]
  status : t.status = some d.outcome.status ∨ t.status = some .closed

theorem finalizations_concat (es : List CaseEntry) (entry : CaseEntry) :
    finalizations (es ++ [entry]) =
      finalizations es ++ if Finalizes entry then [entry] else [] := by
  rw [finalizations, List.filter_append, List.filter_singleton]
  split <;> simp_all [finalizations]

/-- **A case is undecided, or decided by one authorized finalization.** -/
theorem CaseHistory.decided {es : List CaseEntry} (h : CaseHistory sha256 es t) :
    Undecided es t ∨ ∃ entry d, Decided es t entry d := by
  refine CaseHistory.rule (P := fun es t => Undecided es t ∨ ∃ entry d, Decided es t entry d)
    (.inl ⟨rfl, rfl, by simp [CaseTables.status, CaseTables.empty]⟩) ?_ h
  intro es entry ih hp
  cases hp with
  | same hno hstatus hdisp =>
    have hf : finalizations (es ++ [entry]) = finalizations es := by
      rw [finalizations_concat, if_neg hno, List.append_nil]
    rcases ih with hu | ⟨e, d, hd⟩
    · exact .inl ⟨hf.trans hu.finalizations, hdisp.trans hu.dispositions, hstatus ▸ hu.status⟩
    · exact .inr ⟨e, d, hf.trans hd.finalizations, hd.authorizes, hdisp.trans hd.dispositions,
        hstatus ▸ hd.status⟩
  | created hno hbefore hafter hdisp =>
    have hf : finalizations (es ++ [entry]) = finalizations es := by
      rw [finalizations_concat, if_neg hno, List.append_nil]
    rcases ih with hu | ⟨e, d, hd⟩
    · exact .inl ⟨hf.trans hu.finalizations, hdisp.trans hu.dispositions, by simp [hafter]⟩
    · rcases hd.status with hs | hs <;> simp [hbefore] at hs
  | moved a b hno hbefore hafter hallowed hb hdisp =>
    have hf : finalizations (es ++ [entry]) = finalizations es := by
      rw [finalizations_concat, if_neg hno, List.append_nil]
    rcases ih with hu | ⟨e, d, hd⟩
    · exact .inl ⟨hf.trans hu.finalizations, hdisp.trans hu.dispositions, by simp [hafter, hb]⟩
    · -- A decided case moves to `CLOSED` only.
      refine .inr ⟨e, d, hf.trans hd.finalizations, hd.authorizes, hdisp.trans hd.dispositions,
        .inr ?_⟩
      rw [hafter]
      rcases hd.status with hs | hs
      · obtain rfl := Option.some_inj.mp (hbefore.symm.trans hs)
        cases ho : d.outcome <;> simp_all [DispositionOutcome.status, allowedTransitions]
      · obtain rfl := Option.some_inj.mp (hbefore.symm.trans hs)
        simp [allowedTransitions] at hallowed
  | finalized d hyes ha =>
    rcases ih with hu | ⟨e, d', hd⟩
    · refine .inr ⟨entry, d, ?_, ha, ?_, .inl ha.outcome⟩
      · rw [finalizations_concat, if_pos hyes, hu.finalizations, List.nil_append]
      · rw [ha.disposition, hu.dispositions, List.nil_append]
    · rcases hd.status with hs | hs
      · have := Option.some_inj.mp (ha.status.symm.trans hs)
        cases ho : d'.outcome <;> simp [ho, DispositionOutcome.status] at this
      · cases ha.status.symm.trans hs

theorem Undecided.length_dispositions {es : List CaseEntry} (h : Undecided es t) :
    t.objects.dispositions.length ≤ 1 := by simp [h.dispositions]

theorem Decided.length_dispositions {es : List CaseEntry} {entry : CaseEntry} {d : DispositionRow}
    (h : Decided es t entry d) : t.objects.dispositions.length ≤ 1 := by simp [h.dispositions]

theorem Decided.outcome {es : List CaseEntry} {entry : CaseEntry} {d : DispositionRow}
    (h : Decided es t entry d) {status : KycCaseStatus} (hs : t.status = some status)
    (hne : status ≠ .closed) : status = d.outcome.status := by
  rcases h.status with h | h
  · exact Option.some_inj.mp (hs.symm.trans h)
  · exact absurd (Option.some_inj.mp (hs.symm.trans h)) hne

end

/-! ## A run that approves a case -/

namespace Sample

/-- A command on the case, with its tag in the ids it draws. -/
def taggedCall (tag : IdempotencyKey) (type : BusinessCommandType) (caseSequence : ℕ)
    (payload : List (String × Json)) : Call :=
  .submitBusinessCommand (env tag.val) (command checksum tag type caseSequence payload none)

/-- A case is suspended, put under review, recommended, authorized and approved. -/
def approvalCalls : List Call :=
  [createCall,
    taggedCall ⟨"suspend", suspend_key⟩ .transitionCaseStatus 1
      [("toStatus", .str "SUSPENDED"), ("reason", .str "reason")],
    taggedCall ⟨"review", review_key⟩ .transitionCaseStatus 2
      [("toStatus", .str "HUMAN_REVIEW"), ("reason", .str "reason")],
    taggedCall ⟨"recommend", recommend_key⟩ .submitDecisionRecommendation 3
      [("recommendationId", .str "recommendation"), ("findingRefs", .arr [.str "finding"]),
        ("outcome", .str "APPROVE"), ("rationale", .str "rationale")],
    taggedCall ⟨"gate", gate_key⟩ .recordGateResult 4
      [("gateResultId", .str "gate"), ("recommendationRef", .str "recommendation"),
        ("decision", .str "AUTHORIZED"), ("ruleResults", .arr [.obj []])],
    taggedCall ⟨"finalize", finalize_key⟩ .finalizeDisposition 5
      [("recommendationRef", .str "recommendation"), ("gateResultRef", .str "gate"),
        ("outcome", .str "APPROVED"), ("rationale", .str "rationale")]]

end Sample

/-! ## Whole runs -/

section

variable {sha256 : List Char → String} {evidenceRequireScan : Bool}

/-- The history of a case in a store that whole transactions reach. -/
theorem store_history {st : Store CaseKey Call CaseTables OutboxRow Failure Answer}
    (h : Store.Reachable (caseService sha256 evidenceRequireScan) OutboxRelay noCases st)
    (key : CaseKey) :
    CaseHistory sha256 (st.history (caseService sha256 evidenceRequireScan) key) (st.db key) :=
  h.history (call_underLock sha256 evidenceRequireScan) key

/-- One transaction keeps the status of a case or moves it along the status graph. -/
theorem store_status_step {st st' : Store CaseKey Call CaseTables OutboxRow Failure Answer}
    (h : Store.Reachable (caseService sha256 evidenceRequireScan) OutboxRelay noCases st)
    (hstep : Store.Step (caseService sha256 evidenceRequireScan) OutboxRelay st st') {key : CaseKey}
    {a : KycCaseStatus} (ha : (st.db key).status = some a) :
    ∃ b, (st'.db key).status = some b ∧ (b = a ∨ b ∈ allowedTransitions a) := by
  rcases hstep.cases fun call => call_underLock sha256 evidenceRequireScan _ call with
    ⟨call, answer, t', ms, he, rfl⟩ | ⟨call, e, rfl⟩ | ⟨out, hrel, rfl⟩
  · by_cases hkey : key = (caseService sha256 evidenceRequireScan).key call
    · subst hkey
      rw [Store.commit_db_self]
      exact (he.progress (store_history h _).gatesNamed).status ha
    · rw [Store.commit_db_of_ne hkey]
      exact ⟨a, ha, .inl rfl⟩
  · exact ⟨a, ha, .inl rfl⟩
  · exact ⟨a, ha, .inl rfl⟩

/-- **Disposition safety.** In every state that clients of the case store reach side by side, for
every case: its statuses are a path of the status graph; it has at most one disposition; it is
approved or declined only if exactly one call finalized a disposition, authorized and with that
outcome; and from there the next step leaves its status or closes it, and leaves a closed one
closed. -/
theorem disposition_safety {ι : Type} [DecidableEq ι] {s : CaseSystem ι}
    (h : System.Reachable (caseService sha256 evidenceRequireScan) OutboxRelay noCases s)
    (key : CaseKey) :
    StatusPath (statuses (s.history (caseService sha256 evidenceRequireScan) key))
      (s.db key).status ∧
    (s.db key).objects.dispositions.length ≤ 1 ∧
    (∀ status, (s.db key).status = some status → status = .approved ∨ status = .declined →
      ∃ entry d, finalizations (s.history (caseService sha256 evidenceRequireScan) key) = [entry] ∧
        Authorizes entry d ∧ (s.db key).objects.dispositions = [d] ∧ status = d.outcome.status) ∧
    (∀ s', System.Step (caseService sha256 evidenceRequireScan) OutboxRelay s s' →
      ∀ status, (s.db key).status = some status → ∃ status', (s'.db key).status = some status' ∧
        (status = .approved ∨ status = .declined → status' = status ∨ status' = .closed) ∧
        (status = .closed → status' = .closed)) := by
  have hist := store_history h.store key
  refine ⟨hist.statusPath, ?_, ?_, ?_⟩
  · rcases hist.decided with hu | ⟨entry, d, hd⟩
    · exact hu.length_dispositions
    · exact hd.length_dispositions
  · intro status hs hdecided
    rcases hist.decided with hu | ⟨entry, d, hd⟩
    · rcases hdecided with rfl | rfl
      · exact absurd hs hu.status.1
      · exact absurd hs hu.status.2
    · refine ⟨entry, d, hd.finalizations, hd.authorizes, hd.dispositions, hd.outcome hs ?_⟩
      rcases hdecided with rfl | rfl <;> decide
  · intro s' hstep status hs
    obtain ⟨status', hs', hmove⟩ : ∃ status', (s'.db key).status = some status' ∧
        (status' = status ∨ status' ∈ allowedTransitions status) := by
      rcases hstep.store h.coherent with heq | hstep
      · rw [heq]; exact ⟨status, hs, .inl rfl⟩
      · exact store_status_step h.store hstep hs
    refine ⟨status', hs', ?_, ?_⟩
    · rintro (rfl | rfl) <;> simpa [allowedTransitions] using hmove
    · rintro rfl
      simpa [allowedTransitions] using hmove

open Sample in
set_option maxRecDepth 40000 in
theorem disposition_safety_sample :
    ∃ entry d, finalizations ((after checksum approvalCalls).history (caseService checksum false)
        (caseKey checksum)) = [entry] ∧ Authorizes entry d ∧ d.outcome.status = .approved := by
  have hstatus : ((after checksum approvalCalls).db (caseKey checksum)).status = some .approved := by
    decide +kernel
  obtain ⟨entry, d, hentry, hauthorizes, -, houtcome⟩ :=
    (disposition_safety (reachable_after checksum approvalCalls) (caseKey checksum)).2.2.1 _ hstatus
      (.inl rfl)
  exact ⟨entry, d, hentry, hauthorizes, houtcome.symm⟩

end

end CaseStore

end HarnessFramework
