import HarnessFramework.CaseStore.Ledger
import HarnessFramework.CaseStore.Verification
import HarnessFramework.CaseStore.Writes

/-!
# Reading a case while others write to it

`getCaseView` selects the row of the case, and then from fourteen tables side by side, each in a
transaction of its own. Calls may commit between any two selects, so that the rows it returns need not
have been in the tables at any one time. `listCaseEvents` returns 1000 events at most, so that who wants
all asks again for those after the last.

## Main definitions

* `Grows` — what calls carry on: the sequence of the case grows, or its evidence alone
* `Viewing`, `ViewStep` — a `getCaseView` under way, between the steps of the case store
* `FeedStep` — someone who asks for the events after the last, between the steps of the case store

## Main results

* `call_grows` — every call carries it on
* `accepted_on_view` — a command accepted at the sequence of a view was checked on the rows of the view
* `feed_complete` — whoever pages gets every event once and in order
-/

namespace HarnessFramework

namespace CaseStore

/-! ## What calls carry on -/

/-- The sequence of the case grows, or of its rows the evidence alone. Events and evidence stay. -/
structure Grows (t t' : CaseTables) : Prop where
  events : t.events <+: t'.events
  evidence : t.objects.evidenceObjects <+: t'.objects.evidenceObjects
  advances : t.sequence < t'.sequence ∨
    t' = { t with objects := { t.objects with evidenceObjects := t'.objects.evidenceObjects } }

theorem Grows.refl (t : CaseTables) : Grows t t := ⟨List.prefix_rfl, List.prefix_rfl, .inr rfl⟩

theorem Grows.sequence_le {t t' : CaseTables} (h : Grows t t') : t.sequence ≤ t'.sequence := by
  rcases h.advances with hlt | heq
  · exact hlt.le
  · rw [heq]
    exact le_rfl

theorem Grows.trans {t t' t'' : CaseTables} (h : Grows t t') (h' : Grows t' t'') : Grows t t'' := by
  refine ⟨h.events.trans h'.events, h.evidence.trans h'.evidence, ?_⟩
  rcases h.advances with hlt | heq
  · exact .inl (Nat.lt_of_lt_of_le hlt h'.sequence_le)
  · rcases h'.advances with hlt' | heq'
    · exact .inl (Nat.lt_of_le_of_lt h.sequence_le hlt')
    · exact .inr (by rw [heq', heq])

/-- At one sequence, the rows differ in the evidence alone. -/
theorem Grows.eq_of_sequence {t t' : CaseTables} (h : Grows t t') (hseq : t'.sequence = t.sequence) :
    t' = { t with objects := { t.objects with evidenceObjects := t'.objects.evidenceObjects } } := by
  rcases h.advances with hlt | heq
  · omega
  · exact heq

section

variable (sha256 : List Char → String) (evidenceRequireScan : Bool)

/-- **Every call carries it on.** -/
theorem call_grows (P : CaseTables → Prop) (call : Call) :
    ((caseService sha256 evidenceRequireScan).txn call).underLock P fun t _ t' _ => Grows t t' := by
  refine Txn.underLock_mono (Txn.underLock_and (call_underLock sha256 evidenceRequireScan P call)
    (call_written sha256 evidenceRequireScan P call)) ?_
  rintro t answer t' ms ⟨heffect, hwritten⟩
  cases heffect with
  | replayed | existing => exact Grows.refl _
  | created _ request _ _ _ _ _ _ hc =>
    obtain ⟨w, r, receipt, happends, -⟩ := hc.appends
    obtain ⟨createdAt, hcases⟩ := hc.cases
    refine ⟨⟨[r], happends.events.symm⟩, by rw [hc.objects], .inl ?_⟩
    rw [CaseTables.sequence_of_none hc.absent, CaseTables.sequence_of_some hcases]
    exact Nat.one_pos
  | accepted _ command _ _ _ _ current _ hc =>
    obtain ⟨w, r, receipt, happends, -⟩ := hc.appends
    obtain ⟨updatedAt, hcases⟩ := hc.cases
    refine ⟨⟨[r], happends.events.symm⟩, ?_, .inl ?_⟩
    · cases hwritten with
      | accepted _ _ _ _ _ _ _ _ _ hwrites hobjects =>
        rw [hobjects, hwrites.evidenceObjects]
      | other _ _ _ _ _ _ hanswer => exact absurd rfl (hanswer _)
    · rw [CaseTables.sequence_of_some hc.found, CaseTables.sequence_of_some hcases]
      exact Nat.lt_succ_self _
  | registered _ _ _ _ _ hr =>
    obtain ⟨-, rows, rfl⟩ := hr
    cases hwritten with
    | other _ _ _ _ _ rows' _ hobjects =>
      refine ⟨List.prefix_rfl, ⟨rows', ?_⟩, .inr rfl⟩
      exact (congrArg ObjectTables.evidenceObjects hobjects).symm

/-- A command that is accepted expected the sequence of the case. -/
theorem call_expected (P : CaseTables → Prop) (call : Call) :
    ((caseService sha256 evidenceRequireScan).txn call).underLock P fun t answer _ _ =>
      ∀ env command response, call = .submitBusinessCommand env command →
        answer = .response response false → t.sequence = command.preconditions.caseSequence := by
  cases call with
  | createKycCase env request idempotencyKey =>
    refine Txn.underLock_mono (call_underLock sha256 evidenceRequireScan P _) ?_
    rintro t answer t' ms - env command response ⟨⟩
  | registerEvidence key evidenceId =>
    refine Txn.underLock_mono (call_underLock sha256 evidenceRequireScan P _) ?_
    rintro t answer t' ms - env command response ⟨⟩
  | submitBusinessCommand env command =>
    simp only [caseService, Call.txn, submitBusinessCommand, Txn.underLock_require_bind,
      Txn.underLock_mapThrow, Txn.underLock_lockKey_bind, Txn.underLock_get_bind, Txn.wp_bind,
      Txn.wp_get, Txn.wp_getOrThrow]
    intro _ _ _ t current hcurrent
    split
    · simp only [Txn.wp_bind, Txn.wp_require, Txn.wp_pure]
      rintro - env command response - ⟨⟩
    · rw [acceptCommand, Txn.wp_bind, Txn.wp_require]
      intro hseq
      refine Txn.wp_iff.mpr fun _ _ _ _ env command response hcall _ => ?_
      obtain ⟨-, rfl⟩ := Call.submitBusinessCommand.inj hcall
      rw [CaseTables.sequence_of_some hcurrent, hseq]

variable {sha256 evidenceRequireScan}

/-- A command that is accepted takes the next sequence. -/
theorem sequence_of_accepted {env : Env} {command : BusinessCommand} {t t' : CaseTables} {response : Json}
    {ms : List OutboxRow} (h : ((caseService sha256 evidenceRequireScan).txn
      (.submitBusinessCommand env command)).Yields t (.response response false) t' ms) :
    t'.sequence = t.sequence + 1 := by
  have heffect := h.underLock (call_underLock sha256 evidenceRequireScan (fun _ => True) _) trivial
  cases heffect with
  | accepted _ _ _ _ _ _ current _ hc =>
    obtain ⟨updatedAt, hcases⟩ := hc.cases
    rw [CaseTables.sequence_of_some hcases, CaseTables.sequence_of_some hc.found]

end

/-! ## Views -/

/-- The tables that `getCaseView` selects from, once it has the row of the case. -/
inductive ViewTable
  | subjects
  | evidence
  | claims
  | facts
  | findings
  | assumptions
  | contradictions
  | workItems
  | recommendations
  | gateResults
  | reviews
  | dispositions
  | executionRefs
  | lineageEdges
deriving DecidableEq, Repr

/-- All of them, in the order of the code. -/
def ViewTable.all : List ViewTable :=
  [subjects, evidence, claims, facts, findings, assumptions, contradictions, workItems, recommendations,
    gateResults, reviews, dispositions, executionRefs, lineageEdges]

/-- A `getCaseView` under way: the row of the case, and for every table selected so far what was committed
at the time. -/
structure Viewing where
  case : CaseRow
  selected : ViewTable → Option ObjectTables

namespace Viewing

variable (v : Viewing)

/-- The rows selected from a table. -/
def rows {ρ : Type} (table : ViewTable) (select : ObjectTables → List ρ) : List ρ :=
  ((v.selected table).map select).getD []

/-- The rows of the view. The identifiers of subjects and the links of evidence are not selected. -/
def objects : ObjectTables where
  subjects := v.rows .subjects (·.subjects)
  subjectIdentifiers := []
  evidenceObjects := v.rows .evidence (·.evidenceObjects)
  evidenceRefs := []
  claims := v.rows .claims (·.claims)
  facts := v.rows .facts (·.facts)
  findings := v.rows .findings (·.findings)
  assumptions := v.rows .assumptions (·.assumptions)
  contradictions := v.rows .contradictions (·.contradictions)
  workItems := v.rows .workItems (·.workItems)
  executionRefs := v.rows .executionRefs (·.executionRefs)
  recommendations := v.rows .recommendations (·.recommendations)
  gateResults := v.rows .gateResults (·.gateResults)
  reviews := v.rows .reviews (·.reviews)
  dispositions := v.rows .dispositions (·.dispositions)
  lineageEdges := v.rows .lineageEdges (·.lineageEdges)

/-- Every table is selected. -/
def Done : Prop := ∀ table, (v.selected table).isSome

/-- A select from a table, when these rows are committed. -/
def select (table : ViewTable) (objects : ObjectTables) : Viewing :=
  { v with selected := Function.update v.selected table (some objects) }

variable {table table' : ViewTable} {objects : ObjectTables}

@[simp] theorem selected_select : (v.select table objects).selected table = some objects :=
  Function.update_self ..

theorem selected_select_of_ne (h : table' ≠ table) :
    (v.select table objects).selected table' = v.selected table' := Function.update_of_ne h ..

end Viewing

/-- Clients of the case store side by side, and a `getCaseView`. -/
structure ViewSystem (ι : Type) where
  store : CaseSystem ι
  viewing : Option Viewing

section

variable (sha256 : List Char → String) (evidenceRequireScan : Bool) (key : CaseKey) {ι : Type}
  [DecidableEq ι]

/-- A step of the case store, or one select. -/
inductive ViewStep : ViewSystem ι → ViewSystem ι → Prop
  | store (s s' v) : System.Step (caseService sha256 evidenceRequireScan) OutboxRelay s s' →
      ViewStep ⟨s, v⟩ ⟨s', v⟩
  | begin (s row) : (s.db key).cases = some row → ViewStep ⟨s, none⟩ ⟨s, some ⟨row, fun _ => none⟩⟩
  | select (s v table) : v.selected table = none →
      ViewStep ⟨s, some v⟩ ⟨s, some (v.select table (s.db key).objects)⟩

/-- What they reach. -/
inductive ViewReachable : ViewSystem ι → Prop
  | start : ViewReachable ⟨⟨⟨noCases, [], []⟩, fun _ => none⟩, none⟩
  | step {s s'} : ViewReachable s → ViewStep sha256 evidenceRequireScan key s s' → ViewReachable s'

end

section

variable {sha256 : List Char → String} {evidenceRequireScan : Bool} {key : CaseKey} {ι : Type}
  [DecidableEq ι]

theorem ViewReachable.store {s : ViewSystem ι} (h : ViewReachable sha256 evidenceRequireScan key s) :
    System.Reachable (caseService sha256 evidenceRequireScan) OutboxRelay noCases s.store := by
  induction h with
  | start => exact .start
  | step _ hstep ih =>
    cases hstep with
    | store _ _ _ hstore => exact ih.step hstore
    | begin | select => exact ih

/-- The view is of rows that were committed since its case was, and that the committed rows came from. -/
structure Viewing.Of (v : Viewing) (t : CaseTables) : Prop where
  rows : ∃ t₀ : CaseTables, t₀.cases = some v.case ∧ Grows t₀ t ∧
    ∀ table objects, v.selected table = some objects →
      ∃ t₁ : CaseTables, t₁.objects = objects ∧ Grows t₀ t₁ ∧ Grows t₁ t

theorem Viewing.Of.grows {v : Viewing} {t t' : CaseTables} (h : v.Of t) (hgrows : Grows t t') : v.Of t' := by
  obtain ⟨t₀, hcase, ht₀, hselected⟩ := h.rows
  refine ⟨t₀, hcase, ht₀.trans hgrows, fun table objects htable => ?_⟩
  obtain ⟨t₁, hobjects, hfrom, hto⟩ := hselected table objects htable
  exact ⟨t₁, hobjects, hfrom, hto.trans hgrows⟩

/-- **The rows of a view under way lead to those committed.** -/
theorem ViewReachable.viewing {s : ViewSystem ι} (h : ViewReachable sha256 evidenceRequireScan key s) :
    ∀ v, s.viewing = some v → v.Of (s.store.db key) := by
  induction h with
  | start =>
    intro v hv
    cases hv
  | step hreach hstep ih =>
    intro v hv
    cases hstep with
    | store s s' _ hstore =>
      refine (ih v hv).grows ?_
      exact hreach.store.carries Grows.refl Grows.trans (call_grows sha256 evidenceRequireScan)
        (.single hstore) key
    | begin s row hrow =>
      obtain rfl := Option.some_inj.mp hv
      refine ⟨_, hrow, Grows.refl _, fun table objects htable => ?_⟩
      cases htable
    | select s w table _ =>
      obtain rfl := Option.some_inj.mp hv
      obtain ⟨t₀, hcase, ht₀, hselected⟩ := (ih w rfl).rows
      refine ⟨t₀, hcase, ht₀, fun table' objects htable => ?_⟩
      by_cases heq : table' = table
      · subst heq
        rw [Viewing.selected_select, Option.some_inj] at htable
        exact ⟨_, htable, ht₀, Grows.refl _⟩
      · rw [Viewing.selected_select_of_ne _ heq] at htable
        exact hselected table' objects htable

/-- What a view shows at the sequence of its case. -/
theorem Viewing.Of.objects_eq {v : Viewing} {t : CaseTables} (h : v.Of t) (hdone : v.Done)
    (hseq : t.sequence = v.case.caseSequence) :
    t.cases = some v.case ∧ v.objects.evidenceObjects <+: t.objects.evidenceObjects ∧
      v.objects = { t.objects with
        subjectIdentifiers := []
        evidenceRefs := []
        evidenceObjects := v.objects.evidenceObjects } := by
  obtain ⟨t₀, hcase, ht₀, hselected⟩ := h.rows
  have hseq₀ : t.sequence = t₀.sequence := by rw [hseq, CaseTables.sequence_of_some hcase]
  have heq₀ := ht₀.eq_of_sequence hseq₀
  have htable (table : ViewTable) : ∃ objects, v.selected table = some objects ∧
      objects.evidenceObjects <+: t.objects.evidenceObjects ∧
      t.objects = { objects with evidenceObjects := t.objects.evidenceObjects } := by
    obtain ⟨objects, hobjects⟩ := Option.isSome_iff_exists.mp (hdone table)
    obtain ⟨t₁, rfl, hfrom, hto⟩ := hselected table objects hobjects
    have hseq₁ : t.sequence = t₁.sequence := by
      have := hfrom.sequence_le
      have := hto.sequence_le
      omega
    exact ⟨_, hobjects, hto.evidence, congrArg CaseTables.objects (hto.eq_of_sequence hseq₁)⟩
  have hrows {ρ : Type} (table : ViewTable) (select : ObjectTables → List ρ)
      (hselect : ∀ objects evidence, select { objects with evidenceObjects := evidence } = select objects) :
      v.rows table select = select t.objects := by
    obtain ⟨objects, hobjects, -, heq⟩ := htable table
    rw [Viewing.rows, hobjects, heq, hselect]
    rfl
  refine ⟨by rw [heq₀]; exact hcase, ?_, ?_⟩
  · obtain ⟨objects, hobjects, hprefix, -⟩ := htable .evidence
    have hevidence : v.objects.evidenceObjects = objects.evidenceObjects := by
      change v.rows .evidence (·.evidenceObjects) = _
      rw [Viewing.rows, hobjects]
      rfl
    rw [hevidence]
    exact hprefix
  · simp only [Viewing.objects]
    congr 1 <;> exact hrows _ _ fun _ _ => rfl

/-! ### A view between two commands -/

theorem ViewReachable.of_store {s : CaseSystem ι}
    (h : System.Reachable (caseService sha256 evidenceRequireScan) OutboxRelay noCases s) :
    ViewReachable sha256 evidenceRequireScan key ⟨s, none⟩ := by
  induction h with
  | start => exact .start
  | step _ hstep ih => exact ih.step (.store _ _ _ hstep)

/-- Selects that no call comes between. -/
theorem ViewReachable.selects {s : CaseSystem ι} {v : Viewing} (tables : List ViewTable)
    (h : ViewReachable sha256 evidenceRequireScan key ⟨s, some v⟩) (hnodup : tables.Nodup)
    (hnone : ∀ table ∈ tables, v.selected table = none) :
    ViewReachable sha256 evidenceRequireScan key
      ⟨s, some (tables.foldl (fun v table => v.select table (s.db key).objects) v)⟩ := by
  induction tables generalizing v with
  | nil => exact h
  | cons table tables ih =>
    obtain ⟨hnotin, hnodup⟩ := List.nodup_cons.mp hnodup
    refine ih (h.step (.select s v table (hnone table List.mem_cons_self))) hnodup fun table' htable' => ?_
    have hne : table' ≠ table := fun heq => hnotin (heq ▸ htable')
    rw [Viewing.selected_select_of_ne _ hne]
    exact hnone table' (List.mem_cons_of_mem _ htable')

namespace Sample

/-- A view of the case, read between two calls. -/
def viewing (t : CaseTables) (row : CaseRow) : Viewing :=
  ViewTable.all.foldl (fun v table => v.select table t.objects) ⟨row, fun _ => none⟩

theorem done_viewing (t : CaseTables) (row : CaseRow) : (viewing t row).Done := by
  intro table
  cases table <;> rfl

/-- The command was accepted. -/
def accepts (run : Except Failure (Answer × CaseTables × List OutboxRow)) : Bool :=
  match run with
  | .ok (.response _ replayed, _) => !replayed
  | _ => false

theorem exists_of_accepts {run : Except Failure (Answer × CaseTables × List OutboxRow)}
    (h : accepts run = true) : ∃ response after sent, run = .ok (.response response false, after, sent) := by
  unfold accepts at h
  split at h
  · next response replayed r =>
    obtain rfl : replayed = false := by simpa using h
    exact ⟨response, r.1, r.2, rfl⟩
  · cases h

set_option maxRecDepth 10000 in
/-- A case that there is, and what adding a subject to it does. -/
theorem exists_subjectRun : ∃ st : Store CaseKey Call CaseTables OutboxRow Failure Answer,
    System.Reachable (caseService checksum false) OutboxRelay noCases (System.idle st : CaseSystem Unit) ∧
    ∃ row, (st.db (caseKey checksum)).cases = some row ∧ row.caseSequence = 1 ∧
      ∃ response t sent, ((caseService checksum false).txn (subjectCall checksum none)).Yields
        (st.db ((caseService checksum false).key (subjectCall checksum none)))
        (.response response false) t sent := by
  refine ⟨_, reachable_after checksum [createCall], ?_⟩
  have hmap : ((after checksum [createCall]).db (caseKey checksum)).cases.map (·.caseSequence) = some 1 := by
    decide +kernel
  obtain ⟨row, hrow, hseq⟩ := Option.map_eq_some_iff.mp hmap
  exact ⟨row, hrow, hseq, exists_of_accepts (by decide +kernel)⟩

/-- It is added while no other call is under way. -/
theorem steps_subjectCall (st : Store CaseKey Call CaseTables OutboxRow Failure Answer) :
    Relation.ReflTransGen (System.Step (caseService checksum false) OutboxRelay)
      (System.idle st : CaseSystem Unit)
      (System.idle (st.call (caseService checksum false) (subjectCall checksum none))) :=
  .head (.begin _ () (subjectCall checksum none) rfl) (Relation.ReflTransGen.mono (fun _ _ h => h.1) _ _
    (System.works_call (call_underLock checksum false) () _))

end Sample

/-- **A command that is accepted at the sequence of a view was checked on the rows of the view**, though
the view was selected table by table while other calls committed. Evidence may have been added since. -/
theorem accepted_on_view {s : ViewSystem ι} (h : ViewReachable sha256 evidenceRequireScan key s)
    {v : Viewing} (hv : s.viewing = some v) (hdone : v.Done) {s' : CaseSystem ι}
    (hsteps : Relation.ReflTransGen
      (System.Step (caseService sha256 evidenceRequireScan) OutboxRelay) s.store s') :
    ∃ later, s'.log = s.store.log ++ later ∧ ∀ entry ∈ later, ∀ command, Accepted entry command →
      commandKey command = key → command.preconditions.caseSequence = v.case.caseSequence →
      entry.before.cases = some v.case ∧
        v.objects.evidenceObjects <+: entry.before.objects.evidenceObjects ∧
        v.objects = { entry.before.objects with
          subjectIdentifiers := []
          evidenceRefs := []
          evidenceObjects := v.objects.evidenceObjects } := by
  obtain ⟨later, hlog, hlater⟩ := h.store.carries_before Grows.refl Grows.trans
    (call_grows sha256 evidenceRequireScan) hsteps
  refine ⟨later, hlog, fun entry hentry command haccepted hkey hexpected => ?_⟩
  obtain ⟨⟨env, hcall⟩, response, hresult⟩ := haccepted
  have hmem : entry ∈ s'.log := by
    rw [hlog]
    exact List.mem_append_right _ hentry
  have hseq : entry.before.sequence = command.preconditions.caseSequence := by
    obtain ⟨-, hexpects⟩ := (h.store.steps hsteps).store.of_mem_log
      (call_expected sha256 evidenceRequireScan) hmem hresult
    exact hexpects env command response hcall rfl
  have hgrows : Grows (s.store.db key) entry.before := by
    have hfrom := hlater entry hentry
    rw [hcall] at hfrom
    change Grows (s.store.db (commandKey command)) entry.before at hfrom
    rwa [hkey] at hfrom
  exact ((h.viewing v hv).grows hgrows).objects_eq hdone (hseq.trans hexpected)

open Sample in
/-- A subject is added to the case that was viewed. -/
theorem accepted_on_view_sample :
    ∃ (t : CaseTables) (row : CaseRow) (entry : CaseEntry), t.cases = some row ∧
      entry.call = subjectCall checksum none ∧ entry.before.cases = some row ∧
      (viewing t row).objects = { entry.before.objects with
        subjectIdentifiers := []
        evidenceRefs := []
        evidenceObjects := (viewing t row).objects.evidenceObjects } := by
  obtain ⟨st, hreach, row, hrow, hseq, response, t, sent, hrun⟩ := exists_subjectRun
  have hview : ViewReachable checksum false (caseKey checksum)
      ⟨System.idle (ι := Unit) st, some (viewing (st.db (caseKey checksum)) row)⟩ :=
    ((ViewReachable.of_store hreach).step (.begin _ _ hrow)).selects ViewTable.all (by decide)
      fun _ _ => rfl
  obtain ⟨later, hlog, hlater⟩ := accepted_on_view hview rfl (done_viewing _ _) (steps_subjectCall st)
  rw [Store.call_of_yields hrun] at hlog
  obtain rfl := List.append_cancel_left hlog.symm
  obtain ⟨hcases, -, hobjects⟩ := hlater _ (List.mem_singleton_self _) _ ⟨⟨_, rfl⟩, _, rfl⟩ rfl hseq.symm
  exact ⟨_, row, _, hrow, rfl, hcases, hobjects⟩

end

/-! ## Events, page by page -/

/-- The sequence of the last event. -/
def lastSequence (seen : List ListedEvent) : ℕ := (seen.getLast?.map (·.caseSequence)).getD 0

/-- Clients of the case store side by side, and someone who reads the events of a case. -/
structure FeedSystem (ι : Type) where
  store : CaseSystem ι
  seen : List ListedEvent

section

variable (sha256 : List Char → String) (evidenceRequireScan : Bool) (key : CaseKey) {ι : Type}
  [DecidableEq ι]

/-- A step of the case store, or the events after the last one seen. -/
inductive FeedStep : FeedSystem ι → FeedSystem ι → Prop
  | store (s s' seen) : System.Step (caseService sha256 evidenceRequireScan) OutboxRelay s s' →
      FeedStep ⟨s, seen⟩ ⟨s', seen⟩
  | page (s seen) : FeedStep ⟨s, seen⟩
      ⟨s, seen ++ listCaseEvents key (s.db key).events (lastSequence seen)⟩

/-- What they reach. -/
inductive FeedReachable : FeedSystem ι → Prop
  | start : FeedReachable ⟨⟨⟨noCases, [], []⟩, fun _ => none⟩, []⟩
  | step {s s'} : FeedReachable s → FeedStep sha256 evidenceRequireScan key s s' → FeedReachable s'

end

section

variable {sha256 : List Char → String} {evidenceRequireScan : Bool} {key : CaseKey} {ι : Type}
  [DecidableEq ι]

theorem FeedReachable.store {s : FeedSystem ι} (h : FeedReachable sha256 evidenceRequireScan key s) :
    System.Reachable (caseService sha256 evidenceRequireScan) OutboxRelay noCases s.store := by
  induction h with
  | start => exact .start
  | step _ hstep ih =>
    cases hstep with
    | store _ _ _ hstore => exact ih.step hstore
    | page => exact ih

/-- The events of a coherent ledger after a sequence. -/
theorem LedgerCoherent.listCaseEvents_after {t : CaseTables} {out : List OutboxRow}
    (h : LedgerCoherent key t out) {k : ℕ} (hk : k ≤ t.sequence) :
    listCaseEvents key t.events k = ((t.events.drop k).take 1000).map (listedEvent key) := by
  have hfirst : (t.events.take k).filter (fun row => k < row.caseSequence) = [] := by
    refine List.filter_eq_nil_iff.mpr fun row hrow => ?_
    have hseq : row.caseSequence ∈ (t.events.take k).map (·.caseSequence) := List.mem_map_of_mem hrow
    rw [List.map_take, h.sequences, List.take_range'_of_length_ge hk, List.mem_range'_1] at hseq
    simp only [decide_eq_true_eq]
    omega
  have hrest : (t.events.drop k).filter (fun row => k < row.caseSequence) = t.events.drop k := by
    refine List.filter_eq_self.mpr fun row hrow => ?_
    have hseq : row.caseSequence ∈ (t.events.drop k).map (·.caseSequence) := List.mem_map_of_mem hrow
    rw [List.map_drop, h.sequences, List.drop_range', List.mem_range'_1] at hseq
    simp only [decide_eq_true_eq]
    omega
  have hordered : orderRows (t.events.drop k) = t.events.drop k := by
    refine List.Pairwise.insertionSort_eq ?_
    have hsorted : ((t.events.drop k).map (·.caseSequence)).Pairwise (· ≤ ·) := by
      rw [List.map_drop, h.sequences, List.drop_range']
      exact List.pairwise_le_range' ..
    exact List.pairwise_map.mp hsorted
  rw [listCaseEvents]
  conv_lhs => rw [← List.take_append_drop k t.events]
  rw [List.filter_append, hfirst, hrest, List.nil_append, hordered]

/-- What is seen is the beginning of the ledger. -/
structure Seen (key : CaseKey) (t : CaseTables) (seen : List ListedEvent) : Prop where
  length : seen.length ≤ t.sequence
  events : seen = (t.events.take seen.length).map (listedEvent key)

theorem LedgerCoherent.length_events {t : CaseTables} {out : List OutboxRow}
    (h : LedgerCoherent key t out) : t.events.length = t.sequence := by
  rw [← List.length_map (f := (·.caseSequence)), h.sequences, List.length_range']

theorem Seen.sequences {t : CaseTables} {out : List OutboxRow} {seen : List ListedEvent}
    (hseen : Seen key t seen) (h : LedgerCoherent key t out) :
    seen.map (·.caseSequence) = List.range' 1 seen.length := by
  have hmap : seen.map (·.caseSequence) = (t.events.take seen.length).map (·.caseSequence) := by
    conv_lhs => rw [hseen.events]
    rw [List.map_map]
    rfl
  rw [hmap, List.map_take, h.sequences, List.take_range'_of_length_ge hseen.length]

theorem Seen.lastSequence_eq {t : CaseTables} {out : List OutboxRow} {seen : List ListedEvent}
    (hseen : Seen key t seen) (h : LedgerCoherent key t out) : lastSequence seen = seen.length := by
  rw [lastSequence, ← List.getLast?_map, hseen.sequences h]
  cases seen.length with
  | zero => rfl
  | succ n =>
    rw [List.range'_concat, List.getLast?_concat]
    show 1 + 1 * n = n + 1
    omega

/-- The page after what is seen. -/
theorem Seen.listCaseEvents_eq {t : CaseTables} {out : List OutboxRow} {seen : List ListedEvent}
    (hseen : Seen key t seen) (h : LedgerCoherent key t out) :
    listCaseEvents key t.events (lastSequence seen) =
      ((t.events.drop seen.length).take 1000).map (listedEvent key) := by
  rw [hseen.lastSequence_eq h, h.listCaseEvents_after hseen.length]

theorem Seen.page {t : CaseTables} {out : List OutboxRow} {seen : List ListedEvent}
    (hseen : Seen key t seen) (h : LedgerCoherent key t out) :
    Seen key t (seen ++ listCaseEvents key t.events (lastSequence seen)) := by
  have hnext : seen ++ listCaseEvents key t.events (lastSequence seen) =
      (t.events.take (seen.length + 1000)).map (listedEvent key) := by
    rw [hseen.listCaseEvents_eq h, List.take_add, List.map_append, ← hseen.events]
  have hlength := h.length_events
  rw [hnext]
  refine ⟨?_, ?_⟩
  · rw [List.length_map, List.length_take, hlength]
    exact Nat.min_le_right _ _
  · rw [List.length_map, List.length_take, ← List.take_eq_take_min]

theorem Seen.length_page {t : CaseTables} {out : List OutboxRow} {seen : List ListedEvent}
    (hseen : Seen key t seen) (h : LedgerCoherent key t out) :
    (listCaseEvents key t.events (lastSequence seen)).length = min 1000 (t.sequence - seen.length) := by
  rw [hseen.listCaseEvents_eq h, List.length_map, List.length_take, List.length_drop, h.length_events]

theorem Seen.grows {t t' : CaseTables} {out : List OutboxRow} {seen : List ListedEvent}
    (hseen : Seen key t seen) (h : LedgerCoherent key t out) (hgrows : Grows t t') : Seen key t' seen := by
  refine ⟨hseen.length.trans hgrows.sequence_le, ?_⟩
  obtain ⟨new, hnew⟩ := hgrows.events
  have hle : seen.length ≤ t.events.length := by
    rw [h.length_events]
    exact hseen.length
  rw [← hnew, List.take_append_of_le_length hle]
  exact hseen.events

theorem FeedReachable.of_store {s : CaseSystem ι}
    (h : System.Reachable (caseService sha256 evidenceRequireScan) OutboxRelay noCases s) :
    FeedReachable sha256 evidenceRequireScan key ⟨s, []⟩ := by
  induction h with
  | start => exact .start
  | step _ hstep ih => exact ih.step (.store _ _ _ hstep)

theorem FeedReachable.steps {s s' : CaseSystem ι} {seen : List ListedEvent}
    (h : FeedReachable sha256 evidenceRequireScan key ⟨s, seen⟩)
    (hsteps : Relation.ReflTransGen
      (System.Step (caseService sha256 evidenceRequireScan) OutboxRelay) s s') :
    FeedReachable sha256 evidenceRequireScan key ⟨s', seen⟩ := by
  induction hsteps with
  | refl => exact h
  | tail _ hstep ih => exact ih.step (.store _ _ _ hstep)

theorem FeedReachable.seen {s : FeedSystem ι} (h : FeedReachable sha256 evidenceRequireScan key s) :
    Seen key (s.store.db key) s.seen := by
  induction h with
  | start => exact ⟨Nat.zero_le _, rfl⟩
  | step hreach hstep ih =>
    have hcoherent := store_ledgerCoherent hreach.store.store key
    cases hstep with
    | store s s' seen hstore =>
      refine ih.grows hcoherent ?_
      exact hreach.store.carries Grows.refl Grows.trans (call_grows sha256 evidenceRequireScan)
        (.single hstore) key
    | page s seen => exact ih.page hcoherent

/-- A page is read. -/
theorem FeedReachable.page {s : CaseSystem ι} {seen : List ListedEvent}
    (h : FeedReachable sha256 evidenceRequireScan key ⟨s, seen⟩) :
    ∃ seen', seen'.length = seen.length + min 1000 ((s.db key).sequence - seen.length) ∧
      FeedReachable sha256 evidenceRequireScan key ⟨s, seen'⟩ := by
  refine ⟨_, ?_, h.step (.page s seen)⟩
  rw [List.length_append, h.seen.length_page (store_ledgerCoherent h.store.store key)]

/-- **Whoever pages gets every event once and in order**, while calls commit between the pages: what was
seen so far is events 1, 2, … of the ledger as it stands, and the next page is as many of the events that
are missing as a page holds. It is empty only if none is. -/
theorem feed_complete {s : FeedSystem ι} (h : FeedReachable sha256 evidenceRequireScan key s) :
    s.seen = ((s.store.db key).events.take s.seen.length).map (listedEvent key) ∧
      s.seen.map (·.caseSequence) = List.range' 1 s.seen.length ∧
      (listCaseEvents key (s.store.db key).events (lastSequence s.seen)).length =
        min 1000 ((s.store.db key).sequence - s.seen.length) := by
  have hcoherent := store_ledgerCoherent h.store.store key
  exact ⟨h.seen.events, h.seen.sequences hcoherent, h.seen.length_page hcoherent⟩

open Sample in
/-- The first page is read when there is a case, the second after it got a subject. -/
theorem feed_complete_sample :
    ∃ s : FeedSystem Unit, s.seen.map (·.caseSequence) = [1, 2] ∧
      (listCaseEvents (caseKey checksum) (s.store.db (caseKey checksum)).events
        (lastSequence s.seen)).length = 0 := by
  obtain ⟨st, hreach, row, hrow, hseq, response, t, sent, hrun⟩ := exists_subjectRun
  have hbefore : (st.db (caseKey checksum)).sequence = 1 := by
    rw [CaseTables.sequence_of_some hrow, hseq]
  have hdb : (st.call (caseService checksum false) (subjectCall checksum none)).db (caseKey checksum) = t := by
    rw [Store.call_of_yields hrun]
    exact Store.commit_db_self (S := caseService checksum false)
  have hafter : t.sequence = 2 := by
    rw [sequence_of_accepted hrun]
    exact congrArg (· + 1) hbefore
  obtain ⟨seen, hone, hfirst⟩ := @FeedReachable.page _ _ (caseKey checksum) _ _ _ _ (.of_store hreach)
  obtain ⟨seen', htwo, hsecond⟩ := (hfirst.steps (steps_subjectCall st)).page
  change seen.length = 0 + min 1000 ((st.db (caseKey checksum)).sequence - 0) at hone
  change seen'.length = seen.length + min 1000 (((st.call _ _).db _).sequence - seen.length) at htwo
  rw [hbefore] at hone
  rw [hdb, hafter, hone] at htwo
  obtain ⟨-, hsequences, hlast⟩ := feed_complete hsecond
  refine ⟨_, hsequences.trans (congrArg (List.range' 1) htwo), hlast.trans ?_⟩
  change min 1000 (((st.call _ _).db _).sequence - seen'.length) = 0
  rw [hdb, hafter, htwo]
  rfl

end

end CaseStore

end HarnessFramework
