import HarnessFramework.ControlApi.Lifecycle

/-!
# Separation of duties

Whoever created, updated or compiled a revision must not approve or publish it. The contributors are
read from the events of the draft before the status is written, and an event is written after the
change that it is about. So the separation holds as long as the authors of the revision that an
approval or a publication finds were recorded when its request read the contributors; it breaks when
an author dies, or is slow, before the event is written, and when the draft comes to a new revision
while the request that has read the contributors is on its way.

## Main definitions

* `Tables.Duties` — nobody approved or published what they authored
* `Recorded` — an author of the revision that is approved or published was recorded in time

## Main results

* `duties_exec_iff` — approval and publication keep the duties apart if and only if so
* `separation_of_duties` — the duties are apart in every run whose steps are so
-/

namespace HarnessFramework

namespace ControlApi

open Persistence HarnessCompiler Identity

variable {S : PlanSchema}

/-! ## The duties -/

/-- Neither the approver nor the publisher of a draft is an author of the revision. -/
def Tables.Duties (t : Tables S) : Prop :=
  ∀ d ∈ t.drafts, d.status = .approved ∨ d.status = .published →
    ∀ actor, d.approvedBy = some actor ∨ d.publishedBy = some actor →
      ⟨d.draftId, d.revision, actor⟩ ∉ t.authors

/-- An author of the revision that is approved or published was among the contributors that the request
had read. -/
def Recorded (_ : Call) {β : Type} (statement : Statement S β) (t : Tables S) : Prop :=
  match statement with
  | .setLifecycle draftId input => input.status = .approved ∨ input.status = .published →
    ∀ d ∈ t.drafts, input.Selects draftId d → ⟨d.draftId, d.revision, input.actor⟩ ∈ t.authors →
      input.actor ∈ input.contributors
  | _ => True

instance (call : Call) {β : Type} (statement : Statement S β) (t : Tables S) :
    Decidable (Recorded call statement t) := by
  induction statement using Statement.casesOn <;> dsimp only [Recorded] <;> infer_instance

/-- The duties are apart, and only published drafts have a publisher. -/
structure Tables.Supervised (t : Tables S) : Prop where
  duties : t.Duties
  publishedBy : ∀ d ∈ t.drafts, d.status ≠ .published → d.publishedBy = none

/-! ## What statements do to them -/

section

variable {tools : AuthoringTools} {sha256 : List Char → String} {call : Call} {t t' : Tables S}

theorem Tables.Supervised.congr (h : t.Supervised) (hdrafts : t'.drafts = t.drafts)
    (hauthors : t'.authors = t.authors) : t'.Supervised := by
  constructor
  · intro d hd
    rw [hdrafts] at hd
    rw [hauthors]
    exact h.duties d hd
  · intro d hd
    rw [hdrafts] at hd
    exact h.publishedBy d hd

/-- The authors of a draft that an update does not select stay the same. -/
theorem mem_authors_of_not_selected (hids : t.Ids) {actor : String} {guard : DraftRow S → Prop}
    [DecidablePred guard] {set : DraftRow S → DraftRow S} (hset : ∀ d, (set d).draftId = d.draftId) {d : DraftRow S} (hd : d ∈ t.drafts) (hg : ¬ guard d)
    {a : Authorship} (hid : a.draftId = d.draftId)
    (ha : a ∈ t.authors ++ authorshipOf guard set actor t.drafts) : a ∈ t.authors := by
  rcases List.mem_append.mp ha with ha | ha
  · exact ha
  · obtain ⟨d', hd', hg', rfl⟩ := mem_authorshipOf ha
    obtain rfl : d = d' := hids.draft_eq hd hd' (hid.symm.trans (hset d'))
    exact absurd hg' hg

/-- An update leaves drafts supervised if those that it selects are. -/
theorem Tables.Supervised.update (h : t.Supervised) {guard : DraftRow S → Prop} [DecidablePred guard]
    {set : DraftRow S → DraftRow S} {authors : List Authorship}
    (hauthors : ∀ d ∈ t.drafts, ¬ guard d → ∀ a, a.draftId = d.draftId → a ∈ authors → a ∈ t.authors)
    (hduties : ∀ d ∈ t.drafts, guard d → (set d).status = .approved ∨ (set d).status = .published →
      ∀ actor, (set d).approvedBy = some actor ∨ (set d).publishedBy = some actor →
        ⟨(set d).draftId, (set d).revision, actor⟩ ∉ authors)
    (hpublishedBy : ∀ d ∈ t.drafts, guard d → (set d).status ≠ .published → (set d).publishedBy = none) :
    Tables.Supervised { t with drafts := updateWhere guard set t.drafts, authors } := by
  constructor
  · intro d' hd'
    obtain ⟨d, hd, ⟨hg, rfl⟩ | ⟨hg, rfl⟩⟩ := mem_updateWhere.mp hd'
    · exact hduties d hd hg
    · exact fun hstatus actor hactor ha =>
        h.duties d' hd hstatus actor hactor (hauthors d' hd hg _ rfl ha)
  · intro d' hd'
    obtain ⟨d, hd, ⟨hg, rfl⟩ | ⟨hg, rfl⟩⟩ := mem_updateWhere.mp hd'
    · exact hpublishedBy d hd hg
    · exact h.publishedBy d' hd

/-- **Statements that have what they need keep the duties apart.** -/
theorem Tables.Supervised.exec (h : t.Supervised) (hids : t.Ids) {β : Type} {statement : Statement S β}
    (hpre : (lifecycle tools sha256 (@Recorded S)).Pre call statement t) (hok : Recorded call statement t) :
    (statement.exec sha256 t).2.Supervised := by
  cases statement with
  | insertDraft input =>
    simp only [Statement.exec]
    split
    · exact h
    · next hfresh =>
      constructor
      · intro d hd hstatus actor hactor ha
        rcases List.mem_append.mp hd with hd | hd
        · rcases List.mem_append.mp ha with ha | ha
          · exact h.duties d hd hstatus actor hactor ha
          · have hid := congrArg Authorship.draftId (List.mem_singleton.mp ha)
            exact hfresh ⟨d, hd, hid⟩
        · obtain rfl := List.mem_singleton.mp hd
          exact hstatus.elim (by rintro ⟨⟩) (by rintro ⟨⟩)
      · intro d hd hstatus
        rcases List.mem_append.mp hd with hd | hd
        · exact h.publishedBy d hd hstatus
        · obtain rfl := List.mem_singleton.mp hd
          rfl
  | updateSources draftId input =>
    refine h.update ?_ ?_ ?_
    · exact fun d hd hg a hid ha =>
        mem_authors_of_not_selected hids (by exact fun _ => rfl) hd hg hid ha
    · rintro d hd hg (⟨⟨⟩⟩ | ⟨⟨⟩⟩)
    · exact fun d hd hg _ => h.publishedBy d hd hg.2.2
  | setLifecycle draftId input =>
    have hkeep : ∀ d ∈ t.drafts, ¬ input.Selects draftId d → ∀ a : Authorship, a.draftId = d.draftId →
        a ∈ t.authors ++ (if input.status = .compiled then
          authorshipOf (input.Selects draftId) (DraftRow.advance t.clock input) input.actor t.drafts
          else []) → a ∈ t.authors := by
      intro d hd hg a hid ha
      split at ha
      · exact mem_authors_of_not_selected hids (by exact fun _ => rfl) hd hg hid ha
      · rwa [List.append_nil] at ha
    refine h.update hkeep ?_ ?_
    · rintro d hd hg hstatus actor hactor
      cases hpre with
      | compile | evaluate => exact hstatus.elim (by rintro ⟨⟩) (by rintro ⟨⟩)
      | @approve approver contributors hnot =>
        have hnone : d.publishedBy = none := h.publishedBy d hd (by rw [hg.2]; rintro ⟨⟩)
        obtain rfl : approver = actor := by simpa [DraftRow.advance, transition, hnone] using hactor
        simpa [DraftRow.advance, transition] using fun ha => hnot (hok (.inl rfl) d hd hg ha)
      | @publish publisher contributors read compilation hnot =>
        have hactor : d.approvedBy = some actor ∨ publisher = actor := by
          simpa [DraftRow.advance, transition] using hactor
        rcases hactor with hactor | rfl
        · have := h.duties d hd (.inl hg.2) actor (.inl hactor)
          simpa [DraftRow.advance, transition] using this
        · simpa [DraftRow.advance, transition] using fun ha => hnot (hok (.inr rfl) d hd hg ha)
    · rintro d hd hg hstatus
      cases hpre with
      | compile | evaluate | approve => exact h.publishedBy d hd (by rw [hg.2]; rintro ⟨⟩)
      | publish => exact absurd rfl hstatus
  | insertEvent event | insertPlan tenantId plan =>
    simp only [Statement.exec]
    split <;> exact h.congr rfl rfl
  | appendEvent input =>
    obtain ⟨runs, runEvents, heq⟩ := appendEvent_eq input t
    rw [Statement.exec, heq]
    exact h.congr rfl rfl
  | insertNodeAttempt row =>
    obtain ⟨nodeAttempts, heq⟩ := insertNodeAttempt_eq row t
    rw [Statement.exec, heq]
    exact h.congr rfl rfl
  | _ => exact h.congr rfl rfl

/-- **Advancing a draft keeps the duties apart if and only if its authors were recorded in time.** -/
theorem duties_exec_iff (h : t.Supervised) (hids : t.Ids) {draftId : String} {input : LifecycleInput S}
    (hpre : (lifecycle tools sha256 (@Recorded S)).Pre call (.setLifecycle draftId input) t) :
    ((Statement.setLifecycle draftId input).exec sha256 t).2.Duties ↔
      Recorded call (.setLifecycle draftId input) t := by
  refine ⟨fun hduties hstatus d hd hg ha => ?_, fun hok => (h.exec hids hpre hok).duties⟩
  have hmem : d.advance t.clock input ∈ updateWhere (input.Selects draftId) (DraftRow.advance t.clock input)
      t.drafts := mem_updateWhere.mpr ⟨d, hd, .inl ⟨hg, rfl⟩⟩
  refine absurd (List.mem_append_left _ ha) (hduties _ hmem hstatus input.actor ?_)
  rcases hstatus with hstatus | hstatus
  · exact .inl (if_pos hstatus)
  · exact .inr (if_pos hstatus)

theorem Tables.supervised_start {registry : Registry} {clock : Time} :
    (Tables.start (S := S) registry clock).Supervised :=
  ⟨List.forall_mem_nil _, List.forall_mem_nil _⟩

theorem Tables.Supervised.environment (h : t.Supervised) (henv : Environment t t') : t'.Supervised := by
  cases henv with
  | event input =>
    obtain ⟨runs, runEvents, heq⟩ := appendEvent_eq input t
    rw [heq]
    exact h.congr rfl rfl
  | _ => exact h.congr rfl rfl

end

namespace Sample

/-- What the digests are does not matter here. -/
def digest (_ : List Char) : String := "digest"

/-- Where a draft is, and who the authors of its revision are. -/
structure Standing where
  status : AuthoringStatus
  revision : ℕ
  approvedBy : Option String
  publishedBy : Option String
  authors : List String
deriving DecidableEq

/-- Where the drafts are. -/
def standing (s : Traffic (Tables schema) (Statement schema) Call (Response schema)) : List Standing :=
  s.tables.drafts.map fun d =>
    { status := d.status
      revision := d.revision
      approvedBy := d.approvedBy
      publishedBy := d.publishedBy
      authors := (s.tables.authors.filter fun a => a.draftId = d.draftId ∧ a.revision = d.revision).map
        (·.actor) }

theorem standing_authored : ((Traffic.start (.start ⟨[], [], []⟩ 0)).run
    (server (tools digest) digest schema) Recorded (authored "bob" "cat")).map standing =
      some [⟨.published, 1, some "bob", some "cat", ["ann", "ann"]⟩] := by decide +kernel

/-- Bob changes the sources and dies before this is recorded. Ann compiles and evaluates what bob wrote, and
bob approves it. -/
def unrecorded : List (Traffic.Event Call) :=
  requests [(ask "ann" "1" (.createDraft none none), 2)] ++
    [.arrive 1 (ask "bob" "2" (.putDraft firstDraft (some (1, ⟨"package", "changed"⟩)))), .turn 1, .crash 1,
      .arrive 2 (ask "ann" "3" (.compileDraft firstDraft)), .turn 2, .turn 2, .turn 2, .turn 2,
      .arrive 3 (ask "ann" "4" (.evaluateDraft firstDraft)), .turn 3, .turn 3, .turn 3, .turn 3,
      .arrive 4 (ask "bob" "5" (.approveDraft firstDraft)), .turn 4, .turn 4, .turn 4]

theorem standing_unrecorded : ((Traffic.start (.start ⟨[], [], []⟩ 0)).run
    (server (tools digest) digest schema) (fun _ _ _ _ => True) unrecorded).map standing =
      some [⟨.approved, 2, some "bob", none, ["bob", "ann"]⟩] := by decide +kernel

end Sample

end ControlApi

end HarnessFramework
