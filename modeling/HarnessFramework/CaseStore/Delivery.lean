import HarnessFramework.CaseStore.Outbox
import HarnessFramework.CaseStore.Submit
import HarnessFramework.Library.Runs
import Mathlib.Tactic.Linarith

/-!
# Delivery of the outbox

A claim id is drawn once, so a statement that asks for rows under it asks for rows that its call has
claimed and that nobody has taken over. Rows are taken over only when their claim has expired, and are
deleted only when they are marked. What is not marked is therefore still there, and under the claim of
the call that holds it.

## Main definitions

* `Progress`, `RowChange` — what an event of a call does, and what it does to a row
* `State.Published`, `State.Holds` — a row was published, and a call holds a claim on it
* `Kept` — the invariant
* `Delivery` — the promise

## Main results

* `Progress.forward`, `Progress.backward` — the rows before and after an event
* `Kept.step` — the step lemma
* `Kept.outboxRelay` — what relays do is what the transactions of the case store take them to do
* `outbox_delivery` — the promise holds in every reachable state
-/

namespace HarnessFramework

namespace CaseStore

namespace Outbox

open Persistence (Time)

/-! ## What an event of a call does -/

/-- The claim that a call works under. -/
def Phase.under : Phase → Option (Source × String)
  | .publishing source claimId _ | .marking source claimId _ | .releasing source claimId =>
    some (source, claimId)
  | _ => none

section

variable (timeout : ℚ) (d : Drain) (t : Tables)

/-- What an event of a call does: the call, and the tables after it. -/
inductive Progress : Event → Drain → Tables → Prop
  | claim (source) (now) (claimId) (locked) (lost) (phase) (claimed) :
      d.phase = .claiming source →
      claimed = candidates timeout now d.options.limit locked (t source) →
      phase = .failed ∨ phase = .publishing source claimId (claimed.map (·.record source)) →
      Progress (.claim now claimId locked lost)
        { d with phase, claim := some ⟨source, claimId, claimed.map (·.outboxId), now⟩ }
        (Function.update t source (claimRows now claimId (claimed.map (·.outboxId)) (t source)))
  | accept (source) (claimId) (records) : d.phase = .publishing source claimId records →
      Progress .accept { d with phase := .marking source claimId records } t
  | wait (event) (phase) : phase.under = none ∨ phase.under = d.phase.under →
      (∀ source claimId records, phase ≠ .marking source claimId records) →
      Progress event { d with phase } t
  | mark (source) (claimId) (records) (now) (lost) (phase) (published) :
      d.phase = .marking source claimId records →
      phase.under = none ∨ phase = .releasing source claimId →
      Progress (.mark now lost) { d with phase, published, claim := none }
        (Function.update t source (markRows now claimId (records.map (·.outboxId)) (t source)))
  | release (source) (claimId) : d.phase = .releasing source claimId →
      Progress .release { d with phase := .failed, claim := none }
        (Function.update t source (releaseRows claimId (t source)))
  | purge (source) (now) (lost) (phase) (purged) : d.phase = .purging source → phase.under = none →
      Progress (.purge now lost) { d with phase, purged }
        (Function.update t source (purgeRows now (d.options.retentionDays.getD 0) (t source)))

end

section

variable {timeout : ℚ} {d d' : Drain} {t t' : Tables} {event : Event}

theorem RelayOptions.under_after (options : RelayOptions) (source : Source) :
    (options.after source).under = none := by
  cases source with
  | case => rfl
  | evidence => rw [RelayOptions.after]; split <;> rfl

theorem under_afterPurge (source : Source) : (afterPurge source).under = none := by
  cases source <;> rfl

theorem Phase.ne_marking_of_under {phase : Phase} (h : phase.under = none) (source : Source)
    (claimId : String) (records : List OutboxRecord) : phase ≠ .marking source claimId records := by
  rintro rfl
  cases h

theorem Drain.step_progress (h : d.step timeout t event = some (d', t')) :
    Progress timeout d t event d' t' := by
  have hidle {phase : Phase} (hunder : phase.under = none) :
      Progress timeout d t event { d with phase } t :=
    .wait event phase (.inl hunder) (Phase.ne_marking_of_under hunder)
  cases event with
  | claim now claimId locked lost =>
    simp only [Drain.step] at h
    split at h
    · next source hphase =>
      split at h
      · cases h
        exact .claim source now claimId locked lost _ _ hphase rfl (.inl rfl)
      · split at h
        · cases h
          exact hidle (RelayOptions.under_after _ _)
        · cases h
          exact .claim source now claimId locked lost _ _ hphase rfl (.inr rfl)
    · cases h
  | accept =>
    simp only [Drain.step] at h
    split at h <;> cases h
    exact .accept _ _ _ ‹_›
  | refuse =>
    simp only [Drain.step] at h
    split at h
    · next source claimId records hphase =>
      cases h
      exact .wait _ _ (.inr (by rw [hphase]; rfl)) nofun
    · cases h
  | mark now lost =>
    simp only [Drain.step] at h
    split at h
    · next source claimId records hphase =>
      split at h <;> cases h
      · exact .mark source claimId records now lost _ _ hphase (.inr rfl)
      · exact .mark source claimId records now lost _ _ hphase (.inl (RelayOptions.under_after _ _))
    · cases h
  | release =>
    simp only [Drain.step] at h
    split at h <;> cases h
    exact .release _ _ ‹_›
  | purge now lost =>
    simp only [Drain.step] at h
    split at h
    · next source hphase =>
      split at h <;> cases h
      · exact .purge source now lost _ _ hphase rfl
      · exact .purge source now lost _ _ hphase (under_afterPurge source)
    · cases h
  | fail =>
    simp only [Drain.step] at h
    split at h
    · cases h; exact hidle rfl
    · cases h; exact hidle rfl
    · cases h; exact hidle rfl
    · next source claimId records hphase =>
      cases h
      exact .wait _ _ (.inr (by rw [hphase]; rfl)) nofun
    · cases h
  | crash =>
    simp only [Drain.step] at h
    split at h <;> cases h
    exact hidle rfl

end

/-! ## What an event does to a row -/

/-- What an event of a call does to a row of a table. -/
inductive RowChange (timeout : ℚ) (d : Drain) (source : Source) : Event → Row → Row → Prop
  | same (event) (r) : RowChange timeout d source event r r
  | claim (now) (claimId) (locked) (lost) (r) : Claimable timeout now r →
      RowChange timeout d source (.claim now claimId locked lost) r
        { r with
          publishClaimId := some claimId
          publishClaimedAt := some now
          publishAttempts := r.publishAttempts + 1 }
  | mark (claimId) (records) (now) (lost) (r) : d.phase = .marking source claimId records →
      Marked claimId (records.map (·.outboxId)) r →
      RowChange timeout d source (.mark now lost) r
        { r with publishedAt := some now, publishClaimId := none, publishClaimedAt := none }
  | release (claimId) (r) : d.phase = .releasing source claimId → r.publishClaimId = some claimId →
      RowChange timeout d source .release r
        { r with publishClaimId := none, publishClaimedAt := none }

section

variable {timeout : ℚ} {d d' : Drain} {t t' : Tables} {event : Event} {source : Source} {r r' : Row}

theorem RowChange.outboxId (h : RowChange timeout d source event r r') : r'.outboxId = r.outboxId := by
  cases h <;> rfl

theorem mem_candidates {now : Time} {limit : ℕ} {locked : List String} {rows : List Row}
    (h : r ∈ candidates timeout now limit locked rows) : r ∈ rows ∧ Claimable timeout now r := by
  have hmem := (List.mem_insertionSort _).mp (List.mem_of_mem_take h)
  obtain ⟨hrow, hclaimable⟩ := List.mem_filter.mp hmem
  exact ⟨hrow, (of_decide_eq_true hclaimable).1⟩

/-- Rows with the id of a row that is claimed are claimable. -/
theorem claimable_of_mem {now : Time} {limit : ℕ} {locked : List String} {rows : List Row}
    (hids : (rows.map (·.outboxId)).Nodup) (hr : r ∈ rows)
    (h : r.outboxId ∈ (candidates timeout now limit locked rows).map (·.outboxId)) :
    Claimable timeout now r := by
  obtain ⟨r₀, hr₀, hid⟩ := List.mem_map.mp h
  obtain ⟨hrow, hclaimable⟩ := mem_candidates hr₀
  rwa [← List.inj_on_of_nodup_map hids hrow hr hid]

/-- Tables after one of them was replaced. -/
theorem mem_update {source' : Source} {rows : List Row} : r ∈ Function.update t source' rows source ↔
    source = source' ∧ r ∈ rows ∨ source ≠ source' ∧ r ∈ t source := by
  by_cases hsource : source = source'
  · subst hsource
    simp
  · simp [hsource]

/-- **Every row after an event is one before it, as the event has changed it.** -/
theorem Progress.backward (h : Progress timeout d t event d' t')
    (hids : ∀ source, ((t source).map (·.outboxId)).Nodup) (hr' : r' ∈ t' source) :
    ∃ r ∈ t source, RowChange timeout d source event r r' := by
  have hkept (hr' : r' ∈ t source) : ∃ r ∈ t source, RowChange timeout d source event r r' :=
    ⟨r', hr', .same _ _⟩
  cases h with
  | accept => exact hkept hr'
  | wait => exact hkept hr'
  | claim source' now claimId locked lost phase claimed hphase hclaimed hnext =>
    rcases mem_update.mp hr' with ⟨rfl, hr'⟩ | ⟨-, hr'⟩
    · obtain ⟨r, hr, ⟨hid, rfl⟩ | ⟨-, rfl⟩⟩ := mem_updateWhere.mp hr'
      · rw [hclaimed] at hid
        exact ⟨r, hr, .claim now claimId locked lost r (claimable_of_mem (hids source) hr hid)⟩
      · exact hkept hr
    · exact hkept hr'
  | mark source' claimId records now lost phase published hphase hnext =>
    rcases mem_update.mp hr' with ⟨rfl, hr'⟩ | ⟨-, hr'⟩
    · obtain ⟨r, hr, ⟨hmarked, rfl⟩ | ⟨-, rfl⟩⟩ := mem_updateWhere.mp hr'
      · exact ⟨r, hr, .mark claimId records now lost r hphase hmarked⟩
      · exact hkept hr
    · exact hkept hr'
  | release source' claimId hphase =>
    rcases mem_update.mp hr' with ⟨rfl, hr'⟩ | ⟨-, hr'⟩
    · obtain ⟨r, hr, ⟨hclaim, rfl⟩ | ⟨-, rfl⟩⟩ := mem_updateWhere.mp hr'
      · exact ⟨r, hr, .release claimId r hphase hclaim⟩
      · exact hkept hr
    · exact hkept hr'
  | purge source' now lost phase purged hphase hnext =>
    rcases mem_update.mp hr' with ⟨rfl, hr'⟩ | ⟨-, hr'⟩
    · exact hkept (List.mem_filter.mp hr').1
    · exact hkept hr'

/-- **Every row that is not published is there after an event, as the event has changed it.** -/
theorem Progress.forward (h : Progress timeout d t event d' t')
    (hids : ∀ source, ((t source).map (·.outboxId)).Nodup) (hr : r ∈ t source)
    (hpublished : r.publishedAt = none) :
    ∃ r' ∈ t' source, RowChange timeout d source event r r' := by
  have hkept {rows : List Row} {source' : Source} (hrow : source = source' → r ∈ rows) :
      ∃ r' ∈ Function.update t source' rows source, RowChange timeout d source event r r' := by
    refine ⟨r, mem_update.mpr ?_, .same _ _⟩
    by_cases hsource : source = source'
    · exact .inl ⟨hsource, hrow hsource⟩
    · exact .inr ⟨hsource, hr⟩
  -- A row that the `where` of an update selects, and one that it does not.
  have hupdate {guard : Row → Prop} [DecidablePred guard] {set : Row → Row} {source' : Source}
      (hchange : source = source' → guard r → RowChange timeout d source event r (set r)) :
      ∃ r' ∈ Function.update t source' (updateWhere guard set (t source')) source,
        RowChange timeout d source event r r' := by
    by_cases hguard : source = source' ∧ guard r
    · obtain ⟨rfl, hguard⟩ := hguard
      exact ⟨set r, mem_update.mpr (.inl ⟨rfl, mem_updateWhere.mpr ⟨r, hr, .inl ⟨hguard, rfl⟩⟩⟩),
        hchange rfl hguard⟩
    · refine hkept fun hsource => ?_
      subst hsource
      exact mem_updateWhere.mpr ⟨r, hr, .inr ⟨fun hg => hguard ⟨rfl, hg⟩, rfl⟩⟩
  cases h with
  | accept => exact ⟨r, hr, .same _ _⟩
  | wait => exact ⟨r, hr, .same _ _⟩
  | claim source' now claimId locked lost phase claimed hphase hclaimed hnext =>
    refine hupdate fun hsource hid => ?_
    subst hsource
    rw [hclaimed] at hid
    exact .claim now claimId locked lost r (claimable_of_mem (hids source) hr hid)
  | mark source' claimId records now lost phase published hphase hnext =>
    refine hupdate fun hsource hmarked => ?_
    subst hsource
    exact .mark claimId records now lost r hphase hmarked
  | release source' claimId hphase =>
    refine hupdate fun hsource hclaim => ?_
    subst hsource
    exact .release claimId r hphase hclaim
  | purge source' now lost phase purged hphase hnext =>
    refine hkept fun hsource => ?_
    subst hsource
    exact List.mem_filter.mpr ⟨hr, by simp [hpublished]⟩

/-- Events do not add rows. -/
theorem Progress.ids (h : Progress timeout d t event d' t') (source : Source)
    (hids : ((t source).map (·.outboxId)).Nodup) : ((t' source).map (·.outboxId)).Nodup := by
  have hupdate {rows : List Row} {source' : Source}
      (hrows : (rows.map (·.outboxId)).Sublist ((t source').map (·.outboxId))) :
      ((Function.update t source' rows source).map (·.outboxId)).Nodup := by
    by_cases hsource : source = source'
    · subst hsource
      rw [Function.update_self]
      exact hrows.nodup hids
    · rwa [Function.update_of_ne hsource]
  have hsame {guard : Row → Prop} [DecidablePred guard] {set : Row → Row} {source' : Source}
      (hset : ∀ r, (set r).outboxId = r.outboxId) :
      ((updateWhere guard set (t source')).map (·.outboxId)).Sublist
        ((t source').map (·.outboxId)) := by
    rw [map_updateWhere fun r _ => hset r]
  cases h with
  | accept => exact hids
  | wait => exact hids
  | claim => exact hupdate (hsame fun _ => rfl)
  | mark => exact hupdate (hsame fun _ => rfl)
  | release => exact hupdate (hsame fun _ => rfl)
  | purge => exact hupdate (List.filter_sublist.map _)

end

/-! ## The invariant -/

namespace State

/-- A sink accepted the row from a call, and the claim of that call was the current one when it marked
the row. -/
def Published (s : State) (source : Source) (outboxId : String) : Prop :=
  ∃ m ∈ s.marked, m.source = source ∧ m.outboxId = outboxId ∧ m.current = some m.claimId ∧
    ⟨m.id, source, m.claimId⟩ ∈ s.drawn ∧ ⟨m.id, source, outboxId⟩ ∈ s.accepted

/-- The row is under the claim. -/
def Under (s : State) (claim : Claim) (outboxId : String) : Prop :=
  ∃ r ∈ s.tables claim.source, r.outboxId = outboxId ∧ r.publishedAt = none ∧
    r.publishClaimId = some claim.claimId ∧ r.publishClaimedAt = some claim.claimedAt

end State

/-- What holds in every reachable state. -/
structure Kept (timeout : ℚ) (s : State) : Prop where
  ids : ∀ source, ((s.tables source).map (·.outboxId)).Nodup
  written : ∀ source, ∀ r ∈ s.tables source, (source, r.outboxId) ∈ s.written
  /-- What was written is there, or was published. -/
  kept : ∀ source outboxId, (source, outboxId) ∈ s.written →
    (∃ r ∈ s.tables source, r.outboxId = outboxId) ∨ s.Published source outboxId
  published : ∀ source, ∀ r ∈ s.tables source, r.publishedAt.isSome → s.Published source r.outboxId
  drawn : (s.drawn.map (·.claimId)).Nodup
  /-- A call works under a claim that it has drawn. -/
  under : ∀ id d, s.calls id = some d → ∀ source claimId, d.phase.under = some (source, claimId) →
    ⟨id, source, claimId⟩ ∈ s.drawn
  accepted : ∀ id d, s.calls id = some d → ∀ source claimId records,
    d.phase = .marking source claimId records →
    ∀ record ∈ records, ⟨id, source, record.outboxId⟩ ∈ s.accepted
  /-- A row stays under a claim that has not expired. -/
  claims : ∀ id d, s.calls id = some d → ∀ claim, d.claim = some claim →
    ⟨id, claim.source, claim.claimId⟩ ∈ s.drawn ∧
      ∀ outboxId ∈ claim.ids, ¬ Expired timeout s.clock claim.claimedAt → s.Under claim outboxId

/-! ## Steps -/

section

variable {timeout : ℚ} {s s' : State} {id : ℕ} {d d' : Drain} {t : Tables} {event : Event}
  {source : Source}

/-- **A row stays under a claim that has not expired**, but for the call that works under it. -/
theorem RowChange.eq_of_under {r r' : Row} (h : RowChange timeout d source event r r')
    (hready : event.Ready s) {claimId : String} {claimedAt : Time} (hclaim : r.publishClaimId = some claimId)
    (hat : r.publishClaimedAt = some claimedAt) (hvalid : ¬ Expired timeout s.clock claimedAt)
    (hother : d.phase.under ≠ some (source, claimId)) : r' = r := by
  cases h with
  | same => rfl
  | claim now claimId' locked lost r hclaimable =>
    have hexpired : claimedAt < now - timeout := hclaimable.2 claimedAt hat
    have hnow : now ≤ s.clock := hready.1
    exact absurd (by rw [Expired]; linarith) hvalid
  | mark claimId' records now lost r hphase hmarked =>
    have hsame : claimId' = claimId := Option.some_inj.mp (hmarked.1.symm.trans hclaim)
    exact absurd (by rw [hphase, Phase.under, hsame]) hother
  | release claimId' r hphase hown =>
    have hsame : claimId' = claimId := Option.some_inj.mp (hown.symm.trans hclaim)
    exact absurd (by rw [hphase, Phase.under, hsame]) hother

theorem State.Published.relayed {outboxId : String} (h : s.Published source outboxId) :
    (s.relayed id d event d' t).Published source outboxId := by
  obtain ⟨m, hm, hsource, hid, hcurrent, hdrawn, haccepted⟩ := h
  exact ⟨m, List.mem_append_left _ hm, hsource, hid, hcurrent, List.mem_append_left _ hdrawn,
    List.mem_append_left _ haccepted⟩

/-- A row that an event marks as published is published. -/
theorem Kept.published_change (h : Kept timeout s) (hd : s.calls id = some d) {r r' : Row}
    (hr : r ∈ s.tables source) (hchange : RowChange timeout d source event r r')
    (hr' : r'.publishedAt.isSome) : (s.relayed id d event d' t).Published source r'.outboxId := by
  cases hchange with
  | same => exact (h.published source _ hr hr').relayed
  | claim => exact (h.published source _ hr hr').relayed
  | release => exact (h.published source _ hr hr').relayed
  | mark claimId records now lost r hphase hmarked =>
    obtain ⟨record, hrecord, hid⟩ := List.mem_map.mp hmarked.2
    refine ⟨⟨id, source, r.outboxId, claimId, r.publishClaimId⟩, List.mem_append_right _ ?_, rfl, rfl,
      hmarked.1, List.mem_append_left _ (h.under id d hd source claimId (by rw [hphase]; rfl)),
      List.mem_append_left _ ?_⟩
    · simp only [State.marks, hphase]
      exact List.mem_map.mpr ⟨r, List.mem_filter.mpr ⟨hr, decide_eq_true hmarked⟩, rfl⟩
    · have haccepted := h.accepted id d hd source claimId records hphase record hrecord
      rwa [hid] at haccepted

theorem Kept.drawn_relayed (h : Kept timeout s) (hready : event.Ready s) :
    ((s.drawn ++ State.draws id d event).map (·.claimId)).Nodup := by
  rw [List.map_append, List.nodup_append]
  refine ⟨h.drawn, ?_, ?_⟩
  · cases event <;> simp only [State.draws, List.map_nil, List.nodup_nil]
    split <;> simp
  · rintro _ hold _ hnew rfl
    obtain ⟨draw, hdraw, hid⟩ := List.mem_map.mp hold
    obtain ⟨draw', hdraw', hid'⟩ := List.mem_map.mp hnew
    cases event with
    | claim now claimId locked lost =>
      simp only [State.draws] at hdraw'
      split at hdraw'
      · obtain rfl := List.mem_singleton.mp hdraw'
        exact hready.2 draw hdraw (hid.trans hid'.symm)
      · cases hdraw'
    | _ => cases hdraw'

theorem Kept.under_relayed (h : Kept timeout s) (hd : s.calls id = some d)
    (hprogress : Progress timeout d s.tables event d' t) :
    ∀ source claimId, d'.phase.under = some (source, claimId) →
      ⟨id, source, claimId⟩ ∈ s.drawn ++ State.draws id d event := by
  intro source claimId hunder
  have hold (hsame : d'.phase.under = d.phase.under) :
      ⟨id, source, claimId⟩ ∈ s.drawn ++ State.draws id d event :=
    List.mem_append_left _ (h.under id d hd source claimId (hsame ▸ hunder))
  cases hprogress with
  | claim source' now claimId' locked lost phase claimed hphase hclaimed hnext =>
    rcases hnext with rfl | rfl
    · cases hunder
    · cases hunder
      exact List.mem_append_right _ (by simp [State.draws, hphase])
  | accept source' claimId' records hphase => exact hold (by rw [hphase]; rfl)
  | wait event phase hnext _ =>
    rcases hnext with hnone | hsame
    · rw [hnone] at hunder
      cases hunder
    · exact hold hsame
  | mark source' claimId' records now lost phase published hphase hnext =>
    rcases hnext with hnone | rfl
    · rw [hnone] at hunder
      cases hunder
    · exact hold (by rw [hphase]; rfl)
  | release => cases hunder
  | purge source' now lost phase purged hphase hnext =>
    rw [hnext] at hunder
    cases hunder

theorem Kept.accepted_relayed (hprogress : Progress timeout d s.tables event d' t) :
    ∀ source claimId records, d'.phase = .marking source claimId records → ∀ record ∈ records,
      ⟨id, source, record.outboxId⟩ ∈ s.accepted ++ State.acceptances id d event := by
  intro source claimId records hmarking record hrecord
  cases hprogress with
  | accept source' claimId' records' hphase =>
    cases hmarking
    refine List.mem_append_right _ ?_
    simp only [State.acceptances, hphase]
    exact List.mem_map_of_mem hrecord
  | claim source' now claimId' locked lost phase claimed hphase hclaimed hnext =>
    rcases hnext with rfl | rfl <;> cases hmarking
  | wait event phase _ hnext => exact absurd hmarking (hnext _ _ _)
  | mark source' claimId' records' now lost phase published hphase hnext =>
    rcases hnext with hnone | rfl
    · exact absurd hmarking (Phase.ne_marking_of_under hnone _ _ _)
    · cases hmarking
  | release => cases hmarking
  | purge source' now lost phase purged hphase hnext =>
    exact absurd hmarking (Phase.ne_marking_of_under hnext _ _ _)

/-- The claim that a call makes, and the one that it keeps. -/
theorem Kept.claims_relayed (h : Kept timeout s) (hd : s.calls id = some d)
    (hprogress : Progress timeout d s.tables event d' t) :
    ∀ claim, d'.claim = some claim →
      ⟨id, claim.source, claim.claimId⟩ ∈ s.drawn ++ State.draws id d event ∧
        ∀ outboxId ∈ claim.ids, ¬ Expired timeout s.clock claim.claimedAt →
          (s.relayed id d event d' t).Under claim outboxId := by
  intro claim hclaim
  have hold (hsame : d'.claim = d.claim) :
      ⟨id, claim.source, claim.claimId⟩ ∈ s.drawn ++ State.draws id d event ∧
        ∀ outboxId ∈ claim.ids, ¬ Expired timeout s.clock claim.claimedAt → s.Under claim outboxId := by
    obtain ⟨hdrawn, hunder⟩ := h.claims id d hd claim (hsame ▸ hclaim)
    exact ⟨List.mem_append_left _ hdrawn, hunder⟩
  cases hprogress with
  | claim source now claimId locked lost phase claimed hphase hclaimed hnext =>
    cases hclaim
    refine ⟨List.mem_append_right _ (by simp [State.draws, hphase]), fun outboxId hid _ => ?_⟩
    obtain ⟨r, hr, rfl⟩ := List.mem_map.mp hid
    rw [hclaimed] at hr
    obtain ⟨hrow, hclaimable⟩ := mem_candidates hr
    exact ⟨_, mem_update.mpr (.inl ⟨rfl, mem_updateWhere.mpr ⟨r, hrow, .inl ⟨hid, rfl⟩⟩⟩), rfl,
      hclaimable.1, rfl, rfl⟩
  | accept => exact hold rfl
  | wait => exact hold rfl
  | mark => cases hclaim
  | release => cases hclaim
  | purge source now lost phase purged hphase hnext =>
    obtain ⟨hdrawn, hunder⟩ := hold rfl
    refine ⟨hdrawn, fun outboxId hid hvalid => ?_⟩
    obtain ⟨r, hr, hrow⟩ := hunder outboxId hid hvalid
    have hpurge : Progress timeout d s.tables (.purge now lost) _ _ :=
      .purge source now lost phase purged hphase hnext
    obtain ⟨r', hr', hchange⟩ := hpurge.forward h.ids hr hrow.2.1
    cases hchange
    exact ⟨r, hr', hrow⟩

/-- An event of a call keeps the invariant. -/
theorem Kept.relayed (h : Kept timeout s) (hd : s.calls id = some d) (hready : event.Ready s)
    (hprogress : Progress timeout d s.tables event d' t) :
    Kept timeout (s.relayed id d event d' t) where
  ids source := hprogress.ids source (h.ids source)
  written source r' hr' := by
    obtain ⟨r, hr, hchange⟩ := hprogress.backward h.ids hr'
    rw [hchange.outboxId]
    exact h.written source r hr
  kept source outboxId hwritten := by
    rcases h.kept source outboxId hwritten with ⟨r, hr, rfl⟩ | hpublished
    · cases htime : r.publishedAt with
      | none =>
        obtain ⟨r', hr', hchange⟩ := hprogress.forward h.ids hr htime
        exact .inl ⟨r', hr', hchange.outboxId⟩
      | some time => exact .inr (h.published source r hr (by rw [htime]; rfl)).relayed
    · exact .inr hpublished.relayed
  published source r' hr' hpublished := by
    obtain ⟨r, hr, hchange⟩ := hprogress.backward h.ids hr'
    exact h.published_change hd hr hchange hpublished
  drawn := h.drawn_relayed hready
  under := forall_update_some
    (fun i d hi _ source claimId hunder => List.mem_append_left _ (h.under i d hi source claimId hunder))
    (h.under_relayed hd hprogress)
  accepted := forall_update_some
    (fun i d hi _ source claimId records hphase record hrecord =>
      List.mem_append_left _ (h.accepted i d hi source claimId records hphase record hrecord))
    (Kept.accepted_relayed hprogress)
  claims := by
    refine forall_update_some (fun i d₀ hi hne claim hclaim => ?_) (h.claims_relayed hd hprogress)
    obtain ⟨hdrawn, hunder⟩ := h.claims i d₀ hi claim hclaim
    refine ⟨List.mem_append_left _ hdrawn, fun outboxId hid hvalid => ?_⟩
    obtain ⟨r, hr, hrow, hpublished, hclaimId, hat⟩ := hunder outboxId hid hvalid
    -- The call does not work under a claim that another one has drawn.
    have hother : d.phase.under ≠ some (claim.source, claim.claimId) := by
      intro hsame
      have hown := h.under id d hd claim.source claim.claimId hsame
      have heq := List.inj_on_of_nodup_map h.drawn hdrawn hown rfl
      exact hne (congrArg Draw.id heq)
    obtain ⟨r', hr', hchange⟩ := hprogress.forward h.ids hr hpublished
    rw [hchange.eq_of_under hready hclaimId hat hvalid hother] at hr'
    exact ⟨r, hr', hrow, hpublished, hclaimId, hat⟩

theorem State.tables_appended (e : NewEvent) : (s.appended source e).tables =
    Function.update s.tables source (s.tables source ++ [e.row]) := rfl

theorem State.mem_appended {source' : Source} {r : Row} {e : NewEvent} (hr : r ∈ s.tables source) :
    r ∈ (s.appended source' e).tables source := by
  refine mem_update.mpr ?_
  by_cases hsource : source = source'
  · subst hsource
    exact .inl ⟨rfl, List.mem_append_left _ hr⟩
  · exact .inr ⟨hsource, hr⟩

/-- A new event keeps the invariant. -/
theorem Kept.appended (h : Kept timeout s) {e : NewEvent} (hnew : (source, e.outboxId) ∉ s.written) :
    Kept timeout (s.appended source e) := by
  have hrows {source' : Source} {r : Row} (hr : r ∈ (s.appended source e).tables source') :
      r ∈ s.tables source' ∨ source' = source ∧ r = e.row := by
    rcases mem_update.mp hr with ⟨rfl, hr⟩ | ⟨-, hr⟩
    · rcases List.mem_append.mp hr with hr | hr
      · exact .inl hr
      · exact .inr ⟨rfl, List.mem_singleton.mp hr⟩
    · exact .inl hr
  refine ⟨fun source' => ?_, fun source' r hr => ?_, fun source' outboxId hwritten => ?_,
    fun source' r hr hpublished => ?_, h.drawn, h.under, h.accepted, fun id d hd claim hclaim => ?_⟩
  · by_cases hsource : source' = source
    · subst hsource
      rw [State.tables_appended, Function.update_self, List.map_append, List.nodup_append]
      refine ⟨h.ids source', List.nodup_singleton _, ?_⟩
      rintro _ hold _ hnew' rfl
      obtain ⟨r, hr, hid⟩ := List.mem_map.mp hold
      rw [List.map_singleton, List.mem_singleton] at hnew'
      have hwritten := h.written source' r hr
      rw [hid.trans hnew'] at hwritten
      exact hnew hwritten
    · rw [State.tables_appended, Function.update_of_ne hsource]
      exact h.ids source'
  · rcases hrows hr with hr | ⟨rfl, rfl⟩
    · exact List.mem_append_left _ (h.written source' r hr)
    · exact List.mem_append_right _ (List.mem_singleton_self _)
  · rcases List.mem_append.mp hwritten with hwritten | hwritten
    · refine (h.kept source' outboxId hwritten).imp (fun ⟨r, hr, hid⟩ => ⟨r, State.mem_appended hr, hid⟩) ?_
      exact fun hpublished => hpublished
    · obtain ⟨rfl, rfl⟩ := Prod.mk.inj (List.mem_singleton.mp hwritten)
      exact .inl ⟨e.row, mem_update.mpr (.inl ⟨rfl, List.mem_append_right _ (List.mem_singleton_self _)⟩),
        rfl⟩
  · rcases hrows hr with hr | ⟨rfl, rfl⟩
    · exact h.published source' r hr hpublished
    · cases hpublished
  · obtain ⟨hdrawn, hunder⟩ := h.claims id d hd claim hclaim
    refine ⟨hdrawn, fun outboxId hid hvalid => ?_⟩
    obtain ⟨r, hr, hrow⟩ := hunder outboxId hid hvalid
    exact ⟨r, State.mem_appended hr, hrow⟩

theorem Expired.advance {now now' claimedAt : Time} (h : Expired timeout now claimedAt) (hle : now ≤ now') :
    Expired timeout now' claimedAt := by
  rw [Expired] at h ⊢
  linarith

/-- **The step lemma.** -/
theorem Kept.step (h : Kept timeout s) (hstep : State.Step timeout s s') : Kept timeout s' := by
  obtain ⟨action, hact⟩ := hstep
  cases action with
  | advance clock =>
    simp only [State.act] at hact
    split at hact
    · next hclock =>
      cases hact
      exact { h with
        claims := fun id d hd claim hclaim => ⟨(h.claims id d hd claim hclaim).1,
          fun outboxId hid hvalid => (h.claims id d hd claim hclaim).2 outboxId hid fun hexpired =>
            hvalid (hexpired.advance hclock)⟩ }
    · cases hact
  | append source e =>
    simp only [State.act] at hact
    split at hact
    · cases hact
    · next hnew =>
      cases hact
      exact h.appended hnew
  | drain id options =>
    simp only [State.act] at hact
    split at hact
    · cases hact
      exact { h with
        under := forall_update_some (fun i d hd _ => h.under i d hd) nofun
        accepted := forall_update_some (fun i d hd _ => h.accepted i d hd) nofun
        claims := forall_update_some (fun i d hd _ => h.claims i d hd) nofun }
    · cases hact
  | relay id event =>
    simp only [State.act] at hact
    split at hact
    · next d hd =>
      split at hact
      · next hready =>
        obtain ⟨⟨d', t⟩, hnext, rfl⟩ := Option.map_eq_some_iff.mp hact
        exact h.relayed hd hready (Drain.step_progress hnext)
      · cases hact
    · cases hact

/-- A row that is not published stays. -/
theorem Kept.stays (h : Kept timeout s) {action : Action} (hact : s.act timeout action = some s')
    {r : Row} (hr : r ∈ s.tables source) (hpublished : r.publishedAt = none) :
    ∃ r' ∈ s'.tables source, r'.outboxId = r.outboxId := by
  cases action with
  | advance clock =>
    simp only [State.act] at hact
    split at hact <;> cases hact
    exact ⟨r, hr, rfl⟩
  | append source' e =>
    simp only [State.act] at hact
    split at hact <;> cases hact
    exact ⟨r, State.mem_appended hr, rfl⟩
  | drain id options =>
    simp only [State.act] at hact
    split at hact <;> cases hact
    exact ⟨r, hr, rfl⟩
  | relay id event =>
    simp only [State.act] at hact
    split at hact
    · next d hd =>
      split at hact
      · obtain ⟨⟨d', t⟩, hnext, rfl⟩ := Option.map_eq_some_iff.mp hact
        obtain ⟨r', hr', hchange⟩ := (Drain.step_progress hnext).forward h.ids hr hpublished
        exact ⟨r', hr', hchange.outboxId⟩
      · cases hact
    · cases hact

theorem State.Reachable.kept (h : State.Reachable timeout s) : Kept timeout s := by
  obtain ⟨clock, hsteps⟩ := h
  induction hsteps with
  | refl => constructor <;> simp [State.start]
  | tail _ hstep ih => exact ih.step hstep

end

/-! ## The outbox of the case store

The transactions of the case store take relays to do to the outbox of the ledger what `OutboxRelay` says.
-/

/-- A row of the case store as relays have it: there, or purged. -/
def Mirrors (rows : List Row) (r : OutboxRow) : Prop :=
  (r.purged = true ∧ ∀ row ∈ rows, row.outboxId ≠ r.outboxId) ∨
    (r.purged = false ∧
      ∃ row ∈ rows, row.outboxId = r.outboxId ∧ row.publishedAt.isSome = r.publishedAt.isSome)

section

variable {timeout : ℚ} {s : State} {d d' : Drain} {t : Tables} {event : Event}

/-- A row that is published stays so. -/
theorem RowChange.isSome {source : Source} {r r' : Row} (h : RowChange timeout d source event r r')
    (hr : r.publishedAt.isSome) : r'.publishedAt.isSome := by
  cases h with
  | mark => rfl
  | _ => exact hr

theorem Kept.mirrors (h : Kept timeout s) (hprogress : Progress timeout d s.tables event d' t)
    {r : OutboxRow} (hr : Mirrors (s.tables .case) r) :
    ∃ r', RelayedRow r r' ∧ Mirrors (t .case) r' := by
  rcases hr with ⟨hpurged, hgone⟩ | ⟨hpurged, row, hrow, hid, htime⟩
  · refine ⟨r, .same r, .inl ⟨hpurged, fun row' hrow' hid => ?_⟩⟩
    obtain ⟨row, hrow, hchange⟩ := hprogress.backward h.ids hrow'
    exact hgone row hrow (hchange.outboxId.symm.trans hid)
  · by_cases hthere : ∃ row' ∈ t .case, row'.outboxId = r.outboxId
    · obtain ⟨row', hrow', hid'⟩ := hthere
      obtain ⟨row₀, hrow₀, hchange⟩ := hprogress.backward h.ids hrow'
      obtain rfl := List.inj_on_of_nodup_map (h.ids .case) hrow₀ hrow
        ((hchange.outboxId.symm.trans hid').trans hid.symm)
      cases hpublished : row'.publishedAt.isSome with
      | false =>
        have hsame : row₀.publishedAt.isSome = false := by
          by_contra hsome
          rw [hchange.isSome (Bool.eq_true_of_not_eq_false hsome)] at hpublished
          cases hpublished
        exact ⟨r, .same r, .inr ⟨hpurged, row', hrow', hid', by rw [hpublished, ← htime, hsame]⟩⟩
      | true =>
        let time : Timestamptz := ⟨⟨1970, 1, 1, by decide, by decide, by decide⟩, 0, by decide⟩
        exact ⟨_, .publish r time hpurged, .inr ⟨hpurged, row', hrow', hid', hpublished⟩⟩
    · have hpublished : r.publishedAt.isSome := by
        rw [← htime]
        by_contra hunpublished
        rw [Option.not_isSome_iff_eq_none] at hunpublished
        obtain ⟨row', hrow', hchange⟩ := hprogress.forward h.ids hrow hunpublished
        exact hthere ⟨row', hrow', hchange.outboxId.trans hid⟩
      exact ⟨_, .purge r hpublished, .inl ⟨rfl, fun row' hrow' hid' => hthere ⟨row', hrow', hid'⟩⟩⟩

/-- **An event of a call does to the outbox of the case store what it takes relays to do.** -/
theorem Kept.outboxRelay (h : Kept timeout s) (hstep : d.step timeout s.tables event = some (d', t))
    {rows : List OutboxRow} (hrows : ∀ r ∈ rows, Mirrors (s.tables .case) r) :
    ∃ rows', OutboxRelay rows rows' ∧ ∀ r ∈ rows', Mirrors (t .case) r := by
  induction rows with
  | nil => exact ⟨[], .nil, nofun⟩
  | cons r rows ih =>
    obtain ⟨hr, hrest⟩ := List.forall_mem_cons.mp hrows
    obtain ⟨r', hrelayed, hmirrors⟩ := h.mirrors (Drain.step_progress hstep) hr
    obtain ⟨rows', hrelay, hrest'⟩ := ih hrest
    exact ⟨r' :: rows', .cons hrelayed hrelay, List.forall_mem_cons.mpr ⟨hmirrors, hrest'⟩⟩

end

/-! ## The promise -/

/-- A call holds a claim on a row that has not expired. -/
def State.Holds (timeout : ℚ) (s : State) (id : ℕ) (source : Source) (outboxId : String) : Prop :=
  ∃ d claim, s.calls id = some d ∧ d.claim = some claim ∧ claim.source = source ∧
    outboxId ∈ claim.ids ∧ ¬ Expired timeout s.clock claim.claimedAt

/-- What is promised in every reachable state. -/
structure Delivery (timeout : ℚ) (s : State) : Prop where
  /-- Published rows were accepted by a sink, and marked under the current claim. -/
  published : ∀ source, ∀ r ∈ s.tables source, r.publishedAt.isSome → s.Published source r.outboxId
  /-- No two calls hold claims on a row. -/
  exclusive : ∀ id id' source outboxId, s.Holds timeout id source outboxId →
    s.Holds timeout id' source outboxId → id = id'
  /-- A claim that a call holds is the one that the row is under. -/
  current : ∀ id d claim, s.calls id = some d → d.claim = some claim → ∀ outboxId ∈ claim.ids,
    ¬ Expired timeout s.clock claim.claimedAt → s.Under claim outboxId
  /-- Rows are deleted after they were published. -/
  deleted : ∀ s', State.Step timeout s s' → ∀ source, ∀ r ∈ s.tables source,
    (∀ r' ∈ s'.tables source, r'.outboxId ≠ r.outboxId) → r.publishedAt.isSome
  /-- No event is lost. -/
  kept : ∀ source outboxId, (source, outboxId) ∈ s.written →
    (∃ r ∈ s.tables source, r.outboxId = outboxId) ∨ s.Published source outboxId

namespace Sample

/-- An event of the ledger. -/
def event (outboxId : String) : NewEvent where
  outboxId
  tenantId := "tenant_demo"
  caseId := "case_1"
  eventType := "SubjectAdded"
  classification := "CONFIDENTIAL"
  createdAt := ⟨CaseStore.Sample.now.val.date, 0, by decide⟩

/-- One relay dies after the sink accepted its batch, another one works beside it, and a third one
takes the batch over, marks it and purges. -/
def takeover : List Action :=
  [.append .case (event "ob_1"), .append .case (event "ob_2"),
    .drain 0 ⟨some 1, none⟩, .relay 0 (.claim 0 "claim-0" [] false), .relay 0 .accept,
    .drain 1 ⟨none, none⟩, .relay 1 (.claim 0 "claim-1" ["ob_1"] false), .relay 1 .refuse,
    .relay 0 .crash, .relay 1 .release, .advance 301,
    .drain 2 ⟨some 1, some 1⟩, .relay 2 (.claim 301 "claim-2" ["ob_2"] false), .relay 2 .accept,
    .relay 2 (.mark 301 false), .relay 2 (.claim 301 "claim-3" [] false), .advance 86800,
    .relay 2 (.purge 86800 false)]

theorem foldlM_takeover :
    (takeover.foldlM (State.act (claimTimeoutSeconds none)) (State.start 0)).map (fun s =>
      ((s.tables .case).map (·.outboxId), s.written, s.marked)) =
    some (["ob_2"], [(.case, "ob_1"), (.case, "ob_2")],
      [⟨2, .case, "ob_1", "claim-2", some "claim-2"⟩]) := by decide +kernel

end Sample

section

variable {timeout : ℚ} {s s' : State}

/-- **Delivery of the outbox**, for every interleaving of calls, sinks, failures, crashes, timeouts and
new events. -/
theorem outbox_delivery (h : State.Reachable timeout s) : Delivery timeout s := by
  have hkept := h.kept
  refine ⟨hkept.published, ?_, ?_, ?_, hkept.kept⟩
  · rintro id id' source outboxId ⟨d, claim, hd, hclaim, hsource, hid, hvalid⟩
      ⟨d', claim', hd', hclaim', rfl, hid', hvalid'⟩
    -- The row is under both claims, and each was drawn once.
    obtain ⟨hdrawn, hunder⟩ := hkept.claims id d hd claim hclaim
    obtain ⟨hdrawn', hunder'⟩ := hkept.claims id' d' hd' claim' hclaim'
    obtain ⟨r, hr, hrow, -, hclaimId, -⟩ := hunder outboxId hid hvalid
    obtain ⟨r', hr', hrow', -, hclaimId', -⟩ := hunder' outboxId hid' hvalid'
    rw [hsource] at hr
    obtain rfl := List.inj_on_of_nodup_map (hkept.ids claim'.source) hr hr' (hrow.trans hrow'.symm)
    have hsame : claim.claimId = claim'.claimId := Option.some_inj.mp (hclaimId.symm.trans hclaimId')
    have heq := List.inj_on_of_nodup_map hkept.drawn hdrawn hdrawn' hsame
    exact congrArg Draw.id heq
  · intro id d claim hd hclaim outboxId hid hvalid
    exact (hkept.claims id d hd claim hclaim).2 outboxId hid hvalid
  · rintro s' ⟨action, hact⟩ source r hr hgone
    by_contra hunpublished
    rw [Option.not_isSome_iff_eq_none] at hunpublished
    obtain ⟨r', hr', hid⟩ := hkept.stays hact hr hunpublished
    exact hgone r' hr' hid

/-- A relay dies, another one takes its row over and publishes it, and it is purged. -/
theorem outbox_delivery_sample : ∃ s, State.Reachable (claimTimeoutSeconds none) s ∧
    (s.tables .case).map (·.outboxId) = ["ob_2"] ∧ s.written = [(.case, "ob_1"), (.case, "ob_2")] ∧
    s.marked = [⟨2, .case, "ob_1", "claim-2", some "claim-2"⟩] ∧
    Delivery (claimTimeoutSeconds none) s := by
  obtain ⟨s, hrun, hs⟩ := Option.map_eq_some_iff.mp Sample.foldlM_takeover
  simp only [Prod.mk.injEq] at hs
  obtain ⟨hrows, hwritten, hmarked⟩ := hs
  have hreach : State.Reachable (claimTimeoutSeconds none) s := ⟨0, reflTransGen_foldlM hrun⟩
  exact ⟨s, hreach, hrows, hwritten, hmarked, outbox_delivery hreach⟩

end

end Outbox

end CaseStore

end HarnessFramework
