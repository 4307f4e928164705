import HarnessFramework.Gateway.InvokeSpec

/-!
# Fenced invocation

A request compares the epoch of its envelope with the current one, reads the plan and the run, and
then reserves a receipt, each in a transaction of its own. What the reservation finds is what the
request has compared if and only if no claim, request to cancel or end of the run came between.

## Main definitions

* `Request.Fenced` — the run of a request is running, at the epoch of its envelope
* `Watched` — the invariant: a request that passed the check is fenced until the fence moves
* `FencedInvocations` — the promise

## Main results

* `Reachable.watched` — the invariant holds in every reachable state
* `fencedInvocations_iff` — the promise holds if and only if no fence moved before a reservation
-/

namespace HarnessFramework

namespace Gateway

open Persistence Execution

/-! ## The fence of a run -/

theorem fenceOf_eq_some {rows : List RunRow} {r : RunRow} (hids : (rows.map (·.runId)).Nodup)
    (hr : r ∈ rows) : fenceOf r.runId rows = some (r.status, r.fencingEpoch) := by
  rw [fenceOf, find?_eq_some_of_nodup hids hr, Option.map_some]

section

variable {plans : List HarnessPlan} {sha256 : List Char → String} {now : Time} {id : ℕ} {q : Request}
  {t t' : Tables} {event : Event} {phase : Phase}

/-- Requests do not move fences. -/
theorem Progress.fenceOf_eq (h : Progress plans sha256 now id q t event phase t') (runId : String) :
    fenceOf runId t'.runs = fenceOf runId t.runs := by
  rcases h.runs with hr | ⟨budget, hr⟩ | ⟨costUsd, hr⟩ <;> rw [hr]
  · exact find?_updateWhere (fun _ _ => Iff.rfl) fun _ _ => rfl
  · exact find?_updateWhere (fun _ _ => Iff.rfl) fun _ _ => rfl

end

/-- The run of the request is running, at the epoch of its envelope. -/
def Request.Fenced (q : Request) (rows : List RunRow) : Prop :=
  fenceOf q.claims.runId rows = some (.running, q.claims.fencingEpoch)

/-! ## The invariant -/

/-- The epoch was compared, and nothing is reserved. -/
def Phase.Admitting : Phase → Prop
  | .fenced | .planned .. | .admitted .. => True
  | _ => False

/-- A request passes the check of the epoch before it comes to a reservation. -/
theorem Progress.admitting {plans : List HarnessPlan} {sha256 : List Char → String} {now : Time} {id : ℕ}
    {q : Request} {t t' : Tables} {event : Event} {phase : Phase}
    (h : Progress plans sha256 now id q t event phase t') (hids : (t.runs.map (·.runId)).Nodup)
    (hphase : phase.Admitting) :
    event = .readEpoch ∧ q.Fenced t.runs ∨ event ≠ .readEpoch ∧ q.phase.Admitting := by
  cases h with
  | fence hq hepoch =>
    obtain ⟨r, hr, hid, hstatus, hepoch⟩ := currentFencingEpoch_eq_some hepoch
    refine .inl ⟨rfl, ?_⟩
    rw [Request.Fenced, ← hid, fenceOf_eq_some hids hr, hstatus, hepoch]
  | plan plan capability hq => exact .inr ⟨nofun, by rw [hq]; trivial⟩
  | run plan capability hq => exact .inr ⟨nofun, by rw [hq]; trivial⟩
  | _ => exact hphase.elim

/-- A request is fenced from the check of the epoch until the fence moves. -/
structure Watched (s : State) : Prop where
  requests : ∀ id q, s.requests id = some q → q.phase.Admitting →
    (q.Fenced s.runs ↔ s.moved id = false)
  reservations : ∀ ρ ∈ s.reservations, ρ.fence = some (.running, ρ.fencingEpoch) ↔ ρ.moved = false

section

variable {plans : List HarnessPlan} {sha256 : List Char → String} {ttl : Option ℤ} {s s' : State}

/-- Once the fence has moved it does not come back: a run that is running again has a higher epoch. -/
theorem Sound.fenced_of_carries (h : Sound plans s) {id : ℕ} {q : Request} (hq : s.requests id = some q)
    (hids : (s'.runs.map (·.runId)).Nodup)
    (hev : Evolves Carries (fun r => ∀ r' ∈ s.runs, r'.runId ≠ r.runId) s.runs s'.runs)
    (hfenced : q.Fenced s'.runs) : q.Fenced s.runs := by
  obtain ⟨r, hr, hid, -, hle⟩ := h.envelopes _ (h.claims id q hq)
  obtain ⟨r', hr', hcarry⟩ := hev.forward r hr
  rw [Request.Fenced, ← hid, ← hcarry.runId, fenceOf_eq_some hids hr', Option.some.injEq,
    Prod.mk.injEq] at hfenced
  obtain ⟨hstatus, hepoch⟩ := hfenced
  have hsame : r'.fencingEpoch = r.fencingEpoch := le_antisymm (hepoch.trans_le hle) hcarry.epoch
  rw [Request.Fenced, ← hid, fenceOf_eq_some h.ids hr, hcarry.running hstatus hsame, ← hsame, hepoch]

theorem Watched.ran (hw : Watched s) (h : Sound plans s) {now : Time} {op : RunOp}
    (hlease : ∀ l ∈ op.lease?, l ∈ s.issued) : Watched (s.ran sha256 now op) := by
  refine ⟨fun id q hq hphase => ?_, hw.reservations⟩
  have hmove : Moves plans sha256 none s (s.ran sha256 now op) := .run now op hlease
  have hback : q.Fenced (op.exec sha256 now s.runs) → q.Fenced s.runs :=
    h.fenced_of_carries hq (hmove.ids h.ids) (hmove.evolves h.ids)
  have hiff := hw.requests id q hq hphase
  have hmoved : (s.ran sha256 now op).moved id = false ↔ s.moved id = false ∧
      fenceOf q.claims.runId s.runs = fenceOf q.claims.runId (op.exec sha256 now s.runs) := by
    have hq' : s.requests id = some q := hq
    simp [State.ran, State.fenceMoves, hq']
  rw [hmoved, ← hiff]
  change q.Fenced (op.exec sha256 now s.runs) ↔ _
  constructor
  · exact fun hfenced => ⟨hback hfenced, (hback hfenced).trans hfenced.symm⟩
  · exact fun ⟨hfenced, hsame⟩ => hsame.symm.trans hfenced

theorem Watched.progress (hw : Watched s) (h : Sound plans s) {id : ℕ} {q : Request} {event : Event}
    {phase : Phase} {t : Tables} (hq : s.requests id = some q)
    (hprogress : Progress plans sha256 s.clock id q ⟨s.runs, s.receipts⟩ event phase t) :
    Watched (s.progress id q event phase t) := by
  have hfence (runId : String) : fenceOf runId t.runs = fenceOf runId s.runs :=
    hprogress.fenceOf_eq runId
  constructor
  · refine forall_update_some (fun i q' hq' hi hphase => ?_) fun hphase => ?_
    · have hmoved : (s.progress id q event phase t).moved i = s.moved i := by
        dsimp only [State.progress]
        split
        · exact Function.update_of_ne hi _ _
        · rfl
      rw [hmoved, ← hw.requests i q' hq' hphase]
      exact Eq.congr_left (hfence _)
    · rcases hprogress.admitting h.ids hphase with ⟨rfl, hfenced⟩ | ⟨hne, hphase'⟩
      · exact iff_of_true ((hfence _).trans hfenced) (by simp [State.progress])
      · have hmoved : (s.progress id q event phase t).moved id = s.moved id := by
          simp only [State.progress, if_neg hne]
        rw [hmoved, ← hw.requests id q hq hphase']
        exact Eq.congr_left (hfence _)
  · refine List.forall_mem_append.mpr ⟨hw.reservations, fun ρ hρ => ?_⟩
    simp only [State.reservation] at hρ
    split at hρ
    · next plan capability hphase =>
      obtain rfl := List.mem_singleton.mp hρ
      exact hw.requests id q hq (by rw [hphase]; trivial)
    · cases hρ

theorem Watched.moves (hw : Watched s) (h : Sound plans s) (hmove : Moves plans sha256 ttl s s') :
    Watched s' := by
  cases hmove with
  | run now op hlease => exact hw.ran h hlease
  | advance clock => exact ⟨hw.requests, hw.reservations⟩
  | issue grant request claims hissue => exact ⟨hw.requests, hw.reservations⟩
  | receive id claims invocation hnone hclaims =>
    refine ⟨forall_update_some (fun i q hq _ => hw.requests i q hq) fun hphase => ?_, hw.reservations⟩
    rcases arrival_cases claims invocation with ha | ⟨code, ha⟩ <;> rw [ha] at hphase <;>
      exact hphase.elim
  | request id q event phase t hq hprogress => exact hw.progress h hq hprogress

/-- **The invariant holds in every reachable state.** -/
theorem State.Reachable.watched (h : State.Reachable plans sha256 ttl s) : Sound plans s ∧ Watched s := by
  refine State.Reachable.induction (fun clock => ?_) (fun s s' hs hw hmove => hw.moves hs hmove) h
  constructor <;> simp [State.start]

end

/-! ## The promise -/

/-- Receipts are reserved, and providers execute, for requests that reserved a receipt while their run
was running at the epoch of their envelope. -/
structure FencedInvocations (s : State) : Prop where
  reservations : ∀ ρ ∈ s.reservations, ρ.fence = some (.running, ρ.fencingEpoch)
  receipts : ∀ row ∈ s.receipts, ∃ ρ ∈ s.reservations, ρ.id = row.reservedBy ∧ ρ.runId = row.runId ∧
    ρ.fencingEpoch = row.fencingEpoch
  executions : ∀ id ∈ s.executions, ∃ ρ ∈ s.reservations, ρ.id = id

section

variable {plans : List HarnessPlan} {sha256 : List Char → String} {ttl : Option ℤ} {s : State}

/-- **Fenced invocation.** In a reachable state the promise holds if and only if no request has
reserved a receipt after the status or the epoch of its run had changed since it read the epoch. -/
theorem fencedInvocations_iff (h : State.Reachable plans sha256 ttl s) :
    FencedInvocations s ↔ ∀ ρ ∈ s.reservations, ρ.moved = false := by
  obtain ⟨hs, hw⟩ := h.watched
  constructor
  · exact fun hf ρ hρ => (hw.reservations ρ hρ).mp (hf.reservations ρ hρ)
  · exact fun hmoved => ⟨fun ρ hρ => (hw.reservations ρ hρ).mpr (hmoved ρ hρ), hs.receipts, hs.executions⟩

/-- A request whose run stays as it is. -/
theorem fencedInvocations_iff_sample : ∃ s, State.Reachable Sample.plans String.ofList none s ∧
    s.executions = [0] ∧ FencedInvocations s := by
  obtain ⟨s, hrun, hs⟩ := Option.map_eq_some_iff.mp Sample.runAll_undisturbed
  obtain ⟨hres, hexec⟩ := Prod.mk.inj hs
  have hreach := State.reachable_runAll hrun
  exact ⟨s, hreach, hexec, (fencedInvocations_iff hreach).mpr (by rw [hres]; decide)⟩

/-- A run is cancelled after a request compared its epoch. The request reserves a receipt, and the
provider executes. -/
theorem fencedInvocations_fails : ∃ s, State.Reachable Sample.plans String.ofList none s ∧
    s.executions = [0] ∧ ¬ FencedInvocations s := by
  obtain ⟨s, hrun, hs⟩ := Option.map_eq_some_iff.mp Sample.runAll_cancelled
  obtain ⟨hres, hexec⟩ := Prod.mk.inj hs
  refine ⟨s, State.reachable_runAll hrun, hexec, fun hf => ?_⟩
  exact absurd hf.reservations (by rw [hres]; decide)

end

end Gateway

end HarnessFramework
