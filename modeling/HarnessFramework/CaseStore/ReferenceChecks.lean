import HarnessFramework.CaseStore.References

/-!
# What handlers check of references

Handlers count the rows that they find for a list of references, and compare the count with the length of
the list. As keys are unique, a list passes exactly if it has no repeats and all it cites is there. The
handler of `AcceptClaimAsFact` then reads a claim off the rows in the order in which the database lists
them, which need not be the one of the references.

## Main definitions

* `ObjectTables.Linked`, `ObjectTables.Claimed` — what references should name
* `ChecksEvidence`, `ChecksClaims` — the references that the handler of a command comes to check
* `TakesFirst` — a new fact takes what it is not given from the first claim that it cites
* `AgreeWithFirst` — the cited claims agree with the first one in that

## Main results

* `throws_not_linked_iff`, `throws_claim_not_found_iff` — when a check refuses
* `takesFirst_iff` — when the row order does not matter
* `reference_checks_iff` — exactly when checks are exact and do not depend on the order of rows
-/

namespace HarnessFramework

namespace CaseStore

/-! ## What is cited -/

/-- The evidence is linked to the case with status `ACCEPTED`. -/
def ObjectTables.Linked (s : ObjectTables) (evidenceId : String) : Prop :=
  ∃ r ∈ s.evidenceRefs, r.evidenceId = evidenceId ∧ r.status = .accepted

/-- The claim exists in the case. -/
def ObjectTables.Claimed (s : ObjectTables) (claimId : String) : Prop :=
  ∃ r ∈ s.claims, r.claimId = claimId

/-- The primary keys of links and of claims. -/
structure ReferenceKeys (s : ObjectTables) : Prop where
  evidenceRefs : (s.evidenceRefs.map (·.evidenceId)).Nodup
  claims : (s.claims.map (·.claimId)).Nodup

theorem Keyed.referenceKeys {s : ObjectTables} (h : Keyed s) : ReferenceKeys s :=
  ⟨h.evidenceRefs, h.claims⟩

/-- The references to evidence under a member of the payload. -/
def evidenceRefsOf (command : BusinessCommand) (minimum : ℕ) : Except Failure (List String) :=
  stringArray ((nullish (field command "evidenceRefs")).or (some (.arr []))) "evidenceRefs" minimum

/-- A list of references that the handler of the command checks the evidence of. -/
inductive ChecksEvidence (command : BusinessCommand) (refs : List String) : Prop
  | claim (classification claimId) : command.commandType = .proposeClaim →
      optionalString (field command "classification") = .ok classification →
      optionalString (field command "claimId") = .ok claimId →
      evidenceRefsOf command 1 = .ok refs → ChecksEvidence command refs
  | finding (classification factRefs) : command.commandType = .recordScreeningFinding →
      optionalString (field command "classification") = .ok classification →
      evidenceRefsOf command 0 = .ok refs →
      stringArray ((nullish (field command "factRefs")).or (some (.arr []))) "factRefs" 0 =
        .ok factRefs →
      refs.length + factRefs.length ≠ 0 → ChecksEvidence command refs

/-- A list of references that the handler of the command checks the claims of. -/
structure ChecksClaims (command : BusinessCommand) (refs : List String) : Prop where
  commandType : command.commandType = .acceptClaimAsFact
  classification : ∃ c, optionalString (field command "classification") = .ok c
  claimRefs : stringArray (field command "claimRefs") "claimRefs" 1 = .ok refs

/-- What the evidence check refuses with. -/
def notLinked : Failure := .code "evidence.not_linked" 409

/-- What the claim check refuses with. -/
def claimNotFound : Failure := .code "claim.not_found" 404

section

variable {command : BusinessCommand} {current : CaseRow} {env : Env} {s s' : ObjectTables}
  {sha256 : List Char → String} {evidenceRequireScan : Bool} {refs : List String}

/-! ## What payload checks throw -/

@[simp] theorem optionalString_ne_store {value : Option Json} {code : String} {httpStatus : ℕ}
    {details : ErrorDetails} : optionalString value ≠ .error (.store code httpStatus details) := by
  unfold optionalString
  split
  · simp
  · simp
  · split <;> simp
  · simp

@[simp] theorem requiredString_ne_store {value : Option Json} {f code : String} {httpStatus : ℕ}
    {details : ErrorDetails} : requiredString value f ≠ .error (.store code httpStatus details) := by
  unfold requiredString
  split
  · split <;> simp
  · simp

@[simp] theorem stringArray_ne_store {value : Option Json} {f code : String} {minimum httpStatus : ℕ}
    {details : ErrorDetails} :
    stringArray value f minimum ≠ .error (.store code httpStatus details) := by
  unfold stringArray
  split
  · split
    · split <;> simp
    · simp
  · simp

@[simp] theorem throws_check {α : Type} {x : Except Failure α} {e : Failure} :
    (check x).Throws s e ↔ x = .error e := Txn.throws_ofExcept

@[simp] theorem yields_check {α : Type} {x : Except Failure α} {a : α} {ms : List OutboxRow} :
    (check x).Yields s a s' ms ↔ x = .ok a ∧ s' = s ∧ ms = [] := Txn.yields_ofExcept

@[simp] theorem throws_demand {p : Prop} [Decidable p] {code : String} {httpStatus : ℕ} {e : Failure} :
    (demand p code httpStatus).Throws s e ↔ ¬ p ∧ Failure.code code httpStatus = e :=
  Txn.throws_require

@[simp] theorem yields_demand {p : Prop} [Decidable p] {code : String} {httpStatus : ℕ} {a : Unit}
    {ms : List OutboxRow} : (demand p code httpStatus).Yields s a s' ms ↔ p ∧ s' = s ∧ ms = [] :=
  Txn.yields_require

@[simp] theorem throws_insertInto {constraint : String} {clash : ObjectTables → Prop}
    [DecidablePred clash] {insert : ObjectTables → ObjectTables} {e : Failure} :
    (insertInto constraint clash insert).Throws s e ↔ clash s ∧ Failure.unique constraint = e := by
  rw [insertInto, Txn.throws_get_bind, Txn.throws_bind]
  simp

/-! ## The checks -/

theorem throws_ensureLinkedEvidence {e : Failure} :
    (ensureLinkedEvidence refs).Throws s e ↔ ¬ LinkedEvidence s refs ∧ notLinked = e := by
  unfold ensureLinkedEvidence LinkedEvidence notLinked
  split
  · next hempty => simp [hempty]
  · next hsome => simp [hsome]

theorem yields_givenId {key kind : String} {id : Option String}
    (h : optionalString (field command key) = .ok id) :
    (givenId command env key kind).Yields s (id.getD (env.opaqueId kind 0)) s [] := by
  simp [givenId, Txn.yields_bind, h]

theorem yields_givenRefs {key : String} {minimum : ℕ}
    (h : stringArray ((nullish (field command key)).or (some (.arr []))) key minimum = .ok refs) :
    (givenRefs command key minimum).Yields s refs s [] := yields_check.mpr ⟨h, rfl, rfl⟩

/-- **The evidence check refuses** a list of references exactly if it finds fewer links than references. -/
theorem throws_not_linked_iff (h : ChecksEvidence command refs) :
    (applyMutation sha256 evidenceRequireScan command current env).Throws s notLinked ↔
      ¬ LinkedEvidence s refs := by
  cases h with
  | claim classification claimId htype hclassification hclaimId hrefs =>
    rw [applyMutation, Txn.throws_bind_of_yields (yields_check.mpr ⟨hclassification, rfl, rfl⟩), htype]
    show (proposeClaim command env).Throws s notLinked ↔ _
    rw [proposeClaim, Txn.throws_bind_of_yields (yields_givenId hclaimId),
      Txn.throws_bind_of_yields (yields_givenRefs hrefs), Txn.throws_bind, throws_ensureLinkedEvidence,
      and_iff_left rfl]
    refine or_iff_left ?_
    rintro ⟨_, s', ms, -, hrest⟩
    simp [Txn.throws_bind, notLinked, Failure.code] at hrest
  | finding classification factRefs htype hclassification hrefs hfacts hbasis =>
    rw [applyMutation, Txn.throws_bind_of_yields (yields_check.mpr ⟨hclassification, rfl, rfl⟩), htype]
    show (recordScreeningFinding command env).Throws s notLinked ↔ _
    rw [recordScreeningFinding, Txn.throws_bind_of_yields (yields_givenRefs hrefs),
      Txn.throws_bind_of_yields (yields_givenRefs hfacts),
      Txn.throws_bind_of_yields ((yields_demand (a := ())).mpr ⟨hbasis, rfl, rfl⟩), Txn.throws_bind,
      throws_ensureLinkedEvidence, and_iff_left rfl]
    refine or_iff_left ?_
    rintro ⟨_, s', ms, -, hrest⟩
    simp [Txn.throws_bind, givenId, notLinked, Failure.code] at hrest

/-- **The claim check refuses** a list of references exactly if it finds fewer claims than references. -/
theorem throws_claim_not_found_iff (h : ChecksClaims command refs) :
    (applyMutation sha256 evidenceRequireScan command current env).Throws s claimNotFound ↔
      (s.claims.filter fun r => r.claimId ∈ refs).length ≠ refs.length := by
  obtain ⟨htype, ⟨classification, hclassification⟩, hrefs⟩ := h
  rw [applyMutation, Txn.throws_bind_of_yields (yields_check.mpr ⟨hclassification, rfl, rfl⟩), htype]
  show (acceptClaimAsFact command env).Throws s claimNotFound ↔ _
  rw [acceptClaimAsFact, Txn.throws_bind_of_yields (yields_check.mpr ⟨hrefs, rfl, rfl⟩),
    Txn.throws_get_bind, Txn.throws_bind, throws_demand, and_iff_left (by rfl)]
  refine or_iff_left ?_
  rintro ⟨_, s', ms, -, hrest⟩
  simp [Txn.throws_bind, givenId, claimNotFound, Failure.code] at hrest

/-- All links of a list are found exactly if it has no repeats and all of it is linked. -/
theorem linkedEvidence_iff (hs : ReferenceKeys s) :
    LinkedEvidence s refs ↔ refs.Nodup ∧ ∀ id ∈ refs, s.Linked id := by
  have hcount : (s.evidenceRefs.filter fun r => r.evidenceId ∈ refs ∧ r.status = .accepted).length =
      refs.length ↔ refs.Nodup ∧ ∀ id ∈ refs, ∃ r ∈ s.evidenceRefs,
        (r.evidenceId ∈ refs ∧ r.status = .accepted) ∧ r.evidenceId = id :=
    length_filter_eq_iff hs.evidenceRefs fun r hr => hr.1
  have hlinked : ∀ id ∈ refs, (∃ r ∈ s.evidenceRefs,
      (r.evidenceId ∈ refs ∧ r.status = .accepted) ∧ r.evidenceId = id) ↔ s.Linked id := by
    intro id hid
    refine exists_congr fun r => and_congr_right fun _ => ?_
    constructor
    · rintro ⟨⟨-, hstatus⟩, heq⟩
      exact ⟨heq, hstatus⟩
    · rintro ⟨rfl, hstatus⟩
      exact ⟨⟨hid, hstatus⟩, rfl⟩
  rw [LinkedEvidence, hcount, forall₂_congr hlinked, or_iff_right_of_imp]
  intro hempty
  rw [List.length_eq_zero_iff.mp hempty]
  exact ⟨List.nodup_nil, List.forall_mem_nil _⟩

/-- All claims of a list are found exactly if it has no repeats and all of it exists. -/
theorem length_filter_claims_iff (hs : ReferenceKeys s) :
    (s.claims.filter fun r => r.claimId ∈ refs).length = refs.length ↔
      refs.Nodup ∧ ∀ id ∈ refs, s.Claimed id := by
  rw [length_filter_eq_iff hs.claims fun r hr => hr]
  refine and_congr_right fun _ => forall₂_congr fun id hid => exists_congr fun r => ?_
  refine and_congr_right fun _ => ⟨And.right, fun heq => ⟨heq ▸ hid, heq⟩⟩

/-- A check that passes lists without repeats only agrees with what it checks unless all of a list with
repeats is there. -/
theorem exact_iff {P Q : Prop} : ((P ∧ Q) ↔ Q) ↔ P ∨ ¬ Q := by tauto

/-! ## The claim that a fact is taken from -/

/-- What a new fact takes from a claim when it is not given. -/
structure TakenFrom (command : BusinessCommand) (claim : ClaimRow) (subjectRef : Option String)
    (predicate : String) (value : Jsonb) : Prop where
  subjectRef : nullish (field command "subjectRef") = none → subjectRef = claim.subjectRef
  predicate : nullish (field command "predicate") = none → predicate = claim.predicate
  value : nullish (field command "value") = none → value = claim.value

/-- **The new fact takes what it is not given from the first claim that it cites**, in whatever order the
database lists rows. -/
def TakesFirst (sha256 : List Char → String) (evidenceRequireScan : Bool) (command : BusinessCommand)
    (current : CaseRow) (env : Env) (s : ObjectTables) (refs : List String) : Prop :=
  ∀ rowOrder result s' ms,
    (applyMutation sha256 evidenceRequireScan command current { env with rowOrder }).Yields s result s' ms →
    ∀ claim ∈ s.claims, refs.head? = some claim.claimId →
      ∃ fact, s'.facts = s.facts ++ [fact] ∧
        TakenFrom command claim fact.subjectRef fact.predicate fact.value

/-- The claims that are cited agree with the first one in what the fact is not given. -/
def AgreeWithFirst (command : BusinessCommand) (s : ObjectTables) (refs : List String) : Prop :=
  ∀ claim ∈ s.claims, refs.head? = some claim.claimId →
    ∀ other ∈ s.claims, other.claimId ∈ refs →
      TakenFrom command claim other.subjectRef other.predicate other.value

theorem optionalString_of_nullish {value : Option Json} (h : nullish value = none) :
    optionalString value = .ok none := by
  match value with
  | none | some .null => rfl
  | some (.bool _) | some (.num _) | some (.str _) | some (.arr _) | some (.obj _) => cases h

theorem length_of_stringArray {value : Option Json} {f : String} {minimum : ℕ}
    (h : stringArray value f minimum = .ok refs) : minimum ≤ refs.length := by
  unfold stringArray at h
  split at h
  · split at h
    · split at h
      · next hle => exact Except.ok.inj h ▸ hle
      · cases h
    · cases h
  · cases h

/-- The handler of `AcceptClaimAsFact`, which takes one of the claims that it finds. -/
theorem acceptClaimAsFact_takes (h : stringArray (field command "claimRefs") "claimRefs" 1 = .ok refs) :
    (acceptClaimAsFact command env).wp (fun _ s' _ => ∃ source fact,
      (s.claims.filter fun r => r.claimId ∈ refs)[env.rowOrder %
        (s.claims.filter fun r => r.claimId ∈ refs).length]? = some source ∧
      s'.facts = s.facts ++ [fact] ∧
      TakenFrom command source fact.subjectRef fact.predicate fact.value) s := by
  simp only [acceptClaimAsFact, Txn.wp_bind, wp_givenId, wp_check, Txn.wp_get, wp_demand,
    Txn.wp_getOrThrow, wp_insertInto, Txn.wp_modify]
  intro claimRefs hclaimRefs hfound source hsource _ _ subjectRef hsubject predicate hpredicate
    _ _ _ _ _ _ _ _ _
  obtain rfl := Except.ok.inj (h.symm.trans hclaimRefs)
  refine ⟨source, _, hsource, rfl, fun hnone => ?_, fun hnone => ?_, fun hnone => ?_⟩
  · obtain rfl := Except.ok.inj (hsubject.symm.trans (optionalString_of_nullish hnone))
    exact Option.none_or
  · obtain rfl := Except.ok.inj (hpredicate.symm.trans (optionalString_of_nullish hnone))
    rfl
  · simp only [hnone]

/-- What the handler throws does not depend on the claim that it takes. -/
theorem acceptClaimAsFact_throws (h : stringArray (field command "claimRefs") "claimRefs" 1 = .ok refs)
    (hfound : (s.claims.filter fun r => r.claimId ∈ refs).length = refs.length) {e : Failure}
    (rowOrder : ℕ) :
    (acceptClaimAsFact command { env with rowOrder }).Throws s e ↔
      (acceptClaimAsFact command env).Throws s e := by
  have hsource : ∀ order : ℕ, ∃ source, (s.claims.filter fun r => r.claimId ∈ refs)[order %
      (s.claims.filter fun r => r.claimId ∈ refs).length]? = some source := by
    intro order
    have hpos : 0 < (s.claims.filter fun r => r.claimId ∈ refs).length :=
      hfound ▸ length_of_stringArray h
    exact ⟨_, List.getElem?_eq_getElem (Nat.mod_lt order hpos)⟩
  obtain ⟨source, hone⟩ := hsource rowOrder
  obtain ⟨other, hother⟩ := hsource env.rowOrder
  rw [acceptClaimAsFact, acceptClaimAsFact]
  rw [Txn.throws_bind_of_yields (yields_check.mpr ⟨h, rfl, rfl⟩),
    Txn.throws_bind_of_yields (yields_check.mpr ⟨h, rfl, rfl⟩), Txn.throws_get_bind,
    Txn.throws_get_bind, Txn.throws_bind_of_yields ((yields_demand (a := ())).mpr ⟨hfound, rfl, rfl⟩),
    Txn.throws_bind_of_yields ((yields_demand (a := ())).mpr ⟨hfound, rfl, rfl⟩),
    Txn.throws_bind_of_yields (Txn.yields_getOrThrow.mpr ⟨hone, rfl, rfl⟩),
    Txn.throws_bind_of_yields (Txn.yields_getOrThrow.mpr ⟨hother, rfl, rfl⟩)]
  simp [Txn.throws_bind, Txn.yields_bind, givenId, Env.opaqueId]

theorem yields_acceptClaim {ms : List OutboxRow} {result : MutationResult}
    (h : ChecksClaims command refs) :
    (applyMutation sha256 evidenceRequireScan command current env).Yields s result s' ms ↔
      (acceptClaimAsFact command env).Yields s result s' ms := by
  obtain ⟨htype, ⟨classification, hclassification⟩, -⟩ := h
  rw [applyMutation, Txn.yields_bind]
  simp [hclassification, htype]

/-- A handler that finds the claims takes any of them, or none. -/
theorem exists_yields_of_yields (h : ChecksClaims command refs) {result : MutationResult}
    {ms : List OutboxRow} (hy : (acceptClaimAsFact command env).Yields s result s' ms) (rowOrder : ℕ) :
    ∃ result' t ns, (acceptClaimAsFact command { env with rowOrder }).Yields s result' t ns := by
  have hfound : (s.claims.filter fun r => r.claimId ∈ refs).length = refs.length := by
    have hwp : (acceptClaimAsFact command env).wp (fun _ _ _ =>
        (s.claims.filter fun r => r.claimId ∈ refs).length = refs.length) s := by
      rw [acceptClaimAsFact, Txn.wp_bind, wp_check]
      intro claimRefs hclaimRefs
      obtain rfl := Except.ok.inj (h.claimRefs.symm.trans hclaimRefs)
      rw [Txn.wp_bind, Txn.wp_get, Txn.wp_bind, wp_demand]
      exact fun hfound => Txn.wp_iff.mpr fun _ _ _ _ => hfound
    exact Txn.wp_iff.mp hwp _ _ _ hy
  cases hrun : (acceptClaimAsFact command { env with rowOrder }).run s with
  | ok r => exact ⟨r.1, r.2.1, r.2.2, hrun⟩
  | error e =>
    have hthrows := (acceptClaimAsFact_throws h.claimRefs hfound rowOrder).mp hrun
    cases hthrows.symm.trans hy

/-- **The order of rows does not matter** exactly if the command fails or the claims that it cites agree
with the first one. -/
theorem takesFirst_iff (h : ChecksClaims command refs) :
    TakesFirst sha256 evidenceRequireScan command current env s refs ↔
      ((∃ rowOrder result s' ms, (applyMutation sha256 evidenceRequireScan command current
        { env with rowOrder }).Yields s result s' ms) → AgreeWithFirst command s refs) := by
  constructor
  · rintro htakes ⟨order, result, s', ms, hy⟩ claim hclaim hhead other hother hcited
    rw [yields_acceptClaim h] at hy
    have hmem : other ∈ s.claims.filter fun r => r.claimId ∈ refs :=
      List.mem_filter.mpr ⟨hother, decide_eq_true hcited⟩
    obtain ⟨i, hi⟩ := List.mem_iff_getElem?.mp hmem
    -- The database may list the other claim first.
    obtain ⟨result', t, ns, hyields⟩ := exists_yields_of_yields h hy i
    obtain ⟨source, fact, hsource, hfacts, htaken⟩ :=
      Txn.wp_iff.mp (acceptClaimAsFact_takes h.claimRefs) _ _ _ hyields
    obtain ⟨fact', hfacts', htaken'⟩ :=
      htakes i result' t ns ((yields_acceptClaim h).mpr hyields) claim hclaim hhead
    have hlt := (List.getElem?_eq_some_iff.mp hi).1
    rw [Nat.mod_eq_of_lt hlt, hi] at hsource
    obtain rfl := Option.some_inj.mp hsource
    obtain rfl := List.singleton_inj.mp (List.append_cancel_left (hfacts.symm.trans hfacts'))
    exact ⟨fun hnone => (htaken.subjectRef hnone).symm.trans (htaken'.subjectRef hnone),
      fun hnone => (htaken.predicate hnone).symm.trans (htaken'.predicate hnone),
      fun hnone => (htaken.value hnone).symm.trans (htaken'.value hnone)⟩
  · intro himp order result s' ms hy claim hclaim hhead
    have hagree := himp ⟨order, result, s', ms, hy⟩
    rw [yields_acceptClaim h] at hy
    obtain ⟨source, fact, hsource, hfacts, htaken⟩ :=
      Txn.wp_iff.mp (acceptClaimAsFact_takes h.claimRefs) _ _ _ hy
    obtain ⟨hmem, hcited⟩ := List.mem_filter.mp (List.mem_of_getElem? hsource)
    have hsame := hagree claim hclaim hhead source hmem (of_decide_eq_true hcited)
    exact ⟨fact, hfacts, fun hnone => (htaken.subjectRef hnone).trans (hsame.subjectRef hnone),
      fun hnone => (htaken.predicate hnone).trans (hsame.predicate hnone),
      fun hnone => (htaken.value hnone).trans (hsame.value hnone)⟩

end

/-! ## Reachable states -/

/-- Reachable states have unique keys. -/
theorem referenceKeys_of_reachable {sha256 : List Char → String} {evidenceRequireScan : Bool} {ι : Type}
    [DecidableEq ι] {s : CaseSystem ι}
    (h : System.Reachable (caseService sha256 evidenceRequireScan) OutboxRelay noCases s)
    (key : CaseKey) : ReferenceKeys (s.db key).objects := by
  have hwritten : WrittenHistory (s.history (caseService sha256 evidenceRequireScan) key) (s.db key) :=
    h.store.history (call_written sha256 evidenceRequireScan) key
  refine (hwritten.throughout_iff (I := Keyed) (P := fun _ => True) (C := fun _ _ => True) ?_ ?_ ?_).1
    |>.referenceKeys
  · exact ⟨⟨List.nodup_nil, List.nodup_nil, List.forall_mem_nil _⟩, trivial⟩
  · intro s rows hk
    refine ⟨⟨hk.evidenceRefs, hk.claims, fun r hr => ?_⟩, fun _ => trivial⟩
    obtain ⟨o, ho, hid⟩ := hk.evidenceObjects r hr
    exact ⟨o, List.mem_append_left _ ho, hid⟩
  · intro command s lineage objects rows hk hwrites hrows
    have hk' := hwrites.keyed hk
    exact ⟨⟨hk'.evidenceRefs, hk'.claims, hk'.evidenceObjects⟩, fun _ => Iff.rfl⟩

/-! ## Exactness -/

namespace Sample

/-- A claim on the same evidence twice. -/
def repeatedClaim : BusinessCommand :=
  command actorDigest ⟨"claim", by decide⟩ .proposeClaim 1
    [("evidenceRefs", .arr [.str "evidence", .str "evidence"]), ("predicate", .str "name"),
      ("value", .str "value")] none

/-- Two claims are accepted as a fact. -/
def acceptTwo : BusinessCommand :=
  command actorDigest ⟨"accept", by decide⟩ .acceptClaimAsFact 1
    [("claimRefs", .arr [.str "first", .str "second"]), ("factId", .str "fact"),
      ("acceptancePolicyRef", .str "policy"), ("purpose", .str "purpose")] none

/-- A case with linked evidence and two claims. -/
def citedObjects : ObjectTables :=
  { ObjectTables.empty with
    evidenceRefs := [⟨"evidence", "purpose", .accepted⟩]
    claims :=
      [⟨"first", none, "name", .ofJson (.str "a"), ["evidence"], .proposed⟩,
        ⟨"second", none, "address", .ofJson (.str "b"), ["evidence"], .proposed⟩] }

def currentRow : CaseRow :=
  ⟨"kyc", "1", "NL", .intake, 1, none, "policy", "plan", "internal", analyst ⟨"alice", by decide⟩,
    now.val.toTimestamptz, now.val.toTimestamptz⟩

theorem referenceKeys_citedObjects : ReferenceKeys citedObjects := ⟨by decide, by decide⟩

theorem checksEvidence_repeatedClaim : ChecksEvidence repeatedClaim ["evidence", "evidence"] :=
  .claim none none rfl rfl rfl (by decide)

theorem checksClaims_acceptTwo : ChecksClaims acceptTwo ["first", "second"] :=
  ⟨rfl, ⟨none, rfl⟩, by decide⟩

end Sample

/-- **Reference checks are exact** exactly for lists without repeats and lists of which something is
missing, and a fact is taken from the first claim that it cites exactly if the claims agree with it. -/
theorem reference_checks_iff {sha256 : List Char → String} {evidenceRequireScan : Bool}
    {command : BusinessCommand} {current : CaseRow} {env : Env} {s : ObjectTables} (hs : ReferenceKeys s) :
    (∀ refs, ChecksEvidence command refs →
      ((¬ (applyMutation sha256 evidenceRequireScan command current env).Throws s notLinked ↔
          ∀ id ∈ refs, s.Linked id) ↔
        refs.Nodup ∨ ¬ ∀ id ∈ refs, s.Linked id)) ∧
    ∀ refs, ChecksClaims command refs →
      ((¬ (applyMutation sha256 evidenceRequireScan command current env).Throws s claimNotFound ↔
          ∀ id ∈ refs, s.Claimed id) ↔
        refs.Nodup ∨ ¬ ∀ id ∈ refs, s.Claimed id) ∧
      (TakesFirst sha256 evidenceRequireScan command current env s refs ↔
        ((∃ rowOrder result s' ms, (applyMutation sha256 evidenceRequireScan command current
          { env with rowOrder }).Yields s result s' ms) → AgreeWithFirst command s refs)) := by
  refine ⟨fun refs hrefs => ?_, fun refs hrefs => ⟨?_, takesFirst_iff hrefs⟩⟩
  · rw [throws_not_linked_iff hrefs, not_not, linkedEvidence_iff hs]
    exact exact_iff
  · rw [throws_claim_not_found_iff hrefs, not_ne_iff, length_filter_claims_iff hs]
    exact exact_iff

theorem reference_checks_iff_sample :
    ¬ (¬ (applyMutation Sample.actorDigest false Sample.repeatedClaim Sample.currentRow
        (Sample.env "1")).Throws Sample.citedObjects notLinked ↔
      ∀ id ∈ ["evidence", "evidence"], Sample.citedObjects.Linked id) := by
  rw [(reference_checks_iff Sample.referenceKeys_citedObjects).1 _ Sample.checksEvidence_repeatedClaim]
  rintro (hnodup | hmissing)
  · exact absurd hnodup (by decide)
  · exact hmissing (by simp [ObjectTables.Linked, Sample.citedObjects])

/-- **Checks are not exact**: a claim that cites the same linked evidence twice is refused, and a fact need
not be taken from the first claim that it cites. -/
theorem repeated_reference_refused :
    ReferenceKeys Sample.citedObjects ∧
      ChecksEvidence Sample.repeatedClaim ["evidence", "evidence"] ∧
      (∀ id ∈ ["evidence", "evidence"], Sample.citedObjects.Linked id) ∧
      (applyMutation Sample.actorDigest false Sample.repeatedClaim Sample.currentRow
        (Sample.env "1")).Throws Sample.citedObjects notLinked ∧
      ChecksClaims Sample.acceptTwo ["first", "second"] ∧
      ¬ TakesFirst Sample.actorDigest false Sample.acceptTwo Sample.currentRow (Sample.env "1")
        Sample.citedObjects ["first", "second"] := by
  refine ⟨Sample.referenceKeys_citedObjects, Sample.checksEvidence_repeatedClaim,
    by simp [ObjectTables.Linked, Sample.citedObjects], ?_, Sample.checksClaims_acceptTwo, ?_⟩
  · rw [throws_not_linked_iff Sample.checksEvidence_repeatedClaim,
      linkedEvidence_iff Sample.referenceKeys_citedObjects]
    rintro ⟨hnodup, -⟩
    exact absurd hnodup (by decide)
  · rw [takesFirst_iff Sample.checksClaims_acceptTwo]
    intro hagree
    have hsucceeds : ∃ r, (applyMutation Sample.actorDigest false Sample.acceptTwo Sample.currentRow
        (Sample.env "1")).run Sample.citedObjects = .ok r := by
      have hok : ((acceptClaimAsFact Sample.acceptTwo (Sample.env "1")).run
          Sample.citedObjects).isOk := by decide +kernel
      change ∃ r, (acceptClaimAsFact Sample.acceptTwo (Sample.env "1")).run Sample.citedObjects = .ok r
      revert hok
      cases (acceptClaimAsFact Sample.acceptTwo (Sample.env "1")).run Sample.citedObjects with
      | ok r => exact fun _ => ⟨r, rfl⟩
      | error e => exact nofun
    obtain ⟨⟨result, s', ms⟩, hy⟩ := hsucceeds
    have hsame := hagree ⟨0, result, s', ms, hy⟩ _ (List.mem_cons_self ..) rfl _
      (List.mem_cons_of_mem _ (List.mem_cons_self ..)) (by decide)
    exact absurd (hsame.predicate rfl) (by decide)

end CaseStore

end HarnessFramework
