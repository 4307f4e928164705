import HarnessFramework.Contracts.Schemas
import HarnessFramework.HarnessCompiler.Digest

/-!
# What a plan digest identifies

`verifyPlanDigest` of `packages/contracts/src/index.ts` digests a plan without its digest and its id. So
plans with one digest are the same but for their ids.

## Main definitions

* `withoutId` — a plan without its id

## Main results

* `same_withoutId` — plans that verify under one digest are the same but for their ids
* `plan_digest_binds` — the same for documents that `harnessPlanSchema` accepts
-/

namespace HarnessFramework

namespace HarnessCompiler

/-- A plan without its id. -/
def withoutId : Json → Json
  | .obj members => .obj (members.filter fun m => m.1 ≠ "planId")
  | plan => plan

/-- What is looked up in the members that a filter on keys keeps. -/
theorem lastMember_filter (keeps : String → Bool) (members : List (String × Json)) (key : String) :
    lastMember key (members.filter fun m => keeps m.1)
      = if keeps key then lastMember key members else none := by
  induction members with
  | nil => simp [lastMember]
  | cons member members ih =>
    rw [List.filter_cons, lastMember]
    by_cases hkey : member.1 = key
    · cases hkeeps : keeps key with
      | true => simp [hkey, hkeeps, lastMember, ih]
      | false => simp [hkey, hkeeps, ih]
    · cases keeps member.1 <;> simp [hkey, lastMember, ih]

/-- **Plans that verify under one digest are the same but for their ids.** -/
theorem same_withoutId {sha256 : List Char → String} (hsha : Function.Injective sha256)
    {members members' : List (String × Json)} (hkeys : (members.map Prod.fst).Nodup)
    (hkeys' : (members'.map Prod.fst).Nodup)
    (hverify : verifyPlanDigest sha256 (.obj members) = true)
    (hverify' : verifyPlanDigest sha256 (.obj members') = true)
    (hdigest : (Json.obj members).get? "planDigest" = (Json.obj members').get? "planDigest") :
    (withoutId (.obj members)).SameValue (withoutId (.obj members')) := by
  have hstored := of_decide_eq_true hverify
  have hstored' := of_decide_eq_true hverify'
  have hsame : stableDigest sha256 (planContent (.obj members))
      = stableDigest sha256 (planContent (.obj members')) := by
    rw [hdigest, hstored', Option.some_inj, Json.str.injEq] at hstored
    exact hstored.symm
  have hcontent := canonicalize_lastMember_eq (stableDigest_injective hsha hsame)
  refine Schema.sameValue_obj fun key => Schema.looked_iff.mpr ?_
  rw [lastMember_filter fun key => key ≠ "planId", lastMember_filter fun key => key ≠ "planId"]
  by_cases hid : key = "planId"
  · simp [hid]
  · rw [if_pos (by simpa using hid), if_pos (by simpa using hid)]
    by_cases hkey : key = "planDigest"
    · rw [← get?_eq_lastMember hkeys, ← get?_eq_lastMember hkeys', hkey, hdigest]
    · have hkeeps : decide (key ≠ "planDigest" ∧ key ≠ "planId") = true := by simp [hkey, hid]
      have hmember := hcontent key
      rwa [lastMember_filter fun key => key ≠ "planDigest" ∧ key ≠ "planId",
        lastMember_filter fun key => key ≠ "planDigest" ∧ key ≠ "planId", if_pos hkeeps,
        if_pos hkeeps] at hmember

/-! ## Plans that are accepted -/

namespace Sample

/-- A plan without nodes, under an id. -/
def bare (planId : String) : Json :=
  let digest := String.ofList (List.replicate 64 'a')
  .obj [("apiVersion", .str "harness.factory/plan-v1"), ("kind", .str "HarnessPlan"),
    ("planId", .str planId), ("planDigest", .str digest), ("packageDigest", .str digest),
    ("compiler", .obj [("name", .str "harnessc"), ("version", .str "1"),
      ("lgirCoreRevision", .str "0000000")]),
    ("metadata", .obj [("name", .str "n"), ("version", .str "1"), ("domain", .str "d"),
      ("objective", .str "o")]),
    ("execution", .obj [("engine", .obj [("kind", .str "langgraph-js"),
      ("adapterVersion", .str "harness-langgraph-v1"), ("profile", .str "poc-v1")]),
      ("maxTransitions", .nat 200), ("maxConcurrency", .nat 1), ("durability", .str "sync")]),
    ("budgets", .obj [("maxDurationMs", .nat 1), ("maxCostUsd", .nat 0), ("maxModelCalls", .nat 0),
      ("maxCapabilityCalls", .nat 0)]),
    ("schemas", .obj [("input", .obj []), ("output", .obj [])]), ("modelProfiles", .arr []),
    ("capabilities", .arr []), ("permissionEnvelopes", .arr []),
    ("graph", .obj [("apiVersion", .str "ladder.dev/v1alpha1"), ("name", .str "g"), ("nodes", .arr []),
      ("edges", .arr []), ("nodeOrder", .arr [])]), ("dependencyManifest", .arr [])]

/-- Digests without collisions, of which that of the plan has 64 digits. -/
def bareDigest (text : List Char) : String :=
  if text = canonicalJson (planContent (bare "")) then String.ofList (List.replicate 64 'a')
  else String.ofList ('x' :: text)

theorem bareDigest_injective : Function.Injective bareDigest := by
  intro s t h
  rw [bareDigest, bareDigest] at h
  split at h <;> split at h
  · next hs ht => rw [hs, ht]
  · exact absurd (String.ofList_inj.mp h) (by simp [List.replicate])
  · exact absurd (String.ofList_inj.mp h) (by simp [List.replicate])
  · exact (List.cons.inj (String.ofList_inj.mp h)).2

theorem parse_bare (planId : String) (h : planId ∈ ["one", "two"]) :
    harnessPlanSchema.parse (bare planId) = some (bare planId) := by
  revert planId
  decide +kernel

theorem verify_bare (planId : String) : verifyPlanDigest bareDigest (bare planId) = true := by
  have hcontent : planContent (bare planId) = planContent (bare "") := by rfl
  have hdigest : stableDigest bareDigest (planContent (bare planId))
      = String.ofList (List.replicate 64 'a') := by
    rw [hcontent, stableDigest, bareDigest, if_pos rfl]
  rw [verifyPlanDigest, hdigest, decide_eq_true_eq]
  rfl

end Sample

/-- **A plan digest binds the content of a plan**: accepted plans that verify under one digest are the
same but for their ids. -/
theorem plan_digest_binds {sha256 : List Char → String} (hsha : Function.Injective sha256)
    {document document' plan plan' : Json} (h : harnessPlanSchema.parse document = some plan)
    (h' : harnessPlanSchema.parse document' = some plan')
    (hverify : verifyPlanDigest sha256 plan = true) (hverify' : verifyPlanDigest sha256 plan' = true)
    (hdigest : plan.get? "planDigest" = plan'.get? "planDigest") :
    (withoutId plan).SameValue (withoutId plan') := by
  obtain ⟨members, rfl, hkeys⟩ := Schema.parse_object (by decide) h
  obtain ⟨members', rfl, hkeys'⟩ := Schema.parse_object (by decide) h'
  exact same_withoutId hsha hkeys hkeys' hverify hverify' hdigest

open Sample in
theorem plan_digest_binds_sample : (withoutId (bare "one")).SameValue (withoutId (bare "two")) :=
  plan_digest_binds bareDigest_injective (parse_bare "one" (by decide)) (parse_bare "two" (by decide))
    (verify_bare "one") (verify_bare "two") rfl

open Sample in
/-- The id of a plan takes no part in its digest. -/
theorem plan_digest_leaves_id :
    ¬ ∀ (sha256 : List Char → String) (document document' plan plan' : Json),
      Function.Injective sha256 → harnessPlanSchema.parse document = some plan →
      harnessPlanSchema.parse document' = some plan' → verifyPlanDigest sha256 plan = true →
      verifyPlanDigest sha256 plan' = true → plan.get? "planDigest" = plan'.get? "planDigest" →
      plan.SameValue plan' := by
  intro h
  have hsame := h bareDigest _ _ _ _ bareDigest_injective (parse_bare "one" (by decide))
    (parse_bare "two" (by decide)) (verify_bare "one") (verify_bare "two") rfl
  exact absurd (canonicalize_eq_iff.mpr hsame) (by decide +kernel)

end HarnessCompiler

end HarnessFramework
