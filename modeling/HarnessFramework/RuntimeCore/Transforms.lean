import HarnessFramework.Contracts.Canonical
import HarnessFramework.RuntimeCore.Values

/-!
# Transforming and aggregating values

`transformValue` and `aggregateValue` of `packages/runtime-core/src/index.ts`, by the operation that a
node is configured with.

`toSorted` and `sort` are stable for the comparators here, and are modelled by a stable sort. Texts are
sliced at code units; where that cuts a surrogate pair, the half that is left is dropped.

## Main definitions

* `transformValue`, `sorted` — the transforms
* `aggregateValue`, `voteCounts` — the aggregators
-/

namespace HarnessFramework

namespace RuntimeCore

section

variable (sha256 : List Char → String)

/-! ## Configurations -/

/-- `String(config[key] ?? fallback)`. -/
def textSetting (config : List (String × Json)) (key fallback : String) : String :=
  match lastMember key config with
  | none | some .null => fallback
  | some value => String.ofList value.toJsString

/-- `typeof config.path === "string" ? config.path : undefined`, where an empty path selects nothing. -/
def configuredPath (config : List (String × Json)) : Option String :=
  match lastMember "path" config with
  | some (.str path) => if path = "" then none else some path
  | _ => none

/-- `Number.isInteger(config[key]) ? Number(config[key]) : undefined`. -/
def integerSetting (config : List (String × Json)) (key : String) : Option ℤ :=
  match lastMember key config with
  | some (.num n) => if n.toRat.den = 1 then some n.toRat.num else none
  | _ => none

/-- `value ?? null`. -/
def orNull : JsValue → JsValue
  | .undefined => .null
  | value => value

/-- The JSON value of `value ?? null`. -/
def jsonOrNull (value : JsValue) : Json := value.toJson.getD .null

/-- The own enumerable members that `Object.assign` copies from a source. -/
def assigned : JsValue → List (String × JsValue)
  | .str s => s.toList.zipIdx.map fun c => (String.ofList (Json.natChars c.2), .str (String.singleton c.1))
  | value => value.own?.getD []

/-- `Object.assign({}, ...sources)`. -/
def assignAll (sources : List JsValue) : JsValue :=
  .obj (sources.foldl (fun members source => Members.spread members (assigned source)) [])

/-! ## Sorting -/

/-- What items are sorted by. -/
inductive SortKey
  | number (n : JsonNumber)
  | text (cs : List Char)

/-- `typeof value === "number" ? value : JSON.stringify(value ?? null)`. -/
def comparable : JsValue → SortKey
  | .num n => .number n
  | value => .text (jsonOrNull value).stringify

/-- `String(key)`. -/
def SortKey.chars : SortKey → List Char
  | number n => n.toChars
  | text cs => cs

/-- What a comparator returns, of which only the sign counts. -/
def compareKeys (direction : ℚ) : SortKey → SortKey → ℚ
  | .number a, .number b => (a.toRat - b.toRat) * direction
  | a, b =>
    let a := a.chars.flatMap Json.codeUnits
    let b := b.chars.flatMap Json.codeUnits
    (if a < b then -1 else if b < a then 1 else 0) * direction

/-- The comparator of a sort. -/
def comparator (path : Option String) (direction : ℚ) (left right : JsValue) : ℚ :=
  compareKeys direction (comparable (getPath left path)) (comparable (getPath right path))

/-- `value === undefined`. -/
def isUndefined : JsValue → Bool
  | .undefined => true
  | _ => false

/-- `input.toSorted(comparator)`: `undefined` comes last, and is not compared. -/
def sorted (path : Option String) (direction : ℚ) (items : List JsValue) : List JsValue :=
  (items.filter fun item => !isUndefined item).mergeSort
      (fun left right => decide (comparator path direction left right ≤ 0)) ++
    items.filter isUndefined

/-! ## Deduplicating -/

/-- The items whose digest was not seen before. -/
def deduplicated (path : Option String) : List String → List JsValue → List JsValue
  | _, [] => []
  | seen, item :: items =>
    let key := stableDigest sha256 (jsonOrNull (getPath item path))
    if key ∈ seen then deduplicated path seen items
    else item :: deduplicated path (key :: seen) items

/-! ## Slicing -/

/-- An index of `slice`, counted from the end if it is negative. -/
def sliceIndex (length : ℕ) (i : ℤ) : ℕ := min (if i < 0 then max 0 (length + i) else i).toNat length

/-- The items from `start` to `stop`. -/
def sliceItems (items : List JsValue) (start : ℤ) (stop : Option ℤ) : List JsValue :=
  let stop := sliceIndex items.length (stop.getD items.length)
  (items.take stop).drop (sliceIndex items.length start)

/-- The characters between two code units, the first of which is `offset` units after the front. -/
def charsBetween (start stop : ℕ) : ℕ → List Char → List Char
  | _, [] => []
  | offset, c :: cs =>
    let next := offset + (Json.codeUnits c).length
    if start ≤ offset ∧ next ≤ stop then c :: charsBetween start stop next cs
    else charsBetween start stop next cs

/-- The text from `start` to `stop`. -/
def sliceText (text : String) (start : ℤ) (stop : Option ℤ) : String :=
  let length := (Json.utf16 text).length
  String.ofList <|
    charsBetween (sliceIndex length start) (sliceIndex length (stop.getD length)) 0 text.toList

/-! ## Transforms -/

/-- `transformValue`. -/
def transformValue (config : List (String × Json)) (input : JsValue) : Except String JsValue :=
  let operation := textSetting config "operation" "identity"
  if operation = "identity" then .ok input
  else if operation = "select" then .ok (getPath input (some (textSetting config "path" "/")))
  else if operation = "project" then
    let fields := match lastMember "fields" config with
      | some (.arr fields) => fields.map fun field : Json => String.ofList field.toJsString
      | _ => []
    .ok (.obj (Members.fromEntries (fields.map fun field => (field, getPath input (some field)))))
  else if operation = "merge" then
    match input with
    | .arr items => .ok (assignAll items)
    | _ => .ok (assignAll [input])
  else if operation = "deduplicate" then
    match input with
    | .arr items => .ok (.arr (deduplicated sha256 (configuredPath config) [] items))
    | _ => .error "runtime.transform_deduplicate_array_required"
  else if operation = "sort" then
    match input with
    | .arr items =>
      let direction := if lastMember "direction" config = some (.str "desc") then -1 else 1
      .ok (.arr (sorted (configuredPath config) direction items))
    | _ => .error "runtime.transform_sort_array_required"
  else if operation = "slice" then
    let start := (integerSetting config "start").getD 0
    let stop := integerSetting config "end"
    match input with
    | .arr items => .ok (.arr (sliceItems items start stop))
    | .str text => .ok (.str (sliceText text start stop))
    | _ => .error "runtime.transform_slice_sequence_required"
  else .error s!"runtime.transform_unsupported:{operation}"

/-! ## Aggregators -/

/-- `collectedValues`. -/
def collectedValues : JsValue → List JsValue
  | .arr items => items
  | .obj members => members.map Prod.snd
  | input => [input]

/-- An entry of the map of counts. -/
structure VoteCount where
  value : JsValue
  count : ℕ
  first : ℕ

/-- The map of counts after a value was counted under its key. -/
def countVote (index : ℕ) (key : String) (value : JsValue) :
    List (String × VoteCount) → List (String × VoteCount)
  | [] => [(key, ⟨value, 1, index⟩)]
  | entry :: counts =>
    if entry.1 = key then (key, { entry.2 with count := entry.2.count + 1 }) :: counts
    else entry :: countVote index key value counts

/-- The map of counts, in the order in which keys were added. -/
def voteCounts (path : Option String) (values : List JsValue) : List (String × VoteCount) :=
  values.zipIdx.foldl (fun counts item =>
    let value := getPath item.1 path
    countVote item.2 (stableDigest sha256 (jsonOrNull value)) value counts) []

/-- `b.count - a.count || a.first - b.first` is not positive. -/
def VoteCount.Before (a b : VoteCount) : Prop :=
  if a.count = b.count then a.first ≤ b.first else b.count < a.count

instance : DecidableRel VoteCount.Before := fun a b =>
  inferInstanceAs (Decidable (if a.count = b.count then a.first ≤ b.first else b.count < a.count))

/-- `aggregateValue`. -/
def aggregateValue (config : List (String × Json)) (input : JsValue) : Except String JsValue :=
  let operation := textSetting config "operation" "collect"
  let values := collectedValues input
  if operation = "collect" then .ok (.arr values)
  else if operation = "merge" then
    if values.all fun value => value matches .obj _ then .ok (assignAll values)
    else .error "runtime.aggregator_merge_objects_required"
  else if operation = "concat" then
    if values.all fun value => value matches .arr _ then
      .ok (.arr (values.flatMap fun
        | .arr items => items
        | _ => []))
    else .error "runtime.aggregator_concat_arrays_required"
  else if operation = "vote" then
    if values.isEmpty then .ok .null
    else
      let ranked := ((voteCounts sha256 (configuredPath config) values).map Prod.snd).mergeSort
        fun a b => decide (a.Before b)
      .ok (ranked.head?.elim .null fun winner => orNull winner.value)
  else .error s!"runtime.aggregator_unsupported:{operation}"

end

end RuntimeCore

end HarnessFramework
