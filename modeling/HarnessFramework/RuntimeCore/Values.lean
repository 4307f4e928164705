import HarnessFramework.Library.Checks
import HarnessFramework.Library.JsValue

/-!
# Values at paths

How `packages/runtime-core/src/index.ts` reads a value at a path. Digesting `undefined` throws.

## Main definitions

* `getPath` — the value at a path
* `digested` — what is digested of a value
* `jsText` — `String(value)`
-/

namespace HarnessFramework

namespace RuntimeCore

open Checks

/-- `path.replace(/^\$\.?/, "")`. -/
def dropRoot : List Char → List Char
  | '$' :: '.' :: path => path
  | '$' :: path => path
  | path => path

/-- The keys a path goes through: what dots and slashes separate, without empty texts. -/
def pathKeys (path : String) : List String :=
  (((dropRoot path.toList).splitOnP fun c => c = '.' || c = '/').filter (· ≠ [])).map String.ofList

/-- `getPath`. -/
def getPath (value : JsValue) (path : Option String) : JsValue :=
  match path with
  | none => value
  | some path =>
    if path = "" ∨ path = "/" ∨ path = "$" then value
    else (pathKeys path).foldl (fun current key => current.get key) value

@[simp] theorem getPath_none (value : JsValue) : getPath value none = value := rfl

/-- What Node throws when there is no text to digest. -/
def digestFailure : String :=
  "The \"data\" argument must be of type string or an instance of Buffer, TypedArray, or DataView. " ++
    "Received undefined"

/-- What is digested of a value. -/
def digested (value : JsValue) : Except String Json := orThrow digestFailure value.toJson

/-- `String(value)`. -/
def jsText (value : JsValue) : String :=
  match value.toJson with
  | some json => String.ofList json.toJsString
  | none => "undefined"

@[simp] theorem jsText_str (s : String) : jsText (.str s) = s := by
  simp [jsText, JsValue.toJson, Json.toJsString]

end RuntimeCore

end HarnessFramework
