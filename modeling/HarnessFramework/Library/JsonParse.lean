import HarnessFramework.Library.JsValue
import Mathlib.Data.Int.Log
import Mathlib.Data.Rat.Floor

/-!
# Reading JSON

What `JSON.parse` makes of a text. The text is first read as a tree whose numbers are spelled out, and
then the numbers are rounded to doubles, written with the fewest digits that round to them. A number
beyond all doubles becomes infinite, and then the value is no JSON value.

A text that escapes a lone surrogate is refused: no text of the model has one.

## Main definitions

* `JsonNumber.round` — the double next to a number
* `JsonText.parse` — the tree of a text
* `JsonText.toJson?` — the value of a tree
-/

namespace HarnessFramework

/-! ## Doubles -/

namespace JsonNumber

/-- The integer next to a number, ties to even. -/
def roundHalfEven (q : ℚ) : ℤ :=
  let rest := q - ⌊q⌋
  if rest < 1 / 2 ∨ rest = 1 / 2 ∧ ⌊q⌋ % 2 = 0 then ⌊q⌋ else ⌊q⌋ + 1

/-- The double next to a nonnegative number, if exponents had no upper bound. -/
def toDouble (q : ℚ) : ℚ :=
  let unit : ℚ := 2 ^ max (-1074) (Int.log 2 q - 52)
  roundHalfEven (q / unit) * unit

/-- The multiple of `unit` next to the double `v` that rounds to it, in units. -/
def shortestIn (v unit : ℚ) : Option ℤ :=
  let low := ⌊v / unit⌋
  let rounds (s : ℤ) : Bool := toDouble (s * unit) = v
  if rounds low ∧ (rounds (low + 1) → v - low * unit < (low + 1) * unit - v ∨
      v - low * unit = (low + 1) * unit - v ∧ low % 2 = 0) then some low
  else if rounds (low + 1) then some (low + 1)
  else none

/-- The double `v`, written with the fewest digits that round to it. -/
def shortest (negative : Bool) (v : ℚ) : JsonNumber :=
  let point := Int.log 10 v + 1
  let found := (List.range 17).findSome? fun k =>
    (shortestIn v (10 ^ (point - (k + 1)))).map fun s => (s.toNat, point - (k + 1))
  let (digits, exponent) := found.getD (0, 0)
  ofParts negative (natDigits digits) (exponent + (natDigits digits).length)

/-- The double next to a number, `none` if it is infinite. -/
def round (x : JsonNumber) : Option JsonNumber :=
  let v := toDouble |x.toRat|
  if v = 0 then some (ofNat 0)
  else if v < 2 ^ 1024 then some (shortest x.negative v)
  else none

end JsonNumber

/-! ## Trees -/

namespace JsonText

/-- White space between tokens. -/
def isSpace (c : Char) : Bool := c = ' ' || c = '\t' || c = '\n' || c = '\r'

/-- The text from the next token on. -/
def skipSpace (cs : List Char) : List Char := cs.dropWhile isSpace

/-- The value of a hexadecimal digit. -/
def hexDigit? (c : Char) : Option ℕ :=
  if '0' ≤ c ∧ c ≤ '9' then some (c.toNat - '0'.toNat)
  else if 'a' ≤ c ∧ c ≤ 'f' then some (c.toNat - 'a'.toNat + 10)
  else if 'A' ≤ c ∧ c ≤ 'F' then some (c.toNat - 'A'.toNat + 10)
  else none

/-- The code unit that four hexadecimal digits stand for. -/
def readUnit : List Char → Option (ℕ × List Char)
  | a :: b :: c :: d :: r => do
    let a ← hexDigit? a
    let b ← hexDigit? b
    let c ← hexDigit? c
    let d ← hexDigit? d
    return (((a * 16 + b) * 16 + c) * 16 + d, r)
  | _ => none

/-- The character of an escaped code unit, or of two that are surrogates. -/
def readEscaped (cs : List Char) : Option (Char × List Char) := do
  let (high, r) ← readUnit cs
  if 0xD800 ≤ high ∧ high < 0xE000 then
    match r with
    | '\\' :: 'u' :: r =>
      let (low, r) ← readUnit r
      if high < 0xDC00 ∧ 0xDC00 ≤ low ∧ low < 0xE000 then
        return (Char.ofNat (0x10000 + (high - 0xD800) * 0x400 + (low - 0xDC00)), r)
      else none
    | _ => none
  else return (Char.ofNat high, r)

/-- One character of a quoted text. -/
def readChar : List Char → Option (Char × List Char)
  | '\\' :: 'b' :: r => some (Char.ofNat 8, r)
  | '\\' :: 't' :: r => some (Char.ofNat 9, r)
  | '\\' :: 'n' :: r => some (Char.ofNat 10, r)
  | '\\' :: 'f' :: r => some (Char.ofNat 12, r)
  | '\\' :: 'r' :: r => some (Char.ofNat 13, r)
  | '\\' :: 'u' :: r => readEscaped r
  | '\\' :: c :: r => if c = '"' ∨ c = '\\' ∨ c = '/' then some (c, r) else none
  | c :: r => if c.toNat < 32 ∨ c = '\\' then none else some (c, r)
  | [] => none

/-- A quoted text, after its opening quote. -/
def readChars : ℕ → List Char → Option (List Char × List Char)
  | 0, _ => none
  | _ + 1, '"' :: r => some ([], r)
  | fuel + 1, cs => do
    let (c, r) ← readChar cs
    let (chars, r) ← readChars fuel r
    return (c :: chars, r)

/-- A quoted text, after its opening quote. -/
def readString (cs : List Char) : Option (String × List Char) :=
  (readChars (cs.length + 1) cs).map fun read => (String.ofList read.1, read.2)

/-- Digits, at least one. -/
def readDigits (cs : List Char) : Option (List Char × List Char) :=
  if cs.takeWhile Char.isDigit = [] then none
  else some (cs.takeWhile Char.isDigit, cs.dropWhile Char.isDigit)

/-- The part of a number after its decimal point, if it has one. -/
def readFraction : List Char → Option (List Char × List Char)
  | '.' :: r => (readDigits r).map fun read => ('.' :: read.1, read.2)
  | r => some ([], r)

/-- The exponent of a number with its sign, if it has one. -/
def readExponent : List Char → Option (List Char × List Char)
  | c :: r =>
    if c = 'e' ∨ c = 'E' then
      match r with
      | '-' :: r => (readDigits r).map fun read => ('e' :: '-' :: read.1, read.2)
      | '+' :: r => (readDigits r).map fun read => ('e' :: '+' :: read.1, read.2)
      | r => (readDigits r).map fun read => ('e' :: '+' :: read.1, read.2)
    else some ([], c :: r)
  | [] => some ([], [])

/-- A number, without its sign. -/
def readMagnitude (cs : List Char) : Option (List Char × List Char) := do
  let (whole, r) ← readDigits cs
  -- A leading zero stands alone.
  if whole.head? = some '0' ∧ whole ≠ ['0'] then none
  else
    let (fraction, r) ← readFraction r
    let (exponent, r) ← readExponent r
    return (whole ++ fraction ++ exponent, r)

/-- A number. -/
def readNumber : List Char → Option (List Char × List Char)
  | '-' :: r => (readMagnitude r).map fun read => ('-' :: read.1, read.2)
  | r => readMagnitude r

mutual

/-- A value at the front of a text that starts with a token, and the rest. -/
def readValue : ℕ → List Char → Option (JsonText × List Char)
  | 0, _ => none
  | fuel + 1, cs =>
    match cs with
    | 'n' :: 'u' :: 'l' :: 'l' :: r => some (.null, r)
    | 't' :: 'r' :: 'u' :: 'e' :: r => some (.bool true, r)
    | 'f' :: 'a' :: 'l' :: 's' :: 'e' :: r => some (.bool false, r)
    | '"' :: r => (readString r).map fun read => (.str read.1, read.2)
    | '[' :: r =>
      match skipSpace r with
      | ']' :: r => some (.arr [], r)
      | r => do
        let (item, r) ← readValue fuel r
        let (items, r) ← readItems fuel (skipSpace r)
        return (.arr (item :: items), r)
    | '{' :: r =>
      match skipSpace r with
      | '}' :: r => some (.obj [], r)
      | r => do
        let (member, r) ← readMember fuel r
        let (members, r) ← readMembers fuel (skipSpace r)
        return (.obj (member :: members), r)
    | r => (readNumber r).map fun read => (.num read.1, read.2)

/-- The items of an array after the first. -/
def readItems : ℕ → List Char → Option (List JsonText × List Char)
  | 0, _ => none
  | fuel + 1, cs =>
    match cs with
    | ']' :: r => some ([], r)
    | ',' :: r => do
      let (item, r) ← readValue fuel (skipSpace r)
      let (items, r) ← readItems fuel (skipSpace r)
      return (item :: items, r)
    | _ => none

/-- A member of an object. -/
def readMember : ℕ → List Char → Option ((String × JsonText) × List Char)
  | 0, _ => none
  | fuel + 1, cs =>
    match cs with
    | '"' :: r => do
      let (key, r) ← readString r
      match skipSpace r with
      | ':' :: r =>
        let (value, r) ← readValue fuel (skipSpace r)
        return ((key, value), r)
      | _ => none
    | _ => none

/-- The members of an object after the first. -/
def readMembers : ℕ → List Char → Option (List (String × JsonText) × List Char)
  | 0, _ => none
  | fuel + 1, cs =>
    match cs with
    | '}' :: r => some ([], r)
    | ',' :: r => do
      let (member, r) ← readMember fuel (skipSpace r)
      let (members, r) ← readMembers fuel (skipSpace r)
      return (member :: members, r)
    | _ => none

end

/-- The tree of a text. A level of the tree takes at least one character of it. -/
def parse (cs : List Char) : Option JsonText :=
  match readValue (2 * (skipSpace cs).length + 1) (skipSpace cs) with
  | some (text, r) => if skipSpace r = [] then some text else none
  | none => none

mutual

/-- The value of a tree: numbers are rounded, and the last member under a key counts. -/
def toJson? : JsonText → Option Json
  | .null => some .null
  | .bool b => some (.bool b)
  | .num chars => (JsonNumber.decode chars).round.map .num
  | .str s => some (.str s)
  | .arr items => (itemsJson? items).map .arr
  | .obj members => (membersJson? members).map fun members => .obj (Members.fromEntries members)

/-- The values of items. -/
def itemsJson? : List JsonText → Option (List Json)
  | [] => some []
  | item :: items => do
    let item ← toJson? item
    let items ← itemsJson? items
    return item :: items

/-- The values of members. -/
def membersJson? : List (String × JsonText) → Option (List (String × Json))
  | [] => some []
  | (key, value) :: members => do
    let value ← toJson? value
    let members ← membersJson? members
    return (key, value) :: members

end

end JsonText

end HarnessFramework
