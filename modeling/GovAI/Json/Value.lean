import GovAI.Audit.CanonicalJson

/-!
# JSON values

The values that `JSON.parse` returns, `JSON.stringify` of such a value, and `stableCanonicalJson`,
the rendering with recursively sorted keys under which the repository hashes what a client means.
An object is the list of its own properties in the order in which JavaScript walks them.
-/

namespace GovAI

/-- The number is in the form in which JavaScript prints it: an integer below `10 ^ 21` by its
numeral, any other number with a fraction or an exponent. -/
def JsNumber.Printed : JsNumber → Prop
  | .int i => i.natAbs < 10 ^ 21
  | .frac _ s n _ => n < (Nat.toDigits 10 s).length ∨ 21 < n

instance (x : JsNumber) : Decidable x.Printed := by
  cases x <;> unfold JsNumber.Printed <;> infer_instance

/-- A finite number. -/
abbrev JsonNumber := {x : JsNumber // x.Printed}

/-- A value of `JSON.parse`. -/
inductive JsonValue where
  | null
  | bool (b : Bool)
  | num (x : JsonNumber)
  | str (s : JsString)
  | arr (items : List JsonValue)
  | obj (props : List (JsString × JsonValue))

namespace JsonValue

/-- The string value of a well-formed text. -/
def text (s : String) : JsonValue := .str (jsString s)

/-- The integer value. -/
def int (i : ℤ) (h : i.natAbs < 10 ^ 21 := by decide) : JsonValue := .num ⟨.int i, h⟩

/-- The value of an own property; `none` is `undefined`. -/
def get (v : JsonValue) (key : String) : Option JsonValue :=
  match v with
  | .obj props => (props.find? (·.1 = jsString key)).map (·.2)
  | _ => none

end JsonValue

/-! ## The two renderings -/

mutual

/-- `JSON.stringify`. -/
def jsonStringify : JsonValue → List Char
  | .null => "null".toList
  | .bool b => if b then "true".toList else "false".toList
  | .num x => numberText x.1
  | .str s => quoteString s
  | .arr items => '[' :: joinComma (jsonStringifyItems items) ++ [']']
  | .obj props => '\x7b' :: joinComma (jsonStringifyProps props) ++ ['\x7d']

/-- The texts of the items of an array. -/
def jsonStringifyItems : List JsonValue → List (List Char)
  | [] => []
  | v :: rest => jsonStringify v :: jsonStringifyItems rest

/-- The texts of the properties of an object. -/
def jsonStringifyProps : List (JsString × JsonValue) → List (List Char)
  | [] => []
  | (k, v) :: rest => (quoteString k ++ ':' :: jsonStringify v) :: jsonStringifyProps rest

end

mutual

/-- The value with the keys of every object sorted, which is what `stableCanonicalJson` renders. -/
def JsonValue.sorted : JsonValue → JsonValue
  | .arr items => .arr (sortedItems items)
  | .obj props => .obj (sortProps (sortedProps props))
  | v => v

/-- The items of an array, sorted inside. -/
def JsonValue.sortedItems : List JsonValue → List JsonValue
  | [] => []
  | v :: rest => v.sorted :: sortedItems rest

/-- The properties of an object, sorted inside. -/
def JsonValue.sortedProps : List (JsString × JsonValue) → List (JsString × JsonValue)
  | [] => []
  | (k, v) :: rest => (k, v.sorted) :: sortedProps rest

end

mutual

/-- `stableCanonicalJson`. -/
def stableCanonicalJson : JsonValue → List Char
  | .null => "null".toList
  | .arr items => '[' :: joinComma (stableItems items) ++ [']']
  | .obj props =>
    '\x7b' :: joinComma ((sortProps (stableProps props)).map fun p =>
      quoteString p.1 ++ ':' :: p.2) ++ ['\x7d']
  | v => jsonStringify v

/-- The canonical texts of the items of an array. -/
def stableItems : List JsonValue → List (List Char)
  | [] => []
  | v :: rest => stableCanonicalJson v :: stableItems rest

/-- The properties of an object with the canonical texts of their values. -/
def stableProps : List (JsString × JsonValue) → List (JsString × List Char)
  | [] => []
  | (k, v) :: rest => (k, stableCanonicalJson v) :: stableProps rest

end

end GovAI
