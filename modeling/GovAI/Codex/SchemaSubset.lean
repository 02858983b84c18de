import GovAI.Json.Value
import GovAI.Library.Fallible
import Mathlib.Algebra.Order.Field.Rat

/-!
# The validator for the pinned schema

`json-schema-subset.ts`: `resolvePointer` and `validateAgainstSchema`.  A schema is the parsed value
itself.  An exception, also the one of a full call stack, is the error of `Except`; the fuel is the
depth of the stack.  Numbers are compared by the value of their decimal.
-/

namespace GovAI

attribute [local instance] lawfulBEq_jsString

/-! ## Values -/

/-- The value of the decimal. -/
def JsNumber.toRat : JsNumber → ℚ
  | .int i => i
  | .frac neg s n _ =>
    (if neg then -1 else 1) * s * (10 : ℚ) ^ (n - (Nat.toDigits 10 s).length)

/-- `Number.isInteger` -/
def JsNumber.isInteger : JsNumber → Bool
  | .int _ => true
  | .frac _ s n _ => ((Nat.toDigits 10 s).length : ℤ) ≤ n

/-- `[...value].length`: a surrogate pair counts once. -/
def codePointCount : JsString → ℕ
  | u :: v :: rest =>
    if isHighSurrogate u && isLowSurrogate v then codePointCount rest + 1
    else codePointCount (v :: rest) + 1
  | [_] => 1
  | [] => 0

/-- The property of an object under a key that need not be a well-formed text. -/
def JsonValue.own (v : JsonValue) (key : JsString) : Option JsonValue :=
  match v with
  | .obj props => (props.find? (·.1 = key)).map (·.2)
  | _ => none

/-- `typeof value === 'object' && value !== null && !Array.isArray(value)` -/
def JsonValue.isRecord : JsonValue → Bool
  | .obj _ => true
  | _ => false

/-- `Object.keys`; `null` has none and throws. -/
def JsonValue.objectKeys : JsonValue → Option (List JsString)
  | .null => none
  | .obj props => some (props.map (·.1))
  | .arr items => some ((List.range items.length).map fun i => jsString (toString i))
  | .str s => some ((List.range s.length).map fun i => jsString (toString i))
  | .bool _ | .num _ => some []

/-- A value in a template literal; objects print as their JSON text here. -/
def JsonValue.printed : JsonValue → JsString
  | .str s => s
  | v => jsString (String.ofList (jsonStringify v))

/-- `deepEqual` -/
def deepEqual (a b : JsonValue) : Bool := jsonStringify a = jsonStringify b

/-- `typeOf` -/
def typeOf : JsonValue → List JsString
  | .null => [jsString "null"]
  | .arr _ => [jsString "array"]
  | .num x => if x.1.isInteger then [jsString "integer", jsString "number"] else [jsString "number"]
  | .obj _ => [jsString "object"]
  | .bool _ => [jsString "boolean"]
  | .str _ => [jsString "string"]

/-! ## Pointers -/

/-- `.replace(/ab/g, c)` for two code units `a` and `b`. -/
def replacePair (a b c : UInt16) : JsString → JsString
  | u :: v :: rest =>
    if u = a ∧ v = b then c :: replacePair a b c rest else u :: replacePair a b c (v :: rest)
  | s => s

/-- `raw.replace(/~1/g, '/').replace(/~0/g, '~')` -/
def unescapePointer (raw : JsString) : JsString :=
  replacePair 0x7E 0x30 0x7E (replacePair 0x7E 0x31 0x2F raw)

/-- The node that the keys lead to. -/
def followKeys (ref : JsString) : JsonValue → List JsString → Except JsString JsonValue
  | node, [] => .ok node
  | node, key :: keys =>
    match node.own key with
    | some child => followKeys ref child keys
    | none => .error (jsString "unresolvable $ref: " ++ ref)

/-- `resolvePointer` -/
def resolvePointer (root : JsonValue) (ref : JsString) : Except JsString JsonValue :=
  match ref with
  | 0x23 :: 0x2F :: pointer => do
    let node ← followKeys ref root ((pointer.splitOn 0x2F).map unescapePointer)
    match node with
    | .bool _ | .obj _ => .ok node
    | _ => .error (jsString "$ref target is not a schema: " ++ ref)
  | _ => .error (jsString "unsupported $ref (not local): " ++ ref)

/-! ## Keywords -/

/-- `ANNOTATIONS` -/
def annotationKeywords : List String :=
  ["$schema", "title", "description", "default", "format", "examples", "definitions"]

/-- `SUPPORTED` -/
def supportedKeywords : List String :=
  ["$ref", "type", "enum", "const", "properties", "required", "additionalProperties", "items",
    "anyOf", "oneOf", "allOf", "minimum", "maximum", "minLength", "maxLength"]

/-- The keys that are neither annotations nor supported. -/
def unsupportedKeywords (keys : List JsString) : List JsString :=
  keys.filter fun key =>
    key ∉ annotationKeywords.map jsString ∧ key ∉ supportedKeywords.map jsString

/-! ## Assertions about the value alone -/

/-- The names that `type` allows. -/
def allowedTypes (type : JsonValue) : List JsonValue :=
  match type with
  | .arr names => names
  | name => [name]

/-- The errors of `type`. -/
def typeErrors (schema value : JsonValue) (path : JsString) : List JsString :=
  match schema.get "type" with
  | some type =>
    if (typeOf value).any fun t => (allowedTypes type).any fun
        | .str name => name = t
        | _ => false
    then []
    else [path ++ jsString ": type " ++ (typeOf value).headD [] ++ jsString " not in " ++
      List.intercalate (jsString "|") ((allowedTypes type).map JsonValue.printed)]
  | none => []

/-- The errors of `enum` and `const`. -/
def equalityErrors (schema value : JsonValue) (path : JsString) : List JsString :=
  (match schema.get "enum" with
    | some (.arr options) =>
      if options.any (deepEqual · value) then [] else [path ++ jsString ": not in enum"]
    | _ => []) ++
  match schema.get "const" with
  | some const => if deepEqual const value then [] else [path ++ jsString ": const mismatch"]
  | none => []

/-- The errors of a bound that the measure of the value misses. -/
def boundErrors (schema : JsonValue) (keyword : String) (fails : ℚ → Bool) (message : JsString) :
    List JsString :=
  match schema.get keyword with
  | some (.num bound) => if fails bound.1.toRat then [message] else []
  | _ => []

/-- The errors of `minimum` and `maximum`, `minLength` and `maxLength`. -/
def rangeErrors (schema value : JsonValue) (path : JsString) : List JsString :=
  match value with
  | .num x =>
    boundErrors schema "minimum" (x.1.toRat < ·) (path ++ jsString ": below minimum") ++
      boundErrors schema "maximum" (· < x.1.toRat) (path ++ jsString ": above maximum")
  | .str s =>
    boundErrors schema "minLength" ((codePointCount s : ℚ) < ·)
        (path ++ jsString ": shorter than minLength") ++
      boundErrors schema "maxLength" (· < (codePointCount s : ℚ))
        (path ++ jsString ": longer than maxLength")
  | _ => []

/-- The errors of `required`. -/
def requiredErrors (schema : JsonValue) (members : List (JsString × JsonValue)) (path : JsString) :
    List JsString :=
  match schema.get "required" with
  | some (.arr keys) =>
    (keys.map JsonValue.printed).filterMap fun key =>
      if key ∈ members.map (·.1) then none else some (path ++ jsString ": missing required " ++ key)
  | _ => []

/-! ## Assertions about parts of the value -/

/-- The errors of a call. -/
abbrev SchemaErrors := Except JsString (List JsString)

/-- The subschemas under `allOf`, `anyOf` or `oneOf`. -/
def branches (schema : JsonValue) (keyword : String) : Option (List JsonValue) :=
  match schema.get keyword with
  | some (.arr subs) => some subs
  | _ => none

section Calls

variable (validate : JsonValue → JsonValue → JsString → SchemaErrors) (root schema value : JsonValue)
  (path : JsString)

/-- The errors of `$ref`. -/
def refErrors : SchemaErrors :=
  match schema.get "$ref" with
  | some (.str ref) => do validate (← resolvePointer root ref) value path
  | _ => pure []

/-- The errors of one property of the value. -/
def memberErrors (member : JsString × JsonValue) : SchemaErrors :=
  match (schema.get "properties").bind (·.own member.1) with
  | some sub => validate sub member.2 (path ++ jsString "." ++ member.1)
  | none =>
    match schema.get "additionalProperties" with
    | some (.bool false) => pure [path ++ jsString ": additional property " ++ member.1]
    | some (.bool true) => validate (.bool true) member.2 (path ++ jsString "." ++ member.1)
    | some (.obj props) => validate (.obj props) member.2 (path ++ jsString "." ++ member.1)
    | _ => pure []

/-- The errors of `properties` and `additionalProperties`, and of `required`. -/
def objectErrors : SchemaErrors :=
  match value with
  | .obj members => do
    return requiredErrors schema members path ++
      (← members.mapM (memberErrors validate schema path)).flatten
  | _ => pure []

/-- The errors of `items`. -/
def itemErrors : SchemaErrors :=
  match value, schema.get "items" with
  | .arr items, some sub => do
    return (← items.zipIdx.mapM fun (item, i) =>
      validate sub item (path ++ jsString "[" ++ jsString (toString i) ++ jsString "]")).flatten
  | _, _ => pure []

/-- The errors of `allOf`. -/
def allOfErrors : SchemaErrors :=
  match branches schema "allOf" with
  | some subs => do return (← subs.mapM fun sub => validate sub value path).flatten
  | none => pure []

/-- The errors of `anyOf`, which stops at the first branch without errors. -/
def anyOfErrors : SchemaErrors :=
  match branches schema "anyOf" with
  | some subs => do
    let ok ← subs.anyM fun sub => return (← validate sub value path).isEmpty
    return if ok then [] else [path ++ jsString ": no anyOf branch matched"]
  | none => pure []

/-- The errors of `oneOf`. -/
def oneOfErrors : SchemaErrors :=
  match branches schema "oneOf" with
  | some subs => do
    let found := (← subs.mapM fun sub => validate sub value path).countP (·.isEmpty)
    return if found = 1 then [] else
      [path ++ jsString ": " ++ jsString (toString found) ++
        jsString " oneOf branches matched (exactly 1 required)"]
  | none => pure []

/-- The body of `validateAgainstSchema`, with `validate` for its calls of itself. -/
def validateNode : SchemaErrors :=
  match schema with
  | .bool true => pure []
  | .bool false => pure [path ++ jsString ": schema is false"]
  | _ =>
    match schema.objectKeys with
    | none => .error (jsString "TypeError: Cannot convert undefined or null to object")
    | some keys =>
      if unsupportedKeywords keys ≠ [] then
        pure ((unsupportedKeywords keys).map (path ++ jsString ": unsupported keyword " ++ ·))
      else do
        let ofRef ← refErrors validate root schema value path
        let ofObject ← objectErrors validate schema value path
        let ofItems ← itemErrors validate schema value path
        let ofAllOf ← allOfErrors validate schema value path
        let ofAnyOf ← anyOfErrors validate schema value path
        let ofOneOf ← oneOfErrors validate schema value path
        return ofRef ++ typeErrors schema value path ++ equalityErrors schema value path ++
          rangeErrors schema value path ++ ofObject ++ ofItems ++ ofAllOf ++ ofAnyOf ++ ofOneOf

end Calls

/-- `validateAgainstSchema` on a stack of the given depth. -/
def validateAgainstSchema (root : JsonValue) :
    ℕ → JsonValue → JsonValue → JsString → SchemaErrors
  | 0 => fun _ _ _ => .error (jsString "RangeError: Maximum call stack size exceeded")
  | stack + 1 => validateNode (validateAgainstSchema root stack) root

end GovAI
