import GovAI.Json.Parse
import Mathlib.Data.List.DropRight

/-!
# Context entries and stored streams

What `conversation-adapter.ts` hands to a provider adapter: the earlier turns with their native
requests and answers, the native request of the turn that is dispatched, and what the adapter answers.
A streamed answer is the stored text of the stream, from which both adapters take the `data:` lines.
-/

namespace GovAI

/-! ## Native values -/

namespace JsonValue

/-- `isObject`. -/
def isObject : JsonValue → Bool
  | .obj _ => true
  | _ => false

/-- `key in v`. -/
def has (v : JsonValue) (key : String) : Bool := (v.get key).isSome

/-- The value of a property that is a string. -/
def textAt (v : JsonValue) (key : String) : Option JsString :=
  match v.get key with
  | some (.str s) => some s
  | _ => none

/-- `{ ...v, [key]: x }`. -/
def set (v : JsonValue) (key : String) (x : JsonValue) : JsonValue :=
  match v with
  | .obj props => .obj (writeProp props (jsString key, x))
  | v => v

end JsonValue

/-! ## Entries -/

/-- `output` of an answer: a parsed body, or the text of a stream. -/
inductive AssistantOutput where
  | response (body : JsonValue)
  | stream (sseText : List Char)

/-- `assistant` of an entry. -/
structure AssistantContext where
  providerCredentialId : Option Uuid
  completedAtMs : ℤ
  output : AssistantOutput

/-- `AssembledContextEntry`: an earlier turn. -/
structure AssembledContextEntry where
  sourceProvider : String
  sourceModel : JsString
  selectedAttemptProviderFailed : Bool
  userNative : JsonValue
  assistant : Option AssistantContext

/-- `BuildRequestInput`. -/
structure BuildRequestInput where
  entries : List AssembledContextEntry
  turnConfig : JsonValue
  branchModel : JsString
  activeCredentialId : Uuid
  nowMs : ℤ

/-- `BuildContinuation`. -/
inductive BuildContinuation where
  | statelessReplay
  | responseChain (parentResponseId : JsString)

/-- `reason` of a refusal. -/
inductive RefusalReason where
  | continuationConflict
  | contextUnreplayable
deriving DecidableEq

/-- How a build ends without a request: a refusal, or an exception that the adapter does not catch. -/
inductive BuildFailure where
  | refused (reason : RefusalReason) (detail : String)
  | thrown (error : String)
deriving DecidableEq

/-- A request as it is built. -/
structure AdapterRequest where
  body : JsonValue
  continuation : BuildContinuation

/-- `BuildRequestResult`. -/
abbrev BuildRequestResult := Except BuildFailure AdapterRequest

/-! ## Streams -/

/-- The white space that `String.prototype.trim` removes. -/
def isJsSpace (c : Char) : Bool :=
  c ∈ ['\t', '\n', '\x0b', '\x0c', '\r', ' ', '\u00a0', '\u1680', '\u2028', '\u2029', '\u202f',
    '\u205f', '\u3000', '\ufeff'] || (0x2000 ≤ c.toNat && c.toNat ≤ 0x200a)

/-- `trim()`. -/
def jsTrim (cs : List Char) : List Char := (cs.dropWhile isJsSpace).rdropWhile isJsSpace

/-- `split(/\r?\n/)`. -/
def sseLines : List Char → List (List Char)
  | [] => [[]]
  | '\r' :: '\n' :: cs => [] :: sseLines cs
  | '\n' :: cs => [] :: sseLines cs
  | c :: cs =>
    match sseLines cs with
    | [] => [[c]]
    | line :: lines => (c :: line) :: lines

/-- The payload of a `data:` line that carries one. -/
def dataPayload (line : List Char) : Option (List Char) :=
  if "data:".toList.isPrefixOf line then
    let payload := jsTrim (line.drop 5)
    if payload = [] ∨ payload = "[DONE]".toList then none else some payload
  else none

/-- The payloads of a stream. -/
def dataPayloads (sseText : List Char) : List (List Char) := (sseLines sseText).filterMap dataPayload

end GovAI
