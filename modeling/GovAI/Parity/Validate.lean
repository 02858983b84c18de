import GovAI.Json.Texts
import GovAI.Library.DecimalFields
import GovAI.Library.Gregorian
import GovAI.Parity.DuplicateKeys

/-!
# The validator of the parity manifest

`validateParityManifestFindings`: the findings of a parsed manifest in the order in which they are
pushed, each with its repairability class and the parts of its message.  The checks of a row read its
fields only, apart from the check of its keys and the set of the rows seen before.
-/

namespace GovAI

/-! ## Vocabularies -/

/-- `SURFACES`. -/
inductive Surface where
  | openaiApi | anthropicApi | codex | claudeCode | chatgptApp | claudeApp | codexApp | claudeCodeApp
deriving DecidableEq

/-- The text of a surface. -/
def Surface.text : Surface → String
  | .openaiApi => "OPENAI_API"
  | .anthropicApi => "ANTHROPIC_API"
  | .codex => "CODEX"
  | .claudeCode => "CLAUDE_CODE"
  | .chatgptApp => "CHATGPT_APP"
  | .claudeApp => "CLAUDE_APP"
  | .codexApp => "CODEX_APP"
  | .claudeCodeApp => "CLAUDE_CODE_APP"

/-- The surfaces in their declared order. -/
def surfaces : List Surface :=
  [.openaiApi, .anthropicApi, .codex, .claudeCode, .chatgptApp, .claudeApp, .codexApp, .claudeCodeApp]

/-- `APP_SURFACES`. -/
def Surface.isApp : Surface → Bool
  | .chatgptApp | .claudeApp | .codexApp | .claudeCodeApp => true
  | _ => false

/-- The providers of the manifest. -/
inductive ParityProvider where
  | openai | anthropic

/-- The text of a provider. -/
def ParityProvider.text : ParityProvider → String
  | .openai => "openai"
  | .anthropic => "anthropic"

/-- `SURFACE_PROVIDER`. -/
def Surface.provider : Surface → ParityProvider
  | .openaiApi | .codex | .chatgptApp | .codexApp => .openai
  | .anthropicApi | .claudeCode | .claudeApp | .claudeCodeApp => .anthropic

/-- `CLASSIFICATIONS`. -/
inductive ParityClass where
  | full | partially | missing | productOnly | providerNotExposed | blockedByGovai | notApplicable
deriving DecidableEq

/-- The text of a classification. -/
def ParityClass.text : ParityClass → String
  | .full => "FULL"
  | .partially => "PARTIAL"
  | .missing => "MISSING"
  | .productOnly => "PRODUCT_ONLY"
  | .providerNotExposed => "PROVIDER_NOT_EXPOSED"
  | .blockedByGovai => "BLOCKED_BY_GOVAI"
  | .notApplicable => "NOT_APPLICABLE"

/-- The classifications in their declared order. -/
def parityClasses : List ParityClass :=
  [.full, .partially, .missing, .productOnly, .providerNotExposed, .blockedByGovai, .notApplicable]

/-- `OFFICIAL_STATUSES`. -/
def officialStatuses : List String :=
  ["GA", "BETA", "EXPERIMENTAL", "DEPRECATED", "PRODUCT_ONLY", "UNKNOWN"]

/-- `SOURCE_TYPES`. -/
def sourceTypes : List String := ["api-reference", "guide", "changelog", "product-page"]

/-- `PROTOCOL_STABILITIES`. -/
def protocolStabilities : List String := ["stable", "experimental", "unstable"]

/-- `RISK_CLASSES`. -/
def parityRiskClasses : List String := ["A", "B", "C", "D", "E"]

/-- `ROOT_FIELDS`. -/
def rootFields : List String :=
  ["schema_version", "name", "description", "research_snapshot_date", "source_anchor", "verify", "doc",
    "capability_count", "capabilities"]

/-- `ROW_FIELDS`. -/
def rowFields : List String :=
  ["provider", "surface", "family", "capability_id", "capability_name", "official_status",
    "protocol_stability", "official_source", "source_type", "verified_at", "model_constraints",
    "provider_exposed", "govai_registered", "native_route_available", "native_tested",
    "native_live_accepted", "governed_applicable", "governed_route_available", "governed_tested",
    "governed_live_accepted", "ui_exposed", "ui_tested", "ui_live_accepted", "evidence_wired",
    "exact_turn_evidence_correlation", "persistence_supported", "resume_supported", "fork_supported",
    "risk_class_if_known", "govai_product_equivalent_required", "classification", "notes"]

/-- `boolFields`. -/
def boolFields : List String :=
  rowFields.filter fun f =>
    ["_exposed", "_registered", "_available", "_tested", "_accepted", "_applicable", "_wired",
      "_correlation", "_supported"].any (fun suffix => suffix.toList.isSuffixOf f.toList) ||
      f = "govai_product_equivalent_required"

/-- The axes that only GovAI can prove: `apiAxes` and the lists `govai`. -/
def govaiAxes : List String :=
  ["govai_registered", "native_route_available", "native_tested", "native_live_accepted",
    "governed_applicable", "governed_route_available", "governed_tested", "governed_live_accepted",
    "ui_exposed", "ui_tested", "ui_live_accepted", "evidence_wired", "exact_turn_evidence_correlation",
    "persistence_supported", "resume_supported", "fork_supported"]

/-! ## Findings -/

/-- The repairability class of a finding. -/
inductive FindingCode where
  | invalid | rowOrder | keyOrder
deriving DecidableEq

/-- A part of a message. -/
inductive MessagePart where
  /-- A text of the source. -/
  | text (s : String)
  /-- `String(v)`; `none` is `undefined`. -/
  | string (v : Option JsonValue)
  /-- `where()`, the row. -/
  | place

/-- A finding. -/
structure ParityFinding where
  /-- The repairability class. -/
  code : FindingCode
  /-- The parts of the message. -/
  message : List MessagePart

/-- The message is pushed if the condition holds. -/
def report (condition : Bool) (message : List MessagePart) : List (List MessagePart) :=
  if condition then [message] else []

/-- A message that begins with the row. -/
def located (s : String) : List MessagePart := [.place, .text s]

/-! ## Values -/

/-- The value is this string. -/
def isText (v : Option JsonValue) (s : String) : Bool :=
  match v with
  | some (.str t) => t = jsString s
  | _ => false

/-- The value is this integer. -/
def isInteger (v : Option JsonValue) (n : ℤ) : Bool :=
  match v with
  | some (.num x) => x.1 = .int n
  | _ => false

/-- `isBool`. -/
def isBoolean (v : Option JsonValue) : Bool :=
  match v with
  | some (.bool _) => true
  | _ => false

/-- The value is `true`. -/
def isTrue (v : Option JsonValue) : Bool :=
  match v with
  | some (.bool true) => true
  | _ => false

/-- The value is `null`. -/
def isNull (v : Option JsonValue) : Bool :=
  match v with
  | some .null => true
  | _ => false

/-- The value is a string. -/
def isStringValue (v : Option JsonValue) : Bool :=
  match v with
  | some (.str _) => true
  | _ => false

/-- The value is a string that is not empty. -/
def isNonempty (v : Option JsonValue) : Bool :=
  match v with
  | some (.str s) => s ≠ []
  | _ => false

/-- The value is a string with this property. -/
def isStringWith (p : JsString → Bool) (v : Option JsonValue) : Bool :=
  match v with
  | some (.str s) => p s
  | _ => false

/-- `===` of values at different places of a parsed text: objects and arrays are not identical. -/
def strictEqual : Option JsonValue → Option JsonValue → Bool
  | none, none => true
  | some .null, some .null => true
  | some (.bool b), some (.bool c) => b = c
  | some (.num x), some (.num y) => x = y
  | some (.str s), some (.str t) => s = t
  | _, _ => false

/-- `oneOf`: the member of a vocabulary that the value is. -/
def oneOf {α : Type} (text : α → String) (vocab : List α) (v : Option JsonValue) : Option α :=
  vocab.find? fun a => isText v (text a)

/-- `Object.keys` of an object or an array. -/
def objectKeys : JsonValue → List JsString
  | .obj props => props.map (·.1)
  | .arr items => (List.range items.length).map fun i => jsString (toString i)
  | _ => []

/-! ## Texts -/

/-- A small letter or a digit. -/
def isLowerAlphanumeric (u : UInt16) : Bool := isDigitUnit u || (97 ≤ u.toNat && u.toNat ≤ 122)

/-- `CAPABILITY_ID_RE`. -/
def isCapabilityId (s : JsString) : Bool :=
  (s.splitOn (asciiUnit '-')).all fun segment => segment ≠ [] && segment.all isLowerAlphanumeric

/-- `SHA_RE`. -/
def isSha (s : JsString) : Bool :=
  s.length = 40 && s.all fun u => isDigitUnit u || (97 ≤ u.toNat && u.toNat ≤ 102)

/-- `isCalendarDate`.  `Date.UTC` carries a month or a day that is out of range into the next unit and
takes the years below 100 for years of the twentieth century, so the components come back exactly for
the dates of the calendar from the year 100 on. -/
def isCalendarDate (s : JsString) : Bool :=
  match (do
    let (year, s) ← readDigits 4 s
    let (month, s) ← readField '-' 2 s
    let (day, s) ← readField '-' 2 s
    if s = [] then some (year, month, day) else none) with
  | some (year, month, day) =>
    100 ≤ year && 1 ≤ month && 1 ≤ day && day ≤ ((Gregorian.monthLengths year)[month - 1]?).getD 0
  | none => false

/-- `HOST_LABEL_RE`. -/
def isHostLabel (s : JsString) : Bool :=
  let edge (u : UInt16) : Bool := isLowerAlphanumeric u || (65 ≤ u.toNat && u.toNat ≤ 90)
  s ≠ [] && s.all (fun u => edge u || u = asciiUnit '-') && s.head?.all edge && s.getLast?.all edge

/-- What is read of a parsed URL. -/
structure ParsedUrl where
  /-- The scheme with its colon. -/
  protocol : JsString
  /-- The host without its port. -/
  hostname : JsString
  /-- The path. -/
  pathname : JsString

/-- `FIRST_PARTY_SOURCE_HOSTS`. -/
def firstPartyHosts : ParityProvider → List String
  | .openai => ["developers.openai.com", "platform.openai.com", "openai.com", "help.openai.com",
      "chatgpt.com", "learn.chatgpt.com"]
  | .anthropic => ["platform.claude.com", "docs.anthropic.com", "docs.claude.com", "anthropic.com",
      "claude.com", "support.anthropic.com", "support.claude.com", "code.claude.com"]

/-- `SHARED_HOST_ORG_PREFIXES`: both shared hosts have the same prefix for a provider. -/
def sharedHostPath (provider : ParityProvider) (hostname : JsString) : Option JsString :=
  if hostname = jsString "github.com" ∨ hostname = jsString "raw.githubusercontent.com" then
    some (jsString (match provider with | .openai => "/openai/" | .anthropic => "/anthropics/"))
  else none

/-- `isFirstPartySource`. -/
def isFirstPartySource (u : ParsedUrl) (provider : ParityProvider) : Bool :=
  (firstPartyHosts provider).any (fun host => u.hostname = jsString host) ||
    (sharedHostPath provider u.hostname).any fun path => path.isPrefixOf u.pathname

/-- `isHttpsUrl`; `parseUrl` is the constructor `URL`, `none` where it throws. -/
def isHttpsUrl (parseUrl : JsString → Option ParsedUrl) (v : JsString) (provider : ParityProvider) :
    Bool :=
  match parseUrl v with
  | some u =>
    let labels := u.hostname.splitOn (asciiUnit '.')
    u.protocol = jsString "https:" && 2 ≤ labels.length && labels.all isHostLabel &&
      isFirstPartySource u provider
  | none => false

/-! ## The checks of a row -/

section Row

variable (parseUrl : JsString → Option ParsedUrl)

/-- The key `surface/capability_id` under which a row is remembered. -/
def rowKey (field : String → Option JsonValue) : Option JsString :=
  match oneOf Surface.text surfaces (field "surface"), field "capability_id" with
  | some surface, some (.str id) =>
    if isCapabilityId id then some (jsString surface.text ++ (asciiUnit '/' :: id)) else none
  | _, _ => none

/-- Axis coherence; `b` says which axes are set. -/
def axisIssues (b : String → Bool) : List (List MessagePart) :=
  report (b "native_route_available" && !b "provider_exposed")
    (located ": native_route_available requires provider_exposed (a route to a capability the provider does not expose is a fiction)") ++
  report ((b "native_tested" || b "native_live_accepted") && !b "native_route_available")
    (located ": native_tested/live_accepted require native_route_available") ++
  report ((b "governed_route_available" || b "governed_tested" || b "governed_live_accepted") &&
      !b "governed_applicable")
    (located ": governed_* axes require governed_applicable") ++
  report ((b "governed_tested" || b "governed_live_accepted") && !b "governed_route_available")
    (located ": governed_tested/live_accepted require governed_route_available") ++
  report ((b "ui_tested" || b "ui_live_accepted") && !b "ui_exposed")
    (located ": ui_tested/live_accepted require ui_exposed") ++
  report (b "exact_turn_evidence_correlation" && !b "evidence_wired")
    (located ": exact_turn_evidence_correlation requires evidence_wired")

/-- The axes of GovAI that are set although `who` must not set them. -/
def forbiddenAxes (who : String) (b : String → Bool) : List (List MessagePart) :=
  govaiAxes.flatMap fun f => report (b f) (located (": " ++ who ++ " rows must not set " ++ f))

/-- Product-only rows and app surfaces belong together. -/
def appIssues (surface : Surface) (cls : ParityClass) (official : Option JsonValue)
    (b : String → Bool) : List (List MessagePart) :=
  if surface.isApp then
    report (cls ≠ .productOnly) (located ": app-surface rows must classify PRODUCT_ONLY") ++
    report (!isText official "PRODUCT_ONLY")
      (located ": app-surface rows must carry official_status PRODUCT_ONLY") ++
    report (b "provider_exposed")
      (located ": app-surface rows must not claim provider_exposed (API) status") ++
    forbiddenAxes "app-surface" b
  else
    report (cls = .productOnly)
      (located ": PRODUCT_ONLY classification is reserved for app surfaces") ++
    report (isText official "PRODUCT_ONLY")
      (located ": official_status PRODUCT_ONLY is reserved for app surfaces")

/-- The truth rules of the classifications. -/
def classificationIssues (cls : ParityClass) (b : String → Bool) : List (List MessagePart) :=
  (if cls = .full then
    (["provider_exposed", "govai_registered", "native_route_available", "native_tested",
      "native_live_accepted", "ui_exposed", "ui_tested", "ui_live_accepted",
      "evidence_wired"].flatMap fun f => report (!b f) (located (": FULL requires " ++ f ++ "=true"))) ++
    report (b "governed_applicable" &&
        !(b "governed_route_available" && b "governed_tested" && b "governed_live_accepted"))
      (located ": FULL with governed_applicable requires the governed axes proven")
  else []) ++
  report (cls = .missing && !b "provider_exposed")
    (located ": MISSING requires provider_exposed=true (a capability the provider does not expose is PROVIDER_NOT_EXPOSED, not MISSING)") ++
  (if cls = .missing then forbiddenAxes "MISSING" b else []) ++
  (if cls = .providerNotExposed then
    report (b "provider_exposed")
      (located ": PROVIDER_NOT_EXPOSED contradicts provider_exposed=true") ++
    forbiddenAxes "PROVIDER_NOT_EXPOSED" b
  else []) ++
  report ((cls = .full || cls = .partially || cls = .blockedByGovai) && !b "provider_exposed")
    (located (": " ++ cls.text ++ " requires provider_exposed=true")) ++
  report (cls = .partially && !b "native_route_available")
    (located ": PARTIAL requires native_route_available (a GovAI path must exist)") ++
  report (cls = .notApplicable && !b "provider_exposed")
    (located ": NOT_APPLICABLE requires provider_exposed=true (a provider-unexposed capability is PROVIDER_NOT_EXPOSED)") ++
  (if cls = .notApplicable then forbiddenAxes "NOT_APPLICABLE" b else []) ++
  report (cls = .blockedByGovai && !(b "govai_registered" && b "native_route_available"))
    (located ": BLOCKED_BY_GOVAI requires govai_registered and native_route_available (blocking needs a path to intercept)")

/-- The checks between the classification and the axes; `snap` is the date of the snapshot. -/
def valueIssues (snap : Option JsonValue) (surface : Surface) (field : String → Option JsonValue) :
    List (List MessagePart) :=
  report (oneOf id sourceTypes (field "source_type")).isNone
    [.place, .text ": invalid source_type ", .string (field "source_type")] ++
  report (!isStringWith (fun s => isHttpsUrl parseUrl s surface.provider) (field "official_source"))
    (located ": official_source must be a parseable FIRST-PARTY https URL owned by THIS row's provider (shared hosts need that provider's org path)") ++
  report (!strictEqual (field "verified_at") snap)
    (located ": verified_at must equal research_snapshot_date (single-snapshot semantics)") ++
  report (!isNull (field "model_constraints") && !isStringValue (field "model_constraints"))
    (located ": model_constraints must be string or null") ++
  (if isNull (field "protocol_stability") then []
  else if (oneOf id protocolStabilities (field "protocol_stability")).isNone then
    [[.place, .text ": invalid protocol_stability ", .string (field "protocol_stability")]]
  else report (surface ≠ .codex)
    (located ": protocol_stability is only meaningful on the CODEX surface")) ++
  report (!isNull (field "risk_class_if_known") &&
      (oneOf id parityRiskClasses (field "risk_class_if_known")).isNone)
    [.place, .text ": invalid risk_class_if_known ", .string (field "risk_class_if_known")] ++
  boolFields.flatMap fun f => report (!isBoolean (field f)) (located (": " ++ f ++ " must be boolean"))

/-- The check of the capability id; `seen` says whether an earlier row has the same key. -/
def idIssues (seen : Bool) (field : String → Option JsonValue) : List (List MessagePart) :=
  match rowKey field with
  | none => [located ": capability_id must be kebab-case"]
  | some key => report seen [.text "duplicate capability id: ", .string (some (.str key))]

/-- The checks of a row after that of its keys. -/
def rowIssues (snap : Option JsonValue) (seen : Bool) (field : String → Option JsonValue) :
    List (List MessagePart) :=
  match oneOf Surface.text surfaces (field "surface") with
  | none => [[.place, .text ": invalid surface ", .string (field "surface")]]
  | some surface =>
    report (!isText (field "provider") surface.provider.text)
      (located (": provider must be " ++ surface.provider.text ++ " for surface " ++ surface.text)) ++
    idIssues seen field ++
    (["family", "capability_name"].flatMap fun f =>
      report (!isNonempty (field f)) (located (": " ++ f ++ " must be a non-empty string"))) ++
    report (!isStringValue (field "notes")) (located ": notes must be a string") ++
    report (oneOf id officialStatuses (field "official_status")).isNone
      [.place, .text ": invalid official_status ", .string (field "official_status")] ++
    match oneOf ParityClass.text parityClasses (field "classification") with
    | none => [[.place, .text ": invalid classification ", .string (field "classification")]]
    | some cls =>
      valueIssues parseUrl snap surface field ++
      if boolFields.any fun f => !isBoolean (field f) then []
      else
        axisIssues (fun f => isTrue (field f)) ++
        appIssues surface cls (field "official_status") (fun f => isTrue (field f)) ++
        classificationIssues cls (fun f => isTrue (field f))

/-- The check of the keys of a row: their set, then their order. -/
def rowKeyFindings (row : JsonValue) : List ParityFinding :=
  let keys := objectKeys row
  let missing := rowFields.filter fun f => !keys.contains (jsString f)
  let extra := keys.filter fun k => !(rowFields.map jsString).contains k
  if missing ≠ [] ∨ extra ≠ [] ∨ keys.length ≠ rowFields.length then
    [⟨.invalid, [.place, .text ": keys must be exactly the 32 schema fields"] ++
      (if missing ≠ [] then [.text (" (missing: " ++ ", ".intercalate missing ++ ")")] else []) ++
      (if extra ≠ [] then
        .text " (unknown: " :: (extra.map fun k => .string (some (.str k))).intersperse (.text ", ") ++
          [.text ")"]
      else [])⟩]
  else if keys ≠ rowFields.map jsString then
    [⟨.keyOrder, located ": keys out of canonical order — run `pnpm docs:parity:format`"⟩]
  else []

/-- `where()`. -/
def rowPlace (row : JsonValue) (i : ℕ) : List MessagePart :=
  match row.get "capability_id" with
  | some (.str id) => [.string (row.get "surface"), .text "/", .string (some (.str id))]
  | _ => [.text s!"row[{i}]"]

/-- The finding with its row put in. -/
def ParityFinding.inRow (place : List MessagePart) (f : ParityFinding) : ParityFinding :=
  { f with message := f.message.flatMap fun part =>
      match part with
      | .place => place
      | _ => [part] }

/-- The findings of the row with index `i`. -/
def rowFindings (snap : Option JsonValue) (i : ℕ) (seen : Bool) (row : JsonValue) :
    List ParityFinding :=
  match row with
  | .obj _ | .arr _ =>
    (rowKeyFindings row ++ (rowIssues parseUrl snap seen row.get).map (ParityFinding.mk .invalid)).map
      (ParityFinding.inRow (rowPlace row i))
  | _ => [⟨.invalid, [.text s!"row[{i}] must be an object"]⟩]

/-- The findings of all rows; `seen` are the keys of the rows before. -/
def rowsFindings (snap : Option JsonValue) : ℕ → List JsString → List JsonValue → List ParityFinding
  | _, _, [] => []
  | i, seen, row :: rest =>
    rowFindings parseUrl snap i ((rowKey row.get).any fun key => seen.contains key) row ++
      rowsFindings snap (i + 1) ((rowKey row.get).toList ++ seen) rest

end Row

/-! ## The order of rows -/

mutual

/-- `String(v)`. -/
def stringOf : JsonValue → JsString
  | .null => jsString "null"
  | .bool b => jsString (if b then "true" else "false")
  | .num x => textUnits (numberText x.1)
  | .str s => s
  | .arr items => List.intercalate (jsString ",") (stringOfItems items)
  | .obj _ => jsString "[object Object]"

/-- The items of an array as `join` prints them: `null` is left out. -/
def stringOfItems : List JsonValue → List JsString
  | [] => []
  | v :: rest => (match v with | .null => [] | v => stringOf v) :: stringOfItems rest

end

/-- `String(v)` of a property. -/
def stringOfProperty : Option JsonValue → JsString
  | none => jsString "undefined"
  | some v => stringOf v

mutual

/-- `String(v)` throws a `TypeError`: an own `toString` of a parsed object is no function. -/
def stringThrows : JsonValue → Bool
  | .arr items => stringThrowsItems items
  | .obj props => props.any fun p => p.1 = jsString "toString"
  | _ => false

/-- `String(v)` throws for an item. -/
def stringThrowsItems : List JsonValue → Bool
  | [] => false
  | v :: rest => stringThrows v || stringThrowsItems rest

end

/-- The message of the finding cannot be put together. -/
def ParityFinding.throws (f : ParityFinding) : Bool :=
  f.message.any fun part =>
    match part with
    | .string (some v) => stringThrows v
    | _ => false

/-- `order.get(surface) ?? 99`. -/
def surfaceRank (surface : JsString) : ℕ :=
  match surfaces.findIdx? fun s => jsString s.text = surface with
  | some i => i
  | none => 99

/-- The comparison of strings by `>`. -/
def unitsAfter (s t : JsString) : Bool := !keyLe s t

/-- The two neighbours are out of canonical order. -/
def outOfOrder (a c : JsonValue) : Bool :=
  let sa := surfaceRank (stringOfProperty (a.get "surface"))
  let sc := surfaceRank (stringOfProperty (c.get "surface"))
  let fa := stringOfProperty (a.get "family")
  let fc := stringOfProperty (c.get "family")
  let ia := stringOfProperty (a.get "capability_id")
  let ic := stringOfProperty (c.get "capability_id")
  sc < sa || (sa = sc && (unitsAfter fa fc || (fa = fc && !unitsAfter ic ia)))

/-- The finding of the first neighbours that are out of order; `i` is the index of the second. -/
def orderFindings : ℕ → List JsonValue → List ParityFinding
  | i, a :: c :: rest =>
    if outOfOrder a c then
      [⟨.rowOrder, [.text s!"rows out of canonical order at index {i}: ",
        .string (c.get "surface"), .text "/", .string (c.get "capability_id"),
        .text " must sort by (surface, family, capability_id) — run `pnpm docs:parity:format`"]⟩]
    else orderFindings (i + 1) (c :: rest)
  | _, _ => []

/-- `String` throws for a field of two neighbours that are compared. -/
def comparisonThrows : List JsonValue → Bool
  | a :: c :: rest =>
    ([a, c].any fun row =>
      ["surface", "family", "capability_id"].any fun f => (row.get f).any stringThrows) ||
    (!outOfOrder a c && comparisonThrows (c :: rest))
  | _ => false

/-- The value is an object. -/
def isObject : JsonValue → Bool
  | .obj _ => true
  | _ => false

/-! ## The manifest -/

/-- The checks of the root apart from those of the rows. -/
def rootIssues (man : JsonValue) : List (List MessagePart) :=
  let unknownRoot := (objectKeys man).filter fun k => !(rootFields.map jsString).contains k
  report (unknownRoot ≠ [])
    (.text "unknown root keys (formatting would delete them): " ::
      (unknownRoot.map fun k => .string (some (.str k))).intersperse (.text ", ")) ++
  report (!isInteger (man.get "schema_version") 1) [.text "schema_version must be 1"] ++
  report (!isText (man.get "name") "native-experience-parity-v1")
    [.text "name must be \"native-experience-parity-v1\""] ++
  report (!isStringWith isCalendarDate (man.get "research_snapshot_date"))
    [.text "research_snapshot_date must be a real YYYY-MM-DD calendar date"] ++
  report (!isStringWith isSha (man.get "source_anchor"))
    [.text "source_anchor must be a 40-hex commit sha"] ++
  ["description", "verify", "doc"].flatMap fun f =>
    report (!isNonempty (man.get f)) [.text (f ++ " must be a non-empty string")]

/-- The findings of a manifest whose values `String` converts. -/
def parityFindings (parseUrl : JsString → Option ParsedUrl) (m : JsonValue) : List ParityFinding :=
  if isObject m then
    (rootIssues m).map (ParityFinding.mk .invalid) ++
    match m.get "capabilities" with
    | some (.arr caps) =>
      (report (!isInteger (m.get "capability_count") caps.length)
        [.text "capability_count (", .string (m.get "capability_count"),
          .text s!") != capabilities.length ({caps.length})"]).map (ParityFinding.mk .invalid) ++
      rowsFindings parseUrl (m.get "research_snapshot_date") 0 [] caps ++
      if caps.all isObject then orderFindings 1 caps else []
    | _ => [⟨.invalid, [.text "capabilities must be an array"]⟩]
  else [⟨.invalid, [.text "manifest root must be a JSON object"]⟩]

/-- The rows of a manifest that are compared. -/
def comparedRows (m : JsonValue) : List JsonValue :=
  match m.get "capabilities" with
  | some (.arr caps) => if caps.all isObject then caps else []
  | _ => []

/-- `validateParityManifestFindings`. -/
def validateParityManifestFindings (parseUrl : JsString → Option ParsedUrl) (m : JsonValue) :
    Except String (List ParityFinding) :=
  if (parityFindings parseUrl m).any ParityFinding.throws || comparisonThrows (comparedRows m) then
    .error "Cannot convert object to primitive value"
  else .ok (parityFindings parseUrl m)

end GovAI
