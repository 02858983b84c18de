import GovAI.Json.RoundTrip
import GovAI.Workroom.Schema

/-!
# Execution intents

The projections `buildStandaloneRunIntent` and `buildWorkroomRunIntent` of
`apps/api/src/pipeline/run-idempotency.ts`.  A committed key is replayed to a request with the same
intent hash and answered with a conflict otherwise, so the canonical text of an intent has to tell
apart exactly the requests that mean different executions.
-/

namespace GovAI

/-! ## Inputs -/

/-- A hexadecimal digit of either case, or a hyphen. -/
def isUuidUnit (u : UInt16) : Bool :=
  48 ≤ u && u ≤ 57 || 65 ≤ u && u ≤ 70 || 97 ≤ u && u ≤ 102 || u = 45

/-- A UUID as the client or the database spells it. -/
abbrev UuidSpelling := {s : JsString // ∀ u ∈ s, isUuidUnit u}

/-- `String.prototype.toLowerCase` on ASCII. -/
def toLowerCase (s : JsString) : JsString := s.map fun u => if 65 ≤ u && u ≤ 90 then u + 32 else u

/-- An object of a parsed request body. -/
abbrev JsonObject := {props : List (JsString × JsonValue) // (JsonValue.obj props).Distinct}

/-- The input of `buildStandaloneRunIntent`. -/
structure StandaloneIntentInput where
  actorUserId : UuidSpelling
  workspaceId : UuidSpelling
  capability : JsString
  model : JsString
  input : JsString
  resolvedMode : RunMode
  metadata : Option JsonObject

/-- The input of `buildWorkroomRunIntent`. -/
structure WorkroomIntentInput where
  actorUserId : UuidSpelling
  createdByParticipantId : UuidSpelling
  workroomId : UuidSpelling
  workroomTaskId : Option UuidSpelling
  workroomGovernanceMode : GovernanceMode
  workspaceId : UuidSpelling
  capability : JsString
  model : JsString
  input : JsString
  resolvedMode : RunMode
  metadata : Option JsonObject
  effectiveApprovalRequestId : Option UuidSpelling

/-! ## The builders -/

/-- The text of a run's mode. -/
def RunMode.text : RunMode → String
  | .governed => "governed"
  | .passthrough => "passthrough"

/-- The text of a workroom's governance mode. -/
def GovernanceMode.text : GovernanceMode → String
  | .governanceActive => "governance_active"
  | .auditOnly => "audit_only"

/-- `canonicalUuid`. -/
def canonicalUuid (v : UuidSpelling) : JsonValue := .str (toLowerCase v.1)

/-- `canonicalUuidOrNull`. -/
def canonicalUuidOrNull : Option UuidSpelling → JsonValue
  | none => .null
  | some v => canonicalUuid v

/-- `input.metadata ?? {}`. -/
def metadataOrEmpty (metadata : Option JsonObject) : JsonValue :=
  .obj ((metadata.map Subtype.val).getD [])

/-- The properties of a standalone intent. -/
def standaloneIntentProps (input : StandaloneIntentInput) : List (JsString × JsonValue) :=
  [(jsString "contract", .text "govai.run_execution_intent.v1"),
    (jsString "route_scope", .text "standalone"),
    (jsString "actor_user_id", canonicalUuid input.actorUserId),
    (jsString "workspace_id", canonicalUuid input.workspaceId),
    (jsString "capability", .str input.capability),
    (jsString "model", .str input.model),
    (jsString "input", .str input.input),
    (jsString "resolved_mode", .text input.resolvedMode.text),
    (jsString "metadata", metadataOrEmpty input.metadata)]

/-- `buildStandaloneRunIntent`. -/
def buildStandaloneRunIntent (input : StandaloneIntentInput) : JsonValue :=
  .obj (standaloneIntentProps input)

/-- The properties of a workroom intent. -/
def workroomIntentProps (input : WorkroomIntentInput) : List (JsString × JsonValue) :=
  [(jsString "contract", .text "govai.run_execution_intent.v1"),
    (jsString "route_scope", .text "workroom"),
    (jsString "actor_user_id", canonicalUuid input.actorUserId),
    (jsString "created_by_participant_id", canonicalUuid input.createdByParticipantId),
    (jsString "workroom_id", canonicalUuid input.workroomId),
    (jsString "workroom_task_id", canonicalUuidOrNull input.workroomTaskId),
    (jsString "workroom_governance_mode", .text input.workroomGovernanceMode.text),
    (jsString "workspace_id", canonicalUuid input.workspaceId),
    (jsString "capability", .str input.capability),
    (jsString "model", .str input.model),
    (jsString "input", .str input.input),
    (jsString "resolved_mode", .text input.resolvedMode.text),
    (jsString "metadata", metadataOrEmpty input.metadata),
    (jsString "effective_approval_request_id",
      canonicalUuidOrNull input.effectiveApprovalRequestId)]

/-- `buildWorkroomRunIntent`. -/
def buildWorkroomRunIntent (input : WorkroomIntentInput) : JsonValue :=
  .obj (workroomIntentProps input)

/-- The input of either builder, by the route it belongs to. -/
inductive IntentInput where
  | standalone (input : StandaloneIntentInput)
  | workroom (input : WorkroomIntentInput)

/-- The intent of a request, by its route. -/
def IntentInput.intent : IntentInput → JsonValue
  | .standalone input => buildStandaloneRunIntent input
  | .workroom input => buildWorkroomRunIntent input

/-! ## Agreement -/

/-- Equality of UUIDs up to the case of their digits. -/
def SameUuid (v w : UuidSpelling) : Prop := toLowerCase v.1 = toLowerCase w.1

/-- Equality of optional UUIDs up to the case of their digits. -/
def SameUuidOrNull (v w : Option UuidSpelling) : Prop :=
  v.map (toLowerCase ·.1) = w.map (toLowerCase ·.1)

/-- Equality of metadata up to the order of keys, omitted metadata standing for `{}`. -/
def SameMetadata (m m' : Option JsonObject) : Prop :=
  (metadataOrEmpty m).Same (metadataOrEmpty m')

/-- The requests agree on every projected field of a standalone intent. -/
structure StandaloneIntentInput.Agrees (x y : StandaloneIntentInput) : Prop where
  actorUserId : SameUuid x.actorUserId y.actorUserId
  workspaceId : SameUuid x.workspaceId y.workspaceId
  capability : x.capability = y.capability
  model : x.model = y.model
  input : x.input = y.input
  resolvedMode : x.resolvedMode = y.resolvedMode
  metadata : SameMetadata x.metadata y.metadata

/-- The requests agree on every projected field of a workroom intent. -/
structure WorkroomIntentInput.Agrees (x y : WorkroomIntentInput) : Prop where
  actorUserId : SameUuid x.actorUserId y.actorUserId
  createdByParticipantId : SameUuid x.createdByParticipantId y.createdByParticipantId
  workroomId : SameUuid x.workroomId y.workroomId
  workroomTaskId : SameUuidOrNull x.workroomTaskId y.workroomTaskId
  workroomGovernanceMode : x.workroomGovernanceMode = y.workroomGovernanceMode
  workspaceId : SameUuid x.workspaceId y.workspaceId
  capability : x.capability = y.capability
  model : x.model = y.model
  input : x.input = y.input
  resolvedMode : x.resolvedMode = y.resolvedMode
  metadata : SameMetadata x.metadata y.metadata
  effectiveApprovalRequestId :
    SameUuidOrNull x.effectiveApprovalRequestId y.effectiveApprovalRequestId

/-- The requests agree on the route scope and on every projected field. -/
def IntentInput.Agrees : IntentInput → IntentInput → Prop
  | .standalone x, .standalone y => x.Agrees y
  | .workroom x, .workroom y => x.Agrees y
  | _, _ => False

/-! ## Canonical texts -/

/-- The text of a mode determines the mode. -/
lemma RunMode.text_same {m m' : RunMode} :
    (JsonValue.text m.text).Same (.text m'.text) ↔ m = m' := by
  cases m <;> cases m' <;> simp [JsonValue.text, JsonValue.Same] <;> decide

/-- The text of a governance mode determines the mode. -/
lemma GovernanceMode.text_same {m m' : GovernanceMode} :
    (JsonValue.text m.text).Same (.text m'.text) ↔ m = m' := by
  cases m <;> cases m' <;> simp [JsonValue.text, JsonValue.Same] <;> decide

/-- Canonical UUIDs are the same when the UUIDs are, up to case. -/
lemma canonicalUuid_same {v w : UuidSpelling} :
    (canonicalUuid v).Same (canonicalUuid w) ↔ SameUuid v w := by
  simp [canonicalUuid, JsonValue.Same, SameUuid]

/-- The same for UUIDs that may be absent. -/
lemma canonicalUuidOrNull_same {v w : Option UuidSpelling} :
    (canonicalUuidOrNull v).Same (canonicalUuidOrNull w) ↔ SameUuidOrNull v w := by
  cases v <;> cases w <;>
    simp [canonicalUuidOrNull, canonicalUuid, JsonValue.Same, SameUuidOrNull]

/-- Metadata has distinct keys. -/
lemma metadataOrEmpty_distinct (metadata : Option JsonObject) :
    (metadataOrEmpty metadata).Distinct := by
  cases metadata with
  | none => exact ⟨List.nodup_nil, trivial⟩
  | some m => exact m.2

/-- The keys of a standalone intent. -/
def standaloneIntentKeys : List JsString :=
  ["contract", "route_scope", "actor_user_id", "workspace_id", "capability", "model", "input",
    "resolved_mode", "metadata"].map jsString

/-- The keys of a workroom intent. -/
def workroomIntentKeys : List JsString :=
  ["contract", "route_scope", "actor_user_id", "created_by_participant_id", "workroom_id",
    "workroom_task_id", "workroom_governance_mode", "workspace_id", "capability", "model", "input",
    "resolved_mode", "metadata", "effective_approval_request_id"].map jsString

lemma standaloneIntentKeys_nodup : standaloneIntentKeys.Nodup := by decide +kernel

lemma workroomIntentKeys_nodup : workroomIntentKeys.Nodup := by decide +kernel

/-- An intent has distinct keys at every depth. -/
lemma IntentInput.intent_distinct (x : IntentInput) : x.intent.Distinct := by
  cases x with
  | standalone x =>
    refine ⟨standaloneIntentKeys_nodup, ?_⟩
    simp [standaloneIntentProps, JsonValue.Distinct, JsonValue.text, canonicalUuid,
      metadataOrEmpty_distinct]
  | workroom x =>
    have hnull : ∀ v, (canonicalUuidOrNull v).Distinct := by
      intro v
      cases v <;> trivial
    refine ⟨workroomIntentKeys_nodup, ?_⟩
    simp [workroomIntentProps, JsonValue.Distinct, JsonValue.text, canonicalUuid,
      metadataOrEmpty_distinct, hnull]

/-- Standalone intents are the same when the requests agree. -/
lemma buildStandaloneRunIntent_same {x y : StandaloneIntentInput} :
    (buildStandaloneRunIntent x).Same (buildStandaloneRunIntent y) ↔ x.Agrees y := by
  have hkeys : ((standaloneIntentProps x).map (·.1)).Nodup := standaloneIntentKeys_nodup
  have heq : (standaloneIntentProps x).map (·.1) = (standaloneIntentProps y).map (·.1) := rfl
  rw [buildStandaloneRunIntent, buildStandaloneRunIntent, JsonValue.same_obj_iff heq hkeys]
  simp only [standaloneIntentProps, List.forall₂_cons, List.forall₂_nil_left_iff,
    canonicalUuid_same, RunMode.text_same]
  constructor
  · rintro ⟨-, -, h₁, h₂, h₃, h₄, h₅, h₆, h₇, -⟩
    exact ⟨h₁, h₂, by simpa [JsonValue.Same] using h₃, by simpa [JsonValue.Same] using h₄,
      by simpa [JsonValue.Same] using h₅, h₆, h₇⟩
  · rintro ⟨h₁, h₂, h₃, h₄, h₅, h₆, h₇⟩
    exact ⟨by simp [JsonValue.text, JsonValue.Same], by simp [JsonValue.text, JsonValue.Same],
      h₁, h₂, by simp [JsonValue.Same, h₃], by simp [JsonValue.Same, h₄],
      by simp [JsonValue.Same, h₅], h₆, h₇, trivial⟩

/-- Workroom intents are the same when the requests agree. -/
lemma buildWorkroomRunIntent_same {x y : WorkroomIntentInput} :
    (buildWorkroomRunIntent x).Same (buildWorkroomRunIntent y) ↔ x.Agrees y := by
  have hkeys : ((workroomIntentProps x).map (·.1)).Nodup := workroomIntentKeys_nodup
  have heq : (workroomIntentProps x).map (·.1) = (workroomIntentProps y).map (·.1) := rfl
  rw [buildWorkroomRunIntent, buildWorkroomRunIntent, JsonValue.same_obj_iff heq hkeys]
  simp only [workroomIntentProps, List.forall₂_cons, List.forall₂_nil_left_iff,
    canonicalUuid_same, canonicalUuidOrNull_same, RunMode.text_same, GovernanceMode.text_same]
  constructor
  · rintro ⟨-, -, h₁, h₂, h₃, h₄, h₅, h₆, h₇, h₈, h₉, h₁₀, h₁₁, h₁₂, -⟩
    exact ⟨h₁, h₂, h₃, h₄, h₅, h₆, by simpa [JsonValue.Same] using h₇,
      by simpa [JsonValue.Same] using h₈, by simpa [JsonValue.Same] using h₉, h₁₀, h₁₁, h₁₂⟩
  · rintro ⟨h₁, h₂, h₃, h₄, h₅, h₆, h₇, h₈, h₉, h₁₀, h₁₁, h₁₂⟩
    exact ⟨by simp [JsonValue.text, JsonValue.Same], by simp [JsonValue.text, JsonValue.Same],
      h₁, h₂, h₃, h₄, h₅, h₆, by simp [JsonValue.Same, h₇], by simp [JsonValue.Same, h₈],
      by simp [JsonValue.Same, h₉], h₁₀, h₁₁, h₁₂, trivial⟩

/-- **Intents are the same exactly when the requests agree**; the two routes never meet. -/
lemma IntentInput.intent_same {x y : IntentInput} : x.intent.Same y.intent ↔ x.Agrees y := by
  cases x with
  | standalone x =>
    cases y with
    | standalone y => exact buildStandaloneRunIntent_same
    | workroom y =>
      simp [intent, buildStandaloneRunIntent, buildWorkroomRunIntent, JsonValue.Same, Agrees,
        standaloneIntentProps, workroomIntentProps]
  | workroom x =>
    cases y with
    | workroom y => exact buildWorkroomRunIntent_same
    | standalone y =>
      simp [intent, buildStandaloneRunIntent, buildWorkroomRunIntent, JsonValue.Same, Agrees,
        standaloneIntentProps, workroomIntentProps]

/-- A JSON value as JavaScript can hold it: the keys of every object are distinct. -/
abbrev JsonDocument := {v : JsonValue // v.Distinct}

end GovAI
