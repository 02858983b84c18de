import GovAI.Paging.NextCursor
import GovAI.Regulatory.Schema

/-!
# The lists of the regulatory registers

The lists of `regulatory/service.ts`.  Each of them is `regulatoryList` with its own columns: those that a
filter of the same name must equal, those that a filter bounds in time, and those in which `q` is looked
for.  Six of them list the children of a row that must be visible, and `listControls` looks into a second
table.  The tables are what row security shows to the tenant of the caller.
-/

namespace GovAI

/-! ## Rows and filters -/

/-- A value of a column or of a filter; a filter of a `uuid` is cast with `::uuid`. -/
inductive RegisterValue where
  | text (s : String)
  | uuid (u : Uuid)
  | flag (b : Bool)
  | time (t : ℤ)
deriving DecidableEq

/-- A row of a register, as far as a list reads it.  A column that is null has no value. -/
structure RegisterRow where
  id : Uuid
  createdAt : ℤ
  columns : List (String × RegisterValue)
deriving DecidableEq

instance : ListedRow RegisterRow where
  listedAt := RegisterRow.createdAt
  id := RegisterRow.id

/-- The value of a column. -/
def RegisterRow.get (r : RegisterRow) (column : String) : Option RegisterValue :=
  r.columns.lookup column

/-- `filters`: those that are not undefined. -/
structure RegisterFilters where
  values : List (String × RegisterValue) := []
  q : Option String := none

/-- The value of a filter. -/
def RegisterFilters.get (filters : RegisterFilters) (name : String) : Option RegisterValue :=
  filters.values.lookup name

/-- `LIKE`: `%` stands for any text, `_` for any character, and after a backslash a character stands for
itself. -/
def likeMatches : List Char → List Char → Bool
  | [], cs => cs.isEmpty
  | '%' :: ps, cs => cs.tails.any (likeMatches ps)
  | '_' :: ps, cs => !cs.isEmpty && likeMatches ps cs.tail
  | '\\' :: p :: ps, cs => cs.head? = some p && likeMatches ps cs.tail
  | p :: ps, cs => cs.head? = some p && likeMatches ps cs.tail

/-- `ILIKE`: both sides in the lower case of the database. -/
def ilikeMatches (lower : List Char → List Char) (pattern text : List Char) : Bool :=
  likeMatches (lower pattern) (lower text)

/-- The columns that a list looks at.  A list without the filter `q` has no columns for it. -/
structure ListColumns where
  eq : List String
  before : List (String × String) := []
  q : List String := []

/-- The condition of `eq` on one column. -/
def RegisterFilters.holdsEq (filters : RegisterFilters) (r : RegisterRow) (column : String) : Bool :=
  (filters.get column).all fun value => r.get column = some value

/-- `column IS NOT NULL AND column <= $n::timestamptz`. -/
def RegisterFilters.holdsBefore (filters : RegisterFilters) (r : RegisterRow)
    (bound : String × String) : Bool :=
  match filters.get bound.1 with
  | some (.time latest) =>
    match r.get bound.2 with
    | some (.time at?) => at? ≤ latest
    | _ => false
  | _ => true

/-- `(column ILIKE $n OR …)` with `%q%`. -/
def RegisterFilters.holdsSearch (lower : List Char → List Char) (filters : RegisterFilters)
    (r : RegisterRow) (columns : List String) : Bool :=
  columns.isEmpty || filters.q.all fun q => columns.any fun column =>
    match r.get column with
    | some (.text s) => ilikeMatches lower ('%' :: q.toList ++ ['%']) s.toList
    | _ => false

/-- The conditions of a list. -/
def ListColumns.selects (lower : List Char → List Char) (columns : ListColumns)
    (filters : RegisterFilters) (r : RegisterRow) : Bool :=
  columns.eq.all (filters.holdsEq r) && columns.before.all (filters.holdsBefore r) &&
    filters.holdsSearch lower r columns.q

/-- The rows of a page, and `nextCursor`. -/
abbrev ListResult := List RegisterRow × Option ListCursor

/-- A list of a register. -/
def registerList (columns : ListColumns) (lower : List Char → List Char)
    (table : ListedTable RegisterRow) (filters : RegisterFilters) (limit : ℕ+)
    (cursor : Option ListCursor) : ListResult :=
  regulatoryList table (columns.selects lower filters) limit cursor

/-- The conditions of a list of children: `column = $1::uuid` comes first. -/
def ListColumns.selectsChild (parentColumn : String) (columns : ListColumns)
    (lower : List Char → List Char) (parentId : Uuid) (filters : RegisterFilters) (r : RegisterRow) :
    Bool :=
  r.get parentColumn = some (.uuid parentId) && columns.selects lower filters r

/-- A list of the children of a row, which must be visible. -/
def registerChildren (parentColumn notFound : String) (columns : ListColumns)
    (lower : List Char → List Char) (parents table : ListedTable RegisterRow) (parentId : Uuid)
    (filters : RegisterFilters) (limit : ℕ+) (cursor : Option ListCursor) :
    Except RegulatoryFailure ListResult := do
  rejectIf (∀ parent ∈ parents.rows, parent.id ≠ parentId) (.regulatory 404 notFound)
  return regulatoryList table (columns.selectsChild parentColumn lower parentId filters) limit cursor

/-! ## Sources and controls -/

def listSources := registerList
  { eq := ["scope", "jurisdiction", "authority", "source_quality", "verification_status",
      "legal_status"]
    q := ["source_key", "title"] }

def listSourceVersions := registerChildren "source_id" "source_not_found" { eq := ["change_type"] }

/-- The columns of `listControls`. -/
def controlListColumns : ListColumns where
  eq := ["scope", "domain", "capability_type", "implementation_state", "build_decision"]
  q := ["control_key", "name"]

/-- The conditions of `listControls`: a control of a framework has a mapping to it. -/
def selectsControl (lower : List Char → List Char) (mappings : List RegisterRow)
    (filters : RegisterFilters) (r : RegisterRow) : Bool :=
  controlListColumns.selects lower filters r && (filters.get "framework_key").all fun key =>
    mappings.any fun m => m.get "control_id" = some (.uuid r.id) ∧ m.get "framework_key" = some key

def listControls (lower : List Char → List Char) (mappings : List RegisterRow)
    (table : ListedTable RegisterRow) (filters : RegisterFilters) (limit : ℕ+)
    (cursor : Option ListCursor) : ListResult :=
  regulatoryList table (selectsControl lower mappings filters) limit cursor

def listControlSourceLinks := registerChildren "control_id" "control_not_found" { eq := ["link_type"] }

def listFrameworkMappings := registerChildren "control_id" "control_not_found"
  { eq := ["framework_key", "mapping_status"] }

/-! ## Systems, providers, models and agents -/

def listAiSystems := registerList
  { eq := ["system_type", "lifecycle_state", "primary_jurisdiction", "deployment_environment"]
    q := ["system_key", "name", "description", "intended_purpose"] }

def listProviders := registerList
  { eq := ["provider_type", "provider_status", "deployment_model", "data_processing_role",
      "primary_jurisdiction", "security_review_status", "dpa_status"]
    q := ["provider_key", "name", "description", "contact_email"] }

def listModels := registerList
  { eq := ["model_type", "model_status", "provider_id", "primary_ai_system_id",
      "primary_jurisdiction"]
    q := ["model_key", "name", "description", "intended_use"] }

def listModelVersions := registerChildren "model_id" "model_not_found"
  { eq := ["version_status"]
    q := ["version_key", "version_label", "provider_model_name", "provider_model_version",
      "release_notes"] }

def listAiSystemModelLinks := registerList
  { eq := ["ai_system_id", "model_id", "model_version_id", "link_status", "usage_role",
      "deployment_environment"] }

def listAgents := registerList
  { eq := ["agent_type", "agent_status", "autonomy_level", "execution_boundary", "provider_id",
      "primary_ai_system_id", "primary_model_id", "primary_jurisdiction"]
    q := ["agent_key", "name", "description", "intended_purpose", "capability_summary"] }

def listAgentVersions := registerChildren "agent_id" "agent_not_found"
  { eq := ["version_status"]
    q := ["version_key", "version_label", "release_notes", "evaluation_score_summary"] }

def listAgentCapabilityBindings := registerList
  { eq := ["agent_id", "agent_version_id", "capability_category", "capability_status",
      "risk_posture", "hard_deny_floor_expected", "approval_required", "evidence_required"]
    q := ["capability_key", "capability_name", "scope_summary", "restriction_summary",
      "rationale"] }

/-! ## Use cases and risk -/

def listUseCases := registerList
  { eq := ["use_case_status", "use_case_category", "business_criticality", "deployment_scope",
      "primary_jurisdiction", "primary_ai_system_id"]
    before := [("next_review_before", "next_review_at")]
    q := ["use_case_key", "name", "description", "intended_purpose", "prohibited_uses",
      "restricted_uses", "legal_basis_summary", "regulatory_basis_summary"] }

def listUseCaseAssetLinks := registerList
  { eq := ["use_case_id", "ai_system_id", "model_id", "model_version_id", "agent_id",
      "agent_version_id", "link_status", "usage_role", "deployment_environment"]
    q := ["rationale", "evidence_reference"] }

def listUseCaseReviews := registerChildren "use_case_id" "use_case_not_found"
  { eq := ["review_type", "review_status", "review_outcome"]
    before := [("reviewed_before", "reviewed_at"), ("next_review_before", "next_review_at")]
    q := ["review_key", "findings_summary", "decision_summary", "conditions_summary",
      "evidence_reference"] }

def listRiskMethods := registerList
  { eq := ["method_status", "framework_profile", "method_key"]
    q := ["method_key", "name", "methodology_summary", "scoring_summary",
      "high_risk_criteria_summary", "prohibited_criteria_summary"] }

def listRiskClassifications := registerList
  { eq := ["classification_status", "risk_method_id", "use_case_id", "ai_system_id",
      "use_case_asset_link_id", "model_id", "model_version_id", "agent_id", "agent_version_id",
      "inherent_risk_tier", "residual_risk_tier", "requires_high_risk_review",
      "requires_prohibited_use_review", "classification_basis", "decision_scope"]
    q := ["classification_key", "rationale_summary", "factor_summary", "evidence_summary",
      "mitigation_summary", "recommended_controls_summary"] }

def listRiskClassificationFactors := registerList
  { eq := ["classification_id", "factor_category", "factor_severity", "triggered"]
    q := ["factor_key", "factor_value", "rationale", "evidence_reference"] }

def listReclassificationTriggers := registerList
  { eq := ["classification_id", "use_case_id", "ai_system_id", "trigger_status", "trigger_type",
      "recommended_action"]
    before := [("due_before", "due_at")]
    q := ["trigger_key", "trigger_reason", "evidence_reference"] }

/-! ## High-risk reviews and prohibited uses -/

def listHighRiskReviews := registerList
  { eq := ["review_status", "risk_classification_id", "risk_method_id", "use_case_id",
      "ai_system_id", "workroom_id", "review_basis"]
    before := [("due_before", "due_at")]
    q := ["review_key", "rationale_summary", "evidence_summary", "reviewer_guidance",
      "decision_summary"] }

def listHighRiskReviewEvidence := registerList
  { eq := ["high_risk_review_id", "evidence_type", "evidence_status"]
    q := ["evidence_key", "title", "summary", "evidence_reference", "source_uri"] }

def listHighRiskReviewAssignments := registerList
  { eq := ["high_risk_review_id", "reviewer_role", "assignment_status", "assignee_user_id",
      "assignee_participant_id"] }

def listHighRiskReviewDecisions := registerList
  { eq := ["high_risk_review_id", "decision", "reviewer_role", "decided_by_user_id",
      "decided_by_participant_id"] }

def listProhibitedUsePolicies := registerList
  { eq := ["policy_status", "policy_category", "framework_profile"]
    q := ["policy_key", "name", "prohibited_use_summary", "rationale_summary",
      "detection_guidance"] }

def listProhibitedUseCases := registerList
  { eq := ["case_status", "case_basis", "prohibited_use_policy_id", "risk_classification_id",
      "use_case_id", "ai_system_id", "agent_id", "agent_capability_binding_id", "denial_posture"]
    before := [("due_before", "due_at")]
    q := ["case_key", "rationale_summary", "evidence_summary", "denial_summary", "review_notes"] }

def listProhibitedUseEvidence := registerList
  { eq := ["prohibited_use_case_id", "evidence_type", "evidence_status"]
    q := ["evidence_key", "title", "summary", "evidence_reference", "source_uri"] }

def listProhibitedUseDeterminations := registerList
  { eq := ["prohibited_use_case_id", "determination", "denial_posture", "reviewer_role",
      "determined_by_user_id", "determined_by_participant_id"] }

/-! ## What a search finds -/

/-- A character that is no wildcard and no escape stands for itself. -/
def IsLiteral (c : Char) : Prop := c ≠ '%' ∧ c ≠ '_' ∧ c ≠ '\\'

lemma likeMatches_literal {p : Char} (hp : IsLiteral p) (ps cs : List Char) :
    likeMatches (p :: ps) cs = (cs.head? = some p && likeMatches ps cs.tail) := by
  obtain ⟨hpercent, hunderscore, hbackslash⟩ := hp
  rw [likeMatches]
  · exact hpercent
  · exact hunderscore
  · rintro p' ps' h _
    exact hbackslash h

/-- A text before `%` is looked for at the start. -/
lemma likeMatches_beginning {q : List Char} (hq : ∀ c ∈ q, IsLiteral c) (cs : List Char) :
    likeMatches (q ++ ['%']) cs = true ↔ q <+: cs := by
  induction q generalizing cs with
  | nil =>
    refine iff_of_true ?_ List.nil_prefix
    exact List.any_eq_true.mpr ⟨[], (List.mem_tails [] cs).mpr List.nil_suffix, rfl⟩
  | cons p q ih =>
    rw [List.cons_append, likeMatches_literal (hq p (List.mem_cons_self ..)), Bool.and_eq_true,
      decide_eq_true_eq, ih fun c hc => hq c (List.mem_cons_of_mem p hc)]
    cases cs with
    | nil => simp
    | cons c cs => simp [List.cons_prefix_cons, eq_comm]

/-- **A search.** A `q` of literal characters is found in the texts that contain it. -/
theorem likeMatches_search {q : List Char} (hq : ∀ c ∈ q, IsLiteral c) (cs : List Char) :
    likeMatches ('%' :: q ++ ['%']) cs = true ↔ q <:+: cs := by
  rw [List.cons_append, likeMatches, List.any_eq_true, List.infix_iff_prefix_suffix]
  constructor
  · rintro ⟨rest, hrest, hprefix⟩
    exact ⟨rest, (likeMatches_beginning hq rest).mp hprefix, (List.mem_tails rest cs).mp hrest⟩
  · rintro ⟨rest, hprefix, hrest⟩
    exact ⟨rest, (List.mem_tails rest cs).mpr hrest, (likeMatches_beginning hq rest).mpr hprefix⟩

/-! ## The pages of a client -/

section Visits

variable {columns : ListColumns} {lower : List Char → List Char} {filters : RegisterFilters}
  {table parents : ListedTable RegisterRow} {limit : ℕ+}

/-- **The lists of the registers.** A client reads every selected row of a register once if and only if
no page ends in the middle of a millisecond. -/
theorem registerList_visitsOnce_iff :
    VisitsOnce (registerList columns lower table filters limit) table (columns.selects lower filters) ↔
      PagesEndApart limit (table.inOrder (columns.selects lower filters)) :=
  visitsOnce_iff fun _ => rfl

/-- The same of the controls, also with the filter that looks into their mappings. -/
theorem listControls_visitsOnce_iff {mappings : List RegisterRow} :
    VisitsOnce (listControls lower mappings table filters limit) table
        (selectsControl lower mappings filters) ↔
      PagesEndApart limit (table.inOrder (selectsControl lower mappings filters)) :=
  visitsOnce_iff fun _ => rfl

variable {parentColumn notFound : String} {parentId : Uuid}

/-- The children of a row that is not visible are not listed. -/
theorem registerChildren_of_hidden (hhidden : ∀ parent ∈ parents.rows, parent.id ≠ parentId)
    (cursor : Option ListCursor) :
    registerChildren parentColumn notFound columns lower parents table parentId filters limit cursor =
      .error (.regulatory 404 notFound) := by
  rw [registerChildren, rejectIf, if_pos hhidden]
  rfl

/-- The children of a visible row are listed as the rows of a register are. -/
theorem registerChildren_visitsOnce_iff (hvisible : ∃ parent ∈ parents.rows, parent.id = parentId) :
    ∃ request, (∀ cursor, registerChildren parentColumn notFound columns lower parents table parentId
        filters limit cursor = .ok (request cursor)) ∧
      (VisitsOnce request table (columns.selectsChild parentColumn lower parentId filters) ↔
        PagesEndApart limit
          (table.inOrder (columns.selectsChild parentColumn lower parentId filters))) := by
  refine ⟨_, fun cursor => ?_, visitsOnce_iff fun _ => rfl⟩
  have hnot : ¬∀ parent ∈ parents.rows, parent.id ≠ parentId := by
    obtain ⟨parent, hmem, hid⟩ := hvisible
    exact fun h => h parent hmem hid
  rw [registerChildren, rejectIf_of_not hnot]
  rfl

end Visits

end GovAI
