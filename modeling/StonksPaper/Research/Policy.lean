import StonksPaper.Research.Contracts

/-!
# Deny-by-default authorization of tool calls

`domain/tool_policy.py`. The values of a call's arguments are JSON values of which the policy looks
at strings, numbers, booleans and lists; the redaction of the audited arguments is a parameter.
-/

namespace StonksPaper.Research

/-! ## Policies -/

inductive ToolArgumentKind where
  | string
  | integer
  | number
  | boolean
  | stringList
deriving DecidableEq

inductive ToolMutationClass where
  | readOnly
  | filesystemWrite
  | processSpawn
  | secretRead
  | queueMutation
  | execution
deriving DecidableEq

structure ToolArgumentSpec where
  name : String
  kind : ToolArgumentKind
  required : Bool := true
  maxLength : Option ℕ := none
  redactInAudit : Bool := false
deriving DecidableEq

structure ToolRule where
  name : String
  mutationClass : ToolMutationClass
  arguments : List ToolArgumentSpec := []
  maxTimeoutMs : ℕ
  maxOutputBytes : ℕ
  auditEnabled : Bool := true
  requiresInstrumentScope : Bool := true
  requiresEvidenceScope : Bool := true
deriving DecidableEq

structure ToolPolicy where
  policyId : String
  principalProfile : String
  tools : List ToolRule := []
  allowedInstrumentIds : List String := []
  allowedEvidenceIds : List UUID := []
deriving DecidableEq

structure ResearchPrincipal where
  subject : String
  profile : String
  toolPolicyId : String
deriving DecidableEq

/-! ## Calls -/

/-- A JSON value of an argument; `null` and mappings are the other ones. -/
inductive ArgumentValue where
  | string (value : String)
  | integer (value : ℤ)
  | number (value : Decimal)
  | boolean (value : Bool)
  | list (items : List ArgumentValue)
  | other (content : Payload)

/-- `model_dump(mode="json")`. -/
def ArgumentValue.dump : ArgumentValue → Payload
  | string value => .text value
  | integer value => .int value
  | number value => .decimal value
  | boolean value => .bool value
  | list items => .record "list" (dumpAll items)
  | other content => .record "other" [content]
where
  dumpAll : List ArgumentValue → List Payload
    | [] => []
    | item :: items => item.dump :: dumpAll items

abbrev Arguments := List (String × ArgumentValue)

/-- `redact` on the arguments of a call. -/
class AuditRedaction where
  redact : Arguments → Arguments

/-- `"[REDACTED]"`. -/
def REDACTED : String := "[REDACTED]"

structure ToolCall where
  callId : UUID
  toolName : String
  arguments : Arguments
  instrumentIds : List String
  evidenceIds : List UUID
  timeoutMs : ℕ
  outputLimitBytes : ℕ

/-- `^[a-z][a-z0-9_.-]{0,127}$`. -/
def isToolName (name : String) : Bool :=
  match name.toList with
  | [] => false
  | c :: cs => c.isLower && decide (cs.length ≤ 127) &&
      cs.all fun d => d.isLower || d.isDigit || d == '_' || d == '.' || d == '-'

def ToolCall.Valid (call : ToolCall) : Prop :=
  isToolName call.toolName = true ∧ call.arguments.length ≤ 32 ∧
    (1 ≤ call.timeoutMs ∧ call.timeoutMs ≤ 120000) ∧
    1 ≤ call.outputLimitBytes ∧ call.outputLimitBytes ≤ 16777216

instance : DecidablePred ToolCall.Valid :=
  fun _ => inferInstanceAs (Decidable (_ ∧ _ ∧ (_ ∧ _) ∧ _ ∧ _))

structure AuthorizedToolCall where
  callId : UUID
  policyId : String
  principalSubject : String
  principalProfile : String
  toolName : String
  arguments : Arguments
  auditArguments : Arguments
  instrumentIds : List String
  evidenceIds : List UUID
  timeoutMs : ℕ
  outputLimitBytes : ℕ
  auditRequired : Bool

structure ToolResult where
  callId : UUID
  artifactRef : Sha256
  contentHash : Sha256
  byteCount : ℕ
  toolVersion : String
  materializedEvidenceIds : List UUID
  latencyMs : ℕ
  latencyMs_le : latencyMs ≤ 120000

/-! ## Authorization -/

def denied {α : Type} (call : ToolCall) (reason : String) : ResearchAttempt α :=
  failure .capabilityDenied "Research tool call denied"
    [("reason", reason), ("tool", call.toolName)]

def permitUnless (call : ToolCall) (c : Prop) [Decidable c] (reason : String) :
    ResearchAttempt Unit :=
  if c then denied call reason else .success ()

def orDeny {α : Type} (call : ToolCall) (reason : String) : Option α → ResearchAttempt α
  | some rule => .success rule
  | none => denied call reason

@[simp] theorem orDeny_eq_success {α : Type} {call : ToolCall} {reason : String} {x : Option α}
    {a : α} : orDeny call reason x = .success a ↔ x = some a := by
  cases x <;> simp [orDeny, denied, failure]

@[simp] theorem permitUnless_eq_success {call : ToolCall} {c : Prop} [Decidable c] {reason : String}
    {u : Unit} : permitUnless call c reason = .success u ↔ ¬ c := by
  unfold permitUnless denied failure
  split <;> simp_all

@[simp] theorem permitUnless_ne_raised {call : ToolCall} {c : Prop} [Decidable c] {reason : String}
    {e : ResearchException} : permitUnless call c reason ≠ .raised e := by
  unfold permitUnless denied failure
  split <;> simp

/-- The white space that `str.strip` removes. -/
def isSpace (c : Char) : Bool :=
  let code := c.toNat
  (9 ≤ code && code ≤ 13) || (28 ≤ code && code ≤ 32) || code == 0x85 || code == 0xa0 ||
    code == 0x1680 || (0x2000 ≤ code && code ≤ 0x200a) || code == 0x2028 || code == 0x2029 ||
    code == 0x202f || code == 0x205f || code == 0x3000

def validString (value : String) (maxLength : Option ℕ) : Bool :=
  (value.toList.head?.all fun c => !isSpace c) && (value.toList.getLast?.all fun c => !isSpace c) &&
    value.toList.all (fun c => decide (32 ≤ c.toNat)) &&
    maxLength.all fun bound => decide (value.length ≤ bound)

/-- The least integer that no float is near to. -/
@[irreducible] def floatLimit : ℕ := 2 ^ 1024 - 2 ^ 970

/-- `_matches_spec`; `math.isfinite` converts an integer to a float. -/
def matchesSpec (spec : ToolArgumentSpec) (value : ArgumentValue) : ResearchAttempt Bool :=
  match spec.kind, value with
  | .string, .string text => .success (validString text spec.maxLength)
  | .integer, .integer _ => .success true
  | .number, .integer n =>
      if floatLimit ≤ n.natAbs then .raised (.overflowError "int too large to convert to float")
      else .success true
  | .number, .number _ => .success true
  | .boolean, .boolean _ => .success true
  | .stringList, .list items => .success (decide (items.length ≤ 64) &&
      items.all fun
        | .string text => validString text spec.maxLength
        | _ => false)
  | _, _ => .success false

def specOf (specs : List ToolArgumentSpec) (name : String) : Option ToolArgumentSpec :=
  specs.reverse.find? fun spec => spec.name = name

/-- The loop of `_validate_arguments`. -/
def validateValues (specs : List ToolArgumentSpec) : Arguments → ResearchAttempt (Option String)
  | [] => .success none
  | (name, value) :: rest =>
      match specOf specs name with
      | none => .success (some "unknown_arguments")
      | some spec => do
          if ← matchesSpec spec value then validateValues specs rest
          else return some ("invalid_argument:" ++ name)

def validateArguments (specs : List ToolArgumentSpec) (arguments : Arguments) :
    ResearchAttempt (Option String) :=
  if arguments.any fun entry => (specOf specs entry.1).isNone then
    .success (some "unknown_arguments")
  else if specs.any fun spec => spec.required && arguments.all fun entry => entry.1 ≠ spec.name then
    .success (some "missing_required_arguments")
  else validateValues specs arguments

section

variable [AuditRedaction]

def auditArguments (specs : List ToolArgumentSpec) (arguments : Arguments) : Arguments :=
  (AuditRedaction.redact arguments).map fun entry =>
    if specs.any fun spec => spec.redactInAudit && spec.name == entry.1 then
      (entry.1, .string REDACTED)
    else entry

def authorizeToolCall (policy : ToolPolicy) (principal : ResearchPrincipal) (call : ToolCall) :
    ResearchAttempt AuthorizedToolCall := do
  permitUnless call (principal.toolPolicyId ≠ policy.policyId ∨
    principal.profile ≠ policy.principalProfile) "principal_policy_mismatch"
  let rule ← orDeny call "tool_not_allowlisted"
    (policy.tools.find? fun candidate => candidate.name = call.toolName)
  permitUnless call (rule.mutationClass ≠ .readOnly ∨ rule.auditEnabled = false) "unsafe_tool_rule"
  permitUnless call (¬ call.instrumentIds ⊆ policy.allowedInstrumentIds) "instrument_scope_exceeded"
  permitUnless call (¬ call.evidenceIds ⊆ policy.allowedEvidenceIds) "evidence_scope_exceeded"
  permitUnless call (rule.requiresInstrumentScope = true ∧ call.instrumentIds = [])
    "instrument_scope_required"
  permitUnless call (rule.requiresEvidenceScope = true ∧ call.evidenceIds = [])
    "evidence_scope_required"
  permitUnless call (rule.maxTimeoutMs < call.timeoutMs) "timeout_limit_exceeded"
  permitUnless call (rule.maxOutputBytes < call.outputLimitBytes) "output_limit_exceeded"
  let argumentError ← validateArguments rule.arguments call.arguments
  match argumentError with
  | some reason =>
      failure .invalidInput "Tool arguments failed validation"
        [("reason", reason), ("tool", call.toolName)]
  | none =>
      return {
        callId := call.callId
        policyId := policy.policyId
        principalSubject := principal.subject
        principalProfile := principal.profile
        toolName := call.toolName
        arguments := call.arguments
        auditArguments := auditArguments rule.arguments call.arguments
        instrumentIds := call.instrumentIds
        evidenceIds := call.evidenceIds
        timeoutMs := call.timeoutMs
        outputLimitBytes := call.outputLimitBytes
        auditRequired := true }

end

def invalidResult {α : Type} (reason : String) : ResearchAttempt α :=
  failure .invalidInput "Research tool result failed validation" [("reason", reason)]

def validateToolResult (call : AuthorizedToolCall) (result : ToolResult) :
    ResearchAttempt ToolResult :=
  if result.callId ≠ call.callId then invalidResult "call_identity_mismatch"
  else if result.artifactRef ≠ result.contentHash then invalidResult "artifact_hash_mismatch"
  else if call.outputLimitBytes < result.byteCount then
    failure .payloadTooLarge "Research tool output exceeded authorized limit"
      [("limit_bytes", toString call.outputLimitBytes)]
  else if ¬ result.materializedEvidenceIds ⊆ call.evidenceIds then
    invalidResult "materialized_evidence_scope_exceeded"
  else .success result

/-! ## What they guarantee -/

/-- Every argument of the call is one that the rule knows and has a value of its kind. -/
def ArgumentsMatch (specs : List ToolArgumentSpec) (arguments : Arguments) : Prop :=
  (∀ spec ∈ specs, spec.required = true → ∃ entry ∈ arguments, entry.1 = spec.name) ∧
    ∀ entry ∈ arguments, ∃ spec, specOf specs entry.1 = some spec ∧
      matchesSpec spec entry.2 = .success true

theorem validateValues_eq_none {specs : List ToolArgumentSpec} {arguments : Arguments} :
    validateValues specs arguments = .success none ↔ ∀ entry ∈ arguments,
      ∃ spec, specOf specs entry.1 = some spec ∧ matchesSpec spec entry.2 = .success true := by
  induction arguments with
  | nil => simp [validateValues]
  | cons entry rest ih =>
      obtain ⟨name, value⟩ := entry
      rw [validateValues, List.forall_mem_cons]
      cases hspec : specOf specs name with
      | none => simp
      | some spec =>
          simp only [Attempt.bind_eq_success, Option.some.injEq, exists_eq_left']
          constructor
          · intro h
            obtain ⟨matched, hmatched, h⟩ := h
            cases matched with
            | false => cases h
            | true => exact ⟨hmatched, ih.mp h⟩
          · intro h
            exact ⟨true, h.1, ih.mpr h.2⟩

theorem validateArguments_eq_none {specs : List ToolArgumentSpec} {arguments : Arguments} :
    validateArguments specs arguments = .success none ↔ ArgumentsMatch specs arguments := by
  unfold validateArguments ArgumentsMatch
  split
  · rename_i hunknown
    obtain ⟨entry, hentry, hnone⟩ := List.any_eq_true.mp hunknown
    constructor
    · intro h
      cases h
    · intro h
      obtain ⟨spec, hspec, -⟩ := h.2 entry hentry
      rw [hspec] at hnone
      cases hnone
  · split
    · rename_i hmissing
      obtain ⟨spec, hspec, hmissing⟩ := List.any_eq_true.mp hmissing
      obtain ⟨hrequired, hall⟩ := Bool.and_eq_true_iff.mp hmissing
      constructor
      · intro h
        cases h
      · intro h
        obtain ⟨entry, hentry, hname⟩ := h.1 spec hspec hrequired
        have hne := List.all_eq_true.mp hall entry hentry
        exact absurd hname (of_decide_eq_true hne)
    · rename_i hmissing
      rw [validateValues_eq_none]
      refine ⟨fun h => ⟨fun spec hspec hrequired => ?_, h⟩, fun h => h.2⟩
      by_contra hnone
      refine hmissing (List.any_eq_true.mpr ⟨spec, hspec, ?_⟩)
      rw [hrequired, Bool.true_and, List.all_eq_true]
      exact fun entry hentry => decide_eq_true fun hname => hnone ⟨entry, hentry, hname⟩

/-- What the policy lets the principal do: the tool, its limits and the scope of the call. -/
structure Permitted (policy : ToolPolicy) (principal : ResearchPrincipal)
    (call : AuthorizedToolCall) : Prop where
  principal : principal.toolPolicyId = policy.policyId ∧ principal.profile = policy.principalProfile
  instruments : call.instrumentIds ⊆ policy.allowedInstrumentIds
  evidence : call.evidenceIds ⊆ policy.allowedEvidenceIds
  rule : ∃ rule ∈ policy.tools, rule.name = call.toolName ∧ rule.mutationClass = .readOnly ∧
    rule.auditEnabled = true ∧ call.timeoutMs ≤ rule.maxTimeoutMs ∧
    call.outputLimitBytes ≤ rule.maxOutputBytes ∧
    (rule.requiresInstrumentScope = true → call.instrumentIds ≠ []) ∧
    (rule.requiresEvidenceScope = true → call.evidenceIds ≠ []) ∧
    ArgumentsMatch rule.arguments call.arguments

section

variable [AuditRedaction] {policy : ToolPolicy} {principal : ResearchPrincipal} {call : ToolCall}
  {authorized : AuthorizedToolCall}

/-- An authorized call is the call that was asked for, and the policy permits it. -/
theorem authorizeToolCall_eq_success
    (h : authorizeToolCall policy principal call = .success authorized) :
    Permitted policy principal authorized ∧ authorized.callId = call.callId ∧
      authorized.instrumentIds = call.instrumentIds ∧ authorized.evidenceIds = call.evidenceIds ∧
      authorized.arguments = call.arguments ∧ authorized.outputLimitBytes =
      call.outputLimitBytes := by
  simp only [authorizeToolCall, Attempt.bind_eq_success, permitUnless_eq_success,
    orDeny_eq_success, not_or, not_not, not_and, not_lt, Bool.not_eq_false] at h
  obtain ⟨_, hprincipal, rule, hrule, _, hsafe, _, hinstruments, _, hevidence, _, hinstrumentScope,
    _, hevidenceScope, _, htimeout, _, houtput, reason, hreason, h⟩ := h
  cases reason with
  | some reason => cases h
  | none =>
      cases h
      have hfound : rule.name = call.toolName := by simpa using List.find?_some hrule
      exact ⟨⟨hprincipal, hinstruments, hevidence, rule, List.mem_of_find?_eq_some hrule,
        hfound, hsafe.1, hsafe.2, htimeout, houtput, hinstrumentScope, hevidenceScope,
        validateArguments_eq_none.mp hreason⟩, rfl, rfl, rfl, rfl, rfl⟩

end

theorem validateToolResult_eq_success {call : AuthorizedToolCall} {result validated : ToolResult}
    (h : validateToolResult call result = .success validated) :
    validated = result ∧ result.callId = call.callId ∧ result.artifactRef = result.contentHash ∧
      result.byteCount ≤ call.outputLimitBytes ∧
      result.materializedEvidenceIds ⊆ call.evidenceIds := by
  unfold validateToolResult invalidResult failure at h
  split at h
  · cases h
  · split at h
    · cases h
    · split at h
      · cases h
      · split at h
        · cases h
        · cases h
          rename_i hid href hbytes hscope
          exact ⟨rfl, not_not.mp hid, not_not.mp href, not_lt.mp hbytes, not_not.mp hscope⟩

theorem validateToolResult_returns (call : AuthorizedToolCall) (result : ToolResult) :
    (validateToolResult call result).Returns := by
  unfold validateToolResult invalidResult failure
  split_ifs <;> simp

end StonksPaper.Research
