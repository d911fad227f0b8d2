import StonksPaper.Base.Significant
import StonksPaper.Domain.Common

/-!
# Research requests, model turns and usage

`domain/usage_budget.py`, `domain/research.py` and `context_builder.py`, as far as the tool loop
reads them. A frozenset is the list of its members in some order, and a reference to an artifact is
its digest.
-/

namespace StonksPaper.Research

/-- An exception that leaves a research call. -/
inductive ResearchException where
  /-- A pydantic model refused its fields. -/
  | validationError (model : String)
  | overflowError (message : String)
  | valueError (message : String)
  /-- Whatever a port raises. -/
  | portError (message : String)
deriving DecidableEq

abbrev ResearchAttempt (α : Type) := Attempt Failure ResearchException α

/-- `Model(...)`: the value, if its validators accept it. -/
def construct {α : Type} (model : String) (valid : α → Prop) [DecidablePred valid] (value : α) :
    ResearchAttempt α :=
  if valid value then .success value else .raised (.validationError model)

def failure {α : Type} (code : ErrorCode) (message : String)
    (details : List (String × String) := []) : ResearchAttempt α :=
  .failure { code := code, message := message, details := details }

section

variable {α : Type} {model : String} {valid : α → Prop} [DecidablePred valid] {value a : α}

@[simp] theorem construct_eq_success :
    construct model valid value = .success a ↔ valid value ∧ value = a := by
  unfold construct
  split <;> simp_all

@[simp] theorem construct_ne_failure {e : Failure} : construct model valid value ≠ .failure e := by
  unfold construct
  split <;> simp

@[simp] theorem construct_eq_raised {e : ResearchException} :
    construct model valid value = .raised e ↔ ¬ valid value ∧ .validationError model = e := by
  unfold construct
  split <;> simp_all

theorem construct_of (h : valid value) : construct model valid value = .success value := if_pos h

end

/-! ## Usage -/

structure UsageBudget where
  maxIterations : ℕ
  maxToolCalls : ℕ
  maxInputTokens : ℕ
  maxOutputTokens : ℕ
  maxTotalTokens : ℕ
  maxCostUsd : Decimal
  maxElapsedMs : ℕ
deriving DecidableEq

structure UsageBudget.Valid (b : UsageBudget) : Prop where
  iterations : 1 ≤ b.maxIterations ∧ b.maxIterations ≤ 64
  toolCalls : b.maxToolCalls ≤ 256
  inputTokens : b.maxInputTokens ≤ 10000000
  outputTokens : b.maxOutputTokens ≤ 1000000
  totalTokens : b.maxTotalTokens ≤ 10000000
  costUsd : 0 ≤ b.maxCostUsd
  elapsedMs : 1 ≤ b.maxElapsedMs ∧ b.maxElapsedMs ≤ 86400000

structure UsageConsumption where
  iterations : ℕ := 0
  toolCalls : ℕ := 0
  inputTokens : ℕ := 0
  outputTokens : ℕ := 0
  costUsd : Decimal := 0
  elapsedMs : ℕ := 0
deriving DecidableEq

namespace UsageConsumption

/-- The constraints of the fields. -/
def Valid (u : UsageConsumption) : Prop :=
  u.iterations ≤ 64 ∧ u.toolCalls ≤ 256 ∧ u.inputTokens ≤ 10000000 ∧ u.outputTokens ≤ 1000000 ∧
    0 ≤ u.costUsd ∧ u.elapsedMs ≤ 86400000

instance : DecidablePred Valid := fun _ => inferInstanceAs (Decidable (_ ∧ _ ∧ _ ∧ _ ∧ _ ∧ _))

def totalTokens (u : UsageConsumption) : ℕ := u.inputTokens + u.outputTokens

/-- Sums of the fields; costs are added in the default decimal context of 28 digits. -/
def plus (u v : UsageConsumption) : UsageConsumption where
  iterations := u.iterations + v.iterations
  toolCalls := u.toolCalls + v.toolCalls
  inputTokens := u.inputTokens + v.inputTokens
  outputTokens := u.outputTokens + v.outputTokens
  costUsd := Significant.round 28 (u.costUsd + v.costUsd)
  elapsedMs := u.elapsedMs + v.elapsedMs

end UsageConsumption

def exceededDimensions (budget : UsageBudget) (u : UsageConsumption) : List String :=
  ([("iterations", decide (budget.maxIterations < u.iterations)),
    ("tool_calls", decide (budget.maxToolCalls < u.toolCalls)),
    ("input_tokens", decide (budget.maxInputTokens < u.inputTokens)),
    ("output_tokens", decide (budget.maxOutputTokens < u.outputTokens)),
    ("total_tokens", decide (budget.maxTotalTokens < u.totalTokens)),
    ("cost_usd", decide (budget.maxCostUsd < u.costUsd)),
    ("elapsed_ms", decide (budget.maxElapsedMs < u.elapsedMs))].filter (·.2)).map (·.1)

def consumeUsage (budget : UsageBudget) (current delta : UsageConsumption) :
    ResearchAttempt UsageConsumption :=
  match exceededDimensions budget (current.plus delta) with
  | [] => construct "UsageConsumption" UsageConsumption.Valid (current.plus delta)
  | exceeded => failure .budgetExhausted "Research usage budget exhausted"
      (exceeded.map fun name => ("exceeded", name))

/-- The usage is within the budget in every dimension. -/
structure Within (budget : UsageBudget) (u : UsageConsumption) : Prop where
  iterations : u.iterations ≤ budget.maxIterations
  toolCalls : u.toolCalls ≤ budget.maxToolCalls
  inputTokens : u.inputTokens ≤ budget.maxInputTokens
  outputTokens : u.outputTokens ≤ budget.maxOutputTokens
  totalTokens : u.totalTokens ≤ budget.maxTotalTokens
  costUsd : u.costUsd ≤ budget.maxCostUsd
  elapsedMs : u.elapsedMs ≤ budget.maxElapsedMs

theorem exceededDimensions_eq_nil {budget : UsageBudget} {u : UsageConsumption} :
    exceededDimensions budget u = [] ↔ Within budget u := by
  simp only [exceededDimensions, List.map_eq_nil_iff, List.filter_eq_nil_iff, List.forall_mem_cons,
    decide_eq_true_eq, not_lt, List.not_mem_nil, false_implies, implies_true, and_true]
  constructor
  · intro h
    obtain ⟨hi, ht, hin, hout, htotal, hcost, helapsed⟩ := h
    exact ⟨hi, ht, hin, hout, htotal, hcost, helapsed⟩
  · intro h
    exact ⟨h.iterations, h.toolCalls, h.inputTokens, h.outputTokens, h.totalTokens, h.costUsd,
      h.elapsedMs⟩

theorem consumeUsage_eq_success {budget : UsageBudget} {current delta u : UsageConsumption} :
    consumeUsage budget current delta = .success u ↔
      u = current.plus delta ∧ Within budget u ∧ u.Valid := by
  unfold consumeUsage
  split
  · rename_i hnil
    rw [construct_eq_success]
    constructor
    · intro h
      obtain ⟨hvalid, rfl⟩ := h
      exact ⟨rfl, exceededDimensions_eq_nil.mp hnil, hvalid⟩
    · intro h
      obtain ⟨rfl, -, hvalid⟩ := h
      exact ⟨hvalid, rfl⟩
  · rename_i hexceeded
    constructor
    · intro h
      cases h
    · intro h
      obtain ⟨rfl, hwithin, -⟩ := h
      exact absurd (exceededDimensions_eq_nil.mpr hwithin) hexceeded

theorem significant_round_nonneg {digits : ℕ} {x : Decimal} (hdigits : 1 ≤ digits) (hx : 0 ≤ x) :
    0 ≤ Significant.round digits x := by
  have hmono := Significant.round_mono (K := ℚ) hdigits hx
  simpa [Significant.round] using hmono

/-- Costs that are not negative stay so. -/
theorem consumeUsage_returns {budget : UsageBudget} {current delta : UsageConsumption}
    (hbudget : budget.Valid) (hcurrent : 0 ≤ current.costUsd) (hdelta : 0 ≤ delta.costUsd) :
    (consumeUsage budget current delta).Returns := by
  intro e h
  unfold consumeUsage at h
  split at h
  · rename_i hnil
    have hwithin := exceededDimensions_eq_nil.mp hnil
    refine (construct_eq_raised.mp h).1 ⟨?_, ?_, ?_, ?_, ?_, ?_⟩
    · exact hwithin.iterations.trans hbudget.iterations.2
    · exact hwithin.toolCalls.trans hbudget.toolCalls
    · exact hwithin.inputTokens.trans hbudget.inputTokens
    · exact hwithin.outputTokens.trans hbudget.outputTokens
    · exact significant_round_nonneg (by omega) (add_nonneg hcurrent hdelta)
    · exact hwithin.elapsedMs.trans hbudget.elapsedMs.2
  · cases h

/-! ## Requests -/

/-- `ResearchRequest`, without the fields that only its producer reads. -/
structure ResearchRequest where
  requestId : UUID
  instrumentIds : List String
  question : String
  allowedEvidenceIds : List UUID
  toolPolicyId : String
  modelPolicyId : String
  budget : UsageBudget
  createdAt : UTCDateTime
  deadlineAt : UTCDateTime

structure UntrustedContentBlock where
  sourceRef : Sha256
  content : String
deriving DecidableEq

def UntrustedContentBlock.Valid (b : UntrustedContentBlock) : Prop :=
  1 ≤ b.content.length ∧ b.content.length ≤ 32768

instance : DecidablePred UntrustedContentBlock.Valid :=
  fun _ => inferInstanceAs (Decidable (_ ∧ _))

def bytesOf (blocks : List UntrustedContentBlock) : ℕ :=
  (blocks.map fun b => b.content.utf8ByteSize).sum

@[simp] theorem bytesOf_append {xs ys : List UntrustedContentBlock} :
    bytesOf (xs ++ ys) = bytesOf xs + bytesOf ys := by simp [bytesOf]

def MAX_CONTEXT_BLOCK_BYTES : ℕ := 32768
def MAX_CONTEXT_TOTAL_BYTES : ℕ := 262144
def MAX_CONTEXT_BLOCKS : ℕ := 128

/-- `ResearchContext`; its blocks are those that `build_research_context` has counted. -/
structure ResearchContext where
  blocks : List UntrustedContentBlock
  totalBytes : ℕ
  blocks_le : blocks.length ≤ MAX_CONTEXT_BLOCKS
  totalBytes_le : totalBytes ≤ MAX_CONTEXT_TOTAL_BYTES
  counted : totalBytes = bytesOf blocks

/-- `bytes.decode("utf-8")`. -/
def decodeUtf8 (content : List UInt8) : Option String := String.fromUTF8? ⟨content.toArray⟩

theorem decodeUtf8_size {content : List UInt8} {text : String}
    (h : decodeUtf8 content = some text) :
    text.utf8ByteSize = content.length := by
  unfold decodeUtf8 String.fromUTF8? at h
  split at h
  · cases h
    simp [String.fromUTF8, String.utf8ByteSize, ByteArray.size]
  · cases h

/-- `load_untrusted_artifact`, once the content was read. -/
def untrustedBlock (sourceRef : Sha256) (maxBytes : ℕ) (content : List UInt8) :
    ResearchAttempt UntrustedContentBlock :=
  if maxBytes < content.length then
    failure .payloadTooLarge "Research artifact exceeds byte limit"
  else match decodeUtf8 content with
    | none => failure .invalidInput "Research artifact must be UTF-8 text"
    | some text =>
        if text = "" then failure .dataUnavailable "Research artifact is empty"
        else construct "UntrustedContentBlock" UntrustedContentBlock.Valid ⟨sourceRef, text⟩

theorem untrustedBlock_eq_success {sourceRef : Sha256} {maxBytes : ℕ} {content : List UInt8}
    {block : UntrustedContentBlock} (h : untrustedBlock sourceRef maxBytes content =
    .success block) :
    block.sourceRef = sourceRef ∧ decodeUtf8 content = some block.content ∧
      content.length ≤ maxBytes ∧ block.content.utf8ByteSize = content.length := by
  unfold untrustedBlock at h
  split at h
  · cases h
  · rename_i hsize
    split at h
    · cases h
    · rename_i text hdecoded
      split at h
      · cases h
      · obtain ⟨-, rfl⟩ := construct_eq_success.mp h
        exact ⟨rfl, hdecoded, by omega, decodeUtf8_size hdecoded⟩

theorem length_le_utf8ByteSize (text : String) : text.length ≤ text.utf8ByteSize := by
  induction text using String.push_induction with
  | empty => simp
  | push text c ih =>
      rw [String.length_push, String.utf8ByteSize_push]
      have hsize := c.utf8Size_pos
      omega

/-- A block that is small enough is a valid one. -/
theorem untrustedBlock_returns (sourceRef : Sha256) {maxBytes : ℕ} (hmax : maxBytes ≤ 32768)
    (content : List UInt8) : (untrustedBlock sourceRef maxBytes content).Returns := by
  unfold untrustedBlock
  split
  · exact Attempt.returns_failure _
  · split
    · exact Attempt.returns_failure _
    · rename_i hsize text hdecoded
      split
      · exact Attempt.returns_failure _
      · rename_i hempty
        have hlength := length_le_utf8ByteSize text
        rw [decodeUtf8_size hdecoded] at hlength
        have hpositive : 1 ≤ text.length := by
          rw [Nat.one_le_iff_ne_zero, ne_eq, String.length_eq_zero_iff]
          exact hempty
        have hvalid : UntrustedContentBlock.Valid ⟨sourceRef, text⟩ :=
          ⟨hpositive, by change text.length ≤ 32768; omega⟩
        rw [construct_of hvalid]
        exact Attempt.returns_success _

/-! ## The structured-output boundary -/

/-- A JSON schema, without numbers other than integers. -/
inductive Schema where
  | boolean (value : Bool)
  | integer (value : ℕ)
  | string (value : String)
  | array (items : List Schema)
  | object (entries : List (String × Schema))

inductive LLMRole where
  | system
  | user
  | assistant
deriving DecidableEq

structure LLMMessage where
  role : LLMRole
  content : String

def LLMMessage.Valid (m : LLMMessage) : Prop := 1 ≤ m.content.length ∧ m.content.length ≤ 32768

instance : DecidablePred LLMMessage.Valid := fun _ => inferInstanceAs (Decidable (_ ∧ _))

structure StructuredLLMRequest where
  requestId : UUID
  model : String
  messages : List LLMMessage
  untrustedBlocks : List UntrustedContentBlock
  outputSchemaName : String
  outputSchemaVersion : String
  outputSchema : Schema
  maxOutputTokens : ℕ
  deadlineAt : UTCDateTime

/-- `StructuredLLMResponse`; its output is what pydantic validates as a turn. -/
structure StructuredLLMResponse where
  requestId : UUID
  model : String
  parsedOutput : Payload
  rawOutputArtifactRef : Sha256
  usage : UsageConsumption
  usage_valid : usage.Valid

end StonksPaper.Research
