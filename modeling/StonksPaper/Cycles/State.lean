import Mathlib.Data.Prod.Lex
import Mathlib.Data.String.Basic
import StonksPaper.Jobs.Tables

/-!
# The state of a paper cycle

`domain/paper_cycle.py`: the references that a stage leaves, the outputs of the completed stages,
and the state that a checkpoint stores. A value that a validator refuses cannot be built. The hashes
of an output and of a state are digests of the other fields, so they are computed.
-/

namespace StonksPaper

open Chain

/-! ## JSON objects -/

namespace Payload

def items? : Payload → Option (List Payload)
  | nil => some []
  | cons head tail => tail.items?.map (head :: ·)
  | _ => none

@[simp] theorem items?_list (xs : List Payload) : (list xs).items? = some xs := by
  induction xs with
  | nil => rfl
  | cons x xs ih => simp [list, items?, ih]

def text? : Payload → Option String
  | text s => some s
  | _ => none

@[simp] theorem text?_dump (s : String) : (dump s).text? = some s := rfl

def nat? : Payload → Option ℕ
  | int (.ofNat n) => some n
  | _ => none

@[simp] theorem nat?_dump (n : ℕ) : (dump n).nat? = some n := rfl

def dict (entries : List (String × Payload)) : Payload :=
  record "dict" (entries.map fun entry => list [text entry.1, entry.2])

def entry? : Payload → Option (String × Payload)
  | cons (text key) (cons value nil) => some (key, value)
  | _ => none

def entries? : Payload → Option (List (String × Payload))
  | cons (text "dict") rest => rest.items?.bind fun items => items.mapM entry?
  | _ => none

theorem mapM_entry? (entries : List (String × Payload)) :
    (entries.map fun entry => list [text entry.1, entry.2]).mapM entry? = some entries := by
  induction entries with
  | nil => rfl
  | cons entry entries ih =>
      rw [List.map_cons, List.mapM_cons, ih]
      rfl

@[simp] theorem entries?_dict (entries : List (String × Payload)) :
    (dict entries).entries? = some entries := by
  show (list _).items?.bind _ = _
  rw [items?_list]
  exact mapM_entry? entries

/-- `payload.get(key)`. -/
def get (payload : Payload) (key : String) : Option Payload :=
  payload.entries?.bind fun entries => (entries.find? (·.1 = key)).map (·.2)

@[simp] theorem get_dict (entries : List (String × Payload)) (key : String) :
    (dict entries).get key = (entries.find? (·.1 = key)).map (·.2) := by simp [get]

def HasKeys (payload : Payload) (keys : List String) : Prop :=
  ∃ entries ∈ payload.entries?, (entries.map (·.1)).Perm keys

instance (payload : Payload) (keys : List String) : Decidable (payload.HasKeys keys) :=
  inferInstanceAs (Decidable (∃ _ ∈ _, _))

@[simp] theorem hasKeys_dict {entries : List (String × Payload)} {keys : List String} :
    (dict entries).HasKeys keys ↔ (entries.map (·.1)).Perm keys := by simp [HasKeys]

@[simp] theorem plain_dict {entries : List (String × Payload)} :
    (dict entries).Plain ↔ ∀ entry ∈ entries, entry.2.Plain := by
  rw [dict, plain_record, List.forall_mem_map]
  refine forall₂_congr fun entry _ => ?_
  simp [list, Plain]

end Payload

/-! ## Stages -/

inductive PaperCycleStage where
  | evidence
  | researchOpinion
  | signal
  | portfolioTarget
  | riskDecision
  | orderIntent
  | executionReceipt
  | ledger
  | report
deriving DecidableEq, Repr

namespace PaperCycleStage

def value : PaperCycleStage → String
  | evidence => "evidence"
  | researchOpinion => "research_opinion"
  | signal => "signal"
  | portfolioTarget => "portfolio_target"
  | riskDecision => "risk_decision"
  | orderIntent => "order_intent"
  | executionReceipt => "execution_receipt"
  | ledger => "ledger"
  | report => "report"

/-- `tuple(PaperCycleStage)`. -/
def all : List PaperCycleStage :=
  [evidence, researchOpinion, signal, portfolioTarget, riskDecision, orderIntent, executionReceipt,
    ledger, report]

/-- `PaperCycleStage(text)`. -/
def ofValue (text : String) : Option PaperCycleStage := all.find? (·.value = text)

@[simp] theorem ofValue_value (stage : PaperCycleStage) : ofValue stage.value = some stage := by
  cases stage <;> decide

/-- The allowed reference types of `_REFERENCE_RULES`. -/
def allowedTypes : PaperCycleStage → List String
  | evidence => ["evidence"]
  | researchOpinion => ["research_artifact", "agent_opinion"]
  | signal => ["alpha_signal"]
  | portfolioTarget => ["portfolio_target"]
  | riskDecision => ["risk_decision"]
  | orderIntent => ["order_intent"]
  | executionReceipt => ["execution_receipt"]
  | ledger => ["ledger_projection"]
  | report => ["analysis_report"]

/-- The required reference types of `_REFERENCE_RULES`. -/
def requiredTypes : PaperCycleStage → List String
  | evidence => ["evidence"]
  | researchOpinion => ["research_artifact"]
  | signal => ["alpha_signal"]
  | portfolioTarget => ["portfolio_target"]
  | riskDecision => ["risk_decision"]
  | orderIntent => []
  | executionReceipt => []
  | ledger => ["ledger_projection"]
  | report => ["analysis_report"]

def singleReferenceStages : List PaperCycleStage :=
  [portfolioTarget, riskDecision, ledger, report]

end PaperCycleStage

/-! ## References and outputs -/

structure CanonicalCycleReference where
  refType : String
  refId : String
  contentHash : Sha256
  refType_ne : refType ≠ ""
  refId_ne : refId ≠ ""
deriving DecidableEq

namespace CanonicalCycleReference

instance : Dump CanonicalCycleReference := ⟨fun self => .dict [
  ("ref_type", dump self.refType),
  ("ref_id", dump self.refId),
  ("content_hash", dump self.contentHash)]⟩

/-- `CanonicalCycleReference.model_validate`. -/
def parse (payload : Payload) : Option CanonicalCycleReference := do
  guard (payload.HasKeys ["ref_type", "ref_id", "content_hash"])
  let refType ← (payload.get "ref_type").bind Payload.text?
  let refId ← (payload.get "ref_id").bind Payload.text?
  let contentHash ← (payload.get "content_hash").bind Payload.nat?
  if h : refType ≠ "" ∧ refId ≠ "" then some ⟨refType, refId, contentHash, h.1, h.2⟩ else none

@[simp] theorem parse_dump (self : CanonicalCycleReference) : parse (dump self) = some self := by
  have hvalid : self.refType ≠ "" ∧ self.refId ≠ "" := ⟨self.refType_ne, self.refId_ne⟩
  simp [parse, dump, Payload.text?, Payload.nat?, hvalid]

theorem plain_dump (self : CanonicalCycleReference) : (dump self).Plain := by
  simp [dump, Payload.Plain]

end CanonicalCycleReference

/-- The validators of an output. -/
structure OutputValid (stage : PaperCycleStage) (references : List CanonicalCycleReference) :
    Prop where
  counted : references.length ≤ 10000
  sorted : SortedUnique (references.map fun item => toLex (item.refType, item.refId))
  allowed : ∀ item ∈ references, item.refType ∈ stage.allowedTypes
  required : ∀ type ∈ stage.requiredTypes, ∃ item ∈ references, item.refType = type
  single : stage ∈ PaperCycleStage.singleReferenceStages → references.length = 1

instance (stage : PaperCycleStage) (references : List CanonicalCycleReference) :
    Decidable (OutputValid stage references) :=
  decidable_of_iff (references.length ≤ 10000 ∧
      SortedUnique (references.map fun item => toLex (item.refType, item.refId)) ∧
      (∀ item ∈ references, item.refType ∈ stage.allowedTypes) ∧
      (∀ type ∈ stage.requiredTypes, ∃ item ∈ references, item.refType = type) ∧
      (stage ∈ PaperCycleStage.singleReferenceStages → references.length = 1))
    ⟨fun ⟨a, b, c, d, e⟩ => ⟨a, b, c, d, e⟩, fun h => ⟨h.1, h.2, h.3, h.4, h.5⟩⟩

structure PaperCycleStageOutput where
  stage : PaperCycleStage
  references : List CanonicalCycleReference
  valid : OutputValid stage references
deriving DecidableEq

section

variable [Hashing]

namespace PaperCycleStageOutput

/-- `expected_output_hash`, which `output_hash` is checked to be. -/
def outputHash (self : PaperCycleStageOutput) : Sha256 :=
  stablePayloadHash (.dict [
    ("stage", dump self.stage.value),
    ("references", dump self.references)])

instance : Dump PaperCycleStageOutput := ⟨fun self => .dict [
  ("stage", dump self.stage.value),
  ("references", dump self.references),
  ("output_hash", dump self.outputHash)]⟩

/-- `PaperCycleStageOutput.model_validate`. -/
def parse (payload : Payload) : Option PaperCycleStageOutput := do
  guard (payload.HasKeys ["stage", "references", "output_hash"])
  let stage ← ((payload.get "stage").bind Payload.text?).bind PaperCycleStage.ofValue
  let references ← ((payload.get "references").bind Payload.items?).bind
    (List.mapM CanonicalCycleReference.parse)
  let outputHash ← (payload.get "output_hash").bind Payload.nat?
  if h : OutputValid stage references then
    let output : PaperCycleStageOutput := ⟨stage, references, h⟩
    if outputHash = output.outputHash then some output else none
  else none

omit [Hashing] in
theorem mapM_parse_dump (references : List CanonicalCycleReference) :
    references.mapM (CanonicalCycleReference.parse ∘ dump) = some references := by
  induction references with
  | nil => rfl
  | cons reference references ih =>
      rw [List.mapM_cons, ih, Function.comp_apply, CanonicalCycleReference.parse_dump]
      rfl

omit [Hashing] in
theorem items?_dump (references : List CanonicalCycleReference) :
    (dump references).items? = some (references.map dump) := Payload.items?_list _

omit [Hashing] in
theorem plain_references (references : List CanonicalCycleReference) : (dump references).Plain := by
  refine Payload.plain_list.mpr fun x hx => ?_
  obtain ⟨reference, -, rfl⟩ := List.mem_map.mp hx
  exact reference.plain_dump

theorem dump_eq (self : PaperCycleStageOutput) : dump self = .dict [
    ("stage", dump self.stage.value),
    ("references", dump self.references),
    ("output_hash", dump self.outputHash)] := rfl

@[simp] theorem parse_dump (self : PaperCycleStageOutput) : parse (dump self) = some self := by
  rw [parse, dump_eq]
  simp [items?_dump, mapM_parse_dump, self.valid]

theorem plain_dump (self : PaperCycleStageOutput) : (dump self).Plain := by
  rw [dump_eq]
  simp [plain_references]

end PaperCycleStageOutput

end

/-! ## States -/

/-- `_validate_execution_cardinality`. -/
def ReceiptsMatchOrders (outputs : List PaperCycleStageOutput) : Prop :=
  ∀ orders ∈ outputs[5]?, ∀ receipts ∈ outputs[6]?,
    orders.references.length = receipts.references.length

instance (outputs : List PaperCycleStageOutput) : Decidable (ReceiptsMatchOrders outputs) :=
  inferInstanceAs (Decidable (∀ _ ∈ _, _))

def CanonicalOutputs (outputs : List PaperCycleStageOutput) : Prop :=
  outputs.map (·.stage) = PaperCycleStage.all.take outputs.length

instance (outputs : List PaperCycleStageOutput) : Decidable (CanonicalOutputs outputs) :=
  inferInstanceAs (Decidable (_ = _))

structure PaperCycleState where
  runId : UUID
  cycleInputHash : Sha256
  outputs : List PaperCycleStageOutput
  canonical : CanonicalOutputs outputs
  executed : ReceiptsMatchOrders outputs
deriving DecidableEq

namespace PaperCycleState

def genesis (runId : UUID) (cycleInputHash : Sha256) : PaperCycleState where
  runId := runId
  cycleInputHash := cycleInputHash
  outputs := []
  canonical := rfl
  executed := fun _ h => by cases h

def create (runId : UUID) (cycleInputHash : Sha256) (outputs : List PaperCycleStageOutput) :
    QueueCall PaperCycleState :=
  if hcanonical : CanonicalOutputs outputs then
    if hexecuted : ReceiptsMatchOrders outputs then
      return ⟨runId, cycleInputHash, outputs, hcanonical, hexecuted⟩
    else .raised (.valueError "execution receipt count must match order count")
  else .raised (.valueError "cycle outputs must be the canonical stage prefix")

variable (self : PaperCycleState)

def nextStage : Option PaperCycleStage := PaperCycleStage.all[self.outputs.length]?

def Complete : Prop := self.nextStage = none

instance : Decidable self.Complete := inferInstanceAs (Decidable (_ = _))

def advance (output : PaperCycleStageOutput) : QueueCall PaperCycleState := do
  .valid (self.nextStage = some output.stage) "cycle output is not the next canonical stage"
  create self.runId self.cycleInputHash (self.outputs ++ [output])

variable [Hashing]

/-- `expected_state_hash`, which `state_hash` is checked to be. -/
def stateHash : Sha256 :=
  stablePayloadHash (.dict [
    ("run_id", dump self.runId),
    ("cycle_input_hash", dump self.cycleInputHash),
    ("outputs", dump self.outputs)])

instance : Dump PaperCycleState := ⟨fun self => .dict [
  ("run_id", dump self.runId),
  ("cycle_input_hash", dump self.cycleInputHash),
  ("outputs", dump self.outputs),
  ("state_hash", dump self.stateHash)]⟩

/-- `PaperCycleState.model_validate`. -/
def parse (payload : Payload) : Option PaperCycleState := do
  guard (payload.HasKeys ["run_id", "cycle_input_hash", "outputs", "state_hash"])
  let runId ← (payload.get "run_id").bind Payload.nat?
  let cycleInputHash ← (payload.get "cycle_input_hash").bind Payload.nat?
  let outputs ← ((payload.get "outputs").bind Payload.items?).bind
    (List.mapM PaperCycleStageOutput.parse)
  let stateHash ← (payload.get "state_hash").bind Payload.nat?
  if h : CanonicalOutputs outputs ∧ ReceiptsMatchOrders outputs then
    let state : PaperCycleState := ⟨runId, cycleInputHash, outputs, h.1, h.2⟩
    if stateHash = state.stateHash then some state else none
  else none

theorem dump_eq : dump self = .dict [
    ("run_id", dump self.runId),
    ("cycle_input_hash", dump self.cycleInputHash),
    ("outputs", dump self.outputs),
    ("state_hash", dump self.stateHash)] := rfl

theorem mapM_parse_dump (outputs : List PaperCycleStageOutput) :
    outputs.mapM (PaperCycleStageOutput.parse ∘ dump) = some outputs := by
  induction outputs with
  | nil => rfl
  | cons output outputs ih =>
      rw [List.mapM_cons, ih, Function.comp_apply, PaperCycleStageOutput.parse_dump]
      rfl

theorem items?_dump (outputs : List PaperCycleStageOutput) :
    (dump outputs).items? = some (outputs.map dump) := Payload.items?_list _

/-- A state is read back as it was written. -/
@[simp] theorem parse_dump : parse (dump self) = some self := by
  have hvalid : CanonicalOutputs self.outputs ∧ ReceiptsMatchOrders self.outputs :=
    ⟨self.canonical, self.executed⟩
  rw [parse, dump_eq]
  simp [items?_dump, mapM_parse_dump, hvalid]

theorem plain_dump : (dump self).Plain := by
  have houtputs : (dump self.outputs).Plain := by
    refine Payload.plain_list.mpr fun x hx => ?_
    obtain ⟨output, -, rfl⟩ := List.mem_map.mp hx
    exact output.plain_dump
  rw [dump_eq]
  simp [houtputs]

omit [Hashing] in
theorem length_outputs_le : self.outputs.length ≤ PaperCycleStage.all.length := by
  have hlength := congrArg List.length self.canonical
  rw [List.length_map, List.length_take] at hlength
  omega

omit [Hashing] in
theorem complete_iff : self.Complete ↔ self.outputs.length = PaperCycleStage.all.length := by
  rw [Complete, nextStage, List.getElem?_eq_none_iff]
  have hle := self.length_outputs_le
  omega

end PaperCycleState

/-! ## Cancellation -/

structure CancelPaperCycle where
  runId : UUID
  expectedVersion : ℕ
  actor : String
  reasonCode : String
  version_pos : 1 ≤ expectedVersion
  actor_ne : actor ≠ ""
  reason_ne : reasonCode ≠ ""
deriving DecidableEq

end StonksPaper
