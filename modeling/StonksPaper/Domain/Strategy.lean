import StonksPaper.Domain.Signal

/-!
# Promotions of strategies

The transitions of `strategy.py` and the events that record them. A promotion state follows a fixed
table; the request of a transition into an evaluated state names the report that it rests on.
-/

namespace StonksPaper

open Chain

abbrev StrategyKey := String × String

def StrategyManifest.key (self : StrategyManifest) : StrategyKey :=
  (self.strategyId, self.strategyVersion)

namespace PromotionState

def value : PromotionState → String
  | draft => "draft"
  | evaluating => "evaluating"
  | rejected => "rejected"
  | shadow => "shadow"
  | paperEligible => "paper_eligible"
  | suspended => "suspended"
  | retired => "retired"

def allowedTransitions : PromotionState → List PromotionState
  | draft => [evaluating]
  | evaluating => [rejected, shadow]
  | rejected => []
  | shadow => [paperEligible]
  | paperEligible => [suspended, retired]
  | suspended => [evaluating, retired]
  | retired => []

def canTransition (current target : PromotionState) : Prop := target ∈ current.allowedTransitions

instance (current target : PromotionState) : Decidable (current.canTransition target) :=
  inferInstanceAs (Decidable (_ ∈ _))

end PromotionState

/-- `^[a-z][a-z0-9_.:@-]{0,127}$`. -/
def isStrategyActor (actor : String) : Bool :=
  match actor.toList with
  | [] => false
  | c :: cs => ('a' ≤ c && c ≤ 'z') && cs.length ≤ 127 && cs.all fun d =>
      ('a' ≤ d && d ≤ 'z') || ('0' ≤ d && d ≤ '9') || d == '_' || d == '.' || d == ':' ||
        d == '@' || d == '-'

/-- `^strategy\.[a-z_]{1,63}$`. -/
def isStrategyEventType (text : String) : Bool :=
  let rest := text.toList.drop 9
  text.toList.take 9 == "strategy.".toList && (1 ≤ rest.length && rest.length ≤ 63) &&
    rest.all fun c => ('a' ≤ c && c ≤ 'z') || c == '_'

structure StrategyTransitionRequest where
  strategyId : String
  strategyVersion : String
  expectedVersion : ℕ
  currentState : PromotionState
  targetState : PromotionState
  evaluationReportId : Option UUID
  evaluationHash : Option Sha256
  reasonCode : String
  actor : String
  requestedAt : UTCDateTime

def StrategyTransitionRequest.key (self : StrategyTransitionRequest) : StrategyKey :=
  (self.strategyId, self.strategyVersion)

def StrategyTransitionRequest.validate (self : StrategyTransitionRequest) : Call Unit := do
  nonEmptyString self.strategyId
  nonEmptyString self.strategyVersion
  atLeast 1 self.expectedVersion
  checkCode self.reasonCode
  raiseUnless (isStrategyActor self.actor = true) "String should match the actor pattern"
  raiseUnless (self.currentState.canTransition self.targetState)
    "strategy promotion transition is not allowed"
  raiseUnless (self.evaluationReportId ≠ none ↔ self.evaluationHash ≠ none)
    "evaluation report id and hash must be bound together"
  raiseUnless (self.targetState = .rejected ∨ self.targetState = .shadow ∨
    self.targetState = .paperEligible → self.evaluationReportId ≠ none)
    "evaluation-gated transition requires evaluation binding"

/-- What an event records: the arguments of `_event_payload`. -/
structure StrategyMutation where
  strategyId : String
  strategyVersion : String
  sequence : ℕ
  eventType : String
  fromState : Option PromotionState
  toState : PromotionState
  reasonCode : String
  actor : String
  evaluationReportId : Option UUID
  evaluationHash : Option Sha256
  occurredAt : UTCDateTime
  previousHash : Option Sha256
deriving DecidableEq

namespace StrategyMutation

def key (self : StrategyMutation) : StrategyKey := (self.strategyId, self.strategyVersion)

/-- `_event_payload`, without the identifier of an event. -/
def identity (self : StrategyMutation) : List Payload :=
  [dump self.strategyId, dump self.strategyVersion, dump self.sequence, dump self.eventType,
    dump (self.fromState.map (·.value)), dump self.toState.value, dump self.reasonCode,
    dump self.actor, dump self.evaluationReportId, dump self.evaluationHash, dump self.occurredAt,
    dump self.previousHash]

end StrategyMutation

structure StrategyAuditEvent extends StrategyMutation where
  eventId : UUID
  eventHash : Sha256
deriving DecidableEq

namespace StrategyAuditEvent

def link : Link StrategyAuditEvent Sha256 where
  sequence := (·.sequence)
  previous := (·.previousHash)
  hash := (·.eventHash)

def validate (self : StrategyAuditEvent) : Call Unit := do
  nonEmptyString self.strategyId
  nonEmptyString self.strategyVersion
  atLeast 1 self.sequence
  raiseUnless (isStrategyEventType self.eventType = true)
    "String should match the event type pattern"
  checkCode self.reasonCode
  raiseUnless (isStrategyActor self.actor = true) "String should match the actor pattern"
  raiseUnless (self.sequence = 1 ↔ self.previousHash = none)
    "only the genesis strategy event may omit previous hash"
  raiseUnless (self.evaluationReportId ≠ none ↔ self.evaluationHash ≠ none)
    "audit evaluation id and hash must be bound together"

def calculateEventHash [Hashing] (self : StrategyAuditEvent) : Sha256 :=
  stablePayloadHash (.record "event" (self.identity ++ [dump self.eventId]))

end StrategyAuditEvent

structure StrategyMutationResult where
  entry : StrategyRegistryEntry
  event : StrategyAuditEvent

end StonksPaper
