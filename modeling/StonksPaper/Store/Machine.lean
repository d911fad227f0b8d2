import StonksPaper.Base.Run
import StonksPaper.Store.Execute
import StonksPaper.Store.Operations

/-!
# Runs of the paper store

A run is a sequence of operations, each with the instant at which the database clock is read. An
operation that fails leaves the store as it was. The store keeps its history, because a worker's
first look-up of a record may have read any earlier state.
-/

namespace StonksPaper

open scoped ExactArithmetic

/-- The operations on the store. The two repository operations that `execute_reference_paper` is
made of are listed as well: their atomicity does not depend on their caller. -/
inductive Operation where
  | registerAccount (snapshot : AccountPortfolioSnapshot) (baseCurrency : Currency)
  | saveTarget (target : PortfolioTarget)
  | saveRiskDecision (decision : RiskDecision)
  | createReservationOrders (pairs : List ReservationOrderPair)
  | applyPaperExecution (command : ExecutionCommand) (outcome : PaperExecutionOutcome)
      (expectedAccountSequence : ℕ)
  | append (transaction : JournalTransaction) (expectedSequence : ℕ)
      (expectedHash : Option Sha256) (expectedAccountSequence : ℕ)
  | executeReferencePaper (age : ℕ) (policy : PaperExecutionPolicy)
      (ledgerPolicy : LedgerPostingPolicy) (request : PaperExecutionRequest) (commits : Commits)
  | activate (command : ActivateKillSwitchCommand) (actor : String)
  | failReconciliation (command : ReconcilePaperCommand) (actor : String)
      (mismatchReasons : List String)
  | recordReconciliation (command : ReconcilePaperCommand) (report : LedgerReconciliationReport)
      (actor : String)
  | completeResume (command : ResumePaperCommand) (preparation : ResumePreparation)
      (reports : List LedgerReconciliationReport) (actor : String)
  | rejectResume (command : ResumePaperCommand) (preparation : ResumePreparation) (actor : String)
      (mismatchReasons : List String)

/-- An operation of the application, not a part of one. -/
def Operation.IsCall : Operation → Prop
  | .applyPaperExecution .. => False
  | .append .. => False
  | _ => True

/-- The operations that cancel pending orders. -/
def Operation.Cancels : Operation → Prop
  | .activate .. => True
  | .failReconciliation .. => True
  | _ => False

/-- The store and the states it was in before, the latest first. -/
structure World where
  store : Store
  past : List Store

/-- The store as it was `age` operations ago. -/
def World.view (w : World) (age : ℕ) : Store := ((w.store :: w.past)[age]?).getD w.store

def Store.kept {α : Type} (s : Store) : Call (α × Store) → Store
  | .success (_, s') => s'
  | _ => s

section

variable [Hashing]

/-- The store after an operation. -/
def Operation.after (w : World) (now : UTCDateTime) : Operation → Store
  | .registerAccount snapshot baseCurrency =>
      w.store.kept (w.store.registerAccount snapshot baseCurrency now)
  | .saveTarget target => w.store.kept (w.store.saveTarget target)
  | .saveRiskDecision decision => w.store.kept (w.store.saveRiskDecision decision)
  | .createReservationOrders pairs => w.store.kept (w.store.createReservationOrders pairs now)
  | .applyPaperExecution command outcome expected =>
      w.store.kept (w.store.applyPaperExecution command outcome expected)
  | .append transaction expectedSequence expectedHash expectedAccountSequence =>
      w.store.kept (w.store.append transaction expectedSequence expectedHash
        expectedAccountSequence now)
  | .executeReferencePaper age policy ledgerPolicy request commits =>
      (w.store.executeReferencePaper (w.view age) policy ledgerPolicy request commits now).2
  | .activate command actor => w.store.kept (w.store.activate command actor now)
  | .failReconciliation command actor mismatchReasons =>
      w.store.kept (w.store.failReconciliation command actor mismatchReasons now)
  | .recordReconciliation command report actor =>
      w.store.kept (w.store.recordReconciliation command report actor now)
  | .completeResume command preparation reports actor =>
      w.store.kept (w.store.completeResume command preparation reports actor now)
  | .rejectResume command preparation actor mismatchReasons =>
      w.store.kept (w.store.rejectResume command preparation actor mismatchReasons now)

abbrev Timed := Operation × UTCDateTime

def World.step (w : World) (op : Timed) : World :=
  { store := op.1.after w op.2, past := w.store :: w.past }

def World.reached (at_ : UTCDateTime) (ops : List Timed) : World :=
  Run.run World.step ⟨Store.migrated at_, []⟩ ops

end

/-! ## A concrete run -/

namespace Scenario

variable [Hashing] (s : Scenario)

/-- The opening snapshot of the concrete account. -/
def snapshot : AccountPortfolioSnapshot where
  snapshotId := 200
  accountId := s.account
  asOf := 0
  accountAggregateSequence := 0
  portfolioSequence := 0
  ledgerSequence := 0
  ledgerHash := none
  cash := [⟨"USD", 10000, 0, 1⟩]
  positions := []
  pendingOrderIds := []

def pairs : List ReservationOrderPair := s.legs.map fun leg => (s.mutation leg, s.intent leg)

def authorised : List Timed :=
  [(.saveTarget s.target, 1), (.saveRiskDecision s.decision, 2),
    (.createReservationOrders s.pairs, 10)]

def opened : List Timed := (.registerAccount s.snapshot "USD", 0) :: s.authorised

def call (leg : Leg) (bars : List ExecutionBar) (asOf : UTCDateTime) : Timed :=
  (.executeReferencePaper 0 policy repositoryPolicy (s.request leg bars asOf) {}, asOf)

def accepted (leg : Leg) : List Timed := s.opened ++ [s.call leg [] 50]

def filled (leg : Leg) : List Timed := s.opened ++ [s.call leg [bar leg] 50]

def stopped : List Timed := [(.activate ⟨900, .global, none, 1, "stop"⟩ "operator", 60)]

end Scenario

end StonksPaper
