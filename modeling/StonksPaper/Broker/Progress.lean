import Mathlib.Data.List.Induction
import StonksPaper.Base.Run
import StonksPaper.Domain.ExecutionModel

/-!
# The events of an order and its fills

An order's events come from calls of `appendOrderEvent`, each with the last event before it. They
always form a chain. They account for the fills as long as a call that ends the order without a
fill repeats the filled quantity, which the calls themselves do not check, and as long as the
context does not round what a call leaves of the order.
-/

namespace StonksPaper

open Chain

/-- The arguments of a call that appends to an order's events. -/
structure OrderCall where
  target : OrderStatus
  cumulative : Decimal
  at_ : UTCDateTime
  reason : Option String

def filledQuantity (events : List OrderEvent) : Decimal :=
  endState (·.cumulativeFilledQuantity) 0 events

/-- Ending an order without a fill repeats the filled quantity, and a partial fill does not. -/
def OrderCall.Faithful (filled : Decimal) (call : OrderCall) : Prop :=
  (call.target ∈ [.rejected, .cancelled, .expired] → call.cumulative = filled) ∧
    (call.target = .partiallyFilled → call.cumulative ≠ filled)

/-- The filled quantity rises at a fill and at nothing else. -/
def OrderEvent.CountsFill (filled : Decimal) (e : OrderEvent) : Prop :=
  if e.toStatus ∈ [.partiallyFilled, .filled] then filled < e.cumulativeFilledQuantity
  else e.cumulativeFilledQuantity = filled

instance decidableCountsFill (filled : Decimal) (e : OrderEvent) :
    Decidable (e.CountsFill filled) :=
  inferInstanceAs (Decidable (ite _ _ _))

section

variable [Arithmetic] [Hashing]

def OrderCall.KeepsRemainder (intent : OrderIntent) (call : OrderCall) : Prop :=
  kept (intent.quantity - call.cumulative) = intent.quantity - call.cumulative

def OrderEvent.Splits (intent : OrderIntent) (e : OrderEvent) : Prop :=
  e.cumulativeFilledQuantity + e.remainingQuantity = intent.quantity

def OrderCall.perform (intent : OrderIntent) (events : List OrderEvent) (call : OrderCall) :
    Call OrderEvent :=
  appendOrderEvent intent events.getLast? call.target call.cumulative call.at_ call.reason

/-- The checks of `appendOrderEvent`. -/
def OrderCall.Accepted (intent : OrderIntent) (events : List OrderEvent) (call : OrderCall) :
    Prop :=
  AppendAccepted intent events.getLast? call.target call.cumulative call.at_ call.reason

/-- A call that fails appends nothing. -/
def appendCall (intent : OrderIntent) (events : List OrderEvent) (call : OrderCall) :
    List OrderEvent :=
  match call.perform intent events with
  | .success e => events ++ [e]
  | _ => events

/-- The events of an order, whatever the calls. -/
structure OrderChain (intent : OrderIntent) (events : List OrderEvent) : Prop where
  linked : Linked OrderEvent.link 0 none events
  transitions : Traces (fun status e => e.fromStatus = status ∧ e.toStatus ∈ status.transitions)
    (·.toStatus) .created events
  absorbed : ∀ last ∈ events.getLast?, last.toStatus.Terminal →
    ∀ call : OrderCall, ¬ (call.perform intent events).Succeeds
  nonneg : ∀ e ∈ events, 0 ≤ e.cumulativeFilledQuantity
  ordered : events.Pairwise fun e e' => e.occurredAt ≤ e'.occurredAt

/-- The events are a chain, each splits the quantity, and the filled part moves with the fills. -/
structure AccountsForFills (intent : OrderIntent) (events : List OrderEvent) : Prop where
  chain : OrderChain intent events
  split : ∀ e ∈ events, e.Splits intent
  fills : Traces OrderEvent.CountsFill (·.cumulativeFilledQuantity) 0 events

variable {intent : OrderIntent} {events : List OrderEvent} {call : OrderCall} {e : OrderEvent}

theorem OrderCall.perform_eq_success :
    call.perform intent events = .success e ↔ call.Accepted intent events ∧
      e = orderEvent intent events.getLast? call.target call.cumulative call.at_ call.reason :=
  appendOrderEvent_eq_success

/-! ## What the events keep -/

/-- What the calls leave, with what the next call needs of the last event. -/
structure OrderSound (intent : OrderIntent) (events : List OrderEvent) : Prop where
  linked : Linked OrderEvent.link 0 none events
  transitions : Traces (fun status e => e.fromStatus = status ∧ e.toStatus ∈ status.transitions)
    (·.toStatus) .created events
  nonneg : ∀ e ∈ events, 0 ≤ e.cumulativeFilledQuantity
  ordered : events.Pairwise fun e e' => e.occurredAt ≤ e'.occurredAt
  latest : ∀ last ∈ events.getLast?, ∀ e ∈ events, e.occurredAt ≤ last.occurredAt
  left : ∀ e ∈ events, e.toStatus ≠ .created
  accepted : ∀ e ∈ events, e.toStatus = .accepted → e.cumulativeFilledQuantity = 0
  part : ∀ e ∈ events, e.toStatus = .partiallyFilled → e.cumulativeFilledQuantity < intent.quantity

omit [Arithmetic] [Hashing] in
theorem OrderSound.nil : OrderSound intent [] where
  linked := trivial
  transitions := trivial
  nonneg := by simp
  ordered := List.Pairwise.nil
  latest := by simp
  left := by simp
  accepted := by simp
  part := by simp

omit [Arithmetic] [Hashing] in
theorem endState_toStatus (events : List OrderEvent) :
    endState (·.toStatus) .created events =
      events.getLast?.elim OrderStatus.created (·.toStatus) := by
  cases hlast : events.getLast? with
  | none =>
      rw [List.getLast?_eq_none_iff.mp hlast]
      rfl
  | some last => exact endState_of_getLast _ _ hlast

omit [Arithmetic] [Hashing] in
theorem filledQuantity_of_getLast {last : OrderEvent} (hlast : events.getLast? = some last) :
    filledQuantity events = last.cumulativeFilledQuantity :=
  endState_of_getLast _ _ hlast

/-- An accepted call keeps the books. -/
theorem OrderSound.append (hevents : OrderSound intent events)
    (hcall : call.Accepted intent events) :
    OrderSound intent (events ++
      [orderEvent intent events.getLast? call.target call.cumulative call.at_ call.reason]) := by
  have hlatest : ∀ e ∈ events, e.occurredAt ≤ call.at_ := by
    intro e he
    cases hlast : events.getLast? with
    | none =>
        rw [List.getLast?_eq_none_iff.mp hlast] at he
        cases he
    | some last => exact (hevents.latest last hlast e he).trans (hcall.previous_time last hlast)
  have hnew {P : OrderEvent → Prop} (hold : ∀ e ∈ events, P e)
      (hlast : P (orderEvent intent events.getLast? call.target call.cumulative call.at_
        call.reason)) : ∀ e ∈ events ++ [orderEvent intent events.getLast? call.target
          call.cumulative call.at_ call.reason], P e := by
    intro e he
    rcases List.mem_append.mp he with he | he
    · exact hold e he
    · exact List.mem_singleton.mp he ▸ hlast
  exact
    { linked := by
        refine (linked_concat _).mpr ⟨hevents.linked, ?_, ?_⟩
        · cases hlast : events.getLast? with
          | none =>
              rw [List.getLast?_eq_none_iff.mp hlast]
              rfl
          | some last =>
              have hsequence : last.sequence = events.length :=
                hevents.linked.sequence_getLast _ hlast
              simp [OrderEvent.link, orderEvent, hsequence]
        · cases hlast : events.getLast? with
          | none =>
              rw [List.getLast?_eq_none_iff.mp hlast]
              rfl
          | some last =>
              rw [headHash_of_getLast _ _ hlast]
              rfl
      transitions := by
        refine (traces_append _ _).mpr ⟨hevents.transitions, ?_, trivial⟩
        rw [endState_toStatus]
        exact ⟨rfl, hcall.transition⟩
      nonneg := hnew hevents.nonneg hcall.nonneg
      ordered := by
        refine List.pairwise_append.mpr ⟨hevents.ordered, List.pairwise_singleton _ _, ?_⟩
        intro e he e' he'
        rw [List.mem_singleton.mp he']
        exact hlatest e he
      latest := by
        intro last hlast
        rw [List.getLast?_concat, Option.mem_some_iff] at hlast
        subst hlast
        exact hnew hlatest le_rfl
      left := by
        refine hnew hevents.left fun hcreated => ?_
        have htransition := hcall.transition
        rw [show call.target = .created from hcreated] at htransition
        cases hstatus : events.getLast?.elim OrderStatus.created (·.toStatus) <;>
          simp [hstatus, OrderStatus.transitions] at htransition
      accepted := hnew hevents.accepted hcall.accepted
      part := hnew hevents.part fun htarget => (hcall.partial_fill htarget).2 }

theorem OrderSound.appendCall (hevents : OrderSound intent events) (call : OrderCall) :
    OrderSound intent (appendCall intent events call) := by
  cases h : call.perform intent events with
  | failure error => simpa only [StonksPaper.appendCall, h] using hevents
  | raised error => simpa only [StonksPaper.appendCall, h] using hevents
  | success e =>
      obtain ⟨hcall, rfl⟩ := OrderCall.perform_eq_success.mp h
      simpa only [StonksPaper.appendCall, h] using hevents.append hcall

theorem OrderSound.run (calls : List OrderCall) :
    OrderSound intent (Run.run (StonksPaper.appendCall intent) [] calls) :=
  Run.invariant_run (fun _ call hsound => hsound.appendCall call) .nil calls

theorem OrderSound.chain (hevents : OrderSound intent events) : OrderChain intent events where
  linked := hevents.linked
  transitions := hevents.transitions
  absorbed := by
    rintro last hlast hterminal call ⟨e, he⟩
    have htransition := (OrderCall.perform_eq_success.mp he).1.transition
    rw [Option.mem_def.mp hlast] at htransition
    have hnone := OrderStatus.terminal_iff.mp hterminal
    simp [hnone] at htransition
  nonneg := hevents.nonneg
  ordered := hevents.ordered

/-! ## When the fills are accounted for -/

omit [Arithmetic] [Hashing] in
theorem OrderCall.Accepted.filledQuantity_le (hcall : call.Accepted intent events) :
    filledQuantity events ≤ call.cumulative := by
  cases hlast : events.getLast? with
  | none =>
      rw [List.getLast?_eq_none_iff.mp hlast]
      exact hcall.nonneg
  | some last =>
      rw [filledQuantity_of_getLast hlast]
      exact hcall.previous_filled last hlast

omit [Arithmetic] [Hashing] in
theorem OrderSound.unfilled (hevents : OrderSound intent events)
    (hcall : call.Accepted intent events) (htarget : call.target = .accepted) :
    filledQuantity events = 0 := by
  cases hlast : events.getLast? with
  | none =>
      rw [List.getLast?_eq_none_iff.mp hlast]
      rfl
  | some last =>
      have hleft := hevents.left last (List.mem_of_getLast? hlast)
      have htransition := hcall.transition
      rw [hlast, htarget] at htransition
      cases hstatus : last.toStatus <;>
        simp_all [OrderStatus.transitions]

omit [Arithmetic] in
/-- An order that can still be filled is not filled. -/
theorem OrderSound.filledQuantity_lt (hintent : intent.Valid) (hevents : OrderSound intent events)
    (hcall : call.Accepted intent events) (htarget : call.target = .filled) :
    filledQuantity events < intent.quantity := by
  have htransition := hcall.transition
  rw [htarget] at htransition
  cases hlast : events.getLast? with
  | none => simp [hlast, OrderStatus.transitions] at htransition
  | some last =>
      have hmem := List.mem_of_getLast? hlast
      rw [filledQuantity_of_getLast hlast]
      cases hstatus : last.toStatus with
      | accepted =>
          rw [hevents.accepted last hmem hstatus]
          exact hintent.quantity_pos
      | partiallyFilled => exact hevents.part last hmem hstatus
      | _ => simp [hlast, hstatus, OrderStatus.transitions] at htransition

/-- Of the accepted calls the faithful ones account for their fills. -/
theorem OrderSound.countsFill_iff (hintent : intent.Valid) (hevents : OrderSound intent events)
    (hcall : call.Accepted intent events) :
    (orderEvent intent events.getLast? call.target call.cumulative call.at_
        call.reason).CountsFill (filledQuantity events) ↔
      call.Faithful (filledQuantity events) := by
  have hle := hcall.filledQuantity_le
  unfold OrderEvent.CountsFill OrderCall.Faithful
  simp only [orderEvent]
  cases htarget : call.target with
  | created =>
      have hleft := (hevents.append hcall).left _ List.mem_concat_self
      exact absurd htarget hleft
  | accepted => simp [hcall.accepted htarget, hevents.unfilled hcall htarget]
  | partiallyFilled =>
      simp only [List.mem_cons, true_or, if_true]
      exact ⟨fun hlt => ⟨by simp, fun _ => hlt.ne'⟩,
        fun hne => lt_of_le_of_ne hle (hne.2 trivial).symm⟩
  | filled =>
      have hlt := hevents.filledQuantity_lt hintent hcall htarget
      rw [← hcall.filled htarget] at hlt
      simp [hlt]
  | rejected => simp
  | cancelled => simp
  | expired => simp

theorem splits_iff : (orderEvent intent events.getLast? call.target call.cumulative call.at_
    call.reason).Splits intent ↔ call.KeepsRemainder intent := by
  unfold OrderEvent.Splits OrderCall.KeepsRemainder
  simp only [orderEvent]
  constructor <;> intro h <;> linarith

/-- After any calls the events are a chain. They account for the fills exactly when every accepted
call that ends the order without a fill repeats the filled quantity, no accepted partial fill does,
and the context keeps what the accepted calls leave of the order. -/
theorem appendOrderEvent_accountsForFills_iff (hintent : intent.Valid) (calls : List OrderCall) :
    AccountsForFills intent (Run.run (appendCall intent) [] calls) ↔
      Run.Meets (appendCall intent) (fun events call => call.Accepted intent events →
        call.Faithful (filledQuantity events) ∧ call.KeepsRemainder intent) [] calls := by
  have hbooks : ((∀ e ∈ Run.run (appendCall intent) [] calls, e.Splits intent) ∧
      Traces OrderEvent.CountsFill (·.cumulativeFilledQuantity) 0
        (Run.run (appendCall intent) [] calls)) ↔
      Run.Meets (appendCall intent) (fun events call => call.Accepted intent events →
        call.Faithful (filledQuantity events) ∧ call.KeepsRemainder intent) [] calls := by
    induction calls using List.reverseRecOn with
    | nil => simp
    | append_singleton calls call ih =>
        have hevents : OrderSound intent (Run.run (appendCall intent) [] calls) := .run calls
        rw [Run.run_append, Run.meets_append, ← ih, Run.run_cons, Run.run_nil, Run.meets_cons]
        generalize Run.run (appendCall intent) [] calls = events at hevents
        by_cases hcall : call.Accepted intent events
        · have hperform := OrderCall.perform_eq_success.mpr ⟨hcall, rfl⟩
          simp only [appendCall, hperform, traces_append, traces_cons, traces_nil, and_true,
            hcall, true_imp_iff, Run.meets_nil, List.forall_mem_append, List.forall_mem_singleton]
          have hcounts := hevents.countsFill_iff hintent hcall
          rw [splits_iff, ← hcounts, filledQuantity]
          tauto
        · have hrefused : ∀ e, call.perform intent events ≠ .success e :=
            fun e he => hcall (OrderCall.perform_eq_success.mp he).1
          have hsame : appendCall intent events call = events := by
            unfold appendCall
            split
            · rename_i e he
              exact absurd he (hrefused e)
            · rfl
          simp [hsame, hcall]
  constructor
  · intro haccounts
    exact hbooks.mp ⟨haccounts.split, haccounts.fills⟩
  · intro hmeets
    obtain ⟨hsplit, hfills⟩ := hbooks.mpr hmeets
    exact ⟨(OrderSound.run calls).chain, hsplit, hfills⟩

end

section

open scoped PythonArithmetic CodeHashing

/-- The concrete order is accepted and filled. -/
theorem appendOrderEvent_accountsForFills_iff_filled :
    AccountsForFills (Scenario.intent {} {}) (Run.run (appendCall (Scenario.intent {} {})) []
        [⟨.accepted, 0, 20, none⟩, ⟨.filled, 10, 30, none⟩]) ↔
      Run.Meets (appendCall (Scenario.intent {} {})) (fun events call =>
        call.Accepted (Scenario.intent {} {}) events → call.Faithful (filledQuantity events) ∧
          call.KeepsRemainder (Scenario.intent {} {})) []
        [⟨.accepted, 0, 20, none⟩, ⟨.filled, 10, 30, none⟩] := by
  have hvalid : (Scenario.intent {} {}).Valid := OrderIntent.validate_iff.mp (by decide +kernel)
  exact appendOrderEvent_accountsForFills_iff hvalid _

/-- A cancelled order that shows its whole quantity as filled, without a fill. -/
theorem cancelled_order_shows_fill : (Scenario.intent {} {}).Valid ∧
    ¬ AccountsForFills (Scenario.intent {} {}) (Run.run (appendCall (Scenario.intent {} {})) []
      [⟨.accepted, 0, 20, none⟩, ⟨.cancelled, 10, 30, none⟩]) := by
  have hvalid : (Scenario.intent {} {}).Valid := OrderIntent.validate_iff.mp (by decide +kernel)
  have hevents : ¬ Traces OrderEvent.CountsFill (·.cumulativeFilledQuantity) 0
      (Run.run (appendCall (Scenario.intent {} {})) []
        [⟨.accepted, 0, 20, none⟩, ⟨.cancelled, 10, 30, none⟩]) := by decide +kernel
  exact ⟨hvalid, fun haccounts => hevents haccounts.fills⟩

end

end StonksPaper
