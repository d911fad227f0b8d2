import Mathlib.Data.List.Induction
import StonksPaper.Runs.Finish
import StonksPaper.Runs.Graph
import StonksPaper.Runs.Switches

/-!
# Exactly once

Over every run of calls: one record for an idempotency key, one transaction for a fill, a retry
that finds its record returns it, and a call that fails leaves everything but the global switch.
-/

namespace StonksPaper

open Chain
open scoped ExactArithmetic

section

variable [Hashing] {s s' : Store}

/-! ## The state of every filled order is known -/

def AllKnown (s : Store) : Prop := ∀ f ∈ s.fills, s.FillStateKnown f

omit [Hashing] in
theorem AllKnown.of_eq (hknown : AllKnown s) (hfills : s'.fills = s.fills)
    (hevents : s'.orderEvents = s.orderEvents) : AllKnown s' := by
  intro f hf
  rw [hfills] at hf
  refine fillStateKnown_of_eq (orderEventsOf_of_eq hevents) ?_ (hknown f hf)
  unfold Store.fillsOf
  rw [hfills]

variable {policy : PaperExecutionPolicy} {ledgerPolicy : LedgerPostingPolicy}
  {request : PaperExecutionRequest} {now : UTCDateTime} {row : PaperAccountRow}
  {held : AccountReservation} {projection final : LedgerProjection}
  {simulated : PaperExecutionOutcome} {record : PaperExecutionRecord} {s₁ : Store}
  {finalSequence : ℕ}

theorem FreshExecution.allKnown
    (h : FreshExecution s policy ledgerPolicy request now row held projection simulated record s₁
      final finalSequence s') (hk : ExecutionsKept s) (hknown : AllKnown s) : AllKnown s' := by
  have hstored := h.stored hk
  intro f hf
  rw [hstored.fills] at hf
  by_cases hown : f.orderIntentId = request.command.intent.intentId
  · -- the order had no fill, so this one is of the outcome, and the graph check has seen it
    have hnew : f ∈ simulated.receipt.fills := by
      rcases List.mem_append.mp hf with hold | hnew
      · have hprior : f ∈ s.fillsOf request.command.intent.intentId := mem_fillsOf.mpr ⟨hold, hown⟩
        rw [hstored.unfilled] at hprior
        cases hprior
      · exact hnew
    have hgraph := h.graph
    rw [h.record_eq] at hgraph
    have haccount := (validateExecutionGraph_eq_success (List.ne_nil_of_mem hnew) hgraph).2
    refine (validateAccountGraph_eq_success haccount).2 f ?_ (hstored.fills_own f hnew).2
    rw [hstored.fills]
    exact hf
  · have hold : f ∈ s.fills := by
      rcases List.mem_append.mp hf with hold | hnew
      · exact hold
      · exact absurd (hstored.fills_own f hnew).1 hown
    refine fillStateKnown_of_eq (orderEventsOf_append_other hstored.events ?_) ?_ (hknown f hold)
    · intro e he
      rw [hstored.events_own e he]
      exact Ne.symm hown
    · have hnone : simulated.receipt.fills.filter (·.orderIntentId = f.orderIntentId) = [] := by
        refine List.filter_eq_nil_iff.mpr fun g hg => ?_
        rw [(hstored.fills_own g hg).1]
        simpa using Ne.symm hown
      unfold Store.fillsOf
      rw [hstored.fills, List.filter_append, hnone, List.append_nil]

def OrdersAlike (s s' : Store) : Prop := s'.fills = s.fills ∧ s'.orderEvents = s.orderEvents

omit [Hashing] in
theorem SameTrading.ordersAlike (h : SameTrading s s') : OrdersAlike s s' := by
  rw [h]
  exact ⟨rfl, rfl⟩

/-- Operations that execute nothing and cancel nothing leave fills and events alone. -/
theorem ordersAlike_after (w : World) (now : UTCDateTime) {op : Operation} (hcall : op.IsCall)
    (hcancels : ¬ op.Cancels)
    (hexecute : ∀ age policy ledgerPolicy request commits,
      op ≠ .executeReferencePaper age policy ledgerPolicy request commits) :
    OrdersAlike w.store (op.after w now) := by
  have hrefl : OrdersAlike w.store w.store := ⟨rfl, rfl⟩
  cases op with
  | registerAccount =>
      refine kept_invariant hrefl fun _ _ h => ?_
      rcases registerAccount_eq_success h with rfl | ⟨rfl, -⟩ <;> exact ⟨rfl, rfl⟩
  | saveTarget =>
      refine kept_invariant hrefl fun _ _ h => ?_
      rcases saveTarget_eq_success h with rfl | rfl <;> exact ⟨rfl, rfl⟩
  | saveRiskDecision =>
      refine kept_invariant hrefl fun _ _ h => ?_
      rcases saveRiskDecision_eq_success h with rfl | rfl <;> exact ⟨rfl, rfl⟩
  | createReservationOrders =>
      refine kept_invariant hrefl fun _ _ h => ?_
      rcases createReservationOrders_eq_success h with rfl | ⟨_, _, hcreated⟩
      · exact hrefl
      · exact ⟨hcreated.intents.2.2.2.1, hcreated.intents.2.1⟩
  | applyPaperExecution => exact hcall.elim
  | append => exact hcall.elim
  | executeReferencePaper => exact absurd rfl (hexecute _ _ _ _ _)
  | activate => exact absurd trivial hcancels
  | failReconciliation => exact absurd trivial hcancels
  | recordReconciliation =>
      exact kept_invariant hrefl fun _ _ h => (operated_recordReconciliation h).same.ordersAlike
  | completeResume =>
      exact kept_invariant hrefl fun _ _ h => (operated_completeResume h).same.ordersAlike
  | rejectResume =>
      exact kept_invariant hrefl fun _ _ h => (operated_rejectResume h).same.ordersAlike

theorem AllKnown.after {w : World} {op : Operation} (hcall : op.IsCall) (hcancels : ¬ op.Cancels)
    (hk : ExecutionsKept w.store) (hknown : AllKnown w.store) : AllKnown (op.after w now) := by
  by_cases hexecute : ∃ age policy ledgerPolicy request commits,
      op = .executeReferencePaper age policy ledgerPolicy request commits
  · obtain ⟨age, policy, ledgerPolicy, request, commits, rfl⟩ := hexecute
    rcases executeReferencePaper_cases w.store (w.view age) policy ledgerPolicy request commits
      now with
      hsame | ⟨_, _, _, _, _, _, _, _, -, hfresh⟩
    · obtain ⟨hfills, hevents⟩ := hsame.same.ordersAlike
      exact hknown.of_eq hfills hevents
    · exact hfresh.allKnown hk hknown
  · obtain ⟨hfills, hevents⟩ := ordersAlike_after w now hcall hcancels
      fun age policy ledgerPolicy request commits hop =>
        hexecute ⟨age, policy, ledgerPolicy, request, commits, hop⟩
    exact hknown.of_eq hfills hevents

theorem allKnown_reached {at_ : UTCDateTime} {ops : List Timed}
    (hcalls : ∀ op ∈ ops, op.1.IsCall) (hcancels : ∀ op ∈ ops, ¬ op.1.Cancels) :
    AllKnown (World.reached at_ ops).store :=
  World.invariant_after (C := fun op => ¬ op.Cancels) at_ ops
    (fun op hop => ⟨hcalls op hop, hcancels op hop⟩) (fun _ hf => absurd hf List.not_mem_nil)
    fun _ _ _ hcall hop hk hknown => hknown.after hcall hop hk

/-! ## The graph of fills and transactions -/

/-- Every fill has one transaction and every transaction one fill, of the same order and
account. -/
def GraphComplete (s : Store) : Prop :=
  (∀ f ∈ s.fills, ∃ t, s.journalsOf f.fillId = [t] ∧ t.sourceOrderIntentId = f.orderIntentId ∧
    t.accountId = f.accountId) ∧
  ∀ t ∈ s.journal, ∃ f, s.fills.filter (·.fillId = t.sourceFillId) = [f] ∧
    f.orderIntentId = t.sourceOrderIntentId ∧ f.accountId = t.accountId

theorem graphComplete_of_kept (hjournal : JournalKept s) (hposted : AllPosted s) :
    GraphComplete s := by
  constructor
  · intro f hf
    obtain ⟨t, ht, hsource⟩ := hposted f hf
    obtain ⟨g, hg, hid, horder, haccount⟩ := hjournal.sourced t ht
    obtain rfl : g = f := hjournal.fills_unique.eq hg hf (hid.trans hsource)
    refine ⟨t, ?_, horder.symm, haccount.symm⟩
    have hone := hjournal.sources_unique.filter_eq ht
    rwa [hsource] at hone
  · intro t ht
    obtain ⟨f, hf, hid, horder, haccount⟩ := hjournal.sourced t ht
    have hone := hjournal.fills_unique.filter_eq hf
    rw [hid] at hone
    exact ⟨f, hone, horder, haccount⟩

/-- An account with a transaction reads its projection back. -/
theorem accountRead_of_kept {t : JournalTransaction} (hjournal : JournalKept s)
    (hledger : LedgerKept s) (ht : t ∈ s.journal) :
    ∃ opening p, s.getProjection t.accountId = .success p ∧
      s.replayInputs t.accountId = .success (opening, s.journalOf t.accountId, p) := by
  obtain ⟨row, hrow, hid⟩ := hledger.journal_owned t ht
  obtain ⟨opening, p, hrefines⟩ := hledger.refines row hrow
  have haccount : s.account row.accountId = some row :=
    Table.get_of_mem hledger.accounts_unique hrow
  have hread : LedgerReadable s row.accountId := by
    constructor
    · rw [hid]
      exact hjournal.opened t ht
    · intro u hu
      have hmem : u ∈ s.journal := (List.mem_filter.mp (mem_sorted.mp hu)).1
      exact hjournal.valid u hmem
  rw [← hid]
  exact ⟨opening, p, hrefines.getProjection haccount hread, hrefines.replayInputs hread⟩

/-- The graph of a stored record passes the check of a retry. -/
theorem validateExecutionGraph_of_kept (hk : ExecutionsKept s) (hjournal : JournalKept s)
    (hledger : LedgerKept s) (hposted : AllPosted s) (hknown : AllKnown s)
    {r : PaperExecutionRecord} (hr : r ∈ s.receipts) : s.validateExecutionGraph r =
    .success () := by
  obtain ⟨hfills, -⟩ := graphComplete_of_kept hjournal hposted
  by_cases hfilled : r.outcome.receipt.fills = []
  · simp [Store.validateExecutionGraph, hfilled]
  · obtain ⟨f, hf⟩ := List.exists_mem_of_ne_nil _ hfilled
    obtain ⟨hstored, howner⟩ := hk.records.fills_stored r hr f hf
    obtain ⟨t, hone, -, haccount⟩ := hfills f hstored
    have ht : t ∈ s.journal := by
      have hmem : t ∈ s.journalsOf f.fillId := hone ▸ List.mem_singleton_self t
      exact (List.mem_filter.mp hmem).1
    obtain ⟨opening, p, hprojection, hinputs⟩ := accountRead_of_kept hjournal hledger ht
    rw [haccount, howner] at hprojection hinputs
    have hjournals : ∀ g ∈ r.outcome.receipt.fills, (s.journalsOf g.fillId).length = 1 ∧
        ∀ u ∈ s.journalsOf g.fillId, u.sourceOrderIntentId = g.orderIntentId := by
      intro g hg
      obtain ⟨u, hone, horder, -⟩ := hfills g (hk.records.fills_stored r hr g hg).1
      rw [hone]
      simpa using horder
    have haccountFills : ∀ g ∈ s.fills.filter (·.accountId = r.accountId),
        (s.journalsOf g.fillId).length = 1 := by
      intro g hg
      obtain ⟨u, hone, -⟩ := hfills g (List.mem_filter.mp hg).1
      simp [hone]
    have hstates : ∀ g ∈ s.fills.filter (·.accountId = r.accountId), s.FillStateKnown g :=
      fun g hg => hknown g (List.mem_filter.mp hg).1
    simp only [Store.validateExecutionGraph, hfilled, if_false, Attempt.bind_eq_success,
      failUnless_eq_success, Store.validateAccountGraph, Attempt.forM_eq_success,
      Store.validateFillState, hprojection, hinputs]
    exact ⟨(), hjournals, (), haccountFills, p, rfl, (opening, _, p), rfl, (), rfl, hstates⟩

/-! ## Retries -/

theorem World.past_reached {at_ : UTCDateTime} {ops : List Timed} {t : Store}
    (h : t ∈ (World.reached at_ ops).past) :
    ∃ earlier, earlier <+: ops ∧ t = (World.reached at_ earlier).store := by
  induction ops using List.reverseRecOn with
  | nil => cases h
  | append_singleton ops op ih =>
      have hlast : World.reached at_ (ops ++ [op]) = (World.reached at_ ops).step op :=
        Run.run_append _ _ _ _
      rw [hlast] at h
      rcases List.mem_cons.mp h with rfl | h
      · exact ⟨ops, List.prefix_append _ _, rfl⟩
      · obtain ⟨earlier, hearlier, ht⟩ := ih h
        exact ⟨earlier, hearlier.trans (List.prefix_append _ _), ht⟩

theorem World.view_reached (at_ : UTCDateTime) (ops : List Timed) (age : ℕ) :
    ∃ earlier, earlier <+: ops ∧
      (World.reached at_ ops).view age = (World.reached at_ earlier).store := by
  unfold World.view
  cases hview : ((World.reached at_ ops).store :: (World.reached at_ ops).past)[age]? with
  | none => exact ⟨ops, List.prefix_rfl, rfl⟩
  | some t =>
      rcases List.mem_cons.mp (List.mem_of_getElem? hview) with rfl | hpast
      · exact ⟨ops, List.prefix_rfl, rfl⟩
      · exact World.past_reached hpast

theorem receipts_effect {O : Permission} (h : Effect O s s') : s.receipts ⊆ s'.receipts := by
  cases h with
  | registered => exact List.Subset.refl _
  | targeted => exact List.Subset.refl _
  | decided => exact List.Subset.refl _
  | batch created => exact created.intents.2.2.1 ▸ List.Subset.refl _
  | executed _ persisted => exact persisted.orders.2.2 ▸ List.subset_append_left _ _
  | posted _ posted => exact posted.orders.2.2 ▸ List.Subset.refl _
  | cancelled _ cancelled => exact cancelled.orders.2.2 ▸ List.Subset.refl _
  | operated operated => exact operated.same.orders.2.2 ▸ List.Subset.refl _

theorem receipts_reached {at_ : UTCDateTime} {earlier ops : List Timed} (h : earlier <+: ops) :
    (World.reached at_ earlier).store.receipts ⊆ (World.reached at_ ops).store.receipts := by
  obtain ⟨later, rfl⟩ := h
  unfold World.reached
  rw [Run.run_append]
  refine Run.invariant_run (I := fun w : World =>
    (Run.run World.step ⟨Store.migrated at_, []⟩ earlier).store.receipts ⊆ w.store.receipts)
    (fun w op hw => ?_) (List.Subset.refl _) later
  have heffects : Effects (fun _ _ _ => True) w.store (op.1.after w op.2) :=
    effects_after (fun _ _ _ _ _ _ _ _ _ _ => trivial) fun _ _ _ _ => trivial
  exact heffects.invariant (fun _ _ h hsub => List.Subset.trans hsub (receipts_effect h)) hw

omit [Hashing] in
theorem receiptFor_of_mem (hunique : Table.Unique (fun r => (r.accountId, r.idempotencyKey))
    s.receipts) {r : PaperExecutionRecord} (hr : r ∈ s.receipts) :
    s.receiptFor r.accountId r.idempotencyKey = some r := by
  cases hfound : s.receiptFor r.accountId r.idempotencyKey with
  | none => exact absurd (List.find?_eq_none.mp hfound r hr) (by simp)
  | some r' =>
      have hkey : r'.accountId = r.accountId ∧ r'.idempotencyKey = r.idempotencyKey := by
        simpa using List.find?_some hfound
      rw [hunique.eq (List.mem_of_find?_eq_some hfound) hr (Prod.ext hkey.1 hkey.2)]

theorem getExecutionRecord_of_mem (hk : ExecutionsKept s) {r : PaperExecutionRecord}
    (hr : r ∈ s.receipts) : s.getExecutionRecord r.accountId r.idempotencyKey = .success r := by
  simp only [Store.getExecutionRecord, Attempt.bind_eq_success, orFail_eq_success]
  exact ⟨r, receiptFor_of_mem hk.orders.receipts_unique hr, hk.records.readable r hr⟩

/-- What a later call for an order with a record does: it returns the record for the same command,
it refuses another command, and it returns nothing but the record. -/
def RetriesReplay (w : World) : Prop :=
  ∀ age policy ledgerPolicy request commits now, ∀ r ∈ w.store.receipts,
    r.accountId = request.command.intent.accountId →
    r.idempotencyKey = request.command.intent.idempotencyKey →
    (r.commandHash = request.command.commandHash → r ∈ (w.view age).receipts →
      w.store.executeReferencePaper (w.view age) policy ledgerPolicy request commits now =
        (.success r, w.store)) ∧
    (r.commandHash ≠ request.command.commandHash →
      ¬ (w.store.executeReferencePaper (w.view age) policy ledgerPolicy request commits
        now).1.Succeeds) ∧
    ∀ record, (w.store.executeReferencePaper (w.view age) policy ledgerPolicy request commits
        now).1 = .success record →
      record = r ∧ (w.store.executeReferencePaper (w.view age) policy ledgerPolicy request commits
        now).2 = w.store

/-- A call whose look-up finds the record of its command returns it. -/
theorem executeReferencePaper_of_found {lookup : Store} {commits : Commits}
    (hfound : lookup.getExecutionRecord request.command.intent.accountId
      request.command.intent.idempotencyKey = .success record)
    (hhash : record.commandHash = request.command.commandHash)
    (hgraph : s.validateExecutionGraph record = .success ()) :
    s.executeReferencePaper lookup policy ledgerPolicy request commits now =
      (.success record, s) := by
  have hreplay : s.replayRecord request.command record = .success record :=
    replayRecord_eq_success.mpr ⟨hhash, hgraph, rfl⟩
  have honce : s.executeOnce lookup policy ledgerPolicy request now = .success (record, s) := by
    unfold Store.executeOnce
    rw [lookupRecord_eq_some.mpr hfound]
    simp only [Attempt.success_bind, hreplay, Attempt.pure_eq]
  unfold Store.executeReferencePaper
  simp [honce]

omit [Hashing] in
theorem accountingMismatch_not_succeeds {failure : Failure} {commits : Commits}
    {now : UTCDateTime} : ¬ (s.accountingMismatch failure commits now).1.Succeeds := by
  unfold Store.accountingMismatch
  split
  · split <;> simp [Attempt.Succeeds, fail]
  · simp [Attempt.Succeeds, fail]
  · simp [Attempt.Succeeds]

/-- A call that succeeds is one whose transaction did. -/
theorem executeReferencePaper_succeeds {lookup : Store} {commits : Commits}
    (h : (s.executeReferencePaper lookup policy ledgerPolicy request commits now).1 =
      .success record) :
    ∃ executed, s.executeOnce lookup policy ledgerPolicy request now =
        .success (record, executed) ∧
      (s.executeReferencePaper lookup policy ledgerPolicy request commits now).2 = executed := by
  unfold Store.executeReferencePaper at h ⊢
  split at h
  · rename_i record' executed hexecuted
    split at h
    · rename_i hcommitted
      cases h
      exact ⟨executed, hexecuted, by rw [if_pos hcommitted]⟩
    · exact absurd ⟨record, h⟩ accountingMismatch_not_succeeds
  · cases h
  · exact absurd ⟨record, h⟩ accountingMismatch_not_succeeds
  · cases h

theorem retriesReplay_of_kept {at_ : UTCDateTime} {ops : List Timed}
    (hcalls : ∀ op ∈ ops, op.1.IsCall) (hcancels : ∀ op ∈ ops, ¬ op.1.Cancels) :
    RetriesReplay (World.reached at_ ops) := by
  have hk : ExecutionsKept (World.reached at_ ops).store := executionsKept_reached hcalls
  intro age policy ledgerPolicy request commits now r hr haccount hkey
  obtain ⟨earlier, hearlier, hview⟩ := World.view_reached at_ ops age
  have hlookup : ExecutionsKept ((World.reached at_ ops).view age) :=
    hview ▸ executionsKept_reached fun op hop => hcalls op (hearlier.subset hop)
  have hgraph : (World.reached at_ ops).store.validateExecutionGraph r = .success () :=
    validateExecutionGraph_of_kept hk (journalKept_reached at_ ops) (ledgerKept_reached at_ ops)
      (allPosted_reached hcalls) (allKnown_reached hcalls hcancels) hr
  -- whatever record a call returns, it is the one under the key of its order
  have honly : ∀ record, ((World.reached at_ ops).store.executeReferencePaper
      ((World.reached at_ ops).view age) policy ledgerPolicy request commits now).1 =
        .success record →
      record = r ∧ record.commandHash = request.command.commandHash ∧
        ((World.reached at_ ops).store.executeReferencePaper ((World.reached at_ ops).view age)
          policy ledgerPolicy request commits now).2 = (World.reached at_ ops).store := by
    intro record hsuccess
    obtain ⟨executed, honce, hleft⟩ := executeReferencePaper_succeeds hsuccess
    rcases executeOnce_eq_success honce with
      ⟨rfl, hhash, hfound⟩ | ⟨-, _, _, _, _, _, _, _, hfresh⟩
    · refine ⟨?_, hhash, hleft⟩
      have hstored : record ∈ (World.reached at_ ops).store.receipts ∧
          record.accountId = request.command.intent.accountId ∧
          record.idempotencyKey = request.command.intent.idempotencyKey := by
        rcases hfound with hfound | hfound
        · have hreceipt := getExecutionRecord_eq_success hfound
          refine ⟨?_, by simpa using List.find?_some hreceipt⟩
          have hmem := List.mem_of_find?_eq_some hreceipt
          rw [hview] at hmem
          exact receipts_reached hearlier hmem
        · have hreceipt := getExecutionRecord_eq_success hfound
          exact ⟨List.mem_of_find?_eq_some hreceipt, by simpa using List.find?_some hreceipt⟩
      refine hk.orders.receipts_unique.eq hstored.1 hr (Prod.ext ?_ ?_)
      · exact hstored.2.1.trans haccount.symm
      · exact hstored.2.2.trans hkey.symm
    · exact absurd hfresh.missing (receiptFor_ne_none ⟨r, hr, haccount, hkey⟩)
  refine ⟨fun hhash hseen => ?_, fun hhash hsuccess => ?_, fun record hsuccess => ?_⟩
  · have hfound := getExecutionRecord_of_mem hlookup hseen
    rw [haccount, hkey] at hfound
    exact executeReferencePaper_of_found hfound hhash hgraph
  · obtain ⟨record, hsuccess⟩ := hsuccess
    obtain ⟨rfl, hsame, -⟩ := honly record hsuccess
    exact hhash hsame
  · exact ⟨(honly record hsuccess).1, (honly record hsuccess).2.2⟩

/-! ## Failures -/

/-- A call that returns no record leaves everything but the global switch as it was. -/
def FailuresRolledBack (w : World) : Prop :=
  ∀ age policy ledgerPolicy request commits now,
    ¬ (w.store.executeReferencePaper (w.view age) policy ledgerPolicy request commits
        now).1.Succeeds →
      GlobalSwitchOnly w.store
        (w.store.executeReferencePaper (w.view age) policy ledgerPolicy request commits now).2

theorem failuresRolledBack_of_kept {w : World} (hk : SwitchesKept w.store.switches) :
    FailuresRolledBack w := by
  intro age policy ledgerPolicy request commits now hfails
  unfold Store.executeReferencePaper at hfails ⊢
  split at hfails
  · split at hfails
    · exact absurd ⟨_, rfl⟩ hfails
    · rename_i hcommitted
      rw [if_neg hcommitted]
      exact globalSwitchOnly_accountingMismatch hk
  · exact .refl _
  · exact globalSwitchOnly_accountingMismatch hk
  · exact .refl _

/-- Over every run of calls an order is executed at most once and as a whole. Retries are those of
runs in which no operator cancels orders. -/
theorem executions_exactly_once {at_ : UTCDateTime} {ops : List Timed}
    (hcalls : ∀ op ∈ ops, op.1.IsCall) :
    Table.Unique (fun r => (r.accountId, r.idempotencyKey)) (World.reached at_ ops).store.receipts ∧
      GraphComplete (World.reached at_ ops).store ∧
      ((∀ op ∈ ops, ¬ op.1.Cancels) → RetriesReplay (World.reached at_ ops)) ∧
      FailuresRolledBack (World.reached at_ ops) :=
  ⟨(executionsKept_reached hcalls).orders.receipts_unique,
    graphComplete_of_kept (journalKept_reached at_ ops) (allPosted_reached hcalls),
    retriesReplay_of_kept hcalls, failuresRolledBack_of_kept (switchesKept_reached at_ ops)⟩

end

section

open scoped CodeHashing

/-- The run that fills an order. -/
theorem executions_exactly_once_filled :
    (World.reached 0 (Scenario.filled {} {})).store.receipts ≠ [] ∧
      RetriesReplay (World.reached 0 (Scenario.filled {} {})) := by
  have hcalls : ∀ op ∈ Scenario.filled {} {}, op.1.IsCall := by
    simp [Scenario.filled, Scenario.opened, Scenario.authorised, Scenario.call, Operation.IsCall]
  have hcancels : ∀ op ∈ Scenario.filled {} {}, ¬ op.1.Cancels := by
    simp [Scenario.filled, Scenario.opened, Scenario.authorised, Scenario.call, Operation.Cancels]
  exact ⟨by decide +kernel, (executions_exactly_once hcalls).2.2.1 hcancels⟩

end

end StonksPaper
