import StonksPaper.Runs.Projection
import StonksPaper.Runs.Records

/-!
# Fills and the journal

Every fill has one journal transaction and every transaction one fill, of the same order and
account. That a transaction has its fill is kept by every change. That a fill has its transaction
is not, since an outcome is persisted before its fills are posted; it is kept by every call.
-/

namespace StonksPaper

open Chain Relation
open scoped ExactArithmetic

section

variable [Hashing] {s s' : Store}

/-! ## Every transaction has its fill -/

theorem buildFillJournal_valid {fill : Fill} {projection : LedgerProjection}
    {policy : LedgerPostingPolicy} {t : JournalTransaction}
    (h : buildFillJournal fill projection policy = .success t) :
    (∀ p ∈ t.postings, p.validate = .success ()) ∧ t.validate = .success () := by
  obtain ⟨values, hbuilt⟩ := buildFillJournal_built h
  exact ⟨hbuilt.postings_valid, hbuilt.valid⟩

/-- What the journal keeps about the fills it names. -/
structure JournalKept (s : Store) : Prop where
  fills_unique : Table.Unique (·.fillId) s.fills
  sources_unique : Table.Unique (·.sourceFillId) s.journal
  sourced : ∀ t ∈ s.journal, ∃ f ∈ s.fills, f.fillId = t.sourceFillId ∧
    f.orderIntentId = t.sourceOrderIntentId ∧ f.accountId = t.accountId
  valid : ∀ t ∈ s.journal, (∀ p ∈ t.postings, p.validate = .success ()) ∧ t.validate = .success ()
  opened : ∀ t ∈ s.journal, ∃ opening, s.getOpeningSnapshot t.accountId = .success opening

theorem journalKept_migrated {at_ : UTCDateTime} : JournalKept (Store.migrated at_) := by
  constructor
  · exact Table.unique_nil
  · exact Table.unique_nil
  · intro t ht
    cases ht
  · intro t ht
    cases ht
  · intro t ht
    cases ht

omit [Hashing] in
/-- An opening that is read stays readable as openings are added. -/
theorem getOpeningSnapshot_mono {accountId : AccountId} {opening : AccountPortfolioSnapshot}
    (hopenings : s.openings <+: s'.openings)
    (h : s.getOpeningSnapshot accountId = .success opening) :
    s'.getOpeningSnapshot accountId = .success opening := by
  obtain ⟨added, hadded⟩ := hopenings
  have hread := (getOpeningSnapshot_eq_success h).1
  have hread' : s'.opening accountId = some opening := by
    unfold Store.opening at hread ⊢
    rw [← hadded, Table.get, List.find?_append,
      show s.openings.find? (·.accountId = accountId) = some opening from hread]
    rfl
  unfold Store.getOpeningSnapshot at h ⊢
  rw [hread'] at *
  rwa [hread] at h

/-- Fills that are added and a journal that stays the same. -/
theorem JournalKept.of_fills (hk : JournalKept s) (hunique : Table.Unique (·.fillId) s'.fills)
    (hfills : s.fills ⊆ s'.fills) (hjournal : s'.journal = s.journal)
    (hopenings : s.openings <+: s'.openings) : JournalKept s' := by
  constructor
  · exact hunique
  · rw [hjournal]
    exact hk.sources_unique
  · rw [hjournal]
    intro t ht
    obtain ⟨f, hf, hbound⟩ := hk.sourced t ht
    exact ⟨f, hfills hf, hbound⟩
  · rw [hjournal]
    exact hk.valid
  · rw [hjournal]
    intro t ht
    exact (hk.opened t ht).imp fun _ => getOpeningSnapshot_mono hopenings

theorem JournalKept.of_eq (hk : JournalKept s) (hfills : s'.fills = s.fills)
    (hjournal : s'.journal = s.journal) (hopenings : s.openings <+: s'.openings) :
    JournalKept s' :=
  hk.of_fills (hfills ▸ hk.fills_unique) (hfills ▸ List.Subset.refl _) hjournal hopenings

theorem JournalPosted.journal_eq {transaction : JournalTransaction} {row : PaperAccountRow}
    {before after : LedgerProjection} {event : PaperAccountEvent} {now : UTCDateTime}
    (h : JournalPosted s transaction row before after event now s') :
    s'.journal = s.journal ++ [transaction] ∧ s'.fills = s.fills ∧ s'.openings = s.openings := by
  rw [h.state]
  exact ⟨rfl, rfl, rfl⟩

/-- Every change keeps what the journal says about the fills. -/
theorem JournalKept.effect {O : Permission} (h : Effect O s s') (hk : JournalKept s) :
    JournalKept s' := by
  cases h with
  | registered => exact hk.of_eq rfl rfl (List.prefix_append _ _)
  | targeted => exact hk.of_eq rfl rfl List.prefix_rfl
  | decided => exact hk.of_eq rfl rfl List.prefix_rfl
  | batch created =>
      obtain ⟨-, -, -, hfills, hjournal⟩ := created.intents
      exact hk.of_eq hfills hjournal (by rw [created.state]; exact List.prefix_rfl)
  | executed _ persisted =>
      obtain ⟨hfills, hjournal, hopenings⟩ := persisted.stored
      exact hk.of_fills (persisted.fills_unique hk.fills_unique)
        (hfills ▸ List.subset_append_left _ _) hjournal (hopenings ▸ List.prefix_rfl)
  | @posted transaction _ _ _ _ _ _ fill _ _ _ checked posted =>
      obtain ⟨hjournal, hfills, hopenings⟩ := posted.journal_eq
      obtain ⟨-, -, -, -, -, -, -, hfresh⟩ := posted.journal
      constructor
      · exact hfills ▸ hk.fills_unique
      · rw [hjournal]
        exact hk.sources_unique.concat hfresh
      · rw [hjournal, hfills]
        refine List.forall_mem_append.mpr ⟨hk.sourced, fun t ht => ?_⟩
        rw [List.mem_singleton.mp ht]
        exact ⟨fill, Table.mem_of_get checked.source, Table.key_of_get checked.source,
          checked.source_bound⟩
      · rw [hjournal]
        refine List.forall_mem_append.mpr ⟨hk.valid, fun t ht => ?_⟩
        rw [List.mem_singleton.mp ht]
        exact buildFillJournal_valid checked.built
      · rw [hjournal]
        refine List.forall_mem_append.mpr ⟨fun t ht => ?_, fun t ht => ?_⟩
        · exact (hk.opened t ht).imp fun _ =>
            getOpeningSnapshot_mono (hopenings ▸ List.prefix_rfl)
        · rw [List.mem_singleton.mp ht]
          exact checked.opened.imp fun _ => getOpeningSnapshot_mono (hopenings ▸ List.prefix_rfl)
  | cancelled _ cancelled =>
      exact hk.of_eq (by rw [cancelled.state]; rfl) (by rw [cancelled.state]; rfl)
        (by rw [cancelled.state]; exact List.prefix_rfl)
  | operated operated =>
      have hopenings : s'.openings = s.openings := by rw [operated.same]
      exact hk.of_eq (by rw [operated.same]) (by rw [operated.same]) (hopenings ▸ List.prefix_rfl)

theorem journalKept_reached (at_ : UTCDateTime) (ops : List Timed) :
    JournalKept (World.reached at_ ops).store :=
  World.invariant_reached at_ ops journalKept_migrated fun _ _ h hk => hk.effect h

/-! ## The graph checks -/

theorem validateAccountGraph_eq_success {accountId : AccountId} {u : Unit}
    (h : s.validateAccountGraph accountId = .success u) :
    (∀ f ∈ s.fills, f.accountId = accountId → (s.journalsOf f.fillId).length = 1) ∧
      ∀ f ∈ s.fills, f.accountId = accountId → s.FillStateKnown f := by
  simp only [Store.validateAccountGraph, Attempt.bind_eq_success, failUnless_eq_success,
    Attempt.forM_eq_success, Store.validateFillState, Prod.exists] at h
  obtain ⟨_, hjournals, projection, -, _, _, replayed, -, _, -, hknown⟩ := h
  constructor
  · intro f hf hid
    exact hjournals f (List.mem_filter.mpr ⟨hf, decide_eq_true hid⟩)
  · intro f hf hid
    exact hknown f (List.mem_filter.mpr ⟨hf, decide_eq_true hid⟩)

theorem validateExecutionGraph_eq_success {record : PaperExecutionRecord} {u : Unit}
    (hfilled : record.outcome.receipt.fills ≠ [])
    (h : s.validateExecutionGraph record = .success u) :
    (∀ f ∈ record.outcome.receipt.fills, (s.journalsOf f.fillId).length = 1) ∧
      s.validateAccountGraph record.accountId = .success () := by
  simp only [Store.validateExecutionGraph, hfilled, if_false, Attempt.bind_eq_success,
    failUnless_eq_success] at h
  obtain ⟨_, hjournals, hgraph⟩ := h
  exact ⟨fun f hf => (hjournals f hf).1, hgraph⟩

omit [Hashing] in
theorem fillStateKnown_of_eq {f : Fill}
    (hevents : s'.orderEventsOf f.orderIntentId = s.orderEventsOf f.orderIntentId)
    (hfills : s'.fillsOf f.orderIntentId = s.fillsOf f.orderIntentId) (h : s.FillStateKnown f) :
    s'.FillStateKnown f := by
  unfold Store.FillStateKnown at h ⊢
  rwa [hevents, hfills]

/-! ## A fresh execution completes the graph -/

/-- What the posting of fills leaves alone. -/
structure JournalGrown (s s' : Store) : Prop where
  fills : s'.fills = s.fills
  orderEvents : s'.orderEvents = s.orderEvents
  receipts : s'.receipts = s.receipts
  intents : s'.intents = s.intents
  journal : s.journal ⊆ s'.journal

omit [Hashing] in
theorem JournalGrown.refl (s : Store) : JournalGrown s s :=
  ⟨rfl, rfl, rfl, rfl, List.Subset.refl _⟩

omit [Hashing] in
theorem JournalGrown.trans {t : Store} (h : JournalGrown s t) (h' : JournalGrown t s') :
    JournalGrown s s' :=
  ⟨h'.fills.trans h.fills, h'.orderEvents.trans h.orderEvents, h'.receipts.trans h.receipts,
    h'.intents.trans h.intents, List.Subset.trans h.journal h'.journal⟩

theorem journalGrown_append {transaction t : JournalTransaction} {sequence : ℕ}
    {hash : Option Sha256} {accountSequence : ℕ} {now : UTCDateTime}
    (h : s.append transaction sequence hash accountSequence now = .success (t, s')) :
    JournalGrown s s' := by
  rcases (append_eq_success h).2 with ⟨rfl, -⟩ | ⟨_, _, _, _, _, -, hposted⟩
  · exact .refl _
  · obtain ⟨hintents, hevents, hreceipts⟩ := hposted.orders
    obtain ⟨hjournal, hfills, -⟩ := hposted.journal_eq
    exact ⟨hfills, hevents, hreceipts, hintents, hjournal ▸ List.subset_append_left _ _⟩

theorem journalGrown_postFills {ledgerPolicy : LedgerPostingPolicy} {now : UTCDateTime}
    {fills : List Fill} {progress after : Store × LedgerProjection × ℕ}
    (h : fills.foldlM (postFill ledgerPolicy now) progress = .success after) :
    JournalGrown progress.1 after.1 := by
  refine Attempt.foldlM_induct
    (P := fun (_ : List Fill) a c => JournalGrown a.1 c.1) (fun a => .refl a.1) ?_ h
  intro fill fills a b c hfirst hrest
  obtain ⟨-, journal, hposted⟩ := postFill_eq_success hfirst
  exact (journalGrown_append hposted.appended).trans hrest

/-- The tables after a fresh execution: an order without a past gets the whole outcome. -/
structure OutcomeStored (s : Store) (command : ExecutionCommand) (outcome : PaperExecutionOutcome)
    (s' : Store) : Prop where
  unfilled : s.fillsOf command.intent.intentId = []
  unopened : s.orderEventsOf command.intent.intentId = []
  fills : s'.fills = s.fills ++ outcome.receipt.fills
  events : s'.orderEvents = s.orderEvents ++ outcome.orderEvents
  receipts : s'.receipts = s.receipts ++ [executionRecord command outcome]
  intents : s'.intents = s.intents
  journal : s.journal ⊆ s'.journal
  events_own : ∀ e ∈ outcome.orderEvents, e.orderIntentId = command.intent.intentId
  fills_own : ∀ f ∈ outcome.receipt.fills, f.orderIntentId = command.intent.intentId ∧
    f.accountId = command.intent.accountId

variable {policy : PaperExecutionPolicy} {ledgerPolicy : LedgerPostingPolicy}
  {request : PaperExecutionRequest} {now : UTCDateTime} {row : PaperAccountRow}
  {held : AccountReservation} {projection final : LedgerProjection}
  {simulated : PaperExecutionOutcome} {record : PaperExecutionRecord} {s₁ : Store}
  {finalSequence : ℕ}

theorem FreshExecution.stored
    (h : FreshExecution s policy ledgerPolicy request now row held projection simulated record s₁
      final finalSequence s') (hk : ExecutionsKept s) :
    OutcomeStored s request.command simulated s' := by
  have hpermitted := h.permitted
  have hfills := hk.fillsOf_eq_nil h.persisted
  have hevents := hk.eventsOf_eq_nil hpermitted h.persisted
  have hgrown := journalGrown_postFills h.posted
  obtain ⟨hintents, horderEvents, hreceipts⟩ := h.persisted.orders
  obtain ⟨hstored, hjournal, -⟩ := h.persisted.stored
  rw [hevents] at horderEvents
  rw [hfills] at hstored
  refine ⟨hfills, hevents, hgrown.fills.trans hstored, hgrown.orderEvents.trans horderEvents,
    hgrown.receipts.trans hreceipts, hgrown.intents.trans hintents,
    hjournal ▸ hgrown.journal, hpermitted.events_intent, ?_⟩
  intro f hf
  rcases execute_fills h.outcome f hf with hprior | hown
  · have hnone : f ∈ s.fillsOf request.command.intent.intentId := hprior
    rw [hfills] at hnone
    cases hnone
  · exact hown

/-! ## Every fill has its transaction -/

def AllPosted (s : Store) : Prop := ∀ f ∈ s.fills, ∃ t ∈ s.journal, t.sourceFillId = f.fillId

omit [Hashing] in
theorem AllPosted.of_eq (hp : AllPosted s) (hfills : s'.fills = s.fills)
    (hjournal : s.journal ⊆ s'.journal) : AllPosted s' := by
  intro f hf
  rw [hfills] at hf
  obtain ⟨t, ht, hsource⟩ := hp f hf
  exact ⟨t, hjournal ht, hsource⟩

/-- A change that persists no outcome adds no fill. -/
theorem AllPosted.effect (h : Effect (fun _ _ _ => False) s s') (hp : AllPosted s) :
    AllPosted s' := by
  cases h with
  | registered => exact hp.of_eq rfl (List.Subset.refl _)
  | targeted => exact hp.of_eq rfl (List.Subset.refl _)
  | decided => exact hp.of_eq rfl (List.Subset.refl _)
  | batch created =>
      obtain ⟨-, -, -, hfills, hjournal⟩ := created.intents
      exact hp.of_eq hfills (hjournal ▸ List.Subset.refl _)
  | executed permitted _ => exact permitted.elim
  | posted _ posted =>
      obtain ⟨hjournal, hfills, -⟩ := posted.journal_eq
      exact hp.of_eq hfills (hjournal ▸ List.subset_append_left _ _)
  | cancelled _ cancelled =>
      rw [cancelled.state]
      exact hp.of_eq rfl (List.Subset.refl _)
  | operated operated =>
      rw [operated.same]
      exact hp.of_eq rfl (List.Subset.refl _)

theorem FreshExecution.allPosted
    (h : FreshExecution s policy ledgerPolicy request now row held projection simulated record s₁
      final finalSequence s') (hk : ExecutionsKept s) (hp : AllPosted s) : AllPosted s' := by
  have hstored := h.stored hk
  intro f hf
  rw [hstored.fills] at hf
  rcases List.mem_append.mp hf with hold | hnew
  · obtain ⟨t, ht, hsource⟩ := hp f hold
    exact ⟨t, hstored.journal ht, hsource⟩
  · have hgraph := h.graph
    rw [h.record_eq] at hgraph
    have hone := (validateExecutionGraph_eq_success (List.ne_nil_of_mem hnew) hgraph).1 f hnew
    obtain ⟨t, ht⟩ := List.length_eq_one_iff.mp hone
    have hmem : t ∈ s'.journalsOf f.fillId := ht ▸ List.mem_singleton_self t
    exact ⟨t, (List.mem_filter.mp hmem).1, of_decide_eq_true (List.mem_filter.mp hmem).2⟩

/-- A call executes afresh, or changes the switches at most. -/
theorem executeReferencePaper_cases (s lookup : Store) (policy : PaperExecutionPolicy)
    (ledgerPolicy : LedgerPostingPolicy) (request : PaperExecutionRequest) (commits : Commits)
    (now : UTCDateTime) :
    Operated s (s.executeReferencePaper lookup policy ledgerPolicy request commits now).2 ∨
      ∃ record row held projection simulated s₁ final finalSequence,
        (s.executeReferencePaper lookup policy ledgerPolicy request commits now).1 =
          .success record ∧
        FreshExecution s policy ledgerPolicy request now row held projection simulated record s₁
          final finalSequence
          (s.executeReferencePaper lookup policy ledgerPolicy request commits now).2 := by
  unfold Store.executeReferencePaper
  split
  · rename_i record executed hexecuted
    split
    · rcases executeOnce_eq_success hexecuted with
        ⟨rfl, -, -⟩ | ⟨-, row, held, projection, simulated, s₁, final, finalSequence, hfresh⟩
      · exact .inl (.refl _)
      · exact .inr ⟨record, row, held, projection, simulated, s₁, final, finalSequence, rfl, hfresh⟩
    · exact .inl operated_accountingMismatch
  · exact .inl (.refl _)
  · exact .inl operated_accountingMismatch
  · exact .inl (.refl _)

/-- Every call of the application leaves every fill posted. -/
theorem AllPosted.after {w : World} {op : Operation} (hcall : op.IsCall)
    (hk : ExecutionsKept w.store) (hp : AllPosted w.store) : AllPosted (op.after w now) := by
  by_cases hexecute : ∃ age policy ledgerPolicy request commits,
      op = .executeReferencePaper age policy ledgerPolicy request commits
  · obtain ⟨age, policy, ledgerPolicy, request, commits, rfl⟩ := hexecute
    rcases executeReferencePaper_cases w.store (w.view age) policy ledgerPolicy request commits
      now with
      hsame | ⟨_, _, _, _, _, _, _, _, -, hfresh⟩
    · change AllPosted (w.store.executeReferencePaper _ _ _ _ _ _).2
      exact hp.effect (.operated hsame)
    · exact hfresh.allPosted hk hp
  · have heffects : Effects (fun _ _ _ => False) w.store (op.after w now) := by
      refine effects_after (fun age policy ledgerPolicy request commits hop => ?_)
        fun command outcome expected hop => ?_
      · exact absurd ⟨age, policy, ledgerPolicy, request, commits, hop⟩ hexecute
      · rw [hop] at hcall
        exact hcall
    exact heffects.invariant (fun _ _ heffect hposted => hposted.effect heffect) hp

/-- What a call of the application keeps, given what every change keeps, holds in every run. -/
theorem World.invariant_after {I : Store → Prop} {C : Operation → Prop} (at_ : UTCDateTime)
    (ops : List Timed) (hops : ∀ op ∈ ops, op.1.IsCall ∧ C op.1) (hinit : I (Store.migrated at_))
    (hstep : ∀ (w : World) (op : Operation) (now : UTCDateTime), op.IsCall → C op →
      ExecutionsKept w.store → I w.store → I (op.after w now)) :
    I (World.reached at_ ops).store := by
  have hboth : ExecutionsKept (World.reached at_ ops).store ∧ I (World.reached at_ ops).store := by
    refine Run.Meets.invariant (I := fun w : World => ExecutionsKept w.store ∧ I w.store)
      (C := fun _ op => op.1.IsCall ∧ C op.1) (fun w op hw hop => ?_)
      ⟨executionsKept_migrated, hinit⟩ (Run.meets_of_forall hops)
    refine ⟨?_, hstep w op.1 op.2 hop.1 hop.2 hw.1 hw.2⟩
    have heffects : Effects BrokerOutcome w.store (op.1.after w op.2) := by
      refine effects_after (fun _ _ _ _ _ _ _ _ _ h => h) fun command outcome expected hraw => ?_
      have hcall := hop.1
      rw [hraw] at hcall
      exact hcall.elim
    exact heffects.invariant (fun _ _ h hk => hk.effect h) hw.1
  exact hboth.2

theorem allPosted_reached {at_ : UTCDateTime} {ops : List Timed}
    (hcalls : ∀ op ∈ ops, op.1.IsCall) : AllPosted (World.reached at_ ops).store :=
  World.invariant_after (C := fun _ => True) at_ ops (fun op hop => ⟨hcalls op hop, trivial⟩)
    (fun _ hf => absurd hf List.not_mem_nil) fun _ _ _ hcall _ hk hp => hp.after hcall hk

end

end StonksPaper
