import StonksPaper.Strategies.Registry

/-!
# The audit trail of a strategy

What each command does to the registry, and what every command keeps: a strategy's events are a
hash chain from its registration to its version, whose states follow the table of transitions, and
whose last event is the one that the row shows.
-/

namespace StonksPaper

open Chain

section

variable [Hashing] {w w' : StrategyRegistry} {manifest : StrategyManifest} {now : UTCDateTime}
  {row current : StrategyRegistryRow} {report : EvaluationReport}
  {request : StrategyTransitionRequest} {event : StrategyAuditEvent}

namespace StrategyRegistry

/-! ## What a command does -/

/-- A strategy is registered. -/
structure Registration (w : StrategyRegistry) (manifest : StrategyManifest) (now : UTCDateTime)
    (w' : StrategyRegistry) : Prop where
  fresh : Table.Fresh (·.key) manifest.key w.strategies
  first : w.eventsOf manifest.key = []
  result : w' = { w with
    strategies := w.strategies ++ [manifest.registryRow now]
    events := w.events ++ [(registered (manifest.registryRow now)).event] }

/-- A report is stored. -/
structure Storage (w : StrategyRegistry) (report : EvaluationReport) (w' : StrategyRegistry) :
    Prop where
  valid : report.validate = .success ()
  fresh : Table.Fresh (·.reportId) report.reportId w.reports
  result : w' = { w with reports := w.reports ++ [report.row] }

/-- The report that a transition rests on. -/
structure RestsOn (w : StrategyRegistry) (request : StrategyTransitionRequest)
    (clock : TransitionClock) (current : StrategyRegistryRow) (report : EvaluationReport) :
    Prop where
  stored : ∃ reportId ∈ request.evaluationReportId, ∃ stored, w.report reportId = some stored ∧
    stored.payload = report
  bound : report.MatchesRegistry current
  allows : report.AllowsTarget request.targetState clock.validationAt

/-- A strategy goes on to another state. -/
structure Promotion (w : StrategyRegistry) (request : StrategyTransitionRequest)
    (clock : TransitionClock) (current row : StrategyRegistryRow) (w' : StrategyRegistry) :
    Prop where
  found : w.strategy request.key = some current
  version : current.version = request.expectedVersion
  state : current.state = request.currentState
  allowed : request.currentState.canTransition request.targetState
  report : ∃ report : Option EvaluationReport,
    (∀ r ∈ report, w.RestsOn request clock current r) ∧
    (request.targetState = .shadow ∨ request.targetState = .paperEligible → report ≠ none) ∧
    row = transitioned current request (report.elim current.evaluationReportId (some ·.reportId))
      (report.elim current.evaluationHash (some ·.evaluationHash)) clock.updatedAt
  event : ∃ previous, (w.eventsOf request.key).getLast? = some previous ∧
    w' = { w with
      strategies := Table.update (·.key = current.key) (fun _ => row) w.strategies
      events := w.events ++ [(promoted request row previous).event] }

omit [Hashing] in
theorem strategy_eq_some {key : StrategyKey} (h : w.strategy key = some row) :
    row ∈ w.strategies ∧ row.key = key := ⟨Table.mem_of_get h, Table.key_of_get h⟩

theorem newEvent_eq_success {mutation : StrategyMutation} :
    mutation.newEvent = .success event → event = mutation.event := by
  intro h
  obtain ⟨-, -, h⟩ := Attempt.bind_eq_success.mp h
  cases h
  rfl

omit [Hashing] in
theorem entryFromRow_eq_success {entry : StrategyRegistryEntry} :
    row.entryFromRow = .success entry → entry = row.entry := by
  intro h
  obtain ⟨-, -, h⟩ := Attempt.bind_eq_success.mp h
  cases h
  rfl

omit [Hashing] in
theorem insertEvent_eq_success : w.insertEvent event = .success w' →
    w.ChainAllows event ∧ w' = { w with events := w.events ++ [event] } := by
  intro h
  obtain ⟨_, hguard, h⟩ := Attempt.bind_eq_success.mp h
  cases h
  exact ⟨(guardUnless_eq_success.mp hguard).2.2.2, rfl⟩

theorem register_cases {result : StrategyMutationResult}
    (h : w.register manifest now = .success (result, w')) :
    w' = w ∨ w.Registration manifest now w' := by
  unfold register at h
  obtain ⟨-, -, h⟩ := Attempt.bind_eq_success.mp h
  cases hrow : w.strategy manifest.key with
  | some existing =>
      rw [hrow] at h
      obtain ⟨-, -, h⟩ := Attempt.bind_eq_success.mp h
      obtain ⟨events, -, h⟩ := Attempt.bind_eq_success.mp h
      obtain ⟨event, -, h⟩ := Attempt.bind_eq_success.mp h
      obtain ⟨entry, -, h⟩ := Attempt.bind_eq_success.mp h
      cases h
      exact .inl rfl
  | none =>
      rw [hrow] at h
      obtain ⟨posted, hposted, h⟩ := Attempt.bind_eq_success.mp h
      obtain ⟨event, hevent, h⟩ := Attempt.bind_eq_success.mp h
      obtain ⟨logged, hlogged, h⟩ := Attempt.bind_eq_success.mp h
      obtain ⟨entry, -, h⟩ := Attempt.bind_eq_success.mp h
      obtain ⟨-, -, h⟩ := Attempt.bind_eq_success.mp h
      cases h
      obtain ⟨-, -, hposted⟩ := Attempt.bind_eq_success.mp (flushed_eq_success.mp hposted)
      cases hposted
      obtain ⟨hchain, hlogged⟩ := insertEvent_eq_success (flushed_eq_success.mp hlogged)
      rw [newEvent_eq_success hevent] at hchain hlogged
      refine .inr ⟨Table.get_eq_none.mp hrow, ?_, hlogged⟩
      -- the trigger allows the first event only where there is none
      unfold ChainAllows at hchain
      split at hchain
      · rename_i hnone
        exact List.getLast?_eq_none_iff.mp hnone
      · exact absurd rfl hchain.2.1

variable [ReportColumn]

theorem registerEvaluation_cases {stored : EvaluationReport}
    (h : w.registerEvaluation report = .success (stored, w')) :
    w' = w ∨ w.Storage report w' := by
  unfold registerEvaluation at h
  obtain ⟨_, hvalid, h⟩ := Attempt.bind_eq_success.mp h
  obtain ⟨registry, -, h⟩ := Attempt.bind_eq_success.mp h
  obtain ⟨-, -, h⟩ := Attempt.bind_eq_success.mp h
  obtain ⟨-, -, h⟩ := Attempt.bind_eq_success.mp h
  obtain ⟨snapshot, -, h⟩ := Attempt.bind_eq_success.mp h
  obtain ⟨-, -, h⟩ := Attempt.bind_eq_success.mp h
  cases hreport : w.report report.reportId with
  | some existing =>
      rw [hreport] at h
      obtain ⟨persisted, -, h⟩ := Attempt.bind_eq_success.mp h
      obtain ⟨-, -, h⟩ := Attempt.bind_eq_success.mp h
      cases h
      exact .inl rfl
  | none =>
      rw [hreport] at h
      obtain ⟨-, -, h⟩ := Attempt.bind_eq_success.mp h
      obtain ⟨posted, hposted, h⟩ := Attempt.bind_eq_success.mp h
      cases h
      obtain ⟨-, -, hposted⟩ := Attempt.bind_eq_success.mp (flushed_eq_success.mp hposted)
      cases hposted
      exact .inr ⟨hvalid, Table.get_eq_none.mp hreport, rfl⟩

omit [Hashing] in
/-- The report that a request names. -/
theorem resolveTransitionEvaluation_eq_success {found : Option EvaluationReport}
    (h : w.resolveTransitionEvaluation request current = .success found) :
    (request.evaluationReportId ≠ none → found ≠ none) ∧
      ∀ r ∈ found, (∃ reportId ∈ request.evaluationReportId, ∃ stored,
        w.report reportId = some stored ∧ stored.payload = r) ∧ r.MatchesRegistry current := by
  unfold resolveTransitionEvaluation at h
  cases hid : request.evaluationReportId with
  | none =>
      rw [hid] at h
      cases h
      exact ⟨fun hno => absurd rfl hno, fun r hr => by cases hr⟩
  | some reportId =>
      rw [hid] at h
      obtain ⟨stored, hstored, h⟩ := Attempt.bind_eq_success.mp h
      obtain ⟨read, hread, h⟩ := Attempt.bind_eq_success.mp h
      obtain ⟨_, hbound, h⟩ := Attempt.bind_eq_success.mp h
      cases h
      obtain ⟨-, -, hread⟩ := Attempt.bind_eq_success.mp hread
      cases hread
      refine ⟨fun _ => Option.some_ne_none _, fun r hr => ?_⟩
      cases hr
      exact ⟨⟨reportId, rfl, stored, orFail_eq_success.mp hstored, rfl⟩,
        (failUnless_eq_success.mp hbound).2⟩

theorem transition_cases {result : StrategyMutationResult} {clock : TransitionClock}
    (h : w.transition request clock = .success (result, w')) :
    ∃ current row, w.Promotion request clock current row w' ∧ result.entry = row.entry := by
  unfold transition at h
  obtain ⟨_, hvalid, h⟩ := Attempt.bind_eq_success.mp h
  obtain ⟨current, hcurrent, h⟩ := Attempt.bind_eq_success.mp h
  obtain ⟨-, -, h⟩ := Attempt.bind_eq_success.mp h
  obtain ⟨_, hcas, h⟩ := Attempt.bind_eq_success.mp h
  obtain ⟨report, hreport, h⟩ := Attempt.bind_eq_success.mp h
  obtain ⟨_, hallows, h⟩ := Attempt.bind_eq_success.mp h
  obtain ⟨updated, hupdated, h⟩ := Attempt.bind_eq_success.mp h
  obtain ⟨-, -, hupdated⟩ := Attempt.bind_eq_success.mp hupdated
  obtain ⟨-, -, hupdated⟩ := Attempt.bind_eq_success.mp hupdated
  cases hupdated
  obtain ⟨previous, hprevious, h⟩ := Attempt.bind_eq_success.mp h
  obtain ⟨-, -, h⟩ := Attempt.bind_eq_success.mp h
  obtain ⟨event, hevent, h⟩ := Attempt.bind_eq_success.mp h
  obtain ⟨posted, hposted, h⟩ := Attempt.bind_eq_success.mp h
  obtain ⟨entry, hentry, h⟩ := Attempt.bind_eq_success.mp h
  obtain ⟨-, -, h⟩ := Attempt.bind_eq_success.mp h
  cases h
  obtain ⟨hversion, hstate, hallowed⟩ := failUnless_eq_success.mp hcas
  obtain ⟨hgiven, hfound⟩ := resolveTransitionEvaluation_eq_success hreport
  have hgated : request.targetState = .shadow ∨ request.targetState = .paperEligible →
      request.evaluationReportId ≠ none := by
    intro htarget
    simp only [StrategyTransitionRequest.validate, Attempt.bind_eq_success,
      raiseUnless_eq_success] at hvalid
    tauto
  obtain ⟨-, hlogged⟩ := insertEvent_eq_success (flushed_eq_success.mp hposted)
  rw [newEvent_eq_success hevent] at hlogged
  refine ⟨current, _, ⟨orFail_eq_success.mp hcurrent, hversion, hstate, hallowed,
    ⟨report, fun r hr => ?_, fun htarget => hgiven (hgated htarget), rfl⟩, ⟨previous, ?_, ?_⟩⟩,
    entryFromRow_eq_success hentry⟩
  · obtain ⟨hstored, hbound⟩ := hfound r hr
    exact ⟨hstored, hbound, failUnless_eq_success.mp hallows r hr⟩
  · exact orFail_eq_success.mp hprevious
  · exact hlogged

/-- Everything that a command can do. -/
inductive Change (w : StrategyRegistry) (command : Command) (w' : StrategyRegistry) : Prop
  /-- Strategies, reports and events stay as they are. -/
  | unchanged (strategies : w'.strategies = w.strategies) (reports : w'.reports = w.reports)
      (events : w'.events = w.events)
  | registered (manifest : StrategyManifest) (now : UTCDateTime)
      (registration : w.Registration manifest now w')
  | stored (report : EvaluationReport) (storage : w.Storage report w')
  | promoted (request : StrategyTransitionRequest) (clock : TransitionClock)
      (current row : StrategyRegistryRow) (isTransition : command = .transition request clock)
      (answered : ∃ result posted, w.transition request clock = .success (result, posted) ∧
        result.entry = row.entry)
      (promotion : w.Promotion request clock current row w')

theorem change_of_outcome {command : Command} (h : w.outcome command = .success w') :
    w.Change command w' := by
  cases command with
  | register manifest now =>
      obtain ⟨result, hresult, h⟩ := Attempt.bind_eq_success.mp h
      cases h
      rcases register_cases hresult with hsame | hregistration
      · rw [hsame]
        exact .unchanged rfl rfl rfl
      · exact .registered manifest now hregistration
  | registerEvaluation report =>
      obtain ⟨result, hresult, h⟩ := Attempt.bind_eq_success.mp h
      cases h
      rcases registerEvaluation_cases hresult with hsame | hstorage
      · rw [hsame]
        exact .unchanged rfl rfl rfl
      · exact .stored report hstorage
  | transition request clock =>
      obtain ⟨result, hresult, h⟩ := Attempt.bind_eq_success.mp h
      cases h
      obtain ⟨current, row, hpromotion, hentry⟩ := transition_cases hresult
      exact .promoted request clock current row rfl ⟨_, _, hresult, hentry⟩ hpromotion
  | addArtifact contentHash =>
      cases h
      exact .unchanged rfl rfl rfl
  | addSnapshot snapshot =>
      obtain ⟨-, -, h⟩ := Attempt.bind_eq_success.mp h
      cases h
      exact .unchanged rfl rfl rfl

theorem change_step (w : StrategyRegistry) (command : Command) :
    w.Change command (w.step command) := by
  cases h : w.outcome command with
  | success w' =>
      have hstep : w.step command = w' := by simp [step, h]
      rw [hstep]
      exact change_of_outcome h
  | _ =>
      have hstep : w.step command = w := by simp [step, h]
      rw [hstep]
      exact .unchanged rfl rfl rfl

/-! ## The trail of a strategy -/

omit [ReportColumn]

/-- An event may follow the state that the events before it left. -/
def Follows (before : Option PromotionState) (event : StrategyAuditEvent) : Prop :=
  event.fromState = before ∧
    match before with
    | none => event.toState = .draft
    | some state => state.canTransition event.toState

/-- The events of a strategy lead from its registration to what its row shows. -/
structure Audited (w : StrategyRegistry) (row : StrategyRegistryRow) : Prop where
  linked : Linked StrategyAuditEvent.link 0 none (w.eventsOf row.key)
  hashed : ∀ event ∈ w.eventsOf row.key, event.eventHash = event.calculateEventHash
  length : (w.eventsOf row.key).length = row.version
  follows : Traces Follows (some ·.toState) none (w.eventsOf row.key)
  projected : ∃ latest, (w.eventsOf row.key).getLast? = some latest ∧ ProjectedBy row latest

/-- What every command keeps. -/
structure Kept (w : StrategyRegistry) : Prop where
  strategies_unique : Table.Unique (·.key) w.strategies
  reports_unique : Table.Unique (·.reportId) w.reports
  manifest_hash : ∀ row ∈ w.strategies, row.manifestHash = row.manifest.manifestHash
  valid : ∀ stored ∈ w.reports, stored = stored.payload.row ∧ stored.payload.validate = .success ()
  audited : ∀ row ∈ w.strategies, w.Audited row

theorem kept_migrated : Kept migrated := by
  constructor
  · exact Table.unique_nil
  · exact Table.unique_nil
  all_goals
    intro _ h
    cases h

variable (event) in
omit [Hashing] in
theorem eventsOf_concat_of_ne {key : StrategyKey} (hevents : w'.events = w.events ++ [event])
    (hother : event.key ≠ key) : w'.eventsOf key = w.eventsOf key := by
  rw [eventsOf, hevents, List.filter_append]
  simp [eventsOf, hother]

variable (event) in
omit [Hashing] in
theorem eventsOf_concat (hevents : w'.events = w.events ++ [event])
    (hlast : ∀ e ∈ w.eventsOf event.key, e.sequence ≤ event.sequence) :
    w'.eventsOf event.key = w.eventsOf event.key ++ [event] := by
  rw [eventsOf, hevents, List.filter_append]
  have hself : [event].filter (·.key = event.key) = [event] := by simp
  rw [hself]
  exact sorted_concat fun e he => hlast e (mem_sorted.mpr he)

theorem Audited.of_eventsOf_eq (h : w.Audited row)
    (heq : w'.eventsOf row.key = w.eventsOf row.key) :
    w'.Audited row := by
  constructor
  · rw [heq]; exact h.linked
  · rw [heq]; exact h.hashed
  · rw [heq]; exact h.length
  · rw [heq]; exact h.follows
  · rw [heq]; exact h.projected

theorem eventHash_event (mutation : StrategyMutation) :
    mutation.event.eventHash = mutation.event.calculateEventHash := rfl

theorem Registration.audited (h : w.Registration manifest now w') :
    w'.Audited (manifest.registryRow now) := by
  have hevents : w'.eventsOf manifest.key = [(registered (manifest.registryRow now)).event] := by
    have hstored : w'.events = w.events ++ [(registered (manifest.registryRow now)).event] := by
      rw [h.result]
    have hconcat := eventsOf_concat _ hstored fun e he => by
      rw [show (registered (manifest.registryRow now)).event.key = manifest.key from rfl,
        h.first] at he
      cases he
    rw [show (registered (manifest.registryRow now)).event.key = manifest.key from rfl,
      h.first] at hconcat
    exact hconcat
  have hkey : (manifest.registryRow now).key = manifest.key := rfl
  constructor
  · rw [hkey, hevents]
    exact ⟨rfl, rfl, trivial⟩
  · rw [hkey, hevents]
    intro event hevent
    rw [List.mem_singleton.mp hevent]
    exact eventHash_event _
  · rw [hkey, hevents]
    rfl
  · rw [hkey, hevents]
    exact ⟨⟨rfl, rfl⟩, trivial⟩
  · rw [hkey, hevents]
    exact ⟨_, rfl, rfl, rfl, rfl, rfl⟩

theorem Promotion.audited {clock : TransitionClock}
    (h : w.Promotion request clock current row w') (haudited : w.Audited current) :
    w'.Audited row := by
  obtain ⟨previous, hprevious, hresult⟩ := h.event
  obtain ⟨report, -, -, hrow⟩ := h.report
  have hcurrent : current.key = request.key := (strategy_eq_some h.found).2
  have hkey : row.key = request.key := by rw [hrow]; exact hcurrent
  obtain ⟨hlinked, hhashed, hlength, hfollows, latest, hlatest, hprojected⟩ := haudited
  rw [hcurrent] at hlinked hhashed hlength hfollows hlatest
  rw [hprevious] at hlatest
  obtain rfl := Option.some.inj hlatest
  have hevents : w'.eventsOf request.key =
      w.eventsOf request.key ++ [(promoted request row previous).event] := by
    refine eventsOf_concat (promoted request row previous).event (by rw [hresult]) ?_
    intro e he
    have hle := hlinked.sequence_le StrategyAuditEvent.link he
    show e.sequence ≤ request.expectedVersion + 1
    have hsequence : StrategyAuditEvent.link.sequence e = e.sequence := rfl
    have hversion := h.version
    omega
  have hlastState := endState_of_getLast (some ·.toState) none hprevious
  constructor
  · rw [hkey, hevents, linked_concat]
    refine ⟨hlinked, ?_, ?_⟩
    · show request.expectedVersion + 1 = _
      have hversion := h.version
      omega
    · exact (headHash_of_getLast StrategyAuditEvent.link none hprevious).symm
  · rw [hkey, hevents]
    intro event hevent
    rcases List.mem_append.mp hevent with hevent | hevent
    · exact hhashed event hevent
    · rw [List.mem_singleton.mp hevent]
      exact eventHash_event _
  · rw [hkey, hevents, List.length_append, hlength, h.version, hrow]
    rfl
  · rw [hkey, hevents, traces_concat Follows _ hprevious]
    refine ⟨hfollows, ?_, ?_⟩
    · show some request.currentState = some previous.toState
      rw [hprojected.2.1, h.state]
    · show previous.toState.canTransition request.targetState
      rw [hprojected.2.1, h.state]
      exact h.allowed
  · rw [hkey, hevents]
    refine ⟨(promoted request row previous).event, List.getLast?_concat, ?_⟩
    rw [hrow]
    exact ⟨rfl, rfl, rfl, rfl⟩

theorem Registration.kept (h : w.Registration manifest now w') (hk : Kept w) : Kept w' := by
  have hstrategies : w'.strategies = w.strategies ++ [manifest.registryRow now] := by rw [h.result]
  have hreports : w'.reports = w.reports := by rw [h.result]
  constructor
  · rw [hstrategies]
    exact hk.strategies_unique.concat h.fresh
  · rw [hreports]
    exact hk.reports_unique
  · rw [hstrategies]
    intro row hrow
    rcases List.mem_append.mp hrow with hrow | hrow
    · exact hk.manifest_hash row hrow
    · rw [List.mem_singleton.mp hrow]
      rfl
  · rw [hreports]
    exact hk.valid
  · rw [hstrategies]
    intro row hrow
    rcases List.mem_append.mp hrow with hrow | hrow
    · refine (hk.audited row hrow).of_eventsOf_eq (eventsOf_concat_of_ne _ (by rw [h.result]) ?_)
      exact (h.fresh row hrow).symm
    · rw [List.mem_singleton.mp hrow]
      exact h.audited

theorem Storage.kept (h : w.Storage report w') (hk : Kept w) : Kept w' := by
  have hstrategies : w'.strategies = w.strategies := by rw [h.result]
  have hreports : w'.reports = w.reports ++ [report.row] := by rw [h.result]
  constructor
  · rw [hstrategies]
    exact hk.strategies_unique
  · rw [hreports]
    exact hk.reports_unique.concat h.fresh
  · rw [hstrategies]
    exact hk.manifest_hash
  · rw [hreports]
    intro stored hstored
    rcases List.mem_append.mp hstored with hstored | hstored
    · exact hk.valid stored hstored
    · rw [List.mem_singleton.mp hstored]
      exact ⟨rfl, h.valid⟩
  · rw [hstrategies]
    intro row hrow
    exact (hk.audited row hrow).of_eventsOf_eq (by rw [h.result]; rfl)

theorem Promotion.kept {clock : TransitionClock} (h : w.Promotion request clock current row w')
    (hk : Kept w) : Kept w' := by
  obtain ⟨hmem, hcurrent⟩ := strategy_eq_some h.found
  obtain ⟨previous, -, hresult⟩ := h.event
  obtain ⟨report, -, -, hrow⟩ := h.report
  have hmanifest : row.manifest = current.manifest := by rw [hrow]; rfl
  have hkey : row.key = current.key := by rw [hrow]; rfl
  have hstrategies : w'.strategies =
      Table.update (·.key = current.key) (fun _ => row) w.strategies := by rw [hresult]
  have hreports : w'.reports = w.reports := by rw [hresult]
  constructor
  · rw [hstrategies]
    exact hk.strategies_unique.update fun old hold => hkey.trans hold.symm
  · rw [hreports]
    exact hk.reports_unique
  · rw [hstrategies]
    refine Table.forall_mem_update (fun old hold _ => hk.manifest_hash old hold) fun _ _ _ => ?_
    rw [hmanifest, ← hk.manifest_hash current hmem, hrow]
    rfl
  · rw [hreports]
    exact hk.valid
  · rw [hstrategies]
    refine Table.forall_mem_update (fun old hold hother => ?_) fun _ _ _ =>
      h.audited (hk.audited current hmem)
    refine (hk.audited old hold).of_eventsOf_eq
      (eventsOf_concat_of_ne (promoted request row previous).event (by rw [hresult]) ?_)
    intro heq
    exact hother (heq.symm.trans hcurrent.symm)

theorem Kept.step [ReportColumn] (hk : Kept w) (command : Command) : Kept (w.step command) := by
  cases change_step w command with
  | unchanged hstrategies hreports hevents =>
      constructor
      · rw [hstrategies]
        exact hk.strategies_unique
      · rw [hreports]
        exact hk.reports_unique
      · rw [hstrategies]
        exact hk.manifest_hash
      · rw [hreports]
        exact hk.valid
      · rw [hstrategies]
        intro row hrow
        refine (hk.audited row hrow).of_eventsOf_eq ?_
        rw [eventsOf, eventsOf, hevents]
  | registered manifest now hregistration => exact hregistration.kept hk
  | stored report hstorage => exact hstorage.kept hk
  | promoted request clock current row _ _ hpromotion => exact hpromotion.kept hk

theorem kept_reached [ReportColumn] (commands : List Command) : Kept (reached commands) :=
  Run.invariant_run (fun _ command hk => hk.step command) kept_migrated commands

end StrategyRegistry

end

end StonksPaper
