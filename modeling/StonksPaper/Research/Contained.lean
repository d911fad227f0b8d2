import Mathlib.Data.List.Induction
import StonksPaper.Research.Trace

/-!
# The tool loop contains its model and its tools

What holds after every run of the loop, whatever the model, the tools and the clocks answer: only
batches that were authorized as a whole and fit into the budget reach the pool, the context stays
within its limits, and a result accounts for what was consumed and cites only evidence that one of
its calls materialized.
-/

namespace StonksPaper.Research

open Program

/-! ## Usage -/

def recordedCost (costs : List Decimal) : Decimal :=
  costs.foldl (fun total cost => Significant.round 28 (total + cost)) 0

theorem recordedCost_append (costs : List Decimal) (cost : Decimal) :
    recordedCost (costs ++ [cost]) = Significant.round 28 (recordedCost costs + cost) := by
  simp [recordedCost]

theorem hasDigits_recordedCost (costs : List Decimal) :
    Significant.HasDigits 28 (recordedCost costs) := by
  induction costs using List.reverseRecOn with
  | nil => exact ⟨0, 0, by norm_num, by simp [recordedCost]⟩
  | append_singleton costs cost ih =>
      rw [recordedCost_append]
      exact Significant.hasDigits_round (by norm_num) _

theorem recordedCost_eq_sum {costs : List Decimal}
    (h : ∀ initial, initial <+: costs → Significant.HasDigits 28 initial.sum) :
    recordedCost costs = costs.sum := by
  induction costs using List.reverseRecOn with
  | nil => rfl
  | append_singleton costs cost ih =>
      have hcosts := ih fun initial hinitial => h initial (hinitial.trans (List.prefix_append _ _))
      have hall := h (costs ++ [cost]) List.prefix_rfl
      rw [List.sum_append, List.sum_singleton] at hall ⊢
      rw [recordedCost_append, hcosts, Significant.round_of_hasDigits hall]

/-- The usage is what the responses report and what was handed to the pool. -/
structure Accounts (log : Log) (u : UsageConsumption) : Prop where
  iterations : u.iterations = (responses log).length
  toolCalls : u.toolCalls = (submitted log).length
  inputTokens : u.inputTokens = ((responses log).map (·.usage.inputTokens)).sum
  outputTokens : u.outputTokens = ((responses log).map (·.usage.outputTokens)).sum
  costUsd : u.costUsd = recordedCost ((responses log).map (·.usage.costUsd))

theorem plus_costUsd_of_zero {u v : UsageConsumption} (hu : Significant.HasDigits 28 u.costUsd)
    (hv : v.costUsd = 0) : (u.plus v).costUsd = u.costUsd := by
  rw [UsageConsumption.plus, hv, add_zero, Significant.round_of_hasDigits hu]

theorem consumeModelUsage_eq_success {request : ResearchRequest}
    {current reported u : UsageConsumption}
    (h : consumeModelUsage request current reported = .success u) :
    u = current.plus (modelUsage reported) ∧ Within request.budget u := by
  obtain ⟨delta, hdelta, h⟩ := Attempt.bind_eq_success.mp h
  obtain ⟨-, rfl⟩ := construct_eq_success.mp hdelta
  obtain ⟨rfl, hwithin, -⟩ := consumeUsage_eq_success.mp h
  exact ⟨rfl, hwithin⟩

/-! ## A round of tools -/

/-- What a round of tools that succeeds has done. -/
structure RoundDone (state state' : LoopState) (calls : List AuthorizedToolCall)
    (results : List ToolResult) (additions : List UntrustedContentBlock) (log : Log) : Prop where
  handed : submitted log = calls
  executed : List.Forall₂ (Executed log) calls results
  read : List.Forall₂ (BlockOf log) (calls.zip results) additions
  blocks : state'.blocks = state.blocks ++ additions
  totalBytes : state'.totalBytes = state.totalBytes + bytesOf additions
  blocks_le : state'.blocks.length ≤ MAX_CONTEXT_BLOCKS
  totalBytes_le : state'.totalBytes ≤ MAX_CONTEXT_TOTAL_BYTES
  evidence : state'.materializedEvidenceIds =
    state.materializedEvidenceIds ++ results.flatMap (·.materializedEvidenceIds)
  usage : ∃ elapsedMs, state'.usage =
    (state.usage.plus { toolCalls := calls.length }).plus { elapsedMs := elapsedMs }

theorem RoundDone.mono {state state' : LoopState} {calls : List AuthorizedToolCall}
    {results : List ToolResult} {additions : List UntrustedContentBlock} {log log' : Log}
    (h : RoundDone state state' calls results additions log)
    (hsubmitted : submitted log' = submitted log) (hsettled : settled log ⊆ settled log')
    (hloaded : loaded log ⊆ loaded log') : RoundDone state state' calls results additions log' :=
  { h with
    handed := hsubmitted.trans h.handed
    executed := h.executed.imp fun _ _ hof => hof.mono hsettled
    read := h.read.imp fun _ _ hof => hof.mono hloaded }

section

variable [Hashing] {request : ResearchRequest} {principal : ResearchPrincipal} {policy : ToolPolicy}

theorem structuredRequest_blocks {blocks : List UntrustedContentBlock} {iteration : ℕ}
    {r : StructuredLLMRequest}
    (h : structuredRequest request blocks policy iteration = .success r) :
    r.untrustedBlocks = blocks := by
  simp only [structuredRequest, Attempt.bind_eq_success, construct_eq_success] at h
  obtain ⟨_, -, _, -, -, rfl⟩ := h
  rfl

variable [TurnParsing] [AuditRedaction]

/-- The batch was authorized as a whole and fits into the budget. -/
def Fits (request : ResearchRequest) (principal : ResearchPrincipal) (policy : ToolPolicy)
    (turn : ResearchTurn) (iteration used : ℕ) (calls : List AuthorizedToolCall) : Prop :=
  authorizeBatch request principal policy turn iteration = .success calls ∧
    used + calls.length ≤ request.budget.maxToolCalls

/-- Nothing is handed to the pool but the calls of a batch that fits. -/
def Reaches (request : ResearchRequest) (principal : ResearchPrincipal) (policy : ToolPolicy)
    (turn : ResearchTurn) (iteration used : ℕ) (log : Log) : Prop :=
  submitted log = [] ∨
    ∃ calls, Fits request principal policy turn iteration used calls ∧ submitted log <+: calls

theorem runTools_keeps (state : LoopState) (turn : ResearchTurn) (iteration : ℕ) :
    Maintains (runTools request state turn principal policy iteration)
      (fun log => asked log = [] ∧ responses log = [] ∧
        Reaches request principal policy turn iteration state.usage.toolCalls log)
      fun log state' => ∃ calls results additions,
        Fits request principal policy turn iteration state.usage.toolCalls calls ∧
          RoundDone state state' calls results additions log := by
  have hnil : asked [] = [] ∧ responses [] = [] ∧
      Reaches request principal policy turn iteration state.usage.toolCalls [] :=
    ⟨rfl, rfl, .inl rfl⟩
  refine maintains_ofAttempt_bind hnil fun calls hbatch => ?_
  refine maintains_ofAttempt_bind hnil fun reserved hreserved => ?_
  obtain ⟨rfl, hwithin, -⟩ := consumeUsage_eq_success.mp hreserved
  have hfits : Fits request principal policy turn iteration state.usage.toolCalls calls :=
    ⟨hbatch, hwithin.toolCalls⟩
  refine (executeBatch_keeps calls).bind
    (fun log h => ⟨h.1, h.2.1, .inr ⟨calls, hfits, h.2.2⟩⟩) fun log results h hresults => ?_
  have hkept {log' : Log} (hsilent : Silent log') : asked (log ++ log') = [] ∧
      responses (log ++ log') = [] ∧
      Reaches request principal policy turn iteration state.usage.toolCalls (log ++ log') := by
    refine ⟨by simp [h.1, hsilent.1], by simp [h.2.1, hsilent.2.1], .inr ⟨calls, hfits, ?_⟩⟩
    rw [submitted_append, hsilent.2.2, List.append_nil]
    exact h.2.2
  refine maintains_ofAttempt_bind (hkept silent_nil) fun usage husage => ?_
  obtain ⟨rfl, -, -⟩ := consumeUsage_eq_success.mp husage
  refine (extendContext_keeps state.blocks state.totalBytes results calls).bind
    (fun _ h' => hkept h') fun log' extended h' hextended => ?_
  obtain ⟨additions, rfl, hblocks, hbytes, hadditions⟩ := hextended
  refine (checkDeadline_keeps request).bind (fun _ h'' => hkept (h'.append h''.1)) ?_
  intro log'' _ h'' _
  have hsilent := h'.append h''.1
  refine maintains_pure.mpr ?_
  rw [List.append_nil]
  refine ⟨hkept hsilent, calls, results, additions, hfits, ?_, ?_, ?_, rfl, rfl, hblocks, hbytes,
    rfl, _, rfl⟩
  · rw [submitted_append, hsilent.2.2, List.append_nil, hresults.1]
  · exact hresults.2.imp fun _ _ hof => hof.mono (by simp)
  · exact hadditions.imp fun _ _ hof => hof.mono (by simp)

/-! ## One iteration -/

/-- What an iteration asks and hands to the pool, however it ends. -/
def IterationKept (request : ResearchRequest) (principal : ResearchPrincipal) (policy : ToolPolicy)
    (state : LoopState) (iteration : ℕ) (log : Log) : Prop :=
  (asked log = [] ∨ ∃ r, asked log = [r] ∧ r.untrustedBlocks = state.blocks) ∧
    (submitted log = [] ∨ ∃ response turn calls, responses log = [response] ∧
      parseTurn response.parsedOutput = .success turn ∧
      Fits request principal policy turn iteration state.usage.toolCalls calls ∧
      submitted log <+: calls)

/-- An accepted turn of the model and the usage that it leaves. -/
structure TurnTaken (request : ResearchRequest) (state : LoopState) (log : Log)
    (response : StructuredLLMResponse) (turn : ResearchTurn) (taken : LoopState) : Prop where
  request_of : ∃ r, asked log = [r] ∧ r.untrustedBlocks = state.blocks
  response_of : responses log = [response]
  parsed : parseTurn response.parsedOutput = .success turn
  state_of : taken =
    state.withModelUsage response.model (state.usage.plus (modelUsage response.usage))
  within : Within request.budget taken.usage

/-- How an iteration that succeeds ends. -/
inductive IterationDone (request : ResearchRequest) (principal : ResearchPrincipal)
    (policy : ToolPolicy) (state : LoopState) (iteration : ℕ) (log : Log) : Step → Prop where
  | continued {response : StructuredLLMResponse} {turn : ResearchTurn} {taken state' : LoopState}
      {calls : List AuthorizedToolCall} {results : List ToolResult}
      {additions : List UntrustedContentBlock}
      (turn_taken : TurnTaken request state log response turn taken)
      (fits : Fits request principal policy turn iteration state.usage.toolCalls calls)
      (round : RoundDone taken state' calls results additions log) :
      IterationDone request principal policy state iteration log (.continued state')
  | finished {response : StructuredLLMResponse} {turn : ResearchTurn} {taken : LoopState}
      (turn_taken : TurnTaken request state log response turn taken)
      (final : turn.action = .final) (quiet : submitted log = [])
      (cited : turn.claims.flatMap (·.evidenceIds) ⊆ state.materializedEvidenceIds) :
      IterationDone request principal policy state iteration log
        (.finished (taken.finalResult response turn))

theorem runIteration_keeps (state : LoopState) (iteration : ℕ) :
    Maintains (runIteration request principal policy state iteration)
      (IterationKept request principal policy state iteration)
      (IterationDone request principal policy state iteration) := by
  have hsilent {log : Log} (h : Silent log) :
      IterationKept request principal policy state iteration log := ⟨.inl h.1, .inl h.2.2⟩
  refine (checkDeadline_keeps request).bind (fun _ h => hsilent h.1) fun log _ h _ => ?_
  refine (completeTurn_keeps request state.blocks policy iteration).bind ?_ ?_
  · intro log' h'
    refine ⟨?_, .inl (by simp [h.1.2.2, h'.1])⟩
    rcases h'.2 with hnone | ⟨r, hr, hone⟩
    · exact .inl (by simp [h.1.1, hnone])
    · exact .inr ⟨r, by simp [h.1.1, hone], structuredRequest_blocks hr⟩
  · intro log' completed h' hdone
    obtain ⟨-, -, hresponse, r, hr, hasked, haccepts⟩ := hdone
    obtain ⟨response, turn⟩ := completed
    refine (checkDeadline_keeps request).bind ?_ ?_
    · intro log'' h''
      exact ⟨.inr ⟨r, by simp [h.1.1, hasked, h''.1.1], structuredRequest_blocks hr⟩,
        .inl (by simp [h.1.2.2, h'.1, h''.1.2.2])⟩
    · intro log'' _ h'' _
      have hkept : IterationKept request principal policy state iteration
          (log ++ (log' ++ (log'' ++ []))) :=
        ⟨.inr ⟨r, by simp [h.1.1, hasked, h''.1.1], structuredRequest_blocks hr⟩,
          .inl (by simp [h.1.2.2, h'.1, h''.1.2.2])⟩
      refine maintains_ofAttempt_bind hkept fun usage husage => ?_
      obtain ⟨rfl, hwithin⟩ := consumeModelUsage_eq_success husage
      have htaken {rest : Log} (hrest : asked rest = [] ∧ responses rest = []) :
          TurnTaken request state (log ++ (log' ++ (log'' ++ rest))) response turn
            (state.withModelUsage response.model
              (state.usage.plus (modelUsage response.usage))) :=
        ⟨⟨r, by simp [h.1.1, hasked, h''.1.1, hrest.1], structuredRequest_blocks hr⟩,
          by simp [h.1.2.1, hresponse, h''.1.2.1, hrest.2], haccepts.2, rfl, hwithin⟩
      cases haction : turn.action with
      | final =>
          refine maintains_ofAttempt_bind hkept fun _ hcited => ?_
          refine maintains_pure.mpr ⟨hkept, .finished (htaken ⟨rfl, rfl⟩) haction ?_ ?_⟩
          · simp [h.1.2.2, h'.1, h''.1.2.2]
          · unfold validateFinalEvidence invalidModelOutput failure at hcited
            split at hcited
            · assumption
            · cases hcited
      | tools =>
          have hround {rest : Log} (hrest : asked rest = [] ∧ responses rest = [] ∧
              Reaches request principal policy turn iteration state.usage.toolCalls rest) :
              IterationKept request principal policy state iteration
                (log ++ (log' ++ (log'' ++ rest))) := by
            refine ⟨.inr ⟨r, by simp [h.1.1, hasked, h''.1.1, hrest.1],
              structuredRequest_blocks hr⟩, ?_⟩
            have hof : submitted (log ++ (log' ++ (log'' ++ rest))) = submitted rest := by
              simp [h.1.2.2, h'.1, h''.1.2.2]
            rw [hof]
            rcases hrest.2.2 with hnone | ⟨calls, hfits, hinitial⟩
            · exact .inl hnone
            · exact .inr ⟨response, turn, calls, (htaken ⟨hrest.1, hrest.2.1⟩).response_of,
                haccepts.2, hfits, hinitial⟩
          refine (runTools_keeps _ turn iteration).bind (fun rest hrest => hround hrest) ?_
          intro rest state' hrest hstep
          obtain ⟨calls, results, additions, hfits, hdone⟩ := hstep
          refine maintains_pure.mpr ?_
          rw [List.append_nil]
          refine ⟨hround hrest, .continued (htaken ⟨hrest.1, hrest.2.1⟩) hfits
            (hdone.mono ?_ ?_ ?_)⟩
          · simp [h.1.2.2, h'.1, h''.1.2.2]
          · intro c hc
            simp [hc]
          · intro content hcontent
            simp [hcontent]

/-! ## Runs -/

/-- The batches that were handed over so far: the i-th one was authorized as a whole for the turn
of the i-th response. -/
def Authorized (request : ResearchRequest) (principal : ResearchPrincipal) (policy : ToolPolicy)
    (log : Log) (batches : List (List AuthorizedToolCall)) : Prop :=
  ∀ i calls, batches[i]? = some calls → ∃ response turn, (responses log)[i]? = some response ∧
    parseTurn response.parsedOutput = .success turn ∧
    authorizeBatch request principal policy turn i = .success calls

/-- What a state of the loop says about the exchanges that led to it: their batches, and the calls
with their results. -/
structure History (request : ResearchRequest) (principal : ResearchPrincipal) (policy : ToolPolicy)
    (context : ResearchContext) (log : Log) (batches : List (List AuthorizedToolCall))
    (executed : List (AuthorizedToolCall × ToolResult)) (state : LoopState) : Prop where
  answered : (asked log).length = (responses log).length
  rounds : batches.length = (responses log).length
  authorized : Authorized request principal policy log batches
  handed : submitted log = batches.flatten
  fits : batches.flatten.length ≤ request.budget.maxToolCalls
  accounts : Accounts log state.usage
  calls : executed.map (·.1) = submitted log
  results : ∀ entry ∈ executed, Executed log entry.1 entry.2
  evidence : state.materializedEvidenceIds = executed.flatMap (·.2.materializedEvidenceIds)
  blocks : ∃ additions, state.blocks = context.blocks ++ additions ∧
    List.Forall₂ (BlockOf log) executed additions
  blocks_le : state.blocks.length ≤ MAX_CONTEXT_BLOCKS
  totalBytes : state.totalBytes = bytesOf state.blocks
  totalBytes_le : state.totalBytes ≤ MAX_CONTEXT_TOTAL_BYTES
  requests : ∀ r ∈ asked log, context.blocks <+: r.untrustedBlocks ∧ r.untrustedBlocks <+:
    state.blocks

/-- The loop contains its model and its tools: every batch is authorized as a whole before one of
its calls is handed over, and all of them fit into the budget; there are no more turns than the
budget allows; and no request exceeds the limits of the context. -/
structure Contains (request : ResearchRequest) (principal : ResearchPrincipal) (policy : ToolPolicy)
    (context : ResearchContext) (log : Log) : Prop where
  calls : ∃ batches, Authorized request principal policy log batches ∧
    submitted log <+: batches.flatten ∧ batches.flatten.length ≤ request.budget.maxToolCalls
  turns : (asked log).length ≤ request.budget.maxIterations
  blocks : ∀ r ∈ asked log, context.blocks <+: r.untrustedBlocks ∧
    r.untrustedBlocks.length ≤ MAX_CONTEXT_BLOCKS ∧
    bytesOf r.untrustedBlocks ≤ MAX_CONTEXT_TOTAL_BYTES

/-- The evidence was materialized by a call that was authorized for it, and the model had the
content of the call's result before it when it concluded. -/
def Cited (log : Log) (evidenceId : UUID) : Prop :=
  ∃ call ∈ submitted log, ∃ result, Executed log call result ∧
    evidenceId ∈ result.materializedEvidenceIds ∧
    ∃ r ∈ (asked log).getLast?, ∃ block ∈ r.untrustedBlocks, BlockOf log (call, result) block

/-- A result accounts for what the run has consumed and cites what it has read. -/
structure Concluded (request : ResearchRequest) (log : Log) (result : ResearchLoopResult) :
    Prop where
  answered : (asked log).length = (responses log).length
  accounts : Accounts log result.usage
  within : Within request.budget result.usage
  draft : ∃ response ∈ (responses log).getLast?,
    parseTurn response.parsedOutput = .success result.draft ∧ result.draft.action = .final ∧
      result.rawOutputArtifactRef = response.rawOutputArtifactRef
  cited : ∀ claim ∈ result.draft.claims, ∀ evidenceId ∈ claim.evidenceIds, Cited log evidenceId

variable {context : ResearchContext} {log : Log} {batches : List (List AuthorizedToolCall)}
  {executed : List (AuthorizedToolCall × ToolResult)} {state : LoopState}

omit [Hashing] [AuditRedaction] [TurnParsing] in
theorem bytesOf_mono {xs ys : List UntrustedContentBlock} (h : xs <+: ys) :
    bytesOf xs ≤ bytesOf ys := by
  obtain ⟨zs, rfl⟩ := h
  simp

omit [Hashing] [AuditRedaction] [TurnParsing] in
/-- A turn of the model is added to the accounts. -/
theorem Accounts.turn {log' : Log} {u reported : UsageConsumption}
    {response : StructuredLLMResponse}
    (h : Accounts log u) (hresponses : responses log' = [response])
    (hreported : reported = response.usage) :
    (u.plus (modelUsage reported)).iterations = (responses (log ++ log')).length ∧
      (u.plus (modelUsage reported)).toolCalls = (submitted log).length ∧
      (u.plus (modelUsage reported)).inputTokens =
        ((responses (log ++ log')).map (·.usage.inputTokens)).sum ∧
      (u.plus (modelUsage reported)).outputTokens =
        ((responses (log ++ log')).map (·.usage.outputTokens)).sum ∧
      (u.plus (modelUsage reported)).costUsd =
        recordedCost ((responses (log ++ log')).map (·.usage.costUsd)) := by
  subst hreported
  simp [UsageConsumption.plus, modelUsage, h.iterations, h.toolCalls, h.inputTokens, h.outputTokens,
    h.costUsd, hresponses, recordedCost_append]

theorem history_initial :
    History request principal policy context [] [] []
      { usage := {}, blocks := context.blocks, totalBytes := context.totalBytes } where
  answered := rfl
  rounds := rfl
  authorized := by simp [Authorized]
  handed := rfl
  fits := Nat.zero_le _
  accounts := ⟨rfl, rfl, rfl, rfl, rfl⟩
  calls := rfl
  results := by simp
  evidence := rfl
  blocks := ⟨[], by simp, .nil⟩
  blocks_le := context.blocks_le
  totalBytes := context.counted
  totalBytes_le := context.totalBytes_le
  requests := by simp

theorem History.authorized_append {log' : Log} {turn : ResearchTurn}
    {response : StructuredLLMResponse} {calls : List AuthorizedToolCall}
    (h : History request principal policy context log batches executed state)
    (hresponse : responses log' = [response])
    (hparsed : parseTurn response.parsedOutput = .success turn)
    (hcalls : authorizeBatch request principal policy turn (responses log).length =
      .success calls) :
    Authorized request principal policy (log ++ log') (batches ++ [calls]) := by
  intro i calls' hat
  rw [responses_append, hresponse]
  rcases Nat.lt_trichotomy i batches.length with hlt | heq | hgt
  · rw [List.getElem?_append_left hlt] at hat
    obtain ⟨response', turn', hresponse', hrest⟩ := h.authorized i calls' hat
    refine ⟨response', turn', ?_, hrest⟩
    rw [List.getElem?_append_left (by rw [← h.rounds]; exact hlt)]
    exact hresponse'
  · subst heq
    rw [List.getElem?_append_right (le_refl _), Nat.sub_self] at hat
    cases hat
    refine ⟨response, turn, ?_, hparsed, ?_⟩
    · rw [h.rounds, List.getElem?_append_right (le_refl _), Nat.sub_self]
      rfl
    · rw [h.rounds]
      exact hcalls
  · rw [List.getElem?_eq_none (by simp; omega)] at hat
    cases hat

/-- An iteration keeps the loop contained, however it ends. -/
theorem History.contains {log' : Log}
    (h : History request principal policy context log batches executed state)
    (hrounds : (responses log).length < request.budget.maxIterations)
    (hkept : IterationKept request principal policy state (responses log).length log') :
    Contains request principal policy context (log ++ log') := by
  obtain ⟨hasked, hsubmitted⟩ := hkept
  constructor
  · rcases hsubmitted with hnone | ⟨response, turn, calls, hresponse, hparsed, hfits, hinitial⟩
    · refine ⟨batches, fun i calls hat => ?_, ?_, h.fits⟩
      · obtain ⟨response, turn, hresponse, hrest⟩ := h.authorized i calls hat
        refine ⟨response, turn, ?_, hrest⟩
        obtain ⟨hi, -⟩ := List.getElem?_eq_some_iff.mp hresponse
        rw [responses_append, List.getElem?_append_left hi]
        exact hresponse
      · have hsame : submitted (log ++ log') = batches.flatten := by
          rw [submitted_append, hnone, List.append_nil, h.handed]
        exact ⟨[], (List.append_nil _).trans hsame⟩
    · refine ⟨batches ++ [calls], h.authorized_append hresponse hparsed hfits.1, ?_, ?_⟩
      · rw [submitted_append, h.handed, List.flatten_append, List.flatten_singleton]
        exact (List.prefix_append_right_inj _).mpr hinitial
      · have hused := hfits.2
        rw [h.accounts.toolCalls, h.handed] at hused
        simpa using hused
  · rw [asked_append, List.length_append, h.answered]
    rcases hasked with hnone | ⟨r, hone, -⟩
    · rw [hnone, List.length_nil]
      omega
    · rw [hone, List.length_singleton]
      omega
  · intro r hr
    rw [asked_append] at hr
    have hlimits {r : StructuredLLMRequest} (hinitial : r.untrustedBlocks <+: state.blocks) :
        r.untrustedBlocks.length ≤ MAX_CONTEXT_BLOCKS ∧
          bytesOf r.untrustedBlocks ≤ MAX_CONTEXT_TOTAL_BYTES :=
      ⟨hinitial.length_le.trans h.blocks_le,
        (bytesOf_mono hinitial).trans (h.totalBytes ▸ h.totalBytes_le)⟩
    rcases List.mem_append.mp hr with hr | hr
    · obtain ⟨hcontext, hinitial⟩ := h.requests r hr
      exact ⟨hcontext, hlimits hinitial⟩
    · rcases hasked with hnone | ⟨r', hone, hblocks⟩
      · rw [hnone] at hr
        cases hr
      · rw [hone, List.mem_singleton] at hr
        subst hr
        obtain ⟨additions, hstate, -⟩ := h.blocks
        exact ⟨hblocks ▸ hstate ▸ List.prefix_append _ _, hlimits (hblocks ▸ List.prefix_rfl)⟩

theorem History.contains_self
    (h : History request principal policy context log batches executed state)
    (hrounds : (responses log).length ≤ request.budget.maxIterations) :
    Contains request principal policy context log where
  calls := ⟨batches, h.authorized, ⟨[], (List.append_nil _).trans h.handed⟩, h.fits⟩
  turns := h.answered ▸ hrounds
  blocks r hr := by
    obtain ⟨hcontext, hinitial⟩ := h.requests r hr
    exact ⟨hcontext, hinitial.length_le.trans h.blocks_le,
      (bytesOf_mono hinitial).trans (h.totalBytes ▸ h.totalBytes_le)⟩

/-- A round of tools extends the history by its batch and its results. -/
theorem History.continued {log' : Log} {state' : LoopState}
    (h : History request principal policy context log batches executed state)
    (hdone : IterationDone request principal policy state (responses log).length log'
      (.continued state')) :
    ∃ calls entries, (responses (log ++ log')).length = (responses log).length + 1 ∧
      History request principal policy context (log ++ log') (batches ++ [calls])
        (executed ++ entries) state' := by
  cases hdone with
  | @continued response turn taken _ calls results additions hturn hfits hround =>
      obtain ⟨⟨r, hasked, hblocks⟩, hresponse, hparsed, rfl, -⟩ := hturn
      have hlength : calls.length = results.length := hround.executed.length_eq
      have hfst : (calls.zip results).map Prod.fst = calls :=
        List.map_fst_zip hlength.le
      have hsnd : (calls.zip results).map Prod.snd = results :=
        List.map_snd_zip hlength.ge
      obtain ⟨hiterations, htools, hinput, houtput, hcost⟩ :=
        h.accounts.turn hresponse rfl
      obtain ⟨elapsedMs, husage⟩ := hround.usage
      have hused : batches.flatten.length + calls.length ≤ request.budget.maxToolCalls := by
        have hbudget := hfits.2
        rwa [h.accounts.toolCalls, h.handed] at hbudget
      obtain ⟨before, hbefore, hread⟩ := h.blocks
      have hdigits : Significant.HasDigits 28
          (state.usage.plus (modelUsage response.usage)).costUsd := by
        rw [hcost]
        exact hasDigits_recordedCost _
      refine ⟨calls, calls.zip results, by simp [hresponse], ?_⟩
      constructor
      · simp [h.answered, hasked, hresponse]
      · simp [h.rounds, hresponse]
      · exact h.authorized_append hresponse hparsed hfits.1
      · simp [h.handed, hround.handed]
      · simpa using hused
      · rw [husage]
        refine ⟨?_, ?_, ?_, ?_, ?_⟩
        · simpa [UsageConsumption.plus, LoopState.withModelUsage] using hiterations
        · rw [submitted_append, hround.handed, List.length_append, ← htools]
          simp [UsageConsumption.plus, LoopState.withModelUsage, modelUsage]
        · simpa [UsageConsumption.plus, LoopState.withModelUsage] using hinput
        · simpa [UsageConsumption.plus, LoopState.withModelUsage] using houtput
        · have hfirst := plus_costUsd_of_zero (v := { toolCalls := calls.length }) hdigits rfl
          have hsecond := plus_costUsd_of_zero (v := { elapsedMs := elapsedMs })
            (hfirst ▸ hdigits) rfl
          exact hsecond.trans (hfirst.trans hcost)
      · rw [List.map_append, h.calls, hfst, submitted_append, hround.handed]
      · intro entry hentry
        rcases List.mem_append.mp hentry with hentry | hentry
        · exact (h.results entry hentry).mono (by simp)
        · have hof := List.forall₂_zip hround.executed hentry
          exact hof.mono (by simp)
      · rw [hround.evidence, List.flatMap_append, ← h.evidence]
        have hflat : (calls.zip results).flatMap (·.2.materializedEvidenceIds) =
            results.flatMap (·.materializedEvidenceIds) := by
          conv_rhs => rw [← hsnd]
          rw [List.flatMap_map]
        rw [hflat]
        rfl
      · refine ⟨before ++ additions, ?_, ?_⟩
        · rw [hround.blocks, ← List.append_assoc, ← hbefore]
          rfl
        · exact List.rel_append (hread.imp fun _ _ hof => hof.mono (by simp))
            (hround.read.imp fun _ _ hof => hof.mono (by simp))
      · exact hround.blocks_le
      · rw [hround.totalBytes, hround.blocks, bytesOf_append]
        exact congrArg (· + bytesOf additions) h.totalBytes
      · exact hround.totalBytes_le
      · intro r' hr'
        have hgrown : state.blocks <+: state'.blocks := by
          rw [hround.blocks]
          exact List.prefix_append _ _
        rw [asked_append, hasked] at hr'
        rcases List.mem_append.mp hr' with hr' | hr'
        · obtain ⟨hcontext, hinitial⟩ := h.requests r' hr'
          exact ⟨hcontext, hinitial.trans hgrown⟩
        · rw [List.mem_singleton] at hr'
          subst hr'
          rw [hblocks]
          exact ⟨hbefore ▸ List.prefix_append _ _, hgrown⟩

/-- A conclusion of the model is accounted for and cites what was read. -/
theorem History.concluded {log' : Log} {result : ResearchLoopResult}
    (h : History request principal policy context log batches executed state)
    (hdone : IterationDone request principal policy state (responses log).length log'
      (.finished result)) :
    Concluded request (log ++ log') result := by
  cases hdone with
  | @finished response turn taken hturn hfinal hquiet hcited =>
      obtain ⟨⟨r, hasked, hblocks⟩, hresponse, hparsed, rfl, hwithin⟩ := hturn
      obtain ⟨hiterations, htools, hinput, houtput, hcost⟩ :=
        h.accounts.turn hresponse rfl
      constructor
      · simp [h.answered, hasked, hresponse]
      · refine ⟨hiterations, ?_, hinput, houtput, hcost⟩
        rw [submitted_append, hquiet, List.append_nil]
        exact htools
      · exact hwithin
      · refine ⟨response, ?_, hparsed, hfinal, rfl⟩
        rw [responses_append, hresponse]
        simp
      · intro claim hclaim evidenceId hid
        have hmem : evidenceId ∈ turn.claims.flatMap (·.evidenceIds) :=
          List.mem_flatMap.mpr ⟨claim, hclaim, hid⟩
        have hmaterialized := hcited hmem
        rw [h.evidence] at hmaterialized
        obtain ⟨entry, hentry, hevidence⟩ := List.mem_flatMap.mp hmaterialized
        obtain ⟨additions, hstate, hread⟩ := h.blocks
        obtain ⟨i, hi, hat⟩ := List.getElem_of_mem hentry
        have hi' : i < additions.length := hread.length_eq ▸ hi
        have hof : BlockOf log entry additions[i] := hat ▸ hread.get hi hi'
        have hcall : entry.1 ∈ submitted log := by
          rw [← h.calls]
          exact List.mem_map_of_mem hentry
        refine ⟨entry.1, by simp [hcall], entry.2, (h.results entry hentry).mono (by simp),
          hevidence, r, by simp [hasked], additions[i], ?_, hof.mono (by simp)⟩
        rw [hblocks, hstate]
        exact List.mem_append_right _ (List.getElem_mem hi')

theorem runIterations_keeps (rounds : ℕ)
    (h : History request principal policy context log batches executed state)
    (hrounds : (responses log).length + rounds ≤ request.budget.maxIterations) :
    Maintains (runIterations request principal policy rounds (responses log).length state)
      (fun log' => Contains request principal policy context (log ++ log'))
      fun log' result => Concluded request (log ++ log') result := by
  induction rounds generalizing log batches executed state with
  | zero =>
      refine maintains_ofAttempt.mpr ⟨?_, fun _ heq => by cases heq⟩
      rw [List.append_nil]
      exact h.contains_self (by omega)
  | succ rounds ih =>
      refine (runIteration_keeps state (responses log).length).bind
        (fun log' hkept => h.contains (by omega) hkept) fun log' step hkept hdone => ?_
      cases step with
      | finished result =>
          refine maintains_pure.mpr ?_
          rw [List.append_nil]
          exact ⟨h.contains (by omega) hkept, h.concluded hdone⟩
      | continued state' =>
          obtain ⟨calls, entries, hlength, hnext⟩ := h.continued hdone
          have hrest := ih hnext (by omega)
          rw [hlength] at hrest
          simpa only [List.append_assoc] using hrest

theorem Contains.contained {call : AuthorizedToolCall}
    (h : Contains request principal policy context log) (hcall : call ∈ submitted log) :
    Contained request principal policy call := by
  obtain ⟨batches, hauthorized, hinitial, -⟩ := h.calls
  obtain ⟨batch, hbatch, hmem⟩ := List.mem_flatten.mp (hinitial.subset hcall)
  obtain ⟨i, hi, hat⟩ := List.getElem_of_mem hbatch
  obtain ⟨response, turn, -, -, hall⟩ :=
    hauthorized i batch (List.getElem?_eq_some_iff.mpr ⟨hi, hat⟩)
  exact (authorizeBatch_eq_success hall).2 call hmem

theorem runToolLoop_keeps (request : ResearchRequest) (principal : ResearchPrincipal)
    (policy : ToolPolicy) (context : ResearchContext) :
    Maintains (runToolLoop request principal policy context)
      (Contains request principal policy context) (Concluded request) :=
  runIterations_keeps request.budget.maxIterations history_initial (by simp)

end

/-! ## A run that concludes -/

section

open scoped CodeHashing

namespace Dialogue

theorem checkDeadline_runs :
    ∃ log, submitted log = [] ∧ RunsTo (checkDeadline Dialogue.request) log (.success ()) := by
  have hread : (if Dialogue.request.deadlineAt < 10 then
      failure .deadlineExceeded "Research deadline exceeded" else .success () :
      ResearchAttempt Unit) = .success () := if_neg (by decide)
  let reading : Reading := .ok (some 10)
  refine ⟨[⟨.now, reading⟩], rfl, runsTo_ask.mpr ⟨reading, [], rfl, ?_⟩⟩
  exact runsTo_done.mpr ⟨rfl, hread.symm⟩

theorem completeTurn_runs {blocks : List UntrustedContentBlock} {iteration : ℕ}
    {turn : ResearchTurn}
    (hblocks : blocks.length ≤ MAX_CONTEXT_BLOCKS)
    (hturn : ∀ id, parseTurn (response iteration id).parsedOutput = .success turn) :
    ∃ log id, submitted log = [] ∧
      RunsTo (completeTurn Dialogue.request blocks policy iteration) log
        (.success (response iteration id, turn)) := by
  obtain ⟨r, hr⟩ : (structuredRequest Dialogue.request blocks policy iteration).Succeeds :=
    admissible.succeeds hblocks
  let answer : ResearchAttempt StructuredLLMResponse := .success (response iteration r.requestId)
  have hcomplete : RunsTo (complete r) [⟨.complete r, answer⟩] answer := by
    unfold complete
    exact RunsTo.request (r := LoopRequest.complete r)
      (show LoopAnswer (.complete r) from answer) rfl
  have haccept : acceptResponse r (response iteration r.requestId) =
      .success (response iteration r.requestId, turn) :=
    acceptResponse_eq_success.mpr ⟨rfl, rfl, hturn _⟩
  exact ⟨_, r.requestId, rfl,
    (RunsTo.ofAttempt hr).andThen (hcomplete.andThen (RunsTo.ofAttempt haccept))⟩

theorem parse_first (id : UUID) : parseTurn (response 0 id).parsedOutput = .success asks :=
  parseTurn_eq_success.mpr ⟨rfl, by decide +kernel⟩

theorem parse_second (id : UUID) : parseTurn (response 1 id).parsedOutput = .success concludes :=
  parseTurn_eq_success.mpr ⟨rfl, by decide +kernel⟩

def usageAfter (turns calls elapsedMs : ℕ) : UsageConsumption :=
  ⟨turns, calls, 10 * turns, 5 * turns, turns / 10, elapsedMs⟩

theorem usage_runs (iteration : ℕ) (id : UUID) :
    consumeModelUsage Dialogue.request {} (response iteration id).usage =
        .success (usageAfter 1 0 0) ∧
      consumeModelUsage Dialogue.request (usageAfter 1 1 20) (response iteration id).usage =
        .success (usageAfter 2 1 20) := by
  change consumeModelUsage Dialogue.request {} ⟨0, 0, 10, 5, 1 / 10, 0⟩ = _ ∧
    consumeModelUsage Dialogue.request (usageAfter 1 1 20) ⟨0, 0, 10, 5, 1 / 10, 0⟩ = _
  decide +kernel

def planning : LoopState :=
  { usage := usageAfter 1 0 0, blocks := context.blocks, totalBytes := 9,
    modelVersions := ["model-1"] }

def Informed (state : LoopState) : Prop :=
  state.blocks.length = 2 ∧ state.usage = usageAfter 1 1 20 ∧ state.materializedEvidenceIds = [7]

instance : DecidablePred Informed := fun _ => inferInstanceAs (Decidable (_ ∧ _ ∧ _))

theorem runTools_runs : ∃ log state, (submitted log).length = 1 ∧ Informed state ∧
    RunsTo (runTools Dialogue.request planning asks principal policy 0) log
      (.success state) := by
  have hrun := runsTo_play script 0
    (runTools Dialogue.request planning asks principal policy 0)
  have hend : (play script 0 (runTools Dialogue.request planning asks principal policy
      0)).2.SucceedsWith Informed := by decide +kernel
  have hcalls : (submitted (play script 0 (runTools Dialogue.request planning asks principal
      policy 0)).1).length = 1 := by decide +kernel
  obtain ⟨state, hstate, hinformed⟩ := hend
  exact ⟨_, state, hcalls, hinformed, hstate ▸ hrun⟩

theorem firstIteration_runs : ∃ log state, (submitted log).length = 1 ∧ Informed state ∧
    RunsTo (runIteration Dialogue.request principal policy
      { usage := {}, blocks := context.blocks, totalBytes := context.totalBytes } 0) log
      (.success (.continued state)) := by
  obtain ⟨clock, hclock, hnow⟩ := checkDeadline_runs
  obtain ⟨turn, id, hturn, hcomplete⟩ := completeTurn_runs context.blocks_le parse_first
  obtain ⟨tools, state, htools, hinformed, hround⟩ := runTools_runs
  refine ⟨_, state, ?_, hinformed, hnow.andThen (hcomplete.andThen (hnow.andThen
    ((RunsTo.ofAttempt (usage_runs 0 id).1).andThen (hround.andThen (.done _)))))⟩
  simp [hclock, hturn, htools]

theorem secondIteration_runs {state : LoopState} (hstate : Informed state) :
    ∃ log result, submitted log = [] ∧ RunsTo (runIteration Dialogue.request principal policy
      state 1) log (.success (.finished result)) := by
  obtain ⟨clock, hclock, hnow⟩ := checkDeadline_runs
  obtain ⟨turn, id, hturn, hcomplete⟩ :=
    completeTurn_runs (hstate.1.trans_le (by decide)) parse_second
  have husage := (usage_runs 1 id).2
  rw [← hstate.2.1] at husage
  have hcited : validateFinalEvidence concludes state.materializedEvidenceIds = .success () :=
    if_pos (by rw [hstate.2.2]; decide)
  refine ⟨_, _, ?_, hnow.andThen (hcomplete.andThen (hnow.andThen
    ((RunsTo.ofAttempt husage).andThen ((RunsTo.ofAttempt hcited).andThen (.done _)))))⟩
  simp [hclock, hturn]

theorem loop_runs : ∃ log result, (submitted log).length = 1 ∧
    RunsTo (runToolLoop Dialogue.request principal policy context) log (.success result) := by
  obtain ⟨first, state, hfirst, hinformed, hcontinued⟩ := firstIteration_runs
  obtain ⟨second, result, hsecond, hfinished⟩ := secondIteration_runs hinformed
  refine ⟨_, result, ?_, hcontinued.andThen (hfinished.andThen (.done _))⟩
  simp [hfirst, hsecond]

end Dialogue

end

/-! ## What every run does -/

/-- In every run of the loop, whatever its model, its tools and its clocks answer, a call is handed
to the pool only if the policy and the request permit it, as a part of a batch that was authorized
as a whole and with the ones before it fits into the budget; there are no more turns than the budget
allows, and the context of no request exceeds its limits. -/
theorem tool_loop_contains [Hashing] [AuditRedaction] [TurnParsing] (request : ResearchRequest)
    (principal : ResearchPrincipal) (policy : ToolPolicy) (context : ResearchContext) (log : Log)
    (end_ : ResearchAttempt ResearchLoopResult)
    (hrun : RunsTo (runToolLoop request principal policy context) log end_) :
    Contains request principal policy context log ∧
      ∀ call ∈ submitted log, Contained request principal policy call := by
  have hcontains := (runToolLoop_keeps request principal policy context log end_ hrun).1
  exact ⟨hcontains, fun call hcall => hcontains.contained hcall⟩

open scoped CodeHashing Dialogue in
theorem tool_loop_contains_dialogue : ∃ log, (submitted log).length = 1 ∧
    Contains Dialogue.request Dialogue.principal Dialogue.policy
      Dialogue.context log ∧
    ∀ call ∈ submitted log, Contained Dialogue.request Dialogue.principal
      Dialogue.policy call := by
  obtain ⟨log, result, hcalls, hrun⟩ := Dialogue.loop_runs
  exact ⟨log, hcalls, tool_loop_contains _ _ _ _ log (.success result) hrun⟩

/-- A run of the loop that succeeds records exactly what its responses report and what was handed to
the pool, within the budget, and every claim of its draft cites only evidence that one of its calls
was authorized for and has materialized, with the content before the model when it concluded. -/
theorem tool_loop_concludes [Hashing] [AuditRedaction] [TurnParsing] (request : ResearchRequest)
    (principal : ResearchPrincipal) (policy : ToolPolicy) (context : ResearchContext) (log : Log)
    (result : ResearchLoopResult)
    (hrun : RunsTo (runToolLoop request principal policy context) log (.success result)) :
    Concluded request log result ∧
      ∀ claim ∈ result.draft.claims, ∀ evidenceId ∈ claim.evidenceIds,
        evidenceId ∈ request.allowedEvidenceIds ∧ evidenceId ∈ policy.allowedEvidenceIds := by
  obtain ⟨hcontains, hconcluded⟩ :=
    runToolLoop_keeps request principal policy context log (.success result) hrun
  have hresult := hconcluded result rfl
  refine ⟨hresult, fun claim hclaim evidenceId hid => ?_⟩
  obtain ⟨call, hcall, tool, hexecuted, hevidence, -⟩ := hresult.cited claim hclaim evidenceId hid
  have hcontained := hcontains.contained hcall
  have hscope := hexecuted.evidence hevidence
  exact ⟨hcontained.evidence hscope, hcontained.permitted.evidence hscope⟩

open scoped CodeHashing Dialogue in
theorem tool_loop_concludes_dialogue : ∃ log result, (submitted log).length = 1 ∧
    Concluded Dialogue.request log result ∧
    ∀ claim ∈ result.draft.claims, ∀ evidenceId ∈ claim.evidenceIds,
      evidenceId ∈ Dialogue.request.allowedEvidenceIds ∧
        evidenceId ∈ Dialogue.policy.allowedEvidenceIds := by
  obtain ⟨log, result, hcalls, hrun⟩ := Dialogue.loop_runs
  exact ⟨log, result, hcalls, tool_loop_concludes _ _ _ _ log result hrun⟩

end StonksPaper.Research
