import StonksPaper.Research.Loop

/-!
# What the parts of the tool loop ensure

The exchanges of a run are read as the requests that were put to the model, the responses, the
calls that were handed to the pool and what its futures were found to hold. For each part of the
loop: what every run of it adds to these, whatever the answers are.
-/

namespace StonksPaper.Research

open Program

/-! ## Reading the exchanges -/

abbrev Log := Exchanges LoopRequest LoopAnswer

/-- The requests that were put to the model. -/
def asked (log : Log) : List StructuredLLMRequest :=
  log.filterMap fun
    | ⟨.complete request, _⟩ => some request
    | _ => none

/-- The responses of the model. -/
def responses (log : Log) : List StructuredLLMResponse :=
  log.filterMap fun
    | ⟨.complete _, answer⟩ =>
        Attempt.toOption (show ResearchAttempt StructuredLLMResponse from answer)
    | _ => none

/-- The calls that were handed to the pool. -/
def submitted (log : Log) : List AuthorizedToolCall :=
  log.filterMap fun
    | ⟨.submit call, _⟩ => some call
    | _ => none

/-- The futures that were found completed, with what they held. -/
def settled (log : Log) : List (Future × Completion) :=
  log.flatMap fun
    | ⟨.wait _ _, answer⟩ => Settled.completed answer
    | _ => []

/-- The artifacts that were read, with their contents. -/
def loaded (log : Log) : List (Sha256 × List UInt8) :=
  log.filterMap fun
    | ⟨.read contentHash, answer⟩ =>
        (Attempt.toOption (show ResearchAttempt (List UInt8) from answer)).map fun content =>
          (contentHash, content)
    | _ => none

section

variable {log log' : Log}

@[simp] theorem asked_nil : asked [] = [] := rfl
@[simp] theorem responses_nil : responses [] = [] := rfl
@[simp] theorem submitted_nil : submitted [] = [] := rfl
@[simp] theorem settled_nil : settled [] = [] := rfl
@[simp] theorem loaded_nil : loaded [] = [] := rfl

@[simp] theorem asked_append : asked (log ++ log') = asked log ++ asked log' :=
  List.filterMap_append

@[simp] theorem responses_append : responses (log ++ log') = responses log ++ responses log' :=
  List.filterMap_append

@[simp] theorem submitted_append : submitted (log ++ log') = submitted log ++ submitted log' :=
  List.filterMap_append

@[simp] theorem settled_append : settled (log ++ log') = settled log ++ settled log' :=
  List.flatMap_append

@[simp] theorem loaded_append : loaded (log ++ log') = loaded log ++ loaded log' :=
  List.filterMap_append

end

def Silent (log : Log) : Prop := asked log = [] ∧ responses log = [] ∧ submitted log = []

theorem Silent.append {log log' : Log} (h : Silent log) (h' : Silent log') :
    Silent (log ++ log') := by
  simp [Silent, h.1, h.2.1, h.2.2, h'.1, h'.2.1, h'.2.2]

theorem silent_nil : Silent [] := ⟨rfl, rfl, rfl⟩

/-! ## The request to the model -/

/-- The prompt, the question, the schema and the token limit are such that a request to the model
can be built. -/
structure Admissible (request : ResearchRequest) (policy : ToolPolicy) : Prop where
  prompt : LLMMessage.Valid ⟨.system, researchSystemPrompt policy⟩
  question : LLMMessage.Valid ⟨.user, request.question⟩
  tokens : 1 ≤ request.budget.maxOutputTokens ∧ request.budget.maxOutputTokens ≤ 1000000
  schema : (researchTurnSchema request policy).size ≤ 65536

section

variable [Hashing] {request : ResearchRequest} {policy : ToolPolicy}
  {blocks : List UntrustedContentBlock} {iteration : ℕ}

theorem structuredRequest_ne_failure {e : Failure} :
    structuredRequest request blocks policy iteration ≠ .failure e := by
  simp [structuredRequest, Attempt.bind_eq_failure]

theorem structuredRequest_returns (hblocks : blocks.length ≤ MAX_CONTEXT_BLOCKS) :
    (structuredRequest request blocks policy iteration).Returns ↔ Admissible request policy := by
  have hconstruct {α : Type} {model : String} {valid : α → Prop} [DecidablePred valid] {value : α} :
      (construct model valid value).Returns ↔ valid value := by
    unfold construct
    split <;> simp_all
  simp only [structuredRequest, Attempt.returns_bind, hconstruct, construct_eq_success]
  constructor
  · intro h
    obtain ⟨hprompt, h⟩ := h
    obtain ⟨hquestion, h⟩ := h _ ⟨hprompt, rfl⟩
    have hvalid := h _ ⟨hquestion, rfl⟩
    exact ⟨hprompt, hquestion, hvalid.2.2.1, hvalid.2.2.2⟩
  · intro h
    refine ⟨h.prompt, fun system hsystem => ⟨h.question, fun user huser => ?_⟩⟩
    exact ⟨by simp, hblocks, h.tokens, h.schema⟩

theorem Admissible.succeeds (h : Admissible request policy)
    (hblocks : blocks.length ≤ MAX_CONTEXT_BLOCKS) :
    (structuredRequest request blocks policy iteration).Succeeds :=
  ((structuredRequest_returns hblocks).mpr h).succeeds fun _ => structuredRequest_ne_failure

end

namespace Dialogue

theorem keyword_sizes :
    quotedSize "type" = 6 ∧ quotedSize "array" = 7 ∧ quotedSize "items" = 7 ∧
    quotedSize "string" = 8 ∧ quotedSize "maxItems" = 10 ∧ quotedSize "object" = 8 ∧
    quotedSize "additionalProperties" = 22 ∧ quotedSize "required" = 10 ∧
    quotedSize "properties" = 12 ∧ quotedSize "enum" = 6 ∧ quotedSize "text" = 6 ∧
    quotedSize "evidence_ids" = 14 ∧ quotedSize "minLength" = 11 ∧ quotedSize "maxLength" = 11 ∧
    quotedSize "uniqueItems" = 13 ∧ quotedSize "integer" = 9 ∧ quotedSize "minimum" = 9 ∧
    quotedSize "maximum" = 9 ∧ quotedSize "minItems" = 10 ∧ quotedSize "tool_name" = 11 ∧
    quotedSize "arguments" = 11 ∧ quotedSize "instrument_ids" = 16 ∧ quotedSize "timeout_ms" = 12 ∧
    quotedSize "output_limit_bytes" = 20 ∧ quotedSize "const" = 7 ∧ quotedSize "action" = 8 ∧
    quotedSize "tool_calls" = 12 ∧ quotedSize "claims" = 8 ∧ quotedSize "confidence" = 12 ∧
    quotedSize "counterarguments" = 18 ∧ quotedSize "risks" = 7 ∧ quotedSize "warnings" = 10 ∧
    quotedSize "tools" = 7 ∧ quotedSize "final" = 7 ∧ quotedSize "anyOf" = 7 ∧
    quotedSize "pattern" = 9 ∧ quotedSize "null" = 6 ∧ quotedSize "news" = 6 ∧ quotedSize "A" = 3 ∧
    quotedSize "^(0(\\.[0-9]+)?|1(\\.0+)?)$" = 29 := by
  refine ⟨?_, ?_, ?_, ?_, ?_, ?_, ?_, ?_, ?_, ?_, ?_, ?_, ?_, ?_, ?_, ?_, ?_, ?_, ?_, ?_,
    ?_, ?_, ?_, ?_, ?_, ?_, ?_, ?_, ?_, ?_, ?_, ?_, ?_, ?_, ?_, ?_, ?_, ?_, ?_, ?_⟩ <;>
    exact quotedSize_ofList _ (by decide)

theorem admissible : Admissible Dialogue.request policy where
  prompt := by
    obtain ⟨hlower, hupper⟩ := researchSystemPrompt_length policy
    have hlines : (toolLines policy).length = 8 := by decide +kernel
    rw [hlines] at hupper
    exact ⟨hlower, hupper.trans (by norm_num)⟩
  question := by decide +kernel
  tokens := by decide
  schema := by
    have hid : quotedSize (uuidText 7) = 38 := quotedSize_ofList _ (by decide +kernel)
    simp [researchTurnSchema, closedSchema, enumSchema, toolCallSchema, claimSchema,
      stringArraySchema, evidenceSchema, toolArgumentsSchema, Dialogue.request, policy,
      rule, Schema.size, itemSizes, entrySizes, bracketedSize, keyword_sizes, Chain.sorted, hid]
    decide +kernel

end Dialogue

/-! ## Clocks and the model -/

theorem checkDeadline_keeps (request : ResearchRequest) :
    Maintains (checkDeadline request) (fun log => Silent log ∧ settled log = [] ∧ loaded log = [])
      fun _ _ => True :=
  maintains_request.mpr fun _ => ⟨⟨⟨rfl, rfl, rfl⟩, rfl, rfl⟩, fun _ _ => trivial⟩

/-- A response that the loop goes on with: it answers its request and is a valid turn. -/
def Accepts [TurnParsing] (llmRequest : StructuredLLMRequest) (response : StructuredLLMResponse)
    (turn : ResearchTurn) : Prop :=
  response.requestId = llmRequest.requestId ∧ parseTurn response.parsedOutput = .success turn

theorem acceptResponse_eq_success [TurnParsing] {llmRequest : StructuredLLMRequest}
    {response : StructuredLLMResponse} {result : StructuredLLMResponse × ResearchTurn} :
    acceptResponse llmRequest response = .success result ↔
      result.1 = response ∧ Accepts llmRequest response result.2 := by
  obtain ⟨response', turn⟩ := result
  unfold acceptResponse invalidModelOutput failure Accepts
  split
  · rename_i hid
    simp [hid]
  · rename_i hid
    simp only [Attempt.bind_eq_success, Attempt.pure_eq, Attempt.success.injEq, Prod.mk.injEq]
    constructor
    · intro h
      obtain ⟨turn', hturn, rfl, rfl⟩ := h
      exact ⟨rfl, not_not.mp hid, hturn⟩
    · intro h
      obtain ⟨rfl, -, hturn⟩ := h
      exact ⟨turn, hturn, rfl, rfl⟩

theorem parseTurn_eq_success [TurnParsing] {output : Payload} {turn : ResearchTurn} :
    parseTurn output = .success turn ↔ TurnParsing.parse output = some turn ∧ turn.Valid := by
  unfold parseTurn invalidModelOutput failure
  split
  · rename_i hnone
    simp [hnone]
  · rename_i turn' hsome
    rw [hsome, Option.some.injEq]
    split
    · rename_i hvalid
      rw [Attempt.success.injEq]
      constructor
      · intro h
        exact ⟨h, h ▸ hvalid⟩
      · intro h
        exact h.1
    · rename_i hvalid
      constructor
      · intro h
        cases h
      · intro h
        exact absurd h.2 (h.1 ▸ hvalid)

/-- A turn puts one request to the model at most, and succeeds only with an accepted response. -/
theorem completeTurn_keeps [Hashing] [TurnParsing] (request : ResearchRequest)
    (blocks : List UntrustedContentBlock) (policy : ToolPolicy) (iteration : ℕ) :
    Maintains (completeTurn request blocks policy iteration)
      (fun log => submitted log = [] ∧ (asked log = [] ∨ ∃ llmRequest,
        structuredRequest request blocks policy iteration = .success llmRequest ∧
          asked log = [llmRequest]))
      fun log result => settled log = [] ∧ loaded log = [] ∧ responses log = [result.1] ∧
        ∃ llmRequest, structuredRequest request blocks policy iteration = .success llmRequest ∧
          asked log = [llmRequest] ∧ Accepts llmRequest result.1 result.2 := by
  refine maintains_ofAttempt_bind ⟨rfl, .inl rfl⟩ fun llmRequest hrequest => ?_
  have hcomplete : Maintains (complete llmRequest)
      (fun log => submitted log = [] ∧ settled log = [] ∧ loaded log = [] ∧
        asked log = [llmRequest])
      fun log response => responses log = [response] := by
    refine maintains_request.mpr fun (answer : ResearchAttempt StructuredLLMResponse) =>
      ⟨⟨rfl, rfl, rfl, rfl⟩, fun response h => ?_⟩
    cases answer with
    | success _ =>
        cases h
        rfl
    | failure _ => cases h
    | raised _ => cases h
  refine hcomplete.bind (fun log h => ⟨h.1, .inr ⟨llmRequest, hrequest, h.2.2.2⟩⟩) ?_
  intro log response h hresponse
  refine maintains_ofAttempt.mpr ?_
  rw [List.append_nil]
  refine ⟨⟨h.1, .inr ⟨llmRequest, hrequest, h.2.2.2⟩⟩, fun result hresult => ?_⟩
  obtain ⟨hof, haccepts⟩ := acceptResponse_eq_success.mp hresult
  rw [hof]
  exact ⟨h.2.1, h.2.2.1, hresponse, llmRequest, hrequest, h.2.2.2, haccepts⟩

/-! ## The authorization of a batch -/

/-- A call within the request and the policy. -/
structure Contained (request : ResearchRequest) (principal : ResearchPrincipal)
    (policy : ToolPolicy) (call : AuthorizedToolCall) : Prop where
  policy_of : policy.policyId = request.toolPolicyId
  permitted : Permitted policy principal call
  instruments : call.instrumentIds ⊆ request.instrumentIds
  evidence : call.evidenceIds ⊆ request.allowedEvidenceIds

section

variable [Hashing] [TurnParsing] [AuditRedaction] {request : ResearchRequest}
  {principal : ResearchPrincipal} {policy : ToolPolicy}

theorem authorizeDraft_eq_success {iteration index : ℕ} {draft : PlannedToolCall}
    {call : AuthorizedToolCall}
    (h : authorizeDraft request principal policy iteration index draft = .success call) :
    Permitted policy principal call ∧ call.instrumentIds ⊆ request.instrumentIds ∧
      call.evidenceIds ⊆ request.allowedEvidenceIds := by
  unfold authorizeDraft scopeDenied failure at h
  split at h
  · cases h
  · rename_i hinstruments
    split at h
    · cases h
    · rename_i hevidence
      obtain ⟨_, -, h⟩ := Attempt.bind_eq_success.mp h
      obtain ⟨toolCall, hcall, h⟩ := Attempt.bind_eq_success.mp h
      obtain ⟨-, rfl⟩ := construct_eq_success.mp hcall
      obtain ⟨hpermitted, -, hof, hof', -⟩ := authorizeToolCall_eq_success h
      rw [hof, hof']
      exact ⟨hpermitted, not_not.mp hinstruments, not_not.mp hevidence⟩

theorem authorizeDrafts_eq_success {iteration index : ℕ} {drafts : List PlannedToolCall}
    {calls : List AuthorizedToolCall}
    (h : authorizeDrafts request principal policy iteration index drafts = .success calls) :
    calls.length = drafts.length ∧ ∀ call ∈ calls, Permitted policy principal call ∧
      call.instrumentIds ⊆ request.instrumentIds ∧
      call.evidenceIds ⊆ request.allowedEvidenceIds := by
  induction drafts generalizing index calls with
  | nil =>
      cases h
      simp
  | cons draft drafts ih =>
      simp only [authorizeDrafts, Attempt.bind_eq_success, Attempt.pure_eq,
        Attempt.success.injEq] at h
      obtain ⟨call, hcall, rest, hrest, rfl⟩ := h
      obtain ⟨hlength, hall⟩ := ih hrest
      exact ⟨by simp [hlength],
        List.forall_mem_cons.mpr ⟨authorizeDraft_eq_success hcall, hall⟩⟩

theorem authorizeBatch_eq_success {turn : ResearchTurn} {iteration : ℕ}
    {calls : List AuthorizedToolCall}
    (h : authorizeBatch request principal policy turn iteration = .success calls) :
    calls.length = turn.toolCalls.length ∧
    ∀ call ∈ calls, Contained request principal policy call := by
  unfold authorizeBatch scopeDenied failure at h
  split at h
  · cases h
  · rename_i hpolicy
    obtain ⟨hlength, hall⟩ := authorizeDrafts_eq_success h
    refine ⟨hlength, fun call hcall => ?_⟩
    obtain ⟨hpermitted, hinstruments, hevidence⟩ := hall call hcall
    exact ⟨not_not.mp hpolicy, hpermitted, hinstruments, hevidence⟩

end

/-! ## The execution of a batch -/

/-- The calls are handed to the pool one after the other. -/
theorem submitAll_keeps (index : ℕ) (calls : List AuthorizedToolCall) :
    Maintains (submitAll index calls)
      (fun log => asked log = [] ∧ responses log = [] ∧ submitted log <+: calls)
      fun log futures => submitted log = calls ∧ futures.map (·.call) = calls ∧
        futures.map (·.index) = List.range' index calls.length := by
  induction calls generalizing index with
  | nil => exact maintains_pure.mpr ⟨⟨rfl, rfl, List.prefix_rfl⟩, rfl, rfl, rfl⟩
  | cons call calls ih =>
      have hstarted : Maintains (Program.request (.submit call) fun (started : Bool) =>
            if started then .success () else toolFailed : LoopCall Unit)
          (fun log => asked log = [] ∧ responses log = [] ∧ submitted log = [call])
          fun _ _ => True :=
        maintains_request.mpr fun _ => ⟨⟨rfl, rfl, rfl⟩, fun _ _ => trivial⟩
      refine hstarted.bind (fun log h => ⟨h.1, h.2.1, by simp [h.2.2]⟩) fun log _ h _ => ?_
      have hclock : Maintains (Program.request .monotonic fun (now : ℚ) =>
          .success now : LoopCall ℚ)
          Silent fun _ _ => True := maintains_request.mpr fun _ =>
            ⟨⟨rfl, rfl, rfl⟩, fun _ _ => trivial⟩
      refine hclock.bind (fun log' h' => ?_) fun log' now h' _ => ?_
      · simp [h.1, h.2.1, h.2.2, h'.1, h'.2.1, h'.2.2]
      · refine (ih (index + 1)).bind (fun log'' h'' => ?_) fun log'' futures h'' hfutures => ?_
        · simpa [h.1, h.2.1, h.2.2, h'.1, h'.2.1, h'.2.2] using h''
        · refine maintains_pure.mpr ?_
          obtain ⟨hsubmitted, hcalls, hindices⟩ := hfutures
          have hlog : submitted (log ++ (log' ++ (log'' ++ []))) = call :: calls := by
            simp [h.2.2, h'.2.2, hsubmitted]
          refine ⟨⟨by simp [h.1, h'.1, h''.1], by simp [h.2.1, h'.2.1, h''.2.1], ?_⟩, hlog,
            congrArg (call :: ·) hcalls, congrArg (index :: ·) hindices⟩
          exact ⟨[], (List.append_nil _).trans hlog⟩

/-- What the outcomes of a batch are recorded from: a settled future that completed in time. -/
def Recorded (log : Log) (futures : List Future) (index : ℕ)
    (outcome : ResearchAttempt ToolResult) : Prop :=
  ∃ c ∈ settled log, c.1 ∈ futures ∧ c.1.index = index ∧ c.2.1 = outcome ∧ c.2.2 ≤ c.1.deadline ∧
    outcome.Returns

theorem settleOne_eq_success {outcomes outcomes' : List (ℕ × ResearchAttempt ToolResult)}
    {c : Future × Completion} (h : settleOne outcomes c = .success outcomes') :
    outcomes' = outcomes ++ [(c.1.index, c.2.1)] ∧ c.2.2 ≤ c.1.deadline ∧ c.2.1.Returns := by
  obtain ⟨future, outcome, at_⟩ := c
  unfold settleOne toolFailed toolTimeout failure at h
  cases outcome with
  | raised e => cases h
  | success result =>
      simp only at h
      split at h
      · cases h
      · cases h
        exact ⟨rfl, not_lt.mp (by assumption), by simp⟩
  | failure e =>
      simp only at h
      split at h
      · cases h
      · cases h
        exact ⟨rfl, not_lt.mp (by assumption), by simp⟩

theorem settleOne_returns (outcomes : List (ℕ × ResearchAttempt ToolResult))
    (c : Future × Completion) : (settleOne outcomes c).Returns := by
  obtain ⟨future, outcome, at_⟩ := c
  unfold settleOne toolFailed toolTimeout failure
  cases outcome with
  | raised e => simp
  | success result =>
      simp only
      split <;> simp
  | failure e =>
      simp only
      split <;> simp

/-- The completed futures are recorded in the order in which they were handed over. -/
theorem foldlM_settleOne_eq_success {outcomes outcomes' : List (ℕ × ResearchAttempt ToolResult)}
    {completed : List (Future × Completion)}
    (h : completed.foldlM settleOne outcomes = .success outcomes') :
    outcomes' = outcomes ++ completed.map (fun c => (c.1.index, c.2.1)) ∧
      ∀ c ∈ completed, c.2.2 ≤ c.1.deadline ∧ c.2.1.Returns := by
  induction completed generalizing outcomes with
  | nil =>
      cases h
      simp
  | cons c completed ih =>
      rw [List.foldlM_cons] at h
      obtain ⟨outcomes₁, hfirst, h⟩ := Attempt.bind_eq_success.mp h
      obtain ⟨rfl, htime, hreturns⟩ := settleOne_eq_success hfirst
      obtain ⟨rfl, hall⟩ := ih h
      exact ⟨by simp, List.forall_mem_cons.mpr ⟨⟨htime, hreturns⟩, hall⟩⟩

theorem foldlM_settleOne_returns (outcomes : List (ℕ × ResearchAttempt ToolResult))
    (completed : List (Future × Completion)) :
    Attempt.Returns (completed.foldlM settleOne outcomes) := by
  induction completed generalizing outcomes with
  | nil => simp
  | cons c completed ih =>
      rw [List.foldlM_cons]
      exact Attempt.returns_bind.mpr ⟨settleOne_returns outcomes c, fun _ _ => ih _⟩

theorem gather_eq_success {count : ℕ} {outcomes : List (ℕ × ResearchAttempt ToolResult)}
    {gathered : List (ResearchAttempt ToolResult)} (h : gather count outcomes = .success gathered) :
    List.Forall₂ (fun index outcome => (index, outcome) ∈ outcomes) (List.range count)
    gathered := by
  refine (Attempt.mapM_eq_success.mp h).imp fun index outcome hround => ?_
  split at hround
  · rename_i hlookup
    cases hround
    obtain ⟨before, after, rfl, -⟩ := List.lookup_eq_some_iff.mp hlookup
    exact List.mem_append_right _ List.mem_cons_self
  · cases hround

/-- Every outcome that is recorded comes from a settled future. -/
def AllRecorded (log : Log) (futures : List Future)
    (outcomes : List (ℕ × ResearchAttempt ToolResult)) : Prop :=
  ∀ entry ∈ outcomes, Recorded log futures entry.1 entry.2

theorem Recorded.mono {log log' : Log} {futures : List Future} {index : ℕ}
    {outcome : ResearchAttempt ToolResult} (h : Recorded log futures index outcome)
    (hlog : settled log ⊆ settled log') : Recorded log' futures index outcome := by
  obtain ⟨c, hc, hrest⟩ := h
  exact ⟨c, hlog hc, hrest⟩

/-- A round of waiting records what it settles, and waits no longer for it. -/
theorem waitRound_keeps {futures : List Future} {first : Future} {rest : List Future}
    {outcomes : List (ℕ × ResearchAttempt ToolResult)} {before : Log}
    (hpending : first :: rest ⊆ futures) (hrecorded : AllRecorded before futures outcomes) :
    Maintains (waitRound first rest outcomes) Silent fun log next =>
      next.1 ⊆ futures ∧ AllRecorded (before ++ log) futures next.2 := by
  have hclock : Maintains (Program.request .monotonic fun (now : ℚ) => .success now : LoopCall ℚ)
      Silent fun log _ => settled log = [] :=
    maintains_request.mpr fun _ => ⟨⟨rfl, rfl, rfl⟩, fun _ _ => rfl⟩
  refine hclock.bind (fun _ h => h) fun log now hsilent hsettled => ?_
  refine maintains_request.mpr fun (answer : Settled (first :: rest)) =>
    ⟨hsilent.append ⟨rfl, rfl, rfl⟩, fun next h => ?_⟩
  unfold settleAll at h
  split at h
  · cases h
  · obtain ⟨recorded, hrecord, h⟩ := Attempt.bind_eq_success.mp h
    cases h
    obtain ⟨rfl, htimely⟩ := foldlM_settleOne_eq_success hrecord
    refine ⟨List.Subset.trans (List.filter_subset_self _) hpending, fun entry hentry => ?_⟩
    rcases List.mem_append.mp hentry with hentry | hentry
    · exact (hrecorded entry hentry).mono (by simp)
    · obtain ⟨c, hc, rfl⟩ := List.mem_map.mp hentry
      obtain ⟨htime, hreturns⟩ := htimely c hc
      have hanswer (timeout : ℚ) :
          settled ([⟨.wait (first :: rest) timeout, answer⟩] : Log) = answer.completed :=
        List.append_nil _
      refine ⟨c, ?_, hpending (answer.subset c hc), rfl, rfl, htime, hreturns⟩
      rw [settled_append, settled_append, hanswer]
      exact List.mem_append_right _ (List.mem_append_right _ hc)

/-- What is gathered is what the futures were found to hold, by index, in whatever order they
completed. -/
theorem collectToolOutcomes_keeps (futures : List Future) (count rounds : ℕ)
    (pending : List Future) (outcomes : List (ℕ × ResearchAttempt ToolResult)) (before : Log)
    (hpending : pending ⊆ futures) (hrecorded : AllRecorded before futures outcomes) :
    Maintains (collectToolOutcomes count rounds pending outcomes) Silent fun log gathered =>
      List.Forall₂ (Recorded (before ++ log) futures) (List.range count) gathered := by
  have hgather (outcomes : List (ℕ × ResearchAttempt ToolResult)) (before : Log)
      (hrecorded : AllRecorded before futures outcomes) :
      Maintains (ofAttempt (gather count outcomes) : LoopCall _) Silent fun log gathered =>
        List.Forall₂ (Recorded (before ++ log) futures) (List.range count) gathered := by
    refine maintains_ofAttempt.mpr ⟨silent_nil, fun gathered h => ?_⟩
    rw [List.append_nil]
    exact (gather_eq_success h).imp fun index outcome hmem => hrecorded _ hmem
  induction rounds generalizing pending outcomes before with
  | zero => cases pending <;> exact hgather outcomes before hrecorded
  | succ rounds ih =>
      cases pending with
      | nil => exact hgather outcomes before hrecorded
      | cons first rest =>
          refine (waitRound_keeps hpending hrecorded).bind (fun _ h => h) fun log next h hnext => ?_
          refine (ih next.1 next.2 (before ++ log) hnext.1 hnext.2).mono
            (fun log' h' => h.append h') fun log' gathered _ hgathered => ?_
          rwa [← List.append_assoc]

/-- The result of an authorized call: what a future of the call held, validated against it. -/
structure Executed (log : Log) (call : AuthorizedToolCall) (result : ToolResult) : Prop where
  returned : ∃ c ∈ settled log, c.1.call = call ∧ c.2.1 = .success result ∧ c.2.2 ≤ c.1.deadline
  identity : result.callId = call.callId
  hash : result.artifactRef = result.contentHash
  size : result.byteCount ≤ call.outputLimitBytes
  evidence : result.materializedEvidenceIds ⊆ call.evidenceIds

theorem Executed.mono {log log' : Log} {call : AuthorizedToolCall} {result : ToolResult}
    (h : Executed log call result) (hlog : settled log ⊆ settled log') :
    Executed log' call result := by
  obtain ⟨c, hc, hrest⟩ := h.returned
  exact ⟨⟨c, hlog hc, hrest⟩, h.identity, h.hash, h.size, h.evidence⟩

/-- Every outcome is validated against the call at its place. -/
theorem validateOutcomes_eq_success {calls : List AuthorizedToolCall}
    {outcomes : List (ResearchAttempt ToolResult)} {results : List ToolResult}
    (hlength : outcomes.length = calls.length)
    (h : validateOutcomes calls outcomes = .success results) :
    List.Forall₂ (fun call result => validateToolResult call result = .success result) calls
      results ∧ outcomes = results.map .success := by
  induction calls generalizing outcomes results with
  | nil =>
      obtain rfl := List.eq_nil_of_length_eq_zero hlength
      cases h
      exact ⟨.nil, rfl⟩
  | cons call calls ih =>
      cases outcomes with
      | nil => cases hlength
      | cons outcome outcomes =>
          simp only [validateOutcomes, Attempt.bind_eq_success, Attempt.pure_eq,
            Attempt.success.injEq] at h
          obtain ⟨result, rfl, validated, hvalidated, rest, hrest, rfl⟩ := h
          obtain ⟨rfl, -⟩ := validateToolResult_eq_success hvalidated
          obtain ⟨hall, rfl⟩ := ih (by simpa using hlength) hrest
          exact ⟨.cons hvalidated hall, rfl⟩

/-- A batch that succeeds was handed to the pool as a whole, and its results are those of its calls
at their places. Whatever happens, nothing else is handed to the pool. -/
theorem executeBatch_keeps (calls : List AuthorizedToolCall) :
    Maintains (executeBatch calls)
      (fun log => asked log = [] ∧ responses log = [] ∧ submitted log <+: calls)
      fun log results => submitted log = calls ∧ List.Forall₂ (Executed log) calls results := by
  refine (submitAll_keeps 0 calls).bind (fun _ h => h) fun log futures h hfutures => ?_
  obtain ⟨hsubmitted, hcalls, hindices⟩ := hfutures
  have hlength : futures.length = calls.length := by
    rw [← hcalls, List.length_map]
  have hkept {log' : Log} (hsilent : Silent log') : asked (log ++ log') = [] ∧
      responses (log ++ log') = [] ∧ submitted (log ++ log') = calls := by
    simp [h.1, h.2.1, hsubmitted, hsilent.1, hsilent.2.1, hsilent.2.2]
  have hinitial {log' : Log} (hsilent : Silent log') : asked (log ++ log') = [] ∧
      responses (log ++ log') = [] ∧ submitted (log ++ log') <+: calls := by
    obtain ⟨hasked, hresponses, hall⟩ := hkept hsilent
    exact ⟨hasked, hresponses, hall ▸ List.prefix_rfl⟩
  refine (collectToolOutcomes_keeps futures futures.length futures.length futures [] log
    (List.Subset.refl _) (by simp [AllRecorded])).bind (fun _ h => hinitial h) ?_
  intro log' gathered hsilent hall
  refine maintains_ofAttempt.mpr ?_
  rw [List.append_nil]
  refine ⟨hinitial hsilent, fun results h => ⟨(hkept hsilent).2.2, ?_⟩⟩
  have hcount : gathered.length = calls.length := by
    rw [← hall.length_eq, List.length_range, hlength]
  obtain ⟨hvalidated, rfl⟩ := validateOutcomes_eq_success hcount h
  -- the i-th outcome is that of a future with index i, which is the one of the i-th call
  rw [List.forall₂_iff_get] at hvalidated hall ⊢
  refine ⟨hvalidated.1, fun i hi hi' => ?_⟩
  obtain ⟨-, hid, href, hbytes, hscope⟩ := validateToolResult_eq_success (hvalidated.2 i hi hi')
  obtain ⟨c, hc, hmem, hindex, houtcome, htime, -⟩ := hall.2 i
    (by rw [List.length_range, hlength]; exact hi) (by rw [List.length_map]; exact hi')
  refine ⟨⟨c, hc, ?_, ?_, htime⟩, hid, href, hbytes, hscope⟩
  · obtain ⟨j, hj, hfuture⟩ := List.getElem_of_mem hmem
    have hplace : futures[j].index = j := by
      have hget := congrArg (fun indices => indices[j]?) hindices
      simpa [hj, hlength ▸ hj] using hget
    rw [List.get_eq_getElem, List.getElem_range, ← hfuture, hplace] at hindex
    subst hindex
    have hget := congrArg (fun calls => calls[j]?) hcalls
    have hat : futures[j].call = calls[j] := by simpa [hj, hi] using hget
    rw [← hfuture, hat, List.get_eq_getElem]
  · rw [houtcome]
    simp

/-! ## The context -/

/-- A block of the context holds what was read of the artifact of a call's result. -/
def BlockOf (log : Log) (entry : AuthorizedToolCall × ToolResult)
    (block : UntrustedContentBlock) : Prop :=
  block.sourceRef = entry.2.artifactRef ∧
    block.content.utf8ByteSize ≤ min entry.1.outputLimitBytes MAX_CONTEXT_BLOCK_BYTES ∧
    ∃ content, (entry.2.artifactRef, content) ∈ loaded log ∧ decodeUtf8 content = some block.content

theorem BlockOf.mono {log log' : Log} {entry : AuthorizedToolCall × ToolResult}
    {block : UntrustedContentBlock} (h : BlockOf log entry block)
    (hlog : loaded log ⊆ loaded log') :
    BlockOf log' entry block := by
  obtain ⟨href, hsize, content, hcontent, hdecoded⟩ := h
  exact ⟨href, hsize, content, hlog hcontent, hdecoded⟩

theorem loadUntrustedArtifact_keeps (entry : AuthorizedToolCall × ToolResult) :
    Maintains (loadUntrustedArtifact entry.2.artifactRef
      (min entry.1.outputLimitBytes MAX_CONTEXT_BLOCK_BYTES)) Silent
        fun log block => BlockOf log entry block := by
  refine maintains_request.mpr fun (answer : ResearchAttempt (List UInt8)) =>
    ⟨⟨rfl, rfl, rfl⟩, fun block h => ?_⟩
  obtain ⟨content, hread, h⟩ := Attempt.bind_eq_success.mp h
  obtain ⟨href, hdecoded, hsize, hbytes⟩ := untrustedBlock_eq_success h
  refine ⟨href, hbytes ▸ hsize, content, ?_, hdecoded⟩
  rw [hread]
  exact List.mem_singleton_self _

theorem loadAdditions_keeps (entries : List (AuthorizedToolCall × ToolResult)) :
    Maintains (loadAdditions entries) Silent
      fun log additions => List.Forall₂ (BlockOf log) entries additions := by
  induction entries with
  | nil => exact maintains_pure.mpr ⟨silent_nil, .nil⟩
  | cons entry entries ih =>
      refine (loadUntrustedArtifact_keeps entry).bind (fun _ h => h) fun log block h hblock => ?_
      refine ih.bind (fun _ h' => h.append h') fun log' additions h' hadditions => ?_
      refine maintains_pure.mpr ?_
      rw [List.append_nil]
      refine ⟨h.append h', .cons (hblock.mono (by simp)) ?_⟩
      exact hadditions.imp fun _ _ hof => hof.mono (by simp)

/-- The context is extended with a block for each result, within its limits. -/
theorem extendContext_keeps (blocks : List UntrustedContentBlock) (totalBytes : ℕ)
    (results : List ToolResult) (calls : List AuthorizedToolCall) :
    Maintains (extendContext blocks totalBytes results calls) Silent fun log extended =>
      ∃ additions, extended = (blocks ++ additions, totalBytes + bytesOf additions) ∧
        extended.1.length ≤ MAX_CONTEXT_BLOCKS ∧ extended.2 ≤ MAX_CONTEXT_TOTAL_BYTES ∧
        List.Forall₂ (BlockOf log) (calls.zip results) additions := by
  refine (loadAdditions_keeps (calls.zip results)).bind (fun _ h =>
    h) fun log additions h hall => ?_
  refine maintains_ofAttempt.mpr ?_
  rw [List.append_nil]
  refine ⟨h, fun extended heq => ?_⟩
  split at heq
  · cases heq
  · rename_i hbounded
    cases heq
    rw [not_or, not_lt, not_lt] at hbounded
    exact ⟨additions, rfl, by simpa using hbounded.1, hbounded.2, hall⟩

end StonksPaper.Research
