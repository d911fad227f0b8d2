import StonksPaper.Research.Contained

/-!
# When the tool loop raises

A port that raises is caught where the source catches it, but for the clock and the reader of
artifacts. What else can raise is the construction of the request to the model, which depends on the
request and the policy alone, and the authorization of a planned call that pydantic accepted as a
part of a turn but does not make JSON of or refuses as a `ToolCall`, or that has an integer too
large for a float.
-/

namespace StonksPaper.Research

open Program

/-! ## Planned calls -/

/-- An argument of a numeric kind is an integer that no float is near to. -/
def Overflows (specs : List ToolArgumentSpec) (entry : String × ArgumentValue) : Prop :=
  ∃ spec ∈ specs, spec.name = entry.1 ∧ spec.kind = .number ∧
    ∃ n : ℤ, entry.2 = .integer n ∧ floatLimit ≤ n.natAbs

/-- The planned call can be constructed and checked. -/
structure WellFormed [TurnParsing] (policy : ToolPolicy) (draft : PlannedToolCall) : Prop where
  encodes : TurnParsing.encodes draft = true
  name : isToolName draft.toolName = true
  arguments : draft.arguments.length ≤ 32
  floats : ∀ rule ∈ policy.tools, rule.name = draft.toolName →
    ∀ entry ∈ draft.arguments, ¬ Overflows rule.arguments entry

theorem matchesSpec_returns {specs : List ToolArgumentSpec} {spec : ToolArgumentSpec}
    {entry : String × ArgumentValue} (hspec : specOf specs entry.1 = some spec)
    (hfits : ¬ Overflows specs entry) : (matchesSpec spec entry.2).Returns := by
  intro e h
  have hname : spec.name = entry.1 := by simpa using List.find?_some hspec
  have hmem : spec ∈ specs := List.mem_reverse.mp (List.mem_of_find?_eq_some hspec)
  unfold matchesSpec at h
  split at h <;> try cases h
  rename_i n hkind hvalue
  split at h
  · rename_i hlimit
    exact hfits ⟨spec, hmem, hname, hkind, n, hvalue, hlimit⟩
  · cases h

theorem validateValues_returns {specs : List ToolArgumentSpec} {arguments : Arguments}
    (hfits : ∀ entry ∈ arguments, ¬ Overflows specs entry) :
    (validateValues specs arguments).Returns := by
  induction arguments with
  | nil => simp [validateValues]
  | cons entry rest ih =>
      obtain ⟨hentry, hrest⟩ := List.forall_mem_cons.mp hfits
      unfold validateValues
      cases hspec : specOf specs entry.1 with
      | none => simp
      | some spec =>
          refine Attempt.returns_bind.mpr ⟨matchesSpec_returns hspec hentry, fun matched _ => ?_⟩
          cases matched with
          | false => simp
          | true => simpa using ih hrest

theorem validateArguments_returns {specs : List ToolArgumentSpec} {arguments : Arguments}
    (hfits : ∀ entry ∈ arguments, ¬ Overflows specs entry) :
    (validateArguments specs arguments).Returns := by
  unfold validateArguments
  split
  · simp
  · split
    · simp
    · exact validateValues_returns hfits

section

variable [AuditRedaction] {request : ResearchRequest} {principal : ResearchPrincipal}
  {policy : ToolPolicy}

theorem authorizeToolCall_returns {call : ToolCall}
    (hfits : ∀ rule ∈ policy.tools, rule.name = call.toolName →
      ∀ entry ∈ call.arguments, ¬ Overflows rule.arguments entry) :
    (authorizeToolCall policy principal call).Returns := by
  have hpermit (c : Prop) [Decidable c] (reason : String) :
      (permitUnless call c reason).Returns := fun e h => permitUnless_ne_raised h
  have hdeny : (orDeny call "tool_not_allowlisted"
      (policy.tools.find? fun candidate => candidate.name = call.toolName)).Returns := by
    cases policy.tools.find? fun candidate => candidate.name = call.toolName with
    | none => exact Attempt.returns_failure _
    | some rule => exact Attempt.returns_success _
  simp only [authorizeToolCall, Attempt.returns_bind, hpermit, hdeny, true_and]
  intro _ _ rule hrule _ _ _ _ _ _ _ _ _ _ _ _ _ _
  have hfound := orDeny_eq_success.mp hrule
  refine ⟨validateArguments_returns (hfits rule (List.mem_of_find?_eq_some hfound)
    (by simpa using List.find?_some hfound)), fun argumentError _ => ?_⟩
  cases argumentError with
  | none => exact Attempt.returns_success _
  | some reason => exact Attempt.returns_failure _

variable [Hashing] [TurnParsing]

theorem authorizeDrafts_returns {iteration index : ℕ} {drafts : List PlannedToolCall}
    (hdrafts : ∀ draft ∈ drafts, WellFormed policy draft ∧
      (1 ≤ draft.timeoutMs ∧ draft.timeoutMs ≤ 120000) ∧
      1 ≤ draft.outputLimitBytes ∧ draft.outputLimitBytes ≤ 16777216) :
    (authorizeDrafts request principal policy iteration index drafts).Returns := by
  induction drafts generalizing index with
  | nil => simp [authorizeDrafts]
  | cons draft drafts ih =>
      obtain ⟨⟨hformed, hbounds⟩, hrest⟩ := List.forall_mem_cons.mp hdrafts
      refine Attempt.returns_bind.mpr ⟨?_, fun call _ => Attempt.returns_bind.mpr
        ⟨ih hrest, fun _ _ => Attempt.returns_success _⟩⟩
      unfold authorizeDraft
      split
      · exact Attempt.returns_failure _
      · split
        · exact Attempt.returns_failure _
        · have hvalid : (draft.toolCall request iteration index).Valid :=
            ⟨hformed.name, hformed.arguments, hbounds⟩
          rw [Attempt.require_of hformed.encodes, construct_of hvalid]
          exact authorizeToolCall_returns hformed.floats

theorem authorizeBatch_returns {turn : ResearchTurn} {iteration : ℕ} (hturn : turn.Valid)
    (hformed : ∀ draft ∈ turn.toolCalls, WellFormed policy draft) :
    (authorizeBatch request principal policy turn iteration).Returns := by
  unfold authorizeBatch
  split
  · exact Attempt.returns_failure _
  · exact authorizeDrafts_returns fun draft hdraft => ⟨hformed draft hdraft, hturn.1 draft hdraft⟩

end

/-! ## The collection of outcomes -/

/-- Every index of the batch is pending or has its outcome. -/
def Covered (count : ℕ) (pending : List Future)
    (outcomes : List (ℕ × ResearchAttempt ToolResult)) : Prop :=
  ∀ index < count, index ∈ pending.map (·.index) ∨ index ∈ outcomes.map (·.1)

theorem gather_returns {count : ℕ} {outcomes : List (ℕ × ResearchAttempt ToolResult)}
    (h : Covered count [] outcomes) : (gather count outcomes).Returns := by
  refine Attempt.returns_mapM fun index hindex => ?_
  have hkey : index ∈ outcomes.map (·.1) := by
    simpa using h index (List.mem_range.mp hindex)
  obtain ⟨entry, hentry, rfl⟩ := List.mem_map.mp hkey
  have hlookup : (outcomes.lookup entry.1).isSome = true :=
    List.lookup_isSome_iff.mpr ⟨entry, hentry, by simp⟩
  obtain ⟨outcome, houtcome⟩ := Option.isSome_iff_exists.mp hlookup
  rw [houtcome]
  exact Attempt.returns_success _

/-- A round of waiting raises nothing; it settles a future, and its index has its outcome. -/
theorem waitRound_returns {count : ℕ} {first : Future} {rest : List Future}
    {outcomes : List (ℕ × ResearchAttempt ToolResult)}
    (hcovered : Covered count (first :: rest) outcomes) :
    Ensures (waitRound first rest outcomes) fun _ end_ => end_.Returns ∧
      ∀ next, end_ = .success next → next.1.length < (first :: rest).length ∧
        Covered count next.1 next.2 := by
  refine ensures_bind.mpr (ensures_request.mpr fun now => ?_)
  refine ensures_request.mpr fun (answer : Settled (first :: rest)) => ⟨?_, fun next h => ?_⟩
  · unfold settleAll
    split
    · exact Attempt.returns_failure _
    · exact Attempt.returns_bind.mpr ⟨foldlM_settleOne_returns _ _, fun _ _ =>
        Attempt.returns_success _⟩
  · unfold settleAll at h
    split at h
    · cases h
    · rename_i hcompleted
      obtain ⟨recorded, hrecord, h⟩ := Attempt.bind_eq_success.mp h
      cases h
      obtain ⟨rfl, -⟩ := foldlM_settleOne_eq_success hrecord
      constructor
      · obtain ⟨c, hc⟩ := List.exists_mem_of_ne_nil _ hcompleted
        refine List.length_filter_lt_length_iff_exists.mpr ⟨c.1, answer.subset c hc, ?_⟩
        rw [decide_eq_true_eq, not_not]
        exact List.mem_map_of_mem hc
      · intro index hindex
        rw [List.map_append, List.map_map, List.mem_append]
        rcases hcovered index hindex with hpending | hrecorded
        · obtain ⟨f, hf, rfl⟩ := List.mem_map.mp hpending
          by_cases hsettled : f.index ∈ answer.completed.map fun c => c.1.index
          · exact .inr (.inr hsettled)
          · exact .inl (List.mem_map.mpr ⟨f, List.mem_filter.mpr ⟨hf, decide_eq_true hsettled⟩,
              rfl⟩)
        · exact .inr (.inl hrecorded)

/-- There are enough rounds for all futures. -/
theorem collectToolOutcomes_returns {count rounds : ℕ} {pending : List Future}
    {outcomes : List (ℕ × ResearchAttempt ToolResult)} (hrounds : pending.length ≤ rounds)
    (hcovered : Covered count pending outcomes) :
    Ensures (collectToolOutcomes count rounds pending outcomes) fun _ end_ => end_.Returns := by
  induction rounds generalizing pending outcomes with
  | zero =>
      obtain rfl := List.eq_nil_of_length_eq_zero (Nat.le_zero.mp hrounds)
      exact ensures_ofAttempt.mpr (gather_returns hcovered)
  | succ rounds ih =>
      cases pending with
      | nil => exact ensures_ofAttempt.mpr (gather_returns hcovered)
      | cons first rest =>
          refine (waitRound_returns hcovered).bind ?_ ?_ ?_
          · intro log next h
            obtain ⟨hlength, hnext⟩ := h.2 next rfl
            exact (ih (by simp only [List.length_cons] at hlength hrounds; omega) hnext).mono
              fun _ _ h => h
          · intro log e h
            exact Attempt.returns_failure _
          · intro log e h
            exact absurd h.1 (Attempt.not_returns_raised e)

/-! ## Exchanges that make the loop raise nothing -/

/-- The clock and the reader of artifacts did not raise, and the calls that a turn plans are well
formed. -/
def Benign [TurnParsing] (policy : ToolPolicy) : Sigma LoopAnswer → Prop
  | ⟨.now, answer⟩ => ∃ reading, (show Reading from answer) = .ok reading
  | ⟨.read _, answer⟩ => Attempt.Returns (show ResearchAttempt (List UInt8) from answer)
  | ⟨.complete _, answer⟩ => ∀ response turn,
      (show ResearchAttempt StructuredLLMResponse from answer) = .success response →
        parseTurn response.parsedOutput = .success turn →
        ∀ draft ∈ turn.toolCalls, WellFormed policy draft
  | _ => True

section

variable [TurnParsing] {policy : ToolPolicy}

theorem formed_of_benign {log : Log} {response : StructuredLLMResponse} {turn : ResearchTurn}
    (hbenign : ∀ e ∈ log, Benign policy e) (hresponse : response ∈ responses log)
    (hparsed : parseTurn response.parsedOutput = .success turn) :
    ∀ draft ∈ turn.toolCalls, WellFormed policy draft := by
  obtain ⟨⟨r, answer⟩, hmem, hof⟩ := List.mem_filterMap.mp hresponse
  have hexchange := hbenign _ hmem
  cases r with
  | complete request =>
      exact hexchange response turn (Attempt.toOption_eq_some.mp hof) hparsed
  | _ => cases hof

theorem checkDeadline_calm (request : ResearchRequest) :
    Calm (Benign policy) (checkDeadline request) := by
  refine calm_request fun (answer : Reading) hbenign => ?_
  obtain ⟨reading, rfl⟩ : ∃ reading, answer = .ok reading := hbenign
  cases reading with
  | none => exact Attempt.returns_failure _
  | some now =>
      change Attempt.Returns (if request.deadlineAt < now then _ else _)
      split
      · exact Attempt.returns_failure _
      · exact Attempt.returns_success _

theorem submitAll_calm (index : ℕ) (calls : List AuthorizedToolCall) :
    Calm (Benign policy) (submitAll index calls) := by
  induction calls generalizing index with
  | nil => exact calm_pure _
  | cons call calls ih =>
      refine (calm_request fun (started : Bool) _ => ?_).andThen fun _ =>
        (calm_request fun (now : ℚ) _ => Attempt.returns_success now).andThen fun _ =>
          (ih (index + 1)).andThen fun _ => calm_pure _
      cases started with
      | false => exact Attempt.returns_failure _
      | true => exact Attempt.returns_success _

omit [TurnParsing] in
theorem validateOutcomes_returns {calls : List AuthorizedToolCall}
    {outcomes : List (ResearchAttempt ToolResult)}
    (h : ∀ outcome ∈ outcomes, outcome.Returns) : (validateOutcomes calls outcomes).Returns := by
  induction calls generalizing outcomes with
  | nil => simp [validateOutcomes]
  | cons call calls ih =>
      cases outcomes with
      | nil => simp [validateOutcomes]
      | cons outcome outcomes =>
          obtain ⟨houtcome, hrest⟩ := List.forall_mem_cons.mp h
          refine Attempt.returns_bind.mpr ⟨houtcome, fun result _ => ?_⟩
          refine Attempt.returns_bind.mpr ⟨validateToolResult_returns call result, fun _ _ => ?_⟩
          exact Attempt.returns_bind.mpr ⟨ih hrest, fun _ _ => Attempt.returns_success _⟩

theorem executeBatch_calm (calls : List AuthorizedToolCall) :
    Calm (Benign policy) (executeBatch calls) := by
  refine (submitAll_calm 0 calls).bind
    (Ensures.mono (submitAll_keeps 0 calls) fun _ _ h => h.2) fun log futures _ hfutures => ?_
  obtain ⟨-, hcalls, hindices⟩ := hfutures
  have hlength : futures.length = calls.length := by
    rw [← hcalls, List.length_map]
  have hcovered : Covered futures.length futures [] := by
    intro index hindex
    left
    rw [hindices, ← hlength]
    simpa using hindex
  have hcollect : Calm (Benign policy)
      (collectToolOutcomes futures.length futures.length futures []) :=
    (collectToolOutcomes_returns le_rfl hcovered).mono fun _ _ h _ => h
  refine hcollect.bind (Ensures.mono (collectToolOutcomes_keeps futures futures.length
    futures.length futures [] [] (List.Subset.refl _) (by simp [AllRecorded]))
    fun _ _ h => h.2) fun log' gathered _ hall => ?_
  refine calm_ofAttempt (validateOutcomes_returns fun outcome houtcome => ?_)
  obtain ⟨i, hi, rfl⟩ := List.getElem_of_mem houtcome
  obtain ⟨-, -, -, -, -, -, hreturns⟩ := hall.get (hall.length_eq ▸ hi) hi
  exact hreturns

theorem loadAdditions_calm (entries : List (AuthorizedToolCall × ToolResult)) :
    Calm (Benign policy) (loadAdditions entries) := by
  induction entries with
  | nil => exact calm_pure _
  | cons entry entries ih =>
      have hload : Calm (Benign policy) (loadUntrustedArtifact entry.2.artifactRef
          (min entry.1.outputLimitBytes MAX_CONTEXT_BLOCK_BYTES)) :=
        calm_request fun (answer : ResearchAttempt (List UInt8)) hread =>
          Attempt.returns_bind.mpr ⟨hread, fun content _ =>
            untrustedBlock_returns _ (Nat.min_le_right _ _) content⟩
      exact hload.andThen fun _ => ih.andThen fun _ => calm_pure _

theorem extendContext_calm (blocks : List UntrustedContentBlock) (totalBytes : ℕ)
    (results : List ToolResult) (calls : List AuthorizedToolCall) :
    Calm (Benign policy) (extendContext blocks totalBytes results calls) := by
  refine (loadAdditions_calm (calls.zip results)).andThen fun additions => calm_ofAttempt ?_
  split
  · exact Attempt.returns_failure _
  · exact Attempt.returns_success _

/-! ## Rounds and runs -/

/-- A state from which an iteration raises nothing. -/
structure Sound (state : LoopState) : Prop where
  blocks : state.blocks.length ≤ MAX_CONTEXT_BLOCKS
  costUsd : 0 ≤ state.usage.costUsd

omit [TurnParsing] in
theorem plus_costUsd_nonneg {u v : UsageConsumption} (hu : 0 ≤ u.costUsd) (hv : 0 ≤ v.costUsd) :
    0 ≤ (u.plus v).costUsd := significant_round_nonneg (by omega) (add_nonneg hu hv)

variable [Hashing] [AuditRedaction] {request : ResearchRequest} {principal : ResearchPrincipal}

theorem runTools_calm {state : LoopState} {turn : ResearchTurn} {iteration : ℕ}
    (hbudget : request.budget.Valid) (hstate : Sound state) (hturn : turn.Valid)
    (hformed : ∀ draft ∈ turn.toolCalls, WellFormed policy draft) :
    Calm (Benign policy) (runTools request state turn principal policy iteration) := by
  refine calm_ofAttempt_bind (authorizeBatch_returns hturn hformed) fun calls _ => ?_
  refine calm_ofAttempt_bind (consumeUsage_returns hbudget hstate.costUsd le_rfl) ?_
  intro reserved hreserved
  obtain ⟨rfl, -, -⟩ := consumeUsage_eq_success.mp hreserved
  have hcost := plus_costUsd_nonneg (v := { toolCalls := calls.length }) hstate.costUsd le_rfl
  refine (executeBatch_calm calls).andThen fun results => ?_
  refine calm_ofAttempt_bind (consumeUsage_returns hbudget hcost le_rfl) fun usage _ => ?_
  exact (extendContext_calm state.blocks state.totalBytes results calls).andThen fun _ =>
    (checkDeadline_calm request).andThen fun _ => calm_pure _

omit [AuditRedaction] in
theorem completeTurn_calm {blocks : List UntrustedContentBlock} {iteration : ℕ}
    (hadmissible : Admissible request policy) (hblocks : blocks.length ≤ MAX_CONTEXT_BLOCKS) :
    Calm (Benign policy) (completeTurn request blocks policy iteration) := by
  refine calm_ofAttempt_bind ((structuredRequest_returns hblocks).mpr hadmissible) ?_
  intro llmRequest _
  have hcomplete : Calm (Benign policy) (complete llmRequest) := by
    refine calm_request fun (answer : ResearchAttempt StructuredLLMResponse) _ => ?_
    cases answer with
    | success response => exact Attempt.returns_success _
    | failure e => exact Attempt.returns_failure _
    | raised e => exact Attempt.returns_failure _
  refine hcomplete.andThen fun response => calm_ofAttempt ?_
  unfold acceptResponse parseTurn
  split
  · exact Attempt.returns_failure _
  · refine Attempt.returns_bind.mpr ⟨?_, fun turn _ => Attempt.returns_success _⟩
    split
    · exact Attempt.returns_failure _
    · split
      · exact Attempt.returns_success _
      · exact Attempt.returns_failure _

omit [TurnParsing] [Hashing] [AuditRedaction] in
theorem consumeModelUsage_returns {current : UsageConsumption} {response : StructuredLLMResponse}
    (hbudget : request.budget.Valid) (hcurrent : 0 ≤ current.costUsd) :
    (consumeModelUsage request current response.usage).Returns := by
  obtain ⟨-, -, hinput, houtput, hcost, helapsed⟩ := response.usage_valid
  have hvalid : (modelUsage response.usage).Valid :=
    ⟨Nat.one_le_ofNat, Nat.zero_le _, hinput, houtput, hcost, helapsed⟩
  unfold consumeModelUsage
  rw [construct_of hvalid]
  exact consumeUsage_returns hbudget hcurrent hcost

theorem runIteration_calm {state : LoopState} {iteration : ℕ} (hbudget : request.budget.Valid)
    (hadmissible : Admissible request policy) (hstate : Sound state) :
    Calm (Benign policy) (runIteration request principal policy state iteration) := by
  refine (checkDeadline_calm request).andThen fun _ => ?_
  refine (completeTurn_calm hadmissible hstate.blocks).bind
    (Ensures.mono (completeTurn_keeps request state.blocks policy iteration) fun _ _ h => h.2)
    fun log completed hbenign hcompleted => ?_
  obtain ⟨-, -, hresponse, llmRequest, -, -, -, hparsed⟩ := hcompleted
  obtain ⟨response, turn⟩ := completed
  have hformed := formed_of_benign hbenign (hresponse ▸ List.mem_singleton_self _) hparsed
  refine (checkDeadline_calm request).andThen fun _ => ?_
  refine calm_ofAttempt_bind (consumeModelUsage_returns hbudget hstate.costUsd) ?_
  intro usage husage
  obtain ⟨rfl, -⟩ := consumeModelUsage_eq_success husage
  have hcost := plus_costUsd_nonneg (v := modelUsage response.usage) hstate.costUsd
    response.usage_valid.2.2.2.2.1
  cases haction : turn.action with
  | final =>
      refine (calm_ofAttempt ?_).andThen fun _ => calm_pure _
      unfold validateFinalEvidence
      split
      · exact Attempt.returns_success _
      · exact Attempt.returns_failure _
  | tools =>
      have htaken : Sound (state.withModelUsage response.model
          (state.usage.plus (modelUsage response.usage))) := ⟨hstate.blocks, hcost⟩
      exact (runTools_calm hbudget htaken (parseTurn_eq_success.mp hparsed).2 hformed).andThen
        fun _ => calm_pure _

theorem sound_continued {state state' : LoopState} {iteration : ℕ} {log : Log}
    (h : IterationDone request principal policy state iteration log (.continued state'))
    (hstate : Sound state) : Sound state' := by
  cases h with
  | continued hturn hfits hround =>
      obtain ⟨elapsedMs, husage⟩ := hround.usage
      refine ⟨hround.blocks_le, ?_⟩
      rw [husage, hturn.state_of]
      exact plus_costUsd_nonneg (plus_costUsd_nonneg (plus_costUsd_nonneg hstate.costUsd
        (StructuredLLMResponse.usage_valid _).2.2.2.2.1) le_rfl) le_rfl

theorem runIterations_calm (rounds iteration : ℕ) {state : LoopState}
    (hbudget : request.budget.Valid) (hadmissible : Admissible request policy)
    (hstate : Sound state) :
    Calm (Benign policy) (runIterations request principal policy rounds iteration state) := by
  induction rounds generalizing iteration state with
  | zero => exact calm_ofAttempt (Attempt.returns_failure _)
  | succ rounds ih =>
      refine (runIteration_calm hbudget hadmissible hstate).bind
        (Ensures.mono (runIteration_keeps state iteration) fun _ _ h => h.2)
        fun log step _ hdone => ?_
      cases step with
      | finished result => exact calm_pure _
      | continued state' => exact ih (iteration + 1) (sound_continued hdone hstate)

/-! ## Requests that cannot be built -/

/-- A run that starts with a reading of the clock and raises if the reading is in time. -/
def RaisesInTime {α : Type} (request : ResearchRequest) (log : Log) (end_ : ResearchAttempt α) :
    Prop :=
  ∃ (reading : Reading) (rest : Log), log = ⟨.now, reading⟩ :: rest ∧
    ∀ now, reading = .ok (some now) → now ≤ request.deadlineAt → ¬ end_.Returns

omit [TurnParsing] [Hashing] [AuditRedaction] in
theorem raisesInTime_bind {α β : Type} {x : LoopCall α} {f : α → LoopCall β}
    (h : Ensures x (RaisesInTime request)) : Ensures (x >>= f) (RaisesInTime request) := by
  refine h.bind ?_ ?_ ?_
  · intro log a hraises rest end_ _
    obtain ⟨reading, tail, rfl, hreading⟩ := hraises
    exact ⟨reading, tail ++ rest, rfl, fun now hnow htime =>
      absurd (Attempt.returns_success a) (hreading now hnow htime)⟩
  · intro log e hraises
    obtain ⟨reading, tail, rfl, hreading⟩ := hraises
    exact ⟨reading, tail, rfl, fun now hnow htime =>
      absurd (Attempt.returns_failure e) (hreading now hnow htime)⟩
  · intro log e hraises
    obtain ⟨reading, tail, rfl, -⟩ := hraises
    exact ⟨reading, tail, rfl, fun _ _ _ => Attempt.not_returns_raised e⟩

omit [AuditRedaction] in
theorem completeTurn_raises {blocks : List UntrustedContentBlock} {iteration : ℕ}
    (hadmissible : ¬ Admissible request policy) (hblocks : blocks.length ≤ MAX_CONTEXT_BLOCKS) :
    Ensures (completeTurn request blocks policy iteration) fun _ end_ => ¬ end_.Returns := by
  have hraises : ¬ (structuredRequest request blocks policy iteration).Returns :=
    mt (structuredRequest_returns hblocks).mp hadmissible
  refine ensures_ofAttempt_bind.mpr ?_
  cases hrequest : structuredRequest request blocks policy iteration with
  | success r => exact absurd (hrequest ▸ Attempt.returns_success r) hraises
  | failure e => exact absurd hrequest structuredRequest_ne_failure
  | raised e => exact Attempt.not_returns_raised e

/-- A request that cannot be built raises in an iteration that is begun in time. -/
theorem runIteration_raises {state : LoopState} {iteration : ℕ}
    (hadmissible : ¬ Admissible request policy) (hstate : Sound state) :
    Ensures (runIteration request principal policy state iteration) (RaisesInTime request) := by
  refine ensures_bind.mpr (ensures_request.mpr fun (reading : Reading) => ?_)
  match reading with
  | .error e => exact ⟨.error e, [], rfl, fun now hnow => by cases hnow⟩
  | .ok none => exact ⟨.ok none, [], rfl, fun now hnow => by cases hnow⟩
  | .ok (some now) =>
      by_cases htime : request.deadlineAt < now
      · simp only [htime, if_true]
        refine ⟨.ok (some now), [], rfl, fun now' hnow hin => ?_⟩
        cases hnow
        exact absurd htime (not_lt.mpr hin)
      · simp only [htime, if_false]
        refine (completeTurn_raises hadmissible hstate.blocks).bind ?_ ?_ ?_
        · intro log a hraises
          exact absurd (Attempt.returns_success a) hraises
        · intro log e hraises
          exact absurd (Attempt.returns_failure e) hraises
        · intro log e _
          exact ⟨.ok (some now), log, rfl, fun _ _ _ => Attempt.not_returns_raised e⟩

theorem runToolLoop_raises (context : ResearchContext)
    (hrounds : 1 ≤ request.budget.maxIterations) (hadmissible : ¬ Admissible request policy) :
    Ensures (runToolLoop request principal policy context) (RaisesInTime request) := by
  unfold runToolLoop
  obtain ⟨rounds, hof⟩ := Nat.exists_eq_add_of_le' hrounds
  rw [hof]
  exact raisesInTime_bind (runIteration_raises hadmissible ⟨context.blocks_le, le_rfl⟩)

/-- An environment whose clock reads the deadline and which refuses everything else. -/
def refusing (request : ResearchRequest) : ℕ → (r : LoopRequest) → LoopAnswer r
  | _, .now => (.ok (some request.deadlineAt) : Reading)
  | _, .complete _ => failure .dataUnavailable ""
  | _, .submit _ => false
  | _, .monotonic => (0 : ℚ)
  | _, .wait pending _ => .nothing pending
  | _, .read _ => failure .dataUnavailable ""

omit [Hashing] [AuditRedaction] in
theorem refusing_benign (request : ResearchRequest) (n : ℕ) (r : LoopRequest) :
    Benign policy ⟨r, refusing request n r⟩ := by
  cases r with
  | now => exact ⟨_, rfl⟩
  | read contentHash => exact Attempt.returns_failure _
  | complete llmRequest =>
      intro response turn hresponse
      cases hresponse
  | _ => exact trivial

end

/-- The runs of the loop whose exchanges are benign all return if and only if the request to the
model can be built. -/
theorem tool_loop_returns [Hashing] [AuditRedaction] [TurnParsing] (request : ResearchRequest)
    (principal : ResearchPrincipal) (policy : ToolPolicy) (context : ResearchContext)
    (hbudget : request.budget.Valid) :
    (∀ log end_, RunsTo (runToolLoop request principal policy context) log end_ →
      (∀ e ∈ log, Benign policy e) → end_.Returns) ↔ Admissible request policy := by
  constructor
  · intro hcalm
    by_contra hadmissible
    -- a clock that reads the deadline is in time, so the loop raises before it asks
    have hrun := runsTo_play (refusing request) 0 (runToolLoop request principal policy context)
    have hanswer {e : Sigma LoopAnswer}
        (h : e ∈ (play (refusing request) 0 (runToolLoop request principal policy context)).1) :=
      answer_of_mem_play h
    obtain ⟨reading, rest, hlog, hraises⟩ :=
      runToolLoop_raises context hbudget.iterations.1 hadmissible _ _ hrun
    have hreading : reading = .ok (some request.deadlineAt) := by
      obtain ⟨k, hk⟩ := hanswer (hlog ▸ List.mem_cons_self)
      exact eq_of_heq (Sigma.mk.inj hk).2
    refine hraises request.deadlineAt (hreading ▸ rfl) le_rfl (hcalm _ _ hrun fun e he => ?_)
    obtain ⟨k, hk⟩ := hanswer he
    rw [hk]
    exact refusing_benign request k e.1
  · intro hadmissible
    exact runIterations_calm request.budget.maxIterations 0 hbudget hadmissible
      ⟨context.blocks_le, le_rfl⟩

def Dialogue.speechless : ResearchRequest :=
  { Dialogue.request with budget := { Dialogue.request.budget with maxOutputTokens := 0 } }

open scoped CodeHashing Dialogue in
theorem tool_loop_returns_speechless : ¬ ∀ log end_,
    RunsTo (runToolLoop Dialogue.speechless Dialogue.principal Dialogue.policy Dialogue.context) log
      end_ → (∀ e ∈ log, Benign Dialogue.policy e) → end_.Returns := by
  intro h
  have hadmissible := (tool_loop_returns Dialogue.speechless Dialogue.principal Dialogue.policy
    Dialogue.context
    ⟨by decide, by decide, by decide, by decide, by decide, by decide, by decide⟩).mp h
  exact absurd hadmissible.tokens.1 (by decide)

end StonksPaper.Research
