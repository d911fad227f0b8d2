import Mathlib.Data.Fintype.EquivFin
import StonksPaper.Delivery.Inbox

/-!
# Exactly once

A call that handles a message holds its lock, and no receipt of the message is committed while it
does. So a message is handled to the end at most once, and what its handler has written is committed
with its receipt. Whether a later call gets the result back depends on how the database spells it.
-/

namespace StonksPaper

/-! ## Lock keys -/

theorem takeWhile_length (n : ℕ) (rest : List Char) :
    ((toString n).toList ++ ':' :: rest).takeWhile (· ≠ ':') = (toString n).toList := by
  have hdigits : ∀ c ∈ (toString n).toList, decide (c ≠ ':') = true := by
    intro c hc
    have hdigit : c.isDigit := by
      refine Nat.isDigit_of_mem_toDigits (b := 10) (n := n) (by decide) (by decide) ?_
      simpa [toString, Nat.repr] using hc
    rw [decide_eq_true_iff]
    rintro rfl
    exact absurd hdigit (by decide)
  rw [List.takeWhile_append_of_pos hdigits]
  simp

theorem toList_lockKey (key : MessageKey) : (lockKey key).toList =
    (toString key.1.length).toList ++ ':' :: (key.1.toList ++ key.2.toList) := by
  simp [lockKey, String.toList_append]

/-- Two messages never build the same key. -/
theorem lockKey_injective : Function.Injective lockKey := by
  intro key key' h
  have hlist := congrArg String.toList h
  rw [toList_lockKey, toList_lockKey] at hlist
  have hdigits := congrArg (List.takeWhile (· ≠ ':')) hlist
  rw [takeWhile_length, takeWhile_length] at hdigits
  have hlength : key.1.length = key'.1.length := by
    have hnumber := congrArg (fun digits => Nat.ofDigitChars 10 digits 0) hdigits
    simpa [Nat.toString_eq_ofList_toDigits] using hnumber
  rw [hdigits] at hlist
  have hrest := (List.cons.inj (List.append_cancel_left hlist)).2
  obtain ⟨hconsumer, hmessage⟩ := List.append_inj hrest
    (by rw [String.length_toList, String.length_toList, hlength])
  exact Prod.ext (String.toList_injective hconsumer) (String.toList_injective hmessage)

section

variable {ε : Type} {lockHash : String → ℕ} {w : Inbox ε} {c : ConsumeCall ε}
  {phase : ConsumePhase ε} {callId : ℕ} {message : InboxMessage} {result : Json} {row : InboxRow}

namespace Inbox

/-! ## Phases -/

theorem call_eq_some (h : w.call callId = some c) : c ∈ w.calls ∧ c.callId = callId :=
  ⟨Table.mem_of_get h, Table.key_of_get h⟩

theorem call_goesTo (h : w.call callId = some c) (phase : ConsumePhase ε) :
    (w.goesTo callId phase).call callId = some { c with phase := phase } := by
  unfold Inbox.call goesTo at *
  rw [Table.get_update (f := fun c : ConsumeCall ε => { c with phase := phase }) fun _ _ => rfl, h]
  exact congrArg some (if_pos (call_eq_some h).2)

def Underway : ConsumePhase ε → Prop
  | .handling | .flushed _ _ => True
  | _ => False

theorem holds_of_underway (h : Underway phase) : phase.Holds := by
  cases phase with
  | finished answer => exact h
  | _ => trivial

variable [Hashing] [JsonbColumn]

def RecordedBy (row : InboxRow) (message : InboxMessage) (result : Json) : Prop :=
  row = message.row result ∧ result.ValidObject

/-- What the interleaved calls keep. -/
structure Kept (w : Inbox ε) : Prop where
  calls_unique : Table.Unique (·.callId) w.calls
  rows_unique : Table.Unique (·.key) w.rows
  effects_eq : w.effects.map (·.1) = w.rows.map (·.key)
  exclusive : ∀ c ∈ w.calls, ∀ c' ∈ w.calls, c.phase.Holds → c'.phase.Holds →
    c.message.key = c'.message.key → c = c'
  fresh : ∀ c ∈ w.calls, Underway c.phase → Table.Fresh (·.key) c.message.key w.rows
  valid : ∀ c ∈ w.calls, ∀ result effects, c.phase = .flushed result effects → result.ValidObject
  recorded : ∀ row ∈ w.rows, ∃ message result, RecordedBy row message result

theorem kept_opened : Kept (opened ε) := by
  constructor
  · exact Table.unique_nil
  · exact Table.unique_nil
  · rfl
  all_goals
    intro _ h
    cases h

theorem Kept.ofHandled (h : Kept w) (handled : List MessageKey) :
    Kept { w with handled := handled } :=
  ⟨h.calls_unique, h.rows_unique, h.effects_eq, h.exclusive, h.fresh, h.valid, h.recorded⟩

/-- A call that holds its lock goes on, to a phase that its rows justify. -/
theorem Kept.goesTo (h : Kept w) (hcall : w.call callId = some c) (hholds : c.phase.Holds)
    (hfresh : Underway phase → Table.Fresh (·.key) c.message.key w.rows)
    (hvalid : ∀ result effects, phase = .flushed result effects → result.ValidObject) :
    Kept (w.goesTo callId phase) := by
  obtain ⟨hmem, hid⟩ := call_eq_some hcall
  have hsame {old : ConsumeCall ε} (hold : old ∈ w.calls) (holdId : old.callId = callId) :
      old = c := h.calls_unique.eq hold hmem (holdId.trans hid.symm)
  -- every call that holds a lock did so before
  have hbefore : ∀ c' ∈ (w.goesTo callId phase).calls, ∃ old ∈ w.calls,
      c' = (if old.callId = callId then { old with phase := phase } else old) ∧
        c'.message.key = old.message.key ∧ (c'.phase.Holds → old.phase.Holds) := by
    intro c' hc'
    obtain ⟨old, hold, heq⟩ := Table.mem_update.mp hc'
    refine ⟨old, hold, heq, ?_⟩
    by_cases holdId : old.callId = callId
    · rw [if_pos holdId] at heq
      rw [heq, hsame hold holdId]
      exact ⟨rfl, fun _ => hholds⟩
    · rw [if_neg holdId] at heq
      rw [heq]
      exact ⟨rfl, id⟩
  refine ⟨h.calls_unique.update fun _ _ => rfl, h.rows_unique, h.effects_eq, ?_, ?_, ?_,
    h.recorded⟩
  · intro c₁ hc₁ c₂ hc₂ hholds₁ hholds₂ hkey
    obtain ⟨old₁, hold₁, heq₁, hkey₁, hback₁⟩ := hbefore c₁ hc₁
    obtain ⟨old₂, hold₂, heq₂, hkey₂, hback₂⟩ := hbefore c₂ hc₂
    have hold := h.exclusive old₁ hold₁ old₂ hold₂ (hback₁ hholds₁) (hback₂ hholds₂)
      (hkey₁.symm.trans (hkey.trans hkey₂))
    rw [heq₁, heq₂, hold]
  · refine Table.forall_mem_update (fun old hold _ => h.fresh old hold) fun old hold holdId => ?_
    rw [hsame hold holdId]
    exact hfresh
  · refine Table.forall_mem_update (fun old hold _ => h.valid old hold) fun _ _ _ => ?_
    exact hvalid

theorem Kept.lock (h : Kept w) (hfree : w.LockFree lockHash message.key)
    (hnew : w.call callId = none) :
    Kept { w with calls := w.calls ++ [⟨callId, message, .locked⟩] } := by
  have hother : ∀ c ∈ w.calls, c.phase.Holds → c.message.key ≠ message.key := by
    intro c hc hholds hkey
    exact hfree c hc hholds (hkey ▸ rfl)
  have hcases {c : ConsumeCall ε} (hc : c ∈ w.calls ++ [⟨callId, message, .locked⟩]) :
      c ∈ w.calls ∨ c = ⟨callId, message, .locked⟩ := by
    rcases List.mem_append.mp hc with hc | hc
    · exact .inl hc
    · exact .inr (List.mem_singleton.mp hc)
  refine ⟨h.calls_unique.concat (Table.get_eq_none.mp hnew), h.rows_unique, h.effects_eq, ?_, ?_,
    ?_, h.recorded⟩
  · intro c hc c' hc' hholds hholds' hkey
    rcases hcases hc with hc | rfl
    · rcases hcases hc' with hc' | rfl
      · exact h.exclusive c hc c' hc' hholds hholds' hkey
      · exact absurd hkey (hother c hc hholds)
    · rcases hcases hc' with hc' | rfl
      · exact absurd hkey.symm (hother c' hc' hholds')
      · rfl
  · intro c hc hunderway
    rcases hcases hc with hc | rfl
    · exact h.fresh c hc hunderway
    · cases hunderway
  · intro c hc result effects hphase
    rcases hcases hc with hc | rfl
    · exact h.valid c hc result effects hphase
    · cases hphase

/-- The receipt of a message is committed with the effects of its handler. -/
theorem Kept.commit (h : Kept w) {effects : ε}
    (hcall : w.call callId = some ⟨callId, message, .flushed result effects⟩)
    (answer : QueueCall InboxReceipt) :
    Kept ({ w with
      rows := w.rows ++ [message.row result]
      effects := w.effects ++ [(message.key, effects)] }.goesTo callId (.finished answer)) := by
  obtain ⟨hmem, -⟩ := call_eq_some hcall
  have hfresh : Table.Fresh (·.key) message.key w.rows := h.fresh _ hmem trivial
  have hgone : Kept (w.goesTo callId (.finished answer)) :=
    h.goesTo hcall trivial (fun hno => by cases hno) fun _ _ hno => by cases hno
  refine ⟨hgone.calls_unique, h.rows_unique.concat hfresh, ?_, hgone.exclusive, ?_, hgone.valid, ?_⟩
  · show (w.effects ++ [(message.key, effects)]).map (·.1) =
      (w.rows ++ [message.row result]).map (·.key)
    rw [List.map_append, List.map_append, h.effects_eq]
    rfl
  · intro c hc hunderway row hrow
    rcases List.mem_append.mp hrow with hrow | hrow
    · exact hgone.fresh c hc hunderway row hrow
    · -- another call of the same message would have held the lock as well
      obtain rfl := List.mem_singleton.mp hrow
      obtain ⟨old, hold, heq⟩ := Table.mem_update.mp hc
      by_cases holdId : old.callId = callId
      · rw [if_pos holdId] at heq
        rw [heq] at hunderway
        cases hunderway
      · rw [if_neg holdId] at heq
        intro hkey
        rw [heq] at hunderway hkey
        have hsame := h.exclusive old hold _ hmem (holds_of_underway hunderway) trivial hkey.symm
        exact holdId (congrArg ConsumeCall.callId hsame)
  · intro row hrow
    rcases List.mem_append.mp hrow with hrow | hrow
    · exact h.recorded row hrow
    · exact ⟨message, result, List.mem_singleton.mp hrow, h.valid _ hmem result effects rfl⟩

omit [Hashing] in
theorem flush_cases (c : ConsumeCall ε) (result : Json) (effects : ε) :
    (w.flush c result effects = .flushed result effects ∧ result.ValidObject ∧
        Table.Fresh (·.key) c.message.key w.rows) ∨
      w.flush c result effects = .finished (failed "Inbox processing failed") := by
  unfold flush
  split
  · rename_i h
    exact .inl ⟨rfl, h.1, h.2.2⟩
  · exact .inr rfl

omit [Hashing] [JsonbColumn] in
theorem goesTo_of_none (h : w.call callId = none) (phase : ConsumePhase ε) :
    w.goesTo callId phase = w := by
  unfold goesTo
  rw [Table.update_eq_self fun c hc => Table.get_eq_none.mp h c hc]

theorem Kept.finish (h : Kept w) (hcall : w.call callId = some c) (hholds : c.phase.Holds)
    (answer : QueueCall InboxReceipt) : Kept (w.goesTo callId (.finished answer)) :=
  h.goesTo hcall hholds (fun hno => by cases hno) fun _ _ hno => by cases hno

theorem Kept.step (h : Kept w) (lockHash : String → ℕ) (a : CallAction ε) :
    Kept (w.step lockHash a) := by
  obtain ⟨callId, action⟩ := a
  cases action with
  | lock message =>
      show Kept (if _ then _ else _)
      split
      · rename_i hfree
        exact h.lock hfree.1 hfree.2
      · exact h
  | look =>
      simp only [Inbox.step, act]
      split
      · rename_i id message hcall
        split
        · exact h.finish hcall trivial _
        · rename_i hrow
          exact h.goesTo hcall trivial (fun _ => Table.get_eq_none.mp hrow)
            fun _ _ hno => by cases hno
      · exact h
  | handle outcome =>
      simp only [Inbox.step, act]
      split
      · rename_i id message hcall
        have hran := h.ofHandled (w.handled ++ [message.key])
        cases outcome with
        | raised => exact hran.finish hcall trivial _
        | returned result effects =>
            refine hran.goesTo hcall trivial (fun hunderway => ?_) fun result' effects' heq => ?_
            · rcases flush_cases (w := w) ⟨id, message, .handling⟩ result effects with
                ⟨-, -, hfresh⟩ | hfinished
              · exact hfresh
              · rw [hfinished] at hunderway
                cases hunderway
            · rcases flush_cases (w := w) ⟨id, message, .handling⟩ result effects with
                ⟨hflushed, hvalid, -⟩ | hfinished
              · rw [hflushed] at heq
                obtain ⟨rfl, -⟩ := ConsumePhase.flushed.inj heq
                exact hvalid
              · rw [hfinished] at heq
                cases heq
      · exact h
  | commit =>
      simp only [Inbox.step, act]
      split
      · rename_i id message result effects hcall
        obtain rfl := (call_eq_some hcall).2
        exact h.commit hcall _
      · exact h
  | abort =>
      simp only [Inbox.step, act]
      split
      · exact h
      · rename_i hnot
        cases hcall : w.call callId with
        | none => rwa [goesTo_of_none hcall]
        | some c =>
            refine h.finish hcall ?_ _
            obtain ⟨id, message, phase⟩ := c
            cases phase with
            | finished answer => exact absurd hcall (hnot id message answer)
            | _ => trivial

theorem kept_run (h : Kept w) (lockHash : String → ℕ) (actions : List (CallAction ε)) :
    Kept (Run.run (step lockHash) w actions) :=
  Run.invariant_run (fun _ a hk => hk.step lockHash a) h actions

/-! ## Committed messages -/

/-- Rows stay, and the handler of a committed message does not run again. -/
theorem Kept.final_step (h : Kept w) (lockHash : String → ℕ) (hrow : row ∈ w.rows)
    (a : CallAction ε) : row ∈ (w.step lockHash a).rows ∧
      (w.step lockHash a).handled.filter (· = row.key) = w.handled.filter (· = row.key) := by
  obtain ⟨callId, action⟩ := a
  cases action with
  | lock message =>
      simp only [Inbox.step, act]
      split
      · exact ⟨hrow, rfl⟩
      · exact ⟨hrow, rfl⟩
  | look =>
      simp only [Inbox.step, act]
      split
      · split
        · exact ⟨hrow, rfl⟩
        · exact ⟨hrow, rfl⟩
      · exact ⟨hrow, rfl⟩
  | handle outcome =>
      simp only [Inbox.step, act]
      split
      · rename_i id message hcall
        have hne : row.key ≠ message.key :=
          h.fresh _ (call_eq_some hcall).1 trivial row hrow
        have hsame : (w.handled ++ [message.key]).filter (· = row.key) =
            w.handled.filter (· = row.key) := by
          rw [List.filter_append, List.filter_singleton, decide_eq_false hne.symm]
          exact List.append_nil _
        cases outcome with
        | raised => exact ⟨hrow, hsame⟩
        | returned result effects => exact ⟨hrow, hsame⟩
      · exact ⟨hrow, rfl⟩
  | commit =>
      simp only [Inbox.step, act]
      split
      · exact ⟨List.mem_append_left _ hrow, rfl⟩
      · exact ⟨hrow, rfl⟩
  | abort =>
      simp only [Inbox.step, act]
      split
      · exact ⟨hrow, rfl⟩
      · exact ⟨hrow, rfl⟩

theorem Kept.final (h : Kept w) (lockHash : String → ℕ) (hrow : row ∈ w.rows)
    (actions : List (CallAction ε)) : row ∈ (Run.run (Inbox.step lockHash) w actions).rows ∧
      (Run.run (Inbox.step lockHash) w actions).handled.filter (· = row.key) =
        w.handled.filter (· = row.key) := by
  induction actions generalizing w with
  | nil => exact ⟨hrow, rfl⟩
  | cons a actions ih =>
      obtain ⟨hstays, hsame⟩ := h.final_step lockHash hrow a
      obtain ⟨hrun, hrest⟩ := ih (h.step lockHash a) hstays
      exact ⟨hrun, hrest.trans hsame⟩

theorem Kept.look (h : Kept w) (lockHash : String → ℕ) (hrow : row ∈ w.rows)
    (hcall : w.call callId = some ⟨callId, message, .locked⟩) (hkey : message.key = row.key) :
    (w.step lockHash (callId, .look)).call callId =
      some ⟨callId, message, .finished (row.existingReceipt message)⟩ := by
  have hread : w.row message.key = some row := by
    rw [hkey]
    exact Table.get_of_mem h.rows_unique hrow
  have hstep : w.step lockHash (callId, .look) =
      w.goesTo callId (.finished (row.existingReceipt message)) := by
    unfold Inbox.step act
    simp only [hcall, hread]
  rw [hstep]
  exact call_goesTo hcall _

/-! ## Finished calls -/

omit [Hashing] [JsonbColumn] in
theorem call_goesTo_ne {other : ℕ} (h : other ≠ callId) (phase : ConsumePhase ε) :
    (w.goesTo other phase).call callId = w.call callId := by
  unfold Inbox.call goesTo
  rw [Table.get_update (f := fun c : ConsumeCall ε => { c with phase := phase }) fun _ _ => rfl]
  cases hcall : Table.get (·.callId) w.calls callId with
  | none => rfl
  | some c => exact congrArg some (if_neg fun hid => h (hid.symm.trans (Table.key_of_get hcall)))

/-- The answer of a call is final, whatever the calls do. -/
theorem finished_step {answer : QueueCall InboxReceipt} (lockHash : String → ℕ)
    (h : w.call callId = some ⟨callId, message, .finished answer⟩) (a : CallAction ε) :
    (w.step lockHash a).call callId = some ⟨callId, message, .finished answer⟩ := by
  obtain ⟨other, action⟩ := a
  by_cases hother : other = callId
  · -- no action fits a call that has ended
    subst hother
    cases action with
    | lock message => simp only [Inbox.step, act, h, reduceCtorEq, and_false, if_false]
    | _ => simp only [Inbox.step, act, h]
  · cases action with
    | lock message =>
        simp only [Inbox.step, act]
        split
        · exact Table.get_concat_of_some h
        · exact h
    | handle outcome =>
        simp only [Inbox.step, act]
        split
        · cases outcome with
          | raised => exact (call_goesTo_ne hother _).trans h
          | returned result effects => exact (call_goesTo_ne hother _).trans h
        · exact h
    | look =>
        simp only [Inbox.step, act]
        split
        · split
          · exact (call_goesTo_ne hother _).trans h
          · exact (call_goesTo_ne hother _).trans h
        · exact h
    | commit =>
        simp only [Inbox.step, act]
        split
        · exact (call_goesTo_ne hother _).trans h
        · exact h
    | abort =>
        simp only [Inbox.step, act]
        split
        · exact h
        · exact (call_goesTo_ne hother _).trans h

theorem finished_run {answer : QueueCall InboxReceipt} (lockHash : String → ℕ)
    (h : w.call callId = some ⟨callId, message, .finished answer⟩) (actions : List (CallAction ε)) :
    (Run.run (step lockHash) w actions).call callId =
      some ⟨callId, message, .finished answer⟩ :=
  Run.invariant_run
    (I := fun w : Inbox ε => w.call callId = some ⟨callId, message, .finished answer⟩)
    (fun _ a hcall => finished_step lockHash hcall a) h actions

/-- A step that commits something ends its call with a receipt. -/
theorem committed_step (w : Inbox ε) (lockHash : String → ℕ) (callId : ℕ)
    (action : ConsumeAction ε) :
    ((w.step lockHash (callId, action)).rows = w.rows ∧
        (w.step lockHash (callId, action)).effects = w.effects) ∨
      ∃ message receipt, (w.step lockHash (callId, action)).call callId =
        some ⟨callId, message, .finished (.success receipt)⟩ := by
  cases action with
  | commit =>
      simp only [Inbox.step, act]
      split
      · rename_i id message result effects hcall
        obtain rfl := (call_eq_some hcall).2
        exact .inr ⟨message, message.receipt result, call_goesTo (w := { w with
          rows := w.rows ++ [message.row result]
          effects := w.effects ++ [(message.key, effects)] }) hcall _⟩
      · exact .inl ⟨rfl, rfl⟩
  | lock message =>
      simp only [Inbox.step, act]
      split
      · exact .inl ⟨rfl, rfl⟩
      · exact .inl ⟨rfl, rfl⟩
  | look =>
      simp only [Inbox.step, act]
      split
      · split
        · exact .inl ⟨rfl, rfl⟩
        · exact .inl ⟨rfl, rfl⟩
      · exact .inl ⟨rfl, rfl⟩
  | handle outcome =>
      simp only [Inbox.step, act]
      split
      · cases outcome with
        | raised => exact .inl ⟨rfl, rfl⟩
        | returned result effects => exact .inl ⟨rfl, rfl⟩
      · exact .inl ⟨rfl, rfl⟩
  | abort =>
      simp only [Inbox.step, act]
      split
      · exact .inl ⟨rfl, rfl⟩
      · exact .inl ⟨rfl, rfl⟩

theorem failed_run {error : Failure} {lockHash : String → ℕ} {action : ConsumeAction ε}
    {more : List (CallAction ε)}
    (h : (Run.run (step lockHash) w ((callId, action) :: more)).call callId =
      some ⟨callId, message, .finished (.failure error)⟩) :
    (w.step lockHash (callId, action)).rows = w.rows ∧
      (w.step lockHash (callId, action)).effects = w.effects := by
  rcases committed_step w lockHash callId action with hsame | ⟨message', receipt, hcall⟩
  · exact hsame
  · have hend := finished_run lockHash hcall more
    rw [Run.run_cons, hend] at h
    cases h

/-! ## A later call -/

/-- The actions of a call that nothing disturbs. -/
def undisturbed (callId : ℕ) (message : InboxMessage) (result : Json) (effects : ε) :
    List (CallAction ε) :=
  [(callId, .lock message), (callId, .look), (callId, .handle (.returned result effects)),
    (callId, .commit)]

def calling (w : Inbox ε) (callId : ℕ) (message : InboxMessage) (phase : ConsumePhase ε) :
    Inbox ε := { w with calls := w.calls ++ [⟨callId, message, phase⟩] }

omit [Hashing] [JsonbColumn] in
theorem call_calling (hnew : w.call callId = none) (phase : ConsumePhase ε) :
    (w.calling callId message phase).call callId = some ⟨callId, message, phase⟩ :=
  Table.get_concat_self (Table.get_eq_none.mp hnew)

omit [Hashing] [JsonbColumn] in
theorem goesTo_calling (hnew : w.call callId = none) (before phase : ConsumePhase ε) :
    (w.calling callId message before).goesTo callId phase = w.calling callId message phase := by
  have hothers : Table.update (·.callId = callId) ({ · with phase := phase }) w.calls = w.calls :=
    Table.update_eq_self fun c hc => Table.get_eq_none.mp hnew c hc
  unfold goesTo calling
  rw [Table.update_append, hothers]
  simp [Table.update]

theorem run_undisturbed {lockHash : String → ℕ} (hfresh : Table.Fresh (·.key) message.key w.rows)
    (hfree : w.LockFree lockHash message.key) (hnew : w.call callId = none)
    (hvalid : result.ValidObject) (haccepts : JsonbColumn.accepts result = true) (effects : ε) :
    Run.run (step lockHash) w (undisturbed callId message result effects) =
      { rows := w.rows ++ [message.row result]
        effects := w.effects ++ [(message.key, effects)]
        calls := w.calls ++ [⟨callId, message, .finished (.success (message.receipt result))⟩]
        handled := w.handled ++ [message.key] } := by
  have hlock : w.step lockHash (callId, .lock message) = w.calling callId message .locked :=
    if_pos ⟨hfree, hnew⟩
  have hlook : (w.calling callId message .locked).step lockHash (callId, .look) =
      w.calling callId message .handling := by
    have hnone : (w.calling callId message .locked).row message.key = none :=
      Table.get_eq_none.mpr hfresh
    simp only [Inbox.step, act, call_calling hnew, hnone, goesTo_calling hnew]
  let ran : Inbox ε := { w with handled := w.handled ++ [message.key] }
  have hran : ran.call callId = none := hnew
  have hhandle : (w.calling callId message .handling).step lockHash
      (callId, .handle (.returned result effects)) =
        ran.calling callId message (.flushed result effects) := by
    have hflush : (w.calling callId message .handling).flush ⟨callId, message, .handling⟩ result
        effects = .flushed result effects := if_pos ⟨hvalid, haccepts, hfresh⟩
    simp only [Inbox.step, act, call_calling hnew, hflush]
    exact goesTo_calling hran .handling _
  unfold undisturbed
  rw [Run.run_cons, hlock, Run.run_cons, hlook, Run.run_cons, hhandle, Run.run_cons, Run.run_nil]
  simp only [Inbox.step, act, call_calling hran]
  exact goesTo_calling (w := { ran with
    rows := w.rows ++ [message.row result]
    effects := w.effects ++ [(message.key, effects)] }) hran (.flushed result effects) _

/-! ## Calls that are cut off -/

/-- A rollback ends its call, and begins none. -/
theorem Kept.abort (hk : Kept w) (lockHash : String → ℕ) (id : ℕ)
    (h : c ∈ (w.step lockHash (id, .abort)).calls) :
    (∃ old ∈ w.calls, old.callId = c.callId) ∧
      (c.phase.Holds → c ∈ w.calls ∧ c.callId ≠ id) := by
  simp only [Inbox.step, act] at h
  split at h
  · rename_i other message answer hcall
    refine ⟨⟨c, h, rfl⟩, fun hholds => ⟨h, fun hid => ?_⟩⟩
    obtain ⟨hmem, hother⟩ := call_eq_some hcall
    have hsame := hk.calls_unique.eq h hmem (hid.trans hother.symm)
    rw [hsame] at hholds
    exact hholds
  · obtain ⟨old, hold, heq⟩ := Table.mem_update.mp h
    by_cases hid : old.callId = id
    · rw [if_pos hid] at heq
      rw [heq]
      exact ⟨⟨old, hold, rfl⟩, fun hno => hno.elim⟩
    · rw [if_neg hid] at heq
      rw [heq]
      exact ⟨⟨old, hold, rfl⟩, fun _ => ⟨hold, hid⟩⟩

theorem Kept.aborts (hk : Kept w) (lockHash : String → ℕ) (ids : List ℕ)
    (h : c ∈ (Run.run (Inbox.step lockHash) w (ids.map fun id => (id, .abort))).calls) :
    (∃ old ∈ w.calls, old.callId = c.callId) ∧
      (c.phase.Holds → c ∈ w.calls ∧ c.callId ∉ ids) := by
  induction ids generalizing w with
  | nil => exact ⟨⟨c, h, rfl⟩, fun _ => ⟨h, List.not_mem_nil⟩⟩
  | cons id ids ih =>
      obtain ⟨⟨old, hold, hid⟩, hholds⟩ := ih (hk.step lockHash (id, .abort)) h
      obtain ⟨⟨older, holder, hsame⟩, -⟩ := hk.abort lockHash id hold
      refine ⟨⟨older, holder, hsame.trans hid⟩, fun hc => ?_⟩
      obtain ⟨hmem, hnot⟩ := hholds hc
      obtain ⟨hbefore, hne⟩ := (hk.abort lockHash id hmem).2 hc
      refine ⟨hbefore, fun hin => ?_⟩
      rcases List.mem_cons.mp hin with heq | hin
      · exact hne heq
      · exact hnot hin

/-- Once every call has been rolled back, a new one gets its lock. -/
theorem Kept.relock (hk : Kept w) (lockHash : String → ℕ) (message : InboxMessage) :
    ∃ more callId, (Run.run (Inbox.step lockHash) w more).call callId =
      some ⟨callId, message, .locked⟩ := by
  obtain ⟨callId, hnew⟩ := Infinite.exists_notMem_finset (w.calls.map (·.callId)).toFinset
  let ids := w.calls.map (·.callId)
  let ended := Run.run (Inbox.step lockHash) w (ids.map fun id => (id, .abort))
  have hfree : ended.LockFree lockHash message.key := by
    intro c hc hholds
    obtain ⟨hmem, hnot⟩ := (hk.aborts lockHash ids hc).2 hholds
    exact absurd (List.mem_map_of_mem hmem) hnot
  have hfresh : Table.Fresh (·.callId) callId ended.calls := by
    intro c hc hid
    obtain ⟨old, hold, hsame⟩ := (hk.aborts lockHash ids hc).1
    apply hnew
    rw [List.mem_toFinset]
    exact List.mem_map.mpr ⟨old, hold, hsame.trans hid⟩
  refine ⟨ids.map (fun id => (id, .abort)) ++ [(callId, .lock message)], callId, ?_⟩
  rw [Run.run_append]
  have hlock : ended.step lockHash (callId, .lock message) =
      { ended with calls := ended.calls ++ [⟨callId, message, .locked⟩] } :=
    if_pos ⟨hfree, Table.get_eq_none.mpr hfresh⟩
  show (ended.step lockHash (callId, .lock message)).call callId = _
  rw [hlock]
  exact Table.get_concat_self hfresh

/-! ## Exactly once -/

/-- The receipt that a later call of the same message gets. -/
def DuplicateOf (row : InboxRow) (answer : QueueCall InboxReceipt) : Prop :=
  ∃ receipt, answer = .success receipt ∧ receipt.duplicate = true ∧
    (receipt.consumer, receipt.messageId) = row.key ∧ receipt.payloadHash = row.payloadHash ∧
    some receipt.processedAt = row.processedAt ∧ some receipt.result = row.result

def Conflicts (answer : QueueCall InboxReceipt) : Prop :=
  ∃ message, answer = .refused .conflict message

/-- What a run of calls promises of each message. -/
structure ExactlyOnce (lockHash : String → ℕ) (actions : List (CallAction ε)) : Prop where
  /-- What handlers have written is committed with the receipts, one for each message. -/
  once : (reached lockHash actions).effects.map (·.1) =
    (reached lockHash actions).rows.map (·.key) ∧
    ((reached lockHash actions).effects.map (·.1)).Nodup
  /-- A receipt stays, and its message is not handled again. -/
  final : ∀ row ∈ (reached lockHash actions).rows, ∀ more,
    row ∈ (reached lockHash (actions ++ more)).rows ∧
      (reached lockHash (actions ++ more)).handled.filter (· = row.key) =
        (reached lockHash actions).handled.filter (· = row.key)
  /-- Every later call of the message is answered from its receipt. -/
  answered : ∀ row ∈ (reached lockHash actions).rows, ∀ more callId message,
    (reached lockHash (actions ++ more)).call callId = some ⟨callId, message, .locked⟩ →
    message.key = row.key → ∃ answer,
      (reached lockHash (actions ++ more ++ [(callId, .look)])).call callId =
        some ⟨callId, message, .finished answer⟩ ∧
      (message.payloadHash = row.payloadHash → DuplicateOf row answer) ∧
      (message.payloadHash ≠ row.payloadHash → Conflicts answer)
  /-- A call that fails in the end has committed nothing. -/
  failed : ∀ before callId action more message error, actions = before ++ (callId, action) :: more →
    (reached lockHash actions).call callId = some ⟨callId, message, .finished (.failure error)⟩ →
    (reached lockHash (before ++ [(callId, action)])).rows = (reached lockHash before).rows ∧
      (reached lockHash (before ++ [(callId, action)])).effects = (reached lockHash before).effects
  /-- As long as there is no receipt, a call whose handler returns a result succeeds. -/
  retried : ∀ callId message result (effects : ε),
    Table.Fresh (·.key) message.key (reached lockHash actions).rows →
    (reached lockHash actions).LockFree lockHash message.key →
    (reached lockHash actions).call callId = none →
    result.ValidObject → JsonbColumn.accepts result = true →
    (reached lockHash (actions ++ undisturbed callId message result effects)).call callId =
      some ⟨callId, message, .finished (.success (message.receipt result))⟩

/-- The answer from a receipt whose result is read back as a valid object. -/
theorem duplicateOf_existingReceipt (hrecorded : RecordedBy row message result)
    {later : InboxMessage} (hhash : later.payloadHash = row.payloadHash) :
    DuplicateOf row (row.existingReceipt later) ↔ (JsonbColumn.stored result).ValidObject := by
  obtain ⟨rfl, -⟩ := hrecorded
  have hsame : ¬ (message.row result).payloadHash ≠ later.payloadHash := by
    rw [hhash]
    exact fun hne => hne rfl
  unfold InboxRow.existingReceipt
  rw [if_neg hsame]
  show DuplicateOf _ (if (JsonbColumn.stored result).ValidObject then _ else _) ↔ _
  constructor
  · intro h
    by_contra hinvalid
    rw [if_neg hinvalid] at h
    obtain ⟨receipt, hno, -⟩ := h
    cases hno
  · intro hvalid
    rw [if_pos hvalid]
    exact ⟨_, rfl, rfl, rfl, rfl, rfl, rfl⟩

omit [JsonbColumn] in
theorem conflicts_existingReceipt {later : InboxMessage}
    (hhash : later.payloadHash ≠ row.payloadHash) : Conflicts (row.existingReceipt later) := by
  unfold InboxRow.existingReceipt
  rw [if_pos hhash.symm]
  exact ⟨_, rfl⟩

theorem reached_append (lockHash : String → ℕ) (actions more : List (CallAction ε)) :
    reached lockHash (actions ++ more) =
      Run.run (step lockHash) (reached lockHash actions) more := Run.run_append ..

theorem kept_reached (lockHash : String → ℕ) (actions : List (CallAction ε)) :
    Kept (reached lockHash actions) := kept_run kept_opened lockHash actions

def ReadBack (w : Inbox ε) : Prop := ∀ row ∈ w.rows, ∀ result ∈ row.result, result.ValidObject

theorem answer_eq (lockHash : String → ℕ) {actions more : List (CallAction ε)}
    (hrow : row ∈ (reached lockHash actions).rows)
    (hcall : (reached lockHash (actions ++ more)).call callId = some ⟨callId, message, .locked⟩)
    (hkey : message.key = row.key) :
    (reached lockHash (actions ++ more ++ [(callId, .look)])).call callId =
      some ⟨callId, message, .finished (row.existingReceipt message)⟩ := by
  have hstays := ((kept_reached lockHash actions).final lockHash hrow more).1
  rw [← reached_append] at hstays
  rw [reached_append lockHash (actions ++ more)]
  exact (kept_reached lockHash (actions ++ more)).look lockHash hstays hcall hkey

theorem readBack_of_exactlyOnce {lockHash : String → ℕ} {actions : List (CallAction ε)}
    (h : ExactlyOnce lockHash actions) : ReadBack (reached lockHash actions) := by
  have hk := kept_reached lockHash actions
  intro row hrow result hresult
  -- the recorded message is consumed once more
  obtain ⟨message, returned, hrecorded⟩ := hk.recorded row hrow
  obtain ⟨more, callId, hcall⟩ := hk.relock lockHash message
  rw [← reached_append] at hcall
  have hkey : message.key = row.key := by rw [hrecorded.1]; rfl
  have hhash : message.payloadHash = row.payloadHash := by rw [hrecorded.1]; rfl
  obtain ⟨answer, hend, hsame, -⟩ := h.answered row hrow more callId message hcall hkey
  rw [answer_eq lockHash hrow hcall hkey] at hend
  have hanswer : answer = row.existingReceipt message := by
    cases hend
    rfl
  have hduplicate := hsame hhash
  rw [hanswer] at hduplicate
  have hvalid := (duplicateOf_existingReceipt hrecorded hhash).mp hduplicate
  rw [hrecorded.1] at hresult
  cases hresult
  exact hvalid

theorem exactlyOnce_of_readBack {lockHash : String → ℕ} {actions : List (CallAction ε)}
    (h : ReadBack (reached lockHash actions)) : ExactlyOnce lockHash actions := by
  have hk := kept_reached lockHash actions
  constructor
  · refine ⟨hk.effects_eq, ?_⟩
    rw [hk.effects_eq]
    exact hk.rows_unique
  · intro row hrow more
    rw [reached_append]
    exact hk.final lockHash hrow more
  · intro row hrow more callId message hcall hkey
    refine ⟨_, answer_eq lockHash hrow hcall hkey, fun hhash => ?_, conflicts_existingReceipt⟩
    obtain ⟨recorded, returned, hrecorded⟩ := hk.recorded row hrow
    refine (duplicateOf_existingReceipt hrecorded hhash).mpr (h row hrow _ ?_)
    rw [hrecorded.1]
    rfl
  · intro before callId action more message error heq hcall
    rw [heq, reached_append] at hcall
    rw [reached_append]
    exact failed_run hcall
  · intro callId message result effects hfresh hfree hnew hvalid haccepts
    rw [reached_append]
    rw [run_undisturbed hfresh hfree hnew hvalid haccepts effects]
    exact Table.get_concat_self
      (show Table.Fresh (fun c : ConsumeCall ε => c.callId) _ _ from Table.get_eq_none.mp hnew)

/-- Messages are handled exactly once, and each is answered from its receipt later, exactly when
every result can be read back. -/
theorem exactlyOnce_iff (lockHash : String → ℕ) (actions : List (CallAction ε)) :
    Function.Injective lockKey ∧
      (ExactlyOnce lockHash actions ↔ ReadBack (reached lockHash actions)) :=
  ⟨lockKey_injective, readBack_of_exactlyOnce, exactlyOnce_of_readBack⟩

end Inbox

end

/-! ## A long result -/

namespace Json

theorem itemsSize_replicate (n : ℕ) (item : Json) :
    itemsSize (List.replicate n item) = n * encodedSize item := by
  induction n with
  | zero => simp [itemsSize]
  | succ n ih => rw [List.replicate_succ, itemsSize, ih, Nat.succ_mul, Nat.add_comm]

theorem validItems_replicate (depth n : ℕ) {item : Json} (h : validJson depth item = true) :
    validItems depth (List.replicate n item) = true := by
  induction n with
  | zero => rfl
  | succ n ih => simp [List.replicate_succ, validItems, h, ih]

end Json

namespace InboxScenario

open scoped CodeHashing

/-- How `jsonb` spells the numbers of the results below: without an exponent. -/
def numeric (text : String) : Json := if text = "1e+300" then .int (10 ^ 300) else .float text

mutual

def reread : Json → Json
  | .float text => numeric text
  | .list items => .list (rereadItems items)
  | .dict entries => .dict (rereadEntries entries)
  | value => value

def rereadItems : List Json → List Json
  | [] => []
  | item :: items => reread item :: rereadItems items

def rereadEntries : List (String × Json) → List (String × Json)
  | [] => []
  | (key, item) :: entries => (key, reread item) :: rereadEntries entries

end

local instance numericColumn : JsonbColumn := ⟨fun _ => true, reread⟩

def message : InboxMessage := ⟨"research", "m-1", .text "{}", 0, 1⟩

def valuesOf (items : List Json) : Json := .dict [("values", .list items)]

theorem validObject_valuesOf {items : List Json} : (valuesOf items).ValidObject ↔
    Json.validItems 2 items = true ∧
      Json.bracketSize items.length + Json.itemsSize items ≤ 65525 := by
  have hkey : Json.strSize "values" = 8 := by decide
  have hbracket : Json.bracketSize 1 = 2 := rfl
  have hmax : Json.maxInboxJsonBytes = 65536 := rfl
  have hvalid : Json.validJson 0 (.dict [("values", .list items)]) = true ↔
      Json.validItems 2 items = true := by
    have hlength : "values".length ≤ 128 := by decide
    simp [Json.validJson, Json.validEntries, Json.maxInboxJsonDepth, hlength]
  show Json.validJson 0 (.dict [("values", .list items)]) = true ∧
    Json.encodedSize (.dict [("values", .list items)]) ≤ Json.maxInboxJsonBytes ↔ _
  rw [hvalid, Json.encodedSize, Json.entriesSize, Json.encodedSize, Json.entriesSize, hkey,
    List.length_singleton, hbracket, hmax]
  constructor
  · intro h
    exact ⟨h.1, by omega⟩
  · intro h
    exact ⟨h.1, by omega⟩

def result : Json := valuesOf (List.replicate 300 (.float "1e+300"))

theorem validObject_result : result.ValidObject := by
  have hitem : Json.validJson 2 (.float "1e+300") = true := by decide
  have hsize : Json.encodedSize (.float "1e+300") = 6 := by decide
  refine validObject_valuesOf.mpr ⟨Json.validItems_replicate 2 300 hitem, ?_⟩
  rw [Json.itemsSize_replicate, List.length_replicate, hsize]
  decide

theorem not_validObject_reread : ¬ (reread result).ValidObject := by
  have hitems : ∀ n, rereadItems (List.replicate n (.float "1e+300")) =
      List.replicate n (.int (10 ^ 300)) := by
    intro n
    induction n with
    | zero => rfl
    | succ n ih =>
        rw [List.replicate_succ, rereadItems, ih, List.replicate_succ]
        rfl
  have hsize : Json.encodedSize (.int (10 ^ 300)) = 301 := by decide +kernel
  have hreread : reread result = valuesOf (rereadItems (List.replicate 300 (.float "1e+300"))) := by
    unfold result valuesOf
    rw [reread, rereadEntries, reread, rereadEntries]
  rw [hreread, hitems, validObject_valuesOf, Json.itemsSize_replicate, List.length_replicate, hsize]
  intro h
  have hlong : ¬ Json.bracketSize 300 + 300 * 301 ≤ 65525 := by decide
  exact hlong h.2

def consumed : List (Inbox.CallAction Unit) := Inbox.undisturbed 1 message result ()

theorem reached_consumed : Inbox.reached String.length consumed =
    ⟨[message.row result], [(message.key, ())],
      [⟨1, message, .finished (.success (message.receipt result))⟩], [message.key]⟩ :=
  Inbox.run_undisturbed (w := Inbox.opened Unit) (fun _ h => by cases h) (fun _ h => by cases h) rfl
    validObject_result rfl ()

/-- The second call of the same message is refused. -/
theorem replay_refused :
    (Inbox.reached String.length (consumed ++ [(2, .lock message)] ++ [(2, .look)])).call 2 =
        some ⟨2, message, .finished (.refused .conflict "Inbox receipt is invalid")⟩ ∧
      ¬ Inbox.ExactlyOnce String.length consumed := by
  have hrow : message.row result ∈ (Inbox.reached String.length consumed).rows := by
    rw [reached_consumed]
    exact List.mem_singleton_self _
  constructor
  · have hcall : (Inbox.reached String.length (consumed ++ [(2, .lock message)])).call 2 =
        some ⟨2, message, .locked⟩ := by
      rw [Inbox.reached_append, reached_consumed]
      rfl
    rw [Inbox.answer_eq String.length hrow hcall rfl]
    have hanswer : (message.row result).existingReceipt message =
        .refused .conflict "Inbox receipt is invalid" := by
      unfold InboxRow.existingReceipt
      rw [if_neg fun hne => hne rfl]
      exact if_neg not_validObject_reread
    rw [hanswer]
  · intro h
    exact not_validObject_reread (Inbox.readBack_of_exactlyOnce h _ hrow _ rfl)

end InboxScenario

end StonksPaper
