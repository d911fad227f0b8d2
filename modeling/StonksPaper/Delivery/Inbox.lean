import StonksPaper.Base.Run
import StonksPaper.Jobs.Tables

/-!
# The inbox

`inbox.py` and `domain/inbox.py`. A consumer runs its handler once for a message: the handler's
effects and the receipt are written in one transaction, under an advisory lock of the message that
the transaction holds until it ends. Calls interleave step by step.
-/

namespace StonksPaper

/-! ## JSON objects -/

/-- A value that a handler returns. A finite `float` is its JSON text; `other` is anything that
JSON has no value for. -/
inductive Json where
  | null
  | bool (value : Bool)
  | int (value : ℤ)
  | float (text : String)
  | str (value : String)
  | list (items : List Json)
  | dict (entries : List (String × Json))
  | other

namespace Json

/-- The length of the escaped character in `json.dumps(..., ensure_ascii=False)`. -/
def charSize (c : Char) : ℕ :=
  if c = '"' ∨ c = '\\' ∨ c = '\n' ∨ c = '\r' ∨ c = '\t' ∨ c.val = 8 ∨ c.val = 12 then 2
  else if c.val < 32 then 6
  else c.utf8Size

def strSize (value : String) : ℕ := 2 + (value.toList.map charSize).sum

/-- The separators and the brackets around `n` items. -/
def bracketSize (n : ℕ) : ℕ := 2 + (n - 1)

mutual

/-- `len(json.dumps(value, ensure_ascii=False, separators=(",", ":")).encode())`. -/
def encodedSize : Json → ℕ
  | null => 4
  | bool true => 4
  | bool false => 5
  | int value => (toString value).length
  | float text => text.length
  | str value => strSize value
  | list items => bracketSize items.length + itemsSize items
  | dict entries => bracketSize entries.length + entriesSize entries
  | other => 0

def itemsSize : List Json → ℕ
  | [] => 0
  | item :: items => encodedSize item + itemsSize items

def entriesSize : List (String × Json) → ℕ
  | [] => 0
  | (key, item) :: entries => strSize key + 1 + encodedSize item + entriesSize entries

end

def maxDigits : ℕ := 4300

def maxInboxJsonBytes : ℕ := 64 * 1024

def maxInboxJsonDepth : ℕ := 8

mutual

/-- `_validate_json`, and that `json.dumps` can write the value. -/
def validJson (depth : ℕ) : Json → Bool
  | null => depth ≤ maxInboxJsonDepth
  | bool _ => depth ≤ maxInboxJsonDepth
  | int value => depth ≤ maxInboxJsonDepth ∧ value.natAbs < 10 ^ maxDigits
  | float _ => depth ≤ maxInboxJsonDepth
  | str _ => depth ≤ maxInboxJsonDepth
  | list items => depth ≤ maxInboxJsonDepth ∧ validItems (depth + 1) items
  | dict entries => depth ≤ maxInboxJsonDepth ∧ validEntries (depth + 1) entries
  | other => false

def validItems (depth : ℕ) : List Json → Bool
  | [] => true
  | item :: items => validJson depth item ∧ validItems depth items

def validEntries (depth : ℕ) : List (String × Json) → Bool
  | [] => true
  | (key, item) :: entries =>
      (key ≠ "" ∧ key.length ≤ 128) ∧ validJson depth item ∧ validEntries depth entries

end

/-- `_validate_json_object`. -/
def ValidObject : Json → Prop
  | dict entries => validJson 0 (dict entries) = true ∧ encodedSize (dict entries) ≤
      maxInboxJsonBytes
  | _ => False

instance : (value : Json) → Decidable value.ValidObject
  | dict _ => inferInstanceAs (Decidable (_ ∧ _))
  | null | bool _ | int _ | float _ | str _ | list _ | other => isFalse not_false

end Json

/-- A `jsonb` column: the values that it accepts, and what is read of them later. -/
class JsonbColumn where
  accepts : Json → Bool
  stored : Json → Json

/-! ## Messages and receipts -/

structure InboxMessage where
  consumer : String
  messageId : String
  payload : Payload
  receivedAt : UTCDateTime
  processedAt : UTCDateTime

structure InboxReceipt where
  consumer : String
  messageId : String
  payloadHash : Sha256
  duplicate : Bool
  processedAt : UTCDateTime
  result : Json

structure InboxRow where
  consumer : String
  messageId : String
  payloadHash : Sha256
  receivedAt : UTCDateTime
  processedAt : Option UTCDateTime
  result : Option Json

abbrev MessageKey := String × String

def InboxMessage.key (self : InboxMessage) : MessageKey := (self.consumer, self.messageId)

def InboxRow.key (self : InboxRow) : MessageKey := (self.consumer, self.messageId)

/-- The key of `_lock_message`. -/
def lockKey (key : MessageKey) : String := toString key.1.length ++ ":" ++ key.1 ++ key.2

section

variable [Hashing]

def InboxMessage.payloadHash (self : InboxMessage) : Sha256 := stablePayloadHash self.payload

/-- The receipt of a message whose handler has returned. -/
def InboxMessage.receipt (self : InboxMessage) (result : Json) : InboxReceipt where
  consumer := self.consumer
  messageId := self.messageId
  payloadHash := self.payloadHash
  duplicate := false
  processedAt := self.processedAt
  result := result

def InboxRow.existingReceipt (self : InboxRow) (message : InboxMessage) : QueueCall InboxReceipt :=
  if self.payloadHash ≠ message.payloadHash then
    .refused .conflict "Inbox message payload conflicts with prior receipt"
  else
    match self.processedAt, self.result with
    | some processedAt, some result =>
        if result.ValidObject then
          return {
            consumer := self.consumer
            messageId := self.messageId
            payloadHash := self.payloadHash
            duplicate := true
            processedAt := processedAt
            result := result }
        else .refused .conflict "Inbox receipt is invalid"
    | _, _ => .refused .conflict "Inbox receipt is incomplete"

variable [JsonbColumn]

/-- `_row`, as it is stored. -/
def InboxMessage.row (self : InboxMessage) (result : Json) : InboxRow where
  consumer := self.consumer
  messageId := self.messageId
  payloadHash := self.payloadHash
  receivedAt := self.receivedAt
  processedAt := some self.processedAt
  result := some (JsonbColumn.stored result)

end

/-! ## Calls -/

/-- What a handler does: it raises, or it returns a result and has written through the session. -/
inductive HandlerOutcome (ε : Type) where
  | raised
  | returned (result : Json) (effects : ε)

/-- Where a call of `consume` is. From `locked` on, its transaction holds the lock. -/
inductive ConsumePhase (ε : Type) where
  | locked
  | handling
  | flushed (result : Json) (effects : ε)
  | finished (answer : QueueCall InboxReceipt)

def ConsumePhase.Holds {ε : Type} : ConsumePhase ε → Prop
  | finished _ => False
  | _ => True

instance {ε : Type} : (phase : ConsumePhase ε) → Decidable phase.Holds
  | .finished _ => isFalse not_false
  | .locked | .handling | .flushed _ _ => isTrue trivial

structure ConsumeCall (ε : Type) where
  callId : ℕ
  message : InboxMessage
  phase : ConsumePhase ε

/-- The inbox, the effects that are committed for its messages, the calls, and the messages whose
handler has run. -/
structure Inbox (ε : Type) where
  rows : List InboxRow
  effects : List (MessageKey × ε)
  calls : List (ConsumeCall ε)
  handled : List MessageKey

def Inbox.opened (ε : Type) : Inbox ε := ⟨[], [], [], []⟩

inductive ConsumeAction (ε : Type) where
  /-- The transaction begins and takes the lock of the message. -/
  | lock (message : InboxMessage)
  /-- `session.get(InboxRow, ...)`. -/
  | look
  | handle (outcome : HandlerOutcome ε)
  | commit
  /-- A statement or the commit fails, and the transaction is rolled back. -/
  | abort

namespace Inbox

variable {ε : Type} (w : Inbox ε)

def row (key : MessageKey) : Option InboxRow := Table.get (·.key) w.rows key

def call (callId : ℕ) : Option (ConsumeCall ε) := Table.get (·.callId) w.calls callId

def goesTo (callId : ℕ) (phase : ConsumePhase ε) : Inbox ε :=
  { w with calls := Table.update (·.callId = callId) ({ · with phase := phase }) w.calls }

def failed (message : String) : QueueCall InboxReceipt := .refused .internalError message

/-- `hashtextextended` of two keys can be the same lock, which no two transactions hold. -/
def LockFree (lockHash : String → ℕ) (key : MessageKey) : Prop :=
  ∀ c ∈ w.calls, c.phase.Holds → lockHash (lockKey c.message.key) ≠ lockHash (lockKey key)

instance (lockHash : String → ℕ) (key : MessageKey) : Decidable (w.LockFree lockHash key) :=
  inferInstanceAs (Decidable (∀ _ ∈ _, _))

variable [Hashing] [JsonbColumn]

/-- The handler has returned: the receipt is validated and its row is flushed. -/
def flush (c : ConsumeCall ε) (result : Json) (effects : ε) : ConsumePhase ε :=
  if result.ValidObject ∧ JsonbColumn.accepts result = true ∧
      Table.Fresh (·.key) c.message.key w.rows then .flushed result effects
  else .finished (failed "Inbox processing failed")

/-- What a call does next. An action that does not fit its phase is not taken. -/
def act (lockHash : String → ℕ) (callId : ℕ) : ConsumeAction ε → Inbox ε
  | .lock message =>
      if w.LockFree lockHash message.key ∧ w.call callId = none then
        { w with calls := w.calls ++ [⟨callId, message, .locked⟩] }
      else w
  | .look =>
      match w.call callId with
      | some ⟨_, message, .locked⟩ =>
          match w.row message.key with
          | some row => w.goesTo callId (.finished (row.existingReceipt message))
          | none => w.goesTo callId .handling
      | _ => w
  | .handle outcome =>
      match w.call callId with
      | some c@⟨_, message, .handling⟩ =>
          let ran := { w with handled := w.handled ++ [message.key] }
          match outcome with
          | .raised => ran.goesTo callId (.finished (failed "Inbox handler failed"))
          | .returned result effects => ran.goesTo callId (w.flush c result effects)
      | _ => w
  | .commit =>
      match w.call callId with
      | some ⟨_, message, .flushed result effects⟩ =>
          { w with
            rows := w.rows ++ [message.row result]
            effects := w.effects ++ [(message.key, effects)] }.goesTo callId
              (.finished (.success (message.receipt result)))
      | _ => w
  | .abort =>
      match w.call callId with
      | some ⟨_, _, .finished _⟩ => w
      | _ => w.goesTo callId (.finished (failed "Inbox processing failed"))

abbrev CallAction (ε : Type) := ℕ × ConsumeAction ε

def step (lockHash : String → ℕ) (w : Inbox ε) (a : CallAction ε) : Inbox ε :=
  w.act lockHash a.1 a.2

def reached (lockHash : String → ℕ) (actions : List (CallAction ε)) : Inbox ε :=
  Run.run (step lockHash) (opened ε) actions

end Inbox

end StonksPaper
