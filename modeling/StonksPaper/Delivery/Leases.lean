import StonksPaper.Delivery.Outbox

/-!
# Leases of messages

What the workers were told decides what the rows of the outbox say: the leases of a message are
counted by its generations, and a lease that has neither expired nor been given up is the latest of
its message. A published message keeps its row.
-/

namespace StonksPaper

open Chain

section

variable {history events : List DeliveryEvent} {clock clock' now : UTCDateTime}
  {row row' : DeliveryRow} {lease : OutboxLease} {fence : OutboxFence} {s s' : Outbox}

/-! ## Histories -/

/-- The message that an event is about. -/
def DeliveryEvent.outboxId : DeliveryEvent → UUID
  | .leased lease => lease.outboxId
  | .acknowledged receipt => receipt.outboxId
  | .returned fence => fence.outboxId

def DeliveryEvent.lease? : DeliveryEvent → Option OutboxLease
  | .leased lease => some lease
  | _ => none

/-- The fence of a lease that an event gives up. -/
def DeliveryEvent.givenUp? : DeliveryEvent → Option OutboxFence
  | .leased _ => none
  | .acknowledged receipt => some receipt.fence
  | .returned fence => some fence

def messageLeases (outboxId : UUID) (history : List DeliveryEvent) : List OutboxLease :=
  (history.filterMap (·.lease?)).filter (·.outboxId = outboxId)

def GivenUp (history : List DeliveryEvent) (fence : OutboxFence) : Prop :=
  ∃ event ∈ history, event.givenUp? = some fence

def LiveLease (history : List DeliveryEvent) (lease : OutboxLease) (now : UTCDateTime) : Prop :=
  .leased lease ∈ history ∧ ¬ GivenUp history lease.fence ∧ now < lease.leaseUntil

theorem mem_messageLeases {outboxId : UUID} :
    lease ∈ messageLeases outboxId history ↔
      .leased lease ∈ history ∧ lease.outboxId = outboxId := by
  rw [messageLeases, List.mem_filter, List.mem_filterMap, decide_eq_true_iff]
  refine and_congr_left fun _ => ⟨fun h => ?_, fun h => ⟨_, h, rfl⟩⟩
  obtain ⟨event, hevent, hlease⟩ := h
  cases event with
  | leased found => exact Option.some.inj hlease ▸ hevent
  | acknowledged receipt => cases hlease
  | returned fence => cases hlease

theorem messageLeases_append (outboxId : UUID) (history events : List DeliveryEvent) :
    messageLeases outboxId (history ++ events) =
      messageLeases outboxId history ++ messageLeases outboxId events := by
  simp [messageLeases]

theorem messageLeases_of_other {outboxId : UUID}
    (h : ∀ lease, .leased lease ∈ events → lease.outboxId ≠ outboxId) :
    messageLeases outboxId events = [] := by
  rw [List.eq_nil_iff_forall_not_mem]
  intro lease hlease
  obtain ⟨hmem, hid⟩ := mem_messageLeases.mp hlease
  exact h lease hmem hid

theorem GivenUp.append (h : GivenUp history fence) (events : List DeliveryEvent) :
    GivenUp (history ++ events) fence := by
  obtain ⟨event, hevent, hgiven⟩ := h
  exact ⟨event, List.mem_append_left _ hevent, hgiven⟩

theorem givenUp_append : GivenUp (history ++ events) fence ↔
    GivenUp history fence ∨ GivenUp events fence := by
  simp only [GivenUp, List.mem_append, or_and_right, exists_or]

theorem outboxId_of_givenUp {event : DeliveryEvent} (h : event.givenUp? = some fence) :
    event.outboxId = fence.outboxId := by
  cases event with
  | leased lease => cases h
  | acknowledged receipt => exact congrArg OutboxFence.outboxId (Option.some.inj h)
  | returned found => exact congrArg OutboxFence.outboxId (Option.some.inj h)

/-! ## Rows -/

theorem outboxLease_fields (h : row.lease = .success lease) :
    row.leaseOwner = some lease.leaseOwner ∧ row.leaseUntil = some lease.leaseUntil ∧
      row.leaseNonce = some lease.leaseNonce ∧ lease.outboxId = row.outboxId ∧
      lease.leaseGeneration = row.leaseGeneration := by
  unfold DeliveryRow.lease at h
  split at h
  · rename_i howner huntil hnonce
    simp only [Attempt.bind_eq_success, Attempt.pure_eq, Attempt.success.injEq] at h
    obtain ⟨_, -, _, -, _, -, rfl⟩ := h
    exact ⟨howner, huntil, hnonce, rfl, rfl⟩
  · cases h

/-- How a row stands to what the workers were told. -/
structure RowFenced (history : List DeliveryEvent) (clock : UTCDateTime) (row : DeliveryRow) :
    Prop where
  generation : row.leaseGeneration = row.attempts
  bounded : row.attempts ≤ row.maxAttempts
  counted : (messageLeases row.outboxId history).length = row.leaseGeneration
  held : ∀ worker ∈ row.leaseOwner, ∀ nonce ∈ row.leaseNonce,
    ∃ lease ∈ (messageLeases row.outboxId history).getLast?,
      lease.fence = ⟨row.outboxId, worker, row.leaseGeneration, nonce⟩
  running : ∀ leaseUntil ∈ row.leaseUntil,
    ∃ lease ∈ (messageLeases row.outboxId history).getLast?,
      lease.leaseUntil = leaseUntil ∧ ¬ GivenUp history lease.fence
  ended : ∀ lease ∈ messageLeases row.outboxId history,
    (row.leaseUntil = some lease.leaseUntil ∧
      (messageLeases row.outboxId history).getLast? = some lease) ∨
    GivenUp history lease.fence ∨ lease.leaseUntil ≤ clock
  spent : ∀ fence, GivenUp history fence → fence.outboxId = row.outboxId →
    fence.leaseGeneration ≤ row.leaseGeneration
  closed : row.publishedAt ≠ none → row.leaseUntil = none
  published : ∀ publishedAt ∈ row.publishedAt, ∃ receipt, .acknowledged receipt ∈ history ∧
    receipt.outboxId = row.outboxId ∧ receipt.publishedAt = publishedAt ∧
    row.MatchesFence receipt.fence
  acknowledged : ∀ receipt, .acknowledged receipt ∈ history → receipt.outboxId = row.outboxId →
    row.publishedAt = some receipt.publishedAt ∧ row.MatchesFence receipt.fence

/-- A row does not depend on what is told of other messages, nor on a later time. -/
theorem RowFenced.frame (h : RowFenced history clock row) (hclock : clock ≤ clock')
    (hother : ∀ event ∈ events, event.outboxId ≠ row.outboxId) :
    RowFenced (history ++ events) clock' row := by
  have hleases : messageLeases row.outboxId (history ++ events) =
      messageLeases row.outboxId history := by
    rw [messageLeases_append, messageLeases_of_other fun lease hlease => hother _ hlease,
      List.append_nil]
  have hgiven : ∀ fence : OutboxFence, fence.outboxId = row.outboxId →
      (GivenUp (history ++ events) fence ↔ GivenUp history fence) := by
    intro fence hid
    rw [givenUp_append, or_iff_left]
    intro hnew
    obtain ⟨event, hevent, hfence⟩ := hnew
    exact hother event hevent ((outboxId_of_givenUp hfence).trans hid)
  have hmine {lease : OutboxLease} (hlease : lease ∈ messageLeases row.outboxId history) :
      lease.fence.outboxId = row.outboxId := (mem_messageLeases.mp hlease).2
  have hold {receipt : OutboxAckReceipt} (hreceipt : .acknowledged receipt ∈ history ++ events)
      (hid : receipt.outboxId = row.outboxId) : .acknowledged receipt ∈ history :=
    (List.mem_append.mp hreceipt).resolve_right fun hnew =>
      hother (.acknowledged receipt) hnew hid
  refine ⟨h.generation, h.bounded, hleases ▸ h.counted, hleases ▸ h.held, ?_, ?_, ?_, h.closed, ?_,
    ?_⟩
  · rw [hleases]
    intro leaseUntil huntil
    obtain ⟨lease, hlast, hsame, hnot⟩ := h.running leaseUntil huntil
    refine ⟨lease, hlast, hsame, fun hnew => hnot ?_⟩
    exact (hgiven _ (hmine (List.mem_of_getLast? hlast))).mp hnew
  · rw [hleases]
    intro lease hlease
    exact (h.ended lease hlease).imp id (Or.imp (·.append events) (·.trans hclock))
  · intro fence hfence hid
    exact h.spent fence ((hgiven fence hid).mp hfence) hid
  · intro publishedAt hpublished
    obtain ⟨receipt, hreceipt, hrest⟩ := h.published publishedAt hpublished
    exact ⟨receipt, List.mem_append_left _ hreceipt, hrest⟩
  · intro receipt hreceipt hid
    exact h.acknowledged receipt (hold hreceipt hid) hid

theorem RowFenced.fence_eq (h : RowFenced history clock row) (hmatches : row.MatchesFence fence)
    (hid : fence.outboxId = row.outboxId) :
    ∃ lease ∈ (messageLeases row.outboxId history).getLast?, lease.fence = fence := by
  obtain ⟨howner, hgeneration, hnonce⟩ := hmatches
  obtain ⟨lease, hlast, hlease⟩ := h.held fence.workerId howner fence.leaseNonce hnonce
  refine ⟨lease, hlast, hlease.trans ?_⟩
  rw [← hid, hgeneration]

theorem RowFenced.live (h : RowFenced history clock row) (hlive : row.LeaseLive now)
    (hmatches : row.MatchesFence fence) (hid : fence.outboxId = row.outboxId) :
    ∃ lease ∈ (messageLeases row.outboxId history).getLast?, lease.fence = fence ∧
      LiveLease history lease now := by
  obtain ⟨leaseUntil, huntil, hbefore⟩ := hlive
  obtain ⟨lease, hlast, hfence⟩ := h.fence_eq hmatches hid
  obtain ⟨lease', hlast', hsame, hnot⟩ := h.running leaseUntil huntil
  obtain rfl := Option.some.inj (hlast.symm.trans hlast')
  refine ⟨lease, hlast, hfence, ?_, hnot, hsame ▸ hbefore⟩
  exact (mem_messageLeases.mp (List.mem_of_getLast? hlast)).1

/-! ## Steps of one row -/

/-- The row after a claim has selected it. -/
theorem RowFenced.leased (h : RowFenced history clock row) (hclock : clock ≤ now)
    (hdeliverable : row.Deliverable now) {request : ClaimMessages}
    (hlease : (row.leased request now).lease = .success lease)
    (hevents : messageLeases row.outboxId events = [lease])
    (hgranted : ∀ event ∈ events, event.givenUp? = none) :
    RowFenced (history ++ events) now (row.leased request now) := by
  obtain ⟨howner, huntil, hnonce, hid, hgeneration⟩ := outboxLease_fields hlease
  obtain ⟨hunpublished, -, hattempts, hexpired⟩ := hdeliverable
  have hleases : messageLeases row.outboxId (history ++ events) =
      messageLeases row.outboxId history ++ [lease] := by rw [messageLeases_append, hevents]
  have hgiven : ∀ fence, GivenUp (history ++ events) fence ↔ GivenUp history fence := by
    intro fence
    rw [givenUp_append, or_iff_left]
    intro hnew
    obtain ⟨event, hevent, hfence⟩ := hnew
    rw [hgranted event hevent] at hfence
    cases hfence
  have hunacknowledged : ∀ receipt, .acknowledged receipt ∈ history ++ events →
      receipt.outboxId ≠ row.outboxId := by
    intro receipt hreceipt hreceiptId
    rcases List.mem_append.mp hreceipt with hold | hnew
    · have hpublished := (h.acknowledged receipt hold hreceiptId).1
      rw [hunpublished] at hpublished
      cases hpublished
    · cases hgranted _ hnew
  constructor
  · exact congrArg (· + 1) h.generation
  · exact Nat.succ_le_of_lt hattempts
  · show (messageLeases row.outboxId (history ++ events)).length = row.leaseGeneration + 1
    rw [hleases, List.length_append, List.length_singleton, h.counted]
  · intro worker hworker nonce hnonce'
    refine ⟨lease, ?_, ?_⟩
    · show (messageLeases row.outboxId (history ++ events)).getLast? = some lease
      rw [hleases, List.getLast?_concat]
    · obtain rfl := Option.some.inj (howner.symm.trans hworker)
      obtain rfl := Option.some.inj (hnonce.symm.trans hnonce')
      show OutboxFence.mk lease.outboxId _ lease.leaseGeneration _ = _
      rw [hid, hgeneration]
  · intro leaseUntil huntil'
    refine ⟨lease, ?_, Option.some.inj (huntil.symm.trans huntil'), fun hold => ?_⟩
    · show (messageLeases row.outboxId (history ++ events)).getLast? = some lease
      rw [hleases, List.getLast?_concat]
    · -- no fence of this generation was given up
      have hle : lease.leaseGeneration ≤ row.leaseGeneration :=
        h.spent lease.fence ((hgiven _).mp hold) hid
      have hlater : lease.leaseGeneration = row.leaseGeneration + 1 := hgeneration
      omega
  · intro granted hmem
    have hmem : granted ∈ messageLeases row.outboxId history ++ [lease] := hleases ▸ hmem
    rcases List.mem_append.mp hmem with hold | hnew
    · refine .inr ((h.ended granted hold).elim (fun hcurrent => .inr ?_)
        (Or.imp (·.append events) (·.trans hclock)))
      exact hexpired granted.leaseUntil hcurrent.1
    · obtain rfl := List.mem_singleton.mp hnew
      refine .inl ⟨huntil, ?_⟩
      show (messageLeases row.outboxId (history ++ events)).getLast? = some granted
      rw [hleases, List.getLast?_concat]
  · intro fence hfence hfenceId
    exact (h.spent fence ((hgiven fence).mp hfence) hfenceId).trans (Nat.le_succ _)
  · exact fun hpublished => absurd hunpublished hpublished
  · intro publishedAt hpublished
    have hpublished : row.publishedAt = some publishedAt := hpublished
    rw [hunpublished] at hpublished
    cases hpublished
  · intro receipt hreceipt hreceiptId
    exact absurd hreceiptId (hunacknowledged receipt hreceipt)

variable (history) in
theorem messageLeases_concat {event : DeliveryEvent} (hevent : event.lease? = none)
    (outboxId : UUID) :
    messageLeases outboxId (history ++ [event]) = messageLeases outboxId history := by
  rw [messageLeases_append]
  simp [messageLeases, hevent]

/-- The row after its lease is given up: it has no running lease any more. -/
theorem RowFenced.givenUp (h : RowFenced history clock row) (hclock : clock ≤ now)
    (hmatches : row.MatchesFence fence) (hid : fence.outboxId = row.outboxId)
    {event : DeliveryEvent} (hevent : event.givenUp? = some fence) (hlease : event.lease? = none)
    (hrow : row'.outboxId = row.outboxId ∧ row'.leaseGeneration = row.leaseGeneration ∧
      row'.attempts = row.attempts ∧ row'.maxAttempts = row.maxAttempts ∧ row'.leaseUntil = none)
    (howner : ∀ worker ∈ row'.leaseOwner, worker ∈ row.leaseOwner)
    (hnonce : ∀ nonce ∈ row'.leaseNonce, nonce ∈ row.leaseNonce)
    (hpublished : ∀ publishedAt ∈ row'.publishedAt, ∃ receipt,
      .acknowledged receipt ∈ history ++ [event] ∧ receipt.outboxId = row'.outboxId ∧
        receipt.publishedAt = publishedAt ∧ row'.MatchesFence receipt.fence)
    (hacknowledged : ∀ receipt, .acknowledged receipt ∈ history ++ [event] →
      receipt.outboxId = row'.outboxId →
        row'.publishedAt = some receipt.publishedAt ∧ row'.MatchesFence receipt.fence) :
    RowFenced (history ++ [event]) now row' := by
  obtain ⟨hrowId, hgeneration, hattempts, hmax, huntil⟩ := hrow
  have hleases := messageLeases_concat history hlease row'.outboxId
  have hnew : GivenUp (history ++ [event]) fence :=
    ⟨event, List.mem_append_right _ (List.mem_singleton_self _), hevent⟩
  refine ⟨?_, ?_, ?_, ?_, ?_, ?_, ?_, fun _ => huntil, hpublished, hacknowledged⟩
  · rw [hgeneration, hattempts, h.generation]
  · rw [hattempts, hmax]
    exact h.bounded
  · rw [hleases, hrowId, hgeneration, h.counted]
  · rw [hleases, hrowId, hgeneration]
    intro worker hworker nonce hnonce'
    exact h.held worker (howner worker hworker) nonce (hnonce nonce hnonce')
  · rw [huntil]
    intro leaseUntil hnone
    cases hnone
  · rw [hleases, hrowId]
    intro granted hmem
    refine .inr ?_
    rcases h.ended granted hmem with ⟨-, hlast⟩ | hgiven | hexpired
    · obtain ⟨lease, hlast', hfence⟩ := h.fence_eq hmatches hid
      obtain rfl := Option.some.inj (hlast.symm.trans hlast')
      exact .inl (hfence ▸ hnew)
    · exact .inl (hgiven.append [event])
    · exact .inr (hexpired.trans hclock)
  · rw [hrowId, hgeneration]
    intro found hfound hfoundId
    rcases givenUp_append.mp hfound with hold | hcurrent
    · exact h.spent found hold hfoundId
    · obtain ⟨event', hevent', hfence⟩ := hcurrent
      rw [List.mem_singleton.mp hevent', hevent] at hfence
      obtain rfl := Option.some.inj hfence
      exact hmatches.2.1.symm.le

theorem mem_concat_acknowledged {receipt found : OutboxAckReceipt} :
    DeliveryEvent.acknowledged found ∈ history ++ [.acknowledged receipt] ↔
      .acknowledged found ∈ history ∨ found = receipt := by
  simp

theorem RowFenced.repeated (h : RowFenced history clock row) (hclock : clock ≤ now)
    {receipt : OutboxAckReceipt} (hid : receipt.outboxId = row.outboxId)
    (hpublished : row.publishedAt = some receipt.publishedAt)
    (hmatches : row.MatchesFence receipt.fence) :
    RowFenced (history ++ [.acknowledged receipt]) now row := by
  have hclosed : row.leaseUntil = none := h.closed (hpublished ▸ Option.some_ne_none _)
  refine h.givenUp hclock hmatches hid rfl rfl ⟨rfl, rfl, rfl, rfl, hclosed⟩ (fun _ => id)
    (fun _ => id) (fun publishedAt hsome => ?_) fun found hfound hfoundId => ?_
  · refine ⟨receipt, mem_concat_acknowledged.mpr (.inr rfl), hid, ?_, hmatches⟩
    exact Option.some.inj (hpublished.symm.trans hsome)
  · rcases mem_concat_acknowledged.mp hfound with hold | rfl
    · exact h.acknowledged found hold hfoundId
    · exact ⟨hpublished, hmatches⟩

theorem RowFenced.acknowledge (h : RowFenced history clock row) (hclock : clock ≤ now)
    (hunpublished : row.publishedAt = none) (hmatches : row.MatchesFence fence)
    (hid : fence.outboxId = row.outboxId) :
    RowFenced (history ++ [.acknowledged (Outbox.receipt fence now)]) now
      { row with publishedAt := some now, leaseUntil := none } := by
  refine h.givenUp hclock hmatches hid rfl rfl ⟨rfl, rfl, rfl, rfl, rfl⟩ (fun _ => id)
    (fun _ => id) (fun publishedAt hsome => ?_) fun found hfound hfoundId => ?_
  · exact ⟨_, mem_concat_acknowledged.mpr (.inr rfl), hid, Option.some.inj hsome, hmatches⟩
  · rcases mem_concat_acknowledged.mp hfound with hold | rfl
    · have hpublished := (h.acknowledged found hold hfoundId).1
      rw [hunpublished] at hpublished
      cases hpublished
    · exact ⟨rfl, hmatches⟩

/-- The row of a message that is given back. -/
theorem RowFenced.giveBack (h : RowFenced history clock row) (hclock : clock ≤ now)
    (hunpublished : row.publishedAt = none) (hmatches : row.MatchesFence fence)
    (hid : fence.outboxId = row.outboxId) (retryAt : UTCDateTime) (lastError : Option Payload) :
    RowFenced (history ++ [.returned fence]) now { row with
      notBefore := retryAt
      leaseOwner := none
      leaseUntil := none
      leaseNonce := none
      lastError := lastError } := by
  refine h.givenUp hclock hmatches hid rfl rfl ⟨rfl, rfl, rfl, rfl, rfl⟩ (fun _ hnone =>
    by cases hnone)
    (fun _ hnone => by cases hnone) (fun publishedAt hsome => ?_) fun found hfound hfoundId => ?_
  · have hsome : row.publishedAt = some publishedAt := hsome
    rw [hunpublished] at hsome
    cases hsome
  · rcases List.mem_append.mp hfound with hold | hnew
    · have hpublished := (h.acknowledged found hold hfoundId).1
      rw [hunpublished] at hpublished
      cases hpublished
    · cases List.mem_singleton.mp hnew

/-! ## Steps of the outbox -/

/-- The invariant of the delivery. -/
structure Delivery.Fenced (d : Delivery) : Prop where
  unique : Table.Unique (·.outboxId) d.outbox
  known : ∀ event ∈ d.history, ∃ row ∈ d.outbox, row.outboxId = event.outboxId
  valid : ∀ receipt, .acknowledged receipt ∈ d.history → Outbox.ValidFence receipt.fence
  rows : ∀ row ∈ d.outbox, RowFenced d.history d.clock row

theorem Delivery.fenced_opened (clock : UTCDateTime) : (Delivery.opened clock).Fenced := by
  constructor
  · exact Table.unique_nil
  all_goals
    intro _ h
    cases h

abbrev Keeps (s : Outbox) (history : List DeliveryEvent) (clock : UTCDateTime) : Prop :=
  Delivery.Fenced ⟨s, history, clock⟩

theorem Keeps.later (h : Keeps s history clock) (hclock : clock ≤ now) : Keeps s history now where
  unique := h.unique
  known := h.known
  valid := h.valid
  rows := fun row hrow => by
    have hrest : RowFenced (history ++ []) now row :=
      (h.rows row hrow).frame hclock fun _ hnone => by cases hnone
    simpa using hrest

theorem mem_message {outboxId : UUID} (h : s.message outboxId = some row) :
    row ∈ s ∧ row.outboxId = outboxId := by
  have hkey := Table.key_of_get h
  exact ⟨Table.mem_of_get h, hkey⟩

theorem Keeps.post (h : Keeps s history clock) (hclock : clock ≤ now) {message : OutboxRow}
    {maxAttempts : ℕ} (hpost : s.post message maxAttempts = .success s') :
    Keeps s' history now := by
  have hlater := h.later hclock
  simp only [Outbox.post, Attempt.bind_eq_success, QueueCall.constraint_eq_success,
    Attempt.pure_eq, Attempt.success.injEq, exists_const] at hpost
  obtain ⟨⟨hfresh, -, -, hmax⟩, rfl⟩ := hpost
  -- nothing was told of a message that did not exist
  have hunknown : ∀ event ∈ history, event.outboxId ≠ message.outboxId := by
    intro event hevent hid
    obtain ⟨row, hrow, hrowId⟩ := h.known event hevent
    exact hfresh row hrow (hrowId.trans hid)
  constructor
  · exact h.unique.concat hfresh
  · intro event hevent
    obtain ⟨row, hrow, hid⟩ := h.known event hevent
    exact ⟨row, List.mem_append_left _ hrow, hid⟩
  · exact h.valid
  · intro row hrow
    rcases List.mem_append.mp hrow with hrow | hrow
    · exact hlater.rows row hrow
    · obtain rfl := List.mem_singleton.mp hrow
      have hleases : messageLeases message.outboxId history = [] :=
        messageLeases_of_other fun lease hlease => hunknown _ hlease
      constructor
      · rfl
      · exact Nat.zero_le _
      · exact congrArg List.length hleases
      · intro _ hnone
        cases hnone
      · intro _ hnone
        cases hnone
      · intro lease hlease
        rw [show messageLeases (message.posted maxAttempts).outboxId history = [] from hleases]
          at hlease
        cases hlease
      · intro fence hfence hid
        obtain ⟨event, hevent, hgiven⟩ := hfence
        exact absurd ((outboxId_of_givenUp hgiven).trans hid) (hunknown event hevent)
      · exact fun hpublished => absurd rfl hpublished
      · intro _ hnone
        cases hnone
      · intro receipt hreceipt hid
        exact absurd hid (hunknown _ hreceipt)

namespace Outbox

def published (row : DeliveryRow) (now : UTCDateTime) : DeliveryRow :=
  { row with publishedAt := some now, leaseUntil := none }

theorem ack_eq_success {receipt : OutboxAckReceipt} :
    s.ack fence now = .success (receipt, s') ↔ ValidFence fence ∧
      ∃ row, s.message fence.outboxId = some row ∧ row.MatchesFence fence ∧
        ((∃ publishedAt, row.publishedAt = some publishedAt ∧
            receipt = Outbox.receipt fence publishedAt ∧ s' = s) ∨
          row.publishedAt = none ∧ row.LeaseLive now ∧ receipt = Outbox.receipt fence now ∧
            s' = Table.update (·.outboxId = row.outboxId) (published · now) s) := by
  unfold ack
  simp only [Attempt.bind_eq_success, QueueCall.accepted_eq_success,
    QueueCall.orRefused_eq_success, exists_const]
  refine and_congr_right fun _ => exists_congr fun row => and_congr_right fun _ => ?_
  unfold ackLocked
  cases row.publishedAt with
  | none =>
      simp only [Attempt.bind_eq_success, QueueCall.accepted_eq_success, Attempt.pure_eq,
        Attempt.success.injEq, Prod.mk.injEq, exists_const, reduceCtorEq, false_and, false_or,
        true_and, eq_comm (b := receipt), eq_comm (b := s')]
      tauto
  | some publishedAt =>
      simp only [Attempt.bind_eq_success, QueueCall.accepted_eq_success, Attempt.pure_eq,
        Attempt.success.injEq, Prod.mk.injEq, exists_const, reduceCtorEq, false_and, or_false,
        Option.some.injEq, exists_eq_left', eq_comm (b := receipt), eq_comm (b := s')]

/-- The row that is given back. -/
def returned [JsonColumn] (row : DeliveryRow) (request : NackMessage) : DeliveryRow :=
  { row with
    notBefore := request.retryAt
    leaseOwner := none
    leaseUntil := none
    leaseNonce := none
    lastError := some (stored (retryError request.errorCode)) }

theorem nack_eq_success [JsonColumn] {request : NackMessage} {done : Bool}
    (h : s.nack request now = .success (done, s')) :
    ∃ row, s.message request.fence.outboxId = some row ∧ row.MatchesFence request.fence ∧
      row.publishedAt = none ∧ row.LeaseLive now ∧
      s' = Table.update (·.outboxId = row.outboxId) (returned · request) s := by
  simp only [nack, nackLocked, Attempt.bind_eq_success, QueueCall.accepted_eq_success,
    QueueCall.orRefused_eq_success, Queue.scanned_eq_success, Attempt.pure_eq,
    Attempt.success.injEq, Prod.mk.injEq] at h
  obtain ⟨_, -, row, hrow, _, -, _, ⟨hunpublished, hmatches, hlive⟩, _, -, -, rfl⟩ := h
  exact ⟨row, hrow, hmatches, hunpublished, hlive, rfl⟩

theorem claim_eq_success {request : ClaimMessages} {locked : List UUID}
    {leases : List OutboxLease} (h : s.claim request locked now = .success (leases, s')) :
    ∃ rows, rows = s.deliverable locked request.limit.toNat now ∧
      List.Forall₂ (fun row lease => (row.leased request now).lease = .success lease)
        rows leases ∧
      s' = Table.update (·.outboxId ∈ rows.map (·.outboxId)) (·.leased request now) s := by
  simp only [claim, Attempt.bind_eq_success, QueueCall.accepted_eq_success, Attempt.pure_eq,
    Attempt.mapM_eq_success, Attempt.success.injEq, Prod.mk.injEq] at h
  obtain ⟨_, -, _, -, granted, hgranted, rfl, rfl⟩ := h
  exact ⟨_, rfl, hgranted, rfl⟩

theorem mem_deliverable {locked : List UUID} {limit : ℕ}
    (h : row ∈ s.deliverable locked limit now) :
    row ∈ s ∧ row.Deliverable now := by
  have hsorted := mem_sorted.mp (List.mem_of_mem_take h)
  rw [List.mem_filter] at hsorted
  exact ⟨hsorted.1, (of_decide_eq_true hsorted.2).1⟩

theorem unique_deliverable (hunique : Table.Unique (·.outboxId) s) (locked : List UUID) (limit : ℕ)
    (now : UTCDateTime) : Table.Unique (·.outboxId) (s.deliverable locked limit now) := by
  have hfiltered := hunique.filter fun row => decide (row.Deliverable now ∧ row.outboxId ∉ locked)
  have hsorted := (sorted_perm
    (fun row : DeliveryRow => toLex (row.notBefore, toLex (row.createdAt, row.outboxId)))
    (s.filter fun row => row.Deliverable now ∧ row.outboxId ∉ locked)).map (·.outboxId)
  exact (hsorted.nodup_iff.mpr hfiltered).sublist ((List.take_sublist _ _).map _)

end Outbox

/-- One row is replaced and one event is told, which is about it. -/
theorem Keeps.replace (h : Keeps s history clock) (hclock : clock ≤ now) (hrow : row ∈ s)
    (event : DeliveryEvent) (hevent : event.outboxId = row.outboxId)
    (f : DeliveryRow → DeliveryRow) (hid : ∀ r, (f r).outboxId = r.outboxId)
    (hvalid : ∀ receipt, event = .acknowledged receipt → Outbox.ValidFence receipt.fence)
    (hnew : RowFenced (history ++ [event]) now (f row)) :
    Keeps (Table.update (·.outboxId = row.outboxId) f s) (history ++ [event]) now := by
  have hstays {outboxId : UUID} (hold : ∃ r ∈ s, r.outboxId = outboxId) :
      ∃ r ∈ Table.update (·.outboxId = row.outboxId) f s, r.outboxId = outboxId :=
    Table.exists_mem_update (fun r _ _ hr => (hid r).trans hr) hold
  constructor
  · exact h.unique.update fun r _ => hid r
  · intro told htold
    rcases List.mem_append.mp htold with htold | htold
    · exact hstays (h.known told htold)
    · rw [List.mem_singleton.mp htold]
      exact hstays ⟨row, hrow, hevent.symm⟩
  · intro receipt hreceipt
    rcases List.mem_append.mp hreceipt with hreceipt | hreceipt
    · exact h.valid receipt hreceipt
    · exact hvalid receipt (List.mem_singleton.mp hreceipt).symm
  · refine Table.forall_mem_update (fun r hr hne => ?_) fun r hr hsame => ?_
    · refine (h.rows r hr).frame hclock fun told htold heq => hne ?_
      rw [List.mem_singleton.mp htold] at heq
      exact heq.symm.trans hevent
    · rw [h.unique.eq hr hrow hsame]
      exact hnew

theorem Keeps.ack (h : Keeps s history clock) (hclock : clock ≤ now) {receipt : OutboxAckReceipt}
    (hack : s.ack fence now = .success (receipt, s')) :
    Keeps s' (history ++ [.acknowledged receipt]) now := by
  obtain ⟨hvalid, row, hread, hmatches, hcases⟩ := Outbox.ack_eq_success.mp hack
  obtain ⟨hrow, hid⟩ := mem_message hread
  have hfence (publishedAt : UTCDateTime) : ∀ found,
      DeliveryEvent.acknowledged (Outbox.receipt fence publishedAt) = .acknowledged found →
        Outbox.ValidFence found.fence := by
    intro found heq
    rw [← DeliveryEvent.acknowledged.inj heq]
    exact hvalid
  rcases hcases with ⟨publishedAt, hpublished, rfl, rfl⟩ | ⟨hunpublished, -, rfl, rfl⟩
  · have hrepeat := h.replace hclock hrow (.acknowledged (Outbox.receipt fence publishedAt))
      hid.symm id (fun _ => rfl) (hfence publishedAt)
      ((h.rows row hrow).repeated hclock hid.symm hpublished hmatches)
    have hsame : Table.update (fun r : DeliveryRow => r.outboxId = row.outboxId) id s' = s' :=
      Table.update_of_fixed fun _ _ _ => rfl
    exact hsame ▸ hrepeat
  · exact h.replace hclock hrow (.acknowledged (Outbox.receipt fence now)) hid.symm _
      (fun _ => rfl) (hfence now)
      ((h.rows row hrow).acknowledge hclock hunpublished hmatches hid.symm)

theorem Keeps.nack [JsonColumn] (h : Keeps s history clock) (hclock : clock ≤ now)
    {request : NackMessage} {done : Bool} (hnack : s.nack request now = .success (done, s')) :
    Keeps s' (history ++ [.returned request.fence]) now := by
  obtain ⟨row, hread, hmatches, hunpublished, -, rfl⟩ := Outbox.nack_eq_success hnack
  obtain ⟨hrow, hid⟩ := mem_message hread
  refine h.replace hclock hrow (.returned request.fence) hid.symm _ (fun _ => rfl)
    (fun found heq => by cases heq) ?_
  exact (h.rows row hrow).giveBack hclock hunpublished hmatches hid.symm _ _

theorem messageLeases_leased (outboxId : UUID) (leases : List OutboxLease) :
    messageLeases outboxId (leases.map .leased) = leases.filter (·.outboxId = outboxId) := by
  rw [messageLeases, List.filterMap_map]
  exact congrArg _ (List.filterMap_some)

theorem outboxIds_of_granted {request : ClaimMessages} {rows : List DeliveryRow}
    {leases : List OutboxLease} (h : List.Forall₂
      (fun row lease => (row.leased request now).lease = .success lease) rows leases) :
    leases.map (·.outboxId) = rows.map (·.outboxId) := by
  induction h with
  | nil => rfl
  | cons hlease _ ih =>
      rw [List.map_cons, List.map_cons, ih, (outboxLease_fields hlease).2.2.2.1]
      rfl

theorem granted_of_mem {request : ClaimMessages} {rows : List DeliveryRow}
    {leases : List OutboxLease} (h : List.Forall₂
      (fun row lease => (row.leased request now).lease = .success lease) rows leases)
    (hrow : row ∈ rows) : ∃ lease ∈ leases, (row.leased request now).lease = .success lease := by
  induction h with
  | nil => cases hrow
  | cons hlease _ ih =>
      rcases List.mem_cons.mp hrow with rfl | hrow
      · exact ⟨_, List.mem_cons_self .., hlease⟩
      · obtain ⟨lease, hmem, hgranted⟩ := ih hrow
        exact ⟨lease, List.mem_cons_of_mem _ hmem, hgranted⟩

theorem Keeps.claim (h : Keeps s history clock) (hclock : clock ≤ now) {request : ClaimMessages}
    {locked : List UUID} {leases : List OutboxLease}
    (hclaim : s.claim request locked now = .success (leases, s')) :
    Keeps s' (history ++ leases.map .leased) now := by
  obtain ⟨rows, hrows, hgranted, rfl⟩ := Outbox.claim_eq_success hclaim
  have hunique : Table.Unique (·.outboxId) rows :=
    hrows ▸ Outbox.unique_deliverable h.unique locked request.limit.toNat now
  have hselected : ∀ row ∈ rows, row ∈ s ∧ row.Deliverable now :=
    fun row hrow => Outbox.mem_deliverable (hrows ▸ hrow)
  have hids := outboxIds_of_granted hgranted
  have hleaseUnique : Table.Unique (·.outboxId) leases := by
    unfold Table.Unique
    rw [hids]
    exact hunique
  have htold {event : DeliveryEvent} (hevent : event ∈ leases.map .leased) :
      ∃ lease ∈ leases, event = .leased lease := by
    obtain ⟨lease, hmem, heq⟩ := List.mem_map.mp hevent
    exact ⟨lease, hmem, heq.symm⟩
  have hstays {outboxId : UUID} (hold : ∃ r ∈ s, r.outboxId = outboxId) :
      ∃ r ∈ Table.update (·.outboxId ∈ rows.map (·.outboxId)) (·.leased request now) s,
        r.outboxId = outboxId :=
    Table.exists_mem_update (fun _ _ _ hr => hr) hold
  constructor
  · exact h.unique.update fun _ _ => rfl
  · intro event hevent
    rcases List.mem_append.mp hevent with hevent | hevent
    · exact hstays (h.known event hevent)
    · obtain ⟨lease, hmem, rfl⟩ := htold hevent
      have hid : lease.outboxId ∈ rows.map (·.outboxId) :=
        hids ▸ List.mem_map_of_mem hmem
      obtain ⟨row, hrow, hrowId⟩ := List.mem_map.mp hid
      exact hstays ⟨row, (hselected row hrow).1, hrowId⟩
  · intro receipt hreceipt
    rcases List.mem_append.mp hreceipt with hreceipt | hreceipt
    · exact h.valid receipt hreceipt
    · obtain ⟨lease, -, heq⟩ := htold hreceipt
      cases heq
  · refine Table.forall_mem_update (fun r hr hnot => ?_) fun r hr hselectedId => ?_
    · -- a message that is not selected
      refine (h.rows r hr).frame hclock fun event hevent hid => hnot ?_
      obtain ⟨lease, hmem, rfl⟩ := htold hevent
      rw [← hids, ← hid]
      exact List.mem_map_of_mem hmem
    · obtain ⟨row, hrow, hrowId⟩ := List.mem_map.mp hselectedId
      obtain ⟨hstored, hdeliverable⟩ := hselected row hrow
      obtain rfl := h.unique.eq hstored hr hrowId
      obtain ⟨lease, hmem, hlease⟩ := granted_of_mem hgranted hrow
      have hid : lease.outboxId = row.outboxId := (outboxLease_fields hlease).2.2.2.1
      refine (h.rows row hr).leased hclock hdeliverable hlease ?_ fun event hevent => ?_
      · rw [messageLeases_leased, ← hid]
        exact hleaseUnique.filter_eq hmem
      · obtain ⟨granted, -, rfl⟩ := htold hevent
        rfl

/-- An operation keeps the invariant, if the clock has not run backwards. -/
theorem Delivery.Fenced.step [JsonColumn] {d : Delivery} (h : d.Fenced)
    (op : TimedOutboxOperation) (hclock : d.Monotone op) : (d.step op).Fenced := by
  obtain ⟨op, now⟩ := op
  have hlater : Keeps d.outbox d.history now := Keeps.later h hclock
  unfold Delivery.step
  cases hresult : op.outcome d.outbox now with
  | success result =>
      cases op with
      | post row maxAttempts =>
          obtain ⟨s, hpost, rfl⟩ : ∃ s, d.outbox.post row maxAttempts = .success s ∧
              ([], s) = result := by
            simpa [OutboxOperation.outcome, Attempt.bind_eq_success] using hresult
          simpa using Keeps.post h hclock hpost
      | claim request locked =>
          obtain ⟨⟨leases, s⟩, hclaim, hpure⟩ := Attempt.bind_eq_success.mp hresult
          obtain rfl := Attempt.success.inj hpure
          exact Keeps.claim h hclock hclaim
      | ack fence =>
          obtain ⟨⟨receipt, s⟩, hack, hpure⟩ := Attempt.bind_eq_success.mp hresult
          obtain rfl := Attempt.success.inj hpure
          exact Keeps.ack h hclock hack
      | nack request =>
          obtain ⟨⟨done, s⟩, hnack, hpure⟩ := Attempt.bind_eq_success.mp hresult
          obtain rfl := Attempt.success.inj hpure
          exact Keeps.nack h hclock hnack
  | failure error => exact hlater
  | raised error => exact hlater

end

end StonksPaper
