import StonksPaper.Delivery.Leases

/-!
# Delivery fencing

At most one lease of a message is live, and only its holder can acknowledge the message or give it
back. An acknowledgement is final: it can be repeated, and the message is not leased again.
-/

namespace StonksPaper

section

variable {history : List DeliveryEvent} {now : UTCDateTime} {row : DeliveryRow}
  {lease : OutboxLease} {fence : OutboxFence} {s' : Outbox}

/-! ## Published messages -/

/-- A published message keeps its row and is not leased. -/
theorem Delivery.published_step [JsonColumn] {d : Delivery} (h : d.Fenced) (hrow : row ∈ d.outbox)
    (hpublished : row.publishedAt ≠ none) (op : TimedOutboxOperation) :
    row ∈ (d.step op).outbox ∧ messageLeases row.outboxId (d.step op).history =
      messageLeases row.outboxId d.history := by
  obtain ⟨op, now⟩ := op
  unfold Delivery.step
  cases hresult : op.outcome d.outbox now with
  | success result =>
      cases op with
      | post message maxAttempts =>
          obtain ⟨s, hpost, hpure⟩ := Attempt.bind_eq_success.mp hresult
          obtain rfl := Attempt.success.inj hpure
          obtain ⟨_, -, hinsert⟩ := Attempt.bind_eq_success.mp hpost
          obtain rfl := Attempt.success.inj hinsert
          exact ⟨List.mem_append_left _ hrow, congrArg _ (List.append_nil _)⟩
      | claim request locked =>
          obtain ⟨⟨leases, s⟩, hclaim, hpure⟩ := Attempt.bind_eq_success.mp hresult
          obtain rfl := Attempt.success.inj hpure
          obtain ⟨rows, hrows, hgranted, rfl⟩ := Outbox.claim_eq_success hclaim
          have hnot : row.outboxId ∉ rows.map (·.outboxId) := by
            intro hselected
            obtain ⟨other, hother, hid⟩ := List.mem_map.mp hselected
            obtain ⟨hstored, hdeliverable⟩ := Outbox.mem_deliverable (hrows ▸ hother)
            rw [h.unique.eq hstored hrow hid] at hdeliverable
            exact hpublished hdeliverable.1
          refine ⟨Table.mem_update.mpr ⟨row, hrow, (if_neg hnot).symm⟩, ?_⟩
          rw [messageLeases_append, List.append_right_eq_self]
          refine messageLeases_of_other fun lease hlease hid => ?_
          obtain ⟨granted, hmem, heq⟩ := List.mem_map.mp hlease
          obtain rfl := DeliveryEvent.leased.inj heq
          rw [← outboxIds_of_granted hgranted, ← hid] at hnot
          exact hnot (List.mem_map_of_mem hmem)
      | ack fence =>
          obtain ⟨⟨receipt, s⟩, hack, hpure⟩ := Attempt.bind_eq_success.mp hresult
          obtain rfl := Attempt.success.inj hpure
          refine ⟨?_, messageLeases_concat _ rfl _⟩
          obtain ⟨-, other, hread, -, hcases⟩ := Outbox.ack_eq_success.mp hack
          rcases hcases with ⟨_, -, -, rfl⟩ | ⟨hunpublished, -, -, rfl⟩
          · exact hrow
          · refine Table.mem_update.mpr ⟨row, hrow, (if_neg fun hid => hpublished ?_).symm⟩
            rw [h.unique.eq hrow (mem_message hread).1 hid]
            exact hunpublished
      | nack request =>
          obtain ⟨⟨done, s⟩, hnack, hpure⟩ := Attempt.bind_eq_success.mp hresult
          obtain rfl := Attempt.success.inj hpure
          refine ⟨?_, messageLeases_concat _ rfl _⟩
          obtain ⟨other, hread, -, hunpublished, -, rfl⟩ := Outbox.nack_eq_success hnack
          refine Table.mem_update.mpr ⟨row, hrow, (if_neg fun hid => hpublished ?_).symm⟩
          rw [h.unique.eq hrow (mem_message hread).1 hid]
          exact hunpublished
  | failure error => exact ⟨hrow, rfl⟩
  | raised error => exact ⟨hrow, rfl⟩

theorem Delivery.fenced_run [JsonColumn] {d : Delivery} (h : d.Fenced)
    {ops : List TimedOutboxOperation} (hmonotone : Run.Meets step Monotone d ops) :
    (Run.run step d ops).Fenced :=
  hmonotone.invariant (fun _ op hfenced hclock => hfenced.step op hclock) h

theorem Delivery.published_run [JsonColumn] {d : Delivery} (h : d.Fenced) (hrow : row ∈ d.outbox)
    (hpublished : row.publishedAt ≠ none) {ops : List TimedOutboxOperation}
    (hmonotone : Run.Meets step Monotone d ops) :
    row ∈ (Run.run step d ops).outbox ∧ messageLeases row.outboxId (Run.run step d ops).history =
      messageLeases row.outboxId d.history := by
  induction ops generalizing d with
  | nil => exact ⟨hrow, rfl⟩
  | cons op ops ih =>
      obtain ⟨hclock, hrest⟩ := hmonotone
      obtain ⟨hstays, hsame⟩ := published_step h hrow hpublished op
      obtain ⟨hrun, hleases⟩ := ih (h.step op hclock) hstays hrest
      exact ⟨hrun, hleases.trans hsame⟩

/-! ## Fencing -/

/-- At most one lease of a message is live. -/
theorem Delivery.Fenced.exclusive {d : Delivery} (h : d.Fenced) (hnow : d.clock ≤ now)
    {lease' : OutboxLease} (hlive : LiveLease d.history lease now)
    (hlive' : LiveLease d.history lease' now) (hsame : lease.outboxId = lease'.outboxId) :
    lease = lease' := by
  obtain ⟨row, hrow, hid⟩ := h.known _ hlive.1
  have hlast {lease : OutboxLease} (hlive : LiveLease d.history lease now)
      (hid : lease.outboxId = row.outboxId) :
      (messageLeases row.outboxId d.history).getLast? = some lease := by
    rcases (h.rows row hrow).ended lease (mem_messageLeases.mpr ⟨hlive.1, hid⟩) with
      ⟨-, hlast⟩ | hgiven | hexpired
    · exact hlast
    · exact absurd hgiven hlive.2.1
    · exact absurd (hlive.2.2.trans_le (hexpired.trans hnow)) (lt_irrefl _)
  have hfirst := hlast hlive hid.symm
  have hsecond := hlast hlive' (hsame.symm.trans hid.symm)
  exact Option.some.inj (hfirst.symm.trans hsecond)

/-- An acknowledgement that is accepted is the latest holder's, or repeats an earlier one. -/
theorem Delivery.Fenced.acks {d : Delivery} (h : d.Fenced) {receipt : OutboxAckReceipt}
    (hack : d.outbox.ack fence now = .success (receipt, s')) :
    (∃ lease ∈ (messageLeases fence.outboxId d.history).getLast?, lease.fence = fence ∧
      LiveLease d.history lease now ∧ receipt = Outbox.receipt fence now) ∨
    receipt.fence = fence ∧ .acknowledged receipt ∈ d.history ∧ s' = d.outbox := by
  obtain ⟨-, row, hread, hmatches, hcases⟩ := Outbox.ack_eq_success.mp hack
  obtain ⟨hrow, hid⟩ := mem_message hread
  have hfenced := h.rows row hrow
  rcases hcases with ⟨publishedAt, hpublished, rfl, hsame⟩ | ⟨-, hlive, rfl, -⟩
  · refine .inr ⟨rfl, ?_, hsame⟩
    obtain ⟨found, hfound, hfoundId, hat, hfoundMatches⟩ := hfenced.published publishedAt hpublished
    have heq : found = Outbox.receipt fence publishedAt := by
      have howner := Option.some.inj (hfoundMatches.1.symm.trans hmatches.1)
      have hgeneration := hfoundMatches.2.1.symm.trans hmatches.2.1
      have hnonce := Option.some.inj (hfoundMatches.2.2.symm.trans hmatches.2.2)
      cases found
      simp only [OutboxAckReceipt.fence] at howner hgeneration hnonce hat hfoundId
      rw [Outbox.receipt, howner, hgeneration, hnonce, hat, hfoundId, hid]
    exact heq ▸ hfound
  · obtain ⟨lease, hlast, hfence, hlease⟩ := hfenced.live hlive hmatches hid.symm
    rw [hid] at hlast
    exact .inl ⟨lease, hlast, hfence, hlease, rfl⟩

theorem Delivery.Fenced.nacks [JsonColumn] {d : Delivery} (h : d.Fenced) {request : NackMessage}
    {done : Bool} (hnack : d.outbox.nack request now = .success (done, s')) :
    ∃ lease ∈ (messageLeases request.fence.outboxId d.history).getLast?,
      lease.fence = request.fence ∧ LiveLease d.history lease now := by
  obtain ⟨row, hread, hmatches, -, hlive, -⟩ := Outbox.nack_eq_success hnack
  obtain ⟨hrow, hid⟩ := mem_message hread
  obtain ⟨lease, hlast, hfence, hlease⟩ := (h.rows row hrow).live hlive hmatches hid.symm
  rw [hid] at hlast
  exact ⟨lease, hlast, hfence, hlease⟩

theorem Delivery.Fenced.repeats {d : Delivery} (h : d.Fenced) {receipt : OutboxAckReceipt}
    (hreceipt : .acknowledged receipt ∈ d.history) (now : UTCDateTime) :
    d.outbox.ack receipt.fence now = .success (receipt, d.outbox) := by
  obtain ⟨row, hrow, hid⟩ := h.known _ hreceipt
  have hid : row.outboxId = receipt.outboxId := hid
  obtain ⟨hpublished, hmatches⟩ := (h.rows row hrow).acknowledged receipt hreceipt hid.symm
  have hread : d.outbox.message receipt.outboxId = some row :=
    hid ▸ Table.get_of_mem h.unique hrow
  exact Outbox.ack_eq_success.mpr ⟨h.valid receipt hreceipt, row, hread, hmatches,
    .inl ⟨receipt.publishedAt, hpublished, rfl, rfl⟩⟩

/-- What the fences of the outbox guarantee after the operations. -/
structure DeliveryFencing [JsonColumn] (clock : UTCDateTime) (ops : List TimedOutboxOperation) :
    Prop where
  counted : ∀ row ∈ (Delivery.reached clock ops).outbox,
    row.leaseGeneration = row.attempts ∧ row.attempts ≤ row.maxAttempts ∧
      (messageLeases row.outboxId (Delivery.reached clock ops).history).length =
        row.leaseGeneration
  exclusive : ∀ now lease lease', (Delivery.reached clock ops).clock ≤ now →
    LiveLease (Delivery.reached clock ops).history lease now →
    LiveLease (Delivery.reached clock ops).history lease' now →
    lease.outboxId = lease'.outboxId → lease = lease'
  acks : ∀ fence now receipt s',
    (Delivery.reached clock ops).outbox.ack fence now = .success (receipt, s') →
      (∃ lease ∈ (messageLeases fence.outboxId (Delivery.reached clock ops).history).getLast?,
        lease.fence = fence ∧ LiveLease (Delivery.reached clock ops).history lease now ∧
          receipt = Outbox.receipt fence now) ∨
      receipt.fence = fence ∧ .acknowledged receipt ∈ (Delivery.reached clock ops).history ∧
        s' = (Delivery.reached clock ops).outbox
  nacks : ∀ request now done s',
    (Delivery.reached clock ops).outbox.nack request now = .success (done, s') →
      ∃ lease ∈ (messageLeases request.fence.outboxId
          (Delivery.reached clock ops).history).getLast?,
        lease.fence = request.fence ∧ LiveLease (Delivery.reached clock ops).history lease now
  final : ∀ row ∈ (Delivery.reached clock ops).outbox, row.publishedAt ≠ none → ∀ more,
    Run.Meets Delivery.step Delivery.Monotone (Delivery.reached clock ops) more →
      row ∈ (Delivery.reached clock (ops ++ more)).outbox ∧
        messageLeases row.outboxId (Delivery.reached clock (ops ++ more)).history =
          messageLeases row.outboxId (Delivery.reached clock ops).history
  repeats : ∀ receipt, .acknowledged receipt ∈ (Delivery.reached clock ops).history → ∀ now,
    (Delivery.reached clock ops).outbox.ack receipt.fence now =
      .success (receipt, (Delivery.reached clock ops).outbox)

/-- Delivery is fenced after every run whose clock does not run backwards. -/
theorem deliveryFencing_reached [JsonColumn] (clock : UTCDateTime) (ops : List TimedOutboxOperation)
    (hmonotone : Run.Meets Delivery.step Delivery.Monotone (Delivery.opened clock) ops) :
    DeliveryFencing clock ops := by
  have h := Delivery.fenced_run (Delivery.fenced_opened clock) hmonotone
  constructor
  · intro row hrow
    have hfenced := h.rows row hrow
    exact ⟨hfenced.generation, hfenced.bounded, hfenced.counted⟩
  · intro now lease lease' hnow hlive hlive' hsame
    exact h.exclusive hnow hlive hlive' hsame
  · intro fence now receipt s' hack
    exact h.acks hack
  · intro request now done s' hnack
    exact h.nacks hnack
  · intro row hrow hpublished more hmore
    have hrun : Delivery.reached clock (ops ++ more) =
        Run.run Delivery.step (Delivery.reached clock ops) more := Run.run_append ..
    rw [hrun]
    exact Delivery.published_run h hrow hpublished hmore
  · intro receipt hreceipt now
    exact h.repeats hreceipt now

end

/-! ## A concrete delivery -/

namespace DeliveryScenario

open scoped PlainColumns

/-- One message that is claimed, given back, claimed again and acknowledged. -/
def message : OutboxRow where
  outboxId := 1
  aggregateType := "run"
  aggregateId := 2
  sequence := 2
  topic := "job.completed"
  payload := .record "job.completed" []
  idempotencyKey := ⟨3, .complete, 1⟩
  createdAt := 10
  notBefore := 10
  attempts := 0

def claim (nonce : UUID) : ClaimMessages := ⟨"publisher", 30, 10, fun _ => nonce⟩

def delivered : List TimedOutboxOperation :=
  [(.post message 10, 10), (.claim (claim 5) [], 20),
    (.nack ⟨⟨1, "publisher", 1, 5⟩, 25, "provider_unavailable"⟩, 22), (.claim (claim 6) [], 30),
    (.ack ⟨1, "publisher", 2, 6⟩, 40), (.ack ⟨1, "publisher", 2, 6⟩, 90)]

theorem deliveryFencing_delivered :
    DeliveryFencing 0 delivered ∧
    (Delivery.reached 0 delivered).outbox.map (·.publishedAt) = [some 40] :=
  ⟨deliveryFencing_reached 0 delivered (by decide +kernel), by decide +kernel⟩

end DeliveryScenario

end StonksPaper
