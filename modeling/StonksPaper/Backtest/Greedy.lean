import StonksPaper.Backtest.Schedule
import StonksPaper.Base.Allocation

/-!
# The schedule is a greedy allocation

An order that is good for one bar only may have its first opportunity, and a DAY order the bars of
its session, whatever was tried before: the sets that the loops keep are a condition on the job.
-/

namespace StonksPaper

open Allocation

namespace Backtest

section

variable [DecimalContext]

/-- The order may have some of the bar. -/
structure EligibleOn (job : BacktestJob) (order : BacktestOrder) (bar : BacktestBar) : Prop where
  opportunity : IsOrderOpportunity order bar
  tradable : bar.tradable = true
  /-- The limit is crossed. -/
  priced : ∃ instrument price, job.instrument? bar.instrumentId = some instrument ∧
    canonicalFillPrice order bar instrument job.costModel = .success (some price)
  /-- `first_session_date`. -/
  session : order.timeInForce = .day → ∃ instrument session,
    job.instrument? bar.instrumentId = some instrument ∧
    job.dataset.calendar.sessionForBar bar instrument = some session ∧
    job.daySession order = some session.sessionDate
  first : order.timeInForce = .ioc → ∀ other ∈ job.dataset.bars,
    IsOrderOpportunity order other → bar.opensAt ≤ other.opensAt

/-- The capacity of a bar of the job. -/
def room (job : BacktestJob) (bar : BacktestBar) : Decimal :=
  match job.instrument? bar.instrumentId with
  | none => 0
  | some instrument => capacity bar instrument job.costModel

noncomputable def rulesOf (allowed : BacktestBar → BacktestOrder → Prop)
    (capacity : BacktestBar → Decimal) : Rules BacktestOrder BacktestBar Decimal where
  allowed := allowed
  decideAllowed _ _ := Classical.propDecidable _
  capacity := capacity
  sub x quantity := round (x - quantity)

noncomputable def rules (job : BacktestJob) : Rules BacktestOrder BacktestBar Decimal :=
  rulesOf (fun bar order => EligibleOn job order bar) (room job)

noncomputable def fair (job : BacktestJob) : Book BacktestOrder BacktestBar Decimal :=
  allocate (rules job) job.orders job.orderedBars fun order => order.quantity

omit [DecimalContext] in
def placementOf (grant : Grant BacktestOrder BacktestBar Decimal) : Placement :=
  ⟨grant.demand, grant.bin, grant.quantity⟩

omit [DecimalContext] in
/-- The plan has the amounts of the book. -/
structure Mirrors (job : BacktestJob) (plan : Plan)
    (book : Book BacktestOrder BacktestBar Decimal) : Prop where
  left : ∀ order ∈ job.orders, plan.remaining order.orderId = book.left order
  placements : plan.placements = book.grants.map placementOf

omit [DecimalContext] in
/-- The order has tried when it had an opportunity on one of the bars, if it may try only once. -/
structure Attempted (plan : Plan) (order : BacktestOrder) (bars : List BacktestBar) : Prop where
  spent : order.timeInForce = .ioc → (∃ bar ∈ bars, IsOrderOpportunity order bar) →
    order.orderId ∈ plan.attempted ∨ plan.remaining order.orderId ≤ 0
  marked : order.orderId ∈ plan.attempted →
    order.timeInForce = .ioc ∧ ∃ bar ∈ bars, IsOrderOpportunity order bar

omit [DecimalContext] in
/-- The bars before one, as far as they are of the same instrument. -/
structure Before (job : BacktestJob) (done : List BacktestBar) (bar : BacktestBar) : Prop where
  mem : ∀ other ∈ done, other ∈ job.dataset.bars
  earlier : ∀ other ∈ done, other.instrumentId = bar.instrumentId → other.opensAt < bar.opensAt
  all : ∀ other ∈ job.dataset.bars, other.instrumentId = bar.instrumentId →
    other.opensAt < bar.opensAt → other ∈ done

variable {job : BacktestJob} {bar : BacktestBar} {order : BacktestOrder}
  {instrument : BacktestInstrument} {plan : Plan} {available : Decimal}
  {book : Book BacktestOrder BacktestBar Decimal} {done : List BacktestBar}

theorem price?_ne_none_iff : price? order bar instrument job.costModel ≠ none ↔
    ∃ price, canonicalFillPrice order bar instrument job.costModel = .success (some price) := by
  unfold price?
  cases canonicalFillPrice order bar instrument job.costModel with
  | success price => cases price <;> simp
  | failure error => simp
  | raised error => simp

omit [DecimalContext] in
theorem before_of_split {later : List BacktestBar}
    (hsplit : job.orderedBars = done ++ bar :: later) :
    Before job done bar := by
  have hpairwise : job.orderedBars.Pairwise fun earlier later =>
      earlier.instrumentId = later.instrumentId → earlier.opensAt < later.opensAt :=
    orderedBars_pairwise
  rw [hsplit, List.pairwise_append] at hpairwise
  obtain ⟨-, hrest, hacross⟩ := hpairwise
  refine ⟨fun other hother => ?_, fun other hother hsame => ?_,
    fun other hother hsame hearlier => ?_⟩
  · have hmem : other ∈ job.orderedBars := by
      rw [hsplit]
      exact List.mem_append_left _ hother
    exact mem_orderedBars.mp hmem
  · exact hacross other hother bar List.mem_cons_self hsame
  · have hmem := mem_orderedBars.mpr hother
    rw [hsplit] at hmem
    refine (List.mem_append.mp hmem).resolve_right fun hafter => ?_
    rcases List.mem_cons.mp hafter with rfl | hafter
    · exact lt_irrefl _ hearlier
    · exact lt_asymm hearlier ((List.pairwise_cons.mp hrest).1 other hafter hsame.symm)

/-- With something left of the order, trying is being eligible. -/
theorem tries_iff_eligible (hbar : bar ∈ job.dataset.bars)
    (hinstrument : job.instrument? bar.instrumentId = some instrument)
    (hbefore : Before job done bar) (hattempted : Attempted plan order done)
    (hleft : 0 < plan.remaining order.orderId) :
    Tries job plan bar instrument order ∧ bar.tradable = true ∧
      price? order bar instrument job.costModel ≠ none ↔ EligibleOn job order bar := by
  obtain ⟨session, hsession⟩ := session_of_bar hbar hinstrument
  constructor
  · intro h
    obtain ⟨⟨-, hnew, hopportunity, hday⟩, htradable, hprice⟩ := h
    obtain ⟨price, hprice⟩ := price?_ne_none_iff.mp hprice
    refine ⟨hopportunity, htradable, ⟨instrument, price, hinstrument, hprice⟩, fun htype => ?_,
      fun htype other hother hchance => ?_⟩
    · have hdate := hday htype
      rw [hsession] at hdate
      exact ⟨instrument, session, hinstrument, hsession, hdate⟩
    · by_contra hearlier
      have hsame : other.instrumentId = bar.instrumentId := hchance.1.trans hopportunity.1.symm
      have hdone := hbefore.all other hother hsame (not_le.mp hearlier)
      rcases hattempted.spent htype ⟨other, hdone, hchance⟩ with hmarked | hnone
      · exact hnew hmarked
      · exact absurd hleft (not_lt.mpr hnone)
  · intro h
    obtain ⟨other, price, hother, hprice⟩ := h.priced
    obtain rfl := Option.some.inj (hinstrument.symm.trans hother)
    refine ⟨⟨hleft, fun hmarked => ?_, h.opportunity, fun htype => ?_⟩, h.tradable,
      price?_ne_none_iff.mpr ⟨price, hprice⟩⟩
    · obtain ⟨htype, earlier, hdone, hchance⟩ := hattempted.marked hmarked
      have hsame : earlier.instrumentId = bar.instrumentId := hchance.1.trans h.opportunity.1.symm
      exact absurd (hbefore.earlier earlier hdone hsame)
        (not_lt.mpr (h.first htype earlier (hbefore.mem earlier hdone) hchance))
    · obtain ⟨same, found, hsame, hfound, hdate⟩ := h.session htype
      obtain rfl := Option.some.inj (hinstrument.symm.trans hsame)
      rw [hfound]
      exact hdate

/-! ## One order -/

theorem remaining_taken_self (quantity : Decimal) :
    (plan.taken order bar quantity).remaining order.orderId =
      round (plan.remaining order.orderId - quantity) := Function.update_self ..

theorem remaining_taken_of_ne {id : UUID} (hid : id ≠ order.orderId) (quantity : Decimal) :
    (plan.taken order bar quantity).remaining id = plan.remaining id := Function.update_of_ne hid ..

omit [DecimalContext] in
theorem attempted_marked : (plan.marked order).attempted =
    if order.timeInForce = .ioc then order.orderId :: plan.attempted else plan.attempted := by
  unfold Plan.marked
  split <;> rfl

variable (job bar order instrument) in
/-- A round says nothing of the other orders. -/
theorem place_frame {id : UUID} (hid : id ≠ order.orderId) (plan : Plan) (available : Decimal) :
    (Plan.place job bar instrument (plan, available) order).1.remaining id = plan.remaining id ∧
      (id ∈ (Plan.place job bar instrument (plan, available) order).1.attempted ↔
        id ∈ plan.attempted) := by
  have hmarked : id ∈ (plan.marked order).attempted ↔ id ∈ plan.attempted := by
    rw [attempted_marked]
    split
    · rw [List.mem_cons]
      exact or_iff_right hid
    · exact Iff.rfl
  rcases place_cases job bar order instrument plan available with heq | ⟨-, heq | ⟨-, -, -, heq⟩⟩
  · rw [heq]
    exact ⟨rfl, Iff.rfl⟩
  · rw [heq]
    exact ⟨congrFun remaining_marked id, hmarked⟩
  · rw [heq]
    exact ⟨(remaining_taken_of_ne hid _).trans (congrFun remaining_marked id), hmarked⟩

variable (job bar instrument) in
theorem foldl_place_frame {id : UUID} {orders : List BacktestOrder}
    (hid : id ∉ orders.map (·.orderId)) (step : Plan × Decimal) :
    (orders.foldl (Plan.place job bar instrument) step).1.remaining id = step.1.remaining id ∧
      (id ∈ (orders.foldl (Plan.place job bar instrument) step).1.attempted ↔
        id ∈ step.1.attempted) := by
  induction orders generalizing step with
  | nil => exact ⟨rfl, Iff.rfl⟩
  | cons order rest ih =>
      rw [List.map_cons, List.mem_cons, not_or] at hid
      obtain ⟨hleft, hmarked⟩ := ih hid.2 (Plan.place job bar instrument step order)
      obtain ⟨hleftNow, hmarkedNow⟩ := place_frame job bar order instrument hid.1 step.1 step.2
      exact ⟨hleft.trans hleftNow, hmarked.trans hmarkedNow⟩

omit [DecimalContext] in
theorem Attempted.congr {after : Plan} (h : Attempted plan order done)
    (hleft : after.remaining order.orderId = plan.remaining order.orderId)
    (hmarked : order.orderId ∈ after.attempted ↔ order.orderId ∈ plan.attempted) :
    Attempted after order done :=
  ⟨fun htype hchance => by rw [hmarked, hleft]; exact h.spent htype hchance,
    fun hmem => h.marked (hmarked.mp hmem)⟩

/-- After its round the order has tried this bar too. -/
theorem attempted_place (hattempted : Attempted plan order done) :
    Attempted (Plan.place job bar instrument (plan, available) order).1 order (done ++ [bar]) := by
  have hmore : ∀ {plan : Plan}, (order.timeInForce = .ioc → IsOrderOpportunity order bar →
      order.orderId ∈ plan.attempted ∨ plan.remaining order.orderId ≤ 0) →
      Attempted plan order done → Attempted plan order (done ++ [bar]) := by
    intro plan hnow h
    refine ⟨fun htype hchance => ?_, fun hmem => ?_⟩
    · obtain ⟨other, hother, hchance⟩ := hchance
      rcases List.mem_append.mp hother with hother | hother
      · exact h.spent htype ⟨other, hother, hchance⟩
      · rw [List.mem_singleton.mp hother] at hchance
        exact hnow htype hchance
    · obtain ⟨htype, other, hother, hchance⟩ := h.marked hmem
      exact ⟨htype, other, List.mem_append_left _ hother, hchance⟩
  by_cases htries : Tries job plan bar instrument order
  · have hmarked : (Plan.place job bar instrument (plan, available) order).1.attempted =
        (plan.marked order).attempted := by
      simp only [Plan.place, htries, ↓reduceIte]
      split <;> rfl
    refine ⟨fun htype _ => ?_, fun hmem => ?_⟩
    · rw [hmarked, attempted_marked, if_pos htype]
      exact .inl List.mem_cons_self
    · rw [hmarked, attempted_marked] at hmem
      split at hmem
      · rename_i htype
        exact ⟨htype, bar, by simp, htries.2.2.1⟩
      · exact absurd hmem htries.2.1
  · have hsame : Plan.place job bar instrument (plan, available) order = (plan, available) := by
      simp only [Plan.place, htries, ↓reduceIte]
    rw [hsame]
    refine hmore (fun htype hchance => ?_) hattempted
    by_contra hnone
    rw [not_or, not_le] at hnone
    refine htries ⟨hnone.2, hnone.1, hchance, fun hday => ?_⟩
    rw [htype] at hday
    cases hday

theorem mirrors_place (hbar : bar ∈ job.dataset.bars) (horder : order ∈ job.orders)
    (hinstrument : job.instrument? bar.instrumentId = some instrument)
    (hbefore : Before job done bar) (hattempted : Attempted plan order done)
    (hmirrors : Mirrors job plan book) (hroom : book.room = available) :
    Mirrors job (Plan.place job bar instrument (plan, available) order).1
        (serve (rules job) bar book order) ∧
      (serve (rules job) bar book order).room =
        (Plan.place job bar instrument (plan, available) order).2 := by
  have hleft := hmirrors.left order horder
  by_cases htakes : EligibleOn job order bar ∧ 0 < min (plan.remaining order.orderId) available
  · obtain ⟨heligible, hpositive⟩ := htakes
    have hsome := (lt_min_iff.mp hpositive).1
    obtain ⟨htries, htradable, hprice⟩ :=
      (tries_iff_eligible hbar hinstrument hbefore hattempted hsome).mpr heligible
    have hplace : Plan.place job bar instrument (plan, available) order =
        ((plan.marked order).taken order bar (min (plan.remaining order.orderId) available),
          round (available - min (plan.remaining order.orderId) available)) := by
      simp only [Plan.place, htries, ↓reduceIte]
      exact if_pos ⟨htradable, hprice, hpositive⟩
    have hserve : serve (rules job) bar book order = book.taken (rules job) bar order
        (min (plan.remaining order.orderId) available) := by
      rw [hleft, ← hroom]
      exact if_pos ⟨heligible, hleft ▸ hroom ▸ hpositive⟩
    rw [hplace, hserve]
    refine ⟨⟨fun other hother => ?_, ?_⟩, by rw [taken_room, hroom]; rfl⟩
    · by_cases hsame : other = order
      · subst hsame
        rw [taken_left_self, remaining_taken_self, remaining_marked, hleft]
        rfl
      · have hid : other.orderId ≠ order.orderId := fun h => hsame (order_eq hother horder h)
        rw [taken_left_of_ne hsame, remaining_taken_of_ne hid, remaining_marked]
        exact hmirrors.left other hother
    · rw [taken_grants, List.map_append, ← hmirrors.placements, Plan.taken, placements_marked]
      rfl
  · have hserve : serve (rules job) bar book order = book := by
      refine if_neg fun h => htakes ⟨h.1, ?_⟩
      rw [hleft, ← hroom]
      exact h.2
    have hskip : (Plan.place job bar instrument (plan, available) order).1.remaining =
        plan.remaining ∧ (Plan.place job bar instrument (plan, available) order).1.placements =
        plan.placements ∧ (Plan.place job bar instrument (plan, available) order).2 =
          available := by
      rcases place_cases job bar order instrument plan available with
        heq | ⟨htries, heq | ⟨htradable, hprice, hpositive, -⟩⟩
      · rw [heq]
        exact ⟨rfl, rfl, rfl⟩
      · rw [heq]
        exact ⟨remaining_marked, placements_marked, rfl⟩
      · exact absurd ⟨(tries_iff_eligible hbar hinstrument hbefore hattempted htries.1).mp
          ⟨htries, htradable, hprice⟩, hpositive⟩ htakes
    obtain ⟨hremaining, hplacements, havailable⟩ := hskip
    rw [hserve]
    refine ⟨⟨fun other hother => ?_, ?_⟩, hroom.trans havailable.symm⟩
    · rw [hremaining]
      exact hmirrors.left other hother
    · rw [hplacements]
      exact hmirrors.placements

/-! ## The loops -/

theorem mirrors_foldl_place {orders : List BacktestOrder} (hbar : bar ∈ job.dataset.bars)
    (horders : ∀ order ∈ orders, order ∈ job.orders) (hunique : (orders.map (·.orderId)).Nodup)
    (hinstrument : job.instrument? bar.instrumentId = some instrument)
    (hbefore : Before job done bar) (hattempted : ∀ order ∈ orders, Attempted plan order done)
    (hmirrors : Mirrors job plan book) (hroom : book.room = available) :
    Mirrors job (orders.foldl (Plan.place job bar instrument) (plan, available)).1
        (orders.foldl (serve (rules job) bar) book) ∧
      ∀ order ∈ orders, Attempted
        (orders.foldl (Plan.place job bar instrument) (plan, available)).1 order (done ++
        [bar]) := by
  induction orders generalizing plan available book with
  | nil => exact ⟨hmirrors, by simp⟩
  | cons order rest ih =>
      rw [List.map_cons, List.nodup_cons] at hunique
      have horder := horders order List.mem_cons_self
      have hnow := hattempted order List.mem_cons_self
      obtain ⟨hnext, hroomNext⟩ :=
        mirrors_place hbar horder hinstrument hbefore hnow hmirrors hroom
      have htried : Attempted (Plan.place job bar instrument (plan, available) order).1 order
          (done ++ [bar]) := attempted_place hnow
      have hrest : ∀ other ∈ rest, Attempted
          (Plan.place job bar instrument (plan, available) order).1 other done := by
        intro other hother
        have hid : other.orderId ≠ order.orderId := fun h =>
          hunique.1 (h ▸ List.mem_map_of_mem hother)
        obtain ⟨hleft, hmarked⟩ := place_frame job bar order instrument hid plan available
        exact (hattempted other (List.mem_cons_of_mem _ hother)).congr hleft hmarked
      obtain ⟨hlast, hall⟩ := ih (fun other hother => horders other (List.mem_cons_of_mem _ hother))
        hunique.2 hrest hnext hroomNext
      refine ⟨hlast, fun other hother => ?_⟩
      rcases List.mem_cons.mp hother with rfl | hother
      · obtain ⟨hleft, hmarked⟩ := foldl_place_frame job bar instrument hunique.1
          (Plan.place job bar instrument (plan, available) other)
        exact htried.congr hleft hmarked
      · exact hall other hother

theorem mirrors_foldl_onBar {bars : List BacktestBar} (hsplit : job.orderedBars = done ++ bars)
    (hattempted : ∀ order ∈ job.orders, Attempted plan order done)
    (hmirrors : Mirrors job plan book) :
    Mirrors job (bars.foldl (Plan.onBar job) plan)
      (bars.foldl (Allocation.fill (rules job) job.orders) book) := by
  induction bars generalizing done plan book with
  | nil => exact hmirrors
  | cons bar rest ih =>
      have hbar : bar ∈ job.dataset.bars := by
        refine mem_orderedBars.mp ?_
        rw [hsplit]
        exact List.mem_append_right _ List.mem_cons_self
      obtain ⟨instrument, session, hinstrument, -⟩ := exists_session hbar
      have hcapacity : (rules job).capacity bar = capacity bar instrument job.costModel := by
        simp only [rules, rulesOf, room, hinstrument]
      have hopen : Mirrors job plan { book with room := (rules job).capacity bar } :=
        ⟨hmirrors.left, hmirrors.placements⟩
      obtain ⟨hnext, htried⟩ := mirrors_foldl_place hbar (fun _ h => h) job.ordersUnique hinstrument
        (before_of_split hsplit) hattempted hopen hcapacity
      have hstep : plan.onBar job bar = (job.orders.foldl (Plan.place job bar instrument)
          (plan, capacity bar instrument job.costModel)).1 := by
        simp only [Plan.onBar, hinstrument]
      rw [List.foldl_cons, List.foldl_cons, hstep]
      refine ih ?_ htried hnext
      rw [hsplit, List.append_assoc]
      rfl

/-- What the contract plans is the greedy allocation of the bars to the orders. -/
theorem placements_eq (job : BacktestJob) :
    (Backtest.plan job).placements = (fair job).grants.map placementOf := by
  have hopening : Mirrors job ⟨openingRemaining job, [], []⟩
      ⟨fun order => order.quantity.value, 0, []⟩ := by
    refine ⟨fun order horder => ?_, rfl⟩
    obtain ⟨found, hfound⟩ : ∃ found, job.orders.find? (·.orderId = order.orderId) =
      some found := by
      refine Option.isSome_iff_exists.mp ?_
      rw [List.find?_isSome]
      exact ⟨order, horder, by simp⟩
    have hsame : found = order := order_eq (List.mem_of_find?_eq_some hfound) horder
      (by simpa using List.find?_some hfound)
    simp only [openingRemaining, hfound, Option.map_some, Option.getD_some, hsame]
  exact (mirrors_foldl_onBar (List.nil_append _).symm
    (fun order _ => ⟨by simp, by simp⟩) hopening).placements

end

end Backtest

end StonksPaper
