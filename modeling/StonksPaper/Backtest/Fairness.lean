import Mathlib.Algebra.Group.Subgroup.ZPowers.Basic
import StonksPaper.Backtest.Greedy
import StonksPaper.Backtest.Uniqueness

/-!
# The schedule is fair and within its limits

As far as the default context of 28 digits rounds none of the amounts: the product of a volume and
the participation, and the differences that the loops take, are outside of the context of 128
digits that the rest of `backtest_math.py` computes in.
-/

namespace StonksPaper

open Allocation Quantum

namespace Backtest

section

variable [DecimalContext]

/-! ## The claim on a schedule -/

omit [DecimalContext] in
/-- What is planned on a bar. -/
def plannedOn (job : BacktestJob) (planned : UUID → List (UUID × Decimal)) (bar : BacktestBar) :
    Decimal :=
  (((job.orders.flatMap fun order => planned order.orderId).filter (·.1 = bar.barId)).map
    (·.2)).sum

omit [DecimalContext] in
/-- What is planned for an order up to a bar. -/
def plannedUpTo (job : BacktestJob) (planned : UUID → List (UUID × Decimal))
    (order : BacktestOrder) (bar : BacktestBar) : Decimal :=
  (((planned order.orderId).filter fun item =>
    ∃ other ∈ job.dataset.bars, other.barId = item.1 ∧ other.opensAt ≤ bar.opensAt).map (·.2)).sum

omit [DecimalContext] in
def scheduleOf (job : BacktestJob) (planned : UUID → List (UUID × Decimal)) :
    List (UUID × List (UUID × Decimal)) :=
  job.orders.map fun order => (order.orderId, planned order.orderId)

structure FairSchedule (job : BacktestJob) (planned : UUID → List (UUID × Decimal)) : Prop where
  capacity : ∀ bar ∈ job.dataset.bars,
    plannedOn job planned bar ≤ bar.volume * job.costModel.maxVolumeParticipation
  quanta : ∀ order ∈ job.orders, ∀ item ∈ planned order.orderId, 0 < item.2 ∧
    ∀ instrument, job.instrument? order.instrumentId = some instrument →
      IsQuantized item.2 instrument.quantityQuantum
  total : ∀ order ∈ job.orders, ((planned order.orderId).map (·.2)).sum ≤ order.quantity
  /-- The bars are later and later, and each is one that the order may have: it opens in the
  validity of the order, is tradable and crosses the limit, is the first opportunity of an IOC order
  and in the session of a DAY order. -/
  bars : ∀ order ∈ job.orders, ∃ bars : List BacktestBar,
    (planned order.orderId).map (·.1) = bars.map (·.barId) ∧
    (∀ bar ∈ bars, bar ∈ job.dataset.bars ∧ EligibleOn job order bar) ∧
    bars.Pairwise fun earlier later => earlier.opensAt < later.opensAt
  /-- An order that may have a bar is not short on it where a later one gets some of it. -/
  priority : ∀ earlier ∈ job.orders, ∀ later ∈ job.orders, earlier.sequence < later.sequence →
    ∀ bar ∈ job.dataset.bars, EligibleOn job earlier bar →
    bar.barId ∈ (planned later.orderId).map (·.1) →
      plannedUpTo job planned earlier bar = earlier.quantity
  /-- An order at the end changes nothing for the others. -/
  appended : ∀ (bigger : BacktestJob) (order : BacktestOrder), bigger.Valid →
    bigger.dataset = job.dataset → bigger.costModel = job.costModel →
    bigger.orders = job.orders ++ [order] → ∃ more,
      expectedFillSchedules bigger = .success (scheduleOf job planned ++ [(order.orderId, more)])

/-- The result of `_expected_fill_schedules`. -/
def Fair (job : BacktestJob) (expected : List (UUID × List (UUID × Decimal))) : Prop :=
  ∃ planned, expected = scheduleOf job planned ∧ FairSchedule job planned

/-- No amount of the job is rounded in the default context. -/
structure Keeps (job : BacktestJob) : Prop where
  capacities : ∀ bar ∈ job.dataset.bars, ∀ instrument,
    job.instrument? bar.instrumentId = some instrument →
    IsQuantized (capacity bar instrument job.costModel) instrument.quantityQuantum ∧
      0 ≤ capacity bar instrument job.costModel ∧
      capacity bar instrument job.costModel ≤ bar.volume * job.costModel.maxVolumeParticipation
  rooms : ∀ bar ∈ job.dataset.bars, ∀ instrument,
    job.instrument? bar.instrumentId = some instrument →
    ∀ x : Decimal, IsQuantized x instrument.quantityQuantum → 0 ≤ x →
      x ≤ capacity bar instrument job.costModel → round x = x
  orders : ∀ order ∈ job.orders, ∀ instrument,
    job.instrument? order.instrumentId = some instrument →
    ∀ x : Decimal, IsQuantized x instrument.quantityQuantum → 0 ≤ x → x ≤ order.quantity →
      round x = x

variable {job : BacktestJob} {bar : BacktestBar} {order : BacktestOrder}
  {instrument : BacktestInstrument}

/-! ## The units of the amounts -/

omit [DecimalContext] in
/-- The multiples of the quantum of an instrument. -/
def unitOf (job : BacktestJob) (id : UUID) : AddSubgroup Decimal :=
  match job.instrument? id with
  | none => ⊥
  | some instrument => AddSubgroup.zmultiples instrument.quantityQuantum.value

omit [DecimalContext] in
theorem mem_unitOf {id : UUID} (h : job.instrument? id = some instrument) {x : Decimal} :
    x ∈ unitOf job id ↔ IsQuantized x instrument.quantityQuantum := by
  simp only [unitOf, h]
  rw [AddSubgroup.mem_zmultiples_iff, isQuantized_iff]
  simp only [zsmul_eq_mul]
  exact (and_iff_right instrument.quanta_pos.2).symm

omit [DecimalContext] in
theorem exists_instrument (horder : order ∈ job.orders) : ∃ instrument,
    job.instrument? order.instrumentId = some instrument ∧
      IsQuantized order.quantity.value instrument.quantityQuantum := by
  obtain ⟨instrument, hmem, hid, hmatch⟩ := job.ordersMatch order horder
  exact ⟨instrument, instrument?_of_mem hmem hid, hmatch.1⟩

theorem exact_rules (hkeeps : Keeps job) : Exact (rules job)
    (fun order => unitOf job order.instrumentId) (fun bar => unitOf job bar.instrumentId)
    job.orders job.orderedBars fun order => order.quantity := by
  have hroom {bar : BacktestBar} {instrument : BacktestInstrument}
      (h : job.instrument? bar.instrumentId = some instrument) :
      (rules job).capacity bar = capacity bar instrument job.costModel := by
    simp only [rules, rulesOf, room, h]
  refine ⟨fun bar order h => by rw [h.opportunity.1], fun order horder => ?_, fun bar hbar => ?_,
    fun order horder x hx q hq hnonneg hle hbound => ?_,
    fun bar hbar x hx q hq hnonneg hle hbound => ?_⟩
  · obtain ⟨instrument, hinstrument, hquantity⟩ := exists_instrument horder
    exact ⟨(mem_unitOf hinstrument).mpr hquantity, order.quantity_pos.le⟩
  · have hmem := mem_orderedBars.mp hbar
    obtain ⟨instrument, -, hinstrument, -⟩ := exists_session hmem
    obtain ⟨hquantized, hcapacity, -⟩ := hkeeps.capacities bar hmem instrument hinstrument
    rw [hroom hinstrument]
    exact ⟨(mem_unitOf hinstrument).mpr hquantized, hcapacity⟩
  · obtain ⟨instrument, hinstrument, -⟩ := exists_instrument horder
    have hdifference := ((mem_unitOf hinstrument).mp hx).sub ((mem_unitOf hinstrument).mp hq)
    exact hkeeps.orders order horder instrument hinstrument _ hdifference (sub_nonneg.mpr hle)
      ((sub_le_self _ hnonneg).trans hbound)
  · have hmem := mem_orderedBars.mp hbar
    obtain ⟨instrument, -, hinstrument, -⟩ := exists_session hmem
    have hdifference := ((mem_unitOf hinstrument).mp hx).sub ((mem_unitOf hinstrument).mp hq)
    rw [hroom hinstrument] at hbound
    exact hkeeps.rooms bar hmem instrument hinstrument _ hdifference (sub_nonneg.mpr hle)
      ((sub_le_self _ hnonneg).trans hbound)

omit [DecimalContext] in
theorem orders_nodup : job.orders.Nodup := List.Nodup.of_map _ job.ordersUnique

omit [DecimalContext] in
theorem orderedBars_nodup : job.orderedBars.Nodup :=
  (Chain.sorted_perm _ _).nodup_iff.mpr (List.Nodup.of_map _ job.dataset.barsUnique)

/-! ## The grants of the allocation -/

theorem fair_grants (job : BacktestJob) : ∀ grant ∈ (fair job).grants,
    grant.bin ∈ job.dataset.bars ∧ grant.demand ∈ job.orders ∧
      EligibleOn job grant.demand grant.bin := by
  obtain ⟨grants, hgrants, hall⟩ := grants_foldl_fill (rules job) job.orders job.orderedBars
    ⟨fun order => order.quantity.value, 0, []⟩
  intro grant hgrant
  have hmem : grant ∈ grants := by
    have h : grant ∈ [] ++ grants := hgrants ▸ hgrant
    simpa using h
  obtain ⟨hbin, hdemand, hallowed⟩ := hall grant hmem
  exact ⟨mem_orderedBars.mp hbin, hdemand, hallowed⟩

noncomputable def plannedFor (job : BacktestJob) (id : UUID) : List (UUID × Decimal) :=
  placedFor (Backtest.plan job).placements id

theorem plannedFor_eq (horder : order ∈ job.orders) : plannedFor job order.orderId =
    ((fair job).grants.filter (·.demand = order)).map fun grant =>
      (grant.bin.barId, grant.quantity) := by
  rw [plannedFor, placements_eq, placedFor, List.filter_map, List.map_map]
  have hfilter : (fair job).grants.filter ((fun item : Placement =>
      decide (item.order.orderId = order.orderId)) ∘ placementOf) =
      (fair job).grants.filter (·.demand = order) := by
    refine List.filter_congr fun grant hgrant => ?_
    have hdemand := (fair_grants job grant hgrant).2.1
    exact decide_eq_decide.mpr ⟨order_eq hdemand horder, fun h => congrArg _ h⟩
  rw [hfilter]
  rfl

theorem plannedOn_eq (hbar : bar ∈ job.dataset.bars) :
    plannedOn job (plannedFor job) bar = given (fair job).grants bar := by
  have hperm : (job.orders.flatMap fun order => plannedFor job order.orderId).Perm
      ((fair job).grants.map fun grant => (grant.bin.barId, grant.quantity)) := by
    have hunique : job.orders.Nodup := orders_nodup
    have hgroups := Chain.perm_flatMap_filter
        (fun grant : Grant BacktestOrder BacktestBar Decimal =>
      grant.demand) hunique fun grant hgrant => (fair_grants job grant hgrant).2.1
    have hmapped := hgroups.map fun grant => (grant.bin.barId, grant.quantity)
    rw [List.map_flatMap] at hmapped
    refine List.Perm.trans (List.Perm.of_eq ?_) hmapped.symm
    exact List.flatMap_congr fun order horder => plannedFor_eq horder
  have hsum := ((hperm.filter (·.1 = bar.barId)).map (·.2)).sum_eq
  rw [plannedOn, hsum, given, List.filter_map, List.map_map]
  have hfilter : (fair job).grants.filter ((fun item : UUID × Decimal =>
      decide (item.1 = bar.barId)) ∘ fun grant => (grant.bin.barId, grant.quantity)) =
      (fair job).grants.filter (·.bin = bar) := by
    refine List.filter_congr fun grant hgrant => ?_
    have hbin := (fair_grants job grant hgrant).1
    exact decide_eq_decide.mpr ⟨fun h =>
      List.inj_on_of_nodup_map job.dataset.barsUnique hbin hbar h,
      fun h => congrArg BacktestBar.barId h⟩
  rw [hfilter]
  rfl

theorem sum_plannedFor (horder : order ∈ job.orders) :
    ((plannedFor job order.orderId).map (·.2)).sum = granted (fair job).grants order := by
  rw [plannedFor_eq horder, List.map_map]
  rfl

theorem plannedUpTo_eq (horder : order ∈ job.orders) {done later : List BacktestBar}
    (hsplit : job.orderedBars = done ++ bar :: later) (hsame : bar.instrumentId =
    order.instrumentId) :
    plannedUpTo job (plannedFor job) order bar =
      granted ((fair job).grants.filter (·.bin ∈ done ++ [bar])) order := by
  have hbefore := before_of_split hsplit
  have hbar : bar ∈ job.dataset.bars := mem_orderedBars.mp (by simp [hsplit])
  rw [plannedUpTo, plannedFor_eq horder, granted, List.filter_map, List.map_map,
    List.filter_filter, List.filter_filter]
  have hfilter : (fair job).grants.filter (fun grant => ((fun item : UUID × Decimal =>
      decide (∃ other ∈ job.dataset.bars, other.barId = item.1 ∧ other.opensAt ≤ bar.opensAt)) ∘
        fun grant => (grant.bin.barId, grant.quantity)) grant && decide (grant.demand = order)) =
      (fair job).grants.filter (fun grant => decide (grant.demand = order) &&
        decide (grant.bin ∈ done ++ [bar])) := by
    refine List.filter_congr fun grant hgrant => ?_
    obtain ⟨hbin, -, heligible⟩ := fair_grants job grant hgrant
    by_cases hdemand : grant.demand = order
    · have hinstrument : grant.bin.instrumentId = bar.instrumentId := by
        rw [heligible.opportunity.1, hdemand, hsame]
      simp only [Function.comp_apply, hdemand, decide_true, Bool.and_true, Bool.true_and,
        decide_eq_decide]
      constructor
      · intro h
        obtain ⟨other, hother, hid, hle⟩ := h
        have hsameBar := List.inj_on_of_nodup_map job.dataset.barsUnique hother hbin hid
        rw [hsameBar] at hle
        rcases hle.lt_or_eq with hlt | heq
        · exact List.mem_append_left _ (hbefore.all grant.bin hbin hinstrument hlt)
        · rw [eq_of_opensAt hbin hbar hinstrument heq]
          simp
      · intro h
        refine ⟨grant.bin, hbin, rfl, ?_⟩
        rcases List.mem_append.mp h with h | h
        · exact (hbefore.earlier grant.bin h hinstrument).le
        · rw [List.mem_singleton.mp h]
    · simp [hdemand]
  rw [hfilter]
  rfl

/-! ## The parts of the claim -/

theorem plannedFor_bars (horder : order ∈ job.orders) : ∃ bars : List BacktestBar,
    (plannedFor job order.orderId).map (·.1) = bars.map (·.barId) ∧
    (∀ bar ∈ bars, bar ∈ job.dataset.bars ∧ EligibleOn job order bar) ∧
    bars.Pairwise fun earlier later => earlier.opensAt < later.opensAt := by
  refine ⟨((fair job).grants.filter (·.demand = order)).map (·.bin), ?_, ?_, ?_⟩
  · rw [plannedFor_eq horder, List.map_map, List.map_map]
    rfl
  · intro bar hbar
    obtain ⟨grant, hgrant, rfl⟩ := List.mem_map.mp hbar
    obtain ⟨hmem, hdemand⟩ := List.mem_filter.mp hgrant
    obtain ⟨hbin, -, heligible⟩ := fair_grants job grant hmem
    exact ⟨hbin, of_decide_eq_true hdemand ▸ heligible⟩
  · have hplan : Ascending job [] (Backtest.plan job) := ascending_plan
    have hascending := hplan.pairwise
    rw [placements_eq, List.pairwise_map] at hascending
    rw [List.pairwise_map]
    refine (hascending.filter _).imp_of_mem fun {first second} hfirst hsecond hlt => hlt ?_
    have hfirstDemand := of_decide_eq_true (List.mem_filter.mp hfirst).2
    have hsecondDemand := of_decide_eq_true (List.mem_filter.mp hsecond).2
    show first.demand.orderId = second.demand.orderId
    rw [hfirstDemand, hsecondDemand]

theorem rules_congr {bigger : BacktestJob} (hdataset : bigger.dataset = job.dataset)
    (hcost : bigger.costModel = job.costModel) : rules bigger = rules job := by
  have hsame : ∀ bar order, EligibleOn bigger order bar ↔ EligibleOn job order bar := by
    cases bigger
    cases job
    dsimp only at hdataset hcost
    subst hdataset hcost
    exact fun bar order => ⟨fun h => ⟨h.opportunity, h.tradable, h.priced, h.session, h.first⟩,
      fun h => ⟨h.opportunity, h.tradable, h.priced, h.session, h.first⟩⟩
  have hroom : room bigger = room job := by
    funext bar
    simp only [room, BacktestJob.instrument?, hdataset, hcost]
  rw [rules, rules, hroom]
  exact congrArg (fun allowed => rulesOf allowed (room job))
    (funext fun bar => funext fun order => propext (hsame bar order))

theorem plannedFor_appended {bigger : BacktestJob} (hdataset : bigger.dataset = job.dataset)
    (hcost : bigger.costModel = job.costModel) (horders : bigger.orders = job.orders ++ [order])
    {other : BacktestOrder} (hother : other ∈ job.orders) :
    plannedFor bigger other.orderId = plannedFor job other.orderId := by
  have hunique := bigger.ordersUnique
  rw [horders, List.map_append, List.nodup_append] at hunique
  have hdifferent : ∀ item ∈ job.orders, item ≠ order := by
    intro item hitem heq
    exact hunique.2.2 item.orderId (List.mem_map_of_mem hitem) order.orderId (by simp) (by rw [heq])
  have hnew : order ∉ job.orders := fun h => hdifferent order h rfl
  have hbars : bigger.orderedBars = job.orderedBars := by
    rw [BacktestJob.orderedBars, hdataset]
    rfl
  have hfair : fair bigger = allocate (rules job) (job.orders ++ [order]) job.orderedBars
      fun order => order.quantity.value := by
    rw [fair, rules_congr hdataset hcost, horders, hbars]
  have hapart := allocate_append (rules job) hnew job.orderedBars
    fun order => order.quantity.value
  have hmem : other ∈ bigger.orders := by
    rw [horders]
    exact List.mem_append_left _ hother
  rw [plannedFor_eq hmem, plannedFor_eq hother, hfair]
  have hgrants := hapart.grants
  rw [← fair] at hgrants
  rw [← hgrants, List.filter_filter]
  refine congrArg _ (List.filter_congr fun grant _ => ?_)
  by_cases hdemand : grant.demand = other
  · simp [hdemand, hdifferent other hother]
  · simp [hdemand]

theorem fairSchedule_of_keeps (hlaw : Lawful) (hkeeps : Keeps job)
    (hcapacities : CapacitiesBounded job) : FairSchedule job (plannedFor job) := by
  have hexact := exact_rules hkeeps
  have hunique : job.orderedBars.Nodup := orderedBars_nodup
  obtain ⟨hsound, hgiven⟩ := sound_allocate hexact hunique
  refine ⟨fun bar hbar => ?_, fun order horder item hitem => ?_, fun order horder => ?_,
    fun order horder => plannedFor_bars horder,
    fun earlier hearlier later hlater hsequence bar hbar heligible hgets => ?_,
    fun bigger order hbigger hdataset hcost horders => ?_⟩
  · obtain ⟨instrument, -, hinstrument, -⟩ := exists_session hbar
    have hcapacity : (rules job).capacity bar = capacity bar instrument job.costModel := by
      simp only [rules, rulesOf, room, hinstrument]
    rw [plannedOn_eq hbar]
    refine (hgiven bar (mem_orderedBars.mpr hbar)).trans ?_
    rw [hcapacity]
    exact (hkeeps.capacities bar hbar instrument hinstrument).2.2
  · rw [plannedFor_eq horder] at hitem
    obtain ⟨grant, hgrant, rfl⟩ := List.mem_map.mp hitem
    obtain ⟨hmem, hdemand⟩ := List.mem_filter.mp hgrant
    obtain ⟨hpositive, hunit⟩ := hsound.grants grant hmem
    obtain ⟨-, -, heligible⟩ := fair_grants job grant hmem
    refine ⟨hpositive, fun instrument hinstrument => ?_⟩
    rw [heligible.opportunity.1, of_decide_eq_true hdemand] at hunit
    exact (mem_unitOf hinstrument).mp hunit
  · have hleft := (hsound.bounds order horder).2.1
    rw [hsound.left order] at hleft
    rw [sum_plannedFor horder]
    exact sub_nonneg.mp hleft
  · obtain ⟨before, after, hsplit⟩ := List.append_of_mem hearlier
    obtain ⟨done, rest, hbars⟩ := List.append_of_mem (mem_orderedBars.mpr hbar)
    rw [plannedUpTo_eq hearlier hbars heligible.opportunity.1]
    rw [plannedFor_eq hlater, List.map_map] at hgets
    obtain ⟨grant, hgrant, hid⟩ := List.mem_map.mp hgets
    obtain ⟨hmem, hdemand⟩ := List.mem_filter.mp hgrant
    have hbin := List.inj_on_of_nodup_map job.dataset.barsUnique (fair_grants job grant hmem).1
      hbar hid
    have hgrantLater : grant.demand ∈ after := by
      rw [of_decide_eq_true hdemand]
      have hpairwise : job.orders.Pairwise fun first second =>
          first.sequence < second.sequence := by
        have hsequences : (job.orders.map (·.sequence)).Pairwise (· < ·) := by
          rw [job.sequences]
          exact List.pairwise_lt_range' 1
        exact List.pairwise_map.mp hsequences
      rw [hsplit] at hpairwise hlater
      obtain ⟨-, -, hacross⟩ := List.pairwise_append.mp hpairwise
      rcases List.mem_append.mp hlater with hbeforeLater | hafterLater
      · exact absurd (hacross later hbeforeLater earlier List.mem_cons_self)
          (not_lt.mpr hsequence.le)
      · rcases List.mem_cons.mp hafterLater with rfl | hafterLater
        · exact absurd hsequence (lt_irrefl _)
        · exact hafterLater
    exact priority hexact hunique orders_nodup hsplit hbars heligible hmem
      hbin hgrantLater
  · have hbounded : CapacitiesBounded bigger := by
      unfold CapacitiesBounded
      rw [hdataset, hcost]
      exact hcapacities
    refine ⟨plannedFor bigger order.orderId, ?_⟩
    rw [expectedFillSchedules_eq hlaw hbigger hbounded, groupedBy, horders, List.map_append,
      List.map_singleton]
    refine congrArg _ (congrArg₂ _ (List.map_congr_left fun other hother => ?_) rfl)
    exact congrArg _ (plannedFor_appended hdataset hcost horders hother)

end

/-! ## The contexts of the code -/

section

open scoped PythonArithmetic

/-- The quantities are counted in a decimal place that the quantum is on, and are less than 10^28 of
it; and the product with the participation, as the default context rounds it, reaches no multiple of
the quantum that the product itself does not. -/
def Narrow (job : BacktestJob) : Prop :=
  ∀ instrument ∈ job.dataset.instruments, ∃ place : ℤ,
    IsQuantized instrument.quantityQuantum.value (10 ^ place) ∧
    (∀ order ∈ job.orders, order.instrumentId = instrument.instrumentId →
      order.quantity.value < 10 ^ (28 + place)) ∧
    ∀ bar ∈ job.dataset.bars, bar.instrumentId = instrument.instrumentId →
      bar.volume * job.costModel.maxVolumeParticipation < (10 : Decimal) ^ (28 + place) ∧
      ∀ x : Decimal, IsQuantized x instrument.quantityQuantum →
        x ≤ round (bar.volume * job.costModel.maxVolumeParticipation) →
        x ≤ bar.volume * job.costModel.maxVolumeParticipation

theorem round_of_narrow {place : ℤ} {x quantum : Decimal}
    (hquantum : IsQuantized quantum (10 ^ place))
    (hx : IsQuantized x quantum) (hnonneg : 0 ≤ x) (hlt : x < 10 ^ (28 + place)) : round x = x := by
  refine Significant.round_of_hasDigits
    (Significant.hasDigits_of_isQuantized (hx.trans hquantum) ?_)
  rw [abs_of_nonneg hnonneg]
  exact_mod_cast hlt

/-- The capacity of a bar is a multiple of the quantum that the product covers. -/
theorem capacity_of_narrow {place : ℤ} {bar : BacktestBar} {instrument : BacktestInstrument}
    {cost : BacktestCostModel}
    (hquantum : IsQuantized instrument.quantityQuantum.value (10 ^ place))
    (hlt : bar.volume * cost.maxVolumeParticipation < (10 : Decimal) ^ (28 + place))
    (hreach : ∀ x : Decimal, IsQuantized x instrument.quantityQuantum →
      x ≤ round (bar.volume * cost.maxVolumeParticipation) →
      x ≤ bar.volume * cost.maxVolumeParticipation) :
    IsQuantized (capacity bar instrument cost) instrument.quantityQuantum ∧
      0 ≤ capacity bar instrument cost ∧
      capacity bar instrument cost ≤ bar.volume * cost.maxVolumeParticipation := by
  have hpositive := instrument.quanta_pos.2
  have hproduct : 0 ≤ bar.volume * cost.maxVolumeParticipation.value :=
    mul_nonneg bar.volume_nonneg cost.participation.1.le
  have hmono := Significant.round_mono (K := Decimal) (show 1 ≤ 28 by norm_num)
  have hnonneg : 0 ≤ round (bar.volume * cost.maxVolumeParticipation.value) := by
    have hzero := hmono hproduct
    rwa [Significant.round, if_pos rfl] at hzero
  generalize hvalue : round (bar.volume * cost.maxVolumeParticipation.value) = value
    at hreach hnonneg
  have hwide : capacity bar instrument cost =
      wide (⌊wide (value / instrument.quantityQuantum.value)⌋ * instrument.quantityQuantum) := by
    rw [capacity, hvalue]
    rfl
  -- the value and the quantum are on one place, on which the value is short
  obtain ⟨k, hplace, hshort⟩ : ∃ k : ℤ, IsQuantized value (10 ^ k) ∧ value < 10 ^ (28 + k) := by
    have hdigits : Significant.HasDigits 28 value := by
      rw [← hvalue]
      exact Significant.hasDigits_round (by norm_num) _
    obtain ⟨k, hplace, hshort⟩ := hdigits.exists_place
    rw [abs_of_nonneg hnonneg] at hshort
    exact ⟨k, hplace, by exact_mod_cast hshort⟩
  have hbound : value ≤ 10 ^ (28 + place) := by
    have hpower : round ((10 : Decimal) ^ (28 + place)) = 10 ^ (28 + place) := by
      refine Significant.round_of_hasDigits ⟨1, 28 + place, ?_, by simp⟩
      rw [abs_one]
      exact one_lt_pow₀ (by norm_num) (by norm_num)
    have hle := hmono hlt.le
    rw [← hvalue]
    exact hle.trans_eq hpower
  have hfloor : ⌊wide (value / instrument.quantityQuantum.value)⌋ =
      ⌊value / instrument.quantityQuantum.value⌋ := by
    rcases le_total k place with hle | hle
    · refine Significant.floor_round_div (by norm_num) hplace
        (hquantum.trans (Significant.isQuantized_zpow hle)) hnonneg ?_ hpositive
      exact hshort.trans_le (zpow_le_zpow_right₀ (by norm_num) (by push_cast; omega))
    · refine Significant.floor_round_div (by norm_num)
        (hplace.trans (Significant.isQuantized_zpow hle)) hquantum hnonneg ?_ hpositive
      exact hbound.trans_lt (zpow_lt_zpow_right₀ (by norm_num) (by push_cast; omega))
  have hmultiple : IsQuantized (floorTo value instrument.quantityQuantum.value)
      instrument.quantityQuantum := isQuantized_floorTo hpositive
  have hcovered := hreach _ hmultiple (floorTo_le hpositive)
  have hfloorNonneg := floorTo_nonneg hpositive hnonneg
  have hcapacity : capacity bar instrument cost =
      floorTo value instrument.quantityQuantum.value := by
    have hfits : |floorTo value instrument.quantityQuantum.value| <
        10 ^ (((28 : ℕ) : ℤ) + place) := by
      rw [abs_of_nonneg hfloorNonneg]
      exact_mod_cast hcovered.trans_lt hlt
    have hdigits := Significant.hasDigits_of_isQuantized (hmultiple.trans hquantum) hfits
    rw [hwide, hfloor]
    exact Significant.round_of_hasDigits (hdigits.mono (by norm_num))
  rw [hcapacity]
  exact ⟨hmultiple, hfloorNonneg, hcovered⟩

theorem keeps_of_narrow {job : BacktestJob} (hnarrow : Narrow job) : Keeps job := by
  refine ⟨fun bar hbar instrument hinstrument => ?_,
    fun bar hbar instrument hinstrument x hx hnonneg hle => ?_,
    fun order horder instrument hinstrument x hx hnonneg hle => ?_⟩
  · obtain ⟨hmem, hid⟩ := instrument?_eq_some hinstrument
    obtain ⟨place, hquantum, -, hbars⟩ := hnarrow instrument hmem
    obtain ⟨hlt, hreach⟩ := hbars bar hbar hid.symm
    exact capacity_of_narrow hquantum hlt hreach
  · obtain ⟨hmem, hid⟩ := instrument?_eq_some hinstrument
    obtain ⟨place, hquantum, -, hbars⟩ := hnarrow instrument hmem
    obtain ⟨hlt, hreach⟩ := hbars bar hbar hid.symm
    obtain ⟨-, -, hcovered⟩ := capacity_of_narrow hquantum hlt hreach
    exact round_of_narrow hquantum hx hnonneg ((hle.trans hcovered).trans_lt hlt)
  · have hmem := List.mem_of_find?_eq_some hinstrument
    have hid : instrument.instrumentId = order.instrumentId := by
      simpa using List.find?_some hinstrument
    obtain ⟨place, hquantum, horders, -⟩ := hnarrow instrument hmem
    exact round_of_narrow hquantum hx hnonneg (hle.trans_lt (horders order horder hid.symm))

/-- The schedule of a job whose quantities the default context does not round. -/
theorem expectedFillSchedules_fair {job : BacktestJob} (hjob : job.Valid) (hnarrow : Narrow job)
    {expected : List (UUID × List (UUID × Decimal))}
    (h : expectedFillSchedules job = .success expected) : Fair job expected := by
  have hcapacities := capacitiesBounded_of_success h
  rw [expectedFillSchedules_eq lawful_python hjob hcapacities] at h
  exact ⟨plannedFor job, (Attempt.success.inj h).symm,
    fairSchedule_of_keeps lawful_python (keeps_of_narrow hnarrow) hcapacities⟩

end

end Backtest

namespace BacktestScenario

open Backtest Quantum
open scoped PythonArithmetic

theorem job_expected : expectedFillSchedules job = .success [(1, [(1, 10)])] := by decide +kernel

theorem job_narrow : Narrow job := by
  intro item hitem
  obtain rfl := List.mem_singleton.mp hitem
  refine ⟨0, by decide +kernel, fun other hother _ => ?_, fun other hother _ => ?_⟩
  · obtain rfl := List.mem_singleton.mp hother
    exact (by decide +kernel : order.quantity.value < 10 ^ (28 + 0 : ℤ))
  · obtain rfl := List.mem_singleton.mp hother
    refine ⟨by decide +kernel, fun x _ hle => hle.trans_eq ?_⟩
    exact (by decide +kernel : round (bar.volume * costModel.maxVolumeParticipation) =
      bar.volume * costModel.maxVolumeParticipation)

theorem expectedFillSchedules_fair_filled : Fair job [(1, [(1, 10)])] :=
  expectedFillSchedules_fair ⟨by decide +kernel, by decide +kernel⟩ job_narrow job_expected

/-! ## A volume of 29 digits -/

def wideBar : BacktestBar := { bar with
  volume := decimal 10000000000000000000000000006 0
  volume_nonneg := by decide +kernel }

def wideOrder : BacktestOrder := { order with
  quantity := decimal 20000000000000000000000000000 0
  timeInForce := .gtc
  quantity_pos := by decide +kernel }

def wideJob : BacktestJob := { job with
  dataset := { dataset with
    bars := [wideBar]
    counted := by decide
    barsOrdered := by decide
    barsUnique := by decide
    apart := by decide
    barsValid := by decide +kernel }
  orders := [wideOrder]
  counted := by decide
  ordersOrdered := by decide
  sequences := by decide
  ordersUnique := by decide
  ordersMatch := by decide +kernel
  timeline := by decide
  positions := by decide
  positionQuanta := by decide +kernel
  currencies := by decide }

/-- Four units more are planned than were traded. -/
theorem wideJob_unfair : wideJob.Valid ∧
    expectedFillSchedules wideJob = .success [(1, [(1, 10000000000000000000000000010)])] ∧
    ¬ Fair wideJob [(1, [(1, 10000000000000000000000000010)])] := by
  refine ⟨⟨by decide +kernel, by decide +kernel⟩, by decide +kernel, fun h => ?_⟩
  obtain ⟨planned, hplanned, hfair⟩ := h
  have hone : planned 1 = [(1, 10000000000000000000000000010)] := by
    have hentry := List.cons.inj hplanned
    exact (congrArg Prod.snd hentry.1).symm
  have hcapacity := hfair.capacity wideBar List.mem_cons_self
  have hsum : plannedOn wideJob planned wideBar = 10000000000000000000000000010 := by
    show ((((planned 1 ++ []).filter _).map _).sum : Decimal) = _
    rw [hone]
    decide +kernel
  rw [hsum] at hcapacity
  exact absurd hcapacity (by decide +kernel)

end BacktestScenario

end StonksPaper
