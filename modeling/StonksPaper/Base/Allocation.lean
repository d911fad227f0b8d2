import Mathlib.Algebra.BigOperators.Group.List.Basic
import Mathlib.Algebra.Group.Subgroup.Defs
import Mathlib.Algebra.Order.Group.Defs
import Mathlib.Data.List.Induction
import Mathlib.Data.List.Nodup
import Mathlib.Logic.Function.Basic

/-!
# Greedy allocation

Bins of some capacity come one after another, and each is offered to the demands in a fixed order: a
demand that may have the bin takes what it still wants, or what is left of the bin. Where the
subtraction `sub` is exact, no bin and no demand is overdrawn, and a demand that comes earlier is
satisfied before a later one gets anything (`priority`); whatever `sub` does, a demand at the end
takes nothing from the others (`allocate_append`).
-/

namespace Allocation

universe u v w

set_option linter.unusedSectionVars false

structure Grant (ι : Type u) (β : Type v) (K : Type w) where
  demand : ι
  bin : β
  quantity : K

/-- What the demands still want, what is left of the bin in hand, and what was granted. -/
structure Book (ι : Type u) (β : Type v) (K : Type w) where
  left : ι → K
  room : K
  grants : List (Grant ι β K)

variable {ι : Type u} {β : Type v} {K : Type w} [DecidableEq ι] [DecidableEq β] [AddCommGroup K]
  [LinearOrder K]

/-- What the rounds depend on: which demands may have a bin, and how amounts are subtracted. -/
structure Rules (ι : Type u) (β : Type v) (K : Type w) where
  allowed : β → ι → Prop
  decideAllowed : ∀ bin demand, Decidable (allowed bin demand)
  capacity : β → K
  sub : K → K → K

instance (rules : Rules ι β K) (bin : β) (demand : ι) : Decidable (rules.allowed bin demand) :=
  rules.decideAllowed bin demand

variable (rules : Rules ι β K)

/-- The demand gets the quantity. -/
def Book.taken (book : Book ι β K) (bin : β) (demand : ι) (quantity : K) : Book ι β K where
  left := Function.update book.left demand (rules.sub (book.left demand) quantity)
  room := rules.sub book.room quantity
  grants := book.grants ++ [⟨demand, bin, quantity⟩]

def serve (bin : β) (book : Book ι β K) (demand : ι) : Book ι β K :=
  if rules.allowed bin demand ∧ 0 < min (book.left demand) book.room then
    book.taken rules bin demand (min (book.left demand) book.room)
  else book

def fill (demands : List ι) (book : Book ι β K) (bin : β) : Book ι β K :=
  demands.foldl (serve rules bin) { book with room := rules.capacity bin }

def allocate (demands : List ι) (bins : List β) (start : ι → K) : Book ι β K :=
  bins.foldl (fill rules demands) ⟨start, 0, []⟩

/-- What a demand was granted. -/
def granted (grants : List (Grant ι β K)) (demand : ι) : K :=
  ((grants.filter (·.demand = demand)).map (·.quantity)).sum

/-- What was granted of a bin. -/
def given (grants : List (Grant ι β K)) (bin : β) : K :=
  ((grants.filter (·.bin = bin)).map (·.quantity)).sum

variable {rules} {bin : β} {demand : ι} {book : Book ι β K} {demands : List ι} {bins : List β}
  {start : ι → K}

@[simp] theorem taken_left_self (quantity : K) :
    (book.taken rules bin demand quantity).left demand = rules.sub (book.left demand) quantity :=
  Function.update_self ..

theorem taken_left_of_ne {other : ι} (h : other ≠ demand) (quantity : K) :
    (book.taken rules bin demand quantity).left other = book.left other :=
      Function.update_of_ne h ..

@[simp] theorem taken_room (quantity : K) :
    (book.taken rules bin demand quantity).room = rules.sub book.room quantity := rfl

@[simp] theorem taken_grants (quantity : K) :
    (book.taken rules bin demand quantity).grants = book.grants ++ [⟨demand, bin, quantity⟩] := rfl

/-! ## What a round adds -/

theorem serve_cases (rules : Rules ι β K) (bin : β) (book : Book ι β K) (demand : ι) :
    serve rules bin book demand = book ∨
      rules.allowed bin demand ∧ 0 < min (book.left demand) book.room ∧
        serve rules bin book demand =
          book.taken rules bin demand (min (book.left demand) book.room) := by
  by_cases h : rules.allowed bin demand ∧ 0 < min (book.left demand) book.room
  · exact .inr ⟨h.1, h.2, if_pos h⟩
  · exact .inl (if_neg h)

/-- The grants of a fold are those before it, and new ones of the bin to its demands. -/
theorem grants_foldl_serve (rules : Rules ι β K) (bin : β) (demands : List ι) (book : Book ι β K) :
    ∃ grants, (demands.foldl (serve rules bin) book).grants = book.grants ++ grants ∧
      ∀ grant ∈ grants, grant.bin = bin ∧ grant.demand ∈ demands ∧
        rules.allowed bin grant.demand := by
  induction demands generalizing book with
  | nil => exact ⟨[], (List.append_nil _).symm, by simp⟩
  | cons demand rest ih =>
      obtain ⟨later, hlater, hnew⟩ := ih (serve rules bin book demand)
      rw [List.foldl_cons]
      rcases serve_cases rules bin book demand with hsame | ⟨hallowed, -, htaken⟩
      · refine ⟨later, by rw [hlater, hsame], fun grant hgrant => ?_⟩
        obtain ⟨hbin, hdemand, hallowed⟩ := hnew grant hgrant
        exact ⟨hbin, List.mem_cons_of_mem _ hdemand, hallowed⟩
      · refine ⟨_ :: later, by rw [hlater, htaken, taken_grants, List.append_assoc]; rfl, ?_⟩
        intro grant hgrant
        rcases List.mem_cons.mp hgrant with rfl | hgrant
        · exact ⟨rfl, List.mem_cons_self, hallowed⟩
        · obtain ⟨hbin, hdemand, hallowed⟩ := hnew grant hgrant
          exact ⟨hbin, List.mem_cons_of_mem _ hdemand, hallowed⟩

theorem grants_fill (rules : Rules ι β K) (demands : List ι) (book : Book ι β K) (bin : β) :
    ∃ grants, (fill rules demands book bin).grants = book.grants ++ grants ∧
      ∀ grant ∈ grants, grant.bin = bin ∧ grant.demand ∈ demands ∧
        rules.allowed bin grant.demand :=
  grants_foldl_serve rules bin demands _

theorem grants_foldl_fill (rules : Rules ι β K) (demands : List ι) (bins : List β)
    (book : Book ι β K) : ∃ grants, (bins.foldl (fill rules demands) book).grants =
      book.grants ++ grants ∧ ∀ grant ∈ grants, grant.bin ∈ bins ∧ grant.demand ∈ demands ∧
        rules.allowed grant.bin grant.demand := by
  induction bins generalizing book with
  | nil => exact ⟨[], (List.append_nil _).symm, by simp⟩
  | cons bin rest ih =>
      obtain ⟨first, hfirst, hnow⟩ := grants_fill rules demands book bin
      obtain ⟨later, hlater, hnew⟩ := ih (fill rules demands book bin)
      refine ⟨first ++ later, by rw [List.foldl_cons, hlater, hfirst, List.append_assoc], ?_⟩
      intro grant hgrant
      rcases List.mem_append.mp hgrant with hgrant | hgrant
      · obtain ⟨rfl, hdemand, hallowed⟩ := hnow grant hgrant
        exact ⟨List.mem_cons_self, hdemand, hallowed⟩
      · obtain ⟨hbin, hdemand, hallowed⟩ := hnew grant hgrant
        exact ⟨List.mem_cons_of_mem _ hbin, hdemand, hallowed⟩

theorem granted_append (grants later : List (Grant ι β K)) (demand : ι) :
    granted (grants ++ later) demand = granted grants demand + granted later demand := by
  rw [granted, List.filter_append, List.map_append, List.sum_append]
  rfl

theorem given_append (grants later : List (Grant ι β K)) (bin : β) :
    given (grants ++ later) bin = given grants bin + given later bin := by
  rw [given, List.filter_append, List.map_append, List.sum_append]
  rfl

theorem given_eq_zero {grants : List (Grant ι β K)} (h : ∀ grant ∈ grants, grant.bin ≠ bin) :
    given grants bin = 0 := by
  rw [given, List.filter_eq_nil_iff.mpr (by simpa using h), List.map_nil, List.sum_nil]

/-! ## A demand at the end -/

/-- The books agree on all demands but one. -/
structure Apart (other : ι) (book bigger : Book ι β K) : Prop where
  left : ∀ demand, demand ≠ other → bigger.left demand = book.left demand
  grants : bigger.grants.filter (·.demand ≠ other) = book.grants

theorem Apart.serve {other : ι} {bigger : Book ι β K} (h : Apart other book bigger)
    (hroom : bigger.room = book.room) (hne : demand ≠ other) :
    Apart other (serve rules bin book demand) (serve rules bin bigger demand) ∧
      (serve rules bin bigger demand).room = (serve rules bin book demand).room := by
  have hleft := h.left demand hne
  unfold Allocation.serve
  rw [hleft, hroom]
  split
  · refine ⟨⟨fun item hitem => ?_, ?_⟩, by rw [taken_room, taken_room, hroom]⟩
    · by_cases hsame : item = demand
      · subst hsame
        rw [taken_left_self, taken_left_self, hleft]
      · rw [taken_left_of_ne hsame, taken_left_of_ne hsame, h.left item hitem]
    · rw [taken_grants, taken_grants, List.filter_append, h.grants]
      simp [hne]
  · exact ⟨h, hroom⟩

theorem Apart.foldl_serve {other : ι} {bigger : Book ι β K} (h : Apart other book bigger)
    (hroom : bigger.room = book.room) (hnew : other ∉ demands) :
    Apart other (demands.foldl (Allocation.serve rules bin) book)
      (demands.foldl (Allocation.serve rules bin) bigger) := by
  induction demands generalizing book bigger with
  | nil => exact h
  | cons demand rest ih =>
      rw [List.mem_cons, not_or] at hnew
      have hne : demand ≠ other := Ne.symm hnew.1
      have hstep : Apart other (Allocation.serve rules bin book demand)
          (Allocation.serve rules bin bigger demand) ∧ _ := h.serve hroom hne
      obtain ⟨hserved, hsame⟩ := hstep
      exact ih hserved hsame hnew.2

/-- The demand at the end is served after the others. -/
theorem Apart.serve_other {other : ι} {bigger : Book ι β K} (h : Apart other book bigger) :
    Apart other book (Allocation.serve rules bin bigger other) := by
  rcases serve_cases rules bin bigger other with hsame | ⟨-, -, htaken⟩
  · rw [hsame]
    exact h
  · rw [htaken]
    refine ⟨fun item hitem => ?_, ?_⟩
    · rw [taken_left_of_ne hitem, h.left item hitem]
    · rw [taken_grants, List.filter_append, h.grants]
      simp

theorem allocate_append (rules : Rules ι β K) {other : ι} (hnew : other ∉ demands) (bins : List β)
    (start : ι → K) : Apart other (allocate rules demands bins start)
      (allocate rules (demands ++ [other]) bins start) := by
  have hrun (book bigger : Book ι β K) (h : Apart other book bigger) :
      Apart other (bins.foldl (fill rules demands) book)
        (bins.foldl (fill rules (demands ++ [other])) bigger) := by
    induction bins generalizing book bigger with
    | nil => exact h
    | cons bin rest ih =>
        refine ih _ _ ?_
        unfold fill
        rw [List.foldl_append]
        have hopen : Apart other { book with room := rules.capacity bin }
            { bigger with room := rules.capacity bin } := ⟨h.left, h.grants⟩
        exact (hopen.foldl_serve rfl hnew).serve_other
  exact hrun _ _ ⟨fun _ _ => rfl, rfl⟩

/-! ## Where the subtraction is exact -/

variable [IsOrderedAddMonoid K]

/-- The amounts are counted in units, and the subtraction is that of the group on all that is
within what a demand wants and what a bin has. -/
structure Exact (rules : Rules ι β K) (unit : ι → AddSubgroup K) (binUnit : β → AddSubgroup K)
    (demands : List ι) (bins : List β) (start : ι → K) : Prop where
  same : ∀ bin demand, rules.allowed bin demand → binUnit bin = unit demand
  wants : ∀ demand ∈ demands, start demand ∈ unit demand ∧ 0 ≤ start demand
  capacity : ∀ bin ∈ bins, rules.capacity bin ∈ binUnit bin ∧ 0 ≤ rules.capacity bin
  left : ∀ demand ∈ demands, ∀ x ∈ unit demand, ∀ q ∈ unit demand, 0 ≤ q → q ≤ x →
    x ≤ start demand → rules.sub x q = x - q
  room : ∀ bin ∈ bins, ∀ x ∈ binUnit bin, ∀ q ∈ binUnit bin, 0 ≤ q → q ≤ x →
    x ≤ rules.capacity bin → rules.sub x q = x - q

variable {unit : ι → AddSubgroup K} {binUnit : β → AddSubgroup K}

/-- What is left is what was wanted less what was granted. -/
structure Sound (unit : ι → AddSubgroup K) (binUnit : β → AddSubgroup K) (demands : List ι)
    (start : ι → K) (book : Book ι β K) : Prop where
  left : ∀ demand, book.left demand = start demand - granted book.grants demand
  bounds : ∀ demand ∈ demands, book.left demand ∈ unit demand ∧ 0 ≤ book.left demand ∧
    book.left demand ≤ start demand
  grants : ∀ grant ∈ book.grants, 0 < grant.quantity ∧ grant.quantity ∈ binUnit grant.bin

/-- What is left of a bin is its capacity less what was given. -/
structure Rooms (rules : Rules ι β K) (binUnit : β → AddSubgroup K) (bin : β) (book : Book ι β K) :
    Prop where
  room : book.room = rules.capacity bin - given book.grants bin
  bounds : book.room ∈ binUnit bin ∧ 0 ≤ book.room ∧ book.room ≤ rules.capacity bin

theorem min_mem (hexact : Exact rules unit binUnit demands bins start)
    (hsound : Sound unit binUnit demands start book) (hrooms : Rooms rules binUnit bin book)
    (hdemand : demand ∈ demands) (hallowed : rules.allowed bin demand) :
    min (book.left demand) book.room ∈ unit demand := by
  have hleft := (hsound.bounds demand hdemand).1
  have hroom := hrooms.bounds.1
  rw [hexact.same bin demand hallowed] at hroom
  rcases min_choice (book.left demand) book.room with h | h
  · rw [h]
    exact hleft
  · rw [h]
    exact hroom

theorem sound_serve (hexact : Exact rules unit binUnit demands bins start)
    (hsound : Sound unit binUnit demands start book) (hrooms : Rooms rules binUnit bin book)
    (hbin : bin ∈ bins) (hdemand : demand ∈ demands) :
    Sound unit binUnit demands start (serve rules bin book demand) ∧
      Rooms rules binUnit bin (serve rules bin book demand) := by
  rcases serve_cases rules bin book demand with hsame | ⟨hallowed, hpositive, htaken⟩
  · rw [hsame]
    exact ⟨hsound, hrooms⟩
  · have hmem := min_mem hexact hsound hrooms hdemand hallowed
    have hunit := hexact.same bin demand hallowed
    rw [htaken]
    generalize hquantity : min (book.left demand) book.room = quantity at hpositive hmem ⊢
    obtain ⟨hleftMem, -, hleftLe⟩ := hsound.bounds demand hdemand
    obtain ⟨hroomMem, -, hroomLe⟩ := hrooms.bounds
    have hwanted : quantity ≤ book.left demand := hquantity ▸ min_le_left _ _
    have hheld : quantity ≤ book.room := hquantity ▸ min_le_right _ _
    have hleft := hexact.left demand hdemand _ hleftMem _ hmem hpositive.le hwanted hleftLe
    have hroom := hexact.room bin hbin _ hroomMem _ (hunit ▸ hmem) hpositive.le hheld hroomLe
    refine ⟨⟨fun other => ?_, fun other hother => ?_, fun grant hgrant => ?_⟩, ⟨?_, ?_, ?_, ?_⟩⟩
    · rw [taken_grants, granted_append]
      by_cases hother : other = demand
      · subst hother
        rw [taken_left_self, hleft, hsound.left other]
        simp [granted, sub_sub]
      · rw [taken_left_of_ne hother, hsound.left other]
        simp [granted, Ne.symm hother]
    · by_cases hsame : other = demand
      · subst hsame
        rw [taken_left_self, hleft]
        exact ⟨sub_mem hleftMem hmem, sub_nonneg.mpr hwanted,
          (sub_le_self _ hpositive.le).trans hleftLe⟩
      · rw [taken_left_of_ne hsame]
        exact hsound.bounds other hother
    · rcases List.mem_append.mp hgrant with hgrant | hgrant
      · exact hsound.grants grant hgrant
      · rw [List.mem_singleton.mp hgrant]
        exact ⟨hpositive, hunit ▸ hmem⟩
    · rw [taken_grants, given_append, taken_room, hroom, hrooms.room]
      simp [given, sub_sub]
    · rw [taken_room, hroom]
      exact sub_mem hroomMem (hunit ▸ hmem)
    · rw [taken_room, hroom]
      exact sub_nonneg.mpr hheld
    · rw [taken_room, hroom]
      exact (sub_le_self _ hpositive.le).trans hroomLe

theorem sound_foldl_serve (hexact : Exact rules unit binUnit demands bins start)
    (hbin : bin ∈ bins) {served : List ι} (hserved : ∀ demand ∈ served, demand ∈ demands)
    (hsound : Sound unit binUnit demands start book) (hrooms : Rooms rules binUnit bin book) :
    Sound unit binUnit demands start (served.foldl (serve rules bin) book) ∧
      Rooms rules binUnit bin (served.foldl (serve rules bin) book) := by
  induction served generalizing book with
  | nil => exact ⟨hsound, hrooms⟩
  | cons demand rest ih =>
      obtain ⟨hnext, hroomsNext⟩ :=
        sound_serve hexact hsound hrooms hbin (hserved demand List.mem_cons_self)
      exact ih (fun other hother => hserved other (List.mem_cons_of_mem _ hother)) hnext hroomsNext

theorem rooms_open (hexact : Exact rules unit binUnit demands bins start) (hbin : bin ∈ bins)
    (hfresh : ∀ grant ∈ book.grants, grant.bin ≠ bin) :
    Rooms rules binUnit bin { book with room := rules.capacity bin } := by
  obtain ⟨hmem, hnonneg⟩ := hexact.capacity bin hbin
  refine ⟨?_, hmem, hnonneg, le_rfl⟩
  show rules.capacity bin = rules.capacity bin - given book.grants bin
  rw [given_eq_zero hfresh, sub_zero]

theorem sound_fill (hexact : Exact rules unit binUnit demands bins start) (hbin : bin ∈ bins)
    (hfresh : ∀ grant ∈ book.grants, grant.bin ≠ bin)
    (hsound : Sound unit binUnit demands start book) :
    Sound unit binUnit demands start (fill rules demands book bin) ∧
      Rooms rules binUnit bin (fill rules demands book bin) :=
  sound_foldl_serve hexact hbin (fun _ h => h) ⟨hsound.left, hsound.bounds, hsound.grants⟩
    (rooms_open hexact hbin hfresh)

/-! ## Who comes first -/

/-- A demand that may have the bin leaves nothing of it, or nothing to want. -/
theorem settled_serve (hexact : Exact rules unit binUnit demands bins start)
    (hsound : Sound unit binUnit demands start book) (hrooms : Rooms rules binUnit bin book)
    (hbin : bin ∈ bins) (hdemand : demand ∈ demands) (hallowed : rules.allowed bin demand) :
    (serve rules bin book demand).left demand ≤ 0 ∨ (serve rules bin book demand).room ≤ 0 := by
  by_cases hpositive : 0 < min (book.left demand) book.room
  · have htaken : serve rules bin book demand = _ := if_pos ⟨hallowed, hpositive⟩
    obtain ⟨hleftMem, -, hleftLe⟩ := hsound.bounds demand hdemand
    obtain ⟨hroomMem, -, hroomLe⟩ := hrooms.bounds
    rw [htaken, taken_left_self, taken_room]
    rcases le_total (book.left demand) book.room with hle | hle
    · rw [min_eq_left hle] at hpositive ⊢
      rw [hexact.left demand hdemand _ hleftMem _ hleftMem hpositive.le le_rfl hleftLe, sub_self]
      exact .inl le_rfl
    · rw [min_eq_right hle] at hpositive ⊢
      rw [hexact.room bin hbin _ hroomMem _ hroomMem hpositive.le le_rfl hroomLe, sub_self]
      exact .inr le_rfl
  · have hnone : serve rules bin book demand = book := if_neg fun h => hpositive h.2
    rw [hnone]
    exact min_le_iff.mp (not_lt.mp hpositive)

theorem foldl_serve_of_room (hroom : book.room ≤ 0) (rest : List ι) :
    rest.foldl (serve rules bin) book = book := by
  induction rest with
  | nil => rfl
  | cons demand rest ih =>
      have hnone : serve rules bin book demand = book :=
        if_neg fun h => absurd (lt_min_iff.mp h.2).2 (not_lt.mpr hroom)
      rw [List.foldl_cons, hnone, ih]

theorem left_foldl_serve (hleft : book.left demand ≤ 0) (rest : List ι) :
    (rest.foldl (serve rules bin) book).left demand ≤ 0 := by
  induction rest generalizing book with
  | nil => exact hleft
  | cons other rest ih =>
      refine ih ?_
      rcases serve_cases rules bin book other with hsame | ⟨-, hpositive, htaken⟩
      · rw [hsame]
        exact hleft
      · have hne : demand ≠ other := by
          intro heq
          subst heq
          exact absurd (lt_min_iff.mp hpositive).1 (not_lt.mpr hleft)
        rw [htaken, taken_left_of_ne hne]
        exact hleft

/-- Where a later demand gets some of a bin, an earlier one that may have it wants no more. -/
theorem left_fill (hexact : Exact rules unit binUnit demands bins start) (hbin : bin ∈ bins)
    (hunique : demands.Nodup) (hfresh : ∀ grant ∈ book.grants, grant.bin ≠ bin)
    (hsound : Sound unit binUnit demands start book) {before after : List ι}
    (hsplit : demands = before ++ demand :: after) (hallowed : rules.allowed bin demand)
    {grant : Grant ι β K} (hgrant : grant ∈ (fill rules demands book bin).grants)
    (hgrantBin : grant.bin = bin) (hlater : grant.demand ∈ after) :
    (fill rules demands book bin).left demand ≤ 0 := by
  have hmemBefore : ∀ other ∈ before, other ∈ demands := fun other hother => by
    rw [hsplit]
    exact List.mem_append_left _ hother
  have hmem : demand ∈ demands := by
    rw [hsplit]
    exact List.mem_append_right _ List.mem_cons_self
  obtain ⟨hsoundBefore, hroomsBefore⟩ := sound_foldl_serve hexact hbin hmemBefore
    (⟨hsound.left, hsound.bounds, hsound.grants⟩ :
      Sound unit binUnit demands start { book with room := rules.capacity bin })
    (rooms_open hexact hbin hfresh)
  have hfill : fill rules demands book bin = after.foldl (serve rules bin) (serve rules bin
      (before.foldl (serve rules bin) { book with room := rules.capacity bin }) demand) := by
    rw [fill, hsplit, List.foldl_append, List.foldl_cons]
  have hsettled := settled_serve hexact hsoundBefore hroomsBefore hbin hmem hallowed
  obtain ⟨grantsBefore, hbefore, hnew⟩ := grants_foldl_serve rules bin (before ++ [demand])
    { book with room := rules.capacity bin }
  rw [List.foldl_append, List.foldl_cons, List.foldl_nil] at hbefore
  rw [hfill] at hgrant ⊢
  generalize serve rules bin (before.foldl (serve rules bin)
    { book with room := rules.capacity bin }) demand = middle at hsettled hbefore hgrant ⊢
  rcases hsettled with hleft | hroom
  · exact left_foldl_serve hleft after
  · rw [foldl_serve_of_room hroom, hbefore] at hgrant
    rw [hsplit] at hunique
    have hdisjoint := (List.nodup_append.mp hunique).2.2
    exfalso
    rcases List.mem_append.mp hgrant with hold | hnow
    · exact hfresh grant hold hgrantBin
    · obtain ⟨-, hdemand, -⟩ := hnew grant hnow
      rcases List.mem_append.mp hdemand with hdemand | hdemand
      · exact hdisjoint _ hdemand _ (List.mem_cons_of_mem _ hlater) rfl
      · rw [List.mem_singleton.mp hdemand] at hlater
        exact (List.nodup_cons.mp (List.nodup_append.mp hunique).2.1).1 hlater

/-! ## The whole run -/

theorem fresh_foldl_fill {done : List β} (hstart : book.grants = []) (hnot : bin ∉ done) :
    ∀ grant ∈ (done.foldl (fill rules demands) book).grants, grant.bin ≠ bin := by
  obtain ⟨grants, hgrants, hbins⟩ := grants_foldl_fill rules demands done book
  rw [hgrants, hstart, List.nil_append]
  intro grant hgrant heq
  exact hnot (heq ▸ (hbins grant hgrant).1)

theorem sound_start (hexact : Exact rules unit binUnit demands bins start) :
    Sound unit binUnit demands start (⟨start, 0, []⟩ : Book ι β K) := by
  refine ⟨fun demand => ?_, fun demand hdemand => ?_, by simp⟩
  · simp [granted]
  · obtain ⟨hmem, hnonneg⟩ := hexact.wants demand hdemand
    exact ⟨hmem, hnonneg, le_rfl⟩

theorem sound_foldl_fill (hexact : Exact rules unit binUnit demands bins start) {done : List β}
    (hdone : ∀ bin ∈ done, bin ∈ bins) (hunique : done.Nodup) :
    Sound unit binUnit demands start (done.foldl (fill rules demands) ⟨start, 0, []⟩) ∧
      ∀ bin ∈ done, given (done.foldl (fill rules demands) ⟨start, 0, []⟩).grants bin ≤
        rules.capacity bin := by
  induction done using List.reverseRecOn with
  | nil => exact ⟨sound_start hexact, by simp⟩
  | append_singleton done bin ih =>
      have hmem : bin ∈ bins := hdone bin (by simp)
      obtain ⟨huniqueDone, -, hdisjoint⟩ := List.nodup_append.mp hunique
      have hnot : bin ∉ done := fun h => hdisjoint bin h bin List.mem_cons_self rfl
      obtain ⟨hsound, hgiven⟩ := ih (fun other hother => hdone other (by simp [hother])) huniqueDone
      have hfresh : ∀ grant ∈ (done.foldl (fill rules demands) ⟨start, 0, []⟩).grants,
          grant.bin ≠ bin := fresh_foldl_fill rfl hnot
      obtain ⟨hnext, hrooms⟩ := sound_fill hexact hmem hfresh hsound
      rw [List.foldl_append, List.foldl_cons, List.foldl_nil]
      refine ⟨hnext, fun other hother => ?_⟩
      rcases List.mem_append.mp hother with hother | hother
      · obtain ⟨grants, hgrants, hbins⟩ := grants_fill rules demands
          (done.foldl (fill rules demands) ⟨start, 0, []⟩) bin
        have hne : other ≠ bin := fun heq => hnot (heq ▸ hother)
        have hnone : given grants other = 0 := given_eq_zero fun grant hgrant heq =>
          hne (heq.symm.trans (hbins grant hgrant).1)
        rw [hgrants, given_append, hnone, add_zero]
        exact hgiven other hother
      · obtain rfl := List.mem_singleton.mp hother
        have hroom := hrooms.room
        have hnonneg := hrooms.bounds.2.1
        rw [hroom] at hnonneg
        exact sub_nonneg.mp hnonneg

theorem sound_allocate (hexact : Exact rules unit binUnit demands bins start)
    (hunique : bins.Nodup) : Sound unit binUnit demands start (allocate rules demands bins start) ∧
      ∀ bin ∈ bins, given (allocate rules demands bins start).grants bin ≤ rules.capacity bin :=
  sound_foldl_fill hexact (fun _ h => h) hunique

/-- Where a later demand gets some of a bin, an earlier one that may have it has been granted all
that it wants with this bin and those before. -/
theorem priority (hexact : Exact rules unit binUnit demands bins start) (hbins : bins.Nodup)
    (hdemands : demands.Nodup) {before after : List ι} (hsplit : demands = before ++
    demand :: after)
    {done later : List β} (hbinsSplit : bins = done ++ bin :: later)
    (hallowed : rules.allowed bin demand) {grant : Grant ι β K}
    (hgrant : grant ∈ (allocate rules demands bins start).grants) (hbin : grant.bin = bin)
    (hlater : grant.demand ∈ after) :
    granted ((allocate rules demands bins start).grants.filter (·.bin ∈ done ++ [bin])) demand =
      start demand := by
  have hmemBins : bin ∈ bins := by simp [hbinsSplit]
  have hmemDemand : demand ∈ demands := by simp [hsplit]
  obtain ⟨hdoneUnique, hrestUnique, hdisjoint⟩ := List.nodup_append.mp (hbinsSplit ▸ hbins)
  have hnotDone : bin ∉ done := fun h => hdisjoint bin h bin List.mem_cons_self rfl
  have hnotLater := (List.nodup_cons.mp hrestUnique).1
  have hdone : ∀ other ∈ done, other ∈ bins := fun other hother => by simp [hbinsSplit, hother]
  obtain ⟨hsound, -⟩ := sound_foldl_fill hexact hdone hdoneUnique
  have hfresh : ∀ grant ∈ (done.foldl (fill rules demands) ⟨start, 0, []⟩).grants,
      grant.bin ≠ bin := fresh_foldl_fill rfl hnotDone
  obtain ⟨hafter, -⟩ := sound_fill hexact hmemBins hfresh hsound
  have hrun : allocate rules demands bins start = later.foldl (fill rules demands)
      (fill rules demands (done.foldl (fill rules demands) ⟨start, 0, []⟩) bin) := by
    rw [allocate, hbinsSplit, List.foldl_append, List.foldl_cons]
  obtain ⟨earlierGrants, hearlier, hearlierBins⟩ := grants_foldl_fill rules demands (done ++ [bin])
    (⟨start, 0, []⟩ : Book ι β K)
  rw [List.foldl_append, List.foldl_cons, List.foldl_nil, List.nil_append] at hearlier
  obtain ⟨laterGrants, hlaterEq, hlaterBins⟩ := grants_foldl_fill rules demands later
    (fill rules demands (done.foldl (fill rules demands) ⟨start, 0, []⟩) bin)
  have hnow : grant ∈ (fill rules demands
      (done.foldl (fill rules demands) ⟨start, 0, []⟩) bin).grants := by
    rw [hrun, hlaterEq] at hgrant
    refine (List.mem_append.mp hgrant).resolve_right fun h => ?_
    exact hnotLater (hbin ▸ (hlaterBins grant h).1)
  have hleft := left_fill hexact hmemBins hdemands hfresh hsound hsplit hallowed hnow hbin hlater
  have hzero : (fill rules demands (done.foldl (fill rules demands) ⟨start, 0, []⟩) bin).left
      demand = 0 := le_antisymm hleft (hafter.bounds demand hmemDemand).2.1
  rw [hafter.left demand, hearlier] at hzero
  have hkeep : earlierGrants.filter (·.bin ∈ done ++ [bin]) = earlierGrants :=
    List.filter_eq_self.mpr fun item hitem => by simpa using (hearlierBins item hitem).1
  have hdrop : laterGrants.filter (·.bin ∈ done ++ [bin]) = [] := by
    refine List.filter_eq_nil_iff.mpr fun item hitem => ?_
    have hbinLater := (hlaterBins item hitem).1
    have hnot : item.bin ∉ done ++ [bin] := by
      intro hmem
      rcases List.mem_append.mp hmem with hmem | hmem
      · exact hdisjoint _ hmem _ (List.mem_cons_of_mem _ hbinLater) rfl
      · exact hnotLater (List.mem_singleton.mp hmem ▸ hbinLater)
    simpa using hnot
  rw [hrun, hlaterEq, hearlier, List.filter_append, hkeep, hdrop, List.append_nil]
  exact (sub_eq_zero.mp hzero).symm

end Allocation
