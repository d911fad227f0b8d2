import Mathlib.Data.Nat.Choose.Basic
import StonksPaper.Evaluation.Benchmark

/-!
# The probability of overfitting

The estimate counts in how many halves of the groups the candidate that is best there ranks in the
lower half on the other groups. Candidates are compared by a mean and, where the means are equal, by
their identifiers, so distinct candidates never tie.
-/

namespace StonksPaper

open Chain

namespace Evaluation

/-! ## Halves of the groups -/

theorem length_combinations {α : Type} (xs : List α) (k : ℕ) :
    (combinations xs k).length = xs.length.choose k := by
  induction xs generalizing k with
  | nil => cases k <;> rfl
  | cons x xs ih =>
      cases k with
      | zero => simp [combinations]
      | succ k =>
          rw [combinations, List.length_append, List.length_map, ih, ih, List.length_cons,
            Nat.choose_succ_succ]

theorem sublist_of_mem_combinations {α : Type} {xs ys : List α} {k : ℕ}
    (h : ys ∈ combinations xs k) : ys.Sublist xs ∧ ys.length = k := by
  induction xs generalizing ys k with
  | nil =>
      cases k with
      | zero =>
          rw [combinations, List.mem_singleton] at h
          simp [h]
      | succ k => cases h
  | cons x xs ih =>
      cases k with
      | zero =>
          rw [combinations, List.mem_singleton] at h
          simp [h]
      | succ k =>
          rw [combinations, List.mem_append, List.mem_map] at h
          rcases h with ⟨zs, hzs, rfl⟩ | hys
          · obtain ⟨hsub, hlength⟩ := ih hzs
            exact ⟨hsub.cons_cons x, by rw [List.length_cons, hlength]⟩
          · obtain ⟨hsub, hlength⟩ := ih hys
            exact ⟨hsub.cons x, hlength⟩

/-! ## Blocks -/

/-- Consecutive runs between the values of a monotone function. -/
theorem flatten_runs {f : ℕ → ℕ} (hf : Monotone f) (m : ℕ) :
    ((List.range m).map fun k => List.range' (f k) (f (k + 1) - f k)).flatten =
      List.range' (f 0) (f m - f 0) := by
  induction m with
  | zero => simp
  | succ m ih =>
      have hstart : f 0 ≤ f m := hf (Nat.zero_le m)
      have hnext : f m ≤ f (m + 1) := hf (Nat.le_succ m)
      rw [List.range_succ, List.map_append, List.flatten_append, ih, List.map_singleton,
        List.flatten_singleton]
      have hjoin : List.range' (f 0) (f m - f 0) ++ List.range' (f m) (f (m + 1) - f m) =
          List.range' (f 0) (f m - f 0 + (f (m + 1) - f m)) := by
        rw [← List.range'_append_1]
        congr 2
        omega
      rw [hjoin]
      congr 1
      omega

theorem flatten_groupIndices (count : ℕ) {groups : ℕ} (h : 0 < groups) :
    (groupIndices count groups).flatten = List.range count := by
  have hmono : Monotone fun group => group * count / groups :=
    fun a b hab => Nat.div_le_div_right (Nat.mul_le_mul_right count hab)
  rw [groupIndices, flatten_runs hmono, Nat.zero_mul, Nat.zero_div, Nat.sub_zero,
    Nat.mul_div_cancel_left _ h, List.range_eq_range']

theorem div_le_block (count group : ℕ) {groups : ℕ} (h : 0 < groups) :
    count / groups ≤ (group + 1) * count / groups - group * count / groups := by
  have hsum := Nat.add_div (a := group * count) (b := count) h
  rw [← Nat.add_one_mul] at hsum
  exact Nat.le_sub_of_add_le (by omega)

theorem block_le_div (count group : ℕ) {groups : ℕ} (h : 0 < groups) :
    (group + 1) * count / groups - group * count / groups ≤ (count + groups - 1) / groups := by
  have hhigh := Nat.lt_mul_div_succ (group * count) h
  have hceil : count ≤ groups * ((count + groups - 1) / groups) := by
    have hlt := Nat.lt_mul_div_succ (count + groups - 1) h
    rw [Nat.mul_succ] at hlt
    omega
  have hsum : (group + 1) * count / groups <
      group * count / groups + (count + groups - 1) / groups + 1 := by
    rw [Nat.div_lt_iff_lt_mul h, Nat.add_one_mul]
    calc group * count + count
        < groups * (group * count / groups + 1) + groups * ((count + groups - 1) / groups) :=
          Nat.add_lt_add_of_lt_of_le hhigh hceil
      _ = (group * count / groups + (count + groups - 1) / groups + 1) * groups := by ring
  exact Nat.sub_le_of_le_add (by omega)

theorem length_of_mem_groupIndices {count groups : ℕ} (h : 0 < groups) {block : List ℕ}
    (hblock : block ∈ groupIndices count groups) :
    block.length = count / groups ∨ block.length = (count + groups - 1) / groups := by
  obtain ⟨group, -, rfl⟩ := List.mem_map.mp hblock
  rw [List.length_range']
  have hlow := div_le_block count group h
  have hhigh := block_le_div count group h
  have hnear : (count + groups - 1) / groups ≤ count / groups + 1 := by
    rw [← Nat.add_div_right _ h]
    exact Nat.div_le_div_right (by omega)
  omega

theorem exists_mem_block {count groups group : ℕ} (hcount : groups ≤ count)
    (hgroup : group < groups) : ∃ i ∈ (groupIndices count groups).getD group [], i < count := by
  have hpos : 0 < groups := by omega
  have hblock : (groupIndices count groups).getD group [] =
      List.range' (group * count / groups)
        ((group + 1) * count / groups - group * count / groups) := by
    simp [groupIndices, hgroup]
  have hsize := (Nat.div_pos hcount hpos).trans_le (div_le_block count group hpos)
  have hend : (group + 1) * count / groups ≤ count := by
    have hle : (group + 1) * count / groups ≤ groups * count / groups :=
      Nat.div_le_div_right (Nat.mul_le_mul_right count hgroup)
    rwa [Nat.mul_div_cancel_left _ hpos] at hle
  refine ⟨group * count / groups, ?_, by omega⟩
  rw [hblock, List.mem_range'_1]
  omega

/-! ## Ranks -/

/-- The greatest by the first component has less than half of the list below it by the second. -/
def LowerHalf {α : Type} [LinearOrder α] (keys : List (α × α)) : Prop :=
  ∃ best ∈ keys, (∀ other ∈ keys, other.1 ≤ best.1) ∧
    2 * (keys.filter fun other => other.2 < best.2).length < keys.length

theorem LowerHalf.of_perm {α : Type} [LinearOrder α] {keys keys' : List (α × α)}
    (h : LowerHalf keys) (hperm : keys.Perm keys') : LowerHalf keys' := by
  obtain ⟨best, hbest, hgreatest, hbelow⟩ := h
  refine ⟨best, hperm.mem_iff.mp hbest, fun other hother =>
    hgreatest other (hperm.mem_iff.mpr hother), ?_⟩
  rwa [← (hperm.filter _).length_eq, ← hperm.length_eq]

/-- In a list that ascends, a position counts what is smaller. -/
theorem findIdx_of_ascending {α β : Type} [DecidableEq α] [LinearOrder β] {key : α → β}
    {xs : List α} {x : α} (h : xs.Pairwise fun y z => key y < key z) (hx : x ∈ xs) :
    xs.findIdx (· = x) = (xs.filter fun y => key y < key x).length := by
  induction xs with
  | nil => cases hx
  | cons y ys ih =>
      obtain ⟨hfirst, hrest⟩ := List.pairwise_cons.mp h
      by_cases hy : y = x
      · subst hy
        have hnone : (y :: ys).filter (fun z => key z < key y) = [] := by
          rw [List.filter_eq_nil_iff]
          intro z hz
          rcases List.mem_cons.mp hz with rfl | hz
          · simp
          · simpa using (hfirst z hz).le
        rw [hnone, List.findIdx_cons]
        simp
      · have hmem : x ∈ ys := (List.mem_cons.mp hx).resolve_left (Ne.symm hy)
        rw [List.findIdx_cons, List.filter_cons_of_pos (by simpa using hfirst x hmem),
          List.length_cons, ← ih hrest hmem]
        simp [hy]

/-- The fold keeps the greatest. -/
theorem foldl_best {α β : Type} [LinearOrder β] (first : β × α) (rest : List (β × α)) :
    let best := rest.foldl (fun best other => if best.1 < other.1 then other else best) first
    best ∈ first :: rest ∧ ∀ other ∈ first :: rest, other.1 ≤ best.1 := by
  induction rest generalizing first with
  | nil => simp
  | cons next rest ih =>
      rw [List.foldl_cons]
      obtain ⟨hmem, hgreatest⟩ := ih (if first.1 < next.1 then next else first)
      constructor
      · rcases List.mem_cons.mp hmem with heq | hrest
        · rw [heq]
          split <;> simp
        · exact List.mem_cons_of_mem _ (List.mem_cons_of_mem _ hrest)
      · have hhead := hgreatest _ List.mem_cons_self
        intro other hother
        rcases List.mem_cons.mp hother with rfl | hother
        · refine le_trans ?_ hhead
          split
          · rename_i hlt
            exact hlt.le
          · exact le_rfl
        · rcases List.mem_cons.mp hother with rfl | hrest
          · refine le_trans ?_ hhead
            split
            · exact le_rfl
            · rename_i hnot
              exact not_lt.mp hnot
          · exact hgreatest other (List.mem_cons_of_mem _ hrest)

theorem selectedOf_spec (keyOf : CandidatePredictionSeries → Decimal ×ₗ String)
    {candidates : List CandidatePredictionSeries} (h : candidates ≠ []) :
    ∃ selected ∈ candidates, selectedOf (candidates.map fun value => (keyOf value, value)) =
      some selected ∧ ∀ other ∈ candidates, keyOf other ≤ keyOf selected := by
  cases candidates with
  | nil => exact absurd rfl h
  | cons first rest =>
      obtain ⟨hmem, hgreatest⟩ := foldl_best (keyOf first, first)
        (rest.map fun value => (keyOf value, value))
      rw [← List.map_cons (f := fun value => (keyOf value, value)), List.mem_map] at hmem
      obtain ⟨selected, hselected, heq⟩ := hmem
      refine ⟨selected, hselected, ?_, fun other hother => ?_⟩
      · rw [List.map_cons, selectedOf, ← heq]
      · have hle := hgreatest (keyOf other, other) (by
          rw [← List.map_cons (f := fun value => (keyOf value, value))]
          exact List.mem_map_of_mem hother)
        rwa [← heq] at hle

/-! ## Means -/

variable {observations : List EvaluationObservation}
  {candidates candidates' : List CandidatePredictionSeries} {groups : ℕ}

/-- The return of a candidate on each observation. -/
def returnsOf (observations : List EvaluationObservation) (candidate : CandidatePredictionSeries) :
    List Decimal :=
  List.zipWith (fun predicted value => rounded (position predicted * value.actualReturn))
    candidate.predictions observations

/-- What a candidate is compared by. -/
def rankKey (observations : List EvaluationObservation) (indices : List ℕ)
    (candidate : CandidatePredictionSeries) : Decimal ×ₗ String :=
  let values := indices.filterMap fun index => (returnsOf observations candidate)[index]?
  toLex (rounded (decimalSum values / values.length), candidate.candidateId)

/-- The candidates have a prediction for each observation. -/
def Aligned (observations : List EvaluationObservation)
    (candidates : List CandidatePredictionSeries) : Prop :=
  ∀ value ∈ candidates, value.predictions.length = observations.length

theorem length_returnsOf {candidate : CandidatePredictionSeries}
    (h : candidate.predictions.length = observations.length) :
    (returnsOf observations candidate).length = observations.length := by
  rw [returnsOf, List.length_zipWith, h, min_self]

/-- On some position there is a mean. -/
theorem mapM_keyed (haligned : Aligned observations candidates) {indices : List ℕ}
    (hsome : ∃ i ∈ indices, i < observations.length) :
    candidates.mapM (keyed observations indices) =
      .success (candidates.map fun value => (rankKey observations indices value, value)) := by
  rw [Attempt.mapM_eq_success, List.forall₂_map_right_iff, List.forall₂_same]
  intro value hvalue
  obtain ⟨i, hi, hlt⟩ := hsome
  have hreturn : i < (returnsOf observations value).length := by
    rwa [length_returnsOf (haligned value hvalue)]
  have hnonempty : indices.filterMap (fun index => (returnsOf observations value)[index]?) ≠ [] :=
    List.ne_nil_of_mem (List.mem_filterMap.mpr ⟨i, hi, List.getElem?_eq_getElem hreturn⟩)
  have hmean : candidateMean observations value indices =
      .success (ofLex (rankKey observations indices value)).1 := by
    show mean (indices.filterMap fun index => (returnsOf observations value)[index]?) = _
    rw [mean, if_neg hnonempty]
    rfl
  rw [keyed, hmean]
  rfl

theorem rankKey_inj (hids : (candidates.map (·.candidateId)).Nodup) {indices : List ℕ}
    {value other : CandidatePredictionSeries} (hvalue : value ∈ candidates)
    (hother : other ∈ candidates)
    (h : rankKey observations indices value = rankKey observations indices other) :
    value = other :=
  List.inj_on_of_nodup_map hids hvalue hother (Prod.mk.inj (toLex.injective h)).2

/-- How many candidates are below one. -/
def rankOf (observations : List EvaluationObservation)
    (candidates : List CandidatePredictionSeries) (indices : List ℕ)
    (value : CandidatePredictionSeries) : ℕ :=
  (candidates.filter fun other =>
    rankKey observations indices other < rankKey observations indices value).length

/-- The position of a candidate in the ranking is its rank. -/
theorem findIdx_ranked (observations : List EvaluationObservation) (indices : List ℕ)
    (hids : (candidates.map (·.candidateId)).Nodup)
    {value : CandidatePredictionSeries} (hvalue : value ∈ candidates) :
    let ranked := (sorted (·.1) (candidates.map fun value =>
      (rankKey observations indices value, value))).map (·.2)
    ranked.length = candidates.length ∧
      ranked.findIdx (· = value) = rankOf observations candidates indices value := by
  have hranked : (sorted (·.1) (candidates.map fun value =>
      (rankKey observations indices value, value))).map (·.2) =
        sorted (rankKey observations indices) candidates := by
    have hmap : (sorted (rankKey observations indices) candidates).map
        (fun value => (rankKey observations indices value, value)) =
          sorted (·.1) (candidates.map fun value => (rankKey observations indices value, value)) :=
      List.map_insertionSort _ _ _ _ fun _ _ _ _ => Iff.rfl
    rw [← hmap, List.map_map]
    exact List.map_id _
  have hperm := sorted_perm (rankKey observations indices) candidates
  have hnodup : (sorted (rankKey observations indices) candidates).Nodup :=
    hperm.nodup_iff.mpr (List.Nodup.of_map _ hids)
  have hascending : (sorted (rankKey observations indices) candidates).Pairwise fun y z =>
      rankKey observations indices y < rankKey observations indices z := by
    refine ((sorted_pairwise _ _).and hnodup).imp_of_mem fun hy hz hle => ?_
    refine lt_of_le_of_ne hle.1 fun heq => hle.2 ?_
    exact rankKey_inj hids (mem_sorted.mp hy) (mem_sorted.mp hz) heq
  intro ranked
  refine ⟨?_, ?_⟩
  · show List.length (List.map _ _) = _
    rw [hranked, hperm.length_eq]
  · show List.findIdx _ (List.map _ _) = _
    rw [hranked, findIdx_of_ascending hascending (mem_sorted.mpr hvalue),
      (hperm.filter _).length_eq,
      rankOf]

/-! ## Trials -/

def trainIndices (blocks : List (List ℕ)) (trainGroups : List ℕ) : List ℕ :=
  trainGroups.flatMap fun group => blocks.getD group []

def testIndices (blocks : List (List ℕ)) (trainGroups : List ℕ) : List ℕ :=
  ((List.range blocks.length).filter (· ∉ trainGroups)).flatMap fun group => blocks.getD group []

/-- The keys of a candidate in a trial. -/
def trialKeys (observations : List EvaluationObservation)
    (candidates : List CandidatePredictionSeries) (blocks : List (List ℕ)) (trainGroups : List ℕ) :
    List ((Decimal ×ₗ String) × (Decimal ×ₗ String)) :=
  candidates.map fun value => (rankKey observations (trainIndices blocks trainGroups) value,
    rankKey observations (testIndices blocks trainGroups) value)

/-- The candidate that is best in the training groups of a trial. -/
def Selected (observations : List EvaluationObservation)
    (candidates : List CandidatePredictionSeries) (blocks : List (List ℕ)) (trainGroups : List ℕ)
    (selected : CandidatePredictionSeries) : Prop :=
  selected ∈ candidates ∧ ∀ other ∈ candidates,
    rankKey observations (trainIndices blocks trainGroups) other ≤
      rankKey observations (trainIndices blocks trainGroups) selected

theorem lowerHalf_trialKeys_iff (hids : (candidates.map (·.candidateId)).Nodup)
    {blocks : List (List ℕ)} {trainGroups : List ℕ} {selected : CandidatePredictionSeries}
    (h : Selected observations candidates blocks trainGroups selected) :
    LowerHalf (trialKeys observations candidates blocks trainGroups) ↔
      2 * rankOf observations candidates (testIndices blocks trainGroups) selected <
        candidates.length := by
  have hrank : ∀ value, ((trialKeys observations candidates blocks trainGroups).filter fun other =>
      other.2 < rankKey observations (testIndices blocks trainGroups) value).length =
        rankOf observations candidates (testIndices blocks trainGroups) value := by
    intro value
    rw [trialKeys, List.filter_map, List.length_map]
    rfl
  have hlength : (trialKeys observations candidates blocks trainGroups).length =
      candidates.length := List.length_map _
  obtain ⟨hselected, hgreatest⟩ := h
  constructor
  · rintro ⟨best, hbest, hfirst, hbelow⟩
    obtain ⟨value, hvalue, rfl⟩ := List.mem_map.mp hbest
    rw [hrank, hlength] at hbelow
    have hle := hfirst _ (List.mem_map_of_mem hselected)
    obtain rfl : value = selected :=
      rankKey_inj hids hvalue hselected (le_antisymm (hgreatest value hvalue) hle)
    exact hbelow
  · intro hbelow
    refine ⟨_, List.mem_map_of_mem hselected, ?_, ?_⟩
    · intro other hother
      obtain ⟨value, hvalue, rfl⟩ := List.mem_map.mp hother
      exact hgreatest value hvalue
    · rw [hrank, hlength]
      exact hbelow

/-- The candidates with their keys, by the keys. -/
def ranking (observations : List EvaluationObservation)
    (candidates : List CandidatePredictionSeries) (indices : List ℕ) :
    List CandidatePredictionSeries :=
  (sorted (·.1) (candidates.map fun value => (rankKey observations indices value, value))).map (·.2)

/-- What a trial returns when both of its parts have observations. -/
theorem belowMedian_eq (haligned : Aligned observations candidates) {blocks : List (List ℕ)}
    {trainGroups : List ℕ}
    (htrain : ∃ i ∈ trainIndices blocks trainGroups, i < observations.length)
    (htest : ∃ i ∈ testIndices blocks trainGroups, i < observations.length) :
    belowMedian observations candidates blocks trainGroups = .success (decide (∃ selected ∈
      selectedOf (candidates.map fun value =>
        (rankKey observations (trainIndices blocks trainGroups) value, value)),
      2 * (ranking observations candidates (testIndices blocks trainGroups)).findIdx
        (· = selected) <
          (ranking observations candidates (testIndices blocks trainGroups)).length)) := by
  show ((candidates.mapM (keyed observations (trainIndices blocks trainGroups))) >>= fun trained =>
    (candidates.mapM (keyed observations (testIndices blocks trainGroups))) >>= fun tested =>
      .success (decide (∃ selected ∈ selectedOf trained,
        2 * ((sorted (·.1) tested).map (·.2)).findIdx (· = selected) <
          ((sorted (·.1) tested).map (·.2)).length))) = _
  rw [mapM_keyed haligned htrain, mapM_keyed haligned htest]
  rfl

/-- A trial counts when the selected candidate is in the lower half. -/
theorem belowMedian_spec (haligned : Aligned observations candidates) (hsome : candidates ≠ [])
    (hids : (candidates.map (·.candidateId)).Nodup) {blocks : List (List ℕ)}
    {trainGroups : List ℕ}
    (htrain : ∃ i ∈ trainIndices blocks trainGroups, i < observations.length)
    (htest : ∃ i ∈ testIndices blocks trainGroups, i < observations.length) :
    ∃ below, belowMedian observations candidates blocks trainGroups = .success below ∧
      (below = true ↔ LowerHalf (trialKeys observations candidates blocks trainGroups)) := by
  obtain ⟨selected, hselected, hbest, hgreatest⟩ :=
    selectedOf_spec (rankKey observations (trainIndices blocks trainGroups)) hsome
  obtain ⟨hlength, hrank⟩ :=
    findIdx_ranked observations (testIndices blocks trainGroups) hids hselected
  refine ⟨decide (2 * rankOf observations candidates (testIndices blocks trainGroups) selected <
    candidates.length), ?_, ?_⟩
  · rw [belowMedian_eq haligned htrain htest, ranking, hbest]
    simp only [hlength, hrank, Option.mem_some_iff, exists_eq_left']
  · rw [decide_eq_true_eq, lowerHalf_trialKeys_iff hids ⟨hselected, hgreatest⟩]

/-! ## The estimate -/

def shareOf (below trials : ℕ) : Decimal :=
  Quantum.halfEvenTo (rounded (below / trials)) evaluationQuantum

theorem evaluationQuantum_pos : 0 < evaluationQuantum := by norm_num [evaluationQuantum]

theorem share_thousandths {n : ℤ} (h : |n| < 10 ^ 28) :
    Quantum.halfEvenTo (rounded (n / 1000)) evaluationQuantum = (n / 1000 : Decimal) := by
  have hrounded : rounded ((n : Decimal) / 1000) = n / 1000 :=
    Significant.round_of_hasDigits ⟨n, -3, h, by norm_num [div_eq_mul_inv]⟩
  rw [hrounded]
  refine Quantum.halfEvenTo_of_isQuantized (Quantum.isQuantized_iff.mpr
    ⟨evaluationQuantum_pos, n * 1000000000, ?_⟩)
  rw [evaluationQuantum]
  push_cast
  ring

theorem share_mono {x y : Decimal} (h : x ≤ y) :
    Quantum.halfEvenTo (rounded x) evaluationQuantum ≤
      Quantum.halfEvenTo (rounded y) evaluationQuantum :=
  Quantum.halfEvenTo_mono evaluationQuantum_pos (rounded_mono h)

theorem shareOf_unit {below trials : ℕ} (h : below ≤ trials) (htrials : 0 < trials) :
    0 ≤ shareOf below trials ∧ shareOf below trials ≤ 1 := by
  have hpos : (0 : Decimal) < trials := by exact_mod_cast htrials
  have hle : (below : Decimal) / trials ≤ 1 := by
    rw [div_le_one hpos]
    exact_mod_cast h
  have hnonneg : ((0 : ℤ) : Decimal) / 1000 ≤ below / trials := by
    rw [Int.cast_zero, zero_div]
    positivity
  have hlow := share_mono hnonneg
  have hhigh := share_mono (show (below : Decimal) / trials ≤ ((1000 : ℤ) : Decimal) / 1000 by
    norm_num
    exact hle)
  rw [share_thousandths (by norm_num)] at hlow hhigh
  norm_num at hlow hhigh
  exact ⟨hlow, hhigh⟩

/-- Of a hundred trials at most, all count when the share is one. -/
theorem eq_of_shareOf_eq_one {below trials : ℕ} (hle : below ≤ trials) (htrials : trials ≤ 100)
    (h : shareOf below trials = 1) : below = trials := by
  by_contra hne
  have hlt : below + 1 ≤ trials := by omega
  have hpos : (0 : Decimal) < trials := by exact_mod_cast (show 0 < trials by omega)
  have hshare : (below : Decimal) / trials ≤ ((999 : ℤ) : Decimal) / 1000 := by
    have hbelow : (below : Decimal) + 1 ≤ trials := by exact_mod_cast hlt
    have hmany : (trials : Decimal) ≤ 100 := by exact_mod_cast htrials
    rw [div_le_iff₀ hpos]
    push_cast
    linarith
  have hbound := share_mono hshare
  rw [share_thousandths (by norm_num), ← shareOf, h] at hbound
  norm_num at hbound

theorem quantize_share {below trials : ℕ} (h : below ≤ trials) (htrials : 0 < trials) :
    quantize (rounded ((below : Decimal) / trials)) = .success (shareOf below trials) := by
  obtain ⟨hlow, hhigh⟩ := shareOf_unit h htrials
  have hfits : |shareOf below trials| < 10000000000000000 := by
    rw [abs_of_nonneg hlow]
    linarith
  rw [quantize]
  exact if_pos hfits

/-- In every trial both parts have observations. -/
theorem exists_mem_indices {count : ℕ} (hcount : groups ≤ count) {trainGroups : List ℕ}
    (htwo : 2 ≤ groups) (h : trainGroups ∈ combinations (List.range groups) (groups / 2)) :
    (∃ i ∈ trainIndices (groupIndices count groups) trainGroups, i < count) ∧
      ∃ i ∈ testIndices (groupIndices count groups) trainGroups, i < count := by
  obtain ⟨hsub, hlength⟩ := sublist_of_mem_combinations h
  have hblocks : (groupIndices count groups).length = groups := by simp [groupIndices]
  constructor
  · obtain ⟨group, hgroup⟩ : ∃ group, group ∈ trainGroups := by
      apply List.exists_mem_of_length_pos
      omega
    obtain ⟨i, hi, hlt⟩ := exists_mem_block hcount (List.mem_range.mp (hsub.subset hgroup))
    exact ⟨i, List.mem_flatMap.mpr ⟨group, hgroup, hi⟩, hlt⟩
  · obtain ⟨group, hgroup, hout⟩ : ∃ group < groups, group ∉ trainGroups := by
      by_contra hall
      push Not at hall
      have hle := (List.subperm_of_subset List.nodup_range fun group hgroup =>
        hall group (List.mem_range.mp hgroup)).length_le
      rw [List.length_range, hlength] at hle
      omega
    obtain ⟨i, hi, hlt⟩ := exists_mem_block hcount hgroup
    refine ⟨i, List.mem_flatMap.mpr ⟨group, ?_, hi⟩, hlt⟩
    rw [List.mem_filter, List.mem_range, hblocks]
    exact ⟨hgroup, by simpa using hout⟩

theorem length_trials (hgroups : 4 ≤ groups ∧ groups ≤ 8) :
    0 < (combinations (List.range groups) (groups / 2)).length ∧
      (combinations (List.range groups) (groups / 2)).length ≤ 100 := by
  rw [length_combinations, List.length_range]
  have hcases : groups = 4 ∨ groups = 5 ∨ groups = 6 ∨ groups = 7 ∨ groups = 8 := by omega
  rcases hcases with rfl | rfl | rfl | rfl | rfl <;> decide

theorem exists_mapM {α β : Type} {f : α → Call β} {P : α → β → Prop} {xs : List α}
    (h : ∀ x ∈ xs, ∃ y, f x = .success y ∧ P x y) :
    ∃ ys, xs.mapM f = Attempt.success ys ∧ List.Forall₂ P xs ys := by
  induction xs with
  | nil => exact ⟨[], rfl, .nil⟩
  | cons x xs ih =>
      obtain ⟨hx, hxs⟩ := List.forall_mem_cons.mp h
      obtain ⟨y, hy, hp⟩ := hx
      obtain ⟨ys, hys, hps⟩ := ih hxs
      refine ⟨y :: ys, ?_, .cons hp hps⟩
      rw [List.mapM_cons, hy, Attempt.success_bind, hys]
      rfl

/-- The estimate is the share of the trials in which the selected candidate is in the lower
half. -/
theorem estimate_spec (hgroups : (4 ≤ groups ∧ groups ≤ 8) ∧ groups % 2 = 0)
    (hcandidates : 2 ≤ candidates.length) (hcount : 2 * groups ≤ observations.length)
    (hids : (candidates.map (·.candidateId)).Nodup) (haligned : Aligned observations candidates) :
    ∃ trials : List Bool, List.Forall₂ (fun trainGroups below => below = true ↔
        LowerHalf (trialKeys observations candidates (groupIndices observations.length groups)
          trainGroups)) (combinations (List.range groups) (groups / 2)) trials ∧
      estimateProbabilityOfBacktestOverfitting observations candidates groups =
        .success (some (shareOf (trials.filter id).length trials.length)) := by
  have hsome : candidates ≠ [] := List.ne_nil_of_length_pos (by omega)
  have htrial : ∀ trainGroups ∈ combinations (List.range groups) (groups / 2), ∃ below,
      belowMedian observations candidates (groupIndices observations.length groups) trainGroups =
          .success below ∧
        (below = true ↔ LowerHalf (trialKeys observations candidates
          (groupIndices observations.length groups) trainGroups)) := by
    intro trainGroups hmem
    obtain ⟨htrain, htest⟩ := exists_mem_indices (show groups ≤ observations.length by omega)
      (by omega) hmem
    exact belowMedian_spec haligned hsome hids htrain htest
  obtain ⟨trials, htrials, hspec⟩ := exists_mapM htrial
  have hpredictions : ∀ value ∈ candidates, value.predictions.length = observations.length :=
    haligned
  have hlength : trials.length = (combinations (List.range groups) (groups / 2)).length :=
    hspec.length_eq.symm
  have hpos := (length_trials hgroups.1).1
  have hfew : ¬ (candidates.length < 2 ∨ observations.length < groups * 2) := by omega
  have hquantize := quantize_share (List.length_filter_le id trials) (by omega)
  refine ⟨trials, hspec, ?_⟩
  rw [estimateProbabilityOfBacktestOverfitting, if_neg hfew,
    (raiseUnless_eq_success (u := ())).mpr hgroups, Attempt.success_bind,
    (raiseUnless_eq_success (u := ())).mpr hpredictions, Attempt.success_bind, htrials,
    Attempt.success_bind, hquantize]
  rfl

/-! ## Fairness -/

/-- Candidates whose keys agree in every trial, in some order, have one estimate. -/
theorem estimate_congr (hgroups : (4 ≤ groups ∧ groups ≤ 8) ∧ groups % 2 = 0)
    (hcandidates : 2 ≤ candidates.length) (hcount : 2 * groups ≤ observations.length)
    (hids : (candidates.map (·.candidateId)).Nodup)
    (hids' : (candidates'.map (·.candidateId)).Nodup)
    (haligned : Aligned observations candidates ↔ Aligned observations candidates')
    (hkeys : ∀ blocks trainGroups, (trialKeys observations candidates blocks trainGroups).Perm
      (trialKeys observations candidates' blocks trainGroups)) :
    estimateProbabilityOfBacktestOverfitting observations candidates' groups =
      estimateProbabilityOfBacktestOverfitting observations candidates groups := by
  have hlength : candidates'.length = candidates.length := by
    have hperm := (hkeys [] []).length_eq
    rw [trialKeys, trialKeys, List.length_map, List.length_map] at hperm
    exact hperm.symm
  by_cases h : Aligned observations candidates
  · obtain ⟨trials, hspec, heq⟩ := estimate_spec hgroups hcandidates hcount hids h
    obtain ⟨trials', hspec', heq'⟩ := estimate_spec hgroups (hlength ▸ hcandidates) hcount hids'
      (haligned.mp h)
    have hunique : Relator.RightUnique fun trainGroups below => below = true ↔
        LowerHalf (trialKeys observations candidates (groupIndices observations.length groups)
          trainGroups) := by
      intro trainGroups below below' hbelow hbelow'
      exact Bool.eq_iff_iff.mpr (hbelow.trans hbelow'.symm)
    have hsame : trials' = trials := by
      refine List.right_unique_forall₂' hunique (hspec'.imp fun trainGroups below hbelow => ?_)
        hspec
      have hperm := hkeys (groupIndices observations.length groups) trainGroups
      exact hbelow.trans ⟨fun hlower => hlower.of_perm hperm.symm,
        fun hlower => hlower.of_perm hperm⟩
    rw [heq, heq', hsame]
  · have hfew : ¬ (candidates.length < 2 ∨ observations.length < groups * 2) := by omega
    have hraised : ∀ values : List CandidatePredictionSeries, ¬ Aligned observations values →
        raiseUnless (∀ value ∈ values, value.predictions.length = observations.length)
          "CPCV candidate predictions must align with observations" = .raised (.valueError
            "CPCV candidate predictions must align with observations") :=
      fun values hvalues => if_neg hvalues
    rw [estimateProbabilityOfBacktestOverfitting, estimateProbabilityOfBacktestOverfitting, hlength,
      if_neg hfew, if_neg hfew, hraised candidates h, hraised candidates' fun h' =>
        h (haligned.mpr h')]
    rfl

/-- The predictions of a candidate, each of them multiplied by something positive. -/
structure Scaled (value value' : CandidatePredictionSeries) : Prop where
  candidateId : value.candidateId = value'.candidateId
  predictions : List.Forall₂ (fun predicted predicted' : Decimal =>
    ∃ factor : Decimal, 0 < factor ∧ predicted' = factor * predicted)
    value.predictions value'.predictions

theorem position_scaled {predicted factor : Decimal} (h : 0 < factor) :
    position (factor * predicted) = position predicted := by
  have hneg : factor * predicted < 0 ↔ predicted < 0 := by
    rw [← neg_pos, ← mul_neg, mul_pos_iff_of_pos_left h, neg_pos]
  simp only [position, mul_pos_iff_of_pos_left h, hneg]

/-- Only the signs of predictions matter. -/
theorem returnsOf_scaled {value value' : CandidatePredictionSeries} (h : Scaled value value') :
    returnsOf observations value' = returnsOf observations value := by
  obtain ⟨-, hpredictions⟩ := h
  rw [returnsOf, returnsOf]
  generalize value.predictions = predictions at hpredictions
  generalize value'.predictions = predictions' at hpredictions
  induction hpredictions generalizing observations with
  | nil => rfl
  | cons hfactor _ ih =>
      obtain ⟨factor, hpos, rfl⟩ := hfactor
      cases observations with
      | nil => rfl
      | cons observation observations =>
          rw [List.zipWith_cons_cons, List.zipWith_cons_cons, position_scaled hpos, ih]

theorem estimate_of_perm (hgroups : (4 ≤ groups ∧ groups ≤ 8) ∧ groups % 2 = 0)
    (hcandidates : 2 ≤ candidates.length) (hcount : 2 * groups ≤ observations.length)
    (hids : (candidates.map (·.candidateId)).Nodup) (h : candidates.Perm candidates') :
    estimateProbabilityOfBacktestOverfitting observations candidates' groups =
      estimateProbabilityOfBacktestOverfitting observations candidates groups := by
  refine estimate_congr hgroups hcandidates hcount hids ((h.map _).nodup_iff.mp hids) ?_
    fun _ _ => h.map _
  exact ⟨fun haligned value hvalue => haligned value (h.mem_iff.mpr hvalue),
    fun haligned value hvalue => haligned value (h.mem_iff.mp hvalue)⟩

theorem estimate_of_scaled (hgroups : (4 ≤ groups ∧ groups ≤ 8) ∧ groups % 2 = 0)
    (hcandidates : 2 ≤ candidates.length) (hcount : 2 * groups ≤ observations.length)
    (hids : (candidates.map (·.candidateId)).Nodup)
    (h : List.Forall₂ Scaled candidates candidates') :
    estimateProbabilityOfBacktestOverfitting observations candidates' groups =
      estimateProbabilityOfBacktestOverfitting observations candidates groups := by
  have hsame : candidates.map (·.candidateId) = candidates'.map (·.candidateId) :=
    h.map_eq fun _ _ hscaled => hscaled.candidateId
  refine estimate_congr hgroups hcandidates hcount hids (hsame ▸ hids) ?_
    fun blocks trainGroups => ?_
  · exact h.forall_mem_iff fun _ _ hscaled => by rw [hscaled.predictions.length_eq]
  · rw [trialKeys, trialKeys, h.map_eq fun value value' hscaled => ?_]
    simp only [rankKey, returnsOf_scaled hscaled, hscaled.candidateId]

/-- The return of the winner is above that of the other candidate on every observation. -/
def Dominates (observations : List EvaluationObservation)
    (winner other : CandidatePredictionSeries) : Prop :=
  ∀ (i : ℕ) predicted predicted' value, winner.predictions[i]? = some predicted →
    other.predictions[i]? = some predicted' → observations[i]? = some value →
      position predicted' * value.actualReturn < position predicted * value.actualReturn

/-- Where one return is above another, it is not negative and the other is not positive. -/
theorem signs_of_lt {predicted predicted' actual : Decimal}
    (h : position predicted' * actual < position predicted * actual) :
    0 ≤ position predicted * actual ∧ position predicted' * actual ≤ 0 ∧
      (0 < position predicted * actual ∨ position predicted' * actual < 0) := by
  have hcases : ∀ x, position x = 1 ∨ position x = 0 ∨ position x = -1 := by
    intro x
    unfold position
    split_ifs <;> simp
  rcases hcases predicted with hp | hp | hp <;> rcases hcases predicted' with hp' | hp' | hp' <;>
    rw [hp, hp'] at h ⊢ <;> refine ⟨by linarith, by linarith, ?_⟩
  all_goals
    by_contra hnone
    push Not at hnone
    linarith [hnone.1, hnone.2]

/-! ## A winner -/

theorem rounded_zero : rounded 0 = 0 := by rw [rounded, Significant.round, if_pos rfl]

theorem rounded_nonneg {x : Decimal} (h : 0 ≤ x) : 0 ≤ rounded x := by
  have hmono := rounded_mono h
  rwa [rounded_zero] at hmono

theorem rounded_pos {x : Decimal} (h : 0 < x) : 0 < rounded x := Significant.round_pos (by omega) h

theorem rounded_neg (x : Decimal) : rounded (-x) = -rounded x := Significant.round_neg_eq x

/-- A sum of returns that are not negative is positive with one of them. -/
theorem decimalSum_signs {values : List Decimal} (h : ∀ value ∈ values, 0 ≤ value) :
    0 ≤ decimalSum values ∧ ((∃ value ∈ values, 0 < value) → 0 < decimalSum values) := by
  have hfold : ∀ total : Decimal, 0 ≤ total →
      0 ≤ values.foldl (fun total value => rounded (total + value)) total ∧
        ((0 < total ∨ ∃ value ∈ values, 0 < value) →
          0 < values.foldl (fun total value => rounded (total + value)) total) := by
    induction values with
    | nil => simp
    | cons value values ih =>
        intro total htotal
        obtain ⟨hvalue, hvalues⟩ := List.forall_mem_cons.mp h
        have hnext := ih hvalues (rounded (total + value))
            (rounded_nonneg (add_nonneg htotal hvalue))
        refine ⟨hnext.1, fun hpos => hnext.2 ?_⟩
        rcases hpos with hpos | ⟨other, hother, hpos⟩
        · exact .inl (rounded_pos (by linarith))
        · rcases List.mem_cons.mp hother with rfl | hmem
          · exact .inl (rounded_pos (by linarith))
          · exact .inr ⟨other, hmem, hpos⟩
  exact ⟨(hfold 0 le_rfl).1, fun hpos => (hfold 0 le_rfl).2 (.inr hpos)⟩

theorem decimalSum_neg (values : List Decimal) :
    decimalSum (values.map fun value => -value) = -decimalSum values := by
  have hfold : ∀ total : Decimal,
      (values.map fun value => -value).foldl (fun total value => rounded (total + value)) (-total) =
        -values.foldl (fun total value => rounded (total + value)) total := by
    induction values with
    | nil => simp
    | cons value values ih =>
        intro total
        rw [List.map_cons, List.foldl_cons, List.foldl_cons, ← ih, ← rounded_neg, neg_add]
  have hzero := hfold 0
  rwa [neg_zero] at hzero

theorem mean_signs {values : List Decimal} (h : ∀ value ∈ values, 0 ≤ value) :
    0 ≤ rounded (decimalSum values / values.length) ∧
      ((∃ value ∈ values, 0 < value) → 0 < rounded (decimalSum values / values.length)) := by
  obtain ⟨hnonneg, hpos⟩ := decimalSum_signs h
  refine ⟨rounded_nonneg (by positivity), fun hsome => rounded_pos ?_⟩
  obtain ⟨value, hvalue, -⟩ := id hsome
  have hlength : (0 : Decimal) < values.length := by
    exact_mod_cast List.length_pos_of_mem hvalue
  exact div_pos (hpos hsome) hlength

theorem mean_neg (values : List Decimal) :
    rounded (decimalSum (values.map fun value => -value) /
        ((values.map fun value => -value).length : ℕ)) =
      -rounded (decimalSum values / values.length) := by
  rw [decimalSum_neg, List.length_map, neg_div, rounded_neg]

/-- A candidate that dominates another is above it in every part of the groups. -/
theorem rankKey_lt_of_dominates {winner other : CandidatePredictionSeries}
    (hwinner : winner.predictions.length = observations.length)
    (hother : other.predictions.length = observations.length)
    (h : Dominates observations winner other) {indices : List ℕ}
    (hsome : ∃ i ∈ indices, i < observations.length) :
    rankKey observations indices other < rankKey observations indices winner := by
  have hsigns : ∀ (i : ℕ) x y, (returnsOf observations winner)[i]? = some x →
      (returnsOf observations other)[i]? = some y → 0 ≤ x ∧ 0 ≤ -y ∧ (0 < x ∨ 0 < -y) := by
    intro i x y hx hy
    obtain ⟨predicted, value, hpredicted, hvalue, rfl⟩ := List.getElem?_zipWith_eq_some.mp hx
    obtain ⟨predicted', value', hpredicted', hvalue', rfl⟩ := List.getElem?_zipWith_eq_some.mp hy
    obtain rfl : value = value' := Option.some.inj (hvalue.symm.trans hvalue')
    obtain ⟨hlow, hhigh, hstrict⟩ := signs_of_lt (h i _ _ _ hpredicted hpredicted' hvalue)
    rw [← rounded_neg]
    refine ⟨rounded_nonneg hlow, rounded_nonneg (by linarith), ?_⟩
    rcases hstrict with hpos | hneg
    · exact .inl (rounded_pos hpos)
    · exact .inr (rounded_pos (by linarith))
  have hlength := length_returnsOf hwinner
  have hlength' := length_returnsOf hother
  have hpair : ∀ i, i < observations.length → ∃ x y, (returnsOf observations winner)[i]? = some x ∧
      (returnsOf observations other)[i]? = some y := fun i hi =>
    ⟨_, _, List.getElem?_eq_getElem (by omega), List.getElem?_eq_getElem (by omega)⟩
  have hwins : ∀ x ∈ indices.filterMap (fun i => (returnsOf observations winner)[i]?), 0 ≤ x := by
    intro x hx
    obtain ⟨i, -, hi⟩ := List.mem_filterMap.mp hx
    obtain ⟨x', y, hx', hy⟩ := hpair i (by
      have hlt := (List.getElem?_eq_some_iff.mp hi).1
      omega)
    exact (hsigns i x y hi hy).1
  have hloses : ∀ y ∈ (indices.filterMap fun i => (returnsOf observations other)[i]?).map
      fun value => -value, 0 ≤ y := by
    intro z hz
    obtain ⟨y, hy, rfl⟩ := List.mem_map.mp hz
    obtain ⟨i, -, hi⟩ := List.mem_filterMap.mp hy
    obtain ⟨x, y', hx, hy'⟩ := hpair i (by
      have hlt := (List.getElem?_eq_some_iff.mp hi).1
      omega)
    exact (hsigns i x y hx hi).2.1
  obtain ⟨hfirst, hfirstPos⟩ := mean_signs hwins
  obtain ⟨hsecond, hsecondPos⟩ := mean_signs hloses
  rw [mean_neg] at hsecond hsecondPos
  rw [rankKey, rankKey, Prod.Lex.toLex_lt_toLex]
  left
  obtain ⟨i, hi, hlt⟩ := hsome
  obtain ⟨x, y, hx, hy⟩ := hpair i hlt
  rcases (hsigns i x y hx hy).2.2 with hpos | hpos
  · have hmean := hfirstPos ⟨x, List.mem_filterMap.mpr ⟨i, hi, hx⟩, hpos⟩
    linarith
  · have hmean := hsecondPos ⟨-y, List.mem_map_of_mem (List.mem_filterMap.mpr ⟨i, hi, hy⟩), hpos⟩
    linarith

/-- A winner is selected in every trial and ranks first. -/
theorem not_lowerHalf_of_dominates (hcandidates : 2 ≤ candidates.length)
    (hids : (candidates.map (·.candidateId)).Nodup) (haligned : Aligned observations candidates)
    {winner : CandidatePredictionSeries} (hwinner : winner ∈ candidates)
    (h : ∀ other ∈ candidates, other ≠ winner → Dominates observations winner other)
    {blocks : List (List ℕ)} {trainGroups : List ℕ}
    (htrain : ∃ i ∈ trainIndices blocks trainGroups, i < observations.length)
    (htest : ∃ i ∈ testIndices blocks trainGroups, i < observations.length) :
    ¬ LowerHalf (trialKeys observations candidates blocks trainGroups) := by
  have hless : ∀ {indices : List ℕ}, (∃ i ∈ indices, i < observations.length) →
      ∀ other ∈ candidates, other ≠ winner →
        rankKey observations indices other < rankKey observations indices winner :=
    fun hsome other hother hne => rankKey_lt_of_dominates (haligned winner hwinner)
      (haligned other hother) (h other hother hne) hsome
  have hselected : Selected observations candidates blocks trainGroups winner := by
    refine ⟨hwinner, fun other hother => ?_⟩
    by_cases hne : other = winner
    · rw [hne]
    · exact (hless htrain other hother hne).le
  have hrank : rankOf observations candidates (testIndices blocks trainGroups) winner =
      candidates.length - 1 := by
    have hnodup : candidates.Nodup := List.Nodup.of_map _ hids
    rw [← List.length_erase_of_mem hwinner, hnodup.erase_eq_filter, rankOf]
    congr 1
    refine List.filter_congr fun other hother => ?_
    by_cases hne : other = winner
    · simp [hne]
    · simp [hless htest other hother hne, hne]
  rw [lowerHalf_trialKeys_iff hids hselected, hrank]
  omega

theorem aligned_of_estimate {estimate : Decimal}
    (h : estimateProbabilityOfBacktestOverfitting observations candidates groups =
      .success (some estimate)) : Aligned observations candidates := by
  unfold estimateProbabilityOfBacktestOverfitting at h
  split at h
  · cases h
  · simp only [Attempt.bind_eq_success, raiseUnless_eq_success, exists_const] at h
    exact h.2.1

/-- The estimate is a fair statistic of ranks: it is a probability over consecutive blocks, the
order of the candidates and the sizes of their predictions do not matter, a winner is never found
overfitted, and certain overfitting means that no selected candidate is ever in the upper half. -/
theorem estimate_fair (hgroups : (4 ≤ groups ∧ groups ≤ 8) ∧ groups % 2 = 0)
    (hcandidates : 2 ≤ candidates.length) (hcount : 2 * groups ≤ observations.length)
    (hids : (candidates.map (·.candidateId)).Nodup) :
    ((groupIndices observations.length groups).length = groups ∧
      (groupIndices observations.length groups).flatten = List.range observations.length ∧
      ∀ block ∈ groupIndices observations.length groups,
        block.length = observations.length / groups ∨
          block.length = (observations.length + groups - 1) / groups) ∧
    (Aligned observations candidates → ∃ estimate,
      estimateProbabilityOfBacktestOverfitting observations candidates groups =
        .success (some estimate) ∧ 0 ≤ estimate ∧ estimate ≤ 1) ∧
    (∀ candidates', candidates.Perm candidates' →
      estimateProbabilityOfBacktestOverfitting observations candidates' groups =
        estimateProbabilityOfBacktestOverfitting observations candidates groups) ∧
    (∀ candidates', List.Forall₂ Scaled candidates candidates' →
      estimateProbabilityOfBacktestOverfitting observations candidates' groups =
        estimateProbabilityOfBacktestOverfitting observations candidates groups) ∧
    (Aligned observations candidates → ∀ winner ∈ candidates,
      (∀ other ∈ candidates, other ≠ winner → Dominates observations winner other) →
        estimateProbabilityOfBacktestOverfitting observations candidates groups =
          .success (some 0)) ∧
    (estimateProbabilityOfBacktestOverfitting observations candidates groups = .success (some 1) →
      ∀ trainGroups ∈ combinations (List.range groups) (groups / 2), ∀ selected,
        Selected observations candidates (groupIndices observations.length groups) trainGroups
          selected → 2 * rankOf observations candidates
            (testIndices (groupIndices observations.length groups) trainGroups) selected <
              candidates.length) := by
  have hpos : 0 < groups := by omega
  have htrials := length_trials hgroups.1
  refine ⟨⟨by simp [groupIndices], flatten_groupIndices _ hpos,
    fun block hblock => length_of_mem_groupIndices hpos hblock⟩, fun haligned => ?_,
    fun candidates' hperm => estimate_of_perm hgroups hcandidates hcount hids hperm,
    fun candidates' hscaled => estimate_of_scaled hgroups hcandidates hcount hids hscaled,
    fun haligned winner hwinner hdominates => ?_, fun hone => ?_⟩
  · obtain ⟨trials, hspec, heq⟩ := estimate_spec hgroups hcandidates hcount hids haligned
    have hlength := hspec.length_eq
    exact ⟨_, heq, shareOf_unit (List.length_filter_le id trials) (by omega)⟩
  · obtain ⟨trials, hspec, heq⟩ := estimate_spec hgroups hcandidates hcount hids haligned
    have hnone : trials.filter id = [] := by
      rw [List.filter_eq_nil_iff]
      intro below hbelow
      obtain ⟨trainGroups, hmem, hlower⟩ := hspec.flip.exists_right hbelow
      obtain ⟨htrain, htest⟩ := exists_mem_indices (show groups ≤ observations.length by omega)
        (by omega) hmem
      exact fun h => not_lowerHalf_of_dominates hcandidates hids haligned hwinner hdominates htrain
        htest (hlower.mp h)
    rw [heq, hnone, List.length_nil, shareOf, Nat.cast_zero, zero_div]
    have hzero := share_thousandths (n := 0) (by norm_num)
    rw [Int.cast_zero, zero_div] at hzero
    rw [hzero]
  · have haligned := aligned_of_estimate hone
    obtain ⟨trials, hspec, heq⟩ := estimate_spec hgroups hcandidates hcount hids haligned
    have hlength := hspec.length_eq
    rw [heq, Attempt.success.injEq, Option.some_inj] at hone
    have hall := eq_of_shareOf_eq_one (List.length_filter_le id trials) (by omega) hone
    intro trainGroups hmem selected hselected
    obtain ⟨below, hbelow, hlower⟩ := hspec.exists_right hmem
    have htrue := List.length_filter_eq_length_iff.mp hall below hbelow
    exact (lowerHalf_trialKeys_iff hids hselected).mp (hlower.mp htrue)

end Evaluation

/-! ## A winner of eight days -/

namespace EvaluationScenario

open Evaluation

def eightDays : List EvaluationObservation := (List.range 8).map observation

def long : CandidatePredictionSeries := ⟨"long/1.0.0", List.replicate 8 1⟩

def idleSeries : CandidatePredictionSeries := ⟨"idle/1.0.0", List.replicate 8 0⟩

theorem dominates_long : Dominates eightDays long idleSeries := by
  intro i predicted predicted' value hpredicted hpredicted' hvalue
  have hlong := List.eq_of_mem_replicate (List.mem_of_getElem? hpredicted)
  have hidle := List.eq_of_mem_replicate (List.mem_of_getElem? hpredicted')
  obtain ⟨day, -, rfl⟩ := List.mem_map.mp (List.mem_of_getElem? hvalue)
  subst hlong hidle
  norm_num [position, observation]

theorem estimate_fair_long :
    estimateProbabilityOfBacktestOverfitting eightDays [idleSeries, long] 4 =
      .success (some 0) := by
  have hcandidates : 2 ≤ [idleSeries, long].length := by decide
  have hcount : 2 * 4 ≤ eightDays.length := by decide
  have hfair := estimate_fair (by decide) hcandidates hcount (by decide)
  refine hfair.2.2.2.2.1 ?_ long (by simp) fun other hother hne => ?_
  · intro value hvalue
    rcases List.mem_cons.mp hvalue with rfl | hvalue
    · rfl
    · rw [List.mem_singleton.mp hvalue]
      rfl
  · rcases List.mem_cons.mp hother with rfl | hother
    · exact dominates_long
    · exact absurd (List.mem_singleton.mp hother) hne

end EvaluationScenario

end StonksPaper
