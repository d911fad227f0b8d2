import StonksPaper.Snapshots.Measure

/-!
# The measure is exact

A payload within the limits has the length of its canonical encoding, if that fits; everything else
raises `ValueError`. The proof needs no tree: a container within the limits has a least number of
levels, its items have fewer, and so no active container can be met again below itself.
-/

namespace StonksPaper

namespace Snapshots

open Budget Tracked

variable {F : Type} [PyFloat F] {heap heap' : Heap F} {levels identity n : ℕ}
  {value payload payload' : Value F} {items : List (Value F)} {entries : List (Key × Value F)}
  {active : Finset ℕ}

/-! ## Limits and cycles -/

/-- The value is JSON, nests no deeper than the levels, and keeps the limits of lists, objects and
keys. -/
def InLimits (heap : Heap F) : ℕ → Value F → Prop
  | 0, _ => False
  | _ + 1, .scalar value => value.isFinite = true
  | levels + 1, .ref identity => match heap identity with
      | .list items =>
          items.length ≤ maxJsonListItems ∧ ∀ item ∈ items, InLimits heap levels item
      | .map entries _ =>
          entries.length ≤ maxJsonMapItems ∧ (∀ entry ∈ entries, entry.1.isValid = true) ∧
            ∀ entry ∈ entries, InLimits heap levels entry.2
  | _ + 1, .other => False

/-- The container occurs in the value. -/
inductive Holds (heap : Heap F) : Value F → ℕ → Prop
  | self (identity : ℕ) : Holds heap (.ref identity) identity
  | child {identity inner : ℕ} {item : Value F} (hitem : item ∈ (heap identity).children)
      (hinner : Holds heap item inner) : Holds heap (.ref identity) inner

/-- A container of the value is its own ancestor. -/
def Cyclic (heap : Heap F) (value : Value F) : Prop :=
  ∃ identity, Holds heap value identity ∧
    ∃ item ∈ (heap identity).children, Holds heap item identity

/-- The items of a container have fewer levels than it has. -/
theorem inLimits_child (h : InLimits heap levels (.ref identity))
    (hitem : value ∈ (heap identity).children) : ∃ less < levels, InLimits heap less value := by
  cases levels with
  | zero => exact absurd h (by simp [InLimits])
  | succ levels =>
      refine ⟨levels, Nat.lt_succ_self levels, ?_⟩
      cases hcontainer : heap identity with
      | list items =>
          simp only [InLimits, hcontainer] at h
          rw [hcontainer] at hitem
          exact h.2 value hitem
      | map entries _ =>
          simp only [InLimits, hcontainer] at h
          rw [hcontainer] at hitem
          obtain ⟨entry, hentry, rfl⟩ := List.mem_map.mp hitem
          exact h.2.2 entry hentry

theorem not_of_descent {P : ℕ → Prop} (h : ∀ m, P m → ∃ less < m, P less) (m : ℕ) : ¬ P m := by
  induction m using Nat.strong_induction_on with
  | _ m ih =>
      intro hm
      obtain ⟨less, hlt, hless⟩ := h m hm
      exact ih less hlt hless

theorem inLimits_of_holds (hheld : Holds heap value identity) (h : InLimits heap levels value) :
    ∃ less ≤ levels, InLimits heap less (.ref identity) := by
  induction hheld generalizing levels with
  | self identity => exact ⟨levels, le_rfl, h⟩
  | child hitem _ ih =>
      obtain ⟨less, hlt, hchild⟩ := inLimits_child h hitem
      obtain ⟨least, hle, hinner⟩ := ih hchild
      exact ⟨least, hle.trans hlt.le, hinner⟩

theorem not_inLimits_of_cyclic (hcyclic : Cyclic heap value) : ¬ InLimits heap levels value := by
  obtain ⟨identity, hheld, item, hitem, hreturn⟩ := hcyclic
  intro h
  obtain ⟨below, -, hbelow⟩ := inLimits_of_holds hheld h
  refine not_of_descent (P := fun m => InLimits heap m (.ref identity)) ?_ below hbelow
  intro m hm
  obtain ⟨less, hlt, hchild⟩ := inLimits_child hm hitem
  obtain ⟨least, hle, hleast⟩ := inLimits_of_holds hreturn hchild
  exact ⟨least, by omega, hleast⟩

/-- Every active container needs more levels than the value. -/
def Above (heap : Heap F) (active : Finset ℕ) (value : Value F) : Prop :=
  ∀ identity ∈ active, ∀ levels, InLimits heap levels (.ref identity) →
    ∃ less < levels, InLimits heap less value

theorem above_empty : Above heap ∅ value := by
  intro identity hmem
  exact absurd hmem (Finset.notMem_empty identity)

theorem Above.not_mem (habove : Above heap active (.ref identity))
    (h : InLimits heap levels (.ref identity)) : identity ∉ active := by
  intro hmem
  exact not_of_descent (P := fun m => InLimits heap m (.ref identity)) (habove identity hmem)
    levels h

theorem Above.child (habove : Above heap active (.ref identity))
    (hitem : value ∈ (heap identity).children) : Above heap (insert identity active) value := by
  intro other hother levels h
  rcases Finset.mem_insert.mp hother with rfl | hmem
  · exact inLimits_child h hitem
  · obtain ⟨less, hlt, hcontainer⟩ := habove other hmem levels h
    obtain ⟨least, hle, hchild⟩ := inLimits_child hcontainer hitem
    exact ⟨least, hle.trans hlt, hchild⟩

/-! ## Scalars and keys -/

theorem measureScalar_measures {scalar : Scalar F} (hfinite : scalar.isFinite = true)
    (h : ∃ text, scalarText scalar = some text ∧ utf8Length text = some n) :
    Measures (measureScalar scalar) n := by
  obtain ⟨text, htext, hlength⟩ := h
  have hscalar : measureScalar scalar = withinBudget n := by
    funext remaining
    simp [measureScalar, hfinite, htext, hlength]
  rw [hscalar]
  exact measures_within _ n

theorem measureScalar_refuses {scalar : Scalar F}
    (h : ¬ (scalar.isFinite = true ∧
      ∃ n text, scalarText scalar = some text ∧ utf8Length text = some n)) :
    Refuses (measureScalar scalar) := by
  intro remaining
  unfold measureScalar
  cases hfinite : scalar.isFinite with
  | false => exact ⟨_, rfl⟩
  | true =>
      cases hlength : (scalarText scalar).bind utf8Length with
      | none => exact ⟨_, rfl⟩
      | some n =>
          obtain ⟨text, htext, hsize⟩ := Option.bind_eq_some_iff.mp hlength
          exact absurd ⟨hfinite, n, text, htext, hsize⟩ h

/-- The exception is a `ValueError`. -/
def IsValueError (e : MeasureError) : Prop := ∃ message, e = .valueError message

theorem withinBudget_raises (size : ℤ) : Raises IsValueError (withinBudget size) :=
  raises_within ⟨_, rfl⟩ size

theorem measureScalar_raises (scalar : Scalar F) : Raises IsValueError (measureScalar scalar) := by
  intro remaining e h
  unfold measureScalar at h
  split at h
  · cases h
    exact ⟨_, rfl⟩
  · split at h
    · cases h
      exact ⟨_, rfl⟩
    · exact withinBudget_raises _ _ _ h

/-! ## Outcomes -/

section

variable {measure : Value F → ℤ → Measuring ℤ} {remaining : ℤ}

omit [PyFloat F] in
theorem restores_measureList (hmeasure : ∀ value remaining, Restores (measure value remaining)) :
    Restores (measureList measure identity items remaining) := by
  unfold measureList
  split
  · exact restores_lift _
  · apply restores_whileActive
    apply (restores_lift _).bind
    intro start
    apply restores_foldlM
    intro total item
    exact (hmeasure item _).bind fun size => restores_pure _

omit [PyFloat F] in
/-- A list that is not active is measured by its items, while it is active. -/
theorem outcomeOf_measureList (hmeasure : ∀ value remaining, Restores (measure value remaining)) :
    outcomeOf (measureList measure identity items remaining) active =
      if items.length > maxJsonListItems then
        raiseValueError "snapshot normalized JSON list exceeds item limit"
      else if identity ∈ active then
        raiseValueError "snapshot normalized JSON contains a cycle"
      else framed (.valueError "snapshot normalized evidence exceeds item size limit")
        (2 + max 0 ((items.length : ℤ) - 1))
        (fun item remaining => outcomeOf (measure item remaining) (insert identity active)) items
        remaining := by
  have hround : ∀ total item, Restores (do
      let size ← measure item (remaining - total)
      return total + size) :=
    fun total item => (hmeasure item _).bind fun size => restores_pure _
  unfold measureList inContainer
  split
  · rfl
  · rw [outcomeOf_whileActive ((restores_lift _).bind fun start =>
      restores_foldlM hround items start)]
    split
    · rfl
    · rw [outcomeOf_bind _ (restores_lift _), outcomeOf_lift]
      simp only [outcomeOf_foldlM hround, outcomeOf_bind _ (hmeasure _ _), outcomeOf_pure]
      rfl

/-- The measure of an entry: its key, a colon, and its value. -/
def entryMeasure (measure : Value F → ℤ → Measuring ℤ) (active : Finset ℕ)
    (entry : Text × Value F) : ℤ → Except MeasureError ℤ :=
  seq (seq (measureScalar (.text entry.1 : Scalar F)) (withinBudget 1))
    fun remaining => outcomeOf (measure entry.2 remaining) active

/-- The round of an entry. -/
def entryRound (measure : Value F → ℤ → Measuring ℤ) (remaining total : ℤ)
    (entry : Text × Value F) : Measuring ℤ := do
  let keySize ← Tracked.lift (measureScalar (.text entry.1 : Scalar F) (remaining - total))
  let colon ← Tracked.lift (withinBudget 1 (remaining - total - keySize))
  let total := total + (keySize + colon)
  let size ← measure entry.2 (remaining - total)
  return total + size

theorem restores_entryRound (hmeasure : ∀ value remaining, Restores (measure value remaining))
    (total : ℤ) (entry : Text × Value F) : Restores (entryRound measure remaining total entry) := by
  apply (restores_lift _).bind
  intro keySize
  apply (restores_lift _).bind
  intro colon
  exact (hmeasure entry.2 _).bind fun size => restores_pure _

theorem outcomeOf_entryRound (hmeasure : ∀ value remaining, Restores (measure value remaining))
    (total : ℤ) (entry : Text × Value F) :
    outcomeOf (entryRound measure remaining total entry) active =
      (entryMeasure measure active entry (remaining - total) >>= fun size =>
        .ok (total + size)) := by
  unfold entryRound entryMeasure seq
  rw [outcomeOf_bind _ (restores_lift _), outcomeOf_lift]
  cases measureScalar (.text entry.1 : Scalar F) (remaining - total) with
  | error e => rfl
  | ok keySize =>
      show outcomeOf (_ >>= _) active = _
      rw [outcomeOf_bind _ (restores_lift _), outcomeOf_lift]
      cases hcolon : withinBudget 1 (remaining - total - keySize) with
      | error e => simp only [bind, Except.bind, hcolon]
      | ok colon =>
          show outcomeOf (_ >>= _) active = _
          have hrest : remaining - (total + (keySize + colon)) =
              remaining - total - (keySize + colon) := by omega
          rw [outcomeOf_bind _ (hmeasure entry.2 _), hrest]
          simp only [bind, Except.bind, hcolon, pure, Except.pure]
          cases outcomeOf (measure entry.2 (remaining - total - (keySize + colon))) active with
          | error e => rfl
          | ok size =>
              show Except.ok (total + (keySize + colon) + size) =
                Except.ok (total + (keySize + colon + size))
              rw [Int.add_assoc]

theorem restores_measureMap (hmeasure : ∀ value remaining, Restores (measure value remaining)) :
    Restores (measureMap measure identity entries remaining) := by
  unfold measureMap
  split
  · exact restores_lift _
  · apply (restores_lift _).bind
    intro keys
    apply restores_whileActive
    apply (restores_lift _).bind
    intro start
    exact restores_foldlM (restores_entryRound hmeasure) keys start

/-- An object that is not active is measured by its entries, while it is active. -/
theorem outcomeOf_measureMap (hmeasure : ∀ value remaining, Restores (measure value remaining)) :
    outcomeOf (measureMap measure identity entries remaining) active =
      if entries.length > maxJsonMapItems then
        raiseValueError "snapshot normalized JSON object exceeds item limit"
      else if entries.all (·.1.isValid) = false then
        raiseValueError "snapshot normalized JSON key is invalid"
      else if identity ∈ active then
        raiseValueError "snapshot normalized JSON contains a cycle"
      else framed (.valueError "snapshot normalized evidence exceeds item size limit")
        (2 + max 0 (((sortedEntries entries).length : ℤ) - 1))
        (entryMeasure measure (insert identity active)) (sortedEntries entries) remaining := by
  unfold measureMap inContainer
  split
  · rfl
  · rw [outcomeOf_bind _ (restores_lift _), outcomeOf_lift, validatedKeys]
    cases entries.all (·.1.isValid) with
    | false => rfl
    | true =>
        show outcomeOf (whileActive _ _ _ (_ >>= fun start =>
          (sortedEntries entries).foldlM (entryRound measure remaining) start)) active = _
        rw [outcomeOf_whileActive ((restores_lift _).bind fun start =>
          restores_foldlM (restores_entryRound hmeasure) _ start)]
        simp only [Bool.true_eq_false, if_false]
        split
        · rfl
        · rw [outcomeOf_bind _ (restores_lift _), outcomeOf_lift]
          simp only [outcomeOf_foldlM (restores_entryRound hmeasure), outcomeOf_entryRound hmeasure]
          rfl

end

theorem restores_measureJson (heap : Heap F) (levels : ℕ) (value : Value F) (remaining : ℤ) :
    Restores (measureJson heap levels value remaining) := by
  induction levels generalizing value remaining with
  | zero => exact restores_lift _
  | succ levels ih =>
      cases value with
      | scalar _ => exact restores_lift _
      | other => exact restores_lift _
      | ref identity =>
          unfold measureJson
          cases heap identity with
          | list items => exact restores_measureList ih
          | map entries _ => exact restores_measureMap ih

/-! ## Exactness -/

omit [PyFloat F] in
theorem mem_sortedEntries {entry : Text × Value F} :
    entry ∈ sortedEntries entries ↔ (.text entry.1, entry.2) ∈ entries := by
  rw [sortedEntries, Chain.mem_sorted, List.mem_filterMap]
  constructor
  · intro h
    obtain ⟨source, hsource, hentry⟩ := h
    obtain ⟨key, item⟩ := source
    cases key with
    | text key =>
        cases hentry
        exact hsource
    | other _ => cases hentry
  · intro h
    exact ⟨_, h, rfl⟩

theorem isText_of_isValid {key : Key} (h : key.isValid = true) : key.isText = true := by
  cases key with
  | text _ => rfl
  | other _ => cases h

theorem measureJson_raises (heap : Heap F) (levels : ℕ) (value : Value F) (active : Finset ℕ) :
    Raises IsValueError fun remaining =>
      outcomeOf (measureJson heap levels value remaining) active := by
  induction levels generalizing value active with
  | zero =>
      intro remaining e h
      cases h
      exact ⟨_, rfl⟩
  | succ levels ih =>
      intro remaining e h
      cases value with
      | scalar value => exact measureScalar_raises value remaining e h
      | other =>
          cases h
          exact ⟨_, rfl⟩
      | ref identity =>
          simp only [measureJson] at h
          cases hcontainer : heap identity with
          | list items =>
              simp only [hcontainer] at h
              rw [outcomeOf_measureList (restores_measureJson heap levels)] at h
              split at h
              · cases h
                exact ⟨_, rfl⟩
              · split at h
                · cases h
                  exact ⟨_, rfl⟩
                · exact raises_framed ⟨_, rfl⟩ _ (fun item _ => ih item _) _ _ h
          | map entries _ =>
              simp only [hcontainer] at h
              rw [outcomeOf_measureMap (restores_measureJson heap levels)] at h
              split at h
              · cases h
                exact ⟨_, rfl⟩
              · split at h
                · cases h
                  exact ⟨_, rfl⟩
                · split at h
                  · cases h
                    exact ⟨_, rfl⟩
                  · refine raises_framed ⟨_, rfl⟩ _ (fun entry _ => ?_) _ _ h
                    exact ((measureScalar_raises _).seq (withinBudget_raises 1)).seq
                      (ih entry.2 _)

theorem frame_cast (length : ℕ) : 2 + max 0 ((length : ℤ) - 1) = ((2 + (length - 1) : ℕ) : ℤ) := by
  omega

/-- Within the limits the measure finds the length of the encoding. -/
theorem measureJson_measures (h : InLimits heap levels value) (habove : Above heap active value)
    (hsized : Sized heap levels value n) :
    Measures (fun remaining => outcomeOf (measureJson heap levels value remaining) active) n := by
  induction levels generalizing value active n with
  | zero => exact absurd h (by simp [InLimits])
  | succ levels ih =>
      cases value with
      | other => exact absurd h (by simp [InLimits])
      | scalar value => exact measureScalar_measures h (sized_scalar.mp hsized)
      | ref identity =>
          have hfree := habove.not_mem h
          have hrestores := restores_measureJson heap levels
          cases hcontainer : heap identity with
          | list items =>
              simp only [measureJson, InLimits, hcontainer] at h ⊢
              obtain ⟨sizes, hsizes, rfl⟩ := (sized_list hcontainer).mp hsized
              have hitems : List.Forall₂ (fun item size => Measures (fun remaining => outcomeOf
                  (measureJson heap levels item remaining) (insert identity active)) size)
                  items sizes := by
                refine List.Forall₂.imp ?_ (List.forall₂_and_left _ _ |>.mpr
                  ⟨fun (item : Value F) (hitem : item ∈ items) => hitem, hsizes⟩)
                intro item size hboth
                refine ih (h.2 item hboth.1) (habove.child ?_) hboth.2
                rw [hcontainer]
                exact hboth.1
              intro remaining
              beta_reduce
              rw [outcomeOf_measureList hrestores, if_neg (not_lt.mpr h.1), if_neg hfree,
                frame_cast]
              exact measures_framed _ _ hitems remaining
          | map entries unique =>
              simp only [measureJson, InLimits, hcontainer] at h ⊢
              obtain ⟨hcount, hvalid, hvalues⟩ := h
              have hall : entries.all (·.1.isValid) = true := List.all_eq_true.mpr hvalid
              have htext : entries.all (·.1.isText) = true :=
                List.all_eq_true.mpr fun entry hentry => isText_of_isValid (hvalid entry hentry)
              obtain ⟨sizes, hsizes, rfl⟩ := (sized_map hcontainer htext).mp hsized
              have hentries : List.Forall₂ (fun entry size => Measures
                  (entryMeasure (measureJson heap levels) (insert identity active) entry) size)
                  (sortedEntries entries) sizes := by
                refine List.Forall₂.imp ?_ (List.forall₂_and_left _ _ |>.mpr
                  ⟨fun (entry : Text × Value F) (hentry : entry ∈ sortedEntries entries) => hentry,
                    hsizes⟩)
                intro entry size hboth
                obtain ⟨hentry, key, inner, hkey, hinner, rfl⟩ := hboth
                have hmem := mem_sortedEntries.mp hentry
                have hvalue := ih (hvalues _ hmem) (habove.child (by
                  rw [hcontainer]
                  exact List.mem_map_of_mem hmem)) hinner
                have hkeyMeasures : Measures (measureScalar (.text entry.1 : Scalar F)) key :=
                  measureScalar_measures rfl ⟨_, rfl, hkey⟩
                exact (hkeyMeasures.seq (measures_within _ 1)).seq hvalue
              intro remaining
              beta_reduce
              rw [outcomeOf_measureMap hrestores, if_neg (not_lt.mpr hcount), hall,
                if_neg (by decide), if_neg hfree, frame_cast]
              exact measures_framed _ _ hentries remaining

/-- An entry is refused with its key or with its value. -/
theorem entryMeasure_refuses {measure : Value F → ℤ → Measuring ℤ} {entry : Text × Value F}
    (hvalue : ¬ (InLimits heap levels entry.2 ∧ ∃ n, Sized heap levels entry.2 n) →
      Refuses fun remaining => outcomeOf (measure entry.2 remaining) active)
    (h : ¬ (InLimits heap levels entry.2 ∧ ∃ n, EntrySized heap levels entry n)) :
    Refuses (entryMeasure measure active entry) := by
  by_cases hkey : ∃ key, utf8Length (quoted entry.1) = some key
  · apply Refuses.seq_right
    apply hvalue
    intro hgood
    obtain ⟨hlimits, size, hsize⟩ := hgood
    obtain ⟨key, hkey⟩ := hkey
    exact h ⟨hlimits, _, key, size, hkey, hsize, rfl⟩
  · have hscalar : Refuses (measureScalar (.text entry.1 : Scalar F)) := by
      apply measureScalar_refuses
      intro hgood
      obtain ⟨-, n, text, htext, hlength⟩ := hgood
      cases htext
      exact hkey ⟨n, hlength⟩
    exact hscalar.seq.seq

/-- Beyond the limits, and where there is no encoding, the measure refuses every budget. -/
theorem measureJson_refuses (h : ¬ (InLimits heap levels value ∧ ∃ n, Sized heap levels value n)) :
    Refuses fun remaining => outcomeOf (measureJson heap levels value remaining) active := by
  induction levels generalizing value active with
  | zero => exact fun remaining => ⟨_, rfl⟩
  | succ levels ih =>
      cases value with
      | other => exact fun remaining => ⟨_, rfl⟩
      | scalar value => exact measureScalar_refuses h
      | ref identity =>
          have hrestores := restores_measureJson heap levels
          cases hcontainer : heap identity with
          | list items =>
              intro remaining
              simp only [measureJson, hcontainer]
              rw [outcomeOf_measureList hrestores]
              split
              · exact ⟨_, rfl⟩
              · split
                · exact ⟨_, rfl⟩
                · rename_i hcount _
                  by_cases hbad : ∃ item ∈ items,
                      ¬ (InLimits heap levels item ∧ ∃ n, Sized heap levels item n)
                  · obtain ⟨item, hitem, hitemBad⟩ := hbad
                    exact refuses_framed _ _ hitem (ih hitemBad) remaining
                  · exfalso
                    have hgood : ∀ item ∈ items,
                        InLimits heap levels item ∧ ∃ n, Sized heap levels item n :=
                      fun item hitem => not_not.mp fun hnot => hbad ⟨item, hitem, hnot⟩
                    obtain ⟨sizes, hsizes⟩ := List.Forall₂.exists_of_forall
                      fun item hitem => (hgood item hitem).2
                    refine h ⟨?_, _, (sized_list hcontainer).mpr ⟨sizes, hsizes, rfl⟩⟩
                    simp only [InLimits, hcontainer]
                    exact ⟨not_lt.mp hcount, fun item hitem => (hgood item hitem).1⟩
          | map entries unique =>
              intro remaining
              simp only [measureJson, hcontainer]
              rw [outcomeOf_measureMap hrestores]
              split
              · exact ⟨_, rfl⟩
              · split
                · exact ⟨_, rfl⟩
                · split
                  · exact ⟨_, rfl⟩
                  · rename_i hcount hvalid _
                    have hkeys := List.all_eq_true.mp (Bool.not_eq_false _ ▸ hvalid)
                    by_cases hbad : ∃ entry ∈ sortedEntries entries,
                        ¬ (InLimits heap levels entry.2 ∧ ∃ n, EntrySized heap levels entry n)
                    · obtain ⟨entry, hentry, hentryBad⟩ := hbad
                      exact refuses_framed _ _ hentry (entryMeasure_refuses ih hentryBad) remaining
                    · exfalso
                      have hgood : ∀ entry ∈ sortedEntries entries,
                          InLimits heap levels entry.2 ∧ ∃ n, EntrySized heap levels entry n :=
                        fun entry hentry => not_not.mp fun hnot => hbad ⟨entry, hentry, hnot⟩
                      obtain ⟨sizes, hsizes⟩ := List.Forall₂.exists_of_forall
                        fun entry hentry => (hgood entry hentry).2
                      have htext : entries.all (·.1.isText) = true := List.all_eq_true.mpr
                        fun entry hentry => isText_of_isValid (hkeys entry hentry)
                      refine h ⟨?_, _, (sized_map hcontainer htext).mpr ⟨sizes, hsizes, rfl⟩⟩
                      simp only [InLimits, hcontainer]
                      refine ⟨not_lt.mp hcount, hkeys, ?_⟩
                      intro entry hentry
                      obtain ⟨key, item⟩ := entry
                      cases key with
                      | text key => exact (hgood (key, item) (mem_sortedEntries.mpr hentry)).1
                      | other _ => exact absurd (hkeys _ hentry) (by simp [Key.isValid])

/-- A value within the limits is encoded within their levels. -/
theorem canonicalJson_of_inLimits {deeper : ℕ} {text : Text} (h : InLimits heap levels value)
    (htext : canonicalJson heap deeper value = some text) :
    canonicalJson heap levels value = some text := by
  induction levels generalizing deeper value text with
  | zero => exact absurd h (by simp [InLimits])
  | succ levels ih =>
      cases deeper with
      | zero => cases htext
      | succ deeper =>
          cases value with
          | scalar _ => exact htext
          | other => cases htext
          | ref identity =>
              cases hcontainer : heap identity with
              | list items =>
                  simp only [InLimits, canonicalJson, hcontainer, Option.bind_eq_bind,
                    Option.bind_eq_some_iff] at h htext ⊢
                  obtain ⟨texts, htexts, hencoded⟩ := htext
                  refine ⟨texts, List.Forall₂.mapM_eq_some.mpr ?_, hencoded⟩
                  refine List.Forall₂.imp ?_ (List.forall₂_and_left _ _ |>.mpr
                    ⟨fun (item : Value F) (hitem : item ∈ items) => hitem,
                      List.Forall₂.mapM_eq_some.mp htexts⟩)
                  intro item text hboth
                  exact ih (h.2 item hboth.1) hboth.2
              | map entries unique =>
                  simp only [InLimits, canonicalJson, hcontainer] at h htext ⊢
                  split at htext
                  · rename_i hkeys
                    rw [if_pos hkeys]
                    obtain ⟨texts, htexts, hencoded⟩ := Option.bind_eq_some_iff.mp htext
                    refine Option.bind_eq_some_iff.mpr
                      ⟨texts, List.Forall₂.mapM_eq_some.mpr ?_, hencoded⟩
                    refine List.Forall₂.imp ?_ (List.forall₂_and_left _ _ |>.mpr
                      ⟨fun (entry : Text × Value F) (hentry : entry ∈ sortedEntries entries) =>
                        hentry, List.Forall₂.mapM_eq_some.mp htexts⟩)
                    intro entry text hboth
                    obtain ⟨inner, hinner, hentryText⟩ := Option.bind_eq_some_iff.mp hboth.2
                    have hlimits := h.2.2 _ (mem_sortedEntries.mp hboth.1)
                    exact Option.bind_eq_some_iff.mpr ⟨inner, ih hlimits hinner, hentryText⟩
                  · cases htext

theorem sized_of_inLimits (h : InLimits heap levels value) (hsize : CanonicalSize heap value n) :
    Sized heap levels value n := by
  obtain ⟨deeper, text, htext, hlength⟩ := hsize
  exact ⟨text, canonicalJson_of_inLimits h htext, hlength⟩

abbrev Bounded (heap : Heap F) (payload : Value F) : Prop :=
  InLimits heap (maxJsonDepth + 1) payload

/-- What is accepted, and with which size. -/
theorem normalizedPayloadSize_eq_ok : normalizedPayloadSize heap payload = .ok n ↔
    Bounded heap payload ∧ CanonicalSize heap payload n ∧ n ≤ maxNormalizedItemBytes := by
  constructor
  · intro h
    by_cases hgood : Bounded heap payload ∧ ∃ n, Sized heap (maxJsonDepth + 1) payload n
    · obtain ⟨hlimits, m, hm⟩ := hgood
      have hmeasures := measureJson_measures hlimits above_empty hm maxNormalizedItemBytes
      by_cases hfits : (m : ℤ) ≤ maxNormalizedItemBytes
      · have hsize := h.symm.trans (hmeasures.1 hfits)
        have heq : n = m := Int.ofNat_inj.mp (Except.ok.inj hsize)
        subst heq
        exact ⟨hlimits, ⟨_, hm⟩, hfits⟩
      · obtain ⟨e, he⟩ := hmeasures.2 (not_le.mp hfits)
        have hboth := h.symm.trans he
        cases hboth
    · have hrefuses : Refuses fun remaining =>
          outcomeOf (measureJson heap (maxJsonDepth + 1) payload remaining) ∅ :=
        measureJson_refuses hgood
      obtain ⟨e, he⟩ := hrefuses maxNormalizedItemBytes
      have hboth := h.symm.trans he
      cases hboth
  · intro h
    obtain ⟨hlimits, hsize, hfits⟩ := h
    have hsized := sized_of_inLimits hlimits hsize
    exact (measureJson_measures hlimits above_empty hsized maxNormalizedItemBytes).1 hfits

/-- What is not accepted raises a `ValueError`. -/
theorem normalizedPayloadSize_cases (heap : Heap F) (payload : Value F) :
    (∃ n : ℕ, normalizedPayloadSize heap payload = .ok n) ∨
      ∃ message, normalizedPayloadSize heap payload = .error (.valueError message) := by
  have hraises := measureJson_raises heap (maxJsonDepth + 1) payload ∅ maxNormalizedItemBytes
  by_cases hgood : Bounded heap payload ∧ ∃ n, Sized heap (maxJsonDepth + 1) payload n
  · obtain ⟨hlimits, n, hn⟩ := hgood
    have hmeasures := measureJson_measures hlimits above_empty hn maxNormalizedItemBytes
    by_cases hfits : (n : ℤ) ≤ maxNormalizedItemBytes
    · exact .inl ⟨n, hmeasures.1 hfits⟩
    · obtain ⟨e, he⟩ := hmeasures.2 (not_le.mp hfits)
      obtain ⟨message, rfl⟩ := hraises e he
      exact .inr ⟨message, he⟩
  · have hrefuses : Refuses fun remaining =>
        outcomeOf (measureJson heap (maxJsonDepth + 1) payload remaining) ∅ :=
      measureJson_refuses hgood
    obtain ⟨e, he⟩ := hrefuses maxNormalizedItemBytes
    obtain ⟨message, rfl⟩ := hraises e he
    exact .inr ⟨message, he⟩

/-! ## Shared containers -/

/-- The values look the same, down to the levels: the containers of one can be shared where those of
the other are copies. -/
def Alike (heap heap' : Heap F) : ℕ → Value F → Value F → Prop
  | 0, _, _ => True
  | _ + 1, .scalar value, .scalar value' => value = value'
  | levels + 1, .ref identity, .ref identity' => match heap identity, heap' identity' with
      | .list items, .list items' => List.Forall₂ (Alike heap heap' levels) items items'
      | .map entries _, .map entries' _ =>
          List.Forall₂ (fun entry entry' => entry.1 = entry'.1 ∧
            Alike heap heap' levels entry.2 entry'.2) entries entries'
      | _, _ => False
  | _ + 1, .other, .other => True
  | _ + 1, _, _ => False

theorem inLimits_of_alike (h : Alike heap heap' levels payload payload')
    (hlimits : InLimits heap levels payload) : InLimits heap' levels payload' := by
  induction levels generalizing payload payload' with
  | zero => exact hlimits
  | succ levels ih =>
      cases payload with
      | scalar value =>
          cases payload' with
          | scalar value' =>
              obtain rfl : value = value' := h
              exact hlimits
          | _ => exact absurd h (by simp [Alike])
      | other => exact absurd hlimits (by simp [InLimits])
      | ref identity =>
          cases payload' with
          | ref identity' =>
              cases hcontainer : heap identity with
              | list items =>
                  cases hcopy : heap' identity' with
                  | map _ _ => exact absurd h (by simp [Alike, hcontainer, hcopy])
                  | list items' =>
                      simp only [Alike, InLimits, hcontainer, hcopy] at h hlimits ⊢
                      refine ⟨h.length_eq ▸ hlimits.1, ?_⟩
                      intro item' hitem'
                      obtain ⟨item, hitem, halike⟩ := h.exists_left hitem'
                      exact ih halike (hlimits.2 item hitem)
              | map entries _ =>
                  cases hcopy : heap' identity' with
                  | list _ => exact absurd h (by simp [Alike, hcontainer, hcopy])
                  | map entries' _ =>
                      simp only [Alike, InLimits, hcontainer, hcopy] at h hlimits ⊢
                      refine ⟨h.length_eq ▸ hlimits.1, ?_, ?_⟩
                      · intro entry' hentry'
                        obtain ⟨entry, hentry, hkey, -⟩ := h.exists_left hentry'
                        exact hkey ▸ hlimits.2.1 entry hentry
                      · intro entry' hentry'
                        obtain ⟨entry, hentry, -, halike⟩ := h.exists_left hentry'
                        exact ih halike (hlimits.2.2 entry hentry)
          | _ => exact absurd h (by simp [Alike])

/-- The encoding does not see which containers are shared. -/
theorem canonicalJson_of_alike (h : Alike heap heap' levels payload payload') :
    canonicalJson heap levels payload = canonicalJson heap' levels payload' := by
  induction levels generalizing payload payload' with
  | zero => rfl
  | succ levels ih =>
      cases payload with
      | scalar value =>
          cases payload' with
          | scalar value' =>
              obtain rfl : value = value' := h
              rfl
          | _ => exact absurd h (by simp [Alike])
      | other =>
          cases payload' with
          | other => rfl
          | _ => exact absurd h (by simp [Alike])
      | ref identity =>
          cases payload' with
          | ref identity' =>
              cases hcontainer : heap identity with
              | list items =>
                  cases hcopy : heap' identity' with
                  | map _ _ => exact absurd h (by simp [Alike, hcontainer, hcopy])
                  | list items' =>
                      simp only [Alike, canonicalJson, hcontainer, hcopy] at h ⊢
                      rw [h.mapM_eq fun item item' halike => ih halike]
              | map entries _ =>
                  cases hcopy : heap' identity' with
                  | list _ => exact absurd h (by simp [Alike, hcontainer, hcopy])
                  | map entries' _ =>
                      simp only [Alike, canonicalJson, hcontainer, hcopy] at h ⊢
                      have htext : entries.all (·.1.isText) = entries'.all (·.1.isText) := by
                        have hall := h.forall_mem_iff fun entry entry' hboth =>
                          (congrArg (Key.isText · = true) hboth.1).to_iff
                        rw [Bool.eq_iff_iff, List.all_eq_true, List.all_eq_true]
                        exact hall
                      rw [htext, (sortedEntries_inStep h).mapM_eq fun entry entry' hboth => by
                        rw [hboth.1, ih hboth.2]]
          | _ => exact absurd h (by simp [Alike])

/-! ## The measure is exact -/

/-- What the measure of a payload must be. -/
structure ExactMeasure (heap : Heap F) (payload : Value F) : Prop where
  /-- Within the limits the size is that of the canonical encoding, if that fits. -/
  sized : Bounded heap payload → ∀ n : ℕ, normalizedPayloadSize heap payload = .ok n ↔
    CanonicalSize heap payload n ∧ n ≤ maxNormalizedItemBytes
  /-- Everything that has no size raises a `ValueError`. -/
  raised : (∀ n : ℕ, normalizedPayloadSize heap payload ≠ .ok n) →
    ∃ message, normalizedPayloadSize heap payload = .error (.valueError message)
  bounded : ¬ Bounded heap payload →
    ∃ message, normalizedPayloadSize heap payload = .error (.valueError message)
  cyclic : Cyclic heap payload →
    ∃ message, normalizedPayloadSize heap payload = .error (.valueError message)
  /-- A payload in which containers are shared is accepted as a copy without sharing is. -/
  shared : ∀ (copies : Heap F) (copy : Value F), Alike copies heap (maxJsonDepth + 1) copy payload →
    ∀ n : ℕ, normalizedPayloadSize copies copy = .ok n → normalizedPayloadSize heap payload = .ok n

/-- The measure is exact on every payload. -/
theorem normalizedPayloadSize_exact (heap : Heap F) (payload : Value F) :
    ExactMeasure heap payload := by
  have hraised : (∀ n : ℕ, normalizedPayloadSize heap payload ≠ .ok n) →
      ∃ message, normalizedPayloadSize heap payload = .error (.valueError message) := by
    intro hnone
    rcases normalizedPayloadSize_cases heap payload with hok | hraised
    · obtain ⟨n, hn⟩ := hok
      exact absurd hn (hnone n)
    · exact hraised
  have hbounded : ¬ Bounded heap payload →
      ∃ message, normalizedPayloadSize heap payload = .error (.valueError message) :=
    fun hlimits => hraised fun n hn => hlimits (normalizedPayloadSize_eq_ok.mp hn).1
  refine ⟨?_, hraised, hbounded, fun hcyclic => hbounded (not_inLimits_of_cyclic hcyclic), ?_⟩
  · intro hlimits n
    rw [normalizedPayloadSize_eq_ok]
    exact ⟨fun h => h.2, fun h => ⟨hlimits, h⟩⟩
  · intro copies copy halike n hcopy
    obtain ⟨hlimits, hsize, hfits⟩ := normalizedPayloadSize_eq_ok.mp hcopy
    obtain ⟨text, htext, hlength⟩ := sized_of_inLimits hlimits hsize
    rw [canonicalJson_of_alike halike] at htext
    exact normalizedPayloadSize_eq_ok.mpr
      ⟨inLimits_of_alike halike hlimits, ⟨_, text, htext, hlength⟩, hfits⟩

/-- No floats. -/
instance : PyFloat Empty := ⟨Empty.elim, Empty.elim⟩

/-- A list that holds an empty list twice, and one that holds itself. -/
def listHeap : Heap Empty
  | 0 => .list [.ref 1, .ref 1]
  | 1 => .list []
  | identity => .list [.ref identity]

example : normalizedPayloadSize listHeap (.ref 0) = .ok 7 := by decide +kernel

example : normalizedPayloadSize listHeap (.ref 2) =
    raiseValueError "snapshot normalized JSON contains a cycle" := by decide +kernel

end Snapshots

end StonksPaper
