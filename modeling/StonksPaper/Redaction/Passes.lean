import StonksPaper.Redaction.Gate

/-!
# Redacted values and the gate

What redaction reaches of a value decides whether its copy passes the gate: the texts that it puts
into the copy, the levels it goes down and the items it copies. The two recursions differ in what
they count. An exception becomes a mapping that redaction has not counted, on a level that it has
not entered; a marker is put below the depth; and what redaction writes may be longer than the
limit.
-/

namespace StonksPaper

open Chain
open Snapshots (CodePoint Text ascii)

namespace Redaction

section

variable {Plain : Type} {t : Traversal Plain} {heap : Heap Plain} {levels identity count : ℕ}
  {active : Finset ℕ} {value : Value Plain} {tree : Tree Plain}

/-! ## What redaction reaches -/

/-- A part of a value that redaction reaches, by what the copy has for it. -/
inductive Reached where
  /-- Something below the depth. -/
  | below
  /-- A text that redaction has written. -/
  | written (text : Text)
  /-- A text that is copied as it is. -/
  | copied (text : Text)
  /-- A container of so many items. -/
  | container (count : ℕ)
  /-- A model that cannot be dumped. -/
  | undumped
deriving DecidableEq

def leaf (levels : ℕ) (reached : List Reached) : List Reached :=
  if levels = 0 then [.below] else reached

/-- An entry of a mapping: a value that a sensitive key conceals is not entered. -/
def Traversal.reachedEntry (t : Traversal Plain) (levels : ℕ)
    (reached : Value Plain → StateM ℕ (List Reached)) (entry : Text × Value Plain) :
    StateM ℕ (Text × List Reached) := do
  let item ←
    if isSensitiveKey entry.1 && !entry.2.alreadySafe then pure (leaf levels [.written REDACTED])
    else reached entry.2
  return (t.redactText entry.1, item)

/-- A mapping. Of two entries whose keys become one, the copy has the last; a model that cannot be
dumped is met in the other as well. -/
def Traversal.reachedContainer (t : Traversal Plain) (levels : ℕ)
    (reached : Finset ℕ → Value Plain → StateM ℕ (List Reached)) (active : Finset ℕ) (identity : ℕ)
    (entries : List (Text × Value Plain)) : StateM ℕ (List Reached) :=
  inContainer active identity entries.length [.written TRUNCATED] fun active => do
    let parts ← entries.mapM (t.reachedEntry levels (reached active))
    let kept := Dict.ofEntries parts
    return .container kept.length :: ((kept.flatMap fun part => .written part.1 :: part.2) ++
      (parts.flatMap (·.2)).filter (· = .undumped))

/-- What redaction reaches of a value. -/
def Traversal.reached (t : Traversal Plain) (heap : Heap Plain) :
    ℕ → Finset ℕ → Value Plain → StateM ℕ (List Reached)
  | 0, _, _ => pure [.below]
  | _ + 1, _, .text value => pure [.written (t.redactText value)]
  | _ + 1, _, .none => pure []
  | _ + 1, _, .plain _ => pure []
  | _ + 1, _, .secret => pure [.written REDACTED]
  | levels + 1, _, .error typeName message => pure <|
      [.container 2, .copied (ascii "error_type"), .copied (ascii "message")] ++
        leaf levels [.copied typeName, .written (t.redactText message)]
  | levels + 1, active, .ref identity => match heap identity with
      | .mapping entries =>
          t.reachedContainer levels (t.reached heap levels) active identity entries
      | .model (.ok entries) =>
          t.reachedContainer levels (t.reached heap levels) active identity entries
      | .model (.error _) => pure [.undumped]
      | .sequence _ items =>
          inContainer active identity items.length [.written TRUNCATED] fun active => do
            let parts ← items.mapM (t.reached heap levels active)
            return .container parts.length :: parts.flatten
      | .set items =>
          inContainer active identity items.length [.written TRUNCATED] fun active => do
            let parts ← items.mapM (t.reached heap levels active)
            return .container parts.length :: parts.flatten

/-- The gate has nothing against the part. -/
def Traversal.Fits (t : Traversal Plain) : Reached → Prop
  | .below => False
  | .written text => text.length ≤ t.limits.maxStringLength
  | .copied text => t.IsSecretFree text
  | .container _ => True
  | .undumped => False

def Reached.items : Reached → ℕ
  | .container count => count
  | _ => 0

def itemsOf (reached : List Reached) : ℕ := (reached.map Reached.items).sum

@[simp] theorem itemsOf_nil : itemsOf [] = 0 := rfl

@[simp] theorem itemsOf_cons (part : Reached) (reached : List Reached) :
    itemsOf (part :: reached) = part.items + itemsOf reached := by
  rw [itemsOf, itemsOf, List.map_cons, List.sum_cons]

theorem itemsOf_flatMap {ι : Type} (f : ι → List Reached) (xs : List ι) :
    itemsOf (xs.flatMap f) = (xs.map fun x => itemsOf (f x)).sum := by
  induction xs with
  | nil => rfl
  | cons x xs ih =>
      rw [List.map_cons, List.sum_cons, ← ih, List.flatMap_cons, itemsOf, itemsOf, itemsOf,
        List.map_append, List.sum_append]

/-! ## The copy reflects what is reached -/

/-- What is assumed of the text redaction: a second redaction changes nothing and the markers stay.
It finds nothing in an empty text; and as it puts markers, whose ends no sensitive word starts with,
it makes no key sensitive. -/
structure TextRedaction (t : Traversal Plain) : Prop where
  idempotent : ∀ text, (t.redactText text).length ≤ t.limits.maxStringLength →
    t.redactText (t.redactText text) = t.redactText text
  redacted : REDACTED.length ≤ t.limits.maxStringLength → t.redactText REDACTED = REDACTED
  truncated : TRUNCATED.length ≤ t.limits.maxStringLength → t.redactText TRUNCATED = TRUNCATED
  empty : t.redactText [] = []
  key : ∀ key, isSensitiveKey (t.redactText key) → isSensitiveKey key

/-- The tree is clean if all that was reached fits, and has the items that were reached. -/
structure Reflects (t : Traversal Plain) (levels : ℕ) (reached : List Reached) (tree : Tree Plain) :
    Prop where
  clean : t.IsClean levels tree ↔ ∀ part ∈ reached, t.Fits part
  items : tree.items levels = itemsOf reached

/-- An entry of the copy under its key. -/
structure ReflectsEntry (t : Traversal Plain) (levels : ℕ) (key : Text) (reached : List Reached)
    (tree : Tree Plain) : Prop extends Reflects t levels reached tree where
  free : t.IsSecretFree key ↔ key.length ≤ t.limits.maxStringLength
  safe : isSensitiveKey key → tree.alreadySafe

namespace TextRedaction

variable (ht : TextRedaction t)
include ht

theorem isSecretFree_redactText (text : Text) : t.IsSecretFree (t.redactText text) ↔
    (t.redactText text).length ≤ t.limits.maxStringLength :=
  ⟨fun h => h.1, fun h => ⟨h, ht.idempotent text h⟩⟩

theorem isSecretFree_redacted :
    t.IsSecretFree REDACTED ↔ REDACTED.length ≤ t.limits.maxStringLength :=
  ⟨fun h => h.1, fun h => ⟨h, ht.redacted h⟩⟩

theorem isSecretFree_truncated :
    t.IsSecretFree TRUNCATED ↔ TRUNCATED.length ≤ t.limits.maxStringLength :=
  ⟨fun h => h.1, fun h => ⟨h, ht.truncated h⟩⟩

/-- A safe text stays safe, if only by being cut. -/
theorem isSafeText_redactText {text : Text} (h : isSafeText text) :
    isSafeText (t.redactText text) := by
  have hcut : ∀ {text : Text}, t.limits.maxStringLength < text.length →
      isSafeText (t.redactText text) := by
    intro text hlength
    rw [Traversal.redactText, if_pos hlength]
    decide +kernel
  simp only [isSafeText, Bool.or_eq_true, decide_eq_true_eq] at h
  rcases h with (rfl | rfl) | rfl
  · rw [ht.empty]
    rfl
  · by_cases hlength : REDACTED.length ≤ t.limits.maxStringLength
    · rw [ht.redacted hlength]
      decide +kernel
    · exact hcut (Nat.lt_of_not_le hlength)
  · by_cases hlength : TRUNCATED.length ≤ t.limits.maxStringLength
    · rw [ht.truncated hlength]
      decide +kernel
    · exact hcut (Nat.lt_of_not_le hlength)

end TextRedaction

def Raises (reached : List Reached) : Prop := .undumped ∈ reached

theorem not_raises_leaf (text : Text) : ¬ Raises (leaf levels [.written text]) := by
  unfold leaf
  split <;> simp [Raises]

theorem not_raises_error (typeName message : Text) :
    ¬ Raises ([.container 2, .copied (ascii "error_type"), .copied (ascii "message")] ++
      leaf levels [.copied typeName, .written (t.redactText message)]) := by
  unfold leaf
  split <;> simp [Raises]

theorem raises_flatten {parts : List (List Reached)} (h : ∃ part ∈ parts, Raises part) :
    Raises (.container parts.length :: parts.flatten) := by
  obtain ⟨part, hpart, hraises⟩ := h
  exact List.mem_cons_of_mem _ (List.mem_flatten.mpr ⟨part, hpart, hraises⟩)

theorem not_raises_flatten {parts : List (List Reached)} (h : ¬ ∃ part ∈ parts, Raises part) :
    ¬ Raises (.container parts.length :: parts.flatten) := by
  intro hraises
  rcases List.mem_cons.mp hraises with hraises | hraises
  · cases hraises
  · obtain ⟨part, hpart, hraises⟩ := List.mem_flatten.mp hraises
    exact h ⟨part, hpart, hraises⟩

theorem undumped_eq_nil {parts : List (Text × List Reached)}
    (h : ¬ ∃ part ∈ parts, Raises part.2) :
    (parts.flatMap (·.2)).filter (· = .undumped) = [] := by
  refine List.filter_eq_nil_iff.mpr fun reached hreached hundumped => ?_
  obtain ⟨part, hpart, hmem⟩ := List.mem_flatMap.mp hreached
  obtain rfl := of_decide_eq_true hundumped
  exact h ⟨part, hpart, hmem⟩

theorem not_raises_entries {parts : List (Text × List Reached)}
    (h : ¬ ∃ part ∈ parts, Raises part.2) :
    ¬ Raises (.container (Dict.ofEntries parts).length ::
      (Dict.ofEntries parts).flatMap fun part => .written part.1 :: part.2) := by
  have hparts : List.Forall₂ (Dict.Entries fun _ reached _ => ¬ Raises reached) parts parts :=
    List.forall₂_same.mpr fun part hpart => ⟨rfl, fun hraises => h ⟨part, hpart, hraises⟩⟩
  have hkept := List.forall₂_same.mp (Dict.ofEntries_inStep hparts)
  intro hraises
  rcases List.mem_cons.mp hraises with hraises | hraises
  · cases hraises
  · obtain ⟨part, hpart, hraises⟩ := List.mem_flatMap.mp hraises
    rcases List.mem_cons.mp hraises with hraises | hraises
    · cases hraises
    · exact (hkept part hpart).2 hraises

theorem inStep_inContainer {b : List Reached} {x : Finset ℕ → StateM ℕ (List Reached)}
    {y : Finset ℕ → Copying (Tree Plain)} {R : List Reached → Tree Plain → Prop} (hb : ¬ Raises b)
    (hrefused : R b tree) (h : InStep Raises R (x (insert identity active))
      (y (insert identity active))) :
    InStep Raises R (inContainer active identity count b x)
      (inContainer active identity count tree y) := by
  by_cases hidentity : identity ∈ active
  · have hrefuse (remaining : ℕ) : identity ∈ active ∨ remaining < count := .inl hidentity
    have hreached : inContainer active identity count b x = pure b :=
      funext fun remaining => if_pos (hrefuse remaining)
    have hredacted : inContainer active identity count tree y = pure tree :=
      funext fun remaining => if_pos (hrefuse remaining)
    rw [hreached, hredacted]
    exact InStep.pure hb hrefused
  · intro remaining
    by_cases hcount : remaining < count
    · have hrefuse : identity ∈ active ∨ remaining < count := .inr hcount
      simp only [StateT.run, inContainer, if_pos hrefuse]
      exact InStep.pure hb hrefused remaining
    · have henter : ¬ (identity ∈ active ∨ remaining < count) := by simp [hidentity, hcount]
      simp only [StateT.run, inContainer, if_neg henter]
      exact h (remaining - count)

theorem reflects_written {text : Text}
    (hfree : t.IsSecretFree text ↔ text.length ≤ t.limits.maxStringLength) :
    Reflects t levels (leaf levels [.written text]) (.text text) := by
  cases levels with
  | zero => exact ⟨by simp [Traversal.IsClean, leaf, Traversal.Fits], rfl⟩
  | succ levels => exact ⟨by simp [Traversal.IsClean, leaf, Traversal.Fits, hfree], rfl⟩

theorem reflects_items {isTuple : Bool} {parts : List (List Reached)} {items : List (Tree Plain)}
    (h : List.Forall₂ (Reflects t levels) parts items) :
    Reflects t (levels + 1) (.container parts.length :: parts.flatten)
    (.sequence isTuple items) := by
  have hclean := h.forall_mem_iff fun parts item hitem => hitem.clean.symm
  have hitems := h.map_eq fun parts item hitem => hitem.items.symm
  constructor
  · simp only [Traversal.IsClean, ← hclean, List.forall_mem_cons, Traversal.Fits, true_and,
      List.forall_mem_flatten]
  · rw [Tree.items, itemsOf_cons, ← List.flatMap_id, itemsOf_flatMap, ← hitems, ← h.length_eq]
    rfl

theorem reflects_sorted {reached : List Reached} {items : List (Tree Plain)} {isTuple : Bool}
    (h : Reflects t (levels + 1) reached (.sequence isTuple items)) :
    Reflects t (levels + 1) reached (.sequence true (sorted t.repr items)) := by
  have hperm := sorted_perm t.repr items
  constructor
  · rw [← h.clean]
    simp only [Traversal.IsClean, mem_sorted]
  · rw [← h.items, Tree.items, Tree.items, hperm.length_eq, (hperm.map _).sum_eq]

/-- Copies of the entries of a mapping. -/
theorem reflects_entries {parts : List (Text × List Reached)} {entries : List (Text × Tree Plain)}
    (h : List.Forall₂ (Dict.Entries (ReflectsEntry t levels)) parts entries) :
    Reflects t (levels + 1)
      (.container parts.length :: parts.flatMap fun part => .written part.1 :: part.2)
      (.mapping entries) := by
  have hclean : (∀ part ∈ parts, ∀ reached ∈ Reached.written part.1 :: part.2, t.Fits reached) ↔
      ∀ entry ∈ entries, t.IsSecretFree entry.1 ∧
        (isSensitiveKey entry.1 → entry.2.alreadySafe) ∧ t.IsClean levels entry.2 := by
    refine h.forall_mem_iff fun part entry hentry => ?_
    obtain ⟨hkey, hreflects⟩ := hentry
    rw [← hkey, List.forall_mem_cons, hreflects.free, hreflects.clean, Traversal.Fits]
    exact and_congr_right fun _ => (and_iff_right hreflects.safe).symm
  have hitems := h.map_eq fun part entry hentry => hentry.2.items.symm
  constructor
  · rw [Traversal.IsClean, ← hclean, List.forall_mem_cons, List.forall_mem_flatMap]
    exact (and_iff_right trivial).symm
  · rw [Tree.items, itemsOf_cons, itemsOf_flatMap, ← hitems, ← h.length_eq]
    simp only [itemsOf_cons, Reached.items, Nat.zero_add]

theorem reflects_error (ht : TextRedaction t) (typeName message : Text) :
    Reflects t (levels + 1)
      ([.container 2, .copied (ascii "error_type"), .copied (ascii "message")] ++
        leaf levels [.copied typeName, .written (t.redactText message)])
      (t.redactError typeName message) := by
  have htype : isSensitiveKey (ascii "error_type") = false := by decide +kernel
  have hmessage : isSensitiveKey (ascii "message") = false := by decide +kernel
  have hfree := ht.isSecretFree_redactText message
  cases levels with
  | zero =>
      constructor
      · constructor
        · intro h
          exact (h _ List.mem_cons_self).2.2.elim
        · intro h
          exact (h .below (by simp [leaf])).elim
      · rfl
  | succ levels =>
      constructor
      · simp only [Traversal.redactError, Traversal.IsClean, List.forall_mem_cons, htype, hmessage,
          leaf, Traversal.Fits, List.cons_append, List.nil_append, hfree, Nat.add_eq_zero_iff,
          Nat.one_ne_zero, and_false, if_false]
        simp only [Bool.false_eq_true, false_implies, true_and, List.not_mem_nil, implies_true,
          and_true]
        constructor
        · intro h
          exact ⟨h.1.1, h.2.1, h.1.2, h.2.2⟩
        · intro h
          exact ⟨⟨h.1, h.2.2.1⟩, h.2.1, h.2.2.2⟩
      · rfl

/-- A safe value has a safe copy, if only a marker. -/
theorem alreadySafe_redact (ht : TextRedaction t) (h : value.alreadySafe) {remaining left : ℕ}
    (hcopy : (t.redact heap levels active value).run remaining = .ok (tree, left)) :
    tree.alreadySafe := by
  cases levels with
  | zero =>
      have hmarker : isSafeText TRUNCATED = true := by decide +kernel
      cases hcopy
      exact hmarker
  | succ levels =>
      cases value with
      | none =>
          cases hcopy
          rfl
      | text text =>
          cases hcopy
          exact ht.isSafeText_redactText h
      | plain => cases h
      | secret => cases h
      | error => cases h
      | ref => cases h

/-- One round of the two loops over the entries of a mapping. -/
theorem inStep_entry (ht : TextRedaction t)
    (ih : ∀ value, InStep Raises (Reflects t levels) (t.reached heap levels active value)
      (t.redact heap levels active value)) (entry : Text × Value Plain) :
    InStep (fun part => Raises part.2) (Dict.Entries (ReflectsEntry t levels))
      (t.reachedEntry levels (t.reached heap levels active) entry)
      (t.redactEntry (t.redact heap levels active) entry) := by
  have hfree := ht.isSecretFree_redactText entry.1
  unfold Traversal.reachedEntry Traversal.redactEntry
  by_cases hconceal : (isSensitiveKey entry.1 && !entry.2.alreadySafe) = true
  · rw [if_pos hconceal, if_pos hconceal]
    have hsafe : isSafeText REDACTED = true := by decide +kernel
    exact InStep.pure (not_raises_leaf _)
      ⟨rfl, reflects_written ht.isSecretFree_redacted, hfree, fun _ => hsafe⟩
  · rw [if_neg hconceal, if_neg hconceal]
    intro remaining
    obtain ⟨hstop, hgo⟩ := ih entry.2 remaining
    refine ⟨fun hraises => ?_, fun hnot => ?_⟩
    · obtain ⟨e, he⟩ := hstop hraises
      exact ⟨e, by rw [StateT.run_bind, he]; rfl⟩
    · obtain ⟨copy, hcopy, hreflects⟩ := hgo hnot
      refine ⟨(t.redactText entry.1, copy), by rw [StateT.run_bind, hcopy]; rfl, rfl, hreflects,
        hfree, fun hkey => ?_⟩
      refine alreadySafe_redact ht ?_ hcopy
      have hsensitive := ht.key entry.1 hkey
      simpa [hsensitive] using hconceal

/-- The two traversals of a mapping. -/
theorem inStep_container (ht : TextRedaction t)
    {reached : Finset ℕ → Value Plain → StateM ℕ (List Reached)}
    {redact : Finset ℕ → Value Plain → Copying (Tree Plain)} (entries : List (Text × Value Plain))
    (h : ∀ entry, InStep (fun part => Raises part.2) (Dict.Entries (ReflectsEntry t levels))
      (t.reachedEntry levels (reached (insert identity active)) entry)
      (t.redactEntry (redact (insert identity active)) entry)) :
    InStep Raises (Reflects t (levels + 1))
      (t.reachedContainer levels reached active identity entries)
      (t.redactContainer redact active identity entries) := by
  refine inStep_inContainer (by simp [Raises]) (reflects_written ht.isSecretFree_truncated) ?_
  refine (InStep.mapM fun entry _ => h entry).bind (fun parts s hraises => ?_)
    fun parts items hnot hparts => InStep.pure ?_ ?_
  · obtain ⟨part, hpart, hraises⟩ := hraises
    refine List.mem_cons_of_mem _ (List.mem_append_right _ (List.mem_filter.mpr ⟨?_, by simp⟩))
    exact List.mem_flatMap.mpr ⟨part, hpart, hraises⟩
  · rw [undumped_eq_nil hnot, List.append_nil]
    exact not_raises_entries hnot
  · rw [undumped_eq_nil hnot, List.append_nil]
    exact reflects_entries (Dict.ofEntries_inStep hparts)

/-- Redaction and what it reaches spend the same items, and the copy reflects what is reached. -/
theorem inStep_reached (ht : TextRedaction t) :
    InStep Raises (Reflects t levels) (t.reached heap levels active value)
      (t.redact heap levels active value) := by
  induction levels generalizing active value with
  | zero => exact InStep.pure (by simp [Raises]) ⟨by simp [Traversal.IsClean, Traversal.Fits], rfl⟩
  | succ levels ih =>
      cases value with
      | text text =>
          exact InStep.pure (by simp [Raises]) (reflects_written (ht.isSecretFree_redactText text))
      | none => exact InStep.pure (by simp [Raises]) ⟨by simp [Traversal.IsClean], rfl⟩
      | plain object => exact InStep.pure (by simp [Raises]) ⟨by simp [Traversal.IsClean], rfl⟩
      | secret =>
          exact InStep.pure (by simp [Raises]) (reflects_written ht.isSecretFree_redacted)
      | error typeName message =>
          exact InStep.pure (not_raises_error _ _) (reflects_error ht typeName message)
      | ref identity =>
          unfold Traversal.reached Traversal.redact
          have htruncated : Reflects t (levels + 1) [.written TRUNCATED] (.text TRUNCATED) :=
            reflects_written ht.isSecretFree_truncated
          have hentry : ∀ entry : Text × Value Plain,
              InStep (fun part => Raises part.2) (Dict.Entries (ReflectsEntry t levels))
                (t.reachedEntry levels (t.reached heap levels (insert identity active)) entry)
                (t.redactEntry (t.redact heap levels (insert identity active)) entry) :=
            fun entry => inStep_entry ht (fun _ => ih) entry
          have hitems : ∀ items : List (Value Plain),
              InStep (fun parts => ∃ part ∈ parts, Raises part) (List.Forall₂ (Reflects t levels))
              (items.mapM (t.reached heap levels (insert identity active)))
              (items.mapM (t.redact heap levels (insert identity active))) :=
            fun items => InStep.mapM fun item _ => ih
          cases hcontainer : heap identity with
          | mapping entries => exact inStep_container ht entries hentry
          | model dumped =>
              cases dumped with
              | ok entries => exact inStep_container ht entries hentry
              | error message => exact fun remaining =>
                  ⟨fun _ => ⟨_, rfl⟩, fun hnot => absurd List.mem_cons_self hnot⟩
          | sequence isTuple items =>
              exact inStep_inContainer (by simp [Raises]) htruncated <| (hitems items).bind
                (fun _ _ => raises_flatten) fun _ _ hnot hparts =>
                  InStep.pure (not_raises_flatten hnot) (reflects_items hparts)
          | set items =>
              refine inStep_inContainer (by simp [Raises]) htruncated <| (hitems items).bind
                (fun _ _ => raises_flatten) fun _ copies hnot hparts =>
                  InStep.pure (not_raises_flatten hnot) ?_
              have hcopies : Reflects t (levels + 1) _ (.sequence true copies) :=
                reflects_items hparts
              exact reflects_sorted hcopies

/-! ## Redacted values against the gate -/

/-- All that redaction reaches of the value fits, and so do the items of its copy. -/
structure Traversal.Accepts (t : Traversal Plain) (heap : Heap Plain) (value : Value Plain) :
    Prop where
  fits : ∀ part ∈ ((t.reached heap (t.limits.maxDepth + 1) ∅ value).run t.limits.maxItems).1,
    t.Fits part
  items : itemsOf ((t.reached heap (t.limits.maxDepth + 1) ∅ value).run t.limits.maxItems).1 ≤
    t.limits.maxItems

/-- The gate on a copy of a tree. -/
theorem ensureSecretFree_isCopy {limits : RedactionLimits} {known : List KnownSecret}
    {secrets : List Text} {patterns : Text → Text} {repr : Tree Plain → Text}
    (hsecrets : normalizeKnownSecrets known limits = .ok secrets)
    (hcopy : IsCopy heap (limits.maxDepth + 1) ∅ value tree) :
    ensureSecretFree patterns repr known limits heap value = .ok () ↔
      (Traversal.mk limits secrets patterns repr).IsClean (limits.maxDepth + 1) tree ∧
        tree.items (limits.maxDepth + 1) ≤ limits.maxItems := by
  have hspends := spends_ensureSecretFree (t := Traversal.mk limits secrets patterns repr) hcopy
  unfold ensureSecretFree
  rw [hsecrets]
  simp only [Except.bind]
  constructor
  · intro h
    cases hgate : (Traversal.mk limits secrets patterns repr).ensureSecretFree heap
        (limits.maxDepth + 1) ∅ value limits.maxItems with
    | error e =>
        rw [hgate] at h
        cases h
    | ok left =>
        obtain ⟨hclean, hitems⟩ := (hspends _ _).mp hgate
        exact ⟨hclean, by omega⟩
  · intro h
    have hgate := (hspends limits.maxItems _).mpr ⟨h.1, Nat.add_sub_cancel' h.2⟩
    rw [hgate]
    rfl

/-- Without known secrets, and with patterns that find nothing, only long texts are redacted. -/
theorem textRedaction_id (limits : RedactionLimits) (repr : Tree Plain → Text) :
    TextRedaction (Traversal.mk limits [] id repr) := by
  have hcases : ∀ text, (Traversal.mk limits [] id repr).redactText text =
      if limits.maxStringLength < text.length then TRUNCATED else text := fun _ => rfl
  have htruncated : (Traversal.mk limits [] id repr).redactText TRUNCATED = TRUNCATED := by
    rw [hcases]
    split <;> rfl
  constructor
  · intro text _
    rw [hcases text]
    split
    · exact htruncated
    · rename_i hlength
      rw [hcases, if_neg hlength]
  · intro hlength
    rw [hcases, if_neg (Nat.not_lt.mpr hlength)]
  · intro _
    exact htruncated
  · rfl
  · intro key hkey
    have hmarker : isSensitiveKey TRUNCATED = false := by decide +kernel
    rw [hcases] at hkey
    split at hkey
    · rw [hmarker] at hkey
      cases hkey
    · exact hkey

end

end Redaction

namespace RedactionScenario

open Redaction

def noRepr (_ : Redaction.Tree ℕ) : Text := []

def account : Heap ℕ := fun _ =>
  .mapping [(ascii "token", .text (ascii "abc")), (ascii "amount", .plain 1)]

def accountCopy : Heap ℕ := fun _ =>
  .mapping [(ascii "token", .text REDACTED), (ascii "amount", .plain 1)]

/-- One level of containers below the root. -/
def flat : RedactionLimits where
  maxDepth := 1
  maxItems := 10000
  maxStringLength := 131072
  maxBytesLength := 131072
  maxDepth_pos := Nat.one_pos
  maxItems_pos := DEFAULT_REDACTION_LIMITS.maxItems_pos
  maxStringLength_pos := DEFAULT_REDACTION_LIMITS.maxStringLength_pos
  maxBytesLength_pos := DEFAULT_REDACTION_LIMITS.maxBytesLength_pos

/-- The list `[[1]]`. -/
def nested : Heap ℕ
  | 0 => .sequence false [.ref 1]
  | _ => .sequence false [.plain 1]

/-- The list `[["[TRUNCATED]"]]`. -/
def nestedCopy : Heap ℕ
  | 0 => .sequence false [.ref 1]
  | _ => .sequence false [.text TRUNCATED]

end RedactionScenario

end StonksPaper
