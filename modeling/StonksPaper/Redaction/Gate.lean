import StonksPaper.Base.Budget
import StonksPaper.Redaction.Redact

/-!
# The gate on redacted copies

The gate passes a copy exactly if each of its texts is free of secrets, no sensitive key has a value
that is not safe, nothing lies below the depth and the items of its containers fit the limit.
-/

namespace StonksPaper

open Chain
open Snapshots (CodePoint Text ascii)

namespace Redaction

section

variable {Plain : Type} {t : Traversal Plain} {heap : Heap Plain} {levels identity count : ℕ}
  {active : Finset ℕ} {value : Value Plain} {tree : Tree Plain}

/-! ## The gate on a copy -/

/-- The tree as objects of the heap, as far down as the levels reach. The containers of a copy are
new, so none of them is within itself. -/
def IsCopy (heap : Heap Plain) : ℕ → Finset ℕ → Value Plain → Tree Plain → Prop
  | _, _, value, .text text => value = .text text
  | _, _, value, .none => value = .none
  | _, _, value, .plain object => value = .plain object
  | 0, _, value, .mapping _ => ∃ identity, value = .ref identity
  | 0, _, value, .sequence _ _ => ∃ identity, value = .ref identity
  | levels + 1, active, value, .mapping entries =>
      ∃ identity copies, value = .ref identity ∧ identity ∉ active ∧
        heap identity = .mapping copies ∧
        List.Forall₂ (Dict.Entries fun _ => IsCopy heap levels (insert identity active))
          copies entries
  | levels + 1, active, value, .sequence isTuple items =>
      ∃ identity copies, value = .ref identity ∧ identity ∉ active ∧
        heap identity = .sequence isTuple copies ∧
        List.Forall₂ (IsCopy heap levels (insert identity active)) copies items

def Tree.alreadySafe : Tree Plain → Bool
  | .none => true
  | .text value => isSafeText value
  | _ => false

/-- Nothing in the tree is a secret to the gate, and nothing is below the levels. -/
def Traversal.IsClean (t : Traversal Plain) : ℕ → Tree Plain → Prop
  | 0, _ => False
  | _ + 1, .text text => t.IsSecretFree text
  | _ + 1, .none => True
  | _ + 1, .plain _ => True
  | levels + 1, .mapping entries => ∀ entry ∈ entries, t.IsSecretFree entry.1 ∧
      (isSensitiveKey entry.1 → entry.2.alreadySafe) ∧ t.IsClean levels entry.2
  | levels + 1, .sequence _ items => ∀ item ∈ items, t.IsClean levels item

/-- The items of the containers of the tree. -/
def Tree.items : ℕ → Tree Plain → ℕ
  | levels + 1, .mapping entries =>
      entries.length + (entries.map fun entry => entry.2.items levels).sum
  | levels + 1, .sequence _ items => items.length + (items.map fun item => item.items levels).sum
  | _, _ => 0

theorem alreadySafe_of_isCopy (h : IsCopy heap levels active value tree) :
    value.alreadySafe = tree.alreadySafe := by
  cases tree with
  | text text =>
      unfold IsCopy at h
      rw [h]
      rfl
  | none =>
      unfold IsCopy at h
      rw [h]
      rfl
  | plain object =>
      unfold IsCopy at h
      rw [h]
      rfl
  | mapping entries =>
      obtain ⟨identity, rfl⟩ : ∃ identity, value = .ref identity := by
        cases levels with
        | zero => exact h
        | succ levels =>
            obtain ⟨identity, _, hvalue, _⟩ := h
            exact ⟨identity, hvalue⟩
      rfl
  | sequence isTuple items =>
      obtain ⟨identity, rfl⟩ : ∃ identity, value = .ref identity := by
        cases levels with
        | zero => exact h
        | succ levels =>
            obtain ⟨identity, _, hvalue, _⟩ := h
            exact ⟨identity, hvalue⟩
      rfl

theorem spends_require (p : Prop) [Decidable p] : Budget.Spends (require p) p 0 :=
  Budget.spends_if _

theorem spends_requireEnter {body : Finset ℕ → ℕ → Except RedactionError ℕ} {p : Prop} {n : ℕ}
    (hidentity : identity ∉ active) (h : Budget.Spends (body (insert identity active)) p n) :
    Budget.Spends (requireEnter active identity count body) p (count + n) := by
  intro remaining left
  unfold requireEnter
  by_cases hcount : remaining < count
  · rw [if_pos (Or.inr hcount)]
    simp only [reduceCtorEq, false_iff, not_and]
    intro _
    omega
  · rw [if_neg (by simp [hidentity, hcount]), h]
    constructor
    · intro hboth
      exact ⟨hboth.1, by omega⟩
    · intro hboth
      exact ⟨hboth.1, by omega⟩

theorem spends_ensureEntry {ensure : Value Plain → ℕ → Except RedactionError ℕ}
    {entry : Text × Value Plain} {p : Prop} {n : ℕ} (h : Budget.Spends (ensure entry.2) p n) :
    Budget.Spends (t.ensureEntry ensure entry)
      (t.IsSecretFree entry.1 ∧ (isSensitiveKey entry.1 → entry.2.alreadySafe) ∧ p) n := by
  have hkey := spends_require (t.IsSecretFree entry.1)
  have hsafe := spends_require (isSensitiveKey entry.1 → entry.2.alreadySafe)
  exact (hkey.andThen (hsafe.andThen h)).congr Iff.rfl (by omega)

/-- The gate passes a copy of a clean tree, and spends the items of its containers. -/
theorem spends_ensureSecretFree (h : IsCopy heap levels active value tree) :
    Budget.Spends (t.ensureSecretFree heap levels active value) (t.IsClean levels tree)
      (tree.items levels) := by
  induction levels generalizing active value tree with
  | zero =>
      have herror : t.ensureSecretFree heap 0 active value =
          fun _ => .error .secretLeakDetected := by
        funext remaining
        simp only [Traversal.ensureSecretFree]
      rw [herror]
      exact Budget.spends_error _ (by simp [Traversal.IsClean]) _
  | succ levels ih =>
      cases tree with
      | text text =>
          unfold IsCopy at h
          subst h
          exact spends_require _
      | none =>
          unfold IsCopy at h
          subst h
          exact Budget.spends_ok
      | plain object =>
          unfold IsCopy at h
          subst h
          exact Budget.spends_ok
      | mapping entries =>
          obtain ⟨identity, copies, rfl, hidentity, hcopies, hentries⟩ := h
          have hloop : List.Forall₂ (fun copy entry => Budget.Spends
              (t.ensureEntry (t.ensureSecretFree heap levels (insert identity active)) copy)
              (t.IsSecretFree entry.1 ∧ (isSensitiveKey entry.1 → entry.2.alreadySafe) ∧
                t.IsClean levels entry.2) (entry.2.items levels)) copies entries := by
            refine hentries.imp fun copy entry hcopy => ?_
            rw [← hcopy.1, ← alreadySafe_of_isCopy hcopy.2]
            exact spends_ensureEntry (ih hcopy.2)
          have hgate : t.ensureSecretFree heap (levels + 1) active (.ref identity) =
              t.ensureMapping (t.ensureSecretFree heap levels) active identity copies := by
            funext remaining
            simp only [Traversal.ensureSecretFree, hcopies]
          rw [hgate]
          refine (spends_requireEnter hidentity (Budget.Spends.foldlM hloop)).congr Iff.rfl ?_
          rw [hentries.length_eq, Tree.items]
      | sequence isTuple items =>
          obtain ⟨identity, copies, rfl, hidentity, hcopies, hitems⟩ := h
          have hloop := hitems.imp fun copy item hcopy => ih hcopy
          have hgate : t.ensureSecretFree heap (levels + 1) active (.ref identity) =
              requireEnter active identity copies.length fun active remaining =>
                copies.foldlM (fun remaining item =>
                  t.ensureSecretFree heap levels active item remaining) remaining := by
            funext remaining
            simp only [Traversal.ensureSecretFree, hcopies]
          rw [hgate]
          refine (spends_requireEnter hidentity (Budget.Spends.foldlM hloop)).congr Iff.rfl ?_
          rw [hitems.length_eq, Tree.items]

end

end Redaction

end StonksPaper
