import Mathlib.Data.List.Sort
import Mathlib.Data.List.Nodup

/-!
# Hash-linked chains and sorted identities

A `Link` names the sequence number, the previous hash and the own hash of an event. `Linked` says
that a list of events continues a chain whose head is known; it is decidable, so a loop that walks
a stored chain is the evaluation of it. `SortedUnique` is the identity order that canonical tuples
keep.
-/

universe u v

namespace Chain

variable {α : Type u} {η : Type v}

/-- The linking data of one kind of event. -/
structure Link (α : Type u) (η : Type v) where
  sequence : α → ℕ
  previous : α → Option η
  hash : α → η

variable (L : Link α η)

/-- `es` continues a chain that has `n` events and head hash `h`. -/
def Linked (n : ℕ) (h : Option η) : List α → Prop
  | [] => True
  | e :: es => L.sequence e = n + 1 ∧ L.previous e = h ∧ Linked (n + 1) (some (L.hash e)) es

instance [DecidableEq η] : ∀ (n : ℕ) (h : Option η) (es : List α), Decidable (Linked L n h es)
  | _, _, [] => isTrue trivial
  | n, _, e :: es =>
      have := instDecidableLinkedOfDecidableEq (n + 1) (some (L.hash e)) es
      inferInstanceAs (Decidable (_ ∧ _ ∧ _))

/-- The head hash after `es`, starting from `h`. -/
def headHash (h : Option η) : List α → Option η
  | [] => h
  | e :: es => headHash (some (L.hash e)) es

@[simp] theorem headHash_nil (h : Option η) : headHash L h [] = h := rfl

@[simp] theorem headHash_cons (h : Option η) (e : α) (es : List α) :
    headHash L h (e :: es) = headHash L (some (L.hash e)) es := rfl

@[simp] theorem headHash_concat (h : Option η) (es : List α) (e : α) :
    headHash L h (es ++ [e]) = some (L.hash e) := by
  induction es generalizing h with
  | nil => rfl
  | cons d ds ih => simp [ih]

theorem headHash_of_getLast {xs : List α} {e : α} (h : Option η) (hlast : xs.getLast? = some e) :
    headHash L h xs = some (L.hash e) := by
  obtain ⟨ys, rfl⟩ := List.getLast?_eq_some_iff.mp hlast
  simp

@[simp] theorem linked_nil (n : ℕ) (h : Option η) : Linked L n h [] := trivial

@[simp] theorem linked_cons {n : ℕ} {h : Option η} {e : α} {es : List α} :
    Linked L n h (e :: es) ↔
      L.sequence e = n + 1 ∧ L.previous e = h ∧ Linked L (n + 1) (some (L.hash e)) es := Iff.rfl

theorem linked_append {n : ℕ} {h : Option η} {xs ys : List α} :
    Linked L n h (xs ++ ys) ↔
      Linked L n h xs ∧ Linked L (n + xs.length) (headHash L h xs) ys := by
  induction xs generalizing n h with
  | nil => simp
  | cons x xs ih =>
      simp only [List.cons_append, linked_cons, ih, headHash_cons, List.length_cons]
      rw [show n + 1 + xs.length = n + (xs.length + 1) by omega]
      tauto

theorem linked_concat {n : ℕ} {h : Option η} {xs : List α} {e : α} :
    Linked L n h (xs ++ [e]) ↔
      Linked L n h xs ∧ L.sequence e = n + xs.length + 1 ∧ L.previous e = headHash L h xs := by
  simp [linked_append]

/-- The events of a chain follow each other, up to the length that it reaches. -/
theorem Linked.sequence_le {n : ℕ} {h : Option η} {xs : List α} (hlinked : Linked L n h xs) {e : α}
    (he : e ∈ xs) : L.sequence e ≤ n + xs.length := by
  induction xs generalizing n h with
  | nil => cases he
  | cons x xs ih =>
      obtain ⟨hsequence, -, hrest⟩ := hlinked
      rw [List.length_cons]
      rcases List.mem_cons.mp he with rfl | he
      · omega
      · have hle := ih hrest he
        omega

theorem Linked.sequence_last {n : ℕ} {h : Option η} {xs : List α} {e : α}
    (hlinked : Linked L n h xs) (hlast : xs.getLast? = some e) :
    L.sequence e = n + xs.length := by
  obtain ⟨ys, rfl⟩ := List.getLast?_eq_some_iff.mp hlast
  have hseq := ((linked_concat L).mp hlinked).2.1
  rw [List.length_append, List.length_singleton]
  omega

theorem Linked.sequence_getLast {xs : List α} {e : α} (h : Linked L 0 none xs)
    (hlast : xs.getLast? = some e) : L.sequence e = xs.length := by
  rw [h.sequence_last L hlast, Nat.zero_add]

/-! ## Traces

A trace is a list of entries each of which may follow the state that the entries before it left.
-/

section Trace

variable {σ : Type v} (ok : σ → α → Prop) (after : α → σ)

/-- Each entry of the list may follow the state before it. -/
def Traces (s : σ) : List α → Prop
  | [] => True
  | e :: es => ok s e ∧ Traces (after e) es

instance decidableTraces [∀ s e, Decidable (ok s e)] :
    ∀ (s : σ) (es : List α), Decidable (Traces ok after s es)
  | _, [] => isTrue trivial
  | _, e :: es =>
      have := decidableTraces (after e) es
      inferInstanceAs (Decidable (_ ∧ _))

/-- The state that the last entry leaves. -/
def endState (s : σ) : List α → σ
  | [] => s
  | e :: es => endState (after e) es

@[simp] theorem traces_nil (s : σ) : Traces ok after s [] := trivial

@[simp] theorem traces_cons {s : σ} {e : α} {es : List α} :
    Traces ok after s (e :: es) ↔ ok s e ∧ Traces ok after (after e) es := Iff.rfl

@[simp] theorem endState_nil (s : σ) : endState after s [] = s := rfl

@[simp] theorem endState_cons (s : σ) (e : α) (es : List α) :
    endState after s (e :: es) = endState after (after e) es := rfl

theorem endState_append (s : σ) (xs ys : List α) :
    endState after s (xs ++ ys) = endState after (endState after s xs) ys := by
  induction xs generalizing s with
  | nil => rfl
  | cons x xs ih => simp [ih]

theorem traces_append {s : σ} {xs ys : List α} :
    Traces ok after s (xs ++ ys) ↔
      Traces ok after s xs ∧ Traces ok after (endState after s xs) ys := by
  induction xs generalizing s with
  | nil => simp
  | cons x xs ih => simp [ih, and_assoc]

theorem endState_of_getLast {xs : List α} {e : α} (s : σ) (hlast : xs.getLast? = some e) :
    endState after s xs = after e := by
  obtain ⟨ys, rfl⟩ := List.getLast?_eq_some_iff.mp hlast
  simp [endState_append]

theorem traces_concat {s : σ} {xs : List α} {d e : α} (hlast : xs.getLast? = some d) :
    Traces ok after s (xs ++ [e]) ↔ Traces ok after s xs ∧ ok (after d) e := by
  simp [traces_append, endState_of_getLast after s hlast]

end Trace

end Chain

/-! ## Sorted identities -/

namespace Chain

variable {α : Type u} [LinearOrder α]

/-- The list sorted by identity. -/
def sorted {β : Type v} (key : β → α) (xs : List β) : List β :=
  xs.insertionSort (fun a b => key a ≤ key b)

/-- The values are unique and stably sorted. -/
def SortedUnique (values : List α) : Prop := values = sorted id values ∧ values.Nodup

instance (values : List α) : Decidable (SortedUnique values) := inferInstanceAs (Decidable (_ ∧ _))

theorem sorted_perm {β : Type v} (key : β → α) (xs : List β) : (sorted key xs).Perm xs :=
  List.perm_insertionSort _ xs

@[simp] theorem mem_sorted {β : Type v} {key : β → α} {xs : List β} {x : β} :
    x ∈ sorted key xs ↔ x ∈ xs := (sorted_perm key xs).mem_iff

@[simp] theorem sorted_nil {β : Type v} (key : β → α) : sorted key [] = [] := rfl

theorem sorted_eq_nil {β : Type v} {key : β → α} {xs : List β} : sorted key xs = [] ↔ xs = [] := by
  constructor
  · intro h
    exact List.Perm.eq_nil (h ▸ (sorted_perm key xs).symm)
  · rintro rfl
    rfl

theorem sorted_pairwise {β : Type v} (key : β → α) (xs : List β) :
    (sorted key xs).Pairwise (key · ≤ key ·) := by
  have htotal : Std.Total fun a b : β => key a ≤ key b := ⟨fun a b => le_total (key a) (key b)⟩
  have htrans : IsTrans β fun a b => key a ≤ key b := ⟨fun _ _ _ => le_trans⟩
  exact List.pairwise_insertionSort _ _

theorem sorted_of_pairwise {β : Type v} {key : β → α} {xs : List β}
    (h : xs.Pairwise (key · ≤ key ·)) : sorted key xs = xs := h.insertionSort_eq

/-- An entry whose key no earlier one exceeds comes last. -/
theorem sorted_concat {β : Type v} {key : β → α} {xs : List β} {x : β}
    (h : ∀ y ∈ xs, key y ≤ key x) : sorted key (xs ++ [x]) = sorted key xs ++ [x] := by
  have hinsert (a : β) (l : List β) (ha : key a ≤ key x) :
      (l ++ [x]).orderedInsert (fun a b => key a ≤ key b) a =
        l.orderedInsert (fun a b => key a ≤ key b) a ++ [x] := by
    induction l with
    | nil => simp [ha]
    | cons b l ih =>
        by_cases hab : key a ≤ key b
        · simp [hab]
        · simp [hab, ih]
  induction xs with
  | nil => rfl
  | cons a xs ih =>
      have hxs := ih fun y hy => h y (List.mem_cons_of_mem _ hy)
      simp only [sorted, List.cons_append, List.insertionSort_cons] at hxs ⊢
      rw [hxs, hinsert a _ (h a (List.mem_cons_self ..))]

theorem le_of_getLast_sorted {β : Type v} {key : β → α} {xs : List β} {x y : β}
    (hlast : (sorted key xs).getLast? = some x) (hy : y ∈ xs) : key y ≤ key x := by
  obtain ⟨ys, hys⟩ := List.getLast?_eq_some_iff.mp hlast
  have hpairwise := sorted_pairwise key xs
  have hmem : y ∈ sorted key xs := mem_sorted.mpr hy
  rw [hys] at hpairwise hmem
  rcases List.mem_append.mp hmem with h | h
  · exact (List.pairwise_append.mp hpairwise).2.2 y h x (List.mem_singleton_self x)
  · rw [List.mem_singleton.mp h]

theorem sorted_eq_of_perm {β : Type v} {key : β → α} {xs ys : List β} (hperm : xs.Perm ys)
    (hunique : (ys.map key).Nodup) : sorted key xs = sorted key ys := by
  have hboth : (sorted key xs).Perm (sorted key ys) :=
    (sorted_perm key xs).trans (hperm.trans (sorted_perm key ys).symm)
  refine hboth.eq_of_pairwise (fun a b ha hb hab hba => ?_) (sorted_pairwise key xs)
    (sorted_pairwise key ys)
  have ha' := hperm.mem_iff.mp (mem_sorted.mp ha)
  exact List.inj_on_of_nodup_map hunique ha' (mem_sorted.mp hb) (le_antisymm hab hba)

/-- Sorting is stable: what is in order already stays in order. -/
theorem filter_sorted {β : Type v} {key : β → α} {xs : List β} {p : β → Bool}
    (h : (xs.filter p).Pairwise (key · ≤ key ·)) : (sorted key xs).filter p = xs.filter p := by
  have htotal : Std.Total fun a b : β => key a ≤ key b := ⟨fun a b => le_total (key a) (key b)⟩
  have htrans : IsTrans β fun a b => key a ≤ key b := ⟨fun _ _ _ => le_trans⟩
  have hsub : (xs.filter p).Sublist (sorted key xs) :=
    List.sublist_insertionSort h List.filter_sublist
  have hfilter := hsub.filter p
  rw [List.filter_filter, List.filter_congr fun x _ => Bool.and_self (p x)] at hfilter
  have hlength := ((sorted_perm key xs).filter p).length_eq
  exact (hfilter.eq_of_length hlength.symm).symm

theorem map_sorted {β : Type v} (key : β → α) (xs : List β) :
    (sorted key xs).map key = sorted id (xs.map key) := by
  unfold sorted
  exact List.map_insertionSort _ _ _ _ fun _ _ _ _ => Iff.rfl

theorem sorted_map {β : Type v} {key : β → α} {f : β → β} (hkey : ∀ x, key (f x) = key x)
    (xs : List β) : sorted key (xs.map f) = (sorted key xs).map f := by
  refine (List.map_insertionSort _ _ _ _ fun x _ y _ => ?_).symm
  rw [hkey, hkey]

theorem sortedUnique_map_sorted {β : Type v} {key : β → α} {xs : List β} :
    SortedUnique ((sorted key xs).map key) ↔ (xs.map key).Nodup := by
  have hsorted : sorted id (sorted id (xs.map key)) = sorted id (xs.map key) :=
    (List.pairwise_insertionSort (fun a b : α => id a ≤ id b) _).insertionSort_eq
  rw [SortedUnique, map_sorted, hsorted, (sorted_perm id (xs.map key)).nodup_iff]
  simp

theorem SortedUnique.eq_of_mem_iff {xs ys : List α} (hxs : SortedUnique xs) (hys : SortedUnique ys)
    (h : ∀ x, x ∈ xs ↔ x ∈ ys) : xs = ys := by
  have hperm : xs.Perm ys := (List.perm_ext_iff_of_nodup hxs.2 hys.2).mpr h
  have hsorted : sorted id xs = sorted id ys :=
    sorted_eq_of_perm hperm ((List.map_id ys).symm ▸ hys.2)
  rw [hxs.1, hsorted, ← hys.1]

/-- Lists that run through the same keys agree in what the keys determine. -/
theorem map_eq_of_keys {β γ κ : Type*} {key : β → κ} {f : β → γ} {xs ys : List β}
    (hkeys : xs.map key = ys.map key) (h : ∀ x ∈ xs, ∀ y ∈ ys, key x = key y → f x = f y) :
    xs.map f = ys.map f := by
  induction xs generalizing ys with
  | nil =>
      rw [List.map_nil, eq_comm, List.map_eq_nil_iff] at hkeys
      rw [hkeys]
  | cons x xs ih =>
      cases ys with
      | nil => cases hkeys
      | cons y ys =>
          obtain ⟨hkey, hrest⟩ := List.cons.inj hkeys
          have hhead := h x List.mem_cons_self y List.mem_cons_self hkey
          have htail := ih hrest fun a ha b hb =>
            h a (List.mem_cons_of_mem _ ha) b (List.mem_cons_of_mem _ hb)
          rw [List.map_cons, List.map_cons, hhead, htail]

/-! ## Tabulated functions -/

section

variable {β γ κ ν : Type*}

/-- The entries tabulate a function on the keys of other entries: two dictionaries are equal. -/
def Tabulates (key : β → κ) (value : β → ν) (entries : List β) (keyOf : γ → κ) (openings : List γ)
    (f : κ → ν) : Prop :=
  (∀ entry ∈ entries, ∃ item ∈ openings, keyOf item = key entry) ∧
    ∀ item ∈ openings, ∃ entry ∈ entries, key entry = keyOf item ∧ value entry = f (keyOf item)

instance [DecidableEq κ] [DecidableEq ν] (key : β → κ) (value : β → ν) (entries : List β)
    (keyOf : γ → κ) (openings : List γ) (f : κ → ν) :
    Decidable (Tabulates key value entries keyOf openings f) := inferInstanceAs (Decidable (_ ∧ _))

variable {key : β → κ} {value : β → ν} {entries : List β} {keyOf : γ → κ} {openings : List γ}
  {f : κ → ν}

/-- The keys of the entries are those of the others. -/
theorem Tabulates.mem_iff (h : Tabulates key value entries keyOf openings f) (k : κ) :
    k ∈ entries.map key ↔ k ∈ openings.map keyOf := by
  constructor
  · intro hk
    obtain ⟨entry, hentry, rfl⟩ := List.mem_map.mp hk
    obtain ⟨item, hitem, hkey⟩ := h.1 entry hentry
    exact List.mem_map.mpr ⟨item, hitem, hkey⟩
  · intro hk
    obtain ⟨item, hitem, rfl⟩ := List.mem_map.mp hk
    obtain ⟨entry, hentry, hkey, -⟩ := h.2 item hitem
    exact List.mem_map.mpr ⟨entry, hentry, hkey⟩

theorem Tabulates.value_eq (h : Tabulates key value entries keyOf openings f)
    (hunique : (entries.map key).Nodup) {entry : β} (hentry : entry ∈ entries) :
    value entry = f (key entry) := by
  obtain ⟨item, hitem, hkey⟩ := h.1 entry hentry
  obtain ⟨other, hother, hotherKey, hvalue⟩ := h.2 item hitem
  have hsame : key other = key entry := hotherKey.trans hkey
  obtain rfl : other = entry := List.inj_on_of_nodup_map hunique hother hentry hsame
  rwa [hkey] at hvalue

end

/-! ## Groups -/

/-- A list is made up of its groups. -/
theorem perm_flatMap_filter {β γ : Type*} [DecidableEq γ] (key : β → γ) {ids : List γ}
    {xs : List β} (hids : ids.Nodup) (h : ∀ x ∈ xs, key x ∈ ids) :
    xs.Perm (ids.flatMap fun id => xs.filter fun x => key x = id) := by
  induction ids generalizing xs with
  | nil =>
      have hnil : xs = [] := List.eq_nil_iff_forall_not_mem.mpr fun x hx => by
        simpa using h x hx
      rw [hnil]
      rfl
  | cons id ids ih =>
      rw [List.nodup_cons] at hids
      have hrest : ∀ x ∈ xs.filter (fun x => !decide (key x = id)), key x ∈ ids := by
        intro x hx
        have hx' := List.mem_filter.mp hx
        refine (List.mem_cons.mp (h x hx'.1)).resolve_left ?_
        simpa using hx'.2
      have hgroups : (ids.flatMap fun other =>
          (xs.filter fun x => !decide (key x = id)).filter fun x => key x = other) =
            ids.flatMap fun other => xs.filter fun x => key x = other := by
        refine List.flatMap_congr fun other hother => ?_
        rw [List.filter_filter]
        refine List.filter_congr fun x _ => ?_
        have hne : other ≠ id := fun heq => hids.1 (heq ▸ hother)
        by_cases hkey : key x = other
        · simp [hkey, hne]
        · simp [hkey]
      have hsplit := List.filter_append_perm (fun x => decide (key x = id)) xs
      rw [List.flatMap_cons]
      refine hsplit.symm.trans (List.Perm.append_left _ ?_)
      have hperm := ih hids.2 hrest
      rwa [hgroups] at hperm

end Chain
