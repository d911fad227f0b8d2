import Mathlib.Data.Int.Lemmas
import Mathlib.Data.List.Sort
import Mathlib.Data.Prod.Lex
import StonksPaper.Base.Table

/-!
# Fixed windows

A store that counts the calls of each key in windows of fixed length. A window is made by the first
call and held until its end; a heap of the ends says which windows to drop, so only as many are
looked at as are over. What a call does to the window of its key is `grant`; everything else a call
can see of other keys is the largest clock and whether the table is full.
-/

namespace FixedWindow

universe u v

set_option linter.unusedSectionVars false

/-- Time that is cut into windows, for each length. -/
structure Grid (T : Type u) [LinearOrder T] where
  /-- The window that a time is in. -/
  identifier : ℕ → T → ℤ
  /-- The end of a window, which is the start of the next. -/
  expiresAt : ℕ → ℤ → T
  identifier_eq_iff : ∀ {seconds : ℕ}, 0 < seconds → ∀ (now : T) (k : ℤ),
    identifier seconds now = k ↔ expiresAt seconds (k - 1) ≤ now ∧ now < expiresAt seconds k

structure Window (T : Type u) where
  identifier : ℤ
  expiresAt : T
  count : ℕ
  limit : ℕ
  seconds : ℕ
deriving DecidableEq

/-- An entry of the heap: when a window expires, its key and which window it is. -/
abbrev Entry (κ : Type v) (T : Type u) := T ×ₗ κ ×ₗ ℤ

structure Store (κ : Type v) (T : Type u) where
  maxKeys : ℕ
  windows : List (κ × Window T)
  /-- The heap, in order. -/
  expirations : List (Entry κ T)
  latest : Option T

structure Request (κ : Type v) (T : Type u) where
  key : κ
  now : T
  limit : ℕ
  seconds : ℕ

/-- The answer to a call; what it says of a refusal is an end to wait for. -/
inductive Outcome (T : Type u) where
  | allowed (remaining : ℕ)
  | regressed (expiresAt : T)
  | full (expiresAt : T)
  | mismatched (expiresAt : T)
  /-- The end of the window of the call, and of the window that is held. -/
  | exceeded (expiresAt held : T)
deriving DecidableEq

variable {κ : Type v} {T : Type u} [LinearOrder κ] [LinearOrder T]

def entryOf (held : κ × Window T) : Entry κ T :=
  toLex (held.2.expiresAt, toLex (held.1, held.2.identifier))

/-- The window of an entry is dropped, unless another one is held under its key. -/
def dropWindow (entry : Entry κ T) (windows : List (κ × Window T)) : List (κ × Window T) :=
  match Table.get Prod.fst windows (ofLex (ofLex entry).2).1 with
  | none => windows
  | some held =>
      if held.2.identifier = (ofLex (ofLex entry).2).2 ∧ held.2.expiresAt = (ofLex entry).1 then
        windows.filter fun other => other.1 ≠ (ofLex (ofLex entry).2).1
      else windows

/-- Entries are popped while the first one is over. -/
def expireWindows (now : T) : List (Entry κ T) → List (κ × Window T) →
    List (Entry κ T) × List (κ × Window T)
  | [], windows => ([], windows)
  | entry :: rest, windows =>
      if (ofLex entry).1 ≤ now then expireWindows now rest (dropWindow entry windows)
      else (entry :: rest, windows)

namespace Store

def window (self : Store κ T) (key : κ) : Option (Window T) :=
  (Table.get Prod.fst self.windows key).map Prod.snd

/-- The store at a clock that does not go backwards. -/
def expire (self : Store κ T) (now : T) : Store κ T where
  maxKeys := self.maxKeys
  windows := (expireWindows now self.expirations self.windows).2
  expirations := (expireWindows now self.expirations self.windows).1
  latest := some now

/-- A new window, with its entry on the heap. -/
def create (self : Store κ T) (key : κ) (made : Window T) : Store κ T :=
  { self with
    windows := self.windows ++ [(key, made)]
    expirations := self.expirations.orderedInsert (· ≤ ·) (entryOf (key, made)) }

/-- The window that is held for a key is replaced. -/
def set (self : Store κ T) (key : κ) (updated : Window T) : Store κ T :=
  { self with windows := Table.update (·.1 = key) (fun _ => (key, updated)) self.windows }

end Store

variable (grid : Grid T)

/-- The window that a call makes. -/
def opened (request : Request κ T) : Window T where
  identifier := grid.identifier request.seconds request.now
  expiresAt := grid.expiresAt request.seconds (grid.identifier request.seconds request.now)
  count := 1
  limit := request.limit
  seconds := request.seconds

def consume (self : Store κ T) (request : Request κ T) : Store κ T × Outcome T :=
  let expiresAt := grid.expiresAt request.seconds (grid.identifier request.seconds request.now)
  if ∃ latest ∈ self.latest, request.now < latest then (self, .regressed expiresAt)
  else
    let store := self.expire request.now
    match store.window request.key with
    | none =>
        if store.maxKeys ≤ store.windows.length then (store, .full expiresAt)
        else (store.create request.key (opened grid request), .allowed (request.limit - 1))
    | some current =>
        if current.limit ≠ request.limit ∨ current.seconds ≠ request.seconds then
          (store, .mismatched current.expiresAt)
        else
          let updated := { current with count := current.count + 1 }
          (store.set request.key updated,
            if request.limit < updated.count then .exceeded expiresAt updated.expiresAt
            else .allowed (request.limit - updated.count))

/-! ## The window of one key -/

/-- What a call does to the window of its key, once what is over is gone. -/
def grant (full : Bool) (request : Request κ T) : Option (Window T) → Option (Window T) × Outcome T
  | none =>
      if full = true then
        (none, .full (grid.expiresAt request.seconds (grid.identifier request.seconds request.now)))
      else (some (opened grid request), .allowed (request.limit - 1))
  | some current =>
      if current.limit ≠ request.limit ∨ current.seconds ≠ request.seconds then
        (some current, .mismatched current.expiresAt)
      else
        (some { current with count := current.count + 1 },
          if request.limit < current.count + 1 then
            .exceeded (grid.expiresAt request.seconds (grid.identifier request.seconds request.now))
              current.expiresAt
          else .allowed (request.limit - (current.count + 1)))

/-- A store whose heap has exactly the ends of its windows, each of them to come. -/
structure WellFormed (store : Store κ T) : Prop where
  bounded : store.windows.length ≤ store.maxKeys
  unique : Table.Unique Prod.fst store.windows
  sorted : store.expirations.Pairwise (· ≤ ·)
  entries : store.expirations.Perm (store.windows.map entryOf)
  /-- A held window is one of the grid, in which the clock is. -/
  stamped : ∀ held ∈ store.windows, 0 < held.2.seconds ∧
    held.2.expiresAt = grid.expiresAt held.2.seconds held.2.identifier ∧
    ∃ latest ∈ store.latest, grid.identifier held.2.seconds latest = held.2.identifier

variable {grid} {store : Store κ T} {request : Request κ T} {key : κ} {now : T}

theorem wellFormed_empty (maxKeys : ℕ) : WellFormed grid (⟨maxKeys, [], [], none⟩ : Store κ T) where
  bounded := Nat.zero_le _
  unique := List.nodup_nil
  sorted := List.Pairwise.nil
  entries := List.Perm.refl _
  stamped := fun _ h => absurd h List.not_mem_nil

theorem WellFormed.alive (h : WellFormed grid store) {held : κ × Window T}
    (hheld : held ∈ store.windows) : ∀ latest ∈ store.latest, latest < held.2.expiresAt := by
  obtain ⟨hseconds, hends, latest, hlatest, hidentifier⟩ := h.stamped held hheld
  intro other hother
  obtain rfl : latest = other := Option.some.inj (hlatest.symm.trans hother)
  rw [hends]
  exact ((grid.identifier_eq_iff hseconds latest _).mp hidentifier).2

/-! ## Expiry -/

theorem mem_of_window {window : Window T} (h : store.window key = some window) :
    (key, window) ∈ store.windows := by
  obtain ⟨held, hget, hheld⟩ := Option.map_eq_some_iff.mp h
  have hkey := Table.key_of_get hget
  have hmem := Table.mem_of_get hget
  rw [← hkey, ← hheld]
  exact hmem

theorem window_of_mem (hunique : Table.Unique Prod.fst store.windows) {window : Window T}
    (h : (key, window) ∈ store.windows) : store.window key = some window := by
  have hget := Table.get_of_mem hunique h
  simp only [Store.window, hget, Option.map_some]

theorem dropWindow_eq {windows : List (κ × Window T)} (hunique : Table.Unique Prod.fst windows)
    {held : κ × Window T} (hheld : held ∈ windows) :
    dropWindow (entryOf held) windows = windows.filter fun other => other.1 ≠ held.1 := by
  show (match Table.get Prod.fst windows held.1 with
    | none => windows
    | some found =>
        if found.2.identifier = held.2.identifier ∧ found.2.expiresAt = held.2.expiresAt then
          windows.filter fun other => other.1 ≠ held.1
        else windows) = _
  rw [Table.get_of_mem hunique hheld]
  exact if_pos ⟨rfl, rfl⟩

theorem filter_ne_cons_perm {windows : List (κ × Window T)}
    (hunique : Table.Unique Prod.fst windows) {held : κ × Window T} (hheld : held ∈ windows) :
    (held :: windows.filter fun other => other.1 ≠ held.1).Perm windows := by
  have hone := hunique.filter_eq hheld
  have hsplit := List.filter_append_perm (fun other : κ × Window T => decide (other.1 = held.1))
      windows
  rw [hone] at hsplit
  simpa using hsplit

/-- Exactly what is over is dropped, from the windows and from the heap. -/
theorem expireWindows_spec (now : T) {heap : List (Entry κ T)} {windows : List (κ × Window T)}
    (hunique : Table.Unique Prod.fst windows) (hsorted : heap.Pairwise (· ≤ ·))
    (hentries : heap.Perm (windows.map entryOf)) :
    (expireWindows now heap windows).2 = windows.filter (fun held => now < held.2.expiresAt) ∧
      (expireWindows now heap windows).1.Pairwise (· ≤ ·) ∧
      (expireWindows now heap windows).1.Perm ((expireWindows now heap windows).2.map entryOf) := by
  induction heap generalizing windows with
  | nil =>
      have hnil : windows = [] := by simpa using hentries.symm
      rw [hnil]
      exact ⟨rfl, List.Pairwise.nil, List.Perm.refl _⟩
  | cons entry rest ih =>
      obtain ⟨hfirst, hrest⟩ := List.pairwise_cons.mp hsorted
      have hmem : entry ∈ windows.map entryOf := hentries.mem_iff.mp List.mem_cons_self
      obtain ⟨held, hheld, rfl⟩ := List.mem_map.mp hmem
      by_cases hover : held.2.expiresAt ≤ now
      · have hstep : expireWindows now (entryOf held :: rest) windows =
            expireWindows now rest (windows.filter fun other => other.1 ≠ held.1) := by
          rw [← dropWindow_eq hunique hheld]
          exact if_pos hover
        have hdropped := filter_ne_cons_perm hunique hheld
        have hperm : rest.Perm ((windows.filter fun other => other.1 ≠ held.1).map entryOf) := by
          have hall := hentries.trans (hdropped.symm.map entryOf)
          rw [List.map_cons] at hall
          exact hall.cons_inv
        obtain ⟨hwindows, hpairwise, hmatch⟩ := ih (hunique.filter _) hrest hperm
        rw [hstep]
        refine ⟨?_, hpairwise, hmatch⟩
        rw [hwindows, List.filter_filter]
        refine List.filter_congr fun other hother => ?_
        by_cases hkey : other.1 = held.1
        · obtain rfl := hunique.eq hother hheld hkey
          simp [hover]
        · simp [hkey]
      · have hstep : expireWindows now (entryOf held :: rest) windows =
            (entryOf held :: rest, windows) := if_neg hover
        rw [hstep]
        refine ⟨(List.filter_eq_self.mpr fun other hother => ?_).symm, hsorted, hentries⟩
        -- the first entry of the heap is the first to expire
        have hentry : entryOf other ∈ entryOf held :: rest :=
          hentries.mem_iff.mpr (List.mem_map_of_mem hother)
        have hle : held.2.expiresAt ≤ other.2.expiresAt := by
          rcases List.mem_cons.mp hentry with heq | hlater
          · exact (congrArg (fun entry : Entry κ T => (ofLex entry).1) heq).ge
          · exact Prod.Lex.monotone_fst _ _ (hfirst _ hlater)
        simpa using (not_le.mp hover).trans_le hle

/-- The clock does not go backwards. -/
def Forward (store : Store κ T) (now : T) : Prop := ¬ ∃ latest ∈ store.latest, now < latest

theorem Forward.le {latest : T} (h : Forward store now) (hlatest : latest ∈ store.latest) :
    latest ≤ now := not_lt.mp fun hlt => h ⟨latest, hlatest, hlt⟩

theorem windows_expire (h : WellFormed grid store) (now : T) :
    (store.expire now).windows = store.windows.filter fun held => now < held.2.expiresAt :=
  (expireWindows_spec now h.unique h.sorted h.entries).1

theorem wellFormed_expire (h : WellFormed grid store) (hforward : Forward store now) :
    WellFormed grid (store.expire now) := by
  obtain ⟨hwindows, hsorted, hentries⟩ := expireWindows_spec now h.unique h.sorted h.entries
  have hkept : (store.expire now).windows = _ := hwindows
  refine ⟨?_, ?_, hsorted, hentries, ?_⟩
  · rw [hkept]
    exact (List.length_filter_le _ _).trans h.bounded
  · rw [hkept]
    exact h.unique.filter _
  · intro held hheld
    rw [hkept] at hheld
    obtain ⟨hmem, halive⟩ := List.mem_filter.mp hheld
    obtain ⟨hseconds, hends, latest, hlatest, hidentifier⟩ := h.stamped held hmem
    refine ⟨hseconds, hends, now, rfl, ?_⟩
    have hstart := ((grid.identifier_eq_iff hseconds latest _).mp hidentifier).1
    rw [grid.identifier_eq_iff hseconds, ← hends]
    exact ⟨hstart.trans (hforward.le hlatest), of_decide_eq_true halive⟩

/-- What is held of a key after the expiry. -/
theorem window_expire (h : WellFormed grid store) (key : κ) (now : T) :
    (store.expire now).window key =
      (store.window key).filter fun window => decide (now < window.expiresAt) := by
  have hunique : Table.Unique Prod.fst (store.expire now).windows := by
    rw [windows_expire h]
    exact h.unique.filter _
  cases hwindow : store.window key with
  | none =>
      cases hkept : (store.expire now).window key with
      | none => rfl
      | some window =>
          have hmem := mem_of_window hkept
          rw [windows_expire h] at hmem
          have hheld := window_of_mem h.unique (List.mem_filter.mp hmem).1
          rw [hwindow] at hheld
          cases hheld
  | some window =>
      have hmem := mem_of_window hwindow
      by_cases halive : now < window.expiresAt
      · have hkept : (key, window) ∈ (store.expire now).windows := by
          rw [windows_expire h]
          exact List.mem_filter.mpr ⟨hmem, decide_eq_true halive⟩
        rw [window_of_mem hunique hkept]
        rw [Option.filter_some, if_pos (decide_eq_true halive)]
      · cases hkept : (store.expire now).window key with
        | none => rw [Option.filter_some, if_neg (by simpa using halive)]
        | some other =>
            have hother := mem_of_window hkept
            rw [windows_expire h] at hother
            obtain ⟨hfound, hends⟩ := List.mem_filter.mp hother
            have hsame := (window_of_mem h.unique hfound).symm.trans hwindow
            obtain rfl := Option.some.inj hsame
            exact absurd (of_decide_eq_true hends) halive

/-! ## Creation and counting -/

theorem window_create_self (hnone : store.window key = none) (made : Window T) :
    (store.create key made).window key = some made := by
  have hget : Table.get Prod.fst store.windows key = none := Option.map_eq_none_iff.mp hnone
  have hread : Table.get Prod.fst (store.windows ++ [(key, made)]) key = some (key, made) :=
    Table.get_concat_self (Table.get_eq_none.mp hget)
  simp only [Store.window, Store.create, hread, Option.map_some]

theorem window_create_of_ne {other : κ} (hne : key ≠ other) (made : Window T) :
    (store.create key made).window other = store.window other := by
  have hread : Table.get Prod.fst (store.windows ++ [(key, made)]) other =
      Table.get Prod.fst store.windows other := Table.get_concat_of_ne hne
  simp only [Store.window, Store.create, hread]

theorem window_set_self {current updated : Window T} (h : store.window key = some current) :
    (store.set key updated).window key = some updated := by
  obtain ⟨held, hget, -⟩ := Option.map_eq_some_iff.mp h
  have hread : Table.get Prod.fst (Table.update (·.1 = key) (fun _ => (key, updated))
      store.windows) key = some (key, updated) := Table.get_update_self hget rfl
  simp only [Store.window, Store.set, hread, Option.map_some]

theorem window_set_of_ne {other : κ} (hne : key ≠ other) (updated : Window T) :
    (store.set key updated).window other = store.window other := by
  have hread : Table.get Prod.fst (Table.update (·.1 = key) (fun _ => (key, updated))
      store.windows) other = Table.get Prod.fst store.windows other :=
    Table.get_update_of_ne (fun _ hheld => hheld.symm) fun _ hheld => hheld ▸ hne
  simp only [Store.window, Store.set, hread]

theorem wellFormed_create (h : WellFormed grid store) (hlatest : store.latest = some request.now)
    (hseconds : 0 < request.seconds) (hnone : store.window request.key = none)
    (hroom : store.windows.length < store.maxKeys) :
    WellFormed grid (store.create request.key (opened grid request)) := by
  have hfresh : Table.Fresh Prod.fst request.key store.windows :=
    Table.get_eq_none.mp (Option.map_eq_none_iff.mp hnone)
  refine ⟨?_, h.unique.concat hfresh, ?_, ?_, ?_⟩
  · show (store.windows ++ [_]).length ≤ store.maxKeys
    rw [List.length_append, List.length_singleton]
    omega
  · exact h.sorted.orderedInsert _ _
  · refine (List.perm_orderedInsert _ _ _).trans ?_
    show (_ :: store.expirations).Perm ((store.windows ++ [_]).map entryOf)
    rw [List.map_append, List.map_singleton]
    exact (h.entries.cons _).trans (List.perm_append_singleton _ _).symm
  · intro held hheld
    rcases List.mem_append.mp hheld with hmem | hmem
    · exact h.stamped held hmem
    · rw [List.mem_singleton.mp hmem]
      exact ⟨hseconds, rfl, request.now, hlatest, rfl⟩

theorem wellFormed_set (h : WellFormed grid store) {current : Window T} (count : ℕ)
    (hcurrent : store.window key = some current) :
    WellFormed grid (store.set key { current with count := count }) := by
  have hmem := mem_of_window hcurrent
  have hsame : (store.set key { current with count := count }).windows.map entryOf =
      store.windows.map entryOf := by
    refine Eq.trans (List.map_map) (List.map_congr_left fun held hheld => ?_)
    by_cases hkey : held.1 = key
    · have hheldWindow : held = (key, current) := h.unique.eq hheld hmem hkey
      rw [Function.comp_apply, if_pos hkey, hheldWindow]
      rfl
    · rw [Function.comp_apply, if_neg hkey]
  refine ⟨?_, h.unique.update fun held hheld => hheld.symm, h.sorted, ?_, ?_⟩
  · show (Table.update _ _ store.windows).length ≤ store.maxKeys
    rw [Table.update, List.length_map]
    exact h.bounded
  · rw [hsame]
    exact h.entries
  · intro held hheld
    obtain ⟨before, hbefore, rfl⟩ := Table.mem_update.mp hheld
    split
    · exact h.stamped (key, current) hmem
    · exact h.stamped before hbefore

/-! ## One call -/

/-- Once what is over is gone, the key holds no window and the table is full. -/
def noRoom (store : Store κ T) (request : Request κ T) : Bool :=
  decide ((store.expire request.now).window request.key = none ∧
    store.maxKeys ≤ (store.expire request.now).windows.length)

theorem consume_regressed (h : ¬ Forward store request.now) : consume grid store request =
    (store, .regressed (grid.expiresAt request.seconds
      (grid.identifier request.seconds request.now))) := if_pos (not_not.mp h)

/-- What a call makes of a store: the window of its key is admitted, the others only expire. -/
structure Consumed (grid : Grid T) (store : Store κ T) (request : Request κ T) : Prop where
  wellFormed : WellFormed grid (consume grid store request).1
  latest : (consume grid store request).1.latest = some request.now
  maxKeys : (consume grid store request).1.maxKeys = store.maxKeys
  own : ((consume grid store request).1.window request.key, (consume grid store request).2) =
    grant grid (noRoom store request) request ((store.expire request.now).window request.key)
  other : ∀ key, key ≠ request.key → (consume grid store request).1.window key =
    (store.expire request.now).window key

theorem consume_spec (h : WellFormed grid store) (hforward : Forward store request.now)
    (hseconds : 0 < request.seconds) : Consumed grid store request := by
  have hexpired := wellFormed_expire h hforward
  cases hwindow : (store.expire request.now).window request.key with
  | none =>
      by_cases hfull : store.maxKeys ≤ (store.expire request.now).windows.length
      · have hconsume : consume grid store request = (store.expire request.now,
            .full (grid.expiresAt request.seconds
              (grid.identifier request.seconds request.now))) := by
          have hheld : (store.expire request.now).maxKeys ≤ _ := hfull
          simp only [consume, if_neg hforward, hwindow, if_pos hheld]
        refine ⟨?_, ?_, ?_, ?_, ?_⟩ <;> rw [hconsume]
        · exact hexpired
        · rfl
        · rfl
        · simp [grant, hwindow, noRoom, hfull]
        · exact fun _ _ => rfl
      · have hconsume : consume grid store request =
            ((store.expire request.now).create request.key (opened grid request),
              .allowed (request.limit - 1)) := by
          have hroom : ¬ (store.expire request.now).maxKeys ≤ _ := hfull
          simp only [consume, if_neg hforward, hwindow, if_neg hroom]
        refine ⟨?_, ?_, ?_, ?_, ?_⟩ <;> rw [hconsume]
        · exact wellFormed_create hexpired rfl hseconds hwindow (not_le.mp hfull)
        · rfl
        · rfl
        · simp [grant, hwindow, noRoom, hfull, window_create_self hwindow]
        · exact fun key hkey => window_create_of_ne (Ne.symm hkey) _
  | some current =>
      by_cases hmismatch : current.limit ≠ request.limit ∨ current.seconds ≠ request.seconds
      · have hconsume : consume grid store request =
            (store.expire request.now, .mismatched current.expiresAt) := by
          simp only [consume, if_neg hforward, hwindow, if_pos hmismatch]
        refine ⟨?_, ?_, ?_, ?_, ?_⟩ <;> rw [hconsume]
        · exact hexpired
        · rfl
        · rfl
        · simp only [grant, hwindow, if_pos hmismatch]
        · exact fun _ _ => rfl
      · have hconsume : (consume grid store request).1 =
            (store.expire request.now).set request.key
              { current with count := current.count + 1 } ∧
            (consume grid store request).2 =
              if request.limit < current.count + 1 then
                .exceeded (grid.expiresAt request.seconds
                  (grid.identifier request.seconds request.now)) current.expiresAt
              else .allowed (request.limit - (current.count + 1)) := by
          simp only [consume, if_neg hforward, hwindow, if_neg hmismatch, and_self]
        refine ⟨?_, ?_, ?_, ?_, ?_⟩ <;> rw [hconsume.1]
        · exact wellFormed_set hexpired _ hwindow
        · rfl
        · rfl
        · rw [hconsume.2, window_set_self hwindow, hwindow]
          exact (if_neg hmismatch).symm
        · exact fun key hkey => window_set_of_ne (Ne.symm hkey) _

theorem wellFormed_consume (h : WellFormed grid store) (hseconds : 0 < request.seconds) :
    WellFormed grid (consume grid store request).1 := by
  by_cases hforward : Forward store request.now
  · exact (consume_spec h hforward hseconds).wellFormed
  · rw [consume_regressed hforward]
    exact h

end FixedWindow
