import StonksPaper.Effects.Step

/-!
# Kill switches over runs

Switches have unique identities, one for each account at most, and the scope of a switch says
whether it is an account's. What a call that failed may change is the row of the global switch.
-/

namespace StonksPaper

open Chain
open scoped ExactArithmetic

/-! ## Identities -/

/-- What the table of switches keeps. -/
structure SwitchesKept (rows : List PaperKillSwitchState) : Prop where
  ids_unique : Table.Unique (·.switchId) rows
  accounts_unique : Table.Unique (·.accountId) rows
  scopes : ∀ w ∈ rows, (w.scope = .global ↔ w.accountId = none)

section

variable {s s' : Store} {rows rows' : List PaperKillSwitchState}

theorem switchesKept_migrated {at_ : UTCDateTime} : SwitchesKept (Store.migrated at_).switches := by
  constructor
  · exact List.nodup_singleton _
  · exact List.nodup_singleton _
  · intro w hw
    rw [List.mem_singleton.mp hw]
    simp

theorem SwitchesKept.account_update {old new : PaperKillSwitchState} (hk : SwitchesKept rows)
    (hold : old ∈ rows) (haccount : new.accountId = old.accountId) :
    (Table.update (·.switchId = old.switchId) (fun _ => new) rows).map (·.accountId) =
      rows.map (·.accountId) := by
  rw [Table.update, List.map_map]
  refine List.map_congr_left fun w hw => ?_
  by_cases hid : w.switchId = old.switchId
  · rw [hk.ids_unique.eq hw hold hid]
    simpa using haccount
  · simp [hid]

theorem SwitchesKept.moved (hk : SwitchesKept rows) (h : SwitchesMoved rows rows') :
    SwitchesKept rows' := by
  cases h with
  | kept => exact hk
  | @updated old new stored same =>
      refine ⟨hk.ids_unique.update fun w hw => same.1.trans hw.symm, ?_, ?_⟩
      · unfold Table.Unique
        rw [hk.account_update stored same.2.2]
        exact hk.accounts_unique
      · intro w hw
        obtain ⟨r, hr, rfl⟩ := Table.mem_update.mp hw
        by_cases hid : r.switchId = old.switchId
        · rw [if_pos hid, same.2.1, same.2.2]
          exact hk.scopes old stored
        · rw [if_neg hid]
          exact hk.scopes r hr
  | inserted fresh account_fresh scope =>
      refine ⟨hk.ids_unique.concat fresh, hk.accounts_unique.concat account_fresh, ?_⟩
      exact List.forall_mem_append.mpr ⟨hk.scopes, by simpa using scope⟩

end

section

variable [Hashing] {s s' : Store}

theorem SwitchesKept.effect {O : Permission} (h : Effect O s s') (hk : SwitchesKept s.switches) :
    SwitchesKept s'.switches := by
  cases h with
  | registered => exact hk
  | targeted => exact hk
  | decided => exact hk
  | batch created => rwa [created.state]
  | executed _ persisted => rwa [persisted.state]
  | posted _ posted => rwa [posted.state]
  | cancelled _ cancelled => rwa [cancelled.state]
  | operated operated => exact hk.moved operated.switches

theorem switchesKept_reached (at_ : UTCDateTime) (ops : List Timed) :
    SwitchesKept (World.reached at_ ops).store.switches :=
  World.invariant_reached (I := fun s => SwitchesKept s.switches) at_ ops switchesKept_migrated
    fun _ _ h hk => hk.effect h

end

/-! ## The row of the global switch -/

/-- The stores differ in the row of the global switch at most. -/
def GlobalSwitchOnly (s s' : Store) : Prop :=
  s' = { s with switches := s'.switches } ∧
    s'.switches.filter (·.scope ≠ .global) = s.switches.filter (·.scope ≠ .global)

section

variable {s s' : Store}

theorem GlobalSwitchOnly.refl (s : Store) : GlobalSwitchOnly s s := ⟨rfl, rfl⟩

theorem globalSwitchOnly_activateGlobal {reasonCode actor : String} {now : UTCDateTime}
    (hk : SwitchesKept s.switches)
    (h : s.activateGlobalKillSwitch reasonCode actor now = .success s') :
    GlobalSwitchOnly s s' := by
  obtain ⟨hstate, row, hrow, hmoved⟩ := activateGlobal_eq_success h
  refine ⟨hstate, ?_⟩
  rcases hmoved with hmoved | hmoved
  · rw [hmoved]
  · have hglobal : row ∈ s.switches.filter (·.scope = .global) := by simp [hrow]
    obtain ⟨hstored, hscope⟩ := List.mem_filter.mp hglobal
    rw [hmoved]
    refine Table.filter_update_of_excluded fun w hw hid => ?_
    rw [hk.ids_unique.eq hw hstored hid]
    have hscope := of_decide_eq_true hscope
    exact ⟨by simpa using hscope, by simpa [PaperKillSwitchState.activated] using hscope⟩

theorem globalSwitchOnly_accountingMismatch {failure : Failure} {commits : Commits}
    {now : UTCDateTime} (hk : SwitchesKept s.switches) :
    GlobalSwitchOnly s (s.accountingMismatch failure commits now).2 := by
  unfold Store.accountingMismatch
  split
  · rename_i activated hactivated
    split
    · exact globalSwitchOnly_activateGlobal hk hactivated
    · exact .refl s
  · exact .refl s
  · exact .refl s

end

end StonksPaper
