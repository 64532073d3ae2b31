import SdaSystem.Db.Impl.Seeding
import SdaSystem.Library.Runs

open Runs

namespace SdaSystem
namespace Seeding

section rows

variable {stations : List StationEntry}

theorem missing_eq_nil {ids : List String}
    : missing stations ids = [] ↔ ∀ e ∈ configured stations, e.id ∈ ids := by
  simp [missing]

theorem stationId_of_row {seeder : Seeder} {e : StationEntry} {row : StationRow}
    (h : seeder.row e = some row) : row.stationId = e.id := by
  cases seeder with
  | seedGroundStations =>
    cases h
    rfl
  | initGroundStations =>
    obtain ⟨altitudeM, _, rfl⟩ := Option.map_eq_some_iff.mp h
    rfl

theorem ids_of_mapM {seeder : Seeder} {es : List StationEntry} {rows : List StationRow}
    (h : es.mapM seeder.row = some rows) : rows.map (·.stationId) = es.map (·.id) := by
  induction es generalizing rows with
  | nil =>
    cases h
    rfl
  | cons e es ih =>
    rw [List.mapM_cons, Option.bind_eq_bind, Option.bind_eq_some_iff] at h
    obtain ⟨row, hrow, h⟩ := h
    rw [Option.bind_eq_bind, Option.bind_eq_some_iff] at h
    obtain ⟨rest, hrest, h⟩ := h
    cases h
    rw [List.map_cons, List.map_cons, stationId_of_row hrow, ih hrest]

theorem mapM_seedGroundStations (es : List StationEntry)
    : es.mapM Seeder.seedGroundStations.row = some (es.map seedGroundStations.row) := by
  induction es with
  | nil => rfl
  | cons e es ih =>
    rw [List.mapM_cons, ih]
    rfl

end rows

/-- The table with the stations that it lacked, all of them as `seeder` writes them. -/
def SeededBy (stations : List StationEntry) (t₀ : Table) (seeder : Seeder) (t : Table) : Prop :=
  ∃ rows, (missing stations t₀.ids).mapM seeder.row = some rows ∧ t.rows = t₀.rows ++ rows

section seeded

variable {stations : List StationEntry} {t₀ t : Table} {seeder : Seeder}

theorem Table.insertAll_eq_some {new : List StationRow} (h : t₀.insertAll new = some t)
    : t.rows = t₀.rows ++ new := by
  unfold insertAll at h
  split at h
  . cases h
    rfl
  . cases h

theorem Table.insertAll_eq_none {new : List StationRow} {row : StationRow} (hrow : row ∈ new)
    (h : row.stationId ∈ t.ids) : t.insertAll new = none := by
  unfold insertAll
  rw [dif_neg]
  rintro ⟨hnodup, _⟩
  rw [List.map_append, List.nodup_append] at hnodup
  apply hnodup.right.right _ h _ (List.mem_map_of_mem hrow) rfl

theorem SeededBy.ids (h : SeededBy stations t₀ seeder t)
    : t.ids = t₀.ids ++ (missing stations t₀.ids).map (·.id) := by
  obtain ⟨rows, hrows, heq⟩ := h
  unfold Table.ids
  rw [heq, List.map_append, ids_of_mapM hrows]
  rfl

theorem SeededBy.missing_eq_nil (h : SeededBy stations t₀ seeder t) : missing stations t.ids = [] := by
  rw [Seeding.missing_eq_nil, h.ids]
  intro e he
  rw [List.mem_append]
  by_cases hid : e.id ∈ t₀.ids
  . apply Or.inl hid
  . apply Or.inr
    apply List.mem_map_of_mem
    simp [missing, he, hid]

theorem seededBy_of_insertMissing (h : seeder.insertMissing stations t₀.ids t₀ = some t)
    : SeededBy stations t₀ seeder t := by
  unfold Seeder.insertMissing at h
  rw [Option.bind_eq_bind, Option.bind_eq_some_iff] at h
  obtain ⟨rows, hrows, h⟩ := h
  exact ⟨rows, hrows, Table.insertAll_eq_some h⟩

theorem SeededBy.insertMissing_eq_none (h : SeededBy stations t₀ seeder t)
    (hmissing : missing stations t₀.ids ≠ []) (seeder' : Seeder)
    : seeder'.insertMissing stations t₀.ids t = none := by
  unfold Seeder.insertMissing
  rw [Option.bind_eq_bind, Option.bind_eq_none_iff]
  intro rows hrows
  have hids := ids_of_mapM hrows
  obtain ⟨e, rest, hcons⟩ := List.exists_cons_of_ne_nil hmissing
  rw [hcons, List.map_cons] at hids
  obtain ⟨row, rows, rfl, hid, _⟩ := List.map_eq_cons_iff.mp hids
  apply Table.insertAll_eq_none List.mem_cons_self
  rw [hid, h.ids, hcons]
  simp

end seeded

/-- `who` may seed: the others come only after a process has returned. -/
def Allowed (who : Seeder → Prop) (s : State) (e : Event) : Prop :=
  ∀ n seeder, e = .select n seeder → who seeder ∨ s.returned ≠ []

structure Inv (stations : List StationEntry) (who : Seeder → Prop) (t₀ : Table) (s : State) : Prop where
  table : s.table = t₀ ∨ ∃ seeder, who seeder ∧ SeededBy stations t₀ seeder s.table
  -- what a process has read is still what there was at the start
  existingIds : ∀ n seeder ids, s.existingIds n = some (seeder, ids)
    → ids = t₀.ids ∧ missing stations ids ≠ [] ∧ who seeder
  returned : s.returned ≠ [] → missing stations s.table.ids = []
  raised : s.raised ≠ [] → (∃ seeder, who seeder ∧ SeededBy stations t₀ seeder s.table)
    ∨ ∃ seeder : Seeder, seeder.insertMissing stations t₀.ids t₀ = none

section inv

variable {stations : List StationEntry} {who : Seeder → Prop} {t₀ : Table} {s : State}

theorem inv_init (stations : List StationEntry) (who : Seeder → Prop) (t₀ : Table)
    : Inv stations who t₀ { table := t₀ } where
  table := Or.inl rfl
  existingIds _ _ _ h := nomatch h
  returned h := absurd rfl h
  raised h := absurd rfl h

theorem Inv.table_eq (h : Inv stations who t₀ s) (hmissing : missing stations s.table.ids ≠ [])
    : s.table = t₀ := by
  cases h.table with
  | inl heq => apply heq
  | inr hseeded =>
    obtain ⟨seeder, _, hseeded⟩ := hseeded
    apply absurd hseeded.missing_eq_nil hmissing

theorem Inv.select (h : Inv stations who t₀ s) {n : Nat} {seeder : Seeder} {t : State}
    (hallowed : Allowed who s (.select n seeder)) (hstep : Step stations s (.select n seeder) t)
    : Inv stations who t₀ t := by
  unfold Step step at hstep
  dsimp only at hstep
  split at hstep
  . cases hstep
  . split at hstep
    . next hnone =>
      cases hstep
      exact ⟨h.table, h.existingIds, fun _ => hnone, h.raised⟩
    . next hmissing =>
      cases hstep
      refine ⟨h.table, ?_, h.returned, h.raised⟩
      intro m seeder' ids hids
      dsimp only at hids
      rw [Function.update_apply] at hids
      split at hids
      . cases hids
        refine ⟨by rw [h.table_eq hmissing], hmissing, ?_⟩
        cases hallowed n _ rfl with
        | inl hwho => apply hwho
        | inr hreturned => apply absurd (h.returned hreturned) hmissing
      . apply h.existingIds m seeder' ids hids

theorem Inv.existingIds_idle (h : Inv stations who t₀ s) (n : Nat)
    : ∀ m seeder ids, Function.update s.existingIds n none m = some (seeder, ids)
        → ids = t₀.ids ∧ missing stations ids ≠ [] ∧ who seeder := by
  intro m seeder ids hids
  rw [Function.update_apply] at hids
  split at hids
  . cases hids
  . apply h.existingIds m seeder ids hids

theorem Inv.commit (h : Inv stations who t₀ s) {n : Nat} {t : State}
    (hstep : Step stations s (.commit n) t) : Inv stations who t₀ t := by
  unfold Step step at hstep
  dsimp only at hstep
  split at hstep
  . cases hstep
  . next seeder ids hread =>
    obtain ⟨rfl, hmissing, hwho⟩ := h.existingIds n seeder ids hread
    split at hstep
    . next table hinsert =>
      cases hstep
      have hseeded : SeededBy stations t₀ seeder table := by
        cases h.table with
        | inl heq =>
          rw [heq] at hinsert
          apply seededBy_of_insertMissing hinsert
        | inr hseeded =>
          obtain ⟨_, _, hseeded⟩ := hseeded
          rw [hseeded.insertMissing_eq_none hmissing seeder] at hinsert
          cases hinsert
      exact ⟨Or.inr ⟨seeder, hwho, hseeded⟩, h.existingIds_idle n, fun _ => hseeded.missing_eq_nil,
        fun _ => Or.inl ⟨seeder, hwho, hseeded⟩⟩
    . next hrefused =>
      cases hstep
      refine ⟨h.table, h.existingIds_idle n, h.returned, ?_⟩
      intro _
      cases h.table with
      | inl heq =>
        rw [heq] at hrefused
        exact Or.inr ⟨seeder, hrefused⟩
      | inr hseeded => apply Or.inl hseeded

theorem Inv.step (h : Inv stations who t₀ s) {e : Event} {t : State} (hallowed : Allowed who s e)
    (hstep : Step stations s e t) : Inv stations who t₀ t := by
  cases e with
  | select n seeder => apply h.select hallowed hstep
  | commit n => apply h.commit hstep
  | crash n =>
    cases hstep
    exact ⟨h.table, h.existingIds_idle n, h.returned, h.raised⟩

theorem Inv.run {events : List Event} {t : State} (h : Inv stations who t₀ s)
    (hrun : Run (restrict (Allowed who) (Step stations)) s events t) : Inv stations who t₀ t := by
  apply hrun.invariant _ h
  rintro s e t h ⟨hallowed, hstep⟩
  apply h.step hallowed hstep

end inv

/--
The table is what it was, or it has all the missing stations from one and the same seeder; it has them
once any process returns, and a process raises only after another one seeded, or because the entries
cannot be stored.
-/
theorem seeded_of_run (stations : List StationEntry) (t₀ : Table) {events : List Event} {s : State}
    (hrun : Run (Step stations) { table := t₀ } events s)
    : (s.table = t₀ ∨ ∃ seeder, SeededBy stations t₀ seeder s.table)
        ∧
      (s.returned ≠ [] → ∀ e ∈ configured stations, e.id ∈ s.table.ids)
        ∧
      (s.raised ≠ [] → (∃ seeder, SeededBy stations t₀ seeder s.table)
        ∨ ∃ seeder : Seeder, seeder.insertMissing stations t₀.ids t₀ = none) := by
  have hfree : Run (restrict (Allowed fun _ => True) (Step stations)) { table := t₀ } events s := by
    apply hrun.mono
    intro s e t hstep
    exact ⟨fun _ _ _ => Or.inl trivial, hstep⟩
  have h := (inv_init stations (fun _ => True) t₀).run hfree
  have htable := h.table
  have hraised := h.raised
  simp only [true_and] at htable hraised
  exact ⟨htable, fun hreturned => missing_eq_nil.mp (h.returned hreturned), hraised⟩

def svalbard : StationEntry where
  id := "GS001"
  name := "Svalbard Satellite Station"
  latitude := 78229 / 1000
  longitude := 15623 / 1000
  altitudeM := some 500
  elevationMaskDeg := some 5

def race : List Event := [
  .select 0 .seedGroundStations,
  .select 1 .initGroundStations,
  .commit 1,
  .commit 0,
  .select 2 .seedGroundStations
]

theorem seeded_of_run_race
    : ∃ s, Run (Step [svalbard]) { table := .empty } race s
        ∧ s.returned = [2, 1] ∧ s.raised = [0]
        ∧ (s.table = .empty ∨ ∃ seeder, SeededBy [svalbard] .empty seeder s.table)
        ∧ (s.returned ≠ [] → ∀ e ∈ configured [svalbard], e.id ∈ s.table.ids)
        ∧ (s.raised ≠ [] → (∃ seeder, SeededBy [svalbard] .empty seeder s.table)
            ∨ ∃ seeder : Seeder, seeder.insertMissing [svalbard] Table.empty.ids .empty = none) := by
  obtain ⟨s, hs, hends⟩ : ∃ s, race.foldlM (step [svalbard]) { table := .empty } = some s
      ∧ (s.returned, s.raised) = ([2, 1], [0]) := by
    rw [← Option.map_eq_some_iff (f := fun s : State => (s.returned, s.raised))]
    decide +kernel
  obtain ⟨hreturned, hraised⟩ := Prod.mk.inj hends
  have hrun : Run (Step [svalbard]) { table := .empty } race s := run_of_foldlM hs
  exact ⟨s, hrun, hreturned, hraised, seeded_of_run [svalbard] .empty hrun⟩

/--
Where every process sets the database up before it ingests, the stations have the masks that are
configured for them.
-/
theorem seedGroundStations_of_run (stations : List StationEntry) (t₀ : Table) {events : List Event}
    {s : State}
    (hrun : Run (restrict (Allowed (· = .seedGroundStations)) (Step stations)) { table := t₀ }
      events s)
    : s.table = t₀
        ∨
      s.table.rows = t₀.rows ++ (missing stations t₀.ids).map seedGroundStations.row := by
  have h := (inv_init stations (· = .seedGroundStations) t₀).run hrun
  apply h.table.imp_right
  rintro ⟨_, rfl, rows, hrows, heq⟩
  rw [mapM_seedGroundStations] at hrows
  cases hrows
  apply heq

/-- Two containers start: the second one fails, and after its restart it ingests. -/
theorem seedGroundStations_of_run_restart
    : ∃ events s, (.select 1 .initGroundStations) ∈ events ∧ s.raised = [1]
        ∧ Run (restrict (Allowed (· = .seedGroundStations)) (Step [svalbard])) { table := .empty }
            events s
        ∧ (s.table = .empty
            ∨ s.table.rows = Table.empty.rows
              ++ (missing [svalbard] Table.empty.ids).map seedGroundStations.row) := by
  let setUp : List Event :=
    [.select 0 .seedGroundStations, .select 1 .seedGroundStations, .commit 0, .commit 1]
  obtain ⟨t, ht, hraised⟩ : ∃ t, (setUp ++ [Event.select 1 .initGroundStations]).foldlM
      (step [svalbard]) { table := .empty } = some t ∧ t.raised = [1] := by
    rw [← Option.map_eq_some_iff (f := State.raised)]
    decide +kernel
  rw [List.foldlM_append, Option.bind_eq_bind, Option.bind_eq_some_iff] at ht
  obtain ⟨s, hs, hselect⟩ := ht
  have hreturned : (setUp.foldlM (step [svalbard]) { table := .empty }).map State.returned
      = some [0] := by
    decide +kernel
  rw [hs, Option.map_some, Option.some.injEq] at hreturned
  have hsetUp : ∀ e ∈ setUp, ∀ s, Allowed (· = .seedGroundStations) s e := by
    simp [setUp, Allowed]
  have hrun : Run (restrict (Allowed (· = .seedGroundStations)) (Step [svalbard]))
      { table := .empty } (setUp ++ [.select 1 .initGroundStations]) t := by
    apply Run.snoc
    . apply ((run_of_foldlM hs).restrict_of_forall hsetUp).mono
      rintro s e t ⟨hallowed, hstep⟩
      exact ⟨hallowed s, hstep⟩
    . rw [List.foldlM_cons, Option.bind_eq_bind, Option.bind_eq_some_iff] at hselect
      obtain ⟨_, hstep, hnil⟩ := hselect
      cases hnil
      refine ⟨?_, hstep⟩
      intro _ _ _
      apply Or.inr
      simp [hreturned]
  refine ⟨_, t, ?_, hraised, hrun, seedGroundStations_of_run [svalbard] .empty hrun⟩
  simp

end Seeding
end SdaSystem
