import SdaSystem.Library.Runs
import SdaSystem.Scheduling.Lemmas.Greedy
import SdaSystem.Scheduling.Lemmas.Solve
import SdaSystem.Workers.Impl.Pipeline

open CpSat Runs

namespace SdaSystem

namespace PassTable

theorem mem_insert {table : PassTable} {row p : SatellitePass} (hp : p ∈ (table.insert row).rows)
    : p ∈ table.rows ∨ p = { row with id := table.nextId } := by
  unfold insert at hp
  split at hp
  . simpa using hp
  . exact Or.inl hp

def Exclusive (table : PassTable) : Prop :=
  ∀ p ∈ table.rows, ∀ q ∈ table.rows,
    p.isScheduled → q.isScheduled → p.stationId = q.stationId → p ≠ q → p.NonOverlapping q

instance (table : PassTable) : Decidable table.Exclusive :=
  inferInstanceAs (Decidable (∀ p ∈ table.rows, ∀ q ∈ table.rows, _))

theorem Exclusive.of_scheduled_subset {table table' : PassTable} (h : table.Exclusive)
    (hsub : ∀ p ∈ table'.rows, p.isScheduled → p ∈ table.rows) : table'.Exclusive := by
  intro p hp q hq hpsched hqsched
  apply h p (hsub p hp hpsched) q (hsub q hq hqsched) hpsched hqsched

theorem Exclusive.insert {table : PassTable} (h : table.Exclusive) {row : SatellitePass}
    (hnew : row.isScheduled = false) : (table.insert row).Exclusive := by
  apply h.of_scheduled_subset
  intro p hp hsched
  cases mem_insert hp with
  | inl hp => apply hp
  | inr heq =>
    rw [heq] at hsched
    simp [hnew] at hsched

structure Selectable (table : PassTable) (selected : List SatellitePass) : Prop where
  mem : ∀ p ∈ selected, p ∈ table.rows
  exclusive : selected.Pairwise fun p q => p.stationId = q.stationId → p.NonOverlapping q

def Avoids (table : PassTable) (selected : List SatellitePass) : Prop :=
  ∀ p ∈ selected, ∀ q ∈ table.rows,
    q.isScheduled → p.stationId = q.stationId → p.NonOverlapping q

instance (table : PassTable) (selected : List SatellitePass) : Decidable (table.Avoids selected) :=
  inferInstanceAs (Decidable (∀ p ∈ selected, ∀ q ∈ table.rows, _))

theorem forall_scheduled_markScheduled {table : PassTable} {selected : List SatellitePass}
    {stage : ScheduledBy} {r : SatellitePass → SatellitePass → Prop} (hsymm : ∀ p q, r p q → r q p)
    (hmem : ∀ p ∈ selected, p ∈ table.rows)
    (hold : ∀ p ∈ table.rows, ∀ q ∈ table.rows, p.isScheduled → q.isScheduled → p ≠ q → r p q)
    (hmixed : ∀ p ∈ selected, ∀ q ∈ table.rows, q.isScheduled → r (p.schedule stage) q)
    (hadded : selected.Pairwise fun p q => r (p.schedule stage) (q.schedule stage))
    : ∀ p ∈ (table.markScheduled (selected.map (·.id)) stage).rows,
        ∀ q ∈ (table.markScheduled (selected.map (·.id)) stage).rows,
          p.isScheduled → q.isScheduled → p ≠ q → r p q := by
  have hpair : Std.Symm fun p q : SatellitePass => r (p.schedule stage) (q.schedule stage) :=
    ⟨fun p q => hsymm _ _⟩
  intro p' hp' q' hq' hpsched hqsched hne
  rw [mem_markScheduled] at hp' hq'
  cases hp' with
  | inl hp =>
    cases hq' with
    | inl hq => apply hold p' hp.left q' hq.left hpsched hqsched hne
    | inr hq =>
      obtain ⟨q, hq, hqid, rfl⟩ := hq
      apply hsymm
      apply hmixed q (mem_of_id_mem hmem hq hqid) p' hp.left hpsched
  | inr hp =>
    obtain ⟨p, hp, hpid, rfl⟩ := hp
    have hpsel := mem_of_id_mem hmem hp hpid
    cases hq' with
    | inl hq => apply hmixed p hpsel q' hq.left hqsched
    | inr hq =>
      obtain ⟨q, hq, hqid, rfl⟩ := hq
      apply hadded.forall hpsel (mem_of_id_mem hmem hq hqid)
      rintro rfl
      apply hne rfl

theorem Exclusive.markScheduled {table : PassTable} (h : table.Exclusive)
    {selected : List SatellitePass} (hsel : table.Selectable selected)
    (havoid : table.Avoids selected) (stage : ScheduledBy)
    : (table.markScheduled (selected.map (·.id)) stage).Exclusive := by
  intro p hp q hq hpsched hqsched hstation hne
  apply forall_scheduled_markScheduled (r := fun p q => p.stationId = q.stationId → p.NonOverlapping q)
    _ hsel.mem _ havoid hsel.exclusive p hp q hq hpsched hqsched hne hstation
  . intro p q hpq heq
    apply (hpq heq.symm).symm
  . intro p hp q hq hpsched hqsched hne hstation
    apply h p hp q hq hpsched hqsched hstation hne

end PassTable

theorem bulkUpsertPasses_exclusive {table table' : PassTable} {rows : List SatellitePass}
    (h : bulkUpsertPasses table rows = some table') (hnew : ∀ p ∈ rows, p.isScheduled = false)
    (hexcl : table.Exclusive) : table'.Exclusive := by
  unfold bulkUpsertPasses at h
  split at h
  . rw [Option.some.injEq] at h
    subst h
    clear * - hnew hexcl
    induction rows generalizing table with
    | nil => apply hexcl
    | cons row rows ih =>
      rw [List.foldl_cons]
      apply ih
      . intro p hp
        apply hnew
        simp [hp]
      . apply hexcl.insert
        apply hnew
        simp
  . simp at h

namespace GreedyScheduler

def offers (stations : StationTable) (table : PassTable) (startTime endTime : Int)
    : List SatellitePass :=
  (activeStations stations).flatMap fun stationId =>
    candidates table startTime endTime stationId ∅

theorem Progress.Valid.mem_offers {stations : StationTable} {table : PassTable}
    {startTime endTime : Int} {res : Progress}
    (h : res.Valid table startTime endTime (activeStations stations)) {p : SatellitePass}
    (hp : p ∈ res.allScheduled) : p ∈ offers stations table startTime endTime := by
  unfold offers
  rw [List.mem_flatMap]
  refine ⟨p.stationId, h.station p hp, ?_⟩
  rw [mem_candidates]
  exact ⟨h.mem p hp, rfl, (h.window p hp).left, (h.window p hp).right, h.unscheduled p hp, by simp⟩

theorem scheduleAllStations_exclusive {fl : Rat → Rat} (hfl : Monotone fl)
    {stations : StationTable} {table table' : PassTable} {startTime endTime : Int}
    {allScheduled : List SatellitePass} {sats : Finset Int}
    (h : scheduleAllStations fl stations table startTime endTime = some (table', allScheduled, sats))
    (havoid : table.Avoids (offers stations table startTime endTime)) (hexcl : table.Exclusive)
    : table'.Exclusive := by
  obtain ⟨res, _, hvalid, heq⟩ := scheduleAllStations_eq hfl stations table startTime endTime
  rw [heq, Option.some.injEq] at h
  cases h
  apply hexcl.markScheduled
  . exact ⟨hvalid.mem, hvalid.exclusive⟩
  . intro p hp
    apply havoid p (hvalid.mem_offers hp)

end GreedyScheduler

namespace ORToolsOptimizer

theorem mem_getCandidatePasses {table : PassTable} {sats : Finset Int} {startTime endTime : Int}
    {freeSlots : List (String × List (Int × Int))} {p : SatellitePass}
    (hp : p ∈ getCandidatePasses table sats startTime endTime freeSlots)
    : p ∈ table.rows ∧ p.isScheduled = false ∧ startTime ≤ p.riseTime ∧ p.noradId ∉ sats := by
  unfold getCandidatePasses at hp
  split at hp
  . simp at hp
  . simp only [List.mem_filter, mem_sortedBy, decide_eq_true_eq] at hp
    have h := hp.left
    exact ⟨h.left, by simpa using h.right.left, h.right.right.left, h.right.right.right.right⟩

namespace extract

theorem go_spec (a : Assignment Var) (alreadyScheduled committedNorads : Finset Int)
    (valid : List ValidPass)
    : (go a alreadyScheduled committedNorads valid).Pairwise (fun p q => p.noradId ≠ q.noradId)
        ∧
      ∀ p ∈ go a alreadyScheduled committedNorads valid,
        p.noradId ∉ alreadyScheduled ∧ p.noradId ∉ committedNorads
          ∧ ∃ v ∈ valid, a v.var ∧ v.pass = p := by
  induction valid generalizing committedNorads with
  | nil => simp [go]
  | cons v rest ih =>
    unfold go
    split
    . have := ih committedNorads
      grind
    . split
      . have := ih committedNorads
        grind
      . split
        . have := ih committedNorads
          grind
        . next hsel hstage hcommitted =>
          have := ih (insert v.pass.noradId committedNorads)
          rw [List.pairwise_cons]
          simp only [Finset.mem_insert, not_or] at this
          simp only [List.mem_cons, forall_eq_or_imp]
          grind

end extract

variable {solver : CpModel Var → Option (Assignment Var)} {candidates : List SatellitePass}
variable {epoch : Int} {alreadyScheduled : Finset Int}

theorem solve_pairwise_noradId
    : (solve solver candidates epoch alreadyScheduled).Pairwise fun p q => p.noradId ≠ q.noradId := by
  rw [solve_eq]
  split
  . apply (extract.go_spec _ _ _ _).left
  . simp

theorem mem_solve {p : SatellitePass} (hp : p ∈ solve solver candidates epoch alreadyScheduled)
    : p ∈ candidates ∧ p.noradId ∉ alreadyScheduled ∧ HasDuration epoch p := by
  rw [solve_eq] at hp
  split at hp
  . obtain ⟨hnew, _, v, hv, _, rfl⟩ := (extract.go_spec _ _ _ _).right p hp
    exact ⟨pass_mem_candidates hv, hnew, (mem_validPasses hv).right.hasDuration⟩
  . simp at hp

instance (epoch : Int) (p : SatellitePass) : Decidable (HasDuration epoch p) :=
  inferInstanceAs (Decidable (¬ _))

theorem optimizeRemaining_exclusive (hsolver : CpModel.Sound solver) {table : PassTable}
    {sats : Finset Int} {startTime endTime : Int} {freeSlots : List (String × List (Int × Int))}
    (hsecond : NoSharedSecond (getCandidatePasses table sats startTime endTime freeSlots) startTime
      sats)
    (havoid : table.Avoids
      ((getCandidatePasses table sats startTime endTime freeSlots).filter
        fun p => HasDuration startTime p))
    (hexcl : table.Exclusive)
    : (optimizeRemaining solver table sats startTime endTime freeSlots).1.Exclusive := by
  unfold optimizeRemaining
  apply hexcl.markScheduled
  . constructor
    . intro p hp
      apply (mem_getCandidatePasses (mem_solve hp).left).left
    . apply (solve_nonOverlapping_iff _ _ _ _).mpr hsecond solver hsolver
      intro p hp
      have := mem_getCandidatePasses hp
      exact ⟨this.right.right.left, table.timeOrder p this.left⟩
  . intro p hp
    apply havoid
    rw [List.mem_filter]
    exact ⟨(mem_solve hp).left, by simpa using (mem_solve hp).right.right⟩

end ORToolsOptimizer

namespace runOrtools

def candidates (stations : StationTable) (table : PassTable) (startTime horizon : Int)
    (task : OrtoolsTask) : List SatellitePass :=
  ORToolsOptimizer.getCandidatePasses table (scheduledSats table task) startTime
    (startTime + horizon) (parsedSlots stations table startTime (startTime + horizon) task)

end runOrtools

theorem runGreedy_eq {fl : Rat → Rat} {stations : StationTable} {table : PassTable}
    {startTime horizon : Int} {table' : PassTable} {task : OrtoolsTask}
    (h : runGreedy fl stations table startTime horizon = some (table', task))
    : ∃ allScheduled,
        GreedyScheduler.scheduleAllStations fl stations table startTime (startTime + horizon)
          =
        some (table', allScheduled, task.scheduledSats) := by
  unfold runGreedy at h
  simp only [Option.bind_eq_bind, Option.bind_eq_some_iff] at h
  obtain ⟨⟨table'', allScheduled, sats⟩, heq, h⟩ := h
  cases h
  exact ⟨allScheduled, heq⟩

namespace Pipeline

/--
What the stage may select stays clear of the rows that are scheduled already, and, in Stage 2, no
two rows that it may select share a second.
-/
def Clear (s : State) (e : Event) : Prop :=
  match e with
  | .scheduleAllStations stations startTime endTime =>
    s.table.Avoids (GreedyScheduler.offers stations s.table startTime endTime)
  | .runGreedy stations startTime horizon =>
    s.table.Avoids (GreedyScheduler.offers stations s.table startTime (startTime + horizon))
  | .runOrtools stations startTime horizon task =>
    let candidates := runOrtools.candidates stations s.table startTime horizon task
    ORToolsOptimizer.NoSharedSecond candidates startTime (runOrtools.scheduledSats s.table task)
      ∧ s.table.Avoids (candidates.filter fun p => ORToolsOptimizer.HasDuration startTime p)
  | .bulkUpsertPasses _ | .reorder => True

theorem Step.exclusive {s t : State} {e : Event} (h : Step s e t) (hclear : Clear s e)
    (hexcl : s.table.Exclusive) : t.table.Exclusive := by
  cases h with
  | bulkUpsertPasses hnew h => apply bulkUpsertPasses_exclusive h hnew hexcl
  | scheduleAllStations h =>
    apply GreedyScheduler.scheduleAllStations_exclusive PyFloat.fl_mono h hclear hexcl
  | runGreedy h =>
    obtain ⟨allScheduled, heq⟩ := runGreedy_eq h
    apply GreedyScheduler.scheduleAllStations_exclusive PyFloat.fl_mono heq hclear hexcl
  | runOrtools htask hsolver =>
    apply ORToolsOptimizer.optimizeRemaining_exclusive hsolver hclear.left hclear.right hexcl
  | reorder h =>
    apply hexcl.of_scheduled_subset
    intro p hp _
    apply h.mem_iff.mp hp

/-- Exclusivity holds all along a run whose steps are clear of what is scheduled already. -/
theorem exclusive_of_run {s t : State} {events : List Event} (hexcl : s.table.Exclusive)
    (hrun : Run (restrict Clear Step) s events t) : t.table.Exclusive := by
  apply hrun.invariant _ hexcl
  intro s e t hexcl hstep
  apply hstep.right.exclusive hstep.left hexcl

def soleStation : StationTable where
  rows := [{ stationId := "GS1", isActive := true }]
  uniqueKey := by simp

def early : SatellitePass :=
  { id := 1, noradId := 101, stationId := "GS1", riseTime := 0, setTime := 600000000,
    durationSeconds := 600, maxElevation := 40 }

def late : SatellitePass :=
  { id := 2, noradId := 102, stationId := "GS1", riseTime := 300000000, setTime := 900000000,
    durationSeconds := 600, maxElevation := 50 }

theorem Step.insert (table : PassTable) (row : SatellitePass) (hnew : row.isScheduled = false)
    (hchecks : row.Checks)
    : Step { table } (.bulkUpsertPasses [row]) { table := table.insert row } := by
  apply Step.bulkUpsertPasses (s := { table })
  . simpa using hnew
  . unfold SdaSystem.bulkUpsertPasses
    simp [hchecks]

def lateInsert : Option PassTable := do
  let (table, _) ←
    GreedyScheduler.scheduleAllStations PyFloat.fl soleStation (PassTable.empty.insert early) 0
      900000000
  let (table, _) ←
    GreedyScheduler.scheduleAllStations PyFloat.fl soleStation (table.insert late) 0 900000000
  return table

theorem exclusive_of_run_early
    : ∃ t, Run (restrict Clear Step) { table := .empty }
        [.bulkUpsertPasses [early], .scheduleAllStations soleStation 0 900000000] t
      ∧
    t.table.Exclusive := by
  obtain ⟨res, _, _, heq⟩ :=
    GreedyScheduler.scheduleAllStations_eq PyFloat.fl_mono soleStation
      (PassTable.empty.insert early) 0 900000000
  have hrun : Run (restrict Clear Step) { table := .empty }
      [.bulkUpsertPasses [early], .scheduleAllStations soleStation 0 900000000]
      { table := (PassTable.empty.insert early).markScheduled (res.allScheduled.map (·.id)) .greedy }
      := by
    apply Run.cons ⟨trivial, Step.insert _ early rfl (by decide +kernel)⟩
    have hclear : (PassTable.empty.insert early).Avoids (GreedyScheduler.offers soleStation
        (PassTable.empty.insert early) 0 900000000) := by decide +kernel
    apply Run.cons ⟨hclear, Step.scheduleAllStations (s := { table := _ }) heq⟩
    apply Run.nil
  exact ⟨_, hrun, exclusive_of_run (by decide) hrun⟩

theorem overlapping_of_second_run
    : ¬ ∀ (s t : State) (events : List Event),
        s.tasks = [] → s.table.Exclusive → Run Step s events t → t.table.Exclusive := by
  intro h
  have hresult : lateInsert.map (fun table => decide table.Exclusive) = some false := by
    decide +kernel
  obtain ⟨table, hlate, hfalse⟩ := Option.map_eq_some_iff.mp hresult
  unfold lateInsert at hlate
  simp only [Option.bind_eq_bind, Option.bind_eq_some_iff] at hlate
  obtain ⟨first, hfirst, second, hsecond, heq⟩ := hlate
  cases heq
  have hrun : Run Step { table := .empty } [
      .bulkUpsertPasses [early], .scheduleAllStations soleStation 0 900000000,
      .bulkUpsertPasses [late], .scheduleAllStations soleStation 0 900000000]
      { table := second.1 } := by
    apply Run.cons (Step.insert _ early rfl (by decide +kernel))
    apply Run.cons (Step.scheduleAllStations (s := { table := _ }) hfirst)
    apply Run.cons (Step.insert _ late rfl (by decide +kernel))
    apply Run.cons (Step.scheduleAllStations (s := { table := _ }) hsecond)
    apply Run.nil
  have hexcl : second.1.Exclusive := h _ _ _ rfl (by decide) hrun
  simp [hexcl] at hfalse

end Pipeline

end SdaSystem
