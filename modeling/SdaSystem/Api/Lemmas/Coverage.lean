import Mathlib.Data.Finset.Card
import SdaSystem.Api.Impl.Coverage

namespace SdaSystem
namespace Coverage

def satellites (rows : List SatellitePass) : Finset Int :=
  (rows.map (·.noradId)).toFinset

theorem mem_satellites {rows : List SatellitePass} {noradId : Int}
    : noradId ∈ satellites rows ↔ ∃ p ∈ rows, p.noradId = noradId := by
  simp [satellites]

theorem countSatellites_eq_card (rows : List SatellitePass)
    : countSatellites rows = (satellites rows).card := by
  unfold satellites
  rw [List.card_toFinset]
  rfl

theorem satellites_subset {rows rows' : List SatellitePass} (h : ∀ p ∈ rows, p ∈ rows')
    : satellites rows ⊆ satellites rows' := by
  intro noradId hmem
  obtain ⟨p, hp, heq⟩ := mem_satellites.mp hmem
  exact mem_satellites.mpr ⟨p, h p hp, heq⟩

def scheduledBy (table : PassTable) (stage : Option ScheduledBy) : Finset Int :=
  satellites (group (·.scheduledBy) (scheduledRows table) stage)

theorem mem_scheduledBy {table : PassTable} {stage : Option ScheduledBy} {noradId : Int}
    : noradId ∈ scheduledBy table stage
        ↔
      ∃ p ∈ scheduledRows table, p.scheduledBy = stage ∧ p.noradId = noradId := by
  unfold scheduledBy
  rw [mem_satellites]
  simp only [mem_group, and_assoc]

theorem scheduledBy_subset (table : PassTable) (stage : Option ScheduledBy)
    : scheduledBy table stage ⊆ satellites (scheduledRows table) := by
  apply satellites_subset
  intro p hp
  exact ((mem_group _ _).mp hp).left

theorem foldl_add (f : Option ScheduledBy → Nat) {stages : List (Option ScheduledBy)}
    (hnodup : stages.Nodup) (counts : StageCounts)
    : (stages.map fun stage => (stage, f stage)).foldl StageCounts.add counts
        =
      {
        greedyScheduled := counts.greedyScheduled
          + (if some .greedy ∈ stages then f (some .greedy) else 0)
          + (if some .intervalTree ∈ stages then f (some .intervalTree) else 0)
        ortoolsScheduled :=
          if some .ortools ∈ stages then f (some .ortools) else counts.ortoolsScheduled
      } := by
  induction stages generalizing counts with
  | nil => simp
  | cons stage stages ih =>
    obtain ⟨hnotMem, hnodup⟩ := List.nodup_cons.mp hnodup
    rw [List.map_cons, List.foldl_cons, ih hnodup]
    match stage with
    | none => simp [StageCounts.add]
    | some .greedy =>
      simp [StageCounts.add, hnotMem]
    | some .intervalTree =>
      simp [StageCounts.add, hnotMem]
      omega
    | some .ortools =>
      simp [StageCounts.add, hnotMem]

theorem stageCounts_stageRows (table : PassTable)
    : stageCounts (stageRows table)
        =
      {
        greedyScheduled := (scheduledBy table (some .greedy)).card
          + (scheduledBy table (some .intervalTree)).card
        ortoolsScheduled := (scheduledBy table (some .ortools)).card
      } := by
  -- a stage without a group has no satellites
  have hcount : ∀ stage : ScheduledBy,
      (if some stage ∈ groupKeys (·.scheduledBy) (scheduledRows table) then
        countSatellites (group (·.scheduledBy) (scheduledRows table) (some stage)) else 0)
        =
      (scheduledBy table (some stage)).card := by
    intro stage
    split
    . next hmem => apply countSatellites_eq_card
    . next hmem =>
      symm
      rw [Finset.card_eq_zero, Finset.eq_empty_iff_forall_notMem]
      intro noradId hsat
      obtain ⟨p, hp, hstage, _⟩ := mem_scheduledBy.mp hsat
      exact hmem ((mem_groupKeys _ _).mpr ⟨p, hp, hstage⟩)
  unfold stageCounts stageRows
  rw [foldl_add _ (nodup_groupKeys _ _)]
  simp only [hcount, Nat.zero_add]

def greedyRows (table : PassTable) : List SatellitePass :=
  (scheduledRows table).filter fun p =>
    p.scheduledBy = some .greedy ∨ p.scheduledBy = some .intervalTree

theorem satellites_greedyRows (table : PassTable)
    : satellites (greedyRows table)
        =
      scheduledBy table (some .greedy) ∪ scheduledBy table (some .intervalTree) := by
  ext noradId
  simp only [Finset.mem_union, mem_scheduledBy, mem_satellites, greedyRows, List.mem_filter,
    decide_eq_true_eq]
  constructor
  . rintro ⟨p, ⟨hp, hstage | hstage⟩, hsat⟩
    . exact .inl ⟨p, hp, hstage, hsat⟩
    . exact .inr ⟨p, hp, hstage, hsat⟩
  . rintro (⟨p, hp, hstage, hsat⟩ | ⟨p, hp, hstage, hsat⟩)
    . exact ⟨p, ⟨hp, .inl hstage⟩, hsat⟩
    . exact ⟨p, ⟨hp, .inr hstage⟩, hsat⟩

structure Consistent (table : PassTable) (response : CoverageResponse) : Prop where
  greedyScheduled : response.greedyScheduled = countSatellites (greedyRows table)
  greedyLe : response.greedyScheduled ≤ response.totalScheduled
  totalLe : response.totalScheduled ≤ response.totalVisibleSatellites
  totalLeAdd : response.totalScheduled ≤ response.greedyScheduled + response.ortoolsScheduled
  coveragePct : 0 ≤ response.coveragePct ∧ response.coveragePct ≤ 100
  greedyCoveragePct : 0 ≤ response.greedyCoveragePct ∧ response.greedyCoveragePct ≤ 100
  ortoolsImprovementPct :
    0 ≤ response.ortoolsImprovementPct ∧ response.ortoolsImprovementPct ≤ 100
  add : response.greedyCoveragePct + response.ortoolsImprovementPct = response.coveragePct

theorem percent_bounds {n : Int} {total : Nat} (hnonneg : 0 ≤ n) (hle : n ≤ total)
    : 0 ≤ percent id n total ∧ percent id n total ≤ 100 := by
  unfold percent
  split
  . next hpos =>
    have hpos : (0 : Rat) < total := by exact_mod_cast hpos
    have hnonneg : (0 : Rat) ≤ n := by exact_mod_cast hnonneg
    have hle : (n : Rat) ≤ total := by exact_mod_cast hle
    have hratio := div_nonneg hnonneg hpos.le
    have hone := (div_le_one hpos).mpr hle
    simp only [id]
    constructor
    . linarith
    . linarith
  . exact ⟨le_refl 0, by norm_num⟩

theorem percent_add (n m : Int) (total : Nat)
    : percent id n total + percent id m total = percent id (n + m) total := by
  unfold percent
  split
  . simp only [id]
    push_cast
    ring
  . apply add_zero

def StagesKnown (table : PassTable) : Prop :=
  ∀ p ∈ table.rows, p.isScheduled = true → p.scheduledBy ≠ none

def GreedyStagesApart (table : PassTable) : Prop :=
  ∀ p ∈ table.rows, ∀ q ∈ table.rows, p.isScheduled = true → q.isScheduled = true
    → p.scheduledBy = some .greedy → q.scheduledBy = some .intervalTree → p.noradId ≠ q.noradId

instance : DecidablePred StagesKnown := fun table =>
  inferInstanceAs (Decidable (∀ p ∈ table.rows, _))

instance : DecidablePred GreedyStagesApart := fun table =>
  inferInstanceAs (Decidable (∀ p ∈ table.rows, _))

theorem greedyStagesApart_iff (table : PassTable)
    : GreedyStagesApart table
        ↔
      Disjoint (scheduledBy table (some .greedy)) (scheduledBy table (some .intervalTree)) := by
  rw [Finset.disjoint_left]
  simp only [mem_scheduledBy, scheduledRows, List.mem_filter]
  constructor
  . rintro hapart noradId ⟨p, ⟨hp, hps⟩, hpstage, hpsat⟩ ⟨q, ⟨hq, hqs⟩, hqstage, hqsat⟩
    exact hapart p hp q hq hps hqs hpstage hqstage (hpsat.trans hqsat.symm)
  . intro hdisjoint p hp q hq hps hqs hpstage hqstage hsat
    exact hdisjoint ⟨p, ⟨hp, hps⟩, hpstage, rfl⟩ ⟨q, ⟨hq, hqs⟩, hqstage, hsat.symm⟩

theorem satellites_scheduledRows {table : PassTable} (h : StagesKnown table)
    : satellites (scheduledRows table)
        =
      satellites (greedyRows table) ∪ scheduledBy table (some .ortools) := by
  apply subset_antisymm
  . intro noradId hmem
    obtain ⟨p, hp, hsat⟩ := mem_satellites.mp hmem
    have hstage : p.scheduledBy ≠ none := by
      obtain ⟨hrow, hscheduled⟩ := List.mem_filter.mp hp
      exact h p hrow hscheduled
    rw [satellites_greedyRows, Finset.mem_union, Finset.mem_union]
    simp only [mem_scheduledBy]
    match hcase : p.scheduledBy with
    | none => exact absurd hcase hstage
    | some .greedy => exact .inl (.inl ⟨p, hp, hcase, hsat⟩)
    | some .intervalTree => exact .inl (.inr ⟨p, hp, hcase, hsat⟩)
    | some .ortools => exact .inr ⟨p, hp, hcase, hsat⟩
  . apply Finset.union_subset
    . rw [satellites_greedyRows]
      exact Finset.union_subset (scheduledBy_subset table _) (scheduledBy_subset table _)
    . exact scheduledBy_subset table _

theorem coverage_greedyScheduled_iff (table : PassTable) (stationNames : List (String × String))
    : (coverage id table stationNames).greedyScheduled = countSatellites (greedyRows table)
        ↔
      GreedyStagesApart table := by
  unfold coverage
  dsimp only
  rw [stageCounts_stageRows, countSatellites_eq_card, satellites_greedyRows,
    greedyStagesApart_iff, eq_comm]
  exact Finset.card_union_eq_card_add_card

theorem coverage_consistent_iff {table : PassTable} (h : StagesKnown table)
    (stationNames : List (String × String))
    : Consistent table (coverage id table stationNames) ↔ GreedyStagesApart table := by
  constructor
  . intro hconsistent
    exact (coverage_greedyScheduled_iff table stationNames).mp hconsistent.greedyScheduled
  . intro hapart
    have hgreedy := (coverage_greedyScheduled_iff table stationNames).mpr hapart
    have hgreedyLe : (coverage id table stationNames).greedyScheduled
        ≤ (coverage id table stationNames).totalScheduled := by
      rw [hgreedy, countSatellites_eq_card]
      show _ ≤ countSatellites (scheduledRows table)
      rw [countSatellites_eq_card]
      apply Finset.card_le_card
      rw [satellites_scheduledRows h]
      exact Finset.subset_union_left
    have htotalLe : (coverage id table stationNames).totalScheduled
        ≤ (coverage id table stationNames).totalVisibleSatellites := by
      show countSatellites (scheduledRows table) ≤ countSatellites table.rows
      rw [countSatellites_eq_card, countSatellites_eq_card]
      apply Finset.card_le_card
      apply satellites_subset
      intro p hp
      exact List.mem_of_mem_filter hp
    have htotalLeAdd : (coverage id table stationNames).totalScheduled
        ≤ (coverage id table stationNames).greedyScheduled
          + (coverage id table stationNames).ortoolsScheduled := by
      rw [hgreedy]
      show countSatellites (scheduledRows table)
        ≤ countSatellites (greedyRows table) + (stageCounts (stageRows table)).ortoolsScheduled
      rw [stageCounts_stageRows, countSatellites_eq_card, countSatellites_eq_card,
        satellites_scheduledRows h]
      apply Finset.card_union_le
    refine {
      greedyScheduled := hgreedy
      greedyLe := hgreedyLe
      totalLe := htotalLe
      totalLeAdd := htotalLeAdd
      coveragePct := ?coverage
      greedyCoveragePct := ?greedy
      ortoolsImprovementPct := ?ortools
      add := ?add
    }
    case coverage =>
      apply percent_bounds
      . exact Int.natCast_nonneg _
      . exact_mod_cast htotalLe
    case greedy =>
      apply percent_bounds
      . exact Int.natCast_nonneg _
      . exact_mod_cast le_trans hgreedyLe htotalLe
    case ortools =>
      apply percent_bounds
      . exact Int.sub_nonneg.mpr (by exact_mod_cast hgreedyLe)
      . have : ((coverage id table stationNames).totalScheduled : Int)
            ≤ (coverage id table stationNames).totalVisibleSatellites := by
          exact_mod_cast htotalLe
        exact le_trans (Int.sub_le_self _ (Int.natCast_nonneg _)) this
    case add =>
      show percent id _ _ + percent id _ _ = percent id _ _
      rw [percent_add, add_sub_cancel]

def bothStages : PassTable where
  rows := [
    {
      id := 1
      noradId := 25544
      stationId := "GS001"
      riseTime := 0
      setTime := 600000000
      durationSeconds := 600
      maxElevation := 45
      isScheduled := true
      scheduledBy := some .greedy
    },
    {
      id := 2
      noradId := 25544
      stationId := "GS002"
      riseTime := 300000000
      setTime := 900000000
      durationSeconds := 600
      maxElevation := 30
      isScheduled := true
      scheduledBy := some .intervalTree
    }
  ]
  primaryKey := by decide
  uniqueKey := by decide
  timeOrder := by decide

theorem stagesKnown_bothStages : StagesKnown bothStages := by
  decide

theorem coverage_consistent_iff_both
    : Consistent bothStages (coverage id bothStages []) ↔ GreedyStagesApart bothStages :=
  coverage_consistent_iff stagesKnown_bothStages []

/-- Two satellites are counted as greedy where one is visible. -/
theorem coverage_inconsistent
    : ¬ ∀ table, StagesKnown table → ∀ stationNames,
        Consistent table (coverage id table stationNames) := by
  intro hall
  have hle := (hall bothStages stagesKnown_bothStages []).greedyLe
  revert hle
  decide +kernel

end Coverage
end SdaSystem
