import SdaSystem.Api.Impl.Schedule

namespace SdaSystem

open Gregorian

namespace Schedule

def AppearsOn (table : PassTable) (stationId : String) (p : SatellitePass) (d : QueryDate) : Prop :=
  ∃ response, getSchedule table stationId d = some response ∧ p ∈ response.passes

/-- From 0001-01-01 up to 9999-12-30, the dates with an end that is a `datetime`. -/
def InRange (t : Int) : Prop :=
  -719162 * usPerDay ≤ t ∧ t < 2932896 * usPerDay

def WithinOneDate (p : SatellitePass) : Prop :=
  InRange p.riseTime ∧ p.setTime ≤ (p.riseTime / usPerDay + 1) * usPerDay

instance : DecidablePred WithinOneDate := fun p =>
  inferInstanceAs (Decidable ((_ ≤ p.riseTime ∧ _ < _) ∧ _ ≤ _))

theorem next_year_le_iff (d : Date) : d.next.year ≤ 9999 ↔ d.ordinal < 3652059 := by
  rw [← d.next.ordinal_le_iff (by decide), Date.ordinal_next]
  rfl

theorem mem_query {table : PassTable} {stationId : String} {startTime endTime : Int}
    {p : SatellitePass}
    : p ∈ query table stationId startTime endTime
        ↔
      p ∈ table.rows ∧ p.stationId = stationId ∧ p.isScheduled = true ∧ startTime ≤ p.riseTime
        ∧ p.setTime ≤ endTime := by
  unfold query
  rw [mem_sortedBy, List.mem_filter, decide_eq_true_iff]

theorem appearsOn_iff {table : PassTable} {stationId : String} {p : SatellitePass} {d : QueryDate}
    (hp : p ∈ table.rows) (hstation : p.stationId = stationId) (hscheduled : p.isScheduled = true)
    : AppearsOn table stationId p d
        ↔
      d.date.ordinal < 3652059 ∧ startTime d.date ≤ p.riseTime
        ∧ p.setTime ≤ startTime d.date + usPerDay := by
  unfold AppearsOn getSchedule
  dsimp only
  split
  . next hyear =>
    rw [next_year_le_iff] at hyear
    simp [mem_query, hp, hstation, hscheduled, hyear]
  . next hyear =>
    rw [next_year_le_iff] at hyear
    simp [hyear]

theorem riseTime_div_eq {p : SatellitePass} {d : Date} (htime : p.TimeOrder)
    (hrise : startTime d ≤ p.riseTime) (hset : p.setTime ≤ startTime d + usPerDay)
    : p.riseTime / usPerDay = d.ordinal - 719163 := by
  unfold SatellitePass.TimeOrder at htime
  unfold startTime usPerDay at *
  omega

theorem existsUnique_appearsOn_iff {table : PassTable} {stationId : String} {p : SatellitePass}
    (hp : p ∈ table.rows) (hstation : p.stationId = stationId) (hscheduled : p.isScheduled = true)
    : (∃! d, AppearsOn table stationId p d) ↔ WithinOneDate p := by
  have htime := table.timeOrder p hp
  simp only [appearsOn_iff hp hstation hscheduled]
  constructor
  . rintro ⟨d, ⟨hord, hrise, hset⟩, _⟩
    have hday := riseTime_div_eq htime hrise hset
    have hpos := d.date.ordinal_pos
    unfold WithinOneDate InRange
    rw [hday]
    unfold startTime usPerDay at *
    omega
  . rintro ⟨⟨hmin, hmax⟩, hset⟩
    have hpos : 1 ≤ (p.riseTime / usPerDay + 719163).toNat := by
      unfold usPerDay at *
      omega
    have hlt : (p.riseTime / usPerDay + 719163).toNat < 3652059 := by
      unfold usPerDay at *
      omega
    obtain ⟨date, hdate⟩ := Date.exists_ordinal hpos
    have hyear : date.year ≤ 9999 := by
      rw [← date.ordinal_le_iff (by decide), hdate]
      exact Nat.le_of_lt hlt
    have hord : (date.ordinal : Int) - 719163 = p.riseTime / usPerDay := by omega
    refine ⟨{ date, yearLe := hyear }, ⟨?_, ?_, ?_⟩, ?_⟩
    . rw [hdate]
      exact hlt
    . unfold startTime
      rw [hord]
      exact Int.ediv_mul_le _ (by decide)
    . unfold startTime
      rw [hord, ← add_one_mul]
      exact hset
    . rintro ⟨date', _⟩ ⟨_, hrise', hset'⟩
      have hday := riseTime_div_eq htime hrise' hset'
      dsimp only at hday
      have hsame : date'.ordinal = date.ordinal := by omega
      rw [Date.ordinal_inj] at hsame
      simp [hsame]

theorem getSchedule_partitions_iff (table : PassTable) (stationId : String)
    : (∀ p ∈ table.rows, p.stationId = stationId → p.isScheduled = true
        → ∃! d, AppearsOn table stationId p d)
        ↔
      ∀ p ∈ table.rows, p.stationId = stationId → p.isScheduled = true → WithinOneDate p := by
  constructor
  . intro hall p hp hstation hscheduled
    exact (existsUnique_appearsOn_iff hp hstation hscheduled).mp (hall p hp hstation hscheduled)
  . intro hall p hp hstation hscheduled
    exact (existsUnique_appearsOn_iff hp hstation hscheduled).mpr (hall p hp hstation hscheduled)

def overMidnight : SatellitePass where
  id := 1
  noradId := 25544
  stationId := "GS001"
  riseTime := 1735689300000000
  setTime := 1735689900000000
  durationSeconds := 600
  maxElevation := 45
  isScheduled := true
  scheduledBy := some .greedy

def overMidnightTable : PassTable where
  rows := [overMidnight]
  primaryKey := by simp
  uniqueKey := by simp
  timeOrder := by decide

/-- A short pass over midnight is scheduled on no date. -/
theorem getSchedule_drops
    : ¬ ∀ table : PassTable, (∀ p ∈ table.rows, p.setTime < p.riseTime + usPerDay) →
        ∀ stationId, ∀ p ∈ table.rows, p.stationId = stationId → p.isScheduled = true →
          ∃! d, AppearsOn table stationId p d := by
  intro hall
  have honce := hall overMidnightTable (by decide) "GS001" overMidnight (by decide) rfl rfl
  have hiff : (∃! d, AppearsOn overMidnightTable "GS001" overMidnight d) ↔ _ :=
    existsUnique_appearsOn_iff (by decide) rfl rfl
  rw [hiff] at honce
  revert honce
  decide

end Schedule

end SdaSystem
