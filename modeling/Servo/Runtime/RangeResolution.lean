import Servo.Core.PeriodMapping
import Servo.Runtime.PartitionResolver
import Mathlib.Data.Set.Basic

/-! # A Resolved Range and the Partitions in It

    `resolve_upstream_range` maps two keys only, the start and the end of the
    range. That gives the upstream partitions of the whole range, because the
    parts of consecutive periods are consecutive: the last part of one is
    followed by the first part of the next.
-/

namespace Servo

open Calendar

variable {NaiveDate NaiveDateTime : Type} {chrono : Chrono NaiveDate NaiveDateTime}
  {date : NaiveDate → Date} {up_config down_config : PartitionConfig} {up down : TimeGranularity}
  {mapping : PartitionMapping} {first last : Period}

/-- The periods of a range, both ends included. -/
def Period.between (first last p : Period) : Prop :=
  p.granularity = first.granularity ∧ first.index ≤ p.index ∧ p.index ≤ last.index

/-- The resolved range is that of the upstream periods which the mapping assigns to the periods
    from `first` to `last`. -/
def PointwiseRange (chrono : Chrono NaiveDate NaiveDateTime) (resolver : PartitionResolver)
    (up_config down_config : PartitionConfig) (first last : Period) : Prop :=
  let mapping := resolver.mapping_for (some up_config) (some down_config)
  ∃ a b : Period, .Time a.granularity = up_config.partition_type ∧
    .Time b.granularity = up_config.partition_type ∧
    resolver.resolve_upstream_range chrono first.key last.key (some up_config)
      (some down_config) = some (.ok (a.key, b.key)) ∧
    (∀ p, Period.between first last p → (mapping.map_partition chrono p.key).isSome) ∧
    {key | ∃ q, Period.between a b q ∧ q.key = key} =
      {key | ∃ p, Period.between first last p ∧
        ∃ keys, mapping.map_partition chrono p.key = some keys ∧ key ∈ keys}

/-- An inferred mapping is the one that is used. -/
theorem PartitionResolver.mapping_for_eq (resolver : PartitionResolver)
    (hup : up_config.partition_type = .Time up) (hdown : down_config.partition_type = .Time down)
    (hmap : infer_mapping (.Time up) (.Time down) = .ok mapping) :
    resolver.mapping_for (some up_config) (some down_config) = mapping := by
  simp only [mapping_for, hup, hdown, hmap]

/-- The range is that of the first and the last key, for every inferred mapping. -/
theorem PartitionResolver.resolve_upstream_range_eq (resolver : PartitionResolver)
    (hup : up_config.partition_type = .Time up) (hdown : down_config.partition_type = .Time down)
    (hmap : infer_mapping (.Time up) (.Time down) = .ok mapping) {s e : String}
    {start_partitions end_partitions : List String}
    (hs : mapping.map_partition chrono s = some start_partitions)
    (he : mapping.map_partition chrono e = some end_partitions) :
    resolver.resolve_upstream_range chrono s e (some up_config) (some down_config) =
      some (.ok (start_partitions.head?.getD s, end_partitions.getLast?.getD e)) := by
  rw [resolve_upstream_range, resolver.mapping_for_eq hup hdown hmap]
  rcases infer_mapping_cases hmap with ⟨-, rfl⟩ | ⟨-, -, rfl⟩ | ⟨-, -, rfl⟩ | ⟨-, -, rfl⟩ |
    ⟨-, -, rfl⟩
  · cases hs
    cases he
    rfl
  all_goals simp only [hs, he, Option.bind_some]

/-- The parts of the periods of a range are the periods of the range of the parts. -/
theorem mem_parts_of_range {key : String} (hle : first.index ≤ last.index) :
    (∃ p, Period.between first last p ∧ key ∈ part_keys up first.granularity p.index) ↔
      ∃ q, Period.between (Period.nth up (first_part up first.granularity first.index))
        (Period.nth up (first_part up first.granularity (last.index + 1) - 1)) q ∧
        q.key = key := by
  have hcut := fun x => @exists_interval_between _ (first_part_lt up first.granularity) first.index
    last.index x
  constructor
  · rintro ⟨p, ⟨-, hlow, hhigh⟩, hkey⟩
    obtain ⟨q, hq, hstart, hend, hqkey⟩ := mem_part_keys.mp hkey
    have hrange := (hcut q.index).mp ⟨p.index, hlow, hhigh, hstart, hend⟩
    refine ⟨q, ⟨?_, ?_, ?_⟩, hqkey⟩
    · rw [Period.granularity_nth, hq]
    · rw [Period.index_nth]
      exact hrange.2.1
    · rw [Period.index_nth]
      omega
  · intro ⟨q, ⟨hq, hstart, hend⟩, hqkey⟩
    rw [Period.granularity_nth] at hq
    rw [Period.index_nth] at hstart hend
    obtain ⟨n, hlow, hhigh, hn, hn'⟩ := (hcut q.index).mpr ⟨hle, hstart, by omega⟩
    have hindex := Period.index_nth first.granularity n
    refine ⟨Period.nth first.granularity n, ⟨Period.granularity_nth _ _, by omega, by omega⟩, ?_⟩
    rw [hindex]
    exact mem_part_keys.mpr ⟨q, hq, hn, hn', hqkey⟩

/-- A month key has a year of at least four digits. -/
theorem length_month_key (m : Month) : 7 ≤ (Period.month m).key.length := by
  have hmonth := m.month_le
  have hpad : (Text.pad 2 m.month).length = 2 := Text.length_pad (by decide) (by omega)
  have hyear : 4 ≤ (year_text m.year).length := by
    unfold year_text
    split
    · next h => rw [Text.length_pad (by decide) (by omega)]
    · have hlong := Text.le_length_pad 4 m.year.natAbs
      rw [String.length_append]
      omega
  show 7 ≤ (year_text m.year ++ "-" ++ Text.pad 2 m.month).length
  rw [String.length_append, String.length_append, hpad, show "-".length = 1 from rfl]
  omega

/-- In a year of less than four digits the range begins with a text that is the key of no
    month. -/
theorem not_pointwise_of_short_year (chrono : Chrono NaiveDate NaiveDateTime)
    (resolver : PartitionResolver) (hup : up_config.partition_type = .Time .Monthly)
    (hdown : down_config.partition_type = .Time .Yearly) {y y' : Int} (hy : 0 ≤ y) (hy' : y < 1000)
    (hle : y ≤ y') (hyear : y' ≤ 9999) :
    ¬ PointwiseRange chrono resolver up_config down_config (.year y) (.year y') := by
  rintro ⟨a, b, ha, -, hrange, -⟩
  have hfirst : map_time_aggregation chrono (Period.year y).key .Monthly .Yearly = _ :=
    map_year hy (by omega)
  have hlast : map_time_aggregation chrono (Period.year y').key .Monthly .Yearly = _ :=
    map_year (by omega) hyear
  rw [resolver.resolve_upstream_range_eq hup hdown rfl hfirst hlast] at hrange
  have hkey : toString y ++ "-" ++ Text.pad 2 1 = a.key :=
    congrArg Prod.fst (Except.ok.inj (Option.some.inj hrange))
  rw [hup] at ha
  obtain ⟨m, rfl⟩ : ∃ m, a = .month m := by
    cases a with
    | month m => exact ⟨m, rfl⟩
    | _ => cases ha
  have hlong := length_month_key m
  have hdigits : y.toNat.repr.length ≤ 3 := (Nat.length_repr_le_iff (by decide)).mpr (by omega)
  rw [← hkey, toString_year hy, String.length_append, String.length_append,
    Text.length_pad (by decide) (by decide), show "-".length = 1 from rfl] at hlong
  omega

/-- **When a resolved range is pointwise**: always, except for the months of years that begin
    with a year of less than four digits. -/
theorem range_is_pointwise_iff (doc : chrono.Documented date) (resolver : PartitionResolver)
    (hup : up_config.partition_type = .Time up)
    (hdown : down_config.partition_type = .Time first.granularity)
    (hmap : infer_mapping (.Time up) (.Time first.granularity) = .ok mapping)
    (hlast : last.granularity = first.granularity) (hle : first.index ≤ last.index)
    (hyear : 1 ≤ first.year_of) (hyear' : last.year_of ≤ 9998) :
    PointwiseRange chrono resolver up_config down_config first last ↔
      ¬ (up = .Monthly ∧ first.granularity = .Yearly ∧ first.year_of < 1000) := by
  have hmapping := resolver.mapping_for_eq hup hdown hmap
  have hyears := Period.year_of_mono hlast.symm hle
  constructor
  · rintro hpointwise ⟨rfl, hgran, hshort⟩
    cases first with
    | year y =>
      cases last with
      | year y' =>
        exact not_pointwise_of_short_year chrono resolver hup hdown
          (show (0 : Int) ≤ y from le_trans (by decide) hyear) hshort hyears
          (show y' ≤ (9999 : Int) from le_trans hyear' (by decide)) hpointwise
      | _ => cases hlast
    | _ => cases hgran
  · intro hlong
    have hkeys : ∀ p, Period.between first last p →
        mapping.map_partition chrono p.key = some (part_keys up first.granularity p.index) := by
      intro p ⟨hp, hlow, hhigh⟩
      have hyear_p := Period.year_of_mono hp.symm hlow
      have hyear_p' := Period.year_of_mono (hp.trans hlast.symm) hhigh
      refine map_partition_key doc hmap hp (by omega) (by omega) fun hmonthly hyearly => ?_
      by_contra hshort
      exact hlong ⟨hmonthly, hyearly, by omega⟩
    have hfirst_keys := hkeys first ⟨rfl, le_refl _, hle⟩
    have hlast_keys := hkeys last ⟨hlast, hle, le_refl _⟩
    refine ⟨Period.nth up (first_part up first.granularity first.index),
      Period.nth up (first_part up first.granularity (last.index + 1) - 1), ?_, ?_, ?_, ?_, ?_⟩
    · rw [Period.granularity_nth, hup]
    · rw [Period.granularity_nth, hup]
    · rw [resolver.resolve_upstream_range_eq hup hdown hmap hfirst_keys hlast_keys, head_part_keys,
        last_part_keys]
      rfl
    · intro p hp
      rw [hmapping, hkeys p hp]
      rfl
    · ext key
      rw [hmapping, Set.mem_ofPred_eq, Set.mem_ofPred_eq, ← mem_parts_of_range hle]
      refine exists_congr fun p => and_congr_right fun hp => ?_
      rw [hkeys p hp]
      simp

theorem third_pos : 1 ≤ 3 := by decide

/-- The third and the fifth week of 2024. -/
def third_week : Period := .week ⟨2024, 3, third_pos, by decide⟩

def fifth_week : Period := .week ⟨2024, 5, by decide, by decide⟩

theorem weekly_range_is_pointwise :
    PointwiseRange calendar_chrono .new ⟨.Time .Daily, "date"⟩ ⟨.Time .Weekly, "week"⟩ third_week
      fifth_week :=
  (@range_is_pointwise_iff _ _ _ _ _ _ .Daily _ third_week fifth_week calendar_documented .new rfl
    rfl rfl rfl (by decide) (by decide) (by decide)).mpr fun h => by cases h.1

/-- The year 1, whose months are read as "1-01" to "1-12". -/
theorem year_one_is_not_pointwise :
    ¬ ∀ (up_config down_config : PartitionConfig) (up down : TimeGranularity)
      (mapping : PartitionMapping) (first last : Period),
      up_config.partition_type = .Time up → down_config.partition_type = .Time down →
      infer_mapping (.Time up) (.Time down) = .ok mapping →
      first.granularity = down → last.granularity = down → first.index ≤ last.index →
      1 ≤ first.year_of → last.year_of ≤ 9998 →
      PointwiseRange calendar_chrono .new up_config down_config first last := by
  intro hall
  have hpointwise := hall ⟨.Time .Monthly, "month"⟩ ⟨.Time .Yearly, "year"⟩ .Monthly .Yearly _
    (.year 1) (.year 1) rfl rfl rfl rfl rfl (le_refl _) (by decide) (by decide)
  exact not_pointwise_of_short_year calendar_chrono .new rfl rfl (by decide) (by decide)
    (by decide) (by decide) hpointwise

end Servo
