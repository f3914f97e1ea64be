import Servo.Core.PartitionValidator
import Servo.Runtime.BackfillExecutor
import Servo.Runtime.RangeResolution
import Mathlib.Data.List.Chain

/-! # Ranges along a Chain of Dependencies

    The child job of an upstream asset gets its range from the configuration of
    the root, however far up the asset is. Going up the chain of dependencies
    step by step gives the same range only where a mapping from the root to the
    asset can be inferred, which is so after one change of granularity at most.
    Where it cannot, the range of the root is used as it is, and its keys are
    not keys of the asset.
-/

namespace Servo

open Calendar

variable {NaiveDate NaiveDateTime : Type} {chrono : Chrono NaiveDate NaiveDateTime}
  {date : NaiveDate → Date}

/-- `resolve_upstream_range`, step by step from an asset to its upstream, and so on. -/
def resolve_chain (chrono : Chrono NaiveDate NaiveDateTime) (resolver : PartitionResolver) :
    PartitionConfig → List PartitionConfig → String × String →
    Option (Except String (String × String))
  | _, [], range => some (.ok range)
  | down, up :: rest, range =>
    (resolver.resolve_upstream_range chrono range.1 range.2 (some up) (some down)).bind fun r =>
      match r with
      | .ok range' => resolve_chain chrono resolver up rest range'
      | .error e => some (.error e)

/-- A mapping between the two can be inferred, from the upstream to the downstream one. -/
def inferable (up down : TimeGranularity) : Bool :=
  match infer_mapping (.Time up) (.Time down) with
  | .ok _ => true
  | .error _ => false

theorem inferable_iff {up down : TimeGranularity} :
    inferable up down = true ↔ ∃ mapping, infer_mapping (.Time up) (.Time down) = .ok mapping := by
  unfold inferable
  split
  · next mapping h => exact iff_of_true rfl ⟨mapping, h⟩
  · next e h => exact iff_of_false (by decide) (by rw [h]; rintro ⟨_, heq⟩; cases heq)

theorem inferable_iff_parts {up down : TimeGranularity} :
    inferable up down = true ↔ up = down ∨ up = .Hourly ∧ down = .Daily ∨
      up = .Daily ∧ down = .Weekly ∨ up = .Daily ∧ down = .Monthly ∨
      up = .Monthly ∧ down = .Yearly := by
  cases up <;> cases down <;> decide

/-- Two assets of a chain, partitioned by time, with a mapping between them. -/
def Inferable (down up : PartitionConfig) : Prop :=
  ∃ g g', down.partition_type = .Time g ∧ up.partition_type = .Time g' ∧ inferable g' g = true

theorem Inferable.of_down {down up : PartitionConfig} {g : TimeGranularity}
    (h : Inferable down up) (hdown : down.partition_type = .Time g) :
    ∃ g', up.partition_type = .Time g' ∧ inferable g' g = true := by
  obtain ⟨g₀, g', hdown₀, hup, hg⟩ := h
  rw [hdown] at hdown₀
  cases hdown₀
  exact ⟨g', hup, hg⟩

/-- `resolve_upstream_range` between two granularities. -/
def resolve_times (chrono : Chrono NaiveDate NaiveDateTime) (up down : TimeGranularity)
    (range : String × String) : Option (Except String (String × String)) :=
  PartitionResolver.new.resolve_upstream_range chrono range.1 range.2 (some ⟨.Time up, ""⟩)
    (some ⟨.Time down, ""⟩)

/-- Only the types of the configurations matter. -/
theorem resolve_upstream_range_eq_times {up_config down_config : PartitionConfig}
    {up down : TimeGranularity} (hup : up_config.partition_type = .Time up)
    (hdown : down_config.partition_type = .Time down) (range : String × String) :
    PartitionResolver.new.resolve_upstream_range chrono range.1 range.2 (some up_config)
      (some down_config) = resolve_times chrono up down range := by
  simp only [resolve_times, PartitionResolver.resolve_upstream_range,
    PartitionResolver.mapping_for, hup, hdown]

theorem resolve_times_self (g : TimeGranularity) (range : String × String) :
    resolve_times chrono g g range = some (.ok range) := by
  cases g <;> rfl

/-- Where nothing can be inferred, the range stays as it is. -/
theorem resolve_times_of_not_inferable {up down : TimeGranularity}
    (h : inferable up down = false) (range : String × String) :
    resolve_times chrono up down range = some (.ok range) := by
  cases up <;> cases down <;> first | rfl | cases h

/-! ### What one change of granularity makes of a range -/

/-- The key is mapped to keys of some kind, at least one. -/
def MapsTo (chrono : Chrono NaiveDate NaiveDateTime) (up down : TimeGranularity) (key : String)
    (P : String → Prop) : Prop :=
  ∃ keys, map_time_aggregation chrono key up down = some keys ∧ keys ≠ [] ∧ ∀ k ∈ keys, P k

/-- A range whose ends are mapped is resolved. -/
theorem resolve_times_of_maps_to {up down : TimeGranularity} (range : String × String)
    {P Q : String → Prop} (hg : inferable up down = true) (hne : up ≠ down)
    (hs : MapsTo chrono up down range.1 P) (he : MapsTo chrono up down range.2 Q) :
    ∃ range', resolve_times chrono up down range = some (.ok range') ∧ P range'.1 ∧ Q range'.2 := by
  obtain ⟨start_keys, hs, hs_ne, hP⟩ := hs
  obtain ⟨end_keys, he, he_ne, hQ⟩ := he
  obtain ⟨mapping, hmap⟩ := inferable_iff.mp hg
  have hmapping : ∀ {key keys}, map_time_aggregation chrono key up down = some keys →
      mapping.map_partition chrono key = some keys := by
    rcases infer_mapping_cases hmap with ⟨rfl, -⟩ | ⟨-, -, rfl⟩ | ⟨-, -, rfl⟩ | ⟨-, -, rfl⟩ |
      ⟨-, -, rfl⟩
    · exact absurd rfl hne
    all_goals exact fun h => h
  refine ⟨_, PartitionResolver.new.resolve_upstream_range_eq rfl rfl hmap (hmapping hs)
    (hmapping he), ?_, ?_⟩
  · rw [List.head?_eq_some_head hs_ne]
    exact hP _ (List.head_mem hs_ne)
  · rw [List.getLast?_eq_some_getLast he_ne]
    exact hQ _ (List.getLast_mem he_ne)

/-- A text that `chrono` has written for a day. -/
def IsDay (date : NaiveDate → Date) (key : String) : Prop := ∃ x, key = date_key (date x)

theorem part_keys_ne_nil (up down : TimeGranularity) (n : Int) : part_keys up down n ≠ [] := by
  intro hnil
  have hhead := head_part_keys up down n
  rw [hnil] at hhead
  cases hhead

section
variable (doc : chrono.Documented date)
include doc

theorem is_day_of_mem {x : NaiveDate} {count : Nat} {keys : List String}
    (h : daily_keys chrono x count = some keys) : ∀ key ∈ keys, IsDay date key := by
  intro key hkey
  obtain ⟨i, -, hi⟩ := (Fallible.mem_of_mapM h key).mp hkey
  obtain ⟨x', -, rfl⟩ := Option.map_eq_some_iff.mp hi
  exact ⟨x', doc.format_date x'⟩

theorem week_maps_to_days {w : Week} (h : 0 ≤ w.year) (h' : w.year ≤ 9999) :
    MapsTo chrono .Daily .Weekly (Period.week w).key (IsDay date) := by
  refine ⟨_, doc.map_week h h', part_keys_ne_nil _ _ _, ?_⟩
  have hmap := doc.map_week h h'
  obtain ⟨x, hx, -⟩ := doc.from_isoywd_opt w ⟨by omega, by omega⟩
  simp only [map_time_aggregation, parse_weekly_key, parse_week_key h h', hx] at hmap
  exact is_day_of_mem doc hmap

theorem month_maps_to_days {m : Month} (h : 0 ≤ m.year) (h' : m.year ≤ 9999) {key : String}
    (hkey : parse_monthly_key key = some (m.year, m.month)) :
    MapsTo chrono .Daily .Monthly key (IsDay date) := by
  refine ⟨_, doc.map_month h h' hkey, part_keys_ne_nil _ _ _, ?_⟩
  have hmap := doc.map_month h h' hkey
  simp only [map_time_aggregation, hkey] at hmap
  obtain ⟨x, -, hx⟩ := Option.bind_eq_some_iff.mp hmap
  exact is_day_of_mem doc hx

theorem day_maps_to_hours {x : NaiveDate} {key : String}
    (hkey : parse_daily_key chrono key = some x) :
    MapsTo chrono .Hourly .Daily key fun k => ∃ h < 24, k = hour_key (date x) h := by
  refine ⟨(List.range 24).map fun h => hour_key (date x) h, ?_, by simp, ?_⟩
  · simp only [map_time_aggregation, hkey, doc.format_date, hour_key]
  · intro k hk
    obtain ⟨h, hh, rfl⟩ := List.mem_map.mp hk
    exact ⟨h, List.mem_range.mp hh, rfl⟩

/-- From a day on, hours are the only other way to go. -/
theorem day_to_hours {range : String × String} (hs : IsDay date range.1) :
    ∃ range', resolve_times chrono .Hourly .Daily range = some (.ok range') ∧
      ∃ d h, range'.1 = hour_key d h := by
  obtain ⟨x, hx⟩ := hs
  have hend : MapsTo chrono .Hourly .Daily range.2 fun _ => True := by
    cases hparse : parse_daily_key chrono range.2 with
    | none =>
      refine ⟨[range.2], ?_, by simp, fun _ _ => trivial⟩
      simp only [map_time_aggregation, hparse]
    | some x' =>
      obtain ⟨keys, hkeys, hne, -⟩ := day_maps_to_hours doc hparse
      exact ⟨keys, hkeys, hne, fun _ _ => trivial⟩
  obtain ⟨range', hrange, ⟨h, -, hkey⟩, -⟩ := resolve_times_of_maps_to range rfl (by decide)
    (day_maps_to_hours doc (show parse_daily_key chrono range.1 = some x by
      rw [hx]
      exact doc.parse_date x)) hend
  exact ⟨range', hrange, _, h, hkey⟩

end

/-- A month as it is written for a year: the year without zeros. -/
def month_of_year (y : Int) (m : Nat) : String := toString y ++ "-" ++ Text.pad 2 m

theorem year_maps_to_months (chrono : Chrono NaiveDate NaiveDateTime) {y : Int} (h : 0 ≤ y)
    (h' : y ≤ 9999) :
    MapsTo chrono .Monthly .Yearly (Period.year y).key
      fun k => ∃ m, 1 ≤ m ∧ m ≤ 12 ∧ k = month_of_year y m := by
  refine ⟨_, map_year h h', by simp, fun k hk => ?_⟩
  obtain ⟨m, hm, rfl⟩ := List.mem_map.mp hk
  have := List.mem_range.mp hm
  exact ⟨m + 1, by omega, by omega, rfl⟩

theorem month_of_year_eq {y : Int} (h : 0 ≤ y) (m : Nat) :
    month_of_year y m = Text.pad 0 y.toNat ++ "-" ++ Text.pad 2 m := by
  rw [month_of_year, toString_year h, Text.pad_zero]

theorem parse_month_of_year {y : Int} {m : Nat} (h : 0 ≤ y) (h' : y ≤ 9999) (hm : 1 ≤ m)
    (hm' : m ≤ 12) : parse_monthly_key (month_of_year y m) = some (y, m) := by
  rw [month_of_year_eq h, parse_monthly_key_pad (by omega) hm hm', Int.toNat_of_nonneg h]

/-! ### What tells the keys of two granularities apart -/

/-- Only the key of an hour has a colon. -/
theorem colon_notMem_key {p : Period} (h : 0 ≤ p.year_of) (h' : p.year_of ≤ 9999)
    (hg : p.granularity ≠ .Hourly) : ':' ∉ p.key.toList := by
  have hpad : ∀ width n, ':' ∉ (Text.pad width n).toList := fun _ _ => Text.notMem_pad rfl
  have hyear := year_text_of_digits h h'
  cases p with
  | hour => exact absurd rfl hg
  | day d =>
    show ':' ∉ (year_text d.year ++ "-" ++ Text.pad 2 d.month ++ "-" ++ Text.pad 2 d.day).toList
    rw [show year_text d.year = _ from hyear]
    simp [String.toList_append, hpad]
  | week w =>
    show ':' ∉ (year_text w.year ++ "-W" ++ Text.pad 2 w.week).toList
    rw [show year_text w.year = _ from hyear]
    simp [String.toList_append, hpad]
  | month m =>
    show ':' ∉ (year_text m.year ++ "-" ++ Text.pad 2 m.month).toList
    rw [show year_text m.year = _ from hyear]
    simp [String.toList_append, hpad]
  | year y =>
    show ':' ∉ (year_text y).toList
    rw [show year_text y = _ from hyear]
    exact hpad _ _

theorem colon_mem_hour_key (d : Date) (h : Nat) : ':' ∈ (hour_key d h).toList := by
  simp [hour_key, String.toList_append]

/-- The key of a year has no hyphen. -/
theorem dash_notMem_key {p : Period} (h : 0 ≤ p.year_of) (h' : p.year_of ≤ 9999)
    (hg : p.granularity = .Yearly) : '-' ∉ p.key.toList := by
  cases p with
  | year y =>
    show '-' ∉ (year_text y).toList
    rw [show year_text y = _ from year_text_of_digits h h']
    exact Text.notMem_pad rfl
  | _ => cases hg

theorem dash_mem_date_key (d : Date) : '-' ∈ (date_key d).toList := by
  simp [date_key, String.toList_append]

/-! ### Along a chain -/

section
variable (doc : chrono.Documented date) {first last : Period}
  (hlast : last.granularity = first.granularity) (hfirst_year : 0 ≤ first.year_of)
  (hfirst_year' : first.year_of ≤ 9999) (hlast_year : 0 ≤ last.year_of)
  (hlast_year' : last.year_of ≤ 9999)
include doc hlast hfirst_year hfirst_year' hlast_year hlast_year'

/-- What the keys of a range are after one change of granularity. -/
inductive PartKeys (date : NaiveDate → Date) (root : TimeGranularity) :
    TimeGranularity → String × String → Prop where
  | days {range : String × String} (hroot : root = .Weekly ∨ root = .Monthly)
      (hs : IsDay date range.1) (he : IsDay date range.2) : PartKeys date root .Daily range
  | hours {range : String × String} {d d' : Date} {h h' : Nat} (hroot : root = .Daily)
      (hd : supported_year d.year) (hd' : supported_year d'.year) (hh : h < 24) (hh' : h' < 24)
      (hrange : range = (hour_key d h, hour_key d' h')) : PartKeys date root .Hourly range
  | months {range : String × String} {y y' : Int} {m m' : Nat} (hroot : root = .Yearly)
      (hy : 0 ≤ y ∧ y ≤ 9999) (hy' : 0 ≤ y' ∧ y' ≤ 9999) (hm : 1 ≤ m ∧ m ≤ 12)
      (hm' : 1 ≤ m' ∧ m' ≤ 12) (hrange : range = (month_of_year y m, month_of_year y' m')) :
      PartKeys date root .Monthly range

/-- One change of granularity. -/
theorem resolve_one_change {g : TimeGranularity} (hg : inferable g first.granularity = true)
    (hne : g ≠ first.granularity) :
    ∃ range, resolve_times chrono g first.granularity (first.key, last.key) = some (.ok range) ∧
      PartKeys date first.granularity g range := by
  cases first with
  | hour d h hh =>
    cases g with
    | Hourly => exact absurd rfl hne
    | _ => cases hg
  | day d =>
    cases last with
    | day d' =>
      have hd : supported_year d.year :=
        ⟨le_trans (by decide) hfirst_year, le_trans hfirst_year' (by decide)⟩
      have hd' : supported_year d'.year :=
        ⟨le_trans (by decide) hlast_year, le_trans hlast_year' (by decide)⟩
      cases g with
      | Hourly =>
        obtain ⟨x, hx, rfl⟩ := doc.parse_daily_key hd
        obtain ⟨x', hx', rfl⟩ := doc.parse_daily_key hd'
        obtain ⟨range, hrange, ⟨h, hh, hs⟩, ⟨h', hh', he⟩⟩ := resolve_times_of_maps_to
          ((Period.day (date x)).key, (Period.day (date x')).key) hg hne
          (day_maps_to_hours doc hx) (day_maps_to_hours doc hx')
        exact ⟨range, hrange, .hours rfl hd hd' hh hh' (Prod.ext hs he)⟩
      | Daily => exact absurd rfl hne
      | _ => cases hg
    | _ => cases hlast
  | week w =>
    cases last with
    | week w' =>
      cases g with
      | Daily =>
        obtain ⟨range, hrange, hs, he⟩ := resolve_times_of_maps_to
          ((Period.week w).key, (Period.week w').key) hg hne
          (week_maps_to_days doc hfirst_year hfirst_year')
          (week_maps_to_days doc hlast_year hlast_year')
        exact ⟨range, hrange, .days (.inl rfl) hs he⟩
      | Weekly => exact absurd rfl hne
      | _ => cases hg
    | _ => cases hlast
  | month m =>
    cases last with
    | month m' =>
      cases g with
      | Daily =>
        obtain ⟨range, hrange, hs, he⟩ := resolve_times_of_maps_to
          ((Period.month m).key, (Period.month m').key) hg hne
          (month_maps_to_days doc hfirst_year hfirst_year'
            (parse_month_key hfirst_year hfirst_year'))
          (month_maps_to_days doc hlast_year hlast_year' (parse_month_key hlast_year hlast_year'))
        exact ⟨range, hrange, .days (.inr rfl) hs he⟩
      | Monthly => exact absurd rfl hne
      | _ => cases hg
    | _ => cases hlast
  | year y =>
    cases last with
    | year y' =>
      cases g with
      | Monthly =>
        obtain ⟨range, hrange, ⟨m, hm, hm_le, hs⟩, ⟨m', hm', hm_le', he⟩⟩ :=
          resolve_times_of_maps_to ((Period.year y).key, (Period.year y').key) hg hne
            (year_maps_to_months chrono hfirst_year hfirst_year')
            (year_maps_to_months chrono hlast_year hlast_year')
        exact ⟨range, hrange, .months rfl ⟨hfirst_year, hfirst_year'⟩ ⟨hlast_year, hlast_year'⟩
          ⟨hm, hm_le⟩ ⟨hm', hm_le'⟩ (Prod.ext hs he)⟩
      | Yearly => exact absurd rfl hne
      | _ => cases hg
    | _ => cases hlast

/-- Where going up a chain from the root can have led. -/
inductive AlongChain (chrono : Chrono NaiveDate NaiveDateTime) (date : NaiveDate → Date)
    (first last : Period) : TimeGranularity → String × String → Prop where
  | root : AlongChain chrono date first last first.granularity (first.key, last.key)
  | one_change {g : TimeGranularity} {range : String × String}
      (hg : inferable g first.granularity = true)
      (hrange : resolve_times chrono g first.granularity (first.key, last.key) =
        some (.ok range))
      (hkeys : PartKeys date first.granularity g range) : AlongChain chrono date first last g range
  | to_hours {range : String × String}
      (hroot : first.granularity ≠ .Hourly ∧ first.granularity ≠ .Daily)
      (hs : ∃ d h, range.1 = hour_key d h) : AlongChain chrono date first last .Hourly range
  | to_days {range : String × String} (hroot : first.granularity = .Yearly)
      (hs : IsDay date range.1) : AlongChain chrono date first last .Daily range

/-- One more step up the chain. -/
theorem AlongChain.step {g g' : TimeGranularity} {range : String × String}
    (hchain : AlongChain chrono date first last g range) (hg : inferable g' g = true) :
    ∃ range', resolve_times chrono g' g range = some (.ok range') ∧
      AlongChain chrono date first last g' range' := by
  by_cases hsame : g' = g
  · subst hsame
    exact ⟨range, resolve_times_self g' range, hchain⟩
  · cases hchain with
    | root =>
      obtain ⟨range', hrange, hkeys⟩ := resolve_one_change doc hlast hfirst_year hfirst_year'
        hlast_year hlast_year' hg hsame
      exact ⟨range', hrange, .one_change hg hrange hkeys⟩
    | one_change _ _ hkeys =>
      cases hkeys with
      | days hroot hs he =>
        cases g' with
        | Hourly =>
          obtain ⟨range', hrange, hkey⟩ := day_to_hours doc hs
          refine ⟨range', hrange, .to_hours ?_ hkey⟩
          rcases hroot with hroot | hroot <;> rw [hroot] <;> decide
        | Daily => exact absurd rfl hsame
        | _ => cases hg
      | hours => cases g' with
        | Hourly => exact absurd rfl hsame
        | _ => cases hg
      | @months range y y' m m' hroot hy hy' hm hm' hrange =>
        cases g' with
        | Daily =>
          obtain ⟨range', hrange', hs, -⟩ := resolve_times_of_maps_to range hg hsame
            (month_maps_to_days doc (m := ⟨y, m, hm.1, hm.2⟩) hy.1 hy.2 (by
              rw [hrange]
              exact parse_month_of_year hy.1 hy.2 hm.1 hm.2))
            (month_maps_to_days doc (m := ⟨y', m', hm'.1, hm'.2⟩) hy'.1 hy'.2 (by
              rw [hrange]
              exact parse_month_of_year hy'.1 hy'.2 hm'.1 hm'.2))
          exact ⟨range', hrange', .to_days hroot hs⟩
        | Monthly => exact absurd rfl hsame
        | _ => cases hg
    | to_hours => cases g' with
      | Hourly => exact absurd rfl hsame
      | _ => cases hg
    | to_days hroot hs => cases g' with
      | Hourly =>
        obtain ⟨range', hrange, hkey⟩ := day_to_hours doc hs
        refine ⟨range', hrange, .to_hours ?_ hkey⟩
        rw [hroot]
        decide
      | Daily => exact absurd rfl hsame
      | _ => cases hg

/-- A whole chain: the induction is on the assets between the root and the last one, and
    `AlongChain` is what each step up keeps. -/
theorem AlongChain.run {mk : PartitionConfig} (chain : List PartitionConfig) :
    ∀ {down : PartitionConfig} {g : TimeGranularity} {range : String × String},
      AlongChain chrono date first last g range → down.partition_type = .Time g →
      (down :: (chain ++ [mk])).IsChain Inferable →
      ∃ g' range', resolve_chain chrono .new down (chain ++ [mk]) range = some (.ok range') ∧
        mk.partition_type = .Time g' ∧ AlongChain chrono date first last g' range' := by
  induction chain with
  | nil =>
    intro down g range hchain hdown hlinks
    obtain ⟨g', hmk, hg⟩ := (List.isChain_cons_cons.mp hlinks).1.of_down hdown
    obtain ⟨range', hstep, hchain'⟩ :=
      hchain.step doc hlast hfirst_year hfirst_year' hlast_year hlast_year' hg
    refine ⟨g', range', ?_, hmk, hchain'⟩
    show (PartitionResolver.new.resolve_upstream_range _ _ _ _ _).bind _ = _
    rw [resolve_upstream_range_eq_times hmk hdown, hstep]
    rfl
  | cons up rest ih =>
    intro down g range hchain hdown hlinks
    have hlinks := List.isChain_cons_cons.mp hlinks
    obtain ⟨g', hup, hg⟩ := hlinks.1.of_down hdown
    obtain ⟨range', hstep, hchain'⟩ :=
      hchain.step doc hlast hfirst_year hfirst_year' hlast_year hlast_year' hg
    obtain ⟨g'', range'', hrun, hmk, hchain''⟩ := ih hchain' hup hlinks.2
    refine ⟨g'', range'', ?_, hmk, hchain''⟩
    show (PartitionResolver.new.resolve_upstream_range _ _ _ _ _).bind _ = _
    rw [resolve_upstream_range_eq_times hup hdown, hstep]
    exact hrun

/-- The ends of a range that the chain leads to where a mapping can be inferred. -/
theorem AlongChain.direct {g : TimeGranularity} {range : String × String}
    (hchain : AlongChain chrono date first last g range)
    (hg : inferable g first.granularity = true) :
    resolve_times chrono g first.granularity (first.key, last.key) = some (.ok range) ∧
      is_time_key chrono range.1 g = true ∧ is_time_key chrono range.2 g = true := by
  cases hchain with
  | root =>
    refine ⟨resolve_times_self _ _, is_time_key_of_period doc hfirst_year hfirst_year', ?_⟩
    have hvalid := is_time_key_of_period doc hlast_year hlast_year'
    rwa [hlast] at hvalid
  | one_change _ hrange hkeys =>
    refine ⟨hrange, ?_⟩
    cases hkeys with
    | days _ hs he =>
      obtain ⟨x, hx⟩ := hs
      obtain ⟨x', hx'⟩ := he
      rw [hx, hx']
      exact ⟨is_daily_key doc x, is_daily_key doc x'⟩
    | hours _ hd hd' hh hh' hrange =>
      rw [hrange]
      exact ⟨is_hourly_key doc hd hh, is_hourly_key doc hd' hh'⟩
    | months _ hy hy' hm hm' hrange =>
      rw [hrange, month_of_year_eq hy.1, month_of_year_eq hy'.1]
      exact ⟨is_monthly_key (by omega) hm.1 hm.2, is_monthly_key (by omega) hm'.1 hm'.2⟩
  | to_hours hroot =>
    cases hfirst : first.granularity with
    | Hourly => exact absurd hfirst hroot.1
    | Daily => exact absurd hfirst hroot.2
    | _ =>
      rw [hfirst] at hg
      cases hg
  | to_days hroot =>
    rw [hroot] at hg
    cases hg

omit doc hlast hlast_year hlast_year' in
/-- Elsewhere the chain leads away from the keys of the root. -/
theorem AlongChain.ne_root {g : TimeGranularity} {range : String × String}
    (hchain : AlongChain chrono date first last g range)
    (hg : inferable g first.granularity = false) : range.1 ≠ first.key := by
  cases hchain with
  | root =>
    cases hfirst : first.granularity <;> rw [hfirst] at hg <;> cases hg
  | one_change hinf =>
    rw [hg] at hinf
    cases hinf
  | to_hours hroot hs =>
    obtain ⟨d, h, hhour⟩ := hs
    intro heq
    have hcolon : ':' ∉ first.key.toList := colon_notMem_key hfirst_year hfirst_year' hroot.1
    rw [← heq, hhour] at hcolon
    exact hcolon (colon_mem_hour_key d h)
  | to_days hroot hs =>
    obtain ⟨x, hday⟩ := hs
    intro heq
    have hdash : '-' ∉ first.key.toList := dash_notMem_key hfirst_year hfirst_year' hroot
    rw [← heq, hday] at hdash
    exact hdash (dash_mem_date_key (date x))

end

/-- The child job for the last asset of the chain has the range that the chain leads to, and the
    range begins and ends with keys of the asset. -/
def ChildRangeComposes (chrono : Chrono NaiveDate NaiveDateTime) (D : Deployment)
    (parent_job : BackfillJobModel) (asset : UpstreamAsset) (max_depth : Int)
    (root mk : PartitionConfig) (chain : List PartitionConfig) (range : String × String) : Prop :=
  let params := D.child_params parent_job asset max_depth (some mk) (some root)
  ∃ s e, resolve_chain chrono .new root (chain ++ [mk]) range = some (.ok (s, e)) ∧
    params.partition_start = some s ∧ params.partition_end = some e ∧
    ∀ g, mk.partition_type = .Time g →
      validate_time_key chrono s g = .ok () ∧ validate_time_key chrono e g = .ok ()

/-- The range of a child job is the resolved range, when the resolver does not panic. -/
theorem Deployment.child_params_range {D : Deployment} {parent_job : BackfillJobModel}
    (asset : UpstreamAsset) (max_depth : Int) {up down : Option PartitionConfig}
    {s e s' e' : String}
    (hs : parent_job.partition_start = some s) (he : parent_job.partition_end = some e)
    (hresolve : D.resolve_upstream_range s e up down = .ok (s', e')) :
    (D.child_params parent_job asset max_depth up down).partition_start = some s' ∧
      (D.child_params parent_job asset max_depth up down).partition_end = some e' := by
  simp only [child_params, hs, he, hresolve, and_self]

/-- **When ranges compose along a chain**: where the granularity of the last asset is that of the
    root, or the parts of it that a mapping is known for. -/
theorem child_range_composes_iff (doc : chrono.Documented date) {D : Deployment}
    (hD : ∀ s e up down r,
      PartitionResolver.new.resolve_upstream_range chrono s e up down = some r →
        D.resolve_upstream_range s e up down = r)
    {parent_job : BackfillJobModel} (asset : UpstreamAsset) (max_depth : Int) {first last : Period}
    {root mk : PartitionConfig} {chain : List PartitionConfig} {g : TimeGranularity}
    (hroot : root.partition_type = .Time first.granularity)
    (hlast : last.granularity = first.granularity)
    (hfirst_year : 0 ≤ first.year_of) (hfirst_year' : first.year_of ≤ 9999)
    (hlast_year : 0 ≤ last.year_of) (hlast_year' : last.year_of ≤ 9999)
    (hs : parent_job.partition_start = some first.key)
    (he : parent_job.partition_end = some last.key)
    (hlinks : (root :: (chain ++ [mk])).IsChain Inferable) (hmk : mk.partition_type = .Time g) :
    ChildRangeComposes chrono D parent_job asset max_depth root mk chain (first.key, last.key) ↔
      g = first.granularity ∨ g = .Hourly ∧ first.granularity = .Daily ∨
        g = .Daily ∧ first.granularity = .Weekly ∨ g = .Daily ∧ first.granularity = .Monthly ∨
        g = .Monthly ∧ first.granularity = .Yearly := by
  obtain ⟨g', range, hrun, hmk', hchain⟩ := AlongChain.run doc hlast hfirst_year hfirst_year'
    hlast_year hlast_year' chain .root hroot hlinks
  rw [hmk] at hmk'
  cases hmk'
  have hdirect := @resolve_upstream_range_eq_times _ _ chrono _ _ _ _ hmk hroot
    (first.key, last.key)
  rw [← inferable_iff_parts]
  constructor
  · rintro ⟨s, e, hrun', hstart, -⟩
    rw [hrun] at hrun'
    cases hrun'
    by_contra hg
    have hg : inferable g first.granularity = false := Bool.eq_false_iff.mpr hg
    rw [resolve_times_of_not_inferable hg] at hdirect
    have hparams := Deployment.child_params_range asset max_depth hs he
      (hD _ _ _ _ _ hdirect)
    rw [hparams.1] at hstart
    exact hchain.ne_root hfirst_year hfirst_year' hg (Option.some.inj hstart).symm
  · intro hg
    obtain ⟨hrange, hstart, hend⟩ :=
      hchain.direct doc hlast hfirst_year hfirst_year' hlast_year hlast_year' hg
    rw [hrange] at hdirect
    have hparams := Deployment.child_params_range asset max_depth hs he
      (hD _ _ _ _ _ hdirect)
    refine ⟨range.1, range.2, hrun, hparams.1, hparams.2, fun g' hg' => ?_⟩
    rw [hmk] at hg'
    cases hg'
    exact ⟨(validate_time_key_eq_ok_iff chrono).mpr hstart,
      (validate_time_key_eq_ok_iff chrono).mpr hend⟩

/-- A running job for a range of keys. -/
def job_for_range (start_key end_key : String) : BackfillJobModel :=
  { CreateUpstreamChildJobParams.row
      { parent_job_id := 1
        asset_id := 7
        asset_name := "report"
        idempotency_key := "report"
        partition_start := some start_key
        partition_end := some end_key
        execution_order := 0 }
      "tenant" 2 0 with
    state := .running
    parent_job_id := none }

/-- Executors with the resolver of `PartitionResolver::new`. -/
noncomputable def calendar_deployment : Deployment where
  config := fun _ => {}
  tenant_id := fun _ => "tenant"
  resolve_upstream_range := fun s e up down =>
    (PartitionResolver.new.resolve_upstream_range calendar_chrono s e up down).getD
      (.error "panic")
  infer_mapping := fun _ _ => none

theorem calendar_deployment_resolves (s e : String) (up down : Option PartitionConfig)
    (r : Except String (String × String))
    (h : PartitionResolver.new.resolve_upstream_range calendar_chrono s e up down = some r) :
    calendar_deployment.resolve_upstream_range s e up down = r := by
  simp only [calendar_deployment, h, Option.getD_some]

/-- Configurations of assets that are partitioned by week, day and hour. -/
def weekly_config : PartitionConfig := ⟨.Time .Weekly, "week"⟩

def daily_config : PartitionConfig := ⟨.Time .Daily, "date"⟩

def hourly_config : PartitionConfig := ⟨.Time .Hourly, "hour"⟩

/-- A weekly report from a weekly summary of daily data. -/
theorem days_of_weekly_range :
    ChildRangeComposes calendar_chrono calendar_deployment
      (job_for_range third_week.key fifth_week.key) (7, "orders", 2) 2 weekly_config daily_config
      [weekly_config] (third_week.key, fifth_week.key) := by
  have hlinks : (weekly_config :: ([weekly_config] ++ [daily_config])).IsChain Inferable :=
    .cons_cons ⟨.Weekly, .Weekly, rfl, rfl, rfl⟩
      (.cons_cons ⟨.Weekly, .Daily, rfl, rfl, rfl⟩ (.singleton _))
  have hroot : weekly_config.partition_type = .Time third_week.granularity := rfl
  have hlast : fifth_week.granularity = third_week.granularity := rfl
  exact (child_range_composes_iff calendar_documented calendar_deployment_resolves _ 2 hroot hlast
    (by decide) (by decide) (by decide) (by decide) rfl rfl hlinks rfl).mpr
    (.inr (.inr (.inl ⟨rfl, rfl⟩)))

/-- A weekly report from daily sums of hourly data: the job for the hours gets the range
    "2024-W03" to "2024-W05". -/
theorem hours_of_weekly_range :
    ¬ ∀ (root mk : PartitionConfig) (chain : List PartitionConfig) (first last : Period)
      (g : TimeGranularity) (asset : UpstreamAsset) (max_depth : Int),
      root.partition_type = .Time first.granularity → last.granularity = first.granularity →
      (root :: (chain ++ [mk])).IsChain Inferable → mk.partition_type = .Time g →
      0 ≤ first.year_of → first.year_of ≤ 9999 → 0 ≤ last.year_of → last.year_of ≤ 9999 →
      ChildRangeComposes calendar_chrono calendar_deployment (job_for_range first.key last.key)
        asset max_depth root mk chain (first.key, last.key) := by
  intro hall
  obtain ⟨s, e, -, hs, -, hvalid⟩ := hall weekly_config hourly_config
    [daily_config] third_week fifth_week .Hourly (7, "events", 2) 2 rfl rfl
    (.cons_cons ⟨.Weekly, .Daily, rfl, rfl, rfl⟩
      (.cons_cons ⟨.Daily, .Hourly, rfl, rfl, rfl⟩ (.singleton _)))
    rfl (by decide) (by decide) (by decide) (by decide)
  -- the resolver infers no mapping from weeks to hours and keeps the weeks
  have hresolve := calendar_deployment_resolves third_week.key fifth_week.key
    (some hourly_config) (some weekly_config) _ rfl
  have hparams := Deployment.child_params_range (7, "events", 2) 2
    (show (job_for_range third_week.key fifth_week.key).partition_start = _ from rfl) rfl hresolve
  rw [hparams.1] at hs
  cases hs
  have hhour := (validate_time_key_eq_ok_iff calendar_chrono).mp (hvalid .Hourly rfl).1
  rw [not_hourly_key calendar_documented (colon_notMem_key (by decide) (by decide) (by decide))]
    at hhour
  cases hhour

end Servo
