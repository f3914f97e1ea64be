import Servo.Cli.Backfill
import Servo.Core.MappedKeys

/-! # Range Backfills from the Command Line

    `execute_range_backfill` lists the days from a first to a last date and
    creates a job for them. The days are written by `chrono`; the job's first
    and last key are the arguments as they have been typed. The loop counts one
    day further than it lists, which there is none of at the end of the
    calendar.
-/

namespace Servo

open Calendar

variable {NaiveDate NaiveDateTime : Type}

/-! ### The order of dates -/

/-- What is used of the order of dates. -/
structure DateOrder (NaiveDate : Type) where
  /-- `date < other`. -/
  lt (date other : NaiveDate) : Bool
  /-- `(date - other).num_days()`. -/
  num_days (date other : NaiveDate) : Int

/-- Dates are ordered by their days. -/
structure DateOrder.Exact (order : DateOrder NaiveDate) (date : NaiveDate → Date) : Prop where
  lt_iff : ∀ x y, order.lt x y = true ↔ (date x).day_number < (date y).day_number
  num_days : ∀ x y, order.num_days x y = (date x).day_number - (date y).day_number

/-! ### The code -/

section code
variable (chrono : Chrono NaiveDate NaiveDateTime) (order : DateOrder NaiveDate)

/-- The loop, at most so many turns of it: `none` when it panics, or has not ended. -/
def push_days (end_date : NaiveDate) : Nat → NaiveDate → Option (List String)
  | 0, _ => none
  | fuel + 1, current =>
    -- while current <= end_date
    if order.lt end_date current then some []
    else
      (chrono.add_days current 1).bind fun next =>
        (push_days end_date fuel next).map (chrono.format_date current "%Y-%m-%d" :: ·)

/-- `generate_date_range_partitions`. -/
def generate_date_range_partitions (fuel : Nat) (start_date end_date : String) :
    Option (Except String (List String)) :=
  match parse_daily_key chrono start_date with
  | none => some (.error ("Invalid start date '" ++ start_date ++ "'. Expected YYYY-MM-DD format."))
  | some start =>
    match parse_daily_key chrono end_date with
    | none => some (.error ("Invalid end date '" ++ end_date ++ "'. Expected YYYY-MM-DD format."))
    | some stop =>
      if order.lt stop start then
        some (.error ("End date '" ++ end_date ++ "' is before start date '" ++ start_date ++
          "'. End must be >= start."))
      else
        -- Safety limit to prevent accidental huge backfills
        let max_partitions : Int := 366
        let day_count := order.num_days stop start + 1
        if day_count > max_partitions then
          some (.error ("Date range spans " ++ toString day_count ++
            " days, which exceeds maximum of " ++ toString max_partitions ++
            " partitions. Please use smaller date ranges."))
        else (push_days chrono order stop fuel start).map .ok

end code

/-! ### Jobs for a range -/

section range
variable (chrono : Chrono NaiveDate NaiveDateTime) (order : DateOrder NaiveDate)
  (date : NaiveDate → Date)

/-- The job has the days from the first to the last date. -/
def CoversRange (start_date end_date : String) (job : BackfillJobModel) : Prop :=
  ∃ start ∈ parse_daily_key chrono start_date, ∃ stop ∈ parse_daily_key chrono end_date,
    (date start).day_number ≤ (date stop).day_number ∧
    job.partition_keys = days_from (date start).day_number
      ((date stop).day_number - (date start).day_number + 1).toNat ∧
    job.total_partitions = job.partition_keys.length ∧
    job.partition_start = job.partition_keys.head? ∧
    job.partition_end = job.partition_keys.getLast?

/-- The range is enumerated without a panic, and if it is accepted, the job covers it. -/
def EnumeratesRange (start_date end_date : String) : Prop :=
  ∃ fuel result,
    generate_date_range_partitions chrono order fuel start_date end_date = some result ∧
    ∀ keys, result = .ok keys → ∀ (req : BackfillRequest) (hreq : req.valid) (id : Uuid)
      (now : DateTime) (timestamp : String), req.target = .range start_date end_date keys →
        CoversRange chrono date start_date end_date (req.job hreq id now timestamp)

/-- A range that is accepted is written as `chrono` writes it, and does not end with the last day
    of the calendar. -/
def CanonicalRange (start_date end_date : String) : Prop :=
  ∀ start ∈ parse_daily_key chrono start_date, ∀ stop ∈ parse_daily_key chrono end_date,
    (date start).day_number ≤ (date stop).day_number →
    (date stop).day_number - (date start).day_number < 366 →
      (start_date = date_key (date start) ∧ end_date = date_key (date stop)) ∧
        (date stop).day_number ≠ last_day

end range

/-! ### The keys of consecutive days -/

theorem days_from_succ (n : Int) (count : Nat) :
    days_from n (count + 1) = (Period.nth .Daily n).key :: days_from (n + 1) count := by
  unfold days_from
  rw [List.range_succ_eq_map, List.map_cons, List.map_map]
  refine congrArg₂ List.cons ?_ (List.map_congr_left fun i _ => ?_)
  · rw [Nat.cast_zero, Int.add_zero]
  · show (Period.nth .Daily (n + ((i + 1 : Nat) : Int))).key = (Period.nth .Daily (n + 1 + i)).key
    rw [Nat.cast_succ, Int.add_comm (i : Int) 1, Int.add_assoc]

theorem head_days_from (d : Date) (count : Nat) :
    (days_from d.day_number (count + 1)).head? = some (date_key d) := by
  rw [days_from_succ, List.head?_cons, nth_daily, day_of_number_eq]
  rfl

theorem getLast_days_from (d : Date) {n : Int} {count : Nat} (h : n + count = d.day_number) :
    (days_from n (count + 1)).getLast? = some (date_key d) := by
  rw [days_from, List.range_succ, List.map_append, List.map_singleton, List.getLast?_concat, h,
    nth_daily, day_of_number_eq]
  rfl

/-! ### The loop -/

section exact
variable {chrono : Chrono NaiveDate NaiveDateTime} {order : DateOrder NaiveDate}
  {date : NaiveDate → Date} {hour leap_hour : NaiveDateTime → Int}
  (doc : chrono.Exact date hour leap_hour) (hexact : order.Exact date)
include doc hexact

/-- What the loop lists, if it ends. -/
theorem push_days_eq {stop : NaiveDate} {fuel : Nat} {current : NaiveDate} {keys : List String}
    (h : push_days chrono order stop fuel current = some keys) :
    ((date current).day_number ≤ (date stop).day_number → (date stop).day_number ≠ last_day) ∧
      keys = days_from (date current).day_number
        ((date stop).day_number - (date current).day_number + 1).toNat := by
  induction fuel generalizing current keys with
  | zero => cases h
  | succ fuel ih =>
    rw [push_days] at h
    by_cases hlt : order.lt stop current = true
    · rw [if_pos hlt] at h
      have hafter := (hexact.lt_iff stop current).mp hlt
      cases h
      refine ⟨fun hle => by omega, ?_⟩
      rw [show ((date stop).day_number - (date current).day_number + 1).toNat = 0 by omega]
      rfl
    · rw [if_neg hlt] at h
      have hle : (date current).day_number ≤ (date stop).day_number := by
        rw [hexact.lt_iff] at hlt
        omega
      obtain ⟨next, hnext, hrest⟩ := Option.bind_eq_some_iff.mp h
      obtain ⟨rest, hpush, rfl⟩ := Option.map_eq_some_iff.mp hrest
      have hday := (doc.add_days current 1 next).mp hnext
      obtain ⟨hlast, hkeys⟩ := ih hpush
      rw [hday] at hlast hkeys
      constructor
      · intro _ hend
        have hrange := (doc.date_representable next).2
        rw [hday] at hrange
        have hsame : (date current).day_number = (date stop).day_number := by
          by_contra hne
          exact hlast (by omega) hend
        omega
      · rw [show ((date stop).day_number - (date current).day_number + 1).toNat =
          ((date stop).day_number - ((date current).day_number + 1) + 1).toNat + 1 by omega,
          days_from_succ, ← hkeys, doc.format_date, nth_daily, day_of_number_eq]
        rfl

/-- The loop ends if there is a day behind its last one. -/
theorem exists_push_days {stop current : NaiveDate}
    (h : (date stop).day_number ≠ last_day) :
    ∃ fuel keys, push_days chrono order stop fuel current = some keys := by
  have hrange := doc.date_representable stop
  induction hcount : ((date stop).day_number - (date current).day_number + 1).toNat
    generalizing current with
  | zero =>
    refine ⟨1, [], ?_⟩
    have hlt : order.lt stop current = true := (hexact.lt_iff stop current).mpr (by omega)
    rw [push_days, if_pos hlt]
  | succ count ih =>
    have hcurrent := doc.date_representable current
    obtain ⟨next, hday⟩ := doc.exists_day (n := (date current).day_number + 1)
      ⟨by have := hcurrent.1; omega, by have := hrange.2; omega⟩
    have hless : ((date stop).day_number - (date next).day_number + 1).toNat = count := by omega
    obtain ⟨fuel, rest, hpush⟩ := ih hless
    refine ⟨fuel + 1, chrono.format_date current "%Y-%m-%d" :: rest, ?_⟩
    have hnot : ¬ order.lt stop current = true := by
      rw [hexact.lt_iff]
      omega
    rw [push_days, if_neg hnot, (doc.add_days current 1 next).mpr hday, Option.bind_some, hpush]
    rfl

end exact

/-- A range that is too long, or runs backwards, is refused. -/
theorem generate_of_parsed {chrono : Chrono NaiveDate NaiveDateTime}
    {order : DateOrder NaiveDate} {date : NaiveDate → Date} (hexact : order.Exact date)
    {start stop : NaiveDate} {start_date end_date : String} (fuel : Nat)
    (hstart : parse_daily_key chrono start_date = some start)
    (hstop : parse_daily_key chrono end_date = some stop) :
    ((date start).day_number ≤ (date stop).day_number ∧
        (date stop).day_number - (date start).day_number < 366 ∧
        generate_date_range_partitions chrono order fuel start_date end_date =
          (push_days chrono order stop fuel start).map .ok) ∨
      (¬ ((date start).day_number ≤ (date stop).day_number ∧
        (date stop).day_number - (date start).day_number < 366) ∧
        ∃ message, generate_date_range_partitions chrono order fuel start_date end_date =
          some (.error message)) := by
  simp only [generate_date_range_partitions, hstart, hstop]
  by_cases hlt : order.lt stop start = true
  · rw [if_pos hlt]
    have hbackwards := (hexact.lt_iff stop start).mp hlt
    exact .inr ⟨by omega, _, rfl⟩
  · rw [if_neg hlt, hexact.num_days]
    rw [hexact.lt_iff] at hlt
    by_cases hlong : (date stop).day_number - (date start).day_number + 1 > 366
    · rw [if_pos hlong]
      exact .inr ⟨by omega, _, rfl⟩
    · rw [if_neg hlong]
      exact .inl ⟨by omega, by omega, rfl⟩

/-- A request for a range. -/
def range_request (start_date end_date : String) (partition_keys : List String) :
    BackfillRequest where
  tenant_id := "tenant"
  asset_id := 0
  asset_name := "asset"
  target := .range start_date end_date partition_keys
  include_upstream := false
  max_upstream_depth := 0
  priority := 0

theorem range_request_valid (start_date end_date : String) (partition_keys : List String) :
    (range_request start_date end_date partition_keys).valid := by
  show ((0 : Int) ≤ 0 ∧ (0 : Int) ≤ 10) ∧ -10 ≤ (0 : Int) ∧ (0 : Int) ≤ 10
  decide

/-- The job of a request for a range. -/
theorem covers_range_iff {chrono : Chrono NaiveDate NaiveDateTime} {date : NaiveDate → Date}
    {start_date end_date : String} {start stop : NaiveDate}
    (hstart : parse_daily_key chrono start_date = some start)
    (hstop : parse_daily_key chrono end_date = some stop)
    (hle : (date start).day_number ≤ (date stop).day_number) {req : BackfillRequest}
    (hreq : req.valid) (id : Uuid) (now : DateTime) (timestamp : String)
    (htarget : req.target = .range start_date end_date (days_from (date start).day_number
      ((date stop).day_number - (date start).day_number + 1).toNat)) :
    CoversRange chrono date start_date end_date (req.job hreq id now timestamp) ↔
      start_date = date_key (date start) ∧ end_date = date_key (date stop) := by
  obtain ⟨count, hcount⟩ := Int.eq_ofNat_of_zero_le
    (show 0 ≤ (date stop).day_number - (date start).day_number by omega)
  have hnat : ((date stop).day_number - (date start).day_number + 1).toNat = count + 1 := by omega
  have hhead := head_days_from (date start) count
  have hlast := @getLast_days_from (date stop) (date start).day_number count (by omega)
  have hkeys : req.partition_keys = days_from (date start).day_number (count + 1) := by
    rw [BackfillRequest.partition_keys, htarget, ← hnat]
  have hfirst : req.partition_start = start_date := by
    rw [BackfillRequest.partition_start, htarget]
  have hend : req.partition_end = end_date := by
    rw [BackfillRequest.partition_end, htarget]
  constructor
  · rintro ⟨start', hstart', stop', hstop', -, -, -, hjobstart, hjobend⟩
    have hjobstart' : some req.partition_start = req.partition_keys.head? := hjobstart
    have hjobend' : some req.partition_end = req.partition_keys.getLast? := hjobend
    rw [hfirst, hkeys, hhead] at hjobstart'
    rw [hend, hkeys, hlast] at hjobend'
    exact ⟨Option.some.inj hjobstart', Option.some.inj hjobend'⟩
  · intro ⟨hstartkey, hendkey⟩
    refine ⟨start, hstart, stop, hstop, hle, ?_, rfl, ?_, ?_⟩
    · rw [hnat]
      exact hkeys
    · show some req.partition_start = req.partition_keys.head?
      rw [hfirst, hkeys, hhead, ← hstartkey]
    · show some req.partition_end = req.partition_keys.getLast?
      rw [hend, hkeys, hlast, ← hendkey]

/-- A range that is enumerated is canonical. -/
theorem canonical_of_enumerates {chrono : Chrono NaiveDate NaiveDateTime}
    {order : DateOrder NaiveDate} {date : NaiveDate → Date} {hour leap_hour : NaiveDateTime → Int}
    (doc : chrono.Exact date hour leap_hour) (hexact : order.Exact date)
    {start_date end_date : String} (h : EnumeratesRange chrono order date start_date end_date) :
    CanonicalRange chrono date start_date end_date := by
  obtain ⟨fuel, result, hresult, hjobs⟩ := h
  intro start hstart stop hstop hle hshort
  rcases generate_of_parsed hexact fuel hstart hstop with ⟨-, -, hcode⟩ | ⟨hnot, -⟩
  · rw [hcode] at hresult
    obtain ⟨keys, hpush, rfl⟩ := Option.map_eq_some_iff.mp hresult
    obtain ⟨hlast, rfl⟩ := push_days_eq doc hexact hpush
    have hcovers := hjobs _ rfl _ (range_request_valid start_date end_date _) 0 0 "" rfl
    exact ⟨(covers_range_iff hstart hstop hle _ _ _ _ rfl).mp hcovers, hlast hle⟩
  · exact absurd ⟨hle, hshort⟩ hnot

/-- **A range is enumerated** if and only if it is written as `chrono` writes it and there is a
    day behind it. -/
theorem enumerates_range_iff {chrono : Chrono NaiveDate NaiveDateTime}
    {order : DateOrder NaiveDate} {date : NaiveDate → Date} {hour leap_hour : NaiveDateTime → Int}
    (doc : chrono.Exact date hour leap_hour) (hexact : order.Exact date)
    (start_date end_date : String) :
    EnumeratesRange chrono order date start_date end_date ↔
      CanonicalRange chrono date start_date end_date := by
  refine ⟨canonical_of_enumerates doc hexact, fun hcanonical => ?_⟩
  cases hstart : parse_daily_key chrono start_date with
  | none =>
    refine ⟨0, .error ("Invalid start date '" ++ start_date ++
      "'. Expected YYYY-MM-DD format."), ?_, nofun⟩
    simp only [generate_date_range_partitions, hstart]
  | some start =>
    cases hstop : parse_daily_key chrono end_date with
    | none =>
      refine ⟨0, .error ("Invalid end date '" ++ end_date ++
        "'. Expected YYYY-MM-DD format."), ?_, nofun⟩
      simp only [generate_date_range_partitions, hstart, hstop]
    | some stop =>
      by_cases hrange : (date start).day_number ≤ (date stop).day_number ∧
          (date stop).day_number - (date start).day_number < 366
      · obtain ⟨hkeys, hlast⟩ := hcanonical start hstart stop hstop hrange.1 hrange.2
        obtain ⟨fuel, keys, hpush⟩ : ∃ fuel keys, push_days chrono order stop fuel start =
          some keys := exists_push_days doc hexact hlast
        rcases generate_of_parsed hexact fuel hstart hstop with ⟨-, -, hcode⟩ | ⟨hnot, -⟩
        · refine ⟨fuel, .ok keys, by rw [hcode, hpush]; rfl, ?_⟩
          rintro _ ⟨⟩ req hreq id now timestamp htarget
          rw [(push_days_eq doc hexact hpush).2] at htarget
          exact (covers_range_iff hstart hstop hrange.1 hreq id now timestamp htarget).mpr hkeys
        · exact absurd hrange hnot
      · rcases generate_of_parsed hexact 0 hstart hstop with ⟨hle, hshort, -⟩ |
          ⟨-, message, hcode⟩
        · exact absurd ⟨hle, hshort⟩ hrange
        · exact ⟨0, .error message, hcode, nofun⟩

/-- The order of the dates that are represented. -/
def bounded_order : DateOrder RepresentableDate where
  lt x y := x.date.day_number < y.date.day_number
  num_days x y := x.date.day_number - y.date.day_number

theorem bounded_order_exact : bounded_order.Exact RepresentableDate.date where
  lt_iff _ _ := decide_eq_true_iff
  num_days _ _ := rfl

/-- From the end of January 2024 to the beginning of February. -/
theorem four_days_are_enumerated : EnumeratesRange bounded_chrono bounded_order
    RepresentableDate.date "2024-01-30" "2024-02-02" := by
  obtain ⟨x, hx, hfirst⟩ := bounded_exact.parse_daily_key
    (d := ⟨⟨2024, 1, by decide, by decide⟩, 30, by decide, by decide⟩) (by decide)
  obtain ⟨y, hy, hlast⟩ := bounded_exact.parse_daily_key
    (d := ⟨⟨2024, 2, by decide, by decide⟩, 2, by decide, by decide⟩) (by decide)
  have hstart : parse_daily_key bounded_chrono "2024-01-30" = some x := hx
  have hstop : parse_daily_key bounded_chrono "2024-02-02" = some y := hy
  refine (enumerates_range_iff bounded_exact bounded_order_exact _ _).mpr ?_
  intro start hs stop ht _ _
  cases hstart.symm.trans hs
  cases hstop.symm.trans ht
  rw [hfirst, hlast]
  exact ⟨⟨rfl, rfl⟩, by decide⟩

/-- The fifth of January 2024 can be typed without zeros, and is not written so. -/
theorem unpadded_range_differs :
    ¬ ∀ (NaiveDate NaiveDateTime : Type) (chrono : Chrono NaiveDate NaiveDateTime)
      (order : DateOrder NaiveDate) (date : NaiveDate → Date)
      (hour leap_hour : NaiveDateTime → Int), chrono.Exact date hour leap_hour →
      order.Exact date → ∀ start_date end_date : String,
        EnumeratesRange chrono order date start_date end_date := by
  intro hall
  let fifth : RepresentableDate :=
    ⟨⟨⟨2024, 1, by decide, by decide⟩, 5, by decide, by decide⟩, by decide⟩
  have hparse : parse_daily_key bounded_chrono "2024-1-5" = some fifth := by
    show (Scan.read is_whitespace date_items "2024-1-5".toList).bind date_of_numbers = some fifth
    rw [show Scan.read is_whitespace date_items "2024-1-5".toList = some [2024, 1, 5] by
      decide +kernel]
    show ymd_opt 2024 1 5 = some fifth
    exact ymd_opt_eq.mpr ⟨rfl, rfl, rfl⟩
  have hrange := hall _ _ _ _ _ _ _ bounded_exact bounded_order_exact "2024-1-5" "2024-1-5"
  have hcanonical := canonical_of_enumerates bounded_exact bounded_order_exact hrange
  have hkey := (hcanonical fifth hparse fifth hparse (le_refl _) (by rw [Int.sub_self]; decide)).1.1
  revert hkey
  decide +kernel

end Servo
