import Servo.Core.MappedValidity

/-! # Partition Keys from the Command Line

    `validate_partition_key` cuts off the blanks around a key and returns the
    rest as it is, whether it has been read as a day, as a day and an hour, or
    not at all. A day can be written in more than one way, an hour cannot be
    read by the validator of hourly keys, and the test for an hour slices the
    text by bytes after it has looked for the `T` by characters.
-/

namespace Servo

open Calendar

variable {NaiveDate NaiveDateTime : Type}

section code
variable (chrono : Chrono NaiveDate NaiveDateTime)

/-! ### The code -/

/-- Is it YYYY-MM-DDTHH? -/
def is_day_and_hour (trimmed : String) : Option Bool :=
  if trimmed.utf8ByteSize = 13 ∧ trimmed.toList[10]? = some 'T' then
    (slice 0 10 trimmed).bind fun day =>
      if (chrono.parse_date day "%Y-%m-%d").isSome then
        (slice 11 13 trimmed).map fun hour => (parse_u32 hour).any fun h => h < 24
      else some false
  else some false

/-- `validate_partition_key`; `none` when a slice panics. -/
def validate_partition_key (partition_key : String) : Option (Except String String) :=
  let trimmed := trim partition_key
  if trimmed.toList = [] then some (.error "Partition key cannot be empty")
  -- Reject obviously invalid inputs
  else if 64 < trimmed.utf8ByteSize then some (.error "Partition key too long (max 64 characters)")
  -- Try to parse as date (YYYY-MM-DD)
  else if (chrono.parse_date trimmed "%Y-%m-%d").isSome then some (.ok trimmed)
  -- Try to parse as datetime (YYYY-MM-DDTHH); other formats are accepted, too, with a warning
  else (is_day_and_hour chrono trimmed).map fun _ => .ok trimmed

/-! ### What keys denote -/

/-- The key is that of a day. -/
def DenotesDay (key : String) (x : NaiveDate) : Prop :=
  parse_daily_key chrono (trim key) = some x

/-- The key is that of an hour of a day. -/
def DenotesHour (key : String) (x : NaiveDate) (h : Nat) : Prop :=
  ((trim key).utf8ByteSize = 13 ∧ (trim key).toList[10]? = some 'T') ∧
    ∃ day hour, slice 0 10 (trim key) = some day ∧ parse_daily_key chrono day = some x ∧
      slice 11 13 (trim key) = some hour ∧ parse_u32 hour = some h ∧ h < 24

/-- The code does not panic, returns the same for all keys of the same day or hour, and an hourly
    key is one for the validator. -/
structure Normalises (key : String) : Prop where
  total : (validate_partition_key chrono key).isSome
  day : ∀ key' x r r', DenotesDay chrono key x → DenotesDay chrono key' x →
    validate_partition_key chrono key = some (.ok r) →
    validate_partition_key chrono key' = some (.ok r') → r = r'
  hour : ∀ key' x h r r', DenotesHour chrono key x h → DenotesHour chrono key' x h →
    validate_partition_key chrono key = some (.ok r) →
    validate_partition_key chrono key' = some (.ok r') → r = r'
  hourly : ∀ x h r, DenotesHour chrono key x h →
    validate_partition_key chrono key = some (.ok r) →
    validate_key_format chrono r (.Time .Hourly) = .ok ()

/-- The key denotes no day and no hour, and has boundaries where it is sliced. -/
structure DenotesNeither (key : String) : Prop where
  no_day : (trim key).utf8ByteSize ≤ 64 → parse_daily_key chrono (trim key) = none
  no_hour : ∀ x h, ¬ DenotesHour chrono key x h
  boundaries : (trim key).utf8ByteSize = 13 → (trim key).toList[10]? = some 'T' →
    is_char_boundary 10 (trim key) = true ∧
      (∀ day ∈ slice 0 10 (trim key), (parse_daily_key chrono day).isSome →
        is_char_boundary 11 (trim key) = true)

end code

variable {chrono : Chrono NaiveDate NaiveDateTime} {date : NaiveDate → Date}
  {hour leap_hour : NaiveDateTime → Int} {key : String}

/-! ### When the code panics -/

theorem slice_front_isSome {text : String} :
    (slice 0 10 text).isSome = is_char_boundary 10 text := by
  rw [slice_zero, Option.isSome_map, is_char_boundary]

theorem slice_back_isSome {text : String} (h : text.utf8ByteSize = 13) :
    (slice 11 13 text).isSome = is_char_boundary 11 text := by
  rw [slice_size h, Option.isSome_map, is_char_boundary]

/-- The test for an hour panics if and only if a slice does. -/
theorem is_day_and_hour_isSome_iff {text : String} : (is_day_and_hour chrono text).isSome ↔
    (text.utf8ByteSize = 13 → text.toList[10]? = some 'T' →
      is_char_boundary 10 text = true ∧
        (∀ day ∈ slice 0 10 text, (parse_daily_key chrono day).isSome →
          is_char_boundary 11 text = true)) := by
  unfold is_day_and_hour
  by_cases h : text.utf8ByteSize = 13 ∧ text.toList[10]? = some 'T'
  · rw [if_pos h, ← slice_front_isSome, ← slice_back_isSome h.1]
    have hdone : (text.utf8ByteSize = 13 → text.toList[10]? = some 'T' →
        (slice 0 10 text).isSome = true ∧ ∀ day ∈ slice 0 10 text,
          (parse_daily_key chrono day).isSome → (slice 11 13 text).isSome = true) ↔
        ((slice 0 10 text).isSome = true ∧ ∀ day ∈ slice 0 10 text,
          (parse_daily_key chrono day).isSome → (slice 11 13 text).isSome = true) :=
      ⟨fun hall => hall h.1 h.2, fun hboth _ _ => hboth⟩
    rw [hdone]
    cases slice 0 10 text with
    | none => simp
    | some day =>
      rw [Option.bind_some]
      by_cases hdate : (chrono.parse_date day "%Y-%m-%d").isSome
      · rw [if_pos hdate, Option.isSome_map]
        constructor
        · intro hsome
          exact ⟨rfl, fun _ _ _ => hsome⟩
        · rintro ⟨-, hall⟩
          exact hall day rfl hdate
      · rw [if_neg hdate]
        refine iff_of_true rfl ⟨rfl, ?_⟩
        rintro _ ⟨⟩ hsome
        exact absurd hsome hdate
  · rw [if_neg h]
    exact iff_of_true rfl fun hsize hT => absurd ⟨hsize, hT⟩ h

/-- What is returned is the key without the blanks around it. -/
theorem eq_trim_of_validate {r : String}
    (h : validate_partition_key chrono key = some (.ok r)) :
    r = trim key ∧ (trim key).utf8ByteSize ≤ 64 := by
  unfold validate_partition_key at h
  by_cases hempty : (trim key).toList = []
  · rw [if_pos hempty] at h
    cases h
  · rw [if_neg hempty] at h
    by_cases hlong : 64 < (trim key).utf8ByteSize
    · rw [if_pos hlong] at h
      cases h
    · rw [if_neg hlong] at h
      refine ⟨?_, Nat.le_of_not_lt hlong⟩
      split at h
      · cases h
        rfl
      · obtain ⟨_, -, heq⟩ := Option.map_eq_some_iff.mp h
        cases heq
        rfl

/-- A day is accepted, if it is not too long. -/
theorem validate_of_date {x : NaiveDate} (hdate : parse_daily_key chrono (trim key) = some x)
    (hne : (trim key).toList ≠ []) (hsize : (trim key).utf8ByteSize ≤ 64) :
    validate_partition_key chrono key = some (.ok (trim key)) := by
  have hsome : (chrono.parse_date (trim key) "%Y-%m-%d").isSome :=
    Option.isSome_iff_exists.mpr ⟨x, hdate⟩
  unfold validate_partition_key
  rw [if_neg hne, if_neg (Nat.not_lt.mpr hsize), if_pos hsome]

theorem validate_of_isSome (h : (validate_partition_key chrono key).isSome)
    (hne : (trim key).toList ≠ []) (hsize : (trim key).utf8ByteSize ≤ 64) :
    validate_partition_key chrono key = some (.ok (trim key)) := by
  unfold validate_partition_key at h ⊢
  rw [if_neg hne, if_neg (Nat.not_lt.mpr hsize)] at h ⊢
  split
  · rfl
  · next hdate =>
    rw [if_neg hdate, Option.isSome_map] at h
    obtain ⟨recognised, hrecognised⟩ := Option.isSome_iff_exists.mp h
    rw [hrecognised]
    rfl

/-! ### The spellings of a day -/

theorem year_text_size {y : Int} (h : -262143 ≤ y) (h' : y ≤ 262142) :
    (year_text y).utf8ByteSize ≤ 7 := by
  unfold year_text
  split
  · exact Nat.le_trans (Text.utf8ByteSize_pad_le (by decide) (by decide) (by omega))
      (show 4 ≤ 7 by decide)
  · have hpad : (Text.pad 4 y.natAbs).utf8ByteSize ≤ 6 :=
      Text.utf8ByteSize_pad_le (by decide) (by decide) (by omega)
    have hsign : (if y < 0 then "-" else "+").utf8ByteSize = 1 := by split <;> rfl
    rw [String.utf8ByteSize_append, hsign]
    omega

/-- What a year and a number consist of is no blank. -/
theorem digit_is_no_blank {c : Char} (h : c.isDigit = true) : is_whitespace c = false := by
  by_contra hblank
  have hno := (blank_is_no_number c (Bool.eq_true_of_not_eq_false hblank)).1
  rw [h] at hno
  cases hno

theorem mem_year_text_no_blank {y : Int} {c : Char} (h : c ∈ (year_text y).toList) :
    is_whitespace c = false := by
  unfold year_text at h
  split at h
  · exact digit_is_no_blank (Text.mem_pad h)
  · rw [String.toList_append, List.mem_append] at h
    rcases h with h | h
    · split at h
      · rw [List.mem_singleton.mp h]
        decide
      · rw [List.mem_singleton.mp h]
        decide
    · exact digit_is_no_blank (Text.mem_pad h)

theorem year_text_ne_nil (y : Int) : (year_text y).toList ≠ [] := by
  unfold year_text
  split
  · exact Text.toList_pad_ne_nil _ _
  · rw [String.toList_append]
    exact fun h => Text.toList_pad_ne_nil _ _ (List.append_eq_nil_iff.mp h).2

/-- A text from a year to a number is not trimmed. -/
theorem trim_year_number (y : Int) (between : String) (n : Nat) :
    trim (year_text y ++ between ++ Text.pad 2 n) = year_text y ++ between ++ Text.pad 2 n := by
  apply trim_eq_self
  · intro c hc
    rw [String.toList_append, String.toList_append, List.append_assoc,
      List.head?_append_of_ne_nil _ (year_text_ne_nil y)] at hc
    exact mem_year_text_no_blank (List.mem_of_mem_head? hc)
  · intro c hc
    rw [String.toList_append, List.getLast?_append_of_ne_nil _ (Text.toList_pad_ne_nil 2 n)] at hc
    exact digit_is_no_blank (Text.mem_pad (List.mem_of_mem_getLast? hc))

theorem trim_date_key (d : Date) : trim (date_key d) = date_key d := by
  have h := trim_year_number d.year ("-" ++ Text.pad 2 d.month ++ "-") d.day
  simp only [← String.append_assoc] at h
  exact h

theorem trim_spaced_key (d : Date) : trim (spaced_key d) = spaced_key d := by
  have h := trim_year_number d.year ("- " ++ Text.pad 2 d.month ++ "-") d.day
  simp only [← String.append_assoc] at h
  exact h

theorem date_key_ne_spaced_key (d : Date) : date_key d ≠ spaced_key d := by
  intro h
  have hlength := congrArg String.length h
  unfold date_key spaced_key at hlength
  simp only [String.length_append] at hlength
  have hone : "-".length = 1 := rfl
  have htwo : "- ".length = 2 := rfl
  omega

/-- A day has another key than a given text. -/
theorem exists_other_key (doc : chrono.Exact date hour leap_hour) (x : NaiveDate) (text : String) :
    ∃ key', key' ≠ text ∧ DenotesDay chrono key' x ∧
      validate_partition_key chrono key' = some (.ok key') := by
  have hyear := representable_iff_year.mp (doc.date_representable x)
  have hsize := year_text_size hyear.1 hyear.2
  have hmonth := (date x).month_le
  have hday := (date x).day_le
  have hdays := days_in_month_le (date x).year (date x).month
  have hpad : ∀ n, n < 100 → (Text.pad 2 n).utf8ByteSize ≤ 2 := fun n hn =>
    Text.utf8ByteSize_pad_le (by decide) (by decide) hn
  have hm := hpad (date x).month (by omega)
  have hd := hpad (date x).day (by omega)
  have hone : "-".utf8ByteSize = 1 := rfl
  have htwo : "- ".utf8ByteSize = 2 := rfl
  by_cases heq : date_key (date x) = text
  · have hne : (spaced_key (date x)).toList ≠ [] := by
      unfold spaced_key
      simp
    have hparse : parse_daily_key chrono (trim (spaced_key (date x))) = some x := by
      rw [trim_spaced_key]
      exact doc.parse_spaced x
    refine ⟨spaced_key (date x), ?_, hparse, ?_⟩
    · rw [← heq]
      exact (date_key_ne_spaced_key _).symm
    · have hvalid := validate_of_date hparse (by rwa [trim_spaced_key]) (by
        rw [trim_spaced_key]
        unfold spaced_key
        simp only [String.utf8ByteSize_append]
        omega)
      rwa [trim_spaced_key] at hvalid
  · have hne : (date_key (date x)).toList ≠ [] := by
      unfold date_key
      simp
    have hparse : parse_daily_key chrono (trim (date_key (date x))) = some x := by
      rw [trim_date_key]
      exact doc.parse_date x
    refine ⟨date_key (date x), heq, hparse, ?_⟩
    have hvalid := validate_of_date hparse (by rwa [trim_date_key]) (by
      rw [trim_date_key]
      unfold date_key
      simp only [String.utf8ByteSize_append]
      omega)
    rwa [trim_date_key] at hvalid

/-! ### Hours -/

/-- There is no colon in the key of an hour. -/
theorem no_colon_of_hour (doc : chrono.Exact date hour leap_hour) {x : NaiveDate} {h : Nat}
    (hkey : DenotesHour chrono key x h) : ':' ∉ (trim key).toList := by
  obtain ⟨⟨hsize, hT⟩, day, digits, hday, hdate, hdigits, hparse, -⟩ := hkey
  rw [slice_zero] at hday
  rw [slice_size hsize] at hdigits
  obtain ⟨parts, hparts, rfl⟩ := Option.map_eq_some_iff.mp hday
  obtain ⟨parts', hparts', rfl⟩ := Option.map_eq_some_iff.mp hdigits
  obtain ⟨c, hc⟩ := split_at_succ hparts hparts'
  have htext := split_at_eq_some hparts
  rw [hc] at htext
  -- the characters of the two parts
  have hdaychars : ∀ c ∈ parts.1, is_date_char c = true := by
    have hchars := (doc.parse_date_chars _ (Option.isSome_iff_exists.mpr ⟨x, hdate⟩)).1
    rwa [String.toList_ofList] at hchars
  have hhourchars : ∀ c ∈ parts'.2, c.isDigit = true ∨ c = '+' := by
    intro c hmem
    exact Text.mem_of_parse_unsigned hparse (by rwa [String.toList_ofList])
  have hmem : ∀ d ∈ (trim key).toList, d ∈ parts.1 ∨ d = c ∨ d ∈ parts'.2 := by
    intro d hd
    rw [htext] at hd
    simpa using hd
  have hcT : c = 'T' := by
    rcases hmem 'T' (List.mem_of_getElem? hT) with h | h | h
    · exact absurd (hdaychars _ h) (by decide)
    · exact h.symm
    · exact absurd (hhourchars _ h) (by decide)
  intro hcolon
  rcases hmem ':' hcolon with h | h | h
  · exact absurd (hdaychars _ h) (by decide)
  · rw [hcT] at h
    cases h
  · exact absurd (hhourchars _ h) (by decide)

/-! ### When keys are normalised -/

/-- **Keys are normalised** if and only if they denote no day and no hour, and are sliced at
    boundaries. -/
theorem normalises_iff (doc : chrono.Exact date hour leap_hour) (key : String) :
    Normalises chrono key ↔ DenotesNeither chrono key := by
  constructor
  · intro hnorm
    -- what is not empty and not too long is returned
    have hreturned : (trim key).toList ≠ [] → (trim key).utf8ByteSize ≤ 64 →
        validate_partition_key chrono key = some (.ok (trim key)) :=
      validate_of_isSome hnorm.total
    refine ⟨?_, ?_, ?_⟩
    · intro hsize
      by_contra hsome
      obtain ⟨x, hx⟩ := Option.ne_none_iff_exists'.mp hsome
      have hne : (trim key).toList ≠ [] := by
        intro hnil
        have hcount := (doc.parse_date_chars _ (Option.isSome_iff_exists.mpr ⟨x, hx⟩)).2
        rw [hnil] at hcount
        cases hcount
      obtain ⟨key', hother, hdenotes, hvalid⟩ := exists_other_key doc x (trim key)
      exact hother (hnorm.day key' x _ _ hx hdenotes (hreturned hne hsize) hvalid).symm
    · intro x h hdenotes
      have hsize := hdenotes.1.1
      have hne : (trim key).toList ≠ [] := by
        intro hnil
        have hT := hdenotes.1.2
        rw [hnil] at hT
        cases hT
      have hvalid := hnorm.hourly x h _ hdenotes (hreturned hne (by omega))
      rw [validate_time_format_iff,
        not_hourly_key doc.documented (no_colon_of_hour doc hdenotes)] at hvalid
      cases hvalid
    · intro hsize hT
      have hne : (trim key).toList ≠ [] := by
        intro hnil
        rw [hnil] at hT
        cases hT
      have htotal := hnorm.total
      have hnone : ¬ (chrono.parse_date (trim key) "%Y-%m-%d").isSome := by
        intro hsome
        have hchar := (doc.parse_date_chars _ hsome).1 'T' (List.mem_of_getElem? hT)
        exact absurd hchar (by decide)
      unfold validate_partition_key at htotal
      rw [if_neg hne, if_neg (by omega), if_neg hnone, Option.isSome_map] at htotal
      exact is_day_and_hour_isSome_iff.mp htotal hsize hT
  · intro hneither
    refine ⟨?_, ?_, ?_, ?_⟩
    · unfold validate_partition_key
      by_cases hempty : (trim key).toList = []
      · rw [if_pos hempty]
        rfl
      · rw [if_neg hempty]
        split
        · rfl
        · split
          · rfl
          · rw [Option.isSome_map]
            exact is_day_and_hour_isSome_iff.mpr hneither.boundaries
    · intro key' x r r' hx _ hr _
      have hnone := hneither.no_day (eq_trim_of_validate hr).2
      rw [show parse_daily_key chrono (trim key) = some x from hx] at hnone
      cases hnone
    · intro key' x h r r' hx _ _ _
      exact absurd hx (hneither.no_hour x h)
    · intro x h r hx _
      exact absurd hx (hneither.no_hour x h)

/-- A key that is no time at all is returned as it is. -/
theorem word_is_normalised : Normalises bounded_chrono "full" := by
  have htrim : trim "full" = "full" := by decide +kernel
  have hsize : (trim "full").utf8ByteSize ≠ 13 := by
    rw [htrim]
    decide
  refine (normalises_iff bounded_exact "full").mpr ⟨fun _ => ?_, fun x h hh => ?_, fun h => ?_⟩
  · rw [htrim]
    exact @Chrono.Exact.parse_date_none _ _ _ _ _ _ bounded_exact "full" 'f' (by decide) (by decide)
  · exact hsize hh.1.1
  · exact absurd h hsize

/-- The tenth byte of this text is in the middle of a character. -/
theorem accented_key_panics :
    ¬ ∀ (NaiveDate NaiveDateTime : Type) (chrono : Chrono NaiveDate NaiveDateTime)
      (date : NaiveDate → Date) (hour leap_hour : NaiveDateTime → Int),
      chrono.Exact date hour leap_hour → ∀ key : String, Normalises chrono key := by
  intro hall
  have htotal := (hall _ _ _ _ _ _ bounded_exact "123456789éTx").total
  have htrim : trim "123456789éTx" = "123456789éTx" := by decide +kernel
  have hdate : bounded_chrono.parse_date "123456789éTx" "%Y-%m-%d" = none :=
    @Chrono.Exact.parse_date_none _ _ _ _ _ _ bounded_exact _ 'é' (by decide) (by decide)
  unfold validate_partition_key at htotal
  rw [htrim, if_neg (by decide), if_neg (by decide), hdate, if_neg nofun,
    Option.isSome_map] at htotal
  have hboundary := (is_day_and_hour_isSome_iff.mp htotal (by decide) (by decide)).1
  revert hboundary
  decide +kernel

end Servo
