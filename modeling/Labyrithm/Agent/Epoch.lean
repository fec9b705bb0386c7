import Labyrithm.Calendar.Gregorian
import Labyrithm.Go.Time
import Labyrithm.Text.Fields

/-!
# The time of a heartbeat

`format_epoch` and `civil_from_days` of `competitor-desktop/src-tauri/src/agent/state.rs`, which write the
instant of a heartbeat in ISO 8601 without a library.  `civil_from_days` cuts the days into eras of 400
years, and those into years that begin in March; a year is found by taking one day for every 1460 off the
days, giving one back for every century, and taking the last one of the era off again.

* `civilFromDays_dayNumber` — it gives back every date whose day number it is given.
* `civilFromDays_eq` — and so it counts the days off one by one.

**`epoch_formats`** — the dates of `civil_from_days` are those of the calendar, and the texts of
`format_epoch` sort like the instants.
-/

namespace Labyrithm

namespace Agent

open Calendar
open Go (int64)

/-- `civil_from_days`; the sum of `i64` wraps around as in a release build. -/
def civilFromDays (z : ℤ) : Date :=
  let z := int64 (z + 719468)
  let era := (if z ≥ 0 then z else z - 146096).tdiv 146097
  let doe := (z - era * 146097).toNat
  let yoe := (doe - doe / 1460 + doe / 36524 - doe / 146096) / 365
  let y := (yoe : ℤ) + era * 400
  let doy := doe - (365 * yoe + yoe / 4 - yoe / 100)
  let mp := (5 * doy + 2) / 153
  let d := doy - (153 * mp + 2) / 5 + 1
  let m := if mp < 10 then mp + 3 else mp - 9
  ⟨if m ≤ 2 then y + 1 else y, m, d⟩

/-- The fields of the text: their widths and what follows them. -/
def epochFields : List (ℕ × List Char) :=
  [(4, ['-']), (2, ['-']), (2, ['T']), (2, [':']), (2, [':']), (2, ['.']), (3, ['Z'])]

/-- `format_epoch`, for years that are not negative, which those of a `u64` of seconds are not. -/
def formatEpoch (secs millis : ℕ) : List Char :=
  let days := secs / 86400
  let rem := secs % 86400
  let date := civilFromDays days
  Text.render epochFields
    [date.year.toNat, date.month, date.day, rem / 3600, rem % 3600 / 60, rem % 60, millis]

example : formatEpoch 0 0 = "1970-01-01T00:00:00.000Z".toList := by decide +kernel

example : formatEpoch 1767225600 250 = "2026-01-01T00:00:00.250Z".toList := by decide +kernel

/-! ## The year of an era -/

section Era

variable {c q r doy : ℕ}

/-- What is taken off and given back for the leap days of `c` centuries, `q` times four and `r` years. -/
lemma leapDays_eq (hc : c ≤ 3) (hq : q ≤ 24) (hr : r ≤ 3) (hdoy : doy ≤ 365)
    (hleap : doy = 365 → r = 3 ∧ (q < 24 ∨ c = 3)) :
    ∃ e, (36524 * c + 1461 * q + 365 * r + doy) / 1460 = 25 * c + q + e ∧ e ≤ doy ∧ doy ≤ 364 + e := by
  refine ⟨(36524 * c + 1461 * q + 365 * r + doy) / 1460 - (25 * c + q), ?_, ?_, ?_⟩ <;> omega

/-- The last day of an era would be of a fifth century. -/
lemma centuries_eq (hc : c ≤ 3) (hq : q ≤ 24) (hr : r ≤ 3) (hdoy : doy ≤ 365)
    (hleap : doy = 365 → r = 3 ∧ (q < 24 ∨ c = 3)) :
    (36524 * c + 1461 * q + 365 * r + doy) / 36524
      = c + (36524 * c + 1461 * q + 365 * r + doy) / 146096 := by
  have hcentury : 1461 * q + 365 * r + doy ≤ 36524 := by omega
  obtain hlt | heq := lt_or_eq_of_le hcentury
  · have hc' : (36524 * c + 1461 * q + 365 * r + doy) / 36524 = c := by omega
    have hera : (36524 * c + 1461 * q + 365 * r + doy) / 146096 = 0 := by omega
    rw [hc', hera, Nat.add_zero]
  · obtain rfl : c = 3 := by omega
    have hera : 36524 * 3 + 1461 * q + 365 * r + doy = 146096 := by omega
    rw [hera]

/-- The year of an era is found from its days. -/
lemma yearOfEra_eq {yoe doe : ℕ} (hyoe : yoe < 400) (hdoy : doy ≤ 365)
    (hleap : doy = 365 → yoe % 4 = 3 ∧ (yoe % 100 ≠ 99 ∨ yoe = 399))
    (hdoe : doe + yoe / 100 = 365 * yoe + yoe / 4 + doy) :
    (doe - doe / 1460 + doe / 36524 - doe / 146096) / 365 = yoe := by
  obtain ⟨c, q, r, hc, hq, hr, rfl⟩ : ∃ c q r, c ≤ 3 ∧ q ≤ 24 ∧ r ≤ 3 ∧ yoe = 100 * c + 4 * q + r :=
    ⟨yoe / 100, yoe % 100 / 4, yoe % 4, by omega, by omega, by omega, by omega⟩
  obtain rfl : doe = 36524 * c + 1461 * q + 365 * r + doy := by omega
  have hleap' : doy = 365 → r = 3 ∧ (q < 24 ∨ c = 3) := by
    intro h
    have hyear := hleap h
    omega
  obtain ⟨e, hfour, he, hdays⟩ := leapDays_eq hc hq hr hdoy hleap'
  rw [hfour, centuries_eq hc hq hr hdoy hleap']
  generalize (36524 * c + 1461 * q + 365 * r + doy) / 146096 = k
  have hyears : 36524 * c + 1461 * q + 365 * r + doy - (25 * c + q + e) + (c + k) - k
      = 365 * (100 * c + 4 * q + r) + (doy - e) := by
    clear hleap hleap' hfour hdoe
    omega
  rw [hyears, Nat.mul_add_div (by norm_num), Nat.div_eq_of_lt (by omega), Nat.add_zero]

/-- The leap days up to a year of an era. -/
lemma leaps_era (era : ℤ) {yoe : ℕ} (hyoe : yoe < 400) :
    leaps (400 * era + yoe) = 97 * era + (yoe / 4 : ℕ) - (yoe / 100 : ℕ) := by
  unfold leaps
  have hfour : (400 * era + yoe) / 4 = 100 * era + (yoe / 4 : ℕ) := by omega
  have hcentury : (400 * era + yoe) / 100 = 4 * era + (yoe / 100 : ℕ) := by omega
  have hera : (400 * era + yoe) / 400 = era := by omega
  rw [hfour, hcentury, hera]
  omega

/-- The days of eras, years and days since March. -/
lemma days_eq {year : ℤ} (hyear : 0 ≤ year) (hdoy : doy ≤ 365) :
    ∃ (era : ℤ) (yoe doe : ℕ), 0 ≤ era ∧ yoe < 400 ∧ doe < 146097 ∧ year = 400 * era + yoe
      ∧ doe + yoe / 100 = 365 * yoe + yoe / 4 + doy
      ∧ 365 * year + leaps year + doy = 146097 * era + doe := by
  obtain ⟨era, yoe, hera, hyoe, rfl⟩ : ∃ (era : ℤ) (yoe : ℕ), 0 ≤ era ∧ yoe < 400
      ∧ year = 400 * era + yoe :=
    ⟨year / 400, (year % 400).toNat, by omega, by omega, by omega⟩
  refine ⟨era, yoe, 365 * yoe + yoe / 4 + doy - yoe / 100, hera, hyoe, by omega, rfl, by omega, ?_⟩
  rw [leaps_era era hyoe]
  omega

end Era

/-! ## Dates and day numbers -/

section Dates

variable {d : Date}

/-- A month has at most the days up to the next one, counted from March. -/
lemma marchDay_bounds (h : d.Valid) :
    d.marchDay + 1 ≤ (153 * (d.marchMonth + 1) + 2) / 5
      ∧ d.marchDay ≤ 365 ∧ (d.marchDay = 365 → IsLeap (d.marchYear + 1)) := by
  obtain ⟨year, month, day⟩ := d
  have hpos := h.day_pos
  have hle := h.day_le
  have hlow := h.month_pos
  have hhigh := h.month_le
  dsimp only at hpos hle hlow hhigh
  unfold Date.marchDay Date.marchMonth Date.marchYear
  by_cases hleap : IsLeap year <;> interval_cases month <;> simp [daysInMonth, hleap] at hle ⊢ <;> omega

/-- Month and day are found from the days since March. -/
lemma month_day_eq (h : d.Valid) :
    (5 * d.marchDay + 2) / 153 = d.marchMonth
      ∧ d.marchDay - (153 * d.marchMonth + 2) / 5 + 1 = d.day
      ∧ (if d.marchMonth < 10 then d.marchMonth + 3 else d.marchMonth - 9) = d.month
      ∧ (if d.month ≤ 2 then d.marchYear + 1 else d.marchYear) = d.year := by
  have hbound := (marchDay_bounds h).1
  have hday : d.marchDay = (153 * d.marchMonth + 2) / 5 + (d.day - 1) := rfl
  have hmonth : d.marchMonth = (d.month + 9) % 12 := rfl
  have hpos := h.day_pos
  have hlow := h.month_pos
  have hhigh := h.month_le
  refine ⟨by omega, by omega, ?_, ?_⟩
  · split_ifs <;> omega
  · rw [Date.marchYear]
    split_ifs <;> omega

/-- **`civil_from_days` gives back the date of a day number.** -/
theorem civilFromDays_dayNumber (h : d.Valid) (hyear : 1970 ≤ d.year)
    (hfits : (d.dayNumber : ℤ) + 719468 < 2 ^ 63) : civilFromDays d.dayNumber = d := by
  obtain ⟨-, hlong, hleap⟩ := marchDay_bounds h
  obtain ⟨hmp, hd, hm, hy⟩ := month_day_eq h
  have hmarch : 0 ≤ d.marchYear := by
    rw [Date.marchYear]
    split_ifs <;> omega
  obtain ⟨era, yoe, doe, hpos, hyoe, hlt, hY, hdoe, hz⟩ := days_eq hmarch hlong
  rw [← d.dayNumber_eq h hyear] at hz
  have hwrap : int64 ((d.dayNumber : ℤ) + 719468) = 146097 * era + doe := by
    rw [← hz]
    have hnumber : (0 : ℤ) ≤ d.dayNumber := Int.natCast_nonneg _
    clear hdoe
    exact Go.int64_of_fits ⟨by omega, by omega⟩
  have hera : (if (146097 * era + doe : ℤ) ≥ 0 then (146097 * era + doe : ℤ)
      else 146097 * era + doe - 146096).tdiv 146097 = era := by
    have hnonneg : 0 ≤ 146097 * era + (doe : ℤ) :=
      add_nonneg (mul_nonneg (by decide) hpos) (Int.natCast_nonneg doe)
    rw [if_pos hnonneg, Int.tdiv_eq_ediv_of_nonneg hnonneg, Int.mul_add_ediv_left _ _ (by decide),
      Int.ediv_eq_zero_of_lt (Int.natCast_nonneg doe) (by exact_mod_cast hlt), Int.add_zero]
  have hdays : (146097 * era + doe - era * 146097).toNat = doe := by
    rw [mul_comm, add_sub_cancel_left, Int.toNat_natCast]
  have hyearOfEra : (doe - doe / 1460 + doe / 36524 - doe / 146096) / 365 = yoe := by
    refine yearOfEra_eq hyoe hlong (fun hlast => ?_) hdoe
    have hyear := hleap hlast
    rw [hY] at hyear
    obtain ⟨hfour, hcentury⟩ := hyear
    clear hz hdoe hwrap hera hdays
    omega
  have hdoy : doe - (365 * yoe + yoe / 4 - yoe / 100) = d.marchDay := by
    clear hz hwrap hera hdays hyearOfEra
    omega
  rw [civilFromDays, hwrap]
  rw [hera, hdays, hyearOfEra, hdoy, hmp, hd, hm]
  have hyears : (yoe : ℤ) + era * 400 = d.marchYear := by rw [hY, add_comm, mul_comm]
  rw [hyears, hy]

/-- It counts the days off one by one. -/
theorem civilFromDays_eq {n : ℕ} (h : (n : ℤ) + 719468 < 2 ^ 63) : civilFromDays n = nthDay n := by
  have hnumber := dayNumber_nthDay n
  have hdate := civilFromDays_dayNumber (valid_nthDay n) (le_year_nthDay n) (by rwa [hnumber])
  rwa [hnumber] at hdate

end Dates

/-! ## The order of the texts -/

section Order

variable {secs millis secs' millis' : ℕ}

lemma fits_of_year (h : (nthDay (secs / 86400)).year ≤ 9999) :
    ((secs / 86400 : ℕ) : ℤ) + 719468 < 2 ^ 63 := by
  have hvalid := valid_nthDay (secs / 86400)
  have hnumber := (nthDay (secs / 86400)).dayNumber_eq hvalid (le_year_nthDay _)
  have hlong := (marchDay_bounds hvalid).2.1
  have hmarch : (nthDay (secs / 86400)).marchYear ≤ 9999 := by
    rw [Date.marchYear]
    split_ifs <;> omega
  rw [dayNumber_nthDay] at hnumber
  unfold leaps at hnumber
  omega

/-- The numbers of an instant up to the year 9999. -/
lemma formatEpoch_eq (h : (nthDay (secs / 86400)).year ≤ 9999) :
    formatEpoch secs millis = Text.render epochFields
      [(nthDay (secs / 86400)).year.toNat, (nthDay (secs / 86400)).month, (nthDay (secs / 86400)).day,
        secs % 86400 / 3600, secs % 86400 % 3600 / 60, secs % 86400 % 60, millis] := by
  rw [formatEpoch, civilFromDays_eq (fits_of_year h)]

lemma fits_epochFields (h : (nthDay (secs / 86400)).year ≤ 9999) (hmillis : millis < 1000) :
    Text.Fits epochFields
      [(nthDay (secs / 86400)).year.toNat, (nthDay (secs / 86400)).month, (nthDay (secs / 86400)).day,
        secs % 86400 / 3600, secs % 86400 % 3600 / 60, secs % 86400 % 60, millis] := by
  have hvalid := valid_nthDay (secs / 86400)
  have hmonth := hvalid.month_le
  have hday := hvalid.day_le
  have hlength : daysInMonth (nthDay (secs / 86400)).year (nthDay (secs / 86400)).month ≤ 31 := by
    unfold daysInMonth
    split_ifs <;> decide
  have hrem := Nat.mod_lt secs (show 86400 > 0 by decide)
  simp only [Text.Fits, epochFields, List.forall₂_cons, List.forall₂_nil_left_iff, and_true]
  refine ⟨⟨by decide, ?_⟩, ⟨by decide, ?_⟩, ⟨by decide, ?_⟩, ⟨by decide, ?_⟩, ⟨by decide, ?_⟩,
    ⟨by decide, ?_⟩, by decide, hmillis⟩ <;> omega

/-- Years, months and days in order. -/
lemma date_lt_of_day_lt {n n' : ℕ} (h : n < n') (rest rest' : List ℕ) :
    (nthDay n).year.toNat :: (nthDay n).month :: (nthDay n).day :: rest
      < (nthDay n').year.toNat :: (nthDay n').month :: (nthDay n').day :: rest' := by
  have hrank : (nthDay n).rank < (nthDay n').rank := nthDay_strictMono h
  have hyear := le_year_nthDay n
  simp only [Date.rank, Prod.Lex.toLex_lt_toLex] at hrank
  simp only [List.cons_lt_cons_iff]
  obtain hyears | ⟨hyears, hmonths | ⟨hmonths, hdays⟩⟩ := hrank
  · exact .inl (by omega)
  · exact .inr ⟨by rw [hyears], .inl hmonths⟩
  · exact .inr ⟨by rw [hyears], .inr ⟨hmonths, .inl hdays⟩⟩

/-- Hours, minutes and seconds in order. -/
lemma time_lt_of_sec_lt {rem rem' : ℕ} (h : rem < rem') (rest rest' : List ℕ) :
    rem / 3600 :: rem % 3600 / 60 :: rem % 60 :: rest
      < rem' / 3600 :: rem' % 3600 / 60 :: rem' % 60 :: rest' := by
  simp only [List.cons_lt_cons_iff]
  omega

/-- **Texts sort like instants.** -/
theorem formatEpoch_lt (hyear : (nthDay (secs' / 86400)).year ≤ 9999) (hmillis : millis < 1000)
    (hmillis' : millis' < 1000) (h : secs < secs' ∨ secs = secs' ∧ millis < millis') :
    formatEpoch secs millis < formatEpoch secs' millis' := by
  have hle : secs / 86400 ≤ secs' / 86400 := Nat.div_le_div_right (by omega)
  have hyears : (nthDay (secs / 86400)).year ≤ (nthDay (secs' / 86400)).year := by
    have hrank : (nthDay (secs / 86400)).rank ≤ (nthDay (secs' / 86400)).rank :=
      nthDay_strictMono.monotone hle
    simp only [Date.rank, Prod.Lex.toLex_le_toLex] at hrank
    omega
  rw [formatEpoch_eq (hyears.trans hyear), formatEpoch_eq hyear]
  refine Text.render_lt (fits_epochFields (hyears.trans hyear) hmillis)
    (fits_epochFields hyear hmillis') ?_
  obtain hday | hday := lt_or_eq_of_le hle
  · exact date_lt_of_day_lt hday _ _
  · rw [hday, List.cons_lt_cons_self, List.cons_lt_cons_self, List.cons_lt_cons_self]
    obtain hlt | ⟨rfl, hlt⟩ := h
    · exact time_lt_of_sec_lt (by omega) _ _
    · rw [List.cons_lt_cons_self, List.cons_lt_cons_self, List.cons_lt_cons_self]
      exact List.cons_lt_cons_iff.mpr (.inl hlt)

end Order

/-- **Instants are formatted by the calendar**: `civil_from_days` gives each day number its date, the dates
of successive days are successive, every date comes back from its day number, and later instants up to the
year 9999 have later texts.  The day numbers are those whose sum with 719468 is an `i64`, which those of a
`u64` of seconds all are. -/
theorem epoch_formats :
    (∀ n : ℕ, (n : ℤ) + 719468 < 2 ^ 63 →
        (civilFromDays n).Valid ∧ (civilFromDays n).dayNumber = n)
      ∧ (∀ n : ℕ, (n : ℤ) + 1 + 719468 < 2 ^ 63 → civilFromDays (n + 1) = (civilFromDays n).next)
      ∧ (∀ d : Date, d.Valid → 1970 ≤ d.year → (d.dayNumber : ℤ) + 719468 < 2 ^ 63 →
        civilFromDays d.dayNumber = d)
      ∧ ∀ secs millis secs' millis' : ℕ, (nthDay (secs' / 86400)).year ≤ 9999 → millis < 1000 →
        millis' < 1000 → secs < secs' ∨ secs = secs' ∧ millis < millis' →
          formatEpoch secs millis < formatEpoch secs' millis' := by
  refine ⟨fun n hn => ?_, fun n hn => ?_, fun d hvalid hyear hfits => ?_, ?_⟩
  · rw [civilFromDays_eq hn]
    exact ⟨valid_nthDay n, dayNumber_nthDay n⟩
  · rw [civilFromDays_eq (n := n) (by omega), ← nthDay_succ]
    exact_mod_cast civilFromDays_eq (n := n + 1) (by exact_mod_cast hn)
  · exact civilFromDays_dayNumber hvalid hyear hfits
  · intro secs millis secs' millis' hyear hmillis hmillis' h
    exact formatEpoch_lt hyear hmillis hmillis' h

/-- The leap day of 2024, and the turn of the year before it. -/
theorem epoch_formats_sample :
    civilFromDays 19782 = ⟨2024, 2, 29⟩ ∧ (civilFromDays 19782).Valid
      ∧ civilFromDays (Date.dayNumber ⟨2024, 2, 29⟩) = ⟨2024, 2, 29⟩
      ∧ civilFromDays 19722 = ⟨2023, 12, 31⟩ ∧ civilFromDays 19723 = (civilFromDays 19722).next
      ∧ formatEpoch 1704067199 999 < formatEpoch 1704067200 0 := by
  obtain ⟨hdates, hnext, hback, htexts⟩ := epoch_formats
  have hyear : (nthDay (1704067200 / 86400)).year ≤ 9999 := by
    rw [← civilFromDays_eq (by norm_num)]
    decide +kernel
  exact ⟨by decide +kernel, (hdates 19782 (by norm_num)).1,
    hback ⟨2024, 2, 29⟩ ⟨by decide, by decide, by decide, by decide⟩ (by norm_num) (by decide +kernel),
    by decide +kernel, hnext 19722 (by norm_num),
    htexts 1704067199 999 1704067200 0 hyear (by norm_num) (by norm_num) (.inl (by norm_num))⟩

end Agent

end Labyrithm
