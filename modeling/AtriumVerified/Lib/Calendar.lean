import Mathlib.Data.Nat.Find
import Mathlib.Tactic.IntervalCases
import AtriumVerified.Lib.Decimal

/-!
# The proleptic Gregorian calendar

Days and milliseconds since the epoch, as the date functions of ECMAScript define them. Months may
lie outside the year and days outside the month: they carry over. The dates of the years 0 to 9999
have a text of one width, and every millisecond of these years is the instant of exactly one date.
-/

namespace Calendar

/-- Whether a year of the proleptic Gregorian calendar has a February 29. -/
def leapYear (year : Int) : Bool := year % 4 == 0 && (year % 100 != 0 || year % 400 == 0)

def dayFromYear (year : Int) : Int :=
  365 * (year - 1970) + (year - 1969) / 4 - (year - 1901) / 100 + (year - 1601) / 400

/-- The days of a year before a month (`0` is January). -/
def daysBeforeMonth (leap : Bool) (month : Nat) : Int :=
  let extra : Int := if leap then 1 else 0
  match month with
  | 0 => 0
  | 1 => 31
  | 2 => 59 + extra
  | 3 => 90 + extra
  | 4 => 120 + extra
  | 5 => 151 + extra
  | 6 => 181 + extra
  | 7 => 212 + extra
  | 8 => 243 + extra
  | 9 => 273 + extra
  | 10 => 304 + extra
  | _ => 334 + extra

/-- `MakeDay(year, month, date)`, with `month` counted from 0 and `date` from 1. -/
def makeDay (year month date : Int) : Int :=
  let carried := year + month / 12
  dayFromYear carried + daysBeforeMonth (leapYear carried) (month % 12).toNat + date - 1

/-- `MakeTime(hour, minute, second, 0)`, in milliseconds. -/
def makeTime (hour minute second : Int) : Int :=
  hour * 3600000 + minute * 60000 + second * 1000

/-- `Date.UTC(year, month, date, hours, minutes, seconds)`: the years 0 to 99 mean 1900 to 1999. -/
def dateUTC (year month date hour minute second : Int) : Int :=
  let full := if 0 ≤ year ∧ year ≤ 99 then 1900 + year else year
  makeDay full month date * 86400000 + makeTime hour minute second

/-! ## Dates of four-digit years -/

/-- The days of a month (`0` is January). -/
def daysInMonth (leap : Bool) (month : Nat) : Nat :=
  match month with
  | 1 => if leap then 29 else 28
  | 3 | 5 | 8 | 10 => 30
  | _ => 31

/-- A date and a time of day in UTC, with month and day counted from 1. -/
structure DateTime where
  year : Nat
  month : Nat
  day : Nat
  hour : Nat
  minute : Nat
  second : Nat
  millisecond : Nat
  deriving DecidableEq, Repr

namespace DateTime

structure Valid (d : DateTime) : Prop where
  year : d.year < 10000
  month : 1 ≤ d.month ∧ d.month ≤ 12
  day : 1 ≤ d.day ∧ d.day ≤ daysInMonth (leapYear d.year) (d.month - 1)
  hour : d.hour < 24
  minute : d.minute < 60
  second : d.second < 60
  millisecond : d.millisecond < 1000

def wholeSeconds (d : DateTime) : Int :=
  (dayFromYear d.year + daysBeforeMonth (leapYear d.year) (d.month - 1) + d.day - 1) * 86400000 +
    makeTime d.hour d.minute d.second

def millis (d : DateTime) : Int := d.wholeSeconds + d.millisecond

/-- `YYYY-MM-DDTHH:MM:SS.mmmZ`. -/
def isoText (d : DateTime) : List Char :=
  Js.padded 4 d.year ++ '-' :: (Js.padded 2 d.month ++ '-' :: (Js.padded 2 d.day ++ 'T' ::
    (Js.padded 2 d.hour ++ ':' :: (Js.padded 2 d.minute ++ ':' :: (Js.padded 2 d.second ++ '.' ::
      (Js.padded 3 d.millisecond ++ ['Z']))))))

/-- The fields of a date, the most significant one first. -/
def fields (d : DateTime) : List Nat :=
  [d.year, d.month, d.day, d.hour, d.minute, d.second, d.millisecond]

/-- The order of the calendar: by year, then by month, and so on down to the millisecond. -/
def Earlier (d e : DateTime) : Prop := d.fields < e.fields

end DateTime

def yearBound (day : Int) : Nat := ((day - dayFromYear 0) / 365).toNat

def yearFromDay (day : Int) : Nat :=
  Nat.findGreatest (fun year => dayFromYear year ≤ day) (yearBound day)

/-- The month (`0` is January) a day of a year lies in. -/
def monthFromDay (leap : Bool) (dayInYear : Int) : Nat :=
  Nat.findGreatest (fun month => daysBeforeMonth leap month ≤ dayInYear) 11

def fromMillis (ms : Int) : DateTime :=
  let day := ms / 86400000
  let time := (ms % 86400000).toNat
  let year := yearFromDay day
  let dayInYear := day - dayFromYear year
  let month := monthFromDay (leapYear year) dayInYear
  { year := year
    month := month + 1
    day := (dayInYear - daysBeforeMonth (leapYear year) month).toNat + 1
    hour := time / 3600000
    minute := time / 60000 % 60
    second := time / 1000 % 60
    millisecond := time % 1000 }

def firstMs : Int := -62167219200000

def lastMs : Int := 253402300799999

example : dayFromYear 1970 = 0 := by decide +kernel

theorem dayFromYear_succ (year : Nat) :
    dayFromYear ((year + 1 : Nat) : Int) =
      dayFromYear year + 365 + if leapYear year then 1 else 0 := by
  unfold dayFromYear leapYear
  simp only [Bool.and_eq_true, Bool.or_eq_true, beq_iff_eq, bne_iff_ne, ne_eq]
  split
  · omega
  · omega

theorem daysBeforeMonth_succ (leap : Bool) {month : Nat} (h : month < 11) :
    daysBeforeMonth leap (month + 1) = daysBeforeMonth leap month + daysInMonth leap month := by
  interval_cases month <;> cases leap <;> rfl

theorem daysBeforeMonth_bounds (leap : Bool) {month : Nat} (h : month ≤ 11) :
    0 ≤ daysBeforeMonth leap month ∧
      daysBeforeMonth leap month + daysInMonth leap month ≤ 365 + if leap then 1 else 0 := by
  interval_cases month <;> cases leap <;> decide

theorem lt_dayFromYear_of_bound {day : Int} {year : Nat} (h : yearBound day < year) :
    day < dayFromYear year := by
  unfold yearBound dayFromYear at *
  omega

/-- A day of the years 0 to 9999 lies in the year `yearFromDay` gives. -/
theorem yearFromDay_spec {day : Int} (hfirst : dayFromYear 0 ≤ day)
    (hlast : day < dayFromYear 10000) :
    yearFromDay day ≤ 9999 ∧ dayFromYear (yearFromDay day) ≤ day ∧
      day < dayFromYear ((yearFromDay day + 1 : Nat) : Int) := by
  have hge : dayFromYear (yearFromDay day) ≤ day :=
    Nat.findGreatest_spec (P := fun year : Nat => dayFromYear year ≤ day)
      (Nat.zero_le (yearBound day)) hfirst
  refine ⟨?_, hge, ?_⟩
  · by_contra hmore
    have hyear : dayFromYear 10000 ≤ dayFromYear (yearFromDay day) := by
      unfold dayFromYear
      omega
    omega
  · by_cases hmax : yearBound day < yearFromDay day + 1
    · exact lt_dayFromYear_of_bound hmax
    · have hnot := Nat.findGreatest_is_greatest
        (P := fun year : Nat => dayFromYear year ≤ day) (n := yearBound day)
        (Nat.lt_succ_self (yearFromDay day)) (not_lt.mp hmax)
      exact lt_of_not_ge hnot

/-- A day of a year lies in the month `monthFromDay` gives. -/
theorem monthFromDay_spec (leap : Bool) (dayInYear : Int) (hfirst : 0 ≤ dayInYear)
    (hlast : dayInYear < 365 + if leap then 1 else 0) :
    monthFromDay leap dayInYear ≤ 11 ∧
      daysBeforeMonth leap (monthFromDay leap dayInYear) ≤ dayInYear ∧
      dayInYear < daysBeforeMonth leap (monthFromDay leap dayInYear) +
        daysInMonth leap (monthFromDay leap dayInYear) := by
  have hle : monthFromDay leap dayInYear ≤ 11 := Nat.findGreatest_le 11
  refine ⟨hle, ?_, ?_⟩
  · exact Nat.findGreatest_spec (P := fun month => daysBeforeMonth leap month ≤ dayInYear)
      (Nat.zero_le 11) hfirst
  · by_cases hmax : monthFromDay leap dayInYear = 11
    · rw [hmax]
      have hyear : daysBeforeMonth leap 11 + daysInMonth leap 11 = 365 + if leap then 1 else 0 := by
        cases leap <;> rfl
      omega
    · have hnot := Nat.findGreatest_is_greatest
        (P := fun month => daysBeforeMonth leap month ≤ dayInYear) (n := 11)
        (Nat.lt_succ_self (monthFromDay leap dayInYear)) (by omega)
      rw [Nat.succ_eq_add_one, daysBeforeMonth_succ leap (by omega)] at hnot
      omega

/-- The day of an instant lies in the years 0 to 9999. -/
theorem day_bounds {ms : Int} (hfirst : firstMs ≤ ms) (hlast : ms ≤ lastMs) :
    dayFromYear 0 ≤ ms / 86400000 ∧ ms / 86400000 < dayFromYear 10000 := by
  unfold firstMs at hfirst
  unfold lastMs at hlast
  unfold dayFromYear
  omega

theorem fromMillis_valid {ms : Int} (hfirst : firstMs ≤ ms) (hlast : ms ≤ lastMs) :
    (fromMillis ms).Valid := by
  obtain ⟨hday0, hday1⟩ := day_bounds hfirst hlast
  obtain ⟨hyear, hge, hlt⟩ := yearFromDay_spec hday0 hday1
  rw [dayFromYear_succ] at hlt
  obtain ⟨hmonth, hmge, hmlt⟩ := monthFromDay_spec (leapYear (yearFromDay (ms / 86400000)))
    (ms / 86400000 - dayFromYear (yearFromDay (ms / 86400000))) (by omega) (by omega)
  constructor
  case year => exact Nat.lt_succ_of_le hyear
  case month => exact ⟨Nat.le_add_left 1 _, Nat.succ_le_succ hmonth⟩
  case day =>
    simp only [fromMillis, Nat.add_sub_cancel]
    omega
  case hour =>
    show (ms % 86400000).toNat / 3600000 < 24
    omega
  case minute => exact Nat.mod_lt _ (by decide)
  case second => exact Nat.mod_lt _ (by decide)
  case millisecond => exact Nat.mod_lt _ (by decide)

theorem millis_fromMillis {ms : Int} (hfirst : firstMs ≤ ms) (hlast : ms ≤ lastMs) :
    (fromMillis ms).millis = ms := by
  obtain ⟨hday0, hday1⟩ := day_bounds hfirst hlast
  obtain ⟨hyear, hge, hlt⟩ := yearFromDay_spec hday0 hday1
  rw [dayFromYear_succ] at hlt
  obtain ⟨hmonth, hmge, hmlt⟩ := monthFromDay_spec (leapYear (yearFromDay (ms / 86400000)))
    (ms / 86400000 - dayFromYear (yearFromDay (ms / 86400000))) (by omega) (by omega)
  unfold DateTime.millis DateTime.wholeSeconds fromMillis makeTime
  dsimp only
  rw [Nat.add_sub_cancel]
  omega

/-- Every date of the years 0 to 9999 lies between their first and last millisecond. -/
theorem millis_bounds {d : DateTime} (h : d.Valid) :
    firstMs ≤ d.wholeSeconds ∧ d.wholeSeconds + 999 ≤ lastMs := by
  obtain ⟨hyear, hmonth, hday, hhour, hminute, hsecond, -⟩ := h
  obtain ⟨hbefore, hafter⟩ :=
    daysBeforeMonth_bounds (leapYear d.year) (show d.month - 1 ≤ 11 by omega)
  have hnext := dayFromYear_succ d.year
  have hfirst : dayFromYear 0 ≤ dayFromYear d.year := by
    unfold dayFromYear
    omega
  have hlast : dayFromYear ((d.year + 1 : Nat) : Int) ≤ dayFromYear 10000 := by
    unfold dayFromYear
    omega
  have hzero : dayFromYear 0 = -719528 := by decide
  have hend : dayFromYear 10000 = 2932897 := by decide
  unfold DateTime.wholeSeconds makeTime firstMs lastMs
  omega

/-- A year ends before the next ones begin. -/
theorem dayFromYear_le {year later : Nat} (h : year < later) :
    dayFromYear year + 365 + (if leapYear year then 1 else 0) ≤ dayFromYear later := by
  rw [← dayFromYear_succ]
  unfold dayFromYear
  omega

/-- A month ends before the next ones begin. -/
theorem daysBeforeMonth_le (leap : Bool) {month later : Nat} (h : month < later) (hlast : later ≤ 11) :
    daysBeforeMonth leap month + daysInMonth leap month ≤ daysBeforeMonth leap later := by
  induction later with
  | zero => omega
  | succ n ih =>
    rw [daysBeforeMonth_succ leap (show n < 11 by omega)]
    rcases Nat.lt_succ_iff_lt_or_eq.mp h with hlt | rfl
    · have hbefore := ih hlt (by omega)
      omega
    · exact le_refl _

namespace DateTime

theorem fields_inj {d e : DateTime} (h : d.fields = e.fields) : d = e := by
  obtain ⟨dy, dmo, dd, dh, dmi, ds, dms⟩ := d
  obtain ⟨ey, emo, ed, eh, emi, es, ems⟩ := e
  simpa [fields] using h

theorem earlier_iff {d e : DateTime} : d.Earlier e ↔
    d.year < e.year ∨ d.year = e.year ∧ (d.month < e.month ∨ d.month = e.month ∧
      (d.day < e.day ∨ d.day = e.day ∧ (d.hour < e.hour ∨ d.hour = e.hour ∧
        (d.minute < e.minute ∨ d.minute = e.minute ∧ (d.second < e.second ∨
          d.second = e.second ∧ d.millisecond < e.millisecond))))) := by
  unfold Earlier fields
  simp only [List.cons_lt_cons_iff, List.not_lt_nil, and_false, or_false]

/-- A later date of the calendar is a later instant. -/
theorem millis_lt_of_earlier {d e : DateTime} (hd : d.Valid) (he : e.Valid) (h : d.Earlier e) :
    d.millis < e.millis := by
  obtain ⟨-, hdmonth, hdday, hdhour, hdminute, hdsecond, hdms⟩ := hd
  obtain ⟨-, hemonth, heday, hehour, heminute, hesecond, hems⟩ := he
  obtain ⟨hdbefore, hdafter⟩ := daysBeforeMonth_bounds (leapYear d.year)
    (show d.month - 1 ≤ 11 by omega)
  obtain ⟨hebefore, heafter⟩ := daysBeforeMonth_bounds (leapYear e.year)
    (show e.month - 1 ≤ 11 by omega)
  unfold millis wholeSeconds makeTime
  rcases earlier_iff.mp h with hyear | ⟨hyear, hmonth | ⟨hmonth, hrest⟩⟩
  · have hends := dayFromYear_le hyear
    omega
  · rw [hyear] at hdafter hdday ⊢
    have hends := daysBeforeMonth_le (leapYear e.year) (show d.month - 1 < e.month - 1 by omega)
      (by omega)
    omega
  · rw [hyear, hmonth]
    omega

/-- The order of the calendar is the order of the instants. -/
theorem earlier_iff_millis {d e : DateTime} (hd : d.Valid) (he : e.Valid) :
    d.Earlier e ↔ d.millis < e.millis := by
  refine ⟨millis_lt_of_earlier hd he, ?_⟩
  intro hlt
  by_contra hearlier
  by_cases hlater : e.Earlier d
  · exact absurd (millis_lt_of_earlier he hd hlater) (not_lt.mpr hlt.le)
  · have hsame : d.fields = e.fields :=
      List.le_antisymm (List.not_lt.mp hlater) (List.not_lt.mp hearlier)
    rw [fields_inj hsame] at hlt
    exact lt_irrefl _ hlt

/-- Two dates of one instant are one date. -/
theorem eq_of_millis_eq {d e : DateTime} (hd : d.Valid) (he : e.Valid) (h : d.millis = e.millis) :
    d = e := by
  have hde : ¬ d.Earlier e := fun hlt => by
    have hmillis := millis_lt_of_earlier hd he hlt
    omega
  have hed : ¬ e.Earlier d := fun hlt => by
    have hmillis := millis_lt_of_earlier he hd hlt
    omega
  exact fields_inj (List.le_antisymm (List.not_lt.mp hed) (List.not_lt.mp hde))

end DateTime

end Calendar
