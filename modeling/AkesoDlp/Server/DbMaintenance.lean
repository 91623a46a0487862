import AkesoDlp.Lib.Lists
import AkesoDlp.Lib.Tiles
import AkesoDlp.Server.PyPath
import AkesoDlp.Server.Validators
import Mathlib.Data.Prod.Lex
import Mathlib.Order.Lattice.Nat

/-!
# Monthly partitions

`ensure_partitions` makes a partition for the previous month, the current one and some that
follow. Months are counted through from the year 0, so that the next month is one more.
-/

namespace AkesoDlp.Server.Maintenance

open Lib
open Inspector (PyStr py strInt)
open Validators (Date monthLength)

/-- A day, and the `datetime` at its beginning. -/
structure CalendarDate extends Date where
  exist : toDate.Exists
  year_le : year ≤ 9999
  month_range : 1 ≤ month ∧ month ≤ 12
  day_pos : 1 ≤ day
deriving DecidableEq

/-- `datetime(year, month, day)`, which raises `ValueError` if there is no such day. -/
def datetime (year month day : Int) : Option CalendarDate :=
  if h : (⟨year.toNat, month.toNat, day.toNat⟩ : Date).Exists ∧ year ≤ 9999 ∧
      1 ≤ month ∧ month ≤ 12 ∧ 1 ≤ day then
    some
      { year := year.toNat
        month := month.toNat
        day := day.toNat
        exist := h.1
        year_le := by omega
        month_range := by omega
        day_pos := by omega }
  else none

structure Partition where
  name : PyStr
  startDate : CalendarDate
  endDate : CalendarDate
deriving DecidableEq

/-- The format `02d`. -/
def twoDigits (n : Int) : PyStr := if 0 ≤ n ∧ n < 10 then '0' :: strInt n else strInt n

/-- The first day of the next month. -/
def endDateOf (year month : Int) : Option CalendarDate :=
  if month = 12 then datetime (year + 1) 1 1 else datetime year (month + 1) 1

/-- The body of the loop up to the query. -/
def partitionAt (now : CalendarDate) (offset : Int) : Option Partition := do
  let year : Int := now.year + (now.month + offset - 1) / 12
  let month : Int := (now.month + offset - 1) % 12 + 1
  let name := py "incidents_" ++ strInt year ++ py "_" ++ twoDigits month
  let startDate ← datetime year month 1
  let endDate ← endDateOf year month
  return ⟨name, startDate, endDate⟩

/-- `range(start, stop)`. -/
def pyRange (start stop : Int) : List Int :=
  (List.range (stop - start).toNat).map fun k : Nat => start + k

/-- The partitions that a call goes through. -/
def computed (now : CalendarDate) (monthsAhead : Int) : Option (List Partition) :=
  (pyRange (-1) (monthsAhead + 1)).mapM (partitionAt now)

/-- The loop: what is in the database after it, and the names it returns unless it raises.
`fails` says for which names the `CREATE TABLE` fails. -/
def ensureLoop (fails : PyStr → Bool) (now : CalendarDate) :
    List Int → List Partition → List PyStr → List Partition × Option (List PyStr)
  | [], db, created => (db, some created)
  | offset :: offsets, db, created =>
      match partitionAt now offset with
      | none => (db, none)
      | some p =>
          if p.name ∈ db.map Partition.name ∨ fails p.name = true then
            ensureLoop fails now offsets db created
          else ensureLoop fails now offsets (db ++ [p]) (created ++ [p.name])

def ensurePartitions (fails : PyStr → Bool) (now : CalendarDate) (monthsAhead : Int)
    (db : List Partition) : List Partition × Option (List PyStr) :=
  ensureLoop fails now (pyRange (-1) (monthsAhead + 1)) db []

/-! ## Months -/

/-- What Python compares: year, month, day. -/
def CalendarDate.key (d : CalendarDate) : ℕ ×ₗ (ℕ ×ₗ ℕ) := toLex (d.year, toLex (d.month, d.day))

theorem CalendarDate.key_injective : Function.Injective CalendarDate.key := by
  rintro ⟨⟨year, month, day⟩, _, _, _, _⟩ ⟨⟨year', month', day'⟩, _, _, _, _⟩ h
  simp only [key, toLex_inj, Prod.mk.injEq] at h
  obtain ⟨rfl, rfl, rfl⟩ := h
  rfl

instance : LinearOrder CalendarDate := LinearOrder.lift' _ CalendarDate.key_injective

theorem CalendarDate.le_iff {d e : CalendarDate} :
    d ≤ e ↔ d.year < e.year ∨ d.year = e.year ∧
      (d.month < e.month ∨ d.month = e.month ∧ d.day ≤ e.day) := by
  change d.key ≤ e.key ↔ _
  rw [key, key, Prod.Lex.toLex_le_toLex, Prod.Lex.toLex_le_toLex]

/-- The number of the month, from January of the year 0. -/
def CalendarDate.monthNumber (d : CalendarDate) : Int := 12 * d.year + d.month - 1

/-- The name of the partition of a month. -/
def monthName (m : Int) : PyStr :=
  py "incidents_" ++ strInt (m / 12) ++ py "_" ++ twoDigits (m % 12 + 1)

/-- The partition of a month, if the month and the next one begin with days that exist. -/
def monthPartition (m : Int) : Option Partition := do
  let startDate ← datetime (m / 12) (m % 12 + 1) 1
  let endDate ← endDateOf (m / 12) (m % 12 + 1)
  return ⟨monthName m, startDate, endDate⟩

/-- What the partition of a month is. -/
structure Partition.IsMonth (p : Partition) (m : Int) : Prop where
  name : p.name = monthName m
  start_month : p.startDate.monthNumber = m
  start_day : p.startDate.day = 1
  end_month : p.endDate.monthNumber = m + 1
  end_day : p.endDate.day = 1

/-- The month and the one after it exist. -/
def InCalendar (m : Int) : Prop := 12 ≤ m ∧ m + 1 < 12 * 10000

theorem monthLength_pos (year month : Nat) : 1 ≤ monthLength year month := by
  unfold monthLength
  split_ifs <;> decide

theorem datetime_eq_some {year month day : Int} {d : CalendarDate}
    (h : datetime year month day = some d) :
    (d.year : Int) = year ∧ (d.month : Int) = month ∧ (d.day : Int) = day := by
  unfold datetime at h
  split at h
  · next hvalid =>
      cases h
      have hyear : 1 ≤ year.toNat := hvalid.1.1
      dsimp only
      omega
  · cases h

theorem exists_datetime {year month : Int} (hyear : 1 ≤ year ∧ year ≤ 9999)
    (hmonth : 1 ≤ month ∧ month ≤ 12) : ∃ d, datetime year month 1 = some d := by
  refine ⟨_, dif_pos ⟨⟨?_, ?_⟩, hyear.2, hmonth.1, hmonth.2, Int.le_refl 1⟩⟩
  · dsimp only
    omega
  · exact monthLength_pos _ _

theorem endDateOf_eq_some {year month : Int} {d : CalendarDate}
    (h : endDateOf year month = some d) :
    (12 * d.year + d.month - 1 : Int) = 12 * year + month ∧ d.day = 1 := by
  unfold endDateOf at h
  split at h
  · obtain ⟨hyear, hmonth, hday⟩ := datetime_eq_some h
    omega
  · obtain ⟨hyear, hmonth, hday⟩ := datetime_eq_some h
    omega

theorem exists_endDateOf {year month : Int} (hyear : 1 ≤ year)
    (hmonth : 1 ≤ month ∧ month ≤ 12) (hlast : 12 * year + month < 12 * 10000) :
    ∃ d, endDateOf year month = some d := by
  unfold endDateOf
  split
  · exact exists_datetime (by omega) (by omega)
  · exact exists_datetime (by omega) (by omega)

section months

variable {m m' : Int} {p q : Partition}

theorem CalendarDate.monthNumber_range (d : CalendarDate) :
    12 ≤ d.monthNumber ∧ d.monthNumber < 12 * 10000 := by
  have hyear : 1 ≤ d.year := d.exist.1
  have hle := d.year_le
  have hmonth := d.month_range
  unfold CalendarDate.monthNumber
  omega

/-- Whatever the current date, a month has one partition. -/
theorem partitionAt_eq (now : CalendarDate) (offset : Int) :
    partitionAt now offset = monthPartition (now.monthNumber + offset) := by
  have hmonths : now.monthNumber + offset = 12 * now.year + (now.month + offset - 1) := by
    unfold CalendarDate.monthNumber
    omega
  have hdiv : (now.monthNumber + offset) / 12 = now.year + (now.month + offset - 1) / 12 := by
    omega
  have hmod : (now.monthNumber + offset) % 12 = (now.month + offset - 1) % 12 := by
    omega
  rw [monthPartition, monthName, hdiv, hmod]
  rfl

theorem monthPartition_isMonth (h : monthPartition m = some p) : p.IsMonth m := by
  obtain ⟨startDate, hstart, h⟩ := Option.bind_eq_some_iff.mp h
  obtain ⟨endDate, hend, h⟩ := Option.bind_eq_some_iff.mp h
  cases h
  obtain ⟨hyear, hmonth, hday⟩ := datetime_eq_some hstart
  obtain ⟨hnext, hendDay⟩ := endDateOf_eq_some hend
  refine ⟨rfl, ?_, Int.natCast_inj.mp hday, ?_, hendDay⟩
  · rw [CalendarDate.monthNumber]
    dsimp only
    omega
  · rw [CalendarDate.monthNumber]
    dsimp only
    omega

theorem exists_monthPartition (h : InCalendar m) : ∃ p, monthPartition m = some p := by
  obtain ⟨hlow, hhigh⟩ := h
  have hmonth : 1 ≤ m % 12 + 1 ∧ m % 12 + 1 ≤ 12 := by omega
  obtain ⟨startDate, hstart⟩ := exists_datetime (by omega : 1 ≤ m / 12 ∧ m / 12 ≤ 9999) hmonth
  obtain ⟨endDate, hend⟩ := exists_endDateOf (by omega : 1 ≤ m / 12) hmonth (by omega)
  exact ⟨_, Option.bind_eq_some_iff.mpr
    ⟨startDate, hstart, Option.bind_eq_some_iff.mpr ⟨endDate, hend, rfl⟩⟩⟩

/-- Two days of the first of a month. -/
theorem CalendarDate.eq_of_monthNumber {d e : CalendarDate} (h : d.monthNumber = e.monthNumber)
    (hday : d.day = e.day) : d = e := by
  have hd := d.month_range
  have he := e.month_range
  unfold CalendarDate.monthNumber at h
  apply CalendarDate.key_injective
  have hyear : d.year = e.year := by omega
  have hmonth : d.month = e.month := by omega
  rw [key, key, hyear, hmonth, hday]

theorem Partition.IsMonth.unique (hp : p.IsMonth m) (hq : q.IsMonth m) : p = q := by
  have hstart := CalendarDate.eq_of_monthNumber (hp.start_month.trans hq.start_month.symm)
    (hp.start_day.trans hq.start_day.symm)
  have hend := CalendarDate.eq_of_monthNumber (hp.end_month.trans hq.end_month.symm)
    (hp.end_day.trans hq.end_day.symm)
  obtain ⟨name, startDate, endDate⟩ := p
  obtain ⟨name', startDate', endDate'⟩ := q
  obtain rfl : startDate = startDate' := hstart
  obtain rfl : endDate = endDate' := hend
  obtain rfl : name = name' := hp.name.trans hq.name.symm
  rfl

theorem CalendarDate.first_le_iff {first : CalendarDate} (hday : first.day = 1)
    (d : CalendarDate) : first ≤ d ↔ first.monthNumber ≤ d.monthNumber := by
  have hpos := d.day_pos
  have hfirst := first.month_range
  have hd := d.month_range
  rw [CalendarDate.le_iff, CalendarDate.monthNumber, CalendarDate.monthNumber]
  omega

theorem Partition.IsMonth.start_le_iff (hp : p.IsMonth m) (d : CalendarDate) :
    p.startDate ≤ d ↔ m ≤ d.monthNumber := by
  rw [CalendarDate.first_le_iff hp.start_day, hp.start_month]

theorem Partition.IsMonth.lt_end_iff (hp : p.IsMonth m) (d : CalendarDate) :
    d < p.endDate ↔ d.monthNumber ≤ m := by
  rw [← not_le, CalendarDate.first_le_iff hp.end_day, hp.end_month, not_le, Int.lt_add_one_iff]

/-- A day belongs to the partition of its month and to no other one. -/
theorem Partition.IsMonth.contains_iff (hp : p.IsMonth m) (d : CalendarDate) :
    p.startDate ≤ d ∧ d < p.endDate ↔ d.monthNumber = m := by
  rw [hp.start_le_iff, hp.lt_end_iff, and_comm, Int.le_antisymm_iff]

theorem strInt_injective {m m' : Int} (hm : 0 ≤ m) (hm' : 0 ≤ m') (h : strInt m = strInt m') :
    m = m' := by
  lift m to Nat using hm
  lift m' to Nat using hm'
  have hdigits : Nat.toDigits 10 m = Nat.toDigits 10 m' := h
  rw [← Nat.ofDigitChars_ten_toDigits (n := m), hdigits, Nat.ofDigitChars_ten_toDigits]

/-- Two digits for every month of the year, and not the same for two of them. -/
theorem twoDigits_month {a b : Int} (ha : 1 ≤ a ∧ a ≤ 12) (hb : 1 ≤ b ∧ b ≤ 12) :
    (twoDigits a).length = (twoDigits b).length ∧ (twoDigits a = twoDigits b → a = b) := by
  have hall : ∀ j ∈ List.range 13, ∀ k ∈ List.range 13, 1 ≤ j → 1 ≤ k →
      (twoDigits (j : Nat)).length = (twoDigits (k : Nat)).length ∧
        (twoDigits (j : Nat) = twoDigits (k : Nat) → j = k) := by
    decide
  obtain ⟨j, rfl⟩ := Int.eq_ofNat_of_zero_le (by omega : 0 ≤ a)
  obtain ⟨k, rfl⟩ := Int.eq_ofNat_of_zero_le (by omega : 0 ≤ b)
  obtain ⟨hlength, heq⟩ := hall j (List.mem_range.mpr (by omega)) k (List.mem_range.mpr (by omega))
    (by omega) (by omega)
  exact ⟨hlength, fun h => congrArg _ (heq h)⟩

/-- The names of different months differ. -/
theorem monthName_injective (hm : 0 ≤ m) (hm' : 0 ≤ m') (h : monthName m = monthName m') :
    m = m' := by
  obtain ⟨hlength, hmonth⟩ := twoDigits_month (a := m % 12 + 1) (b := m' % 12 + 1)
    (by omega) (by omega)
  obtain ⟨hfront, htwo⟩ := List.append_inj' h hlength
  have hyear := strInt_injective (by omega) (by omega)
    (List.append_cancel_left (List.append_cancel_right hfront))
  have hmod := hmonth htwo
  omega

end months

/-! ## A call -/

/-- The months from the previous one to the one after the last are within the calendar. -/
def MonthsExist (now : CalendarDate) (monthsAhead : Nat) : Prop :=
  12 ≤ now.monthNumber - 1 ∧ now.monthNumber + monthsAhead + 1 < 12 * 10000

instance (now : CalendarDate) (monthsAhead : Nat) : Decidable (MonthsExist now monthsAhead) :=
  inferInstanceAs (Decidable (_ ∧ _))

/-- Partitions for the months from the previous one on, one after the other. -/
structure CoversMonths (now : CalendarDate) (monthsAhead : Nat) (ps : List Partition) : Prop where
  names : (ps.map Partition.name).Nodup
  tiles : Tiles Partition.startDate Partition.endDate ps
  disjoint : ps.Pairwise fun p q => p.endDate ≤ q.startDate
  first : ∃ p, ps.head? = some p ∧ p.IsMonth (now.monthNumber - 1)
  second : ∃ p, ps[1]? = some p ∧ p.startDate ≤ now ∧ now < p.endDate
  last : ∃ p, ps.getLast? = some p ∧ p.IsMonth (now.monthNumber + monthsAhead)
  gapFree : ∀ d, now.monthNumber - 1 ≤ d.monthNumber →
    d.monthNumber ≤ now.monthNumber + monthsAhead →
      ∃! p, p ∈ ps ∧ p.startDate ≤ d ∧ d < p.endDate

section computed

variable {now : CalendarDate} {n : Nat} {ps : List Partition}

/-- The partitions go through the months one by one. -/
theorem computed_getElem (h : computed now n = some ps) :
    ps.length = n + 2 ∧ ∀ k (hk : k < ps.length), ps[k].IsMonth (now.monthNumber - 1 + k) := by
  have hall := mapM_eq_some_iff.mp h
  have hrange : (pyRange (-1) (n + 1)).length = n + 2 := by
    rw [pyRange, List.length_map, List.length_range]
    omega
  have hlength := hall.length_eq
  refine ⟨by omega, fun k hk => ?_⟩
  have hmonth := monthPartition_isMonth
    ((partitionAt_eq _ _).symm.trans (hall.get (i := k) (by omega) hk))
  simpa [pyRange, Int.add_assoc, sub_eq_add_neg] using hmonth

theorem inCalendar_of_mem_pyRange (h : MonthsExist now n) :
    ∀ offset ∈ pyRange (-1) (n + 1), InCalendar (now.monthNumber + offset) := by
  intro offset hoffset
  obtain ⟨k, hk, rfl⟩ := List.mem_map.mp hoffset
  rw [List.mem_range] at hk
  unfold MonthsExist InCalendar at *
  omega

theorem exists_computed (h : MonthsExist now n) : ∃ ps, computed now n = some ps := by
  refine exists_mapM fun offset hoffset => ?_
  rw [partitionAt_eq]
  exact exists_monthPartition (inCalendar_of_mem_pyRange h offset hoffset)

/-- The range of a call is within the calendar if it does not raise. -/
theorem monthsExist_of_computed (h : computed now n = some ps) : MonthsExist now n := by
  obtain ⟨hlength, hmonths⟩ := computed_getElem h
  have hfirst := (hmonths 0 (by omega)).start_month
  have hlast := (hmonths (n + 1) (by omega)).end_month
  have hlow := (ps[0].startDate).monthNumber_range
  have hhigh := (ps[n + 1].endDate).monthNumber_range
  unfold MonthsExist
  push_cast at *
  omega

theorem coversMonths (h : computed now n = some ps) : CoversMonths now n ps := by
  obtain ⟨hlength, hmonths⟩ := computed_getElem h
  have hrange := monthsExist_of_computed h
  have htiles : Tiles Partition.startDate Partition.endDate ps := by
    refine ⟨List.isChain_iff_getElem.mpr fun k hk => ?_, fun p hp => ?_⟩
    · have hthis := hmonths k (by omega)
      have hnext := hmonths (k + 1) hk
      refine CalendarDate.eq_of_monthNumber ?_ (hthis.end_day.trans hnext.start_day.symm)
      rw [hthis.end_month, hnext.start_month]
      push_cast
      omega
    · obtain ⟨k, hk, rfl⟩ := List.getElem_of_mem hp
      have hthis := hmonths k hk
      exact ((hthis.contains_iff _).mpr hthis.start_month).2
  have hfirst := hmonths 0 (by omega)
  have hlast := hmonths (n + 1) (by omega)
  have hhead : ps.head? = some ps[0] := List.head?_eq_getElem?.trans (List.getElem?_eq_getElem _)
  have hend : ps.getLast? = some ps[n + 1] := by
    have hindex : ps.length - 1 = n + 1 := by omega
    rw [List.getLast?_eq_getElem?, List.getElem?_eq_some_iff]
    exact ⟨by omega, getElem_congr_idx hindex⟩
  refine ⟨?_, htiles, htiles.pairwise, ⟨_, hhead, ?_⟩, ⟨ps[1], List.getElem?_eq_getElem _, ?_⟩,
    ⟨_, hend, ?_⟩, fun d hlow hhigh => ?_⟩
  · rw [List.Nodup, List.pairwise_map, List.pairwise_iff_getElem]
    intro i j hi hj hij hname
    unfold MonthsExist at hrange
    rw [(hmonths i hi).name, (hmonths j hj).name] at hname
    have := monthName_injective (by omega) (by omega) hname
    omega
  · simpa using hfirst
  · exact ((hmonths 1 (by omega)).contains_iff now).mpr (by push_cast; omega)
  · have hmonth : now.monthNumber + n = now.monthNumber - 1 + (n + 1 : Nat) := by
      push_cast
      omega
    rw [hmonth]
    exact hlast
  · refine htiles.existsUnique hhead hend ((hfirst.start_le_iff d).mpr ?_)
      ((hlast.lt_end_iff d).mpr ?_)
    · push_cast
      omega
    · push_cast
      omega

end computed

/-- The partitions that a call goes through tile the months, exactly if all these months exist,
and each of them depends on nothing but its month. -/
theorem partitions_tile :
    (∀ now (n : Nat), (∃ ps, computed now n = some ps ∧ CoversMonths now n ps) ↔
      MonthsExist now n) ∧
    ∀ now offset, partitionAt now offset = monthPartition (now.monthNumber + offset) := by
  refine ⟨fun now n => ⟨?_, fun h => ?_⟩, partitionAt_eq⟩
  · rintro ⟨ps, hps, -⟩
    exact monthsExist_of_computed hps
  · obtain ⟨ps, hps⟩ := exists_computed h
    exact ⟨ps, hps, coversMonths hps⟩

section examples

/-- The twentieth of March 2026. -/
private def march2026 : CalendarDate where
  year := 2026
  month := 3
  day := 20
  exist := by decide
  year_le := by decide
  month_range := by decide
  day_pos := by decide

/-- The last month would be December 9999, and there is no day after it. -/
theorem not_coversMonths_year10000 :
    ¬ ∀ now (n : Nat), ∃ ps, computed now n = some ps ∧ CoversMonths now n ps := by
  intro h
  obtain ⟨ps, hps, -⟩ := h march2026 95685
  exact absurd (monthsExist_of_computed hps) (by decide)

end examples

/-! ## The database -/

/-- One partition a month, each under its name. -/
structure Monthly (db : List Partition) : Prop where
  names : (db.map Partition.name).Nodup
  months : ∀ p ∈ db, ∃ m, 0 ≤ m ∧ p.IsMonth m

section database

variable {fails : PyStr → Bool} {now : CalendarDate} {offsets : List Int} {db : List Partition}
  {created : List PyStr}

theorem monthNumber_nonneg {m : Int} {p : Partition} (h : p.IsMonth m) : 0 ≤ m := by
  have hrange := p.startDate.monthNumber_range
  rw [h.start_month] at hrange
  omega

theorem Monthly.append {m : Int} {p : Partition} (h : Monthly db) (hp : p.IsMonth m)
    (hnew : p.name ∉ db.map Partition.name) : Monthly (db ++ [p]) where
  names := by
    rw [List.map_append, List.map_singleton, List.nodup_append]
    refine ⟨h.names, List.nodup_singleton _, ?_⟩
    intro name hname other hother heq
    rw [List.mem_singleton.mp hother] at heq
    exact hnew (heq ▸ hname)
  months q hq := by
    rcases List.mem_append.mp hq with hq | hq
    · exact h.months q hq
    · rw [List.mem_singleton.mp hq]
      exact ⟨m, monthNumber_nonneg hp, hp⟩

/-- Under the name of a month there is the partition of that month. -/
theorem Monthly.isMonth_of_name {m : Int} {p : Partition} (h : Monthly db) (hp : p.IsMonth m)
    (hname : p.name ∈ db.map Partition.name) : ∃ q ∈ db, q.IsMonth m := by
  obtain ⟨q, hq, heq⟩ := List.mem_map.mp hname
  obtain ⟨m', hm', hmonth⟩ := h.months q hq
  rw [hmonth.name, hp.name] at heq
  obtain rfl := monthName_injective hm' (monthNumber_nonneg hp) heq
  exact ⟨q, hq, hmonth⟩

theorem ensureLoop_cons (offset : Int) : ensureLoop fails now (offset :: offsets) db created =
    match partitionAt now offset with
    | none => (db, none)
    | some p =>
        if p.name ∈ db.map Partition.name ∨ fails p.name = true then
          ensureLoop fails now offsets db created
        else ensureLoop fails now offsets (db ++ [p]) (created ++ [p.name]) :=
  rfl

/-- Whatever fails, the loop leaves one partition a month, and all that were there. -/
theorem ensureLoop_monthly (h : Monthly db) :
    Monthly (ensureLoop fails now offsets db created).1 ∧
      db ⊆ (ensureLoop fails now offsets db created).1 := by
  induction offsets generalizing db created with
  | nil => exact ⟨h, List.Subset.refl db⟩
  | cons offset offsets ih =>
      rw [ensureLoop_cons]
      cases hp : partitionAt now offset with
      | none => exact ⟨h, List.Subset.refl db⟩
      | some p =>
          dsimp only
          split
          · exact ih h
          · next hnew =>
              rw [not_or] at hnew
              have hmonth := monthPartition_isMonth ((partitionAt_eq _ _).symm.trans hp)
              obtain ⟨hmonthly, hsubset⟩ := ih (h.append hmonth hnew.1)
              exact ⟨hmonthly, fun q hq => hsubset (List.mem_append_left _ hq)⟩

/-- If no statement fails, every month of the loop has its partition afterwards. -/
theorem ensureLoop_covers (h : Monthly db) (hfails : ∀ name, fails name = false)
    (hexist : ∀ offset ∈ offsets, InCalendar (now.monthNumber + offset)) :
    ∀ offset ∈ offsets, ∃ p ∈ (ensureLoop fails now offsets db created).1,
      p.IsMonth (now.monthNumber + offset) := by
  induction offsets generalizing db created with
  | nil => exact List.forall_mem_nil _
  | cons offset offsets ih =>
      rw [List.forall_mem_cons] at hexist
      obtain ⟨p, hp⟩ := exists_monthPartition hexist.1
      have hmonth := monthPartition_isMonth hp
      rw [ensureLoop_cons, partitionAt_eq, hp]
      dsimp only
      split
      · next hthere =>
          rw [hfails, or_iff_left Bool.false_ne_true] at hthere
          obtain ⟨q, hq, hqmonth⟩ := h.isMonth_of_name hmonth hthere
          exact List.forall_mem_cons.mpr
            ⟨⟨q, (ensureLoop_monthly h).2 hq, hqmonth⟩, ih h hexist.2⟩
      · next hnew =>
          rw [not_or] at hnew
          have hdb := h.append hmonth hnew.1
          exact List.forall_mem_cons.mpr
            ⟨⟨p, (ensureLoop_monthly hdb).2 (by simp), hmonth⟩, ih hdb hexist.2⟩

end database

/-- Calls at any dates, of which some statements fail. -/
def maintain (calls : List (CalendarDate × Int × (PyStr → Bool))) (db : List Partition) :
    List Partition :=
  calls.foldl (fun db call => (ensurePartitions call.2.2 call.1 call.2.1 db).1) db

/-- No sequence of calls makes two partitions for a month, or one with the range of another. -/
theorem maintain_monthly {calls : List (CalendarDate × Int × (PyStr → Bool))}
    {db : List Partition} (h : Monthly db) : Monthly (maintain calls db) := by
  induction calls generalizing db with
  | nil => exact h
  | cons call calls ih => exact ih (ensureLoop_monthly h).1

/-- After a call in which nothing fails there is a partition for today and for every day up to
the end of the last month. -/
theorem ensurePartitions_covers {fails : PyStr → Bool} {now : CalendarDate} {n : Nat}
    {db : List Partition} (h : Monthly db) (hfails : ∀ name, fails name = false)
    (hexist : MonthsExist now n) (d : CalendarDate) (hlow : now.monthNumber - 1 ≤ d.monthNumber)
    (hhigh : d.monthNumber ≤ now.monthNumber + n) :
    ∃ p ∈ (ensurePartitions fails now n db).1, p.startDate ≤ d ∧ d < p.endDate := by
  have hoffset : d.monthNumber - now.monthNumber ∈ pyRange (-1) (n + 1) := by
    refine List.mem_map.mpr ⟨(d.monthNumber - now.monthNumber + 1).toNat, ?_, by omega⟩
    rw [List.mem_range]
    omega
  obtain ⟨p, hp, hmonth⟩ :=
    ensureLoop_covers h hfails (inCalendar_of_mem_pyRange hexist) _ hoffset
  refine ⟨p, hp, (hmonth.contains_iff d).mpr ?_⟩
  omega

end AkesoDlp.Server.Maintenance
