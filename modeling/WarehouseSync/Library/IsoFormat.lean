import WarehouseSync.Library.DecimalText
import Mathlib.Tactic.Ring

namespace WarehouseSync
namespace IsoFormat

open DecimalText

/-!
# ISO texts of dates, wall-clock times and offsets

The value types carry the ranges of their fields, so only calendar dates and
clock times can be built.  `isoformat` writes one shape: it leaves a zero fraction
out of a time, and zero seconds out of an offset.  `fromisoformat` reads far more
than that, since Python 3.11: dates without separators and dates by week and
weekday, times that stop after the hour or the minute, fractions of any length
after a point or a comma, the zone `Z`, and any character between date and time.
What it reads is described here case by case, because a text in a database need not
be one that `isoformat` wrote.  Every value is read back unchanged.
-/

def isLeap (year : Nat) : Bool :=
  year % 4 == 0 && (year % 100 != 0 || year % 400 == 0)

def daysInMonth (year month : Nat) : Nat :=
  if month = 2 then if isLeap year then 29 else 28
  else if month = 4 ∨ month = 6 ∨ month = 9 ∨ month = 11 then 30
  else 31

def daysInYear (year : Nat) : Nat :=
  if isLeap year then 366 else 365

/-- A day of the proleptic Gregorian calendar.  The bounds are those of Python's
`date`, so a value can always be written with four digits of the year. -/
structure Date where
  year : Nat
  month : Nat
  day : Nat
  inRange : 1 ≤ year ∧ year ≤ 9999 ∧ 1 ≤ month ∧ month ≤ 12 ∧
    1 ≤ day ∧ day ≤ daysInMonth year month
deriving DecidableEq, Repr

/-- The fields of a time of day or of an offset, not yet checked.  Their bounds
depend on which of the two it is. -/
structure Clock where
  hour : Nat
  minute : Nat
  second : Nat
  microsecond : Nat
deriving DecidableEq, Repr

/-- A wall-clock time, in no particular zone.  Two of them can be compared, but say
nothing of an instant. -/
structure DateTime where
  date : Date
  clock : Clock
  inRange : clock.hour < 24 ∧ clock.minute < 60 ∧ clock.second < 60 ∧
    clock.microsecond < 1000000
deriving DecidableEq, Repr

/-- A difference to UTC in microseconds, of less than a day.  One of less than a
second, other than none, is left out: no zone has it, and `fromisoformat` reads the
text of such an offset as UTC. -/
structure Offset where
  micros : Int
  inRange : -86400000000 < micros ∧ micros < 86400000000 ∧ (micros = 0 ∨ 1000000 ≤ micros.natAbs)
deriving DecidableEq, Repr

/-- A wall-clock time together with its offset to UTC.  Different values may be the
same instant, and they are written differently. -/
structure AwareDateTime where
  wall : DateTime
  offset : Offset
deriving DecidableEq, Repr

def utc : Offset :=
  { micros := 0, inRange := by decide }

def Date.make (year month day : Nat) : Option Date :=
  if inRange : 1 ≤ year ∧ year ≤ 9999 ∧ 1 ≤ month ∧ month ≤ 12 ∧
      1 ≤ day ∧ day ≤ daysInMonth year month then
    some { year := year, month := month, day := day, inRange := inRange }
  else none

def DateTime.make (date : Date) (clock : Clock) : Option DateTime :=
  if inRange : clock.hour < 24 ∧ clock.minute < 60 ∧ clock.second < 60 ∧
      clock.microsecond < 1000000 then
    some { date := date, clock := clock, inRange := inRange }
  else none

def Offset.make (micros : Int) : Option Offset :=
  if inRange : -86400000000 < micros ∧ micros < 86400000000 ∧ (micros = 0 ∨ 1000000 ≤ micros.natAbs) then
    some { micros := micros, inRange := inRange }
  else none

def DateTime.midnight (date : Date) : DateTime :=
  { date := date, clock := { hour := 0, minute := 0, second := 0, microsecond := 0 }
    inRange := by decide }

/-- The length of a clock reading in microseconds. -/
def Clock.micros (clock : Clock) : Nat :=
  ((clock.hour * 60 + clock.minute) * 60 + clock.second) * 1000000 + clock.microsecond

/-- The clock reading of a length in microseconds. -/
def Clock.ofMicros (micros : Nat) : Clock :=
  { hour := micros / 3600000000
    minute := micros / 60000000 % 60
    second := micros / 1000000 % 60
    microsecond := micros % 1000000 }

theorem Clock.micros_ofMicros (micros : Nat) : (Clock.ofMicros micros).micros = micros := by
  simp only [Clock.micros, Clock.ofMicros]
  omega

/-- The number of the day, counting from the first day of year 1.  Days are compared
by it. -/
def Date.toordinal (date : Date) : Int :=
  let before := date.year - 1
  let earlierMonths := (List.range (date.month - 1)).map (fun month => daysInMonth date.year (month + 1))
  before * 365 + before / 4 - before / 100 + before / 400 + earlierMonths.sum + date.day

/-- Microseconds on the time line of the wall clock.  Arithmetic on naive times is
arithmetic on this number. -/
def DateTime.micros (time : DateTime) : Int :=
  time.date.toordinal * 86400000000 + time.clock.micros

/-- Microseconds on the time line of UTC.  Aware times are compared by it, whatever
their offsets are. -/
def AwareDateTime.instant (time : AwareDateTime) : Int :=
  time.wall.micros - time.offset.micros

/-- The days of the years 1 to 9999; arithmetic that leaves them is an `OverflowError`. -/
def Date.fits (ordinal : Int) : Bool :=
  1 ≤ ordinal && ordinal ≤ 3652059

/-- The times of day of the years 1 to 9999. -/
def DateTime.fits (micros : Int) : Bool :=
  Date.fits (micros / 86400000000)

/-- The days of a whole year, month by month. -/
theorem sum_daysInMonth (year : Nat) :
    ((List.range 11).map (fun month => daysInMonth year (month + 1))).sum + 31 = daysInYear year := by
  simp [List.range_succ, daysInMonth, daysInYear]
  split <;> rfl

/-- A leap day in every fourth year, but not in every hundredth, but in every four
hundredth again. -/
theorem daysInYear_succ (before : Nat) : (daysInYear (before + 1) : Int) = 365 +
    (((before : Int) + 1) / 4 - before / 4) - (((before : Int) + 1) / 100 - before / 100) +
      (((before : Int) + 1) / 400 - before / 400) := by
  unfold daysInYear isLeap
  simp only [Bool.and_eq_true, Bool.or_eq_true, beq_iff_eq, bne_iff_ne, ne_eq]
  split <;> omega

/-- The days before a year. -/
def daysBefore (year : Int) : Int :=
  (year - 1) * 365 + (year - 1) / 4 - (year - 1) / 100 + (year - 1) / 400

theorem toordinal_newYear (date : Date) (first : date.month = 1 ∧ date.day = 1) :
    date.toordinal = daysBefore date.year + 1 := by
  rcases date with ⟨year, month, day, inRange⟩
  rcases first with ⟨rfl, rfl⟩
  have positive : ((year - 1 : Nat) : Int) = year - 1 := by omega
  simp only [Date.toordinal, Nat.sub_self, List.range_zero, List.map_nil, List.sum_nil, positive, daysBefore]
  push_cast
  ring

theorem toordinal_yearEnd (date : Date) (last : date.month = 12 ∧ date.day = 31) :
    date.toordinal = daysBefore (date.year + 1) := by
  have whole := sum_daysInMonth date.year
  rcases date with ⟨year, month, day, inRange⟩
  rcases last with ⟨rfl, rfl⟩
  rcases Nat.exists_eq_add_of_le' inRange.1 with ⟨before, rfl⟩
  have length := daysInYear_succ before
  simp only [Date.toordinal, Nat.add_sub_cancel, Nat.reduceSub, daysBefore] at whole ⊢
  generalize ((List.range 11).map (fun month => daysInMonth (before + 1) (month + 1))).sum = earlier at whole ⊢
  generalize daysInYear (before + 1) = total at whole length
  push_cast
  omega

/-- The last day of a year is followed by the first of the next, if the calendar goes on. -/
theorem exists_newYear (date : Date) (last : date.month = 12 ∧ date.day = 31)
    (later : date.toordinal < 3652059) : Exists fun next : Date => next.toordinal = date.toordinal + 1 := by
  rw [toordinal_yearEnd date last] at later ⊢
  have inCalendar : date.year + 1 ≤ 9999 := by
    unfold daysBefore at later
    omega
  have january : 1 ≤ daysInMonth (date.year + 1) 1 := by
    simp [daysInMonth]
  exact ⟨⟨date.year + 1, 1, 1, Nat.succ_pos _, inCalendar, le_refl _, by decide, le_refl _, january⟩,
    toordinal_newYear _ ⟨rfl, rfl⟩⟩

/-- After every day but the last of year 9999 comes another. -/
theorem exists_next (date : Date) (later : date.toordinal < 3652059) :
    Exists fun next : Date => next.toordinal = date.toordinal + 1 := by
  rcases date with ⟨year, month, day, inRange⟩
  rcases inRange with ⟨firstYear, lastYear, firstMonth, lastMonth, firstDay, lastDay⟩
  by_cases within : day + 1 ≤ daysInMonth year month
  · refine ⟨⟨year, month, day + 1, firstYear, lastYear, firstMonth, lastMonth, Nat.succ_pos _, within⟩, ?_⟩
    simp only [Date.toordinal]
    push_cast
    ring
  · have ends : day = daysInMonth year month := by omega
    by_cases inYear : month < 12
    · have first : 1 ≤ daysInMonth year (month + 1) := by
        unfold daysInMonth
        split
        · split <;> omega
        · split <;> omega
      refine ⟨⟨year, month + 1, 1, firstYear, lastYear, by omega, inYear, le_refl _, first⟩, ?_⟩
      rcases Nat.exists_eq_add_of_le' firstMonth with ⟨before, rfl⟩
      simp only [Date.toordinal, Nat.add_sub_cancel, List.range_succ, List.map_append, List.map_singleton,
        List.sum_append, List.sum_singleton, ends]
      push_cast
      ring
    · have december : month = 12 := by omega
      subst december
      exact exists_newYear _ ⟨rfl, ends⟩ later

/-- Every number of a day in the calendar is the number of a date. -/
theorem exists_toordinal {ordinal : Int} (fits : Date.fits ordinal = true) :
    Exists fun date : Date => date.toordinal = ordinal := by
  have bounds : 1 ≤ ordinal ∧ ordinal ≤ 3652059 := by simpa [Date.fits] using fits
  have reached : forall steps : Nat, (steps : Int) + 1 ≤ 3652059 ->
      Exists fun date : Date => date.toordinal = steps + 1 := by
    intro steps
    induction steps with
    | zero => exact fun _ => ⟨⟨1, 1, 1, by decide⟩, rfl⟩
    | succ steps ih =>
        intro within
        rcases ih (by omega) with ⟨date, numbered⟩
        rcases exists_next date (by omega) with ⟨next, follows⟩
        exact ⟨next, by rw [follows, numbered]; rfl⟩
  rcases reached (ordinal - 1).toNat (by omega) with ⟨date, numbered⟩
  exact ⟨date, by omega⟩

/-- Every microsecond of the calendar is some time on the wall clock. -/
theorem exists_micros {micros : Int} (fits : DateTime.fits micros = true) :
    Exists fun time : DateTime => time.micros = micros := by
  rcases exists_toordinal fits with ⟨date, numbered⟩
  have length := Clock.micros_ofMicros (micros % 86400000000).toNat
  have inRange : (micros % 86400000000).toNat < 86400000000 := by omega
  have short : (Clock.ofMicros (micros % 86400000000).toNat).hour < 24 ∧
      (Clock.ofMicros (micros % 86400000000).toNat).minute < 60 ∧
      (Clock.ofMicros (micros % 86400000000).toNat).second < 60 ∧
      (Clock.ofMicros (micros % 86400000000).toNat).microsecond < 1000000 := by
    simp only [Clock.ofMicros]
    omega
  refine ⟨{ date := date, clock := Clock.ofMicros (micros % 86400000000).toNat, inRange := short }, ?_⟩
  simp only [DateTime.micros, numbered, length]
  omega

def Date.isoformat (date : Date) : List Char :=
  pad 4 date.year ++ '-' :: (pad 2 date.month ++ '-' :: pad 2 date.day)

/-- A clock reading; a zero fraction is left out, and so are the seconds when
they are not wanted. -/
def clockText (withSeconds : Bool) (clock : Clock) : List Char :=
  pad 2 clock.hour ++ ':' :: (pad 2 clock.minute ++
    if withSeconds then
      ':' :: (pad 2 clock.second ++
        if clock.microsecond = 0 then [] else '.' :: pad 6 clock.microsecond)
    else [])

def DateTime.isoformat (time : DateTime) : List Char :=
  time.date.isoformat ++ 'T' :: clockText true time.clock

/-- A sign and a clock reading.  Seconds are only written when there are any, as for
offsets of local mean time. -/
def Offset.isoformat (offset : Offset) : List Char :=
  let clock := Clock.ofMicros offset.micros.natAbs
  (if offset.micros < 0 then '-' else '+') ::
    clockText (clock.second != 0 || clock.microsecond != 0) clock

def AwareDateTime.isoformat (time : AwareDateTime) : List Char :=
  time.wall.isoformat ++ time.offset.isoformat

/-! ## Reading -/

/-- The bytes of a text in UTF-8, each as one character.  `fromisoformat` measures
and cuts its text in bytes, which shows when a character beyond ASCII separates
the date from the time. -/
def bytes (text : List Char) : List Char :=
  (text.flatMap String.utf8EncodeChar).map (fun byte => Char.ofNat byte.toNat)

/-- The bytes of the character that starts with this one. -/
def charWidth (first : Char) : Nat :=
  if first.toNat < 0x80 then 1
  else if first.toNat / 16 = 0xE then 3
  else if first.toNat / 16 = 0xF then 4
  else 2

/-- The weekday of the first of January, with 0 for Monday. -/
def firstWeekday (year : Nat) : Nat :=
  let before := year - 1
  (before * 365 + before / 4 - before / 100 + before / 400) % 7

/-- The date with a number in its year, in the one month in which such a day exists.
All months are tried, since at most one of them has the day. -/
def Date.ofDayOfYear (year day : Nat) : Option Date :=
  (List.range 12).findSome? (fun month =>
    Date.make year (month + 1)
      (day - ((List.range month).map (fun earlier => daysInMonth year (earlier + 1))).sum))

/-- `fromisocalendar`: the first week of a year is the one with its first Thursday,
so the first days of a year and the last ones may belong to a week of the other. -/
def Date.ofWeek (year week day : Nat) : Option Date :=
  let weekday := firstWeekday year
  let long := weekday = 3 ∨ (weekday = 2 ∧ isLeap year = true)
  if ¬ (1 ≤ year ∧ year ≤ 9999 ∧ 1 ≤ week ∧ (week ≤ 52 ∨ (week = 53 ∧ long)) ∧ 1 ≤ day ∧ day ≤ 7) then none
  else
    let monday : Int := if weekday ≤ 3 then 1 - weekday else 8 - weekday
    let number : Int := monday + (week - 1) * 7 + (day - 1)
    if number < 1 then Date.ofDayOfYear (year - 1) (number + daysInYear (year - 1)).toNat
    else if number ≤ daysInYear year then Date.ofDayOfYear year number.toNat
    else Date.ofDayOfYear (year + 1) (number - daysInYear year).toNat

/-- The week and the day after a `W`; a week alone is its Monday.  The day is
separated just as the week is. -/
def readWeek (separated : Bool) (year : Nat) (text : List Char) : Option Date := do
  let (week, text) <- readFixed 2 text
  if text = [] then Date.ofWeek year week 1
  else do
    let text <- if separated then readChar '-' text else some text
    let (day, _) <- readFixed 1 text
    Date.ofWeek year week day

def readMonthDay (separated : Bool) (year : Nat) (text : List Char) : Option Date := do
  let (month, text) <- readFixed 2 text
  let text <- if separated then readChar '-' text else some text
  let (day, _) <- readFixed 2 text
  Date.make year month day

/-- `parse_isoformat_date`, on a text that has been cut to a length of a date.  What
stands after the fields that were read is not looked at. -/
def readDate (text : List Char) : Option Date := do
  let (year, text) <- readFixed 4 text
  let (separated, text) := match readChar '-' text with
    | some text => (true, text)
    | none => (false, text)
  match readChar 'W' text with
  | some text => readWeek separated year text
  | none => readMonthDay separated year text

def digitAt (text : List Char) (place : Nat) : Bool :=
  (text[place]?).any Char.isDigit

/-- `_find_isoformat_datetime_separator`: how long the date at the front of a text
is.  After a year and a week it depends on the digits that follow, since they may
be a weekday or already the hour. -/
def separatorPlace (text : List Char) : Option Nat :=
  if text.length = 7 then some 7
  else if text[4]? = some '-' then
    if text[5]? = some 'W' then
      if text[8]? = some '-' then
        if text.length = 9 then none
        else if digitAt text 10 then some 8
        else some 10
      else some 8
    else some 10
  else if text[4]? = some 'W' then
    let stop := 7 + ((text.drop 7).takeWhile Char.isDigit).length
    if stop < 9 then some stop
    else if stop % 2 = 0 then some 7
    else some 8
  else some 8

/-- A fraction in microseconds, and whether something other than digits follows
it.  Digits after the sixth are skipped. -/
def readFraction (text : List Char) : Option (Nat × Bool) := do
  let width := min 6 text.length
  let (value, text) <- readFixed width text
  some (value * 10 ^ (6 - width), text.dropWhile Char.isDigit != [])

/-- The next parts of a time, of two digits each, and its fraction.  A single
character after a part ends the time; it is reported and left to the caller. -/
def readParts (separated : Bool) : Nat -> List Char -> Option (List Nat × Nat × Bool)
  | 0, text => (readFraction text).map (fun (micros, leftover) => ([], micros, leftover))
  | count + 1, text => do
      let (value, text) <- readFixed 2 text
      match text with
      | [] => some ([value], 0, false)
      | [_] => some ([value], 0, true)
      | mark :: next :: rest =>
          let following :=
            if separated = true ∧ mark = ':' then readParts separated count (next :: rest)
            else if mark = '.' ∨ mark = ',' then
              (readFraction (next :: rest)).map (fun (micros, leftover) => ([], micros, leftover))
            else if separated = true then none
            else readParts separated count (mark :: next :: rest)
          following.map (fun (values, micros, leftover) => (value :: values, micros, leftover))

/-- `parse_hh_mm_ss_ff`: a clock reading and whether something follows it.  The
colons are wanted everywhere if one stands after the hour. -/
def readClock (text : List Char) : Option (Clock × Bool) := do
  let (parts, micros, leftover) <- readParts (text[2]? == some ':') 3 text
  some ({ hour := parts.getD 0 0, minute := parts.getD 1 0, second := parts.getD 2 0, microsecond := micros },
    leftover)

/-- The offset of a sign and a clock reading.  One of less than a second is read as
UTC. -/
def signedOffset (sign : Char) (clock : Clock) : Option Offset :=
  if clock.micros < 1000000 then some utc
  else if sign = '-' then Offset.make (-clock.micros)
  else Offset.make clock.micros

def isZoneMark (char : Char) : Bool :=
  char == '+' || char == '-' || char == 'Z'

/-- The zone of a time, from its mark on.  A character left over from the clock is
forgotten when a zone follows it. -/
def readZone (leftover : Bool) : List Char -> Option (Option Offset)
  | [] => if leftover then none else some none
  | 'Z' :: text => if text = [] then some (some utc) else none
  | sign :: text =>
      match readClock text with
      | some (clock, false) => (signedOffset sign clock).map some
      | _ => none

/-- A date on its own has one of three lengths: with separators, without them, or as
a week. -/
def Date.fromisoformat (text : List Char) : Option Date :=
  if (bytes text).length = 7 ∨ (bytes text).length = 8 ∨ (bytes text).length = 10 then readDate (bytes text)
  else none

/-- A date, any one character, and a time with or without a zone.  A text that is
only a date is its midnight. -/
def DateTime.fromisoformat (text : List Char) : Option (DateTime × Option Offset) :=
  if (bytes text).length < 7 then none
  else do
    let place <- separatorPlace (bytes text)
    let date <- readDate ((bytes text).take place)
    match (bytes text).drop place with
    | [] => some (DateTime.midnight date, none)
    | separator :: rest => do
        let text := (separator :: rest).drop (charWidth separator)
        let (clock, leftover) <- readClock (text.takeWhile (fun char => !isZoneMark char))
        let time <- DateTime.make date clock
        let offset <- readZone leftover (text.dropWhile (fun char => !isZoneMark char))
        some (time, offset)

def separators : List Char :=
  ['-', ':', 'T', '.', '+']

theorem Date.isoformat_char {date : Date} {char : Char} (member : char ∈ date.isoformat) :
    char.isDigit = true ∨ char ∈ separators := by
  rcases List.mem_append.mp member with year | rest
  · exact Or.inl (isDigit_of_mem_pad year)
  · rcases List.mem_cons.mp rest with rfl | rest
    · exact Or.inr (by decide)
    · rcases List.mem_append.mp rest with month | rest
      · exact Or.inl (isDigit_of_mem_pad month)
      · rcases List.mem_cons.mp rest with rfl | day
        · exact Or.inr (by decide)
        · exact Or.inl (isDigit_of_mem_pad day)

theorem clockText_char {withSeconds : Bool} {clock : Clock} {char : Char}
    (member : char ∈ clockText withSeconds clock) : char.isDigit = true ∨ char ∈ [':', '.'] := by
  rcases List.mem_append.mp member with hour | rest
  · exact Or.inl (isDigit_of_mem_pad hour)
  · rcases List.mem_cons.mp rest with rfl | rest
    · exact Or.inr (by decide)
    · rcases List.mem_append.mp rest with minute | rest
      · exact Or.inl (isDigit_of_mem_pad minute)
      · split at rest
        · rcases List.mem_cons.mp rest with rfl | rest
          · exact Or.inr (by decide)
          · rcases List.mem_append.mp rest with second | rest
            · exact Or.inl (isDigit_of_mem_pad second)
            · split at rest
              · cases rest
              · rcases List.mem_cons.mp rest with rfl | fraction
                · exact Or.inr (by decide)
                · exact Or.inl (isDigit_of_mem_pad fraction)
        · cases rest

theorem mem_separators {char : Char} (member : char ∈ [':', '.']) : char ∈ separators := by
  rcases List.mem_cons.mp member with rfl | member
  · decide
  · rw [List.mem_singleton.mp member]
    decide

theorem Offset.isoformat_char {offset : Offset} {char : Char} (member : char ∈ offset.isoformat) :
    char.isDigit = true ∨ char ∈ separators := by
  rcases List.mem_cons.mp member with rfl | rest
  · right
    split
    · decide
    · decide
  · exact (clockText_char rest).imp_right mem_separators

theorem DateTime.isoformat_char {time : DateTime} {char : Char} (member : char ∈ time.isoformat) :
    char.isDigit = true ∨ char ∈ separators := by
  rcases List.mem_append.mp member with date | rest
  · exact Date.isoformat_char date
  · rcases List.mem_cons.mp rest with rfl | clock
    · exact Or.inr (by decide)
    · exact (clockText_char clock).imp_right mem_separators

theorem AwareDateTime.isoformat_char {time : AwareDateTime} {char : Char} (member : char ∈ time.isoformat) :
    char.isDigit = true ∨ char ∈ separators := by
  rcases List.mem_append.mp member with wall | offset
  · exact DateTime.isoformat_char wall
  · exact Offset.isoformat_char offset

theorem ascii_of_separator {char : Char} (member : char ∈ separators) : char.toNat ≤ 127 := by
  have ascii : separators.all (fun char => decide (char.toNat ≤ 127)) = true := by decide
  exact of_decide_eq_true (List.all_eq_true.mp ascii char member)

/-- A text of digits and separators is its own text of bytes. -/
theorem bytes_of_char {text : List Char}
    (written : forall char, char ∈ text -> char.isDigit = true ∨ char ∈ separators) : bytes text = text := by
  induction text with
  | nil => rfl
  | cons char text ih =>
      have ascii : char.toNat ≤ 127 := by
        rcases written char List.mem_cons_self with digit | separator
        · exact le_trans (toNat_of_isDigit digit).2 (by decide)
        · exact ascii_of_separator separator
      have rest := ih (fun other member => written other (List.mem_cons_of_mem _ member))
      unfold bytes at rest ⊢
      have alone : String.utf8EncodeChar char = [UInt8.ofNat char.toNat] := by
        unfold String.utf8EncodeChar
        exact if_pos ascii
      have same : Char.ofNat (UInt8.ofNat char.toNat).toNat = char := by
        rw [UInt8.toNat_ofNat', Nat.mod_eq_of_lt (by omega), Char.ofNat_toNat]
      rw [List.flatMap_cons, List.map_append, rest, alone, List.map_singleton, same, List.singleton_append]

/-! ## Round trips -/

theorem daysInMonth_le (year month : Nat) : daysInMonth year month ≤ 31 := by
  unfold daysInMonth
  split <;> split <;> omega

theorem Date.make_fields (date : Date) : Date.make date.year date.month date.day = some date := by
  rw [Date.make, dif_pos date.inRange]

theorem DateTime.make_fields (time : DateTime) : DateTime.make time.date time.clock = some time := by
  rw [DateTime.make, dif_pos time.inRange]

theorem length_isoformat (date : Date) : date.isoformat.length = 10 := by
  simp [Date.isoformat]

theorem readDate_isoformat (date : Date) : readDate date.isoformat = some date := by
  have range := date.inRange
  have short := daysInMonth_le date.year date.month
  have year : date.year < 10 ^ 4 := by omega
  have month : date.month < 10 ^ 2 := by omega
  have day := @readFixed_pad 2 date.day (by omega) []
  rw [List.append_nil] at day
  have noWeek (rest : List Char) : readChar 'W' (pad 2 date.month ++ rest) = none := by
    have digit : (Nat.digitChar (date.month / 10 % 10)).isDigit = true := by
      rw [Nat.isDigit_digitChar]
      exact decide_eq_true (Nat.mod_lt _ (by decide))
    refine if_neg (fun same => ?_)
    rw [same] at digit
    cases digit
  simp only [readDate, Date.isoformat, readFixed_pad year, readChar_cons, bind, Option.bind_some, noWeek,
    readMonthDay, readFixed_pad month, if_true, day, Date.make_fields]

/-- A date with dashes is ten characters long, whatever follows it. -/
theorem separatorPlace_isoformat (date : Date) (rest : List Char) :
    separatorPlace (date.isoformat ++ rest) = some 10 := by
  have long : (date.isoformat ++ rest).length ≠ 7 := by
    rw [List.length_append, length_isoformat]
    omega
  have month : (date.isoformat ++ rest)[5]? = some (Nat.digitChar (date.month / 10 % 10)) := by
    simp [Date.isoformat, pad]
  have dash : (date.isoformat ++ rest)[4]? = some '-' := by
    simp [Date.isoformat, pad]
  have noWeek : (date.isoformat ++ rest)[5]? ≠ some 'W' := by
    have digit : (Nat.digitChar (date.month / 10 % 10)).isDigit = true := by
      rw [Nat.isDigit_digitChar]
      exact decide_eq_true (Nat.mod_lt _ (by decide))
    rw [month]
    intro same
    rw [Option.some.inj same] at digit
    cases digit
  rw [separatorPlace, if_neg long, if_pos dash, if_neg noWeek]

section Parts
variable {value : Nat}

theorem readParts_last (fits : value < 10 ^ 2) (count : Nat) :
    readParts true (count + 1) (pad 2 value) = some ([value], 0, false) := by
  have read := readFixed_pad fits []
  rw [List.append_nil] at read
  simp only [readParts, read, bind, Option.bind_some]

/-- A part before a colon is followed by the parts after it. -/
theorem readParts_colon (fits : value < 10 ^ 2) (count next : Nat) (rest : List Char) :
    readParts true (count + 1) (pad 2 value ++ ':' :: (pad 2 next ++ rest)) =
      (readParts true count (pad 2 next ++ rest)).map (fun (values, micros, leftover) =>
        (value :: values, micros, leftover)) := by
  have start : pad 2 next ++ rest =
      Nat.digitChar (next / 10 % 10) :: Nat.digitChar (next % 10) :: rest := rfl
  rw [start, readParts, readFixed_pad fits]
  simp only [bind, Option.bind_some, and_self, if_true]

theorem readParts_fraction (fits : value < 10 ^ 2) {micros : Nat} (short : micros < 10 ^ 6) (count : Nat) :
    readParts true (count + 1) (pad 2 value ++ '.' :: pad 6 micros) = some ([value], micros, false) := by
  have read := readFixed_pad short []
  rw [List.append_nil] at read
  have fraction : readFraction (pad 6 micros) = some (micros, false) := by
    simp [readFraction, read]
  have start : Exists fun digit : Char => Exists fun second : Char => Exists fun rest : List Char =>
      pad 6 micros = digit :: second :: rest := ⟨_, _, _, rfl⟩
  rcases start with ⟨digit, second, rest, start⟩
  rw [start] at fraction
  rw [start, readParts, readFixed_pad fits]
  simp [fraction]

end Parts

/-- A clock reading with two digits for each part is read back. -/
theorem readClock_clockText {clock : Clock} {withSeconds : Bool}
    (fits : clock.hour < 100 ∧ clock.minute < 100 ∧ clock.second < 100 ∧
      clock.microsecond < 1000000)
    (whole : withSeconds = false -> clock.second = 0 ∧ clock.microsecond = 0) :
    readClock (clockText withSeconds clock) = some (clock, false) := by
  rcases clock with ⟨hour, minute, second, microsecond⟩
  rcases fits with ⟨hourFits, minuteFits, secondFits, fractionFits⟩
  simp only at hourFits minuteFits secondFits fractionFits whole
  have colon (rest : List Char) : (pad 2 hour ++ ':' :: rest)[2]? = some ':' := by
    simp [pad]
  cases withSeconds with
  | false =>
      rcases whole rfl with ⟨noSecond, noFraction⟩
      subst noSecond noFraction
      have parts : readParts true 3 (pad 2 hour ++ ':' :: (pad 2 minute ++ [])) =
          some ([hour, minute], 0, false) := by
        rw [readParts_colon hourFits, List.append_nil, readParts_last minuteFits]
        rfl
      simp only [readClock, clockText, Bool.false_eq_true, if_false, colon, beq_self_eq_true, parts]
      rfl
  | true =>
      by_cases noFraction : microsecond = 0
      · subst noFraction
        have parts : readParts true 3 (pad 2 hour ++ ':' :: (pad 2 minute ++ ':' :: (pad 2 second ++ []))) =
            some ([hour, minute, second], 0, false) := by
          rw [readParts_colon hourFits, readParts_colon minuteFits, List.append_nil, readParts_last secondFits]
          rfl
        simp only [readClock, clockText, if_true, colon, beq_self_eq_true, parts]
        rfl
      · have parts : readParts true 3 (pad 2 hour ++ ':' :: (pad 2 minute ++ ':' ::
            (pad 2 second ++ '.' :: pad 6 microsecond))) = some ([hour, minute, second], microsecond, false) := by
          rw [readParts_colon hourFits, readParts_colon minuteFits, readParts_fraction secondFits fractionFits]
          rfl
        simp only [readClock, clockText, if_true, if_neg noFraction, colon, beq_self_eq_true, parts]
        rfl

theorem Clock.ofMicros_fits {micros : Nat} (short : micros < 86400000000) :
    (Clock.ofMicros micros).hour < 100 ∧ (Clock.ofMicros micros).minute < 100 ∧
      (Clock.ofMicros micros).second < 100 ∧ (Clock.ofMicros micros).microsecond < 1000000 := by
  simp only [Clock.ofMicros]
  omega

theorem Offset.make_micros (offset : Offset) : Offset.make offset.micros = some offset := by
  rw [Offset.make, dif_pos offset.inRange]

theorem eq_of_natAbs {magnitude : Nat} {value : Int} (nonnegative : ¬ value < 0)
    (length : magnitude = value.natAbs) : (magnitude : Int) = value := by
  rw [length, Int.natAbs_of_nonneg (not_lt.mp nonnegative)]

theorem neg_of_natAbs {magnitude : Nat} {value : Int} (negative : value < 0)
    (length : magnitude = value.natAbs) : -(magnitude : Int) = value := by
  rw [length, Int.ofNat_natAbs_of_nonpos (le_of_lt negative), neg_neg]

/-- The sign and the length of an offset are the offset, and no length but zero is
taken for UTC. -/
theorem signedOffset_micros {offset : Offset} {clock : Clock}
    (length : clock.micros = offset.micros.natAbs) :
    signedOffset (if offset.micros < 0 then '-' else '+') clock = some offset := by
  have range := offset.inRange
  by_cases none : offset.micros = 0
  · have short : clock.micros < 1000000 := by omega
    rcases offset with ⟨micros, inRange⟩
    cases none
    exact if_pos short
  · have long : ¬ clock.micros < 1000000 := by omega
    by_cases negative : offset.micros < 0
    · rw [if_pos negative, signedOffset, if_neg long, if_pos rfl, neg_of_natAbs negative length,
        Offset.make_micros]
    · rw [if_neg negative, signedOffset, if_neg long, if_neg (by decide), eq_of_natAbs negative length,
        Offset.make_micros]

theorem readZone_isoformat (offset : Offset) : readZone false offset.isoformat = some (some offset) := by
  have range := offset.inRange
  have short : offset.micros.natAbs < 86400000000 := by omega
  have length := Clock.micros_ofMicros offset.micros.natAbs
  have fits := Clock.ofMicros_fits short
  rw [Offset.isoformat]
  generalize Clock.ofMicros offset.micros.natAbs = clock at length fits
  have whole : (clock.second != 0 || clock.microsecond != 0) = false ->
      clock.second = 0 ∧ clock.microsecond = 0 := by simp
  have noZ : (if offset.micros < 0 then '-' else '+') ≠ 'Z' := by
    split
    · decide
    · decide
  have signed := signedOffset_micros length
  generalize (if offset.micros < 0 then '-' else '+') = sign at noZ signed
  rw [readZone]
  · simp only [readClock_clockText fits whole, signed, Option.map_some]
  · exact noZ

theorem readClock_time (time : DateTime) : readClock (clockText true time.clock) = some (time.clock, false) := by
  have range := time.inRange
  exact readClock_clockText (by omega) (fun no => Bool.noConfusion no)

/-- What a written time is cut into: the date, the clock reading and the zone. -/
theorem fromisoformat_parts (time : DateTime) {zone : List Char} {offset : Option Offset}
    (written : forall char, char ∈ zone -> char.isDigit = true ∨ char ∈ separators)
    (marked : forall char, zone.head? = some char -> isZoneMark char = true)
    (read : readZone false zone = some offset) :
    DateTime.fromisoformat (time.isoformat ++ zone) = some (time, offset) := by
  have plain : bytes (time.isoformat ++ zone) = time.isoformat ++ zone :=
    bytes_of_char (fun char member => (List.mem_append.mp member).elim DateTime.isoformat_char (written char))
  have whole : time.isoformat ++ zone = time.date.isoformat ++ 'T' :: (clockText true time.clock ++ zone) := by
    simp [DateTime.isoformat]
  have unmarked : forall char, char ∈ clockText true time.clock -> (!isZoneMark char) = true := by
    intro char member
    rcases clockText_char member with digit | separator
    · have range := toNat_of_isDigit digit
      cases marked : isZoneMark char with
      | false => rfl
      | true =>
          simp only [isZoneMark, Bool.or_eq_true, beq_iff_eq] at marked
          rcases marked with (rfl | rfl) | rfl
          all_goals exact absurd digit (by decide)
    · have none : [':', '.'].all (fun char => !isZoneMark char) = true := by decide
      exact List.all_eq_true.mp none char separator
  have stops : zone.takeWhile (fun char => !isZoneMark char) = [] ∧
      zone.dropWhile (fun char => !isZoneMark char) = zone := by
    cases zone with
    | nil => exact ⟨rfl, rfl⟩
    | cons char rest => simp [marked char rfl]
  have long : ¬ (time.date.isoformat ++ 'T' :: (clockText true time.clock ++ zone)).length < 7 := by
    rw [List.length_append, length_isoformat]
    omega
  have front : (time.date.isoformat ++ 'T' :: (clockText true time.clock ++ zone)).take 10 = time.date.isoformat :=
    List.take_left' (length_isoformat _)
  have back : (time.date.isoformat ++ 'T' :: (clockText true time.clock ++ zone)).drop 10 =
      'T' :: (clockText true time.clock ++ zone) :=
    List.drop_left' (length_isoformat _)
  have width : charWidth 'T' = 1 := rfl
  rw [DateTime.fromisoformat, plain, whole, if_neg long]
  simp only [separatorPlace_isoformat, bind, Option.bind_some, front, back, readDate_isoformat, width,
    List.drop_succ_cons, List.drop_zero, List.takeWhile_append_of_pos unmarked, stops.1, List.append_nil,
    List.dropWhile_append_of_pos unmarked, stops.2, readClock_time, DateTime.make_fields, read]

@[simp] theorem Date.fromisoformat_isoformat (date : Date) :
    Date.fromisoformat date.isoformat = some date := by
  have plain : bytes date.isoformat = date.isoformat := bytes_of_char (fun _ member => Date.isoformat_char member)
  rw [Date.fromisoformat, plain, if_pos (Or.inr (Or.inr (length_isoformat date))), readDate_isoformat]

@[simp] theorem DateTime.fromisoformat_isoformat (time : DateTime) :
    DateTime.fromisoformat time.isoformat = some (time, none) := by
  have read := @fromisoformat_parts time [] none (by simp) (by simp) rfl
  rwa [List.append_nil] at read

@[simp] theorem AwareDateTime.fromisoformat_isoformat (time : AwareDateTime) :
    DateTime.fromisoformat time.isoformat = some (time.wall, some time.offset) := by
  refine fromisoformat_parts time.wall (fun _ member => Offset.isoformat_char member) ?_
    (readZone_isoformat time.offset)
  intro char first
  cases first
  split
  · decide
  · decide

theorem AwareDateTime.isoformat_injective {first second : AwareDateTime} (same : first.isoformat = second.isoformat) :
    first = second := by
  have read := congrArg DateTime.fromisoformat same
  rw [fromisoformat_isoformat, fromisoformat_isoformat] at read
  cases first
  cases second
  cases read
  rfl

end IsoFormat
end WarehouseSync
