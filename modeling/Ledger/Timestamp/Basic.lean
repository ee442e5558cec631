namespace Ledger

/-- Whether a year has a 29th of February in the Gregorian calendar. -/
def isLeapYear (year : Int) : Bool :=
  year % 4 = 0 && (year % 100 ≠ 0 || year % 400 = 0)

def daysInMonth (year : Int) (month : Nat) : Nat :=
  if month = 2 then if isLeapYear year then 29 else 28
  else if month ∈ [4, 6, 9, 11] then 30
  else 31

/-- A point in time by the calendar and clock of UTC. The sixtieth second of a minute is a leap
second. -/
structure Timestamp where
  year : Int
  month : Nat
  day : Nat
  hour : Nat
  minute : Nat
  second : Nat
  nanos : Nat
deriving DecidableEq

namespace Timestamp

/-- The calendar reaches from the year -262143 to the year 262142. -/
def Valid (t : Timestamp) : Prop :=
  -262143 ≤ t.year ∧ t.year ≤ 262142 ∧ 1 ≤ t.month ∧ t.month ≤ 12 ∧
    1 ≤ t.day ∧ t.day ≤ daysInMonth t.year t.month ∧
    t.hour < 24 ∧ t.minute < 60 ∧ t.second ≤ 60 ∧ t.nanos < Nat.pow 10 9

instance (t : Timestamp) : Decidable t.Valid :=
  inferInstanceAs (Decidable (_ ∧ _))

def epoch : Timestamp :=
  ⟨1970, 1, 1, 0, 0, 0, 0⟩

instance : Inhabited Timestamp := ⟨epoch⟩

/-- A number that grows with time, leap seconds in their place. -/
def rank (t : Timestamp) : Int :=
  (((((t.year * 13 + t.month) * 32 + t.day) * 24 + t.hour) * 60 + t.minute) * 61 + t.second) *
    Int.pow 10 9 + t.nanos

instance : LE Timestamp where
  le a b := a.rank ≤ b.rank

instance : LT Timestamp where
  lt a b := a.rank < b.rank

instance (a b : Timestamp) : Decidable (a ≤ b) :=
  inferInstanceAs (Decidable (a.rank ≤ b.rank))

instance (a b : Timestamp) : Decidable (a < b) :=
  inferInstanceAs (Decidable (a.rank < b.rank))

/-- The same time of the next day. -/
def nextDay (t : Timestamp) : Timestamp :=
  if t.day < daysInMonth t.year t.month then { t with day := t.day + 1 }
  else if t.month < 12 then { t with month := t.month + 1, day := 1 }
  else { t with year := t.year + 1, month := 1, day := 1 }

/-- The same time of the day before. -/
def previousDay (t : Timestamp) : Timestamp :=
  if 1 < t.day then { t with day := t.day - 1 }
  else if 1 < t.month then
    { t with month := t.month - 1, day := daysInMonth t.year (t.month - 1) }
  else { t with year := t.year - 1, month := 12, day := 31 }

/-- Minutes since midnight. -/
def minuteOfDay (t : Timestamp) : Nat :=
  60 * t.hour + t.minute

def atMinuteOfDay (t : Timestamp) (minutes : Nat) : Timestamp :=
  { t with hour := minutes / 60, minute := minutes % 60 }

/-- Turns local time into UTC, for an offset from UTC of less than a day. -/
def ofLocal (t : Timestamp) (offsetMinutes : Int) : Timestamp :=
  let minutes : Int := t.minuteOfDay - offsetMinutes
  if minutes < 0 then (t.atMinuteOfDay (minutes + 1440).toNat).previousDay
  else if minutes < 1440 then t.atMinuteOfDay minutes.toNat
  else (t.atMinuteOfDay (minutes - 1440).toNat).nextDay

/-- The time that is `nanos` nanoseconds after the start of a day. -/
def ofNanosAfter (day : Timestamp) (nanos : Nat) : Timestamp :=
  let seconds := nanos / Nat.pow 10 9
  { Nat.repeat nextDay (seconds / 86400) day with
    hour := seconds / 3600 % 24
    minute := seconds / 60 % 60
    second := seconds % 60
    nanos := nanos % Nat.pow 10 9 }

@[simp] theorem ofLocal_zero {t : Timestamp} (h : t.Valid) : t.ofLocal 0 = t := by
  obtain ⟨-, -, -, -, -, -, hh, hm, -, -⟩ := h
  have hlow : ¬ ((t.minuteOfDay : Int) - 0 < 0) := by omega
  have hhigh : (t.minuteOfDay : Int) - 0 < 1440 := by
    unfold minuteOfDay
    omega
  have hto : ((t.minuteOfDay : Int) - 0).toNat = t.minuteOfDay := by omega
  simp only [ofLocal, hlow, hhigh, if_false, if_true, hto]
  have hhour : t.minuteOfDay / 60 = t.hour := by
    unfold minuteOfDay
    omega
  have hmin : t.minuteOfDay % 60 = t.minute := by
    unfold minuteOfDay
    omega
  simp [atMinuteOfDay, hhour, hmin]

end Timestamp

end Ledger
