import AccessControl.Certificate.Der

/-!
# Times in certificates

A time is a date of the Gregorian calendar and a time of day, written in decimal digits. The short
form has years of two digits, those from 50 on being of the twentieth century, and ends in `Z` or an
offset; the long form has four digits, may have a fraction of up to three digits, and ends in `Z`.
Seconds may be absent before a single last octet, which `Z` alone can be.

## Main definitions

* `Der.isDate` — whether a year has such a day
* `Der.isShortTime`, `Der.isLongTime` — the two written forms
* `Der.time` — the parser of a time of either form
-/

namespace AccessControl.Der

/-- Whether a year has a 29th of February. -/
def isLeapYear (year : Nat) : Bool := year % 4 = 0 && (year % 100 ≠ 0 || year % 400 = 0)

/-- The number of days of a month; none past the twelfth. -/
def daysOfMonth (year month : Nat) : Nat :=
  if month = 2 then if isLeapYear year then 29 else 28
  else if month ∈ [4, 6, 9, 11] then 30
  else if 1 ≤ month && month ≤ 12 then 31
  else 0

/-- Whether a year has such a day. -/
def isDate (year month day : Nat) : Bool := 1 ≤ day && day ≤ daysOfMonth year month

/-- A number of two decimal digits. -/
def twoDigits : Parser Nat := do
  let a ← byte
  let b ← byte
  if 48 ≤ a && a ≤ 57 && 48 ≤ b && b ≤ 57 then return (a.toNat - 48) * 10 + (b.toNat - 48)
  else failure

/-- The seconds, zero if no more than one octet is left. -/
def seconds : Parser Nat := fun input =>
  if input.length < 2 then some (0, input) else twoDigits input

/-- Day and time of day after the year. -/
def dateAndTime (year : Nat) : Parser Unit := do
  let month ← twoDigits
  let day ← twoDigits
  let hour ← twoDigits
  let minute ← twoDigits
  let second ← seconds
  if isDate year month day && hour ≤ 23 && minute ≤ 59 && second ≤ 59 then return ()
  else failure

/-- An offset of hours and minutes after its sign. -/
def offset : Parser Unit := do
  let hours ← twoDigits
  let minutes ← twoDigits
  if hours ≤ 25 && minutes ≤ 59 then return () else failure

/-- The zone of a time in the short form. -/
def zone : Parser Unit := do
  let b ← byte
  if b = 90 then return ()
  else if b = 43 || b = 45 then offset
  else failure

/-- The zone of a time in the long form. -/
def utcZone : Parser Unit := do
  if (← byte) = 90 then return () else failure

/-- A point and up to three digits, or nothing. -/
def fraction : Parser Unit := fun input =>
  match input with
  | 46 :: rest =>
    let digits := rest.takeWhile fun b => 48 ≤ b && b ≤ 57
    if digits.length ≤ 3 then some ((), rest.drop digits.length) else none
  | _ => some ((), input)

/-- A time in the short form. -/
def shortTime : Parser Unit := do
  let year ← twoDigits
  dateAndTime (if year ≥ 50 then 1900 + year else 2000 + year)
  zone
  done

/-- A time in the long form. -/
def longTime : Parser Unit := do
  let century ← twoDigits
  let year ← twoDigits
  dateAndTime (century * 100 + year)
  fraction
  utcZone
  done

/-- The number of the short form's tag. -/
def shortTimeTag : Nat := 23

/-- The number of the long form's tag. -/
def longTimeTag : Nat := 24

/-- A time of either form. -/
def time : Parser Unit := do
  let e ← element
  let form ← if e.identifier.tag = shortTimeTag then pure shortTime
    else if e.identifier.tag = longTimeTag then pure longTime
    else failure
  if (form.run e.content).isSome then return () else failure

end AccessControl.Der
