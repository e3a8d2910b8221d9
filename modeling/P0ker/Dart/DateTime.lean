/-!
# Dart's `DateTime` and `TimeOfDay`

What the pickers of the NewGame page hand over, and the texts their `toString` makes.
-/

namespace P0ker.Dart

/-- A local `DateTime`. -/
structure DateTime where
  year : Nat := 0
  month : Nat := 1
  day : Nat := 1
  hour : Nat := 0
  minute : Nat := 0
  second : Nat := 0
  millisecond : Nat := 0
  microsecond : Nat := 0
  deriving DecidableEq

structure TimeOfDay where
  hour : Nat := 0
  minute : Nat := 0
  deriving DecidableEq

def twoDigits (n : Nat) : String :=
  if n < 10 then "0" ++ Nat.repr n else Nat.repr n

def threeDigits (n : Nat) : String :=
  if n < 100 then "0" ++ twoDigits n else Nat.repr n

def fourDigits (n : Nat) : String :=
  if n < 1000 then "0" ++ threeDigits n else Nat.repr n

def DateTime.toString (t : DateTime) : String :=
  fourDigits t.year ++ "-" ++ twoDigits t.month ++ "-" ++ twoDigits t.day ++ " " ++
    twoDigits t.hour ++ ":" ++ twoDigits t.minute ++ ":" ++ twoDigits t.second ++ "." ++
    threeDigits t.millisecond ++ if t.microsecond = 0 then "" else threeDigits t.microsecond

def TimeOfDay.toString (t : TimeOfDay) : String :=
  "TimeOfDay(" ++ twoDigits t.hour ++ ":" ++ twoDigits t.minute ++ ")"

example : ({ year := 2018, month := 6, day := 9 } : DateTime).toString
    = "2018-06-09 00:00:00.000" := by
  decide +kernel

end P0ker.Dart
