import Mathlib.Algebra.Order.Ring.Int
import Mathlib.Data.List.Basic
import Ironsight.Calendar

/-! The names of recorded files, `seg_YYYYMMDD_HHMMSS.mp4` and
`ring_YYYYMMDD_HHMMSS.mp4`, and the instants that they stand for. -/
namespace Ironsight.SegmentNames
open Calendar

/-- The number of days from 1 January 1970 to a date. -/
def dayNumber (year month day : Nat) : Int :=
  let past : Int := year - 1
  365 * past + past / 4 - past / 100 + past / 400 + ((monthLengths (leap year)).take (month - 1)).sum + day - 719163

/-- `getnum` with a fixed width, and the four digits of a year. -/
private def digits (count : Nat) (text : List Char) : Option (Nat × List Char) :=
  let front := text.take count
  if front.length = count ∧ front.all Char.isDigit then some (Nat.ofDigitChars 10 front 0, text.drop count) else none

/-- The fraction that `time.Parse` reads behind the seconds unasked, in
nanoseconds; digits after the ninth are dropped. -/
private def nanoseconds : List Char → Option Nat
  | [] => some 0
  | separator :: rest =>
    if (separator = '.' ∨ separator = ',') ∧ rest ≠ [] ∧ rest.all Char.isDigit then
      some (Nat.ofDigitChars 10 (rest.take 9) 0 * 10 ^ (9 - rest.length))
    else none

/-- `time.ParseInLocation("20060102_150405", text, time.UTC)`. -/
def parseTimestamp (text : List Char) : Option Int := do
  let (year, text) ← digits 4 text
  let (month, text) ← digits 2 text
  let (day, text) ← digits 2 text
  guard (text.head? = some '_')
  let (hour, text) ← digits 2 (text.drop 1)
  let (minute, text) ← digits 2 text
  let (second, text) ← digits 2 text
  let nanos ← nanoseconds text
  let length ← if month = 0 then none else (monthLengths (leap year))[month - 1]?
  guard (1 ≤ day ∧ day ≤ length ∧ hour < 24 ∧ minute < 60 ∧ second < 60)
  return ((dayNumber year month day * 24 + hour) * 60 + minute) * 60000000000 + second * 1000000000 + nanos

/-- `strings.TrimSuffix(name, filepath.Ext(name))`. -/
def stem (name : String) : List Char :=
  if name.toList.contains '.' then ((name.toList.reverse.dropWhile (· ≠ '.')).drop 1).reverse else name.toList

/-- `parseSegmentTimestamp`; `none` is the zero time. -/
def parseSegmentTimestamp (name : String) : Option Int :=
  let stem := stem name
  if stem.length < 19 ∨ stem.take 4 ≠ "seg_".toList then none else parseTimestamp ((stem.take 19).drop 4)

/-- `parseRingTimestamp`: what follows the first underscore. -/
def parseRingTimestamp (name : String) : Option Int :=
  let stem := stem name
  if stem.contains '_' then parseTimestamp ((stem.dropWhile (· ≠ '_')).drop 1) else none

example : parseSegmentTimestamp "seg_20260219_140530.mp4" = some 1771509930000000000 ∧
    parseRingTimestamp "ring_20260220_171312.mp4" = some 1771607592000000000 ∧
    parseRingTimestamp "ring_20260230_171312.mp4" = none := by
  decide +kernel

/-- The files that the recorder writes. -/
def isSegmentName (name : String) : Bool :=
  ".mp4".toList.isSuffixOf name.toList ∧ ("seg_".toList.isPrefixOf name.toList ∨ "ring_".toList.isPrefixOf name.toList)

end Ironsight.SegmentNames
