import Multicast.Text.Numeral
import Multicast.Text.Separated

/-!
Dates and times. A date has a year of four digits and a day that its month has; a time has seconds
and may have a fraction of them; a date with a time may have an offset from universal time.
-/

namespace Multicast.Toml
open Multicast.Text

def twoDigits? (least greatest : Nat) (text : List Char) : Option Nat :=
  if text.length = 2 then
    (readDigits? text).filter fun value => least ≤ value && value ≤ greatest
  else none

def isLeapYear (year : Nat) : Bool := year % 4 = 0 && (year % 100 ≠ 0 || year % 400 = 0)

def daysIn (year month : Nat) : Nat :=
  if month = 2 then if isLeapYear year then 29 else 28
  else if month = 4 || month = 6 || month = 9 || month = 11 then 30
  else 31

def isDate (text : List Char) : Bool :=
  match text.splitOn '-' with
  | [yearText, monthText, dayText] =>
    match readDigits? yearText, twoDigits? 1 12 monthText, twoDigits? 1 31 dayText with
    | some year, some month, some day => yearText.length = 4 && day ≤ daysIn year month
    | _, _, _ => false
  | _ => false

/-- Seconds, of which a minute with a leap second has 61. -/
def isSecond (text : List Char) : Bool :=
  match splitFirst? '.' text with
  | none => (twoDigits? 0 60 text).isSome
  | some (whole, fraction) => (twoDigits? 0 60 whole).isSome && (readDigits? fraction).isSome

def isTime (text : List Char) : Bool :=
  match text.splitOn ':' with
  | [hour, minute, second] =>
    (twoDigits? 0 23 hour).isSome && (twoDigits? 0 59 minute).isSome && isSecond second
  | _ => false

def isOffset (text : List Char) : Bool :=
  match text.splitOn ':' with
  | [hour, minute] => (twoDigits? 0 23 hour).isSome && (twoDigits? 0 59 minute).isSome
  | _ => false

def isOffsetTime (text : List Char) : Bool :=
  let isSign := fun character => character = '+' || character = '-'
  isTime text ||
    ((text.getLast? = some 'Z' || text.getLast? = some 'z') && isTime text.dropLast) ||
    (isTime (text.takeWhile (!isSign ·)) && isOffset ((text.dropWhile (!isSign ·)).drop 1))

def isInstant (text : List Char) : Bool :=
  isDate text || isTime text ||
    match text.drop 10 with
    | mark :: time => (mark = 'T' || mark = 't') && isDate (text.take 10) && isOffsetTime time
    | [] => false

end Multicast.Toml
