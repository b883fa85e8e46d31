import Makespan.Toml.Syntax
import Makespan.Toml.Texts

/-! Numbers, dates and times. -/

namespace Makespan.Toml

open Text (Reader hexValue?)
open Text.Reader

/-- Digits of one kind, where a single underscore may stand between two digits. -/
def digitsWhere (p : Char → Bool) : Reader (List Char) := do
  let first ← charWhere p
  let rest ← many (do
    let _ ← Reader.optional (char '_')
    charWhere p)
  return first :: rest

def decimalDigits : Reader (List Char) := digitsWhere Char.isDigit

/-- Decimal digits without a zero in front of others. -/
def wholeDigits : Reader (List Char) := do
  let ds ← decimalDigits
  if ds.length ≠ 1 ∧ ds.head? = some '0' then failure
  return ds

def valueIn (base : Nat) (ds : List Char) : Nat :=
  ds.foldl (fun n c => base * n + (hexValue? c).getD 0) 0

/-- Whether the number is negative. -/
def sign : Reader Bool :=
  (do let _ ← char '-'; return true) <|> (do let _ ← char '+'; return false) <|> pure false

def radixInteger (mark : String) (base : Nat) : Reader Int := do
  text mark
  let ds ← digitsWhere fun c => (hexValue? c).any (· < base)
  return valueIn base ds

def decimalInteger : Reader Int := do
  let negative ← sign
  let n : Int := valueIn 10 (← wholeDigits)
  return if negative then -n else n

def integer : Reader Int :=
  radixInteger "0x" 16 <|> radixInteger "0o" 8 <|> radixInteger "0b" 2 <|> decimalInteger

def fraction : Reader (List Char) := do
  let _ ← char '.'
  decimalDigits

def exponent : Reader Int := do
  let _ ← charWhere fun c => c = 'e' || c = 'E'
  let negative ← sign
  let n : Int := valueIn 10 (← decimalDigits)
  return if negative then -n else n

/-- A number with a fraction, an exponent or both. -/
def decimalFloat : Reader (Option Binary64) := do
  let negative ← sign
  let whole ← wholeDigits
  let places? ← Reader.optional fraction
  let exponent? ← Reader.optional exponent
  if places?.isNone && exponent?.isNone then failure
  let places := places?.getD []
  let x := Binary64.ofDecimal negative (valueIn 10 (whole ++ places))
    (exponent?.getD 0 - places.length)
  return if x.isInfinite then none else some x

def specialFloat : Reader (Option Binary64) := do
  let negative ← sign
  (do text "inf"; return some (.infinity negative)) <|>
    (do text "nan"; return some (.nan negative))

def boolean : Reader Bool :=
  (do text "true"; return true) <|> (do text "false"; return false)

/-- So many digits, giving a number from `low` to `high`. -/
def field (width low high : Nat) : Reader Nat := fun cs =>
  let ds := cs.take width
  let n := valueIn 10 ds
  if ds.length = width ∧ ds.all Char.isDigit ∧ low ≤ n ∧ n ≤ high then some (n, cs.drop width)
  else none

def daysIn (year month : Nat) : Nat :=
  if month = 2 then
    if year % 4 = 0 ∧ (year % 100 ≠ 0 ∨ year % 400 = 0) then 29 else 28
  else if month ∈ [4, 6, 9, 11] then 30
  else 31

def date : Reader Unit := do
  let year ← field 4 0 9999
  let _ ← char '-'
  let month ← field 2 1 12
  let _ ← char '-'
  let _ ← field 2 1 (daysIn year month)

/-- Hours and minutes, with seconds and a fraction of them if they are wanted. -/
def time : Reader Unit := do
  let _ ← field 2 0 23
  let _ ← char ':'
  let _ ← field 2 0 59
  let _ ← Reader.optional (do
    let _ ← char ':'
    let _ ← field 2 0 60
    let _ ← Reader.optional (do
      let _ ← char '.'
      let _ ← charWhere Char.isDigit
      spanWhere Char.isDigit))

def offset : Reader Unit :=
  (do let _ ← charWhere fun c => c = 'Z' || c = 'z') <|>
    (do
      let _ ← charWhere fun c => c = '+' || c = '-'
      let _ ← field 2 0 23
      let _ ← char ':'
      let _ ← field 2 0 59)

def dateTime : Reader Unit :=
  (do
    date
    let _ ← Reader.optional (do
      let _ ← charWhere fun c => c = 'T' || c = 't' || c = ' '
      time
      Reader.optional offset)) <|> time

def scalar : Reader Scalar :=
  (do return .string (← anyText)) <|>
    (do dateTime; return .dateTime) <|>
    (do return .float (← decimalFloat)) <|>
    (do return .float (← specialFloat)) <|>
    (do return .integer (← integer)) <|>
    (do return .boolean (← boolean))

end Makespan.Toml
