import DocQuery.Decimal.Basic
import DocQuery.Settings.Toml.Text

/-!
# Values of a settings file without parts

Texts, truth values, numbers, dates and times.  Only texts and truth values are told
apart; any other value is read for its form alone.
-/

namespace DocQuery

namespace Toml

/-- A value of a settings file, as far as settings need it. -/
inductive Datum where
  | text (s : String)
  | flag (b : Bool)
  | other
deriving DecidableEq, Repr

/-! ## Numbers -/

/-- Digits of a kind, in groups joined by single underscores. -/
def areGrouped (isDigit : Char → Bool) : List Char → Bool
  | [] => false
  | [c] => isDigit c
  | '_' :: _ => false
  | c :: '_' :: rest => isDigit c && areGrouped isDigit rest
  | c :: rest => isDigit c && areGrouped isDigit rest

def unsigned : List Char → Bool × List Char
  | '-' :: rest => (true, rest)
  | '+' :: rest => (false, rest)
  | cs => (false, cs)

/-- Whether digits make a whole number without superfluous zeros. -/
def isWhole (cs : List Char) : Bool :=
  areGrouped Char.isDigit cs && (cs == ['0'] || cs.head? != some '0')

def wholeValue (base : Nat) (cs : List Char) : Nat :=
  cs.foldl (fun n c => match Json.hexValue? c with
    | some digit => base * n + digit
    | none => n) 0

def isInteger (word : List Char) : Bool :=
  match word with
  | '0' :: 'x' :: digits =>
      areGrouped (fun c => (Json.hexValue? c).isSome) digits &&
        decide (wholeValue 16 digits ≤ 9223372036854775807)
  | '0' :: 'o' :: digits =>
      areGrouped (fun c => '0' ≤ c && c ≤ '7') digits &&
        decide (wholeValue 8 digits ≤ 9223372036854775807)
  | '0' :: 'b' :: digits =>
      areGrouped (fun c => c = '0' || c = '1') digits &&
        decide (wholeValue 2 digits ≤ 9223372036854775807)
  | _ =>
      let (negative, digits) := unsigned word
      isWhole digits &&
        decide (wholeValue 10 digits ≤ 9223372036854775807 + if negative then 1 else 0)

/-- The magnitude of a number with a fraction or an exponent; an absent part is empty. -/
def magnitude (whole fraction exponent : List Char) : Float :=
  let digits := fun (cs : List Char) => cs.filter Char.isDigit
  let (negative, power) := unsigned (exponent.drop 1)
  let power := wholeValue 10 power
  (Decimal.ofDigits (digits whole) (digits fraction) (if negative then -power else power)).toFloat

/--
Whether a word is a number with a fraction or an exponent, or the name of no finite
number.  A number must not grow past every double, but it may fall below every one.
-/
def isFloat (word : List Char) : Bool :=
  let (negative, digits) := unsigned word
  if digits = "inf".toList ∨ digits = "nan".toList then true
  else
    let mantissa := digits.takeWhile fun c => c != 'e' && c != 'E'
    let exponent := digits.dropWhile fun c => c != 'e' && c != 'E'
    let whole := mantissa.takeWhile (· != '.')
    let fraction := mantissa.dropWhile (· != '.')
    isWhole whole && (!fraction.isEmpty || !exponent.isEmpty) &&
      (fraction.isEmpty || areGrouped Char.isDigit (fraction.drop 1)) &&
      (exponent.isEmpty || areGrouped Char.isDigit (unsigned (exponent.drop 1)).2) &&
      (negative || !(magnitude whole fraction exponent).isInf)

/-! ## Dates and times -/

def paddedNumber (count least greatest : Nat) : Reader Nat := fun cs =>
  let found := cs.take count
  let n := wholeValue 10 found
  if found.length = count ∧ found.all Char.isDigit = true ∧ least ≤ n ∧ n ≤ greatest then
    some (n, cs.drop count)
  else none

def after (expected : Char) : List Char → Option (List Char)
  | c :: rest => if c = expected then some rest else none
  | [] => none

def daysIn (year month : Nat) : Nat :=
  if month = 2 then
    if year % 4 = 0 ∧ (year % 100 ≠ 0 ∨ year % 400 = 0) then 29 else 28
  else if [4, 6, 9, 11].contains month then 30
  else 31

def date (cs : List Char) : Option (List Char) := do
  let (year, rest) ← paddedNumber 4 0 9999 cs
  let (month, rest) ← paddedNumber 2 1 12 (← after '-' rest)
  let (_, rest) ← paddedNumber 2 1 (daysIn year month) (← after '-' rest)
  some rest

def secondParts (cs : List Char) : List Char :=
  match cs with
  | '.' :: rest => if (rest.takeWhile Char.isDigit).isEmpty then cs else rest.dropWhile Char.isDigit
  | _ => cs

def time (cs : List Char) : Option (List Char) := do
  let (_, rest) ← paddedNumber 2 0 23 cs
  let (_, rest) ← paddedNumber 2 0 59 (← after ':' rest)
  let (_, rest) ← paddedNumber 2 0 60 (← after ':' rest)
  some (secondParts rest)

def timeOffset (cs : List Char) : Option (List Char) :=
  match cs with
  | c :: rest =>
      if c = 'Z' ∨ c = 'z' then some rest
      else if c = '+' ∨ c = '-' then do
        let (_, rest) ← paddedNumber 2 0 23 rest
        let (_, rest) ← paddedNumber 2 0 59 (← after ':' rest)
        some rest
      else some cs
  | [] => some []

/-- The text after a date, possibly with a time, or a time by itself. -/
def moment (cs : List Char) : Option (List Char) :=
  match date cs with
  | some rest =>
      match rest with
      | c :: more =>
          if c = 'T' ∨ c = 't' ∨ c = ' ' then
            match time more with
            | some rest => timeOffset rest
            | none => some rest
          else some rest
      | [] => some []
  | none => time cs

def beginsMoment (cs : List Char) : Bool :=
  let found := cs.takeWhile Char.isDigit
  let next := cs[found.length]?
  (found.length = 4 && next = some '-') || (found.length = 2 && next = some ':')

/-! ## Words -/

def isWordChar (c : Char) : Bool :=
  isBare c || c = '+' || c = '.'

def word : Reader Datum := fun cs =>
  let found := cs.takeWhile isWordChar
  let rest := cs.dropWhile isWordChar
  if found = "true".toList then some (.flag true, rest)
  else if found = "false".toList then some (.flag false, rest)
  else if isInteger found || isFloat found then some (.other, rest)
  else none

def scalar : Reader Datum := fun cs =>
  match cs with
  | '"' :: _ => (anyText cs).map fun result => (.text result.1, result.2)
  | '\'' :: _ => (anyText cs).map fun result => (.text result.1, result.2)
  | _ => if beginsMoment cs then (moment cs).map fun rest => (.other, rest) else word cs

end Toml

end DocQuery
