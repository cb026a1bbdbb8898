import ThemeSection.Chars.Code

/-!
Reading a decimal number as the nearest binary floating-point number: an optional sign, digits with
an optional point, an optional exponent; or a name of infinity or of the undefined number.
-/

namespace ThemeSection.Decimal

def infinity : Float := 1.0 / 0.0

def undefinedNumber : Float := 0.0 / 0.0

/-- The number nearest to `mantissa · 10 ^ exponent`. Far from the range of finite numbers the
answer is zero or infinity without any computation. -/
def nearest (mantissa : Nat) (exponent : Int) : Float :=
  if mantissa == 0 then 0.0
  else
    let size := ((Nat.toDigits 10 mantissa).length : Int) + exponent
    if size > 320 then infinity
    else if size < -340 then 0.0
    else if exponent ≥ 0 then Float.ofScientific mantissa false exponent.toNat
    else Float.ofScientific mantissa true (-exponent).toNat

/-- An exponent after its letter: an optional sign and at least one digit, to the end. -/
def readExponent? (s : List Char) : Option Int :=
  let (negative, digits) := match s with
    | '-' :: rest => (true, rest)
    | '+' :: rest => (false, rest)
    | _ => (false, s)
  if digits.isEmpty || !digits.all Char.isDigit then none
  else
    let n : Int := Chars.numeral 10 digits
    some (if negative then -n else n)

/-- A number without its sign. -/
def readMagnitude? (s : List Char) : Option Float :=
  let name := s.map Char.toLower
  if name == "inf".toList || name == "infinity".toList then some infinity
  else if name == "nan".toList then some undefinedNumber
  else
    let whole := s.takeWhile Char.isDigit
    let (places, rest) := match s.dropWhile Char.isDigit with
      | '.' :: tail => (tail.takeWhile Char.isDigit, tail.dropWhile Char.isDigit)
      | tail => ([], tail)
    if whole.isEmpty && places.isEmpty then none
    else
      let mantissa := Chars.numeral 10 (whole ++ places)
      let value (exponent : Int) := nearest mantissa (exponent - places.length)
      match rest with
      | [] => some (value 0)
      | e :: tail => if e == 'e' || e == 'E' then (readExponent? tail).map value else none

/-- Reads a whole text as a number. -/
def read? (text : String) : Option Float :=
  match text.toList with
  | '-' :: rest => (readMagnitude? rest).map fun x => -x
  | '+' :: rest => readMagnitude? rest
  | s => readMagnitude? s

end ThemeSection.Decimal
