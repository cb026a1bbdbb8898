/-!
The fewest decimal digits that read back as a given binary floating-point number, and the two ways
the project writes them.

A finite number is `m · 2 ^ q` with `m` and `q` taken from its bits. The reals that round to it form
an interval around it, whose ends belong to it exactly if `m` is even. For one digit, two digits and
so on, the two neighbours on that decimal grid are tested in exact arithmetic; the first grid with a
hit wins, and of two hits the nearer one.
-/

namespace ThemeSection.Decimal

/-- A decimal number `digits · 10 ^ exponent` whose last digit is not zero, unless it is zero. -/
structure Digits where
  digits : Nat
  exponent : Int
  deriving DecidableEq, Repr

/-- The magnitude of a finite number as `mantissa · 2 ^ exponent`. -/
structure Binary where
  mantissa : Nat
  exponent : Int
  deriving DecidableEq, Repr

/-- The bit of the mantissa that is not written: `2 ^ 52`. -/
def hiddenBit : Nat := 0x10000000000000

/-- The mantissa and the exponent in the bits of a finite number. -/
def Binary.ofBits (bits : UInt64) : Binary :=
  let fraction : Nat := bits.toNat % hiddenBit
  let biased : Nat := bits.toNat / hiddenBit % 2048
  if biased == 0 then ⟨fraction, -1074⟩ else ⟨hiddenBit + fraction, Int.ofNat biased - 1075⟩

/-- `n · 2 ^ e` as a quotient of natural numbers. -/
def ratio (n : Nat) (e : Int) : Nat × Nat :=
  if e ≥ 0 then (n * Nat.pow 2 e.toNat, 1) else (n, Nat.pow 2 (-e).toNat)

/-- The exponent `k` with `10 ^ k ≤ num / den < 10 ^ (k + 1)`, for a positive quotient. -/
def magnitude (num den : Nat) : Int :=
  if num ≥ den then (((Nat.toDigits 10 (num / den)).length : Int) - 1)
  else
    -- `⌊den / num⌋` has `n` digits, so the quotient lies above `10 ^ (-n)` and not above
    -- `10 ^ (1 - n)`, which it reaches only as an exact power of ten.
    let n := (Nat.toDigits 10 (den / num)).length
    if num * Nat.pow 10 (n - 1) == den then -((n : Int) - 1) else -(n : Int)

/-- Drops the zeros at the end of `n` and counts them; a number of at most `fuel` digits. -/
def dropZeros : Nat → Nat → Int → Digits
  | 0, n, e => ⟨n, e⟩
  | fuel + 1, n, e => if n != 0 && n % 10 == 0 then dropZeros fuel (n / 10) (e + 1) else ⟨n, e⟩

/-- The neighbour of a positive number on the grid of `10 ^ e` that rounds to it, if there is one.
-/
def onGrid (b : Binary) (e : Int) : Option Nat :=
  let shift := b.exponent - 2
  -- The number and the ends of its interval, as multiples of `2 ^ shift`.
  let value := 4 * b.mantissa
  let low := if b.mantissa == hiddenBit && b.exponent > -1074 then value - 1 else value - 2
  let high := value + 2
  let (num, den) := ratio 1 shift
  -- A multiple `x` of `2 ^ shift` in units of `10 ^ e` is `x * up / down`.
  let up := if e ≥ 0 then num else num * Nat.pow 10 (-e).toNat
  let down := if e ≥ 0 then den * Nat.pow 10 e.toNat else den
  let below := value * up / down
  let inside (d : Nat) : Bool :=
    if b.mantissa % 2 == 0 then low * up ≤ d * down && d * down ≤ high * up
    else low * up < d * down && d * down < high * up
  let toBelow := value * up - below * down
  let toAbove := (below + 1) * down - value * up
  let nearerBelow := toBelow < toAbove || (toBelow == toAbove && below % 2 == 0)
  if inside below && below != 0 && (nearerBelow || !inside (below + 1)) then some below
  else if inside (below + 1) then some (below + 1)
  else none

/-- The fewest digits that read back as a positive number. -/
def Binary.shortest (b : Binary) : Digits :=
  let (num, den) := ratio b.mantissa b.exponent
  let k := magnitude num den
  let found := (List.range 17).findSome? fun (n : Nat) =>
    let e := k - Int.ofNat n
    (onGrid b e).map fun d => dropZeros 20 d e
  found.getD ⟨0, 0⟩

/-- The fewest digits that read back as the magnitude of a finite number. -/
def ofFloat (x : Float) : Digits :=
  let b := Binary.ofBits x.toBits
  if b.mantissa == 0 then ⟨0, 0⟩ else b.shortest

/-- Whether the sign bit is set. -/
def isNegative (x : Float) : Bool :=
  x.toBits.toNat ≥ 0x8000000000000000

/-- The digits written without an exponent; a fraction only where there is one. -/
def Digits.positional (d : Digits) : String :=
  let text := Nat.toDigits 10 d.digits
  let zeros (n : Nat) := List.replicate n '0'
  if d.exponent ≥ 0 then
    String.ofList (if d.digits == 0 then text else text ++ zeros d.exponent.toNat)
  else
    let places := (-d.exponent).toNat
    if text.length > places then
      String.ofList
        (text.take (text.length - places) ++ '.' :: text.drop (text.length - places))
    else String.ofList ('0' :: '.' :: zeros (places - text.length) ++ text)

/-- The digits written as a mantissa between one and ten and a signed power of ten. -/
def Digits.scientific (d : Digits) : String :=
  let text := Nat.toDigits 10 d.digits
  let power := d.exponent + text.length - 1
  let mantissa := match text with
    | first :: (rest@(_ :: _)) => first :: '.' :: rest
    | short => short
  String.ofList mantissa ++ "e" ++ (if power ≥ 0 then "+" else "-") ++ toString power.natAbs

/-- A number in running text: never an exponent, and no fraction for a whole number. -/
def plain (x : Float) : String :=
  if x.isNaN then "NaN"
  else
    let magnitude := if x.isInf then "inf" else (ofFloat x).positional
    if isNegative x then "-" ++ magnitude else magnitude

/-- A finite number in JSON text: positional from `1e-5` up to below `1e16`, where a whole number
keeps `.0`, and scientific elsewhere. -/
def marked (x : Float) : String :=
  let d := ofFloat x
  let power := d.exponent + (Nat.toDigits 10 d.digits).length - 1
  let magnitude :=
    if power < -5 || power ≥ 16 then d.scientific
    else if d.exponent ≥ 0 then d.positional ++ ".0"
    else d.positional
  if isNegative x then "-" ++ magnitude else magnitude

end ThemeSection.Decimal
