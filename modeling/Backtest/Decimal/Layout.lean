import Backtest.Decimal.Shortest

/-!
# Laying out a number as text

Four layouts of a double, all computed from its exact value:

* `plain`: the fewest digits that read back, positional from `0.0001` up to below `1e16`, always
  with a fractional part or an exponent;
* `significant n`: `n` significant digits, trailing zeros dropped, positional from `0.0001` up to
  below `10 ^ n`;
* `fixed n`: `n` decimal places;
* `Field`: a column of fixed places with a sign, thousands separators and a least width.

Rounding takes halves to the even neighbour.
-/

namespace Backtest.Decimal

def signText (negative : Bool) : List Char := if negative then ['-'] else []

/-- The text of an infinite value. -/
def infiniteText (negative : Bool) : List Char := signText negative ++ ['i', 'n', 'f']

def nanText : List Char := ['n', 'a', 'n']

/-- An exponent with its sign and at least two digits. -/
def exponentText (exponent : Int) : List Char :=
  let shown := digits exponent.natAbs
  'e' :: (if exponent < 0 then '-' else '+') :: (if shown.length < 2 then '0' :: shown else shown)

/-- Digits with the point after the first `point` of them; zeros fill the gap on either side. -/
def positional (shown : List Char) (point : Int) : List Char × List Char :=
  if point ≤ 0 then (['0'], List.replicate point.natAbs '0' ++ shown)
  else
    let whole := point.toNat
    (shown.take whole ++ List.replicate (whole - shown.length) '0', shown.drop whole)

/-- Scientific layout: one digit, the others after a point, the exponent. -/
def scientific (shown : List Char) (point : Int) : List Char :=
  let rest := shown.drop 1
  shown.take 1 ++ (if rest.isEmpty then [] else '.' :: rest) ++ exponentText (point - 1)

/-- The fewest digits that read back; a whole number keeps one decimal place. -/
def plain : Binary → List Char
  | .nan => nanText
  | .infinite negative => infiniteText negative
  | .finite negative mantissa exponent =>
      let short := shortest mantissa exponent
      let shown := digits short.coefficient
      let point : Int := short.exponent + shown.length
      if mantissa = 0 then signText negative ++ ['0', '.', '0']
      else if -4 < point ∧ point ≤ 16 then
        let parts := positional shown point
        signText negative ++ parts.1 ++ '.' :: (if parts.2.isEmpty then ['0'] else parts.2)
      else signText negative ++ scientific shown point

/-- A count of significant digits with the trailing zeros dropped. -/
def significant (count : Nat) : Binary → List Char
  | .nan => nanText
  | .infinite negative => infiniteText negative
  | .finite negative mantissa exponent =>
      if mantissa = 0 then signText negative ++ ['0']
      else
        let parts := Binary.magnitude mantissa exponent
        let low := pointPosition parts.1 parts.2 - count
        let units := inUnits parts.1 parts.2 low
        let rounded : Magnitude := ⟨halfEven units.1 units.2, low⟩
        let short := dropZeros (count + 1) rounded
        let shown := digits short.coefficient
        let point : Int := short.exponent + shown.length
        if -4 < point ∧ point ≤ count then
          let split := positional shown point
          signText negative ++ split.1 ++ (if split.2.isEmpty then [] else '.' :: split.2)
        else signText negative ++ scientific shown point

/-- Commas between groups of three digits, counted from the end. -/
def grouped (shown : List Char) : List Char :=
  let rec spread : Nat → List Char → List Char
    | _, [] => []
    | 0, c :: rest => c :: spread 0 rest
    | n + 1, c :: rest =>
        if n ≠ 0 ∧ n % 3 = 0 then c :: ',' :: spread n rest else c :: spread n rest
  spread shown.length shown

/-- How a number stands in a column. -/
structure Field where
  places : Nat
  /-- Write a plus sign before a number that is not negative. -/
  signed : Bool := false
  /-- Separate the thousands. -/
  thousands : Bool := false

/-- A number with a count of decimal places. -/
def Field.render (field : Field) (x : Binary) : List Char :=
  let lead (negative : Bool) : List Char :=
    if negative then ['-'] else if field.signed then ['+'] else []
  match x with
  | .nan => lead false ++ nanText
  | .infinite negative => lead negative ++ ['i', 'n', 'f']
  | .finite negative mantissa exponent =>
      let parts := Binary.magnitude mantissa exponent
      let units := halfEven (parts.1 * Nat.pow 10 field.places) parts.2
      let whole := digits (units / Nat.pow 10 field.places)
      let part := digits (units % Nat.pow 10 field.places)
      let fraction := List.replicate (field.places - part.length) '0' ++ part
      lead negative ++ (if field.thousands then grouped whole else whole) ++
        (if field.places = 0 then [] else '.' :: fraction)

/-- Fills a text up to a width with blanks on its left. -/
def alignRight (width : Nat) (text : String) : String :=
  String.ofList (List.replicate (width - text.length) ' ') ++ text

end Backtest.Decimal
