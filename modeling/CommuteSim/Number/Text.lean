import CommuteSim.Number.Shortest

/-!
# Written forms of floats

Three ways to write a float: with a fixed number of decimal places, positionally with the shortest
digits that read back, and the same with a choice of positional or exponent form by magnitude.
-/

namespace CommuteSim.Decimal

open Binary64

/-- The choices of a written form with shortest digits. -/
structure Style where
  /-- Written for a number that is not one. -/
  nan : String
  /-- Written for positive infinity; the negative one has `-` before it. -/
  infinity : String
  /-- Whether a whole number ends in `.0`. -/
  pointAlways : Bool
  /-- The positions of the decimal point for which the number is written without an exponent;
  `none` for all. -/
  positional : Option (Int × Int)

/-- Plain text: never an exponent, and whole numbers without a point. -/
def plain : Style := ⟨"NaN", "inf", false, none⟩

/-- Text in messages: never an exponent, and always a point. -/
def pointed : Style := ⟨"NaN", "inf", true, none⟩

/-- Text in documents: an exponent for a magnitude below `10 ^ -5` or from `10 ^ 16` on. -/
def documented : Style := ⟨".nan", ".inf", true, some (-4, 16)⟩

/-- The digits with the point put in its place. -/
def Digits.positionalText (d : Digits) (pointAlways : Bool) : List Char :=
  let n := d.digits.length
  if d.point ≤ 0 then
    '0' :: '.' :: List.replicate (-d.point).toNat '0' ++ d.digits
  else if (n : Int) ≤ d.point then
    d.digits ++ List.replicate (d.point.toNat - n) '0' ++ (if pointAlways then ['.', '0'] else [])
  else
    d.digits.take d.point.toNat ++ '.' :: d.digits.drop d.point.toNat

/-- The digits with a point after the first one and an exponent. -/
def Digits.exponentText (d : Digits) : List Char :=
  let fraction := match d.digits.drop 1 with
    | [] => []
    | rest => '.' :: rest
  d.digits.take 1 ++ fraction ++ 'e' :: (toString (d.point - 1)).toList

/-- Writes a float with its shortest digits. -/
def Style.text (style : Style) (x : Float) : String :=
  let signed (negative : Bool) (s : String) := if negative then "-" ++ s else s
  match parts x with
  | .nan => style.nan
  | .infinite negative => signed negative style.infinity
  | .finite negative m e =>
    let d := shortest m e
    let positional := match style.positional with
      | none => true
      | some (least, most) => m = 0 || (least ≤ d.point && d.point ≤ most)
    signed negative <| String.ofList <|
      if positional then d.positionalText style.pointAlways else d.exponentText

/-- Writes a float with `places` decimal places, rounded from its exact value, a half to the even
neighbour. The sign of a negative number stays when all its digits round to zero. -/
def fixed (places : Nat) (x : Float) : String :=
  let signed (negative : Bool) (s : String) := if negative then "-" ++ s else s
  match parts x with
  | .nan => "NaN"
  | .infinite negative => signed negative "inf"
  | .finite negative m e =>
    let (num, den) := ratioOf m e
    let scaled := roundHalfEven (num * Nat.pow 10 places) den
    let whole := toString (scaled / Nat.pow 10 places)
    let fraction := Nat.toDigits 10 (scaled % Nat.pow 10 places)
    let padded := List.replicate (places - fraction.length) '0' ++ fraction
    signed negative <| if places = 0 then whole else whole ++ "." ++ String.ofList padded

end CommuteSim.Decimal
