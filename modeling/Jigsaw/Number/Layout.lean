import Jigsaw.Number.Binary64

/-!
# Number/Layout — the text of floating point literals

Magnitudes from `10 ^ -4` up to `10 ^ 16` are written positionally and always with a point; all
others with an exponent that has a sign and at least two digits.
-/

namespace Jigsaw.Binary64

/-- The powers of ten of the first digit that are written positionally. -/
def positional (top : Int) : Bool := -4 ≤ top && top < 16

/-- `n` zeros. -/
def zeroText (n : Nat) : List Char := List.replicate n '0'

/-- An exponent with its sign and at least two digits. -/
def exponentText (e : Int) : List Char :=
  let digits := e.natAbs.repr.toList
  'e' :: (if e < 0 then '-' else '+') :: (zeroText (2 - digits.length) ++ digits)

/-- The digits `ds · 10 ^ e` with a point and no exponent. -/
def positionalText (ds : List Char) (e : Int) : List Char :=
  if 0 ≤ e then ds ++ zeroText e.toNat ++ ['.', '0']
  else
    let cut := (ds.length : Int) + e
    if 0 < cut then ds.take cut.toNat ++ '.' :: ds.drop cut.toNat
    else '0' :: '.' :: (zeroText (-cut).toNat ++ ds)

/-- The digits `ds · 10 ^ e` with one digit before the point and an exponent. -/
def scientificText (ds : List Char) (e : Int) : List Char :=
  let top := (ds.length : Int) + e - 1
  let head :=
    match ds with
    | d :: rest => if rest.isEmpty then [d] else d :: '.' :: rest
    | [] => []
  head ++ exponentText top

/-- The text of a magnitude. -/
def text (x : Binary64) : String :=
  let (k, e) := x.shortest
  let ds := k.repr.toList
  let top := (ds.length : Int) + e - 1
  String.ofList (if positional top then positionalText ds e else scientificText ds e)

end Jigsaw.Binary64
