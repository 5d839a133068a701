import Airdrop.Bytes
import Airdrop.Curve.Field

/-!
# Points of the curve

The twisted Edwards curve `-x² + y² = 1 + d x² y²` over the field of `Field.p`.

* `Point` : a point in extended coordinates, `x = X / Z`, `y = Y / Z`, `T = X Y / Z`.
* `Point.add`, `Point.double`, `Point.scale` : the group operations.
* `Point.encode`, `Point.decode?` : the byte form, `y` in 255 bits and the parity of `x` in the last one.
* `isOnCurve` : some `x` belongs to the `y` that 32 bytes write.
-/

namespace Airdrop

/-- A point in extended coordinates. -/
structure Point where
  x : Nat
  y : Nat
  z : Nat
  t : Nat
  deriving DecidableEq

/-- The `y` of a byte form; its last bit is not part of the number. -/
def Point.ordinate (bs : Bytes) : Nat := Bytes.toNatLE bs % 2 ^ 255

/-- The `x²` that belongs to `y`: `(y² - 1) / (d y² + 1)`. -/
def Point.abscissaSquared (y : Nat) : Nat :=
  let yy := Field.mul y y
  Field.mul (Field.sub yy 1) (Field.inverse (Field.add (Field.mul Field.d yy) 1))

/-- Thirty-two bytes write the `y` of some point. The sign of `x` is ignored and `y` may exceed the prime. -/
def isOnCurve (bs : Bytes) : Bool :=
  bs.length == 32 && Field.isSquare (Point.abscissaSquared (Point.ordinate bs % Field.p))

namespace Point

def identity : Point := ⟨0, 1, 1, 0⟩

def add (P Q : Point) : Point :=
  let a := Field.mul (Field.sub P.y P.x) (Field.sub Q.y Q.x)
  let b := Field.mul (Field.add P.y P.x) (Field.add Q.y Q.x)
  let c := Field.mul (Field.mul (2 * P.t) Field.d) Q.t
  let d := Field.mul (2 * P.z) Q.z
  let e := Field.sub b a
  let f := Field.sub d c
  let g := Field.add d c
  let h := Field.add b a
  ⟨Field.mul e f, Field.mul g h, Field.mul f g, Field.mul e h⟩

def double (P : Point) : Point :=
  let a := Field.mul P.x P.x
  let b := Field.mul P.y P.y
  let c := Field.mul (2 * P.z) P.z
  let h := Field.add a b
  let e := Field.sub h (Field.mul (P.x + P.y) (P.x + P.y))
  let g := Field.sub a b
  let f := Field.add c g
  ⟨Field.mul e f, Field.mul g h, Field.mul f g, Field.mul e h⟩

def neg (P : Point) : Point := ⟨Field.sub 0 P.x, P.y, P.z, Field.sub 0 P.t⟩

/-- The multiple of a point by the `bits` low bits of a number. -/
def multiples : (bits n : Nat) → Point → Point
  | 0, _, _ => identity
  | bits + 1, n, P =>
    let Q := multiples bits (n / 2) P.double
    if n % 2 = 1 then Q.add P else Q

/-- The multiple of a point by a number below `2 ^ 255`. -/
def scale (P : Point) (n : Nat) : Point := multiples 255 n P

def encode (P : Point) : Bytes :=
  let i := Field.inverse P.z
  let x := Field.mul P.x i
  let y := Field.mul P.y i
  Bytes.ofNatLE 32 (y + x % 2 * 2 ^ 255)

/-- The point with a given `y`, reduced, whose `x` has a given parity. -/
def lift? (y parity : Nat) : Option Point :=
  (Field.sqrt? (abscissaSquared y)).map fun r =>
    let x := if r % 2 = parity then r else Field.sub 0 r
    ⟨x, y, 1, Field.mul x y⟩

def decode? (bs : Bytes) : Option Point :=
  let n := Bytes.toNatLE bs
  lift? (ordinate bs % Field.p) (n / 2 ^ 255 % 2)

/-- The base point, whose `y` is `4 / 5`. -/
def base : Point := (lift? (Field.mul 4 (Field.inverse 5)) 0).getD identity

/-- The order of the base point. -/
def order : Nat := 2 ^ 252 + 27742317777372353535851937790883648493

/-- The `y` of the points of order one, two, four and eight. -/
def smallOrdinates : List Nat :=
  [0, 1, Field.p - 1, 2707385501144840649318225287225658788936804267575313519463743609750303402022,
    55188659117513257062467267217118295137698188065244968500265048394206261417927]

/-- The byte form has a `y` that belongs to a point of small order. -/
def hasSmallOrder (bs : Bytes) : Bool := smallOrdinates.contains (ordinate bs % Field.p)

/-- The byte form has a reduced `y`. -/
def isCanonical (bs : Bytes) : Bool := ordinate bs < Field.p

end Point
end Airdrop
