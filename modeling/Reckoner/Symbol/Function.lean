import Reckoner.Binary64.Arithmetic

/-! # Functions

The built-in functions: their names, how many arguments they take, and what they compute.

* **`Numerics`, `LawfulNumerics`** — a library of numerical functions, on which many of them rest, and
  what is known of it. The basic operations are not in it: addition, subtraction, multiplication,
  division, the sign and the magnitude of numbers are those of binary64 arithmetic.
* **`Reducer`** — a function of any number of arguments, such as `sum` or `first`; it may refuse
  them (`Rejection`).
* **`UnaryFunction`, `BinaryFunction`, `TernaryFunction`** — functions of a fixed number of
  arguments; they are defined everywhere, with NaN for what has no value.
* **`Function`** — a function of any of these kinds, with its name and arity. -/

namespace Reckoner

/-! ## Functions of one argument -/

/-- A function of one argument. -/
inductive UnaryFunction where
  | abs
  | acos
  | acosh
  | asin
  | asinh
  | atan
  | atanh
  | bitDecrement
  | bitIncrement
  | cbrt
  | ceiling
  | cos
  | cosh
  | exp
  | floor
  | log
  | log10
  | log2
  | round
  | sin
  | sinh
  | sqrt
  | tan
  | tanh
  | truncate
  deriving DecidableEq, Repr

namespace UnaryFunction

/-- All functions of one argument. -/
def all : List UnaryFunction :=
  [.abs, .acos, .acosh, .asin, .asinh, .atan, .atanh, .bitDecrement, .bitIncrement, .cbrt,
    .ceiling, .cos, .cosh, .exp, .floor, .log, .log10, .log2, .round, .sin, .sinh, .sqrt, .tan,
    .tanh, .truncate]

/-- The name of a function. -/
def name : UnaryFunction → String
  | .abs => "abs"
  | .acos => "acos"
  | .acosh => "acosh"
  | .asin => "asin"
  | .asinh => "asinh"
  | .atan => "atan"
  | .atanh => "atanh"
  | .bitDecrement => "bitdecrement"
  | .bitIncrement => "bitincrement"
  | .cbrt => "cbrt"
  | .ceiling => "ceiling"
  | .cos => "cos"
  | .cosh => "cosh"
  | .exp => "exp"
  | .floor => "floor"
  | .log => "log"
  | .log10 => "log10"
  | .log2 => "log2"
  | .round => "round"
  | .sin => "sin"
  | .sinh => "sinh"
  | .sqrt => "sqrt"
  | .tan => "tan"
  | .tanh => "tanh"
  | .truncate => "truncate"

end UnaryFunction

/-! ## Numerical libraries -/

/-- A **numerical library**. Every function in it has a value for all numbers; what that is, it decides. -/
class Numerics where
  /-- The functions of one argument. -/
  unary : UnaryFunction → Binary64 → Binary64
  /-- The number itself, after a plus sign. -/
  positive : Binary64 → Binary64
  /-- The power of a base, which comes first. -/
  power : Binary64 → Binary64 → Binary64
  /-- The angle of the point with an ordinate, which comes first, and an abscissa. -/
  atan2 : Binary64 → Binary64 → Binary64
  /-- The remainder of a division, with the sign of the dividend. -/
  fmod : Binary64 → Binary64 → Binary64
  /-- The first number with the sign of the second. -/
  copySign : Binary64 → Binary64 → Binary64
  /-- The sum of all numbers. -/
  sum : List Binary64 → Binary64
  /-- The mean of all numbers. -/
  mean : List Binary64 → Binary64
  /-- The least of some numbers, of which one is the first. -/
  least : Binary64 → List Binary64 → Binary64
  /-- The greatest of some numbers, of which one is the first. -/
  greatest : Binary64 → List Binary64 → Binary64

open Numerics in
/-- What is known of a numerical library. Its values are NaN where an operand is, but for the powers that
are one whatever the other operand is; and a plus sign changes nothing. -/
class LawfulNumerics [Numerics] : Prop where
  /-- A plus sign changes nothing. -/
  positive_eq : ∀ x, positive x = x
  /-- No function of one argument has a value at NaN. -/
  unary_nan : ∀ f x, x.isNaN = true → (unary f x).isNaN = true
  /-- With the exponent zero every power is one, that of NaN too. -/
  power_zero : ∀ x y, y.isZero = true → power x y = 1
  /-- Every power of one is one, with the exponent NaN too. -/
  power_one : ∀ y, power 1 y = 1
  /-- All other powers with a NaN are NaN. -/
  power_nan : ∀ x y, x.isNaN = true ∨ y.isNaN = true → x ≠ 1 → y.isZero = false →
    (power x y).isNaN = true
  /-- There is no angle of a point with a NaN. -/
  atan2_nan : ∀ x y, x.isNaN = true ∨ y.isNaN = true → (atan2 x y).isNaN = true
  /-- There is no remainder of a division with a NaN. -/
  fmod_nan : ∀ x y, x.isNaN = true ∨ y.isNaN = true → (fmod x y).isNaN = true
  /-- A NaN stays one with any sign. -/
  copySign_nan : ∀ x y, x.isNaN = true → (copySign x y).isNaN = true
  /-- A sum with a NaN is NaN. -/
  sum_nan : ∀ xs, xs.any Binary64.isNaN = true → (sum xs).isNaN = true
  /-- A mean with a NaN is NaN. -/
  mean_nan : ∀ xs, xs.any Binary64.isNaN = true → (mean xs).isNaN = true
  /-- Among numbers with a NaN, the least is NaN. -/
  least_nan : ∀ x xs, (x :: xs).any Binary64.isNaN = true → (least x xs).isNaN = true
  /-- Among numbers with a NaN, the greatest is NaN. -/
  greatest_nan : ∀ x xs, (x :: xs).any Binary64.isNaN = true → (greatest x xs).isNaN = true

/-! ## Functions of any number of arguments -/

/-- Why a reducer refuses its arguments. -/
inductive Rejection where
  /-- There is no first or last argument. -/
  | noElement
  /-- There is no least (or greatest) argument. -/
  | noExtremum (greatest : Bool)
  /-- There is not exactly one argument. -/
  | notExactlyOne (received : Nat)
  /-- There is more than one argument. -/
  | moreThanOne (received : Nat)
  deriving DecidableEq, Repr

/-- The text that says why arguments are refused. -/
def Rejection.message : Rejection → String
  | .noElement => "tuple index out of range"
  | .noExtremum false =>
    "zero-size array to reduction operation minimum which has no identity"
  | .noExtremum true =>
    "zero-size array to reduction operation maximum which has no identity"
  | .notExactlyOne received =>
    "expects exactly one argument but received " ++ toString received
  | .moreThanOne received =>
    "expects at most one argument but received " ++ toString received

/-- A function of any number of arguments. -/
inductive Reducer where
  | sum
  | average
  | min
  | max
  | first
  | last
  | count
  | length
  | single
  | firstOrDefault
  | lastOrDefault
  | singleOrDefault
  deriving DecidableEq, Repr

namespace Reducer

/-- All reducers. -/
def all : List Reducer :=
  [.sum, .average, .min, .max, .first, .last, .count, .length, .single, .firstOrDefault,
    .lastOrDefault, .singleOrDefault]

/-- The name of a reducer. -/
def name : Reducer → String
  | .sum => "sum"
  | .average => "average"
  | .min => "min"
  | .max => "max"
  | .first => "first"
  | .last => "last"
  | .count => "count"
  | .length => "length"
  | .single => "single"
  | .firstOrDefault => "firstordefault"
  | .lastOrDefault => "lastordefault"
  | .singleOrDefault => "singleordefault"

/-- The **value of a reducer** on its arguments, or why it refuses them. -/
def apply [Numerics] : Reducer → List Binary64 → Except Rejection Binary64
  | .sum, xs => .ok (Numerics.sum xs)
  | .average, xs => .ok (Numerics.mean xs)
  | .min, x :: xs => .ok (Numerics.least x xs)
  | .min, [] => .error (.noExtremum false)
  | .max, x :: xs => .ok (Numerics.greatest x xs)
  | .max, [] => .error (.noExtremum true)
  | .first, x :: _ => .ok x
  | .first, [] => .error .noElement
  | .last, x :: xs => .ok (xs.getLastD x)
  | .last, [] => .error .noElement
  | .count, xs => .ok (.ofNat xs.length)
  | .length, xs => .ok (.ofNat xs.length)
  | .single, [x] => .ok x
  | .single, xs => .error (.notExactlyOne xs.length)
  | .firstOrDefault, xs => .ok (xs.headD (.zero false))
  | .lastOrDefault, xs => .ok (xs.getLastD (.zero false))
  | .singleOrDefault, [] => .ok (.zero false)
  | .singleOrDefault, [x] => .ok x
  | .singleOrDefault, xs => .error (.moreThanOne xs.length)

end Reducer

/-! ## Functions of two and three arguments -/

/-- The number of greater magnitude. Of equal magnitudes the positive number is greater; a NaN
wins. -/
def maxMagnitude (x y : Binary64) : Binary64 :=
  if y.abs.lt x.abs || x.isNaN then x
  else if x.abs.eqv y.abs then (if x.isNegative then y else x)
  else y

/-- The number of smaller magnitude. Of equal magnitudes the negative number is smaller; a NaN
wins. -/
def minMagnitude (x y : Binary64) : Binary64 :=
  if x.abs.lt y.abs || x.isNaN then x
  else if x.abs.eqv y.abs then (if x.isNegative then x else y)
  else y

/-- A function of two arguments. -/
inductive BinaryFunction where
  | atan2
  | copySign
  | ieeeRemainder
  | maxMagnitude
  | minMagnitude
  | mod
  | pow
  deriving DecidableEq, Repr

namespace BinaryFunction

/-- All functions of two arguments. -/
def all : List BinaryFunction :=
  [.atan2, .copySign, .ieeeRemainder, .maxMagnitude, .minMagnitude, .mod, .pow]

/-- The name of a function. -/
def name : BinaryFunction → String
  | .atan2 => "atan2"
  | .copySign => "copysign"
  | .ieeeRemainder => "ieeeremainder"
  | .maxMagnitude => "maxmagnitude"
  | .minMagnitude => "minmagnitude"
  | .mod => "mod"
  | .pow => "pow"

/-- The value of a function. -/
def apply [Numerics] : BinaryFunction → Binary64 → Binary64 → Binary64
  | .atan2 => Numerics.atan2
  | .copySign => Numerics.copySign
  | .ieeeRemainder => Binary64.ieeeRemainder
  | .maxMagnitude => Reckoner.maxMagnitude
  | .minMagnitude => Reckoner.minMagnitude
  | .mod => Numerics.fmod
  | .pow => Numerics.power

end BinaryFunction

/-- A function of three arguments. -/
inductive TernaryFunction where
  | fusedMultiplyAdd
  deriving DecidableEq, Repr

namespace TernaryFunction

/-- All functions of three arguments. -/
def all : List TernaryFunction := [.fusedMultiplyAdd]

/-- The name of a function. -/
def name : TernaryFunction → String
  | .fusedMultiplyAdd => "fusedmultiplyadd"

/-- The value of a function; the product is rounded before the sum. -/
def apply : TernaryFunction → Binary64 → Binary64 → Binary64 → Binary64
  | .fusedMultiplyAdd, x, y, z => x * y + z

end TernaryFunction

/-! ## All functions -/

/-- A **built-in function**. -/
inductive Function where
  | reducer (f : Reducer)
  | unary (f : UnaryFunction)
  | binary (f : BinaryFunction)
  | ternary (f : TernaryFunction)
  deriving DecidableEq, Repr

namespace Function

/-- All functions. -/
def all : List Function :=
  Reducer.all.map .reducer ++ UnaryFunction.all.map .unary ++ BinaryFunction.all.map .binary ++
    TernaryFunction.all.map .ternary

/-- The name of a function. -/
def name : Function → String
  | .reducer f => f.name
  | .unary f => f.name
  | .binary f => f.name
  | .ternary f => f.name

/-- The number of arguments that a function takes, if it is fixed. -/
def arity? : Function → Option Nat
  | .reducer _ => none
  | .unary _ => some 1
  | .binary _ => some 2
  | .ternary _ => some 3

/-- Whether a function takes any number of arguments. -/
def isVariadic (f : Function) : Bool := f.arity?.isNone

/-- The name under which the kind of a function is listed. -/
def kindName : Function → String
  | .reducer _ => "VARIADIC"
  | .unary _ => "UNARY"
  | .binary _ => "BINARY"
  | .ternary _ => "TERNARY"

/-- The **value of a function** on a list of arguments, or why it refuses them. On a wrong number of
arguments a function of fixed arity has no value. -/
def apply [Numerics] : Function → List Binary64 → Except Rejection Binary64
  | .reducer f, xs => f.apply xs
  | .unary f, [x] => .ok (Numerics.unary f x)
  | .binary f, [x, y] => .ok (f.apply x y)
  | .ternary f, [x, y, z] => .ok (f.apply x y z)
  | _, _ => .ok (.nan false)

end Function

/-! ## The factorial -/

/-- The factorial of a natural number. -/
def factorialNat : Nat → Nat
  | 0 => 1
  | n + 1 => (n + 1) * factorialNat n

/-- The **factorial** of a number, truncated toward zero: infinite from `171` on, and undefined for
negative integers and NaN. -/
def Binary64.factorial : Binary64 → Binary64
  | .nan _ => .nan false
  | .number s r h =>
    if r = topRank then (if s then .nan false else .number s r h)
    else
      let n := units r / unitsPerOne
      if s ∧ 0 < n then .nan false
      else if 170 < n then .infinity false
      else .ofNat (factorialNat n)

end Reckoner
