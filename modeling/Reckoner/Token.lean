/-! # Tokens

The words of an expression.

* **`TokenKind`** — what a token is: an operator, a number, a name, a bracket, a comma, the end of
  the expression, or a character that belongs to no token.
* **`Token`** — a kind, its text and where the text begins.
* **`lexemes`** — the operators and brackets by their text, two characters before one, so that the
  first entry that a text begins with is the longest. -/

namespace Reckoner

/-- What a token is. -/
inductive TokenKind where
  | plus
  | minus
  | times
  | divide
  | percent
  | power
  | shiftLeft
  | shiftRight
  | plusMinus
  | minusPlus
  | timesMinus
  | timesPlus
  | divideMinus
  | dividePlus
  | percentMinus
  | percentPlus
  | factorial
  | number
  | variable
  | function
  | openParen
  | closeParen
  | comma
  /-- The end of the expression. -/
  | finish
  /-- A character that no token begins with. -/
  | illegal
  deriving DecidableEq, Repr

namespace TokenKind

/-- All kinds. -/
def all : List TokenKind :=
  [.plus, .minus, .times, .divide, .percent, .power, .shiftLeft, .shiftRight, .plusMinus,
    .minusPlus, .timesMinus, .timesPlus, .divideMinus, .dividePlus, .percentMinus, .percentPlus,
    .factorial, .number, .variable, .function, .openParen, .closeParen, .comma, .finish, .illegal]

/-- The name under which a kind is listed. -/
def name : TokenKind → String
  | .plus => "PLUS"
  | .minus => "MINUS"
  | .times => "MULTIPLY"
  | .divide => "DIVIDE"
  | .percent => "MODULO"
  | .power => "EXPONENT"
  | .shiftLeft => "SHIFT_LEFT"
  | .shiftRight => "SHIFT_RIGHT"
  | .plusMinus => "PLUS_MINUS"
  | .minusPlus => "MINUS_PLUS"
  | .timesMinus => "MULTIPLY_MINUS"
  | .timesPlus => "MULTIPLY_PLUS"
  | .divideMinus => "DIVIDE_MINUS"
  | .dividePlus => "DIVIDE_PLUS"
  | .percentMinus => "MODULO_MINUS"
  | .percentPlus => "MODULO_PLUS"
  | .factorial => "FACTORIAL"
  | .number => "NUMBER"
  | .variable => "VARIABLE"
  | .function => "FUNCTION"
  | .openParen => "OPEN_PAREN"
  | .closeParen => "CLOSE_PAREN"
  | .comma => "COMMA"
  | .finish => "END"
  | .illegal => "ILLEGAL"

/-- The kind with a given name. -/
def ofName? (name : String) : Option TokenKind := all.find? fun k => k.name = name

end TokenKind

/-- A **token**: its kind, its text, and the position of its first character. -/
structure Token where
  /-- What the token is. -/
  kind : TokenKind
  /-- The characters of the token; empty at the end of the expression. -/
  literal : String
  /-- The position of the first character in the expression. -/
  offset : Nat
  deriving DecidableEq, Repr

/-- The position after the last character. -/
def Token.stop (t : Token) : Nat := t.offset + t.literal.length

/-- The operators and brackets by their text. -/
def lexemes : List (List Char × TokenKind) :=
  [(['<', '<'], .shiftLeft),
    (['>', '>'], .shiftRight),
    (['+', '-'], .plusMinus),
    (['-', '+'], .minusPlus),
    (['*', '-'], .timesMinus),
    (['*', '+'], .timesPlus),
    (['/', '-'], .divideMinus),
    (['/', '+'], .dividePlus),
    (['%', '-'], .percentMinus),
    (['%', '+'], .percentPlus),
    (['+'], .plus),
    (['-'], .minus),
    (['*'], .times),
    (['/'], .divide),
    (['%'], .percent),
    (['^'], .power),
    (['!'], .factorial),
    (['('], .openParen),
    ([')'], .closeParen),
    ([','], .comma)]

end Reckoner
