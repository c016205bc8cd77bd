import Lu.Value.Type

namespace Lu

inductive BinaryOp where
  | or | and
  | equal | notEqual
  | less | lessEqual | greater | greaterEqual
  | add | sub | mul | div | mod | pow
deriving DecidableEq, Repr, Inhabited

/-- The kinds of binary operators. -/
inductive OpFamily where
  | logical
  | equality
  | relational
  | arithmetic
deriving DecidableEq, Repr

namespace BinaryOp

/-- Every binary operator, the loosest first. -/
def all : List BinaryOp :=
  [.or, .and, .equal, .notEqual, .less, .lessEqual, .greater, .greaterEqual,
   .add, .sub, .mul, .div, .mod, .pow]

def symbol : BinaryOp → String
  | .or => "||" | .and => "&&"
  | .equal => "==" | .notEqual => "!="
  | .less => "<" | .lessEqual => "<=" | .greater => ">" | .greaterEqual => ">="
  | .add => "+" | .sub => "-" | .mul => "*" | .div => "/" | .mod => "%" | .pow => "^"

def ofSymbol? (text : String) : Option BinaryOp := all.find? (·.symbol == text)

def family : BinaryOp → OpFamily
  | .or | .and => .logical
  | .equal | .notEqual => .equality
  | .less | .lessEqual | .greater | .greaterEqual => .relational
  | .add | .sub | .mul | .div | .mod | .pow => .arithmetic

/-- The type of the result, if the operator takes operands of the two types. Comparisons take two
numbers or two strings. -/
def resultType? (op : BinaryOp) (left right : Ty) : Option Ty :=
  match op.family with
  | .arithmetic => left.promote? right
  | .logical => if left = .int ∧ right = .int then some .int else none
  | .equality | .relational =>
    if (left.promote? right).isSome ∨ (left = .str ∧ right = .str) then some .int else none

end BinaryOp

inductive UnaryOp where
  | neg
  | plus
  | not
deriving DecidableEq, Repr, Inhabited

namespace UnaryOp

def all : List UnaryOp := [.neg, .plus, .not]

def symbol : UnaryOp → String
  | .neg => "-"
  | .plus => "+"
  | .not => "!"

def ofSymbol? (text : String) : Option UnaryOp := all.find? (·.symbol == text)

/-- The type of the result, if the operator takes an operand of the type. -/
def resultType? (op : UnaryOp) (operand : Ty) : Option Ty :=
  match op with
  | .neg | .plus => if operand.isNumeric then some operand else none
  | .not => if operand = .int then some .int else none

end UnaryOp

end Lu
