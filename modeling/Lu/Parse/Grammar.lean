import Lu.Parse.Basic
import Lu.Tree.Basic

namespace Lu

/-- The marks of the binary operators that associate to the left, by precedence, the loosest
first. -/
def binaryLevels : List (List (Mark × BinaryOp)) :=
  [[(.orOr, .or)],
   [(.andAnd, .and)],
   [(.equal, .equal), (.notEqual, .notEqual)],
   [(.less, .less), (.lessEqual, .lessEqual), (.greater, .greater), (.greaterEqual, .greaterEqual)],
   [(.plus, .add), (.minus, .sub)],
   [(.star, .mul), (.slash, .div), (.percent, .mod)]]

/-- The operator of a level that a token is. -/
def operatorIn? (level : List (Mark × BinaryOp)) : TokenKind → Option BinaryOp
  | .mark m => level.lookup m
  | _ => none

def prefixOp? : TokenKind → Option UnaryOp
  | .mark .minus => some .neg
  | .mark .plus => some .plus
  | .mark .bang => some .not
  | _ => none

/-- The value of a literal token. Truth values are integers. -/
def literalValue? : TokenKind → Option Value
  | .int n => some (.int n)
  | .float x => some (.float x)
  | .str text => some (.str text)
  | .keyword .trueK => some (.ofBool true)
  | .keyword .falseK => some (.ofBool false)
  | .keyword .nilK => some .nil
  | _ => none

namespace Expr

/-- An operator application covers its operands. -/
def ofBinary (op : BinaryOp) (left right : Expr) : Expr :=
  .binary { span := left.span.merge right.span } op left right

def ofAssign (target value : Expr) : Expr :=
  .assign { span := target.span.merge value.span } target value

end Expr

namespace Parser

mutual

/-- An expression: an operator expression, or an assignment to one. Assignment associates to the
right. -/
def expression : Nat → Parser Expr
  | 0 => outOfFuel
  | fuel + 1 => do
    let left ← operators fuel binaryLevels
    if ← eat (.mark .assign) then
      let right ← expression fuel
      return Expr.ofAssign left right
    return left

/-- An expression of the given levels of operators. -/
def operators : Nat → List (List (Mark × BinaryOp)) → Parser Expr
  | 0, _ => outOfFuel
  | fuel + 1, [] => power fuel
  | fuel + 1, level :: tighter => do
    let left ← operators fuel tighter
    operatorTail fuel level tighter left

/-- What follows the first operand of a level. -/
def operatorTail : Nat → List (Mark × BinaryOp) → List (List (Mark × BinaryOp)) → Expr → Parser Expr
  | 0, _, _, _ => outOfFuel
  | fuel + 1, level, tighter, left => do
    match operatorIn? level (← cursor).currentKind with
    | none => return left
    | some op =>
      let _ ← advance
      let right ← operators fuel tighter
      operatorTail fuel level tighter (Expr.ofBinary op left right)

/-- A power associates to the right and binds looser than the operators before its operands. -/
def power : Nat → Parser Expr
  | 0 => outOfFuel
  | fuel + 1 => do
    let base ← unary fuel
    if ← eat (.mark .caret) then
      let exponent ← power fuel
      return Expr.ofBinary .pow base exponent
    return base

def unary : Nat → Parser Expr
  | 0 => outOfFuel
  | fuel + 1 => do
    let start := (← cursor).currentSpan
    match prefixOp? (← cursor).currentKind with
    | some op =>
      let _ ← advance
      let operand ← unary fuel
      return .unary { span := start.merge operand.span } op operand
    | none => primary fuel

/-- A literal, a name, a call or an expression in parentheses, which then covers them too. -/
def primary : Nat → Parser Expr
  | 0 => outOfFuel
  | fuel + 1 => do
    let token := (← cursor).current
    match literalValue? token.kind with
    | some value =>
      let _ ← advance
      return .literal { span := token.span } value
    | none =>
      match token.kind with
      | .ident _ => nameOrCall fuel
      | .mark .leftParen =>
        let _ ← advance
        let inner ← expression fuel
        let close ← expect (.mark .rightParen)
        return inner.setSpan (token.span.merge close.span)
      | found => fail (.expectedExpression found) token.span

def nameOrCall : Nat → Parser Expr
  | 0 => outOfFuel
  | fuel + 1 => do
    let (name, nameSpan) ← expectIdent
    if ← eat (.mark .leftParen) then
      let args ← if (← cursor).check (.mark .rightParen) then pure [] else arguments fuel []
      let close ← expect (.mark .rightParen)
      return .call { span := nameSpan.merge close.span } name nameSpan args .unset
    return .variable { span := nameSpan } name .unset

/-- At least one argument; `before` are those already read, the last one first. -/
def arguments : Nat → List Expr → Parser (List Expr)
  | 0, _ => outOfFuel
  | fuel + 1, before => do
    let arg ← expression fuel
    if ← eat (.mark .comma) then arguments fuel (arg :: before)
    else return (arg :: before).reverse

end

/-- The name of a type, or fails there. -/
def typeName : Parser TypeName := do
  let token := (← cursor).current
  match token.kind with
  | .ident name =>
    let _ ← advance
    return ⟨name, token.span⟩
  | found => fail (.expectedType found) token.span

/-- A type name after a colon, if there is a colon. -/
def typeAfterColon : Parser (Option TypeName) := do
  if ← eat (.mark .colon) then return some (← typeName)
  return none

/-- The part of a declaration after `let`. -/
def varDecl (fuel : Nat) : Parser VarDecl := do
  let (name, nameSpan) ← expectIdent
  let typeName ← typeAfterColon
  let token := (← cursor).current
  if ← eat (.mark .assign) then
    let init ← expression fuel
    return { name, nameSpan, typeName, init }
  fail (.uninitialized name token.kind) token.span

/-- An expression in parentheses. -/
def condition (fuel : Nat) : Parser Expr := do
  let _ ← expect (.mark .leftParen)
  let e ← expression fuel
  let _ ← expect (.mark .rightParen)
  return e

/-- At least one parameter; `before` are those already read, the last one first. -/
def parameters : Nat → List Param → Parser (List Param)
  | 0, _ => outOfFuel
  | fuel + 1, before => do
    let (name, span) ← expectIdent
    let _ ← expect (.mark .colon)
    let typeName ← typeName
    let param : Param := { name, span, typeName }
    if ← eat (.mark .comma) then parameters fuel (param :: before)
    else return (param :: before).reverse

/-- The first part of a `for` header: a declaration or an assignment. -/
def forInit (fuel : Nat) : Parser ForInit := do
  if ← eat (.keyword .letK) then return .letVar (← varDecl fuel)
  let e ← expression fuel
  if e.isAssign then return .assign e
  fail .forHeader e.span

mutual

/-- A statement covers its tokens, the semicolon included. -/
def statement : Nat → Parser Stmt
  | 0 => outOfFuel
  | fuel + 1 => do
    let start := (← cursor).currentSpan
    let covered : Parser Span := do return start.merge (← cursor).previousSpan
    match (← cursor).currentKind with
    | .keyword .letK =>
      let _ ← advance
      let decl ← varDecl fuel
      let _ ← expect (.mark .semicolon)
      return .letVar (← covered) decl
    | .keyword .fnK =>
      let decl ← function fuel
      return .function (← covered) decl
    | .keyword .ifK =>
      let _ ← advance
      let test ← condition fuel
      let thenBranch ← block fuel
      let elseBranch ← elseBranch fuel
      return .ifElse (← covered) test thenBranch elseBranch
    | .keyword .whileK =>
      let _ ← advance
      let test ← condition fuel
      let body ← block fuel
      return .whileLoop (← covered) test body
    | .keyword .forK =>
      let _ ← advance
      let _ ← expect (.mark .leftParen)
      let init ← forInit fuel
      let _ ← expect (.mark .semicolon)
      let test ← expression fuel
      let _ ← expect (.mark .semicolon)
      let step ← expression fuel
      let _ ← expect (.mark .rightParen)
      let body ← block fuel
      return .forLoop (← covered) init test step body
    | .keyword .breakK =>
      let _ ← advance
      let _ ← expect (.mark .semicolon)
      return .breakLoop (← covered)
    | .keyword .continueK =>
      let _ ← advance
      let _ ← expect (.mark .semicolon)
      return .continueLoop (← covered)
    | .keyword .returnK =>
      let _ ← advance
      let value ←
        if (← cursor).check (.mark .semicolon) then pure none else some <$> expression fuel
      let _ ← expect (.mark .semicolon)
      return .returnValue (← covered) value
    | .mark .leftBrace =>
      let body ← block fuel
      return .block (← covered) body
    | _ =>
      let e ← expression fuel
      let _ ← expect (.mark .semicolon)
      return .expr (← covered) e

/-- Statements in braces. -/
def block : Nat → Parser Block
  | 0 => outOfFuel
  | fuel + 1 => do
    let start ← expect (.mark .leftBrace)
    let statements ← statements fuel []
    let stop ← expect (.mark .rightBrace)
    return ⟨start.span.merge stop.span, statements⟩

/-- Statements up to a closing brace; `before` are those already read, the last one first. -/
def statements : Nat → List Stmt → Parser (List Stmt)
  | 0, _ => outOfFuel
  | fuel + 1, before => do
    if (← cursor).check (.mark .rightBrace) then return before.reverse
    else if (← cursor).isAtEnd then fail .unclosedBlock (← cursor).currentSpan
    else
      let s ← statement fuel
      statements fuel (s :: before)

/-- A function takes its number when its body is closed. -/
def function : Nat → Parser FunctionDecl
  | 0 => outOfFuel
  | fuel + 1 => do
    let start ← expect (.keyword .fnK)
    let (name, nameSpan) ← expectIdent
    let _ ← expect (.mark .leftParen)
    let params ← if (← cursor).check (.mark .rightParen) then pure [] else parameters fuel []
    let _ ← expect (.mark .rightParen)
    let resultName ← typeAfterColon
    let body ← block fuel
    let id ← freshFunction
    return ⟨id, name, nameSpan, params, resultName, body, start.span.merge body.span, .unset⟩

/-- The branch after `else`. An `if` there is a block of its own. -/
def elseBranch : Nat → Parser (Option Block)
  | 0 => outOfFuel
  | fuel + 1 => do
    if ← eat (.keyword .elseK) then
      if (← cursor).check (.keyword .ifK) then
        let nestedIf ← statement fuel
        return some ⟨nestedIf.span, [nestedIf]⟩
      return some (← block fuel)
    return none

end

/-- Statements up to the end of file; `before` are those already read, the last one first. -/
def programStatements : Nat → List Stmt → Parser (List Stmt)
  | 0, _ => outOfFuel
  | fuel + 1, before => do
    if (← cursor).isAtEnd then return before.reverse
    else
      let s ← statement fuel
      programStatements fuel (s :: before)

/-- A program spans from its first token to the end of file. -/
def program (fuel : Nat) : Parser Program := do
  let start := (← cursor).currentSpan
  let statements ← programStatements fuel []
  return ⟨statements, start.merge (← cursor).currentSpan⟩

end Parser

/-- Fuel for a list of tokens. Between two tokens the grammar descends through fewer than
sixteen rules. -/
def parseFuel (tokens : List Token) : Nat := 16 * (tokens.length + 2)

/-- The program that the tokens are, or the first error. A list that does not end in an end of
file may have no answer. -/
def parse? (tokens : List Token) : Option (Except ParseError Program) :=
  match Parser.program (parseFuel tokens) { cursor := Cursor.ofTokens tokens } with
  | .done program _ => some (.ok program)
  | .failed e => some (.error e)
  | .outOfFuel => none

end Lu
