import Lu.Token.Basic
import Lu.Tree.Basic

namespace Lu

/-!
The grammar: which tokens make which tree. The trees stand nowhere, and their functions all have the
number 0.
-/

/-- How tightly an operator binds. Assignment stands at level 0, the prefix operators at 8 and what
needs no operator at 9. -/
def BinaryOp.level : BinaryOp → Nat
  | .or => 1
  | .and => 2
  | .equal | .notEqual => 3
  | .less | .lessEqual | .greater | .greaterEqual => 4
  | .add | .sub => 5
  | .mul | .div | .mod => 6
  | .pow => 7

def BinaryOp.mark : BinaryOp → Mark
  | .or => .orOr | .and => .andAnd
  | .equal => .equal | .notEqual => .notEqual
  | .less => .less | .lessEqual => .lessEqual | .greater => .greater | .greaterEqual => .greaterEqual
  | .add => .plus | .sub => .minus | .mul => .star | .div => .slash | .mod => .percent
  | .pow => .caret

def UnaryOp.mark : UnaryOp → Mark
  | .neg => .minus | .plus => .plus | .not => .bang

/-- The tokens that stand for a value. -/
inductive Literal : TokenKind → Value → Prop
  | int {n} : Literal (.int n) (.int n)
  | float {x} : Literal (.float x) (.float x)
  | str {text} : Literal (.str text) (.str text)
  | trueK : Literal (.keyword .trueK) (.int 1)
  | falseK : Literal (.keyword .falseK) (.int 0)
  | nilK : Literal (.keyword .nilK) .nil

/-- Parts with a comma between each two of them. -/
def separated : List (List TokenKind) → List TokenKind
  | [] => []
  | [part] => part
  | part :: rest => part ++ .mark .comma :: separated rest

theorem separated_cons_cons (part next : List TokenKind) (rest : List (List TokenKind)) :
    separated (part :: next :: rest) = part ++ .mark .comma :: separated (next :: rest) := rfl

/-- The tokens make an expression whose outermost operator stands at the level or above it. Other
operators than assignment and power associate to the left. -/
inductive Expr.Derives : Nat → List TokenKind → Expr → Prop
  | tighter {level tokens e} : level < 9 → Derives (level + 1) tokens e → Derives level tokens e
  | assign {left right target value} : Derives 1 left target → Derives 0 right value →
      Derives 0 (left ++ .mark .assign :: right) (.assign ⟨Span.nowhere, .unset⟩ target value)
  | binary {op left right l r} {level : Nat} : op.level = level → level < 7 → Derives level left l →
      Derives (level + 1) right r →
      Derives level (left ++ .mark op.mark :: right) (.binary ⟨Span.nowhere, .unset⟩ op l r)
  | power {left right l r} : Derives 8 left l → Derives 7 right r →
      Derives 7 (left ++ .mark .caret :: right) (.binary ⟨Span.nowhere, .unset⟩ .pow l r)
  | unary {op : UnaryOp} {tokens e} : Derives 8 tokens e →
      Derives 8 (.mark op.mark :: tokens) (.unary ⟨Span.nowhere, .unset⟩ op e)
  | literal {kind value} : Literal kind value →
      Derives 9 [kind] (.literal ⟨Span.nowhere, .unset⟩ value)
  | name {name} : Derives 9 [.ident name] (.variable ⟨Span.nowhere, .unset⟩ name .unset)
  | call {name} {args : List (List TokenKind × Expr)} : (∀ arg ∈ args, Derives 0 arg.1 arg.2) →
      Derives 9
        (.ident name :: .mark .leftParen :: separated (args.map (·.1)) ++ [.mark .rightParen])
        (.call ⟨Span.nowhere, .unset⟩ name Span.nowhere (args.map (·.2)) .unset)
  | parens {tokens e} : Derives 0 tokens e →
      Derives 9 (.mark .leftParen :: tokens ++ [.mark .rightParen]) e

/-- A type name after a colon, if there is one. -/
def typeTokens : Option String → List TokenKind
  | none => []
  | some name => [.mark .colon, .ident name]

def TypeName.ofName (name : String) : TypeName := ⟨name, Span.nowhere⟩

/-- A parameter is made of its name and that of its type. -/
def Param.ofNames (names : String × String) : Param :=
  ⟨names.1, Span.nowhere, .ofName names.2, .unset⟩

def paramTokens (names : String × String) : List TokenKind :=
  [.ident names.1, .mark .colon, .ident names.2]

/-- The part of a declaration after `let`. -/
inductive VarDecl.Derives : List TokenKind → VarDecl → Prop
  | intro {name tokens e} {typeName : Option String} : Expr.Derives 0 tokens e →
      Derives (.ident name :: typeTokens typeName ++ .mark .assign :: tokens)
        { name, nameSpan := Span.nowhere, typeName := typeName.map .ofName, init := e }

inductive ForInit.Derives : List TokenKind → ForInit → Prop
  | letVar {tokens decl} : VarDecl.Derives tokens decl →
      Derives (.keyword .letK :: tokens) (.letVar decl)
  | assign {tokens} {e : Expr} : Expr.Derives 0 tokens e → e.isAssign = true →
      Derives tokens (.assign e)

mutual

inductive Stmt.Derives : List TokenKind → Stmt → Prop
  | expr {tokens e} : Expr.Derives 0 tokens e →
      Stmt.Derives (tokens ++ [.mark .semicolon]) (.expr Span.nowhere e)
  | letVar {tokens decl} : VarDecl.Derives tokens decl →
      Stmt.Derives (.keyword .letK :: tokens ++ [.mark .semicolon]) (.letVar Span.nowhere decl)
  | function {tokens decl} : FunctionDecl.Derives tokens decl →
      Stmt.Derives tokens (.function Span.nowhere decl)
  | block {tokens body} : Block.Derives tokens body →
      Stmt.Derives tokens (.block Span.nowhere body)
  | ifElse {condition thenTokens elseTokens test thenBranch elseBranch} :
      Expr.Derives 0 condition test → Block.Derives thenTokens thenBranch →
      ElseDerives elseTokens elseBranch →
      Stmt.Derives (.keyword .ifK :: .mark .leftParen :: condition ++ .mark .rightParen ::
        thenTokens ++ elseTokens) (.ifElse Span.nowhere test thenBranch elseBranch)
  | whileLoop {condition tokens test body} :
      Expr.Derives 0 condition test → Block.Derives tokens body →
      Stmt.Derives (.keyword .whileK :: .mark .leftParen :: condition ++ .mark .rightParen :: tokens)
        (.whileLoop Span.nowhere test body)
  | forLoop {header condition stepTokens tokens init test step body} :
      ForInit.Derives header init → Expr.Derives 0 condition test → Expr.Derives 0 stepTokens step →
      Block.Derives tokens body →
      Stmt.Derives (.keyword .forK :: .mark .leftParen :: header ++ .mark .semicolon :: condition ++
        .mark .semicolon :: stepTokens ++ .mark .rightParen :: tokens)
        (.forLoop Span.nowhere init test step body)
  | breakLoop : Stmt.Derives [.keyword .breakK, .mark .semicolon] (.breakLoop Span.nowhere)
  | continueLoop :
      Stmt.Derives [.keyword .continueK, .mark .semicolon] (.continueLoop Span.nowhere)
  | returnNone :
      Stmt.Derives [.keyword .returnK, .mark .semicolon] (.returnValue Span.nowhere none)
  | returnSome {tokens e} : Expr.Derives 0 tokens e →
      Stmt.Derives (.keyword .returnK :: tokens ++ [.mark .semicolon])
        (.returnValue Span.nowhere (some e))

/-- What can follow the first branch. After `else` comes a block or another `if`, which is then a
block of that one statement. -/
inductive ElseDerives : List TokenKind → Option Block → Prop
  | none : ElseDerives [] none
  | block {tokens body} : Block.Derives tokens body →
      ElseDerives (.keyword .elseK :: tokens) (some body)
  | elseIf {tokens test thenBranch elseBranch} :
      Stmt.Derives tokens (.ifElse Span.nowhere test thenBranch elseBranch) →
      ElseDerives (.keyword .elseK :: tokens)
        (some ⟨Span.nowhere, [.ifElse Span.nowhere test thenBranch elseBranch]⟩)

inductive Block.Derives : List TokenKind → Block → Prop
  | intro {parts : List (List TokenKind × Stmt)} : (∀ part ∈ parts, Stmt.Derives part.1 part.2) →
      Block.Derives (.mark .leftBrace :: parts.flatMap (·.1) ++ [.mark .rightBrace])
        ⟨Span.nowhere, parts.map (·.2)⟩

inductive FunctionDecl.Derives : List TokenKind → FunctionDecl → Prop
  | intro {name tokens body} {params : List (String × String)} {resultName : Option String} :
      Block.Derives tokens body →
      FunctionDecl.Derives (.keyword .fnK :: .ident name :: .mark .leftParen ::
        separated (params.map paramTokens) ++ .mark .rightParen :: typeTokens resultName ++ tokens)
        ⟨0, name, Span.nowhere, params.map .ofNames, resultName.map .ofName, body, Span.nowhere,
          .unset⟩

end

/-- The tokens make a program: statements up to the end of file. -/
def Program.Derives (tokens : List TokenKind) (program : Program) : Prop :=
  ∃ parts : List (List TokenKind × Stmt), (∀ part ∈ parts, Stmt.Derives part.1 part.2) ∧
    tokens = parts.flatMap (·.1) ++ [.eof] ∧ program = ⟨parts.map (·.2), Span.nowhere⟩

/-- The tokens that an expression can begin with. -/
def TokenKind.BeginsExpr : TokenKind → Prop
  | .int _ | .float _ | .str _ | .ident _ => True
  | .keyword k => k = .trueK ∨ k = .falseK ∨ k = .nilK
  | .mark m => m = .leftParen ∨ m = .minus ∨ m = .plus ∨ m = .bang
  | .eof => False

theorem Literal.begins {kind : TokenKind} {value : Value} (literal : Literal kind value) :
    kind.BeginsExpr := by
  cases literal <;> simp [TokenKind.BeginsExpr]

theorem Expr.Derives.begins {level : Nat} {tokens : List TokenKind} {e : Expr}
    (derives : Expr.Derives level tokens e) :
    ∃ kind rest, tokens = kind :: rest ∧ kind.BeginsExpr := by
  induction derives with
  | tighter _ _ ih => exact ih
  | assign _ _ ih _ | binary _ _ _ _ ih _ | power _ _ ih _ =>
    obtain ⟨kind, rest, rfl, begins⟩ := ih
    exact ⟨kind, _, rfl, begins⟩
  | @unary op => exact ⟨_, _, rfl, by cases op <;> simp [UnaryOp.mark, TokenKind.BeginsExpr]⟩
  | literal literal => exact ⟨_, _, rfl, literal.begins⟩
  | name | call => exact ⟨_, _, rfl, trivial⟩
  | parens => exact ⟨_, _, rfl, .inl rfl⟩

theorem Expr.Derives.length_pos {level : Nat} {tokens : List TokenKind} {e : Expr}
    (derives : Expr.Derives level tokens e) : 0 < tokens.length := by
  obtain ⟨kind, rest, rfl, -⟩ := derives.begins
  exact Nat.succ_pos _

/-- A tighter expression is one of every looser level. -/
theorem Expr.Derives.loosen {level : Nat} {tokens : List TokenKind} {e : Expr} :
    ∀ count, level + count ≤ 9 → Expr.Derives (level + count) tokens e → Expr.Derives level tokens e
  | 0, _, derives => derives
  | count + 1, most, derives =>
    loosen count (Nat.le_of_succ_le most) (.tighter (Nat.lt_of_succ_le most) derives)

theorem Expr.Derives.loosest {level : Nat} {tokens : List TokenKind} {e : Expr}
    (derives : Expr.Derives level tokens e) : Expr.Derives 0 tokens e := by
  have most : level ≤ 9 := by cases derives <;> omega
  exact .loosen level (by omega) (by rwa [Nat.zero_add])

/-- Operators of one level with their right operands, and what they make of a first operand. -/
inductive Expr.Chain (level : Nat) : Expr → List TokenKind → Expr → Prop
  | done {e} : Chain level e [] e
  | more {op l r e tokens rest} : op.level = level → Expr.Derives (level + 1) tokens r →
      Chain level (.binary ⟨Span.nowhere, .unset⟩ op l r) rest e →
      Chain level l (.mark op.mark :: tokens ++ rest) e

theorem Expr.Chain.append {level : Nat} {first last r : Expr} {op : BinaryOp}
    {tokens right : List TokenKind} (chain : Expr.Chain level first tokens last)
    (same : op.level = level) (derives : Expr.Derives (level + 1) right r) :
    Expr.Chain level first (tokens ++ .mark op.mark :: right)
      (.binary ⟨Span.nowhere, .unset⟩ op last r) := by
  induction chain with
  | done => simpa using Expr.Chain.more same derives .done
  | more same' derives' _ ih => simpa using Expr.Chain.more same' derives' ih

/-- An expression of a level with left-associative operators is a first operand and a chain. -/
theorem Expr.Derives.chain {level : Nat} {tokens : List TokenKind} {e : Expr}
    (derives : Expr.Derives level tokens e) (least : 0 < level) (most : level < 7) :
    ∃ left rest first, tokens = left ++ rest ∧ Expr.Derives (level + 1) left first ∧
      Expr.Chain level first rest e := by
  induction derives with
  | tighter _ tighter _ => exact ⟨_, [], _, (List.append_nil _).symm, tighter, .done⟩
  | assign => omega
  | binary same _ _ right ih _ =>
    obtain ⟨left, rest, first, rfl, derives, chain⟩ := ih least most
    exact ⟨left, _, first, List.append_assoc .., derives, chain.append same right⟩
  | power | unary | literal | name | call | parens => omega

/-- A chain behind an expression of its level is one expression. -/
theorem Expr.Chain.derives {level : Nat} {first last : Expr} {tokens left : List TokenKind}
    (chain : Expr.Chain level first tokens last) (most : level < 7)
    (derives : Expr.Derives level left first) : Expr.Derives level (left ++ tokens) last := by
  induction chain generalizing left with
  | done => simpa using derives
  | more same right _ ih => simpa using ih (.binary same most derives right)

/-- The tokens that a statement can begin with. -/
def TokenKind.BeginsStmt : TokenKind → Prop
  | .keyword .elseK | .mark .rightBrace | .eof => False
  | .keyword .letK | .keyword .fnK | .keyword .ifK | .keyword .whileK | .keyword .forK
  | .keyword .breakK | .keyword .continueK | .keyword .returnK | .mark .leftBrace => True
  | kind => kind.BeginsExpr

theorem TokenKind.BeginsExpr.beginsStmt {kind : TokenKind} (begins : kind.BeginsExpr) :
    kind.BeginsStmt := by
  cases kind with
  | keyword k => obtain rfl | rfl | rfl := begins <;> simp [BeginsStmt, BeginsExpr]
  | mark m => obtain rfl | rfl | rfl | rfl := begins <;> simp [BeginsStmt, BeginsExpr]
  | int | float | str | ident => trivial
  | eof => exact begins

theorem FunctionDecl.Derives.begins {tokens : List TokenKind} {decl : FunctionDecl}
    (derives : FunctionDecl.Derives tokens decl) : ∃ rest, tokens = .keyword .fnK :: rest := by
  cases derives
  exact ⟨_, rfl⟩

theorem Block.Derives.begins {tokens : List TokenKind} {body : Block}
    (derives : Block.Derives tokens body) : ∃ rest, tokens = .mark .leftBrace :: rest := by
  cases derives
  exact ⟨_, rfl⟩

theorem Stmt.Derives.begins {tokens : List TokenKind} {s : Stmt} (derives : Stmt.Derives tokens s) :
    ∃ kind rest, tokens = kind :: rest ∧ kind.BeginsStmt := by
  cases derives with
  | expr derives =>
    obtain ⟨kind, rest, rfl, begins⟩ := derives.begins
    exact ⟨kind, _, rfl, begins.beginsStmt⟩
  | function derives =>
    obtain ⟨rest, rfl⟩ := derives.begins
    exact ⟨_, _, rfl, trivial⟩
  | block derives =>
    obtain ⟨rest, rfl⟩ := derives.begins
    exact ⟨_, _, rfl, trivial⟩
  | letVar | ifElse | whileLoop | forLoop | breakLoop | continueLoop | returnNone | returnSome =>
    exact ⟨_, _, rfl, trivial⟩

theorem Stmt.Derives.length_pos {tokens : List TokenKind} {s : Stmt}
    (derives : Stmt.Derives tokens s) : 0 < tokens.length := by
  obtain ⟨kind, rest, rfl, -⟩ := derives.begins
  exact Nat.succ_pos _

/-- What begins with `if` is an `if`. -/
theorem Stmt.Derives.eq_ifElse {tokens rest : List TokenKind} {s : Stmt}
    (derives : Stmt.Derives tokens s) (shape : tokens = .keyword .ifK :: rest) :
    ∃ test thenBranch elseBranch, s = .ifElse Span.nowhere test thenBranch elseBranch := by
  cases derives with
  | ifElse => exact ⟨_, _, _, rfl⟩
  | expr derives =>
    obtain ⟨kind, more, rfl, begins⟩ := derives.begins
    cases shape
    simp [TokenKind.BeginsExpr] at begins
  | function derives =>
    obtain ⟨more, rfl⟩ := derives.begins
    cases shape
  | block derives =>
    obtain ⟨more, rfl⟩ := derives.begins
    cases shape
  | letVar | whileLoop | forLoop | breakLoop | continueLoop | returnNone | returnSome => cases shape

end Lu
