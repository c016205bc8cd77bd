import Lu.Text.Quoted
import Lu.Tree.Basic

namespace Lu

/-!
An outline shows a tree with every span and every slot, in parentheses. A slot that is not set
shows as a question mark.
-/

private def typeText {name : String} (slot : Attribute name Ty) : String :=
  match slot.value? with
  | some ty => ty.name
  | none => "?"

namespace VariableKind

def name : VariableKind → String
  | .localVar => "Local"
  | .parameter => "Parameter"
  | .iterator => "Iterator"

end VariableKind

private def symbolText {name : String} (slot : Attribute name VariableSymbol) : String :=
  match slot.value? with
  | some symbol => s!"{symbol.kind.name}@{symbol.span}:" ++ typeText symbol.type
  | none => "?"

private def calleeText {name : String} (slot : Attribute name Callee) : String :=
  match slot.value? with
  | some (.native signature) => s!"native:{signature.name}"
  | some (.user symbol) => s!"user#{symbol.id}@{symbol.span}"
  | none => "?"

private def noteText (note : ExprNote) : String := s!"@{note.span} :" ++ typeText note.type

private def typeNameText : Option TypeName → String
  | some typeName => s!"{typeName.name}@{typeName.span}"
  | none => "_"

private def valueOutline : Value → String
  | .int n => s!"int {n.toInt}"
  | .float x => "float " ++ FloatLayout.plain.write x
  | .str text => "str " ++ outlineQuoted text
  | .void => "void"
  | .nil => "nil"

namespace Expr

def outline : Expr → String
  | .literal note value => "(" ++ valueOutline value ++ " " ++ noteText note ++ ")"
  | .variable note name symbol =>
    s!"(var {name} " ++ noteText note ++ " " ++ symbolText symbol ++ ")"
  | .assign note target value =>
    "(= " ++ noteText note ++ " " ++ target.outline ++ " " ++ value.outline ++ ")"
  | .binary note op left right =>
    s!"({op.symbol} " ++ noteText note ++ " " ++ left.outline ++ " " ++ right.outline ++ ")"
  | .unary note op operand =>
    s!"(unary{op.symbol} " ++ noteText note ++ " " ++ operand.outline ++ ")"
  | .call note name nameSpan args callee =>
    s!"(call {name}@{nameSpan} " ++ noteText note ++ " " ++ calleeText callee
      ++ outlines args ++ ")"
where
  outlines : List Expr → String
    | [] => ""
    | arg :: rest => " " ++ arg.outline ++ outlines rest

end Expr

private def varDeclText (decl : VarDecl) : String :=
  s!"{decl.name}@{decl.nameSpan} " ++ typeNameText decl.typeName ++ " declared:"
    ++ typeText decl.declared ++ " " ++ symbolText decl.symbol ++ " " ++ decl.init.outline

private def paramText (param : Param) : String :=
  s!"{param.name}@{param.span} {param.typeName.name}@{param.typeName.span} "
    ++ symbolText param.symbol

private def forInitText : ForInit → String
  | .letVar decl => "let " ++ varDeclText decl
  | .assign e => e.outline

private def resultText (slot : Attribute "function symbol" FunctionSymbol) : String :=
  match slot.value? with
  | some symbol => symbol.result.name
  | none => "?"

mutual

def Stmt.outline : Stmt → String
  | .expr span e => s!"(expr @{span} " ++ e.outline ++ ")"
  | .letVar span decl => s!"(let @{span} " ++ varDeclText decl ++ ")"
  | .function span decl => s!"(fn @{span} " ++ decl.outline ++ ")"
  | .block span body => s!"(block @{span} " ++ body.outline ++ ")"
  | .ifElse span condition thenBranch none =>
    s!"(if @{span} " ++ condition.outline ++ " " ++ thenBranch.outline ++ " _)"
  | .ifElse span condition thenBranch (some elseBranch) =>
    s!"(if @{span} " ++ condition.outline ++ " " ++ thenBranch.outline ++ " "
      ++ elseBranch.outline ++ ")"
  | .whileLoop span condition body =>
    s!"(while @{span} " ++ condition.outline ++ " " ++ body.outline ++ ")"
  | .forLoop span init condition step body =>
    s!"(for @{span} (" ++ forInitText init ++ ") " ++ condition.outline ++ " " ++ step.outline
      ++ " " ++ body.outline ++ ")"
  | .breakLoop span => s!"(break @{span})"
  | .continueLoop span => s!"(continue @{span})"
  | .returnValue span none => s!"(return @{span})"
  | .returnValue span (some value) => s!"(return @{span} " ++ value.outline ++ ")"

def Stmt.outlines : List Stmt → String
  | [] => ""
  | s :: rest => " " ++ s.outline ++ Stmt.outlines rest

def Block.outline : Block → String
  | ⟨span, statements⟩ => s!"\x7b@{span}" ++ Stmt.outlines statements ++ "\x7d"

def FunctionDecl.outline : FunctionDecl → String
  | ⟨id, name, nameSpan, params, resultName, body, span, symbol⟩ =>
    s!"#{id} {name}@{nameSpan} [" ++ ", ".intercalate (params.map paramText) ++ "] "
      ++ typeNameText resultName ++ " result:" ++ resultText symbol ++ s!" decl@{span} "
      ++ body.outline

end

end Lu
