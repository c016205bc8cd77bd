import Lu.Proofs.Scoping.Lexical
import Lu.Proofs.Tree.Nodes

namespace Lu

/-!
How the slots of a tree are filled in the course of the analysis: with symbols first, then with
types.
-/

/-- The parameters of a function of the program have their types. -/
def Callee.Announced : Callee → Prop
  | .user function => ∀ param ∈ function.params, param.type.isSet = true
  | .native _ => True

/-- The slots for symbols are filled, and those for types just if the tree is typed. A variable has
its declared type just if it is annotated. -/
def Node.Filled (typed : Bool) : Node → Prop
  | .expr (.variable note _ symbol) => note.type.isSet = typed ∧
    ∃ s, symbol.value? = some s ∧ (typed = true → s.type.isSet = true)
  | .expr (.call note _ _ _ callee) => note.type.isSet = typed ∧
    ∃ c, callee.value? = some c ∧ c.Announced
  | .expr e => e.type.isSet = typed
  | .variable decl => decl.declared.value? = decl.typeName.map TypeName.meaning ∧
    ∃ s, decl.symbol.value? = some s ∧ s.type.isSet = typed
  | .function decl => decl.symbol.isSet = true ∧
    ∀ param ∈ decl.params, ∃ s, param.symbol.value? = some s ∧ s.type.isSet = true

/-- All nodes of a tree are filled. -/
abbrev AllFilled (typed : Bool) (nodes : List Node) : Prop := ∀ node ∈ nodes, node.Filled typed

end Lu
