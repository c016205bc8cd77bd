import Lu.Proofs.Tree.Bare
import Lu.Token.Basic

namespace Lu

/-!
The same tokens and expressions further behind in a text.
-/

def Span.shift (offset : Nat) (span : Span) : Span := ⟨span.start + offset, span.stop + offset⟩

def Token.shift (offset : Nat) (token : Token) : Token := ⟨token.kind, token.span.shift offset⟩

def ExprNote.shift (offset : Nat) (note : ExprNote) : ExprNote :=
  { note with span := note.span.shift offset }

def Expr.shift (offset : Nat) : Expr → Expr
  | .literal note value => .literal (note.shift offset) value
  | .variable note name symbol => .variable (note.shift offset) name symbol
  | .assign note target value => .assign (note.shift offset) (target.shift offset) (value.shift offset)
  | .binary note op left right =>
    .binary (note.shift offset) op (left.shift offset) (right.shift offset)
  | .unary note op operand => .unary (note.shift offset) op (operand.shift offset)
  | .call note name nameSpan args callee =>
    .call (note.shift offset) name (nameSpan.shift offset) (shiftAll args) callee
where
  shiftAll : List Expr → List Expr
    | [] => []
    | e :: rest => e.shift offset :: shiftAll rest

variable {offset : Nat}

theorem Expr.shiftAll_eq_map (args : List Expr) :
    Expr.shift.shiftAll offset args = args.map (Expr.shift offset) := by
  induction args with
  | nil => rfl
  | cons e rest ih => simp [shift.shiftAll, ih]

theorem Expr.shift_setSpan (e : Expr) (span : Span) :
    (e.setSpan span).shift offset = (e.shift offset).setSpan (span.shift offset) := by
  cases e <;> rfl

theorem Expr.bare_shift (e : Expr) : (e.shift offset).bare = e.bare := by
  cases e with
  | assign _ target value => simp [shift, bare, ExprNote.bare, bare_shift target, bare_shift value,
      ExprNote.shift]
  | binary _ _ left right => simp [shift, bare, ExprNote.bare, bare_shift left, bare_shift right,
      ExprNote.shift]
  | unary _ _ operand => simp [shift, bare, ExprNote.shift, ExprNote.bare, bare_shift operand]
  | call _ _ _ args =>
    have each : ∀ arg ∈ args, (arg.shift offset).bare = arg.bare := fun arg _ => bare_shift arg
    simpa [shift, bare, ExprNote.shift, ExprNote.bare, shiftAll_eq_map] using each
  | _ => rfl

end Lu
