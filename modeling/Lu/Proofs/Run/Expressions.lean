import Lu.Proofs.Run.Ready
import Lu.Proofs.Run.Safe
import Lu.Proofs.Typing.Agreement

namespace Lu

/-!
Expressions are safe: given what they call is safe with less fuel, they leave the scopes as they were
and one operand more, of the type that the checker found.
-/

/-- The state that pieces start from: the history is fine, the scopes are those of the layout, and
the functions in them are ready. -/
structure Steady (strict : Prop) (listed awaited : List FunctionDecl) (history : History)
    (machine : Machine) : Prop where
  fine : history.Fine strict
  follows : machine.context.Follows strict history.layout
  sound : history.layout.Sound strict listed awaited

/-- Afterwards nothing is declared that was not before, and the operands are the given ones. -/
structure Stays (strict : Prop) (history : History) (operands : List Value) (history' : History)
    (machine' : Machine) : Prop where
  layout : history'.layout = history.layout
  follows : machine'.context.Follows strict history.layout
  operands : machine'.operands = operands

/-- The function can be called with the arguments: its declaration is visible, and there is an
argument for each parameter. -/
structure FunctionSymbol.Callable (strict : Prop) (layout : Layout) (symbol : FunctionSymbol)
    (args : List Value) : Prop where
  visible : ∃ index ∈ layout.chain, ∃ layer decl, layout.layers[index]? = some layer ∧
    layer.functions.lookup symbol.id = some decl ∧ decl.binding = symbol
  length : args.length = symbol.params.length
  fits : ∀ value param, (value, param) ∈ args.zip symbol.params → value.Fits strict param

structure Block.Ready (strict : Prop) (listed : List FunctionDecl) (around : Surroundings)
    (result : Option Ty) (layout : Layout) (scopes : Scopes) (body : Block) : Prop where
  resolved : body.Resolved scopes
  placed : body.checkPlacement around = .ok ()
  typed : strict → body.Typed result
  uncaptured : strict → body.uncaptured = true
  among : body.functions.Sublist listed
  realizes : layout.Realizes strict [] scopes body.freeNames layout.chain

structure VarDecl.Ready (strict : Prop) (layout : Layout) (scopes : Scopes) (kind : VariableKind)
    (decl : VarDecl) : Prop where
  resolved : decl.Resolved scopes kind
  placed : decl.init.checkPlacement = .ok ()
  typed : strict → ∃ binding, decl.Typed binding
  realizes : layout.Realizes strict [] scopes decl.init.names layout.chain
  isNew : layout.IsNew decl.name

def Flow.isNext : Flow → Bool
  | .next _ => true
  | _ => false

def Stmt.isReturn : Stmt → Bool
  | .returnValue .. => true
  | _ => false

/-- A condition is an integer, where types matter. -/
def Expr.MayDecide (strict : Prop) (e : Expr) : Prop := strict → e.type.value? = some .int

section Parts

variable {strict : Prop} {layout : Layout} {scopes : Scopes} {note : ExprNote}

theorem Expr.Ready.binary {op : BinaryOp} {left right : Expr}
    (ready : (Expr.binary note op left right).Ready strict layout scopes) :
    left.Ready strict layout scopes ∧ right.Ready strict layout scopes ∧
      (strict → ∃ leftType rightType ty, left.type.value? = some leftType ∧
        right.type.value? = some rightType ∧ op.resultType? leftType rightType = some ty ∧
        note.type.value? = some ty) := by
  obtain ⟨resolved, placed, typed, realizes⟩ := ready
  obtain ⟨_, leftPlaced, rightPlaced⟩ := bind_eq_ok.mp placed
  have leftFree : ∀ name ∈ left.names, name ∈ left.names ++ right.names :=
    fun name => List.mem_append_left _
  have rightFree : ∀ name ∈ right.names, name ∈ left.names ++ right.names :=
    fun name => List.mem_append_right _
  cases resolved with
  | binary leftResolved rightResolved =>
    refine ⟨⟨leftResolved, leftPlaced, fun holds => ?_, realizes.subset leftFree⟩,
      ⟨rightResolved, rightPlaced, fun holds => ?_, realizes.subset rightFree⟩, fun holds => ?_⟩
    · cases typed holds; assumption
    · cases typed holds; assumption
    · cases typed holds with
      | binary _ _ leftType rightType result type =>
        exact ⟨_, _, _, leftType, rightType, result, type⟩

theorem Expr.Ready.unary {op : UnaryOp} {operand : Expr}
    (ready : (Expr.unary note op operand).Ready strict layout scopes) :
    operand.Ready strict layout scopes ∧ (strict → ∃ operandType ty,
      operand.type.value? = some operandType ∧ op.resultType? operandType = some ty ∧
      note.type.value? = some ty) := by
  obtain ⟨resolved, placed, typed, realizes⟩ := ready
  cases resolved with
  | unary operandResolved =>
    refine ⟨⟨operandResolved, placed, fun holds => ?_, realizes⟩, fun holds => ?_⟩
    · cases typed holds; assumption
    · cases typed holds with
      | unary _ operandType result type => exact ⟨_, _, operandType, result, type⟩

theorem Expr.Ready.assign {target value : Expr}
    (ready : (Expr.assign note target value).Ready strict layout scopes) :
    value.Ready strict layout scopes ∧ ∃ place name symbol s,
      target = .variable place name symbol ∧ scopes.lookup name = some (.variable s) ∧
      symbol.value? = some s ∧ (strict → note.type.value? = some .void ∧
        ∃ ty, s.type.value? = some ty ∧ value.type.value? = some ty ∧ ty ≠ .void) := by
  obtain ⟨resolved, placed, typed, realizes⟩ := ready
  obtain ⟨_, -, placed⟩ := bind_eq_ok.mp placed
  obtain ⟨_, valuePlaced, placed⟩ := bind_eq_ok.mp placed
  have valueFree : ∀ name ∈ value.names, name ∈ target.names ++ value.names :=
    fun name => List.mem_append_right _
  cases resolved with
  | assign targetResolved valueResolved =>
    refine ⟨⟨valueResolved, valuePlaced, fun holds => ?_, realizes.subset valueFree⟩, ?_⟩
    · cases typed holds; assumption
    · cases targetResolved with
      | @«variable» place name symbol s found stored =>
        refine ⟨place, name, symbol, s, rfl, found, stored, fun holds => ?_⟩
        cases typed holds with
        | assign targetTyped _ targetType valueType notVoid type =>
          cases targetTyped with
          | «variable» stored' symbolType targetType' =>
            cases stored.symm.trans stored'
            cases targetType.symm.trans targetType'
            exact ⟨type, _, symbolType, valueType, notVoid⟩
      | literal | assign | binary | unary | call => cases placed

theorem checkAll_eq_ok {args : List Expr} :
    Expr.checkPlacement.checkAll args = .ok () ↔ ∀ arg ∈ args, arg.checkPlacement = .ok () := by
  induction args with
  | nil => simp [Expr.checkPlacement.checkAll, pure, Except.pure]
  | cons e rest ih =>
    simp only [Expr.checkPlacement.checkAll, bind_eq_ok, ih, List.forall_mem_cons]
    exact ⟨fun ⟨_, head, tail⟩ => ⟨head, tail⟩, fun ⟨head, tail⟩ => ⟨(), head, tail⟩⟩

theorem Expr.Ready.call {name : String} {nameSpan : Span} {args : List Expr}
    {callee : Attribute "function declaration" Callee}
    (ready : (Expr.call note name nameSpan args callee).Ready strict layout scopes) :
    (∀ arg ∈ args, arg.Ready strict layout scopes) ∧ ∃ c,
      scopes.lookup name = some (.function c) ∧ callee.value? = some c ∧ args.length = c.arity ∧
      (strict → c.Takes args ∧ note.type.value? = some c.result) := by
  obtain ⟨resolved, placed, typed, realizes⟩ := ready
  obtain ⟨_, argsPlaced, placed⟩ := bind_eq_ok.mp placed
  obtain ⟨c, known, placed⟩ := bind_eq_ok.mp placed
  have stored : callee.value? = some c := by simpa using known
  cases resolved with
  | @call _ _ _ _ _ c' argsResolved found stored' =>
    obtain rfl : c = c' := Option.some.inj (stored.symm.trans stored')
    refine ⟨fun arg member => ⟨argsResolved arg member, checkAll_eq_ok.mp argsPlaced arg member,
      fun holds => ?_, realizes.subset fun name inArg => Expr.mem_allNames.mpr ⟨arg, member, inArg⟩⟩,
      c, found, stored, Check.demanded.mp placed, fun holds => ?_⟩
    · cases typed holds with
      | call argsTyped _ _ _ => exact argsTyped arg member
    · cases typed holds with
      | call _ stored' takes type =>
        cases stored.symm.trans stored'
        exact ⟨takes, type⟩

end Parts

section Stays

variable {strict : Prop} {listed : List FunctionDecl} {history history' : History}
  {machine machine' : Machine} {operands : List Value}

theorem Stays.refl (steady : Steady strict listed [] history machine) :
    Stays strict history machine.operands history machine := ⟨rfl, steady.follows, rfl⟩

theorem Stays.trans {later : List Value} {history'' : History} {machine'' : Machine}
    (first : Stays strict history operands history' machine')
    (second : Stays strict history' later history'' machine'') :
    Stays strict history later history'' machine'' :=
  ⟨second.layout.trans first.layout, first.layout ▸ second.follows, second.operands⟩

theorem Stays.steady (stays : Stays strict history operands history' machine')
    (fine : history'.Fine strict) (steady : Steady strict listed [] history machine) :
    Steady strict listed [] history' machine' := by
  refine ⟨fine, ?_, ?_⟩
  · rw [stays.layout]
    exact stays.follows
  · rw [stays.layout]
    exact steady.sound

/-- Where a variable has been bound in the innermost scope, the state is steady again. -/
theorem Steady.declare {name : String} {symbol : VariableSymbol}
    (steady : Steady strict listed [] history machine)
    (fine : history'.Fine strict) (declared : history'.layout = history.layout.declare name symbol)
    (follows : machine'.context.Follows strict (history.layout.declare name symbol))
    (isNew : history.layout.IsNew name) (leavesFree : history.layout.LeavesFree name) :
    history.layout.Grew history'.layout ∧ Steady strict listed [] history' machine' := by
  rw [← declared] at follows
  refine ⟨declared ▸ Layout.modifyInnermost_grew _ _, fine, follows, ?_⟩
  rw [declared]
  exact steady.sound.declare isNew fun _ => leavesFree

end Stays

namespace Watched

open Recorded

/-- What every evaluator does with the given fuel. -/
structure SafeAt (strict : Prop) (listed : List FunctionDecl) (fuel : Nat) : Prop where
  expr {scopes e history machine} : Steady strict listed [] history machine →
    e.Ready strict history.layout scopes →
    Safe strict (expr watching fuel e) history machine fun _ history' machine' =>
      ∃ value, Stays strict history (value :: machine.operands) history' machine' ∧
        (strict → e.Describes value)
  valueOf {scopes e history machine} : Steady strict listed [] history machine →
    e.Ready strict history.layout scopes →
    Safe strict (valueOf watching fuel e) history machine fun value history' machine' =>
      Stays strict history machine.operands history' machine' ∧ (strict → e.Describes value)
  condition {scopes e history machine} : Steady strict listed [] history machine →
    e.Ready strict history.layout scopes → e.MayDecide strict →
    Safe strict (condition watching fuel e) history machine fun _ history' machine' =>
      Stays strict history machine.operands history' machine'
  callUser {symbol args span history machine} : Steady strict listed [] history machine →
    symbol.Callable strict history.layout args →
    Safe strict (callUser watching fuel symbol args span) history machine fun value history' machine' =>
      Stays strict history machine.operands history' machine' ∧
        (strict → symbol.result ≠ .void → value.type = symbol.result)
  stmt {around result awaited scopes s history machine} :
    Steady strict listed awaited history machine →
    s.Ready strict listed around result history.layout awaited scopes →
    Safe strict (stmt watching fuel s) history machine fun flow history' machine' =>
      history'.layout = history.layout.after s ∧
        machine'.context.Follows strict (history.layout.after s) ∧
        machine'.operands = machine.operands ∧ flow.Fits strict around result ∧
        (s.isReturn = true → flow.isNext = false)
  varDecl {scopes kind decl history machine} : Steady strict listed [] history machine →
    decl.Ready strict history.layout scopes kind →
    Safe strict (varDecl watching fuel decl) history machine fun _ history' machine' =>
      history'.layout = history.layout.declare decl.name decl.binding ∧
        machine'.context.Follows strict (history.layout.declare decl.name decl.binding) ∧
        machine'.operands = machine.operands
  block {around result scopes body history machine} : Steady strict listed [] history machine →
    body.Ready strict listed around result history.layout scopes →
    Safe strict (block watching fuel body) history machine fun flow history' machine' =>
      Stays strict history machine.operands history' machine' ∧ flow.Fits strict around result ∧
        (body.EndsInReturn → flow.isNext = false)
  whileLoop {around result scopes test body history machine} :
    Steady strict listed [] history machine → test.Ready strict history.layout scopes →
    test.MayDecide strict →
    body.Ready strict listed { around with inLoop := true } result history.layout scopes →
    Safe strict (whileLoop watching fuel test body) history machine fun flow history' machine' =>
      Stays strict history machine.operands history' machine' ∧ flow.Fits strict around result
  forLoop {around result scopes test increment body history machine} :
    Steady strict listed [] history machine → test.Ready strict history.layout scopes →
    test.MayDecide strict → increment.Ready strict history.layout scopes →
    body.Ready strict listed { around with inLoop := true } result history.layout scopes →
    Safe strict (forLoop watching fuel test increment body) history machine fun flow history' machine' =>
      Stays strict history machine.operands history' machine' ∧ flow.Fits strict around result

variable {strict : Prop} {listed : List FunctionDecl} {fuel : Nat} {scopes : Scopes} {e : Expr}
  {history history' : History} {machine machine' : Machine} {operands : List Value}

theorem evaluating_safe {piece : Watched Unit}
    (safe : Safe strict piece history machine fun _ history' machine' =>
      ∃ value, Stays strict history (value :: operands) history' machine' ∧
        (strict → e.Describes value)) :
    Safe strict (evaluating watching e piece) history machine fun _ history' machine' =>
      ∃ value, Stays strict history (value :: operands) history' machine' ∧
        (strict → e.Describes value) := by
  refine safe.bind fun _ history' machine' fine ⟨value, stays, describes⟩ => ?_
  refine Safe.note ?_ ⟨value, ?_, describes⟩
  · rw [evaluated_eq stays.operands]
    exact fine.add describes
  · rw [evaluated_eq stays.operands]
    exact ⟨stays.layout, stays.follows, stays.operands⟩

/-- A name finds a variable. In a strict run it is the one that the checker found. -/
theorem refer_safe {name : String} {names : List String}
    {symbol : Attribute "variable declaration" VariableSymbol} {s : VariableSymbol}
    (steady : Steady strict listed [] history machine)
    (realizes : history.layout.Realizes strict [] scopes names history.layout.chain)
    (member : name ∈ names) (found : scopes.lookup name = some (.variable s))
    (stored : symbol.value? = some s) :
    Safe strict (refer watching name symbol) history machine fun _ history' machine' =>
      Stays strict history machine.operands history' machine' ∧
        ∃ index holder, machine'.context.findScope (·.contains name) = some index ∧
          history.layout.owner? index name = some holder ∧ (strict → holder = s) := by
  obtain ⟨before, index, after, chain, owned, first, nearest⟩ := realizes.shows.variable found
  have clear : strict → ∀ nearer ∈ before, history.layout.owner? nearer name = none :=
    fun holds => nearest (realizes.clear holds name member)
  have visible := steady.follows.visibleScopes_eq steady.sound.framed
  refine Safe.note (steady.fine.add ⟨fun i => steady.follows.contains_eq i name, s, before, index,
    after, stored, visible.trans chain, owned, first, clear⟩) ⟨⟨rfl, steady.follows, rfl⟩, ?_⟩
  by_cases holds : strict
  · exact ⟨index, s, steady.follows.findScope_owner steady.sound.framed chain owned (clear holds),
      owned, fun _ => rfl⟩
  · obtain ⟨nearest, holder, found, holderOwned⟩ :=
      steady.follows.findScope_some steady.sound.framed (chain ▸ by simp) owned
    exact ⟨nearest, holder, found, holderOwned, fun h => (holds h).elim⟩

theorem args_safe (ih : SafeAt strict listed fuel) :
    ∀ (args : List Expr) {history : History} {machine : Machine},
      Steady strict listed [] history machine →
      (∀ arg ∈ args, arg.Ready strict history.layout scopes) →
      Safe strict (forEach (Recorded.expr watching fuel) args) history machine fun _ history' machine' =>
        ∃ values, Stays strict history (values.reverse ++ machine.operands) history' machine' ∧
          values.length = args.length ∧ (strict → List.Forall₂ Expr.Describes args values)
  | [], _, _, steady, _ =>
    .pure steady.fine ⟨[], Stays.refl steady, rfl, fun _ => .nil⟩
  | arg :: rest, history, machine, steady, ready => by
    refine (ih.expr steady (ready arg (List.mem_cons_self ..))).bind
      fun _ history' machine' fine ⟨value, stays, describes⟩ => ?_
    refine (args_safe ih rest (stays.steady fine steady) ?_).mono
      fun _ history'' machine'' ⟨values, later, length, all⟩ => ?_
    · intro other member
      rw [stays.layout]
      exact ready other (List.mem_cons_of_mem _ member)
    · refine ⟨value :: values, ?_, by simp [length], fun holds => .cons (describes holds) (all holds)⟩
      have whole := stays.trans later
      rw [stays.operands] at whole
      simpa using whole

theorem variable_safe {place : ExprNote} {name : String}
    {symbol : Attribute "variable declaration" VariableSymbol}
    (steady : Steady strict listed [] history machine)
    (ready : (Expr.variable place name symbol).Ready strict history.layout scopes) :
    Safe strict (do
        refer watching name symbol
        step watching do Run.push (← Run.attempt place.span ((← Run.context).getValue name)))
      history machine fun _ history' machine' =>
        ∃ value, Stays strict history (value :: machine.operands) history' machine' ∧
          (strict → (Expr.variable place name symbol).Describes value) := by
  obtain ⟨resolved, -, typed, realizes⟩ := ready
  cases resolved with
  | @«variable» _ _ _ s found stored =>
    refine (refer_safe steady realizes (by simp [Expr.names]) found stored).bind
      fun _ history' machine' fine ⟨stays, index, holder, atName, owned, same⟩ => ?_
    obtain ⟨value, get, fits⟩ := stays.follows.getValue_eq atName owned
    have run : (do Run.push (← Run.attempt place.span ((← Run.context).getValue name)) : Run Unit)
        machine' = .done () { machine' with operands := value :: machine'.operands } := by
      change ((Run.attempt place.span (machine'.context.getValue name) >>= Run.push) machine') = _
      rw [get]
      rfl
    refine .done fine run ⟨value, ⟨stays.layout, stays.follows, congrArg _ stays.operands⟩, ?_⟩
    refine fun holds => ⟨fun ty known _ => ?_⟩
    cases typed holds with
    | «variable» stored' symbolType type =>
      cases stored.symm.trans stored'
      cases known.symm.trans type
      exact fits holds _ (same holds ▸ symbolType)

theorem assign_safe (ih : SafeAt strict listed fuel) {place targetPlace : ExprNote} {name : String}
    {symbol : Attribute "variable declaration" VariableSymbol} {value : Expr}
    (steady : Steady strict listed [] history machine)
    (ready : (Expr.assign place (.variable targetPlace name symbol) value).Ready strict
      history.layout scopes) :
    Safe strict (do
        Recorded.expr watching fuel value
        refer watching name symbol
        step watching do
          let assigned ← Run.peek value.span
          Run.change place.span (Context.setVariable name assigned)) history machine
      fun _ history' machine' =>
        ∃ result, Stays strict history (result :: machine.operands) history' machine' ∧
          (strict → (Expr.assign place (.variable targetPlace name symbol) value).Describes
            result) := by
  have realizes := ready.realizes
  obtain ⟨valueReady, _, _, _, s, shape, found, stored, types⟩ := ready.assign
  cases shape
  refine (ih.expr steady valueReady).bind
    fun _ history' machine' fine ⟨result, stays, describes⟩ => ?_
  have steady' := stays.steady fine steady
  rw [← stays.layout] at realizes
  refine (refer_safe steady' realizes (by simp [Expr.names]) found stored).bind
    fun _ history'' machine'' fine' ⟨again, index, holder, atName, owned, same⟩ => ?_
  have operands := again.operands.trans stays.operands
  have fits : result.Fits strict holder := by
    intro holds ty known
    obtain ⟨-, ty', symbolType, valueType, notVoid⟩ := types holds
    rw [same holds, symbolType] at known
    cases known
    exact describes holds _ valueType notVoid
  obtain ⟨context, assigned, follows⟩ := again.follows.assignVariable_eq atName owned fits
  have run : (do
      let assigned ← Run.peek value.span
      Run.change place.span (Context.setVariable name assigned) : Run Unit) machine'' =
      .done () { machine'' with context } := by
    have peeked : Run.peek value.span machine'' = .done result machine'' := by
      simp only [Run.peek, operands]
    rw [Run.bind_apply, peeked]
    exact Run.change_eq_done.mpr ⟨context, assigned, rfl⟩
  refine .done fine' run ⟨result, ⟨again.layout.trans stays.layout, ?_, operands⟩, ?_⟩
  · rw [← stays.layout]
    exact follows
  · refine fun holds => ⟨fun ty known exact => ?_⟩
    cases known.symm.trans (types holds).1
    rcases exact with notVoid | plain
    · exact (notVoid rfl).elim
    · exact plain.elim

/-- Two operands of the types that the operator takes give a value of its result type. -/
theorem binary_safe (ih : SafeAt strict listed fuel) {place : ExprNote} {op : BinaryOp}
    {left right : Expr} (steady : Steady strict listed [] history machine)
    (ready : (Expr.binary place op left right).Ready strict history.layout scopes) :
    Safe strict (do
        Recorded.expr watching fuel left
        Recorded.expr watching fuel right
        step watching do
          let rightValue ← Run.pop right.span
          let leftValue ← Run.pop left.span
          Run.push (← Run.attempt place.span (op.eval leftValue rightValue))) history machine
      fun _ history' machine' =>
        ∃ value, Stays strict history (value :: machine.operands) history' machine' ∧
          (strict → (Expr.binary place op left right).Describes value) := by
  obtain ⟨leftReady, rightReady, types⟩ := ready.binary
  refine (ih.expr steady leftReady).bind
    fun _ history' machine' fine ⟨leftValue, stays, leftDescribes⟩ => ?_
  have steady' := stays.steady fine steady
  rw [← stays.layout] at rightReady
  refine (ih.expr steady' rightReady).bind
    fun _ history'' machine'' fine' ⟨rightValue, again, rightDescribes⟩ => ?_
  have whole := stays.trans again
  have operands : machine''.operands = rightValue :: leftValue :: machine.operands := by
    rw [again.operands, stays.operands]
  have result : strict → ∃ ty, op.resultType? leftValue.type rightValue.type = some ty ∧
      place.type.value? = some ty := by
    intro holds
    obtain ⟨leftType, rightType, ty, atLeft, atRight, result, type⟩ := types holds
    obtain ⟨leftNotVoid, rightNotVoid⟩ := BinaryOp.resultType?_not_void result
    rw [leftDescribes holds _ atLeft leftNotVoid, rightDescribes holds _ atRight rightNotVoid]
    exact ⟨ty, result, type⟩
  have regular := BinaryOp.eval_regular op leftValue rightValue fun holds =>
    Option.isSome_iff_exists.mpr ((result holds).imp fun _ known => known.1)
  have popped : (do
      let rightValue ← Run.pop right.span
      let leftValue ← Run.pop left.span
      Run.push (← Run.attempt place.span (op.eval leftValue rightValue)) : Run Unit) machine'' =
      (do Run.push (← Run.attempt place.span (op.eval leftValue rightValue)) : Run Unit)
        { machine'' with operands := machine.operands } := by
    rw [Run.bind_apply]
    simp only [Run.pop, operands]
    rfl
  refine .step_congr popped (.pushAttempt fine' regular fun value valueType => ?_)
  refine ⟨value, ⟨whole.layout, whole.follows, rfl⟩, fun holds => ⟨fun ty known _ => ?_⟩⟩
  obtain ⟨ty', resultType, type⟩ := result holds
  cases known.symm.trans type
  exact valueType _ resultType

theorem unary_safe (ih : SafeAt strict listed fuel) {place : ExprNote} {op : UnaryOp}
    {operand : Expr} (steady : Steady strict listed [] history machine)
    (ready : (Expr.unary place op operand).Ready strict history.layout scopes) :
    Safe strict (do
        let value ← Recorded.valueOf watching fuel operand
        step watching do Run.push (← Run.attempt place.span (op.eval value))) history machine
      fun _ history' machine' =>
        ∃ value, Stays strict history (value :: machine.operands) history' machine' ∧
          (strict → (Expr.unary place op operand).Describes value) := by
  obtain ⟨operandReady, types⟩ := ready.unary
  refine (ih.valueOf steady operandReady).bind
    fun operandValue history' machine' fine ⟨stays, describes⟩ => ?_
  have result : strict → ∃ ty, op.resultType? operandValue.type = some ty ∧
      place.type.value? = some ty := by
    intro holds
    obtain ⟨operandType, ty, atOperand, result, type⟩ := types holds
    rw [describes holds _ atOperand (UnaryOp.resultType?_not_void result)]
    exact ⟨ty, result, type⟩
  have regular := UnaryOp.eval_regular op operandValue fun holds =>
    Option.isSome_iff_exists.mpr ((result holds).imp fun _ known => known.1)
  refine .pushAttempt fine regular fun value valueType => ?_
  refine ⟨value, ⟨stays.layout, stays.follows, congrArg _ stays.operands⟩,
    fun holds => ⟨fun ty known _ => ?_⟩⟩
  obtain ⟨ty', resultType, type⟩ := result holds
  cases known.symm.trans type
  exact valueType _ resultType

/-- Truth values are integers. -/
theorem truth_safe {value : Bool} {place : ExprNote} {op : BinaryOp} {left right : Expr}
    (stays : Stays strict history operands history' machine') (fine : history'.Fine strict)
    (ready : (Expr.binary place op left right).Ready strict history.layout scopes)
    (logical : op.family = .logical) :
    Safe strict (step watching (Run.push (.ofBool value))) history' machine' fun _ history'' machine'' =>
      ∃ result, Stays strict history (result :: operands) history'' machine'' ∧
        (strict → (Expr.binary place op left right).Describes result) := by
  refine .done fine rfl ⟨_, ⟨stays.layout, stays.follows, congrArg _ stays.operands⟩, ?_⟩
  refine fun holds => ⟨fun ty known _ => ?_⟩
  obtain ⟨leftType, rightType, ty', -, -, result, type⟩ := ready.binary.2.2 holds
  cases known.symm.trans type
  simp only [BinaryOp.resultType?, logical] at result
  split at result
  · cases result
    rfl
  · cases result

/-- The right operand of a logical operator is evaluated only if the left one leaves it open. -/
theorem Ready.decides {place : ExprNote} {op : BinaryOp} {left right : Expr} {layout : Layout}
    (ready : (Expr.binary place op left right).Ready strict layout scopes)
    (logical : op.family = .logical) : left.MayDecide strict ∧ right.MayDecide strict := by
  have both : strict → left.type.value? = some .int ∧ right.type.value? = some .int := by
    intro holds
    obtain ⟨leftType, rightType, ty, atLeft, atRight, result, -⟩ := ready.binary.2.2 holds
    simp only [BinaryOp.resultType?, logical] at result
    split at result
    · rename_i ints
      exact ⟨ints.1 ▸ atLeft, ints.2 ▸ atRight⟩
    · cases result
  exact ⟨fun holds => (both holds).1, fun holds => (both holds).2⟩

theorem accepts_not_void {expected found : Ty} (accepted : expected.accepts found = true) :
    found ≠ .void := (Ty.accepts_iff.mp accepted).2.1

/-- Arguments that may be passed to a built-in function have values that it accepts. -/
theorem native_accepts {args : List Expr} {values : List Value} {params : List NativeParam}
    (describes : List.Forall₂ Expr.Describes args values) (length : args.length = params.length)
    (takes : ∀ arg param, (arg, param) ∈ args.zip params →
      ∃ found, arg.type.value? = some found ∧ param.accepts found = true) :
    List.Forall₂ (fun value param => NativeParam.accepts param value.type = true) values params := by
  induction describes generalizing params with
  | nil =>
    cases params with
    | nil => exact .nil
    | cons => cases length
  | @cons arg value args values head _ ih =>
    cases params with
    | nil => cases length
    | cons param params =>
      refine .cons ?_ (ih (Nat.succ.inj length) fun a p member =>
        takes a p (List.mem_cons_of_mem _ member))
      obtain ⟨found, type, accepted⟩ := takes arg param (List.mem_cons_self ..)
      obtain ⟨ty, -, some⟩ := List.any_eq_true.mp accepted
      rw [head found type (accepts_not_void some)]
      exact accepted

/-- Arguments that may be passed to a function of the program fit its parameters. -/
theorem user_fits {args : List Expr} {values : List Value} {params : List VariableSymbol}
    (describes : List.Forall₂ Expr.Describes args values)
    (takes : ∀ arg param, (arg, param) ∈ args.zip params →
      ∃ found expected, arg.type.value? = some found ∧ param.type.value? = some expected ∧
        expected.accepts found = true) :
    ∀ value param, (value, param) ∈ values.zip params →
      ∀ ty, param.type.value? = some ty → value.type = ty := by
  induction describes generalizing params with
  | nil => simp
  | @cons arg value args values head _ ih =>
    cases params with
    | nil => simp
    | cons param params =>
      intro other binding member ty known
      rcases List.mem_cons.mp member with same | member
      · cases same
        obtain ⟨found, expected, type, paramType, accepted⟩ := takes arg param (List.mem_cons_self ..)
        cases known.symm.trans paramType
        rw [(Ty.accepts_iff.mp accepted).1]
        exact head found type (accepts_not_void accepted)
      · exact ih (fun a p inRest => takes a p (List.mem_cons_of_mem _ inRest)) other binding member ty
          known

theorem popMany_eq {values rest : List Value} {count : Nat} (span : Span)
    (operands : machine.operands = values.reverse ++ rest) (length : values.length = count) :
    Run.popMany count span machine = .done values { machine with operands := rest } := by
  subst length
  simp [Run.popMany, operands, List.take_left' , List.drop_left']

theorem native_safe {place : ExprNote} {native : Native} {values : List Value}
    {post : Unit → History → Machine → Prop} (fine : history.Fine strict)
    (given : strict → native.Accepts values)
    (done : ∀ value env, value.type = native.signature.result →
      post () history { machine with operands := value :: machine.operands, env }) :
    Safe strict (step watching do Run.push (← Run.callNative native.signature.name values place.span))
      history machine post := by
  have regular : (native.call values machine.env).Regular strict native.signature.result :=
    native.call_regular given
  have found : Native.ofName? native.signature.name = some native := native.ofName?_name
  unfold Safe
  rw [step_apply, Run.bind_apply, Run.callNative_eq, found]
  simp only
  generalize native.call values machine.env = result at regular ⊢
  rcases result with ⟨kind | f⟩ | ⟨value, env⟩
  · exact ⟨fine, regular⟩
  · exact ⟨fine, regular⟩
  · exact ⟨fine, done value env regular⟩

theorem call_safe (ih : SafeAt strict listed fuel) {place : ExprNote} {name : String}
    {nameSpan : Span} {args : List Expr} {callee : Attribute "function declaration" Callee}
    (steady : Steady strict listed [] history machine)
    (ready : (Expr.call place name nameSpan args callee).Ready strict history.layout scopes) :
    Safe strict (do
        forEach (Recorded.expr watching fuel) args
        let values ← step watching (Run.popMany args.length place.span)
        match ← step watching (Run.attemptFault callee.get) with
        | .native signature =>
          step watching do Run.push (← Run.callNative signature.name values place.span)
        | .user symbol => do
          let value ← callUser watching fuel symbol values place.span
          step watching (Run.push value)) history machine
      fun _ history' machine' =>
        ∃ value, Stays strict history (value :: machine.operands) history' machine' ∧
          (strict → (Expr.call place name nameSpan args callee).Describes value) := by
  have shows := ready.realizes.shows
  obtain ⟨argsReady, c, found, stored, arity, types⟩ := ready.call
  refine (args_safe ih args steady argsReady).bind
    fun _ history' machine' fine ⟨values, stays, length, describes⟩ => ?_
  refine .bind_done (popMany_eq place.span stays.operands length) ?_
  have known : ∀ machine, Run.attemptFault callee.get machine = .done c machine := by
    intro machine
    simp only [Run.attemptFault, Attribute.get_eq_ok.mpr stored]
  refine .bind_done (known _) ?_
  replace stays : Stays strict history machine.operands history'
    { machine' with operands := machine.operands } := ⟨stays.layout, stays.follows, rfl⟩
  generalize { machine' with operands := machine.operands } = machine' at stays ⊢
  cases c with
  | native signature =>
    obtain ⟨native, rfl⟩ := shows.native found
    refine native_safe fine (fun holds => ?_) fun value env type => ?_
    · exact native_accepts (describes holds) arity (types holds).1
    · refine ⟨value, ⟨stays.layout, stays.follows, congrArg _ stays.operands⟩, ?_⟩
      refine fun holds => ⟨fun ty typed _ => ?_⟩
      cases typed.symm.trans (types holds).2
      exact type
  | user symbol =>
    obtain ⟨index, visible, layer, decl, atLayer, defined, same⟩ := shows.user found
    have callable : symbol.Callable strict history'.layout values := by
      rw [stays.layout]
      exact ⟨⟨index, visible, layer, decl, atLayer, defined, same⟩, length.trans arity,
        fun value param member holds =>
          user_fits (describes holds) (types holds).1 value param member⟩
    refine (ih.callUser (stays.steady fine steady) callable).bind
      fun value history'' machine'' fine' ⟨again, type⟩ => ?_
    have whole := stays.trans again
    refine .done fine' rfl ⟨value, ⟨whole.layout, whole.follows,
      congrArg _ (whole.operands.trans stays.operands)⟩, ?_⟩
    refine fun holds => ⟨fun ty typed exact => ?_⟩
    cases typed.symm.trans (types holds).2
    rcases exact with notVoid | plain
    · exact type holds notVoid
    · exact (plain symbol stored).elim

theorem SafeAt.expr_succ (ih : SafeAt strict listed fuel)
    (steady : Steady strict listed [] history machine)
    (ready : e.Ready strict history.layout scopes) :
    Safe strict (Recorded.expr watching (fuel + 1) e) history machine fun _ history' machine' =>
      ∃ value, Stays strict history (value :: machine.operands) history' machine' ∧
        (strict → e.Describes value) := by
  unfold Recorded.expr
  rw [visit_expr]
  refine evaluating_safe ?_
  cases e with
  | literal place value =>
    refine .done steady.fine rfl
      ⟨value, ⟨rfl, steady.follows, rfl⟩, fun holds => ⟨fun ty known _ => ?_⟩⟩
    cases ready.typed holds with
    | literal type => exact Option.some.inj (type.symm.trans known)
  | «variable» place name symbol => exact variable_safe steady ready
  | assign place target value =>
    obtain ⟨targetPlace, name, symbol, s, rfl, -⟩ := ready.assign.2
    exact assign_safe ih steady ready
  | binary place op left right =>
    obtain ⟨leftReady, rightReady, -⟩ := ready.binary
    cases op with
    | and =>
      obtain ⟨leftDecides, rightDecides⟩ := Ready.decides ready rfl
      refine (ih.condition steady leftReady leftDecides).bind
        fun isTrue history' machine' fine stays => ?_
      cases isTrue with
      | false => exact truth_safe stays fine ready rfl
      | true =>
        rw [← stays.layout] at rightReady
        refine (ih.condition (stays.steady fine steady) rightReady rightDecides).bind
          fun value history'' machine'' fine' again => ?_
        exact truth_safe (stays.operands ▸ stays.trans again) fine' ready rfl
    | or =>
      obtain ⟨leftDecides, rightDecides⟩ := Ready.decides ready rfl
      refine (ih.condition steady leftReady leftDecides).bind
        fun isTrue history' machine' fine stays => ?_
      cases isTrue with
      | true => exact truth_safe stays fine ready rfl
      | false =>
        rw [← stays.layout] at rightReady
        refine (ih.condition (stays.steady fine steady) rightReady rightDecides).bind
          fun value history'' machine'' fine' again => ?_
        exact truth_safe (stays.operands ▸ stays.trans again) fine' ready rfl
    | equal | notEqual | less | lessEqual | greater | greaterEqual | add | sub | mul | div | mod
    | pow => exact binary_safe ih steady ready
  | unary place op operand => exact unary_safe ih steady ready
  | call place name nameSpan args callee => exact call_safe ih steady ready

end Watched

end Lu
