import Lu.Proofs.Run.Expressions
import Mathlib.Data.List.Nodup

namespace Lu

/-!
Statements and calls are safe: what a statement declares is the only thing it leaves behind, and a
jump goes where something catches it.
-/

section Entering

variable {strict : Prop} {listed : List FunctionDecl} {layout other : Layout} {scopes : Scopes}
  {free : List String}

/-- In a scope that has just been entered nothing is declared. -/
theorem Layout.Realizes.enter {chain : List Nat}
    (realizes : layout.Realizes strict [] scopes free chain)
    (layers : other.layers = layout.layers.push {})
    (below : ∀ index ∈ chain, index < layout.layers.size) :
    other.Realizes strict [] scopes.push free (layout.layers.size :: chain) := by
  refine Layout.Realizes.push (realizes.congr fun index member => ?_) ?_
  · have := below index member
    rw [layers, Array.getElem?_push, if_neg (by omega)]
  · rw [layers, Array.getElem?_push, if_pos rfl]

theorem Layout.Framed.mem_chain (framed : layout.Framed) {index : Nat}
    (member : index ∈ layout.chain) : index < layout.layers.size := by
  have := framed.mem_visible member
  have := framed.nonempty
  simp only [Layout.top] at *
  omega

theorem Layout.Framed.enterScope (framed : layout.Framed)
    (realizes : layout.Realizes strict [] scopes free layout.chain) :
    layout.push.Realizes strict [] scopes.push free layout.push.chain := by
  rw [framed.push_chain]
  exact realizes.enter rfl fun _ member => framed.mem_chain member

theorem Layout.Framed.enterFrame (framed : layout.Framed) {staticLink : Nat}
    (linked : staticLink < layout.layers.size)
    (realizes : layout.Realizes strict [] scopes free (layout.visible staticLink)) :
    (layout.pushFrame staticLink).Realizes strict [] scopes.push free
      (layout.pushFrame staticLink).chain := by
  rw [Layout.pushFrame_chain]
  exact realizes.enter rfl fun _ member => Nat.lt_of_le_of_lt (framed.mem_visible member) linked

/-- The innermost layer is empty. -/
def Layout.Fresh (layout : Layout) : Prop := layout.layers[layout.top]? = some {}

theorem Layout.push_fresh (layout : Layout) : layout.push.Fresh := by
  rw [Layout.Fresh, Layout.push_top, Layout.push, Array.getElem?_push, if_pos rfl]

theorem Layout.pushFrame_fresh (layout : Layout) (staticLink : Nat) :
    (layout.pushFrame staticLink).Fresh := by
  rw [Layout.Fresh, Layout.pushFrame_top, Layout.pushFrame, Array.getElem?_push, if_pos rfl]

theorem Layout.Fresh.isNew (fresh : layout.Fresh) (name : String) : layout.IsNew name := by
  rw [Layout.IsNew, Layout.owner?, fresh]
  rfl

theorem Layout.Fresh.isNewId (fresh : layout.Fresh) (id : Nat) : layout.IsNewId id := by
  intro layer atLayer
  cases fresh.symm.trans atLayer
  rfl

theorem Layout.Fresh.leavesFree (fresh : layout.Fresh) (name : String) : layout.LeavesFree name := by
  intro layer id decl atLayer known
  cases fresh.symm.trans atLayer
  cases known

variable {around : Surroundings} {result : Option Ty}

theorem Block.Ready.enter {body : Block}
    (ready : body.Ready strict listed around result layout scopes) (framed : layout.Framed) :
    Stmt.AllReady strict listed around result layout.push scopes.push false body.statements := by
  obtain ⟨span, statements⟩ := body
  obtain ⟨resolved, placed, typed, uncaptured, among, realizes⟩ := ready
  have fresh := layout.push_fresh
  exact ⟨resolved, placed, typed, uncaptured, among, framed.enterScope realizes,
    fun name _ => fresh.isNew name, fun decl _ => fresh.isNewId decl.id,
    fun _ _ _ name _ => fresh.leavesFree name⟩

theorem leadingFunctions_tail (s : Stmt) (rest : List Stmt) :
    (leadingFunctions (s :: rest)).tail = awaitedBy s.isFunction rest := by
  cases s <;> rfl

end Entering

namespace Watched

open Recorded

variable {strict : Prop} {listed : List FunctionDecl} {fuel : Nat} {scopes : Scopes} {e : Expr}
  {history : History} {machine : Machine} {around : Surroundings} {result : Option Ty}

theorem SafeAt.valueOf_succ (ih : SafeAt strict listed fuel)
    (steady : Steady strict listed [] history machine)
    (ready : e.Ready strict history.layout scopes) :
    Safe strict (Recorded.valueOf watching (fuel + 1) e) history machine fun value history' machine' =>
      Stays strict history machine.operands history' machine' ∧ (strict → e.Describes value) := by
  unfold Recorded.valueOf
  refine (ih.expr steady ready).bind fun _ history' machine' fine ⟨value, stays, describes⟩ => ?_
  have run :
      Run.pop e.span machine' = .done value { machine' with operands := machine.operands } := by
    simp only [Run.pop, stays.operands]
  exact .done fine run ⟨⟨stays.layout, stays.follows, rfl⟩, describes⟩

theorem SafeAt.condition_succ (ih : SafeAt strict listed fuel)
    (steady : Steady strict listed [] history machine) (ready : e.Ready strict history.layout scopes)
    (decides : e.MayDecide strict) :
    Safe strict (Recorded.condition watching (fuel + 1) e) history machine fun _ history' machine' =>
      Stays strict history machine.operands history' machine' := by
  unfold Recorded.condition
  refine (ih.expr steady ready).bind fun _ history' machine' fine ⟨value, stays, describes⟩ => ?_
  have popped : (do Run.truth e.span (← Run.pop e.span) : Run Bool) machine' =
      Run.truth e.span value { machine' with operands := machine.operands } := by
    rw [Run.bind_apply]
    simp only [Run.pop, stays.operands]
  refine .step_congr popped ?_
  cases value with
  | int n => exact .done fine rfl ⟨stays.layout, stays.follows, rfl⟩
  | float _ | str _ | void | nil =>
    refine .fail fine rfl fun holds => ?_
    cases describes holds .int (decides holds) (by decide)

/-- A variable whose name is new in the innermost scope is bound there. -/
theorem bindVariable_safe {span : Span} {name : String} {symbol : VariableSymbol} {value : Value}
    (fine : history.Fine strict) (follows : machine.context.Follows strict history.layout)
    (isNew : history.layout.IsNew name) (fits : value.Fits strict symbol) :
    Safe strict (bindVariable watching span name symbol value) history machine fun _ history' machine' =>
      history'.layout = history.layout.declare name symbol ∧
        machine'.context.Follows strict (history.layout.declare name symbol) ∧
        machine'.operands = machine.operands := by
  obtain ⟨context, defined, bound⟩ := follows.defineVariable_eq isNew fits
  have run : Run.change span (Context.addVariable name value) machine =
      .done () { machine with context } := Run.change_eq_done.mpr ⟨context, defined, rfl⟩
  exact .bind_done run (.note fine ⟨rfl, bound, rfl⟩)

theorem SafeAt.varDecl_succ (ih : SafeAt strict listed fuel) {kind : VariableKind} {decl : VarDecl}
    (steady : Steady strict listed [] history machine)
    (ready : decl.Ready strict history.layout scopes kind) :
    Safe strict (Recorded.varDecl watching (fuel + 1) decl) history machine fun _ history' machine' =>
      history'.layout = history.layout.declare decl.name decl.binding ∧
        machine'.context.Follows strict (history.layout.declare decl.name decl.binding) ∧
        machine'.operands = machine.operands := by
  obtain ⟨resolved, placed, typed, realizes, isNew⟩ := ready
  have initReady : decl.init.Ready strict history.layout scopes :=
    ⟨resolved.init, placed, fun holds => (typed holds).elim fun _ known => known.init, realizes⟩
  unfold Recorded.varDecl
  refine (ih.valueOf steady initReady).bind fun value history' machine' fine ⟨stays, describes⟩ => ?_
  have fits : value.Fits strict decl.binding := by
    intro holds ty known
    obtain ⟨binding, known'⟩ := typed holds
    obtain ⟨ty', bindingType, initType, notVoid⟩ := known'.type
    cases resolved.symbol.symm.trans known'.symbol
    cases known.symm.trans bindingType
    exact describes holds _ initType notVoid
  have follows := stays.follows
  rw [← stays.layout] at isNew follows
  refine (bindVariable_safe fine follows isNew fits).bind
    fun _ history'' machine'' fine' ⟨declared, bound, operands⟩ => ?_
  rw [stays.layout] at declared bound
  exact .pure fine' ⟨declared, bound, operands.trans stays.operands⟩

/-- The first of some statements runs safely, and leaves the rest ready. -/
theorem SafeAt.head (distinct : (listed.map FunctionDecl.id).Nodup) (ih : SafeAt strict listed fuel)
    {inRun : Bool} {s : Stmt} {rest : List Stmt}
    (steady : Steady strict listed (awaitedBy inRun (s :: rest)) history machine)
    (ready : Stmt.AllReady strict listed around result history.layout scopes inRun (s :: rest)) :
    Safe strict (Recorded.stmt watching fuel s) history machine fun flow history' machine' =>
      history.layout.Grew history'.layout ∧ machine'.context.Follows strict history'.layout ∧
        machine'.operands = machine.operands ∧ flow.Fits strict around result ∧
        (s.isReturn = true → flow.isNext = false) ∧
        history'.layout.Sound strict listed (awaitedBy s.isFunction rest) ∧
        Stmt.AllReady strict listed around result history'.layout
          ((scopes.entering inRun (s :: rest)).after s) s.isFunction rest := by
  have sound := steady.sound.entering
  have headReady := ready.head steady.sound.framed
  have grew := history.layout.after_grew s
  have afterSound := headReady.after_sound sound
  have restReady := ready.tail distinct steady.sound.framed
  rw [leadingFunctions_tail] at afterSound
  refine (ih.stmt ⟨steady.fine, steady.follows, sound⟩ headReady).mono
    fun flow history' machine' ⟨layout, follows, operands, fits, ends⟩ => ?_
  rw [layout]
  exact ⟨grew, follows, operands, fits, ends, afterSound, restReady⟩

theorem sequence_safe (distinct : (listed.map FunctionDecl.id).Nodup)
    (ih : SafeAt strict listed fuel) :
    ∀ (statements : List Stmt) {scopes : Scopes} {inRun : Bool} {history : History}
      {machine : Machine} (last : Value),
      Steady strict listed (awaitedBy inRun statements) history machine →
      Stmt.AllReady strict listed around result history.layout scopes inRun statements →
      Safe strict (sequence (Recorded.stmt watching fuel) last statements) history machine
        fun flow history' machine' =>
          history.layout.Grew history'.layout ∧ machine'.context.Follows strict history'.layout ∧
            machine'.operands = machine.operands ∧ flow.Fits strict around result ∧
            ((∃ span value, statements.getLast? = some (.returnValue span value)) →
              flow.isNext = false)
  | [], _, _, history, _, last, steady, _ => by
    refine .pure steady.fine ⟨Layout.Grew.refl _, steady.follows, rfl, trivial, ?_⟩
    rintro ⟨span, value, found⟩
    cases found
  | s :: rest, scopes, inRun, history, machine, last, steady, ready => by
    refine (ih.head distinct steady ready).bind fun flow history' machine' fine
      ⟨grew, follows, operands, fits, ends, sound, restReady⟩ => ?_
    cases flow with
    | next value =>
      refine (sequence_safe distinct ih rest value ⟨fine, follows, sound⟩ restReady).mono
        fun flow history'' machine'' ⟨grew', follows', operands', fits', ends'⟩ => ?_
      refine ⟨grew.trans grew', follows', operands'.trans operands, fits', ?_⟩
      rintro ⟨span, value', found⟩
      cases rest with
      | nil =>
        cases found
        cases ends rfl
      | cons next more => exact ends' ⟨span, value', found⟩
    | breakLoop | continueLoop | returned value =>
      exact .pure fine ⟨grew, follows, operands, fits, fun _ => rfl⟩

theorem SafeAt.block_succ (distinct : (listed.map FunctionDecl.id).Nodup)
    (ih : SafeAt strict listed fuel) {body : Block} (steady : Steady strict listed [] history machine)
    (ready : body.Ready strict listed around result history.layout scopes) :
    Safe strict (Recorded.block watching (fuel + 1) body) history machine fun flow history' machine' =>
      Stays strict history machine.operands history' machine' ∧ flow.Fits strict around result ∧
        (body.EndsInReturn → flow.isNext = false) := by
  have framed := steady.sound.framed
  have entered : Steady strict listed (awaitedBy false body.statements)
      { history with layout := history.layout.push }
      { machine with context := machine.context.pushScope } :=
    ⟨steady.fine, steady.follows.pushScope, steady.sound.push⟩
  unfold Recorded.block
  refine Safe.between ((sequence_safe distinct ih body.statements .void entered
    (ready.enter framed)).mono fun flow history' machine' ⟨grew, follows, operands, fits, ends⟩ => ?_)
  exact ⟨⟨rfl, follows.popScope framed grew, operands⟩, fits, ends⟩

theorem SafeAt.whileLoop_succ (ih : SafeAt strict listed fuel) {test : Expr} {body : Block}
    (steady : Steady strict listed [] history machine)
    (testReady : test.Ready strict history.layout scopes)
    (decides : test.MayDecide strict)
    (bodyReady :
      body.Ready strict listed { around with inLoop := true } result history.layout scopes) :
    Safe strict (Recorded.whileLoop watching (fuel + 1) test body) history machine
      fun flow history' machine' =>
        Stays strict history machine.operands history' machine' ∧ flow.Fits strict around result := by
  unfold Recorded.whileLoop
  refine (ih.condition steady testReady decides).bind fun isTrue history' machine' fine stays => ?_
  cases isTrue with
  | false => exact .pure fine ⟨stays, trivial⟩
  | true =>
    have steady' := stays.steady fine steady
    have bodyReady' := bodyReady
    rw [← stays.layout] at bodyReady'
    refine (ih.block steady' bodyReady').bind
      fun flow history'' machine'' fine' ⟨again, fits, _⟩ => ?_
    have whole := stays.trans again
    rw [stays.operands] at whole
    cases flow with
    | breakLoop => exact .pure fine' ⟨whole, trivial⟩
    | returned value => exact .pure fine' ⟨whole, fits⟩
    | next _ | continueLoop =>
      rw [← whole.layout] at testReady bodyReady
      refine (ih.whileLoop (whole.steady fine' steady) testReady decides bodyReady).mono
        fun flow history₃ machine₃ ⟨more, fits⟩ => ⟨?_, fits⟩
      exact whole.operands ▸ whole.trans more

theorem SafeAt.forLoop_succ (ih : SafeAt strict listed fuel) {test step : Expr} {body : Block}
    (steady : Steady strict listed [] history machine)
    (testReady : test.Ready strict history.layout scopes)
    (decides : test.MayDecide strict) (stepReady : step.Ready strict history.layout scopes)
    (bodyReady :
      body.Ready strict listed { around with inLoop := true } result history.layout scopes) :
    Safe strict (Recorded.forLoop watching (fuel + 1) test step body) history machine
      fun flow history' machine' =>
        Stays strict history machine.operands history' machine' ∧ flow.Fits strict around result := by
  unfold Recorded.forLoop
  refine (ih.condition steady testReady decides).bind fun isTrue history' machine' fine stays => ?_
  cases isTrue with
  | false => exact .pure fine ⟨stays, trivial⟩
  | true =>
    have steady' := stays.steady fine steady
    have bodyReady' := bodyReady
    rw [← stays.layout] at bodyReady'
    refine (ih.block steady' bodyReady').bind
      fun flow history'' machine'' fine' ⟨again, fits, _⟩ => ?_
    have whole := stays.trans again
    rw [stays.operands] at whole
    cases flow with
    | breakLoop => exact .pure fine' ⟨whole, trivial⟩
    | returned value => exact .pure fine' ⟨whole, fits⟩
    | next _ | continueLoop =>
      have stepReady' := stepReady
      rw [← whole.layout] at stepReady'
      refine (ih.valueOf (whole.steady fine' steady) stepReady').bind
        fun value history₃ machine₃ fine₃ ⟨stepped, _⟩ => ?_
      have whole := whole.trans stepped
      rw [again.operands, stays.operands] at whole
      rw [← whole.layout] at testReady stepReady bodyReady
      refine (ih.forLoop (whole.steady fine₃ steady) testReady decides stepReady bodyReady).mono
        fun flow history₄ machine₄ ⟨more, fits⟩ => ⟨?_, fits⟩
      exact whole.operands ▸ whole.trans more

theorem Layout.Realizes.left {layout : Layout} {awaited : List FunctionDecl} {chain : List Nat}
    {some more : List String}
    (realizes : layout.Realizes strict awaited scopes (some ++ more) chain) :
    layout.Realizes strict awaited scopes some chain :=
  realizes.subset fun _ => List.mem_append_left _

theorem Layout.Realizes.right {layout : Layout} {awaited : List FunctionDecl} {chain : List Nat}
    {some more : List String}
    (realizes : layout.Realizes strict awaited scopes (some ++ more) chain) :
    layout.Realizes strict awaited scopes more chain :=
  realizes.subset fun _ => List.mem_append_right _

/-- After its header a loop goes on in a layout that has grown by at most the iterator. -/
theorem forInit_safe (ih : SafeAt strict listed fuel) {init : ForInit} {names : List String}
    {next : Watched Flow} {post : Flow → History → Machine → Prop}
    (steady : Steady strict listed [] history machine) (fresh : history.layout.Fresh)
    (resolved : init.Resolved scopes) (placed : init.checkPlacement = .ok ())
    (typed : strict → init.Typed)
    (realizes : history.layout.Realizes strict [] scopes
      (init.names ++ namesExcept names init.bound) history.layout.chain)
    (later : ∀ history' machine', Steady strict listed [] history' machine' →
      history.layout.Grew history'.layout → machine'.operands = machine.operands →
      history'.layout.Realizes strict [] (scopes.afterInit init) names history'.layout.chain →
      Safe strict next history' machine' post) :
    Safe strict (match init with
      | .letVar decl => do
        let _ ← Recorded.varDecl watching fuel decl
        next
      | .assign e => do
        let _ ← Recorded.valueOf watching fuel e
        next) history machine post := by
  cases init with
  | letVar decl =>
    refine (ih.varDecl steady ⟨resolved, placed, typed, Layout.Realizes.left realizes,
      fresh.isNew _⟩).bind fun _ history' machine' fine bound => ?_
    obtain ⟨declared, follows, operands⟩ := bound
    obtain ⟨grew, steady'⟩ := steady.declare fine declared follows (fresh.isNew decl.name)
      (fresh.leavesFree decl.name)
    refine later history' machine' steady' grew operands ?_
    rw [declared]
    exact realizes.bind steady.sound.framed fun name member => eq_or_mem_namesExcept member
  | assign e =>
    refine (ih.valueOf steady ⟨resolved, placed, typed, Layout.Realizes.left realizes⟩).bind
      fun _ history' machine' fine ended => ?_
    obtain ⟨stays, -⟩ := ended
    refine later history' machine' (stays.steady fine steady) (stays.layout ▸ Layout.Grew.refl _)
      stays.operands ?_
    rw [stays.layout]
    exact realizes.subset fun name member => List.mem_append_right _ (mem_namesExcept.mpr
      ⟨member, by simp [ForInit.bound]⟩)

theorem forLoop_safe (ih : SafeAt strict listed fuel) {span : Span} {init : ForInit}
    {test step : Expr} {body : Block} (steady : Steady strict listed [] history machine)
    (ready : (Stmt.forLoop span init test step body).Ready strict listed around result
      history.layout [] scopes) :
    Safe strict (Recorded.stmt watching (fuel + 1) (.forLoop span init test step body)) history machine
      fun flow history' machine' =>
        Stays strict history machine.operands history' machine' ∧ flow.Fits strict around result := by
  obtain ⟨⟨initResolved, testResolved, stepResolved, bodyResolved⟩, placed, typed, uncaptured, among,
    realizes, -⟩ := ready
  obtain ⟨_, initPlaced, placed⟩ := bind_eq_ok.mp placed
  obtain ⟨_, testPlaced, placed⟩ := bind_eq_ok.mp placed
  obtain ⟨_, stepPlaced, bodyPlaced⟩ := bind_eq_ok.mp placed
  have framed := steady.sound.framed
  have entered : Steady strict listed [] { history with layout := history.layout.push }
      { machine with context := machine.context.pushScope } :=
    ⟨steady.fine, steady.follows.pushScope, steady.sound.push⟩
  unfold Recorded.stmt
  refine Safe.between (forInit_safe ih entered history.layout.push_fresh initResolved initPlaced
    (fun holds => (typed holds).1) (framed.enterScope realizes) ?_)
  intro history' machine' steady' grew operands realizes'
  have testReady : test.Ready strict history'.layout (scopes.push.afterInit init) :=
    ⟨testResolved, testPlaced, fun holds => (typed holds).2.1.typed,
      Layout.Realizes.left (Layout.Realizes.left realizes')⟩
  have stepReady : step.Ready strict history'.layout (scopes.push.afterInit init) :=
    ⟨stepResolved, stepPlaced, fun holds => (typed holds).2.2.1,
      Layout.Realizes.right (Layout.Realizes.left realizes')⟩
  have bodyReady : body.Ready strict listed { around with inLoop := true } result history'.layout
      (scopes.push.afterInit init) :=
    ⟨bodyResolved, bodyPlaced, fun holds => (typed holds).2.2.2, uncaptured, among,
      Layout.Realizes.right realizes'⟩
  have decides : test.MayDecide strict := fun holds => (typed holds).2.1.type
  refine (ih.forLoop steady' testReady decides stepReady bodyReady).mono
    fun flow history'' machine'' ended => ?_
  obtain ⟨stays, fits⟩ := ended
  have left := stays.follows.popScope framed grew
  exact ⟨⟨rfl, left, stays.operands.trans operands⟩, fits⟩

theorem branch_safe (ih : SafeAt strict listed fuel) {span : Span} {test : Expr} {thenBranch : Block}
    {elseBranch : Option Block} (steady : Steady strict listed [] history machine)
    (testReady : test.Ready strict history.layout scopes) (decides : test.MayDecide strict)
    (thenReady : thenBranch.Ready strict listed around result history.layout scopes)
    (elseReady : ∀ body, elseBranch = some body →
      body.Ready strict listed around result history.layout scopes) :
    Safe strict (Recorded.stmt watching (fuel + 1) (.ifElse span test thenBranch elseBranch)) history
      machine fun flow history' machine' =>
        Stays strict history machine.operands history' machine' ∧ flow.Fits strict around result := by
  unfold Recorded.stmt
  refine (ih.condition steady testReady decides).bind fun isTrue history' machine' fine stays => ?_
  have steady' := stays.steady fine steady
  rw [← stays.layout] at thenReady elseReady
  cases isTrue with
  | true =>
    refine (ih.block steady' thenReady).mono fun flow history'' machine'' ended => ?_
    obtain ⟨again, fits, -⟩ := ended
    exact ⟨stays.operands ▸ stays.trans again, fits⟩
  | false =>
    cases elseBranch with
    | none => exact .pure fine ⟨stays, trivial⟩
    | some body =>
      refine (ih.block steady' (elseReady body rfl)).mono fun flow history'' machine'' ended => ?_
      obtain ⟨again, fits, -⟩ := ended
      exact ⟨stays.operands ▸ stays.trans again, fits⟩

theorem ifElse_safe (ih : SafeAt strict listed fuel) {span : Span} {test : Expr} {thenBranch : Block}
    {elseBranch : Option Block} (steady : Steady strict listed [] history machine)
    (ready : (Stmt.ifElse span test thenBranch elseBranch).Ready strict listed around result
      history.layout [] scopes) :
    Safe strict (Recorded.stmt watching (fuel + 1) (.ifElse span test thenBranch elseBranch)) history
      machine fun flow history' machine' =>
        Stays strict history machine.operands history' machine' ∧ flow.Fits strict around result := by
  obtain ⟨resolved, placed, typed, uncaptured, among, realizes, -⟩ := ready
  cases elseBranch with
  | none =>
    obtain ⟨_, testPlaced, thenPlaced⟩ := bind_eq_ok.mp placed
    have testReady : test.Ready strict history.layout scopes :=
      ⟨resolved.1, testPlaced, fun holds => (typed holds).1.typed, Layout.Realizes.left realizes⟩
    have thenReady : thenBranch.Ready strict listed around result history.layout scopes :=
      ⟨resolved.2, thenPlaced, fun holds => (typed holds).2, uncaptured, among,
        Layout.Realizes.right realizes⟩
    refine branch_safe ih steady testReady (fun holds => (typed holds).1.type) thenReady ?_
    intro body same
    cases same
  | some elseBranch =>
    obtain ⟨_, testPlaced, placed⟩ := bind_eq_ok.mp placed
    obtain ⟨_, thenPlaced, elsePlaced⟩ := bind_eq_ok.mp placed
    have both : strict → thenBranch.uncaptured = true ∧ elseBranch.uncaptured = true := by
      intro holds
      simpa [Stmt.uncaptured] using uncaptured holds
    have first : history.layout.Realizes strict [] scopes (test.names ++ thenBranch.freeNames)
        history.layout.chain := Layout.Realizes.left realizes
    have testReady : test.Ready strict history.layout scopes :=
      ⟨resolved.1, testPlaced, fun holds => (typed holds).1.typed, Layout.Realizes.left first⟩
    have thenReady : thenBranch.Ready strict listed around result history.layout scopes :=
      ⟨resolved.2.1, thenPlaced, fun holds => (typed holds).2.1, fun holds => (both holds).1,
        (List.sublist_append_left ..).trans among, Layout.Realizes.right first⟩
    refine branch_safe ih steady testReady (fun holds => (typed holds).1.type) thenReady ?_
    intro body same
    cases same
    exact ⟨resolved.2.2, elsePlaced, fun holds => (typed holds).2.2, fun holds => (both holds).2,
      (List.sublist_append_right ..).trans among, Layout.Realizes.right realizes⟩

/-- A `return` stands in a function, and what it returns is of the result type. -/
theorem returnValue_safe (ih : SafeAt strict listed fuel) {span : Span} {returns : Option Expr}
    (steady : Steady strict listed [] history machine)
    (ready : (Stmt.returnValue span returns).Ready strict listed around result history.layout []
      scopes) :
    Safe strict (Recorded.stmt watching (fuel + 1) (.returnValue span returns)) history machine
      fun flow history' machine' =>
        Stays strict history machine.operands history' machine' ∧ flow.Fits strict around result ∧
          flow.isNext = false := by
  obtain ⟨resolved, placed, typed, -, -, realizes, -⟩ := ready
  cases returns with
  | none =>
    have inFunction : around.inFunction = true := Check.demanded.mp placed
    refine .pure steady.fine
      ⟨⟨rfl, steady.follows, rfl⟩, ⟨inFunction, fun holds ty same notVoid => ?_⟩, rfl⟩
    rcases typed holds with none | void
    · cases none.symm.trans same
    · cases void.symm.trans same
      exact (notVoid rfl).elim
  | some e =>
    obtain ⟨_, valuePlaced, placed⟩ := bind_eq_ok.mp placed
    have inFunction : around.inFunction = true := Check.demanded.mp placed
    unfold Recorded.stmt
    refine (ih.valueOf steady
      ⟨resolved, valuePlaced, fun holds => (typed holds).1, realizes⟩).bind
      fun value history' machine' fine ended => ?_
    obtain ⟨stays, describes⟩ := ended
    refine .pure fine ⟨stays, ⟨inFunction, fun holds ty same notVoid => ?_⟩, rfl⟩
    exact describes holds ty ((typed holds).2 ty same notVoid) notVoid

/-- A statement that is neither a declaration nor a `return` has nothing more to show than that
the scopes stay as they are. -/
theorem Safe.undeclaring {piece : Watched Flow} {s : Stmt}
    (same : history.layout.after s = history.layout) (notReturn : s.isReturn = false)
    (safe : Safe strict piece history machine fun flow history' machine' =>
      Stays strict history machine.operands history' machine' ∧ flow.Fits strict around result) :
    Safe strict piece history machine fun flow history' machine' =>
      history'.layout = history.layout.after s ∧
        machine'.context.Follows strict (history.layout.after s) ∧
        machine'.operands = machine.operands ∧ flow.Fits strict around result ∧
        (s.isReturn = true → flow.isNext = false) := by
  rw [same, notReturn]
  refine safe.mono fun flow history' machine' ended => ?_
  obtain ⟨stays, fits⟩ := ended
  exact ⟨stays.layout, stays.follows, stays.operands, fits, (absurd · Bool.false_ne_true)⟩

theorem SafeAt.stmt_succ (ih : SafeAt strict listed fuel) {awaited : List FunctionDecl} {s : Stmt}
    (steady : Steady strict listed awaited history machine)
    (ready : s.Ready strict listed around result history.layout awaited scopes) :
    Safe strict (Recorded.stmt watching (fuel + 1) s) history machine fun flow history' machine' =>
      history'.layout = history.layout.after s ∧
        machine'.context.Follows strict (history.layout.after s) ∧
        machine'.operands = machine.operands ∧ flow.Fits strict around result ∧
        (s.isReturn = true → flow.isNext = false) := by
  have whole := ready
  obtain ⟨resolved, placed, typed, uncaptured, among, realizes, declarable⟩ := ready
  cases s with
  | letVar span decl =>
    obtain ⟨rfl, isNew, -⟩ := declarable
    unfold Recorded.stmt
    refine (ih.varDecl steady ⟨resolved, placed, typed, realizes, isNew⟩).bind
      fun value history' machine' fine ended => ?_
    obtain ⟨declared, follows, operands⟩ := ended
    exact .pure fine ⟨declared, follows, operands, trivial, (absurd · Bool.false_ne_true)⟩
  | function span decl =>
    obtain ⟨isNew, -⟩ := declarable
    obtain ⟨context, defined, follows⟩ := steady.follows.defineFunction_eq isNew
    have run : Run.change decl.nameSpan (Context.addFunction decl) machine =
        .done () { machine with context } := Run.change_eq_done.mpr ⟨context, defined, rfl⟩
    have defines : Safe strict (defineFunction watching decl) history machine
        fun _ history' machine' => history'.layout = history.layout.define decl ∧
          machine' = { machine with context } :=
      .bind_done run (.note steady.fine ⟨rfl, rfl⟩)
    unfold Recorded.stmt
    refine defines.bind fun _ history' _ fine ended => ?_
    obtain ⟨defined, same⟩ := ended
    subst same
    exact .pure fine ⟨defined, follows, rfl, trivial, (absurd · Bool.false_ne_true)⟩
  | returnValue span returns =>
    obtain rfl : awaited = [] := declarable
    refine (returnValue_safe ih steady whole).mono fun flow history' machine' ended => ?_
    obtain ⟨stays, fits, ends⟩ := ended
    exact ⟨stays.layout, stays.follows, stays.operands, fits, fun _ => ends⟩
  | expr span e =>
    obtain rfl : awaited = [] := declarable
    unfold Recorded.stmt
    refine .undeclaring rfl rfl ((ih.valueOf steady ⟨resolved, placed, typed, realizes⟩).bind
      fun value history' machine' fine ended => ?_)
    exact .pure fine ⟨ended.1, trivial⟩
  | block span body =>
    obtain rfl : awaited = [] := declarable
    unfold Recorded.stmt
    refine .undeclaring rfl rfl ((ih.block steady
      ⟨resolved, placed, typed, uncaptured, among, realizes⟩).mono
        fun flow history' machine' ended => ?_)
    exact ⟨ended.1, ended.2.1⟩
  | ifElse span test thenBranch elseBranch =>
    obtain rfl : awaited = [] := declarable
    exact .undeclaring rfl rfl (ifElse_safe ih steady whole)
  | whileLoop span test body =>
    obtain rfl : awaited = [] := declarable
    obtain ⟨_, testPlaced, bodyPlaced⟩ := bind_eq_ok.mp placed
    have testReady : test.Ready strict history.layout scopes :=
      ⟨resolved.1, testPlaced, fun holds => (typed holds).1.typed, Layout.Realizes.left realizes⟩
    have bodyReady :
        body.Ready strict listed { around with inLoop := true } result history.layout scopes :=
      ⟨resolved.2, bodyPlaced, fun holds => (typed holds).2, uncaptured, among,
        Layout.Realizes.right realizes⟩
    unfold Recorded.stmt
    exact .undeclaring rfl rfl
      (ih.whileLoop steady testReady (fun holds => (typed holds).1.type) bodyReady)
  | forLoop span init test step body =>
    obtain rfl : awaited = [] := declarable
    exact .undeclaring rfl rfl (forLoop_safe ih steady whole)
  | breakLoop span =>
    obtain rfl : awaited = [] := declarable
    have inLoop : around.inLoop = true := Check.demanded.mp placed
    exact .undeclaring rfl rfl (.pure steady.fine ⟨⟨rfl, steady.follows, rfl⟩, inLoop⟩)
  | continueLoop span =>
    obtain rfl : awaited = [] := declarable
    have inLoop : around.inLoop = true := Check.demanded.mp placed
    exact .undeclaring rfl rfl (.pure steady.fine ⟨⟨rfl, steady.follows, rfl⟩, inLoop⟩)

/-- The parameters are bound one after the other, each a new name of the scope. -/
theorem params_safe :
    ∀ (params : List Param) (args : List Value) {scopes : Scopes} {free : List String}
      {history : History} {machine : Machine}, args.length = params.length →
      Steady strict listed [] history machine →
      history.layout.Realizes strict [] scopes free history.layout.chain →
      (∀ name, history.layout.LeavesFree name) →
      (∀ param ∈ params, history.layout.IsNew param.name) → (params.map Param.name).Nodup →
      (∀ value param, (value, param) ∈ args.zip (params.map Param.binding) →
        value.Fits strict param) →
      Safe strict (forEach (fun (param, value) =>
          bindVariable watching param.span param.name param.binding value) (params.zip args))
          history machine
        fun _ history' machine' => history.layout.Grew history'.layout ∧
          Steady strict listed [] history' machine' ∧ machine'.operands = machine.operands ∧
          history'.layout.Realizes strict [] (scopes.bindParams params)
            (params.map Param.name ++ free) history'.layout.chain
  | [], [], _, _, _, _, _, steady, realizes, _, _, _, _ =>
    .pure steady.fine ⟨Layout.Grew.refl _, steady, rfl, realizes⟩
  | param :: params, value :: args, scopes, free, history, machine, length, steady, realizes,
      leavesFree, isNew, distinct, fits => by
    obtain ⟨notLater, distinct⟩ := List.nodup_cons.mp distinct
    have headNew := isNew param (List.mem_cons_self ..)
    refine (bindVariable_safe steady.fine steady.follows headNew
      (fits value param.binding (List.mem_cons_self ..))).bind
      fun _ history' machine' fine bound => ?_
    obtain ⟨declared, follows, operands⟩ := bound
    obtain ⟨grew, steady'⟩ := steady.declare fine declared follows headNew (leavesFree param.name)
    have realizes' : history'.layout.Realizes strict []
        (scopes.bind param.name (.variable param.binding)) (param.name :: free)
        history'.layout.chain := by
      rw [declared]
      exact realizes.bind steady.sound.framed fun name member => List.mem_cons.mp member
    refine (params_safe params args (Nat.succ.inj length) steady' realizes' ?_ ?_ distinct
      fun v p member => fits v p (List.mem_cons_of_mem _ member)).mono
      fun _ history'' machine'' ⟨grew', steady'', operands', realizes''⟩ => ?_
    · intro name
      rw [declared]
      exact Layout.leavesFree_declare (leavesFree name)
    · intro other member
      have different : other.name ≠ param.name := fun same =>
        notLater (same ▸ List.mem_map_of_mem member)
      rw [Layout.IsNew, grew.top, declared, Layout.owner?_declare_of_ne different]
      exact isNew other (List.mem_cons_of_mem _ member)
    · refine ⟨grew.trans grew', steady'', operands'.trans operands, realizes''.subset ?_⟩
      simp only [List.map_cons, List.cons_append, List.mem_cons, List.mem_append]
      grind

end Watched

/-- A defined function is one of the program. -/
theorem FunctionDecl.ClosedIn.member {strict : Prop} {listed awaited : List FunctionDecl}
    {layout : Layout} {index : Nat} {decl : FunctionDecl}
    (closed : decl.ClosedIn strict listed layout awaited index) : decl ∈ listed :=
  closed.among.subset (by simp [decl.functions_eq])

/-- Functions with the same number are the same, so the one that is found is the one that is
meant. -/
theorem Layout.Sound.finds {strict : Prop} {listed : List FunctionDecl} {layout : Layout}
    {context : Context} {symbol : FunctionSymbol} {args : List Value}
    (distinct : (listed.map FunctionDecl.id).Nodup) (sound : layout.Sound strict listed [])
    (follows : context.Follows strict layout) (callable : symbol.Callable strict layout args) :
    ∃ decl found, context.getFunction symbol.id symbol.name = .ok (decl, found) ∧
      decl.binding = symbol ∧ found < layout.layers.size ∧
      decl.ClosedIn strict listed layout [] found := by
  obtain ⟨index, member, layer, meant, atLayer, defined, binding⟩ := callable.visible
  obtain ⟨found, layer', decl, run, atFound, known⟩ :=
    follows.getFunction_eq sound.framed symbol.name member atLayer defined
  obtain ⟨meantId, meantClosed⟩ := sound.closed index layer _ meant atLayer defined
  obtain ⟨declId, closed⟩ := sound.closed found layer' _ decl atFound known
  obtain rfl : meant = decl := List.inj_on_of_nodup_map distinct meantClosed.member closed.member
    (meantId.trans declId.symm)
  exact ⟨meant, found, run, binding, (Array.getElem?_eq_some_iff.mp atFound).1, closed⟩

namespace Watched

open Recorded

variable {strict : Prop} {listed : List FunctionDecl} {fuel : Nat} {history : History}
  {machine : Machine}

/-- In the frame of a call the parameters are bound, and then the body is ready. -/
theorem body_safe (ih : SafeAt strict listed fuel) {decl : FunctionDecl} {found : Nat}
    {args : List Value} {span : Span} (steady : Steady strict listed [] history machine)
    (closed : decl.ClosedIn strict listed history.layout [] found)
    (linked : found < history.layout.layers.size)
    (callable : decl.binding.Callable strict history.layout args) :
    Safe strict (inFrame watching found do
        bindParams watching decl args span
        let flow ← block watching fuel decl.body
        step watching (Run.callResult decl span flow)) history machine fun value history' machine' =>
      Stays strict history machine.operands history' machine' ∧
        (strict → decl.binding.result ≠ .void → value.type = decl.binding.result) := by
  obtain ⟨⟨scopes, resolved, realizes⟩, placed, among, typed, uncaptured⟩ := closed
  have header := resolved.header
  have framed := steady.sound.framed
  have fresh := history.layout.pushFrame_fresh found
  have length : args.length = decl.params.length := by
    rw [callable.length, header.params, List.length_map]
  have fits := callable.fits
  rw [header.params] at fits
  have entered : Steady strict listed [] { history with layout := history.layout.pushFrame found }
      { machine with context := machine.context.pushFrame found } :=
    ⟨steady.fine, steady.follows.pushFrame found, steady.sound.pushFrame linked⟩
  refine Safe.between ?_
  rw [bindParams, if_pos length]
  refine (params_safe decl.params args length entered (framed.enterFrame linked realizes)
    fresh.leavesFree (fun param _ => fresh.isNew param.name) header.distinct fits).bind
    fun _ history' machine' fine ⟨grew, steady', operands, realizes'⟩ => ?_
  have bodyReady : decl.body.Ready strict listed { inFunction := true }
      (some decl.binding.result) history'.layout (scopes.push.bindParams decl.params) := by
    obtain ⟨id, name, nameSpan, params, resultName, body, place, symbol⟩ := decl
    refine ⟨resolved.2, placed, fun holds => ?_, uncaptured,
      (List.sublist_append_left ..).trans among, realizes'.subset fun name member => ?_⟩
    · obtain ⟨function, stored, bodyTyped, -⟩ := typed holds
      cases stored.symm.trans header.symbol
      exact bodyTyped
    · by_cases bound : name ∈ params.map Param.name
      · exact List.mem_append_left _ bound
      · exact List.mem_append_right _ (mem_namesExcept.mpr ⟨member, bound⟩)
  refine (ih.block steady' bodyReady).bind
    fun flow history'' machine'' fine' ⟨stays, jump, ends⟩ => ?_
  have left : machine''.context.popFrame.Follows strict history.layout :=
    stays.follows.popFrame framed grew
  have operands' := stays.operands.trans operands
  cases flow with
  | returned value =>
    exact .done fine' rfl ⟨⟨rfl, left, operands'⟩, fun holds notVoid => jump.2 holds _ rfl notVoid⟩
  | next value =>
    refine .fail fine' rfl fun holds => ?_
    obtain ⟨id, name, nameSpan, params, resultName, body, place, symbol⟩ := decl
    obtain ⟨function, -, -, endsInReturn⟩ := typed holds
    cases ends endsInReturn
  | breakLoop | continueLoop => cases jump

theorem SafeAt.callUser_succ (distinct : (listed.map FunctionDecl.id).Nodup)
    (ih : SafeAt strict listed fuel) {symbol : FunctionSymbol} {args : List Value} {span : Span}
    (steady : Steady strict listed [] history machine)
    (callable : symbol.Callable strict history.layout args) :
    Safe strict (Recorded.callUser watching (fuel + 1) symbol args span) history machine
      fun value history' machine' =>
        Stays strict history machine.operands history' machine' ∧
          (strict → symbol.result ≠ .void → value.type = symbol.result) := by
  obtain ⟨decl, found, run, rfl, linked, closed⟩ :=
    steady.sound.finds distinct steady.follows callable
  obtain ⟨scopes, resolved, -⟩ := closed.around
  have fine : (history.add (.called decl.binding machine.context)).Fine strict :=
    steady.fine.add ⟨decl, found, run, resolved.header.symbol⟩
  have looked : Run.attempt span (machine.context.getFunction decl.binding.id decl.binding.name)
      machine = .done (decl, found) machine := by
    simp only [run]
    rfl
  unfold Recorded.callUser
  refine .bind_note (.bind_done rfl (.bind_done looked (.inCall fine fun calls => ?_)))
  have steady' : Steady strict listed [] (history.add (.called decl.binding machine.context))
      { machine with calls } := ⟨fine, steady.follows, steady.sound⟩
  refine (body_safe ih steady' closed linked callable).mono
    fun value history'' machine'' ⟨stays, fits⟩ calls => ?_
  exact ⟨⟨rfl, stays.follows, stays.operands⟩, fits⟩

end Watched

end Lu
