import Lu.Proofs.Run.Known
import Lu.Proofs.Tree.Returned

namespace Lu

/-!
Where the value of a call comes from: a function of the program was found for it, and has returned the
value at one of its `return` statements, where it had just been evaluated.
-/

/-- What was returned at the place: `void` where there is no expression, else the value of the
expression. -/
def ReturnedAt (events : List Event) : Option Expr → Value → Prop
  | none, value => value = .void
  | some e, value => .evaluated e value ∈ events

/-- One of the listed functions was found for the symbol and has returned the value. -/
def FunctionSymbol.Returned (listed : List FunctionDecl) (events : List Event)
    (symbol : FunctionSymbol) (value : Value) : Prop :=
  ∃ context decl index, .called symbol context ∈ events ∧
    context.getFunction symbol.id symbol.name = .ok (decl, index) ∧ decl ∈ listed ∧
    ∃ place ∈ decl.body.returned, ReturnedAt events place value

/-- The value of an assignment is that of what was assigned, the value of a call of a function of the
program was returned by it. -/
def Expr.Sourced (listed : List FunctionDecl) (events : List Event) (e : Expr) (value : Value) :
    Prop :=
  match e with
  | .assign _ _ assigned => .evaluated assigned value ∈ events
  | .call _ _ _ _ callee => ∀ symbol, callee.value? = some (.user symbol) →
      symbol.Returned listed events value
  | _ => True

/-- Each value comes from what was there before. -/
def Sourced (listed : List FunctionDecl) : List Event → Prop
  | [] => True
  | .evaluated e value :: earlier => e.Sourced listed earlier value ∧ Sourced listed earlier
  | .referred .. :: earlier | .called .. :: earlier => Sourced listed earlier

/-- What a jump carries was returned at one of the places. -/
def Flow.Sourced (places : List (Option Expr)) (events : List Event) : Flow → Prop
  | .returned value => ∃ place ∈ places, ReturnedAt events place value
  | _ => True

theorem ReturnedAt.mono {events more : List Event} {place : Option Expr} {value : Value}
    (returned : ReturnedAt events place value) (longer : events <:+ more) :
    ReturnedAt more place value := by
  cases place with
  | none => exact returned
  | some e => exact longer.subset returned

theorem Flow.Sourced.mono {places others : List (Option Expr)} {events more : List Event}
    {flow : Flow} (sourced : flow.Sourced places events) (among : places ⊆ others)
    (longer : events <:+ more) : flow.Sourced others more := by
  cases flow with
  | returned value =>
    obtain ⟨place, member, returned⟩ := sourced
    exact ⟨place, among member, returned.mono longer⟩
  | next | breakLoop | continueLoop => trivial

/-- The value of an expression comes from fewer events. -/
theorem Sourced.before {listed : List FunctionDecl} {events : List Event} {e : Expr} {value : Value}
    (sourced : Sourced listed events) (evaluated : .evaluated e value ∈ events) :
    ∃ earlier, earlier <:+ events ∧ earlier.length < events.length ∧ Sourced listed earlier ∧
      e.Sourced listed earlier value := by
  induction events with
  | nil => cases evaluated
  | cons latest events ih =>
    have rest : Sourced listed events := by
      cases latest with
      | evaluated => exact sourced.2
      | referred | called => exact sourced
    rcases List.mem_cons.mp evaluated with rfl | member
    · exact ⟨events, List.suffix_cons _ _, Nat.lt_succ_self _, rest, sourced.1⟩
    · obtain ⟨earlier, suffix, shorter, found⟩ := ih rest member
      exact ⟨earlier, suffix.trans (List.suffix_cons _ _), Nat.lt_succ_of_lt shorter, found⟩

namespace Run

/-- What was assigned stays the latest operand. -/
theorem assign_operands {span place : Span} {name : String} {machine after : Machine}
    (ran : (do
      let assigned ← peek span
      change place (Context.setVariable name assigned) : Run Unit) machine = .done () after) :
    after.operands = machine.operands := by
  obtain ⟨context, operands, calls, env⟩ := machine
  cases operands with
  | nil => cases ran
  | cons assigned rest =>
    obtain ⟨_, -, rfl⟩ := Run.change_eq_done.mp ran
    rfl

end Run

namespace Watched

open Recorded

variable {α β : Type} {listed : List FunctionDecl} {history : History} {machine : Machine}

/-- The history is sourced, and the scopes hold listed functions. -/
structure Known (listed : List FunctionDecl) (history : History) (machine : Machine) : Prop where
  sourced : Sourced listed history.events
  knows : machine.context.Knows listed

/-- The history goes on and stays sourced; when the piece is done it gives what it promises. -/
def Adds (listed : List FunctionDecl) (history : History)
    (gives : α → List Event → Machine → Prop) : Outcome α × History → Prop
  | (.done value after, history') =>
    Known listed history' after ∧ history.events <:+ history'.events ∧
      gives value history'.events after
  | (.failed _ _, history') | (.faulted _ _, history') | (.outOfFuel, history') =>
    Sourced listed history'.events

def Sources (listed : List FunctionDecl) (piece : Watched α) (history : History) (machine : Machine)
    (gives : α → List Event → Machine → Prop) : Prop :=
  Adds listed history gives (piece history machine)

theorem Adds.after {earlier : History} {gives : α → List Event → Machine → Prop}
    {result : Outcome α × History} (adds : Adds listed history gives result)
    (longer : earlier.events <:+ history.events) : Adds listed earlier gives result := by
  rcases result with ⟨value | e | f | _, history'⟩
  · exact ⟨adds.1, longer.trans adds.2.1, adds.2.2⟩
  · exact adds
  · exact adds
  · exact adds

theorem Sources.pure {value : α} {gives : α → List Event → Machine → Prop}
    (known : Known listed history machine) (done : gives value history.events machine) :
    Sources listed (pure value) history machine gives :=
  ⟨known, List.suffix_rfl, done⟩

theorem Sources.bind {first : Watched α} {next : α → Watched β}
    {middle : α → List Event → Machine → Prop} {gives : β → List Event → Machine → Prop}
    (atFirst : Sources listed first history machine middle)
    (atNext : ∀ value history' machine', Known listed history' machine' →
      history.events <:+ history'.events → middle value history'.events machine' →
      Sources listed (next value) history' machine' gives) :
    Sources listed (first >>= next) history machine gives := by
  change Adds listed history gives (Recorded.bind first next history machine)
  unfold Sources at atFirst
  unfold Recorded.bind
  generalize first history machine = result at atFirst ⊢
  rcases result with ⟨value | e | f | _, history'⟩
  · obtain ⟨known, longer, between⟩ := atFirst
    exact (atNext value history' _ known longer between).after longer
  · exact atFirst
  · exact atFirst
  · exact atFirst

theorem Sources.mono {piece : Watched α} {gives weaker : α → List Event → Machine → Prop}
    (sources : Sources listed piece history machine gives)
    (imp : ∀ value events after, gives value events after → weaker value events after) :
    Sources listed piece history machine weaker := by
  unfold Sources at sources ⊢
  generalize piece history machine = result at sources ⊢
  rcases result with ⟨value | e | f | _, history'⟩
  · exact ⟨sources.1, sources.2.1, imp _ _ _ sources.2.2⟩
  · exact sources
  · exact sources
  · exact sources

/-- A step adds nothing to the history. -/
theorem Sources.knowing {piece : Run α} {gives : α → List Event → Machine → Prop}
    (known : Known listed history machine) (knowing : Run.Knowing listed piece)
    (done : ∀ value after, piece machine = .done value after → gives value history.events after) :
    Sources listed (step watching piece) history machine gives := by
  have knows := knowing machine known.knows
  unfold Sources
  rw [step_apply]
  cases ran : piece machine with
  | done value after =>
    rw [ran] at knows
    exact ⟨⟨known.sourced, knows⟩, List.suffix_rfl, done value after ran⟩
  | failed | faulted | outOfFuel => exact known.sourced

theorem Sources.quiet {piece : Run α} {gives : α → List Event → Machine → Prop}
    (known : Known listed history machine) (quiet : Run.Quiet piece)
    (done : ∀ value after, piece machine = .done value after → gives value history.events after) :
    Sources listed (step watching piece) history machine gives :=
  .knowing known (.of_quiet quiet) done

/-- The context is read off the machine. -/
theorem Sources.context {next : Context → Watched α} {gives : α → List Event → Machine → Prop}
    (sources : Sources listed (next machine.context) history machine gives) :
    Sources listed (step watching Run.context >>= next) history machine gives := sources

theorem Sources.attempt {span : Span} {result : Except RuntimeErrorKind α}
    (known : Known listed history machine) :
    Sources listed (step watching (Run.attempt span result)) history machine
      fun value _ _ => result = .ok value := by
  cases result with
  | ok value => exact ⟨known, List.suffix_rfl, rfl⟩
  | error kind => exact known.sourced

theorem Sources.attemptFault {result : Except Fault α} (known : Known listed history machine) :
    Sources listed (step watching (Run.attemptFault result)) history machine
      fun value _ _ => result = .ok value := by
  cases result with
  | ok value => exact ⟨known, List.suffix_rfl, rfl⟩
  | error f => exact known.sourced

theorem Sources.note {record : Machine → History → History}
    {gives : Unit → List Event → Machine → Prop}
    (known : Known listed (record machine history) machine)
    (longer : history.events <:+ (record machine history).events)
    (done : gives () (record machine history).events machine) :
    Sources listed (note record) history machine gives := ⟨known, longer, done⟩

theorem Sources.refer {name : String} {symbol : Attribute "variable declaration" VariableSymbol}
    {gives : Unit → List Event → Machine → Prop} (known : Known listed history machine)
    (done : gives () (.referred name symbol history.layout machine.context :: history.events)
      machine) : Sources listed (refer watching name symbol) history machine gives :=
  .note ⟨known.sourced, known.knows⟩ (List.suffix_cons _ _) done

theorem Sources.between {enter leave : Context → Context} {inside : History → History}
    {piece : Watched α} {gives : α → List Event → Prop}
    (leaves : ∀ context, context.Knows listed → (leave context).Knows listed)
    (same : (inside history).events = history.events)
    (sources : Sources listed piece (inside history)
      { machine with context := enter machine.context } fun value events _ => gives value events) :
    Sources listed (between watching enter leave inside piece) history machine
      fun value events _ => gives value events := by
  unfold Sources at sources
  unfold Sources Recorded.between Run.between
  simp only
  generalize piece _ _ = result at sources ⊢
  rcases result with ⟨value | e | f | _, history'⟩
  · obtain ⟨known, longer, given⟩ := sources
    rw [same] at longer
    exact ⟨⟨known.sourced, leaves _ known.knows⟩, longer, given⟩
  · exact sources
  · exact sources
  · exact sources

theorem Sources.inScope {piece : Watched α} {gives : α → List Event → Prop}
    (known : Known listed history machine)
    (sources : ∀ history' machine', Known listed history' machine' →
      Sources listed piece history' machine' fun value events _ => gives value events) :
    Sources listed (inScope watching piece) history machine fun value events _ => gives value events :=
  .between (fun _ knows => knows.popScope) rfl (sources _ _ ⟨known.sourced, known.knows.push _⟩)

theorem Sources.inFrame {home : Nat} {piece : Watched α} {gives : α → List Event → Prop}
    (known : Known listed history machine)
    (sources : ∀ history' machine', Known listed history' machine' →
      history'.events = history.events →
      Sources listed piece history' machine' fun value events _ => gives value events) :
    Sources listed (inFrame watching home piece) history machine
      fun value events _ => gives value events :=
  .between (fun _ knows => knows.popFrame) rfl (sources _ _ ⟨known.sourced, known.knows.push _⟩ rfl)

theorem Sources.inCall {function : String} {span : Span} {piece : Watched α}
    {gives : α → List Event → Prop} (known : Known listed history machine)
    (sources : ∀ calls, Sources listed piece history { machine with calls }
      fun value events _ => gives value events) :
    Sources listed (inCall watching function span piece) history machine
      fun value events _ => gives value events := by
  unfold Sources Recorded.inCall Run.inCall
  cases machine.calls.push ⟨function, span⟩ with
  | error kind => exact known.sourced
  | ok calls =>
    have inner : Sources listed piece (watching.entersCall ⟨function, span⟩ history)
        { machine with calls } _ := sources calls
    unfold Sources at inner
    simp only
    generalize piece _ { machine with calls } = result at inner ⊢
    rcases result with ⟨value | e | f | _, history'⟩
    · exact ⟨⟨inner.1.sourced, inner.1.knows⟩, inner.2⟩
    · exact inner
    · exact inner
    · exact inner

/-- The piece keeps all sourced; nothing is promised of what it gives. -/
def Tracks (listed : List FunctionDecl) (piece : Watched α) : Prop :=
  ∀ history machine, Known listed history machine →
    Sources listed piece history machine fun _ _ _ => True

theorem Tracks.bind {first : Watched α} {next : α → Watched β} (atFirst : Tracks listed first)
    (atNext : ∀ value, Tracks listed (next value)) : Tracks listed (first >>= next) :=
  fun history machine known => (atFirst history machine known).bind
    fun value history' machine' known' _ _ => atNext value history' machine' known'

theorem Tracks.quiet {piece : Run α} (quiet : Run.Quiet piece) :
    Tracks listed (step watching piece) :=
  fun _ _ known => .quiet known quiet fun _ _ _ => trivial

theorem Tracks.forEach {piece : α → Watched Unit} (each : ∀ item, Tracks listed (piece item))
    (items : List α) : Tracks listed (forEach piece items) := by
  induction items with
  | nil => exact fun _ _ known => .pure known trivial
  | cons item rest ih => exact (each item).bind fun _ => ih

theorem refer_tracks (name : String) (symbol : Attribute "variable declaration" VariableSymbol) :
    Tracks listed (refer watching name symbol) :=
  fun _ _ known => .refer known trivial

theorem Tracks.knowing {piece : Run α} (knowing : Run.Knowing listed piece) :
    Tracks listed (step watching piece) :=
  fun _ _ known => .knowing known knowing fun _ _ _ => trivial

theorem bindVariable_tracks (span : Span) (name : String) (symbol : VariableSymbol)
    (value : Value) : Tracks listed (bindVariable watching span name symbol value) :=
  have knowing : Run.Knowing listed (Run.change span (Context.addVariable name value)) :=
    .change span (Context.addVariable_atomic _ _) fun _ _ knows defined => knows.defineVariable defined
  (Tracks.knowing knowing).bind fun _ _ _ known =>
    .note ⟨known.sourced, known.knows⟩ List.suffix_rfl trivial

theorem bindParams_tracks (decl : FunctionDecl) (args : List Value) (span : Span) :
    Tracks listed (bindParams watching decl args span) := by
  unfold bindParams
  split
  · exact .forEach (fun _ => bindVariable_tracks _ _ _ _) _
  · exact .quiet (Run.fail_quiet _ _)

/-- Nothing is asked of the values of most expressions. -/
theorem Tracks.sources {e : Expr} {piece : Watched Unit} (tracks : Tracks listed piece)
    (known : Known listed history machine) (any : ∀ events value, e.Sourced listed events value) :
    Sources listed piece history machine fun _ events after =>
      ∀ value rest, after.operands = value :: rest → e.Sourced listed events value :=
  (tracks history machine known).mono fun _ events _ _ value _ _ => any events value

/-- The value that is noted for an expression is the latest operand. -/
theorem Sources.evaluating {e : Expr} {piece : Watched Unit}
    (sources : Sources listed piece history machine fun _ events after =>
      ∀ value rest, after.operands = value :: rest → e.Sourced listed events value) :
    Sources listed (evaluating watching e piece) history machine fun _ events after =>
      ∀ value rest, after.operands = value :: rest → .evaluated e value ∈ events := by
  refine sources.bind fun _ history' machine' known longer given => ?_
  cases operands : machine'.operands with
  | nil =>
    have same : watching.evaluated e machine' history' = history' := by
      simp only [watching, operands]
    refine .note (by rwa [same]) ?_ fun value rest top => ?_
    · simp only [same, List.suffix_rfl]
    · cases operands.symm.trans top
  | cons value rest =>
    have added : watching.evaluated e machine' history' = history'.add (.evaluated e value) :=
      evaluated_eq operands
    have sourced : e.Sourced listed history'.events value := given value rest operands
    refine .note ?_ ?_ fun other more top => ?_
    · rw [added]
      exact ⟨⟨sourced, known.sourced⟩, known.knows⟩
    · rw [added]
      exact List.suffix_cons _ _
    · rw [added]
      cases operands.symm.trans top
      exact List.mem_cons_self ..

/-- What every evaluator adds to the history, for some amount of fuel. -/
structure EvaluatorsSource (listed : List FunctionDecl) (fuel : Nat) : Prop where
  expr (e) {history machine} (known : Known listed history machine) :
    Sources listed (expr watching fuel e) history machine fun _ events after =>
      ∀ value rest, after.operands = value :: rest → .evaluated e value ∈ events
  valueOf (e) {history machine} (known : Known listed history machine) :
    Sources listed (valueOf watching fuel e) history machine
      fun value events _ => .evaluated e value ∈ events
  condition (e) : Tracks listed (condition watching fuel e)
  callUser (symbol args span) {history machine} (known : Known listed history machine) :
    Sources listed (callUser watching fuel symbol args span) history machine
      fun value events _ => symbol.Returned listed events value
  stmt (s) (among : s.functions ⊆ listed) {history machine} (known : Known listed history machine) :
    Sources listed (stmt watching fuel s) history machine
      fun flow events _ => flow.Sourced s.returned events
  varDecl (decl) : Tracks listed (varDecl watching fuel decl)
  block (body) (among : body.functions ⊆ listed) {history machine}
    (known : Known listed history machine) : Sources listed (block watching fuel body) history machine
      fun flow events _ => flow.Sourced body.returned events
  whileLoop (test body) (among : body.functions ⊆ listed) {history machine}
    (known : Known listed history machine) :
    Sources listed (whileLoop watching fuel test body) history machine
      fun flow events _ => flow.Sourced body.returned events
  forLoop (test increment body) (among : body.functions ⊆ listed) {history machine}
    (known : Known listed history machine) :
    Sources listed (forLoop watching fuel test increment body) history machine
      fun flow events _ => flow.Sourced body.returned events

namespace EvaluatorsSource

variable {fuel : Nat} (ih : EvaluatorsSource listed fuel)
include ih

theorem expr_tracks (e : Expr) : Tracks listed (Recorded.expr watching fuel e) :=
  fun _ _ known => (ih.expr e known).mono fun _ _ _ _ => trivial

theorem valueOf_tracks (e : Expr) : Tracks listed (Recorded.valueOf watching fuel e) :=
  fun _ _ known => (ih.valueOf e known).mono fun _ _ _ _ => trivial

theorem call_sources {place : ExprNote} {name : String} {nameSpan : Span} {args : List Expr}
    {callee : Attribute "function declaration" Callee} (known : Known listed history machine) :
    Sources listed (do
        forEach (Recorded.expr watching fuel) args
        let values ← step watching (Run.popMany args.length place.span)
        match ← step watching (Run.attemptFault callee.get) with
        | .native signature =>
          step watching do Run.push (← Run.callNative signature.name values place.span)
        | .user symbol => do
          let value ← Recorded.callUser watching fuel symbol values place.span
          step watching (Run.push value)) history machine fun _ events after =>
      ∀ value rest, after.operands = value :: rest →
        (Expr.call place name nameSpan args callee).Sourced listed events value := by
  refine (Tracks.forEach ih.expr_tracks args _ _ known).bind fun _ _ _ known _ _ => ?_
  refine (Tracks.quiet (Run.popMany_quiet _ _) _ _ known).bind fun values _ _ known _ _ => ?_
  refine (Sources.attemptFault known).bind fun found _ _ known _ stored => ?_
  have stored : callee.value? = some found := Attribute.get_eq_ok.mp stored
  cases found with
  | native signature =>
    refine .quiet known ((Run.callNative_quiet _ _ _).bind Run.push_quiet)
      fun _ _ _ value rest _ symbol known => ?_
    cases stored.symm.trans known
  | user symbol =>
    refine (ih.callUser symbol values place.span known).bind
      fun value _ _ known _ returned => .quiet known (Run.push_quiet value) ?_
    intro _ after ran result rest operands other same
    cases ran
    cases operands
    cases stored.symm.trans same
    exact returned

theorem binary_tracks (place : ExprNote) (op : BinaryOp) (left right : Expr) :
    Tracks listed (do
      Recorded.expr watching fuel left
      Recorded.expr watching fuel right
      step watching do
        let rightValue ← Run.pop right.span
        let leftValue ← Run.pop left.span
        Run.push (← Run.attempt place.span (op.eval leftValue rightValue))) :=
  (ih.expr_tracks left).bind fun _ => (ih.expr_tracks right).bind fun _ =>
    .quiet ((Run.pop_quiet _).bind fun _ => (Run.pop_quiet _).bind fun _ =>
      Run.pushAttempt_quiet _ _)

theorem assign_sources {place note : ExprNote} {name : String}
    {symbol : Attribute "variable declaration" VariableSymbol} {value : Expr}
    (known : Known listed history machine) :
    Sources listed (do
        Recorded.expr watching fuel value
        refer watching name symbol
        step watching do
          let assigned ← Run.peek value.span
          Run.change place.span (Context.setVariable name assigned)) history machine
      fun _ events after => ∀ result rest, after.operands = result :: rest →
        (Expr.assign place (.variable note name symbol) value).Sourced listed events result := by
  refine (ih.expr value known).bind fun _ middle machine known _ evaluated => ?_
  have looked : Sources listed (refer watching name symbol) middle machine fun _ events after =>
      ∀ result rest, after.operands = result :: rest → .evaluated value result ∈ events :=
    .refer known fun result rest top => List.mem_cons_of_mem _ (evaluated result rest top)
  refine looked.bind fun _ _ machine known _ evaluated => ?_
  have knowing : Run.Knowing listed (do
      let assigned ← Run.peek value.span
      Run.change place.span (Context.setVariable name assigned)) :=
    (Run.Knowing.of_quiet (Run.peek_quiet _)).bind fun _ =>
      .change _ (Context.setVariable_atomic _ _) fun _ _ knows assigned => knows.assignVariable assigned
  refine .knowing known knowing fun _ after ran result rest top => evaluated result rest ?_
  exact (Run.assign_operands ran).symm.trans top

/-- Only the values of assignments and calls come from elsewhere. -/
theorem expr_succ (e : Expr) (known : Known listed history machine) :
    Sources listed (Recorded.expr watching (fuel + 1) e) history machine fun _ events after =>
      ∀ value rest, after.operands = value :: rest → .evaluated e value ∈ events := by
  have pushed (value : Value) : Tracks listed (step watching (Run.push value)) :=
    .quiet (Run.push_quiet value)
  unfold Recorded.expr
  rw [visit_expr]
  refine .evaluating ?_
  cases e with
  | literal _ value => exact (pushed value).sources known fun _ _ => trivial
  | «variable» place name symbol =>
    have tracks : Tracks listed (do
        refer watching name symbol
        step watching do Run.push (← Run.attempt place.span ((← Run.context).getValue name))) :=
      (refer_tracks name symbol).bind fun _ =>
        .quiet (Run.context_quiet.bind fun _ => Run.pushAttempt_quiet _ _)
    exact tracks.sources known fun _ _ => trivial
  | assign place target value =>
    cases target with
    | «variable» note name symbol => exact ih.assign_sources known
    | literal | assign | binary | unary | call =>
      refine .quiet known (Run.fail_quiet _ _) fun _ after done => ?_
      cases done
  | binary place op left right =>
    cases op with
    | and =>
      have tracks : Tracks listed (do
          if ← Recorded.condition watching fuel left then
            let value ← Recorded.condition watching fuel right
            step watching (Run.push (.ofBool value))
          else step watching (Run.push (.ofBool false))) := by
        refine (ih.condition left).bind fun isTrue => ?_
        cases isTrue with
        | true => exact (ih.condition right).bind fun _ => pushed _
        | false => exact pushed _
      exact tracks.sources known fun _ _ => trivial
    | or =>
      have tracks : Tracks listed (do
          if ← Recorded.condition watching fuel left then step watching (Run.push (.ofBool true))
          else
            let value ← Recorded.condition watching fuel right
            step watching (Run.push (.ofBool value))) := by
        refine (ih.condition left).bind fun isTrue => ?_
        cases isTrue with
        | true => exact pushed _
        | false => exact (ih.condition right).bind fun _ => pushed _
      exact tracks.sources known fun _ _ => trivial
    | equal | notEqual | less | lessEqual | greater | greaterEqual | add | sub | mul | div | mod
    | pow =>
      exact (ih.binary_tracks place _ left right).sources known fun _ _ => trivial
  | unary place op operand =>
    have tracks : Tracks listed (do
        let value ← Recorded.valueOf watching fuel operand
        step watching do Run.push (← Run.attempt place.span (op.eval value))) :=
      (ih.valueOf_tracks operand).bind fun _ => .quiet (Run.pushAttempt_quiet _ _)
    exact tracks.sources known fun _ _ => trivial
  | call place name nameSpan args callee => exact ih.call_sources known

theorem callUser_succ (symbol : FunctionSymbol) (args : List Value) (span : Span)
    (known : Known listed history machine) :
    Sources listed (Recorded.callUser watching (fuel + 1) symbol args span) history machine
      fun value events _ => symbol.Returned listed events value := by
  unfold Recorded.callUser
  have noted : Sources listed (note fun machine history =>
      history.add (.called symbol machine.context)) history machine fun _ events after =>
        .called symbol after.context ∈ events :=
    .note ⟨known.sourced, known.knows⟩ (List.suffix_cons _ _) (List.mem_cons_self ..)
  refine noted.bind fun _ _ machine atLookup _ called => .context ?_
  refine (Sources.attempt atLookup).bind fun found _ _ known longer looked => ?_
  obtain ⟨decl, home⟩ := found
  have listed_all : decl.functions ⊆ listed := atLookup.knows.getFunction looked
  rw [FunctionDecl.functions_eq] at listed_all
  obtain ⟨among, member⟩ := List.append_subset.mp listed_all
  refine .inCall known fun calls => .inFrame ⟨known.sourced, known.knows⟩ fun _ _ known same => ?_
  refine (bindParams_tracks decl args span _ _ known).bind fun _ _ _ known added _ => ?_
  refine (ih.block decl.body among known).bind fun flow _ _ known added' sourced => ?_
  cases flow with
  | next | breakLoop | continueLoop => exact .quiet known (Run.fail_quiet _ _) nofun
  | returned value =>
    rw [same] at added
    have called := (longer.trans (added.trans added')).subset called
    refine .pure known ⟨machine.context, decl, home, called, looked, ?_, sourced⟩
    exact member (List.mem_singleton_self decl)

/-- What a statement returns is returned at one of its places. -/
theorem stmt_succ (s : Stmt) (among : s.functions ⊆ listed) (known : Known listed history machine) :
    Sources listed (Recorded.stmt watching (fuel + 1) s) history machine
      fun flow events _ => flow.Sourced s.returned events := by
  unfold Recorded.stmt
  cases s with
  | expr _ e =>
    exact (ih.valueOf_tracks e _ _ known).bind fun _ _ _ known _ _ => .pure known trivial
  | letVar _ decl =>
    exact (ih.varDecl decl _ _ known).bind fun _ _ _ known _ _ => .pure known trivial
  | function _ decl =>
    have changes : Tracks listed
        (step watching (Run.change decl.nameSpan (Context.addFunction decl))) :=
      .knowing (.change _ (Context.addFunction_atomic decl) fun _ _ knows defined =>
        knows.defineFunction among defined)
    have defines : Tracks listed (defineFunction watching decl) := changes.bind fun _ _ _ known =>
      .note ⟨known.sourced, known.knows⟩ List.suffix_rfl trivial
    exact (defines _ _ known).bind fun _ _ _ known _ _ => .pure known trivial
  | block _ body => exact ih.block body among known
  | ifElse _ test thenBranch elseBranch =>
    refine (ih.condition test _ _ known).bind fun isTrue _ _ known _ _ => ?_
    cases elseBranch with
    | none =>
      cases isTrue with
      | true => exact ih.block thenBranch among known
      | false => exact .pure known trivial
    | some body =>
      obtain ⟨atThen, atElse⟩ := List.append_subset.mp among
      cases isTrue with
      | true =>
        exact (ih.block thenBranch atThen known).mono fun _ _ _ sourced =>
          sourced.mono (List.subset_append_left _ _) List.suffix_rfl
      | false =>
        exact (ih.block body atElse known).mono fun _ _ _ sourced =>
          sourced.mono (List.subset_append_right _ _) List.suffix_rfl
  | whileLoop _ test body => exact ih.whileLoop test body among known
  | forLoop _ init test step body =>
    refine .inScope known fun _ _ known => ?_
    cases init with
    | letVar decl =>
      exact (ih.varDecl decl _ _ known).bind fun _ _ _ known _ _ =>
        ih.forLoop test step body among known
    | assign e =>
      exact (ih.valueOf_tracks e _ _ known).bind fun _ _ _ known _ _ =>
        ih.forLoop test step body among known
  | breakLoop | continueLoop => exact .pure known trivial
  | returnValue _ value =>
    cases value with
    | none => exact .pure known ⟨none, List.mem_singleton_self _, rfl⟩
    | some e =>
      exact (ih.valueOf e known).bind fun _ _ _ known _ evaluated =>
        .pure known ⟨some e, List.mem_singleton_self _, evaluated⟩

theorem sequence_sources (last : Value) (statements : List Stmt)
    (among : Stmt.allFunctions statements ⊆ listed) :
    ∀ {history machine}, Known listed history machine →
      Sources listed (sequence (Recorded.stmt watching fuel) last statements) history machine
        fun flow events _ => flow.Sourced (Stmt.allReturned statements) events := by
  induction statements generalizing last with
  | nil => exact fun known => .pure known trivial
  | cons s rest next =>
    intro history machine known
    obtain ⟨atHead, atRest⟩ := List.append_subset.mp among
    refine (ih.stmt s atHead known).bind fun flow _ _ known _ sourced => ?_
    cases flow with
    | next value =>
      exact (next value atRest known).mono fun _ _ _ sourced =>
        sourced.mono (List.subset_append_right _ _) List.suffix_rfl
    | returned value =>
      exact .pure known (sourced.mono (List.subset_append_left _ _) List.suffix_rfl)
    | breakLoop | continueLoop => exact .pure known trivial

theorem topLevel_tracks (last : Value) (statements : List Stmt)
    (among : Stmt.allFunctions statements ⊆ listed) :
    Tracks listed (topLevel watching (Recorded.stmt watching fuel) last statements) := by
  induction statements generalizing last with
  | nil => exact fun _ _ known => .pure known trivial
  | cons s rest next =>
    intro history machine known
    obtain ⟨atHead, atRest⟩ := List.append_subset.mp among
    refine (ih.stmt s atHead known).bind fun flow _ _ known _ _ => ?_
    cases flow with
    | next value => exact next value atRest _ _ known
    | returned | breakLoop | continueLoop => exact Tracks.quiet (Run.fail_quiet _ _) _ _ known

theorem valueOf_succ (e : Expr) (known : Known listed history machine) :
    Sources listed (Recorded.valueOf watching (fuel + 1) e) history machine
      fun value events _ => .evaluated e value ∈ events := by
  unfold Recorded.valueOf
  refine (ih.expr e known).bind fun _ _ machine known _ evaluated => ?_
  refine .quiet known (Run.pop_quiet _) fun value _ ran => ?_
  unfold Run.pop at ran
  cases operands : machine.operands with
  | nil =>
    rw [operands] at ran
    cases ran
  | cons top rest =>
    rw [operands] at ran
    cases ran
    exact evaluated _ _ operands

theorem condition_succ (e : Expr) : Tracks listed (Recorded.condition watching (fuel + 1) e) := by
  unfold Recorded.condition
  exact (ih.expr_tracks e).bind fun _ =>
    .quiet ((Run.pop_quiet _).bind fun _ => Run.truth_quiet _ _)

theorem varDecl_succ (decl : VarDecl) : Tracks listed (Recorded.varDecl watching (fuel + 1) decl) := by
  unfold Recorded.varDecl
  exact (ih.valueOf_tracks decl.init).bind fun _ =>
    (bindVariable_tracks _ _ _ _).bind fun _ _ _ known => .pure known trivial

theorem block_succ (body : Block) (among : body.functions ⊆ listed)
    (known : Known listed history machine) :
    Sources listed (Recorded.block watching (fuel + 1) body) history machine
      fun flow events _ => flow.Sourced body.returned events := by
  unfold Recorded.block
  cases body with
  | mk span statements =>
    exact .inScope known fun _ _ known => ih.sequence_sources .void statements among known

theorem whileLoop_succ (test : Expr) (body : Block) (among : body.functions ⊆ listed)
    (known : Known listed history machine) :
    Sources listed (Recorded.whileLoop watching (fuel + 1) test body) history machine
      fun flow events _ => flow.Sourced body.returned events := by
  unfold Recorded.whileLoop
  refine (ih.condition test _ _ known).bind fun isTrue _ _ known _ _ => ?_
  cases isTrue with
  | false => exact .pure known trivial
  | true =>
    refine (ih.block body among known).bind fun flow _ _ known _ sourced => ?_
    cases flow with
    | breakLoop => exact .pure known trivial
    | returned value => exact .pure known sourced
    | next | continueLoop => exact ih.whileLoop test body among known

theorem forLoop_succ (test step : Expr) (body : Block) (among : body.functions ⊆ listed)
    (known : Known listed history machine) :
    Sources listed (Recorded.forLoop watching (fuel + 1) test step body) history machine
      fun flow events _ => flow.Sourced body.returned events := by
  unfold Recorded.forLoop
  refine (ih.condition test _ _ known).bind fun isTrue _ _ known _ _ => ?_
  cases isTrue with
  | false => exact .pure known trivial
  | true =>
    refine (ih.block body among known).bind fun flow _ _ known _ sourced => ?_
    cases flow with
    | breakLoop => exact .pure known trivial
    | returned value => exact .pure known sourced
    | next | continueLoop =>
      exact (ih.valueOf_tracks step _ _ known).bind fun _ _ _ known _ _ =>
        ih.forLoop test step body among known

end EvaluatorsSource

theorem evaluatorsSource (listed : List FunctionDecl) (fuel : Nat) :
    EvaluatorsSource listed fuel := by
  induction fuel with
  | zero =>
    have out {α : Type} {history : History} {machine : Machine}
        {gives : α → List Event → Machine → Prop} (known : Known listed history machine) :
        Sources listed (step watching Run.outOfFuel) history machine gives := known.sourced
    exact {
      expr := fun _ _ _ known => out known
      valueOf := fun _ _ _ known => out known
      condition := fun _ _ _ known => out known
      callUser := fun _ _ _ _ _ known => out known
      stmt := fun _ _ _ _ known => out known
      varDecl := fun _ _ _ known => out known
      block := fun _ _ _ _ known => out known
      whileLoop := fun _ _ _ _ _ known => out known
      forLoop := fun _ _ _ _ _ _ known => out known }
  | succ fuel ih =>
    exact {
      expr := fun e => ih.expr_succ e
      valueOf := fun e => ih.valueOf_succ e
      condition := ih.condition_succ
      callUser := fun symbol args span => ih.callUser_succ symbol args span
      stmt := fun s among => ih.stmt_succ s among
      varDecl := ih.varDecl_succ
      block := fun body among => ih.block_succ body among
      whileLoop := fun test body among => ih.whileLoop_succ test body among
      forLoop := fun test step body among => ih.forLoop_succ test step body among }

/-- The events of a run of a program are sourced by the functions of the program. -/
theorem program_tracks (fuel : Nat) (p : Program) : Tracks p.functions (program watching fuel p) := by
  have evaluators := evaluatorsSource p.functions fuel
  refine (evaluators.topLevel_tracks .void p.statements (List.Subset.refl _)).bind fun last => ?_
  refine .quiet ((Run.push_quiet last).bind fun _ machine => ?_)
  split
  · exact Run.pop_quiet _ machine
  · exact ⟨rfl, rfl⟩

end Watched

theorem Machine.watch_sourced (fuel : Nat) (p : Program) (machine : Machine) :
    Sourced p.functions (machine.watch fuel p).2.events := by
  unfold Machine.watch Machine.record
  split
  · trivial
  · have adds := Watched.program_tracks fuel p {} { machine with context := Context.initial }
      ⟨trivial, Context.Knows.initial⟩
    unfold Watched.Sources at adds
    generalize Recorded.program watching fuel p _ _ = result at adds ⊢
    rcases result with ⟨value | e | f | _, history⟩
    · exact adds.1.sourced
    · exact adds
    · exact adds
    · exact adds

end Lu
