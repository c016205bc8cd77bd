import Lu.Proofs.Scoping.Recorded
import Lu.Proofs.Scoping.Statements

namespace Lu

/-!
The resolution of names as one walk over the program, with one queue for all of its blocks. A
function is declared where the walk meets it, and its body waits in the queue. The queue is flushed,
in the scopes that there are then, before the next statement of another kind and at the end of each
list of statements. The walk ends with the tree that is resolved list by list, and it leaves nothing
in the queue when it leaves a block.
-/

/-- The functions whose bodies wait: each with its header done, and as it is at the end. -/
abbrev Parked := Deferred (FunctionDecl × FunctionDecl)

/-- The variables are the symbols that the parameters of a function carry. -/
def FunctionDecl.Carries (decl : FunctionDecl) (bindings : List VariableSymbol) : Prop :=
  List.Forall₂ (fun param binding => param.symbol.value? = some binding) decl.params bindings

mutual

/-- A visit to a statement that is no function, with the scopes and the queue before and after. -/
inductive Stmt.Visits : Scopes → Parked → Stmt → Stmt → Scopes → Parked → Prop
  | expr {scopes queue span e e'} : e.resolveNames scopes = .ok e' →
      Stmt.Visits scopes queue (.expr span e) (.expr span e') scopes queue
  | letVar {scopes after queue span decl decl'} :
      decl.resolveNames scopes .localVar = .ok (decl', after) →
      Stmt.Visits scopes queue (.letVar span decl) (.letVar span decl') after queue
  | block {scopes queue queue' span body body'} : Block.Visits scopes queue body body' queue' →
      Stmt.Visits scopes queue (.block span body) (.block span body') scopes queue'
  | ifThen {scopes queue queue' span condition condition' thenBranch thenBranch'} :
      condition.resolveNames scopes = .ok condition' →
      Block.Visits scopes queue thenBranch thenBranch' queue' →
      Stmt.Visits scopes queue (.ifElse span condition thenBranch none)
        (.ifElse span condition' thenBranch' none) scopes queue'
  | ifElse {scopes queue between queue' span condition condition' thenBranch thenBranch'
        elseBranch elseBranch'} :
      condition.resolveNames scopes = .ok condition' →
      Block.Visits scopes queue thenBranch thenBranch' between →
      Block.Visits scopes between elseBranch elseBranch' queue' →
      Stmt.Visits scopes queue (.ifElse span condition thenBranch (some elseBranch))
        (.ifElse span condition' thenBranch' (some elseBranch')) scopes queue'
  | whileLoop {scopes queue queue' span condition condition' body body'} :
      condition.resolveNames scopes = .ok condition' →
      Block.Visits scopes queue body body' queue' →
      Stmt.Visits scopes queue (.whileLoop span condition body) (.whileLoop span condition' body')
        scopes queue'
  | forLoop {scopes inner queue queue' span init init' condition condition' step step' body body'} :
      init.resolveNames scopes.push = .ok (init', inner) →
      condition.resolveNames inner = .ok condition' → step.resolveNames inner = .ok step' →
      Block.Visits inner queue body body' queue' →
      Stmt.Visits scopes queue (.forLoop span init condition step body)
        (.forLoop span init' condition' step' body') scopes queue'
  | breakLoop {scopes queue span} :
      Stmt.Visits scopes queue (.breakLoop span) (.breakLoop span) scopes queue
  | continueLoop {scopes queue span} :
      Stmt.Visits scopes queue (.continueLoop span) (.continueLoop span) scopes queue
  | returnNothing {scopes queue span} :
      Stmt.Visits scopes queue (.returnValue span none) (.returnValue span none) scopes queue
  | returnValue {scopes queue span value value'} : value.resolveNames scopes = .ok value' →
      Stmt.Visits scopes queue (.returnValue span (some value)) (.returnValue span (some value'))
        scopes queue

/-- A visit to a list of statements, with the queue before and after. -/
inductive Stmt.VisitsAll : Scopes → Parked → List Stmt → List Stmt → Parked → Prop
  | done {scopes} {queue queue' : Parked} : Flushes scopes queue.take.2 queue.take.1 queue' →
      Stmt.VisitsAll scopes queue [] [] queue'
  | park {scopes bound queue queue' span decl decl' header function rest rest'} :
      decl.resolveHeader scopes = .ok (header, function) →
      scopes.declareFunction function = .ok bound →
      Stmt.VisitsAll bound (queue.enqueue (header, decl')) rest rest' queue' →
      Stmt.VisitsAll scopes queue (.function span decl :: rest) (.function span decl' :: rest')
        queue'
  | next {scopes after} {queue between later queue' : Parked} {s s' rest rest'} :
      s.isFunction = false → Flushes scopes queue.take.2 queue.take.1 between →
      Stmt.Visits scopes between s s' after later → Stmt.VisitsAll after later rest rest' queue' →
      Stmt.VisitsAll scopes queue (s :: rest) (s' :: rest') queue'

/-- Visits to the bodies of functions that have waited, in turn; the parameters are declared as
the header left them. -/
inductive Flushes : Scopes → Parked → List (FunctionDecl × FunctionDecl) → Parked → Prop
  | none {scopes queue} : Flushes scopes queue [] queue
  | next {scopes inner queue between queue' header body' bindings rest} :
      FunctionDecl.Carries header bindings →
      declareVariables scopes.push bindings = .ok inner →
      Block.Visits inner queue header.body body' between → Flushes scopes between rest queue' →
      Flushes scopes queue ((header, { header with body := body' }) :: rest) queue'

inductive Block.Visits : Scopes → Parked → Block → Block → Parked → Prop
  | mk {scopes queue queue' span statements statements'} :
      Stmt.VisitsAll scopes.push queue statements statements' queue' →
      Block.Visits scopes queue ⟨span, statements⟩ ⟨span, statements'⟩ queue'

end

/-- A visit to a whole program, from an empty queue. -/
def Program.Visits (natives : List NativeSignature) (program visited : Program) : Prop :=
  ∃ statements queue, visited = { program with statements } ∧
    Stmt.VisitsAll (.ofNatives natives) {} program.statements statements queue

mutual

/-- When a list of statements is left, nothing waits, whatever waited before. -/
theorem Stmt.VisitsAll.leaves_nothing : ∀ {scopes : Scopes} {queue queue' : Parked}
    {statements statements' : List Stmt},
    Stmt.VisitsAll scopes queue statements statements' queue' → queue' = {}
  | _, _, _, _, _, .done flushed => flushed.leaves_nothing rfl
  | _, _, _, _, _, .park _ _ later => later.leaves_nothing
  | _, _, _, _, _, .next _ _ _ later => later.leaves_nothing

theorem Flushes.leaves_nothing : ∀ {scopes : Scopes} {queue queue' : Parked}
    {items : List (FunctionDecl × FunctionDecl)},
    Flushes scopes queue items queue' → queue = {} → queue' = {}
  | _, _, _, _, .none, empty => empty
  | _, _, _, _, .next _ _ visited later, _ => later.leaves_nothing visited.leaves_nothing

theorem Block.Visits.leaves_nothing : ∀ {scopes : Scopes} {queue queue' : Parked}
    {body body' : Block}, Block.Visits scopes queue body body' queue' → queue' = {}
  | _, _, _, _, _, .mk visited => visited.leaves_nothing

end

theorem Stmt.Visits.leaves_nothing {scopes after : Scopes} {queue' : Parked} {s s' : Stmt}
    (visits : Stmt.Visits scopes {} s s' after queue') : queue' = {} := by
  cases visits with
  | expr | letVar | breakLoop | continueLoop | returnNothing | returnValue => rfl
  | block visited | ifThen _ visited | whileLoop _ visited | forLoop _ _ _ visited
  | ifElse _ _ visited => exact visited.leaves_nothing

/-- The body of a function whose header is done is resolved, and the function is as given then. -/
def FunctionDecl.BodyResolves (scopes : Scopes) (header decl' : FunctionDecl) : Prop :=
  ∃ bindings inner body', header.Carries bindings ∧
    declareVariables scopes.push bindings = .ok inner ∧
    header.body.resolveNames inner = .ok body' ∧ decl' = { header with body := body' }

/-- A header that is done carries the parameters of its symbol, and no others. -/
theorem FunctionDecl.carries_iff {scopes : Scopes} {decl header : FunctionDecl}
    {function : FunctionSymbol} (atHeader : decl.resolveHeader scopes = .ok (header, function))
    {bindings : List VariableSymbol} : header.Carries bindings ↔ function.params = bindings := by
  obtain ⟨-, -, -, params, resolved⟩ := FunctionDecl.resolveHeader_resolved atHeader
  rw [params, Carries]
  generalize header.params = announced at resolved
  induction announced generalizing bindings with
  | nil => simp [eq_comm]
  | cons param rest ih =>
    obtain ⟨first, resolved⟩ := List.forall_mem_cons.mp resolved
    cases bindings with
    | nil => simp
    | cons binding bindings => simp [first.carried, ih resolved]

/-- A function is resolved where its body is, after its header was done. -/
theorem FunctionDecl.BodyResolves.resolves {scopes inner : Scopes}
    {decl header decl' : FunctionDecl} {function : FunctionSymbol}
    (atHeader : decl.resolveHeader scopes = .ok (header, function))
    (types : ∀ typeName, inner.findType typeName = scopes.findType typeName)
    (body : FunctionDecl.BodyResolves inner header decl') :
    decl.resolveNames inner = .ok decl' := by
  obtain ⟨bindings, within, body', carries, declares, atBody, rfl⟩ := body
  cases (FunctionDecl.carries_iff atHeader).mp carries
  obtain ⟨shape, -⟩ := FunctionDecl.resolveHeader_resolved atHeader
  rw [shape] at atBody
  rw [← decl.resolveHeader_congr types] at atHeader
  cases decl
  exact bind_eq_ok.mpr ⟨_, atHeader, bind_eq_ok.mpr ⟨within, declares,
    bind_eq_ok.mpr ⟨body', atBody, rfl⟩⟩⟩

mutual

theorem Stmt.Visits.resolves : ∀ {scopes after : Scopes} {queue queue' : Parked} {s s' : Stmt},
    Stmt.Visits scopes queue s s' after queue' → queue = {} →
    s.resolveNames scopes = .ok (s', after)
  | _, _, _, _, _, _, .expr atExpr, _ => bind_eq_ok.mpr ⟨_, atExpr, rfl⟩
  | _, _, _, _, _, _, .letVar atDecl, _ => bind_eq_ok.mpr ⟨_, atDecl, rfl⟩
  | _, _, _, _, _, _, .block visited, empty => bind_eq_ok.mpr ⟨_, visited.resolves empty, rfl⟩
  | _, _, _, _, _, _, .ifThen atCondition visited, empty =>
    bind_eq_ok.mpr ⟨_, atCondition, bind_eq_ok.mpr ⟨_, visited.resolves empty, rfl⟩⟩
  | _, _, _, _, _, _, .ifElse atCondition visited other, empty =>
    bind_eq_ok.mpr ⟨_, atCondition, bind_eq_ok.mpr ⟨_, visited.resolves empty,
      bind_eq_ok.mpr ⟨_, other.resolves visited.leaves_nothing, rfl⟩⟩⟩
  | _, _, _, _, _, _, .whileLoop atCondition visited, empty =>
    bind_eq_ok.mpr ⟨_, atCondition, bind_eq_ok.mpr ⟨_, visited.resolves empty, rfl⟩⟩
  | _, _, _, _, _, _, .forLoop atInit atCondition atStep visited, empty =>
    bind_eq_ok.mpr ⟨_, atInit, bind_eq_ok.mpr ⟨_, atCondition, bind_eq_ok.mpr ⟨_, atStep,
      bind_eq_ok.mpr ⟨_, visited.resolves empty, rfl⟩⟩⟩⟩
  | _, _, _, _, _, _, .breakLoop, _ | _, _, _, _, _, _, .continueLoop, _
  | _, _, _, _, _, _, .returnNothing, _ => rfl
  | _, _, _, _, _, _, .returnValue atValue, _ => bind_eq_ok.mpr ⟨_, atValue, rfl⟩

/-- What waits before a list is resolved in the scopes that hold the run that the list goes on. -/
theorem Stmt.VisitsAll.resolves : ∀ {scopes : Scopes} {queue queue' : Parked}
    {statements statements' : List Stmt},
    Stmt.VisitsAll scopes queue statements statements' queue' →
    ∃ inner, declareFunctions scopes (leadingFunctions statements) = .ok inner ∧
      (∀ item ∈ queue.toList, FunctionDecl.BodyResolves inner item.1 item.2) ∧
      Stmt.resolveAll inner true statements = .ok statements'
  | scopes, _, _, _, _, .done flushed => ⟨scopes, rfl, flushed.resolves rfl, rfl⟩
  | scopes, queue, _, .function span decl :: rest, _, .park atHeader declares later => by
    obtain ⟨inner, declared, waiting, atRest⟩ := later.resolves
    have run :
        declareFunctions scopes (leadingFunctions (.function span decl :: rest)) = .ok inner :=
      bind_eq_ok.mpr ⟨_, atHeader, bind_eq_ok.mpr ⟨_, declares, declared⟩⟩
    rw [Deferred.toList_enqueue, List.forall_mem_append, List.forall_mem_singleton] at waiting
    have atDecl := waiting.2.resolves atHeader (declareFunctions_types run)
    exact ⟨inner, run, waiting.1, Stmt.resolveAll_next_function atDecl atRest⟩
  | scopes, _, _, s :: rest, _, .next plain flushed visited later => by
    have nothing := flushed.leaves_nothing rfl
    obtain ⟨inner, declared, -, atRest⟩ := later.resolves
    have atRest := (Stmt.resolveAll_enter _ _).trans (bind_eq_ok.mpr ⟨inner, declared, atRest⟩)
    refine ⟨scopes, ?_, flushed.resolves rfl,
      Stmt.resolveAll_next_plain true plain (visited.resolves nothing) atRest⟩
    rw [leadingFunctions_eq_nil rest plain]
    rfl

theorem Flushes.resolves : ∀ {scopes : Scopes} {queue queue' : Parked}
    {items : List (FunctionDecl × FunctionDecl)},
    Flushes scopes queue items queue' → queue = {} →
    ∀ item ∈ items, FunctionDecl.BodyResolves scopes item.1 item.2
  | _, _, _, _, .none, _ => by simp
  | _, _, _, _, .next carries declares visited later, empty =>
    List.forall_mem_cons.mpr
      ⟨⟨_, _, _, carries, declares, visited.resolves empty, rfl⟩,
        later.resolves visited.leaves_nothing⟩

theorem Block.Visits.resolves : ∀ {scopes : Scopes} {queue queue' : Parked} {body body' : Block},
    Block.Visits scopes queue body body' queue' → queue = {} →
    body.resolveNames scopes = .ok body'
  | _, _, _, _, _, .mk visited, empty => by
    obtain ⟨inner, declared, -, atStatements⟩ := visited.resolves
    have atStatements :=
      (Stmt.resolveAll_enter _ _).trans (bind_eq_ok.mpr ⟨inner, declared, atStatements⟩)
    exact bind_eq_ok.mpr ⟨_, atStatements, rfl⟩

end

theorem Flushes.append {scopes : Scopes} {queue between queue' : Parked}
    {items more : List (FunctionDecl × FunctionDecl)} (first : Flushes scopes queue items between)
    (second : Flushes scopes between more queue') :
    Flushes scopes queue (items ++ more) queue' := by
  induction items generalizing queue with
  | nil =>
    cases first
    exact second
  | cons item rest ih =>
    cases first with
    | next carries declares visited later => exact .next carries declares visited (ih later)

mutual

theorem Stmt.resolveNames_visits :
    ∀ (s : Stmt) {scopes after : Scopes} {s' : Stmt}, s.isFunction = false →
      s.resolveNames scopes = .ok (s', after) → Stmt.Visits scopes {} s s' after {}
  | .expr span e, _, _, _, _, run => by
    obtain ⟨e', atExpr, run⟩ := bind_eq_ok.mp run
    cases run
    exact .expr atExpr
  | .letVar span decl, _, _, _, _, run => by
    obtain ⟨⟨decl', bound⟩, atDecl, run⟩ := bind_eq_ok.mp run
    cases run
    exact .letVar atDecl
  | .function span decl, _, _, _, plain, _ => nomatch plain
  | .block span body, _, _, _, _, run => by
    obtain ⟨body', atBody, run⟩ := bind_eq_ok.mp run
    cases run
    exact .block (body.resolveNames_visits atBody)
  | .ifElse span condition thenBranch none, _, _, _, _, run => by
    obtain ⟨condition', atCondition, run⟩ := bind_eq_ok.mp run
    obtain ⟨thenBranch', atThen, run⟩ := bind_eq_ok.mp run
    cases run
    exact .ifThen atCondition (thenBranch.resolveNames_visits atThen)
  | .ifElse span condition thenBranch (some elseBranch), _, _, _, _, run => by
    obtain ⟨condition', atCondition, run⟩ := bind_eq_ok.mp run
    obtain ⟨thenBranch', atThen, run⟩ := bind_eq_ok.mp run
    obtain ⟨elseBranch', atElse, run⟩ := bind_eq_ok.mp run
    cases run
    exact .ifElse atCondition (thenBranch.resolveNames_visits atThen)
      (elseBranch.resolveNames_visits atElse)
  | .whileLoop span condition body, _, _, _, _, run => by
    obtain ⟨condition', atCondition, run⟩ := bind_eq_ok.mp run
    obtain ⟨body', atBody, run⟩ := bind_eq_ok.mp run
    cases run
    exact .whileLoop atCondition (body.resolveNames_visits atBody)
  | .forLoop span init condition step body, _, _, _, _, run => by
    obtain ⟨⟨init', inner⟩, atInit, run⟩ := bind_eq_ok.mp run
    obtain ⟨condition', atCondition, run⟩ := bind_eq_ok.mp run
    obtain ⟨step', atStep, run⟩ := bind_eq_ok.mp run
    obtain ⟨body', atBody, run⟩ := bind_eq_ok.mp run
    cases run
    exact .forLoop atInit atCondition atStep (body.resolveNames_visits atBody)
  | .breakLoop _, _, _, _, _, run => by
    cases run
    exact .breakLoop
  | .continueLoop _, _, _, _, _, run => by
    cases run
    exact .continueLoop
  | .returnValue _ none, _, _, _, _, run => by
    cases run
    exact .returnNothing
  | .returnValue span (some value), _, _, _, _, run => by
    obtain ⟨value', atValue, run⟩ := bind_eq_ok.mp run
    cases run
    exact .returnValue atValue

/-- What waits before a list can be visited once the run that the list goes on is declared. -/
theorem Stmt.resolveAll_visits :
    ∀ (statements : List Stmt) {scopes inner : Scopes} {queue : Parked} {statements' : List Stmt},
      declareFunctions scopes (leadingFunctions statements) = .ok inner →
      Flushes inner {} queue.toList {} → Stmt.resolveAll inner true statements = .ok statements' →
      Stmt.VisitsAll scopes queue statements statements' {}
  | [], _, _, _, _, declared, flushed, run => by
    cases run
    cases declared
    exact .done flushed
  | s :: rest, scopes, inner, queue, _, declared, flushed, run => by
    cases kind : s.isFunction with
    | true =>
      obtain ⟨span, decl, rfl⟩ : ∃ span decl, s = .function span decl := by
        cases s <;> first | exact ⟨_, _, rfl⟩ | cases kind
      have types := declareFunctions_types declared
      obtain ⟨⟨header, function⟩, atHeader, declares⟩ := bind_eq_ok.mp declared
      obtain ⟨bound, declares, later⟩ := bind_eq_ok.mp declares
      obtain ⟨_, decl', rest', stay, -, atDecl, atRest, rfl⟩ := Stmt.resolveAll_function run
      cases stay rfl
      have body :=
        decl.resolveNames_flushes atDecl ((decl.resolveHeader_congr types).trans atHeader)
      refine .park atHeader declares (Stmt.resolveAll_visits rest later ?_ atRest)
      rw [Deferred.toList_enqueue]
      exact flushed.append body
    | false =>
      rw [leadingFunctions_eq_nil rest kind] at declared
      cases declared
      obtain ⟨s', after, rest', atHead, atRest, rfl⟩ := Stmt.resolveAll_plain kind run
      rw [Stmt.resolveAll_enter] at atRest
      obtain ⟨inner, declared, atRest⟩ := bind_eq_ok.mp atRest
      exact .next kind flushed (s.resolveNames_visits kind atHead)
        (Stmt.resolveAll_visits rest declared .none atRest)

theorem Block.resolveNames_visits :
    ∀ (body : Block) {scopes : Scopes} {body' : Block}, body.resolveNames scopes = .ok body' →
      Block.Visits scopes {} body body' {}
  | ⟨span, statements⟩, _, _, run => by
    obtain ⟨statements', atStatements, run⟩ := bind_eq_ok.mp run
    cases run
    rw [Stmt.resolveAll_enter] at atStatements
    obtain ⟨inner, declared, atStatements⟩ := bind_eq_ok.mp atStatements
    exact .mk (Stmt.resolveAll_visits statements declared .none atStatements)

theorem FunctionDecl.resolveNames_flushes :
    ∀ (decl : FunctionDecl) {scopes : Scopes} {decl' header : FunctionDecl}
      {function : FunctionSymbol}, decl.resolveNames scopes = .ok decl' →
      decl.resolveHeader scopes = .ok (header, function) →
      Flushes scopes {} [(header, decl')] {}
  | ⟨id, name, nameSpan, params, resultName, body, span, symbol⟩, _, _, _, _, run, atHeader => by
    obtain ⟨⟨header, function⟩, sameHeader, run⟩ := bind_eq_ok.mp run
    cases atHeader.symm.trans sameHeader
    obtain ⟨inner, declares, run⟩ := bind_eq_ok.mp run
    obtain ⟨body', atBody, run⟩ := bind_eq_ok.mp run
    cases run
    obtain ⟨shape, -⟩ := FunctionDecl.resolveHeader_resolved atHeader
    have visited := body.resolveNames_visits atBody
    refine .next ((FunctionDecl.carries_iff atHeader).mpr rfl) declares ?_ .none
    rw [shape]
    exact visited

end

/-- The walk with its queue succeeds just if the resolution list by list does, with the same
tree. -/
theorem Program.visits_iff {natives : List NativeSignature} {program visited : Program} :
    program.Visits natives visited ↔ program.resolveNames natives = .ok visited := by
  constructor
  · rintro ⟨statements, queue, rfl, visits⟩
    obtain ⟨inner, declared, -, atStatements⟩ := visits.resolves
    have atStatements :=
      (Stmt.resolveAll_enter _ _).trans (bind_eq_ok.mpr ⟨inner, declared, atStatements⟩)
    exact Program.resolveNames_eq_ok.mpr ⟨statements, atStatements, rfl⟩
  · intro run
    obtain ⟨statements, atStatements, rfl⟩ := Program.resolveNames_eq_ok.mp run
    rw [Stmt.resolveAll_enter] at atStatements
    obtain ⟨inner, declared, atStatements⟩ := bind_eq_ok.mp atStatements
    exact ⟨statements, {}, rfl, Stmt.resolveAll_visits _ declared .none atStatements⟩

end Lu
