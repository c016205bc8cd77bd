import Lu.Proofs.Run.Realizing
import Lu.Proofs.Run.Stacks

namespace Lu

/-!
What it means that the scopes of a run mirror those of the resolution of names, and a judgement on traced
pieces of a run that says so of every expression they evaluate.
-/

/-- As many scopes are visible as there are tables but for that of the built-in functions. Counted
outwards, which is the order in which names are searched in them (`Context.findScope_eq`), each has at
least what the table declares. -/
structure Context.Mirrors (context : Context) (scopes : Scopes) : Prop where
  depth : context.visibleScopes.length + 1 = scopes.depth
  covers : ∀ (k index : Nat) (table : SymbolTable), context.visibleScopes[k]? = some index →
    scopes.tables[k]? = some table → ∃ scope, context.scopes[index]? = some scope ∧ scope.Covers table

theorem Context.Shows.length {context : Context} {tables : List SymbolTable} {chain : List Nat}
    (shows : context.Shows tables chain) : chain.length + 1 = tables.length := by
  induction shows with
  | builtIn => rfl
  | scope _ _ _ ih => rw [List.length_cons, List.length_cons, ih]

theorem Context.Shows.covers {context : Context} {tables : List SymbolTable} {chain : List Nat}
    (shows : context.Shows tables chain) {k index : Nat} {table : SymbolTable}
    (atIndex : chain[k]? = some index) (atTable : tables[k]? = some table) :
    ∃ scope, context.scopes[index]? = some scope ∧ scope.Covers table := by
  induction shows generalizing k with
  | builtIn => simp at atIndex
  | scope known covers _ ih =>
    cases k with
    | zero =>
      cases atIndex
      cases atTable
      exact ⟨_, known, covers⟩
    | succ k => exact ih atIndex atTable

theorem Context.Realizes.mirrors {context : Context} {listed : List (Scopes × Expr)} {scopes : Scopes}
    (realizes : context.Realizes listed scopes) : context.Mirrors scopes :=
  ⟨realizes.shows.length, fun _ _ _ => realizes.shows.covers⟩

/-- At the start of a program its own scope is visible, and declares nothing. -/
theorem Context.initial_realizes (listed : List (Scopes × Expr)) (natives : List NativeSignature) :
    Context.initial.Realizes listed (.ofNatives natives) := by
  refine ⟨initial_framed, ?_, ?_⟩
  · have atTop : initial.scopes[0]? = some ({} : Scope) := rfl
    exact .scope atTop (Scope.covers_empty _) (.builtIn _)
  · intro index scope id decl atIndex held
    cases index with
    | zero =>
      cases atIndex
      cases held
    | succ index => simp [initial] at atIndex

/-- An expression that is about to be evaluated is one that was visited, where the scopes were those that
the run mirrors now. -/
def Visit.Mirrored (listed : List (Scopes × Expr)) (visit : Visit) : Prop :=
  ∀ e, visit.task = .expr e → ∃ scopes, (scopes, e.blank) ∈ listed ∧
    (∃ e', e.blank.resolveNames scopes = .ok e') ∧ visit.machine.context.Mirrors scopes

namespace Traced

/-- What holds of the active calls and of the machine at a point of a run. -/
abbrev Assertion := List CallFrame → Machine → Prop

/-- All expressions were come to in scopes that mirror those in which they were visited, and if the piece
has ended well, the assertion holds. -/
def Ends {α : Type} (listed : List (Scopes × Expr)) (after : Assertion) (result : Outcome α × Trail) :
    Prop :=
  (∀ visit ∈ result.2.visits, visit.Mirrored listed) ∧
    ∀ value left, result.1 = .done value left → after result.2.active left

/-- Where the first assertion holds, the piece evaluates expressions only in scopes that mirror those in
which they were visited, and where it ends well, the second one holds. -/
def Meets {α : Type} (listed : List (Scopes × Expr)) (before : Assertion) (traced : Traced α)
    (after : Assertion) : Prop :=
  ∀ trail machine, before trail.active machine → (∀ visit ∈ trail.visits, visit.Mirrored listed) →
    Ends listed after (traced trail machine)

/-- What was resolved in the scopes can run. -/
def At (limit : Nat) (listed : List (Scopes × Expr)) (scopes : Scopes) : Assertion :=
  fun active machine => machine.Steady limit active ∧ machine.context.Realizes listed scopes

/-- What was resolved in the scopes can run once the functions are defined, if they can be. -/
def Awaiting (limit : Nat) (listed : List (Scopes × Expr)) (scopes : Scopes)
    (decls : List FunctionDecl) : Assertion :=
  fun active machine => machine.Steady limit active ∧
    ∀ context, decls.foldlM Context.defineFunction machine.context = .ok context →
      context.Realizes listed scopes

def Anywhere : Assertion := fun _ _ => True

variable {α β : Type} {limit : Nat} {listed : List (Scopes × Expr)} {scopes bound : Scopes}
  {before between after weaker : Assertion}

section Rules

theorem Meets.pure (value : α) : Meets listed before (pure value) before := by
  intro trail machine holds visits
  refine ⟨visits, ?_⟩
  rintro _ _ ⟨⟩
  exact holds

theorem Meets.bind {first : Traced α} {next : α → Traced β} (atFirst : Meets listed before first between)
    (atNext : ∀ value, Meets listed between (next value) after) :
    Meets listed before (first >>= next) after := by
  intro trail machine holds visits
  obtain ⟨early, ended⟩ := atFirst trail machine holds visits
  change Ends listed after (Recorded.bind first next trail machine)
  unfold Recorded.bind
  generalize first trail machine = result at early ended ⊢
  obtain ⟨outcome, middle⟩ := result
  cases outcome with
  | done value left => exact atNext value middle left (ended value left rfl) early
  | failed | faulted | outOfFuel => exact ⟨early, nofun⟩

theorem Meets.mono {traced : Traced α} (meets : Meets listed before traced between)
    (strong : ∀ active machine, after active machine → before active machine)
    (weak : ∀ active machine, between active machine → weaker active machine) :
    Meets listed after traced weaker := by
  intro trail machine holds visits
  obtain ⟨visited, ended⟩ := meets trail machine (strong _ machine holds) visits
  exact ⟨visited, fun value left done => weak _ left (ended value left done)⟩

theorem Meets.anywhere {traced : Traced α} (meets : Meets listed before traced after) :
    Meets listed before traced Anywhere :=
  meets.mono (fun _ _ => id) fun _ _ _ => trivial

/-- A step evaluates nothing. -/
theorem Meets.step {piece : Run α}
    (leaves : ∀ active machine value left, before active machine → piece machine = .done value left →
      after active left) : Meets listed before (Recorded.step tracing piece) after := by
  intro trail machine holds visits
  unfold Recorded.step
  cases ran : piece machine with
  | done value left =>
    refine ⟨visits, ?_⟩
    rintro _ _ ⟨⟩
    exact leaves trail.active machine value left holds ran
  | failed => exact ⟨List.forall_mem_cons.mpr ⟨nofun, visits⟩, nofun⟩
  | faulted | outOfFuel => exact ⟨visits, nofun⟩

theorem Meets.visit {traced : Traced α} {task : Task} (meets : Meets listed before traced after)
    (other : ∀ e, task ≠ .expr e) : Meets listed before (Recorded.visit tracing task traced) after := by
  intro trail machine holds visits
  refine meets (trail.visit task machine) machine holds (List.forall_mem_cons.mpr ⟨?_, visits⟩)
  exact fun e same => (other e same).elim

theorem Meets.evaluate {traced : Traced Unit} {e : Expr} (inScopes : e.blank.ListedIn listed scopes)
    (meets : Meets listed (At limit listed scopes) traced after) :
    Meets listed (At limit listed scopes)
      (Recorded.evaluating tracing e (Recorded.visit tracing (.expr e) traced)) after := by
  rw [evaluating_eq]
  intro trail machine holds visits
  refine meets (trail.visit (.expr e) machine) machine holds (List.forall_mem_cons.mpr ⟨?_, visits⟩)
  rintro _ ⟨⟩
  have visited := inScopes.visited (Expr.mem_visited_self scopes e.blank)
  exact ⟨scopes, visited, inScopes.resolves, holds.2.mirrors⟩

theorem Meets.refer {traced : Traced α} (name : String)
    (symbol : Attribute "variable declaration" VariableSymbol) (meets : Meets listed before traced after) :
    Meets listed before (Recorded.refer tracing name symbol >>= fun _ => traced) after :=
  meets

/-- The piece goes on from where the scopes are realized to where they still are. -/
abbrev Keeps (limit : Nat) (listed : List (Scopes × Expr)) (scopes : Scopes) (traced : Traced α) :
    Prop :=
  Meets listed (At limit listed scopes) traced (At limit listed scopes)

theorem At.kept {active : List CallFrame} {machine left : Machine}
    (holds : At limit listed scopes active machine) (kept : machine.Keeps 0 left) :
    At limit listed scopes active left :=
  ⟨kept.steady holds.1, holds.2.changes kept.changes⟩

theorem Meets.simple {piece : Run α} (simple : piece.Simple 0) :
    Keeps limit listed scopes (Recorded.step tracing piece) := by
  refine Meets.step fun active machine value left holds ran => ?_
  have kept := simple.confined machine holds.1.framed
  rw [ran] at kept
  exact holds.kept kept

/-- Where the run declares nothing in the end, it does not matter what it declared on the way. -/
theorem Meets.restored {traced : Traced α} {piece : Run α}
    (meets : Meets listed (At limit listed scopes) traced after) (follows : Follows limit 0 traced piece) :
    Keeps limit listed scopes traced := by
  intro trail machine holds visits
  refine ⟨(meets trail machine holds visits).1, fun value left done => ?_⟩
  have kept := follows.confined machine holds.1.framed
  rw [(follows.continues trail machine holds.1).active]
  rw [follows.erases trail machine] at done
  rw [done] at kept
  exact holds.kept kept

theorem Meets.inScope {traced : Traced α} {piece : Run α}
    (meets : Meets listed (At limit listed scopes.push) traced after)
    (follows : Follows limit 1 traced piece) :
    Keeps limit listed scopes (Recorded.inScope tracing traced) := by
  have within : Meets listed (At limit listed scopes) (Recorded.inScope tracing traced) Anywhere := by
    intro trail machine holds visits
    have entered : At limit listed scopes.push trail.active
        { machine with context := machine.context.pushScope } :=
      ⟨holds.1.pushScope, holds.2.pushScope⟩
    exact ⟨(meets trail _ entered visits).1, fun _ _ _ => trivial⟩
  exact within.restored follows.inScope

/-- In the frame of a call the scopes are those around the function, wherever it is called from. -/
theorem Meets.call (id : Nat) (name : String) (span : Span) {body : FunctionDecl → Traced α}
    (each : ∀ (decl : FunctionDecl) (around : Scopes), decl.blank.ListedIn listed around →
      Meets listed (At limit listed around.push) (body decl) Anywhere) :
    Meets listed (At limit listed scopes)
      (do
        let context ← Recorded.step tracing Run.context
        let (decl, scope) ← Recorded.step tracing (Run.attempt span (context.getFunction id name))
        Recorded.inCall tracing decl.name span (Recorded.inFrame tracing scope (body decl)))
      Anywhere := by
  intro trail machine holds visits
  refine ⟨?_, fun _ _ _ => trivial⟩
  change ∀ visit ∈ (Recorded.bind
    (Recorded.step tracing (Run.attempt span (machine.context.getFunction id name))) _
    trail machine).2.visits, _
  cases found : machine.context.getFunction id name with
  | error kind => exact List.forall_mem_cons.mpr ⟨nofun, visits⟩
  | ok function =>
    obtain ⟨decl, home⟩ := function
    obtain ⟨visible, scope, atHome, known⟩ := Context.getFunction_holds found
    have declared : home < machine.context.depth := holds.1.framed.lt_depth visible
    obtain ⟨around, inAround, shows⟩ := holds.2.backed home scope id decl atHome known
    change ∀ visit ∈ (Recorded.inCall tracing decl.name span
      (Recorded.inFrame tracing home (body decl)) trail machine).2.visits, _
    unfold Recorded.inCall
    cases pushed : machine.calls.push ⟨decl.name, span⟩ with
    | error kind => exact List.forall_mem_cons.mpr ⟨nofun, visits⟩
    | ok calls =>
      have entered : At limit listed around.push (⟨decl.name, span⟩ :: trail.active)
          { machine with calls, context := machine.context.pushFrame home } :=
        ⟨holds.1.enter declared pushed, holds.2.pushFrame declared shows⟩
      exact (each decl around inAround (tracing.entersCall _ trail) _ entered visits).1

theorem Meets.forEach {piece : α → Traced Unit} {items : List α}
    (each : ∀ item ∈ items, Keeps limit listed scopes (piece item)) :
    Keeps limit listed scopes (Recorded.forEach piece items) := by
  induction items with
  | nil => exact .pure ()
  | cons item rest ih =>
    obtain ⟨first, later⟩ := List.forall_mem_cons.mp each
    exact first.bind fun _ => ih later

/-- A variable is declared in the scopes and defined in the context. -/
theorem Meets.bindVariable {binding symbol : VariableSymbol} {span : Span} {value : Value}
    (declared : scopes.declareVariable binding = .ok bound) :
    Meets listed (At limit listed scopes)
      (Recorded.bindVariable tracing span binding.name symbol value) (At limit listed bound) := by
  rw [bindVariable_eq]
  refine Meets.step fun active machine _ left holds ran => ?_
  have kept := Run.confined_logic.defineVariable span binding.name value machine holds.1.framed
  rw [ran] at kept
  obtain ⟨context, defined, rfl⟩ := Run.change_eq_done.mp ran
  exact ⟨kept.steady holds.1, holds.2.defineVariable declared defined⟩

/-- The parameters of a function are declared in the scopes and defined in its frame. -/
theorem Meets.bindEach {bindings : List VariableSymbol} {params : List Param} {args : List Value}
    (names : bindings.map VariableSymbol.name = params.map Param.name)
    (declared : declareVariables scopes bindings = .ok bound) (arity : args.length = params.length) :
    Meets listed (At limit listed scopes)
      (Recorded.forEach (fun (param, value) =>
        Recorded.bindVariable tracing param.span param.name param.binding value) (params.zip args))
      (At limit listed bound) := by
  induction params generalizing args bindings scopes with
  | nil =>
    rw [List.map_nil, List.map_eq_nil_iff] at names
    subst names
    cases declared
    exact .pure ()
  | cons param rest ih =>
    obtain ⟨value, others, rfl⟩ := List.exists_cons_of_length_eq_add_one arity
    obtain ⟨binding, later, rfl, name, names⟩ := List.map_eq_cons_iff.mp names
    obtain ⟨within, declares, declared⟩ := bind_eq_ok.mp declared
    have first : Meets listed (At limit listed scopes)
        (Recorded.bindVariable tracing param.span param.name param.binding value)
        (At limit listed within) := name ▸ .bindVariable declares
    exact first.bind fun _ => ih names declared (Nat.succ.inj arity)

theorem Meets.bindParams {decl : FunctionDecl} (inScopes : decl.blank.ListedIn listed scopes)
    (args : List Value) (span : Span) :
    ∃ inner, Meets listed (At limit listed scopes.push) (Recorded.bindParams tracing decl args span)
        (At limit listed inner) ∧ decl.body.blank.ListedIn listed inner := by
  obtain ⟨bindings, inner, names, declared, atBody⟩ := inScopes.body
  have params : decl.blank.params.map Param.name = decl.params.map Param.name := by
    cases decl
    exact List.map_map
  refine ⟨inner, ?_, ?_⟩
  · unfold Recorded.bindParams
    split
    · exact .bindEach (names.trans params) declared ‹_›
    · exact .step nofun
  · cases decl
    exact atBody

/-- A function is defined that was awaited. -/
theorem Meets.defineFunction {decl : FunctionDecl} {rest : List FunctionDecl} :
    Meets listed (Awaiting limit listed scopes (decl :: rest)) (Recorded.defineFunction tracing decl)
      (Awaiting limit listed scopes rest) := by
  rw [defineFunction_eq]
  refine Meets.step fun active machine _ left holds ran => ?_
  have kept := Run.confined_logic.defineFunction decl.nameSpan decl machine holds.1.framed
  rw [ran] at kept
  obtain ⟨context, defined, rfl⟩ := Run.change_eq_done.mp ran
  refine ⟨kept.steady holds.1, fun future later => holds.2 future ?_⟩
  rw [List.foldlM_cons]
  exact bind_eq_ok.mpr ⟨context, defined, later⟩

theorem Awaiting.nothing {active : List CallFrame} {machine : Machine}
    (holds : Awaiting limit listed scopes [] active machine) : At limit listed scopes active machine :=
  ⟨holds.1, holds.2 _ rfl⟩

/-- Where a list of statements begins, its first functions are declared, and from then on awaited. -/
theorem At.begin {statements : List Stmt}
    (all : Stmt.AllListed listed scopes false (statements.map Stmt.blank)) :
    ∃ bound, Stmt.AllListed listed bound true (statements.map Stmt.blank) ∧
      ∀ active machine, At limit listed scopes active machine →
        Awaiting limit listed bound (leadingFunctions statements) active machine := by
  obtain ⟨bound, declared, within⟩ := all.enter
  have each := within.leading
  rw [leadingFunctions_blank] at declared each
  rw [List.forall_mem_map] at each
  refine ⟨bound, within, fun active machine holds => ⟨holds.1, fun _ defined => ?_⟩⟩
  exact holds.2.defineFunctions declared each defined

end Rules

end Traced

end Lu
