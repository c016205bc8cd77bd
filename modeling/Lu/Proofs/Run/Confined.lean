import Lu.Proofs.Run.Changes
import Lu.Proofs.Run.Guarantees
import Lu.Proofs.Run.Logic
import Lu.Proofs.Run.Quiet

namespace Lu

/-!
Calls cannot touch what the callee cannot see. Every piece of a run changes its context where it sees it
only, and hands on the frames and calls that it was given.
-/

/-- The second machine has the calls of the first one, and its context differs from the first one's
where that shows. -/
structure Machine.Keeps (growing : Nat) (machine after : Machine) : Prop where
  calls : after.calls = machine.calls
  changes : machine.context.Changes machine.context.visibleScopes growing after.context

theorem Machine.Keeps.refl (growing : Nat) (machine : Machine) : machine.Keeps growing machine :=
  ⟨rfl, .refl ..⟩

theorem Machine.Keeps.trans {growing : Nat} {machine between after : Machine}
    (first : machine.Keeps growing between) (second : between.Keeps growing after) :
    machine.Keeps growing after := by
  have changes := second.changes
  rw [first.changes.visibleScopes] at changes
  exact ⟨second.calls.trans first.calls, first.changes.trans changes⟩

namespace Run

variable {α β : Type} {growing : Nat}

/-- In well-formed frames the piece changes nothing that it does not see. -/
def Confined (growing : Nat) (piece : Run α) : Prop :=
  ∀ machine, machine.context.Framed → (piece machine).Leaves (machine.Keeps growing)

theorem Confined.of_quiet {piece : Run α} (quiet : Quiet piece) : Confined growing piece := by
  intro machine _
  refine (quiet machine).mono fun after same => ⟨same.2, ?_⟩
  rw [same.1]
  exact .refl ..

theorem Confined.bind {first : Run α} {next : α → Run β} (atFirst : Confined growing first)
    (atNext : ∀ value, Confined growing (next value)) : Confined growing (first >>= next) := by
  intro machine framed
  have kept := atFirst machine framed
  rw [bind_apply]
  generalize first machine = outcome at kept ⊢
  cases outcome with
  | done value between =>
    have framed' : between.context.Framed := kept.changes.framed framed
    exact (atNext value between framed').mono fun after => kept.trans
  | failed | faulted => exact kept
  | outOfFuel => trivial

theorem Confined.grown {piece : Run α} (confined : Confined 0 piece) : Confined 1 piece :=
  fun machine framed => (confined machine framed).mono fun _ kept =>
    ⟨kept.calls, kept.changes.mono (List.Subset.refl _) (Nat.zero_le 1)⟩

theorem Confined.change {span : Span} {action : Context.Action} (atomic : Atomic action)
    (changes : ∀ context after, context.Framed → action.result context = .ok after →
      context.Changes context.visibleScopes growing after) : Confined growing (change span action) := by
  intro machine framed
  rw [Run.change_eq atomic]
  cases made : action.result machine.context with
  | error kind => exact .refl ..
  | ok after => exact ⟨rfl, changes _ _ framed made⟩

theorem Confined.inScope {piece : Run α} (confined : Confined 1 piece) :
    Confined 0 (inScope piece) := by
  intro machine framed
  have kept := confined { machine with context := machine.context.pushScope } framed.pushScope
  unfold Run.inScope Run.between
  generalize piece _ = outcome at kept ⊢
  cases outcome with
  | done | failed | faulted => exact ⟨kept.calls, framed.popScope_changes kept.changes⟩
  | outOfFuel => trivial

/-- A call, once its function is found in one of the scopes, changes only what is visible from that
scope. -/
theorem Confined.entered {piece : Run α} (confined : Confined 1 piece) (function : String)
    (span : Span) {machine : Machine} (framed : machine.context.Framed) {home : Nat}
    (declared : home < machine.context.depth) :
    (inCall function span (inFrame home piece) machine).Leaves fun after =>
      after.calls = machine.calls ∧ machine.context.Changes
        (Context.seen machine.context.calls home) 0 after.context := by
  unfold Run.inCall
  cases pushed : machine.calls.push ⟨function, span⟩ with
  | error kind => exact ⟨rfl, .refl ..⟩
  | ok calls =>
    have popped := CallStack.pop_push pushed
    have kept := confined { machine with calls, context := machine.context.pushFrame home }
      (framed.pushFrame declared)
    unfold Run.inFrame Run.between
    simp only
    generalize piece _ = outcome at kept ⊢
    cases outcome with
    | done | failed | faulted =>
      exact ⟨by rw [kept.calls, popped], framed.popFrame_changes kept.changes⟩
    | outOfFuel => trivial

theorem Confined.call {id : Nat} {name : String} {span : Span} {body : FunctionDecl → Run α}
    (confined : ∀ decl, Confined 1 (body decl)) :
    Confined 0 (do
      let (decl, scope) ← attempt span ((← context).getFunction id name)
      inCall decl.name span (inFrame scope (body decl))) := by
  intro machine framed
  change (Outcome.Leaves _ ((attempt span (machine.context.getFunction id name) >>= _) machine))
  cases found : machine.context.getFunction id name with
  | error kind => exact .refl ..
  | ok function =>
    obtain ⟨decl, home⟩ := function
    have visible : home ∈ machine.context.visibleScopes := Context.getFunction_visible found
    have leaves := (confined decl).entered decl.name span framed (framed.lt_depth visible)
    refine leaves.mono fun after kept => ⟨kept.1, ?_⟩
    exact kept.2.mono (framed.seen_subset visible) (Nat.le_refl 0)

/-- All pieces of a run are confined to what they see. -/
theorem confined_logic : Logic fun _ _ _ growing piece => Confined growing piece where
  outOfFuel _ _ _ := .of_quiet outOfFuel_quiet
  pure _ _ value := .of_quiet (pure_quiet value)
  bind := Confined.bind
  above _ confined := confined
  grown := Confined.grown
  fail _ _ _ kind span := .of_quiet (fail_quiet kind span)
  attempt span result := .of_quiet (attempt_quiet span result)
  attemptFault result := .of_quiet (attemptFault_quiet result)
  context := .of_quiet context_quiet
  push value := .of_quiet (push_quiet value)
  pop span := .of_quiet (pop_quiet span)
  peek span := .of_quiet (peek_quiet span)
  popMany count span := .of_quiet (popMany_quiet count span)
  callNative name args span := .of_quiet (callNative_quiet name args span)
  assign _ _ _ := .change (Context.setVariable_atomic _ _) fun _ _ _ assigned =>
    Context.assignVariable_changes assigned
  defineVariable _ _ _ := .change (Context.addVariable_atomic _ _) fun _ _ framed defined =>
    framed.defineVariable_changes defined
  defineFunction _ _ := .change (Context.addFunction_atomic _) fun _ _ framed defined =>
    framed.defineFunction_changes defined
  inScope := Confined.inScope
  call := Confined.call

theorem evaluators_confined (fuel : Nat) :
    EvaluatorsJudged (fun _ _ _ growing piece => Confined growing piece) fuel :=
  confined_logic.evaluators fuel

/-- A call of a function that is not found changes nothing. -/
theorem callUser_unfound {fuel : Nat} {symbol : FunctionSymbol} {args : List Value} {span : Span}
    {machine after : Machine} {kind : RuntimeErrorKind}
    (unfound : machine.context.getFunction symbol.id symbol.name = .error kind)
    (ended : (callUser fuel symbol args span machine).after? = some after) : after = machine := by
  cases fuel with
  | zero => cases ended
  | succ fuel =>
    have failed : callUser (fuel + 1) symbol args span machine = .failed { kind, span } machine := by
      change (attempt span (machine.context.getFunction symbol.id symbol.name) >>= _) machine = _
      rw [unfound]
      rfl
    rw [failed] at ended
    cases ended
    rfl

/-- A call of a function that is found in the scope `home`. -/
theorem callUser_changes {fuel : Nat} {symbol : FunctionSymbol} {args : List Value} {span : Span}
    {machine after : Machine} (framed : machine.context.Framed) {decl : FunctionDecl} {home : Nat}
    (found : machine.context.getFunction symbol.id symbol.name = .ok (decl, home))
    (ended : (callUser fuel symbol args span machine).after? = some after) :
    machine.context.Changes (Context.seen machine.context.calls home) 0 after.context := by
  cases fuel with
  | zero => cases ended
  | succ fuel =>
    have body := (evaluators_confined fuel).body confined_logic decl args span
    have declared : home < machine.context.depth :=
      framed.lt_depth (Context.getFunction_visible found)
    have leaves := body.entered decl.name span framed declared
    have entering : callUser (fuel + 1) symbol args span machine =
        inCall decl.name span (inFrame home do
          bindParams decl args span
          callResult decl span (← block fuel decl.body)) machine := by
      change (attempt span (machine.context.getFunction symbol.id symbol.name) >>= _) machine = _
      rw [found]
      rfl
    rw [← entering] at leaves
    generalize callUser (fuel + 1) symbol args span machine = outcome at leaves ended
    cases outcome with
    | done | failed =>
      cases ended
      exact leaves.2
    | faulted | outOfFuel => cases ended

end Run

/-- However a call ends, the scopes and frames are as many as before, each scope declares what it did,
and a scope that cannot be seen from where the function was declared holds the values it held. -/
theorem call_touches_only_what_it_sees {machine after : Machine} (framed : machine.context.Framed)
    {fuel : Nat} {symbol : FunctionSymbol} {args : List Value} {span : Span}
    (ended : (Run.callUser fuel symbol args span machine).after? = some after) :
    after.context.calls = machine.context.calls ∧ after.context.depth = machine.context.depth ∧
      (∀ index : Nat, (after.context.scopes[index]?).map Scope.declared =
        (machine.context.scopes[index]?).map Scope.declared) ∧
      ∀ index : Nat, (∀ decl home,
          machine.context.getFunction symbol.id symbol.name = .ok (decl, home) →
            index ∉ Context.seen machine.context.calls home) →
        after.context.scopes[index]? = machine.context.scopes[index]? := by
  cases found : machine.context.getFunction symbol.id symbol.name with
  | error kind =>
    obtain rfl : after = machine := Run.callUser_unfound found ended
    exact ⟨rfl, rfl, fun _ => rfl, fun _ _ => rfl⟩
  | ok function =>
    obtain ⟨decl, home⟩ := function
    have changes := Run.callUser_changes framed found ended
    refine ⟨changes.calls, changes.depth, fun index => ?_, fun index unseen => ?_⟩
    · by_cases inside : index < machine.context.depth
      · exact changes.declared index inside
      · have beyond : machine.context.depth ≤ index := by omega
        have beyond' : after.context.depth ≤ index := by rwa [changes.depth]
        rw [Array.getElem?_eq_none beyond, Array.getElem?_eq_none beyond']
    · exact changes.hidden index (unseen decl home rfl)

/-- The function of a call about to be made at the top level runs to its end. -/
def Event.isTopCall : Event → Bool
  | .called symbol context =>
    context.calls.isEmpty && decide (0 < context.depth) &&
      (Run.callUser 100 symbol [] default { Machine.fresh 10 {} with context }).after?.isSome
  | _ => false

def shadedSource : String :=
  "let x = 1; fn f() \x7b x = x + 1; return; \x7d \x7b let x = 5; f(); \x7d"

/-- The `x` of the block is out of the function's sight. -/
theorem shaded_call_touches_only_what_it_sees : ∃ p symbol context after,
    Source.checked shadedSource = .ok p ∧
    .called symbol context ∈ ((Machine.fresh 10 {}).watch 100 p).2.events ∧ context.Framed ∧
    (Run.callUser 100 symbol [] default { Machine.fresh 10 {} with context }).after? = some after ∧
    after.context.calls = context.calls ∧ after.context.depth = context.depth ∧
      (∀ index : Nat, (after.context.scopes[index]?).map Scope.declared =
        (context.scopes[index]?).map Scope.declared) ∧
      ∀ index : Nat, (∀ decl home, context.getFunction symbol.id symbol.name = .ok (decl, home) →
          index ∉ Context.seen context.calls home) →
        after.context.scopes[index]? = context.scopes[index]? := by
  have accepted : (Source.checked shadedSource).toOption.any (fun p =>
      ((Machine.fresh 10 {}).watch 100 p).2.events.any Event.isTopCall) = true := by
    decide +kernel
  obtain ⟨p, checked, some⟩ := ok_of_any accepted
  obtain ⟨event, member, isTopCall⟩ := List.any_eq_true.mp some
  cases event with
  | called symbol context =>
    simp only [Event.isTopCall, Bool.and_eq_true, List.isEmpty_iff, decide_eq_true_eq] at isTopCall
    obtain ⟨⟨top, deep⟩, ends⟩ := isTopCall
    obtain ⟨after, ended⟩ := Option.isSome_iff_exists.mp ends
    have framed : context.Framed := by
      refine ⟨?_, ?_⟩
      · rw [top]
        exact .nil
      · rw [top]
        exact deep
    exact ⟨p, symbol, context, after, checked, member, framed, ended,
      call_touches_only_what_it_sees framed ended⟩
  | evaluated | referred => cases isTopCall

end Lu
