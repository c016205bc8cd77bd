import Lu.Proofs.Run.Nesting
import Lu.Proofs.Run.Quiet
import Lu.Proofs.Tree.Functions

namespace Lu

/-!
The functions that can be called: only those of the program are ever in a scope.
-/

/-- The functions in the scopes are listed, with those declared inside them. -/
def Context.Knows (listed : List FunctionDecl) (context : Context) : Prop :=
  ∀ (index : Nat) (scope : Scope), context.scopes[index]? = some scope →
    ∀ known ∈ scope.functions, known.2.functions ⊆ listed

namespace Context.Knows

variable {listed : List FunctionDecl} {context after : Context}

theorem initial : Context.initial.Knows listed := by
  intro index scope atIndex known member
  cases index with
  | zero =>
    cases atIndex
    cases member
  | succ index => simp [Context.initial] at atIndex

/-- Each scope has the functions of a scope that was there before. -/
theorem of_functions (knows : context.Knows listed)
    (old : ∀ (index : Nat) (scope : Scope), after.scopes[index]? = some scope →
      ∃ before, context.scopes[index]? = some before ∧ scope.functions = before.functions) :
    after.Knows listed := by
  intro index scope atIndex known member
  obtain ⟨before, atBefore, same⟩ := old index scope atIndex
  rw [same] at member
  exact knows index before atBefore known member

theorem push (knows : context.Knows listed) (frames : List Frame) :
    Context.Knows listed ⟨context.scopes.push {}, frames⟩ := by
  intro index scope atIndex known member
  simp only [Array.getElem?_push] at atIndex
  split at atIndex
  · cases atIndex
    cases member
  · exact knows index scope atIndex known member

theorem popScope (knows : context.Knows listed) : context.popScope.Knows listed := by
  unfold Context.popScope
  split
  · refine knows.of_functions fun index scope atIndex => ?_
    simp only [Array.getElem?_pop] at atIndex
    split at atIndex
    · exact ⟨scope, atIndex, rfl⟩
    · cases atIndex
  · exact knows

theorem popFrame (knows : context.Knows listed) : context.popFrame.Knows listed := by
  unfold Context.popFrame
  split
  · refine knows.of_functions fun index scope atIndex => ?_
    simp only [Array.shrink_eq_take, Array.take_eq_extract, Array.getElem?_extract,
      Nat.zero_add] at atIndex
    split at atIndex
    · exact ⟨scope, atIndex, rfl⟩
    · cases atIndex
  · exact knows

theorem modify (knows : context.Knows listed) (target : Nat) {change : Scope → Scope}
    (adds : ∀ scope, context.scopes[target]? = some scope →
      ∀ known ∈ (change scope).functions, known.2.functions ⊆ listed) :
    Context.Knows listed { context with scopes := context.scopes.modify target change } := by
  intro index scope atIndex known member
  simp only [Array.getElem?_modify] at atIndex
  split at atIndex
  · rename_i same
    subst same
    obtain ⟨before, atBefore, rfl⟩ := Option.map_eq_some_iff.mp atIndex
    exact adds before atBefore known member
  · exact knows index scope atIndex known member

theorem assignVariable (knows : context.Knows listed) {name : String} {value : Value}
    (assigned : context.assignVariable name value = .ok after) : after.Knows listed := by
  rw [Context.assignVariable_eq] at assigned
  split at assigned
  · cases assigned
    exact knows.modify _ fun scope atScope => knows _ scope atScope
  · cases assigned

theorem defineVariable (knows : context.Knows listed) {name : String} {value : Value}
    (defined : context.defineVariable name value = .ok after) : after.Knows listed := by
  rw [Context.defineVariable_eq] at defined
  split at defined
  · cases defined
  · cases defined
    exact knows.modify _ fun scope atScope => knows _ scope atScope

theorem defineFunction (knows : context.Knows listed) {decl : FunctionDecl}
    (among : decl.functions ⊆ listed) (defined : context.defineFunction decl = .ok after) :
    after.Knows listed := by
  rw [Context.defineFunction_eq] at defined
  split at defined
  · cases defined
  · cases defined
    refine knows.modify _ fun scope atScope => List.forall_mem_cons.mpr ⟨among, ?_⟩
    exact knows _ scope atScope

theorem getFunction (knows : context.Knows listed) {id home : Nat} {name : String}
    {decl : FunctionDecl} (found : context.getFunction id name = .ok (decl, home)) :
    decl.functions ⊆ listed := by
  obtain ⟨-, scope, atHome, held⟩ := Context.getFunction_holds found
  obtain ⟨before, after, shape, -⟩ := List.lookup_eq_some_iff.mp held
  have member : (id, decl) ∈ scope.functions := by simp [shape]
  exact knows home scope atHome (id, decl) member

end Context.Knows

namespace Run

variable {α β : Type} {listed : List FunctionDecl}

/-- The piece makes no other functions known than listed ones. -/
def Knowing (listed : List FunctionDecl) (piece : Run α) : Prop :=
  ∀ machine, machine.context.Knows listed →
    (piece machine).Leaves fun after => after.context.Knows listed

theorem Knowing.of_quiet {piece : Run α} (quiet : Quiet piece) : Knowing listed piece := by
  refine fun machine knows => (quiet machine).mono fun after same => ?_
  rw [same.1]
  exact knows

theorem Knowing.bind {first : Run α} {next : α → Run β} (atFirst : Knowing listed first)
    (atNext : ∀ value, Knowing listed (next value)) : Knowing listed (first >>= next) := by
  intro machine knows
  have leaves := atFirst machine knows
  rw [bind_apply]
  generalize first machine = outcome at leaves ⊢
  cases outcome with
  | done value middle => exact atNext value middle leaves
  | failed | faulted => exact leaves
  | outOfFuel => trivial

theorem Knowing.change (span : Span) {action : Context.Action} (atomic : Atomic action)
    (keeps : ∀ context after, context.Knows listed → action.result context = .ok after →
      after.Knows listed) : Knowing listed (change span action) := by
  intro machine knows
  rw [Run.change_eq atomic]
  cases made : action.result machine.context with
  | error kind => exact knows
  | ok context => exact keeps _ _ knows made

end Run

end Lu
