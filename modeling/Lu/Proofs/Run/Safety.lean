import Lu.Check.Placement
import Lu.Proofs.Run.Statements

namespace Lu

/-!
Whole runs are safe: with any amount of fuel, a run of a program that the checker has accepted ends
well or in one of the permitted ways.
-/

/-- The program is resolved, its jumps and assignments are where they may be, and its functions can
be told apart; in a strict run it is also well typed and no `let` captures a name. -/
structure Program.Sound (strict : Prop) (p : Program) : Prop where
  resolved : p.Resolved Native.signatures
  placed : p.checkPlacement = .ok ()
  distinct : p.functionIds.Nodup
  typed : strict → p.Typed
  uncaptured : strict → p.uncaptured = true

theorem natives_declared {name : String} {declaration : Declaration}
    (known : (Native.signatures.map fun native =>
      (native.name, Declaration.function (.native native))).lookup name = some declaration) :
    ∃ native : Native, declaration = .function (.native native.signature) := by
  obtain ⟨before, after, shape, -⟩ := List.lookup_eq_some_iff.mp known
  have member : (name, declaration) ∈ Native.signatures.map fun native =>
      (native.name, Declaration.function (.native native)) := by
    rw [shape]
    simp
  obtain ⟨signature, listed, same⟩ := List.mem_map.mp member
  obtain ⟨native, -, rfl⟩ := List.mem_map.mp listed
  cases same
  exact ⟨native, rfl⟩

/-- At first only the built-in functions are there. -/
theorem Layout.initial_realizes {strict : Prop} {free : List String} :
    Layout.initial.Realizes strict [] (Scopes.ofNatives Native.signatures) free
      Layout.initial.chain := by
  refine ⟨.scope rfl ?_ (.builtIn fun _ _ known => natives_declared known), fun _ _ _ => ?_⟩
  · intro name declaration found
    cases found
  · exact .inr ⟨rfl, trivial⟩

theorem Layout.initial_fresh : Layout.initial.Fresh := rfl

namespace Watched

open Recorded

variable {strict : Prop} {listed : List FunctionDecl}

theorem safeAt (distinct : (listed.map FunctionDecl.id).Nodup) :
    ∀ fuel, SafeAt strict listed fuel
  | 0 => by
    refine ⟨?_, ?_, ?_, ?_, ?_, ?_, ?_, ?_, ?_⟩
    all_goals
      intros
      apply Safe.outOfFuel
      exact Steady.fine ‹_›
  | fuel + 1 => by
    have ih := safeAt distinct fuel
    exact ⟨ih.expr_succ, ih.valueOf_succ, ih.condition_succ, ih.callUser_succ distinct,
      ih.stmt_succ, ih.varDecl_succ, ih.block_succ distinct, ih.whileLoop_succ, ih.forLoop_succ⟩

/-- At the top no jump has anywhere to go, so there is none. -/
theorem topLevel_safe (distinct : (listed.map FunctionDecl.id).Nodup) {fuel : Nat}
    (ih : SafeAt strict listed fuel) :
    ∀ (statements : List Stmt) {scopes : Scopes} {inRun : Bool} {history : History}
      {machine : Machine} (last : Value),
      Steady strict listed (awaitedBy inRun statements) history machine →
      Stmt.AllReady strict listed {} none history.layout scopes inRun statements →
      Safe strict (topLevel watching (Recorded.stmt watching fuel) last statements) history machine
        fun _ _ machine' => machine'.operands = machine.operands
  | [], _, _, _, _, _, steady, _ => .pure steady.fine rfl
  | s :: rest, _, _, _, _, _, steady, ready => by
    refine (ih.head distinct steady ready).bind fun flow history' machine' fine
      ⟨_, follows, operands, fits, _, sound, restReady⟩ => ?_
    cases flow with
    | next value =>
      exact (topLevel_safe distinct ih rest value ⟨fine, follows, sound⟩ restReady).mono
        fun _ _ _ operands' => operands'.trans operands
    | breakLoop | continueLoop => cases fits
    | returned value => cases fits.1

theorem program_safe {p : Program} (sound : p.Sound strict) (fuel : Nat) {machine : Machine}
    (fresh : machine.context = Context.initial) (empty : machine.operands = []) :
    Safe strict (program watching fuel p) {} machine fun _ _ _ => True := by
  obtain ⟨resolved, placed, distinct, typed, uncaptured⟩ := sound
  have initial := Layout.initial_fresh
  have steady : Steady strict p.functions (awaitedBy false p.statements) {} machine :=
    ⟨fun _ member => (List.not_mem_nil member).elim, fresh ▸ Context.Follows.initial,
      Layout.initial_sound⟩
  have ready : Stmt.AllReady strict p.functions {} none Layout.initial
      (Scopes.ofNatives Native.signatures) false p.statements :=
    ⟨resolved, placed, typed, uncaptured, List.Sublist.refl _, Layout.initial_realizes,
      fun name _ => initial.isNew name, fun decl _ => initial.isNewId decl.id,
      fun _ _ _ name _ => initial.leavesFree name⟩
  unfold program
  refine (topLevel_safe distinct (safeAt distinct fuel) p.statements .void steady ready).bind
    fun last history' machine' fine operands => ?_
  obtain ⟨context, left, calls, env⟩ := machine'
  obtain rfl : left = [] := operands.trans empty
  exact .done fine rfl trivial

end Watched

/-- A run of an accepted program does nothing that the checker has not foreseen, and stops, if it
does, in a permitted way. -/
theorem Machine.watch_ends {strict : Prop} {p : Program} (sound : p.Sound strict) (fuel : Nat)
    {machine : Machine} (idle : machine.operands = []) :
    Watched.Ends strict (fun _ _ _ => True) (machine.watch fuel p) := by
  have safe : Watched.Safe strict (Recorded.program watching fuel p) {}
      { machine with context := Context.initial } fun _ _ _ => True :=
    Watched.program_safe sound fuel rfl idle
  unfold Watched.Safe at safe
  simp only [Machine.watch, Machine.record, idle] at safe ⊢
  generalize Recorded.program watching fuel p {} _ = watched at safe ⊢
  obtain ⟨outcome, history⟩ := watched
  cases outcome <;> exact safe

end Lu
