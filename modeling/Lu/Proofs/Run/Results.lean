import Lu.Proofs.Run.Guarantees
import Lu.Proofs.Run.Sources
import Lu.Proofs.Typing.Returned

namespace Lu

/-!
What calls come to. A function with a result type returns values of that type. A function without one
returns `void`, unless it returns an assignment: that is `void` to the checker, but its value is the one
that was assigned.
-/

/-- A function without a result type has returned the value of an assignment. -/
def Program.LeaksAssigned (p : Program) (events : List Event) (value : Value) : Prop :=
  ∃ decl ∈ p.functions, ∃ function note target assigned, decl.symbol.value? = some function ∧
    function.result = .void ∧ some (.assign note target assigned) ∈ decl.body.returned ∧
    .evaluated (.assign note target assigned) value ∈ events

/-- The value has the result type, or it was assigned where a function without a result type has
returned an assignment. -/
def FunctionSymbol.Yields (symbol : FunctionSymbol) (p : Program) (events : List Event)
    (value : Value) : Prop :=
  value.type = symbol.result ∨
    symbol.result = .void ∧ value.type ≠ .void ∧ p.LeaksAssigned events value

section Events

variable {p : Program} {events : List Event} {value : Value}

theorem Program.LeaksAssigned.mono {more : List Event} (leaks : p.LeaksAssigned events value)
    (longer : events <:+ more) : p.LeaksAssigned more value := by
  obtain ⟨decl, member, function, note, target, assigned, stored, void, place, evaluated⟩ := leaks
  exact ⟨decl, member, function, note, target, assigned, stored, void, place,
    longer.subset evaluated⟩

theorem FunctionSymbol.Yields.mono {symbol : FunctionSymbol} {more : List Event}
    (yields : symbol.Yields p events value) (longer : events <:+ more) :
    symbol.Yields p more value :=
  yields.imp_right fun ⟨void, notVoid, leaks⟩ => ⟨void, notVoid, leaks.mono longer⟩

/-- What is assigned is a value, although the assignment itself is of type `void`. -/
theorem Expr.Typed.assigned_type {note : ExprNote} {target assigned : Expr}
    (typed : (Expr.assign note target assigned).Typed) (fine : ∀ event ∈ events, event.Fine True)
    (evaluated : .evaluated assigned value ∈ events) : value.type ≠ .void := by
  cases typed with
  | assign _ _ _ known notVoid _ =>
    rw [fine _ evaluated trivial _ known notVoid]
    exact notVoid

/-- The induction goes along the events: where a function without a result type returns a call, that
call has ended before. -/
theorem FunctionSymbol.Returned.yields {symbol : FunctionSymbol}
    (answers : ∀ decl ∈ p.functions, decl.Answers) (fine : ∀ event ∈ events, event.Fine True)
    (sourced : Sourced p.functions events) (returned : symbol.Returned p.functions events value) :
    symbol.Yields p events value := by
  induction size : events.length using Nat.strongRecOn generalizing events symbol with
  | ind size ih =>
  subst size
  obtain ⟨context, decl, index, called, found, member, place, among, returned⟩ := returned
  obtain ⟨_, _, found', stored⟩ := fine _ called
  cases found.symm.trans found'
  obtain ⟨function, stored', suits⟩ := answers decl member
  cases stored.symm.trans stored'
  cases place with
  | none =>
    left
    rw [show value = .void from returned]
    exact (Option.some.inj (suits none among)).symm
  | some e =>
    obtain ⟨typed, ty, same, known⟩ := suits (some e) among
    cases same
    by_cases plain : symbol.result ≠ .void ∨ e.Plain
    · exact .inl ((fine _ returned trivial).type _ known plain)
    obtain ⟨void, odd⟩ := not_or.mp plain
    have void := not_not.mp void
    rw [void] at known
    cases e with
    | assign note target assigned =>
      obtain ⟨earlier, longer, -, -, source⟩ := sourced.before returned
      have notVoid := typed.assigned_type fine (longer.subset source)
      exact .inr ⟨void, notVoid, decl, member, symbol, note, target, assigned, stored, void, among,
        returned⟩
    | call note name nameSpan args callee =>
      simp only [Expr.Plain, not_forall, not_not] at odd
      obtain ⟨inner, called⟩ := odd
      obtain ⟨earlier, longer, shorter, sourced', source⟩ := sourced.before returned
      have inside : inner.Yields p earlier value :=
        ih earlier.length shorter (fun event member => fine event (longer.subset member)) sourced'
          (source inner called) rfl
      have innerVoid : inner.result = .void := by
        cases typed with
        | call _ calls _ type =>
          cases calls.symm.trans called
          exact Option.some.inj (type.symm.trans known)
      rcases inside with same | ⟨-, notVoid, leaks⟩
      · exact .inl (same.trans (innerVoid.trans void.symm))
      · exact .inr ⟨void, notVoid, leaks.mono longer⟩
    | literal | «variable» | binary | unary => exact (odd trivial).elim

end Events

/-- The function of the program that the expression calls. -/
def Expr.calledUser? : Expr → Option FunctionSymbol
  | .call _ _ _ _ callee =>
    match callee.value? with
    | some (.user symbol) => some symbol
    | _ => none
  | _ => none

theorem Expr.Sourced.returned {listed : List FunctionDecl} {events : List Event} {e : Expr}
    {symbol : FunctionSymbol} {value : Value} (sourced : e.Sourced listed events value)
    (called : e.calledUser? = some symbol) : symbol.Returned listed events value := by
  cases e with
  | call note name nameSpan args callee =>
    refine sourced symbol ?_
    simp only [Expr.calledUser?] at called
    split at called
    · rename_i found stored
      cases called
      exact stored
    · cases called
  | literal | «variable» | assign | binary | unary => cases called

/-- A call of a function that has come to an end has a value of the result type of the function, `void`
for a function without one. The only exception is a function without a result type that returns an
assignment: its calls, and those of the functions that return them in turn, have the value that was
assigned. -/
theorem call_yields_result {source : String} {p : Program} (checked : Source.checked source = .ok p)
    (uncaptured : p.uncaptured = true) (fuel : Nat) {machine : Machine} (idle : machine.operands = [])
    {e : Expr} {symbol : FunctionSymbol} {value : Value} (called : e.calledUser? = some symbol)
    (evaluated : .evaluated e value ∈ (machine.watch fuel p).2.events) :
    (machine.watch fuel p).1 = machine.evaluate fuel p ∧
      symbol.Yields p (machine.watch fuel p).2.events value := by
  have sound : p.Sound True := Source.checked_sound checked fun _ => uncaptured
  have fine := machine.watch_fine sound fuel idle
  obtain ⟨named, elaborates⟩ := Source.checked_elaborates checked
  obtain ⟨earlier, longer, -, sourced, source⟩ := (machine.watch_sourced fuel p).before evaluated
  have before : symbol.Yields p earlier value :=
    (source.returned called).yields elaborates.answer
      (fun event member => fine event (longer.subset member)) sourced
  exact ⟨machine.watch_fst fuel p, before.mono longer⟩

def Event.isUserCall : Event → Bool
  | .evaluated e _ => e.calledUser?.isSome
  | _ => false

/-- A function without a result type that returns a call of another one. -/
def relayingSource : String :=
  "fn greet(n: int) \x7b return print(n); \x7d fn relay(n: int) \x7b return greet(n); \x7d relay(5);"

theorem relayed_call_yields_result : ∃ p e symbol value, Source.checked relayingSource = .ok p ∧
    p.uncaptured = true ∧ e.calledUser? = some symbol ∧
    .evaluated e value ∈ ((Machine.fresh 10 {}).watch 100 p).2.events ∧
    ((Machine.fresh 10 {}).watch 100 p).1 = (Machine.fresh 10 {}).evaluate 100 p ∧
    symbol.Yields p ((Machine.fresh 10 {}).watch 100 p).2.events value := by
  have accepted : (Source.checked relayingSource).toOption.any (fun p => p.uncaptured &&
      ((Machine.fresh 10 {}).watch 100 p).2.events.any Event.isUserCall) = true := by
    decide +kernel
  obtain ⟨p, checked, both⟩ := ok_of_any accepted
  obtain ⟨uncaptured, some⟩ := Bool.and_eq_true_iff.mp both
  obtain ⟨event, member, isUserCall⟩ := List.any_eq_true.mp some
  cases event with
  | evaluated e value =>
    obtain ⟨symbol, called⟩ := Option.isSome_iff_exists.mp isUserCall
    exact ⟨p, e, symbol, value, checked, uncaptured, called, member,
      call_yields_result checked uncaptured 100 rfl called member⟩
  | referred | called => cases isUserCall

/-- The value of the event is not of the result type of the function that was called. -/
def Event.isLeak : Event → Bool
  | .evaluated e value => e.calledUser?.any fun symbol => value.type != symbol.result
  | _ => false

def leakingSource : String := "let x = 1; fn f() \x7b return x = 5; \x7d f();"

/-- The call of a function without a result type has the value 5. -/
theorem returned_assignment_leaks : ∃ p e symbol value, Source.checked leakingSource = .ok p ∧
    p.uncaptured = true ∧ e.calledUser? = some symbol ∧
    .evaluated e value ∈ ((Machine.fresh 10 {}).watch 100 p).2.events ∧
    value.type ≠ symbol.result := by
  have accepted : (Source.checked leakingSource).toOption.any (fun p => p.uncaptured &&
      ((Machine.fresh 10 {}).watch 100 p).2.events.any Event.isLeak) = true := by
    decide +kernel
  obtain ⟨p, checked, both⟩ := ok_of_any accepted
  obtain ⟨uncaptured, some⟩ := Bool.and_eq_true_iff.mp both
  obtain ⟨event, member, isLeak⟩ := List.any_eq_true.mp some
  cases event with
  | evaluated e value =>
    obtain ⟨symbol, called, other⟩ := (Option.any_eq_true ..).mp isLeak
    exact ⟨p, e, symbol, value, checked, uncaptured, called, member, bne_iff_ne.mp other⟩
  | referred | called => cases isLeak

end Lu
