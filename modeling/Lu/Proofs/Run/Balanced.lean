import Lu.Proofs.Run.Growth
import Lu.Proofs.Run.Logic

namespace Lu

/-!
The operands of a run are a stack: a piece that is done has taken what it needed from the top and put
its own there, and one that fails has left behind what was not its own.
-/

/-- Upon the operands that were not its own a piece that is done has left so many. -/
def Outcome.Balances {α : Type} (left : Nat) (rest : List Value) : Outcome α → Prop
  | .done _ after => ∃ top, top.length = left ∧ after.operands = top ++ rest
  | .failed _ after => rest <:+ after.operands
  | .faulted _ _ | .outOfFuel => True

namespace Run

variable {α β : Type} {taken middle left : Nat}

def Balanced (taken left : Nat) (piece : Run α) : Prop :=
  ∀ machine top rest, top.length = taken → machine.operands = top ++ rest →
    (piece machine).Balances left rest

/-- A piece that leaves the operands alone. -/
theorem Balanced.of_same {piece : Run α}
    (same : ∀ machine, (piece machine).Leaves fun after => after.operands = machine.operands) :
    Balanced 0 0 piece := by
  intro machine top rest length operands
  obtain rfl : top = [] := List.length_eq_zero_iff.mp length
  have kept := same machine
  generalize piece machine = outcome at kept ⊢
  cases outcome with
  | done value after => exact ⟨[], rfl, Eq.trans kept operands⟩
  | failed e after =>
    have kept : after.operands = machine.operands := kept
    change rest <:+ after.operands
    rw [kept, operands]
    exact List.suffix_rfl
  | faulted | outOfFuel => trivial

theorem Balanced.attempt (span : Span) (result : Except RuntimeErrorKind α) :
    Balanced 0 0 (attempt span result) :=
  .of_same fun _ => by cases result <;> rfl

theorem Balanced.change (span : Span) (action : Context.Action) :
    Balanced 0 0 (change span action) := by
  refine .of_same fun machine => ?_
  unfold Run.change
  cases action machine.context <;> rfl

theorem Balanced.callNative (name : String) (args : List Value) (span : Span) :
    Balanced 0 0 (callNative name args span) := by
  refine .of_same fun machine => ?_
  rw [Run.callNative_eq]
  cases Native.ofName? name with
  | none => rfl
  | some native =>
    simp only
    split <;> rfl

theorem Balanced.pure (count : Nat) (value : α) : Balanced count count (pure value : Run α) :=
  fun _ top _ length operands => ⟨top, length, operands⟩

theorem Balanced.bind {first : Run α} {next : α → Run β} (atFirst : Balanced taken middle first)
    (atNext : ∀ value, Balanced middle left (next value)) : Balanced taken left (first >>= next) := by
  intro machine top rest length operands
  have balances := atFirst machine top rest length operands
  rw [bind_apply]
  generalize first machine = outcome at balances ⊢
  cases outcome with
  | done value after =>
    obtain ⟨top', length', operands'⟩ := balances
    exact atNext value after top' rest length' operands'
  | failed => exact balances
  | faulted | outOfFuel => trivial

theorem Balanced.above {piece : Run α} (count : Nat) (balanced : Balanced taken left piece) :
    Balanced (taken + count) (left + count) piece := by
  intro machine top rest length operands
  have own : (top.take taken).length = taken := by
    rw [List.length_take]
    omega
  have below : (top.drop taken).length = count := by
    rw [List.length_drop]
    omega
  have split : machine.operands = top.take taken ++ (top.drop taken ++ rest) := by
    rw [← List.append_assoc, List.take_append_drop, operands]
  have balances := balanced machine _ _ own split
  generalize piece machine = outcome at balances ⊢
  cases outcome with
  | done value after =>
    obtain ⟨top', length', operands'⟩ := balances
    refine ⟨top' ++ top.drop taken, ?_, ?_⟩
    · rw [List.length_append, length', below]
    · rw [operands', List.append_assoc]
  | failed e after => exact (List.suffix_append _ _).trans balances
  | faulted | outOfFuel => trivial

theorem Balanced.fail (taken left : Nat) (kind : RuntimeErrorKind) (span : Span) :
    Balanced taken left (fail kind span : Run α) := by
  intro machine top rest _ operands
  change rest <:+ machine.operands
  rw [operands]
  exact List.suffix_append top rest

theorem Balanced.push (value : Value) : Balanced 0 1 (push value) := by
  intro machine top rest length operands
  obtain rfl : top = [] := List.length_eq_zero_iff.mp length
  exact ⟨[value], rfl, congrArg (value :: ·) operands⟩

theorem Balanced.pop (span : Span) : Balanced 1 0 (pop span) := by
  intro machine top rest length operands
  obtain ⟨value, rfl⟩ := List.length_eq_one_iff.mp length
  have popped : Run.pop span machine = .done value { machine with operands := rest } := by
    simp only [Run.pop, operands, List.singleton_append]
  rw [popped]
  exact ⟨[], rfl, rfl⟩

theorem Balanced.peek (span : Span) : Balanced 1 1 (peek span) := by
  intro machine top rest length operands
  obtain ⟨value, rfl⟩ := List.length_eq_one_iff.mp length
  have peeked : Run.peek span machine = .done value machine := by
    simp only [Run.peek, operands, List.singleton_append]
  rw [peeked]
  exact ⟨[value], rfl, operands⟩

theorem Balanced.popMany (count : Nat) (span : Span) : Balanced count 0 (popMany count span) := by
  intro machine top rest length operands
  have taken : machine.operands.take count = top := by
    rw [operands, ← length, List.take_left]
  have dropped : machine.operands.drop count = rest := by
    rw [operands, ← length, List.drop_left]
  simp only [Run.popMany, taken, dropped, if_pos length]
  exact ⟨[], rfl, rfl⟩

/-- The context is no matter of the operands. -/
theorem Balanced.between {piece : Run α} (enter leave : Context → Context)
    (balanced : Balanced taken left piece) : Balanced taken left (between enter leave piece) := by
  intro machine top rest length operands
  have balances := balanced { machine with context := enter machine.context } top rest length operands
  unfold Run.between
  generalize piece _ = outcome at balances ⊢
  cases outcome <;> exact balances

theorem Balanced.inCall {piece : Run α} (function : String) (span : Span)
    (balanced : Balanced 0 0 piece) : Balanced 0 0 (inCall function span piece) := by
  intro machine top rest length operands
  unfold Run.inCall
  cases machine.calls.push ⟨function, span⟩ with
  | error kind => exact (Balanced.fail (α := α) 0 0 kind span) machine top rest length operands
  | ok calls =>
    have balances := balanced { machine with calls } top rest length operands
    simp only
    generalize piece _ = outcome at balances ⊢
    cases outcome <;> exact balances

/-- All pieces of a run keep the operands in balance. -/
theorem balanced_logic : Logic fun _ taken left _ piece => Balanced taken left piece where
  outOfFuel _ _ _ := fun _ _ _ _ _ => trivial
  pure count _ value := .pure count value
  bind := Balanced.bind
  above count balanced := balanced.above count
  grown balanced := balanced
  fail taken left _ kind span := .fail taken left kind span
  attempt := .attempt
  attemptFault result := .of_same fun _ => by cases result <;> rfl
  context := .of_same fun _ => rfl
  push := .push
  pop := .pop
  peek := .peek
  popMany := .popMany
  callNative := .callNative
  assign _ _ _ := .change _ _
  defineVariable _ _ _ := .change _ _
  defineFunction _ _ := .change _ _
  inScope balanced := .between _ _ balanced
  call balanced := .bind (.of_same fun _ => rfl) fun _ => .bind (.attempt _ _) fun function =>
    .inCall _ _ (.between _ _ (balanced function.1))

end Run

end Lu
