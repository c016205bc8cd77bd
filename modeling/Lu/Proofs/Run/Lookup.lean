import Lu.Proofs.Run.Changes
import Lu.Run.Machine
import Mathlib.Logic.Relation
import Mathlib.Order.Bounds.Defs

namespace Lu

/-!
Whatever is done with the scopes of a running program, its frames stay in order. Then the search through
them ends inside the scopes, at the innermost one that is visible and passes the test.
-/

namespace Context

/-- What can be bound or changed in a context. -/
inductive Change where
  | defineVariable (name : String) (value : Value)
  | defineFunction (decl : FunctionDecl)
  | assignVariable (name : String) (value : Value)

def Change.action : Change → Action
  | .defineVariable name value => addVariable name value
  | .defineFunction decl => addFunction decl
  | .assignVariable name value => setVariable name value

def Change.apply (change : Change) : Context → Except RuntimeErrorKind Context :=
  change.action.result

theorem Change.action_atomic (change : Change) : Atomic change.action := by
  cases change with
  | defineVariable name value => exact addVariable_atomic name value
  | defineFunction decl => exact addFunction_atomic decl
  | assignVariable name value => exact setVariable_atomic name value

/-- What can be done with a context. A scope is only left where its frame has another one. -/
inductive Step : Context → Context → Prop
  | pushScope {context} : Step context context.pushScope
  | popScope {context} : (innermost context.calls).base < context.depth - 1 →
      Step context context.popScope
  | pushFrame {context link} : link < context.depth → Step context (context.pushFrame link)
  | popFrame {context} : Step context context.popFrame
  | change {context after} (change : Change) : change.apply context = .ok after → Step context after

/-- The contexts that a program can come to. -/
def Reached (context : Context) : Prop := Relation.ReflTransGen Step initial context

/-- The active calls and behind them the program. -/
def withProgram (calls : List Frame) : List Frame := calls ++ [.program]

/-- The bases of the frames increase from that of the program up to below the number of scopes, and each
function was declared below its frame. -/
structure InOrder (context : Context) : Prop where
  bases : (withProgram context.calls).Pairwise fun inner outer => outer.base < inner.base
  inside : ∀ frame ∈ withProgram context.calls, frame.base < context.depth
  links : ∀ frame ∈ context.calls, ∃ base link home, frame = .call base link home ∧ link < base

section Frames

variable {frames : List Frame}

theorem Nested.base_le (nested : Nested frames) {frame : Frame}
    (member : frame ∈ withProgram frames) : frame.base ≤ (innermost frames).base := by
  induction nested with
  | nil =>
    obtain rfl := List.mem_singleton.mp member
    exact Nat.le_refl _
  | cons nested inside linked ih =>
    rcases List.mem_cons.mp member with rfl | member
    · exact Nat.le_refl _
    · exact Nat.le_of_lt (Nat.lt_of_le_of_lt (ih member) inside)

theorem Nested.bases (nested : Nested frames) :
    (withProgram frames).Pairwise fun inner outer => outer.base < inner.base := by
  induction nested with
  | nil => exact List.pairwise_singleton _ _
  | cons nested inside linked ih =>
    exact List.pairwise_cons.mpr
      ⟨fun frame member => Nat.lt_of_le_of_lt (nested.base_le member) inside, ih⟩

theorem Nested.links (nested : Nested frames) :
    ∀ frame ∈ frames, ∃ base link home, frame = .call base link home ∧ link < base := by
  induction nested with
  | nil => exact nofun
  | cons nested inside linked ih => exact List.forall_mem_cons.mpr ⟨⟨_, _, _, rfl, linked⟩, ih⟩

end Frames

theorem Framed.inOrder {context : Context} (framed : context.Framed) : context.InOrder where
  bases := framed.nested.bases
  inside _ member := Nat.lt_of_le_of_lt (framed.nested.base_le member) framed.base
  links := framed.nested.links

section Steps

variable {context after : Context}

theorem Framed.popScope (framed : context.Framed)
    (several : (innermost context.calls).base < context.depth - 1) : context.popScope.Framed := by
  have size : 1 < context.scopes.size := by
    simp only [depth] at several
    omega
  have popped : context.popScope = { context with scopes := context.scopes.pop } := if_pos size
  rw [popped]
  exact ⟨framed.nested, by simpa [depth] using several⟩

/-- The frame that is left began inside the one that is returned to. -/
theorem Framed.popFrame (framed : context.Framed) : context.popFrame.Framed := by
  obtain ⟨scopes, calls⟩ := context
  obtain ⟨nested, base⟩ := framed
  cases nested with
  | nil => exact ⟨.nil, base⟩
  | cons nested inside linked =>
    refine ⟨nested, ?_⟩
    have above := Nat.lt_trans inside base
    simp only [innermost, depth] at base above
    simp only [Context.popFrame, depth, Array.size_shrink]
    exact Nat.lt_min.mpr ⟨Nat.lt_of_lt_of_le inside (Nat.le_max_left ..), above⟩

theorem Framed.change (framed : context.Framed) {change : Change}
    (applied : change.apply context = .ok after) : after.Framed := by
  cases change with
  | defineVariable => exact (framed.defineVariable_changes applied).framed framed
  | defineFunction => exact (framed.defineFunction_changes applied).framed framed
  | assignVariable => exact (assignVariable_changes applied).framed framed

theorem Framed.step (framed : context.Framed) (step : Step context after) : after.Framed := by
  cases step with
  | pushScope => exact framed.pushScope
  | popScope several => exact framed.popScope several
  | pushFrame declared => exact framed.pushFrame declared
  | popFrame => exact framed.popFrame
  | change change applied => exact framed.change applied

theorem Reached.framed (reached : context.Reached) : context.Framed := by
  induction reached with
  | refl => exact initial_framed
  | tail _ step ih => exact ih.step step

end Steps

/-- The frame contains the scope: no frame begins between its base and the scope. -/
def Contains (calls : List Frame) (scope : Nat) (frame : Frame) : Prop :=
  frame ∈ withProgram calls ∧ frame.base ≤ scope ∧
    ∀ other ∈ withProgram calls, other.base ≤ scope → other.base ≤ frame.base

/-- The frames that a name is looked for in, each with the index below which it is searched: the
innermost one with all its scopes, then the one that contains the static link, up to the link. -/
inductive Searched (context : Context) : Frame → Nat → Prop
  | current : Searched context (innermost context.calls) context.depth
  | outward {base link home top frame} : Searched context (.call base link home) top →
      Contains context.calls link frame → Searched context frame (link + 1)

/-- The scope is visible. -/
def Sees (context : Context) (index : Nat) : Prop :=
  ∃ frame top, context.Searched frame top ∧ frame.base ≤ index ∧ index < top

section Visible

variable {frames : List Frame} {context : Context}

/-- The stack of frames tells which one contains a scope. -/
theorem Nested.contains_iff (nested : Nested frames) {scope : Nat} {frame : Frame} :
    Contains frames scope frame ↔ frame = frameAt scope frames := by
  induction nested with
  | nil =>
    constructor
    · exact fun contains => List.mem_singleton.mp contains.1
    · rintro rfl
      refine ⟨List.mem_singleton_self _, Nat.zero_le _, fun other member _ => ?_⟩
      rw [List.mem_singleton.mp member]
      exact Nat.le_refl _
  | @cons base link outer nested inside linked ih =>
    by_cases begun : base ≤ scope
    · have own : frameAt scope (.call base link (frameAt link outer) :: outer) =
          .call base link (frameAt link outer) := if_pos begun
      rw [own]
      constructor
      · rintro ⟨member, -, greatest⟩
        rcases List.mem_cons.mp member with rfl | member
        · rfl
        · have above : base ≤ frame.base := greatest _ (List.mem_cons_self ..) begun
          have below := nested.base_le member
          omega
      · rintro rfl
        exact ⟨List.mem_cons_self .., begun, fun other member _ =>
          (Nested.cons nested inside linked).base_le member⟩
    · have passed : frameAt scope (.call base link (frameAt link outer) :: outer) =
          frameAt scope outer := if_neg begun
      rw [passed, ← ih]
      constructor
      · rintro ⟨member, below, greatest⟩
        rcases List.mem_cons.mp member with rfl | member
        · exact (begun below).elim
        · exact ⟨member, below, fun other member' => greatest other (List.mem_cons_of_mem _ member')⟩
      · rintro ⟨member, below, greatest⟩
        refine ⟨List.mem_cons_of_mem _ member, below, fun other member' low => ?_⟩
        rcases List.mem_cons.mp member' with rfl | member'
        · exact (begun low).elim
        · exact greatest other member' low

/-- The home that a frame knows is the frame that contains its static link. -/
theorem Nested.home (nested : Nested frames) {base link : Nat} {home : Frame}
    (member : .call base link home ∈ frames) : home = frameAt link frames := by
  induction nested with
  | nil => cases member
  | @cons base' link' outer nested inside linked ih =>
    have passed {scope : Nat} (below : scope < base') :
        frameAt scope (.call base' link' (frameAt link' outer) :: outer) = frameAt scope outer :=
      if_neg (Nat.not_le.mpr below)
    rcases List.mem_cons.mp member with same | member
    · cases same
      exact (passed linked).symm
    · obtain ⟨_, _, _, same, below⟩ := nested.links _ member
      cases same
      have outside : base ≤ (innermost outer).base :=
        nested.base_le (List.mem_append_left _ member)
      rw [passed (by omega)]
      exact ih member

/-- What is searched is a frame of the stack, and what it sees is visible. -/
theorem Framed.searched (framed : context.Framed) {frame : Frame} {top : Nat}
    (searched : context.Searched frame top) :
    frame ∈ withProgram context.calls ∧ frame.visible top ⊆ context.visibleScopes := by
  induction searched with
  | current =>
    refine ⟨?_, fun _ visible => visible⟩
    cases context.calls with
    | nil => exact List.mem_singleton_self _
    | cons => exact List.mem_cons_self ..
  | @outward base link home top frame _ contains ih =>
    obtain ⟨member, visible⟩ := ih
    have called : .call base link home ∈ context.calls := by simpa [withProgram] using member
    rw [framed.nested.contains_iff, ← framed.nested.home called] at contains
    subst contains
    refine ⟨?_, fun index inside => visible (List.mem_append_right _ inside)⟩
    rw [framed.nested.home called]
    exact (framed.nested.contains_iff.mpr rfl).1

theorem Searched.sees (framed : context.Framed) {frame : Frame} {top index : Nat}
    (searched : context.Searched frame top) (visible : index ∈ frame.visible top) :
    context.Sees index := by
  induction frame generalizing top with
  | program =>
    have bounds := mem_scopesBelow_iff.mp visible
    exact ⟨_, _, searched, bounds⟩
  | call base link home ih =>
    rcases List.mem_append.mp visible with own | outside
    · exact ⟨_, _, searched, mem_scopesBelow_iff.mp own⟩
    · have member := (framed.searched searched).1
      have called : .call base link home ∈ context.calls := by simpa [withProgram] using member
      have contains := framed.nested.contains_iff.mpr (framed.nested.home called)
      exact ih (searched.outward contains) outside

/-- The visible scopes are those that the search goes through. -/
theorem Framed.sees_iff (framed : context.Framed) {index : Nat} :
    context.Sees index ↔ index ∈ context.visibleScopes := by
  constructor
  · rintro ⟨frame, top, searched, above, below⟩
    refine (framed.searched searched).2 ?_
    have own : index ∈ scopesBelow frame.base top := mem_scopesBelow_iff.mpr ⟨above, below⟩
    cases frame with
    | program => exact own
    | call => exact List.mem_append_left _ own
  · exact fun visible => Searched.sees framed .current visible

theorem scopesBelow_decreasing (base top : Nat) : (scopesBelow base top).Pairwise (· > ·) := by
  induction top with
  | zero => exact .nil
  | succ top ih =>
    unfold scopesBelow
    split
    · exact .nil
    · exact List.pairwise_cons.mpr ⟨fun _ member => mem_scopesBelow member, ih⟩

/-- Further out in the static chain is further down in the stack of scopes. -/
theorem visible_decreasing {frame : Frame} (rooted : frame.Rooted) {top : Nat} :
    (frame.visible top).Pairwise (· > ·) := by
  induction frame generalizing top with
  | program => exact scopesBelow_decreasing 0 top
  | call base link home ih =>
    obtain ⟨linked, homed, rest⟩ := rooted
    refine List.pairwise_append.mpr ⟨scopesBelow_decreasing base top, ih rest, ?_⟩
    intro inner own outer outside
    have above := (mem_scopesBelow_iff.mp own).1
    have below := Frame.mem_visible rest (Nat.le_succ_of_le homed) outside
    omega

theorem Framed.visibleScopes_decreasing (framed : context.Framed) :
    context.visibleScopes.Pairwise (· > ·) := by
  rw [← framed.seen_innermost, seen]
  exact visible_decreasing (frameAt_rooted framed.nested.rooted _)

end Visible

/-- In a decreasing list the first number that passes a test is the greatest one. -/
theorem find?_eq_some_iff_greatest {numbers : List Nat} (decreasing : numbers.Pairwise (· > ·))
    {test : Nat → Bool} {number : Nat} : numbers.find? test = some number ↔
      IsGreatest {n | n ∈ numbers ∧ test n = true} number := by
  rw [List.find?_eq_some_iff_append]
  constructor
  · rintro ⟨passes, front, back, rfl, failed⟩
    refine ⟨⟨List.mem_append_right _ (List.mem_cons_self ..), passes⟩, fun n ⟨member, passes'⟩ => ?_⟩
    rcases List.mem_append.mp member with before | member
    · have failed := failed n before
      rw [passes'] at failed
      cases failed
    · rcases List.mem_cons.mp member with rfl | behind
      · exact Nat.le_refl _
      · have below := (List.pairwise_append.mp decreasing).2.1
        exact Nat.le_of_lt ((List.pairwise_cons.mp below).1 n behind)
  · rintro ⟨⟨member, passes⟩, greatest⟩
    obtain ⟨front, back, rfl⟩ := List.append_of_mem member
    refine ⟨passes, front, back, rfl, fun n before => ?_⟩
    have above := (List.pairwise_append.mp decreasing).2.2 n before number (List.mem_cons_self ..)
    cases passes' : test n with
    | false => rfl
    | true =>
      have least : n ≤ number := greatest ⟨List.mem_append_left _ before, passes'⟩
      omega

/-- The scopes from `base` up to, but not including, the last argument, from the greatest index down.
An index at which there is no scope is an error. -/
def scanScopes (scopes : Array Scope) (test : Scope → Bool) (base : Nat) :
    Nat → Except Nat (Option Nat)
  | 0 => .ok none
  | top + 1 =>
    if top < base then .ok none
    else match scopes[top]? with
      | none => .error top
      | some scope => if test scope then .ok (some top) else scanScopes scopes test base top

/-- The search as a loop over the stack of frames, in which each frame that begins above the static link
is passed by. -/
def scanFrames (scopes : Array Scope) (test : Scope → Bool) :
    List Frame → Nat → Except Nat (Option Nat)
  | [], top | .program :: _, top => scanScopes scopes test 0 top
  | .call base link _ :: outer, top =>
    if base < top then
      match scanScopes scopes test base top with
      | .ok none => scanFrames scopes test outer (link + 1)
      | found => found
    else scanFrames scopes test outer top

def scan (context : Context) (test : Scope → Bool) : Except Nat (Option Nat) :=
  scanFrames context.scopes test context.calls context.depth

section Scan

variable {scopes : Array Scope} {test : Scope → Bool}

theorem scanScopes_eq {base top : Nat} (inside : top ≤ scopes.size) :
    scanScopes scopes test base top = .ok (searchScopes scopes test base top) := by
  induction top with
  | zero => rfl
  | succ top ih =>
    unfold scanScopes searchScopes
    rw [Array.getElem?_eq_getElem inside]
    simp only [Option.any_some, ih (Nat.le_of_succ_le inside)]
    repeat' split
    all_goals rfl

/-- Where the frames are nested, the loop follows the homes. -/
theorem scanFrames_eq {frames : List Frame} (nested : Nested frames) {scope : Nat}
    (inside : scope < scopes.size) : scanFrames scopes test frames (scope + 1) =
      .ok (searchFrom scopes test (frameAt scope frames) (scope + 1)) := by
  induction nested generalizing scope with
  | nil => exact scanScopes_eq inside
  | @cons base link outer nested _ linked ih =>
    unfold scanFrames
    by_cases begun : base ≤ scope
    · have own : frameAt scope (.call base link (frameAt link outer) :: outer) =
          .call base link (frameAt link outer) := if_pos begun
      rw [if_pos (Nat.lt_succ_of_le begun), scanScopes_eq inside, own, searchFrom]
      cases searchScopes scopes test base (scope + 1) with
      | some index => rfl
      | none => exact ih (by omega)
    · have passed : frameAt scope (.call base link (frameAt link outer) :: outer) =
          frameAt scope outer := if_neg begun
      rw [if_neg (by omega), passed]
      exact ih inside

theorem Framed.scan_eq {context : Context} (framed : context.Framed) (test : Scope → Bool) :
    context.scan test = .ok (context.findScope test) := by
  have base := framed.base
  have size : context.depth - 1 + 1 = context.depth := by omega
  have top : frameAt (context.depth - 1) context.calls = innermost context.calls :=
    frameAt_innermost (by omega)
  have inside : context.depth - 1 < context.scopes.size := Nat.sub_one_lt_of_lt base
  have loop := @scanFrames_eq context.scopes test context.calls framed.nested _ inside
  rwa [size, top] at loop

end Scan

/-- The scope at the index passes the test. -/
def Passes (context : Context) (test : Scope → Bool) (index : Nat) : Prop :=
  ∃ scope, context.scopes[index]? = some scope ∧ test scope = true

/-- Why a change cannot be made: the innermost scope has such a variable or function already, or no
visible scope has the variable. -/
def Change.Fails (context : Context) : Change → Prop
  | .defineVariable name _ => context.Passes (·.contains name) (context.depth - 1)
  | .defineFunction decl =>
    context.Passes (fun scope => (scope.function? decl.id).isSome) (context.depth - 1)
  | .assignVariable name _ => ∀ index, context.Sees index → ¬ context.Passes (·.contains name) index

section Found

variable {context : Context} {test : Scope → Bool}

theorem passes_iff {index : Nat} :
    context.Passes test index ↔ (context.scopes[index]?).any test = true := by
  rw [Option.any_eq_true]
  rfl

theorem Framed.findScope_eq_some (framed : context.Framed) {index : Nat} :
    context.findScope test = some index ↔
      IsGreatest {i | context.Sees i ∧ context.Passes test i} index := by
  rw [findScope_eq, find?_eq_some_iff_greatest framed.visibleScopes_decreasing]
  simp only [framed.sees_iff, passes_iff]

theorem Framed.findScope_eq_none (framed : context.Framed) :
    context.findScope test = none ↔ ∀ index, context.Sees index → ¬ context.Passes test index := by
  rw [findScope_eq, List.find?_eq_none]
  simp only [framed.sees_iff, passes_iff]

theorem passes_innermost : context.Passes test (context.depth - 1) ↔
    (context.scopes.back?).any test = true := by
  rw [passes_iff, Array.back?_eq_getElem?]
  rfl

theorem Framed.fails_iff (framed : context.Framed) (change : Change) :
    (∃ kind, change.apply context = .error kind) ↔ change.Fails context := by
  cases change with
  | defineVariable name value =>
    change (∃ kind, context.defineVariable name value = .error kind) ↔ _
    rw [Change.Fails, passes_innermost, defineVariable_eq]
    split <;> simp_all
  | defineFunction decl =>
    change (∃ kind, context.defineFunction decl = .error kind) ↔ _
    rw [Change.Fails, passes_innermost, defineFunction_eq]
    split <;> simp_all
  | assignVariable name value =>
    change (∃ kind, context.assignVariable name value = .error kind) ↔ _
    rw [Change.Fails, ← framed.findScope_eq_none, assignVariable_eq]
    split <;> simp_all

end Found

/-- In each context that a program can come to the frames are in order. The search for a scope, as a loop
over the stack of frames too, stays inside the scopes then, and it finds the greatest index of a visible
scope that passes the test, or nothing if none does. A declaration or assignment fails just if its name
or number is taken or no visible scope has the variable, and it leaves the machine as it was. -/
theorem lookup_finds_innermost_visible {context : Context} (reached : context.Reached) :
    context.InOrder ∧
    (∀ test, context.scan test = .ok (context.findScope test) ∧
      (∀ index, context.findScope test = some index ↔
        IsGreatest {i | context.Sees i ∧ context.Passes test i} index) ∧
      (context.findScope test = none ↔
        ∀ index, context.Sees index → ¬ context.Passes test index)) ∧
    ∀ change : Change, ((∃ kind, change.apply context = .error kind) ↔ change.Fails context) ∧
      ∀ (machine after : Machine) span e, machine.context = context →
        Run.change span change.action machine = .failed e after → after = machine := by
  have framed := reached.framed
  refine ⟨framed.inOrder, fun test => ⟨framed.scan_eq test, fun index => framed.findScope_eq_some,
    framed.findScope_eq_none⟩, fun change => ⟨framed.fails_iff change, ?_⟩⟩
  intro machine after span e _ failed
  rw [Run.change_eq change.action_atomic] at failed
  split at failed
  · cases failed
  · cases failed
    rfl

/-- The second call was made from the first one, but its function was declared at the top. -/
def siblingCalls : Context :=
  ⟨#[{ values := [("x", .int 1)] }, { values := [("x", .int 2)] }, {}],
    [.call 2 0 .program, .call 1 0 .program]⟩

/-- The variable of the caller is passed by, and a function that is not declared is not found. -/
theorem sibling_calls_see_the_top : siblingCalls.Reached ∧ siblingCalls.InOrder ∧
    siblingCalls.scan (·.contains "x") = .ok (some 0) ∧
    IsGreatest {i | siblingCalls.Sees i ∧ siblingCalls.Passes (·.contains "x") i} 0 ∧
    ∀ index, siblingCalls.Sees index → ¬ siblingCalls.Passes (·.contains "y") index := by
  have reached : siblingCalls.Reached := by
    have defined : Reached ⟨#[{ values := [("x", .int 1)] }], []⟩ :=
      .single (.change (.defineVariable "x" (.int 1)) rfl)
    have called : Reached ⟨#[{ values := [("x", .int 1)] }, {}], [.call 1 0 .program]⟩ :=
      .tail defined (.pushFrame Nat.one_pos)
    have shadowed : Reached
        ⟨#[{ values := [("x", .int 1)] }, { values := [("x", .int 2)] }], [.call 1 0 .program]⟩ :=
      .tail called (.change (.defineVariable "x" (.int 2)) rfl)
    exact .tail shadowed (.pushFrame Nat.two_pos)
  obtain ⟨inOrder, found, -⟩ := lookup_finds_innermost_visible reached
  obtain ⟨loop, greatest, -⟩ := found (·.contains "x")
  have atTop : siblingCalls.findScope (·.contains "x") = some 0 := by decide
  have nowhere : siblingCalls.findScope (·.contains "y") = none := by decide
  exact ⟨reached, inOrder, atTop ▸ loop, (greatest 0).mp atTop, (found _).2.2.mp nowhere⟩

end Context

end Lu
