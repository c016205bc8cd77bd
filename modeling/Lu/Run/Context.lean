import Lu.Run.Error
import Lu.Tree.Basic

namespace Lu

/-- The variables and functions of one scope, the latest first. Functions are known by their
number. -/
structure Scope where
  values : List (String × Value) := []
  functions : List (Nat × FunctionDecl) := []
deriving Inhabited

namespace Scope

def get? (scope : Scope) (name : String) : Option Value := scope.values.lookup name

def contains (scope : Scope) (name : String) : Bool := (scope.get? name).isSome

def function? (scope : Scope) (id : Nat) : Option FunctionDecl := scope.functions.lookup id

/-- Gives a variable another value. -/
def set (scope : Scope) (name : String) (value : Value) : Scope :=
  { scope with values := scope.values.map fun binding =>
      if binding.1 == name then (binding.1, value) else binding }

end Scope

/-- The scopes of one activation, from the base on. A call knows the scope in which its function was
declared, and the frame that holds this scope. -/
inductive Frame where
  | program
  | call (base staticLink : Nat) (home : Frame)
deriving DecidableEq, Repr, Inhabited

/-- The index of the outermost scope of a frame. -/
def Frame.base : Frame → Nat
  | .program => 0
  | .call base _ _ => base

/-- The scopes of a running program, the outermost first, and the frames of the active calls, the
innermost first. What a function sees are its own scopes and those around its declaration, never
those of its caller. -/
structure Context where
  scopes : Array Scope
  calls : List Frame
deriving Inhabited

namespace Context

/-- The scope of the program alone. -/
def initial : Context := ⟨#[{}], []⟩

def depth (context : Context) : Nat := context.scopes.size

/-- The innermost frame of some. -/
def innermost : List Frame → Frame
  | frame :: _ => frame
  | [] => .program

@[inline] def pushScope (context : Context) : Context :=
  { context with scopes := context.scopes.push {} }

/-- Leaves the innermost scope. The outermost one stays. -/
@[inline] def popScope (context : Context) : Context :=
  if 1 < context.scopes.size then { context with scopes := context.scopes.pop } else context

/-- The innermost frame that begins at or before a scope. -/
def frameAt (scope : Nat) : List Frame → Frame
  | [] => .program
  | frame :: outer => if frame.base ≤ scope then frame else frameAt scope outer

/-- Enters a function that was declared in the given scope, with a scope for its parameters. -/
@[inline] def pushFrame (context : Context) (staticLink : Nat) : Context :=
  let frame := Frame.call context.depth staticLink (frameAt staticLink context.calls)
  { scopes := context.scopes.push {}, calls := frame :: context.calls }

/-- Leaves a function with all its scopes. The frame of the program stays. -/
@[inline] def popFrame (context : Context) : Context :=
  match context.calls with
  | frame :: outer => { scopes := context.scopes.shrink (max frame.base 1), calls := outer }
  | [] => context

/-- The greatest index from `base` up to, but not including, the last argument whose scope passes
the test. -/
def searchScopes (scopes : Array Scope) (test : Scope → Bool) (base : Nat) : Nat → Option Nat
  | 0 => none
  | top + 1 =>
    if top < base then none
    else if (scopes[top]?).any test then some top
    else searchScopes scopes test base top

/-- Searches the scopes of a frame below the given index, then outwards from the scope of its static
link. -/
def searchFrom (scopes : Array Scope) (test : Scope → Bool) : Frame → Nat → Option Nat
  | .program, top => searchScopes scopes test 0 top
  | .call base staticLink home, top =>
    match searchScopes scopes test base top with
    | some index => some index
    | none => searchFrom scopes test home (staticLink + 1)

/-- The innermost visible scope that passes the test. -/
def findScope (context : Context) (test : Scope → Bool) : Option Nat :=
  searchFrom context.scopes test (innermost context.calls) context.depth

/-- The value of the innermost visible variable of the name. -/
def getValue (context : Context) (name : String) : Except RuntimeErrorKind Value :=
  let found := (context.findScope (·.contains name)).bind fun index =>
    (context.scopes[index]?).bind (·.get? name)
  match found with
  | some value => .ok value
  | none => .error (.undefinedVariable name)

/-- A change of the context. Where it fails, it leaves a context behind as well. -/
abbrev Action := EStateM RuntimeErrorKind Context Unit

/-- What an action makes of a context, if it does not fail. -/
@[inline] def Action.result (action : Action) (context : Context) : Except RuntimeErrorKind Context :=
  match action context with
  | .ok _ after => .ok after
  | .error kind _ => .error kind

/-- Gives the innermost visible variable of the name another value. -/
@[inline] def setVariable (name : String) (value : Value) : Action := do
  let context ← get
  match context.findScope (·.contains name) with
  | some index => set { context with scopes := context.scopes.modify index (·.set name value) }
  | none => throw (.undefinedVariable name)

/-- Changes the innermost scope. -/
@[inline] def modifyInnermost (context : Context) (change : Scope → Scope) : Context :=
  { context with scopes := context.scopes.modify (context.scopes.size - 1) change }

/-- Binds a variable in the innermost scope, where its name must be new. -/
@[inline] def addVariable (name : String) (value : Value) : Action := do
  let context ← get
  if (context.scopes.back?).any (·.contains name) then throw (.duplicateDefinition name)
  else set (context.modifyInnermost fun scope =>
    { scope with values := (name, value) :: scope.values })

/-- Makes a function known in the innermost scope, where its number must be new. -/
@[inline] def addFunction (decl : FunctionDecl) : Action := do
  let context ← get
  if (context.scopes.back?).any fun scope => (scope.function? decl.id).isSome then
    throw (.duplicateDefinition decl.name)
  else set (context.modifyInnermost fun scope =>
    { scope with functions := (decl.id, decl) :: scope.functions })

@[inline] def assignVariable (context : Context) (name : String) (value : Value) :
    Except RuntimeErrorKind Context :=
  (setVariable name value).result context

@[inline] def defineVariable (context : Context) (name : String) (value : Value) :
    Except RuntimeErrorKind Context :=
  (addVariable name value).result context

@[inline] def defineFunction (context : Context) (decl : FunctionDecl) :
    Except RuntimeErrorKind Context :=
  (addFunction decl).result context

/-- The innermost visible function of the number, with the index of its scope. -/
def getFunction (context : Context) (id : Nat) (name : String) :
    Except RuntimeErrorKind (FunctionDecl × Nat) :=
  let found := (context.findScope fun scope => (scope.function? id).isSome).bind fun index =>
    ((context.scopes[index]?).bind (·.function? id)).map fun decl => (decl, index)
  match found with
  | some function => .ok function
  | none => .error (.undefinedFunction name)

end Context

end Lu
