import Lu.Command.Options

namespace Lu

/-- What is done with a file. -/
inductive FileAction where
  | run
  | check
  | parse
  | lex
deriving DecidableEq, Repr, Inhabited

namespace FileAction

def all : List FileAction := [.run, .check, .parse, .lex]

def name : FileAction → String
  | .run => "run"
  | .check => "check"
  | .parse => "parse"
  | .lex => "lex"

def ofName? (name : String) : Option FileAction := all.find? (·.name == name)

end FileAction

/-- What the arguments of the command line ask for. -/
inductive Invocation where
  | usage
  | version
  | perform (action : FileAction) (path : String) (options : Options)
  | badOption (e : OptionError)
  | noPath (action : FileAction)
  | unknown (command : String)
deriving Repr, Inhabited

/-- Whether the last part of a path has the extension of source files, in letters of any case.
A name that is all extension has none. -/
def isSourcePath (path : String) : Bool :=
  let parts := (path.toList.splitOn '/').filter fun part => part ≠ [] ∧ part ≠ ['.']
  match (parts.getLast?.getD []).reverse.map Char.toLower with
  | 'u' :: 'l' :: '.' :: _ :: _ => true
  | _ => false

namespace Invocation

/-- Reads the arguments after the name of an action. Those that begin with two hyphens are
options; of the others the first is the path. -/
def ofFileArgs (action : FileAction) :
    List String → Option String → Options → Invocation
  | [], some path, options => .perform action path options
  | [], none, _ => .noPath action
  | arg :: rest, path?, options =>
    if "--".toList.isPrefixOf arg.toList then
      match options.apply arg with
      | .ok options => ofFileArgs action rest path? options
      | .error e => .badOption e
    else ofFileArgs action rest (path?.or (some arg)) options

/-- A path of a source file in place of a command means that it is to be run. -/
def ofArgs : List String → Invocation
  | [] => .usage
  | command :: rest =>
    match FileAction.ofName? command with
    | some action => ofFileArgs action rest none {}
    | none =>
      if ["help", "--help", "-h"].contains command then .usage
      else if ["version", "--version", "-v"].contains command then .version
      else if isSourcePath command then .perform .run command {}
      else .unknown command

/-- The file that is to be read. -/
def path? : Invocation → Option String
  | .perform _ path _ => some path
  | _ => none

end Invocation

end Lu
