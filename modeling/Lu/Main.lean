import Lu.Command.Input
import Lu.Command.Reply

/-!
The command line. The arguments ask for a reply, which needs the source file and perhaps lines of
the standard input; here they are read, and the reply is written.
-/

namespace Lu.Main

/-- More than a run can use up. -/
def fuel : Nat := 1000000000000000

def readSource (path : String) : IO (Except FileError String) := do
  try
    return FileError.decode (← IO.FS.readBinFile path)
  catch
    | .noFileOrDirectory _ number text => return .error (.system text number.toNat)
    | .permissionDenied _ number text => return .error (.system text number.toNat)
    | .inappropriateType _ number text => return .error (.system text number.toNat)
    | e => return .error (.system (toString e) 0)

/-- Writes what a reply says beyond the output that is shown already. -/
def write (shown : Nat) (reply : Reply) : IO UInt32 := do
  (← IO.getStdout).putStr (String.ofList (reply.output.toList.drop shown))
  (← IO.getStdout).flush
  (← IO.getStderr).putStr reply.errors
  return reply.exitCode.toUInt32

/-- Asks for lines one at a time. With one more the program prints at least what it has printed
without, so only the rest is shown. -/
partial def converse (reply : List String → Reply) (input : IO.FS.Stream) (lines : Array String)
    (shown : Nat) : IO UInt32 := do
  let current := reply lines.toList
  if current.wantsInput then
    (← IO.getStdout).putStr (String.ofList (current.output.toList.drop shown))
    (← IO.getStdout).flush
    let line ← input.getLine
    if line.isEmpty then write current.output.length current
    else
      let line := String.ofList (trimLineBreaks line.toList)
      converse reply input (lines.push line) current.output.length
  else write shown current

/-- Answers the arguments; gives the exit code. -/
def answer (args : List String) : IO UInt32 := do
  let invocation := Invocation.ofArgs args
  let file ← match invocation.path? with
    | some path => readSource path
    | none => pure (.error .notText)
  let reply := invocation.reply fuel (← (← IO.getStderr).isTty) file
  let input ← IO.getStdin
  if ← input.isTty then converse reply input #[] 0
  else
    let first := reply []
    if first.wantsInput then write 0 (reply (inputLines (← input.readBinToEnd)))
    else write 0 first

end Lu.Main

def main (args : List String) : IO UInt32 := Lu.Main.answer args
