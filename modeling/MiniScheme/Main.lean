import MiniScheme.Batch
import MiniScheme.Console.Repl
import MiniScheme.Options

/-!
# The program

Reads files and lines, each when its turn comes, and writes what the pure functions say. Nothing is
decided here. That a file is about to be read is written to the errors, without the time and the
level that a log would put before it.
-/
namespace MiniScheme.Main

def write : Line → IO Unit
  | .output text => IO.println text
  | .error text => IO.eprintln text
  | .remark text => IO.eprint text

/-- A file as an input of the batch program. -/
def readInput (name : String) : IO Batch.Input := do
  IO.eprintln ("Loading " ++ name)
  try
    let bytes ← IO.FS.readBinFile name
    pure (.ofBytes name (some bytes))
  catch _ => pure (.ofBytes name none)

/-- Takes inputs one after another. No file is read before the inputs in front of it have been run,
and none once the program has ended. -/
def takeInputs (s : Session) (failed : Bool) : List (IO Batch.Input) → IO UInt32
  | [] => pure (if failed then 1 else 0)
  | fetch :: rest => do
    let (written, next) := Batch.takeInput s (← fetch)
    written.forM write
    match next with
    | some (s, wrong) => takeInputs s (failed || wrong) rest
    | none => pure 1

/-- Runs the batch program. -/
def batch (o : Options) : IO UInt32 :=
  takeInputs (.fresh o.maxDepth) false
    (o.files.map readInput ++ o.expressions.map fun text => pure (.expression text))

/-- Takes lines of standard input until its end or until one asks to leave. -/
partial def interact (input : IO.FS.Stream) (s : Repl.State) : IO Unit := do
  let line ← input.getLine
  if line.isEmpty then Repl.farewell.forM write
  else
    let (written, next) := Repl.takeLine s line.toList
    written.forM write
    match next with
    | some s => interact input s
    | none => pure ()

end MiniScheme.Main

def main (args : List String) : IO UInt32 := do
  match MiniScheme.Options.parse args with
  | .error fault =>
    IO.eprintln ("error: " ++ fault.message)
    pure 2
  | .ok o =>
    if o.interactive then
      MiniScheme.Repl.banner.forM MiniScheme.Main.write
      MiniScheme.Main.interact (← IO.getStdin) .fresh
      pure 0
    else MiniScheme.Main.batch o
