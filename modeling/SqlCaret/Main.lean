import SqlCaret.Command.Program

/-!
# Main

The program on the files and variables of the machine it runs on.  What it does is
`Program.run`; here words, variables and files are fetched, and output and reports are put out.
-/

namespace SqlCaret.Main

/-- Why the machine would not read a file. -/
def faultOf : IO.Error → FileFault
  | .noFileOrDirectory .. => .notFound
  | .resourceExhausted .. => .other "out of resources"
  | e => .other (toString e)

/-- The files of the machine. -/
def store : FileStore IO where
  read path := do
    try
      let bytes ← IO.FS.readBinFile (String.ofList path)
      return .ok bytes.toList
    catch e => return .error (faultOf e)

/-- The names that may be variables in a word: the name behind each dollar, and what stands
between braces there. -/
def variableNames : List Char → List (List Char)
  | [] => []
  | '$' :: '\x7b' :: cs =>
    let inside := cs.takeWhile (· != '\x7d')
    inside :: ((Path.splitDefault inside).map (·.1)).getD [] :: variableNames cs
  | '$' :: cs => cs.takeWhile Path.isNameChar :: variableNames cs
  | _ :: cs => variableNames cs

/-- The variables of the machine that the words can refer to. -/
def environment (words : List String) : IO Environment := do
  let names := words.flatMap fun w => variableNames w.toList
  let found ← names.filterMapM fun n => do
    return (← IO.getEnv (String.ofList n)).map fun v => (n, v.toList)
  let home ← IO.getEnv "HOME"
  return ⟨home.map String.toList, fun n => found.lookup n⟩

end SqlCaret.Main

/-- Runs the program on the words after its name. -/
def main (words : List String) : IO UInt32 := do
  let env ← SqlCaret.Main.environment words
  let r ← SqlCaret.Program.run SqlCaret.Main.store env words
  IO.print (String.ofList r.output)
  IO.eprint r.report
  return r.status.toUInt32
