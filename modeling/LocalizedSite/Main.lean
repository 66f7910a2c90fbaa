import LocalizedSite.Command.Message

/-!
# The program

The program runs one command on the files of a site. The arguments are those of the command line, and
one line of standard input is the message that describes the files. The answering message goes to
standard output.
-/

open LocalizedSite

/-- Run the command that the arguments name. -/
def main (arguments : List String) : IO UInt32 := do
  let message ← (← IO.getStdin).getLine
  let (printed, tree) := Command.answer (arguments.map String.toList) message.toList
  (← IO.getStdout).putStrLn (String.ofList (Json.dump (Command.runMessage printed tree)))
  return UInt32.ofNat printed.status
