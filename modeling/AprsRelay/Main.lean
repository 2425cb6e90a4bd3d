import AprsRelay.Program.Run

/-!
# Command Line

The program at the command line. Frames are judged as they come in, so that a
listing can be followed while the frames are still being received.
-/

namespace AprsRelay

/-- Read a file. -/
def readFile (name : String) : IO (Except ReadFault Bytes) := do
  try
    return .ok (← IO.FS.readBinFile name).toList
  catch
    | .noFileOrDirectory .. => return .error .notFound
    | .inappropriateType .. => return .error .isDirectory
    | _ => return .error .other

/-- List one line of input. The answer is the relay as it is then, or the exit
    code if the line is no text. -/
def listLine (l : Listing) (relay : Relay) (input : Bytes) : IO (Except UInt32 Relay) := do
  match l.ofLine relay input with
  | .error fault =>
    IO.eprintln ("Error: " ++ (Failure.unreadableFrames fault).message)
    return .error 1
  | .ok (lines, relay) =>
    lines.forM fun line => IO.println line
    (← IO.getStdout).flush
    return .ok relay

/-- List what comes in until the input ends. The bytes of the line that is
    still incomplete are held back. -/
partial def listStream (l : Listing) (relay : Relay) (input : IO.FS.Stream) (held : Bytes) :
    IO UInt32 := do
  let chunk ← input.read 4096
  if chunk.isEmpty then
    match ← listLine l relay held with
    | .error code => return code
    | .ok _ => return 0
  -- The last piece has no line end yet, so it waits for the next bytes.
  let pieces := Listing.inputLines (held ++ chunk.toList)
  let mut current := relay
  for piece in pieces.dropLast do
    match ← listLine l current piece with
    | .error code => return code
    | .ok relay => current := relay
  listStream l current input (pieces.getLast?.getD [])

/-- Print the outcome of a run whose frames are in a file. -/
def printOutcome (outcome : Outcome) : IO UInt32 := do
  outcome.printed.forM fun line => IO.println line
  match outcome.failure with
  | none => return 0
  | some failure =>
    IO.eprintln ("Error: " ++ failure.message)
    return 1

/-- Run the program with the given options. -/
def runProgram (options : Options) : IO UInt32 := do
  let started ← Program.start readFile options
  started.notes.forM fun note => IO.eprintln note
  match started.result with
  | .error failure => printOutcome ⟨[], [], some failure⟩
  | .ok ready =>
    match options.input with
    | none => listStream ready.listing ready.relay (← IO.getStdin) []
    | some name =>
      match ← readFile name with
      | .error fault => printOutcome ⟨[], [], some (.unreadableFrames fault)⟩
      | .ok input => printOutcome (.ofInput [] ready input)

end AprsRelay

/-- The program at the command line. -/
def main (args : List String) : IO UInt32 :=
  match AprsRelay.Options.parse args with
  | none => do
    IO.eprintln AprsRelay.Options.usage
    return 2
  | some options => AprsRelay.runProgram options
