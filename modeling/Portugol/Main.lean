import Portugol.Command.Session

/-! # The command

The outer layer of the command: it reads arguments, files and input, has the requests answered, and writes what comes
of them. Input is read as it is asked for: a source or a line of the prompt whose input does not suffice is run again
with more of it, and only what is new is shown. -/
namespace Portugol.Command

/-- More iterations than any loop makes. -/
def iterations : Nat := Nat.pow 2 62

def numbered (code : UInt32) (details : String) : String := details ++ s!" (os error {code})"

def reasonOf : IO.Error → String
  | .noFileOrDirectory _ code details | .interrupted _ code details => numbered code details
  | .alreadyExists _ code details | .inappropriateType _ code details | .invalidArgument _ code details
  | .noSuchThing _ code details | .permissionDenied _ code details | .resourceExhausted _ code details =>
    numbered code details
  | .otherError code details | .resourceBusy code details | .resourceVanished code details
  | .hardwareFault code details | .unsupportedOperation code details => numbered code details
  | e => toString e

def openFile (path : String) : IO Opened := do
  match ← (IO.FS.Handle.mk path .read).toBaseIO with
  | .error e => return .missing (reasonOf e)
  | .ok file =>
    match ← file.readBinToEnd.toBaseIO with
    | .error e => return .unreadable (reasonOf e)
    | .ok bytes => return .contents bytes.toList

partial def readAll (input : IO.FS.Stream) (before : List (List UInt8)) : IO (List UInt8) := do
  let bytes ← input.read 65536
  if bytes.isEmpty then return before.reverse.flatten else readAll input (bytes.toList :: before)

/-- How many bytes of output and how many reports were shown. -/
structure Shown where
  written : Nat
  reported : Nat

abbrev Screen := IO.Ref Shown

namespace Screen

/-- Shows what was written and reported beyond what has been shown. -/
def display (screen : Screen) (output : Array UInt8) (errors : List String) : IO Unit := do
  let shown ← screen.get
  let stdout ← IO.getStdout
  stdout.write ⟨output.extract shown.written output.size⟩
  stdout.flush
  for line in errors.drop shown.reported do IO.eprintln line
  screen.set ⟨output.size, errors.length⟩

def follow (screen : Screen) (s : Session) : IO Unit :=
  screen.display s.machine.output.written s.machine.log.toList

def conclude (screen : Screen) (e : Ending) : IO UInt32 := do
  let some report := Report.ofEnding? e | return 1
  screen.display report.output report.errors
  return report.code.toUInt32

end Screen

def RoundEnding.ending : RoundEnding → Ending
  | .last e | .entered e => e

/-- Writes the graph that a run leaves, and tells why it cannot be written. -/
def writeGraph (a : Arguments) (e : Ending) : IO (Option String) := do
  match a.dot, e with
  | some path, .done ⟨_, some text⟩ | some path, .failed _ ⟨_, some text⟩ =>
    match ← (IO.FS.writeFile path text).toBaseIO with
    | .ok () => return none
    | .error e => return some (reasonOf e)
  | _, _ => return none

/-- Runs on the input that is given, and again with more of it as long as it does not suffice and there is more; where
the graph cannot be written, it is refused. -/
partial def converse (a : Arguments) (screen : Screen) (more : IO (List UInt8))
    (run : Option String → List UInt8 → RoundEnding) (given : List UInt8) : IO RoundEnding := do
  let written := run none given
  let refusal ← writeGraph a written.ending
  let ended := if refusal.isSome then run refusal given else written
  match ended.ending with
  | .failed (.stopped (.inputExhausted ..)) s =>
    screen.follow s
    let bytes ← more
    if bytes.isEmpty then return ended else converse a screen more run (given ++ bytes)
  | _ => return ended

def typedLine : IO (List UInt8) := do return (← (← IO.getStdin).getLine).toUTF8.toList

def typedRound (a : Arguments) (screen : Screen) (s : Session) : IO RoundEnding := do
  screen.follow s
  let run (refusal : Option String) (given : List UInt8) : RoundEnding :=
    { s with graph := none, machine := { s.machine with input := given } }.round a refusal iterations
  let ended ← converse a screen typedLine run (← typedLine)
  if let .entered e := ended then
    if let some s := e.resumed? then screen.follow s
  return ended

def serve (a : Arguments) : IO UInt32 := do
  let screen : Screen ← IO.mkRef ⟨0, 0⟩
  let input ← IO.getStdin
  let typed ← input.isTty
  match a.source with
  | some path =>
    let opened ← openFile path
    let more := if typed then typedLine else readAll input []
    let run (refusal : Option String) (given : List UInt8) : RoundEnding :=
      .last (runFile a refusal iterations path opened given)
    screen.conclude (← converse a screen more run []).ending
  | none =>
    if typed then
      screen.conclude (← Session.rounds (typedRound a screen) iterations (.opening []))
    else
      let run (refusal : Option String) (given : List UInt8) : RoundEnding :=
        .last (runPrompt a refusal iterations given)
      screen.conclude (← converse a screen (pure []) run (← readAll input [])).ending

end Portugol.Command

def main (args : List String) : IO UInt32 := do
  match Portugol.Command.Arguments.read args with
  | .run a => Portugol.Command.serve a
  | .help =>
    IO.print Portugol.Command.helpText
    return 0
  | .refused message =>
    IO.eprintln (Portugol.Command.refusalText message)
    return 1
