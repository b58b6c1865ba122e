import Portugol.Command.Arguments
import Portugol.Command.Folder
import Portugol.Grammar.Program
import Portugol.Machine.Execution
import Portugol.Syntax.Graph
import Portugol.Syntax.Outline

/-! # Running sources from the command line

The command runs one source from a file, or takes one after the other from a prompt. Source texts from the
prompt and the input of programs come from the same bytes: each line is taken by whichever asks for it next.
The globals stay from one source of the prompt to the next, also after an error. -/
namespace Portugol.Command

inductive Failure where
  | sourceMissing (path reason : String)
  | sourceUnreadable (reason : String)
  | promptUnreadable (fault : StreamFault)
  | notAProgram (errors : Nat)
  | graphRefused (path reason : String)
  | stopped (error : RuntimeError)

namespace Failure

def headline : Failure → String
  | .sourceMissing path _ => "Could not open source file " ++ path ++ "."
  | .sourceUnreadable _ => "Could not read file."
  | .promptUnreadable _ => "Error reading input."
  | .notAProgram errors => toString errors ++ " syntax error(s), nothing was run."
  | .graphRefused path _ => "Could not write " ++ path ++ "."
  | .stopped error => error.message

/-- What lies behind a failure, if it is not all told in the headline. -/
def cause? : Failure → Option String
  | .sourceMissing _ reason | .sourceUnreadable reason | .graphRefused _ reason => some reason
  | .promptUnreadable fault | .stopped (.stream fault) => some fault.message
  | _ => none

/-- A failure that the prompt goes on after: the headline alone. -/
def note (f : Failure) : String := "Error: " ++ f.headline

/-- A failure that ends the command: with its cause. -/
def report (f : Failure) : String :=
  f.note ++ (f.cause?.map fun cause => "\n\nCaused by:\n    " ++ cause).getD ""

end Failure

/-- A machine at work for the command, and the graph that was written last. -/
structure Session where
  machine : Machine
  graph : Option String

inductive Ending where
  | done (s : Session)
  | failed (f : Failure) (s : Session)
  | unfinished

/-- How a round of the prompt ends: it was the last one, or a source was entered. -/
inductive RoundEnding where
  | last (e : Ending)
  | entered (e : Ending)

namespace Session

def start (input : List UInt8) : Session := ⟨.start input none, none⟩

def say (text : String) (s : Session) : Session :=
  { s with machine := { s.machine with output := (s.machine.output.write text).1 } }

def opening (input : List UInt8) : Session := (start input).say "Running prompt...\n"

def note (line : String) (s : Session) : Session :=
  { s with machine := { s.machine with log := s.machine.log.push line } }

def listing (source : String) : String :=
  let t := tokenize source
  let line (category lexeme : String) (p : Position) : String :=
    "<" ++ category ++ ", " ++ lexeme ++ ", " ++ p.describe ++ ">\n"
  String.join (t.tokens.map fun t => line t.kind.category t.lexeme t.position) ++
    line (categoryOf none) "" t.stop

/-- Keeps the graph of a program, if one is wanted; `refusal` tells why it could not be written. -/
def keepGraph (a : Arguments) (refusal : Option String) (program : Program) (s : Session) : Except Failure Session :=
  match a.dot, refusal with
  | none, _ => .ok s
  | some path, some reason => .error (.graphRefused path reason)
  | some _, none => .ok { s with graph := some program.graph }

def enter (a : Arguments) (refusal : Option String) (fuel : Nat) (source : String) (s : Session) : Ending :=
  let s := if a.tokens then s.say (listing source) else s
  match Program.parse source with
  | .error errors => .failed (.notAProgram errors.length) (errors.foldl (fun s e => s.note e.message) s)
  | .ok program =>
    let s := if a.ast then s.say (program.outline ++ "\n") else s
    match s.keepGraph a refusal program with
    | .error f => .failed f s
    | .ok s =>
      match program.run ⟨a.trace, a.strictReads⟩ fuel s.machine with
      | .finished m => .done { s with machine := m }
      | .failed e m => .failed (.stopped e) { s with machine := m }
      | .unfinished => .unfinished

end Session

def Ending.resumed? : Ending → Option Session
  | .done s => some s
  | .failed f s => some (s.note f.note)
  | .unfinished => none

namespace Session

def round (a : Arguments) (refusal : Option String) (fuel : Nat) (s : Session) : RoundEnding :=
  match Input.rawLine s.machine.input with
  | (none, _) => .last (.done (s.say "Exiting...\n"))
  | (some (.error fault), rest) =>
    .last (.failed (.promptUnreadable fault) { s with machine := { s.machine with input := rest } })
  | (some (.ok line), rest) =>
    let s := { s with machine := { s.machine with input := rest } }
    if Text.trim line = "" then .last (.done (s.say "Exiting...\n")) else .entered (s.enter a refusal fuel line)

/-- Rounds of the prompt, at most so many, up to the last one. Each begins with a session that waits for a line; where
the line comes from is up to the round. -/
@[specialize] def rounds {m : Type → Type} [Monad m] (round : Session → m RoundEnding) : Nat → Session → m Ending
  | 0, _ => return .unfinished
  | count + 1, s => do
    match ← round (s.say "> ") with
    | .last e => return e
    | .entered e =>
      match e.resumed? with
      | some s => rounds round count s
      | none => return .unfinished

/-- Takes sources from the prompt, at most so many, until a blank one or the end of the input. -/
def prompt (a : Arguments) (refusal : Option String) (fuel count : Nat) (s : Session) : Ending :=
  Id.run (rounds (fun s => pure (s.round a refusal fuel)) count s)

end Session

structure Report where
  code : Nat
  output : Array UInt8
  errors : List String
  graph : Option String

namespace Report

/-- The report on a request that needs no run. -/
def ofAnswer (code : Nat) (output : String) (errors : List String) : Report :=
  ⟨code, Output.bytes output, errors, none⟩

def ofSession (code : Nat) (s : Session) : Report :=
  ⟨code, s.machine.output.written, s.machine.log.toList, s.graph⟩

def ofEnding? : Ending → Option Report
  | .done s => some (ofSession 0 s)
  | .failed f s => some (ofSession 1 (s.note f.report))
  | .unfinished => none

end Report

def runFile (a : Arguments) (refusal : Option String) (fuel : Nat) (path : String) (opened : Opened)
    (input : List UInt8) : Ending :=
  let s := Session.start input
  match opened with
  | .missing reason => .failed (.sourceMissing path reason) s
  | .unreadable reason => .failed (.sourceUnreadable reason) s
  | .contents bytes =>
    match Input.decode bytes with
    | some source => s.enter a refusal fuel source
    | none => .failed (.sourceUnreadable StreamFault.malformedText.message) s

/-- Runs a prompt; every source takes up a byte of input at least. -/
def runPrompt (a : Arguments) (refusal : Option String) (fuel : Nat) (input : List UInt8) : Ending :=
  Session.prompt a refusal fuel (input.length + 1) (.opening input)

/-- Answers a request in a folder, if the programs end; the graph is not yet written. -/
def answer? (fuel : Nat) (folder : Folder) (args : List String) (input : List UInt8) : Option Report :=
  match Arguments.read args with
  | .help => some (.ofAnswer 0 helpText [])
  | .refused message => some (.ofAnswer 1 "" [refusalText message])
  | .run a =>
    let refusal := a.dot.bind (Folder.refusal? folder)
    Report.ofEnding? <|
      match a.source with
      | some path => runFile a refusal fuel path (folder.read path) input
      | none => runPrompt a refusal fuel input

end Portugol.Command
