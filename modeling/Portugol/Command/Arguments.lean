/-! # Arguments of the command line

The arguments are read from left to right, and the first one that is wrong decides the answer. A request for
help is answered if nothing after it is wrong. -/
namespace Portugol.Command

structure Arguments where
  tokens : Bool
  ast : Bool
  dot : Option String
  trace : Bool
  strictReads : Bool
  source : Option String
deriving DecidableEq

inductive Request where
  | run (arguments : Arguments)
  | help
  | refused (message : String)
deriving DecidableEq

namespace Arguments

def none : Arguments := ⟨false, false, .none, false, false, .none⟩

/-- Adds an argument that is no option; there is room for one. -/
def addSource (a : Arguments) (path : String) : Except String Arguments :=
  match a.source with
  | .none => .ok { a with source := some path }
  | some _ => .error ("Unrecognized argument: " ++ path ++ "\n")

/-- Adds the file for the graph, once. -/
def addDot (a : Arguments) (path : String) : Except String Arguments :=
  match a.dot with
  | .none => .ok { a with dot := some path }
  | some _ => .error ("Error parsing option '--dot' with value '" ++ path ++ "': duplicate values provided\n")

/-- Turns a switch on; one that is on stays on. -/
def addSwitch (a : Arguments) (option : String) : Except String Arguments :=
  if option = "--tokens" then .ok { a with tokens := true }
  else if option = "--ast" then .ok { a with ast := true }
  else if option = "--trace" then .ok { a with trace := true }
  else if option = "--strict-reads" then .ok { a with strictReads := true }
  else .error ("Unrecognized argument: " ++ option ++ "\n")

/-- Reads the arguments that are left, knowing whether the options have ended and whether help was asked for. -/
def readFrom (ended help : Bool) (a : Arguments) : List String → Request
  | [] => if help then .help else .run a
  | arg :: rest =>
    if ended || arg.toList.head? ≠ some '-' && arg ≠ "help" then
      match a.addSource arg with
      | .ok a => readFrom ended help a rest
      | .error message => .refused message
    else if arg = "--help" || arg = "help" then readFrom ended true a rest
    else if arg = "--" then readFrom true help a rest
    else if help then .refused "Trailing arguments are not allowed after \x60help\x60."
    else if arg = "--dot" then
      match rest with
      | [] => .refused "No value provided for option '--dot'.\n"
      | path :: rest =>
        match a.addDot path with
        | .ok a => readFrom ended help a rest
        | .error message => .refused message
    else
      match a.addSwitch arg with
      | .ok a => readFrom ended help a rest
      | .error message => .refused message

def read (args : List String) : Request := readFrom false false none args

end Arguments

def helpText : String :=
  "Usage: arara [--tokens] [--ast] [--dot <dot>] [--trace] [--strict-reads] [--] [<source_file>]\n\n" ++
  "Interpreter for the arara teaching language. Built with Rust.\n\n" ++
  "Positional Arguments:\n" ++
  "  source_file       source file\n\n" ++
  "Options:\n" ++
  "  --tokens          print every token before running\n" ++
  "  --ast             print the parsed program before running\n" ++
  "  --dot             write the parsed program as a Graphviz graph to this file\n" ++
  "  --trace           report each executed step on stderr\n" ++
  "  --strict-reads    reject \x60leia\x60 on undeclared variables\n" ++
  "  --help, help      display usage information\n\n"

def refusalText (message : String) : String := message ++ "\nRun arara --help for more information."

end Portugol.Command
