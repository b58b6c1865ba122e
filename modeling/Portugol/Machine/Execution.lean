import Portugol.Machine.Evaluation
import Portugol.Machine.Storing
import Portugol.Syntax.Statement

/-! # Running statements

A statement takes a machine to a machine, and either finishes or fails. A block runs in a frame of its own and
leaves it however it ends. Each loop is given the number of iterations that it may make; a run in which a loop
has need of more is unfinished, and every other run is the same with any greater number. -/
namespace Portugol

/-- Whether executed steps are reported, and whether reading into an unknown name is an error. -/
structure Options where
  trace : Bool
  strictReads : Bool

/-- A program at work: its variables, the input that it has not read, its output, and the report of its steps. -/
structure Machine where
  scopes : Scopes
  input : List UInt8
  output : Output
  log : Array String

inductive Outcome where
  | finished (m : Machine)
  | failed (e : RuntimeError) (m : Machine)
  | unfinished

def Outcome.map (f : Machine → Machine) : Outcome → Outcome
  | .finished m => .finished (f m)
  | .failed e m => .failed e (f m)
  | .unfinished => .unfinished

namespace Machine

def start (input : List UInt8) (room : Option Nat) : Machine := ⟨.empty, input, ⟨#[], room⟩, #[]⟩

def push (m : Machine) : Machine := { m with scopes := m.scopes.push }
def pop (m : Machine) : Machine := { m with scopes := m.scopes.pop }

def report (o : Options) (step : String) (m : Machine) : Machine :=
  if o.trace then { m with log := m.log.push ("[arara] " ++ step) } else m

def store (x : String) (v : Value) (m : Machine) : Machine := { m with scopes := m.scopes.assign x v }

def declare (x : String) (v : Value) (type : Option DataType) (m : Machine) : Machine :=
  { m with scopes := m.scopes.declare x ⟨v, type⟩ }

def print : List String → Machine → Outcome
  | [], m => .finished m
  | text :: rest, m =>
    match m.output.write text with
    | (output, none) => print rest { m with output := output }
    | (output, some fault) => .failed (.stream fault) { m with output := output }

end Machine

namespace Statement

/-- The value to be stored in a variable; one without a declared type takes any. -/
def stored (type : Option DataType) (v : Value) (p : Position) : Except RuntimeError Value :=
  match type with
  | none => .ok v
  | some type =>
    match Value.conform? type v with
    | some v => .ok v
    | none => .error (.type (.store v.type? type) p)

def initial (scopes : Scopes) (type : Option DataType) (p : Position) : Option Expr → Except RuntimeError Value
  | none => .ok .undefined
  | some e =>
    match e.eval scopes with
    | .error e => .error e
    | .ok v => stored type v p

def declare (o : Options) (x : String) (type : Option DataType) (init : Option Expr) (p : Position)
    (m : Machine) : Outcome :=
  if m.scopes.isLocal x then .failed (.redeclaration x p) m
  else
    match initial m.scopes type p init with
    | .error e => .failed e m
    | .ok v => .finished ((m.report o ("declaração: " ++ x ++ " = " ++ v.render)).declare x v type)

def assign (o : Options) (x : String) (value : Expr) (p : Position) (m : Machine) : Outcome :=
  match value.eval m.scopes with
  | .error e => .failed e m
  | .ok v =>
    match m.scopes.get? x with
    | none => .failed (.undefinedVariable x p) m
    | some binding =>
      match stored binding.declared v p with
      | .error e => .failed e m
      | .ok v => .finished ((m.report o ("atribuição: " ++ x ++ " = " ++ v.render)).store x v)

/-- The type that a bound variable wants from input: the declared one, or else that of its value. -/
def wanted (binding : Binding) : Option DataType := binding.declared <|> binding.value.type?

/-- Puts a line of input into a variable. An unknown variable is declared, unless reads are strict. -/
def receive (o : Options) (x : String) (p : Position) (line : String) (m : Machine) : Outcome :=
  let step (v : Value) := m.report o ("leitura: " ++ x ++ " = " ++ v.render)
  match m.scopes.get? x with
  | none =>
    if o.strictReads then .failed (.undefinedVariable x p) m
    else .finished ((step (Value.infer line)).declare x (Value.infer line) none)
  | some binding =>
    match wanted binding with
    | none => .finished ((step (Value.infer line)).store x (Value.infer line))
    | some type =>
      match Value.ofLine? line type with
      | some v => .finished ((step v).store x v)
      | none => .failed (.type (.read line type) p) m

/-- Reads a line into a variable; the line is used up also if it cannot be stored. -/
def input (o : Options) (x : String) (p : Position) (m : Machine) : Outcome :=
  match Input.nextLine m.input with
  | (none, _) => .failed (.inputExhausted x p) m
  | (some (.error fault), rest) => .failed (.stream fault) { m with input := rest }
  | (some (.ok line), rest) => receive o x p line { m with input := rest }

def values (scopes : Scopes) : List Expr → Except RuntimeError (List Value)
  | [] => .ok []
  | e :: rest =>
    match e.eval scopes with
    | .error e => .error e
    | .ok v => (values scopes rest).map (v :: ·)

/-- Writes values and a line feed, after all of them are known. -/
def output (o : Options) (exprs : List Expr) (m : Machine) : Outcome :=
  match values m.scopes exprs with
  | .error e => .failed e m
  | .ok vs =>
    match m.print (vs.map Value.render ++ ["\n"]) with
    | .finished m => .finished (m.report o ("escrita: " ++ toString vs.length ++ " valor(es)"))
    | other => other

/-- Repeats a body as long as a test holds, at most so many times. -/
def loop (test : Machine → Except RuntimeError Bool) (body : Machine → Outcome) : Nat → Machine → Outcome
  | 0, _ => .unfinished
  | fuel + 1, m =>
    match test m with
    | .error e => .failed e m
    | .ok false => .finished m
    | .ok true =>
      match body m with
      | .finished m => loop test body fuel m
      | .failed e m => .failed e m
      | .unfinished => .unfinished

mutual

def exec (o : Options) (fuel : Nat) : Statement → Machine → Outcome
  | .declaration x type init p, m => declare o x type init p m
  | .assignment x value p, m => assign o x value p m
  | .read x p, m => input o x p m
  | .write exprs _, m => output o exprs m
  | .conditional condition thenBlock elseBlock _, m =>
    match condition.test m.scopes with
    | .error e => .failed e m
    | .ok true => execBlock o fuel thenBlock m
    | .ok false => execElse o fuel elseBlock m
  | .repetition condition body _, m =>
    loop (fun m => condition.test m.scopes)
      (fun m => execBlock o fuel body (m.report o ("iteração em " ++ body.position.describe))) fuel m
  | .block inner, m => execBlock o fuel inner m

/-- Runs a block in a frame of its own. -/
def execBlock (o : Options) (fuel : Nat) : Block → Machine → Outcome
  | ⟨statements, _⟩, m => (execAll o fuel statements m.push).map Machine.pop

def execElse (o : Options) (fuel : Nat) : Option Block → Machine → Outcome
  | none, m => .finished m
  | some b, m => execBlock o fuel b m

def execAll (o : Options) (fuel : Nat) : List Statement → Machine → Outcome
  | [], m => .finished m
  | s :: rest, m =>
    match exec o fuel s m with
    | .finished m => execAll o fuel rest m
    | .failed e m => .failed e m
    | .unfinished => .unfinished

end

end Statement

/-- Runs a program among the globals, which stay for the next one. -/
def Program.run (o : Options) (fuel : Nat) (program : Program) (m : Machine) : Outcome :=
  Statement.execAll o fuel program.statements m

end Portugol
