/-! # Input and output

Input is a list of bytes that is read line by line. A line reaches up to and with the next line feed, or to
the end; reading it uses up exactly its bytes, also when they are no text. Output takes text after text; an
output with limited room takes what fits of the text that is too long, and nothing after it. -/
namespace Portugol

inductive StreamFault where
  | malformedText
  | outputFull
deriving DecidableEq, Repr

def StreamFault.message : StreamFault → String
  | .malformedText => "stream did not contain valid UTF-8"
  | .outputFull => "failed to write whole buffer"

namespace Input

/-- The bytes up to and with the next line feed, and the bytes after them. -/
def cut : List UInt8 → List UInt8 × List UInt8
  | [] => ([], [])
  | b :: rest =>
    if b = 10 then ([b], rest)
    else
      let after := cut rest
      (b :: after.1, after.2)

theorem append_cut (input : List UInt8) : (cut input).1 ++ (cut input).2 = input := by
  induction input with
  | nil => rfl
  | cons b rest ih =>
    by_cases h : b = 10 <;> simp_all [cut]

/-- The text that bytes encode in UTF-8. -/
def decode (bytes : List UInt8) : Option String := String.fromUTF8? ⟨bytes.toArray⟩

/-- A line without the line feeds and carriage returns at its end. -/
def withoutEnd (line : String) : String :=
  String.ofList (line.toList.reverse.dropWhile fun c => c = '\n' || c = '\r').reverse

/-- The next line as it stands, if there is one, and the bytes after it. -/
def rawLine (input : List UInt8) : Option (Except StreamFault String) × List UInt8 :=
  match cut input with
  | ([], rest) => (none, rest)
  | (line, rest) =>
    match decode line with
    | some text => (some (.ok text), rest)
    | none => (some (.error .malformedText), rest)

/-- The next line without its end, if there is one, and the bytes after it. -/
def nextLine (input : List UInt8) : Option (Except StreamFault String) × List UInt8 :=
  let line := rawLine input
  (line.1.map fun text => text.map withoutEnd, line.2)

end Input

/-- What was written, and how many more bytes can be, if there is a limit. -/
structure Output where
  written : Array UInt8
  room : Option Nat
deriving DecidableEq

namespace Output

def bytes (text : String) : Array UInt8 := text.toUTF8.data

/-- Writes a text, and tells what was wrong if not all of it went in. -/
def write (o : Output) (text : String) : Output × Option StreamFault :=
  let new := bytes text
  match o.room with
  | none => ({ o with written := o.written ++ new }, none)
  | some room =>
    if new.size ≤ room then (⟨o.written ++ new, some (room - new.size)⟩, none)
    else (⟨o.written ++ new.take room, some 0⟩, some .outputFull)

end Output
end Portugol
