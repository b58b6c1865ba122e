import Portugol.Text.Blank
import Portugol.Value

/-! # Values for variables

A declared type says which values a variable takes: those of the type, the undefined value, and whole numbers
where real ones are expected. A line of input becomes a value of a wanted type (`ofLine?`), or of the type that its text
has the form of (`infer`). Each of the two looks at the line by itself. -/
namespace Portugol.Value

/-- The value that a variable of a type takes for a value. -/
def conform? : DataType → Value → Option Value
  | _, .undefined => some .undefined
  | .integer, .integer n => some (.integer n)
  | .real, .integer n => some (.real (Integer.toReal n))
  | .real, .real x => some (.real x)
  | .boolean, .boolean b => some (.boolean b)
  | .text, .text s => some (.text s)
  | _, _ => none

def ofTruthWord? (word : String) : Option Value :=
  if word = truthWord true then some (.boolean true)
  else if word = truthWord false then some (.boolean false)
  else none

/-- A line without the quotes at its two ends. -/
def unquoted (line : String) : String := String.ofList (Text.strip (· = '"') line.toList)

/-- The value of a type that a line stands for. Blanks around it count in texts only. -/
def ofLine? (line : String) : DataType → Option Value
  | .integer => (Integer.read? (Text.trim line).toList).map .integer
  | .real => (Decimal.readReal (Text.trim line).toList).map .real
  | .boolean => ofTruthWord? (Text.trim line)
  | .text => some (.text (unquoted line))

/-- The value that a line stands for when no type is wanted: its text is tried as a whole number, as a real one if it
has a digit, and as the words for the truth values, and if it is none of these the line is a text. -/
def infer (line : String) : Value :=
  let text := Text.trim line
  let integer := (Integer.read? text.toList).map .integer
  let real := if text.toList.any Char.isDigit then (Decimal.readReal text.toList).map .real else none
  (integer.or real).getD <|
    if text = "verdadeiro" then .boolean true
    else if text = "falso" then .boolean false
    else .text (String.ofList (Text.strip (· = '"') line.toList))

end Portugol.Value
