/-! # Reserved words

Every reserved word has one spelling, and the word for "else" a second one without its tilde. `ofWord?`
recognises the spelling of each word (`ofWord?_word`). -/
namespace Portugol

inductive Keyword where
  | var | inteiro | real | booleano | texto | leia | escreva | se | senao | enquanto | verdadeiro | falso
deriving DecidableEq, Repr

namespace Keyword

def word : Keyword → String
  | .var => "var"
  | .inteiro => "inteiro"
  | .real => "real"
  | .booleano => "booleano"
  | .texto => "texto"
  | .leia => "leia"
  | .escreva => "escreva"
  | .se => "se"
  | .senao => "senao"
  | .enquanto => "enquanto"
  | .verdadeiro => "verdadeiro"
  | .falso => "falso"

/-- The reserved word that a word is, upper and lower case kept apart. -/
def ofWord? (w : String) : Option Keyword :=
  if w = "senão" then some .senao
  else [var, inteiro, real, booleano, texto, leia, escreva, se, senao, enquanto, verdadeiro, falso].find?
    fun k => k.word = w

@[simp] theorem ofWord?_word (k : Keyword) : ofWord? k.word = some k := by cases k <;> rfl

def startsStatement : Keyword → Bool
  | .var | .inteiro | .real | .booleano | .texto | .leia | .escreva | .se | .enquanto => true
  | .senao | .verdadeiro | .falso => false

end Keyword
end Portugol
