/-
# Standard patterns

The patterns behind the named character parsers. Each is given by its tree, and
reading its text gives the same tree.
-/

import Descent.Pattern

namespace Descent.Pattern

/-- The tree of a letter from a to z in either case. -/
def Node.letter : Node :=
  .set { caseless := true } false [.range 'a'.toNat 'z'.toNat]

/-- The tree of a white-space character. -/
def Node.blank : Node :=
  .among [.family .blank false]

/-- A letter from a to z in either case. -/
def letter : Pattern where
  source := "[a-z]"
  flags := "i"
  root := .letter

/-- Any number of letters. -/
def letters : Pattern where
  source := "[a-z]*"
  flags := "i"
  root := .star .letter

/-- A digit from 0 to 9. -/
def digit : Pattern where
  source := "[0-9]"
  flags := ""
  root := .digit

/-- Any number of digits. -/
def digits : Pattern where
  source := "[0-9]*"
  flags := ""
  root := .star .digit

/-- White space. -/
def blanks : Pattern where
  source := "\\s+"
  flags := ""
  root := .plus .blank

/-- White space or nothing. -/
def optionalBlanks : Pattern where
  source := "\\s*"
  flags := ""
  root := .star .blank

theorem compile_letter :
    (compile "[a-z]" { caseless := true }).toOption = some letter := by
  decide +kernel

theorem compile_letters :
    (compile "[a-z]*" { caseless := true }).toOption = some letters := by
  decide +kernel

theorem compile_digit :
    (compile "[0-9]" {}).toOption = some digit := by
  decide +kernel

theorem compile_digits :
    (compile "[0-9]*" {}).toOption = some digits := by
  decide +kernel

theorem compile_blanks :
    (compile "\\s+" {}).toOption = some blanks := by
  decide +kernel

theorem compile_optionalBlanks :
    (compile "\\s*" {}).toOption = some optionalBlanks := by
  decide +kernel

end Descent.Pattern
