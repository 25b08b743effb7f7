import Mathlib.Data.List.DropRight
import Mathlib.Logic.Function.Basic

/-!
# Shell lines that assign literals

How a POSIX shell reads a text of which every line is blank, a comment or one assignment of a
literal (`readText`), and the values its variables have afterwards (`run`).  Blanks are spaces and
tabs, and a line ends at a newline only.  A line that runs a command, expands something or leaves a
quote open is none of the three.  Null characters are dropped from the input, as the common shells
drop them.
-/

namespace Shell

/-! ## Reading -/

def isBlank (c : Char) : Bool := c == ' ' || c == '\t'

def isNameChar (c : Char) : Bool := c.isAlphanum || c == '_'

/-- Names are made of letters, digits and underscores, and do not begin with a digit. -/
def isName (name : List Char) : Bool :=
  !name.isEmpty && name.all isNameChar && !(name.head?.any Char.isDigit)

/-- Characters outside quotes that end a word, expand something or escape the next character. -/
def isSpecial (c : Char) : Bool := "|&;<>()$`\\".toList.contains c

/-- Where in a word the shell is: outside quotes, where a tilde is expanded if it comes first or
after a colon, or inside quotes. -/
inductive Mode
  | plain (fresh : Bool)
  | single
  | double

/-- The literal a word stands for, and what follows the word. -/
def readWord : Mode → List Char → Option (List Char × List Char)
  | .plain _, [] => some ([], [])
  | .plain fresh, c :: text =>
      if isBlank c then some ([], c :: text)
      else if c = '\'' then readWord .single text
      else if c = '"' then readWord .double text
      else if isSpecial c || (c == '~' && fresh) then none
      else (readWord (.plain (c == ':')) text).map fun word => (c :: word.1, word.2)
  | .single, [] => none
  | .single, c :: text =>
      if c = '\'' then readWord (.plain false) text
      else (readWord .single text).map fun word => (c :: word.1, word.2)
  | .double, [] => none
  | .double, c :: text =>
      if c = '"' then readWord (.plain false) text
      else if "$`\\".toList.contains c then none
      else (readWord .double text).map fun word => (c :: word.1, word.2)

inductive Line
  | blank
  | comment
  | assignment (name value : List Char)

/-- An assignment is a name, `=`, a word and nothing else. -/
def readAssignment (word : List Char) : Option Line :=
  let name := word.takeWhile isNameChar
  match word.dropWhile isNameChar with
  | [] => none
  | c :: text =>
      if c = '=' ∧ isName name then
        (readWord (.plain true) text).bind fun value =>
          if value.2.all isBlank then some (.assignment name value.1) else none
      else none

def readLine (line : List Char) : Option Line :=
  let word := line.dropWhile isBlank
  if word = [] then some .blank
  else if word.head? = some '#' then some .comment
  else readAssignment word

/-- The input without its null characters. -/
def dropNull (text : List Char) : List Char := text.filter (· ≠ '\x00')

def readText (text : List Char) : Option (List Line) :=
  ((dropNull text).splitOn '\n').mapM readLine

/-! ## Running -/

/-- The variables that are set, and their values. -/
abbrev Env := List Char → Option (List Char)

def Line.run (env : Env) : Line → Env
  | .assignment name value => Function.update env name (some value)
  | _ => env

/-- The variables after the lines, none of which is set before. -/
def run (lines : List Line) : Env := lines.foldl Line.run fun _ => none

section Words

variable {fresh : Bool} {value rest : List Char}

end Words

/-! ## Lines -/

section Lines

variable {lead text name : List Char} {c : Char}

end Lines

/-! ## Null characters -/

section Null

variable {text text' : List Char}

end Null

end Shell
