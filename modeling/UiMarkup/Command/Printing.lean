import UiMarkup.Console.Tag
import UiMarkup.Console.Lines
import UiMarkup.Report
import UiMarkup.Workspace.Discovery

/-!
What commands do: they print, and they end with a code or break off with a failure that they do not
handle. What is printed before a failure stays.
-/

namespace UiMarkup.Command

inductive Failure
  | settings (fault : SettingsFault)
  | pattern (fault : PatternFault)
  | read (fault : ReadFault)
  | number (fault : Number.Fault)
  | hex (fault : Color.HexFault)
  | tag (fault : Console.TagFault)

/-- What is said about a failure. -/
def Failure.message : Failure → String
  | .settings f => f.message?.getD "malformed settings"
  | .pattern f => f.message
  | .read f => f.message
  | .number f => f.message
  | .hex f => f.message
  | .tag _ => "a closing tag without its opening tag"

/-- Printing, with the text printed so far. -/
abbrev Printing := ExceptT Failure (StateM String)

/-- A result, or else a failure of some kind. -/
def orFail {ε α : Type} (failure : ε → Failure) (r : Except ε α) : Printing α := r.mapError failure

def write (text : String) : Printing Unit := modify (· ++ text)

/-- Prints a text as it is. -/
def printPlain (text : String) : Printing Unit := write (Console.printed text)

/-- What styled text shows. -/
def unstyled (styled : String) : Printing String := orFail .tag (Console.plain styled)

def printStyled (styled : String) : Printing Unit := do printPlain (← unstyled styled)

/-- Prints an error of a file. -/
def printError (r : Report) (path : Path) : Printing Unit :=
  printStyled
    ("[bold red]error[/bold red] " ++ Console.literal { r with path := some path.text }.text)

/-- The code of a command that found nothing wrong. -/
def success : Nat := 0

def failureCode : Nat := 1

end UiMarkup.Command
