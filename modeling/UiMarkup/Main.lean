import UiMarkup.Command.Run

/-!
The program: it finds the files that a command line looks at, prints what the command
prints, and ends with its code. What a command does with the files is settled in the
modules that this one imports.
-/

namespace UiMarkup.Program

/-- The entries at and below a place, under their names from the working directory. What
cannot be read is left out. -/
partial def entriesAt (name : String) : IO (List (String × Entry)) := do
  let place := (← IO.currentDir) / name
  if ← place.isDir then
    let children ← try place.readDir catch _ => pure #[]
    let below ← children.toList.mapM fun child => entriesAt (name ++ "/" ++ child.fileName)
    return (name, .directory) :: below.flatten
  else if ← place.pathExists then
    try return [(name, .file (← IO.FS.readBinFile place).toList)]
    catch _ => return []
  else return []

/-- The files that a command line looks at. -/
def filesFor (texts : List String) : IO Files := do
  let places := ((Command.request? texts).map Command.Request.places).getD []
  return Files.ofList (← places.mapM fun p => entriesAt p.text).flatten

def usage : String :=
  "Usage: vellum [--verbose] [--version] (check | inspect | themes | widgets | expr) " ++
  "[OPTIONS] [ARGUMENT]"

/-- The code of a command line that asks for nothing. -/
def misusedCode : UInt32 := 2

end UiMarkup.Program

open UiMarkup in
def main (texts : List String) : IO UInt32 := do
  match Command.run (← Program.filesFor texts) texts with
  | .misused => do
    IO.eprintln Program.usage
    return Program.misusedCode
  | .finished code text => do
    IO.print text
    return UInt32.ofNat code
  | .failed failure text => do
    IO.print text
    IO.eprintln failure.message
    return UInt32.ofNat Command.failureCode
