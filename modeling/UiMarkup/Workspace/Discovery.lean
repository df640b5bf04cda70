import UiMarkup.Workspace.Pattern
import UiMarkup.Workspace.Settings

/-!
The documents of a workspace: files with the right endings, without those that are excluded.
-/

namespace UiMarkup

/-- A list of exclusions has a pattern that is none. -/
inductive PatternFault
  | empty
  deriving DecidableEq, Repr

def PatternFault.message : PatternFault → String
  | .empty => "empty pattern"

namespace Workspace

/-- Whether a path lies in the directory that a pattern names. -/
def liesIn (p : Path) (pattern : String) : Bool :=
  (Text.trimRightBy (· == '/') pattern.toList ++ ['/']).isPrefixOf p.text.toList

/-- Whether one of some patterns excludes a path. Patterns after the first that
does are not looked at. -/
def isExcludedBy (p : Path) : List String → Except PatternFault Bool
  | [] => .ok false
  | pattern :: more =>
    match p.matches? pattern with
    | none => .error .empty
    | some found => if found || liesIn p pattern then .ok true else isExcludedBy p more

/-- A path from the root of the workspace; one that leads elsewhere stays as it is. -/
def fromRoot (w : Workspace) (p : Path) : Path :=
  match w.root.below? p.settled with
  | some parts => ⟨false, parts⟩
  | none => p

def isExcluded (w : Workspace) (p : Path) : Except PatternFault Bool :=
  isExcludedBy (w.fromRoot p) w.exclude

/-- The endings of documents, each with its dot. -/
def suffixes (w : Workspace) : List String :=
  w.extensions.map fun e => if e.toList.head? = some '.' then e else "." ++ e

/-- The documents below a directory in order, or the one file that is asked for. -/
def discover (w : Workspace) (files : Files) (target : Path) : Except PatternFault (List Path) :=
  if files.isFile target then .ok [target]
  else do
    let candidates := (files.filesBelow target).filter fun p => w.suffixes.contains p.suffix
    let kept ← candidates.filterM fun p => do return !(← w.isExcluded p)
    return kept.mergeSort Path.notAfter

end Workspace
end UiMarkup
