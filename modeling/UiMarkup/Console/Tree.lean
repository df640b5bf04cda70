import UiMarkup.Console.Lines

/-!
Trees on a console: each label stands behind guides that lead from its parent to it.
-/

namespace UiMarkup.Console

/-- A label, which may have several lines, and what hangs below it. -/
inductive Tree
  | node (label : String) (children : List Tree)

namespace Tree

instance : Inhabited Tree := ⟨.node "" []⟩

def forkGuide : String := "├── "

def endGuide : String := "└── "

def lineGuide : String := "│   "

def blankGuide : String := "    "

/-- The lines of a label behind a guide for the first one and a guide for the others. -/
def labelLines (first others label : String) : List String :=
  match linesOf label with
  | [] => []
  | l :: ls => (first ++ String.ofList l) :: ls.map fun l => others ++ String.ofList l

mutual

/-- The lines of a tree, the first one behind one guide and all others behind another. -/
def linesBehind (first others : String) : Tree → List String
  | .node label children => labelLines first others label ++ branchLines others children

/-- The lines of trees that hang side by side; the last one has guides of its own. -/
def branchLines (lead : String) : List Tree → List String
  | [] => []
  | [t] => linesBehind (lead ++ endGuide) (lead ++ blankGuide) t
  | t :: ts => linesBehind (lead ++ forkGuide) (lead ++ lineGuide) t ++ branchLines lead ts

end

def printed (t : Tree) : String := String.join ((linesBehind "" "" t).map (· ++ "\n"))

end Tree
end UiMarkup.Console
