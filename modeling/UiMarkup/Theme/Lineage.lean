import UiMarkup.OrderedMap

/-!
Inheritance by name. Each entity names its parents; its resolved form is made from the entity and
the resolved forms of its parents. The walk keeps an explicit stack. It refuses a parent that is not
there, a chain of parents that comes back to itself, and a chain that is too long.

What is known about the entities is kept from one walk to the next, also when a walk fails: the
names on its path then stay marked as being visited.
-/

namespace UiMarkup

/-- Entities by name, with their parents and the way to combine an entity with
its resolved parents. -/
structure Lineage (α : Type) where
  entities : OrderedMap String α
  parents : α → List String
  merge : α → List α → α
  maxDepth : Int

namespace Lineage

inductive Mark
  | visiting | resolved
  deriving DecidableEq, Repr

/-- Why a name cannot be resolved. The last one is met only after an earlier failure. -/
inductive Fault
  | unknown (name : String)
  | notFound (parent child : String)
  | circular (chain : List String)
  | tooDeep (name : String)
  | emptyPath
  deriving DecidableEq, Repr

/-- What is known about the entities: their marks, the lengths of their longest chains, and
their resolved forms. -/
structure Memory (α : Type) where
  marks : OrderedMap String Mark := []
  depth : OrderedMap String Nat := []
  resolved : OrderedMap String α := []

/-- A walk under way. The path holds the names being visited, the first one first; the stack holds
names and how many of their parents have been looked at, the last one first. -/
structure Walk (α : Type) where
  memory : Memory α
  path : List String
  stack : List (String × Nat)

/-- A failure and what is known by then. -/
structure Failure (α : Type) where
  fault : Fault
  memory : Memory α

variable {α : Type}

/-- Marks a name that is met for the first time and puts it on the path,
which may become too long. -/
def enter (g : Lineage α) (w : Walk α) (name : String) (index : Nat) :
    Except (Failure α) (Walk α) :=
  if index = 0 ∧ w.memory.marks.has name = false then
    let memory := { w.memory with marks := w.memory.marks.put name .visiting }
    let path := w.path ++ [name]
    if g.maxDepth < path.length then .error ⟨.tooDeep (path.headD name), memory⟩
    else .ok { w with memory, path }
  else .ok w

/-- The length of the longest chain from an entity whose parents are resolved. -/
def depthOf (m : Memory α) (parents : List String) : Nat :=
  1 + (parents.map fun p => (m.depth.get? p).getD 0).foldl max 0

/-- The resolved form of an entity whose parents are resolved. -/
def combine (g : Lineage α) (m : Memory α) (entity : α) : α :=
  match g.parents entity with
  | [] => entity
  | parents => g.merge entity (parents.filterMap m.resolved.get?)

/-- Resolves the name on top of the stack, whose parents are all resolved, and takes it off. -/
def leave (g : Lineage α) (w : Walk α) (name : String) (entity : α) (below : List (String × Nat)) :
    Except (Failure α) (Walk α) :=
  let depth := depthOf w.memory (g.parents entity)
  if g.maxDepth < depth then .error ⟨.tooDeep name, w.memory⟩
  else
    let memory : Memory α := {
      marks := w.memory.marks.put name .resolved
      depth := w.memory.depth.put name depth
      resolved := w.memory.resolved.put name (combine g w.memory entity) }
    if w.path.isEmpty then .error ⟨.emptyPath, memory⟩
    else .ok ⟨memory, w.path.dropLast, below⟩

/-- Looks at one parent of the name on top of the stack. -/
def visitParent (g : Lineage α) (w : Walk α) (name : String) (index : Nat) (parent : String)
    (below : List (String × Nat)) : Except (Failure α) (Walk α) :=
  if g.entities.has parent = false then .error ⟨.notFound parent name, w.memory⟩
  else
    let stack := (name, index + 1) :: below
    match w.memory.marks.get? parent with
    | some .visiting => .error ⟨.circular (w.path ++ [parent]), w.memory⟩
    | some .resolved => .ok { w with stack }
    | none => .ok { w with stack := (parent, 0) :: stack }

/-- One step of a walk whose stack has a given top. -/
def step (g : Lineage α) (w : Walk α) (name : String) (index : Nat) (below : List (String × Nat)) :
    Except (Failure α) (Walk α) :=
  match g.entities.get? name with
  | none => .error ⟨.unknown name, w.memory⟩
  | some entity => do
    let w ← enter g w name index
    match (g.parents entity)[index]? with
    | some parent => visitParent g w name index parent below
    | none => leave g w name entity below

/-- Takes steps until the stack is empty. -/
def run (g : Lineage α) : Nat → Walk α → Except (Failure α) (Memory α)
  | fuel, w =>
    match w.stack with
    | [] => .ok w.memory
    | (name, index) :: below =>
      match fuel with
      | 0 => .error ⟨.circular w.path, w.memory⟩
      | fuel + 1 => do run g fuel (← step g w name index below)

/-- A bound on the steps of a walk: each entity is entered once and looks once
at each of its parents. -/
def stepBound (g : Lineage α) : Nat :=
  (g.entities.map fun p => (g.parents p.2).length + 1).foldr (· + ·) 0

/-- Resolves a name, with what is known before and after. -/
def resolve (g : Lineage α) (m : Memory α) (name : String) : Except Fault α × Memory α :=
  match m.resolved.get? name with
  | some a => (.ok a, m)
  | none =>
    if g.entities.has name = false then (.error (.unknown name), m)
    else
      match run g (stepBound g) ⟨m, [], [(name, 0)]⟩ with
      | .error failure => (.error failure.fault, failure.memory)
      | .ok m =>
        match m.resolved.get? name with
        | some a => (.ok a, m)
        | none => (.error (.unknown name), m)

/-- Resolves some names one after the other, up to the first fault. -/
def resolveEach (g : Lineage α) : Memory α → List String → Except Fault Unit × Memory α
  | m, [] => (.ok (), m)
  | m, name :: names =>
    match resolve g m name with
    | (.ok _, m) => resolveEach g m names
    | (.error fault, m) => (.error fault, m)

/-- The names in order. -/
def sortedNames (g : Lineage α) : List String := g.entities.keys.mergeSort (· ≤ ·)

/-- Resolves every entity, in the order of the names. -/
def resolveAll (g : Lineage α) (m : Memory α) : Except Fault (OrderedMap String α) × Memory α :=
  match resolveEach g m (sortedNames g) with
  | (.error fault, m) => (.error fault, m)
  | (.ok (), m) => (.ok (g.entities.keys.filterMap fun n => (m.resolved.get? n).map (n, ·)), m)

/-- Resolves a name with nothing known before. -/
def resolveFresh (g : Lineage α) (name : String) : Except Fault α := (resolve g {} name).1

/-- Resolves every entity with nothing known before. -/
def resolveAllFresh (g : Lineage α) : Except Fault (OrderedMap String α) := (resolveAll g {}).1

end Lineage
end UiMarkup
