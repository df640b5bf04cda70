import UiMarkup.Widget.Builder

/-!
Trees that are listed with a stack. The tree at the top is taken off and listed, and its children go
onto the stack from the last one to the first. What is still to be listed are the trees on the
stack, one after the other, each before its children; a step lists the first of that and keeps the
rest, so that the loop ends with the walk of its tree.
-/

namespace UiMarkup

/-- The trees inside a tree, and the walk of a tree: itself before the walks of its children. -/
structure Branching (α : Type) where
  children : α → List α
  walk : α → List α
  walk_eq (a : α) : walk a = a :: (children a).flatMap walk

namespace Branching

variable {α : Type}

/-- Puts trees onto a stack, the last one on top. -/
def pushAll (stack trees : List α) : List α := trees.foldl (fun s a => a :: s) stack

theorem pushAll_reverse (stack trees : List α) : pushAll stack trees.reverse = trees ++ stack := by
  rw [pushAll, List.foldl_reverse, List.foldr_cons_eq_append, List.map_id']

variable (b : Branching α)

/-- The stack behind a tree that is taken off: its children go onto it, the first one on top. -/
def next (a : α) (stack : List α) : List α := pushAll stack (b.children a).reverse

/-- One step lists the first tree, and what is left is that of the next stack. -/
theorem flatMap_walk_cons (a : α) (stack : List α) :
    (a :: stack).flatMap b.walk = a :: (b.next a stack).flatMap b.walk := by
  rw [List.flatMap_cons, b.walk_eq, next, pushAll_reverse, List.flatMap_append, List.cons_append]

/-- The trees that are listed until the stack is empty. -/
def drain : List α → List α
  | [] => []
  | a :: stack => a :: drain (b.next a stack)
  termination_by stack => (stack.flatMap b.walk).length
  decreasing_by
    rw [flatMap_walk_cons, List.length_cons]
    exact Nat.lt_succ_self _

/-- The trees that are listed from a tree on. -/
def visit (a : α) : List α := b.drain [a]

theorem drain_eq_flatMap (stack : List α) : b.drain stack = stack.flatMap b.walk := by
  induction stack using Branching.drain.induct b with
  | case1 => rw [drain, List.flatMap_nil]
  | case2 a stack ih => rw [drain, flatMap_walk_cons, ih]

theorem visit_eq_walk (a : α) : b.visit a = b.walk a := by
  rw [visit, drain_eq_flatMap, List.flatMap_singleton]

end Branching

namespace Element

theorem walkAll_eq_flatMap (es : List Element) : walkAll es = es.flatMap walk := by
  induction es with
  | nil => rfl
  | cons e es ih => rw [walkAll, ih, List.flatMap_cons]

theorem walk_eq (e : Element) : e.walk = e :: walkAll e.children := by
  cases e
  rw [walk]

def branching : Branching Element := ⟨children, walk, fun e => by rw [walk_eq, walkAll_eq_flatMap]⟩

end Element

namespace Widget

theorem walkAll_eq_flatMap (ws : List Widget) : walkAll ws = ws.flatMap walk := by
  induction ws with
  | nil => rfl
  | cons w ws ih => rw [walkAll, ih, List.flatMap_cons]

theorem walk_eq (w : Widget) : w.walk = w :: walkAll w.children := by
  cases w
  rw [walk]

def branching : Branching Widget := ⟨children, walk, fun w => by rw [walk_eq, walkAll_eq_flatMap]⟩

end Widget

end UiMarkup
