import Mathlib.Algebra.Order.Group.Multiset

/-!
# Free lists

Memory that was given back and is to be used again. A free list is a bag: whatever order it keeps,
it gives out what it holds, and holds what it was given and has not given out.
-/

structure FreeList (F N : Type*) where
  empty : F
  take : F → Option (N × F)
  push : F → N → F
  size : F → Nat
  nodes : F → Multiset N
  nodes_empty : nodes empty = 0
  nodes_push : ∀ frees node, nodes (push frees node) = node ::ₘ nodes frees
  nodes_take : ∀ {frees node frees'}, take frees = some (node, frees') →
    nodes frees = node ::ₘ nodes frees'
  take_none : ∀ {frees}, take frees = none → nodes frees = 0
  size_eq : ∀ frees, size frees = (nodes frees).card

namespace FreeList

/-- The node that was pushed last is taken first. -/
def stack (N : Type*) : FreeList (List N) N where
  empty := []
  take
    | [] => none
    | node :: frees => some (node, frees)
  push frees node := node :: frees
  size := List.length
  nodes frees := frees
  nodes_empty := rfl
  nodes_push _ _ := rfl
  nodes_take {frees _ _} htake := by
    cases frees with
    | nil => exact absurd htake (Option.some_ne_none _).symm
    | cons node frees =>
        obtain ⟨rfl, rfl⟩ := Prod.mk.inj (Option.some.inj htake)
        rfl
  take_none {frees} htake := by
    cases frees with
    | nil => rfl
    | cons node frees => exact absurd htake (Option.some_ne_none _)
  size_eq _ := rfl

end FreeList
