/-!
Leftist heaps: trees with a least element at the root, joined along their right spines. A heap holds
the elements of its two parts, in whatever order it keeps them.
-/
namespace RecordingDelivery

inductive Heap (α : Type)
  | leaf
  | node (rank : Nat) (top : α) (left right : Heap α)
  deriving Repr, DecidableEq

namespace Heap

variable {α : Type}

def rank : Heap α → Nat
  | leaf => 0
  | node rank .. => rank

def size : Heap α → Nat
  | leaf => 0
  | node _ _ left right => left.size + right.size + 1

def toList : Heap α → List α
  | leaf => []
  | node _ top left right => top :: (left.toList ++ right.toList)

@[simp] theorem length_toList (h : Heap α) : h.toList.length = h.size := by
  induction h with
  | leaf => rfl
  | node _ _ left right ihl ihr => simp [toList, size, ihl, ihr]

/-- A node whose deeper part stands on the left. -/
def join (top : α) (a b : Heap α) : Heap α :=
  if b.rank ≤ a.rank then node (b.rank + 1) top a b else node (a.rank + 1) top b a

theorem toList_join (top : α) (a b : Heap α) :
    (join top a b).toList.Perm (top :: (a.toList ++ b.toList)) := by
  unfold join
  split
  · exact .refl _
  · exact List.perm_append_comm.cons _

def merge (le : α → α → Bool) : Heap α → Heap α → Heap α
  | leaf, b => b
  | a, leaf => a
  | node rank x left right, node rank' y left' right' =>
    if le x y then join x left (merge le right (node rank' y left' right'))
    else join y left' (merge le (node rank x left right) right')
termination_by a b => a.size + b.size
decreasing_by all_goals simp only [size]; omega

@[simp] theorem merge_leaf_left (le : α → α → Bool) (b : Heap α) : merge le leaf b = b := by
  simp [merge]

@[simp] theorem merge_leaf_right (le : α → α → Bool) (a : Heap α) : merge le a leaf = a := by
  cases a <;> simp [merge]

theorem toList_merge (le : α → α → Bool) (a b : Heap α) :
    (merge le a b).toList.Perm (a.toList ++ b.toList) := by
  fun_induction merge le a b with
  | case1 b => simp [toList]
  | case2 a => simp [toList]
  | case3 rank x left right rank' y left' right' h ih =>
    refine (toList_join _ _ _).trans ?_
    simp only [toList, List.cons_append]
    refine List.Perm.cons _ ?_
    rw [List.append_assoc]
    exact ih.append_left _
  | case4 rank x left right rank' y left' right' h ih =>
    refine (toList_join _ _ _).trans ?_
    simp only [toList] at ih ⊢
    refine .trans ?_ List.perm_middle.symm
    refine List.Perm.cons _ ?_
    refine (ih.append_left _).trans ?_
    rw [← List.append_assoc, ← List.append_assoc]
    exact List.perm_append_comm.append_right _

def insert (le : α → α → Bool) (x : α) (h : Heap α) : Heap α :=
  merge le (node 1 x leaf leaf) h

theorem toList_insert (le : α → α → Bool) (x : α) (h : Heap α) :
    (insert le x h).toList.Perm (x :: h.toList) := by
  simpa [toList, insert] using toList_merge le (node 1 x leaf leaf) h

def top? : Heap α → Option α
  | leaf => none
  | node _ top _ _ => some top

def rest (le : α → α → Bool) : Heap α → Heap α
  | leaf => leaf
  | node _ _ left right => merge le left right

theorem toList_rest (le : α → α → Bool) {h : Heap α} {x : α} (hx : h.top? = some x) :
    (x :: (h.rest le).toList).Perm h.toList := by
  cases h with
  | leaf => simp [top?] at hx
  | node rank top left right =>
    simp only [top?, Option.some.injEq] at hx
    subst hx
    exact (toList_merge le left right).cons _

end Heap
end RecordingDelivery
