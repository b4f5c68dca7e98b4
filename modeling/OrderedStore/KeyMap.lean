/-
Directions, bounds, and maps from keys.

A bound together with a direction says which keys lie at or beyond a point
on the way: going forward these are the keys from the point up, in reverse
the keys from it down. `KeyMap.seek` finds the nearest of them.

A map is the list of its pairs in strictly ascending key order. The order
is a field of the type, so every map has it.
-/
import OrderedStore.Bytes

namespace OrderedStore

-- ==================================================== directions, bounds

/-- The way through a range of keys. -/
inductive Direction where
  | forward
  | reverse
deriving DecidableEq, Repr

namespace Direction

/-- An ascending list in the order in which it is met. -/
def arrange {α : Type} : Direction → List α → List α
  | .forward, xs => xs
  | .reverse, xs => xs.reverse

/-- Whether `a` is met before `b`. -/
def before : Direction → Bytes → Bytes → Bool
  | .forward, a, b => a < b
  | .reverse, a, b => b < a

end Direction

/-- Where a range of keys starts. -/
inductive Bound where
  | unbounded
  | included (key : Bytes)
  | excluded (key : Bytes)
deriving DecidableEq, Repr

/-- Whether the key lies at or beyond the bound. -/
def Bound.admits : Bound → Direction → Bytes → Bool
  | .unbounded, _, _ => true
  | .included b, .forward, k => b ≤ k
  | .included b, .reverse, k => k ≤ b
  | .excluded b, .forward, k => b < k
  | .excluded b, .reverse, k => k < b

-- ================================================================= lists

/-- The list with `k` holding `v`, in its place by key order. -/
def insertSorted {α : Type} (k : Bytes) (v : α) : List (Bytes × α) → List (Bytes × α)
  | [] => [(k, v)]
  | (l, w) :: rest =>
    if k < l then (k, v) :: (l, w) :: rest
    else if l < k then (l, w) :: insertSorted k v rest
    else (k, v) :: rest

/-- The keys of a list with one more pair are those of the list and the
new one. -/
theorem mem_keys_of_mem_insertSorted {α : Type} {k : Bytes} {v : α} {p : Bytes × α}
    {xs : List (Bytes × α)} (h : p ∈ insertSorted k v xs) : p = (k, v) ∨ p ∈ xs := by
  induction xs with
  | nil => exact Or.inl (List.mem_singleton.mp h)
  | cons x xs ih =>
    unfold insertSorted at h
    split at h
    · rcases List.mem_cons.mp h with rfl | h
      · exact Or.inl rfl
      · exact Or.inr h
    · split at h
      · rcases List.mem_cons.mp h with rfl | h
        · exact Or.inr List.mem_cons_self
        · exact (ih h).imp id (List.mem_cons_of_mem _)
      · rcases List.mem_cons.mp h with rfl | h
        · exact Or.inl rfl
        · exact Or.inr (List.mem_cons_of_mem _ h)

/-- Putting a pair in its place keeps the order strict. -/
theorem sorted_insertSorted {α : Type} (k : Bytes) (v : α) {xs : List (Bytes × α)}
    (h : xs.Pairwise fun a b => a.1 < b.1) :
    (insertSorted k v xs).Pairwise fun a b => a.1 < b.1 := by
  induction xs with
  | nil => exact List.pairwise_singleton _ _
  | cons x xs ih =>
    obtain ⟨hx, hxs⟩ := List.pairwise_cons.mp h
    unfold insertSorted
    split
    · next hlt =>
      refine List.pairwise_cons.mpr ⟨fun y hy => ?_, h⟩
      rcases List.mem_cons.mp hy with rfl | hy
      · exact hlt
      · exact List.lt_trans hlt (hx y hy)
    · next hge =>
      split
      · next hgt =>
        refine List.pairwise_cons.mpr ⟨fun y hy => ?_, ih hxs⟩
        rcases mem_keys_of_mem_insertSorted hy with rfl | hy
        · exact hgt
        · exact hx y hy
      · next hle =>
        have heq : k = x.1 :=
          List.le_antisymm (List.not_lt.mp hle) (List.not_lt.mp hge)
        refine List.pairwise_cons.mpr ⟨fun y hy => ?_, hxs⟩
        rw [heq]
        exact hx y hy

-- ================================================================== maps

/-- A map from keys, as its pairs in strictly ascending key order. -/
structure KeyMap (α : Type) where
  entries : List (Bytes × α)
  sorted : entries.Pairwise fun a b => a.1 < b.1

namespace KeyMap

variable {α : Type}

/-- No pairs. -/
def empty : KeyMap α :=
  ⟨[], List.Pairwise.nil⟩

instance : Inhabited (KeyMap α) :=
  ⟨empty⟩

/-- How many keys the map has. -/
def size (m : KeyMap α) : Nat :=
  m.entries.length

/-- Whether the map has no keys. -/
def isEmpty (m : KeyMap α) : Bool :=
  m.entries.isEmpty

/-- What the key leads to. -/
def find? (m : KeyMap α) (k : Bytes) : Option α :=
  m.entries.lookup k

/-- The map with the key leading to `v`. -/
def insert (m : KeyMap α) (k : Bytes) (v : α) : KeyMap α :=
  ⟨insertSorted k v m.entries, sorted_insertSorted k v m.sorted⟩

/-- The map of the pairs; of two with one key the later counts. -/
def ofList (pairs : List (Bytes × α)) : KeyMap α :=
  pairs.foldl (fun m p => m.insert p.1 p.2) empty

/-- The first pair on the way whose key is at or beyond the bound. -/
def seek (m : KeyMap α) (b : Bound) (d : Direction) : Option (Bytes × α) :=
  (d.arrange m.entries).find? fun p => b.admits d p.1

/-- All pairs on the way whose keys are at or beyond the bound. -/
def beyond (m : KeyMap α) (b : Bound) (d : Direction) : List (Bytes × α) :=
  (d.arrange m.entries).filter fun p => b.admits d p.1

/-- The lowest key. -/
def minKey? (m : KeyMap α) : Option Bytes :=
  m.entries.head?.map Prod.fst

/-- The highest key. -/
def maxKey? (m : KeyMap α) : Option Bytes :=
  m.entries.getLast?.map Prod.fst

end KeyMap

end OrderedStore
