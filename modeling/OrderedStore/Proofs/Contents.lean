/-
What a row of writes leaves: the map that the store is said to be.

`contents` carries the operations out one after the other on a plain map,
a deletion taking the key away. `lastWrite` is the last entry written under
a key, the mark of a deletion included; it is what tables and memtables
hold, which have to keep that mark to hide what is older.
-/
import OrderedStore.Log.Operation
import OrderedStore.Proofs.KeyMap

namespace OrderedStore

-- =============================================================== erasing

namespace KeyMap

variable {α : Type}

/-- The map without the key. -/
def erase (m : KeyMap α) (k : Bytes) : KeyMap α :=
  ⟨m.entries.filter fun p => p.1 ≠ k, m.sorted.filter _⟩

/-- Erasing a key takes it away, and nothing else. -/
theorem find?_erase (m : KeyMap α) (k l : Bytes) :
    (m.erase k).find? l = if l = k then none else m.find? l :=
  lookup_filter_ne k l m.entries

end KeyMap

-- ============================================================ last writes

section LastWrite

variable {α : Type}

/-- The last entry written under the key, if any was. -/
def lastWrite (ws : List (Bytes × α)) (k : Bytes) : Option α :=
  ws.reverse.lookup k

/-- Nothing is written by no writes. -/
@[simp] theorem lastWrite_nil (k : Bytes) : lastWrite ([] : List (Bytes × α)) k = none := rfl

/-- Of two rows of writes the later decides, if it writes the key. -/
theorem lastWrite_append (ws us : List (Bytes × α)) (k : Bytes) :
    lastWrite (ws ++ us) k = (lastWrite us k).or (lastWrite ws k) := by
  unfold lastWrite
  rw [List.reverse_append, List.lookup_append]

/-- The last write decides, if it is one of the key. -/
theorem lastWrite_concat (ws : List (Bytes × α)) (w : Bytes × α) (k : Bytes) :
    lastWrite (ws ++ [w]) k = if k = w.1 then some w.2 else lastWrite ws k := by
  obtain ⟨l, e⟩ := w
  rw [lastWrite_append]
  unfold lastWrite
  rw [List.reverse_singleton, lookup_pair]
  by_cases hkl : k = l
  · rw [if_pos hkl, if_pos hkl, Option.some_or]
  · rw [if_neg hkl, if_neg hkl, List.lookup_nil, Option.none_or]

/-- A write in the middle does not matter to the other keys. -/
theorem lastWrite_middle {w : Bytes × α} {k : Bytes} (h : k ≠ w.1)
    (front back : List (Bytes × α)) :
    lastWrite (front ++ w :: back) k = lastWrite (front ++ back) k := by
  have hmove : front ++ w :: back = front ++ [w] ++ back := by
    rw [List.append_assoc, List.singleton_append]
  rw [hmove, lastWrite_append, lastWrite_concat, if_neg h, ← lastWrite_append]

/-- The last write of a key is one of the writes. -/
theorem mem_of_lastWrite {ws : List (Bytes × α)} {k : Bytes} {v : α}
    (h : lastWrite ws k = some v) : (k, v) ∈ ws :=
  List.mem_reverse.mp (mem_of_lookup h)

/-- A key that is written has a last write. -/
theorem lastWrite_of_mem {ws : List (Bytes × α)} {k : Bytes} {v : α} (h : (k, v) ∈ ws) :
    ∃ u, lastWrite ws k = some u := by
  cases hu : lastWrite ws k with
  | some u => exact ⟨u, rfl⟩
  | none =>
      unfold lastWrite at hu
      rw [List.lookup_eq_none_iff] at hu
      have := hu (k, v) (List.mem_reverse.mpr h)
      simp at this

/-- Writes made once more change nothing, whatever was written before. -/
theorem lastWrite_again (ws us : List (Bytes × α)) (k : Bytes) :
    (lastWrite us k).or (lastWrite (ws ++ us) k) = lastWrite (ws ++ us) k := by
  rw [lastWrite_append]
  cases lastWrite us k <;> rfl

/-- The map of a row of pairs leads each key to its last pair. -/
theorem find?_ofList (ws : List (Bytes × α)) (k : Bytes) :
    (KeyMap.ofList ws).find? k = lastWrite ws k := by
  induction ws using List.reverseRec with
  | nil => rfl
  | append_singleton ws w ih =>
      have hfold : KeyMap.ofList (ws ++ [w]) = (KeyMap.ofList ws).insert w.1 w.2 := by
        unfold KeyMap.ofList
        rw [List.foldl_append]
        rfl
      rw [hfold, KeyMap.find?_insert, ih, lastWrite_concat]

/-- Pairs that are in strictly ascending order make the map as they are. -/
theorem ofList_sorted {xs : List (Bytes × α)} (hs : xs.Pairwise fun a b => a.1 < b.1) :
    KeyMap.ofList xs = ⟨xs, hs⟩ := by
  refine KeyMap.ext_find? fun k => ?_
  show (KeyMap.ofList xs).find? k = xs.lookup k
  rw [find?_ofList]
  unfold lastWrite
  have hrev : (xs.reverse.map Prod.fst).Nodup := by
    rw [List.map_reverse, List.nodup_reverse]
    exact KeyMap.nodup_keys ⟨xs, hs⟩
  cases hv : xs.lookup k with
  | some v => exact lookup_of_nodup hrev (List.mem_reverse.mpr (mem_of_lookup hv))
  | none =>
      rw [List.lookup_eq_none_iff] at hv ⊢
      exact fun p hp => hv p (List.mem_reverse.mp hp)

/-- A map has no more pairs than it was made from. -/
theorem size_ofList_le (ws : List (Bytes × α)) : (KeyMap.ofList ws).size ≤ ws.length := by
  have hsub : (KeyMap.ofList ws).entries.map Prod.fst ⊆ ws.map Prod.fst := by
    intro k hk
    obtain ⟨⟨l, v⟩, hmem, rfl⟩ := List.mem_map.mp hk
    have hfound := KeyMap.mem_entries.mp hmem
    rw [find?_ofList] at hfound
    exact List.mem_map.mpr ⟨_, mem_of_lastWrite hfound, rfl⟩
  have hlength := ((KeyMap.ofList ws).nodup_keys.subperm hsub).length_le
  rwa [List.length_map, List.length_map] at hlength

end LastWrite

-- ============================================================== contents

/-- The map with one more write carried out. -/
def KeyMap.write (m : KeyMap Bytes) (w : Bytes × Entry) : KeyMap Bytes :=
  match w.2 with
  | .value bs => m.insert w.1 bs
  | .tombstone => m.erase w.1

/-- The map that the operations leave, carried out in order. -/
def contents (ops : List Operation) : KeyMap Bytes :=
  (Operation.writesOfAll ops).foldl KeyMap.write KeyMap.empty

/-- Carrying writes out on a map, the last one of a key decides what it
leads to. -/
theorem find?_foldl_write (ws : List (Bytes × Entry)) (m : KeyMap Bytes) (k : Bytes) :
    (ws.foldl KeyMap.write m).find? k
      = ((lastWrite ws k).or ((m.find? k).map Entry.value)).bind Entry.value? := by
  induction ws using List.reverseRec with
  | nil =>
      show m.find? k = ((m.find? k).map Entry.value).bind Entry.value?
      cases m.find? k <;> rfl
  | append_singleton ws w ih =>
      obtain ⟨l, e⟩ := w
      rw [List.foldl_append, lastWrite_concat, List.foldl_cons, List.foldl_nil]
      cases e with
      | value bs =>
          show ((ws.foldl KeyMap.write m).insert l bs).find? k = _
          rw [KeyMap.find?_insert, ih]
          split <;> rfl
      | tombstone =>
          show ((ws.foldl KeyMap.write m).erase l).find? k = _
          rw [KeyMap.find?_erase, ih]
          split <;> rfl

/-- Every key leads to the value last written under it, and to none after a
deletion. -/
theorem find?_contents (ops : List Operation) (k : Bytes) :
    (contents ops).find? k
      = (lastWrite (Operation.writesOfAll ops) k).bind Entry.value? := by
  unfold contents
  rw [find?_foldl_write, KeyMap.find?_empty, Option.map_none, Option.or_none]

namespace Operation

/-- The writes of two rows of operations are made one row after the
other. -/
theorem writesOfAll_append (ops ops' : List Operation) :
    writesOfAll (ops ++ ops') = writesOfAll ops ++ writesOfAll ops' := by
  induction ops with
  | nil => rfl
  | cons op ops ih =>
      rw [List.cons_append, writesOfAll, ih, writesOfAll, List.append_assoc]

/-- The writes of one operation. -/
@[simp] theorem writesOfAll_singleton (op : Operation) :
    writesOfAll [op] = op.writes := by
  rw [writesOfAll, writesOfAll, List.append_nil]

end Operation

/-- More operations are carried out on what the earlier ones left. -/
theorem contents_append (ops ops' : List Operation) :
    contents (ops ++ ops')
      = (Operation.writesOfAll ops').foldl KeyMap.write (contents ops) := by
  unfold contents
  rw [Operation.writesOfAll_append, List.foldl_append]

end OrderedStore
