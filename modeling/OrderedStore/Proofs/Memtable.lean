/-
What a memtable answers, and to whom.

Every version stays until the table is flushed, so a write under a number
adds nothing to what a reader with an earlier number sees
(`get_writeAll_later`): that is all that separates a view from what is
written after it. A reader that sees every version sees the newest of each
key, and the newest are what was last written (`newest_writeAll`).
-/
import Mathlib
import OrderedStore.Log.Record
import OrderedStore.Memory
import OrderedStore.Proofs.TableImage

namespace OrderedStore

namespace Memtable

variable {m : Memtable} {seq q : UInt64} {k l : Bytes} {e : Entry}

-- ====================================================== versions of a key

/-- A write adds a version to its key, and nothing else. -/
theorem find?_write (m : Memtable) (q : UInt64) (k l : Bytes) (e : Entry) :
    (m.write q k e).versions.find? l
      = if l = k then some ((q, e) :: (m.versions.find? k).getD []) else m.versions.find? l :=
  KeyMap.find?_insert _ _ _ _

/-- A version under a later number is not seen. -/
theorem visible_cons_later (h : seq < q) (chain : List (UInt64 × Entry)) :
    visible seq ((q, e) :: chain) = visible seq chain := by
  unfold visible
  rw [List.find?_cons_of_neg]
  simpa using h

/-- A version under a number that is seen hides those before it. -/
theorem visible_cons_seen (h : q ≤ seq) (chain : List (UInt64 × Entry)) :
    visible seq ((q, e) :: chain) = some e := by
  unfold visible
  rw [List.find?_cons_of_pos]
  · rfl
  · simpa using h

/-- A write under a later number changes nothing for a reader. -/
theorem get_write_later (m : Memtable) (h : seq < q) (l : Bytes) (e : Entry) (k : Bytes) :
    (m.write q l e).get seq k = m.get seq k := by
  unfold get
  rw [find?_write]
  by_cases hkl : k = l
  · subst hkl
    rw [if_pos rfl, Option.bind_some, visible_cons_later h]
    cases m.versions.find? k <;> rfl
  · rw [if_neg hkl]

/-- A write under a number that is seen is what its key holds, and nothing else
changes for a reader. -/
theorem get_write (m : Memtable) (q seq : UInt64) (l : Bytes) (e : Entry) (k : Bytes) :
    (m.write q l e).get seq k = if q ≤ seq ∧ k = l then some e else m.get seq k := by
  by_cases hseen : q ≤ seq
  · by_cases hk : k = l
    · rw [if_pos ⟨hseen, hk⟩]
      unfold get
      rw [find?_write, if_pos hk, Option.bind_some, visible_cons_seen hseen]
    · rw [if_neg fun h => hk h.2]
      unfold get
      rw [find?_write, if_neg hk]
  · rw [if_neg fun h => hseen h.1, get_write_later m (UInt64.not_le.mp hseen)]

/-- Several writes under a later number change nothing for a reader. -/
theorem get_writeAll_later (ws : List (Bytes × Entry)) (m : Memtable) (h : seq < q)
    (k : Bytes) : (m.writeAll q ws).get seq k = m.get seq k := by
  induction ws generalizing m with
  | nil => rfl
  | cons w ws ih =>
      show ((m.write q w.1 w.2).writeAll q ws).get seq k = _
      rw [ih, get_write_later m h]

/-- A search of a memtable finds the nearest key that holds something at
the number. -/
theorem nearest_seek (m : Memtable) (seq : UInt64) (b : Bound) (d : Direction) :
    Nearest (m.get seq) b d (m.seek seq b d) :=
  m.versions.nearest_findSome?_beyond (visible seq) b d

/-- The keys that were written. -/
def keys (m : Memtable) : List Bytes :=
  m.versions.entries.map Prod.fst

/-- There are as many as the table counts. -/
theorem length_keys (m : Memtable) : m.keys.length = m.keyCount :=
  List.length_map _

/-- A key that holds something was written. -/
theorem mem_keys (h : m.get seq k ≠ none) : k ∈ m.keys := by
  cases hk : m.versions.find? k with
  | some chain => exact List.mem_map.mpr ⟨_, KeyMap.mem_entries.mpr hk, rfl⟩
  | none =>
      unfold get at h
      rw [hk, Option.bind_none] at h
      exact absurd rfl h

-- ================================================================ newest

/-- Every key with its newest version. -/
def newest (m : Memtable) : KeyMap Entry :=
  m.versions.countWith fun chain => chain.head?.map Prod.snd

/-- What a flush takes from the memtable are its newest versions. -/
theorem latest_eq (m : Memtable) : m.latest = m.newest.entries := by
  unfold latest newest KeyMap.countWith
  refine List.filterMap_congr fun p _ => ?_
  rw [Option.map_map]
  rfl

/-- One more write is the newest of its key. -/
theorem newest_write (m : Memtable) (q : UInt64) (k : Bytes) (e : Entry) :
    (m.write q k e).newest = m.newest.insert k e := by
  refine KeyMap.ext_find? fun l => ?_
  rw [KeyMap.find?_insert]
  unfold newest
  rw [KeyMap.find?_countWith, KeyMap.find?_countWith, find?_write]
  by_cases hlk : l = k
  · rw [if_pos hlk, if_pos hlk]
    rfl
  · rw [if_neg hlk, if_neg hlk]

/-- Several writes are made one after the other. -/
theorem newest_writeAll (ws : List (Bytes × Entry)) (m : Memtable) (q : UInt64) :
    (m.writeAll q ws).newest = ws.foldl (fun n w => n.insert w.1 w.2) m.newest := by
  induction ws generalizing m with
  | nil => rfl
  | cons w ws ih =>
      show ((m.write q w.1 w.2).writeAll q ws).newest = _
      rw [ih, newest_write]
      rfl

/-- The newest version of a key is what was last written to it. -/
theorem find?_newest_writeAll (ws : List (Bytes × Entry)) (m : Memtable) (q : UInt64)
    (k : Bytes) :
    (m.writeAll q ws).newest.find? k = (lastWrite ws k).or (m.newest.find? k) := by
  rw [newest_writeAll]
  induction ws using List.reverseRec with
  | nil => rfl
  | append_singleton ws w ih =>
      rw [List.foldl_append, lastWrite_concat]
      show KeyMap.find? (KeyMap.insert _ w.1 w.2) k = _
      rw [KeyMap.find?_insert, ih]
      by_cases hk : k = w.1
      · rw [if_pos hk, if_pos hk, Option.some_or]
      · rw [if_neg hk, if_neg hk]

-- ================================================= numbers that were given

/-- Every key has a version, and all versions are under numbers that were
given out, up to `seq`. -/
def Under (m : Memtable) (seq : UInt64) : Prop :=
  ∀ k chain, m.versions.find? k = some chain →
    chain ≠ [] ∧ ∀ version ∈ chain, version.1 ≤ seq

/-- Nothing is under any number. -/
theorem under_empty (seq : UInt64) : empty.Under seq :=
  fun _ _ h => nomatch h

/-- A write keeps all versions under its number, if they were under it. -/
theorem Under.write (h : m.Under q) (k : Bytes) (e : Entry) : (m.write q k e).Under q := by
  intro l chain hl
  rw [find?_write] at hl
  by_cases hlk : l = k
  · rw [if_pos hlk] at hl
    cases hl
    refine ⟨List.cons_ne_nil _ _, fun version hversion => ?_⟩
    rcases List.mem_cons.mp hversion with rfl | hversion
    · exact UInt64.le_refl q
    · cases hk : m.versions.find? k with
      | none =>
          rw [hk] at hversion
          cases hversion
      | some old =>
          rw [hk] at hversion
          exact (h k old hk).2 version hversion
  · rw [if_neg hlk] at hl
    exact h l chain hl

/-- So do several. -/
theorem Under.writeAll (ws : List (Bytes × Entry)) (h : m.Under q) :
    (m.writeAll q ws).Under q := by
  induction ws generalizing m with
  | nil => exact h
  | cons w ws ih => exact ih (h.write w.1 w.2)

/-- What is under a number is under a later one. -/
theorem Under.mono (h : m.Under seq) (hle : seq ≤ q) : m.Under q := by
  intro k chain hk
  obtain ⟨hne, hall⟩ := h k chain hk
  exact ⟨hne, fun version hversion => UInt64.le_trans (hall version hversion) hle⟩

/-- A reader that sees every version sees the newest of each key. -/
theorem Under.get_eq (h : m.Under seq) (k : Bytes) : m.get seq k = m.newest.find? k := by
  unfold get newest
  rw [KeyMap.find?_countWith]
  cases hk : m.versions.find? k with
  | none => rfl
  | some chain =>
      obtain ⟨hne, hall⟩ := h k chain hk
      obtain ⟨version, rest, rfl⟩ := List.exists_cons_of_ne_nil hne
      rw [Option.bind_some, Option.bind_some]
      exact visible_cons_seen (hall version List.mem_cons_self) rest

/-- A memtable is empty if no key has a newest version. -/
theorem Under.isEmpty_iff (h : m.Under seq) : m.isEmpty = true ↔ m.latest = [] := by
  rw [latest_eq]
  unfold isEmpty KeyMap.isEmpty
  rw [List.isEmpty_iff]
  constructor
  · intro hnil
    unfold newest KeyMap.countWith
    simp only [hnil, List.filterMap_nil]
  · intro hnil
    refine List.eq_nil_iff_forall_not_mem.mpr fun p hp => ?_
    obtain ⟨k, chain⟩ := p
    have hk := KeyMap.mem_entries.mp hp
    obtain ⟨version, rest, rfl⟩ := List.exists_cons_of_ne_nil (h k chain hk).1
    have hnew : m.newest.find? k = some version.2 := by
      unfold newest
      rw [KeyMap.find?_countWith, hk]
      rfl
    rw [← KeyMap.mem_entries, hnil] at hnew
    cases hnew

end Memtable

-- ================================================================== bytes

namespace Operation

mutual

/-- The writes of an operation take less than its serialized form. -/
theorem length_writes_lt (op : Operation) :
    (Table.dataBlock op.writes).length < op.serialize.length := by
  cases op with
  | put key value =>
      rw [writes, serialize, Table.dataBlock_cons, List.length_append, Table.length_entryBytes]
      simp only [List.length_append, Wire.length_word32, Wire.length_blob]
      show 8 + key.length + value.length + 0 < _
      omega
  | delete key =>
      rw [writes, serialize, Table.dataBlock_cons, List.length_append, Table.length_entryBytes]
      simp only [List.length_append, Wire.length_word32, Wire.length_blob]
      show 8 + key.length + 0 + 0 < _
      omega
  | batch inner =>
      have hall := length_writesOfAll_le inner
      rw [writes, serialize]
      simp only [List.length_append, Wire.length_word32, Wire.length_word64]
      omega

/-- So do the writes of several. -/
theorem length_writesOfAll_le (ops : List Operation) :
    (Table.dataBlock (writesOfAll ops)).length ≤ (serializeAll ops).length := by
  cases ops with
  | nil => exact Nat.le_refl 0
  | cons op ops =>
      have hop := length_writes_lt op
      have hops := length_writesOfAll_le ops
      rw [writesOfAll, serializeAll, Table.dataBlock_append, List.length_append,
        List.length_append]
      omega

end

end Operation

namespace Memtable

variable {m : Memtable} {q : UInt64}

/-- A pair put in its place takes at most its own data. -/
theorem length_dataBlock_insertSorted (k : Bytes) (e : Entry) (xs : List (Bytes × Entry)) :
    (Table.dataBlock (insertSorted k e xs)).length
      ≤ (Table.dataBlock xs).length + (Table.entryBytes k e).length := by
  induction xs with
  | nil =>
      rw [insertSorted, Table.dataBlock_cons, List.length_append]
      omega
  | cons x xs ih =>
      obtain ⟨l, f⟩ := x
      rw [insertSorted]
      split
      · rw [Table.dataBlock_cons, List.length_append]
        omega
      · split
        · rw [Table.dataBlock_cons, Table.dataBlock_cons, List.length_append,
            List.length_append]
          omega
        · rw [Table.dataBlock_cons, Table.dataBlock_cons, List.length_append,
            List.length_append]
          omega

/-- What is in a memtable after several writes takes at most their data
more than before. -/
theorem length_dataBlock_writeAll (ws : List (Bytes × Entry)) (m : Memtable) (q : UInt64) :
    (Table.dataBlock (m.writeAll q ws).latest).length
      ≤ (Table.dataBlock m.latest).length + (Table.dataBlock ws).length := by
  induction ws generalizing m with
  | nil => exact Nat.le_add_right _ _
  | cons w ws ih =>
      have hrest := ih (m.write q w.1 w.2)
      have hfirst := length_dataBlock_insertSorted w.1 w.2 m.newest.entries
      have hnew : (m.write q w.1 w.2).latest = insertSorted w.1 w.2 m.newest.entries := by
        rw [latest_eq, newest_write]
        rfl
      show (Table.dataBlock ((m.write q w.1 w.2).writeAll q ws).latest).length ≤ _
      rw [Table.dataBlock_cons, List.length_append, latest_eq m]
      rw [hnew] at hrest
      omega

/-- No entry takes four gibibytes. -/
def Compact (m : Memtable) : Prop :=
  ∀ p ∈ m.latest, (Table.entryBytes p.1 p.2).length < UInt32.size

/-- There are no entries in an empty memtable. -/
theorem compact_empty : empty.Compact :=
  fun _ h => nomatch h

/-- Writes that take less than four gibibytes together are each of them
shorter than that. -/
theorem Compact.writeAll {ws : List (Bytes × Entry)} (h : m.Compact)
    (hws : (Table.dataBlock ws).length < UInt32.size) : (m.writeAll q ws).Compact := by
  induction ws generalizing m with
  | nil => exact h
  | cons w ws ih =>
      rw [Table.dataBlock_cons, List.length_append] at hws
      refine ih (m := m.write q w.1 w.2) (fun p hp => ?_) (by omega)
      rw [latest_eq, newest_write] at hp
      rcases mem_keys_of_mem_insertSorted hp with rfl | hp
      · exact lt_of_le_of_lt (Nat.le_add_right _ _) hws
      · rw [← latest_eq] at hp
        exact h p hp

/-- What a memtable holds can be made a table, if it takes less than eight
digits of a number can count. -/
theorem Compact.storable (h : m.Compact)
    (hlength : Table.headerSize + (Table.dataBlock m.latest).length < UInt64.size) :
    Table.Storable m.latest := by
  have hparts : ∀ p ∈ m.latest, 8 + p.1.length + (Table.valueBytes p.2).length < UInt32.size := by
    intro p hp
    rw [← Table.length_entryBytes]
    exact h p hp
  refine ⟨?_, fun p hp => ?_, fun p hp => ?_, hlength⟩
  · rw [latest_eq]
    exact m.newest.sorted
  · have := hparts p hp
    omega
  · have := hparts p hp
    have hmark : Table.tombstoneMark + 1 = UInt32.size := rfl
    omega

end Memtable

end OrderedStore
