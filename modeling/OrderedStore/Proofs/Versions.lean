/-
Every version of every key.

A memtable keeps all that was ever written to it, so the row of writes that made
it says all that can be read of it (`Memtable.Holds`). A reader with a number
sees the writes with numbers up to its own; under a key it finds the last of
them, and a search finds the nearest key that has one of them. A flush takes the
last of all writes of each key, and the size counts all writes, also those that
no reader sees any more.

One more write is carried over from the row to what is read of it
(`Holds.write`), and with that whatever is written (`holds_written`). Nothing is
asked of the order of the numbers. Where two writes of a key have one number,
and even where the later one has the smaller number, the later one counts for
all who see both. To a reader whose number is below those of all later writes
these are no writes at all.
-/
import Mathlib
import OrderedStore.Proofs.Layers

namespace OrderedStore.Memtable

variable {m : Memtable} {ws us : List (UInt64 × Bytes × Entry)} {seq : UInt64}

-- ===================================================== what writes come to

/-- The bytes of a write: its key, and its value if it has one. -/
def bytesOf : Bytes × Entry → Nat
  | (k, .value bs) => k.length + bs.length
  | (k, .tombstone) => k.length

/-- A write weighs as much as it has bytes. -/
theorem weight_eq (k : Bytes) (e : Entry) : weight k e = bytesOf (k, e) := by
  cases e with
  | value bs => rfl
  | tombstone => rfl

/-- A memtable holds the writes, each with its number, one after the other. A
reader finds the last write of a key that it sees, and the nearest key that has
one; a flush takes every key once, in order, with its last write; and the size
is that of all writes. -/
structure Holds (m : Memtable) (ws : List (UInt64 × Bytes × Entry)) : Prop where
  get : ∀ seq k, m.get seq k = seen ws seq k
  seek : ∀ seq b d, Nearest (seen ws seq) b d (m.seek seq b d)
  latest_sorted : m.latest.Pairwise fun p q => p.1 < q.1
  mem_latest : ∀ k e, (k, e) ∈ m.latest ↔ lastWrite (ws.map Prod.snd) k = some e
  size : m.size = (ws.map fun w => bytesOf w.2).sum

/-- The newest version of a key is the last of all its writes. -/
theorem Holds.find?_newest (h : m.Holds ws) (k : Bytes) :
    m.newest.find? k = lastWrite (ws.map Prod.snd) k := by
  refine Option.ext fun e => ?_
  rw [← KeyMap.mem_entries, ← latest_eq, h.mem_latest]

/-- To hold writes is to have the right versions, for every reader and for a
flush, and the right size. That a search agrees with what is found under single
keys, and that a flush takes keys in order, is so of every memtable. -/
theorem holds_of_find? (hget : ∀ seq k, m.get seq k = seen ws seq k)
    (hnewest : ∀ k, m.newest.find? k = lastWrite (ws.map Prod.snd) k)
    (hsize : m.size = (ws.map fun w => bytesOf w.2).sum) : m.Holds ws := by
  refine ⟨hget, fun seq b d => (nearest_seek m seq b d).congr (hget seq), ?_, ?_, hsize⟩
  · rw [latest_eq]
    exact m.newest.sorted
  · intro k e
    rw [latest_eq, KeyMap.mem_entries, hnewest]

-- ================================================================ writing

/-- Nothing is held before the first write. -/
theorem holds_empty : empty.Holds [] :=
  holds_of_find? (fun _ _ => rfl) (fun _ => rfl) rfl

/-- One more write is held behind the others. -/
theorem Holds.write (h : m.Holds ws) (q : UInt64) (k : Bytes) (e : Entry) :
    (m.write q k e).Holds (ws ++ [(q, k, e)]) := by
  refine holds_of_find? (fun seq l => ?_) (fun l => ?_) ?_
  · rw [get_write, seen_concat, h.get]
  · rw [newest_write, KeyMap.find?_insert, h.find?_newest, List.map_append, List.map_singleton,
      lastWrite_concat]
  · have hstep : (m.write q k e).size = m.size + weight k e := rfl
    rw [hstep, h.size, weight_eq, List.map_append, List.sum_append, List.map_singleton,
      List.sum_singleton]

/-- What writes make of the empty memtable holds them. -/
theorem holds_written (ws : List (UInt64 × Bytes × Entry)) : (written ws).Holds ws := by
  induction ws using List.reverseRec with
  | nil => exact holds_empty
  | append_singleton ws w ih =>
      rw [written_concat]
      exact ih.write w.1 w.2.1 w.2.2

-- =========================================================== later writes

/-- Writes under later numbers are not seen. -/
theorem seen_append_later (h : ∀ u ∈ us, seq < u.1) (k : Bytes) :
    seen (ws ++ us) seq k = seen ws seq k := by
  have hnone : us.filter (fun w => w.1 ≤ seq) = [] := by
    refine List.filter_eq_nil_iff.mpr fun u hu => ?_
    rw [decide_eq_true_eq]
    exact UInt64.not_le.mpr (h u hu)
  unfold seen
  rw [List.filter_append, hnone, List.append_nil]

/-- A memtable answers a reader as another one does. -/
def SameFor (seq : UInt64) (m n : Memtable) : Prop :=
  (∀ k, m.get seq k = n.get seq k) ∧ ∀ b d, m.seek seq b d = n.seek seq b d

/-- Memtables in whose writes a reader sees the same answer it the same. -/
theorem Holds.sameFor {n : Memtable} (hm : m.Holds ws) (hn : n.Holds us)
    (h : ∀ k, seen ws seq k = seen us seq k) : SameFor seq m n := by
  refine ⟨fun k => ?_, fun b d => ?_⟩
  · rw [hm.get, hn.get, h]
  · exact ((hm.seek seq b d).congr h).unique (hn.seek seq b d)

-- ============================================================= main result

/-- A memtable holds the writes that made it, and to write under later numbers
changes nothing for a reader. -/
theorem reads_as_written (ws us : List (UInt64 × Bytes × Entry)) (seq : UInt64)
    (h : ∀ u ∈ us, seq < u.1) :
    (written ws).Holds ws ∧ SameFor seq (written (ws ++ us)) (written ws) :=
  ⟨holds_written ws, (holds_written (ws ++ us)).sameFor (holds_written ws) (seen_append_later h)⟩

/-- A key between two others that is written last, and a value and a deletion of
one key under one number. -/
def sampleHistory : List (UInt64 × Bytes × Entry) :=
  [(1, [1], .value [7, 7]), (2, [4], .value []), (2, [4], .tombstone), (4, [2], .value [3])]

/-- A reader with the number three passes the key in the middle over, both ways,
and finds the later of the two writes under one number; a deletion under a later
number is nothing to it. -/
theorem reads_as_written_sampleHistory :
    (∀ u ∈ [((5 : UInt64), ([1] : Bytes), Entry.tombstone)], 3 < u.1) ∧
      (written sampleHistory).Holds sampleHistory ∧
      (written (sampleHistory ++ [(5, [1], .tombstone)])).seek 3 (.excluded [1]) .forward
        = some ([4], .tombstone) ∧
      (written (sampleHistory ++ [(5, [1], .tombstone)])).seek 3 (.excluded [4]) .reverse
        = some ([1], .value [7, 7]) := by
  have hlater : ∀ u ∈ [((5 : UInt64), ([1] : Bytes), Entry.tombstone)], 3 < u.1 := by decide
  obtain ⟨hholds, -, hseek⟩ := reads_as_written sampleHistory _ 3 hlater
  exact ⟨hlater, hholds, (hseek _ _).trans (by decide), (hseek _ _).trans (by decide)⟩

end OrderedStore.Memtable
