/-
A view answers for its layers.

The layers of a view are rows of data: the writes its memtable was made by,
of which it sees those up to its number, over the rows of entries that its
tables hold, the newest first. What is live under a key is said by these
rows alone (`View.layered`), and both ways of reading come to it: a key is
answered with its live value, and a search finds the nearest live pair.

A search goes on behind every deletion it meets until it meets something
else. `View.Search` are its steps without a limit on their number, so that
they lead to an answer says that a search ends; it does because behind a
key that was met there are fewer keys ahead (`ahead_excluded_lt`).
-/
import Mathlib
import OrderedStore.Proofs.NewestTable
import OrderedStore.Proofs.View

namespace OrderedStore

-- =============================================================== memtables

namespace Memtable

variable {ws : List (UInt64 × Bytes × Entry)} {seq : UInt64} {k : Bytes}

/-- The memtable that writes leave, each with its number, one after the
other. Nothing is asked of the order of the numbers. -/
def written (ws : List (UInt64 × Bytes × Entry)) : Memtable :=
  ws.foldl (fun m w => m.write w.1 w.2.1 w.2.2) empty

/-- What the last write of the key says that has a number up to `seq`. -/
def seen (ws : List (UInt64 × Bytes × Entry)) (seq : UInt64) (k : Bytes) : Option Entry :=
  lastWrite ((ws.filter fun w => w.1 ≤ seq).map Prod.snd) k

/-- One more write is seen if its number is, and counts for its key. -/
theorem seen_concat (ws : List (UInt64 × Bytes × Entry)) (w : UInt64 × Bytes × Entry)
    (seq : UInt64) (k : Bytes) :
    seen (ws ++ [w]) seq k = if w.1 ≤ seq ∧ k = w.2.1 then some w.2.2 else seen ws seq k := by
  unfold seen
  rw [List.filter_append, List.filter_singleton]
  by_cases hseq : w.1 ≤ seq
  · simp only [hseq, decide_true, cond_true, List.map_append, List.map_cons, List.map_nil,
      lastWrite_concat, true_and]
  · simp only [hseq, decide_false, cond_false, List.append_nil, false_and, if_false]

/-- One more write is made on what the others leave. -/
theorem written_concat (ws : List (UInt64 × Bytes × Entry)) (w : UInt64 × Bytes × Entry) :
    written (ws ++ [w]) = (written ws).write w.1 w.2.1 w.2.2 := by
  unfold written
  rw [List.foldl_append, List.foldl_cons, List.foldl_nil]

/-- A reader finds the last write of a key that it sees. -/
theorem get_written (ws : List (UInt64 × Bytes × Entry)) (seq : UInt64) (k : Bytes) :
    (written ws).get seq k = seen ws seq k := by
  induction ws using List.reverseRec with
  | nil => rfl
  | append_singleton ws w ih => rw [written_concat, get_write, seen_concat, ih]

end Memtable

-- =================================================================== views

namespace View

variable {mem : Memory} {w : View} {d : Direction} {b : Bound}

/-- The steps of a search, without a limit on their number: nothing is
ahead, or the nearest key has a value, or it is deleted and the search goes
on behind it. -/
inductive Search (mem : Memory) (w : View) (d : Direction) :
    Bound → Option (Bytes × Bytes) → Prop
  | nothing {b : Bound} (h : w.nearest mem b d = .ok none) : Search mem w d b none
  | value {b : Bound} {k bs : Bytes} (h : w.nearest mem b d = .ok (some (k, .value bs))) :
      Search mem w d b (some (k, bs))
  | pass {b : Bound} {k : Bytes} {r : Option (Bytes × Bytes)}
      (h : w.nearest mem b d = .ok (some (k, .tombstone)))
      (rest : Search mem w d (.excluded k) r) : Search mem w d b r

/-- A search whose fuel is more than the keys ahead ends by itself. -/
theorem search_of_seekFrom (hw : w.Readable mem) {fuel : Nat} {r : Option (Bytes × Bytes)}
    (hfuel : (w.ahead mem b d).length < fuel) (h : w.seekFrom mem d fuel b = .ok r) :
    Search mem w d b r := by
  induction fuel generalizing b with
  | zero => omega
  | succ fuel ih =>
      obtain ⟨found, hfound, hnearest⟩ := nearest_ok hw b d
      rw [seekFrom, hfound] at h
      cases found with
      | none =>
          obtain rfl : none = r := Except.ok.inj h
          exact .nothing hfound
      | some p =>
          obtain ⟨k, e⟩ := p
          cases e with
          | value bs =>
              obtain rfl : some (k, bs) = r := Except.ok.inj h
              exact .value hfound
          | tombstone =>
              have hless := ahead_excluded_lt hnearest.1 hnearest.2.1
              exact .pass hfound (ih (by omega) h)

/-- What the layers say of a key, deletions included: the last write that
is seen, or else the newest row of entries that has the key. -/
def layered (ws : List (UInt64 × Bytes × Entry)) (rows : List (List (Bytes × Entry)))
    (seq : UInt64) (k : Bytes) : Option Entry :=
  (Memtable.seen ws seq k).or (Tables.newest rows k)

/-- A view answers for entries: a key with its live value; a search, which
ends, with the nearest live pair; and a key has a value exactly if a search
from the key on, either way, finds it there. -/
structure AnswersFor (mem : Memory) (w : View) (f : Bytes → Option Entry) : Prop where
  get : ∀ k, w.get mem k = .ok ((f k).bind Entry.value?)
  seek : ∀ b d, ∃ r, w.seek mem b d = .ok r ∧ Search mem w d b r ∧
    Nearest (fun k => (f k).bind Entry.value?) b d r
  point : ∀ k bs d, w.get mem k = .ok (some bs) ↔
    w.seek mem (.included k) d = .ok (some (k, bs))

/-- A view answers for its layers. -/
theorem answersFor_layered {ws : List (UInt64 × Bytes × Entry)}
    {rows : List (List (Bytes × Entry))}
    (hmem : mem.memtable w.memtable = Memtable.written ws)
    (htables : List.Forall₂ (Table.Holds mem.volume) w.tables rows) :
    w.AnswersFor mem (layered ws rows w.seq) := by
  have hw : w.Readable mem := Tables.readable_of_holds htables
  have hentry : w.entry mem = layered ws rows w.seq := by
    funext k
    unfold entry layered
    rw [hmem, Memtable.get_written, Tables.entry_eq_newest htables]
  have hfuel : ∀ b d, (w.ahead mem b d).length < w.extent mem + 1 := fun b d => by
    rw [← length_keys]
    exact Nat.lt_succ_of_le (List.length_filter_le _ _)
  rw [← hentry]
  refine ⟨get_ok hw, fun b d => ?_, fun k bs d => ?_⟩
  · obtain ⟨r, hr, hnearest⟩ := seek_ok hw b d
    exact ⟨r, hr, search_of_seekFrom hw (hfuel b d) hr, hnearest⟩
  · obtain ⟨r, hr, hnearest⟩ := seek_ok hw (.included k) d
    rw [get_ok hw, hr, Except.ok.injEq, Except.ok.injEq, hnearest.included_iff]

/-- Writes that a view with the number four sees in part: a run of deletions
over the tables and beside them, one of a key that is written twice, and two
writes that come too late, one of them a deletion over a table's value. -/
def sampleWrites : List (UInt64 × Bytes × Entry) :=
  [(1, [1], .value [4]), (2, [3], .tombstone), (2, [4], .tombstone), (4, [1], .tombstone),
    (5, [6], .value [6]), (5, [8], .tombstone)]

/-- A memory with their memtable over the sample tables. -/
def sampleMemory : Memory :=
  ⟨Tables.sampleVolume, [Memtable.written sampleWrites]⟩

/-- The view of it. -/
def sampleView : View :=
  ⟨0, Tables.sampleTables, 4⟩

/-- Between its lowest and its highest live key there are five keys that
are deleted or not yet written. -/
theorem answersFor_layered_sampleView :
    sampleMemory.memtable sampleView.memtable = Memtable.written sampleWrites ∧
      List.Forall₂ (Table.Holds sampleMemory.volume) sampleView.tables Tables.sampleRows ∧
      sampleView.AnswersFor sampleMemory (layered sampleWrites Tables.sampleRows 4) ∧
      [[], [1], [3], [4], [5], [6], [8], [9]].map (layered sampleWrites Tables.sampleRows 4)
        = [some (.value [9]), some .tombstone, some .tombstone, some .tombstone,
          some .tombstone, none, some (.value []), some .tombstone] :=
  ⟨rfl, Tables.holds_sampleTables.2, answersFor_layered rfl Tables.holds_sampleTables.2,
    by decide⟩

end View

end OrderedStore
