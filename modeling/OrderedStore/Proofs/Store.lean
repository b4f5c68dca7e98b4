/-
The invariant of an open store, and the steps that keep it.

`Sound` ties the parts of an open store to the operations that were logged
so far: reading through memtable and tables gives every key its last write
among them, the tables are those on the volume, and the log holds the end
of the row, which is what the memtable holds. There are three steps that
change a store: an operation is recorded (`recorded`), the memtable is
turned over into a table, and the log is emptied. Each has one lemma here,
and everything the store does is made of them.

The bounds are of one kind. Every operation takes bytes in the log, so if
all that was ever logged takes fewer bytes than eight digits can count, no
number of the store runs over: not the sequence number, not the numbers of
the tables, not the offsets in a table.
-/
import Mathlib
import OrderedStore.Engine
import OrderedStore.Proofs.Catalog
import OrderedStore.Proofs.LogFrames
import OrderedStore.Proofs.View

namespace OrderedStore

-- ================================================================ numbers

/-- A number that does not run over is followed by the next. -/
theorem toNat_succ {x : UInt64} (h : x.toNat + 1 < UInt64.size) :
    (x + 1).toNat = x.toNat + 1 := by
  rw [UInt64.toNat_add, show (1 : UInt64).toNat = 1 from rfl]
  exact Nat.mod_eq_of_lt h

/-- It is below the one that follows. -/
theorem lt_succ {x : UInt64} (h : x.toNat + 1 < UInt64.size) : x < x + 1 := by
  rw [UInt64.lt_iff_toNat_lt, toNat_succ h]
  omega

-- ============================================================= operations

namespace Operation

/-- The operation's record is read back: its payload is not longer than is
plausible. -/
def Fits (op : Operation) : Prop :=
  op.serialize.length + 8 ≤ LogRecord.maxPayload

/-- The operation can be logged: its payload fits a frame. -/
def Loggable (op : Operation) : Prop :=
  op.serialize.length + 8 < UInt32.size

instance (op : Operation) : Decidable op.Fits :=
  inferInstanceAs (Decidable (_ ≤ _))

instance (op : Operation) : Decidable op.Loggable :=
  inferInstanceAs (Decidable (_ < _))

/-- What is read back can be logged. -/
theorem Fits.loggable {op : Operation} (h : op.Fits) : op.Loggable :=
  lt_of_le_of_lt h (by decide)

/-- The bytes that operations take in the log. -/
def logged (ops : List Operation) : Nat :=
  (ops.map fun op => 24 + op.serialize.length).sum

/-- More operations take their own bytes more. -/
theorem logged_append (ops ops' : List Operation) :
    logged (ops ++ ops') = logged ops + logged ops' := by
  unfold logged
  rw [List.map_append, List.sum_append]

/-- One operation's bytes. -/
theorem logged_singleton (op : Operation) : logged [op] = 24 + op.serialize.length := by
  unfold logged
  rw [List.map_singleton, List.sum_singleton]

/-- The bytes are those of the frames and those of the operations. -/
theorem logged_eq (ops : List Operation) :
    logged ops = 24 * ops.length + (serializeAll ops).length := by
  induction ops with
  | nil => rfl
  | cons op ops ih =>
      have hcons : logged (op :: ops) = 24 + op.serialize.length + logged ops := rfl
      rw [hcons, ih, List.length_cons, serializeAll, List.length_append]
      omega

/-- The serialized forms of two rows stand one behind the other. -/
theorem serializeAll_append (ops ops' : List Operation) :
    serializeAll (ops ++ ops') = serializeAll ops ++ serializeAll ops' := by
  induction ops with
  | nil => rfl
  | cons op ops ih =>
      rw [List.cons_append, serializeAll, ih, serializeAll, List.append_assoc]

/-- The serialized form of a row of one. -/
theorem serializeAll_singleton (op : Operation) : serializeAll [op] = op.serialize := by
  rw [serializeAll, serializeAll, List.append_nil]

end Operation

-- ================================================================= memory

namespace Memory

variable {mem : Memory} {n i : Nat}

/-- A memtable that is replaced is the new one, and the others stay. -/
theorem memtable_set (hn : n < mem.memtables.length) (m : Memtable) (i : Nat) :
    (mem.memtables.set n m).getD i Memtable.empty
      = if i = n then m else mem.memtable i := by
  by_cases hin : i = n
  · subst hin
    rw [if_pos rfl, List.getD_eq_getElem?_getD, List.getElem?_set_self hn]
    rfl
  · rw [if_neg hin, List.getD_eq_getElem?_getD, List.getElem?_set_ne (Ne.symm hin)]
    exact (List.getD_eq_getElem?_getD ..).symm

/-- One more memtable leaves the others alone. -/
theorem memtable_append (hi : i < mem.memtables.length) (m : Memtable) :
    (mem.memtables ++ [m]).getD i Memtable.empty = mem.memtable i :=
  List.getD_append _ _ _ _ hi

/-- One more memtable has the next number. -/
theorem memtable_append_self (mem : Memory) (m : Memtable) :
    (mem.memtables ++ [m]).getD mem.memtables.length Memtable.empty = m := by
  rw [List.getD_append_right _ _ _ _ (le_refl _), Nat.sub_self]
  rfl

end Memory

namespace Memtable

/-- Writes leave a memtable empty only if there are none. -/
theorem isEmpty_writeAll (m : Memtable) (q : UInt64) (ws : List (Bytes × Entry)) :
    (m.writeAll q ws).isEmpty = (m.isEmpty && ws.isEmpty) := by
  induction ws generalizing m with
  | nil => rw [List.isEmpty_nil, Bool.and_true]; rfl
  | cons w ws ih =>
      have hone : (m.write q w.1 w.2).isEmpty = false := by
        unfold isEmpty KeyMap.isEmpty
        rw [List.isEmpty_eq_false_iff]
        intro hnil
        have hfound := find?_write m q w.1 w.1 w.2
        rw [if_pos rfl, ← KeyMap.mem_entries, hnil] at hfound
        cases hfound
      show ((m.write q w.1 w.2).writeAll q ws).isEmpty = _
      rw [ih, hone, Bool.false_and, List.isEmpty_cons, Bool.and_false]

end Memtable

/-- A step on the volume is one on the store. -/
theorem Disk.onStore_ok {α : Type} {step : Disk α} {s : Store} {a : α} {v : Volume}
    (h : step s.volume = .ok a v) : step.onStore s = .ok a { s with volume := v } := by
  unfold Disk.onStore
  rw [h]

/-- A step on the store that ends well is one on its volume, and changes nothing
beside. -/
theorem Disk.of_onStore_ok {α : Type} {step : Disk α} {s s' : Store} {a : α}
    (h : step.onStore s = .ok a s') :
    ∃ v, step s.volume = .ok a v ∧ s' = { s with volume := v } := by
  unfold Disk.onStore at h
  cases hstep : step s.volume with
  | error f v =>
      rw [hstep] at h
      cases h
  | ok b v =>
      rw [hstep] at h
      cases h
      exact ⟨v, rfl, rfl⟩

/-- So is one that fails. -/
theorem Disk.of_onStore_error {α : Type} {step : Disk α} {s s' : Store} {f : Failure}
    (h : step.onStore s = .error f s') :
    ∃ v, step s.volume = .error f v ∧ s' = { s with volume := v } := by
  unfold Disk.onStore at h
  cases hstep : step s.volume with
  | error g v =>
      rw [hstep] at h
      cases h
      exact ⟨v, rfl, rfl⟩
  | ok b v =>
      rw [hstep] at h
      cases h

namespace Log.Writer

variable {op : Operation}

/-- An operation that can be logged is appended in its frame. -/
theorem append_ok (w : Log.Writer) (now : UInt64) (hop : op.Loggable) (v : Volume) :
    w.append now op v = .ok (w.nextLsn, { w with nextLsn := w.nextLsn + 1 })
      (v.setContent w.file (v.content w.file ++ (LogRecord.mk w.nextLsn op now).bytes)) := by
  have hframe : LogRecord.frame ⟨w.nextLsn, op, now⟩
      = .ok (LogRecord.mk w.nextLsn op now).bytes := by
    unfold LogRecord.frame
    rw [if_neg]
    · rfl
    · rw [LogRecord.length_payload]
      exact not_le.mpr hop
  unfold append
  rw [hframe]
  rfl

/-- An operation that cannot be logged is refused, and nothing changes. -/
theorem append_refused (w : Log.Writer) (now : UInt64) (hop : ¬op.Loggable) (v : Volume) :
    w.append now op v = .error (.recordTooLarge (op.serialize.length + 8)) v := by
  have hframe : LogRecord.frame ⟨w.nextLsn, op, now⟩
      = .error (.recordTooLarge (op.serialize.length + 8)) := by
    unfold LogRecord.frame
    rw [LogRecord.length_payload]
    exact if_pos (not_lt.mp hop)
  unfold append
  rw [hframe]
  rfl

end Log.Writer

namespace Engine

/-- Where the log of a store is. -/
def logPath (dir : Path) : Path := dir ++ [logName]

/-- Where the tables of a store are. -/
def tablesPath (dir : Path) : Path := dir ++ [tablesName]

/-- The log is not one of the tables. -/
theorem logPath_ne_child (dir : Path) (name : String) : logPath dir ≠ tablesPath dir ++ [name] := by
  intro heq
  have := congrArg List.length heq
  simp only [logPath, tablesPath, List.length_append, List.length_singleton] at this
  omega

/-- The log is not one of the directories around the tables. -/
theorem ne_logPath_of_prefix {dir q : Path} (h : q <+: tablesPath dir) : q ≠ logPath dir := by
  rintro rfl
  have heq : logPath dir = tablesPath dir := h.eq_of_length (by
    unfold logPath tablesPath
    rw [List.length_append, List.length_append]
    rfl)
  exact absurd (Catalog.child_inj heq) (by decide)

end Engine

open Engine Catalog

namespace Store

-- ============================================================== invariant

/-- One if there is something to be flushed: a table number that will be
used up. -/
def owed (nothing : Bool) : Nat :=
  if nothing then 0 else 1

/-- What the log of a store in memory holds: the records of the end of the
row of operations, which are what the memtable was written from. -/
structure Durable (s : Store) (ops : List Operation) (rs : List LogRecord) : Prop where
  content : s.volume.content s.engine.log.file = Log.frames rs
  suffix : rs.map LogRecord.operation <:+ ops
  empty : s.current.isEmpty
    = (Operation.writesOfAll (rs.map LogRecord.operation)).isEmpty
  newest : ∀ k, s.current.newest.find? k
    = lastWrite (Operation.writesOfAll (rs.map LogRecord.operation)) k

/-- An open store in the directory, after `ops` were logged. `ids` are the
numbers of its tables, highest first; `spare` is how many more of them may
have been used up than there are operations. -/
structure Sound (dir : Path) (spare : Nat) (s : Store) (ops : List Operation)
    (ids : List UInt64) : Prop where
  directory : s.engine.catalog.directory = tablesPath dir
  shelved : Shelved s.volume (tablesPath dir) ids s.engine.catalog.tables
  next : s.engine.catalog.nextId = nextOf ids
  above : ∀ id ∈ ids, id < nextOf ids
  room : (nextOf ids).toNat + owed s.current.isEmpty ≤ ops.length + spare
  log : s.volume.node? (logPath dir) = some (.file s.engine.log.file)
  current : s.engine.memtable < s.memtables.length
  under : s.current.Under s.engine.lastSeq
  compact : s.current.Compact
  bytes : (Table.dataBlock s.current.latest).length ≤ (Operation.serializeAll ops).length
  applied : s.engine.lastSeq.toNat ≤ ops.length
  entries : ∀ k, s.engine.view.entry s.toMemory k
    = lastWrite (Operation.writesOfAll ops) k
  durable : ∃ rs, Durable s ops rs

variable {dir : Path} {spare : Nat} {s s' : Store} {ops : List Operation}
  {ids : List UInt64} {op : Operation}

/-- The tables of a sound store can be read. -/
theorem Sound.readable (h : s.Sound dir spare ops ids) : s.engine.view.Readable s.toMemory :=
  h.shelved.readable

/-- A sound store reads as what its operations leave. -/
theorem Sound.reads (h : s.Sound dir spare ops ids) :
    s.engine.view.Reads s.toMemory (contents ops) := by
  refine View.reads_of_entry h.readable fun k => ?_
  rw [h.entries, find?_contents]

/-- What the memtable holds and what the tables hold, taken apart. -/
theorem Sound.newest_or (h : s.Sound dir spare ops ids) (k : Bytes) :
    (s.current.newest.find? k).or (Tables.entry s.volume s.engine.catalog.tables k)
      = lastWrite (Operation.writesOfAll ops) k := by
  rw [← h.entries, ← h.under.get_eq]
  rfl

/-- The clock may be set at any time. -/
theorem Sound.tick (h : s.Sound dir spare ops ids) (now : UInt64) :
    { s with engine := { s.engine with clock := now } }.Sound dir spare ops ids :=
  ⟨h.directory, h.shelved, h.next, h.above, h.room, h.log, h.current, h.under, h.compact,
    h.bytes, h.applied, h.entries,
      let ⟨rs, hrs⟩ := h.durable
      ⟨rs, hrs.content, hrs.suffix, hrs.empty, hrs.newest⟩⟩

/-- If all operations are read back, the records of the log are. -/
theorem Durable.fits {rs : List LogRecord} (h : Durable s ops rs)
    (hfits : ∀ op ∈ ops, op.Fits) : ∀ r ∈ rs, r.Fits := by
  intro r hr
  show r.payload.length ≤ _
  rw [LogRecord.length_payload]
  exact hfits _ (h.suffix.subset (List.mem_map_of_mem hr))

-- ============================================================== recording

/-- The record that the next operation is logged as. -/
def nextRecord (s : Store) (op : Operation) : LogRecord :=
  ⟨s.engine.log.nextLsn, op, s.engine.clock⟩

/-- The store with one more operation in the log and in the memtable. -/
def recorded (s : Store) (op : Operation) : Store where
  volume := s.volume.setContent s.engine.log.file
    (s.volume.content s.engine.log.file ++ (s.nextRecord op).bytes)
  memtables := s.memtables.set s.engine.memtable
    (s.current.writeAll (s.engine.lastSeq + 1) op.writes)
  engine := { s.engine with
    log := { s.engine.log with nextLsn := s.engine.log.nextLsn + 1 }
    lastSeq := s.engine.lastSeq + 1 }

/-- An operation that can be logged is recorded. -/
theorem record_ok (s : Store) (hop : op.Loggable) : record op s = .ok () (s.recorded op) := by
  have happend := Log.Writer.append_ok s.engine.log s.engine.clock hop s.volume
  unfold record
  rw [bind_get]
  show ((s.engine.log.append s.engine.clock op).onStore >>= _) s = _
  rw [bind_ok (Disk.onStore_ok happend)]
  rfl

/-- An operation that cannot be logged is refused, and nothing changes. -/
theorem record_refused (s : Store) (hop : ¬op.Loggable) :
    record op s = .error (.recordTooLarge (op.serialize.length + 8)) s := by
  have happend : (s.engine.log.append s.engine.clock op).onStore s
      = .error (.recordTooLarge (op.serialize.length + 8)) s := by
    unfold Disk.onStore
    rw [Log.Writer.append_refused s.engine.log s.engine.clock hop s.volume]
  unfold record
  rw [bind_get]
  show ((s.engine.log.append s.engine.clock op).onStore >>= _) s = _
  rw [bind_error happend]

/-- The memtable after an operation was recorded. -/
theorem Sound.current_recorded (h : s.Sound dir spare ops ids) (op : Operation) :
    (s.recorded op).current = s.current.writeAll (s.engine.lastSeq + 1) op.writes := by
  show (s.memtables.set s.engine.memtable _).getD s.engine.memtable Memtable.empty = _
  rw [Memory.memtable_set h.current, if_pos rfl]

/-- The log of a sound store is not one of its tables. -/
theorem Sound.agree_recorded (h : s.Sound dir spare ops ids) (op : Operation) :
    s.volume.Agree (fun q => q ≠ logPath dir) (s.recorded op).volume :=
  Volume.agree_setContent h.shelved.sane h.log _

/-- What the tables of a sound store hold does not change when the log
does. -/
theorem Sound.tables_entry_log (h : s.Sound dir spare ops ids) (bs : Bytes) (k : Bytes) :
    Tables.entry (s.volume.setContent s.engine.log.file bs) s.engine.catalog.tables k
      = Tables.entry s.volume s.engine.catalog.tables k := by
  refine Tables.entry_congr (fun t ht => ?_) k
  obtain ⟨id, -, hpath⟩ := h.shelved.path_of_mem ht
  refine (Volume.agree_setContent h.shelved.sane h.log bs t.path ?_).2 t.file
    (h.shelved.stands t ht).named
  rw [hpath]
  exact Ne.symm (logPath_ne_child dir _)

/-- The number of the next operation does not run over. -/
theorem Sound.toNat_lastSeq_lt (h : s.Sound dir spare ops ids)
    (hlogged : Operation.logged (ops ++ [op]) < UInt64.size) :
    s.engine.lastSeq.toNat + 1 < UInt64.size := by
  have := h.applied
  rw [Operation.logged_eq, List.length_append, List.length_singleton] at hlogged
  omega

/-- Recording keeps the invariant. -/
theorem Sound.recorded (h : s.Sound dir spare ops ids) (hop : op.Loggable)
    (hlogged : Operation.logged (ops ++ [op]) < UInt64.size) :
    (s.recorded op).Sound dir spare (ops ++ [op]) ids := by
  have hcurrent := h.current_recorded op
  have hseq := h.toNat_lastSeq_lt hlogged
  have hlater := lt_succ hseq
  have hunder : (s.recorded op).current.Under (s.engine.lastSeq + 1) := by
    rw [hcurrent]
    exact (h.under.mono (UInt64.le_of_lt hlater)).writeAll op.writes
  have hshelved : Shelved (s.recorded op).volume (tablesPath dir) ids
      s.engine.catalog.tables := by
    refine h.shelved.agree (h.shelved.sane.setContent _ _) (h.agree_recorded op) ?_ ?_
    · exact fun q hq => ne_logPath_of_prefix hq
    · exact fun name => Ne.symm (logPath_ne_child dir name)
  have hwrites := Operation.length_writes_lt op
  refine ⟨h.directory, hshelved, h.next, h.above, ?_, h.log, ?_, hunder, ?_, ?_, ?_,
    fun k => ?_, ?_⟩
  · have := h.room
    rw [List.length_append, List.length_singleton]
    have howed : owed (s.recorded op).current.isEmpty ≤ 1 := by
      unfold owed
      split <;> omega
    omega
  · show s.engine.memtable < (s.memtables.set _ _).length
    rw [List.length_set]
    exact h.current
  · rw [hcurrent]
    refine h.compact.writeAll ?_
    have : op.serialize.length + 8 < UInt32.size := hop
    omega
  · have := h.bytes
    have := Memtable.length_dataBlock_writeAll op.writes s.current (s.engine.lastSeq + 1)
    rw [hcurrent, Operation.serializeAll_append, Operation.serializeAll_singleton,
      List.length_append]
    omega
  · show (s.engine.lastSeq + 1).toNat ≤ _
    have := h.applied
    rw [toNat_succ hseq, List.length_append, List.length_singleton]
    omega
  · show ((s.recorded op).current.get (s.engine.lastSeq + 1) k).or
      (Tables.entry (s.recorded op).volume s.engine.catalog.tables k) = _
    rw [hunder.get_eq, hcurrent, Memtable.find?_newest_writeAll, Operation.writesOfAll_append,
      Operation.writesOfAll_singleton, lastWrite_append, ← h.newest_or k, Option.or_assoc]
    congr 2
    exact h.tables_entry_log _ k
  · obtain ⟨rs, hrs⟩ := h.durable
    refine ⟨rs ++ [s.nextRecord op], ?_, ?_, ?_, fun k => ?_⟩
    · show (s.volume.setContent _ _).content s.engine.log.file = _
      rw [Volume.content_setContent (h.shelved.sane.within _ _ h.log), if_pos rfl, hrs.content,
        Log.frames_concat]
    · obtain ⟨front, hfront⟩ := hrs.suffix
      refine ⟨front, ?_⟩
      rw [List.map_append, ← List.append_assoc, hfront]
      rfl
    · rw [hcurrent, Memtable.isEmpty_writeAll, hrs.empty, List.map_append,
        Operation.writesOfAll_append, List.map_singleton, Operation.writesOfAll_singleton]
      cases Operation.writesOfAll (rs.map LogRecord.operation) <;> rfl
    · rw [hcurrent, Memtable.find?_newest_writeAll, hrs.newest, List.map_append,
        Operation.writesOfAll_append, lastWrite_append]
      congr 2
      exact (Operation.writesOfAll_singleton op).symm

end Store

end OrderedStore
