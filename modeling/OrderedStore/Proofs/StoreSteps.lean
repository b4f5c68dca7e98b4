/-
What the steps of a store do to the store and to the views of it.

A view that was taken of a store holds numbers: of a memtable, and of the
files of its tables. `Pins` says that those are still what they were for
the view. Recording writes to the memtable under a number the view does not
see; flushing leaves the memtable as it is and goes on with another one,
and it only adds to the files. So every step keeps every view (`Keeps`),
and it keeps the invariant; the two are proved side by side for each step
and then for what is made of steps.
-/
import Mathlib
import OrderedStore.Proofs.Store

namespace OrderedStore.Store

open Engine Catalog

variable {dir : Path} {spare : Nat} {s s' s'' : Store} {ops : List Operation}
  {ids : List UInt64} {op : Operation} {w : View} {f : Bytes → Option Entry}

-- ================================================================== views

/-- The view holds `f`: its memtable is there, everything it sees of it was
written already, its tables are open, and a key's entry is what `f`
says. -/
structure Pins (s : Store) (w : View) (f : Bytes → Option Entry) : Prop where
  memtable : w.memtable < s.memtables.length
  seq : w.memtable = s.engine.memtable → w.seq ≤ s.engine.lastSeq
  tables : w.tables ⊆ s.engine.catalog.tables
  entry : ∀ k, w.entry s.toMemory k = f k

/-- Every view of the one store holds the same in the other. -/
def Keeps (s s' : Store) : Prop :=
  ∀ w f, s.Pins w f → s'.Pins w f

/-- Nothing happens to views when nothing is done. -/
theorem Keeps.refl (s : Store) : s.Keeps s :=
  fun _ _ h => h

/-- What two steps keep, both together keep. -/
theorem Keeps.trans (h : s.Keeps s') (h' : s'.Keeps s'') : s.Keeps s'' :=
  fun w f hw => h' w f (h w f hw)

/-- A view taken of a sound store holds what was logged. -/
theorem Sound.pins (h : s.Sound dir spare ops ids) :
    s.Pins s.engine.view (lastWrite (Operation.writesOfAll ops)) :=
  ⟨h.current, fun _ => UInt64.le_refl _, List.Subset.refl _, h.entries⟩

/-- A view of a sound store reads as the map of what it holds. -/
theorem Pins.reads (hw : s.Pins w f) (h : s.Sound dir spare ops ids) {m : KeyMap Bytes}
    (hm : ∀ k, (f k).bind Entry.value? = m.find? k) : w.Reads s.toMemory m := by
  refine View.reads_of_entry (fun t ht => h.shelved.readable t (hw.tables ht)) fun k => ?_
  rw [hw.entry, hm]

-- ============================================================== recording

/-- What is recorded is not seen by views taken before. -/
theorem Sound.keeps_recorded (h : s.Sound dir spare ops ids)
    (hlogged : Operation.logged (ops ++ [op]) < UInt64.size) : s.Keeps (s.recorded op) := by
  intro w f hw
  have hlater := lt_succ (h.toNat_lastSeq_lt hlogged)
  refine ⟨?_, fun heq => ?_, hw.tables, fun k => ?_⟩
  · show w.memtable < (s.memtables.set _ _).length
    rw [List.length_set]
    exact hw.memtable
  · exact UInt64.le_trans (hw.seq heq) (UInt64.le_of_lt hlater)
  · rw [← hw.entry]
    unfold View.entry
    congr 1
    · show ((s.memtables.set s.engine.memtable _).getD w.memtable Memtable.empty).get w.seq k = _
      rw [Memory.memtable_set h.current]
      split
      · next heq =>
          have hseen : w.seq < s.engine.lastSeq + 1 :=
            UInt64.lt_of_le_of_lt (hw.seq heq) hlater
          rw [Memtable.get_writeAll_later _ _ hseen, heq]
          rfl
      · rfl
    · refine Tables.entry_congr (fun t ht => ?_) k
      obtain ⟨id, -, hpath⟩ := h.shelved.path_of_mem (hw.tables ht)
      refine (h.agree_recorded op t.path ?_).2 t.file (h.shelved.stands t (hw.tables ht)).named
      rw [hpath]
      exact Ne.symm (logPath_ne_child dir _)

-- =============================================================== flushing

/-- The store that goes on with an empty memtable over one more table. -/
def turned (s : Store) (t : Table) (v : Volume) : Store where
  volume := v
  memtables := s.memtables ++ [Memtable.empty]
  engine := { s.engine with
    catalog := ⟨s.engine.catalog.directory, t :: s.engine.catalog.tables,
      s.engine.catalog.nextId + 1⟩
    memtable := s.memtables.length }

/-- A memtable with nothing in it cannot be turned over. -/
theorem turnOver_empty (hempty : s.current.isEmpty = true) :
    turnOver s = .error (.table .nothingToFlush) s := by
  have hstep : (s.engine.catalog.flush s.current).onStore s
      = .ok (.error (.table .nothingToFlush), s.engine.catalog) s := by
    refine Disk.onStore_ok ?_
    unfold Catalog.flush
    rw [if_pos hempty]
    rfl
  unfold turnOver
  rw [bind_get, bind_ok hstep]
  rfl

/-- A memtable that was turned over was made a table, and an empty one is in its
place. -/
theorem of_turnOver_ok (h : turnOver s = .ok () s') :
    ∃ catalog v, s.engine.catalog.flush s.current s.volume = .ok (.ok (), catalog) v ∧
      s' = { volume := v
             memtables := s.memtables ++ [Memtable.empty]
             engine := { s.engine with catalog := catalog, memtable := s.memtables.length } } := by
  unfold turnOver at h
  rw [bind_get] at h
  obtain ⟨⟨outcome, catalog⟩, s₁, hstep, hrest⟩ := of_bind_ok h
  obtain ⟨v, hflush, rfl⟩ := Disk.of_onStore_ok hstep
  cases outcome with
  | error f => cases hrest
  | ok u =>
      cases hrest
      exact ⟨catalog, v, hflush, rfl⟩

/-- One that could not be turned over stays as it was. -/
theorem of_turnOver_error {f : Failure} (h : turnOver s = .error f s') :
    ∃ catalog v, s' = { s with volume := v, engine := { s.engine with catalog := catalog } } := by
  unfold turnOver at h
  rw [bind_get] at h
  rcases of_bind_error h with hstep | ⟨⟨outcome, catalog⟩, s₁, hstep, hrest⟩
  · obtain ⟨v, -, rfl⟩ := Disk.of_onStore_error hstep
    exact ⟨s.engine.catalog, v, rfl⟩
  · obtain ⟨v, -, rfl⟩ := Disk.of_onStore_ok hstep
    cases outcome with
    | ok u => cases hrest
    | error g =>
        cases hrest
        exact ⟨catalog, v, rfl⟩

/-- What turning the memtable over does: one more table is on the shelf,
which holds what the memtable held, and nothing else is touched. -/
structure Turned (dir : Path) (s : Store) (ids : List UInt64) (t : Table) (v : Volume) :
    Prop where
  shelved : Shelved v (tablesPath dir) (nextOf ids :: ids) (t :: s.engine.catalog.tables)
  agree : s.volume.Agree (fun q => ∀ name, q ≠ tablesPath dir ++ [name]) v
  tables : ∀ u ∈ s.engine.catalog.tables, v.content u.file = s.volume.content u.file
  entry : ∀ k, t.entry v k = s.current.newest.find? k

/-- A memtable with something in it can be turned over. -/
theorem Sound.turnOver_ok (h : s.Sound dir spare ops ids) (hne : s.current.isEmpty = false)
    (hlogged : Operation.logged ops < UInt64.size) :
    ∃ t v, turnOver s = .ok () (s.turned t v) ∧ Turned dir s ids t v := by
  have hops : 1 ≤ ops.length := by
    by_contra hnone
    have hnil : ops = [] := List.length_eq_zero_iff.mp (by omega)
    have hbytes := h.bytes
    subst hnil
    have hlatest : s.current.latest = [] := by
      have := Table.length_le_dataBlock s.current.latest
      exact List.length_eq_zero_iff.mp (Nat.le_zero.mp (le_trans this hbytes))
    rw [← h.under.isEmpty_iff, hne] at hlatest
    cases hlatest
  have hstorable : Table.Storable s.current.latest := by
    refine h.compact.storable ?_
    have := h.bytes
    rw [Operation.logged_eq] at hlogged
    show 14 + _ < _
    omega
  have hnext : ∀ id ∈ ids, id < nextOf ids := h.above
  obtain ⟨t, v, hflush, hshelved, hagree, hentry⟩ :=
    Catalog.flush_ok h.shelved hnext hstorable hne
  have hcatalog : s.engine.catalog
      = ⟨tablesPath dir, s.engine.catalog.tables, nextOf ids⟩ := by
    rw [← h.directory, ← h.next]
  refine ⟨t, v, ?_, hshelved, ?_, fun u hu => ?_, fun k => ?_⟩
  · unfold turnOver
    rw [bind_get]
    have hstep : (s.engine.catalog.flush s.current).onStore s
        = .ok (.ok (), ⟨tablesPath dir, t :: s.engine.catalog.tables, nextOf ids + 1⟩)
            { s with volume := v } := by
      refine Disk.onStore_ok ?_
      rw [hcatalog]
      exact hflush
    rw [bind_ok hstep]
    unfold turned
    rw [h.directory, h.next]
    rfl
  · exact hagree.mono fun q hq => ⟨hq _, hq _⟩
  · obtain ⟨id, hid, hpath⟩ := h.shelved.path_of_mem hu
    refine (hagree u.path ⟨?_, ?_⟩).2 u.file (h.shelved.stands u hu).named
    · rw [hpath]
      exact fun heq => tableName_ne_temporary id _ (child_inj heq)
    · rw [hpath]
      intro heq
      have hlt := hnext id hid
      rw [tableName_injective (child_inj heq)] at hlt
      exact absurd hlt (UInt64.lt_irrefl _)
  · rw [hentry, Memtable.latest_eq]
    rfl

/-- The store after a flush: turned over, and the log emptied. -/
def flushed (s : Store) (t : Table) (v : Volume) : Store :=
  { s.turned t v with volume := v.setContent s.engine.log.file [] }

variable {t : Table} {v : Volume}

/-- The log stays where it is when the memtable is turned over. -/
theorem Turned.log (ht : Turned dir s ids t v) (h : s.Sound dir spare ops ids) :
    v.node? (logPath dir) = some (.file s.engine.log.file) := by
  rw [(ht.agree _ fun name => logPath_ne_child dir name).1, h.log]

/-- Emptying the log leaves the tables alone. -/
theorem Turned.agree_truncated (ht : Turned dir s ids t v) (h : s.Sound dir spare ops ids) :
    v.Agree (fun q => q ≠ logPath dir) (v.setContent s.engine.log.file []) :=
  Volume.agree_setContent ht.shelved.sane (ht.log h) []

/-- What the tables hold is not touched by emptying the log. -/
theorem Turned.content_truncated (ht : Turned dir s ids t v) (h : s.Sound dir spare ops ids)
    {u : Table} (hu : u ∈ t :: s.engine.catalog.tables) :
    (v.setContent s.engine.log.file []).content u.file = v.content u.file := by
  obtain ⟨id, -, hpath⟩ := ht.shelved.path_of_mem hu
  refine (ht.agree_truncated h u.path ?_).2 u.file (ht.shelved.stands u hu).named
  rw [hpath]
  exact Ne.symm (logPath_ne_child dir _)

/-- The tables with the new one in front hold what was logged. -/
theorem Turned.entries (ht : Turned dir s ids t v) (h : s.Sound dir spare ops ids) (k : Bytes) :
    Tables.entry v (t :: s.engine.catalog.tables) k
      = lastWrite (Operation.writesOfAll ops) k := by
  rw [Tables.entry, ht.entry, Tables.entry_congr ht.tables, h.newest_or]

/-- The number of the next table does not run over. -/
theorem Sound.toNat_next_lt (h : s.Sound dir spare ops ids)
    (hroom : ops.length + spare < UInt64.size) (hne : s.current.isEmpty = false) :
    (nextOf ids).toNat + 1 < UInt64.size := by
  have := h.room
  rw [hne] at this
  have howed : owed false = 1 := rfl
  omega

/-- The number of the next table is above all others. -/
theorem Sound.above_next (h : s.Sound dir spare ops ids)
    (hroom : ops.length + spare < UInt64.size) (hne : s.current.isEmpty = false) :
    ∀ id ∈ nextOf ids :: ids, id < nextOf (nextOf ids :: ids) := by
  have hlt := lt_succ (h.toNat_next_lt hroom hne)
  intro id hid
  rcases List.mem_cons.mp hid with rfl | hid
  · exact hlt
  · exact UInt64.lt_trans (h.above id hid) hlt

/-- With nothing in the memtable a flush does nothing. -/
theorem flush_idle (hempty : s.current.isEmpty = true) : flush s = .ok () s := by
  unfold flush
  rw [bind_get, if_pos hempty]
  rfl

/-- Else it turns the memtable over and empties the log. -/
theorem flush_busy (hne : s.current.isEmpty = false) :
    flush s = (turnOver >>= fun _ => s.engine.log.truncate.onStore) s := by
  unfold flush
  rw [bind_get, if_neg (hne ▸ Bool.false_ne_true)]

/-- A flush that ends well had nothing to do or has done both. -/
theorem of_flush_ok (h : flush s = .ok () s') :
    s' = s ∨ ∃ s₁, turnOver s = .ok () s₁ ∧ s.engine.log.truncate.onStore s₁ = .ok () s' := by
  cases hempty : s.current.isEmpty with
  | true =>
      rw [flush_idle hempty] at h
      cases h
      exact Or.inl rfl
  | false =>
      rw [flush_busy hempty] at h
      obtain ⟨u, s₁, hturn, htruncate⟩ := of_bind_ok h
      exact Or.inr ⟨s₁, hturn, htruncate⟩

/-- One that fails has failed at one of the two. -/
theorem of_flush_error {f : Failure} (h : flush s = .error f s') :
    turnOver s = .error f s' ∨
      ∃ s₁, turnOver s = .ok () s₁ ∧ s.engine.log.truncate.onStore s₁ = .error f s' := by
  cases hempty : s.current.isEmpty with
  | true =>
      rw [flush_idle hempty] at h
      cases h
  | false =>
      rw [flush_busy hempty] at h
      exact (of_bind_error h).imp id fun ⟨_, s₁, hturn, htruncate⟩ => ⟨s₁, hturn, htruncate⟩

/-- A flush makes a table of the memtable and empties the log. -/
theorem flush_eq (hne : s.current.isEmpty = false)
    (hturn : turnOver s = .ok () (s.turned t v)) : flush s = .ok () (s.flushed t v) := by
  rw [flush_busy hne, bind_ok hturn]
  rfl

/-- Flushing keeps the invariant. -/
theorem Turned.sound (ht : Turned dir s ids t v) (h : s.Sound dir spare ops ids)
    (hroom : ops.length + spare < UInt64.size) (hne : s.current.isEmpty = false) :
    (s.flushed t v).Sound dir spare ops (nextOf ids :: ids) := by
  have hcurrent : (s.flushed t v).current = Memtable.empty :=
    Memory.memtable_append_self s.toMemory Memtable.empty
  have hagree := ht.agree_truncated h
  refine ⟨h.directory, ?_, ?_, h.above_next hroom hne, ?_, ?_, ?_, ?_, ?_, ?_, h.applied,
    fun k => ?_, ⟨[], ?_, List.nil_suffix, ?_, fun k => ?_⟩⟩
  · refine ht.shelved.agree (ht.shelved.sane.setContent _ _) hagree ?_ ?_
    · exact fun q hq => ne_logPath_of_prefix hq
    · exact fun name => Ne.symm (logPath_ne_child dir name)
  · show s.engine.catalog.nextId + 1 = nextOf ids + 1
    rw [h.next]
  · show (nextOf ids + 1).toNat + owed (s.flushed t v).current.isEmpty ≤ _
    have hroom' := h.room
    rw [hne] at hroom'
    rw [toNat_succ (h.toNat_next_lt hroom hne), hcurrent]
    exact hroom'
  · exact ht.log h
  · show s.memtables.length < (s.memtables ++ [Memtable.empty]).length
    rw [List.length_append, List.length_singleton]
    omega
  · rw [hcurrent]
    exact Memtable.under_empty _
  · rw [hcurrent]
    exact Memtable.compact_empty
  · rw [hcurrent]
    exact Nat.zero_le _
  · show ((s.flushed t v).current.get _ k).or (Tables.entry
      (v.setContent s.engine.log.file []) (t :: s.engine.catalog.tables) k) = _
    rw [hcurrent, Tables.entry_congr fun u hu => ht.content_truncated h hu, ht.entries h]
    rfl
  · show (v.setContent s.engine.log.file []).content s.engine.log.file = []
    rw [Volume.content_setContent (ht.shelved.sane.within _ _ (ht.log h)), if_pos rfl]
  · rw [hcurrent]
    rfl
  · rw [hcurrent]
    rfl

/-- Flushing keeps every view. -/
theorem Turned.keeps (ht : Turned dir s ids t v) (h : s.Sound dir spare ops ids) :
    s.Keeps (s.flushed t v) := by
  intro w f hw
  have hlt := hw.memtable
  refine ⟨?_, fun heq => ?_, fun u hu => List.mem_cons_of_mem _ (hw.tables hu), fun k => ?_⟩
  · show w.memtable < (s.memtables ++ [Memtable.empty]).length
    rw [List.length_append]
    omega
  · have heq : w.memtable = s.memtables.length := heq
    omega
  · rw [← hw.entry]
    unfold View.entry
    congr 1
    · show ((s.memtables ++ [Memtable.empty]).getD w.memtable Memtable.empty).get w.seq k = _
      rw [Memory.memtable_append hlt]
    · refine Tables.entry_congr (fun u hu => ?_) k
      have hopen := hw.tables hu
      show (v.setContent s.engine.log.file []).content u.file = _
      rw [ht.content_truncated h (List.mem_cons_of_mem _ hopen), ht.tables u hopen]

/-- A flush succeeds, and keeps the invariant and every view. -/
theorem Sound.flush_ok (h : s.Sound dir spare ops ids)
    (hlogged : Operation.logged ops < UInt64.size)
    (hroom : ops.length + spare < UInt64.size) :
    ∃ s' ids', flush s = .ok () s' ∧ s'.Sound dir spare ops ids' ∧ s.Keeps s' := by
  cases hempty : s.current.isEmpty with
  | true => exact ⟨s, ids, flush_idle hempty, h, Keeps.refl s⟩
  | false =>
      obtain ⟨t, v, hturn, ht⟩ := h.turnOver_ok hempty hlogged
      exact ⟨s.flushed t v, nextOf ids :: ids, flush_eq hempty hturn,
        ht.sound h hroom hempty, ht.keeps h⟩

-- =============================================================== applying

/-- To apply an operation that can be logged is to record it, and to flush if it
filled the memtable. -/
theorem apply_eq (s : Store) (hop : op.Loggable) :
    apply op s
      = if (s.recorded op).current.isFull (s.recorded op).engine.settings.flushLimit then
          flush (s.recorded op)
        else .ok () (s.recorded op) := by
  unfold apply
  rw [bind_ok (record_ok s hop), bind_get]
  split <;> rfl

/-- An operation that can be logged is applied. The invariant holds for the
row with that operation, and every view is kept. -/
theorem Sound.apply_ok (h : s.Sound dir spare ops ids) (hop : op.Loggable)
    (hlogged : Operation.logged (ops ++ [op]) < UInt64.size)
    (hroom : (ops ++ [op]).length + spare < UInt64.size) :
    ∃ s' ids', apply op s = .ok () s' ∧ s'.Sound dir spare (ops ++ [op]) ids' ∧
      s.Keeps s' := by
  have hsound := h.recorded hop hlogged
  have hkeeps : s.Keeps (s.recorded op) := h.keeps_recorded hlogged
  rw [apply_eq s hop]
  by_cases hfull : (s.recorded op).current.isFull
      (s.recorded op).engine.settings.flushLimit = true
  · obtain ⟨s', ids', hflush, hsound', hkeeps'⟩ := hsound.flush_ok hlogged hroom
    rw [if_pos hfull]
    exact ⟨s', ids', hflush, hsound', hkeeps.trans hkeeps'⟩
  · rw [if_neg hfull]
    exact ⟨_, ids, rfl, hsound, hkeeps⟩

/-- An operation that cannot be logged is refused, and nothing changes. -/
theorem apply_refused (s : Store) (hop : ¬op.Loggable) :
    apply op s = .error (.recordTooLarge (op.serialize.length + 8)) s := by
  unfold apply
  rw [bind_error (record_refused s hop)]

/-- An operation that was applied was recorded, and at most a flush came after. -/
theorem of_apply_ok (h : apply op s = .ok () s') :
    s' = s.recorded op ∨ flush (s.recorded op) = .ok () s' := by
  by_cases hop : op.Loggable
  · rw [apply_eq s hop] at h
    split at h
    · exact Or.inr h
    · cases h
      exact Or.inl rfl
  · rw [apply_refused s hop] at h
    cases h

/-- One that was not applied was refused, or the flush that came after it
failed. -/
theorem of_apply_error {f : Failure} (h : apply op s = .error f s') :
    ¬op.Loggable ∧ s' = s ∨ flush (s.recorded op) = .error f s' := by
  by_cases hop : op.Loggable
  · rw [apply_eq s hop] at h
    split at h
    · exact Or.inr h
    · cases h
  · rw [apply_refused s hop] at h
    cases h
    exact Or.inl ⟨hop, rfl⟩

end OrderedStore.Store
