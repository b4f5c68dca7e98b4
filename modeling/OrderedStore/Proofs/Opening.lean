/-
Opening finds the operations again.

`Recoverable` is what a volume needs for that: the tables stand on their
shelf, the log begins with whole frames whose records are the end of the
row of operations, and reading through those records and the tables gives
every key its last write. A crash leaves such a volume wherever it strikes,
because a record may stand in the log and in a table at once: replaying it
writes again what was written (`lastWrite_again`).

What opening does before the log is emptied leaves a volume that is
recoverable for the same operations, with everything in the tables; the
engine that is opened in the end is sound.
-/
import Mathlib
import OrderedStore.Proofs.StoreSteps

namespace OrderedStore

open Store Catalog

-- ================================================================= the log

namespace Log

variable {v : Volume} {p : Path} {n : Nat} {rs : List LogRecord}

/-- A log is cut off behind its records. -/
theorem cut_ok {fault : Option LogFault} (hv : v.node? p = some (.file n))
    (h : Framed (v.content n) rs) (hwhole : fault = none → v.content n = frames rs) :
    cut p ⟨rs, (frames rs).length, fault⟩ v = .ok () (v.setContent n (frames rs)) := by
  have hresize : Bytes.resize (v.content n) (frames rs).length = frames rs := by
    obtain ⟨-, torn, hsplit, -⟩ := h
    rw [hsplit, Bytes.resize_of_le (by rw [List.length_append]; omega), List.take_left]
  unfold cut
  cases fault with
  | none =>
      rw [← hwhole rfl, Volume.setContent_content]
      rfl
  | some fault =>
      rw [if_pos Option.isSome_some, bind_ok (Disk.existingFile_ok hv), Disk.resize_ok, hresize]

/-- Reading a log finds its records, and leaves whole frames. -/
theorem recordsAt_found (hv : v.node? p = some (.file n)) (h : Framed (v.content n) rs) :
    recordsAt p v = .ok rs (v.setContent n (frames rs)) := by
  obtain ⟨fault, hscan, hwhole⟩ := scan_framed h
  have hfile : scanFile (v.file n) = ⟨rs, (frames rs).length, fault⟩ :=
    (scanFile_eq _).trans hscan
  have hrecover : recover p v
      = .ok (rs, Scan.summary ⟨rs, (frames rs).length, fault⟩) (v.setContent n (frames rs)) := by
    unfold recover
    rw [bind_ok (Disk.existing_ok hv), bind_ok (Disk.contentOf_ok n v), hfile]
    exact bind_ok (cut_ok hv h hwhole) _
  unfold recordsAt
  rw [bind_ok (Disk.node?_ok p v), hv]
  show (recover p >>= _) v = _
  rw [bind_ok hrecover]
  rfl

/-- A log that is not there has no records. -/
theorem recordsAt_none (hv : v.node? p = none) : recordsAt p v = .ok [] v := by
  unfold recordsAt
  rw [bind_ok (Disk.node?_ok p v), hv]
  rfl

/-- Opening a log that is there for appending leaves it as it is, and goes on from
the number of its last record. -/
theorem Writer.openAt_eq (hv : v.node? p = some (.file n)) :
    Writer.openAt p v = .ok ⟨n, (scan (v.content n)).summary.lastLsn + 1⟩ v := by
  have hverify : verify p v = .ok (scan (v.content n)).summary v := by
    unfold verify
    rw [bind_ok (Disk.existing_ok hv), bind_ok (Disk.contentOf_ok n v), scanFile_eq]
    rfl
  have hlast : Writer.lastAt p v = .ok (scan (v.content n)).summary.lastLsn v := by
    unfold Writer.lastAt
    rw [bind_ok (Disk.node?_ok p v), hv]
    show (verify p >>= _) v = _
    rw [bind_ok hverify]
    rfl
  unfold Writer.openAt
  rw [bind_ok hlast, bind_ok (Disk.openOrCreate_found hv)]
  rfl

/-- It goes on from some number. -/
theorem Writer.openAt_found (hv : v.node? p = some (.file n)) :
    ∃ lsn, Writer.openAt p v = .ok ⟨n, lsn⟩ v :=
  ⟨_, Writer.openAt_eq hv⟩

/-- A log that is not there is made. -/
theorem Writer.openAt_made (hp : p ≠ []) (hparent : v.node? p.dropLast = some .directory)
    (hv : v.node? p = none) :
    Writer.openAt p v = .ok ⟨v.contents.length, 1⟩ (v.addFile p []) := by
  have hlast : Writer.lastAt p v = .ok 0 v := by
    unfold Writer.lastAt
    rw [bind_ok (Disk.node?_ok p v), hv]
    rfl
  unfold Writer.openAt
  rw [bind_ok hlast, bind_ok (Disk.openOrCreate_made hp hparent hv)]
  rfl

end Log

namespace Engine

variable {dir : Path} {spare : Nat} {v : Volume} {ops : List Operation} {ids : List UInt64}
  {ts : Tables} {rs : List LogRecord}

-- =============================================================== replaying

/-- Replaying records gives every key its last write among them. -/
theorem find?_newest_replay (rs : List LogRecord) (m : Memtable) (seq : UInt64) (k : Bytes) :
    (replay m seq rs).1.newest.find? k
      = (lastWrite (Operation.writesOfAll (rs.map LogRecord.operation)) k).or
          (m.newest.find? k) := by
  induction rs generalizing m seq with
  | nil => rfl
  | cons r rs ih =>
      rw [replay, ih, Memtable.find?_newest_writeAll, List.map_cons, Operation.writesOfAll,
        lastWrite_append, Option.or_assoc]

/-- Replaying records leaves a memtable empty only if they write
nothing. -/
theorem isEmpty_replay (rs : List LogRecord) (m : Memtable) (seq : UInt64) :
    (replay m seq rs).1.isEmpty
      = (m.isEmpty && (Operation.writesOfAll (rs.map LogRecord.operation)).isEmpty) := by
  induction rs generalizing m seq with
  | nil => exact (Bool.and_true _).symm
  | cons r rs ih =>
      rw [replay, ih, Memtable.isEmpty_writeAll, List.map_cons, Operation.writesOfAll,
        Bool.and_assoc]
      cases r.operation.writes <;> rfl

/-- No record that is read back takes four gibibytes. -/
theorem compact_replay (rs : List LogRecord) {m : Memtable} (seq : UInt64) (hm : m.Compact)
    (hfits : ∀ r ∈ rs, r.Fits) : (replay m seq rs).1.Compact := by
  induction rs generalizing m seq with
  | nil => exact hm
  | cons r rs ih =>
      have hr := (hfits r List.mem_cons_self).lt
      have hwrites := Operation.length_writes_lt r.operation
      rw [LogRecord.length_payload] at hr
      exact ih _ (hm.writeAll (by omega)) fun q hq => hfits q (List.mem_cons_of_mem _ hq)

/-- What is replayed takes no more data than the operations' bytes. -/
theorem length_dataBlock_replay (rs : List LogRecord) (m : Memtable) (seq : UInt64) :
    (Table.dataBlock (replay m seq rs).1.latest).length
      ≤ (Table.dataBlock m.latest).length
        + (Operation.serializeAll (rs.map LogRecord.operation)).length := by
  induction rs generalizing m seq with
  | nil => exact Nat.le_add_right _ _
  | cons r rs ih =>
      have hrest := ih (m.writeAll (seq + 1) r.operation.writes) (seq + 1)
      have hfirst := Memtable.length_dataBlock_writeAll r.operation.writes m (seq + 1)
      have hwrites := Operation.length_writes_lt r.operation
      rw [replay, List.map_cons, Operation.serializeAll, List.length_append]
      omega

/-- Each record has its own number. -/
theorem toNat_replay (rs : List LogRecord) (m : Memtable) {seq : UInt64}
    (h : seq.toNat + rs.length < UInt64.size) :
    (replay m seq rs).2.toNat = seq.toNat + rs.length := by
  induction rs generalizing m seq with
  | nil => rfl
  | cons r rs ih =>
      rw [List.length_cons] at h ⊢
      have hsucc : (seq + 1).toNat = seq.toNat + 1 := toNat_succ (by omega)
      rw [replay, ih _ (by omega), hsucc]
      omega

-- ======================================================= what is recovered

/-- A volume on which the operations can be found again: tables on their
shelf, and a log that holds the end of the row. `rs` are the records of the
log. -/
structure Recoverable (dir : Path) (spare : Nat) (v : Volume) (ops : List Operation)
    (ids : List UInt64) (ts : Tables) (rs : List LogRecord) : Prop where
  shelved : Shelved v (tablesPath dir) ids ts
  above : ∀ id ∈ ids, id < nextOf ids
  log : v.node? (logPath dir) = none ∧ rs = [] ∨
    ∃ n, v.node? (logPath dir) = some (.file n) ∧ Log.Framed (v.content n) rs
  suffix : rs.map LogRecord.operation <:+ ops
  room : (nextOf ids).toNat
    + owed (Operation.writesOfAll (rs.map LogRecord.operation)).isEmpty ≤ ops.length + spare
  entries : ∀ k, (lastWrite (Operation.writesOfAll (rs.map LogRecord.operation)) k).or
    (Tables.entry v ts k) = lastWrite (Operation.writesOfAll ops) k

/-- The end of a row takes no more bytes than the row. -/
theorem logged_suffix {ops ops' : List Operation} (h : ops' <:+ ops) :
    Operation.logged ops' ≤ Operation.logged ops := by
  obtain ⟨front, rfl⟩ := h
  rw [Operation.logged_append]
  omega

/-- What is replayed can be made a table, unless it is nothing. -/
theorem Recoverable.storable (h : Recoverable dir spare v ops ids ts rs)
    (hfits : ∀ r ∈ rs, r.Fits) (hlogged : Operation.logged ops < UInt64.size)
    (hne : (replay Memtable.empty 0 rs).1.isEmpty = false) :
    Table.Storable (replay Memtable.empty 0 rs).1.latest := by
  refine (compact_replay rs 0 Memtable.compact_empty hfits).storable ?_
  have hrs : 1 ≤ (rs.map LogRecord.operation).length := by
    cases rs with
    | nil => cases hne
    | cons r rs =>
        rw [List.length_map, List.length_cons]
        omega
  have hdata := length_dataBlock_replay rs Memtable.empty 0
  have hnothing : (Table.dataBlock Memtable.empty.latest).length = 0 := rfl
  have hsuffix := logged_suffix h.suffix
  rw [Operation.logged_eq] at hsuffix
  show 14 + _ < _
  omega

/-- What opening does before the log is emptied: everything is in the
tables afterwards, and the volume is recoverable for the same
operations. -/
theorem Recoverable.recoverAt_ok (h : Recoverable dir spare v ops ids ts rs)
    (hlogged : Operation.logged ops < UInt64.size) (hroom : ops.length + spare < UInt64.size) :
    ∃ v' ids' ts' seq, recoverAt dir v = .ok (⟨tablesPath dir, ts', nextOf ids'⟩, seq) v' ∧
      Recoverable dir (spare + 1) v' ops ids' ts' rs ∧
      (nextOf ids').toNat ≤ ops.length + spare ∧ seq.toNat ≤ ops.length ∧
      ∀ k, Tables.entry v' ts' k = lastWrite (Operation.writesOfAll ops) k := by
  have hdir : Disk.createDirectories dir v = .ok () v :=
    Disk.createDirectories_rooted fun q hq =>
      h.shelved.rooted q (hq.trans (List.prefix_append _ _))
  obtain ⟨v₁, hopen, hshelved₁, hcontents₁, hagree₁⟩ := Catalog.openAt_ok h.shelved
  have hlog₁ : v₁.node? (logPath dir) = v.node? (logPath dir) :=
    (hagree₁ _ fun name heq => absurd heq (logPath_ne_child dir name)).1
  have hentry₁ : ∀ k, Tables.entry v₁ ts k = Tables.entry v ts k :=
    fun k => Tables.entry_congr (fun t _ => Volume.content_of_contents hcontents₁ t.file) k
  -- the records are read, and the log is left with whole frames
  obtain ⟨v₂, hrecords, hshelved₂, hlog₂, hentry₂, hfits⟩ : ∃ v₂,
      Log.recordsAt (logPath dir) v₁ = .ok rs v₂ ∧
      Shelved v₂ (tablesPath dir) ids ts ∧
      (v₂.node? (logPath dir) = none ∧ rs = [] ∨
        ∃ n, v₂.node? (logPath dir) = some (.file n) ∧ Log.Framed (v₂.content n) rs) ∧
      (∀ k, Tables.entry v₂ ts k = Tables.entry v₁ ts k) ∧ ∀ r ∈ rs, r.Fits := by
    rcases h.log with ⟨hnone, rfl⟩ | ⟨n, hfile, hframed⟩
    · exact ⟨v₁, Log.recordsAt_none (hlog₁.trans hnone), hshelved₁,
        Or.inl ⟨hlog₁.trans hnone, rfl⟩, fun _ => rfl, fun _ hr => nomatch hr⟩
    · have hnode₁ : v₁.node? (logPath dir) = some (.file n) := hlog₁.trans hfile
      have hframed₁ : Log.Framed (v₁.content n) rs := by
        rw [Volume.content_of_contents hcontents₁]
        exact hframed
      have hagree := Volume.agree_setContent hshelved₁.sane hnode₁ (Log.frames rs)
      refine ⟨v₁.setContent n (Log.frames rs), Log.recordsAt_found hnode₁ hframed₁, ?_,
        Or.inr ⟨n, hnode₁, ?_⟩, fun k => Tables.entry_congr (fun t ht => ?_) k, hframed.fits⟩
      · refine hshelved₁.agree (hshelved₁.sane.setContent _ _) hagree ?_ ?_
        · exact fun q hq => ne_logPath_of_prefix hq
        · exact fun name => Ne.symm (logPath_ne_child dir name)
      · rw [Volume.content_setContent (hshelved₁.sane.within _ _ hnode₁), if_pos rfl]
        exact Log.framed_frames hframed.fits
      · obtain ⟨id, -, hpath⟩ := hshelved₁.path_of_mem ht
        refine (hagree t.path ?_).2 t.file (hshelved₁.stands t ht).named
        rw [hpath]
        exact Ne.symm (logPath_ne_child dir _)
  -- what was replayed is made a table, unless it is nothing
  have hcount : rs.length ≤ ops.length := by
    have := h.suffix.length_le
    rwa [List.length_map] at this
  have hseq : (replay Memtable.empty 0 rs).2.toNat ≤ ops.length := by
    have hzero : (0 : UInt64).toNat = 0 := rfl
    rw [toNat_replay rs _ (by omega)]
    omega
  have hempty := isEmpty_replay rs Memtable.empty 0
  have hnewest := find?_newest_replay rs Memtable.empty 0
  have hrun : recoverAt dir v = (do
      return (← shelve ⟨tablesPath dir, ts, nextOf ids⟩ (replay Memtable.empty 0 rs).1,
        (replay Memtable.empty 0 rs).2) : Disk (Catalog × UInt64)) v₂ := by
    unfold recoverAt
    rw [bind_ok hdir]
    show (Catalog.openAt (tablesPath dir) >>= _) v = _
    rw [bind_ok hopen]
    show (Log.recordsAt (logPath dir) >>= _) v₁ = _
    rw [bind_ok hrecords]
  rw [hrun]
  cases hnothing : (Operation.writesOfAll (rs.map LogRecord.operation)).isEmpty with
  | true =>
      have hnone : Operation.writesOfAll (rs.map LogRecord.operation) = [] :=
        List.isEmpty_iff.mp hnothing
      have hshelve : shelve ⟨tablesPath dir, ts, nextOf ids⟩ (replay Memtable.empty 0 rs).1 v₂
          = .ok ⟨tablesPath dir, ts, nextOf ids⟩ v₂ := by
        unfold shelve
        rw [hempty, hnothing]
        rfl
      have hroom' := h.room
      rw [hnothing] at hroom'
      have hentries : ∀ k, Tables.entry v₂ ts k = lastWrite (Operation.writesOfAll ops) k := by
        intro k
        have := h.entries k
        rwa [hnone, lastWrite_nil, Option.none_or, ← hentry₁, ← hentry₂] at this
      refine ⟨v₂, ids, ts, (replay Memtable.empty 0 rs).2, ?_,
        ⟨hshelved₂, h.above, hlog₂, h.suffix, ?_, fun k => ?_⟩, hroom', hseq, hentries⟩
      · rw [bind_ok hshelve]
        rfl
      · rw [hnothing]
        omega
      · rw [hnone, lastWrite_nil, Option.none_or, hentries]
  | false =>
      have hne : (replay Memtable.empty 0 rs).1.isEmpty = false := by
        rw [hempty, hnothing]
        rfl
      have hroom' : (nextOf ids).toNat + 1 ≤ ops.length + spare := by
        have := h.room
        rwa [hnothing] at this
      have hsucc : (nextOf ids + 1).toNat = (nextOf ids).toNat + 1 := toNat_succ (by omega)
      obtain ⟨t, v₃, hflush, hshelved₃, hagree₃, hentry₃⟩ :=
        Catalog.flush_ok hshelved₂ h.above (h.storable hfits hlogged hne) hne
      have hkept : ∀ u ∈ ts, v₃.content u.file = v₂.content u.file := by
        intro u hu
        obtain ⟨id, hid, hpath⟩ := hshelved₂.path_of_mem hu
        refine (hagree₃ u.path ⟨?_, ?_⟩).2 u.file (hshelved₂.stands u hu).named
        · rw [hpath]
          exact fun heq => tableName_ne_temporary id _ (child_inj heq)
        · rw [hpath]
          intro heq
          have hlt := h.above id hid
          rw [tableName_injective (child_inj heq)] at hlt
          exact absurd hlt (UInt64.lt_irrefl _)
      have hentries : ∀ k, Tables.entry v₃ (t :: ts) k
          = lastWrite (Operation.writesOfAll ops) k := by
        intro k
        rw [Tables.entry, Tables.entry_congr hkept, hentry₃, Memtable.latest_eq]
        show ((replay Memtable.empty 0 rs).1.newest.find? k).or _ = _
        rw [hnewest, hentry₂, hentry₁]
        show ((lastWrite _ k).or none).or _ = _
        rw [Option.or_none, h.entries]
      have hlogPath := hagree₃ (logPath dir)
        ⟨logPath_ne_child dir _, logPath_ne_child dir _⟩
      refine ⟨v₃, nextOf ids :: ids, t :: ts, (replay Memtable.empty 0 rs).2, ?_,
        ⟨hshelved₃, ?_, ?_, h.suffix, ?_, fun k => ?_⟩, ?_, hseq, hentries⟩
      · have hshelve : shelve ⟨tablesPath dir, ts, nextOf ids⟩ (replay Memtable.empty 0 rs).1 v₂
            = .ok ⟨tablesPath dir, t :: ts, nextOf ids + 1⟩ v₃ := by
          unfold shelve
          rw [hne, if_neg Bool.false_ne_true, bind_ok hflush]
          rfl
        rw [bind_ok hshelve]
        rfl
      · intro id hid
        have hlt : nextOf ids < nextOf ids + 1 := lt_succ (by omega)
        rcases List.mem_cons.mp hid with rfl | hid
        · exact hlt
        · exact UInt64.lt_trans (h.above id hid) hlt
      · rcases hlog₂ with ⟨hnone, hrs⟩ | ⟨n, hfile, hframed⟩
        · exact Or.inl ⟨hlogPath.1.trans hnone, hrs⟩
        · exact Or.inr ⟨n, hlogPath.1.trans hfile, by rw [hlogPath.2 n hfile]; exact hframed⟩
      · show (nextOf ids + 1).toNat + owed _ ≤ _
        have howed : owed false = 1 := rfl
        rw [hnothing, hsucc]
        omega
      · rw [hentries]
        obtain ⟨front, hfront⟩ := h.suffix
        rw [← hfront, Operation.writesOfAll_append]
        exact lastWrite_again _ _ k
      · show (nextOf ids + 1).toNat ≤ _
        rw [hsucc]
        exact hroom'

-- ================================================================ opening

/-- An engine opens on a recoverable volume, and the store is sound for the
same operations. -/
theorem Recoverable.openAt_ok (h : Recoverable dir spare v ops ids ts rs)
    (hlogged : Operation.logged ops < UInt64.size) (hroom : ops.length + spare < UInt64.size)
    (settings : Settings) (clock : UInt64) :
    ∃ e v' ids', openAt settings dir clock v = .ok e v' ∧
      (opened v' e).Sound dir spare ops ids' := by
  obtain ⟨v₁, ids', ts', seq, hrecover, h₁, hnext, hseq, hentries⟩ :=
    h.recoverAt_ok hlogged hroom
  have hlogne : logPath dir ≠ [] := child_ne_nil _ _
  -- the log is found, or made, and then it is emptied
  obtain ⟨n, lsn, v₂, hwriter, hsane₂, hnode₂, hagree₂⟩ : ∃ n lsn v₂,
      Log.Writer.openAt (logPath dir) v₁ = .ok ⟨n, lsn⟩ v₂ ∧ v₂.Sane ∧
      v₂.node? (logPath dir) = some (.file n) ∧ v₁.Agree (fun q => q ≠ logPath dir) v₂ := by
    rcases h₁.log with ⟨hnone, -⟩ | ⟨n, hfile, -⟩
    · refine ⟨_, 1, _, Log.Writer.openAt_made hlogne ?_ hnone,
        h₁.shelved.sane.addFile hlogne [], ?_, Volume.agree_addFile h₁.shelved.sane hlogne []⟩
      · unfold logPath
        rw [List.dropLast_concat]
        exact h₁.shelved.rooted dir (List.prefix_append _ _)
      · rw [Volume.node?_addFile _ hlogne, if_pos rfl]
    · obtain ⟨lsn, hwriter⟩ := Log.Writer.openAt_found hfile
      exact ⟨n, lsn, v₁, hwriter, h₁.shelved.sane, hfile, Volume.Agree.refl _ _⟩
  have hagree : v₁.Agree (fun q => q ≠ logPath dir) (v₂.setContent n []) :=
    hagree₂.trans (Volume.agree_setContent hsane₂ hnode₂ [])
  have hshelved : Shelved (v₂.setContent n []) (tablesPath dir) ids' ts' := by
    refine h₁.shelved.agree (hsane₂.setContent _ _) hagree ?_ ?_
    · exact fun q hq => ne_logPath_of_prefix hq
    · exact fun name => Ne.symm (logPath_ne_child dir name)
  refine ⟨⟨settings, ⟨n, lsn⟩, ⟨tablesPath dir, ts', nextOf ids'⟩, 0, seq, clock⟩,
    v₂.setContent n [], ids', ?_, ⟨rfl, hshelved, rfl, h₁.above, ?_, hnode₂, ?_,
      Memtable.under_empty seq, Memtable.compact_empty, Nat.zero_le _, hseq, fun k => ?_,
      ⟨[], ⟨?_, List.nil_suffix, rfl, fun _ => rfl⟩⟩⟩⟩
  · unfold openAt
    rw [bind_ok hrecover]
    show (Log.Writer.openAt (logPath dir) >>= _) v₁ = _
    rw [bind_ok hwriter]
    rfl
  · show (nextOf ids').toNat + 0 ≤ _
    exact hnext
  · exact Nat.zero_lt_one
  · show Tables.entry (v₂.setContent n []) ts' k = _
    rw [← hentries k]
    refine Tables.entry_congr (fun t ht => ?_) k
    obtain ⟨id, -, hpath⟩ := h₁.shelved.path_of_mem ht
    refine (hagree t.path ?_).2 t.file (h₁.shelved.stands t ht).named
    rw [hpath]
    exact Ne.symm (logPath_ne_child dir _)
  · show (v₂.setContent n []).content n = []
    rw [Volume.content_setContent (hsane₂.within _ _ hnode₂), if_pos rfl]

-- ============================================================ a new store

/-- There is nothing in the directory yet, and whatever is around it are
directories, if it is there. -/
structure Vacant (v : Volume) (dir : Path) : Prop where
  sane : v.Sane
  around : ∀ q, q <+: dir → v.node? q = none ∨ v.node? q = some .directory
  nothing : ∀ q, dir <+: q → q ≠ dir → v.node? q = none

/-- A volume with nothing on it is vacant everywhere. -/
theorem vacant_empty (dir : Path) : Vacant Volume.empty dir := by
  have hnone : ∀ q, q ≠ [] → Volume.empty.node? q = none := by
    intro q hq
    rw [Volume.node?_of_ne _ hq]
    rfl
  refine ⟨Volume.sane_empty, fun q _ => ?_, fun q hq hne => ?_⟩
  · by_cases hnil : q = []
    · rw [hnil]
      exact Or.inr rfl
    · exact Or.inl (hnone q hnil)
  · refine hnone q ?_
    rintro rfl
    exact hne (List.prefix_nil.mp hq).symm

/-- A directory of tables is opened as if it had been made before. -/
theorem Catalog.openAt_made {d : Path} {v' : Volume}
    (hmade : Disk.createDirectories d v = .ok () v')
    (hrooted : ∀ q, q <+: d → v'.node? q = some .directory) :
    Catalog.openAt d v = Catalog.openAt d v' := by
  unfold Catalog.openAt
  rw [bind_ok hmade, bind_ok (Disk.createDirectories_rooted hrooted)]

/-- Opening in a vacant directory is opening on a volume that is
recoverable for no operations. -/
theorem Vacant.openAt_eq (h : Vacant v dir) (settings : Settings) (clock : UInt64) :
    ∃ v', openAt settings dir clock v = openAt settings dir clock v' ∧
      Recoverable dir 1 v' [] [] [] [] := by
  obtain ⟨v₁, hmade₁, hsane₁, -, hnodes₁⟩ := Disk.createDirectories_ok h.sane h.around
  have hfree₁ : ∀ q, q <+: tablesPath dir → v₁.node? q = none ∨ v₁.node? q = some .directory := by
    intro q hq
    rw [hnodes₁]
    split
    · exact Or.inr rfl
    · next hnot =>
        refine Or.inl (h.nothing q ?_ fun heq => hnot (heq ▸ List.prefix_refl dir))
        rcases List.prefix_concat_iff.mp hq with rfl | hq
        · exact List.prefix_append _ _
        · exact absurd hq hnot
  obtain ⟨v₂, hmade₂, hsane₂, -, hnodes₂⟩ := Disk.createDirectories_ok hsane₁ hfree₁
  have hrooted₂ : ∀ q, q <+: tablesPath dir → v₂.node? q = some .directory := by
    intro q hq
    rw [hnodes₂, if_pos hq]
  have hbeyond : ∀ q, dir <+: q → q ≠ dir → ¬q <+: tablesPath dir → v₂.node? q = none := by
    intro q hq hne hnot
    rw [hnodes₂, if_neg hnot, hnodes₁, if_neg]
    · exact h.nothing q hq hne
    · exact fun hback => hne (hback.eq_of_length_le hq.length_le)
  have hchild : ∀ name, v₂.node? (tablesPath dir ++ [name]) = none := by
    intro name
    refine hbeyond _ ((List.prefix_append _ _).trans (List.prefix_append _ _)) ?_ ?_
    · intro heq
      have := congrArg List.length heq
      simp only [tablesPath, List.length_append, List.length_singleton] at this
      omega
    · intro hpre
      exact prefix_ne_child hpre name rfl
  refine ⟨v₂, ?_, ⟨⟨hsane₂, hrooted₂, List.Pairwise.nil, rfl,
    fun _ ht => absurd ht List.not_mem_nil, ?_, ?_⟩,
    fun _ hid => absurd hid List.not_mem_nil, Or.inl ⟨?_, rfl⟩, List.suffix_refl _,
    Nat.le_refl _, fun _ => rfl⟩⟩
  · have hdir₂ : Disk.createDirectories dir v₂ = .ok () v₂ :=
      Disk.createDirectories_rooted fun q hq => hrooted₂ q (hq.trans (List.prefix_append _ _))
    have hsame : recoverAt dir v = recoverAt dir v₂ := by
      unfold recoverAt
      rw [bind_ok hmade₁, bind_ok hdir₂]
      show (Catalog.openAt (tablesPath dir) >>= _) v₁ = (Catalog.openAt (tablesPath dir) >>= _) v₂
      have hcatalog := Catalog.openAt_made hmade₂ hrooted₂
      show EStateM.bind _ _ v₁ = EStateM.bind _ _ v₂
      unfold EStateM.bind
      rw [hcatalog]
    show EStateM.bind (recoverAt dir) _ v = EStateM.bind (recoverAt dir) _ v₂
    unfold EStateM.bind
    rw [hsame]
  · intro name
    rw [hchild]
    exact Option.some_ne_none _ ∘ Eq.symm
  · intro name node id hnode
    rw [hchild] at hnode
    cases hnode
  · refine hbeyond _ (List.prefix_append _ _) ?_ fun hpre => ?_
    · intro heq
      have := congrArg List.length heq
      simp only [logPath, List.length_append, List.length_singleton] at this
      omega
    · exact ne_logPath_of_prefix hpre rfl

/-- An engine opens in a vacant directory, and the store is sound for no
operations. -/
theorem Vacant.openAt_ok (h : Vacant v dir) (settings : Settings) (clock : UInt64) :
    ∃ e v' ids, openAt settings dir clock v = .ok e v' ∧
      (opened v' e).Sound dir 1 [] ids := by
  obtain ⟨v', heq, hrec⟩ := h.openAt_eq settings clock
  rw [heq]
  exact hrec.openAt_ok (by decide) (by decide) settings clock

-- ============================================================ a store at rest

/-- The volume under a sound store is recoverable for its operations with
the records that the log holds, if those are read back. -/
theorem recoverable_of_durable {s : Store} (h : s.Sound dir spare ops ids)
    (hrs : Durable s ops rs) (hfits : ∀ r ∈ rs, r.Fits) :
    Recoverable dir spare s.volume ops ids s.engine.catalog.tables rs := by
  refine ⟨h.shelved, h.above, Or.inr ⟨_, h.log, ?_⟩, hrs.suffix, ?_, fun k => ?_⟩
  · rw [hrs.content]
    exact Log.framed_frames hfits
  · rw [← hrs.empty]
    exact h.room
  · rw [← hrs.newest, h.newest_or]

/-- If all operations are read back, the log holds records to recover them
with. -/
theorem recoverable_of_sound {s : Store} (h : s.Sound dir spare ops ids)
    (hfits : ∀ op ∈ ops, op.Fits) :
    ∃ rs, Recoverable dir spare s.volume ops ids s.engine.catalog.tables rs := by
  obtain ⟨rs, hrs⟩ := h.durable
  exact ⟨rs, recoverable_of_durable h hrs (hrs.fits hfits)⟩

end Engine

end OrderedStore
