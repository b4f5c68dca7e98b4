/-
What a crash leaves, and what is found again.

A crash may strike while an operation is logged, between the renaming of a
new table and the emptying of the log, or while a table is written, and it
may strike once more while the store is opened. `Crash` lists the volumes
that are left, each with the operations that are found on it beyond those
that were completed: none, or the one that was under way, whole.

Every such volume is recoverable for those operations (`Crash.recoverable`,
by cases), and so a store opens on it and answers as if nothing had
happened. The life of a store, `History`, is a row of sessions, each ended
by a crash, or by a volume at rest, which is the gentlest of them.
-/
import Mathlib
import OrderedStore.Proofs.Readers

namespace OrderedStore

open Store Engine Catalog

variable {dir : Path} {spare : Nat} {v v' : Volume} {ops : List Operation}
  {ids : List UInt64} {ts : Tables} {rs : List LogRecord} {s s' : Store}

-- ======================================================= what is left over

namespace Catalog

/-- Where a table is written before it has its name. -/
def unfinishedPath (dir : Path) (x : String) : Path :=
  tablesPath dir ++ ["sstable_" ++ x ++ ".sst.tmp"]

/-- What stands there is not a table. -/
theorem isUnfinished_unfinished (x : String) :
    isUnfinished ("sstable_" ++ x ++ ".sst.tmp") = true := by
  have hsplit : "sstable_" ++ x ++ ".sst.tmp" = "sstable_" ++ x ++ ".sst" ++ ".tmp" := by
    have hend : ".sst.tmp" = ".sst" ++ ".tmp" := rfl
    rw [hend, ← String.append_assoc]
  rw [hsplit]
  refine isUnfinished_tmp fun hnil => ?_
  have hlength := congrArg (fun s => s.toList.length) hnil
  simp only [String.toList_append, List.length_append] at hlength
  have hlead : "sstable_".toList.length = 8 := rfl
  have hnone : "".toList.length = 0 := rfl
  omega

/-- It is none of the tables on a shelf. -/
theorem Shelved.ne_unfinished (h : Shelved v (tablesPath dir) ids ts) {x : String}
    (hfree : v.node? (unfinishedPath dir x) = none) {t : Table} (ht : t ∈ ts) :
    t.path ≠ unfinishedPath dir x := by
  intro heq
  have hnamed := (h.stands t ht).named
  rw [heq, hfree] at hnamed
  cases hnamed

/-- An unfinished table does not disturb a shelf. -/
theorem Shelved.leftover (h : Shelved v (tablesPath dir) ids ts) {x : String}
    (hfree : v.node? (unfinishedPath dir x) = none) (bs : Bytes) :
    Shelved (v.addFile (unfinishedPath dir x) bs) (tablesPath dir) ids ts := by
  have hne : unfinishedPath dir x ≠ [] := child_ne_nil _ _
  have hagree := Volume.agree_addFile h.sane hne bs
  refine ⟨h.sane.addFile hne bs, fun q hq => ?_, h.descending, h.paths, fun t ht => ?_,
    fun name hname => ?_, fun name node id hnode hid => ?_⟩
  · rw [(hagree q (prefix_ne_child hq _)).1, h.rooted q hq]
  · exact ((h.stands t ht).agree hagree (h.ne_unfinished hfree ht)).1
  · rw [Volume.node?_addFile v hne] at hname
    split at hname
    · cases hname
    · exact h.plain name hname
  · rw [Volume.node?_addFile v hne] at hnode
    split at hnode
    · next heq =>
        rw [child_inj heq, tableId?_of_isUnfinished (isUnfinished_unfinished x)] at hid
        cases hid
    · exact h.known name node id hnode hid

end Catalog

namespace Engine

/-- A volume stays recoverable if what its log and its tables hold does not
change. -/
theorem Recoverable.keep (h : Recoverable dir spare v ops ids ts rs)
    (hshelved : Shelved v' (tablesPath dir) ids ts)
    (hagree : v.Agree (fun q => q = logPath dir ∨ ∃ t ∈ ts, q = t.path) v') :
    Recoverable dir spare v' ops ids ts rs := by
  refine ⟨hshelved, h.above, ?_, h.suffix, h.room, fun k => ?_⟩
  · have hlog := hagree (logPath dir) (Or.inl rfl)
    rcases h.log with ⟨hnone, hrs⟩ | ⟨n, hfile, hframed⟩
    · exact Or.inl ⟨hlog.1.trans hnone, hrs⟩
    · exact Or.inr ⟨n, hlog.1.trans hfile, by rw [hlog.2 n hfile]; exact hframed⟩
  · rw [Tables.entry_congr fun t ht => ?_, h.entries]
    exact (hagree t.path (Or.inr ⟨t, ht, rfl⟩)).2 t.file (h.shelved.stands t ht).named

/-- An unfinished table does not keep a volume from being recovered. -/
theorem Recoverable.leftover (h : Recoverable dir spare v ops ids ts rs) {x : String}
    (hfree : v.node? (unfinishedPath dir x) = none) (bs : Bytes) :
    Recoverable dir spare (v.addFile (unfinishedPath dir x) bs) ops ids ts rs := by
  refine h.keep (h.shelved.leftover hfree bs)
    ((Volume.agree_addFile h.shelved.sane (child_ne_nil _ _) bs).mono ?_)
  rintro q (rfl | ⟨t, ht, rfl⟩)
  · exact logPath_ne_child dir _
  · exact fun heq => h.shelved.ne_unfinished hfree ht heq

/-- A volume stays recoverable if its log holds something else that begins
with the same records. -/
theorem Recoverable.relog (h : Recoverable dir spare v ops ids ts rs) {n : Nat} {bs : Bytes}
    (hlog : v.node? (logPath dir) = some (.file n)) (hbs : Log.Framed bs rs) :
    Recoverable dir spare (v.setContent n bs) ops ids ts rs := by
  have hagree := Volume.agree_setContent h.shelved.sane hlog bs
  have hpath : ∀ t ∈ ts, t.path ≠ logPath dir := by
    intro t ht
    obtain ⟨id, -, hpath⟩ := h.shelved.path_of_mem ht
    rw [hpath]
    exact Ne.symm (logPath_ne_child dir _)
  refine ⟨?_, h.above, Or.inr ⟨n, hlog, ?_⟩, h.suffix, h.room, fun k => ?_⟩
  · refine h.shelved.agree (h.shelved.sane.setContent _ _) hagree ?_ ?_
    · exact fun q hq => ne_logPath_of_prefix hq
    · exact fun name => Ne.symm (logPath_ne_child dir name)
  · rw [Volume.content_setContent (h.shelved.sane.within _ _ hlog), if_pos rfl]
    exact hbs
  · rw [Tables.entry_congr fun t ht => ?_, h.entries]
    exact (hagree t.path (hpath t ht)).2 t.file (h.shelved.stands t ht).named

/-- More table numbers may have been used up. -/
theorem Recoverable.mono {spare' : Nat} (h : Recoverable dir spare v ops ids ts rs)
    (hle : spare ≤ spare') : Recoverable dir spare' v ops ids ts rs := by
  refine ⟨h.shelved, h.above, h.log, h.suffix, ?_, h.entries⟩
  have := h.room
  omega

end Engine

namespace Store

-- ================================================================ crashes

/-- What a crash may leave of a store: a volume, and the operations that
are found on it beyond those that were completed before. The number says
how often a table was made of records that are still in the log. -/
inductive Crash (dir : Path) (s : Store) : Nat → Volume → List Operation → Prop where
  /-- Nothing was going on. -/
  | rest : Crash dir s 0 s.volume []
  /-- An operation was being logged: of its record a part is there, or
  nothing. -/
  | torn {op : Operation} {s' : Store} {n : Nat} (hop : op.Fits)
      (hrecord : record op s = .ok () s')
      (hold : (s.volume.content s.engine.log.file).length ≤ n)
      (hcut : n < (s'.volume.content s.engine.log.file).length) :
      Crash dir s 0 (s'.volume.setContent s.engine.log.file
        ((s'.volume.content s.engine.log.file).take n)) []
  /-- An operation was logged. -/
  | logged {op : Operation} {s' : Store} (hrecord : record op s = .ok () s') :
      Crash dir s 0 s'.volume [op]
  /-- The memtable was made a table, and the log was not emptied. -/
  | turned {s' : Store} (hturn : turnOver s = .ok () s') : Crash dir s 1 s'.volume []
  /-- The same, after an operation was logged that made the memtable
  full. -/
  | loggedTurned {op : Operation} {s' s'' : Store} (hrecord : record op s = .ok () s')
      (hturn : turnOver s' = .ok () s'') : Crash dir s 1 s''.volume [op]
  /-- A table was being written: there is a file that is to become one. -/
  | leftover {n : Nat} {v : Volume} {more : List Operation} {x : String}
      (h : Crash dir s n v more) (hfree : v.node? (unfinishedPath dir x) = none)
      (bs : Bytes) : Crash dir s n (v.addFile (unfinishedPath dir x) bs) more
  /-- The store was being opened again: what the log held was made a table,
  and the log was not emptied. -/
  | opening {n : Nat} {v v' : Volume} {more : List Operation} {found : Catalog × UInt64}
      (h : Crash dir s n v more) (hopening : recoverAt dir v = .ok found v') :
      Crash dir s (n + 1) v' more

/-- What is found beyond the completed operations is one operation or
nothing. -/
theorem Crash.all_or_nothing {n : Nat} {more : List Operation} (h : Crash dir s n v more) :
    more = [] ∨ ∃ op, more = [op] := by
  induction h with
  | rest => exact Or.inl rfl
  | torn => exact Or.inl rfl
  | logged => exact Or.inr ⟨_, rfl⟩
  | turned => exact Or.inl rfl
  | loggedTurned => exact Or.inr ⟨_, rfl⟩
  | leftover _ _ _ ih => exact ih
  | opening _ _ ih => exact ih

/-- While an operation is logged, the volume is recoverable for what was
completed. -/
theorem Sound.torn_recoverable {op : Operation} (h : s.Sound dir spare ops ids)
    (hfits : ∀ op ∈ ops, op.Fits) (hop : op.Fits) {n : Nat}
    (hold : (s.volume.content s.engine.log.file).length ≤ n)
    (hcut : n < ((s.recorded op).volume.content s.engine.log.file).length) :
    ∃ rs, Recoverable dir spare ((s.recorded op).volume.setContent s.engine.log.file
      (((s.recorded op).volume.content s.engine.log.file).take n)) ops ids
      s.engine.catalog.tables rs := by
  obtain ⟨rs, hrs⟩ := h.durable
  have hframes : (s.recorded op).volume.content s.engine.log.file
      = Log.frames (rs ++ [s.nextRecord op]) := by
    show (s.volume.setContent s.engine.log.file _).content s.engine.log.file = _
    rw [Volume.content_setContent (h.shelved.sane.within _ _ h.log), if_pos rfl, hrs.content,
      Log.frames_concat]
  have hvolume (bs : Bytes) : (s.recorded op).volume.setContent s.engine.log.file bs
      = s.volume.setContent s.engine.log.file bs := Volume.setContent_setContent _ _ _ _
  have hnext : (s.nextRecord op).Fits := by
    show (s.nextRecord op).payload.length ≤ _
    rw [LogRecord.length_payload]
    exact hop
  rw [hrs.content] at hold
  rw [hframes] at hcut
  rw [hvolume, hframes]
  exact ⟨rs, (recoverable_of_durable h hrs (hrs.fits hfits)).relog h.log
    (Log.framed_cut (hrs.fits hfits) hnext hold hcut)⟩

/-- Between the renaming of the table and the emptying of the log, the
volume is recoverable. -/
theorem Sound.turned_recoverable (h : s.Sound dir spare ops ids)
    (hfits : ∀ op ∈ ops, op.Fits) (htotal : Operation.logged ops < UInt64.size)
    (hroom : ops.length + spare < UInt64.size) (hturn : turnOver s = .ok () s') :
    ∃ ids' ts' rs, Recoverable dir (spare + 1) s'.volume ops ids' ts' rs := by
  have hne : s.current.isEmpty = false := by
    cases hempty : s.current.isEmpty with
    | false => rfl
    | true =>
        rw [turnOver_empty hempty] at hturn
        cases hturn
  obtain ⟨rs, hrs⟩ := h.durable
  obtain ⟨t, v, hturn', ht⟩ := h.turnOver_ok hne htotal
  rw [hturn] at hturn'
  cases hturn'
  have hlog := ht.agree (logPath dir) fun name => logPath_ne_child dir name
  refine ⟨nextOf ids :: ids, t :: s.engine.catalog.tables, rs, ht.shelved,
    h.above_next hroom hne, Or.inr ⟨s.engine.log.file, ht.log h, ?_⟩, hrs.suffix, ?_,
    fun k => ?_⟩
  · show Log.Framed (v.content s.engine.log.file) rs
    rw [hlog.2 _ h.log, hrs.content]
    exact Log.framed_frames (hrs.fits hfits)
  · have hroom' := h.room
    have hsucc := toNat_succ (h.toNat_next_lt hroom hne)
    show (nextOf ids + 1).toNat + owed _ ≤ _
    rw [← hrs.empty, hsucc]
    omega
  · show (lastWrite _ k).or (Tables.entry v (t :: s.engine.catalog.tables) k) = _
    obtain ⟨front, hfront⟩ := hrs.suffix
    rw [ht.entries h, ← hfront, Operation.writesOfAll_append]
    exact lastWrite_again _ _ k

/-- Every volume that a crash leaves of a sound store is recoverable for
what is found on it. -/
theorem Crash.recoverable {n : Nat} {more : List Operation} (hcrash : Crash dir s n v more)
    (h : s.Sound dir spare ops ids) (hfits : ∀ op ∈ ops ++ more, op.Fits)
    (htotal : Operation.logged (ops ++ more) < UInt64.size)
    (hroom : (ops ++ more).length + spare + n < UInt64.size) :
    ∃ ids' ts' rs, Recoverable dir (spare + n) v (ops ++ more) ids' ts' rs := by
  induction hcrash with
  | rest =>
      rw [List.append_nil] at hfits ⊢
      obtain ⟨rs, hrec⟩ := recoverable_of_sound h hfits
      exact ⟨ids, _, rs, hrec⟩
  | torn hop hrecord hold hcut =>
      rw [List.append_nil] at hfits ⊢
      rw [record_ok s hop.loggable] at hrecord
      cases hrecord
      obtain ⟨rs, hrec⟩ := h.torn_recoverable hfits hop hold hcut
      exact ⟨ids, _, rs, hrec⟩
  | @logged op s' hrecord =>
      have hop : op.Fits := hfits op (List.mem_append_right _ (List.mem_singleton_self op))
      rw [record_ok s hop.loggable] at hrecord
      cases hrecord
      obtain ⟨rs, hrec⟩ := recoverable_of_sound (h.recorded hop.loggable htotal) hfits
      exact ⟨ids, _, rs, hrec⟩
  | turned hturn =>
      rw [List.append_nil] at hfits htotal hroom ⊢
      exact h.turned_recoverable hfits htotal (by omega) hturn
  | @loggedTurned op s' s'' hrecord hturn =>
      have hop : op.Fits := hfits op (List.mem_append_right _ (List.mem_singleton_self op))
      rw [record_ok s hop.loggable] at hrecord
      cases hrecord
      exact (h.recorded hop.loggable htotal).turned_recoverable hfits htotal (by omega) hturn
  | leftover _ hfree bs ih =>
      obtain ⟨ids', ts', rs, hrec⟩ := ih hfits htotal hroom
      exact ⟨ids', ts', rs, hrec.leftover hfree bs⟩
  | opening _ hopening ih =>
      obtain ⟨ids', ts', rs, hrec⟩ := ih hfits htotal (by omega)
      obtain ⟨v', ids'', ts'', seq, hrecover, hrec', -⟩ := hrec.recoverAt_ok htotal (by omega)
      rw [hopening] at hrecover
      cases hrecover
      exact ⟨ids'', ts'', rs, hrec'⟩

-- ============================================================== histories

/-- The lives of a store: in a vacant directory it is opened, asked for
this and that, and left by a crash, again and again. The operations are
those that were completed in all of its sessions, each session's with what
is found beyond them; the number counts the tables that were made of
records that were still in the log. -/
inductive History (dir : Path) : Nat → Volume → List Operation → Prop where
  | new {v : Volume} (hv : Vacant v dir) : History dir 0 v []
  | session {n k : Nat} {v v' w : Volume} {ops more : List Operation} {settings : Settings}
      {clock : UInt64} {e : Engine} (h : History dir n v ops)
      (hopen : openAt settings dir clock v = .ok e v') (reqs : List Request)
      (hcrash : Crash dir ((opened v' e).after dir reqs) k w more) :
      History dir (n + k) w (ops ++ (opened v' e).trace dir reqs ++ more)

/-- After every history the store opens, and it is sound for the operations
of the history. -/
theorem History.openAt_ok {n : Nat} (h : History dir n v ops) (hfits : ∀ op ∈ ops, op.Fits)
    (htotal : Operation.logged ops < UInt64.size) (hroom : ops.length + 1 + n < UInt64.size)
    (settings : Settings) (clock : UInt64) :
    ∃ e v' ids, openAt settings dir clock v = .ok e v' ∧
      (opened v' e).Sound dir (1 + n) ops ids := by
  induction h generalizing settings clock with
  | new hv => exact hv.openAt_ok settings clock
  | @session n k v v' w ops more settings' clock' e h hopen reqs hcrash ih =>
      rw [Operation.logged_append, Operation.logged_append] at htotal
      rw [List.length_append, List.length_append] at hroom
      obtain ⟨e', v'', ids, hopen', hsound⟩ := ih
        (fun op hop => hfits op (List.mem_append_left _ (List.mem_append_left _ hop)))
        (by omega) (by omega) settings' clock'
      rw [hopen] at hopen'
      cases hopen'
      obtain ⟨-, ⟨ids₁, hsound₁⟩, -⟩ := hsound.after reqs
        (fun _ op hop => hfits op (List.mem_append_left _ hop))
        (by rw [Operation.logged_append]; omega) (by rw [List.length_append]; omega)
      have htotal' : Operation.logged (ops ++ (opened v' e).trace dir reqs ++ more)
          < UInt64.size := by
        rw [Operation.logged_append, Operation.logged_append]
        exact htotal
      have hroom' : (ops ++ (opened v' e).trace dir reqs ++ more).length + (1 + n) + k
          < UInt64.size := by
        rw [List.length_append, List.length_append]
        omega
      obtain ⟨ids₂, ts, rs, hrec⟩ := hcrash.recoverable hsound₁ hfits htotal' hroom'
      obtain ⟨e₂, v₂, ids₃, hopen₂, hsound₂⟩ :=
        hrec.openAt_ok htotal' (by omega) settings clock
      exact ⟨e₂, v₂, ids₃, hopen₂, by rw [← Nat.add_assoc]; exact hsound₂⟩

/-- Whatever a crash leaves of a store, a store opens on it. Then it
answers as the map of all operations that were completed, in order, and of
the one that was under way, which counts whole or not at all. It does so
again when it is opened once more. -/
theorem crash_recovered {n k : Nat} {v₀ v₁ : Volume} {earlier more : List Operation}
    {settings₀ : Settings} {clock₀ : UInt64} {e : Engine} (h : History dir n v₀ earlier)
    (hopen : openAt settings₀ dir clock₀ v₀ = .ok e v₁) (reqs : List Request)
    (hcrash : Crash dir ((opened v₁ e).after dir reqs) k v more)
    (hfits : ∀ op ∈ earlier ++ (opened v₁ e).trace dir reqs ++ more, op.Fits)
    (htotal : Operation.logged (earlier ++ (opened v₁ e).trace dir reqs ++ more)
      < UInt64.size)
    (hroom : (earlier ++ (opened v₁ e).trace dir reqs ++ more).length + 1 + (n + k)
      < UInt64.size) (settings settings' : Settings) (clock clock' : UInt64) :
    (more = [] ∨ ∃ op, more = [op]) ∧
      ∃ e' v', openAt settings dir clock v = .ok e' v' ∧
        (opened v' e').AnswersAs (earlier ++ (opened v₁ e).trace dir reqs ++ more) ∧
        ∃ e'' v'', openAt settings' dir clock' v' = .ok e'' v'' ∧
          (opened v'' e'').AnswersAs (earlier ++ (opened v₁ e).trace dir reqs ++ more) := by
  obtain ⟨e', v', ids, hopen', hsound⟩ :=
    (h.session hopen reqs hcrash).openAt_ok hfits htotal hroom settings clock
  obtain ⟨rs, hrec⟩ := recoverable_of_sound hsound hfits
  obtain ⟨e'', v'', ids', hopen'', hsound'⟩ := hrec.openAt_ok htotal (by omega) settings' clock'
  exact ⟨hcrash.all_or_nothing, e', v', hopen', hsound.answersAs, e'', v'', hopen'',
    hsound'.answersAs⟩

/-- The sample run is found again with an operation that was logged behind
it and no more. -/
theorem crash_recovered_sampleRun :
    ∃ v e' v', openAt Settings.standard ["db"] 2 v = .ok e' v' ∧
      Store.get [1] (opened v' e') = .ok (some [6]) (opened v' e') := by
  obtain ⟨e, v₁, ids, hopen, -⟩ := (vacant_empty ["db"]).openAt_ok Settings.standard 0
  have hop : (Operation.put [1] [6]).Loggable := by decide
  have hcrash : Crash ["db"] ((opened v₁ e).after ["db"] sampleRun) 0 _ [.put [1] [6]] :=
    Crash.logged (record_ok _ hop)
  obtain ⟨-, e', v', hopen', hanswers, -⟩ :=
    crash_recovered (History.new (vacant_empty ["db"])) hopen sampleRun hcrash
      (by rw [trace_sampleRun]; decide) (by rw [trace_sampleRun]; decide)
      (by rw [trace_sampleRun]; decide) Settings.standard Settings.standard 2 3
  refine ⟨_, e', v', hopen', (hanswers.get [1]).trans ?_⟩
  rw [trace_sampleRun]
  rfl

end Store

end OrderedStore
