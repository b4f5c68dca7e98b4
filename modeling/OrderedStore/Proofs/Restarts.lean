/-
A directory of tables over many restarts.

In memory the list of tables is in the order in which they were made; on the
volume there is only the order of the numbers in their names. The two are
kept together by the numbers going up: whatever is open has the shelf that
`Shelved` says, and the next number is above all that stand in the
directory (`Open`). Every step keeps this, and whatever it adds, it leaves
the files of tables as they are (`Lasting`): a flush writes under two names
of which none is a table's yet, opening takes away what was left unfinished,
and others do as they like with files that no table is named as
(`LeftAlone`).

A flush that is refused, because a value is too large for the format, ends
in the middle of the unfinished file. Then only the number is used up.
-/
import Mathlib
import OrderedStore.Proofs.Opening

namespace OrderedStore

-- ================================================================ answers

namespace Tables

variable {v v' : Volume} {ts : Tables}

end Tables

-- ========================================================== refused tables

namespace Table.Builder

variable {b : Builder} {v : Volume} {es : List (Bytes × Entry)}

/-- An entry behind those before it is refused if its value is too large. -/
theorem refusal?_large (h : b.Knows v es) {k : Bytes} {e : Entry} (hlast : ∀ p ∈ es, p.1 < k)
    (he : tombstoneMark ≤ (valueBytes e).length) : b.refusal? k e = some .valueTooLarge := by
  unfold refusal?
  match hhead : b.added.head? with
  | none => exact if_pos he
  | some (last, offset) =>
      have hmem : last ∈ es.map Prod.fst := by
        rw [← h.keys, List.map_reverse, List.mem_reverse]
        exact List.mem_map.mpr ⟨_, List.mem_of_mem_head? hhead, rfl⟩
      obtain ⟨p, hp, rfl⟩ := List.mem_map.mp hmem
      show (if k ≤ p.1 then some (TableFault.outOfOrder k p.1)
        else if tombstoneMark ≤ (valueBytes e).length then some .valueTooLarge else none) = _
      rw [if_neg (fun hle => List.lt_irrefl _ (List.lt_of_le_of_lt hle (hlast p hp))), if_pos he]

/-- Entries in order are refused at the first whose value is too large. No
other file is touched. -/
theorem addAll_refused (back : List (Bytes × Entry)) (h : b.Knows v es)
    (hsorted : (es ++ back).Pairwise fun a b => a.1 < b.1)
    (hlarge : ∃ p ∈ back, tombstoneMark ≤ (valueBytes p.2).length) :
    ∃ x, back.foldlM (fun b e => b.add e.1 e.2) b v
      = .error (.table .valueTooLarge) (v.setContent b.out.file x) := by
  induction back generalizing b v es with
  | nil =>
      obtain ⟨p, hp, -⟩ := hlarge
      cases hp
  | cons p back ih =>
      have hlast : ∀ q ∈ es, q.1 < p.1 := fun q hq =>
        (List.pairwise_append.mp hsorted).2.2 q hq p List.mem_cons_self
      by_cases hp : tombstoneMark ≤ (valueBytes p.2).length
      · have hadd : b.add p.1 p.2 v = .error (.table .valueTooLarge) v := by
          unfold add
          rw [refusal?_large h hlast hp]
          rfl
        refine ⟨v.content b.out.file, ?_⟩
        rw [List.foldlM_cons, bind_error hadd, Volume.setContent_content]
      · obtain ⟨b₁, x, hadd, hfile, hb₁⟩ := add_ok h hlast (not_le.mp hp)
        obtain ⟨y, hrest⟩ := ih hb₁ (by rwa [List.append_assoc, List.singleton_append]) (by
          obtain ⟨q, hq, hqlarge⟩ := hlarge
          rcases List.mem_cons.mp hq with rfl | hq
          · exact absurd hqlarge hp
          · exact ⟨q, hq, hqlarge⟩)
        rw [hfile, Volume.setContent_setContent] at hrest
        refine ⟨y, ?_⟩
        rw [List.foldlM_cons, bind_ok hadd, hrest]

end Table.Builder

namespace Catalog

variable {v v' : Volume} {d : Path} {ids : List UInt64} {ts : Tables}

-- ========================================================== unfinished files

/-- What was unfinished among these names is gone. -/
theorem removeUnfinished_gone {found : List (String × Node)} (hv : v.Sane)
    (hthere : ∀ child ∈ found, v.node? (d ++ [child.1]) = some child.2)
    (hnodup : (found.map Prod.fst).Nodup) (hrun : removeUnfinished d found v = .ok () v') :
    ∀ child ∈ found, child.2 ≠ .directory → isUnfinished child.1 = true →
      v'.node? (d ++ [child.1]) = none := by
  obtain ⟨v₁, hrun₁, -, -, hgone, -⟩ := removeUnfinished_eq hv hthere hnodup
  rw [hrun] at hrun₁
  cases hrun₁
  rintro ⟨name, node⟩ hchild hfile hunfinished
  cases node with
  | directory => exact absurd rfl hfile
  | file n => exact hgone name n hchild hunfinished

/-- To open a table is to read it. -/
theorem volume_openTable {p : Path} {t : Table} (hrun : Table.openAt p v = .ok t v') :
    v' = v := by
  match hnode : v.node? p with
  | none =>
      obtain ⟨node, v₁, hexisting, -⟩ := of_bind_ok hrun
      unfold Disk.existing at hexisting
      rw [bind_ok (Disk.node?_ok p v), hnode] at hexisting
      cases hexisting
  | some .directory =>
      unfold Table.openAt at hrun
      rw [bind_ok (Disk.existing_ok hnode)] at hrun
      cases hrun
  | some (.file number) =>
      rw [Table.openAt_eq hnode] at hrun
      split at hrun
      · cases hrun
        rfl
      · cases hrun

/-- So it is with several. -/
theorem volume_openTables (hrun : openTables d ids v = .ok ts v') : v' = v := by
  induction ids generalizing ts with
  | nil =>
      cases hrun
      rfl
  | cons id ids ih =>
      obtain ⟨t, v₁, hopen, hrun⟩ := of_bind_ok hrun
      obtain ⟨ts', v₂, hrest, hrun⟩ := of_bind_ok hrun
      cases hrun
      rw [volume_openTable hopen] at hrest
      exact ih hrest

/-- After a directory is opened there is nothing unfinished in it. -/
theorem openAt_finished (h : Shelved v d ids ts) {c : Catalog} (hopen : openAt d v = .ok c v')
    {name : String} (hname : isUnfinished name = true) : v'.node? (d ++ [name]) = none := by
  unfold openAt at hopen
  rw [bind_ok (Disk.createDirectories_rooted h.rooted), bind_ok (Disk.get_ok v)] at hopen
  obtain ⟨u, v₁, hremove, hopen⟩ := of_bind_ok hopen
  obtain ⟨ts', v₂, htables, hopen⟩ := of_bind_ok hopen
  cases hopen
  rw [volume_openTables htables]
  have hthere : ∀ child ∈ v.children d, v.node? (d ++ [child.1]) = some child.2 :=
    fun child hchild => (h.sane.mem_children child.1 child.2).mp hchild
  have hgone := removeUnfinished_gone h.sane hthere (h.sane.nodup_children d) hremove
  cases hnode : v.node? (d ++ [name]) with
  | none =>
      obtain ⟨v₃, hremove₃, -, -, hnodes⟩ :=
        removeUnfinished_ok h.sane hthere (h.sane.nodup_children d)
      rw [hremove] at hremove₃
      cases hremove₃
      rcases hnodes (d ++ [name]) with hsame | ⟨hnone, -⟩
      · rw [hsame, hnode]
      · exact hnone
  | some node =>
      refine hgone (name, node) ((h.sane.mem_children name node).mpr hnode) ?_ hname
      rintro rfl
      exact h.plain name hnode

-- ================================================================ others

/-- What others may do to the volume: anything but to the directories on the
way and to files that are named as tables, and no directory is made among
them. -/
structure LeftAlone (d : Path) (v v' : Volume) : Prop where
  sane : v'.Sane
  agree : v.Agree (fun q => q <+: d ∨ ∃ name id, q = d ++ [name] ∧ tableId? name = some id) v'
  plain : ∀ name, v'.node? (d ++ [name]) ≠ some .directory

/-- The shelf is left as it is. -/
theorem Shelved.leftAlone (h : Shelved v d ids ts) (hv : LeftAlone d v v') :
    Shelved v' d ids ts := by
  refine ⟨hv.sane, fun q hq => ?_, h.descending, h.paths, fun t ht => ?_, hv.plain,
    fun name node id hname hid => ?_⟩
  · rw [(hv.agree q (Or.inl hq)).1, h.rooted q hq]
  · obtain ⟨id, -, hpath⟩ := h.path_of_mem ht
    exact ((h.stands t ht).agree hv.agree
      (Or.inr ⟨tableName id, id, hpath, tableId?_tableName id⟩)).1
  · rw [(hv.agree _ (Or.inr ⟨name, id, rfl, hid⟩)).1] at hname
    exact h.known name node id hname hid

/-- A memtable with a value that is too large is refused. Its number is used
up, and what was written of it stays behind unfinished. -/
theorem flush_refused {m : Memtable} {next : UInt64} (h : Shelved v d ids ts)
    (hne : m.isEmpty = false)
    (hlarge : ∃ p ∈ m.latest, Table.tombstoneMark ≤ (Table.valueBytes p.2).length) :
    ∃ v', flush ⟨d, ts, next⟩ m v
        = .ok (.error (.table .valueTooLarge), ⟨d, ts, next + 1⟩) v' ∧ LeftAlone d v v' := by
  obtain ⟨temporary, htemporary⟩ : ∃ p, p = d ++ [tableName next ++ ".tmp"] := ⟨_, rfl⟩
  have htmpne : temporary ≠ [] := by rw [htemporary]; exact child_ne_nil _ _
  have hparent : v.node? temporary.dropLast = some .directory := by
    rw [htemporary, List.dropLast_concat]
    exact h.rooted d (List.prefix_refl d)
  obtain ⟨file, v₁, hcreate, hsane₁, hnode₁, hempty₁, hagree₁⟩ :=
    Disk.create_ok h.sane htmpne hparent (by rw [htemporary]; exact h.plain _)
  have hfile₁ : file < v₁.contents.length := hsane₁.within _ _ hnode₁
  obtain ⟨b, x, hstart, hfile, hb⟩ := Table.Builder.start_ok hcreate hfile₁ hempty₁
  have hsorted : m.latest.Pairwise fun a b => a.1 < b.1 := by
    rw [Memtable.latest_eq]
    exact m.newest.sorted
  obtain ⟨y, hrefused⟩ := Table.Builder.addAll_refused m.latest hb hsorted hlarge
  rw [hfile, Volume.setContent_setContent] at hrefused
  have hagree : v.Agree (fun q => q ≠ temporary) (v₁.setContent file y) :=
    hagree₁.trans (Volume.agree_setContent hsane₁ hnode₁ _)
  refine ⟨v₁.setContent file y, ?_, hsane₁.setContent _ _, hagree.mono ?_, fun name hname => ?_⟩
  · have hwrite : writeTable temporary m.latest v
        = .error (.table .valueTooLarge) (v₁.setContent file y) := by
      unfold writeTable
      rw [bind_ok hstart, bind_error hrefused]
    have hinstall : install d next m.latest v
        = .error (.table .valueTooLarge) (v₁.setContent file y) := by
      unfold install
      rw [← htemporary, bind_error hwrite]
    unfold flush
    rw [hne, if_neg Bool.false_ne_true]
    refine (tryCatch_error ?_ _).trans rfl
    rw [bind_error hinstall]
  · rintro q (hq | ⟨name, id, rfl, hid⟩)
    · rw [htemporary]
      exact prefix_ne_child hq _
    · rw [htemporary]
      intro heq
      rw [child_inj heq, tableId?_of_isUnfinished (isUnfinished_temporary next)] at hid
      cases hid
  · by_cases htmp : d ++ [name] = temporary
    · rw [htmp, Volume.node?_setContent, hnode₁] at hname
      cases hname
    · rw [(hagree _ htmp).1] at hname
      exact h.plain name hname

-- ================================================================== steps

/-- All lengths and offsets fit their digits in a table, but perhaps those of
values. -/
structure Spells (es : List (Bytes × Entry)) : Prop where
  keys : ∀ p ∈ es, p.1.length < UInt32.size
  extent : Table.headerSize + (Table.dataBlock es).length < UInt64.size

/-- What happens to a volume with a directory of tables open on it. A
memtable is flushed, the directory is opened again, or others do what they
do. -/
inductive Step (d : Path) : Volume × Catalog → Volume × Catalog → Prop where
  | flush {v v' : Volume} {c c' : Catalog} {m : Memtable} {outcome : Except Failure Unit}
      (hne : m.isEmpty = false) (hm : Spells m.latest) (hid : c.nextId.toNat + 1 < UInt64.size)
      (hrun : Catalog.flush c m v = .ok (outcome, c') v') : Step d (v, c) (v', c')
  | reopen {v v' : Volume} {c c' : Catalog} (hrun : Catalog.openAt d v = .ok c' v') :
      Step d (v, c) (v', c')
  | others {v v' : Volume} {c : Catalog} (h : LeftAlone d v v') : Step d (v, c) (v', c)

/-- The directory is open: its shelf is the list of the open tables, and the
next number is above all of theirs. -/
structure Open (d : Path) (x : Volume × Catalog) (ids : List UInt64) : Prop where
  directory : x.2.directory = d
  shelved : Shelved x.1 d ids x.2.tables
  above : ∀ id ∈ ids, id < x.2.nextId
  room : ∀ id ∈ ids, id.toNat + 1 < UInt64.size

/-- What lasts: the files that are named as tables stay and are never written
again, the list of open tables only grows, in front, and so what its tables
hold is what they held. -/
structure Lasting (d : Path) (x x' : Volume × Catalog) : Prop where
  files : ∀ name id n, tableId? name = some id → x.1.node? (d ++ [name]) = some (.file n) →
    x'.1.node? (d ++ [name]) = some (.file n) ∧ x'.1.content n = x.1.content n
  list : x.2.tables <:+ x'.2.tables
  contents : ∀ t ∈ x.2.tables, x'.1.content t.file = x.1.content t.file

variable {x x' x'' : Volume × Catalog} {c c' : Catalog} {m : Memtable}

/-- Nothing changes when nothing is done. -/
theorem Lasting.refl (d : Path) (x : Volume × Catalog) : Lasting d x x :=
  ⟨fun _ _ _ _ hn => ⟨hn, rfl⟩, List.suffix_refl _, fun _ _ => rfl⟩

/-- What lasts through two steps lasts through both. -/
theorem Lasting.trans (h : Lasting d x x') (h' : Lasting d x' x'') : Lasting d x x'' := by
  refine ⟨fun name id n hid hn => ?_, h.list.trans h'.list, fun t ht => ?_⟩
  · obtain ⟨hn', hcontent⟩ := h.files name id n hid hn
    obtain ⟨hn'', hcontent'⟩ := h'.files name id n hid hn'
    exact ⟨hn'', hcontent'.trans hcontent⟩
  · rw [h'.contents t (h.list.subset ht), h.contents t ht]

/-- What is kept of the files with tables' names is kept of the tables. -/
theorem Open.lasting (h : Open d x ids) (hlist : x.2.tables <:+ x'.2.tables)
    (hfiles : ∀ name id n, tableId? name = some id → x.1.node? (d ++ [name]) = some (.file n) →
      x'.1.node? (d ++ [name]) = some (.file n) ∧ x'.1.content n = x.1.content n) :
    Lasting d x x' := by
  refine ⟨hfiles, hlist, fun t ht => ?_⟩
  obtain ⟨id, -, hpath⟩ := h.shelved.path_of_mem ht
  have hnamed := (h.shelved.stands t ht).named
  rw [hpath] at hnamed
  exact (hfiles _ id _ (tableId?_tableName id) hnamed).2

/-- The number that comes next is above all the others. -/
theorem lt_nextOf (hdescending : ids.Pairwise fun a b => b < a)
    (hroom : ∀ id ∈ ids, id.toNat + 1 < UInt64.size) : ∀ id ∈ ids, id < nextOf ids := by
  cases ids with
  | nil => exact fun id hid => absurd hid List.not_mem_nil
  | cons first ids =>
      have hfirst : first < first + 1 := lt_succ (hroom first List.mem_cons_self)
      intro id hid
      rcases List.mem_cons.mp hid with rfl | hid
      · exact hfirst
      · exact UInt64.lt_trans ((List.pairwise_cons.mp hdescending).1 id hid) hfirst

/-- Others leave the directory open. -/
theorem Open.leftAlone {v v' : Volume} (h : Open d (v, c) ids) (hv : LeftAlone d v v')
    {next : UInt64} (hnext : ∀ id ∈ ids, id < next) :
    Open d (v', ⟨c.directory, c.tables, next⟩) ids ∧
      Lasting d (v, c) (v', ⟨c.directory, c.tables, next⟩) := by
  refine ⟨⟨h.directory, h.shelved.leftAlone hv, hnext, h.room⟩,
    h.lasting (List.suffix_refl _) fun name id n hid hn => ?_⟩
  obtain ⟨hnode, hcontent⟩ := hv.agree _ (Or.inr ⟨name, id, rfl, hid⟩)
  exact ⟨hnode.trans hn, hcontent n hn⟩

/-- What a flush does: the memtable is a table in front of the others, under
a name that was not there; or, with a value that is too large for a table,
it is refused, and nothing is used up but the number. -/
structure Flushes (d : Path) (v : Volume) (c : Catalog) (m : Memtable) : Prop where
  fresh : v.node? (d ++ [tableName c.nextId]) = none
  done : (∀ p ∈ m.latest, (Table.valueBytes p.2).length < Table.tombstoneMark) →
    ∃ t v', Catalog.flush c m v = .ok (.ok (), ⟨d, t :: c.tables, c.nextId + 1⟩) v' ∧
      t.path = d ++ [tableName c.nextId] ∧ ∀ k, t.entry v' k = m.latest.lookup k
  refused : (∃ p ∈ m.latest, Table.tombstoneMark ≤ (Table.valueBytes p.2).length) →
    ∃ v', Catalog.flush c m v
      = .ok (.error (.table .valueTooLarge), ⟨d, c.tables, c.nextId + 1⟩) v'

/-- No file has the name of the next table. -/
theorem Open.fresh {v : Volume} (h : Open d (v, c) ids) :
    v.node? (d ++ [tableName c.nextId]) = none := by
  cases hnode : v.node? (d ++ [tableName c.nextId]) with
  | none => rfl
  | some node =>
      have hknown := (h.shelved.known _ node c.nextId hnode (tableId?_tableName _)).1
      exact absurd (h.above _ hknown) (UInt64.lt_irrefl _)

/-- A memtable whose values fit is put in front, and the directory stays
open. -/
theorem Open.flush_done {v : Volume} (h : Open d (v, c) ids) (hne : m.isEmpty = false)
    (hm : Spells m.latest) (hid : c.nextId.toNat + 1 < UInt64.size)
    (hvalues : ∀ p ∈ m.latest, (Table.valueBytes p.2).length < Table.tombstoneMark) :
    ∃ t v', Catalog.flush c m v = .ok (.ok (), ⟨d, t :: c.tables, c.nextId + 1⟩) v' ∧
      (t.path = d ++ [tableName c.nextId] ∧ ∀ k, t.entry v' k = m.latest.lookup k) ∧
      Open d (v', ⟨d, t :: c.tables, c.nextId + 1⟩) (c.nextId :: ids) ∧
      Lasting d (v, c) (v', ⟨d, t :: c.tables, c.nextId + 1⟩) := by
  have hsorted : m.latest.Pairwise fun a b => a.1 < b.1 := by
    rw [Memtable.latest_eq]
    exact m.newest.sorted
  have hcatalog : c = ⟨d, c.tables, c.nextId⟩ := by rw [← h.directory]
  obtain ⟨t, v', hflush, hshelved, hagree, hentry⟩ :=
    Catalog.flush_ok h.shelved h.above ⟨hsorted, hm.keys, hvalues, hm.extent⟩ hne
  rw [← hcatalog] at hflush
  have hpath : t.path = d ++ [tableName c.nextId] := by
    have hpaths := hshelved.paths
    rw [List.map_cons, List.map_cons] at hpaths
    exact (List.cons.inj hpaths).1
  have hnext : c.nextId < c.nextId + 1 := lt_succ hid
  refine ⟨t, v', hflush, ⟨hpath, hentry⟩, ⟨rfl, hshelved, fun id hmem => ?_, fun id hmem => ?_⟩,
    h.lasting ⟨[t], rfl⟩ fun name id n hname hn => ?_⟩
  · rcases List.mem_cons.mp hmem with rfl | hmem
    · exact hnext
    · exact UInt64.lt_trans (h.above id hmem) hnext
  · rcases List.mem_cons.mp hmem with rfl | hmem
    · exact hid
    · exact h.room id hmem
  · obtain ⟨hnode, hcontent⟩ := hagree (d ++ [name]) (by
      refine ⟨fun heq => ?_, fun heq => ?_⟩
      · rw [child_inj heq, tableId?_of_isUnfinished (isUnfinished_temporary _)] at hname
        cases hname
      · have hnone := h.fresh
        rw [← heq, hn] at hnone
        cases hnone)
    exact ⟨hnode.trans hn, hcontent n hn⟩

/-- A memtable with a value that is too large is refused, and the directory
stays open. -/
theorem Open.flush_refused {v : Volume} (h : Open d (v, c) ids) (hne : m.isEmpty = false)
    (hid : c.nextId.toNat + 1 < UInt64.size)
    (hlarge : ∃ p ∈ m.latest, Table.tombstoneMark ≤ (Table.valueBytes p.2).length) :
    ∃ v', Catalog.flush c m v
        = .ok (.error (.table .valueTooLarge), ⟨d, c.tables, c.nextId + 1⟩) v' ∧
      Open d (v', ⟨d, c.tables, c.nextId + 1⟩) ids ∧
      Lasting d (v, c) (v', ⟨d, c.tables, c.nextId + 1⟩) := by
  have hcatalog : c = ⟨d, c.tables, c.nextId⟩ := by rw [← h.directory]
  obtain ⟨v', hflush, hleft⟩ : ∃ v', Catalog.flush ⟨d, c.tables, c.nextId⟩ m v
      = .ok (.error (.table .valueTooLarge), ⟨d, c.tables, c.nextId + 1⟩) v' ∧
        Catalog.LeftAlone d v v' := Catalog.flush_refused h.shelved hne hlarge
  rw [← hcatalog] at hflush
  have habove : ∀ id ∈ ids, id < c.nextId + 1 := fun id hmem =>
    UInt64.lt_trans (h.above id hmem) (lt_succ hid)
  have hafter := h.leftAlone hleft habove
  have hdirectory : c.directory = d := h.directory
  rw [hdirectory] at hafter
  exact ⟨v', hflush, hafter⟩

/-- A directory that is opened again has the same tables. -/
theorem Open.reopened {v : Volume} (h : Open d (v, c) ids) :
    ∃ v', Catalog.openAt d v = .ok ⟨d, c.tables, nextOf ids⟩ v' ∧
      Open d (v', ⟨d, c.tables, nextOf ids⟩) ids ∧
      Lasting d (v, c) (v', ⟨d, c.tables, nextOf ids⟩) := by
  obtain ⟨v', hopen, hshelved, -, hagree⟩ := Catalog.openAt_ok h.shelved
  refine ⟨v', hopen, ⟨rfl, hshelved, lt_nextOf hshelved.descending h.room, h.room⟩,
    h.lasting (List.suffix_refl _) fun name id n hid hn => ?_⟩
  obtain ⟨hnode, hcontent⟩ := hagree (d ++ [name]) fun name' heq => by
    rw [← child_inj heq]
    by_contra hunfinished
    rw [tableId?_of_isUnfinished (by simpa using hunfinished)] at hid
    cases hid
  exact ⟨hnode.trans hn, hcontent n hn⟩

/-- Every step keeps a directory open, and leaves what lasts. -/
theorem Open.step (h : Open d x ids) (hstep : Step d x x') :
    ∃ ids', Open d x' ids' ∧ Lasting d x x' := by
  cases hstep with
  | @flush v v' c c' m outcome hne hm hid hrun =>
      by_cases hlarge : ∃ p ∈ m.latest, Table.tombstoneMark ≤ (Table.valueBytes p.2).length
      · obtain ⟨v₁, hflush, hopen, hlasting⟩ := h.flush_refused hne hid hlarge
        rw [hrun] at hflush
        cases hflush
        exact ⟨ids, hopen, hlasting⟩
      · have hvalues : ∀ p ∈ m.latest, (Table.valueBytes p.2).length < Table.tombstoneMark :=
          fun p hp => not_le.mp fun hle => hlarge ⟨p, hp, hle⟩
        obtain ⟨t, v₁, hflush, -, hopen, hlasting⟩ := h.flush_done hne hm hid hvalues
        rw [hrun] at hflush
        cases hflush
        exact ⟨_, hopen, hlasting⟩
  | reopen hrun =>
      obtain ⟨v₁, hopened, hopen, hlasting⟩ := h.reopened
      rw [hrun] at hopened
      cases hopened
      exact ⟨ids, hopen, hlasting⟩
  | others hleft => exact ⟨ids, h.leftAlone hleft h.above⟩

/-- So does every row of steps. -/
theorem Open.steps (h : Open d x ids) (hrun : Relation.ReflTransGen (Step d) x x') :
    ∃ ids', Open d x' ids' ∧ Lasting d x x' := by
  induction hrun with
  | refl => exact ⟨ids, h, Lasting.refl d x⟩
  | tail _ hstep ih =>
      obtain ⟨ids', hopen, hlasting⟩ := ih
      obtain ⟨ids'', hopen', hlasting'⟩ := hopen.step hstep
      exact ⟨ids'', hopen', hlasting.trans hlasting'⟩

-- =================================================================== runs

/-- What is known of an open directory at any moment. The list is that of the
files named as tables, highest number first, and the next number is above
all of these. Opened again, the directory has the same list, a next number
above all, and no unfinished table; what a flush does is known; and others
may put files there that are not named as tables. -/
structure Steady (d : Path) (x : Volume × Catalog) : Prop where
  named : ∃ ids : List UInt64, ids.Pairwise (fun a b => b < a) ∧
    x.2.tables.map Table.path = ids.map (fun id => d ++ [tableName id]) ∧
    ∀ name node id, x.1.node? (d ++ [name]) = some node → tableId? name = some id →
      id ∈ ids ∧ name = tableName id ∧ id < x.2.nextId
  reopened : ∃ next v', Catalog.openAt d x.1 = .ok ⟨d, x.2.tables, next⟩ v' ∧
    (∀ name node id, v'.node? (d ++ [name]) = some node → tableId? name = some id → id < next) ∧
    ∀ stem : String, stem ≠ "" → v'.node? (d ++ [stem ++ ".tmp"]) = none
  flushes : ∀ m : Memtable, m.isEmpty = false → Spells m.latest →
    x.2.nextId.toNat + 1 < UInt64.size → Flushes d x.1 x.2 m
  others : ∀ name bs, tableId? name = none → LeftAlone d x.1 (x.1.addFile (d ++ [name]) bs)

/-- There are no tables yet: the directory is not there, or it is, and no
file in it is named as a table. -/
structure Bare (v : Volume) (d : Path) : Prop where
  sane : v.Sane
  around : ∀ q, q <+: d → v.node? q = none ∨ v.node? q = some .directory
  plain : ∀ name, v.node? (d ++ [name]) ≠ some .directory
  nameless : ∀ name node, v.node? (d ++ [name]) = some node → tableId? name = none

/-- A bare directory is opened, with no tables. -/
theorem Bare.openAt_ok (h : Bare v d) :
    ∃ v', Catalog.openAt d v = .ok ⟨d, [], 1⟩ v' ∧ Open d (v', ⟨d, [], 1⟩) [] ∧
      ∀ name, isUnfinished name = true → v'.node? (d ++ [name]) = none := by
  obtain ⟨v₁, hmade, hsane, -, hnodes⟩ := Disk.createDirectories_ok h.sane h.around
  have hrooted : ∀ q, q <+: d → v₁.node? q = some .directory := by
    intro q hq
    rw [hnodes, if_pos hq]
  have hchild : ∀ name, v₁.node? (d ++ [name]) = v.node? (d ++ [name]) := by
    intro name
    rw [hnodes, if_neg fun hpre => prefix_ne_child hpre name rfl]
  have hshelved : Shelved v₁ d [] [] := by
    refine ⟨hsane, hrooted, List.Pairwise.nil, rfl, fun t ht => absurd ht List.not_mem_nil,
      fun name hname => ?_, fun name node id hname hid => ?_⟩
    · rw [hchild] at hname
      exact h.plain name hname
    · rw [hchild] at hname
      rw [h.nameless name node hname] at hid
      cases hid
  obtain ⟨v', hopen, hshelved', -, -⟩ := Catalog.openAt_ok hshelved
  refine ⟨v', ?_, ⟨rfl, hshelved', fun id hid => absurd hid List.not_mem_nil,
    fun id hid => absurd hid List.not_mem_nil⟩, fun name hname => ?_⟩
  · rw [Engine.Catalog.openAt_made hmade hrooted]
    exact hopen
  · exact openAt_finished hshelved hopen hname

end Catalog

end OrderedStore
