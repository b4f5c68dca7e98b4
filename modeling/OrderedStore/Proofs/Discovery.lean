/-
Which files of a directory become its tables.

A file is taken for a table if a number can be read from its name, and numbers
are read from more names than are given to tables: digits may be missing in
front, or too many, and there may be a sign. What is opened then is not the file
that was found but the one with the name that a table of that number is given
(`openAt_cases`).

So the tables that are found are opened exactly if all have the names they were
given. Otherwise there is a number whose name is nobody's, and the directory is
not opened at all, or a table is opened twice and another one never. Whatever
happens, all files stay as they are but the unfinished ones.
-/
import Mathlib
import OrderedStore.Proofs.Restarts

namespace OrderedStore

-- ==================================================================== tables

/-- The table's file is where the table says, and its index was read from it. -/
structure Table.Opened (v : Volume) (t : Table) : Prop where
  named : v.node? t.path = some (.file t.file)
  parsed : Table.parse t.path.display (v.content t.file) = .ok t.index

/-- Where there is no file no table is opened. -/
theorem Table.openAt_missing {v : Volume} {p : Path} (h : ∀ n, v.node? p ≠ some (.file n)) :
    Table.openAt p v = .error .io v := by
  unfold Table.openAt
  match hnode : v.node? p with
  | none =>
      have hmissing : Disk.existing p v = .error .io v := by
        unfold Disk.existing
        rw [bind_ok (Disk.node?_ok p v), hnode]
        rfl
      exact bind_error hmissing _
  | some .directory =>
      rw [bind_ok (Disk.existing_ok hnode)]
      rfl
  | some (.file n) => exact absurd hnode (h n)

namespace Catalog

variable {v v' : Volume} {d : Path} {ts : Tables}

/-- The file is taken for a table with this number. -/
def Recognised (v : Volume) (d : Path) (name : String) (id : UInt64) : Prop :=
  tableId? name = some id ∧ ∃ n, v.node? (d ++ [name]) = some (.file n)

/-- The directory is there, and every file in it that is taken for a table is
one. -/
structure Stocked (v : Volume) (d : Path) : Prop where
  sane : v.Sane
  rooted : ∀ q, q <+: d → v.node? q = some .directory
  valid : ∀ name id n, tableId? name = some id → v.node? (d ++ [name]) = some (.file n) →
    ∃ index, Table.parse (d ++ [name]).display (v.content n) = .ok index

/-- The tables are one for each file that is taken for a table, with the highest
number first. Each was opened from the file with the name that `source` gives for
a name and its number. -/
def Lists (v : Volume) (d : Path) (source : String → UInt64 → String) (ts : Tables) : Prop :=
  ∃ found : List (String × UInt64), (found.map Prod.fst).Nodup ∧
    (∀ name id, (name, id) ∈ found ↔ Recognised v d name id) ∧
    found.Pairwise (fun a b => b.2 ≤ a.2) ∧
    ts.map Table.path = found.map (fun p => d ++ [source p.1 p.2]) ∧ ∀ t ∈ ts, t.Opened v

/-- Unfinished tables are gone from the directory, and nothing else is touched. -/
structure Tidied (v : Volume) (d : Path) (v' : Volume) : Prop where
  contents : v'.contents = v.contents
  gone : ∀ name n, v.node? (d ++ [name]) = some (.file n) → isUnfinished name = true →
    v'.node? (d ++ [name]) = none
  stays : ∀ q, (∀ name n, q = d ++ [name] → v.node? q = some (.file n) →
    isUnfinished name = false) → v'.node? q = v.node? q

-- =================================================================== finding

/-- The files that are taken for tables with their numbers, as the directory lists
them. -/
def recognised (v : Volume) (d : Path) : List (String × UInt64) :=
  (v.children d).filterMap fun child =>
    (if child.2 = .directory then none else tableId? child.1).map fun id => (child.1, id)

theorem mem_recognised (hv : v.Sane) {name : String} {id : UInt64} :
    (name, id) ∈ recognised v d ↔ Recognised v d name id := by
  unfold recognised
  rw [List.mem_filterMap]
  constructor
  · rintro ⟨⟨name', node⟩, hchild, hread⟩
    obtain ⟨id', hid, heq⟩ := Option.map_eq_some_iff.mp hread
    cases heq
    cases node with
    | directory => cases hid
    | file n => exact ⟨hid, n, (hv.mem_children _ _).mp hchild⟩
  · rintro ⟨hid, n, hnode⟩
    refine ⟨(name, .file n), (hv.mem_children name _).mpr hnode, ?_⟩
    rw [if_neg (fun heq => nomatch heq), hid]
    rfl

theorem nodup_recognised (hv : v.Sane) (d : Path) : ((recognised v d).map Prod.fst).Nodup := by
  have hchildren := hv.nodup_children d
  rw [List.Nodup, List.pairwise_map] at hchildren ⊢
  refine hchildren.filterMap _ fun child child' hne row hrow row' hrow' => ?_
  obtain ⟨id, -, rfl⟩ := Option.map_eq_some_iff.mp hrow
  obtain ⟨id', -, rfl⟩ := Option.map_eq_some_iff.mp hrow'
  exact hne

/-- The numbers that are found are theirs, the highest first. -/
theorem tableIds_recognised (v : Volume) (d : Path) : tableIds (v.children d)
    = ((recognised v d).map Prod.snd).insertionSort (fun a b : UInt64 => b ≤ a) := by
  unfold recognised
  rw [tableIds_eq, List.map_filterMap]
  congr 2
  funext child
  rw [Option.map_map]
  exact Option.map_id'.symm

/-- The files that are taken for tables, each once, in the order of the numbers
that are found. -/
theorem exists_found (hv : v.Sane) (d : Path) : ∃ found : List (String × UInt64),
    (found.map Prod.fst).Nodup ∧ (∀ name id, (name, id) ∈ found ↔ Recognised v d name id) ∧
      found.Pairwise (fun a b => b.2 ≤ a.2) ∧ found.map Prod.snd = tableIds (v.children d) := by
  have hperm := List.perm_insertionSort (fun a b : String × UInt64 => b.2 ≤ a.2) (recognised v d)
  have hids : ((recognised v d).insertionSort (fun a b => b.2 ≤ a.2)).map Prod.snd
      = tableIds (v.children d) := by
    rw [tableIds_recognised]
    exact List.map_insertionSort _ _ _ _ fun a _ b _ => Iff.rfl
  refine ⟨_, (hperm.map _).nodup_iff.mpr (nodup_recognised hv d),
    fun name id => hperm.mem_iff.trans (mem_recognised hv), ?_, hids⟩
  rw [← List.pairwise_map (f := Prod.snd) (R := fun a b : UInt64 => b ≤ a), hids, tableIds_eq]
  exact List.pairwise_insertionSort _ _

/-- Tables with these numbers are opened from the files that have their names. If
there is no such file for one of them none is opened. -/
theorem openTables_cases (ids : List UInt64) (hvalid : ∀ id ∈ ids, ∀ n,
      v.node? (d ++ [tableName id]) = some (.file n) →
        ∃ index, Table.parse (d ++ [tableName id]).display (v.content n) = .ok index) :
    (∃ ts, openTables d ids v = .ok ts v ∧
      ts.map Table.path = ids.map (fun id => d ++ [tableName id]) ∧ ∀ t ∈ ts, t.Opened v) ∨
    (openTables d ids v = .error .io v ∧
      ∃ id ∈ ids, ∀ n, v.node? (d ++ [tableName id]) ≠ some (.file n)) := by
  induction ids with
  | nil => exact Or.inl ⟨[], rfl, rfl, fun t ht => absurd ht List.not_mem_nil⟩
  | cons id ids ih =>
      rw [openTables]
      by_cases hmissing : ∀ n, v.node? (d ++ [tableName id]) ≠ some (.file n)
      · exact Or.inr ⟨bind_error (Table.openAt_missing hmissing) _, id, List.mem_cons_self, hmissing⟩
      obtain ⟨n, hnode⟩ := not_forall_not.mp hmissing
      obtain ⟨index, hparse⟩ := hvalid id List.mem_cons_self n hnode
      have hopen : Table.openAt (d ++ [tableName id]) v
          = .ok ⟨d ++ [tableName id], n, index⟩ v := by
        rw [Table.openAt_eq hnode, hparse]
      rw [bind_ok hopen]
      rcases ih fun id hid => hvalid id (List.mem_cons_of_mem _ hid) with
        ⟨ts, hrest, hpaths, hopened⟩ | ⟨hrest, id', hid', hnone⟩
      · rw [bind_ok hrest]
        refine Or.inl ⟨_, rfl, ?_, List.forall_mem_cons.mpr ⟨⟨hnode, hparse⟩, hopened⟩⟩
        rw [List.map_cons, List.map_cons, hpaths]
      · exact Or.inr ⟨bind_error hrest _, id', List.mem_cons_of_mem _ hid', hnone⟩

-- =================================================================== tidying

/-- Taking away what is unfinished tidies a directory. -/
theorem removeUnfinished_tidied (hv : v.Sane) (d : Path) :
    ∃ v', removeUnfinished d (v.children d) v = .ok () v' ∧ Tidied v d v' := by
  obtain ⟨v', hremove, -, hcontents, hgone, hstays⟩ := removeUnfinished_eq (d := d) hv
    (fun child hchild => (hv.mem_children child.1 child.2).mp hchild) (hv.nodup_children d)
  refine ⟨v', hremove, hcontents, fun name n hnode hname => ?_, fun q hq => ?_⟩
  · exact hgone name n ((hv.mem_children name _).mpr hnode) hname
  · refine hstays q fun name n heq hmem => hq name n heq ?_
    rw [heq]
    exact (hv.mem_children name _).mp hmem

/-- Files that are taken for tables are not unfinished. -/
theorem Tidied.node?_of_tableId? (h : Tidied v d v') {name : String} {id : UInt64}
    (hid : tableId? name = some id) : v'.node? (d ++ [name]) = v.node? (d ++ [name]) := by
  refine h.stays _ fun name' n heq _ => ?_
  rw [← child_inj heq, ← Bool.not_eq_true]
  intro hunfinished
  rw [tableId?_of_isUnfinished hunfinished] at hid
  cases hid

/-- So tables that are opened then could have been opened before. -/
theorem Tidied.opened (h : Tidied v d v') {t : Table} {id : UInt64}
    (hpath : t.path = d ++ [tableName id]) (ht : t.Opened v') : t.Opened v := by
  obtain ⟨hnode, hparse⟩ := ht
  rw [hpath, h.node?_of_tableId? (tableId?_tableName id), ← hpath] at hnode
  rw [Volume.content_of_contents h.contents] at hparse
  exact ⟨hnode, hparse⟩

/-- Files with the names that tables are given are still tables when the directory
has been tidied. -/
theorem Tidied.valid (h : Tidied v d v') (hv : Stocked v d) {id : UInt64} {n : Nat}
    (hnode : v'.node? (d ++ [tableName id]) = some (.file n)) :
    ∃ index, Table.parse (d ++ [tableName id]).display (v'.content n) = .ok index := by
  rw [h.node?_of_tableId? (tableId?_tableName id)] at hnode
  rw [Volume.content_of_contents h.contents]
  exact hv.valid _ id n (tableId?_tableName id) hnode

-- =================================================================== opening

/-- A directory is opened with the tables whose names the numbers that are found
have, or it is not opened for want of one of them. Either way it is tidied. -/
theorem openAt_cases (h : Stocked v d) : ∃ v', Tidied v d v' ∧
    ((∃ c, openAt d v = .ok c v' ∧ Lists v d (fun _ id => tableName id) c.tables) ∨
      (openAt d v = .error .io v' ∧ ∃ name id, Recognised v d name id ∧
        ∀ n, v.node? (d ++ [tableName id]) ≠ some (.file n))) := by
  obtain ⟨v', hremove, htidied⟩ := removeUnfinished_tidied h.sane d
  obtain ⟨found, hnodup, hmem, hsorted, hids⟩ := exists_found h.sane d
  have hrun : openAt d v = (openTables d (found.map Prod.snd) >>= fun tables =>
      pure ⟨d, tables, nextOf (found.map Prod.snd)⟩) v' := by
    unfold openAt
    rw [bind_ok (Disk.createDirectories_rooted h.rooted), bind_ok (Disk.get_ok v),
      bind_ok hremove, ← hids]
    rfl
  refine ⟨v', htidied, ?_⟩
  rcases openTables_cases (d := d) (v := v') (found.map Prod.snd)
    (fun id _ n hnode => htidied.valid h hnode) with
    ⟨ts, htables, hpaths, hopened⟩ | ⟨htables, id, hid, hnone⟩
  · rw [List.map_map] at hpaths
    refine Or.inl ⟨⟨d, ts, _⟩, by rw [hrun, bind_ok htables]; rfl, found, hnodup, hmem, hsorted,
      hpaths, fun t ht => ?_⟩
    have hpath : t.path ∈ ts.map Table.path := List.mem_map_of_mem ht
    rw [hpaths] at hpath
    obtain ⟨p, -, heq⟩ := List.mem_map.mp hpath
    exact htidied.opened heq.symm (hopened t ht)
  · obtain ⟨⟨name, id'⟩, hp, rfl⟩ := List.mem_map.mp hid
    refine Or.inr ⟨by rw [hrun, bind_error htables], name, id', (hmem _ _).mp hp, fun n hnode => ?_⟩
    rw [← htidied.node?_of_tableId? (tableId?_tableName id')] at hnode
    exact hnone n hnode

/-- Tables that have the names of the numbers are the ones that were found, if those
have these names too, and only then. -/
theorem Lists.own_iff (h : Lists v d (fun _ id => tableName id) ts) :
    Lists v d (fun name _ => name) ts ↔ ∀ name id, Recognised v d name id → name = tableName id := by
  constructor
  · rintro ⟨found, -, hmem, -, hown, -⟩ name id hname
    obtain ⟨found', -, -, -, hpadded, -⟩ := h
    have hpath : d ++ [name] ∈ ts.map Table.path := by
      rw [hown]
      exact List.mem_map.mpr ⟨(name, id), (hmem name id).mpr hname, rfl⟩
    rw [hpadded] at hpath
    obtain ⟨p, -, heq⟩ := List.mem_map.mp hpath
    obtain rfl := child_inj heq
    have hid := hname.1
    rw [tableId?_tableName] at hid
    rw [Option.some.inj hid]
  · intro hpadded
    obtain ⟨found, hnodup, hmem, hsorted, hpaths, hopened⟩ := h
    refine ⟨found, hnodup, hmem, hsorted, ?_, hopened⟩
    rw [hpaths]
    refine List.map_congr_left fun p hp => ?_
    rw [hpadded p.1 p.2 ((hmem _ _).mp hp)]

/-- The tables of a directory are opened, each from its own file, exactly if every
file that is taken for a table has the name that tables are given. In any case
those are opened that have the names of the numbers, or there is none with the
name of one of them and nothing is opened; and all files but the unfinished ones
are left in place. -/
theorem opens_own_iff (h : Stocked v d) :
    ((∃ c v', openAt d v = .ok c v' ∧ Lists v d (fun name _ => name) c.tables) ↔
      ∀ name id, Recognised v d name id → name = tableName id) ∧
    (∀ c v', openAt d v = .ok c v' →
      Lists v d (fun _ id => tableName id) c.tables ∧ Tidied v d v') ∧
    ∀ f v', openAt d v = .error f v' →
      f = .io ∧ Tidied v d v' ∧ ∃ name id, Recognised v d name id ∧
        ∀ n, v.node? (d ++ [tableName id]) ≠ some (.file n) := by
  obtain ⟨v₁, htidied, ⟨c, hopen, hlists⟩ | ⟨hopen, name, id, hname, hnone⟩⟩ := openAt_cases h
  · rw [hopen, ← hlists.own_iff]
    refine ⟨⟨?_, fun hown => ⟨c, v₁, rfl, hown⟩⟩, ?_, fun f v' hfail => nomatch hfail⟩
    · rintro ⟨c', v', heq, hown⟩
      cases heq
      exact hown
    · intro c' v' heq
      cases heq
      exact ⟨hlists, htidied⟩
  · rw [hopen]
    refine ⟨⟨?_, fun hpadded => ?_⟩, fun c v' hdone => (nomatch hdone), fun f v' heq => ?_⟩
    · rintro ⟨c, v', hdone, -⟩
      cases hdone
    · -- a file that is found under the name of its number is there
      obtain ⟨n, hnode⟩ := hname.2
      rw [hpadded name id hname] at hnode
      exact absurd hnode (hnone n)
    · cases heq
      exact ⟨rfl, htidied, name, id, hname, hnone⟩

/-- Whether a directory is stocked is seen from what stands in it. -/
theorem stocked_of_children (hv : v.Sane) (hrooted : ∀ q ∈ d.inits, v.node? q = some .directory)
    (hvalid : ((v.children d).all fun child =>
      match child.2 with
      | .directory => true
      | .file n => (tableId? child.1).isNone ||
          (Table.parse (d ++ [child.1]).display (v.content n)).toOption.isSome) = true) :
    Stocked v d := by
  refine ⟨hv, fun q hq => hrooted q (List.mem_inits _ _ |>.mpr hq), fun name id n hid hnode => ?_⟩
  have hchild := List.all_eq_true.mp hvalid _ ((hv.mem_children name (.file n)).mpr hnode)
  dsimp only at hchild
  rw [hid, Option.isNone_some, Bool.false_or] at hchild
  cases hparse : Table.parse (d ++ [name]).display (v.content n) with
  | ok index => exact ⟨index, rfl⟩
  | error fault =>
      rw [hparse] at hchild
      cases hchild

/-- A directory with two tables, an unfinished one, a file with another name, and a
directory that is named as a table. -/
def sampleShelf : Volume :=
  (((((Volume.empty.bind ["t"] .directory).addFile ["t", "sstable_000007.sst"]
    (Table.image [([1], .value [2])])).addFile ["t", "sstable_1000000.sst"]
      (Table.image [([3], .tombstone)])).addFile ["t", "sstable_000008.sst.tmp"] [0]).addFile
        ["t", "notes.txt"] [9]).bind ["t", "sstable_9.sst"] .directory

/-- Both tables are opened, the one with the higher number first, and nothing but
the unfinished one is gone. -/
theorem opens_own_iff_sampleShelf :
    Stocked sampleShelf ["t"] ∧ ∃ c v', openAt ["t"] sampleShelf = .ok c v' ∧
      Lists sampleShelf ["t"] (fun name _ => name) c.tables ∧ Tidied sampleShelf ["t"] v' ∧
      c.tables.map Table.path
        = [["t", "sstable_1000000.sst"], ["t", "sstable_000007.sst"]] := by
  have hsane : sampleShelf.Sane :=
    ((((((Volume.sane_empty.bind_directory (by decide)).addFile (by decide) _).addFile
      (by decide) _).addFile (by decide) _).addFile (by decide) _).bind_directory (by decide))
  have hstocked : Stocked sampleShelf ["t"] :=
    stocked_of_children hsane (by decide +kernel) (by decide +kernel)
  have hnames : ((sampleShelf.children ["t"]).all fun child =>
      child.2 == .directory || (tableId? child.1).all (fun id => child.1 == tableName id)) = true := by
    decide +kernel
  have hpadded : ∀ name id, Recognised sampleShelf ["t"] name id → name = tableName id := by
    rintro name id ⟨hid, n, hnode⟩
    have hchild := List.all_eq_true.mp hnames _ ((hsane.mem_children name (.file n)).mpr hnode)
    simpa [hid] using hchild
  have hpaths : ends (openAt ["t"]) sampleShelf (fun c _ => c.tables.map Table.path
      == [["t", "sstable_1000000.sst"], ["t", "sstable_000007.sst"]]) = true := by
    decide +kernel
  obtain ⟨c, v', hopen, hpaths⟩ := of_ends hpaths
  obtain ⟨hown, hopened, -⟩ := opens_own_iff hstocked
  obtain ⟨c', v₁, hopen', hlists⟩ := hown.mpr hpadded
  rw [hopen] at hopen'
  cases hopen'
  exact ⟨hstocked, c, v', hopen, hlists, (hopened c v' hopen).2, beq_iff_eq.mp hpaths⟩

/-- A directory with one table, whose number has no digits in front. -/
def unpaddedShelf : Volume :=
  (Volume.empty.bind ["t"] .directory).addFile ["t", "sstable_1.sst"]
    (Table.image [([1], .value [2])])

/-- It is not opened, though the file is a table and is taken for one. -/
theorem unpadded_missed :
    Stocked unpaddedShelf ["t"] ∧ Recognised unpaddedShelf ["t"] "sstable_1.sst" 1 ∧
      ¬∃ c v', openAt ["t"] unpaddedShelf = .ok c v' ∧
        Lists unpaddedShelf ["t"] (fun name _ => name) c.tables := by
  refine ⟨stocked_of_children (((Volume.sane_empty.bind_directory (by decide)).addFile (by decide)
    _)) (by decide +kernel) (by decide +kernel), ⟨by decide +kernel, 0, by decide +kernel⟩, ?_⟩
  rintro ⟨c, v', hopen, -⟩
  have hfails : ends (openAt ["t"]) unpaddedShelf (fun _ _ => true) = false := by
    decide +kernel
  unfold ends at hfails
  rw [hopen] at hfails
  cases hfails

end Catalog

end OrderedStore
