/-
A directory of tables is found again as it was left.

`Shelved` says that the open tables are exactly those whose names stand in
the directory: each open table's file is there under its name and holds
what its index says, and no other file has a table's name. Flushing puts
one more table on the shelf, under a number above all others, and touches
nothing but the two names it writes under. Opening finds the same tables in
the same order, and takes away what was left unfinished.
-/
import Mathlib
import OrderedStore.Proofs.TableNames
import OrderedStore.Proofs.TableWriting
import OrderedStore.Proofs.Tables
import OrderedStore.Proofs.Memtable

namespace OrderedStore

-- ================================================================= tables

/-- The table's file is where the table says, and it holds what the index
says. -/
structure Table.Stands (v : Volume) (t : Table) : Prop where
  named : v.node? t.path = some (.file t.file)
  parsed : Table.parse t.path.display (v.content t.file) = .ok t.index
  readable : t.Readable v

/-- A table stands as long as its path is kept. -/
theorem Table.Stands.agree {v v' : Volume} {t : Table} {keep : Path → Prop}
    (h : t.Stands v) (hv : v.Agree keep v') (hkeep : keep t.path) :
    t.Stands v' ∧ v'.content t.file = v.content t.file := by
  obtain ⟨hnode, hcontent⟩ := hv t.path hkeep
  have hfile := hcontent t.file h.named
  refine ⟨⟨?_, ?_, h.readable.congr hfile⟩, hfile⟩
  · rw [hnode, h.named]
  · rw [hfile, h.parsed]

/-- A file is opened if it can be read, and refused for the fault that it
has if not. -/
theorem Table.openAt_eq {v : Volume} {p : Path} {file : Nat}
    (hnode : v.node? p = some (.file file)) :
    Table.openAt p v = match Table.parse p.display (v.content file) with
      | .ok index => .ok ⟨p, file, index⟩ v
      | .error fault => .error (.table fault) v := by
  unfold Table.openAt
  rw [bind_ok (Disk.existing_ok hnode)]
  show (Disk.content file >>= _) v = _
  rw [bind_ok (Disk.content_ok file v)]
  cases Table.parse p.display (v.content file) <;> rfl

/-- A table that stands is opened as it is. -/
theorem Table.openAt_ok {v : Volume} {t : Table} (h : t.Stands v) :
    Table.openAt t.path v = .ok t v := by
  rw [Table.openAt_eq h.named, h.parsed]

namespace Catalog

variable {v v' : Volume} {d : Path} {ids : List UInt64} {ts : Tables}

/-- The path of a name in a directory is not the outermost one. -/
theorem child_ne_nil (d : Path) (name : String) : d ++ [name] ≠ [] :=
  List.append_ne_nil_of_right_ne_nil _ (List.cons_ne_nil _ _)

/-- Different names in a directory have different paths. -/
theorem child_inj {d : Path} {name name' : String} (h : d ++ [name] = d ++ [name']) :
    name = name' := by
  have := List.append_cancel_left h
  exact List.singleton_inj.mp this

/-- A directory's path is not one of a name in it, or beyond. -/
theorem prefix_ne_child {q : Path} (h : q <+: d) (name : String) : q ≠ d ++ [name] := by
  rintro rfl
  have := h.length_le
  rw [List.length_append, List.length_singleton] at this
  omega

/-- The directory is there, and the open tables, newest first, are those
whose names stand in it. -/
structure Shelved (v : Volume) (d : Path) (ids : List UInt64) (ts : Tables) : Prop where
  sane : v.Sane
  rooted : ∀ q, q <+: d → v.node? q = some .directory
  descending : ids.Pairwise fun a b => b < a
  paths : ts.map Table.path = ids.map fun id => d ++ [tableName id]
  stands : ∀ t ∈ ts, t.Stands v
  plain : ∀ name, v.node? (d ++ [name]) ≠ some .directory
  known : ∀ name node id, v.node? (d ++ [name]) = some node → tableId? name = some id →
    id ∈ ids ∧ name = tableName id

/-- Every open table has the name of one of the numbers. -/
theorem Shelved.path_of_mem (h : Shelved v d ids ts) {t : Table} (ht : t ∈ ts) :
    ∃ id ∈ ids, t.path = d ++ [tableName id] := by
  have hmem : t.path ∈ ts.map Table.path := List.mem_map_of_mem ht
  rw [h.paths] at hmem
  obtain ⟨id, hid, heq⟩ := List.mem_map.mp hmem
  exact ⟨id, hid, heq.symm⟩

/-- Every number is that of an open table. -/
theorem Shelved.table_of_mem (h : Shelved v d ids ts) {id : UInt64} (hid : id ∈ ids) :
    ∃ t ∈ ts, t.path = d ++ [tableName id] := by
  have hmem : d ++ [tableName id] ∈ ids.map fun id => d ++ [tableName id] :=
    List.mem_map_of_mem hid
  rw [← h.paths] at hmem
  exact List.mem_map.mp hmem

/-- The open tables can be read. -/
theorem Shelved.readable (h : Shelved v d ids ts) : Tables.Readable v ts :=
  fun t ht => (h.stands t ht).readable

/-- A step that keeps the directories and everything that stands in the
directory keeps the shelf. -/
theorem Shelved.agree {keep : Path → Prop} (h : Shelved v d ids ts) (hv' : v'.Sane)
    (hagree : v.Agree keep v') (hroot : ∀ q, q <+: d → keep q)
    (hin : ∀ name, keep (d ++ [name])) : Shelved v' d ids ts := by
  refine ⟨hv', fun q hq => ?_, h.descending, h.paths, fun t ht => ?_, fun name hname => ?_,
    fun name node id hn => ?_⟩
  · rw [(hagree q (hroot q hq)).1, h.rooted q hq]
  · obtain ⟨id, -, hpath⟩ := h.path_of_mem ht
    exact ((h.stands t ht).agree hagree (by rw [hpath]; exact hin _)).1
  · rw [(hagree _ (hin name)).1] at hname
    exact h.plain name hname
  · rw [(hagree _ (hin name)).1] at hn
    exact h.known name node id hn

-- =============================================================== flushing

/-- A memtable that can be made a table is put in front of the others,
under the next number. Nothing is touched but the two names it is written
under. -/
theorem flush_ok {m : Memtable} {next : UInt64} (h : Shelved v d ids ts)
    (hnext : ∀ id ∈ ids, id < next) (hm : Table.Storable m.latest) (hne : m.isEmpty = false) :
    ∃ t v', flush ⟨d, ts, next⟩ m v = .ok (.ok (), ⟨d, t :: ts, next + 1⟩) v' ∧
      Shelved v' d (next :: ids) (t :: ts) ∧
      v.Agree (fun q => q ≠ d ++ [tableName next ++ ".tmp"] ∧ q ≠ d ++ [tableName next]) v' ∧
      ∀ k, t.entry v' k = m.latest.lookup k := by
  obtain ⟨temporary, htemporary⟩ : ∃ p, p = d ++ [tableName next ++ ".tmp"] := ⟨_, rfl⟩
  obtain ⟨target, htarget⟩ : ∃ p, p = d ++ [tableName next] := ⟨_, rfl⟩
  have htmpne : temporary ≠ [] := by rw [htemporary]; exact child_ne_nil _ _
  have htgtne : target ≠ [] := by rw [htarget]; exact child_ne_nil _ _
  have hdiff : target ≠ temporary := by
    rw [htemporary, htarget]
    exact fun heq => tableName_ne_temporary next next (child_inj heq)
  -- the file is made under its temporary name, and written
  have hparent : v.node? temporary.dropLast = some .directory := by
    rw [htemporary, List.dropLast_concat]
    exact h.rooted d (List.prefix_refl d)
  obtain ⟨file, v₁, hcreate, hsane₁, hnode₁, hempty₁, hagree₁⟩ :=
    Disk.create_ok h.sane htmpne hparent (by rw [htemporary]; exact h.plain _)
  have hfile₁ : file < v₁.contents.length := hsane₁.within _ _ hnode₁
  obtain ⟨report, hwrite⟩ := writeTable_ok hm hcreate hfile₁ hempty₁
  obtain ⟨v₂, hv₂⟩ : ∃ v₂, v₂ = v₁.setContent file (Table.image m.latest) := ⟨_, rfl⟩
  rw [← hv₂] at hwrite
  have hsane₂ : v₂.Sane := by rw [hv₂]; exact hsane₁.setContent _ _
  have hnode₂ : v₂.node? temporary = some (.file file) := by rw [hv₂]; exact hnode₁
  have hagree₂ : v.Agree (fun q => q ≠ temporary) v₂ := by
    rw [hv₂]
    exact hagree₁.trans (Volume.agree_setContent hsane₁ hnode₁ _)
  have hcontent₂ : v₂.content file = Table.image m.latest := by
    rw [hv₂, Volume.content_setContent hfile₁, if_pos rfl]
  -- it is renamed, and opened under its own name
  have hplain₂ : v₂.node? target ≠ some .directory := by
    rw [(hagree₂ target hdiff).1, htarget]
    exact h.plain _
  have hrename := Disk.rename_ok hnode₂ hplain₂
  obtain ⟨v₃, hv₃⟩ : ∃ v₃, v₃ = (v₂.unbind temporary).bind target (.file file) := ⟨_, rfl⟩
  rw [← hv₃] at hrename
  have hsane₃ : v₃.Sane := by rw [hv₃]; exact hsane₂.rename htmpne htgtne hnode₂
  have hagree₃ : v.Agree (fun q => q ≠ temporary ∧ q ≠ target) v₃ := by
    refine (hagree₂.mono fun q hq => hq.1).trans ?_
    rw [hv₃]
    exact Volume.agree_rename htmpne htgtne file
  have hnode₃ : v₃.node? target = some (.file file) := by
    rw [hv₃, Volume.node?_bind _ htgtne, if_pos rfl]
  have hgone₃ : v₃.node? temporary = none := by
    rw [hv₃, Volume.node?_bind _ htgtne, if_neg (Ne.symm hdiff), Volume.node?_unbind _ htmpne,
      if_pos rfl]
  have hcontent₃ : v₃.content file = Table.image m.latest := by rw [hv₃]; exact hcontent₂
  obtain ⟨t, ht⟩ : ∃ t : Table, t = ⟨target, file, Table.indexOf m.latest hm.sorted⟩ := ⟨_, rfl⟩
  obtain ⟨hreadable, hentry⟩ := Table.holds_image (v := v₃) (t := t) hm (by rw [ht])
    (by rw [ht]; exact hcontent₃)
  have hstands : t.Stands v₃ := by
    refine ⟨?_, ?_, hreadable⟩
    · rw [ht]
      exact hnode₃
    · rw [ht]
      show Table.parse _ (v₃.content file) = _
      rw [hcontent₃]
      exact Table.parse_image hm _
  have hopen : Table.openAt target v₃ = .ok t v₃ := by
    have := Table.openAt_ok hstands
    rwa [ht] at this ⊢
  refine ⟨t, v₃, ?_, ⟨hsane₃, ?_, ?_, ?_, ?_, ?_, ?_⟩, ?_, hentry⟩
  · have hinstall : install d next m.latest v = .ok t v₃ := by
      unfold install
      rw [← htemporary, ← htarget, bind_ok hwrite, bind_ok hrename, hopen]
    unfold flush
    rw [hne, if_neg Bool.false_ne_true]
    refine tryCatch_ok ?_ _
    rw [bind_ok hinstall]
    rfl
  · intro q hq
    rw [(hagree₃ q ⟨?_, ?_⟩).1, h.rooted q hq]
    · rw [htemporary]
      exact prefix_ne_child hq _
    · rw [htarget]
      exact prefix_ne_child hq _
  · exact List.pairwise_cons.mpr ⟨hnext, h.descending⟩
  · rw [List.map_cons, List.map_cons, h.paths, ht, htarget]
  · intro t' ht'
    rcases List.mem_cons.mp ht' with rfl | ht'
    · exact hstands
    · obtain ⟨id, hid, hpath⟩ := h.path_of_mem ht'
      refine ((h.stands t' ht').agree hagree₃ ⟨?_, ?_⟩).1
      · rw [hpath, htemporary]
        exact fun heq => tableName_ne_temporary id next (child_inj heq)
      · rw [hpath, htarget]
        intro heq
        have hlt := hnext id hid
        rw [tableName_injective (child_inj heq)] at hlt
        exact absurd hlt (UInt64.lt_irrefl next)
  · intro name hname
    by_cases htgt : d ++ [name] = target
    · rw [htgt, hnode₃] at hname
      cases hname
    · by_cases htmp : d ++ [name] = temporary
      · rw [htmp, hgone₃] at hname
        cases hname
      · rw [(hagree₃ _ ⟨htmp, htgt⟩).1] at hname
        exact h.plain name hname
  · intro name node id hname hid
    by_cases htgt : d ++ [name] = target
    · rw [htarget] at htgt
      obtain rfl := child_inj htgt
      rw [tableId?_tableName] at hid
      cases hid
      exact ⟨List.mem_cons_self, rfl⟩
    · by_cases htmp : d ++ [name] = temporary
      · rw [htmp, hgone₃] at hname
        cases hname
      · rw [(hagree₃ _ ⟨htmp, htgt⟩).1] at hname
        obtain ⟨hmem, heq⟩ := h.known name node id hname hid
        exact ⟨List.mem_cons_of_mem _ hmem, heq⟩
  · rw [← htemporary, ← htarget]
    exact hagree₃

-- ================================================================ opening

/-- Numbers are put in their place as among sorted ones. -/
theorem insertDescending_eq (id : UInt64) (ids : List UInt64) :
    insertDescending id ids = List.orderedInsert (fun a b : UInt64 => b ≤ a) id ids := by
  induction ids with
  | nil => rfl
  | cons other rest ih =>
      rw [insertDescending, List.orderedInsert_cons, ih]

/-- The numbers in names are sorted. -/
theorem tableIds_eq (children : List (String × Node)) :
    tableIds children = (children.filterMap fun child =>
      if child.2 = .directory then none else tableId? child.1).insertionSort
        (fun a b : UInt64 => b ≤ a) := by
  unfold tableIds List.insertionSort
  congr 1
  funext id ids
  exact insertDescending_eq id ids

/-- The numbers found in a directory are those of its tables, highest
first. -/
theorem tableIds_children (h : Shelved v d ids ts) : tableIds (v.children d) = ids := by
  obtain ⟨found, hfound⟩ : ∃ found, found = (v.children d).filterMap fun child =>
    if child.2 = .directory then none else tableId? child.1 := ⟨_, rfl⟩
  have hmem : ∀ id, id ∈ found ↔ id ∈ ids := by
    intro id
    rw [hfound, List.mem_filterMap]
    constructor
    · rintro ⟨⟨name, node⟩, hchild, hid⟩
      split at hid
      · cases hid
      · exact (h.known name node id ((h.sane.mem_children name node).mp hchild) hid).1
    · intro hid
      obtain ⟨t, ht, hpath⟩ := h.table_of_mem hid
      refine ⟨(tableName id, .file t.file), (h.sane.mem_children _ _).mpr ?_, ?_⟩
      · rw [← hpath, (h.stands t ht).named]
      · rw [if_neg (fun heq => nomatch heq), tableId?_tableName]
  have hnodup : found.Nodup := by
    have hnames : found = ((v.children d).map Prod.fst).filterMap tableId? := by
      rw [hfound, List.filterMap_map]
      refine List.filterMap_congr fun child hchild => ?_
      rw [if_neg]
      · rfl
      · intro hdir
        refine h.plain child.1 ?_
        rw [← hdir]
        exact (h.sane.mem_children child.1 child.2).mp hchild
    rw [hnames]
    have hknown : ∀ name ∈ (v.children d).map Prod.fst, ∀ id, tableId? name = some id →
        name = tableName id := by
      intro name hname id hid
      obtain ⟨⟨name', node⟩, hchild, rfl⟩ := List.mem_map.mp hname
      exact (h.known name' node id ((h.sane.mem_children name' node).mp hchild) hid).2
    have hnames := h.sane.nodup_children d
    generalize (v.children d).map Prod.fst = names at hknown hnames
    induction names with
    | nil => exact List.nodup_nil
    | cons name names ih =>
        obtain ⟨hnew, hrest⟩ := List.nodup_cons.mp hnames
        have hold := ih (fun n hn => hknown n (List.mem_cons_of_mem _ hn)) hrest
        rw [List.filterMap_cons]
        cases hid : tableId? name with
        | none => exact hold
        | some id =>
            refine List.nodup_cons.mpr ⟨fun hin => hnew ?_, hold⟩
            obtain ⟨name', hname', hid'⟩ := List.mem_filterMap.mp hin
            rw [hknown name List.mem_cons_self id hid,
              ← hknown name' (List.mem_cons_of_mem _ hname') id hid']
            exact hname'
  have hsort : tableIds (v.children d)
      = found.insertionSort (fun a b : UInt64 => b ≤ a) := by
    rw [hfound]
    exact tableIds_eq _
  have hperm : (tableIds (v.children d)).Perm ids := by
    rw [hsort]
    refine (List.perm_insertionSort _ found).trans ?_
    refine (List.perm_ext_iff_of_nodup hnodup ?_).mpr hmem
    refine h.descending.imp fun {a b} hlt heq => ?_
    rw [heq] at hlt
    exact UInt64.lt_irrefl _ hlt
  have hfoundSorted : (tableIds (v.children d)).Pairwise fun a b => b ≤ a := by
    rw [hsort]
    exact List.pairwise_insertionSort _ found
  have hidsSorted : ids.Pairwise fun a b => b ≤ a :=
    h.descending.imp fun {a b} hlt => UInt64.le_of_lt hlt
  exact hperm.eq_of_pairwise (fun a b _ _ hba hab => UInt64.le_antisymm hab hba)
    hfoundSorted hidsSorted

/-- What was left unfinished among these names is taken away, and everything else
stays. -/
theorem removeUnfinished_eq {found : List (String × Node)} (hv : v.Sane)
    (hthere : ∀ child ∈ found, v.node? (d ++ [child.1]) = some child.2)
    (hnodup : (found.map Prod.fst).Nodup) :
    ∃ v', removeUnfinished d found v = .ok () v' ∧ v'.Sane ∧ v'.contents = v.contents ∧
      (∀ name n, (name, Node.file n) ∈ found → isUnfinished name = true →
        v'.node? (d ++ [name]) = none) ∧
      ∀ q, (∀ name n, q = d ++ [name] → (name, Node.file n) ∈ found →
        isUnfinished name = false) → v'.node? q = v.node? q := by
  induction found generalizing v with
  | nil => exact ⟨v, rfl, hv, rfl, fun _ _ h => absurd h List.not_mem_nil, fun _ _ => rfl⟩
  | cons child found ih =>
      obtain ⟨name, node⟩ := child
      obtain ⟨hnew, hrest⟩ := List.nodup_cons.mp hnodup
      by_cases hremove : (node ≠ .directory && isUnfinished name) = true
      · obtain ⟨n, rfl⟩ : ∃ n, node = .file n := by
          cases node with
          | directory => simp at hremove
          | file n => exact ⟨n, rfl⟩
        have hunfinished : isUnfinished name = true := (Bool.and_eq_true_iff.mp hremove).2
        have hnode : v.node? (d ++ [name]) = some (.file n) := hthere _ List.mem_cons_self
        have hne := child_ne_nil d name
        obtain ⟨v', hrun, hsane, hcontents, hgone, hstays⟩ := ih (hv.unbind hne) (by
          intro child hchild
          rw [Volume.node?_unbind v hne, if_neg]
          · exact hthere child (List.mem_cons_of_mem _ hchild)
          · intro heq
            rw [← child_inj heq] at hnew
            exact hnew (List.mem_map.mpr ⟨child, hchild, rfl⟩)) hrest
        refine ⟨v', ?_, hsane, hcontents, fun name' n' hmem hname' => ?_, fun q hq => ?_⟩
        · rw [removeUnfinished, if_pos hremove]
          show (Disk.removeFile (d ++ [name]) >>= fun _ => removeUnfinished d found) v = _
          rw [bind_ok (Disk.removeFile_ok hnode), hrun]
        · rcases List.mem_cons.mp hmem with heq | hmem
          · cases heq
            -- nothing puts the name back
            rw [hstays, Volume.node?_unbind v hne, if_pos rfl]
            intro other m heq hother
            rw [← child_inj heq] at hother
            exact absurd (List.mem_map_of_mem hother) hnew
          · exact hgone name' n' hmem hname'
        · have hnot : q ≠ d ++ [name] := by
            intro heq
            have hfinished := hq name n heq List.mem_cons_self
            rw [hunfinished] at hfinished
            cases hfinished
          rw [hstays q fun name' n' heq hmem => hq name' n' heq (List.mem_cons_of_mem _ hmem),
            Volume.node?_unbind v hne, if_neg hnot]
      · obtain ⟨v', hrun, hsane, hcontents, hgone, hstays⟩ := ih hv
          (fun child hchild => hthere child (List.mem_cons_of_mem _ hchild)) hrest
        refine ⟨v', ?_, hsane, hcontents, fun name' n' hmem hname' => ?_, fun q hq =>
          hstays q fun name' n' heq hmem => hq name' n' heq (List.mem_cons_of_mem _ hmem)⟩
        · rw [removeUnfinished, if_neg hremove]
          exact hrun
        · rcases List.mem_cons.mp hmem with heq | hmem
          · cases heq
            refine absurd ?_ hremove
            rw [Bool.and_eq_true, decide_eq_true_eq]
            exact ⟨(fun heq => nomatch heq), hname'⟩
          · exact hgone name' n' hmem hname'

/-- Whatever is not what it was has the name of an unfinished table. -/
theorem removeUnfinished_ok {found : List (String × Node)} (hv : v.Sane)
    (hthere : ∀ child ∈ found, v.node? (d ++ [child.1]) = some child.2)
    (hnodup : (found.map Prod.fst).Nodup) :
    ∃ v', removeUnfinished d found v = .ok () v' ∧ v'.Sane ∧ v'.contents = v.contents ∧
      ∀ q, v'.node? q = v.node? q ∨
        v'.node? q = none ∧ ∃ name, q = d ++ [name] ∧ isUnfinished name = true := by
  obtain ⟨v', hrun, hsane, hcontents, hgone, hstays⟩ := removeUnfinished_eq hv hthere hnodup
  refine ⟨v', hrun, hsane, hcontents, fun q => ?_⟩
  by_cases hq : ∃ name n, q = d ++ [name] ∧ (name, Node.file n) ∈ found ∧ isUnfinished name = true
  · obtain ⟨name, n, rfl, hmem, hname⟩ := hq
    exact Or.inr ⟨hgone name n hmem hname, name, rfl, hname⟩
  · refine Or.inl (hstays q fun name n heq hmem => ?_)
    rw [← Bool.not_eq_true]
    exact fun hname => hq ⟨name, n, heq, hmem, hname⟩

/-- Tables that stand are opened in the order of their numbers. -/
theorem openTables_ok (hpaths : ts.map Table.path = ids.map fun id => d ++ [tableName id])
    (hstands : ∀ t ∈ ts, t.Stands v) : openTables d ids v = .ok ts v := by
  induction ids generalizing ts with
  | nil =>
      rw [List.map_nil, List.map_eq_nil_iff] at hpaths
      subst hpaths
      rfl
  | cons id ids ih =>
      cases ts with
      | nil => cases hpaths
      | cons t ts =>
          rw [List.map_cons, List.map_cons] at hpaths
          obtain ⟨hpath, hrest⟩ := List.cons.inj hpaths
          rw [openTables, ← hpath, bind_ok (Table.openAt_ok (hstands t List.mem_cons_self)),
            bind_ok (ih hrest fun t' ht' => hstands t' (List.mem_cons_of_mem _ ht'))]
          rfl

/-- The number of the next table: one above the highest. -/
def nextOf (ids : List UInt64) : UInt64 :=
  match ids.head? with
  | some id => id + 1
  | none => 1

/-- A shelf is opened as it was left; what was left unfinished is taken
away, and nothing else. -/
theorem openAt_ok (h : Shelved v d ids ts) :
    ∃ v', openAt d v = .ok ⟨d, ts, nextOf ids⟩ v' ∧ Shelved v' d ids ts ∧
      v'.contents = v.contents ∧
      v.Agree (fun q => ∀ name, q = d ++ [name] → isUnfinished name = false) v' := by
  obtain ⟨v', hremove, hsane, hcontents, hnodes⟩ := removeUnfinished_ok (d := d) h.sane
    (fun child hchild => (h.sane.mem_children child.1 child.2).mp hchild)
    (h.sane.nodup_children d)
  have hagree : v.Agree (fun q => ∀ name, q = d ++ [name] → isUnfinished name = false) v' := by
    intro q hq
    refine ⟨?_, fun n _ => ?_⟩
    · rcases hnodes q with hsame | ⟨-, name, hname, hunfinished⟩
      · exact hsame
      · rw [hq name hname] at hunfinished
        cases hunfinished
    · exact Volume.content_of_contents hcontents n
  have htable : ∀ id name, d ++ [tableName id] = d ++ [name] → isUnfinished name = false := by
    intro id name heq
    rw [← child_inj heq]
    cases hunfinished : isUnfinished (tableName id) with
    | false => rfl
    | true =>
        have := tableId?_of_isUnfinished hunfinished
        rw [tableId?_tableName] at this
        cases this
  have hshelved : Shelved v' d ids ts := by
    refine ⟨hsane, fun q hq => ?_, h.descending, h.paths, fun t ht => ?_, fun name hname => ?_,
      fun name node id hname hid => ?_⟩
    · rw [(hagree q fun name heq => absurd heq (prefix_ne_child hq name)).1, h.rooted q hq]
    · obtain ⟨id, -, hpath⟩ := h.path_of_mem ht
      refine ((h.stands t ht).agree hagree fun name heq => ?_).1
      rw [hpath] at heq
      exact htable id name heq
    · rcases hnodes (d ++ [name]) with hsame | ⟨hnone, -⟩
      · rw [hsame] at hname
        exact h.plain name hname
      · rw [hnone] at hname
        cases hname
    · rcases hnodes (d ++ [name]) with hsame | ⟨hnone, -⟩
      · rw [hsame] at hname
        exact h.known name node id hname hid
      · rw [hnone] at hname
        cases hname
  refine ⟨v', ?_, hshelved, hcontents, hagree⟩
  unfold openAt
  rw [bind_ok (Disk.createDirectories_rooted h.rooted), bind_ok (Disk.get_ok v),
    bind_ok hremove, tableIds_children h, bind_ok (openTables_ok hshelved.paths hshelved.stands)]
  rfl

end Catalog

end OrderedStore
