/-
The newest table wins.

A row of tables, newest first, stands for rows of entries: each table holds
one of them (`Table.Holds`), and under a key counts what the first row says
that has the key (`Tables.newest`). A lookup that passes tables over by
their range of keys and a search that compares the nearest keys of all
tables go different ways to it. That a table can be passed over needs
nothing of the tables at all (`lookupEach_eq`): an index is in order, so
the range of its keys leaves none of them out.
-/
import Mathlib
import OrderedStore.Proofs.TableBuilding
import OrderedStore.Proofs.Tables

namespace OrderedStore

-- ============================================================= one table

namespace Table

variable {v : Volume} {t : Table} {es : List (Bytes × Entry)}

/-- The table holds the entries: its index has their keys, in their order,
and leads from each key to the place where the file has its entry. -/
structure Holds (v : Volume) (t : Table) (es : List (Bytes × Entry)) : Prop where
  keys : t.index.entries.map Prod.fst = es.map Prod.fst
  placed : ∀ p ∈ es, ∃ offset, t.index.find? p.1 = some offset ∧
    entryAt (v.content t.file) offset = .ok p.2

/-- Entries that a table holds are in strictly ascending order. -/
theorem Holds.sorted (h : t.Holds v es) : es.Pairwise fun a b => a.1 < b.1 := by
  have hindex := List.pairwise_map.mpr t.index.sorted
  rw [h.keys] at hindex
  exact List.pairwise_map.mp hindex

/-- A key of the index is the key of an entry. -/
theorem Holds.mem_of_find? (h : t.Holds v es) {k : Bytes} {offset : Nat}
    (hk : t.index.find? k = some offset) : ∃ e, (k, e) ∈ es := by
  have hmem : k ∈ t.index.entries.map Prod.fst :=
    List.mem_map.mpr ⟨_, KeyMap.mem_entries.mpr hk, rfl⟩
  rw [h.keys] at hmem
  obtain ⟨⟨l, e⟩, he, rfl⟩ := List.mem_map.mp hmem
  exact ⟨e, he⟩

/-- Every offset of the index is the place of an entry. -/
theorem Holds.readable (h : t.Holds v es) : t.Readable v := by
  intro k offset hk
  obtain ⟨e, hmem⟩ := h.mem_of_find? hk
  obtain ⟨offset', hk', he⟩ := h.placed _ hmem
  rw [hk, Option.some.injEq] at hk'
  exact ⟨e, hk' ▸ he⟩

/-- Under a key the table has what the entries have. -/
theorem Holds.entry_eq (h : t.Holds v es) (k : Bytes) : t.entry v k = es.lookup k := by
  cases hk : es.lookup k with
  | some e =>
      obtain ⟨offset, hoffset, he⟩ := h.placed _ (mem_of_lookup hk)
      unfold entry
      rw [hoffset, Option.bind_some, he]
      rfl
  | none =>
      refine entry_none ?_
      cases hindex : t.index.find? k with
      | none => rfl
      | some offset =>
          obtain ⟨e, hmem⟩ := h.mem_of_find? hindex
          rw [lookup_of_mem h.sorted hmem] at hk
          cases hk

/-- A file with the image of entries is opened as a table that holds
them. -/
theorem holds_opened {p : Path} {file : Nat} (h : Storable es)
    (hnode : v.node? p = some (.file file)) (hcontent : v.content file = image es) :
    openAt p v = .ok ⟨p, file, indexOf es h.sorted⟩ v ∧
      Holds v ⟨p, file, indexOf es h.sorted⟩ es := by
  refine ⟨(opens_image h hnode hcontent).1, map_fst_offsetsFrom headerSize es, fun q hq => ?_⟩
  have hkey : q.1 ∈ (offsetsFrom headerSize es).map Prod.fst := by
    rw [map_fst_offsetsFrom]
    exact List.mem_map_of_mem hq
  obtain ⟨⟨k, offset⟩, hmem, rfl : k = q.1⟩ := List.mem_map.mp hkey
  have hoffset : (indexOf es h.sorted).find? q.1 = some offset := KeyMap.mem_entries.mp hmem
  obtain ⟨front, e, back, hsplit, hlookup, rfl⟩ := split_of_lookup_offsetsFrom hoffset
  have he : e = q.2 := by
    rw [lookup_of_mem h.sorted hq] at hlookup
    exact (Option.some.inj hlookup).symm
  refine ⟨_, hoffset, ?_⟩
  rw [hcontent, image_eq, ← he]
  exact entryAt_data h hsplit (length_header _) _

end Table

-- ========================================================== a row of them

namespace Tables

variable {v : Volume} {ts : Tables} {rows : List (List (Bytes × Entry))} {k : Bytes}
  {b : Bound} {d : Direction}

/-- What the first row of entries says that has the key. -/
def newest (rows : List (List (Bytes × Entry))) (k : Bytes) : Option Entry :=
  rows.findSome? fun es => es.lookup k

/-- A key has none if no row has an entry for it. -/
theorem newest_eq_none_iff :
    newest rows k = none ↔ ∀ es ∈ rows, ∀ p ∈ es, k ≠ p.1 := by
  unfold newest
  simp only [List.findSome?_eq_none_iff, List.lookup_eq_none_iff, bne_iff_ne]

/-- A key that has one is the key of an entry of a row. -/
theorem mem_of_newest {e : Entry} (h : newest rows k = some e) :
    ∃ es ∈ rows, (k, e) ∈ es := by
  obtain ⟨es, hes, he⟩ := List.exists_of_findSome?_eq_some h
  exact ⟨es, hes, mem_of_lookup he⟩

/-- What a row of tables says is what the newest of their rows says. -/
theorem entry_eq_newest (h : List.Forall₂ (Table.Holds v) ts rows) (k : Bytes) :
    entry v ts k = newest rows k := by
  induction h with
  | nil => rfl
  | @cons t es ts rows hfirst _ ih =>
      unfold newest at ih ⊢
      rw [entry, hfirst.entry_eq, ih, List.findSome?_cons]
      cases es.lookup k <;> rfl

/-- Tables that hold entries can be read. -/
theorem readable_of_holds (h : List.Forall₂ (Table.Holds v) ts rows) : Readable v ts := by
  induction h with
  | nil => exact fun t ht => nomatch ht
  | cons hfirst _ ih => exact List.forall_mem_cons.mpr ⟨hfirst.readable, ih⟩

/-- What is found if every table is asked until one knows the key. -/
def lookupEach (v : Volume) : Tables → Bytes → Except Failure (Option Entry)
  | [], _ => .ok none
  | t :: ts, k =>
    match t.get v k with
    | .ok e => .ok (some e)
    | .error .keyNotFound => lookupEach v ts k
    | .error f => .error f

/-- To pass tables over by their range of keys changes nothing. -/
theorem lookupEach_eq (v : Volume) (ts : Tables) (k : Bytes) :
    lookupEach v ts k = lookup v ts k := by
  induction ts with
  | nil => rfl
  | cons t ts ih =>
      rw [lookupEach, lookup, ih]
      cases hmight : t.mightContain k with
      | true => exact (if_pos rfl).symm
      | false =>
          have hunknown : t.get v k = .error .keyNotFound := by
            unfold Table.get
            rw [Table.find?_none_of_outside hmight]
          rw [if_neg Bool.false_ne_true, hunknown]

/-- The answer is the nearest key, at or beyond the bound, that any row has
an entry for. -/
def NearestKey (rows : List (List (Bytes × Entry))) (b : Bound) (d : Direction) :
    Option Bytes → Prop
  | none => ∀ es ∈ rows, ∀ p ∈ es, b.admits d p.1 = false
  | some k => (∃ es ∈ rows, ∃ p ∈ es, p.1 = k) ∧ b.admits d k = true ∧
      ∀ es ∈ rows, ∀ p ∈ es, b.admits d p.1 = true → d.before p.1 k = false

/-- What is nearest by what the newest rows say is so by all keys of all
rows. -/
theorem nearestKey_of_nearest {r : Option (Bytes × Entry)} (h : Nearest (newest rows) b d r) :
    NearestKey rows b d (r.map Prod.fst) := by
  match r, h with
  | none, hnone =>
      intro es hes p hp
      refine Bool.eq_false_iff.mpr fun hadm => ?_
      exact newest_eq_none_iff.mp (hnone p.1 hadm) es hes p hp rfl
  | some (k, e), ⟨hk, hadm, hmin⟩ =>
      obtain ⟨es, hes, hmem⟩ := mem_of_newest hk
      refine ⟨⟨es, hes, _, hmem, rfl⟩, hadm, fun es hes p hp hp' => ?_⟩
      refine Bool.eq_false_iff.mpr fun hbefore => ?_
      exact newest_eq_none_iff.mp (hmin p.1 hp' hbefore) es hes p hp rfl

/-- A row of tables answers for rows of entries: under a key is found what
the first row has that has the key, and the same if no table is passed
over; a search finds the nearest key of all rows, with what is found under
it. -/
structure AnswersFor (v : Volume) (ts : Tables) (rows : List (List (Bytes × Entry))) :
    Prop where
  lookup : ∀ k, lookup v ts k = .ok (newest rows k)
  passes : ∀ k, lookupEach v ts k = Tables.lookup v ts k
  seek : ∀ b d, ∃ r, seek v ts b d = .ok r ∧ NearestKey rows b d (r.map Prod.fst) ∧
    ∀ p ∈ r, Tables.lookup v ts p.1 = .ok (some p.2)

/-- Tables answer for the entries they hold, the newest first. -/
theorem answersFor_of_holds (h : List.Forall₂ (Table.Holds v) ts rows) :
    AnswersFor v ts rows := by
  have hreadable := readable_of_holds h
  have hlookup : ∀ k, lookup v ts k = .ok (newest rows k) := fun k => by
    rw [lookup_ok hreadable, entry_eq_newest h]
  refine ⟨hlookup, lookupEach_eq v ts, fun b d => ?_⟩
  obtain ⟨r, hr, hnearest⟩ := seek_ok hreadable b d
  have hnewest : Nearest (newest rows) b d r := hnearest.congr (entry_eq_newest h)
  refine ⟨r, hr, nearestKey_of_nearest hnewest, ?_⟩
  rintro ⟨k, e⟩ rfl
  rw [hlookup, hnewest.1]

/-- Three rows that overlap: a key in all of them, one deleted in the middle,
and one deleted in the oldest only. -/
def sampleRows : List (List (Bytes × Entry)) :=
  [[([3], .value [1]), ([8], .value [])],
    [([3], .tombstone), ([5], .tombstone)],
    [([], .value [9]), ([3], .value [7]), ([5], .value [7]), ([9], .tombstone)]]

/-- They can be written as tables. -/
theorem storable_sampleRows : ∀ es ∈ sampleRows, Table.Storable es := by
  have hsmall : ∀ es ∈ sampleRows, (es.Pairwise fun a b => a.1 < b.1) ∧
      (∀ p ∈ es, p.1.length < 2) ∧ (∀ p ∈ es, (Table.valueBytes p.2).length < 2) ∧
      (Table.dataBlock es).length < 100 := by decide
  intro es hes
  obtain ⟨hs, hkeys, hvalues, hextent⟩ := hsmall es hes
  refine ⟨hs, fun p hp => ?_, fun p hp => ?_, ?_⟩
  · exact lt_trans (hkeys p hp) (by decide)
  · exact lt_trans (hvalues p hp) (by decide)
  · exact lt_trans (Nat.add_lt_add_left hextent _) (by decide)

/-- A volume with a file for each of them, the oldest made first. -/
def sampleVolume : Volume :=
  ((Volume.empty.addFile ["a"] (Table.image sampleRows[2])).addFile ["b"]
    (Table.image sampleRows[1])).addFile ["c"] (Table.image sampleRows[0])

/-- The tables that the files are opened as. -/
def sampleTables : Tables :=
  [⟨["c"], 2, Table.indexOf sampleRows[0] (by decide)⟩,
    ⟨["b"], 1, Table.indexOf sampleRows[1] (by decide)⟩,
    ⟨["a"], 0, Table.indexOf sampleRows[2] (by decide)⟩]

/-- They hold the rows. -/
theorem holds_sampleTables :
    (∀ t ∈ sampleTables, Table.openAt t.path sampleVolume = .ok t sampleVolume) ∧
      List.Forall₂ (Table.Holds sampleVolume) sampleTables sampleRows := by
  have hopened : ∀ (t : Table) (es : List (Bytes × Entry)) (h : Table.Storable es),
      sampleVolume.node? t.path = some (.file t.file) →
      sampleVolume.content t.file = Table.image es → t.index = Table.indexOf es h.sorted →
      Table.openAt t.path sampleVolume = .ok t sampleVolume ∧ t.Holds sampleVolume es := by
    rintro ⟨p, file, _⟩ es h hnode hcontent rfl
    exact Table.holds_opened h hnode hcontent
  obtain ⟨hopen₀, hholds₀⟩ := hopened sampleTables[0] sampleRows[0]
    (storable_sampleRows _ (List.getElem_mem _)) rfl (Volume.content_addFile_self _ _ _) rfl
  obtain ⟨hopen₁, hholds₁⟩ := hopened sampleTables[1] sampleRows[1]
    (storable_sampleRows _ (List.getElem_mem _)) rfl
    ((Volume.content_addFile (by decide) _ _).trans (Volume.content_addFile_self _ _ _)) rfl
  obtain ⟨hopen₂, hholds₂⟩ := hopened sampleTables[2] sampleRows[2]
    (storable_sampleRows _ (List.getElem_mem _)) rfl
    ((Volume.content_addFile (by decide) _ _).trans ((Volume.content_addFile (by decide) _ _).trans
      (Volume.content_addFile_self _ _ _))) rfl
  refine ⟨?_, .cons hholds₀ (.cons hholds₁ (.cons hholds₂ .nil))⟩
  exact List.forall_mem_cons.mpr ⟨hopen₀, List.forall_mem_cons.mpr
    ⟨hopen₁, List.forall_mem_singleton.mpr hopen₂⟩⟩

/-- A value over a deletion over a value, a deletion over a value, and keys
that one table has. -/
theorem answersFor_of_holds_sampleRows :
    List.Forall₂ (Table.Holds sampleVolume) sampleTables sampleRows ∧
      AnswersFor sampleVolume sampleTables sampleRows ∧
      [[3], [5], [8], [9], [4]].map (newest sampleRows)
        = [some (.value [1]), some .tombstone, some (.value []), some .tombstone, none] :=
  ⟨holds_sampleTables.2, answersFor_of_holds holds_sampleTables.2, by decide⟩

end Tables

end OrderedStore
