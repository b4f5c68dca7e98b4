/-
What a row of tables holds.

A table's index and its file together say what a key holds (`Table.entry`);
a row of tables says what the first table says that knows the key
(`Tables.entry`). Looking a key up answers exactly that, and a search
answers the key that is nearest among those that hold something. Both only
need that what the index points to can be read.
-/
import Mathlib
import OrderedStore.Proofs.Contents
import OrderedStore.Proofs.TableImage
import OrderedStore.Tables

namespace OrderedStore

-- ============================================================= one table

namespace Table

variable {v v' : Volume} {t : Table}

/-- What the table's file says of the key. -/
def entry (v : Volume) (t : Table) (k : Bytes) : Option Entry :=
  (t.index.find? k).bind fun offset => (entryAt (v.content t.file) offset).toOption

/-- Wherever the index points, an entry can be read. -/
def Readable (v : Volume) (t : Table) : Prop :=
  ∀ k offset, t.index.find? k = some offset →
    ∃ e, entryAt (v.content t.file) offset = .ok e

/-- A key in the index has an entry. -/
theorem Readable.entry_some (ht : t.Readable v) {k : Bytes} {offset : Nat}
    (h : t.index.find? k = some offset) :
    ∃ e, entryAt (v.content t.file) offset = .ok e ∧ t.entry v k = some e := by
  obtain ⟨e, he⟩ := ht k offset h
  refine ⟨e, he, ?_⟩
  unfold entry
  rw [h, Option.bind_some, he]
  rfl

/-- A key that is not in the index has none. -/
theorem entry_none {k : Bytes} (h : t.index.find? k = none) : t.entry v k = none := by
  unfold entry
  rw [h, Option.bind_none]

/-- What a table says depends on its file's content only. -/
theorem entry_congr (h : v'.content t.file = v.content t.file) (k : Bytes) :
    t.entry v' k = t.entry v k := by
  unfold entry
  rw [h]

/-- So does whether it can be read. -/
theorem Readable.congr (ht : t.Readable v) (h : v'.content t.file = v.content t.file) :
    t.Readable v' := by
  intro k offset hk
  rw [h]
  exact ht k offset hk

/-- Asked for a key, a table says what it holds, or that it does not know
the key. -/
theorem get_eq (ht : t.Readable v) (k : Bytes) :
    t.get v k = match t.entry v k with
      | some e => .ok e
      | none => .error .keyNotFound := by
  unfold get
  cases hk : t.index.find? k with
  | none => rw [entry_none hk]
  | some offset =>
      obtain ⟨e, he, hentry⟩ := ht.entry_some hk
      rw [hentry]
      exact he

/-- A key outside of the table's range is not in its index. -/
theorem find?_none_of_outside {k : Bytes} (h : t.mightContain k = false) :
    t.index.find? k = none := by
  cases hk : t.index.find? k with
  | none => rfl
  | some offset =>
      obtain ⟨low, high, hlow, hhigh, hle, hge⟩ := KeyMap.between_of_find? hk
      unfold mightContain at h
      rw [hlow, hhigh] at h
      simp only [hle, hge, decide_true, Bool.and_true, Bool.true_eq_false] at h

/-- So the table has no entry for it. -/
theorem entry_none_of_outside {k : Bytes} (h : t.mightContain k = false) :
    t.entry v k = none :=
  entry_none (find?_none_of_outside h)

/-- A search of a table finds the nearest key it holds. -/
theorem seek_ok (ht : t.Readable v) (b : Bound) (d : Direction) :
    ∃ r, t.seek v b d = .ok r ∧ Nearest (t.entry v) b d r := by
  have hnearest := t.index.nearest_seek b d
  unfold seek
  cases hseek : t.index.seek b d with
  | none =>
      rw [hseek] at hnearest
      exact ⟨none, rfl, fun k hk => entry_none (hnearest k hk)⟩
  | some p =>
      obtain ⟨k, offset⟩ := p
      rw [hseek] at hnearest
      obtain ⟨hk, hadm, hmin⟩ := hnearest
      obtain ⟨e, he, hentry⟩ := ht.entry_some hk
      refine ⟨some (k, e), ?_, hentry, hadm, fun l hl hlk => entry_none (hmin l hl hlk)⟩
      simp only [he]

/-- A table whose file is the image of entries holds them. -/
theorem holds_image {es : List (Bytes × Entry)} (h : Storable es)
    (hindex : t.index = indexOf es h.sorted) (hcontent : v.content t.file = image es) :
    t.Readable v ∧ ∀ k, t.entry v k = es.lookup k := by
  have hplaced : ∀ k offset, t.index.find? k = some offset →
      ∃ e, entryAt (v.content t.file) offset = .ok e ∧ es.lookup k = some e := by
    intro k offset hk
    rw [hindex] at hk
    obtain ⟨front, e, back, hsplit, hlookup, rfl⟩ := split_of_lookup_offsetsFrom hk
    refine ⟨e, ?_, hlookup⟩
    rw [hcontent, image_eq]
    exact entryAt_data h hsplit (length_header _) _
  refine ⟨fun k offset hk => ?_, fun k => ?_⟩
  · obtain ⟨e, he, -⟩ := hplaced k offset hk
    exact ⟨e, he⟩
  · cases hk : t.index.find? k with
    | none =>
        rw [entry_none hk]
        rw [hindex] at hk
        exact (lookup_none_of_offsetsFrom hk).symm
    | some offset =>
        obtain ⟨e, he, hlookup⟩ := hplaced k offset hk
        unfold entry
        rw [hk, Option.bind_some, he, hlookup]
        rfl

end Table

-- ========================================================== a row of them

namespace Tables

variable {v v' : Volume} {ts : Tables}

/-- What the first table says that knows the key. -/
def entry (v : Volume) : Tables → Bytes → Option Entry
  | [], _ => none
  | t :: ts, k => (t.entry v k).or (entry v ts k)

/-- Every table of the row can be read. -/
def Readable (v : Volume) (ts : Tables) : Prop :=
  ∀ t ∈ ts, t.Readable v

/-- What a row says depends on the contents of its files only. -/
theorem entry_congr (h : ∀ t ∈ ts, v'.content t.file = v.content t.file) (k : Bytes) :
    entry v' ts k = entry v ts k := by
  induction ts with
  | nil => rfl
  | cons t ts ih =>
      rw [entry, entry, Table.entry_congr (h t List.mem_cons_self),
        ih fun t' ht' => h t' (List.mem_cons_of_mem _ ht')]

/-- So does whether it can be read. -/
theorem Readable.congr (hts : Readable v ts)
    (h : ∀ t ∈ ts, v'.content t.file = v.content t.file) : Readable v' ts :=
  fun t ht => (hts t ht).congr (h t ht)

/-- The tables behind the first can be read. -/
theorem Readable.tail {t : Table} (h : Readable v (t :: ts)) : Readable v ts :=
  fun t' ht' => h t' (List.mem_cons_of_mem _ ht')

/-- A key is looked up in the first table that knows it. -/
theorem lookup_ok (hts : Readable v ts) (k : Bytes) :
    lookup v ts k = .ok (entry v ts k) := by
  induction ts with
  | nil => rfl
  | cons t ts ih =>
      rw [lookup, entry, Table.get_eq (hts t List.mem_cons_self)]
      cases hmight : t.mightContain k with
      | false =>
          rw [if_neg Bool.false_ne_true, Table.entry_none_of_outside hmight, Option.none_or]
          exact ih hts.tail
      | true =>
          rw [if_pos rfl]
          cases t.entry v k with
          | none =>
              rw [Option.none_or]
              exact ih hts.tail
          | some e => rfl

/-- With the nearest of the newer tables in hand, a search goes on to the
nearest of all. -/
theorem seekFrom_ok (hts : Readable v ts) {f : Bytes → Option Entry} {b : Bound}
    {d : Direction} {best : Option (Bytes × Entry)} (hbest : Nearest f b d best) :
    ∃ r, seekFrom v b d best ts = .ok r ∧
      Nearest (fun k => (f k).or (entry v ts k)) b d r := by
  induction ts generalizing f best with
  | nil =>
      refine ⟨best, rfl, hbest.congr fun k => ?_⟩
      rw [entry, Option.or_none]
  | cons t ts ih =>
      obtain ⟨found, hfound, hnearest⟩ := Table.seek_ok (hts t List.mem_cons_self) b d
      have hassoc : ∀ k, ((f k).or (t.entry v k)).or (entry v ts k)
          = (f k).or (entry v (t :: ts) k) := fun k => Option.or_assoc
      rw [seekFrom, hfound]
      match found, best, hnearest, hbest with
      | none, best, hnearest, hbest =>
          obtain ⟨r, hr, hall⟩ := ih hts.tail (hbest.none_under hnearest)
          exact ⟨r, hr, hall.congr hassoc⟩
      | some q, none, hnearest, hbest =>
          obtain ⟨r, hr, hall⟩ := ih hts.tail (hbest.over_none hnearest)
          exact ⟨r, hr, hall.congr hassoc⟩
      | some q, some p, hnearest, hbest =>
          obtain ⟨r, hr, hall⟩ := ih hts.tail (hbest.over hnearest)
          exact ⟨r, hr, hall.congr hassoc⟩

/-- A search of the tables finds the nearest key that any of them holds,
with what the newest holds under it. -/
theorem seek_ok (hts : Readable v ts) (b : Bound) (d : Direction) :
    ∃ r, seek v ts b d = .ok r ∧ Nearest (entry v ts) b d r := by
  have hnothing : Nearest (fun _ => (none : Option Entry)) b d none := fun _ _ => rfl
  obtain ⟨r, hr, hnearest⟩ := seekFrom_ok hts hnothing
  exact ⟨r, hr, hnearest.congr fun k => Option.none_or⟩

/-- The keys that the tables have in their indexes. -/
def keys (ts : Tables) : List Bytes :=
  ts.flatMap fun t => t.index.entries.map Prod.fst

/-- There are as many as there are entries. -/
theorem length_keys (ts : Tables) : (keys ts).length = ts.entryCount := by
  induction ts with
  | nil => rfl
  | cons t ts ih =>
      unfold keys at ih ⊢
      rw [List.flatMap_cons, List.length_append, List.length_map, ih]
      rfl

/-- A key that holds something is one of them. -/
theorem mem_keys {k : Bytes} (h : entry v ts k ≠ none) : k ∈ keys ts := by
  induction ts with
  | nil => exact absurd rfl h
  | cons t ts ih =>
      unfold keys
      rw [List.flatMap_cons, List.mem_append]
      cases hk : t.index.find? k with
      | some offset =>
          exact Or.inl (List.mem_map.mpr ⟨_, KeyMap.mem_entries.mpr hk, rfl⟩)
      | none =>
          rw [entry, Table.entry_none hk, Option.none_or] at h
          exact Or.inr (ih h)

end Tables

end OrderedStore
