/-
What a view answers.

A view lays the part of the memtable that it sees over its tables, and
`View.entry` is what a key holds then, the mark of a deletion included.
Getting a key answers the value of that entry; a search answers the nearest
key with a value. The search passes over deletions one by one, and its fuel
suffices because every deletion passed over leaves one key fewer ahead.

`View.Reads` is what all users of a view rely on: it answers as a map does.
-/
import Mathlib
import OrderedStore.Proofs.Memtable
import OrderedStore.Proofs.Tables
import OrderedStore.View

namespace OrderedStore.View

variable {mem : Memory} {w : View}

/-- What the key holds for the view. -/
def entry (mem : Memory) (w : View) (k : Bytes) : Option Entry :=
  ((mem.memtable w.memtable).get w.seq k).or (Tables.entry mem.volume w.tables k)

/-- The tables of the view can be read. -/
def Readable (mem : Memory) (w : View) : Prop :=
  Tables.Readable mem.volume w.tables

-- ================================================================ reading

/-- A key is answered with its value. -/
theorem get_ok (hw : w.Readable mem) (k : Bytes) :
    w.get mem k = .ok ((w.entry mem k).bind Entry.value?) := by
  unfold get entry
  cases (mem.memtable w.memtable).get w.seq k with
  | some e => rfl
  | none =>
      simp only [Tables.lookup_ok hw, Option.none_or]
      cases Tables.entry mem.volume w.tables k <;> rfl

/-- The nearest entry is found, deletions included. -/
theorem nearest_ok (hw : w.Readable mem) (b : Bound) (d : Direction) :
    ∃ r, w.nearest mem b d = .ok r ∧ Nearest (w.entry mem) b d r := by
  have habove := (mem.memtable w.memtable).nearest_seek w.seq b d
  obtain ⟨found, hfound, hbelow⟩ := Tables.seek_ok hw b d
  unfold nearest
  rw [hfound]
  match hseek : (mem.memtable w.memtable).seek w.seq b d, found with
  | none, none =>
      rw [hseek] at habove
      exact ⟨none, rfl, habove.over_none hbelow⟩
  | some p, none =>
      rw [hseek] at habove
      exact ⟨some p, rfl, habove.none_under hbelow⟩
  | none, some q =>
      rw [hseek] at habove
      exact ⟨some q, rfl, habove.over_none hbelow⟩
  | some p, some q =>
      rw [hseek] at habove
      exact ⟨_, rfl, habove.over hbelow⟩

/-- The keys that the view can hold something under. -/
def keys (mem : Memory) (w : View) : List Bytes :=
  (mem.memtable w.memtable).keys ++ Tables.keys w.tables

/-- There are no more of them than the view's extent. -/
theorem length_keys (mem : Memory) (w : View) : (w.keys mem).length = w.extent mem := by
  unfold keys extent
  rw [List.length_append, Memtable.length_keys, Tables.length_keys]

/-- A key that holds something is one of them. -/
theorem mem_keys {k : Bytes} (h : w.entry mem k ≠ none) : k ∈ w.keys mem := by
  unfold keys
  rw [List.mem_append]
  by_cases habove : (mem.memtable w.memtable).get w.seq k = none
  · unfold entry at h
    rw [habove, Option.none_or] at h
    exact Or.inr (Tables.mem_keys h)
  · exact Or.inl (Memtable.mem_keys habove)

/-- The keys at or beyond a bound. -/
def ahead (mem : Memory) (w : View) (b : Bound) (d : Direction) : List Bytes :=
  (w.keys mem).filter fun k => b.admits d k

/-- Behind a key that was found there are fewer of them. -/
theorem ahead_excluded_lt {b : Bound} {d : Direction} {k : Bytes} {e : Entry}
    (hk : w.entry mem k = some e) (hadm : b.admits d k = true) :
    (w.ahead mem (.excluded k) d).length < (w.ahead mem b d).length := by
  have hmem : k ∈ w.keys mem := mem_keys (by rw [hk]; exact Option.some_ne_none e)
  have hnarrow : w.ahead mem (.excluded k) d
      = (w.ahead mem b d).filter fun l => d.before k l := by
    unfold ahead
    rw [List.filter_filter]
    refine List.filter_congr fun l _ => ?_
    rw [Bound.admits_excluded]
    cases hkl : d.before k l with
    | false => rfl
    | true => rw [Bound.admits_of_before hadm hkl, Bool.and_true]
  rw [hnarrow]
  refine List.length_filter_lt_length_iff_exists.mpr ⟨k, List.mem_filter.mpr ⟨hmem, hadm⟩, ?_⟩
  rw [Direction.before_irrefl]
  exact Bool.false_ne_true

/-- A search passes over deletions to the nearest value, if its fuel is
more than the keys ahead. -/
theorem seekFrom_ok (hw : w.Readable mem) (d : Direction) {fuel : Nat} {b : Bound}
    (hfuel : (w.ahead mem b d).length < fuel) :
    ∃ r, w.seekFrom mem d fuel b = .ok r ∧
      Nearest (fun k => (w.entry mem k).bind Entry.value?) b d r := by
  induction fuel generalizing b with
  | zero => omega
  | succ fuel ih =>
      obtain ⟨r, hr, hnearest⟩ := nearest_ok hw b d
      rw [seekFrom, hr]
      match r, hnearest with
      | none, hnearest =>
          refine ⟨none, rfl, fun k hk => ?_⟩
          show (w.entry mem k).bind Entry.value? = none
          rw [hnearest k hk, Option.bind_none]
      | some (k, .value bs), hnearest => exact ⟨some (k, bs), rfl, hnearest.bind rfl⟩
      | some (k, .tombstone), hnearest =>
          have hless := ahead_excluded_lt hnearest.1 hnearest.2.1
          obtain ⟨r, hr, hrest⟩ := ih (b := .excluded k) (by omega)
          exact ⟨r, hr, hnearest.beyond rfl hrest⟩

/-- A search finds the nearest key with a value. -/
theorem seek_ok (hw : w.Readable mem) (b : Bound) (d : Direction) :
    ∃ r, w.seek mem b d = .ok r ∧
      Nearest (fun k => (w.entry mem k).bind Entry.value?) b d r := by
  refine seekFrom_ok hw d ?_
  rw [← length_keys]
  exact Nat.lt_succ_of_le (List.length_filter_le _ _)

-- =================================================== answers as of a map

/-- The view answers every question as the map does, and the map has no
more keys than the view's extent. -/
structure Reads (mem : Memory) (w : View) (m : KeyMap Bytes) : Prop where
  get : ∀ k, w.get mem k = .ok (m.find? k)
  seek : ∀ b d, w.seek mem b d = .ok (m.seek b d)
  size : m.size ≤ w.extent mem

/-- It reads as one map only. -/
theorem Reads.unique {w : View} {m m' : KeyMap Bytes} (h : w.Reads mem m) (h' : w.Reads mem m') :
    m = m' :=
  KeyMap.ext_find? fun k => Except.ok.inj ((h.get k).symm.trans (h'.get k))

/-- A view whose entries have the map's values reads as the map. -/
theorem reads_of_entry {m : KeyMap Bytes} (hw : w.Readable mem)
    (h : ∀ k, (w.entry mem k).bind Entry.value? = m.find? k) : w.Reads mem m := by
  refine ⟨fun k => ?_, fun b d => ?_, ?_⟩
  · rw [get_ok hw, h]
  · obtain ⟨r, hr, hnearest⟩ := seek_ok hw b d
    rw [hr, KeyMap.seek_eq_of_nearest (hnearest.congr h)]
  · have hsub : m.entries.map Prod.fst ⊆ w.keys mem := by
      intro k hk
      obtain ⟨⟨l, bs⟩, hmem, rfl⟩ := List.mem_map.mp hk
      refine mem_keys fun hnone => ?_
      have hl := h l
      rw [hnone, KeyMap.mem_entries.mp hmem] at hl
      cases hl
    have hnodup : (m.entries.map Prod.fst).Nodup := by
      refine List.pairwise_map.mpr (m.sorted.imp fun {a b} hab heq => ?_)
      rw [heq] at hab
      exact List.lt_irrefl _ hab
    rw [← length_keys]
    have := (hnodup.subperm hsub).length_le
    rwa [List.length_map] at this

-- ======================================================= repeated searches

/-- What repeated searches find, each from behind the last, at most `fuel`
of them. -/
def walk (mem : Memory) (w : View) (d : Direction) :
    Nat → Bound → Except Failure (List (Bytes × Bytes))
  | 0, _ => .ok []
  | fuel + 1, b =>
    match w.seek mem b d with
    | .error f => .error f
    | .ok none => .ok []
    | .ok (some p) =>
      match walk mem w d fuel (.excluded p.1) with
      | .error f => .error f
      | .ok ps => .ok (p :: ps)

/-- Repeated searches enumerate what lies beyond the bound, pair by pair in
the order of the way. -/
theorem Reads.walk_eq {m : KeyMap Bytes} (h : w.Reads mem m) (d : Direction) (fuel : Nat)
    (b : Bound) : w.walk mem d fuel b = .ok ((m.beyond b d).take fuel) := by
  induction fuel generalizing b with
  | zero => rfl
  | succ fuel ih =>
      rw [walk, h.seek]
      cases hseek : m.seek b d with
      | none => rw [KeyMap.beyond_eq_nil hseek, List.take_nil]
      | some p =>
          simp only [ih (.excluded p.1)]
          rw [KeyMap.beyond_eq_cons hseek, List.take_succ_cons]

end OrderedStore.View
