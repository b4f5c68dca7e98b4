/-
Cursors over what is read from.

What is read from, a view or a view with pending writes laid over it, reads
as one map (`ReadView.Reads`). A cursor on it is at a bound (`Cursor.At`):
it stands on the first pair of that map beyond the bound, and moving it on
takes it behind that pair. Nothing else is said of a cursor, so a cursor
that merges two sides is like one on a single view.

Between the steps of a merging cursor, what is ahead on its two sides is
what lies beyond one bound on each (`MergeCursor.Ready`); settling finds the
nearest of both, and passes over deletions as a view's search does.
-/
import Mathlib
import OrderedStore.ReadView
import OrderedStore.Proofs.Contents
import OrderedStore.Proofs.View

namespace OrderedStore

-- ========================================================= nearest, again

/-- Behind a key that is met before what is nearest, the same is
nearest. -/
theorem Nearest.narrow {α : Type} {f : Bytes → Option α} {b : Bound} {d : Direction} {k : Bytes}
    {r : Option (Bytes × α)} (h : Nearest f b d r) (hk : b.admits d k = true)
    (hbehind : ∀ p, r = some p → d.before k p.1 = true) : Nearest f (.excluded k) d r := by
  have hin : ∀ l, (Bound.excluded k).admits d l = true → b.admits d l = true := by
    intro l hl
    rw [Bound.admits_excluded] at hl
    exact Bound.admits_of_before hk hl
  match r with
  | none => exact fun l hl => h l (hin l hl)
  | some (l, v) =>
      obtain ⟨hv, -, hmin⟩ := h
      refine ⟨hv, ?_, fun m hm hml => hmin m (hin m hm) hml⟩
      rw [Bound.admits_excluded]
      exact hbehind (l, v) rfl

-- =============================================================== prefixes

namespace Bytes

/-- A string is not above what begins with it. -/
theorem le_of_prefix {lead k : Bytes} (h : lead <+: k) : lead ≤ k := by
  induction lead generalizing k with
  | nil => exact List.nil_le k
  | cons a lead ih =>
      obtain ⟨rest, rfl⟩ := h
      rw [List.cons_append, List.cons_le_cons_iff]
      exact Or.inr ⟨rfl, ih (List.prefix_append _ _)⟩

/-- What lies between a string and a key that begins with it begins with it
too. -/
theorem prefix_of_between {lead j k : Bytes} (hk : lead <+: k) (hlow : lead ≤ j) (hhigh : j < k) :
    lead <+: j := by
  induction lead generalizing j k with
  | nil => exact List.nil_prefix
  | cons a lead ih =>
      obtain ⟨rest, rfl⟩ := hk
      cases j with
      | nil => exact absurd (List.nil_lt_cons a lead) (List.not_lt.mpr hlow)
      | cons b j =>
          rw [List.cons_append, List.cons_lt_cons_iff] at hhigh
          rw [List.cons_le_cons_iff] at hlow
          rcases hlow with hab | ⟨rfl, hlow⟩
          · rcases hhigh with hba | ⟨rfl, -⟩
            · exact absurd (UInt8.lt_trans hab hba) (UInt8.lt_irrefl _)
            · exact absurd hab (UInt8.lt_irrefl _)
          · rcases hhigh with hba | ⟨-, hhigh⟩
            · exact absurd hba (UInt8.lt_irrefl _)
            · exact (List.prefix_cons_inj a).mpr (ih (List.prefix_append _ _) hlow hhigh)

end Bytes

/-- If whatever passes the test passes it with all before it, those that
pass stand in front. -/
theorem takeWhile_eq_filter {α : Type} {test : α → Bool} {xs : List α}
    (h : xs.Pairwise fun a b => test b = true → test a = true) :
    xs.takeWhile test = xs.filter test := by
  induction xs with
  | nil => rfl
  | cons x xs ih =>
      obtain ⟨hx, hxs⟩ := List.pairwise_cons.mp h
      cases htest : test x with
      | true =>
          rw [List.takeWhile_cons_of_pos htest, List.filter_cons_of_pos htest, ih hxs]
      | false =>
          have hnone : xs.filter test = [] := List.filter_eq_nil_iff.mpr fun y hy hyes => by
            have := hx y hy hyes
            rw [htest] at this
            cases this
          rw [List.takeWhile_cons_of_neg (by rw [htest]; exact Bool.false_ne_true),
            List.filter_cons_of_neg (by rw [htest]; exact Bool.false_ne_true), hnone]

-- ========================================================= pending writes

namespace KeyMap

/-- The map with pending entries carried out on it. -/
def laid (m : KeyMap Bytes) (pending : Pending) : KeyMap Bytes :=
  pending.entries.foldl KeyMap.write m

/-- What a pair of a map leads to, as an entry. -/
def entry (m : KeyMap Bytes) (k : Bytes) : Option Entry :=
  (m.find? k).map Entry.value

variable {m : KeyMap Bytes} {p : Pending} {b : Bound} {d : Direction}

/-- The last write among the entries of a map is the entry of the key. -/
theorem lastWrite_entries {α : Type} (p : KeyMap α) (k : Bytes) :
    lastWrite p.entries k = p.find? k := by
  rw [← find?_ofList, ofList_sorted p.sorted]

/-- A pending entry decides what its key leads to. -/
theorem find?_laid (m : KeyMap Bytes) (p : Pending) (k : Bytes) :
    (m.laid p).find? k = ((p.find? k).or (m.entry k)).bind Entry.value? := by
  unfold laid
  rw [find?_foldl_write, lastWrite_entries]
  rfl

/-- Where nothing is pending the map leads to what it did. -/
theorem find?_laid_of_none {k : Bytes} (h : p.find? k = none) : (m.laid p).find? k = m.find? k := by
  rw [find?_laid, h, Option.none_or]
  unfold entry
  cases m.find? k <;> rfl

/-- Without pending entries the map is what it is. -/
@[simp] theorem laid_empty (m : KeyMap Bytes) : m.laid KeyMap.empty = m := rfl

/-- The nearest pair of a map is its nearest entry. -/
theorem nearest_entry (m : KeyMap Bytes) (b : Bound) (d : Direction) :
    Nearest m.entry b d ((m.seek b d).map fun q => (q.1, .value q.2)) := by
  have h := m.nearest_seek b d
  unfold entry
  match hseek : m.seek b d with
  | none =>
      rw [hseek] at h
      intro k hk
      show (m.find? k).map Entry.value = none
      rw [h k hk, Option.map_none]
  | some (k, v) =>
      rw [hseek] at h
      obtain ⟨hv, hk, hmin⟩ := h
      refine ⟨?_, hk, fun l hl hlk => ?_⟩
      · show (m.find? k).map Entry.value = _
        rw [hv]
        rfl
      · show (m.find? l).map Entry.value = none
        rw [hmin l hl hlk, Option.map_none]

/-- What is nearest among what lies over the map and in it, and counts, is
what a search finds. -/
theorem seek_laid {r : Option (Bytes × Bytes)}
    (h : Nearest (fun k => ((p.find? k).or (m.entry k)).bind Entry.value?) b d r) :
    (m.laid p).seek b d = r :=
  seek_eq_of_nearest (h.congr fun k => (find?_laid m p k).symm)

/-- With pending entries there are as many pairs more at most. -/
theorem size_laid_le (m : KeyMap Bytes) (p : Pending) :
    (m.laid p).size ≤ m.size + p.size := by
  have hsub : (m.laid p).entries.map Prod.fst
      ⊆ m.entries.map Prod.fst ++ p.entries.map Prod.fst := by
    intro k hk
    obtain ⟨⟨l, v⟩, hmem, rfl⟩ := List.mem_map.mp hk
    have hfound := mem_entries.mp hmem
    rw [find?_laid] at hfound
    cases hp : p.find? l with
    | some e =>
        exact List.mem_append_right _ (List.mem_map.mpr ⟨(l, e), mem_entries.mpr hp, rfl⟩)
    | none =>
        rw [hp, Option.none_or] at hfound
        unfold entry at hfound
        cases hm : m.find? l with
        | some w =>
            exact List.mem_append_left _ (List.mem_map.mpr ⟨(l, w), mem_entries.mpr hm, rfl⟩)
        | none =>
            rw [hm] at hfound
            cases hfound
  have hlength := ((m.laid p).nodup_keys.subperm hsub).length_le
  rw [List.length_append, List.length_map, List.length_map, List.length_map] at hlength
  exact hlength

end KeyMap

-- ========================================================= view cursors

namespace StoreCursor

variable {mem : Memory} {m : KeyMap Bytes}

/-- A cursor that is moved stands on what a search of the map finds. -/
theorem moveTo_ok {c : StoreCursor} (h : c.view.Reads mem m) (b : Bound) :
    c.moveTo mem b = .ok { c with current := m.seek b c.direction } := by
  unfold moveTo
  rw [h.seek]

/-- It goes over the same view. -/
theorem moveTo_view {c c' : StoreCursor} {b : Bound} (h : c.moveTo mem b = .ok c') :
    c'.view = c.view := by
  unfold moveTo at h
  split at h
  · cases h
    rfl
  · cases h

/-- Also when it goes to the next pair. -/
theorem next_view {c c' : StoreCursor} (h : c.next mem = .ok c') : c'.view = c.view := by
  unfold next at h
  split at h
  · cases h
    rfl
  · exact moveTo_view h

end StoreCursor

-- ======================================================== merging cursors

namespace MergeCursor

variable {mem : Memory} {m : KeyMap Bytes} {p : Pending} {c : MergeCursor} {b : Bound}

/-- What is ahead on both sides is what lies beyond the bound on each. -/
structure Ready (mem : Memory) (m : KeyMap Bytes) (p : Pending) (c : MergeCursor) (b : Bound) :
    Prop where
  reads : c.base.view.Reads mem m
  base : c.base.current = m.seek b c.direction
  ahead : p.beyond c.ahead c.direction = p.beyond b c.direction

/-- The cursor stands on the first of both sides beyond the bound, and can
be moved on from there. -/
inductive Settled (mem : Memory) (m : KeyMap Bytes) (p : Pending) (c : MergeCursor)
    (b : Bound) : Prop where
  | nowhere (hstand : c.standing = .nowhere)
      (hseek : (m.laid p).seek b c.direction = none)
  | onView {q : Bytes × Bytes} (hstand : c.standing = .onView) (hbase : c.base.current = some q)
      (hseek : (m.laid p).seek b c.direction = some q) (hreads : c.base.view.Reads mem m)
      (hahead : p.beyond c.ahead c.direction = p.beyond (.excluded q.1) c.direction)
  | onPending {k v : Bytes} (hstand : c.standing = .onPending k v)
      (hseek : (m.laid p).seek b c.direction = some (k, v))
      (hready : Ready mem m p c (.excluded k))

/-- A cursor stays settled while the view under it goes on reading as it did. -/
theorem Settled.later {mem' : Memory} (h : Settled mem m p c b)
    (hkeep : c.base.view.Reads mem m → c.base.view.Reads mem' m) : Settled mem' m p c b := by
  cases h with
  | nowhere hstand hseek => exact .nowhere hstand hseek
  | onView hstand hbase hseek hreads hahead =>
      exact .onView hstand hbase hseek (hkeep hreads) hahead
  | onPending hstand hseek hready =>
      exact .onPending hstand hseek ⟨hkeep hready.reads, hready.base, hready.ahead⟩

/-- A settled cursor stands on what a search of the map finds. -/
theorem Settled.current (h : Settled mem m p c b) : c.current = (m.laid p).seek b c.direction := by
  unfold MergeCursor.current
  cases h with
  | nowhere hstand hseek => rw [hstand, hseek]
  | onView hstand hbase hseek => rw [hstand, hseek]; exact hbase
  | onPending hstand hseek => rw [hstand, hseek]

/-- A cursor is settled for every bound beyond which the same is found. -/
theorem Settled.of_seek_eq {b' : Bound} (h : Settled mem m p c b)
    (heq : (m.laid p).seek b c.direction = (m.laid p).seek b' c.direction) :
    Settled mem m p c b' := by
  cases h with
  | nowhere hstand hseek => exact Settled.nowhere hstand (heq ▸ hseek)
  | onView hstand hbase hseek hreads hahead =>
      exact Settled.onView hstand hbase (heq ▸ hseek) hreads hahead
  | onPending hstand hseek hready => exact Settled.onPending hstand (heq ▸ hseek) hready

/-- If no pending entry is ahead, the view's side decides. -/
theorem Ready.onBase (h : Ready mem m p c b) (hnil : p.beyond b c.direction = []) :
    Settled mem m p c.onBase b := by
  have hpending : p.seek b c.direction = none := by
    rw [KeyMap.seek_eq_head?, hnil]
    rfl
  have hnone := p.nearest_seek b c.direction
  rw [hpending] at hnone
  have hover := hnone.over_none (m.nearest_entry b c.direction)
  cases hbase : m.seek b c.direction with
  | none =>
      rw [hbase] at hover
      refine Settled.nowhere ?_ (KeyMap.seek_laid fun k hk => ?_)
      · unfold MergeCursor.onBase
        rw [h.base, hbase]
        rfl
      · simp only [hover k hk, Option.bind_none]
  | some q =>
      rw [hbase] at hover
      refine Settled.onView ?_ (h.base.trans hbase) (KeyMap.seek_laid (hover.bind rfl))
        h.reads ?_
      · unfold MergeCursor.onBase
        rw [h.base, hbase]
        rfl
      · show p.beyond c.ahead c.direction = _
        rw [h.ahead, hnil]
        refine (List.eq_nil_iff_forall_not_mem.mpr fun ⟨k, e⟩ hk => ?_).symm
        obtain ⟨he, hadm⟩ := KeyMap.mem_beyond.mp hk
        rw [Bound.admits_excluded] at hadm
        have hq : b.admits c.direction q.1 = true := by
          have := m.nearest_seek b c.direction
          rw [hbase] at this
          exact this.2.1
        rw [hnone k (Bound.admits_of_before hq hadm)] at he
        cases he

/-- The view's pair is met first if it is met before the key. -/
theorem viewFirst_iff {k : Bytes} : c.viewFirst k = true ↔
    ∃ q, c.base.current = some q ∧ c.direction.before q.1 k = true := by
  unfold viewFirst
  cases c.base.current with
  | none => simp
  | some q => simp

/-- A pending entry whose turn it is takes the view's pair of its key
along. -/
theorem Ready.consume_ok (h : Ready mem m p c b) {k : Bytes} {e : Entry}
    (hseek : p.seek b c.direction = some (k, e)) (hturn : c.viewFirst k = false) :
    ∃ base, c.consume mem k = .ok base ∧ base.view = c.base.view ∧
      base.direction = c.base.direction ∧ base.current = m.seek (.excluded k) c.direction := by
  have hk : b.admits c.direction k = true := by
    have := p.nearest_seek b c.direction
    rw [hseek] at this
    exact this.2.1
  have hnear := m.nearest_seek b c.direction
  rw [← h.base] at hnear
  unfold viewFirst at hturn
  unfold consume
  match hcur : c.base.current with
  | none =>
      rw [hcur] at hnear
      refine ⟨c.base, rfl, rfl, rfl, ?_⟩
      rw [hcur]
      exact (KeyMap.seek_eq_of_nearest (hnear.narrow hk fun q hq => nomatch hq)).symm
  | some (l, v) =>
      rw [hcur] at hnear hturn
      by_cases hkl : k = l
      · refine ⟨{ c.base with current := m.seek (.excluded k) c.direction }, ?_, rfl, rfl, rfl⟩
        simp only [if_pos hkl]
        unfold StoreCursor.next
        rw [hcur, hkl]
        exact StoreCursor.moveTo_ok h.reads (.excluded l)
      · refine ⟨c.base, if_neg hkl, rfl, rfl, ?_⟩
        rw [hcur]
        refine (KeyMap.seek_eq_of_nearest (hnear.narrow hk fun q hq => ?_)).symm
        cases hq
        cases hbefore : c.direction.before k l with
        | true => rfl
        | false => exact absurd (Direction.eq_of_not_before hbefore hturn) hkl

/-- If the view's pair is met first, the cursor stands on it. -/
theorem Ready.viewFirst (h : Ready mem m p c b) {k : Bytes} {e : Entry}
    (hseek : p.seek b c.direction = some (k, e)) (hfirst : c.viewFirst k = true) :
    Settled mem m p { c with standing := .onView } b := by
  obtain ⟨q, hq, hbefore⟩ := viewFirst_iff.mp hfirst
  have hnear := p.nearest_seek b c.direction
  have hentry := m.nearest_entry b c.direction
  rw [hseek] at hnear
  rw [← h.base, hq] at hentry
  have hover := hnear.over hentry
  rw [if_pos hbefore] at hover
  refine Settled.onView rfl hq (KeyMap.seek_laid (hover.bind rfl)) h.reads ?_
  show p.beyond c.ahead c.direction = p.beyond (.excluded q.1) c.direction
  have hq' : b.admits c.direction q.1 = true := hentry.2.1
  have hnarrow := hnear.narrow hq' fun _ heq => by cases heq; exact hbefore
  rw [h.ahead, KeyMap.beyond_eq_cons hseek,
    KeyMap.beyond_eq_cons (KeyMap.seek_eq_of_nearest hnarrow)]

/-- If the pending entry has its turn, the nearest entry of both sides is
that. -/
theorem Ready.nearest (h : Ready mem m p c b) {k : Bytes} {e : Entry}
    (hseek : p.seek b c.direction = some (k, e)) (hturn : c.viewFirst k = false) :
    Nearest (fun l => (p.find? l).or (m.entry l)) b c.direction (some (k, e)) := by
  have hnear := p.nearest_seek b c.direction
  have hentry := m.nearest_entry b c.direction
  rw [hseek] at hnear
  rw [← h.base] at hentry
  unfold MergeCursor.viewFirst at hturn
  match hcur : c.base.current with
  | none =>
      rw [hcur] at hentry
      exact hnear.none_under hentry
  | some (l, v) =>
      rw [hcur] at hentry hturn
      have hturn' : c.direction.before l k = false := hturn
      have hover := hnear.over hentry
      rwa [if_neg (by show ¬c.direction.before l k = true; rw [hturn']; exact Bool.false_ne_true)]
        at hover

/-- Settling finds the first of both sides beyond the bound. -/
theorem settleOver_ok {ahead : List (Bytes × Entry)} (h : Ready mem m p c b)
    (hahead : p.beyond b c.direction = ahead) :
    ∃ c', settleOver mem c ahead = .ok c' ∧ Settled mem m p c' b ∧
      c'.direction = c.direction := by
  induction ahead generalizing c b with
  | nil => exact ⟨c.onBase, rfl, h.onBase hahead, rfl⟩
  | cons q rest ih =>
      obtain ⟨k, e⟩ := q
      have hseek : p.seek b c.direction = some (k, e) := by
        rw [KeyMap.seek_eq_head?, hahead]
        rfl
      rw [settleOver]
      cases hfirst : c.viewFirst k with
      | true => exact ⟨_, rfl, h.viewFirst hseek hfirst, rfl⟩
      | false =>
          obtain ⟨base, hconsume, hview, hdirection, hcurrent⟩ := h.consume_ok hseek hfirst
          have hnear := h.nearest hseek hfirst
          rw [if_neg Bool.false_ne_true, hconsume]
          have hready : Ready mem m p { c with base := base, ahead := .excluded k }
              (.excluded k) := by
            refine ⟨?_, ?_, rfl⟩
            · rw [hview]
              exact h.reads
            · show base.current = m.seek (.excluded k) base.direction
              rw [hdirection, hcurrent]
              rfl
          cases e with
          | value v =>
              refine ⟨_, rfl, Settled.onPending rfl ?_ ⟨hready.reads, hready.base, rfl⟩,
                hdirection⟩
              show (m.laid p).seek b base.direction = _
              rw [hdirection]
              exact KeyMap.seek_laid (hnear.bind rfl)
          | tombstone =>
              have hrest : p.beyond (.excluded k) base.direction = rest := by
                have := KeyMap.beyond_eq_cons hseek
                rw [hahead] at this
                rw [hdirection]
                exact (List.cons.inj this).2.symm
              obtain ⟨c', hsettle, hsettled, hd⟩ := ih hready hrest
              have hskip : (m.laid p).seek (.excluded k) c.direction
                  = (m.laid p).seek b c.direction := by
                refine (KeyMap.seek_laid (hnear.beyond rfl ?_)).symm
                refine (KeyMap.nearest_seek _ _ _).congr fun l => ?_
                exact KeyMap.find?_laid m p l
              have hc' : c'.direction = c.direction := hd.trans hdirection
              refine ⟨c', hsettle, hsettled.of_seek_eq ?_, hc'⟩
              rw [hc', hskip]

/-- A cursor that is ready settles. -/
theorem Ready.settle_ok (h : Ready mem m p c b) :
    ∃ c', c.settle mem p = .ok c' ∧ Settled mem m p c' b ∧ c'.direction = c.direction := by
  unfold settle
  rw [h.ahead]
  exact settleOver_ok h rfl

/-- A settled cursor is moved behind the pair it stands on. -/
theorem Settled.next_ok (h : Settled mem m p c b) {q : Bytes × Bytes}
    (hq : (m.laid p).seek b c.direction = some q) :
    ∃ c', c.next mem p = .ok c' ∧ Settled mem m p c' (.excluded q.1) ∧
      c'.direction = c.direction := by
  unfold MergeCursor.next
  cases h with
  | nowhere hstand hseek =>
      rw [hseek] at hq
      cases hq
  | onView hstand hbase hseek hreads hahead =>
      rw [hseek] at hq
      cases hq
      have hbase' : c.base.next mem
          = .ok { c.base with current := m.seek (.excluded q.1) c.direction } := by
        unfold StoreCursor.next
        rw [hbase]
        exact StoreCursor.moveTo_ok hreads (.excluded q.1)
      rw [hstand, hbase']
      exact Ready.settle_ok ⟨hreads, rfl, hahead⟩
  | onPending hstand hseek hready =>
      rw [hseek] at hq
      cases hq
      rw [hstand]
      exact hready.settle_ok

/-- The view's side goes over the same view when it takes a pair along. -/
theorem consume_view {k : Bytes} {base : StoreCursor} (h : c.consume mem k = .ok base) :
    base.view = c.base.view := by
  unfold consume at h
  split at h
  · cases h
    rfl
  · split at h
    · exact StoreCursor.next_view h
    · cases h
      rfl

/-- So does a cursor that settles. -/
theorem settleOver_view {ahead : List (Bytes × Entry)} {c' : MergeCursor}
    (h : settleOver mem c ahead = .ok c') : c'.base.view = c.base.view := by
  induction ahead generalizing c with
  | nil =>
      cases h
      rfl
  | cons q rest ih =>
      obtain ⟨k, e⟩ := q
      rw [settleOver] at h
      split at h
      · cases h
        rfl
      · split at h
        · cases h
        · next base hconsume =>
            have hbase := consume_view hconsume
            cases e with
            | value v =>
                cases h
                exact hbase
            | tombstone => exact (ih h).trans hbase

/-- And one that goes to the next pair. -/
theorem next_view {c' : MergeCursor} (h : c.next mem p = .ok c') :
    c'.base.view = c.base.view := by
  unfold next at h
  split at h
  · cases h
    rfl
  · exact settleOver_view h
  · split at h
    · next base hbase => exact (settleOver_view h).trans (StoreCursor.next_view hbase)
    · cases h

variable {w : View}

/-- One that seeks goes over the latest view. -/
theorem seek_view {c' : MergeCursor} {target : Bytes} (h : c.seek mem p w target = .ok c') :
    c'.base.view = w := by
  unfold seek at h
  split at h
  · next base hbase => exact (settleOver_view h).trans (StoreCursor.moveTo_view hbase)
  · cases h

/-- So does one that is opened. -/
theorem rewind_view {c' : MergeCursor} (h : c.rewind mem p w = .ok c') : c'.base.view = w := by
  unfold rewind at h
  split at h
  · next base hbase => exact (settleOver_view h).trans (StoreCursor.moveTo_view hbase)
  · cases h

/-- A cursor is moved to the nearest pair at or beyond a key. -/
theorem seek_ok (hreads : w.Reads mem m) (c : MergeCursor) (p : Pending) (target : Bytes) :
    ∃ c', c.seek mem p w target = .ok c' ∧ Settled mem m p c' (.included target) ∧
      c'.direction = c.direction := by
  have hbase : (StoreCursor.start w c.direction).seek mem target
      = .ok ⟨w, c.direction, m.seek (.included target) c.direction⟩ :=
    StoreCursor.moveTo_ok hreads (.included target)
  unfold MergeCursor.seek
  rw [hbase]
  exact Ready.settle_ok ⟨hreads, rfl, rfl⟩

/-- A cursor is moved to the first pair. -/
theorem rewind_ok (hreads : w.Reads mem m) (c : MergeCursor) (p : Pending) :
    ∃ c', c.rewind mem p w = .ok c' ∧ Settled mem m p c' .unbounded ∧
      c'.direction = c.direction := by
  have hbase : (StoreCursor.start w c.direction).rewind mem
      = .ok ⟨w, c.direction, m.seek .unbounded c.direction⟩ :=
    StoreCursor.moveTo_ok hreads .unbounded
  unfold MergeCursor.rewind
  rw [hbase]
  exact Ready.settle_ok ⟨hreads, rfl, rfl⟩

end MergeCursor

-- ======================================================= what is read from

namespace ReadView

variable {mem : Memory} {r : ReadView} {m base : KeyMap Bytes}

/-- What is read from reads as the map: the view's map with the pending
entries carried out on it. -/
def Reads (mem : Memory) (r : ReadView) (m : KeyMap Bytes) : Prop :=
  ∃ base, r.view.Reads mem base ∧ m = base.laid r.pending

/-- A view is read as it is. -/
theorem reads_pinned {w : View} (h : w.Reads mem m) : (pinned w).Reads mem m :=
  ⟨m, h, rfl⟩

/-- Pending entries lie over the view. -/
theorem reads_overlay {w : View} (h : w.Reads mem base) (p : Pending) :
    (overlay p w).Reads mem (base.laid p) :=
  ⟨base, h, rfl⟩

/-- Getting a key tells what it leads to in the map. -/
theorem Reads.get (h : r.Reads mem m) (k : Bytes) : r.get mem k = .ok (m.find? k) := by
  obtain ⟨base, hview, rfl⟩ := h
  unfold ReadView.get
  cases hpending : r.pending.find? k with
  | some e =>
      rw [KeyMap.find?_laid, hpending]
      rfl
  | none =>
      rw [KeyMap.find?_laid_of_none hpending]
      exact hview.get k

/-- The map has no more pairs than the extent of what is read from. -/
theorem Reads.size (h : r.Reads mem m) : m.size ≤ r.extent mem := by
  obtain ⟨base, hview, rfl⟩ := h
  have hlaid := KeyMap.size_laid_le base r.pending
  have hsize := hview.size
  unfold extent
  omega

/-- So fewer pairs lie beyond a bound than are asked for when all are. -/
theorem Reads.length_beyond_lt (h : r.Reads mem m) (b : Bound) (d : Direction) :
    (m.beyond b d).length < r.extent mem + 1 := by
  refine Nat.lt_succ_of_le (le_trans (List.length_filter_le _ _) ?_)
  rw [Direction.length_arrange]
  exact h.size

/-- At each of the moments, told by what is in memory, what is read from reads as
the map. -/
def ReadsAt (mems : Memory → Prop) (r : ReadView) (m : KeyMap Bytes) : Prop :=
  ∃ base, m = base.laid r.pending ∧ ∀ mem, mems mem → r.view.Reads mem base

variable {mems : Memory → Prop} {mem' : Memory}

/-- So it does at one of them. -/
theorem ReadsAt.reads (h : r.ReadsAt mems m) (hmem : mems mem) : r.Reads mem m := by
  obtain ⟨base, hm, hreads⟩ := h
  exact ⟨base, hreads mem hmem, hm⟩

/-- And the view reads the same at any two. -/
theorem ReadsAt.keeps (h : r.ReadsAt mems m) (hmem : mems mem) (hmem' : mems mem')
    (hbase : r.view.Reads mem base) : r.view.Reads mem' base := by
  obtain ⟨base', -, hreads⟩ := h
  rw [hbase.unique (hreads mem hmem)]
  exact hreads mem' hmem'

/-- The cursor is at the bound: it stands on the first pair of the map
beyond it, and can be moved on. -/
inductive At (mem : Memory) (m : KeyMap Bytes) : ReadView → Cursor → Bound → Prop where
  | store {w : View} {c : StoreCursor} {b : Bound} (hreads : w.Reads mem m)
      (hview : c.view = w) (hcurrent : c.current = m.seek b c.direction) :
      At mem m (.pinned w) (.store c) b
  | merge {p : Pending} {w : View} {c : MergeCursor} {b : Bound} {base : KeyMap Bytes}
      (hreads : w.Reads mem base) (hview : c.base.view = w) (hm : m = base.laid p)
      (hsettled : MergeCursor.Settled mem base p c b) : At mem m (.overlay p w) (.merge c) b

variable {c : Cursor} {b : Bound}

/-- What a cursor goes over reads as the map. -/
theorem At.reads (h : At mem m r c b) : r.Reads mem m := by
  cases h with
  | store hreads hview hcurrent => exact reads_pinned hreads
  | merge hreads hview hm hsettled =>
      rw [hm]
      exact reads_overlay hreads _

/-- It is there at any other moment as well. -/
theorem At.later (h : At mem m r c b) (hr : r.ReadsAt mems m) (hmem : mems mem)
    (hmem' : mems mem') : At mem' m r c b := by
  cases h with
  | store hreads hview hcurrent => exact At.store (hr.keeps hmem hmem' hreads) hview hcurrent
  | merge hreads hview hm hsettled =>
      refine At.merge (hr.keeps hmem hmem' hreads) hview hm (hsettled.later fun hbase => ?_)
      rw [hview] at hbase ⊢
      exact hr.keeps hmem hmem' hbase

/-- A cursor at a bound stands on what a search of the map finds. -/
theorem At.current (h : At mem m r c b) : c.current = m.seek b c.direction := by
  cases h with
  | store hreads hview hcurrent => exact hcurrent
  | merge hreads hview hm hsettled =>
      rw [hm]
      exact hsettled.current

/-- A cursor on a pair is moved behind it. -/
theorem At.next_ok (h : At mem m r c b) {q : Bytes × Bytes} (hq : c.current = some q) :
    ∃ c', r.next mem c = .ok c' ∧ At mem m r c' (.excluded q.1) ∧
      c'.direction = c.direction := by
  have hseek := h.current
  rw [hq] at hseek
  cases h with
  | @store w c b hreads hview hcurrent =>
      subst hview
      have hnext : c.next mem = .ok { c with current := m.seek (.excluded q.1) c.direction } := by
        have hc : c.current = some q := hq
        unfold StoreCursor.next
        rw [hc]
        exact StoreCursor.moveTo_ok hreads (.excluded q.1)
      refine ⟨.store { c with current := m.seek (.excluded q.1) c.direction }, ?_,
        At.store hreads rfl rfl, rfl⟩
      unfold ReadView.next
      simp only [hnext]
      rfl
  | @merge p w c b base hreads hview hm hsettled =>
      rw [hm] at hseek
      obtain ⟨c', hnext, hsettled', hdirection⟩ := hsettled.next_ok hseek.symm
      have hview' := (MergeCursor.next_view hnext).trans hview
      refine ⟨.merge c', ?_, At.merge hreads hview' hm hsettled', hdirection⟩
      show (c.next mem p).map Cursor.merge = _
      rw [hnext]
      rfl

/-- A cursor is moved to the nearest pair at or beyond a key. -/
theorem At.seek_ok (h : At mem m r c b) (target : Bytes) :
    ∃ c', r.seek mem target c = .ok c' ∧ At mem m r c' (.included target) ∧
      c'.direction = c.direction := by
  cases h with
  | @store w c b hreads hview hcurrent =>
      subst hview
      have hseek : c.seek mem target
          = .ok { c with current := m.seek (.included target) c.direction } :=
        StoreCursor.moveTo_ok hreads (.included target)
      refine ⟨.store { c with current := m.seek (.included target) c.direction }, ?_,
        At.store hreads rfl rfl, rfl⟩
      show (c.seek mem target).map Cursor.store = _
      rw [hseek]
      rfl
  | @merge p w c b base hreads hview hm hsettled =>
      obtain ⟨c', hseek, hsettled', hdirection⟩ := MergeCursor.seek_ok hreads c p target
      have hview' := MergeCursor.seek_view hseek
      refine ⟨.merge c', ?_, At.merge hreads hview' hm hsettled', hdirection⟩
      show (c.seek mem p w target).map Cursor.merge = _
      rw [hseek]
      rfl

/-- A cursor is opened at the first pair. -/
theorem Reads.cursor_ok (h : r.Reads mem m) (d : Direction) :
    ∃ c, r.cursor mem d = .ok c ∧ At mem m r c .unbounded ∧ c.direction = d := by
  obtain ⟨base, hview, rfl⟩ := h
  cases r with
  | pinned w =>
      have hrewind : (StoreCursor.start w d).rewind mem
          = .ok ⟨w, d, base.seek .unbounded d⟩ := StoreCursor.moveTo_ok hview .unbounded
      refine ⟨.store ⟨w, d, base.seek .unbounded d⟩, ?_, At.store hview rfl rfl, rfl⟩
      show ((StoreCursor.start w d).rewind mem).map Cursor.store = _
      rw [hrewind]
      rfl
  | overlay p w =>
      have hreads : w.Reads mem base := hview
      obtain ⟨c, hrewind, hsettled, hdirection⟩ :=
        MergeCursor.rewind_ok hreads (MergeCursor.start w d) p
      refine ⟨.merge c, ?_, At.merge hview (MergeCursor.rewind_view hrewind) rfl hsettled,
        hdirection⟩
      show ((MergeCursor.start w d).rewind mem p w).map Cursor.merge = _
      rw [hrewind]
      rfl

/-- A forward cursor is opened on the first key that is not below a
string. -/
theorem Reads.cursorAt_ok (h : r.Reads mem m) (target : Bytes) :
    ∃ c, r.cursorAt mem target = .ok c ∧ At mem m r c (.included target) ∧
      c.direction = .forward := by
  obtain ⟨c, hcursor, hat, hd⟩ := h.cursor_ok .forward
  obtain ⟨c', hseek, hat', hd'⟩ := hat.seek_ok target
  refine ⟨c', ?_, hat', hd'.trans hd⟩
  unfold cursorAt
  rw [hcursor, ok_bind, hseek]

-- ================================================================= scans

/-- What is taken from a cursor on are the pairs that lie beyond its bound,
as long as their keys pass the test, and no more of them than are asked
for. -/
theorem At.takeFrom_take (h : At mem m r c b) (test : Bytes → Bool) (fuel : Nat) :
    r.takeFrom mem test fuel c
      = .ok (((m.beyond b c.direction).takeWhile fun q => test q.1).take fuel) := by
  induction fuel generalizing c b with
  | zero => rfl
  | succ fuel ih =>
      have hcurrent := h.current
      rw [takeFrom]
      match hc : c.current with
      | none =>
          rw [hc] at hcurrent
          rw [KeyMap.beyond_eq_nil hcurrent.symm]
          rfl
      | some q =>
          rw [hc] at hcurrent
          have hbeyond := KeyMap.beyond_eq_cons hcurrent.symm
          rw [hbeyond]
          cases htest : test q.1 with
          | false =>
              simp only [List.takeWhile_cons, htest, Bool.false_eq_true, if_false, List.take_nil]
          | true =>
              obtain ⟨c', hnext, hat, hd⟩ := h.next_ok hc
              have hrest := ih hat
              rw [hd] at hrest
              simp only [List.takeWhile_cons, htest, if_true, hnext, hrest, List.take_succ_cons]

/-- If enough are asked for they are all of them. -/
theorem At.takeFrom_eq (h : At mem m r c b) (test : Bytes → Bool) {fuel : Nat}
    (hfuel : (m.beyond b c.direction).length < fuel) :
    r.takeFrom mem test fuel c
      = .ok ((m.beyond b c.direction).takeWhile fun q => test q.1) := by
  rw [h.takeFrom_take]
  refine congrArg Except.ok (List.take_of_length_le (le_trans ?_ (Nat.le_of_lt hfuel)))
  exact (List.takeWhile_prefix _).length_le

/-- Keys that begin with a string stand together, from the string on. -/
theorem takeWhile_beyond_prefix (m : KeyMap Bytes) (lead : Bytes) :
    (m.beyond (.included lead) .forward).takeWhile (fun q => lead.isPrefixOf q.1)
      = m.entries.filter fun q => lead.isPrefixOf q.1 := by
  have hwide : m.entries.filter (fun q => lead.isPrefixOf q.1)
      = (m.beyond (.included lead) .forward).filter fun q => lead.isPrefixOf q.1 := by
    unfold KeyMap.beyond
    rw [List.filter_filter]
    refine List.filter_congr fun q _ => ?_
    cases hpre : lead.isPrefixOf q.1 with
    | false => rfl
    | true =>
        have hle : lead ≤ q.1 := Bytes.le_of_prefix (List.isPrefixOf_iff_prefix.mp hpre)
        exact (decide_eq_true hle).symm
  rw [hwide]
  refine takeWhile_eq_filter ?_
  refine (m.pairwise_beyond (.included lead) .forward).imp_of_mem fun {p q} hp _ hpq hq => ?_
  have hlow : lead ≤ p.1 := of_decide_eq_true (KeyMap.mem_beyond.mp hp).2
  have hhigh : p.1 < q.1 := of_decide_eq_true hpq
  exact List.isPrefixOf_iff_prefix.mpr
    (Bytes.prefix_of_between (List.isPrefixOf_iff_prefix.mp hq) hlow hhigh)

/-- A scan finds the pairs whose keys begin with the string. -/
theorem Reads.scan_eq (h : r.Reads mem m) (lead : Bytes) :
    r.scan mem lead = .ok (m.entries.filter fun q => lead.isPrefixOf q.1) := by
  obtain ⟨c, hcursor, hat, hd⟩ := h.cursorAt_ok lead
  unfold scan
  rw [hcursor, ok_bind, hat.takeFrom_eq _ (h.length_beyond_lt _ _), hd, takeWhile_beyond_prefix]

end ReadView

end OrderedStore
