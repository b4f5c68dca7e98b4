/-
What a map answers, whatever built it.

A direction orders the keys; `Nearest` says of an answer that it is the
first key on the way, at or beyond a bound, that holds something. The
answer is determined by what the keys hold, so two structures that hold
the same under every key give the same answers to every search. That is
how a memtable over a row of tables is compared with one map: key by key,
never entry by entry.
-/
import Mathlib
import OrderedStore.KeyMap

namespace OrderedStore

-- ================================================== the order of the way

namespace Direction

/-- No key is met before itself. -/
theorem before_irrefl (d : Direction) (a : Bytes) : d.before a a = false := by
  cases d <;> simp [before, List.lt_irrefl]

/-- Whoever is met before another is met before those behind it. -/
theorem before_trans {d : Direction} {a b c : Bytes}
    (hab : d.before a b = true) (hbc : d.before b c = true) :
    d.before a c = true := by
  cases d with
  | forward =>
      simp only [before, decide_eq_true_eq] at *
      exact List.lt_trans hab hbc
  | reverse =>
      simp only [before, decide_eq_true_eq] at *
      exact List.lt_trans hbc hab

/-- Two keys are not each met before the other. -/
theorem before_asymm {d : Direction} {a b : Bytes}
    (hab : d.before a b = true) : d.before b a = false := by
  cases hba : d.before b a with
  | false => rfl
  | true =>
      have haa := before_trans hab hba
      rw [before_irrefl] at haa
      cases haa

/-- Of two different keys one is met before the other. -/
theorem eq_of_not_before {d : Direction} {a b : Bytes}
    (hab : d.before a b = false) (hba : d.before b a = false) : a = b := by
  cases d with
  | forward =>
      simp only [before, decide_eq_false_iff_not] at hab hba
      exact List.le_antisymm (List.not_lt.mp hba) (List.not_lt.mp hab)
  | reverse =>
      simp only [before, decide_eq_false_iff_not] at hab hba
      exact List.le_antisymm (List.not_lt.mp hab) (List.not_lt.mp hba)

/-- A key that is not behind `b` is met before whatever `b` is met
before. -/
theorem before_of_not_before {d : Direction} {a b c : Bytes}
    (hba : d.before b a = false) (hbc : d.before b c = true) :
    d.before a c = true := by
  cases hab : d.before a b with
  | false => rwa [eq_of_not_before hab hba]
  | true => exact before_trans hab hbc

/-- A key met before `b` is met before whatever is not met before `b`. -/
theorem before_of_before_of_not {d : Direction} {a b c : Bytes}
    (hab : d.before a b = true) (hcb : d.before c b = false) :
    d.before a c = true := by
  cases hbc : d.before b c with
  | false => rwa [← eq_of_not_before hbc hcb]
  | true => exact before_trans hab hbc

/-- Arranging leaves the members alone. -/
@[simp] theorem mem_arrange {α : Type} {d : Direction} {x : α} {xs : List α} :
    x ∈ d.arrange xs ↔ x ∈ xs := by
  cases d with
  | forward => rfl
  | reverse => exact List.mem_reverse

/-- Arranging leaves the length alone. -/
@[simp] theorem length_arrange {α : Type} (d : Direction) (xs : List α) :
    (d.arrange xs).length = xs.length := by
  cases d with
  | forward => rfl
  | reverse => exact List.length_reverse

/-- An ascending list is arranged in the order of the way. -/
theorem pairwise_arrange {α : Type} {xs : List (Bytes × α)} (d : Direction)
    (h : xs.Pairwise fun a b => a.1 < b.1) :
    (d.arrange xs).Pairwise fun a b => d.before a.1 b.1 = true := by
  cases d with
  | forward => exact h.imp fun hab => by simpa [before] using hab
  | reverse =>
      refine List.pairwise_reverse.mpr (h.imp fun hab => ?_)
      simpa [before] using hab

end Direction

namespace Bound

/-- A key behind an admitted one is admitted. -/
theorem admits_of_before {b : Bound} {d : Direction} {k l : Bytes}
    (hk : b.admits d k = true) (hkl : d.before k l = true) :
    b.admits d l = true := by
  cases b with
  | unbounded => rfl
  | included c =>
      cases d with
      | forward =>
          simp only [admits, Direction.before, decide_eq_true_eq] at *
          exact List.le_of_lt (List.lt_of_le_of_lt hk hkl)
      | reverse =>
          simp only [admits, Direction.before, decide_eq_true_eq] at *
          rcases List.le_iff_lt_or_eq.mp hk with hk | rfl
          · exact List.le_of_lt (List.lt_trans hkl hk)
          · exact List.le_of_lt hkl
  | excluded c =>
      cases d with
      | forward =>
          simp only [admits, Direction.before, decide_eq_true_eq] at *
          exact List.lt_trans hk hkl
      | reverse =>
          simp only [admits, Direction.before, decide_eq_true_eq] at *
          exact List.lt_trans hkl hk

/-- Nothing is excluded by no bound. -/
@[simp] theorem admits_unbounded (d : Direction) (k : Bytes) :
    unbounded.admits d k = true := rfl

/-- Beyond an excluded key lie the keys it is met before. -/
theorem admits_excluded (d : Direction) (k l : Bytes) :
    (excluded k).admits d l = d.before k l := by
  cases d <;> rfl

/-- From an included key on lie the keys that are not met before it. -/
theorem admits_included (d : Direction) (k l : Bytes) :
    (included k).admits d l = !d.before l k := by
  cases d <;> simp only [admits, Direction.before, ← List.not_lt, decide_not]

end Bound

-- ====================================================== nearest holdings

/-- The answer is the first key on the way, at or beyond the bound, that
holds something, with what it holds; no answer says that there is none. -/
def Nearest {α : Type} (f : Bytes → Option α) (b : Bound) (d : Direction) :
    Option (Bytes × α) → Prop
  | none => ∀ k, b.admits d k = true → f k = none
  | some (k, v) =>
    f k = some v ∧ b.admits d k = true ∧
      ∀ l, b.admits d l = true → d.before l k = true → f l = none

/-- There is one nearest key. -/
theorem Nearest.unique {α : Type} {f : Bytes → Option α} {b : Bound} {d : Direction}
    {r r' : Option (Bytes × α)} (h : Nearest f b d r) (h' : Nearest f b d r') :
    r = r' := by
  match r, r' with
  | none, none => rfl
  | none, some (k, v) =>
      obtain ⟨hv, hk, -⟩ := h'
      rw [h k hk] at hv
      cases hv
  | some (k, v), none =>
      obtain ⟨hv, hk, -⟩ := h
      rw [h' k hk] at hv
      cases hv
  | some (k, v), some (l, w) =>
      obtain ⟨hv, hk, hkmin⟩ := h
      obtain ⟨hw, hl, hlmin⟩ := h'
      have hkl : d.before k l = false := by
        by_contra hkl
        rw [hlmin k hk (by simpa using hkl)] at hv
        cases hv
      have hlk : d.before l k = false := by
        by_contra hlk
        rw [hkmin l hl (by simpa using hlk)] at hw
        cases hw
      obtain rfl := Direction.eq_of_not_before hkl hlk
      rw [hv] at hw
      cases hw
      rfl

/-- What is nearest depends on the holdings only. -/
theorem Nearest.congr {α : Type} {f g : Bytes → Option α} {b : Bound} {d : Direction}
    {r : Option (Bytes × α)} (h : Nearest f b d r) (hfg : ∀ k, f k = g k) :
    Nearest g b d r := by
  have : f = g := funext hfg
  rwa [← this]

/-- What is nearest without some keys, if it is none of them. -/
theorem Nearest.without {α : Type} {f : Bytes → Option α} {b : Bound} {d : Direction}
    {r : Option (Bytes × α)} (h : Nearest f b d r) {ks : List Bytes}
    (hr : ∀ p ∈ r, p.1 ∉ ks) : Nearest (fun k => if k ∈ ks then none else f k) b d r := by
  have hnone {k : Bytes} (hk : f k = none) : (if k ∈ ks then none else f k) = none := by
    rw [hk, ite_self]
  cases r with
  | none => exact fun k hk => hnone (h k hk)
  | some p =>
      obtain ⟨hp, hadmits, hfirst⟩ := h
      refine ⟨?_, hadmits, fun l hl hlp => hnone (hfirst l hl hlp)⟩
      exact (if_neg (hr p rfl)).trans hp

section Over

variable {α : Type} {f g : Bytes → Option α} {b : Bound} {d : Direction}

/-- If nothing is held above, the nearest key is the one below. -/
theorem Nearest.over_none {r : Option (Bytes × α)} (hf : Nearest f b d none)
    (hg : Nearest g b d r) : Nearest (fun k => (f k).or (g k)) b d r := by
  match r with
  | none =>
      intro k hk
      simp only [hf k hk, hg k hk, Option.none_or]
  | some (k, v) =>
      obtain ⟨hv, hk, hmin⟩ := hg
      refine ⟨?_, hk, fun l hl hlk => ?_⟩
      · simp only [hf k hk, hv, Option.none_or]
      · simp only [hf l hl, hmin l hl hlk, Option.none_or]

/-- If nothing is held below, the nearest key is the one above. -/
theorem Nearest.none_under {r : Option (Bytes × α)} (hf : Nearest f b d r)
    (hg : Nearest g b d none) : Nearest (fun k => (f k).or (g k)) b d r := by
  match r with
  | none =>
      intro k hk
      simp only [hf k hk, hg k hk, Option.none_or]
  | some (k, v) =>
      obtain ⟨hv, hk, hmin⟩ := hf
      refine ⟨?_, hk, fun l hl hlk => ?_⟩
      · simp only [hv, Option.some_or]
      · simp only [hmin l hl hlk, hg l hl, Option.none_or]

/-- Of the nearest keys above and below, the one met earlier is the nearest
of both together, and the one above if they are one key. -/
theorem Nearest.over {p q : Bytes × α} (hf : Nearest f b d (some p))
    (hg : Nearest g b d (some q)) :
    Nearest (fun k => (f k).or (g k)) b d
      (some (if d.before q.1 p.1 then q else p)) := by
  obtain ⟨k, v⟩ := p
  obtain ⟨l, w⟩ := q
  obtain ⟨hv, hk, hkmin⟩ := hf
  obtain ⟨hw, hl, hlmin⟩ := hg
  cases hlk : d.before l k with
  | true =>
      refine ⟨?_, hl, fun m hm hml => ?_⟩
      · simp only [hkmin l hl hlk, hw, Option.none_or]
      · simp only [hkmin m hm (Direction.before_trans hml hlk), hlmin m hm hml,
          Option.none_or]
  | false =>
      refine ⟨?_, hk, fun m hm hmk => ?_⟩
      · simp only [hv, Option.some_or]
      · have hml : d.before m l = true := Direction.before_of_before_of_not hmk hlk
        simp only [hkmin m hm hmk, hlmin m hm hml, Option.none_or]

end Over

/-- The nearest to an included key is the key itself, exactly if it holds
something. -/
theorem Nearest.included_iff {α : Type} {f : Bytes → Option α} {d : Direction} {k : Bytes}
    {v : α} {r : Option (Bytes × α)} (h : Nearest f (.included k) d r) :
    r = some (k, v) ↔ f k = some v := by
  have hadm : (Bound.included k).admits d k = true := by
    rw [Bound.admits_included, Direction.before_irrefl, Bool.not_false]
  constructor
  · rintro rfl
    exact h.1
  · intro hk
    refine h.unique ⟨hk, hadm, fun l hl hlk => ?_⟩
    rw [Bound.admits_included, hlk] at hl
    cases hl

/-- Leaving out a key that is nearest changes nothing beyond it: if what is
nearest does not count, the search goes on behind it. -/
theorem Nearest.beyond {α β : Type} {f : Bytes → Option α} {g : α → Option β}
    {b : Bound} {d : Direction} {k : Bytes} {v : α} {r : Option (Bytes × β)}
    (h : Nearest f b d (some (k, v))) (hv : g v = none)
    (hr : Nearest (fun l => (f l).bind g) (.excluded k) d r) :
    Nearest (fun l => (f l).bind g) b d r := by
  obtain ⟨hk, hadm, hmin⟩ := h
  have hnone : ∀ l, b.admits d l = true → d.before k l = false →
      (f l).bind g = none := by
    intro l hl hkl
    cases hlk : d.before l k with
    | true => rw [hmin l hl hlk, Option.bind_none]
    | false =>
        obtain rfl := Direction.eq_of_not_before hlk hkl
        rw [hk, Option.bind_some, hv]
  match r with
  | none =>
      intro l hl
      cases hkl : d.before k l with
      | true => exact hr l (by rw [Bound.admits_excluded, hkl])
      | false => exact hnone l hl hkl
  | some (m, w) =>
      obtain ⟨hm, hkm, hmmin⟩ := hr
      rw [Bound.admits_excluded] at hkm
      refine ⟨hm, Bound.admits_of_before hadm hkm, fun l hl hlm => ?_⟩
      cases hkl : d.before k l with
      | true => exact hmmin l (by rw [Bound.admits_excluded, hkl]) hlm
      | false => exact hnone l hl hkl

/-- What is nearest and counts is the nearest of what counts. -/
theorem Nearest.bind {α β : Type} {f : Bytes → Option α} {g : α → Option β}
    {b : Bound} {d : Direction} {k : Bytes} {v : α} {w : β}
    (h : Nearest f b d (some (k, v))) (hv : g v = some w) :
    Nearest (fun l => (f l).bind g) b d (some (k, w)) := by
  obtain ⟨hk, hadm, hmin⟩ := h
  refine ⟨?_, hadm, fun l hl hlk => ?_⟩
  · simp only [hk, Option.bind_some, hv]
  · simp only [hmin l hl hlk, Option.bind_none]

-- ====================================================== sorted pair lists

section Lookup

variable {κ α : Type} [BEq κ] [LawfulBEq κ] [DecidableEq κ]

/-- Looking a key up, one pair at a time. -/
theorem lookup_pair (k l : κ) (v : α) (xs : List (κ × α)) :
    ((l, v) :: xs).lookup k = if k = l then some v else xs.lookup k := by
  rw [List.lookup_cons]
  split
  · next h => rw [if_pos (by simpa using h)]
  · next h => rw [if_neg (by simpa using h)]

/-- A key is found only if it is there. -/
theorem mem_of_lookup {k : κ} {v : α} {xs : List (κ × α)}
    (h : xs.lookup k = some v) : (k, v) ∈ xs := by
  induction xs with
  | nil => cases h
  | cons x xs ih =>
      obtain ⟨l, w⟩ := x
      rw [lookup_pair] at h
      split at h
      · next hkl =>
          cases h
          subst hkl
          exact List.mem_cons_self
      · exact List.mem_cons_of_mem _ (ih h)

/-- If no key is there twice, every pair is found under its key. -/
theorem lookup_of_nodup {k : κ} {v : α} {xs : List (κ × α)}
    (hs : (xs.map Prod.fst).Nodup) (h : (k, v) ∈ xs) : xs.lookup k = some v := by
  induction xs with
  | nil => cases h
  | cons x xs ih =>
      obtain ⟨l, w⟩ := x
      obtain ⟨hl, hxs⟩ := List.nodup_cons.mp hs
      rw [lookup_pair]
      rcases List.mem_cons.mp h with heq | hmem
      · cases heq
        rw [if_pos rfl]
      · rw [if_neg, ih hxs hmem]
        rintro rfl
        exact hl (List.mem_map.mpr ⟨_, hmem, rfl⟩)

/-- Leaving a key out takes it away, and nothing else. -/
theorem lookup_filter_ne (k l : κ) (xs : List (κ × α)) :
    (xs.filter fun p => p.1 ≠ k).lookup l = if l = k then none else xs.lookup l := by
  induction xs with
  | nil => simp
  | cons x xs ih =>
      obtain ⟨j, v⟩ := x
      rw [List.filter_cons, lookup_pair]
      by_cases hjk : j = k
      · subst hjk
        rw [if_neg (by simp), ih]
        by_cases hlj : l = j
        · rw [if_pos hlj, if_pos hlj]
        · rw [if_neg hlj, if_neg hlj, if_neg hlj]
      · rw [if_pos (by simpa using hjk), lookup_pair, ih]
        by_cases hlj : l = j
        · subst hlj
          rw [if_pos rfl, if_neg hjk, if_pos rfl]
        · rw [if_neg hlj, if_neg hlj]

end Lookup

/-- Two rows in one strict order that have the same members are the
same. -/
theorem eq_of_mem_iff {α : Type} {r : α → α → Prop} (hr : ∀ a b, r a b → ¬r b a)
    {xs ys : List α} (hxs : xs.Pairwise r) (hys : ys.Pairwise r) (h : ∀ a, a ∈ xs ↔ a ∈ ys) :
    xs = ys := by
  have hnodup : ∀ {zs : List α}, zs.Pairwise r → zs.Nodup := fun hzs =>
    hzs.imp fun {a b} hab heq => by subst heq; exact hr a a hab hab
  have hperm := (List.perm_ext_iff_of_nodup (hnodup hxs) (hnodup hys)).mpr h
  exact hperm.eq_of_pairwise (fun a b _ _ hab hba => absurd hba (hr a b hab)) hxs hys

/-- In an ascending list every pair is found under its key. -/
theorem lookup_of_mem {α : Type} {k : Bytes} {v : α} {xs : List (Bytes × α)}
    (hs : xs.Pairwise fun a b => a.1 < b.1) (h : (k, v) ∈ xs) :
    xs.lookup k = some v := by
  refine lookup_of_nodup (List.pairwise_map.mpr (hs.imp fun {a b} hab heq => ?_)) h
  rw [heq] at hab
  exact List.lt_irrefl _ hab

/-- Putting a pair in its place changes what its key leads to, and nothing
else. -/
theorem lookup_insertSorted {α : Type} (k l : Bytes) (v : α)
    {xs : List (Bytes × α)} (hs : xs.Pairwise fun a b => a.1 < b.1) :
    (insertSorted k v xs).lookup l = if l = k then some v else xs.lookup l := by
  induction xs with
  | nil => rw [insertSorted, lookup_pair]
  | cons x xs ih =>
      obtain ⟨m, w⟩ := x
      obtain ⟨-, hxs⟩ := List.pairwise_cons.mp hs
      rw [insertSorted]
      by_cases hkm : k < m
      · rw [if_pos hkm, lookup_pair]
      · rw [if_neg hkm]
        by_cases hmk : m < k
        · rw [if_pos hmk, lookup_pair, ih hxs, lookup_pair]
          by_cases hlm : l = m
          · subst hlm
            rw [if_pos rfl, if_pos rfl, if_neg]
            rintro rfl
            exact List.lt_irrefl _ hmk
          · rw [if_neg hlm, if_neg hlm]
        · have hkeq : k = m := List.le_antisymm (List.not_lt.mp hmk) (List.not_lt.mp hkm)
          subst hkeq
          rw [if_neg hmk, lookup_pair, lookup_pair]
          by_cases hlk : l = k
          · rw [if_pos hlk, if_pos hlk]
          · rw [if_neg hlk, if_neg hlk, if_neg hlk]

/-- The first pair in the order of the way that passes the bound is the
nearest. -/
theorem nearest_find? {α : Type} {b : Bound} {d : Direction} {xs : List (Bytes × α)}
    (hs : xs.Pairwise fun a b => a.1 < b.1) :
    Nearest (fun k => xs.lookup k) b d ((d.arrange xs).find? fun p => b.admits d p.1) := by
  cases hfound : (d.arrange xs).find? fun p => b.admits d p.1 with
  | none =>
      intro k hk
      cases hv : xs.lookup k with
      | none => exact hv
      | some v =>
          have hmem := Direction.mem_arrange (d := d).mpr (mem_of_lookup hv)
          have := List.find?_eq_none.mp hfound _ hmem
          exact absurd hk this
  | some p =>
      obtain ⟨k, v⟩ := p
      obtain ⟨hk, front, back, hsplit, hfront⟩ := List.find?_eq_some_iff_append.mp hfound
      have hmem : (k, v) ∈ xs := by
        rw [← Direction.mem_arrange (d := d), hsplit]
        exact List.mem_append_right _ List.mem_cons_self
      refine ⟨lookup_of_mem hs hmem, hk, fun l hl hlk => ?_⟩
      cases hw : xs.lookup l with
      | none => exact hw
      | some w =>
          exfalso
          have hlmem := Direction.mem_arrange (d := d).mpr (mem_of_lookup hw)
          have hpw := Direction.pairwise_arrange d hs
          rw [hsplit] at hlmem hpw
          rcases List.mem_append.mp hlmem with hlmem | hlmem
          · have := hfront _ hlmem
            simp only [hl, Bool.not_true, Bool.false_eq_true] at this
          · rcases List.mem_cons.mp hlmem with heq | hlmem
            · cases heq
              rw [Direction.before_irrefl] at hlk
              cases hlk
            · have hkl := (List.pairwise_cons.mp (List.pairwise_append.mp hpw).2.1).1 _ hlmem
              rw [Direction.before_asymm hkl] at hlk
              cases hlk

-- ================================================================== maps

namespace KeyMap

variable {α : Type}

/-- A pair of a map is what its key leads to. -/
theorem mem_entries {m : KeyMap α} {k : Bytes} {v : α} :
    (k, v) ∈ m.entries ↔ m.find? k = some v :=
  ⟨lookup_of_mem m.sorted, mem_of_lookup⟩

/-- The empty map holds nothing. -/
@[simp] theorem find?_empty (k : Bytes) : (empty : KeyMap α).find? k = none := rfl

/-- One more pair changes what its key leads to, and nothing else. -/
theorem find?_insert (m : KeyMap α) (k l : Bytes) (v : α) :
    (m.insert k v).find? l = if l = k then some v else m.find? l :=
  lookup_insertSorted k l v m.sorted

/-- The key of the last pair leads to it. -/
@[simp] theorem find?_insert_self (m : KeyMap α) (k : Bytes) (v : α) :
    (m.insert k v).find? k = some v := by
  rw [find?_insert, if_pos rfl]

/-- A search of a map finds the nearest key. -/
theorem nearest_seek (m : KeyMap α) (b : Bound) (d : Direction) :
    Nearest m.find? b d (m.seek b d) :=
  nearest_find? m.sorted

/-- Whatever is nearest among what a map holds is what the map finds. -/
theorem seek_eq_of_nearest {m : KeyMap α} {b : Bound} {d : Direction}
    {r : Option (Bytes × α)} (h : Nearest m.find? b d r) : m.seek b d = r :=
  (m.nearest_seek b d).unique h

/-- A search finds the first of what lies beyond. -/
theorem seek_eq_head? (m : KeyMap α) (b : Bound) (d : Direction) :
    m.seek b d = (m.beyond b d).head? := by
  unfold seek beyond
  rw [List.head?_filter]

/-- If nothing is found, nothing lies beyond. -/
theorem beyond_eq_nil {m : KeyMap α} {b : Bound} {d : Direction}
    (h : m.seek b d = none) : m.beyond b d = [] := by
  rw [seek_eq_head?] at h
  exact List.head?_eq_none_iff.mp h

/-- Behind what is found lies what is beyond it. -/
theorem beyond_eq_cons {m : KeyMap α} {b : Bound} {d : Direction} {p : Bytes × α}
    (h : m.seek b d = some p) : m.beyond b d = p :: m.beyond (.excluded p.1) d := by
  rw [seek_eq_head?] at h
  obtain ⟨rest, hrest⟩ := List.head?_eq_some_iff.mp h
  have hp : b.admits d p.1 = true := by
    have hmem : p ∈ m.beyond b d := by
      rw [hrest]
      exact List.mem_cons_self
    exact (List.mem_filter.mp hmem).2
  have hsorted : (p :: rest).Pairwise fun a c => d.before a.1 c.1 = true := by
    rw [← hrest]
    exact (Direction.pairwise_arrange d m.sorted).filter _
  have hnarrow : m.beyond (.excluded p.1) d
      = (m.beyond b d).filter fun q => d.before p.1 q.1 := by
    unfold beyond
    rw [List.filter_filter]
    refine List.filter_congr fun q _ => ?_
    rw [Bound.admits_excluded]
    cases hpq : d.before p.1 q.1 with
    | false => rfl
    | true => rw [Bound.admits_of_before hp hpq, Bool.and_true]
  have hbehind : rest.filter (fun q => d.before p.1 q.1) = rest :=
    List.filter_eq_self.mpr (List.pairwise_cons.mp hsorted).1
  rw [hnarrow, hrest, List.filter_cons_of_neg (by simp [Direction.before_irrefl]), hbehind]

/-- What lies beyond is met in the order of the way. -/
theorem pairwise_beyond (m : KeyMap α) (b : Bound) (d : Direction) :
    (m.beyond b d).Pairwise fun p q => d.before p.1 q.1 = true :=
  (Direction.pairwise_arrange d m.sorted).filter _

/-- A pair lies beyond if the map has it and the bound admits its key. -/
theorem mem_beyond {m : KeyMap α} {b : Bound} {d : Direction} {k : Bytes} {v : α} :
    (k, v) ∈ m.beyond b d ↔ m.find? k = some v ∧ b.admits d k = true := by
  unfold beyond
  rw [List.mem_filter, Direction.mem_arrange]
  exact and_congr_left' ⟨lookup_of_mem m.sorted, mem_of_lookup⟩

/-- No key of a map is there twice. -/
theorem nodup_keys (m : KeyMap α) : (m.entries.map Prod.fst).Nodup := by
  refine List.pairwise_map.mpr (m.sorted.imp fun {a b} hab heq => ?_)
  rw [heq] at hab
  exact List.lt_irrefl _ hab

/-- No pair of a map is there twice. -/
theorem nodup_entries (m : KeyMap α) : m.entries.Nodup :=
  m.nodup_keys.of_map

/-- A map is determined by what its keys lead to. -/
theorem ext_find? {m n : KeyMap α} (h : ∀ k, m.find? k = n.find? k) : m = n := by
  have hmem : ∀ p, p ∈ m.entries ↔ p ∈ n.entries := by
    intro ⟨k, v⟩
    rw [mem_entries, mem_entries, h k]
  have hentries : m.entries = n.entries :=
    eq_of_mem_iff (fun _ _ hab hba => List.lt_asymm hab hba) m.sorted n.sorted hmem
  cases m
  cases n
  cases hentries
  rfl

-- ====================================================== maps of what counts

/-- The values that count, changed by `g`; keys whose value does not count
are left out. -/
def countWith {β : Type} (m : KeyMap α) (g : α → Option β) : KeyMap β where
  entries := m.entries.filterMap fun p => (g p.2).map fun b => (p.1, b)
  sorted := by
    refine List.pairwise_filterMap.mpr (m.sorted.imp fun {a a'} hlt b hb b' hb' => ?_)
    obtain ⟨w, -, rfl⟩ := Option.map_eq_some_iff.mp hb
    obtain ⟨w', -, rfl⟩ := Option.map_eq_some_iff.mp hb'
    exact hlt

/-- A key leads to what counts of its value. -/
theorem find?_countWith {β : Type} (m : KeyMap α) (g : α → Option β) (k : Bytes) :
    (m.countWith g).find? k = (m.find? k).bind g := by
  refine Option.ext fun w => ?_
  rw [← mem_entries, Option.bind_eq_some_iff]
  constructor
  · intro hmem
    obtain ⟨⟨l, a⟩, ha, heq⟩ := List.mem_filterMap.mp hmem
    obtain ⟨w', hw, heq⟩ := Option.map_eq_some_iff.mp heq
    cases heq
    exact ⟨a, mem_entries.mp ha, hw⟩
  · rintro ⟨a, ha, hw⟩
    refine List.mem_filterMap.mpr ⟨(k, a), mem_entries.mpr ha, ?_⟩
    rw [hw]
    rfl

/-- The first of what lies beyond that counts is the nearest of what
counts. -/
theorem nearest_findSome?_beyond {β : Type} (m : KeyMap α) (g : α → Option β) (b : Bound)
    (d : Direction) :
    Nearest (fun k => (m.find? k).bind g) b d
      ((m.beyond b d).findSome? fun p => (g p.2).map fun w => (p.1, w)) := by
  have hswap : ((m.countWith g).beyond b d)
      = (m.beyond b d).filterMap fun p => (g p.2).map fun w => (p.1, w) := by
    have harrange : d.arrange (m.countWith g).entries
        = (d.arrange m.entries).filterMap fun p => (g p.2).map fun w => (p.1, w) := by
      cases d with
      | forward => rfl
      | reverse => exact List.filterMap_reverse.symm
    unfold beyond
    rw [harrange, List.filter_filterMap, List.filterMap_filter]
    refine List.filterMap_congr fun p _ => ?_
    cases g p.2 with
    | none => simp
    | some w => by_cases hp : b.admits d p.1 = true <;> simp [hp]
  have hseek : (m.countWith g).seek b d
      = (m.beyond b d).findSome? fun p => (g p.2).map fun w => (p.1, w) := by
    rw [seek_eq_head?, hswap, List.head?_filterMap]
  rw [← hseek]
  exact (nearest_seek _ b d).congr fun k => find?_countWith m g k

/-- A key of a map lies between its lowest and its highest key. -/
theorem between_of_find? {m : KeyMap α} {k : Bytes} {a : α} (h : m.find? k = some a) :
    ∃ low high, m.minKey? = some low ∧ m.maxKey? = some high ∧ low ≤ k ∧ k ≤ high := by
  obtain ⟨xs, hs⟩ := m
  have hmem : (k, a) ∈ xs := mem_of_lookup h
  have hne : xs ≠ [] := List.ne_nil_of_mem hmem
  refine ⟨(xs.head hne).1, (xs.getLast hne).1, ?_, ?_, ?_, ?_⟩
  · show xs.head?.map Prod.fst = _
    rw [List.head?_eq_some_head hne]
    rfl
  · show xs.getLast?.map Prod.fst = _
    rw [List.getLast?_eq_some_getLast hne]
    rfl
  · obtain ⟨x, xs, rfl⟩ := List.exists_cons_of_ne_nil hne
    rcases List.mem_cons.mp hmem with rfl | hmem
    · exact List.le_refl _
    · exact List.le_of_lt ((List.pairwise_cons.mp hs).1 _ hmem)
  · rw [← List.dropLast_append_getLast hne] at hmem hs
    rcases List.mem_append.mp hmem with hmem | hmem
    · exact List.le_of_lt
        ((List.pairwise_append.mp hs).2.2 _ hmem _ (List.mem_singleton_self _))
    · rw [← List.mem_singleton.mp hmem]
      exact List.le_refl _

end KeyMap

end OrderedStore
