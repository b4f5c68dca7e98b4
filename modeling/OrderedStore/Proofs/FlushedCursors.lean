/-
Cursors of a transaction that is flushed while they are open.

A cursor stands between two rows: the pending entries that its bound
admits, and the pairs of the view it goes over that are behind the one it
stands on (`MergeCursor.viewRest`). What it has yet to yield is the one row
laid over the other (`MergeCursor.coming`, by `interleave`), wherever it
stands and however it came there; one step lemma says so for settling
(`Steady.settleOver_ok`), and `Upright.yields_eq` for all that is yielded.

A flush takes the first of the two rows away and leaves the other, since
the cursor goes on over the view it was opened on or last sent from. So
the cursor goes on with the rest of that view, as it was. This is what it
would have yielded without the flush exactly if each of the pending entries
it had yet to meet says of its key what the view says of it.
-/
import Mathlib
import OrderedStore.Proofs.LiveCursors

namespace OrderedStore

-- ================================================================= two rows

namespace Direction

variable {d : Direction} {es : List (Bytes × Entry)} {bs : List (Bytes × Bytes)}

/-- A row of entries laid over a row of pairs, both in the order they are
met: an entry stands for its value, or for nothing, instead of the pair of
its key. -/
def interleave (d : Direction) : List (Bytes × Entry) → List (Bytes × Bytes) →
    List (Bytes × Bytes)
  | [], bs => bs
  | (k, e) :: es, bs =>
    bs.filter (fun q => d.before q.1 k) ++ ((e.value?.map fun v => (k, v)).toList ++
      interleave d es (bs.filter fun q => d.before k q.1))

/-- The pair that is met before all entries comes first. -/
theorem interleave_viewFirst {k : Bytes} {e : Entry} {q : Bytes × Bytes}
    (h : d.before q.1 k = true) :
    d.interleave ((k, e) :: es) (q :: bs) = q :: d.interleave ((k, e) :: es) bs := by
  have hbehind : d.before k q.1 = false := before_asymm h
  simp only [interleave, List.filter_cons, h, hbehind, if_true, Bool.false_eq_true, if_false,
    List.cons_append]

/-- If no pair is met before the first entry, that has its turn. -/
theorem interleave_entryFirst {k : Bytes} {e : Entry}
    (h : ∀ q ∈ bs, d.before q.1 k = false) :
    d.interleave ((k, e) :: es) bs = (e.value?.map fun v => (k, v)).toList ++
      d.interleave es (bs.filter fun q => d.before k q.1) := by
  have hnone : bs.filter (fun q => d.before q.1 k) = [] :=
    List.filter_eq_nil_iff.mpr fun q hq => by rw [h q hq]; exact Bool.false_ne_true
  rw [interleave, hnone, List.nil_append]

/-- In a row in the order that is met every pair is found under its
key. -/
theorem lookup_of_met {α : Type} {xs : List (Bytes × α)} {k : Bytes} {v : α}
    (hxs : xs.Pairwise fun p q => d.before p.1 q.1 = true) (h : (k, v) ∈ xs) :
    xs.lookup k = some v := by
  refine lookup_of_nodup (List.pairwise_map.mpr (hxs.imp fun {p q} hpq heq => ?_)) h
  rw [heq, before_irrefl] at hpq
  cases hpq

/-- Behind a key there is no entry for it, or for a key that is met before
it. -/
theorem lookup_behind {k l : Bytes} (h : ∀ p ∈ es, d.before k p.1 = true)
    (hl : d.before k l = false) : es.lookup l = none := by
  cases hfound : es.lookup l with
  | none => rfl
  | some e =>
      have hbehind := h _ (mem_of_lookup hfound)
      rw [hl] at hbehind
      cases hbehind

/-- An entry decides about its key, and a pair whose key has no entry
stays. -/
theorem mem_interleave (hes : es.Pairwise fun p q => d.before p.1 q.1 = true)
    {q : Bytes × Bytes} : q ∈ d.interleave es bs ↔
      es.lookup q.1 = some (.value q.2) ∨ es.lookup q.1 = none ∧ q ∈ bs := by
  induction es generalizing bs with
  | nil =>
      rw [interleave, List.lookup_nil]
      simp
  | cons p es ih =>
      obtain ⟨k, e⟩ := p
      obtain ⟨l, v⟩ := q
      obtain ⟨hk, hes⟩ := List.pairwise_cons.mp hes
      have hnone : d.before k l = false → es.lookup l = none := lookup_behind hk
      have hvalue : (l, v) ∈ (e.value?.map fun v => (k, v)).toList ↔ l = k ∧ e = .value v := by
        cases e <;> simp [Entry.value?, eq_comm]
      rw [interleave, List.mem_append, List.mem_append, ih hes, hvalue, List.mem_filter,
        List.mem_filter, lookup_pair]
      by_cases hlk : l = k
      · subst hlk
        simp [before_irrefl, hnone (before_irrefl d l)]
      · rw [if_neg hlk]
        cases hbehind : d.before k l with
        | true => simp [hlk, before_asymm hbehind]
        | false =>
            have hbefore : d.before l k = true := by
              refine Bool.not_eq_false _ ▸ fun h => hlk (eq_of_not_before h hbehind)
            simp [hlk, hbefore, hnone hbehind]

/-- The keys are in order if those of both rows are. -/
theorem pairwise_interleave (hes : es.Pairwise fun p q => d.before p.1 q.1 = true)
    (hbs : bs.Pairwise fun p q => d.before p.1 q.1 = true) :
    (d.interleave es bs).Pairwise fun p q => d.before p.1 q.1 = true := by
  induction es generalizing bs with
  | nil => exact hbs
  | cons p es ih =>
      obtain ⟨k, e⟩ := p
      obtain ⟨hk, hes⟩ := List.pairwise_cons.mp hes
      have hbehind : ∀ q ∈ d.interleave es (bs.filter fun q => d.before k q.1),
          d.before k q.1 = true := by
        intro q hq
        rcases (mem_interleave hes).mp hq with hq | ⟨-, hq⟩
        · exact hk _ (mem_of_lookup hq)
        · exact (List.mem_filter.mp hq).2
      have hvalue : ∀ q ∈ (e.value?.map fun v => (k, v)).toList, q.1 = k := by
        cases e <;> simp [Entry.value?]
      have hrest : ((e.value?.map fun v => (k, v)).toList ++
          d.interleave es (bs.filter fun q => d.before k q.1)).Pairwise
          fun p q => d.before p.1 q.1 = true := by
        refine List.pairwise_append.mpr ⟨?_, ih hes (hbs.filter _), fun p hp q hq => ?_⟩
        · cases e.value? <;> simp
        · rw [hvalue p hp]
          exact hbehind q hq
      refine List.pairwise_append.mpr ⟨hbs.filter _, hrest, fun p hp q hq => ?_⟩
      have hp : d.before p.1 k = true := (List.mem_filter.mp hp).2
      rcases List.mem_append.mp hq with hq | hq
      · rw [hvalue q hq]
        exact hp
      · exact before_trans hp (hbehind q hq)

/-- Nothing changes exactly if every entry says of its key what the pairs
say of it. -/
theorem interleave_eq_iff (hes : es.Pairwise fun p q => d.before p.1 q.1 = true)
    (hbs : bs.Pairwise fun p q => d.before p.1 q.1 = true) :
    d.interleave es bs = bs ↔ ∀ p ∈ es, p.2.value? = bs.lookup p.1 := by
  constructor
  · rintro heq ⟨k, e⟩ hp
    have hk := lookup_of_met hes hp
    cases hfound : bs.lookup k with
    | some v =>
        have hmem := mem_of_lookup hfound
        rw [← heq, mem_interleave hes, hk] at hmem
        rcases hmem with hvalue | ⟨hnone, -⟩
        · cases hvalue
          rfl
        · cases hnone
    | none =>
        cases e with
        | tombstone => rfl
        | value v =>
            have hmem : (k, v) ∈ d.interleave es bs := (mem_interleave hes).mpr (Or.inl hk)
            rw [heq] at hmem
            rw [lookup_of_met hbs hmem] at hfound
            cases hfound
  · intro h
    refine eq_of_mem_iff (fun p q hpq hqp => ?_) (pairwise_interleave hes hbs) hbs fun q => ?_
    · rw [before_asymm hpq] at hqp
      cases hqp
    · rw [mem_interleave hes]
      constructor
      · rintro (hq | ⟨-, hq⟩)
        · exact mem_of_lookup (h _ (mem_of_lookup hq)).symm
        · exact hq
      · intro hq
        cases hk : es.lookup q.1 with
        | none => exact Or.inr ⟨rfl, hq⟩
        | some e =>
            have hvalue := h _ (mem_of_lookup hk)
            rw [lookup_of_met hbs hq] at hvalue
            cases e with
            | value v =>
                cases hvalue
                exact Or.inl rfl
            | tombstone => cases hvalue

end Direction

-- ============================================================ between the rows

/-- From a key of the map on lies its pair, and what is beyond it. -/
theorem KeyMap.beyond_included {m : KeyMap Bytes} {k v : Bytes} (h : m.find? k = some v)
    (d : Direction) : m.beyond (.included k) d = (k, v) :: m.beyond (.excluded k) d :=
  beyond_eq_cons ((m.nearest_seek (.included k) d).included_iff.mpr h)

namespace MergeCursor

variable {mem : Memory} {m : KeyMap Bytes} {p : Pending} {c : MergeCursor}

/-- The pairs of the view from the one on that its side stands on. -/
def baseRest (m : KeyMap Bytes) (c : MergeCursor) : List (Bytes × Bytes) :=
  match c.base.current with
  | none => []
  | some q => m.beyond (.included q.1) c.direction

/-- The pairs of the view behind the one that the cursor stands on. -/
def viewRest (m : KeyMap Bytes) (c : MergeCursor) : List (Bytes × Bytes) :=
  match c.standing with
  | .nowhere => []
  | .onView => (c.baseRest m).tail
  | .onPending _ _ => c.baseRest m

/-- What the cursor has yet to yield. -/
def coming (m : KeyMap Bytes) (p : Pending) (c : MergeCursor) : List (Bytes × Bytes) :=
  match c.standing with
  | .nowhere => []
  | _ => c.direction.interleave (p.beyond c.ahead c.direction) (c.viewRest m)

/-- The cursor goes over a view that is read as the map, and its side stands
on a pair of the map or nowhere. -/
structure Steady (mem : Memory) (m : KeyMap Bytes) (c : MergeCursor) : Prop where
  reads : c.base.view.Reads mem m
  base : ∀ q, c.base.current = some q → m.find? q.1 = some q.2

/-- And if the cursor stands on the view's pair there is one. -/
structure Upright (mem : Memory) (m : KeyMap Bytes) (c : MergeCursor) : Prop
    extends Steady mem m c where
  onView : c.standing = .onView → c.base.current.isSome = true

/-- A cursor whose view's side was moved is steady, and that side has before
it what is beyond the bound. -/
theorem steady_moved {w : View} (h : w.Reads mem m) (b : Bound) (d : Direction) (ahead : Bound)
    (standing : Standing) : Steady mem m ⟨⟨w, d, m.seek b d⟩, ahead, standing⟩ ∧
      baseRest m ⟨⟨w, d, m.seek b d⟩, ahead, standing⟩ = m.beyond b d := by
  have hnear := m.nearest_seek b d
  unfold baseRest
  cases hseek : m.seek b d with
  | none => exact ⟨⟨h, fun q hq => (nomatch hq)⟩, (KeyMap.beyond_eq_nil hseek).symm⟩
  | some q =>
      rw [hseek] at hnear
      refine ⟨⟨h, fun q' hq' => ?_⟩, ?_⟩
      · cases hq'
        exact hnear.1
      · rw [KeyMap.beyond_eq_cons hseek]
        exact KeyMap.beyond_included hnear.1 d

/-- The first of them is the one that the view's side stands on. -/
theorem Steady.baseRest_eq (h : c.Steady mem m) {q : Bytes × Bytes}
    (hq : c.base.current = some q) :
    c.baseRest m = q :: m.beyond (.excluded q.1) c.direction := by
  unfold baseRest
  rw [hq]
  exact KeyMap.beyond_included (h.base q hq) _

/-- A pending entry that has its turn leaves the view's side on the first
pair behind its key. -/
theorem Steady.consume_ok (h : c.Steady mem m) {k : Bytes} (hturn : c.viewFirst k = false) :
    ∃ base, c.consume mem k = .ok base ∧ base.direction = c.direction ∧
      (∀ q ∈ c.baseRest m, c.direction.before q.1 k = false) ∧
      ∀ ahead standing, Steady mem m ⟨base, ahead, standing⟩ ∧
        baseRest m ⟨base, ahead, standing⟩
          = (c.baseRest m).filter fun q => c.direction.before k q.1 := by
  unfold viewFirst at hturn
  unfold consume
  match hcur : c.base.current with
  | none =>
      have hnil : c.baseRest m = [] := by
        unfold baseRest
        rw [hcur]
      rw [hnil]
      refine ⟨c.base, rfl, rfl, fun q hq => (nomatch hq), fun ahead standing =>
        ⟨⟨h.reads, h.base⟩, hnil⟩⟩
  | some (l, v) =>
      have hturn : c.direction.before l k = false := by
        rw [hcur] at hturn
        exact hturn
      have hrest := h.baseRest_eq hcur
      have hbehind : ∀ q ∈ m.beyond (.excluded l) c.direction, c.direction.before l q.1 = true :=
        fun q hq => (Bound.admits_excluded _ _ _).symm.trans (KeyMap.mem_beyond.mp hq).2
      have hnone : ∀ q ∈ c.baseRest m, c.direction.before q.1 k = false := by
        rw [hrest]
        refine List.forall_mem_cons.mpr ⟨hturn, fun q hq => ?_⟩
        refine Bool.eq_false_iff.mpr fun hqk => ?_
        rw [Direction.before_trans (hbehind q hq) hqk] at hturn
        cases hturn
      by_cases hkl : k = l
      · -- the view's side goes on behind the key
        subst hkl
        have hnext : c.base.next mem
            = .ok { c.base with current := m.seek (.excluded k) c.direction } := by
          unfold StoreCursor.next
          rw [hcur]
          exact StoreCursor.moveTo_ok h.reads (.excluded k)
        refine ⟨_, (if_pos rfl).trans hnext, rfl, hnone, fun ahead standing => ?_⟩
        obtain ⟨hsteady, hmoved⟩ := steady_moved h.reads (.excluded k) c.direction ahead standing
        refine ⟨hsteady, hmoved.trans ?_⟩
        rw [hrest, List.filter_cons_of_neg (by simp [Direction.before_irrefl])]
        exact (List.filter_eq_self.mpr hbehind).symm
      · -- it stands behind the key already
        have hbefore : c.direction.before k l = true :=
          Bool.not_eq_false _ ▸ fun hno => hkl (Direction.eq_of_not_before hno hturn)
        refine ⟨c.base, if_neg hkl, rfl, hnone, fun ahead standing =>
          ⟨⟨h.reads, h.base⟩, (List.filter_eq_self.mpr ?_).symm⟩⟩
        show ∀ q ∈ c.baseRest m, c.direction.before k q.1 = true
        rw [hrest]
        exact List.forall_mem_cons.mpr
          ⟨hbefore, fun q hq => Direction.before_trans hbefore (hbehind q hq)⟩

/-- With no pending entry before it, the cursor settles on the view. -/
theorem Steady.onBase_ok (h : c.Steady mem m) (hahead : p.beyond c.ahead c.direction = []) :
    c.onBase.Upright mem m ∧ c.baseRest m = c.onBase.current.toList ++ c.onBase.coming m p := by
  refine ⟨⟨⟨h.reads, h.base⟩, ?_⟩, ?_⟩
  · unfold onBase
    cases c.base.current <;> simp
  · cases hcur : c.base.current with
    | none => simp only [baseRest, onBase, current, coming, hcur]; rfl
    | some q =>
        have hcurrent : c.onBase.current = some q := by simp [onBase, current, hcur]
        have hcoming : c.onBase.coming m p
            = c.direction.interleave (p.beyond c.ahead c.direction) (c.baseRest m).tail := by
          simp only [onBase, coming, hcur]
          rfl
        rw [hcurrent, hcoming, hahead, h.baseRest_eq hcur]
        rfl

/-- If the view's pair is met before the pending entries, the cursor settles
on it. -/
theorem Steady.viewFirst_ok (h : c.Steady mem m) {k : Bytes} {e : Entry}
    {es : List (Bytes × Entry)} (hahead : p.beyond c.ahead c.direction = (k, e) :: es)
    (hfirst : c.viewFirst k = true) :
    Upright mem m { c with standing := .onView } ∧
      c.direction.interleave ((k, e) :: es) (c.baseRest m)
        = (current { c with standing := .onView }).toList ++
          coming m p { c with standing := .onView } := by
  obtain ⟨q, hq, hbefore⟩ := viewFirst_iff.mp hfirst
  have hcurrent : current { c with standing := .onView } = some q := hq
  have hcoming : coming m p { c with standing := .onView }
      = c.direction.interleave (p.beyond c.ahead c.direction) (c.baseRest m).tail := rfl
  refine ⟨⟨⟨h.reads, h.base⟩, fun _ => Option.isSome_of_mem hq⟩, ?_⟩
  rw [hcurrent, hcoming, hahead, h.baseRest_eq hq, Direction.interleave_viewFirst hbefore]
  rfl

/-- Settling gives each row its turn until there is something to stand
on. -/
theorem Steady.settleOver_ok {es : List (Bytes × Entry)} (h : c.Steady mem m)
    (hahead : p.beyond c.ahead c.direction = es) :
    ∃ c', settleOver mem c es = .ok c' ∧ c'.Upright mem m ∧ c'.direction = c.direction ∧
      c.direction.interleave es (c.baseRest m) = c'.current.toList ++ c'.coming m p := by
  induction es generalizing c with
  | nil =>
      obtain ⟨hupright, hcoming⟩ := h.onBase_ok hahead
      exact ⟨c.onBase, rfl, hupright, rfl, hcoming⟩
  | cons entry es ih =>
      obtain ⟨k, e⟩ := entry
      have hseek : p.seek c.ahead c.direction = some (k, e) := by
        rw [KeyMap.seek_eq_head?, hahead]
        rfl
      rw [settleOver]
      cases hfirst : c.viewFirst k with
      | true =>
          obtain ⟨hupright, hcoming⟩ := h.viewFirst_ok hahead hfirst
          exact ⟨_, rfl, hupright, rfl, hcoming⟩
      | false =>
          obtain ⟨base, hconsume, hdirection, hnone, hbase⟩ := h.consume_ok hfirst
          have hrest : p.beyond (.excluded k) c.direction = es := by
            have hcons := KeyMap.beyond_eq_cons hseek
            rw [hahead] at hcons
            exact (List.cons.inj hcons).2.symm
          rw [if_neg Bool.false_ne_true, hconsume, Direction.interleave_entryFirst hnone]
          cases e with
          | value v =>
              obtain ⟨hsteady, hbaseRest⟩ := hbase (.excluded k) (.onPending k v)
              refine ⟨_, rfl, ⟨hsteady, fun hstand => by cases hstand⟩, hdirection, ?_⟩
              have hcoming : coming m p ⟨base, .excluded k, .onPending k v⟩
                  = base.direction.interleave (p.beyond (.excluded k) base.direction)
                    (baseRest m ⟨base, .excluded k, .onPending k v⟩) := rfl
              rw [hcoming, hdirection, hrest, hbaseRest]
              rfl
          | tombstone =>
              obtain ⟨hsteady, hbaseRest⟩ := hbase (.excluded k) c.standing
              have hahead' : p.beyond (.excluded k) base.direction = es := by
                rw [hdirection, hrest]
              obtain ⟨c', hsettle, hupright, hd, hcoming⟩ := ih hsteady hahead'
              refine ⟨c', hsettle, hupright, hd.trans hdirection, ?_⟩
              rw [← hcoming, hbaseRest]
              show _ = base.direction.interleave es _
              rw [hdirection]
              rfl

/-- A cursor settles on the first of what its rows have. -/
theorem Steady.settle_ok (h : c.Steady mem m) (p : Pending) :
    ∃ c', c.settle mem p = .ok c' ∧ c'.Upright mem m ∧ c'.direction = c.direction ∧
      c.direction.interleave (p.beyond c.ahead c.direction) (c.baseRest m)
        = c'.current.toList ++ c'.coming m p :=
  h.settleOver_ok rfl

/-- A cursor that stands nowhere has nothing more to yield. -/
theorem Upright.coming_of_none (h : c.Upright mem m) (hc : c.current = none) :
    c.coming m p = [] := by
  unfold current at hc
  unfold coming
  cases hstand : c.standing with
  | nowhere => rfl
  | onView =>
      rw [hstand] at hc
      have hsome := h.onView hstand
      rw [show c.base.current = none from hc] at hsome
      cases hsome
  | onPending k v =>
      rw [hstand] at hc
      cases hc

/-- A cursor is moved on to the first of what it has yet to yield. -/
theorem Upright.next_ok (h : c.Upright mem m) (p : Pending) :
    ∃ c', c.next mem p = .ok c' ∧ c'.Upright mem m ∧ c'.direction = c.direction ∧
      c.coming m p = c'.current.toList ++ c'.coming m p := by
  cases hstand : c.standing with
  | nowhere =>
      have hc : c.current = none := by
        unfold current
        rw [hstand]
      refine ⟨c, ?_, h, rfl, ?_⟩
      · unfold next
        rw [hstand]
      · rw [hc, h.coming_of_none hc]
        rfl
  | onPending k v =>
      have hmoved : c.next mem p = c.settle mem p := by
        unfold next
        rw [hstand]
      have hcoming : c.coming m p
          = c.direction.interleave (p.beyond c.ahead c.direction) (c.baseRest m) := by
        unfold coming viewRest
        rw [hstand]
      rw [hmoved, hcoming]
      exact h.toSteady.settle_ok p
  | onView =>
      obtain ⟨q, hq⟩ := Option.isSome_iff_exists.mp (h.onView hstand)
      have hmoved : c.next mem p = settle mem p
          { c with base := { c.base with current := m.seek (.excluded q.1) c.direction } } := by
        have hnext : c.base.next mem
            = .ok { c.base with current := m.seek (.excluded q.1) c.direction } := by
          unfold StoreCursor.next
          rw [hq]
          exact StoreCursor.moveTo_ok h.reads (.excluded q.1)
        unfold next
        rw [hstand, hnext]
      have hcoming : c.coming m p = c.direction.interleave (p.beyond c.ahead c.direction)
          (m.beyond (.excluded q.1) c.direction) := by
        unfold coming viewRest
        rw [hstand, h.baseRest_eq hq]
        rfl
      obtain ⟨hsteady, hrest⟩ :=
        steady_moved h.reads (.excluded q.1) c.direction c.ahead c.standing
      obtain ⟨c', hsettle, hupright, hd, hrows⟩ := hsteady.settle_ok p
      rw [hrest] at hrows
      rw [hmoved, hcoming]
      exact ⟨c', hsettle, hupright, hd, hrows⟩

/-- The pairs that `n` moves come to. -/
def yields (mem : Memory) (p : Pending) : Nat → MergeCursor →
    Except Failure (List (Bytes × Bytes))
  | 0, _ => .ok []
  | n + 1, c => do
    let c ← c.next mem p
    return c.current.toList ++ (← yields mem p n c)

/-- They are the first of what the cursor has yet to yield. -/
theorem Upright.yields_eq (h : c.Upright mem m) (p : Pending) (n : Nat) :
    yields mem p n c = .ok ((c.coming m p).take n) := by
  induction n generalizing c with
  | zero => rfl
  | succ n ih =>
      obtain ⟨c', hnext, hupright, -, hcoming⟩ := h.next_ok p
      rw [yields, hnext, ok_bind, ih hupright, ok_bind, hcoming]
      cases hc : c'.current with
      | none =>
          rw [hupright.coming_of_none hc, List.take_nil, List.append_nil, Option.toList_none,
            List.take_nil]
          rfl
      | some q => rfl

/-- The rest of the view is in the order that is met. -/
theorem pairwise_viewRest (m : KeyMap Bytes) (c : MergeCursor) :
    (c.viewRest m).Pairwise fun p q => c.direction.before p.1 q.1 = true := by
  have hbase : (c.baseRest m).Pairwise fun p q => c.direction.before p.1 q.1 = true := by
    unfold baseRest
    cases c.base.current with
    | none => exact List.Pairwise.nil
    | some q => exact m.pairwise_beyond _ _
  unfold viewRest
  cases c.standing with
  | nowhere => exact List.Pairwise.nil
  | onView => exact hbase.tail
  | onPending k v => exact hbase

/-- With nothing pending that is the rest of the view. -/
theorem coming_empty (m : KeyMap Bytes) (c : MergeCursor) :
    c.coming m KeyMap.empty = c.viewRest m := by
  have hnone : (KeyMap.empty : Pending).beyond c.ahead c.direction = [] := by
    cases c.direction <;> rfl
  unfold coming
  cases hstand : c.standing with
  | nowhere =>
      unfold viewRest
      rw [hstand]
  | onView => rw [hnone, Direction.interleave]
  | onPending k v => rw [hnone, Direction.interleave]

/-- Every pending entry that the cursor has yet to meet says of its key what
the rest of the view says of it. -/
def Agrees (m : KeyMap Bytes) (p : Pending) (c : MergeCursor) : Prop :=
  ∀ k e, p.find? k = some e → c.ahead.admits c.direction k = true →
    e.value? = (c.viewRest m).lookup k

/-- The pending entries change nothing exactly if they agree with the view,
or the cursor stands nowhere. -/
theorem Upright.coming_eq_iff (h : c.Upright mem m) :
    c.viewRest m = c.coming m p ↔ (c.current ≠ none → c.Agrees m p) := by
  have hrows : c.direction.interleave (p.beyond c.ahead c.direction) (c.viewRest m)
      = c.viewRest m ↔ c.Agrees m p := by
    rw [Direction.interleave_eq_iff (p.pairwise_beyond _ _) (pairwise_viewRest m c)]
    constructor
    · intro hall k e hk hadm
      exact hall (k, e) (KeyMap.mem_beyond.mpr ⟨hk, hadm⟩)
    · rintro hagrees ⟨k, e⟩ hmem
      obtain ⟨hk, hadm⟩ := KeyMap.mem_beyond.mp hmem
      exact hagrees k e hk hadm
  rw [eq_comm]
  cases hc : c.current with
  | none =>
      refine iff_of_true ?_ fun hno => absurd rfl hno
      rw [h.coming_of_none hc, ← coming_empty, h.coming_of_none hc]
  | some q =>
      have hcoming : c.coming m p
          = c.direction.interleave (p.beyond c.ahead c.direction) (c.viewRest m) := by
        unfold current at hc
        unfold coming
        cases hstand : c.standing with
        | nowhere =>
            rw [hstand] at hc
            cases hc
        | onView => rfl
        | onPending k v => rfl
      rw [hcoming, hrows]
      exact ⟨fun hagrees _ => hagrees, fun hagrees => hagrees (Option.some_ne_none q)⟩

end MergeCursor

-- ====================================================== while a cursor is open

/-- What happens while a cursor of a transaction is open: it is moved, with
what is pending at that time, or something is asked of the store. -/
inductive OpenStep where
  | move (way : CursorMove) (pending : Pending)
  | ask (r : Request)

namespace OpenStep

/-- What is asked of the store. -/
def request? : OpenStep → Option Request
  | move _ _ => none
  | ask r => some r

end OpenStep

namespace MergeCursor

/-- The cursor moved, where `latest` is the latest view. -/
def moved (mem : Memory) (p : Pending) (latest : View) (c : MergeCursor) :
    CursorMove → Except Failure MergeCursor
  | .rewind => c.rewind mem p latest
  | .seek target => c.seek mem p latest target
  | .next => c.next mem p

/-- The cursor after what happens while it is open. -/
def held (dir : Path) : Store → MergeCursor → List OpenStep → Except Failure MergeCursor
  | _, c, [] => .ok c
  | s, c, .move way p :: steps => do
    held dir s (← c.moved s.toMemory p s.engine.view way) steps
  | s, c, .ask r :: steps => held dir (r.next dir s) c steps

/-- A cursor that is open on a store: it is upright, and the store keeps what
its view holds. -/
structure OpenOn (s : Store) (m : KeyMap Bytes) (c : MergeCursor) : Prop
    extends Upright s.toMemory m c where
  pinned : ∃ f, s.Pins c.base.view f ∧ ∀ k, (f k).bind Entry.value? = m.find? k

variable {dir : Path} {spare : Nat} {s s' : Store} {ops : List Operation} {ids : List UInt64}
  {m : KeyMap Bytes} {c : MergeCursor}

/-- It stays open on a store that keeps its views. -/
theorem OpenOn.later (h : OpenOn s m c) (hs : s'.Sound dir spare ops ids) (hkeeps : s.Keeps s') :
    OpenOn s' m c := by
  obtain ⟨f, hpins, hf⟩ := h.pinned
  have hpins' := hkeeps _ f hpins
  exact ⟨⟨⟨hpins'.reads hs hf, h.base⟩, h.onView⟩, f, hpins', hf⟩

/-- A cursor that settles over the latest view is open on the store. -/
theorem settle_latest (hs : s.Sound dir spare ops ids) (p : Pending) (b : Bound) (d : Direction)
    (ahead : Bound) (standing : Standing) :
    ∃ c, settle s.toMemory p
        ⟨⟨s.engine.view, d, (contents ops).seek b d⟩, ahead, standing⟩ = .ok c ∧
      OpenOn s (contents ops) c ∧ c.direction = d := by
  obtain ⟨hsteady, -⟩ := steady_moved hs.reads b d ahead standing
  obtain ⟨c, hsettle, hupright, hd, -⟩ := hsteady.settle_ok p
  have hview : c.base.view = s.engine.view := settleOver_view hsettle
  refine ⟨c, hsettle, ⟨hupright, _, ?_, fun k => (find?_contents ops k).symm⟩, hd⟩
  rw [hview]
  exact hs.pins

/-- A cursor that is moved is open on the store, on the same view or on the
latest. -/
theorem OpenOn.moved_ok (h : OpenOn s m c) (hs : s.Sound dir spare ops ids) (p : Pending)
    (way : CursorMove) :
    ∃ c' m', c.moved s.toMemory p s.engine.view way = .ok c' ∧ OpenOn s m' c' ∧
      c'.direction = c.direction := by
  cases way with
  | next =>
      obtain ⟨c', hnext, hupright, hd, -⟩ := h.toUpright.next_ok p
      obtain ⟨f, hpins, hf⟩ := h.pinned
      refine ⟨c', m, hnext, ⟨hupright, f, ?_, hf⟩, hd⟩
      rw [next_view hnext]
      exact hpins
  | seek target =>
      obtain ⟨c', hsettle, hopen, hd⟩ := settle_latest hs p (.included target) c.direction
        (.included target) c.standing
      exact ⟨c', _, (seek_settles hs.reads p c target).trans hsettle, hopen, hd⟩
  | rewind =>
      obtain ⟨c', hsettle, hopen, hd⟩ := settle_latest hs p .unbounded c.direction .unbounded
        c.standing
      have hbase : (StoreCursor.start s.engine.view c.direction).rewind s.toMemory
          = .ok ⟨s.engine.view, c.direction, (contents ops).seek .unbounded c.direction⟩ :=
        StoreCursor.moveTo_ok hs.reads .unbounded
      refine ⟨c', _, ?_, hopen, hd⟩
      show c.rewind s.toMemory p s.engine.view = _
      unfold rewind
      rw [hbase]
      exact hsettle

/-- Whatever happens while a cursor is open, it is open in the end. -/
theorem OpenOn.held_ok (h : OpenOn s m c) (hs : s.Sound dir 1 ops ids) (steps : List OpenStep)
    (hno : ∀ r ∈ steps.filterMap OpenStep.request?, r.reopens = false)
    (htotal : Operation.logged (ops ++ s.trace dir (steps.filterMap OpenStep.request?))
      < UInt64.size) :
    ∃ c' m' ids', c.held dir s steps = .ok c' ∧ c'.direction = c.direction ∧
      (s.after dir (steps.filterMap OpenStep.request?)).Sound dir 1
        (ops ++ s.trace dir (steps.filterMap OpenStep.request?)) ids' ∧
      OpenOn (s.after dir (steps.filterMap OpenStep.request?)) m' c' := by
  induction steps generalizing s ops ids m c with
  | nil =>
      refine ⟨c, m, ids, rfl, rfl, ?_, h⟩
      rw [List.filterMap_nil, Store.trace, List.append_nil]
      exact hs
  | cons step steps ih =>
      cases step with
      | move way p =>
          obtain ⟨c₁, m₁, hmoved, hopen, hd⟩ := h.moved_ok hs p way
          obtain ⟨c', m', ids', hheld, hd', hsound, hopen'⟩ := ih hopen hs hno htotal
          refine ⟨c', m', ids', ?_, hd'.trans hd, hsound, hopen'⟩
          rw [held, hmoved, ok_bind]
          exact hheld
      | ask r =>
          have hrequests : (OpenStep.ask r :: steps).filterMap OpenStep.request?
              = r :: steps.filterMap OpenStep.request? := rfl
          rw [hrequests, Store.trace, ← List.append_assoc] at htotal ⊢
          rw [hrequests] at hno
          have hreopens := hno r List.mem_cons_self
          have hfirst : Operation.logged (ops ++ r.logs s) < UInt64.size := by
            rw [Operation.logged_append] at htotal
            omega
          obtain ⟨-, ⟨ids₁, hsound₁⟩, hkeeps⟩ := hs.request r
            (fun hyes => by rw [hreopens] at hyes; cases hyes) hfirst (Store.room_of_logged hfirst)
          exact ih (h.later hsound₁ (hkeeps hreopens)) hsound₁
            (fun r' hr' => hno r' (List.mem_cons_of_mem _ hr')) htotal

end MergeCursor

-- ================================================================= flushing

namespace Transaction

open MergeCursor

variable {ν : Type} {t : Transaction ν} {dir : Path} {s s' : Store} {ops : List Operation}
  {ids : List UInt64} {m : KeyMap Bytes} {c : MergeCursor}

/-- What a flush of the transaction asks of the store. -/
def flushing (t : Transaction ν) : Request :=
  .writeBatch (t.pending.entries.map operation)

/-- What a flush of the transaction does to an open cursor. The cursor goes
on over the view it had, which reads as before. It would have yielded that
with the pending entries laid over it, and yields it bare; that is the same
exactly if the entries it had yet to meet agree with the view, or it stands
nowhere. -/
structure FlushTold (t : Transaction ν) (s s' : Store) (m : KeyMap Bytes) (c : MergeCursor) :
    Prop where
  flushed : t.flush s = .ok { t with pending := KeyMap.empty, mutations := 0 } s'
  pinned : c.base.view.Reads s.toMemory m ∧ c.base.view.Reads s'.toMemory m
  without : ∀ n, yields s.toMemory t.pending n c = .ok ((c.coming m t.pending).take n)
  behind : ∀ n, yields s'.toMemory KeyMap.empty n c = .ok ((c.viewRest m).take n)
  unseen_iff : (∀ n, yields s'.toMemory KeyMap.empty n c = yields s.toMemory t.pending n c) ↔
    (c.current ≠ none → c.Agrees m t.pending)

/-- A flush is carried out if what it writes can be logged. -/
theorem flush_ok (hs : s.Sound dir 1 ops ids)
    (hloggable : ∀ op, t.flushing.asks s = some op → op.Loggable)
    (htotal : Operation.logged (ops ++ t.flushing.logs s) < UInt64.size) :
    t.flush s = .ok { t with pending := KeyMap.empty, mutations := 0 } (t.flushing.next dir s) ∧
      s.Keeps (t.flushing.next dir s) ∧
      ∃ ids', (t.flushing.next dir s).Sound dir 1 (ops ++ t.flushing.logs s) ids' := by
  obtain ⟨hanswered, hsound, hkeeps⟩ := hs.request t.flushing (fun hno => nomatch hno) htotal
    (Store.room_of_logged htotal)
  refine ⟨?_, hkeeps rfl, hsound⟩
  cases hanswered with
  | done h =>
      have hbatch : Database.writeBatch (t.pending.entries.map operation) s
          = .ok () (t.flushing.next dir s) := by
        show StoreM.orFatal _ s = _
        unfold StoreM.orFatal
        rw [show Store.writeBatch (t.pending.entries.map operation) s = _ from h]
      unfold flush
      rw [bind_ok hbatch]
      rfl
  | tooLarge hask hop h => exact absurd (hloggable _ hask) hop
  | declined hask hno h => cases hask

/-- What a flush does to a cursor that is open. -/
theorem flushTold (h : OpenOn s m c) (hs : s.Sound dir 1 ops ids)
    (hloggable : ∀ op, t.flushing.asks s = some op → op.Loggable)
    (htotal : Operation.logged (ops ++ t.flushing.logs s) < UInt64.size) :
    t.FlushTold s (t.flushing.next dir s) m c := by
  obtain ⟨hflush, hkeeps, ids', hs'⟩ := flush_ok hs hloggable htotal
  have h' := h.later hs' hkeeps
  have hwithout := fun n => h.toUpright.yields_eq t.pending n
  have hbehind : ∀ n, yields (t.flushing.next dir s).toMemory KeyMap.empty n c
      = .ok ((c.viewRest m).take n) := by
    intro n
    rw [h'.toUpright.yields_eq, coming_empty]
  refine ⟨hflush, ⟨h.reads, h'.reads⟩, hwithout, hbehind, ?_⟩
  rw [← h.toUpright.coming_eq_iff]
  constructor
  · intro hall
    have hlong := hall ((c.viewRest m).length + (c.coming m t.pending).length)
    rw [hwithout, hbehind, Except.ok.injEq, List.take_of_length_le (Nat.le_add_right _ _),
      List.take_of_length_le (Nat.le_add_left _ _)] at hlong
    exact hlong
  · intro heq n
    rw [hwithout, hbehind, heq]

end Transaction

namespace Store

open Engine MergeCursor

variable {dir : Path} {v : Volume} {ν : Type}

/-- What a flush does to the open cursors of a transaction. After every run
of a store a cursor can be opened, whatever is pending; and after whatever
happens while it is open, moves with anything pending and requests to the
store, a flush that can be logged takes from it the pending entries that it
had yet to meet, and nothing else. -/
theorem flush_leaves_view (hv : Vacant v dir) (settings : Settings) (clock : UInt64) :
    ∃ e v', openAt settings dir clock v = .ok e v' ∧
      ∀ (reqs : List Request) (p : Pending) (d : Direction) (steps : List OpenStep)
        (t : Transaction ν),
        let asked := steps.filterMap OpenStep.request?
        let s₀ := (opened v' e).after dir reqs
        let s := s₀.after dir asked
        (∀ op ∈ (opened v' e).trace dir reqs, op.Fits) →
        (∀ r ∈ asked, r.reopens = false) →
        (∀ op, t.flushing.asks s = some op → op.Loggable) →
        Operation.logged ((opened v' e).trace dir (reqs ++ asked ++ [t.flushing])) < UInt64.size →
        ∃ c₀ c m, (ReadView.overlay p s₀.engine.view).cursor s₀.toMemory d = .ok (.merge c₀) ∧
          c₀.held dir s₀ steps = .ok c ∧ c.direction = d ∧
          t.FlushTold s (t.flushing.next dir s) m c := by
  obtain ⟨e, v', ids, hopen, hsound⟩ := hv.openAt_ok settings clock
  refine ⟨e, v', hopen, fun reqs p d steps t => ?_⟩
  intro asked s₀ s hfits hno hloggable htotal
  have hsplit : (opened v' e).trace dir (reqs ++ asked ++ [t.flushing])
      = (opened v' e).trace dir reqs ++ s₀.trace dir asked ++ t.flushing.logs s := by
    rw [trace_append, trace_append, after_append]
    show _ ++ (t.flushing.logs s ++ []) = _
    rw [List.append_nil]
  rw [hsplit] at htotal
  have htotalAsked : Operation.logged ((opened v' e).trace dir reqs ++ s₀.trace dir asked)
      < UInt64.size := by
    rw [Operation.logged_append] at htotal
    omega
  have htotalReqs : Operation.logged ((opened v' e).trace dir reqs) < UInt64.size := by
    rw [Operation.logged_append] at htotalAsked
    omega
  obtain ⟨-, ⟨ids₀, hs₀⟩, -⟩ :=
    hsound.after reqs (fun _ => hfits) htotalReqs (room_of_logged htotalReqs)
  obtain ⟨c₀, hsettle, hopen₀, hd₀⟩ := settle_latest hs₀ p .unbounded d .unbounded .nowhere
  obtain ⟨c, m, ids', hheld, hd, hs, hopened⟩ := hopen₀.held_ok hs₀ steps hno htotalAsked
  refine ⟨c₀, c, m, ?_, hheld, hd.trans hd₀, Transaction.flushTold hopened hs hloggable htotal⟩
  rw [cursor_overlay hs₀.reads, hsettle]
  rfl

/-- A cursor is moved over a pending key, something is written and flushed
beside it, and it is sent back over the view of then, where it stands on a
pending pair. -/
def sampleSteps : List OpenStep :=
  [.move .next (KeyMap.empty.insert [3] (.value [1])), .ask (.put [5] [6]), .ask .flush,
    .move (.seek [3]) (KeyMap.empty.insert [3] (.value [2])), .ask (.delete [4])]

/-- A transaction that lays a key between those that are left, and deletes
one of them. -/
def layingTransaction : Transaction Unit :=
  (Transaction.empty.put [3] [0]).delete [4]

/-- What the two keys log, on any store. -/
theorem trace_twoKeys (s : Store) :
    s.trace dir twoKeys = [.put [2] [0], .put [4] [0]] := rfl

/-- What its flush logs. -/
theorem logs_layingTransaction (s : Store) :
    layingTransaction.flushing.logs s = [.batch [.put [3] [0], .delete [4]]] := rfl

/-- What is logged up to its flush behind the sample steps. -/
theorem trace_sampleSteps (s : Store) :
    s.trace dir (twoKeys ++ sampleSteps.filterMap OpenStep.request? ++ [layingTransaction.flushing])
      = [.put [2] [0], .put [4] [0], .put [5] [6], .delete [4],
        .batch [.put [3] [0], .delete [4]]] := rfl

/-- It is flushed behind the sample steps. -/
theorem flush_leaves_view_sampleSteps :
    ∃ e v', openAt Settings.standard ["db"] 0 Volume.empty = .ok e v' ∧
      let s₀ := (opened v' e).after ["db"] twoKeys
      let s := s₀.after ["db"] (sampleSteps.filterMap OpenStep.request?)
      ∃ c₀ c m, (ReadView.overlay KeyMap.empty s₀.engine.view).cursor s₀.toMemory .forward
            = .ok (.merge c₀) ∧
        c₀.held ["db"] s₀ sampleSteps = .ok c ∧
        layingTransaction.FlushTold s (layingTransaction.flushing.next ["db"] s) m c := by
  obtain ⟨e, v', hopen, hruns⟩ :=
    flush_leaves_view (ν := Unit) (vacant_empty ["db"]) Settings.standard 0
  obtain ⟨c₀, c, m, hcursor, hheld, -, htold⟩ := hruns twoKeys KeyMap.empty .forward sampleSteps
    layingTransaction
    (by rw [trace_twoKeys]; decide) (by decide) (fun op hop => by cases hop; decide)
    (by rw [trace_sampleSteps]; decide)
  exact ⟨e, v', hopen, c₀, c, m, hcursor, hheld, htold⟩

/-- A cursor on the first of two keys, a value put between them, and the
second deleted: the cursor comes to the value and to nothing more, but if
the transaction is flushed, to the key that was deleted. -/
theorem flush_seen :
    ∃ e v', openAt Settings.standard ["db"] 0 Volume.empty = .ok e v' ∧
      let s := (opened v' e).after ["db"] twoKeys
      ∃ c s', (ReadView.overlay KeyMap.empty s.engine.view).cursor s.toMemory .forward
            = .ok (.merge c) ∧
        layingTransaction.flush s
            = .ok { layingTransaction with pending := KeyMap.empty, mutations := 0 } s' ∧
        yields s.toMemory layingTransaction.pending 2 c = .ok [([3], [0])] ∧
        yields s'.toMemory KeyMap.empty 2 c = .ok [([4], [0])] := by
  obtain ⟨e, v', ids, hopen, hsound⟩ := (vacant_empty ["db"]).openAt_ok Settings.standard 0
  have htotal : Operation.logged ((opened v' e).trace ["db"] twoKeys) < UInt64.size := by
    rw [trace_twoKeys]
    decide
  obtain ⟨-, ⟨ids', hs⟩, -⟩ := hsound.after twoKeys (fun _ => by rw [trace_twoKeys]; decide)
    htotal (room_of_logged htotal)
  refine ⟨e, v', hopen, ?_⟩
  generalize (opened v' e).after ["db"] twoKeys = s at hs
  rw [trace_twoKeys] at hs
  -- the cursor stands on the view's pair
  have hcursor := cursor_overlay hs.reads KeyMap.empty .forward
  have hopened : OpenOn s _ ⟨⟨s.engine.view, .forward, some ([2], [0])⟩, .unbounded, .onView⟩ :=
    ⟨⟨⟨hs.reads, fun q hq => by cases hq; rfl⟩, fun _ => rfl⟩, _, hs.pins,
      fun k => (find?_contents _ k).symm⟩
  have htold := Transaction.flushTold (t := layingTransaction) hopened hs
    (fun op hop => by cases hop; decide) (by rw [logs_layingTransaction]; decide)
  exact ⟨_, _, hcursor, htold.flushed, htold.without 2, htold.behind 2⟩

end Store

end OrderedStore
