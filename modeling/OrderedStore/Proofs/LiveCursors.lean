/-
Cursors of a transaction that is written to while they are open.

A cursor reads what is pending anew at every step, from the bound up to
which it has used pending entries up. It stands on the view's pair, or on
a pending one with the view's pair behind it (`MergeCursor.Stands`), and no
write changes that. What a write can change is what the bound admits: as
long as no pending value that it admits is at the cursor's key or behind it
(`MergeCursor.Clear`), the next key is further on, and if there is one, the
next key is not (`Stands.next_ok`).

A pending pair takes the bound along to its own key, so while the cursor
stands on one it is clear whatever is written. On a pair of the view the
bound may lag: a value that is written there, behind the cursor or under
it, has its turn again (`live_goes_back`). Deletions never matter, and
values that are written ahead of the cursor keep it clear, so with such
writes the keys it comes to are strictly in order.
-/
import Mathlib
import OrderedStore.Proofs.CursorWalks

namespace OrderedStore

-- ================================================================ settling

namespace MergeCursor

variable {mem : Memory} {m : KeyMap Bytes} {p : Pending} {c c' : MergeCursor} {b : Bound}

/-- Nothing that can have its turn lies before the bound: not the view's
pair, and no pending value that is admitted. The view is read as the map. -/
structure Fore (mem : Memory) (m : KeyMap Bytes) (p : Pending) (c : MergeCursor) (b : Bound) :
    Prop where
  reads : c.base.view.Reads mem m
  base : ∀ q, c.base.current = some q → b.admits c.direction q.1 = true
  pending : ∀ l w, p.find? l = some (.value w) → c.ahead.admits c.direction l = true →
    b.admits c.direction l = true

/-- The cursor stands on the key: on the view's pair, or on a pending one
that was used up, with the view's pair behind it. -/
inductive Stands (mem : Memory) (m : KeyMap Bytes) (c : MergeCursor) (k : Bytes) : Prop where
  | onView (hstand : c.standing = .onView) (hreads : c.base.view.Reads mem m)
  | onPending {v : Bytes} (hstand : c.standing = .onPending k v) (hahead : c.ahead = .excluded k)
      (hreads : c.base.view.Reads mem m)
      (hbase : ∀ q, c.base.current = some q → c.direction.before k q.1 = true)

/-- The cursor stands on its pair, or nowhere. -/
structure Rests (mem : Memory) (m : KeyMap Bytes) (c : MergeCursor) : Prop where
  stands : ∀ q, c.current = some q → c.Stands mem m q.1
  nowhere : c.current = none → c.standing = .nowhere

/-- No pending value that the bound admits is at the cursor's key or behind
it. -/
def Clear (p : Pending) (c : MergeCursor) : Prop :=
  ∀ q, c.current = some q → ∀ l w, p.find? l = some (.value w) →
    c.ahead.admits c.direction l = true → c.direction.before q.1 l = true

/-- What settling comes to: it rests, clear of pending values, on no key
that the bound excludes, and before none of the values it had before it. -/
structure Settling (mem : Memory) (m : KeyMap Bytes) (p : Pending) (c : MergeCursor) (b : Bound)
    (c' : MergeCursor) : Prop where
  direction : c'.direction = c.direction
  rests : c'.Rests mem m
  clear : c'.Clear p
  admits : ∀ q, c'.current = some q → b.admits c.direction q.1 = true
  first : ∀ l w, p.find? l = some (.value w) → c.ahead.admits c.direction l = true →
    ∃ q, c'.current = some q ∧ c.direction.before l q.1 = false

variable {k : Bytes}

/-- A cursor on the view is moved to a pair behind a key. -/
theorem next_base (hreads : c.base.view.Reads mem m) {q : Bytes × Bytes}
    (hbase : c.base.current = some q) :
    ∃ base, c.base.next mem = .ok base ∧ base.view = c.base.view ∧
      base.direction = c.base.direction ∧
      ∀ r, base.current = some r → c.direction.before q.1 r.1 = true := by
  refine ⟨{ c.base with current := m.seek (.excluded q.1) c.direction }, ?_, rfl, rfl,
    fun r hr => ?_⟩
  · unfold StoreCursor.next
    rw [hbase]
    exact StoreCursor.moveTo_ok hreads (.excluded q.1)
  · have hr' : m.seek (.excluded q.1) c.direction = some r := hr
    have hnear := m.nearest_seek (.excluded q.1) c.direction
    rw [hr'] at hnear
    rw [← Bound.admits_excluded]
    exact hnear.2.1

/-- A pending entry that has its turn leaves the view's pair behind the
entry's key, and not before the bound. -/
theorem Fore.consume_ok (h : c.Fore mem m p b) (hturn : c.viewFirst k = false) :
    ∃ base, c.consume mem k = .ok base ∧ base.view = c.base.view ∧
      base.direction = c.base.direction ∧
      ∀ q, base.current = some q →
        c.direction.before k q.1 = true ∧ b.admits c.direction q.1 = true := by
  unfold consume
  unfold viewFirst at hturn
  match hbase : c.base.current with
  | none => exact ⟨c.base, rfl, rfl, rfl, fun q hq => by rw [hbase] at hq; cases hq⟩
  | some (l, v) =>
      rw [hbase] at hturn
      have hadmits : b.admits c.direction l = true := h.base (l, v) hbase
      by_cases hkl : k = l
      · subst hkl
        obtain ⟨base, hnext, hview, hdirection, hbehind⟩ := next_base h.reads hbase
        refine ⟨base, ?_, hview, hdirection, fun q hq => ?_⟩
        · rw [← hnext]
          exact if_pos rfl
        · exact ⟨hbehind q hq, Bound.admits_of_before hadmits (hbehind q hq)⟩
      · refine ⟨c.base, if_neg hkl, rfl, rfl, fun q hq => ?_⟩
        rw [hbase] at hq
        cases hq
        refine ⟨?_, hadmits⟩
        cases hbefore : c.direction.before k l with
        | true => rfl
        | false => exact absurd (Direction.eq_of_not_before hbefore hturn) hkl

/-- With no pending entry before it, the cursor settles on the view. -/
theorem Fore.onBase_settling (h : c.Fore mem m p b)
    (hahead : p.beyond c.ahead c.direction = []) : Settling mem m p c b c.onBase := by
  -- no pending entry is admitted
  have hnone : ∀ l w, p.find? l = some (.value w) → c.ahead.admits c.direction l ≠ true := by
    intro l w hl hadmits
    have hmem := KeyMap.mem_beyond.mpr ⟨hl, hadmits⟩
    rw [hahead] at hmem
    cases hmem
  have hcurrent : c.onBase.current = c.base.current := by
    unfold onBase current
    cases c.base.current <;> simp
  refine ⟨rfl, ⟨fun q hq => Stands.onView ?_ h.reads, fun hq => ?_⟩,
    fun q _ l w hl hadmits => absurd hadmits (hnone l w hl), fun q hq => ?_,
    fun l w hl hadmits => absurd hadmits (hnone l w hl)⟩
  · rw [hcurrent] at hq
    simp [onBase, hq]
  · rw [hcurrent] at hq
    simp [onBase, hq]
  · rw [hcurrent] at hq
    exact h.base q hq

/-- If the view's pair is met before all pending entries, the cursor
settles on it. -/
theorem Fore.viewFirst_settling (h : c.Fore mem m p b) {e : Entry}
    (hseek : p.seek c.ahead c.direction = some (k, e)) (hfirst : c.viewFirst k = true) :
    Settling mem m p c b { c with standing := .onView } := by
  obtain ⟨r, hbase, hbefore⟩ := viewFirst_iff.mp hfirst
  have hnear := p.nearest_seek c.ahead c.direction
  rw [hseek] at hnear
  obtain ⟨-, -, hmin⟩ := hnear
  have hbehind : ∀ l w, p.find? l = some (.value w) → c.ahead.admits c.direction l = true →
      c.direction.before r.1 l = true := by
    intro l w hl hadmits
    cases hlk : c.direction.before l k with
    | true =>
        rw [hmin l hadmits hlk] at hl
        cases hl
    | false => exact Direction.before_of_before_of_not hbefore hlk
  refine ⟨rfl, ⟨fun q _ => Stands.onView rfl h.reads, fun hq => ?_⟩,
    fun q hq l w hl hadmits => ?_, fun q hq => h.base q hq, fun l w hl hadmits => ?_⟩
  · rw [show c.base.current = none from hq] at hbase
    cases hbase
  · rw [show c.base.current = some q from hq] at hbase
    cases hbase
    exact hbehind l w hl hadmits
  · exact ⟨r, hbase, Direction.before_asymm (hbehind l w hl hadmits)⟩

/-- A pending value that has its turn is what the cursor settles on. -/
theorem Fore.value_settling (h : c.Fore mem m p b) {v : Bytes} {base : StoreCursor}
    (hseek : p.seek c.ahead c.direction = some (k, .value v))
    (hview : base.view = c.base.view) (hdirection : base.direction = c.base.direction)
    (hbase : ∀ q, base.current = some q → c.direction.before k q.1 = true) :
    Settling mem m p c b ⟨base, .excluded k, .onPending k v⟩ := by
  have hnear := p.nearest_seek c.ahead c.direction
  rw [hseek] at hnear
  obtain ⟨hfound, hadmits, hmin⟩ := hnear
  refine ⟨hdirection, ⟨fun q hq => ?_, fun hq => ?_⟩, fun q hq l w _ hl => ?_, fun q hq => ?_,
    fun l w hl hl' => ⟨(k, v), rfl, ?_⟩⟩
  · cases hq
    refine Stands.onPending rfl rfl ?_ fun q hq => ?_
    · show base.view.Reads mem m
      rw [hview]
      exact h.reads
    · show base.direction.before k q.1 = true
      rw [hdirection]
      exact hbase q hq
  · cases hq
  · cases hq
    rw [← Bound.admits_excluded]
    exact hl
  · cases hq
    exact h.pending k v hfound hadmits
  · cases hlk : c.direction.before l k with
    | false => rfl
    | true =>
        rw [hmin l hl' hlk] at hl
        cases hl

/-- Behind a pending deletion the cursor settles where it would have
settled. -/
theorem Settling.behind_tombstone {base : StoreCursor}
    (hseek : p.seek c.ahead c.direction = some (k, .tombstone))
    (hdirection : base.direction = c.base.direction)
    (h : Settling mem m p { c with base := base, ahead := .excluded k } b c') :
    Settling mem m p c b c' := by
  have hnear := p.nearest_seek c.ahead c.direction
  rw [hseek] at hnear
  obtain ⟨hfound, -, hmin⟩ := hnear
  have hdir : MergeCursor.direction { c with base := base, ahead := .excluded k } = c.direction :=
    hdirection
  refine ⟨h.direction.trans hdir, h.rests, h.clear, fun q hq => ?_, fun l w hl hadmits => ?_⟩
  · rw [← hdir]
    exact h.admits q hq
  · -- a value is not the deletion, and not before it
    have hkl : c.direction.before k l = true := by
      cases hkl : c.direction.before k l with
      | true => rfl
      | false =>
          cases hlk : c.direction.before l k with
          | true =>
              rw [hmin l hadmits hlk] at hl
              cases hl
          | false =>
              rw [← Direction.eq_of_not_before hkl hlk, hfound] at hl
              cases hl
    rw [← hdir] at hkl ⊢
    exact h.first l w hl (by rw [Bound.admits_excluded]; exact hkl)

/-- Settling takes the entries in the order they are met. -/
theorem Fore.settleOver_ok (h : c.Fore mem m p b) {ahead : List (Bytes × Entry)}
    (hahead : p.beyond c.ahead c.direction = ahead) :
    ∃ c', settleOver mem c ahead = .ok c' ∧ Settling mem m p c b c' := by
  induction ahead generalizing c with
  | nil => exact ⟨c.onBase, rfl, h.onBase_settling hahead⟩
  | cons entry rest ih =>
      obtain ⟨k, e⟩ := entry
      have hseek : p.seek c.ahead c.direction = some (k, e) := by
        rw [KeyMap.seek_eq_head?, hahead]
        rfl
      rw [settleOver]
      cases hfirst : c.viewFirst k with
      | true => exact ⟨_, rfl, h.viewFirst_settling hseek hfirst⟩
      | false =>
          obtain ⟨base, hconsume, hview, hdirection, hbase⟩ := h.consume_ok hfirst
          rw [if_neg Bool.false_ne_true, hconsume]
          cases e with
          | value v =>
              exact ⟨_, rfl, h.value_settling hseek hview hdirection fun q hq => (hbase q hq).1⟩
          | tombstone =>
              have hnear := p.nearest_seek c.ahead c.direction
              rw [hseek] at hnear
              have hfore : Fore mem m p { c with base := base, ahead := .excluded k } b := by
                refine ⟨?_, fun q hq => ?_, fun l w hl hadmits => ?_⟩
                · show base.view.Reads mem m
                  rw [hview]
                  exact h.reads
                · show b.admits base.direction q.1 = true
                  rw [hdirection]
                  exact (hbase q hq).2
                · have hadmits' : (Bound.excluded k).admits base.direction l = true := hadmits
                  rw [hdirection, Bound.admits_excluded] at hadmits'
                  show b.admits base.direction l = true
                  rw [hdirection]
                  exact h.pending l w hl (Bound.admits_of_before hnear.2.1 hadmits')
              have hrest : p.beyond (.excluded k) base.direction = rest := by
                have hcons := KeyMap.beyond_eq_cons hseek
                rw [hahead] at hcons
                rw [hdirection]
                exact (List.cons.inj hcons).2.symm
              obtain ⟨c', hsettle, hsettling⟩ := ih hfore hrest
              exact ⟨c', hsettle, hsettling.behind_tombstone hseek hdirection⟩

/-- A cursor settles. -/
theorem Fore.settle_ok (h : c.Fore mem m p b) :
    ∃ c', c.settle mem p = .ok c' ∧ Settling mem m p c b c' :=
  h.settleOver_ok rfl

/-- A cursor is opened by settling on the first pairs. -/
theorem cursor_overlay {w : View} (hreads : w.Reads mem m) (p : Pending) (d : Direction) :
    (ReadView.overlay p w).cursor mem d
      = (settle mem p ⟨⟨w, d, m.seek .unbounded d⟩, .unbounded, .nowhere⟩).map Cursor.merge := by
  have hbase : (StoreCursor.start w d).rewind mem = .ok ⟨w, d, m.seek .unbounded d⟩ :=
    StoreCursor.moveTo_ok hreads .unbounded
  show ((MergeCursor.start w d).rewind mem p w).map Cursor.merge = _
  unfold rewind
  rw [show (MergeCursor.start w d).direction = d from rfl, hbase]
  rfl

/-- A cursor is sent to a key by settling on the pairs from there on. -/
theorem seek_settles {w : View} (hreads : w.Reads mem m) (p : Pending) (c : MergeCursor)
    (target : Bytes) :
    c.seek mem p w target = settle mem p ⟨⟨w, c.direction, m.seek (.included target) c.direction⟩,
      .included target, c.standing⟩ := by
  have hbase : (StoreCursor.start w c.direction).seek mem target
      = .ok ⟨w, c.direction, m.seek (.included target) c.direction⟩ :=
    StoreCursor.moveTo_ok hreads (.included target)
  unfold MergeCursor.seek
  rw [hbase]

-- ============================================================ moving on

/-- Nothing lies before no bound. -/
theorem fore_unbounded (hreads : c.base.view.Reads mem m) : c.Fore mem m p .unbounded :=
  ⟨hreads, fun _ _ => rfl, fun _ _ _ _ => rfl⟩

/-- A cursor that stands on a pending pair is clear. -/
theorem clear_of_onPending {v : Bytes} (hstand : c.standing = .onPending k v)
    (hahead : c.ahead = .excluded k) : c.Clear p := by
  intro q hq l w _ hadmits
  unfold current at hq
  rw [hstand] at hq
  cases hq
  rw [hahead, Bound.admits_excluded] at hadmits
  exact hadmits

/-- A cursor settles further on just if the values it has before it are
further on. -/
theorem settle_further_iff {q : Bytes × Bytes} (hreads : c.base.view.Reads mem m)
    (hbase : ∀ r, c.base.current = some r → c.direction.before q.1 r.1 = true) :
    ∃ c', c.settle mem p = .ok c' ∧ c'.direction = c.direction ∧ c'.Rests mem m ∧ c'.Clear p ∧
      ((∀ r, c'.current = some r → c.direction.before q.1 r.1 = true) ↔
        ∀ l w, p.find? l = some (.value w) → c.ahead.admits c.direction l = true →
          c.direction.before q.1 l = true) := by
  obtain ⟨c', hsettle, h⟩ := (fore_unbounded (p := p) hreads).settle_ok
  refine ⟨c', hsettle, h.direction, h.rests, h.clear, fun hfurther l w hl hadmits => ?_,
    fun hvalues => ?_⟩
  · obtain ⟨r, hr, hlr⟩ := h.first l w hl hadmits
    exact Direction.before_of_before_of_not (hfurther r hr) hlr
  · have hfore : c.Fore mem m p (.excluded q.1) := by
      refine ⟨hreads, fun r hr => ?_, fun l w hl hadmits => ?_⟩
      · rw [Bound.admits_excluded]
        exact hbase r hr
      · rw [Bound.admits_excluded]
        exact hvalues l w hl hadmits
    obtain ⟨c'', hsettle', h'⟩ := hfore.settle_ok
    rw [hsettle] at hsettle'
    cases hsettle'
    intro r hr
    rw [← Bound.admits_excluded]
    exact h'.admits r hr

/-- A cursor that stands on a pair is moved on. It comes to a key further
on, or to none, just if it was clear. -/
theorem Rests.next_ok (h : c.Rests mem m) {q : Bytes × Bytes} (hq : c.current = some q) :
    ∃ c', c.next mem p = .ok c' ∧ c'.direction = c.direction ∧ c'.Rests mem m ∧ c'.Clear p ∧
      ((∀ r, c'.current = some r → c.direction.before q.1 r.1 = true) ↔ c.Clear p) := by
  have hclear : c.Clear p ↔ ∀ l w, p.find? l = some (.value w) →
      c.ahead.admits c.direction l = true → c.direction.before q.1 l = true := by
    unfold Clear
    rw [hq]
    exact ⟨fun hall => hall q rfl, fun hall r hr => by cases hr; exact hall⟩
  rw [hclear]
  cases h.stands q hq with
  | onView hstand hreads =>
      have hcurrent : c.base.current = some q := by
        unfold current at hq
        rw [hstand] at hq
        exact hq
      obtain ⟨base, hnext, hview, hdirection, hbase⟩ := next_base hreads hcurrent
      have hmoved : c.next mem p = settle mem p { c with base := base } := by
        unfold next
        rw [hstand, hnext]
      have hdir : MergeCursor.direction { c with base := base } = c.direction := hdirection
      rw [hmoved, ← hdir]
      rw [← hdir] at hbase
      refine settle_further_iff ?_ hbase
      show base.view.Reads mem m
      rw [hview]
      exact hreads
  | onPending hstand hahead hreads hbase =>
      have hmoved : c.next mem p = c.settle mem p := by
        unfold next
        rw [hstand]
      rw [hmoved]
      exact settle_further_iff hreads hbase

/-- A cursor that stands nowhere stays there. -/
theorem Rests.next_none (h : c.Rests mem m) (hc : c.current = none) : c.next mem p = .ok c := by
  unfold next
  rw [h.nowhere hc]

end MergeCursor

-- ==================================================== writes in between

namespace Transaction

open MergeCursor

variable {ν : Type}

/-- What is done while a cursor of a transaction is open. -/
inductive LiveStep where
  | next
  | put (key value : Bytes)
  | delete (key : Bytes)
deriving DecidableEq, Repr

/-- The keys the cursor comes to, one for each time it is moved on to a
pair. -/
def liveKeys (mem : Memory) (t : Transaction ν) (c : MergeCursor) :
    List LiveStep → Except Failure (List Bytes)
  | [] => .ok []
  | .put k v :: steps => (t.put k v).liveKeys mem c steps
  | .delete k :: steps => (t.delete k).liveKeys mem c steps
  | .next :: steps => do
    let c ← c.next mem t.pending
    return (c.current.map Prod.fst).toList ++ (← t.liveKeys mem c steps)

/-- Whenever the cursor is moved on, it is clear. -/
def MovesClear (mem : Memory) (t : Transaction ν) (c : MergeCursor) : List LiveStep → Prop
  | [] => True
  | .put k v :: steps => (t.put k v).MovesClear mem c steps
  | .delete k :: steps => (t.delete k).MovesClear mem c steps
  | .next :: steps => c.Clear t.pending ∧
      ∀ c', c.next mem t.pending = .ok c' → t.MovesClear mem c' steps

/-- Values are put ahead of the cursor while it stands on a pair of the
view. -/
def PutsAhead (mem : Memory) (t : Transaction ν) (c : MergeCursor) : List LiveStep → Prop
  | [] => True
  | .put k v :: steps =>
      (c.standing = .onView → ∀ q, c.current = some q → c.direction.before q.1 k = true) ∧
        (t.put k v).PutsAhead mem c steps
  | .delete k :: steps => (t.delete k).PutsAhead mem c steps
  | .next :: steps => ∀ c', c.next mem t.pending = .ok c' → t.PutsAhead mem c' steps

/-- The keys of the cursor, from the one it stands on, are strictly in
order just if it is clear whenever it is moved on, as it is if values are
put ahead of it. -/
def LivesInOrder (mem : Memory) (t : Transaction ν) (c : MergeCursor) (steps : List LiveStep) :
    Prop :=
  ∃ keys, t.liveKeys mem c steps = .ok keys ∧
    (((c.current.map Prod.fst).toList ++ keys).Pairwise (fun k l => c.direction.before k l = true) ↔
      t.MovesClear mem c steps) ∧
    (t.PutsAhead mem c steps → t.MovesClear mem c steps)

variable {mem : Memory} {m : KeyMap Bytes} {t : Transaction ν} {c : MergeCursor}

/-- A cursor that is moved on comes to its pair, and then further. -/
theorem liveKeys_next {c' : MergeCursor} (hnext : c.next mem t.pending = .ok c')
    {steps : List LiveStep} {keys : List Bytes} (hkeys : t.liveKeys mem c' steps = .ok keys) :
    t.liveKeys mem c (.next :: steps) = .ok ((c'.current.map Prod.fst).toList ++ keys) := by
  rw [liveKeys, hnext, ok_bind, hkeys]
  rfl

/-- It is clear then if it was, and is from then on. -/
theorem movesClear_next {c' : MergeCursor} (hnext : c.next mem t.pending = .ok c')
    {steps : List LiveStep} :
    t.MovesClear mem c (.next :: steps) ↔ c.Clear t.pending ∧ t.MovesClear mem c' steps := by
  rw [MovesClear, hnext]
  refine and_congr_right' ⟨fun hall => hall c' rfl, fun hmoves c'' hc'' => ?_⟩
  cases hc''
  exact hmoves

/-- What a cursor that rests comes to. -/
theorem liveKeys_ok (h : c.Rests mem m) (steps : List LiveStep) :
    ∃ keys, t.liveKeys mem c steps = .ok keys ∧ (c.current = none → keys = []) ∧
      (((c.current.map Prod.fst).toList ++ keys).Pairwise
        (fun k l => c.direction.before k l = true) ↔ t.MovesClear mem c steps) := by
  induction steps generalizing t c with
  | nil =>
      refine ⟨[], rfl, fun _ => rfl, iff_of_true ?_ trivial⟩
      cases c.current with
      | none => exact List.Pairwise.nil
      | some q => exact List.pairwise_singleton _ _
  | cons step steps ih =>
      cases step with
      | put k v => exact ih h
      | delete k => exact ih h
      | next =>
          match hq : c.current with
          | none =>
              obtain ⟨keys, hkeys, hnone, hiff⟩ := ih (t := t) h
              have hnext := h.next_none (p := t.pending) hq
              have hclear : c.Clear t.pending := by
                intro q hq'
                rw [hq] at hq'
                cases hq'
              have hrun := liveKeys_next hnext hkeys
              rw [hq] at hiff hrun
              refine ⟨keys, hrun, fun _ => hnone hq, ?_⟩
              rw [hiff, movesClear_next hnext]
              exact (and_iff_right hclear).symm
          | some q =>
              obtain ⟨c', hnext, hdirection, hrests, -, hfurther⟩ :=
                h.next_ok (p := t.pending) hq
              obtain ⟨keys, hkeys, hnone, hiff⟩ := ih (t := t) hrests
              refine ⟨_, liveKeys_next hnext hkeys, fun hq' => (nomatch hq'), ?_⟩
              rw [movesClear_next hnext, ← hfurther, ← hiff, hdirection]
              match hr : c'.current with
              | none =>
                  rw [hnone hr]
                  exact iff_of_true (List.pairwise_singleton _ _)
                    ⟨fun r hr' => (nomatch hr'), List.Pairwise.nil⟩
              | some r =>
                  have htrans : IsTrans Bytes fun k l => c.direction.before k l = true :=
                    ⟨fun _ _ _ => Direction.before_trans⟩
                  show (q.1 :: r.1 :: keys).Pairwise _ ↔ _
                  rw [List.pairwise_cons_cons_iff_of_trans]
                  refine and_congr_left' ⟨fun hbefore r' hr' => ?_, fun hall => hall r rfl⟩
                  cases hr'
                  exact hbefore

/-- A deletion that is written leaves the cursor clear. -/
theorem clear_delete (h : c.Clear t.pending) (k : Bytes) : c.Clear (t.delete k).pending := by
  intro q hq l w hl hadmits
  have hl' : (t.pending.insert k .tombstone).find? l = some (.value w) := hl
  rw [KeyMap.find?_insert] at hl'
  split at hl'
  · cases hl'
  · exact h q hq l w hl' hadmits

/-- A value that is put ahead leaves the cursor clear. -/
theorem clear_put (hrests : c.Rests mem m) (h : c.Clear t.pending) {k v : Bytes}
    (hahead : c.standing = .onView → ∀ q, c.current = some q → c.direction.before q.1 k = true) :
    c.Clear (t.put k v).pending := by
  intro q hq l w hl hadmits
  cases hrests.stands q hq with
  | onView hstand hreads =>
      have hl' : (t.pending.insert k (.value v)).find? l = some (.value w) := hl
      rw [KeyMap.find?_insert] at hl'
      split at hl'
      · next hlk =>
        rw [hlk]
        exact hahead hstand q hq
      · exact h q hq l w hl' hadmits
  | onPending hstand hbound hreads hbase =>
      exact clear_of_onPending hstand hbound q hq l w hl hadmits

/-- A cursor that is clear is so whenever it is moved on, if values are put
ahead of it. -/
theorem movesClear_of_putsAhead (hrests : c.Rests mem m) (hclear : c.Clear t.pending)
    {steps : List LiveStep} (h : t.PutsAhead mem c steps) : t.MovesClear mem c steps := by
  induction steps generalizing t c with
  | nil => trivial
  | cons step steps ih =>
      cases step with
      | put k v => exact ih hrests (clear_put hrests hclear h.1) h.2
      | delete k => exact ih hrests (clear_delete hclear k) h
      | next =>
          refine ⟨hclear, fun c' hc' => ?_⟩
          match hq : c.current with
          | none =>
              rw [hrests.next_none hq] at hc'
              cases hc'
              exact ih hrests hclear (h c (hrests.next_none hq))
          | some q =>
              obtain ⟨c'', hnext, -, hrests', hclear', -⟩ := hrests.next_ok (p := t.pending) hq
              have hmoved := h c'' hnext
              rw [hnext] at hc'
              cases hc'
              exact ih hrests' hclear' hmoved

/-- A cursor that has settled lives in order. -/
theorem livesInOrder_of_settling {c₀ : MergeCursor} {b : Bound}
    (h : Settling mem m t.pending c₀ b c) (steps : List LiveStep) :
    t.LivesInOrder mem c steps := by
  obtain ⟨keys, hkeys, -, hiff⟩ := liveKeys_ok (t := t) h.rests steps
  exact ⟨keys, hkeys, hiff, movesClear_of_putsAhead h.rests h.clear⟩

/-- A cursor of the transaction lives in order, from the first pair or from
any key that it is sent to, whatever is written in between. -/
def CursorsLive (t : Transaction ν) (s : Store) (d : Direction) : Prop :=
  ∃ c, (ReadView.overlay t.pending s.engine.view).cursor s.toMemory d = .ok (.merge c) ∧
    c.direction = d ∧ (∀ steps, t.LivesInOrder s.toMemory c steps) ∧
    ∀ target, ∃ c', c.seek s.toMemory t.pending s.engine.view target = .ok c' ∧
      c'.direction = d ∧ ∀ steps, t.LivesInOrder s.toMemory c' steps

/-- The cursors of a view that reads as a map do. -/
theorem cursorsLive {s : Store} (hreads : s.engine.view.Reads s.toMemory m) (t : Transaction ν)
    (d : Direction) : t.CursorsLive s d := by
  have hopened := cursor_overlay hreads t.pending d
  obtain ⟨c, hsettle, h⟩ := (fore_unbounded (p := t.pending)
    (c := ⟨⟨s.engine.view, d, m.seek .unbounded d⟩, .unbounded, .nowhere⟩) hreads).settle_ok
  rw [hsettle] at hopened
  refine ⟨c, hopened, h.direction, livesInOrder_of_settling h, fun target => ?_⟩
  obtain ⟨c', hsettle', h'⟩ := (fore_unbounded (p := t.pending)
    (c := ⟨⟨s.engine.view, c.direction, m.seek (.included target) c.direction⟩,
      .included target, c.standing⟩) hreads).settle_ok
  refine ⟨c', ?_, h'.direction.trans h.direction, livesInOrder_of_settling h'⟩
  rw [seek_settles hreads, hsettle']

end Transaction

namespace Store

open Engine

variable {dir : Path} {v : Volume} {ν : Type}

/-- The keys of an open cursor are strictly in order while values are put
ahead of it, whatever is deleted, and exactly as long as it is clear
whenever it is moved on. This holds after every run of a store, for every
transaction, both directions, and all that is written while the cursor is
open. -/
theorem live_cursors_in_order (hv : Vacant v dir) (settings : Settings) (clock : UInt64) :
    ∃ e v', openAt settings dir clock v = .ok e v' ∧
      ∀ reqs : List Request,
        (∀ op ∈ (opened v' e).trace dir reqs, op.Fits) →
        Operation.logged ((opened v' e).trace dir reqs) < UInt64.size →
        ∀ (t : Transaction ν) (d : Direction), t.CursorsLive ((opened v' e).after dir reqs) d := by
  obtain ⟨e, v', ids, hopen, hsound⟩ := hv.openAt_ok settings clock
  refine ⟨e, v', hopen, fun reqs hfits htotal t d => ?_⟩
  obtain ⟨-, ⟨ids', hsound'⟩, -⟩ :=
    hsound.after reqs (fun _ => hfits) htotal (room_of_logged htotal)
  exact Transaction.cursorsLive hsound'.reads t d

/-- The cursors over a pending pair and a pending deletion, after the sample
run. -/
theorem live_cursors_in_order_sampleRun :
    ∃ e v', openAt Settings.standard ["db"] 0 Volume.empty = .ok e v' ∧
      sampleTransaction.CursorsLive ((opened v' e).after ["db"] sampleRun) .reverse := by
  obtain ⟨e, v', hopen, hruns⟩ :=
    live_cursors_in_order (ν := Unit) (vacant_empty ["db"]) Settings.standard 0
  exact ⟨e, v', hopen, hruns sampleRun (by rw [trace_sampleRun]; decide)
    (by rw [trace_sampleRun]; decide) sampleTransaction .reverse⟩

/-- A run that writes two keys. -/
def twoKeys : List Request :=
  [.put [2] [0], .put [4] [0]]

/-- A cursor on the first of two keys, and a value put behind it: it goes
back to that. -/
theorem live_goes_back :
    ∃ e v', openAt Settings.standard ["db"] 0 Volume.empty = .ok e v' ∧
      ∃ c keys, (ReadView.overlay KeyMap.empty
          ((opened v' e).after ["db"] twoKeys).engine.view).cursor
          ((opened v' e).after ["db"] twoKeys).toMemory .forward = .ok (.merge c) ∧
        (Transaction.empty (ν := Unit)).liveKeys ((opened v' e).after ["db"] twoKeys).toMemory c
          [.put [1] [0], .next] = .ok keys ∧
        ¬((c.current.map Prod.fst).toList ++ keys).Pairwise
          fun k l => Direction.forward.before k l = true := by
  obtain ⟨e, v', ids, hopen, hsound⟩ := (vacant_empty ["db"]).openAt_ok Settings.standard 0
  have htrace : (opened v' e).trace ["db"] twoKeys = [.put [2] [0], .put [4] [0]] := rfl
  have htotal : Operation.logged ((opened v' e).trace ["db"] twoKeys) < UInt64.size := by
    rw [htrace]
    decide
  obtain ⟨-, ⟨ids', hsound'⟩, -⟩ := hsound.after twoKeys (fun _ => by rw [htrace]; decide) htotal
    (room_of_logged htotal)
  have hreads := hsound'.reads
  refine ⟨e, v', hopen, ?_⟩
  generalize (opened v' e).after ["db"] twoKeys = s at hreads
  rw [htrace] at hreads
  -- the cursor stands on the view's pair, and its bound admits all keys
  have hcursor := MergeCursor.cursor_overlay hreads KeyMap.empty .forward
  have hrests : MergeCursor.Rests s.toMemory _
      ⟨⟨s.engine.view, .forward, some ([2], [0])⟩, .unbounded, .onView⟩ :=
    ⟨fun q _ => .onView rfl hreads, fun hc => nomatch hc⟩
  obtain ⟨keys, hkeys, -, hiff⟩ :=
    Transaction.liveKeys_ok (t := (Transaction.empty (ν := Unit)).put [1] [0]) hrests [.next]
  refine ⟨_, keys, hcursor, hkeys, fun horder => ?_⟩
  obtain ⟨hclear, -⟩ := hiff.mp horder
  have hbefore : Direction.forward.before [2] [1] = true := hclear ([2], [0]) rfl [1] [0] rfl rfl
  exact absurd hbefore (by decide)

end Store

end OrderedStore
