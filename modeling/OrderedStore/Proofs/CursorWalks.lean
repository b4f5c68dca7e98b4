/-
Walks of a cursor.

A cursor over what is read from, moved about in any way, stands where a
cursor over a list would stand: the list of the live pairs in the order they
are met (`ListCursor`). One move keeps that (`At.moved_ok`): a cursor at a
bound has ahead what lies beyond the bound, a search drops from the whole
list what the bound does not admit, and the next pair is the head of what
is left. A walk keeps it then, by induction on the moves.

For a transaction the list holds what is pending, and of the database what
is not pending; where the database has its pairs does not show.
-/
import Mathlib
import OrderedStore.Transaction
import OrderedStore.Proofs.Cursors
import OrderedStore.Proofs.Readers

namespace OrderedStore

-- ============================================================ list cursors

/-- A move of a cursor. -/
inductive CursorMove where
  | rewind
  | seek (target : Bytes)
  | next
deriving DecidableEq, Repr

/-- A cursor over a list of pairs: all of them in the order they are met,
and those from where it stands on. -/
structure ListCursor where
  pairs : List (Bytes × Bytes)
  rest : List (Bytes × Bytes)
deriving DecidableEq, Repr

namespace ListCursor

/-- The pair the cursor stands on. -/
def current (l : ListCursor) : Option (Bytes × Bytes) :=
  l.rest.head?

/-- The cursor moved to the first pair, to the first one at or beyond a key,
or by one pair. -/
def moved (d : Direction) (l : ListCursor) : CursorMove → ListCursor
  | .rewind => { l with rest := l.pairs }
  | .seek target =>
      { l with rest := l.pairs.dropWhile fun q => !(Bound.included target).admits d q.1 }
  | .next => { l with rest := l.rest.tail }

/-- Where the cursor stands after each of several moves. -/
def walk (d : Direction) (l : ListCursor) : List CursorMove → List (Option (Bytes × Bytes))
  | [] => []
  | move :: moves => (l.moved d move).current :: (l.moved d move).walk d moves

end ListCursor

namespace KeyMap

/-- What lies beyond a bound is the end of all that is met. -/
theorem dropWhile_beyond {α : Type} (m : KeyMap α) (b : Bound) (d : Direction) :
    (m.beyond .unbounded d).dropWhile (fun q => !b.admits d q.1) = m.beyond b d := by
  have hall : m.beyond .unbounded d = d.arrange m.entries := List.filter_eq_self.mpr fun _ _ => rfl
  have hsorted := Direction.pairwise_arrange d m.sorted
  rw [hall]
  unfold beyond
  generalize d.arrange m.entries = qs at hsorted
  induction qs with
  | nil => rfl
  | cons q qs ih =>
      obtain ⟨hq, hqs⟩ := List.pairwise_cons.mp hsorted
      cases hadmits : b.admits d q.1 with
      | false =>
          rw [List.dropWhile_cons_of_pos (by rw [hadmits]; rfl), ih hqs,
            List.filter_cons_of_neg (by rw [hadmits]; exact Bool.false_ne_true)]
      | true =>
          -- what is met after an admitted key is admitted
          have hrest : qs.filter (fun q => b.admits d q.1) = qs :=
            List.filter_eq_self.mpr fun q' hq' => Bound.admits_of_before hadmits (hq q' hq')
          rw [List.dropWhile_cons_of_neg (by rw [hadmits]; decide), List.filter_cons,
            if_pos hadmits, hrest]

end KeyMap

namespace ReadView

variable {mem : Memory} {r : ReadView} {m : KeyMap Bytes} {c : Cursor} {b : Bound}

-- =================================================================== moves

/-- The cursor moved. -/
def moved (mem : Memory) (r : ReadView) (c : Cursor) : CursorMove → Except Failure Cursor
  | .rewind => r.rewind mem c
  | .seek target => r.seek mem target c
  | .next => r.next mem c

/-- Where the cursor stands after each of several moves. -/
def walk (mem : Memory) (r : ReadView) (c : Cursor) :
    List CursorMove → Except Failure (List (Option (Bytes × Bytes)))
  | [] => .ok []
  | move :: moves => do
    let c ← r.moved mem c move
    return c.current :: (← r.walk mem c moves)

/-- A cursor that stands nowhere stays there. -/
theorem At.next_none (h : At mem m r c b) (hc : c.current = none) : r.next mem c = .ok c := by
  cases h with
  | @store w c b hreads hview hcurrent =>
      have hnone : c.current = none := hc
      have hnext : c.next mem = .ok c := by
        unfold StoreCursor.next
        rw [hnone]
      show (c.next mem).map Cursor.store = _
      rw [hnext]
      rfl
  | @merge p w c b base hreads hview hm hsettled =>
      have hnone : c.current = none := hc
      have hnowhere : c.standing = .nowhere := by
        rw [hsettled.current] at hnone
        cases hsettled with
        | nowhere hstand hseek => exact hstand
        | onView hstand hbase hseek hreads hahead =>
            rw [hseek] at hnone
            cases hnone
        | onPending hstand hseek hready =>
            rw [hseek] at hnone
            cases hnone
      have hnext : c.next mem p = .ok c := by
        unfold MergeCursor.next
        rw [hnowhere]
      show (c.next mem p).map Cursor.merge = _
      rw [hnext]
      rfl

/-- A cursor is moved to the first pair. -/
theorem At.rewind_ok (h : At mem m r c b) :
    ∃ c', r.rewind mem c = .ok c' ∧ At mem m r c' .unbounded ∧ c'.direction = c.direction := by
  cases h with
  | @store w c b hreads hview hcurrent =>
      subst hview
      have hrewind : c.rewind mem = .ok { c with current := m.seek .unbounded c.direction } :=
        StoreCursor.moveTo_ok hreads .unbounded
      refine ⟨.store { c with current := m.seek .unbounded c.direction }, ?_,
        At.store hreads rfl rfl, rfl⟩
      show (c.rewind mem).map Cursor.store = _
      rw [hrewind]
      rfl
  | @merge p w c b base hreads hview hm hsettled =>
      obtain ⟨c', hrewind, hsettled', hdirection⟩ := MergeCursor.rewind_ok hreads c p
      have hview' := MergeCursor.rewind_view hrewind
      refine ⟨.merge c', ?_, At.merge hreads hview' hm hsettled', hdirection⟩
      show (c.rewind mem p w).map Cursor.merge = _
      rw [hrewind]
      rfl

/-- The list cursor has before it what the cursor has. -/
structure Follows (mem : Memory) (m : KeyMap Bytes) (r : ReadView) (c : Cursor)
    (l : ListCursor) : Prop where
  pairs : l.pairs = m.beyond .unbounded c.direction
  at_bound : ∃ b, At mem m r c b ∧ l.rest = m.beyond b c.direction

variable {l : ListCursor}

/-- The two stand on the same pair. -/
theorem Follows.current (h : Follows mem m r c l) : c.current = l.current := by
  obtain ⟨b, hat, hrest⟩ := h.at_bound
  rw [hat.current, KeyMap.seek_eq_head?]
  unfold ListCursor.current
  rw [hrest]

/-- They do so again after a move. -/
theorem Follows.moved_ok (h : Follows mem m r c l) (move : CursorMove) :
    ∃ c', r.moved mem c move = .ok c' ∧ Follows mem m r c' (l.moved c.direction move) ∧
      c'.direction = c.direction := by
  obtain ⟨hpairs, b, hat, hrest⟩ := h
  cases move with
  | rewind =>
      obtain ⟨c', hmove, hat', hd⟩ := hat.rewind_ok
      refine ⟨c', hmove, ⟨?_, .unbounded, hat', ?_⟩, hd⟩
      · rw [hd]
        exact hpairs
      · rw [hd]
        exact hpairs
  | seek target =>
      obtain ⟨c', hmove, hat', hd⟩ := hat.seek_ok target
      refine ⟨c', hmove, ⟨?_, .included target, hat', ?_⟩, hd⟩
      · rw [hd]
        exact hpairs
      · show l.pairs.dropWhile _ = _
        rw [hd, hpairs, KeyMap.dropWhile_beyond]
  | next =>
      have hcurrent := hat.current
      cases hc : c.current with
      | none =>
          rw [hc] at hcurrent
          refine ⟨c, hat.next_none hc, ⟨hpairs, b, hat, ?_⟩, rfl⟩
          show l.rest.tail = _
          rw [hrest, KeyMap.beyond_eq_nil hcurrent.symm]
          rfl
      | some q =>
          rw [hc] at hcurrent
          obtain ⟨c', hmove, hat', hd⟩ := hat.next_ok hc
          refine ⟨c', hmove, ⟨?_, .excluded q.1, hat', ?_⟩, hd⟩
          · rw [hd]
            exact hpairs
          · show l.rest.tail = _
            rw [hd, hrest, KeyMap.beyond_eq_cons hcurrent.symm]
            rfl

/-- A walk of the one is a walk of the other. -/
theorem Follows.walk_eq (h : Follows mem m r c l) (moves : List CursorMove) :
    r.walk mem c moves = .ok (l.walk c.direction moves) := by
  induction moves generalizing c l with
  | nil => rfl
  | cons move moves ih =>
      obtain ⟨c', hmove, h', hd⟩ := h.moved_ok move
      have hrest := ih h'
      rw [hd] at hrest
      rw [walk, hmove, ok_bind, hrest, ok_bind, ListCursor.walk, h'.current]
      rfl

/-- A cursor that was opened can be followed, in front of all pairs. -/
theorem Reads.follows (h : r.Reads mem m) (d : Direction) :
    ∃ c, r.cursor mem d = .ok c ∧ c.direction = d ∧
      Follows mem m r c ⟨d.arrange m.entries, d.arrange m.entries⟩ := by
  obtain ⟨c, hcursor, hat, hd⟩ := h.cursor_ok d
  have hall : d.arrange m.entries = m.beyond .unbounded d :=
    (List.filter_eq_self.mpr fun _ _ => rfl).symm
  refine ⟨c, hcursor, hd, ⟨?_, .unbounded, hat, ?_⟩⟩
  · rw [hd]
    exact hall
  · rw [hd]
    exact hall

end ReadView

-- ============================================================ transactions

namespace Transaction

variable {ν : Type}

/-- A cursor of the transaction, moved about in any way while nothing is
written, stands where a cursor over a list would stand: the sorted list of
what is pending and of the store's pairs that are not. -/
def WalksAsList (t : Transaction ν) (s : Store) (ops : List Operation) (d : Direction) : Prop :=
  ∃ pairs : List (Bytes × Bytes), pairs.Pairwise (fun p q => d.before p.1 q.1 = true) ∧
    (∀ k v, (k, v) ∈ pairs ↔ t.pending.find? k = some (.value v) ∨
      t.pending.find? k = none ∧ Store.valueAfter ops k = some v) ∧
    ∃ c, (ReadView.overlay t.pending s.engine.view).cursor s.toMemory d = .ok c ∧
      c.current = pairs.head? ∧
      ∀ moves, (ReadView.overlay t.pending s.engine.view).walk s.toMemory c moves
        = .ok ((ListCursor.mk pairs pairs).walk d moves)

end Transaction

namespace Store

open Engine

variable {dir : Path} {v : Volume} {ν : Type}

/-- What is pending over what the operations leave. -/
theorem find?_laid_contents (ops : List Operation) (p : Pending) (k : Bytes) (value : Bytes) :
    ((contents ops).laid p).find? k = some value ↔
      p.find? k = some (.value value) ∨ p.find? k = none ∧ valueAfter ops k = some value := by
  have hvalue : (contents ops).find? k = valueAfter ops k := find?_contents ops k
  rw [KeyMap.find?_laid]
  unfold KeyMap.entry
  cases p.find? k with
  | none =>
      rw [Option.none_or, hvalue]
      cases valueAfter ops k <;> simp [Entry.value?]
  | some e =>
      cases e <;> simp [Entry.value?]

/-- The cursors of a transaction are list cursors. After every run of a
store, for every transaction and both directions, a cursor that is rewound,
sent to keys and moved on in any order stands where it would stand in the
sorted list of pairs that the transaction reads. -/
theorem transaction_walks (hv : Vacant v dir) (settings : Settings) (clock : UInt64) :
    ∃ e v', openAt settings dir clock v = .ok e v' ∧
      ∀ reqs : List Request,
        (∀ op ∈ (opened v' e).trace dir reqs, op.Fits) →
        Operation.logged ((opened v' e).trace dir reqs) < UInt64.size →
        ∀ (t : Transaction ν) (d : Direction),
          t.WalksAsList ((opened v' e).after dir reqs) ((opened v' e).trace dir reqs) d := by
  obtain ⟨e, v', ids, hopen, hsound⟩ := hv.openAt_ok settings clock
  refine ⟨e, v', hopen, fun reqs hfits htotal t d => ?_⟩
  obtain ⟨-, ⟨ids', hsound'⟩, -⟩ :=
    hsound.after reqs (fun _ => hfits) htotal (room_of_logged htotal)
  obtain ⟨c, hcursor, hd, hfollows⟩ :=
    (ReadView.reads_overlay hsound'.reads t.pending).follows d
  refine ⟨_, Direction.pairwise_arrange d (KeyMap.sorted _), fun k value => ?_, c, hcursor,
    hfollows.current, fun moves => ?_⟩
  · rw [Direction.mem_arrange, KeyMap.mem_entries]
    exact find?_laid_contents _ _ _ _
  · rw [hfollows.walk_eq moves, hd]

/-- The one key that the sample run leaves is pending to be deleted, and
another one to be written. -/
def sampleTransaction : Transaction Unit :=
  (Transaction.empty.delete [1]).put [7] [8]

/-- Its cursors, after that run. -/
theorem transaction_walks_sampleRun :
    ∃ e v', openAt Settings.standard ["db"] 0 Volume.empty = .ok e v' ∧
      sampleTransaction.WalksAsList ((opened v' e).after ["db"] sampleRun)
        [.put [1] [2], .batch [.delete [1], .batch [.put [1] [3], .put [2] [4]]], .delete [2]]
        .reverse := by
  obtain ⟨e, v', hopen, hruns⟩ :=
    transaction_walks (ν := Unit) (vacant_empty ["db"]) Settings.standard 0
  have hwalks := hruns sampleRun (by rw [trace_sampleRun]; decide)
    (by rw [trace_sampleRun]; decide) sampleTransaction .reverse
  rw [trace_sampleRun] at hwalks
  exact ⟨e, v', hopen, hwalks⟩

end Store

end OrderedStore
