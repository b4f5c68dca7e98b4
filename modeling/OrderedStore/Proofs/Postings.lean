/-
Rows of postings.

A row is described by the set of documents that are still ahead on it: it
stands on the first of them (`First`), going on leaves those behind that
one, and seeking leaves those that are not before the target (`Move.rest`).
The documents come from a universe, a list of documents in strict order
with sort keys free of tabs; among them the order tells every two apart.

A cursor on the postings of a token is such a row: what is ahead are the
documents whose postings lie beyond the cursor's bound. Keys that begin like
postings of the token but are read as no document are passed over, so they
need not be excluded.
-/
import Mathlib
import OrderedStore.Index.Results
import OrderedStore.Proofs.Cursors
import OrderedStore.Proofs.IndexKeys

namespace OrderedStore

-- ====================================================== orders of documents

namespace DocKey

/-- Documents are in order as the ends of their posting keys are, going
forward. -/
theorem before_eq (d e : DocKey) : d.before e = Direction.forward.before d.tail e.tail := rfl

/-- No document is before itself. -/
theorem before_irrefl (d : DocKey) : d.before d = false :=
  Direction.before_irrefl .forward d.tail

/-- What is before a document is before what that is before. -/
theorem before_trans {d e f : DocKey} (hde : d.before e = true) (hef : e.before f = true) :
    d.before f = true := by
  rw [before_eq] at *
  exact Direction.before_trans hde hef

/-- Of two documents one at most is before the other. -/
theorem before_asymm {d e : DocKey} (h : d.before e = true) : e.before d = false := by
  rw [before_eq] at *
  exact Direction.before_asymm h

/-- What is not after a document is before what that is before. -/
theorem before_of_not_before {d e f : DocKey} (hed : e.before d = false)
    (hef : e.before f = true) : d.before f = true := by
  rw [before_eq] at *
  exact Direction.before_of_not_before hed hef

/-- What is before a document is before what is not before that. -/
theorem before_of_before_of_not {d e f : DocKey} (hde : d.before e = true)
    (hfe : f.before e = false) : d.before f = true := by
  rw [before_eq] at *
  exact Direction.before_of_before_of_not hde hfe

end DocKey

/-- Documents in strict order, with sort keys free of tabs. -/
structure Universe (U : List DocKey) : Prop where
  sorted : U.Pairwise fun d e => d.before e = true
  parsable : ∀ d ∈ U, d.Parsable

/-- In a universe the order tells documents apart. -/
theorem Universe.eq_of_not_before {U : List DocKey} (hU : Universe U) {d e : DocKey}
    (hd : d ∈ U) (he : e ∈ U) (hde : d.before e = false) (hed : e.before d = false) : d = e := by
  rw [DocKey.before_eq] at hde hed
  exact DocKey.tail_injective (hU.parsable d hd) (hU.parsable e he)
    (Direction.eq_of_not_before hde hed)

/-- Documents that are the same to the order are the same. -/
theorem Universe.eq_of_same {U : List DocKey} (hU : Universe U) {d e : DocKey} (hd : d ∈ U)
    (he : e ∈ U) (h : d.same e = true) : d = e :=
  DocKey.tail_injective (hU.parsable d hd) (hU.parsable e he) (beq_iff_eq.mp h)

-- ====================================================== sets of documents

/-- A set of documents. -/
abbrev DocSet := DocKey → Prop

/-- The first document of the set, if it has any. -/
def First (P : DocSet) : Option DocKey → Prop
  | none => ∀ d, ¬P d
  | some c => P c ∧ ∀ d, P d → d.before c = false

/-- What is left of a set of documents when a row that stands there has
moved. -/
def Move.rest (position : Option DocKey) (P : DocSet) : Move → DocSet
  | .next => fun d => P d ∧ ∀ c, position = some c → c.before d = true
  | .seek target => fun d => P d ∧ d.before target = false

variable {U : List DocKey} {P Q : DocSet}

/-- What is left is part of what there was. -/
theorem Move.of_rest {position : Option DocKey} {mv : Move} {d : DocKey}
    (h : mv.rest position P d) : P d := by
  cases mv with
  | next => exact h.1
  | seek target => exact h.1

/-- Of a set without documents nothing is left to lose. -/
theorem Move.rest_of_none (mv : Move) (position : Option DocKey) (h : First P none) :
    mv.rest position P = P := by
  funext d
  refine propext ⟨Move.of_rest, fun hd => absurd hd (h d)⟩

/-- To seek what the first document is not before leaves all. -/
theorem Move.rest_seek_of_first {c target : DocKey} (position : Option DocKey)
    (h : First P (some c)) (hc : c.before target = false) :
    (Move.seek target).rest position P = P := by
  funext d
  refine propext ⟨fun hd => hd.1, fun hd => ⟨hd, ?_⟩⟩
  cases hlt : d.before target with
  | false => rfl
  | true => rw [← hc, DocKey.before_of_not_before (h.2 d hd) hlt]

/-- There is one first document. -/
theorem First.unique (hU : Universe U) (hP : ∀ d, P d → d ∈ U) {p q : Option DocKey}
    (hp : First P p) (hq : First P q) : p = q := by
  match p, q with
  | none, none => rfl
  | none, some d => exact absurd hq.1 (hp d)
  | some c, none => exact absurd hp.1 (hq c)
  | some c, some d =>
      rw [hU.eq_of_not_before (hP c hp.1) (hP d hq.1) (hq.2 c hp.1) (hp.2 d hq.1)]

/-- The documents of a set in order, each once. -/
structure InOrder (P : DocSet) (ds : List DocKey) : Prop where
  sorted : ds.Pairwise fun d e => d.before e = true
  mem_iff (d : DocKey) : d ∈ ds ↔ P d

/-- What is left of documents in order when someone going over them has moved:
one document on, or to the first that is not before another. -/
def Move.onList : Move → List DocKey → List DocKey
  | .next, ds => ds.tail
  | .seek target, ds => ds.dropWhile fun d => d.before target

variable {ds : List DocKey}

/-- The first of them is the first of the set. -/
theorem InOrder.first (h : InOrder P ds) : First P ds.head? := by
  cases ds with
  | nil => exact fun d hd => List.not_mem_nil ((h.mem_iff d).mpr hd)
  | cons c ds =>
      refine ⟨(h.mem_iff c).mp List.mem_cons_self, fun d hd => ?_⟩
      rcases List.mem_cons.mp ((h.mem_iff d).mpr hd) with rfl | hd
      · exact DocKey.before_irrefl d
      · exact DocKey.before_asymm ((List.pairwise_cons.mp h.sorted).1 d hd)

open scoped Classical in
/-- Documents of a universe can be listed in order. -/
theorem Universe.exists_inOrder (hU : Universe U) (hP : ∀ d, P d → d ∈ U) :
    ∃ ds, InOrder P ds ∧ ds.length ≤ U.length := by
  refine ⟨U.filter fun d => P d, ⟨hU.sorted.filter _, fun d => ?_⟩, List.length_filter_le _ _⟩
  rw [List.mem_filter, decide_eq_true_eq]
  exact ⟨fun hd => hd.2, fun hd => ⟨hP d hd, hd⟩⟩

/-- Behind the first document of documents in order are the others. -/
theorem InOrder.next (h : InOrder P ds) : InOrder (Move.next.rest ds.head? P) ds.tail := by
  refine ⟨h.sorted.tail, fun d => ?_⟩
  cases ds with
  | nil =>
      refine iff_of_false List.not_mem_nil fun hd => ?_
      exact List.not_mem_nil ((h.mem_iff d).mpr hd.1)
  | cons c ds =>
      have hbehind := (List.pairwise_cons.mp h.sorted).1
      constructor
      · intro hd
        refine ⟨(h.mem_iff d).mp (List.mem_cons_of_mem c hd), ?_⟩
        rintro e ⟨⟩
        exact hbehind d hd
      · rintro ⟨hd, hbefore⟩
        rcases List.mem_cons.mp ((h.mem_iff d).mpr hd) with rfl | hd
        · have hself := hbefore d rfl
          rw [DocKey.before_irrefl] at hself
          cases hself
        · exact hd

/-- What is before a target stands in front of what is not. -/
theorem mem_dropWhile_before {ds : List DocKey}
    (hsorted : ds.Pairwise fun d e => d.before e = true) {target d : DocKey} :
    d ∈ ds.dropWhile (fun e => e.before target) ↔ d ∈ ds ∧ d.before target = false := by
  induction ds with
  | nil => simp
  | cons c ds ih =>
      obtain ⟨hbehind, hrest⟩ := List.pairwise_cons.mp hsorted
      cases hc : c.before target with
      | true =>
          rw [List.dropWhile_cons_of_pos (by exact hc), ih hrest, List.mem_cons]
          refine and_congr_left fun hd => (or_iff_right fun heq => ?_).symm
          rw [heq, hc] at hd
          cases hd
      | false =>
          rw [List.dropWhile_cons_of_neg (by rw [hc]; exact Bool.false_ne_true)]
          refine ⟨fun hd => ⟨hd, ?_⟩, fun hd => hd.1⟩
          rcases List.mem_cons.mp hd with rfl | hd
          · exact hc
          · cases hlt : d.before target with
            | false => rfl
            | true => rw [← hc, DocKey.before_trans (hbehind d hd) hlt]

/-- So moving over documents in order leaves of them what it leaves of the
set. -/
theorem InOrder.moved (h : InOrder P ds) (mv : Move) :
    InOrder (mv.rest ds.head? P) (mv.onList ds) := by
  cases mv with
  | next => exact h.next
  | seek target =>
      refine ⟨h.sorted.sublist (List.dropWhile_sublist _), fun d => ?_⟩
      rw [Move.onList, mem_dropWhile_before h.sorted, h.mem_iff]
      exact Iff.rfl

-- =============================================================== postings

namespace Postings

variable {mem : Memory} {m : KeyMap Bytes} {r : ReadView} {p : Postings}

/-- The key of a document's posting among those that begin with `lead`. -/
def key (lead : Bytes) (d : DocKey) : Bytes :=
  lead ++ d.tail

/-- Postings are met in the order of their documents. -/
theorem key_lt_iff (lead : Bytes) (d e : DocKey) : key lead d < key lead e ↔ d.before e = true := by
  unfold key DocKey.before
  rw [Bytes.append_lt_append_iff, decide_eq_true_eq]

/-- Whatever begins with `lead` in the map and is read as the posting of a
document is that of one of the universe. -/
def Shaped (m : KeyMap Bytes) (U : List DocKey) (lead : Bytes) : Prop :=
  ∀ tail v d, m.find? (lead ++ tail) = some v → DocKey.ofTail? tail = some d → d ∈ U

/-- The documents of the universe whose postings lie beyond the bound. -/
def ahead (m : KeyMap Bytes) (U : List DocKey) (lead : Bytes) (b : Bound) : DocSet :=
  fun d => d ∈ U ∧ (m.find? (key lead d)).isSome = true ∧
    b.admits .forward (key lead d) = true

/-- The row stands on the first posting beyond a bound, and what is ahead
on it are the documents of the postings there. -/
structure Ahead (mem : Memory) (m : KeyMap Bytes) (r : ReadView) (U : List DocKey)
    (p : Postings) (P : DocSet) : Prop where
  shaped : Shaped m U p.lead
  first : First P p.current
  bound : ∃ b : Bound, (∀ d, P d ↔ ahead m U p.lead b d) ∧
    (∀ k, b.admits .forward k = true → p.lead ≤ k) ∧
    ∀ d, p.current = some d → ReadView.At mem m r p.cursor b ∧
      p.cursor.direction = .forward ∧ ∃ v, p.cursor.current = some (key p.lead d, v)

/-- What is ahead comes from the universe. -/
theorem Ahead.within (h : p.Ahead mem m r U P) {d : DocKey} (hd : P d) : d ∈ U := by
  obtain ⟨b, hb, -⟩ := h.bound
  exact ((hb d).mp hd).1

/-- The same is ahead at any other moment at which what is read from reads the
same. -/
theorem Ahead.later {mems : Memory → Prop} {mem' : Memory} (h : p.Ahead mem m r U P)
    (hr : r.ReadsAt mems m) (hmem : mems mem) (hmem' : mems mem') : p.Ahead mem' m r U P := by
  obtain ⟨b, hb, hlow, hcursor⟩ := h.bound
  refine ⟨h.shaped, h.first, b, hb, hlow, fun d hd => ?_⟩
  obtain ⟨hat, hrest⟩ := hcursor d hd
  exact ⟨hat.later hr hmem hmem', hrest⟩

/-- The key of a posting is not below what it begins with. -/
theorem le_key (lead : Bytes) (d : DocKey) : lead ≤ key lead d :=
  Bytes.le_of_prefix (List.prefix_append _ _)

section FirstKey

variable {lead tail k v : Bytes} {b : Bound} {d : DocKey}

/-- Nothing is ahead where no key is. -/
theorem not_ahead_of_none (hseek : m.seek b .forward = none) (d : DocKey) :
    ¬ahead m U lead b d := by
  intro hd
  have hnear := m.nearest_seek b .forward
  rw [hseek] at hnear
  have hfound := hd.2.1
  rw [hnear _ hd.2.2] at hfound
  cases hfound

/-- What is ahead is not before the first key there. -/
theorem le_key_of_ahead (hseek : m.seek b .forward = some (k, v)) (hd : ahead m U lead b d) :
    k ≤ key lead d := by
  have hnear := m.nearest_seek b .forward
  rw [hseek] at hnear
  refine List.not_lt.mp fun hlt => ?_
  have hfound := hd.2.1
  rw [hnear.2.2 (key lead d) hd.2.2 (decide_eq_true hlt)] at hfound
  cases hfound

/-- Nothing is ahead if that key begins in another way. -/
theorem not_ahead_of_other (hlow : ∀ k, b.admits .forward k = true → lead ≤ k)
    (hseek : m.seek b .forward = some (k, v)) (hother : Bytes.after? lead k = none)
    (d : DocKey) : ¬ahead m U lead b d := by
  intro hd
  have hnear := m.nearest_seek b .forward
  rw [hseek] at hnear
  have hpre : lead <+: k := by
    rcases List.le_iff_lt_or_eq.mp (le_key_of_ahead hseek hd) with hlt | heq
    · exact Bytes.prefix_of_between (List.prefix_append _ _) (hlow k hnear.2.1) hlt
    · rw [heq]
      exact List.prefix_append _ _
  obtain ⟨rest, hrest⟩ := hpre
  rw [← hrest, Bytes.after?_append] at hother
  cases hother

/-- If it is read as no document, the same is ahead behind it. -/
theorem ahead_of_unread (hU : Universe U) (hseek : m.seek b .forward = some (lead ++ tail, v))
    (hunread : DocKey.ofTail? tail = none) :
    ahead m U lead b = ahead m U lead (.excluded (lead ++ tail)) := by
  have hnear := m.nearest_seek b .forward
  rw [hseek] at hnear
  funext d
  refine propext ⟨fun hd => ⟨hd.1, hd.2.1, ?_⟩, fun hd => ⟨hd.1, hd.2.1, ?_⟩⟩
  · rw [Bound.admits_excluded]
    refine decide_eq_true ((List.le_iff_lt_or_eq.mp (le_key_of_ahead hseek hd)).resolve_right
      fun heq => ?_)
    rw [List.append_cancel_left heq, DocKey.ofTail?_tail (hU.parsable d hd.1)] at hunread
    cases hunread
  · have hbehind := hd.2.2
    rw [Bound.admits_excluded] at hbehind
    exact Bound.admits_of_before hnear.2.1 hbehind

/-- If it is read as the posting of a document, that is the first. -/
theorem first_of_read (hshaped : Shaped m U lead)
    (hseek : m.seek b .forward = some (key lead d, v)) (hread : DocKey.ofTail? d.tail = some d) :
    First (ahead m U lead b) (some d) := by
  have hnear := m.nearest_seek b .forward
  rw [hseek] at hnear
  obtain ⟨hv, hadm, -⟩ := hnear
  refine ⟨⟨hshaped d.tail v d hv hread, Option.isSome_iff_exists.mpr ⟨v, hv⟩, hadm⟩,
    fun e he => decide_eq_false fun hlt => ?_⟩
  exact List.not_lt.mpr (le_key_of_ahead hseek he) ((Bytes.append_lt_append_iff lead _ _).mpr hlt)

end FirstKey

/-- A row is loaded at the first posting beyond the cursor's bound, if there is
fuel to pass over whatever lies before it. -/
theorem load_ok (hU : Universe U) {c : Cursor} {b : Bound} (hat : ReadView.At mem m r c b)
    (hd : c.direction = .forward) {lead : Bytes} (hshaped : Shaped m U lead)
    (hlow : ∀ k, b.admits .forward k = true → lead ≤ k) {fuel : Nat}
    (hfuel : (m.beyond b .forward).length < fuel) (display : String) (current : Option DocKey) :
    ∃ p', load mem r fuel ⟨c, lead, display, current⟩ = .ok p' ∧
      p'.Ahead mem m r U (ahead m U lead b) := by
  induction fuel generalizing c b current with
  | zero => exact absurd hfuel (Nat.not_lt_zero _)
  | succ fuel ih =>
      have hcurrent := hat.current
      rw [hd] at hcurrent
      rw [load]
      -- the row is at its end if nothing is ahead
      have hend (hnone : ∀ d, ¬ahead m U lead b d) :
          Ahead mem m r U ⟨c, lead, display, none⟩ (ahead m U lead b) :=
        ⟨hshaped, hnone, b, fun _ => Iff.rfl, hlow, fun _ hd => nomatch hd⟩
      cases hseek : m.seek b .forward with
      | none =>
          rw [hseek] at hcurrent
          exact ⟨⟨c, lead, display, none⟩, by simp only [hcurrent], hend (not_ahead_of_none hseek)⟩
      | some q =>
          obtain ⟨k, v⟩ := q
          rw [hseek] at hcurrent
          cases hafter : Bytes.after? lead k with
          | none =>
              exact ⟨⟨c, lead, display, none⟩, by simp only [hcurrent, hafter],
                hend (not_ahead_of_other hlow hseek hafter)⟩
          | some tail =>
              obtain rfl := Bytes.eq_append_of_after? hafter
              cases hread : DocKey.ofTail? tail with
              | none =>
                  -- this key is passed over, and nothing is lost
                  obtain ⟨c', hnext, hat', hdir⟩ := hat.next_ok hcurrent
                  have hrest : (m.beyond (.excluded (lead ++ tail)) .forward).length < fuel := by
                    rw [KeyMap.beyond_eq_cons hseek, List.length_cons] at hfuel
                    exact Nat.lt_of_succ_lt_succ hfuel
                  have hlow' (l : Bytes)
                      (hl : (Bound.excluded (lead ++ tail)).admits .forward l = true) :
                      lead ≤ l := by
                    rw [Bound.admits_excluded] at hl
                    exact List.le_trans (Bytes.le_of_prefix (List.prefix_append _ _))
                      (List.le_of_lt (of_decide_eq_true hl))
                  obtain ⟨p', hload, hahead⟩ := ih hat' (hdir.trans hd) hlow' hrest current
                  rw [ahead_of_unread hU hseek hread]
                  exact ⟨p', by simp only [hcurrent, hafter, hread, hnext, hload], hahead⟩
              | some d =>
                  obtain rfl : tail = d.tail := (DocKey.ofTail?_eq_some_iff.mp hread).1
                  refine ⟨⟨c, lead, display, some d⟩, by simp only [hcurrent, hafter, hread],
                    hshaped, first_of_read hshaped hseek hread, b, fun e => Iff.rfl, hlow,
                    fun e he => ?_⟩
                  cases he
                  exact ⟨hat, hd, v, hcurrent⟩

/-- The postings whose keys begin with `lead`, from the first on. -/
theorem start_ok (hU : Universe U) (hr : r.Reads mem m) {lead : Bytes}
    (hshaped : Shaped m U lead) (display : String) :
    ∃ p, start mem r lead display = .ok p ∧
      p.Ahead mem m r U (fun d => d ∈ U ∧ (m.find? (key lead d)).isSome = true) := by
  obtain ⟨c, hcursor, hat, hd⟩ := hr.cursorAt_ok lead
  have hlow : ∀ k, (Bound.included lead).admits .forward k = true → lead ≤ k :=
    fun k hk => of_decide_eq_true hk
  obtain ⟨p, hload, hahead⟩ := load_ok hU hat hd hshaped hlow (hr.length_beyond_lt _ _) display
    none
  refine ⟨p, ?_, ?_⟩
  · unfold start
    rw [hcursor]
    exact hload
  · have hall : (fun d => d ∈ U ∧ (m.find? (key lead d)).isSome = true)
        = ahead m U lead (.included lead) := by
      funext d
      refine propext ⟨fun h => ⟨h.1, h.2, decide_eq_true (le_key lead d)⟩, fun h => ⟨h.1, h.2.1⟩⟩
    rw [hall]
    exact hahead

/-- What is ahead behind the document that the row stands on are the documents
of all postings there. -/
theorem Ahead.behind_iff (h : p.Ahead mem m r U P) {d e : DocKey} (hcur : p.current = some d)
    (hbefore : d.before e = true) :
    P e ↔ e ∈ U ∧ (m.find? (key p.lead e)).isSome = true := by
  obtain ⟨b, hb, -⟩ := h.bound
  have hfirst := h.first
  rw [hcur] at hfirst
  have hadm := ((hb d).mp hfirst.1).2.2
  have hlt : Direction.forward.before (key p.lead d) (key p.lead e) = true :=
    decide_eq_true ((key_lt_iff _ _ _).mpr hbefore)
  rw [hb]
  exact ⟨fun he => ⟨he.1, he.2.1⟩, fun he => ⟨he.1, he.2, Bound.admits_of_before hadm hlt⟩⟩

/-- A row is moved to the next posting. -/
theorem next_ok (hU : Universe U) (h : p.Ahead mem m r U P) :
    ∃ p', p.next mem r = .ok p' ∧ p'.Ahead mem m r U (Move.next.rest p.current P) := by
  obtain ⟨b, hb, hlow, hcursor⟩ := h.bound
  have hfirst := h.first
  unfold Postings.next
  match hcur : p.current with
  | none =>
      rw [hcur] at hfirst
      refine ⟨p, rfl, h.shaped, ?_, b, fun d => ?_, hlow, hcursor⟩
      · rw [hcur]
        exact fun d hd => hfirst d hd.1
      · rw [← hb]
        exact ⟨fun hd => hd.1, fun hd => absurd hd (hfirst d)⟩
  | some d =>
      rw [hcur] at hfirst
      obtain ⟨hat, hdir, v, hc⟩ := hcursor d hcur
      obtain ⟨c', hnext, hat', hdir'⟩ := hat.next_ok hc
      have hlow' : ∀ k, (Bound.excluded (key p.lead d)).admits .forward k = true →
          p.lead ≤ k := by
        intro k hk
        rw [Bound.admits_excluded] at hk
        exact List.le_trans (le_key p.lead d) (List.le_of_lt (of_decide_eq_true hk))
      obtain ⟨p', hload, hahead⟩ := load_ok hU hat' (hdir'.trans hdir) h.shaped hlow'
        (hat.reads.length_beyond_lt _ _) p.display p.current
      refine ⟨p', ?_, ?_⟩
      · rw [hcur] at hload
        simp only [hnext]
        exact hload
      · have hrest : Move.next.rest (some d) P = ahead m U p.lead (.excluded (key p.lead d)) := by
          funext e
          refine propext ⟨fun he => ?_, fun he => ?_⟩
          · obtain ⟨heU, hfound, -⟩ := (hb e).mp he.1
            refine ⟨heU, hfound, ?_⟩
            rw [Bound.admits_excluded]
            exact decide_eq_true ((key_lt_iff _ _ _).mpr (he.2 d rfl))
          · obtain ⟨heU, hfound, hadm⟩ := he
            rw [Bound.admits_excluded] at hadm
            have hbefore := (key_lt_iff _ _ _).mp (of_decide_eq_true hadm)
            refine ⟨(h.behind_iff hcur hbefore).mpr ⟨heU, hfound⟩, ?_⟩
            rintro c ⟨⟩
            exact hbefore
        rw [hrest]
        exact hahead

/-- A row is moved to the first posting that is not before a document. -/
theorem seek_ok (hU : Universe U) (h : p.Ahead mem m r U P) (target : DocKey) :
    ∃ p', p.seek mem r target = .ok p' ∧
      p'.Ahead mem m r U ((Move.seek target).rest p.current P) := by
  obtain ⟨b, hb, hlow, hcursor⟩ := h.bound
  have hfirst := h.first
  unfold Postings.seek
  match hcur : p.current with
  | none =>
      rw [hcur] at hfirst
      refine ⟨p, rfl, ?_⟩
      rw [Move.rest_of_none _ _ hfirst]
      exact h
  | some d =>
      rw [hcur] at hfirst
      obtain ⟨hat, hdir, v, hc⟩ := hcursor d hcur
      cases hbefore : d.before target with
      | false =>
          refine ⟨p, by simp only [hbefore, Bool.false_eq_true, if_false], ?_⟩
          rw [Move.rest_seek_of_first _ hfirst hbefore]
          exact h
      | true =>
          obtain ⟨c', hseek, hat', hdir'⟩ := hat.seek_ok (key p.lead target)
          have hlow' : ∀ k, (Bound.included (key p.lead target)).admits .forward k = true →
              p.lead ≤ k :=
            fun k hk => List.le_trans (le_key p.lead target) (of_decide_eq_true hk)
          obtain ⟨p', hload, hahead⟩ := load_ok hU hat' (hdir'.trans hdir) h.shaped hlow'
            (hat.reads.length_beyond_lt _ _) p.display p.current
          refine ⟨p', ?_, ?_⟩
          · rw [hcur] at hload
            have hkey : p.lead ++ target.tail = key p.lead target := rfl
            simp only [hbefore, if_true, hkey, hseek]
            exact hload
          · have hrest : (Move.seek target).rest (some d) P
                = ahead m U p.lead (.included (key p.lead target)) := by
              funext e
              refine propext ⟨fun he => ?_, fun he => ?_⟩
              · obtain ⟨heU, hfound, -⟩ := (hb e).mp he.1
                refine ⟨heU, hfound, decide_eq_true (List.not_lt.mp fun hlt => ?_)⟩
                have := (key_lt_iff _ _ _).mp hlt
                rw [he.2] at this
                cases this
              · obtain ⟨heU, hfound, hadm⟩ := he
                have hle : key p.lead target ≤ key p.lead e := of_decide_eq_true hadm
                have hnot : e.before target = false := by
                  cases hlt : e.before target with
                  | false => rfl
                  | true => exact absurd ((key_lt_iff _ _ _).mpr hlt) (List.not_lt.mpr hle)
                have hbehind := DocKey.before_of_before_of_not hbefore hnot
                exact ⟨(h.behind_iff hcur hbehind).mpr ⟨heU, hfound⟩, hnot⟩
            rw [hrest]
            exact hahead

end Postings

end OrderedStore
