/-
Results: rows joined, and moved together.

Joined rows are rows: what is ahead of rows joined by `all` are the
documents that are ahead of each, and of rows joined by `any` those ahead
of some (`Results.Ahead`, by the tree). A move leaves of a set what it
leaves of the sets it is joined from, so every step keeps this, and a row
goes through its documents in order, each once.

Fuel bounds how deep the steps call each other. Rows that are aligned move
to a target that goes up the universe, so they align after as many rounds
as the universe has documents; each round calls the rows, which are fewer
than the rows joined (`need`). With that much fuel a step is at its end, and
more of it makes no difference: what a step gives, it gives with any fuel from
there on.
-/
import Mathlib
import OrderedStore.Proofs.Postings

namespace OrderedStore

namespace Results

variable {mem : Memory} {m : KeyMap Bytes} {r : ReadView} {U : List DocKey}

-- ========================================================= what is ahead

mutual

/-- What is ahead of results. Rows that are joined by `all` count only as
long as all of them stand on the document. -/
def Ahead (mem : Memory) (m : KeyMap Bytes) (r : ReadView) (U : List DocKey) :
    Results → DocSet → Prop
  | .empty, P => ∀ d, ¬P d
  | .token p, P => p.Ahead mem m r U P
  | .all children current, P =>
    (∀ d, P d → d ∈ U) ∧ First P current ∧ (current.isSome = true → ∃ Ps : List DocSet,
      AheadEach mem m r U children Ps ∧ Ps ≠ [] ∧ (∀ d, P d ↔ ∀ Q ∈ Ps, Q d) ∧
        ∀ Q ∈ Ps, First Q current)
  | .any children current, P =>
    (∀ d, P d → d ∈ U) ∧ First P current ∧ ∃ Ps : List DocSet,
      AheadEach mem m r U children Ps ∧ ∀ d, P d ↔ ∃ Q ∈ Ps, Q d

/-- What is ahead of several results, one by one. -/
def AheadEach (mem : Memory) (m : KeyMap Bytes) (r : ReadView) (U : List DocKey) :
    List Results → List DocSet → Prop
  | [], [] => True
  | x :: xs, P :: Ps => Ahead mem m r U x P ∧ AheadEach mem m r U xs Ps
  | _, _ => False

end

variable {x : Results} {xs : List Results} {P : DocSet} {Ps : List DocSet}

/-- What is ahead comes from the universe. -/
theorem Ahead.within (h : x.Ahead mem m r U P) {d : DocKey} (hd : P d) : d ∈ U := by
  cases x with
  | empty => exact absurd hd (h d)
  | token p => exact Postings.Ahead.within h hd
  | all children current => exact h.1 d hd
  | any children current => exact h.1 d hd

/-- Results stand on the first document that is ahead. -/
theorem Ahead.first (h : x.Ahead mem m r U P) : First P x.position := by
  cases x with
  | empty => exact h
  | token p => exact Postings.Ahead.first h
  | all children current => exact h.2.1
  | any children current => exact h.2.1

/-- Every row has its set. -/
theorem AheadEach.of_mem (h : AheadEach mem m r U xs Ps) (hx : x ∈ xs) :
    ∃ P ∈ Ps, x.Ahead mem m r U P := by
  induction xs generalizing Ps with
  | nil => cases hx
  | cons y ys ih =>
      cases Ps with
      | nil => exact h.elim
      | cons Q Qs =>
          rcases List.mem_cons.mp hx with rfl | hx
          · exact ⟨Q, List.mem_cons_self, h.1⟩
          · obtain ⟨P, hP, hahead⟩ := ih h.2 hx
            exact ⟨P, List.mem_cons_of_mem _ hP, hahead⟩

/-- Every set has its row. -/
theorem AheadEach.of_mem_set (h : AheadEach mem m r U xs Ps) (hP : P ∈ Ps) :
    ∃ x ∈ xs, x.Ahead mem m r U P := by
  induction xs generalizing Ps with
  | nil =>
      cases Ps with
      | nil => cases hP
      | cons Q Qs => exact h.elim
  | cons y ys ih =>
      cases Ps with
      | nil => cases hP
      | cons Q Qs =>
          rcases List.mem_cons.mp hP with rfl | hP
          · exact ⟨y, List.mem_cons_self, h.1⟩
          · obtain ⟨x, hx, hahead⟩ := ih h.2 hP
            exact ⟨x, List.mem_cons_of_mem _ hx, hahead⟩

section Later

variable {mems : Memory → Prop} {mem' : Memory}

mutual

/-- The same is ahead at any other moment at which what is read from reads the
same. -/
theorem Ahead.later (hr : r.ReadsAt mems m) (hmem : mems mem) (hmem' : mems mem') :
    ∀ {x : Results} {P : DocSet}, x.Ahead mem m r U P → x.Ahead mem' m r U P
  | .empty, _, h => h
  | .token p, P, h => Postings.Ahead.later h hr hmem hmem'
  | .all xs current, P, h => by
      refine ⟨h.1, h.2.1, fun hsome => ?_⟩
      obtain ⟨Ps, heach, hrest⟩ := h.2.2 hsome
      exact ⟨Ps, AheadEach.later hr hmem hmem' heach, hrest⟩
  | .any xs current, P, h => by
      obtain ⟨hwithin, hfirst, Ps, heach, hset⟩ := h
      exact ⟨hwithin, hfirst, Ps, AheadEach.later hr hmem hmem' heach, hset⟩

/-- So it is for several results. -/
theorem AheadEach.later (hr : r.ReadsAt mems m) (hmem : mems mem) (hmem' : mems mem') :
    ∀ {xs : List Results} {Ps : List DocSet}, AheadEach mem m r U xs Ps →
      AheadEach mem' m r U xs Ps
  | [], [], h => h
  | [], _ :: _, h => h
  | _ :: _, [], h => h
  | _ :: _, _ :: _, h => ⟨Ahead.later hr hmem hmem' h.1, AheadEach.later hr hmem hmem' h.2⟩

end

end Later

-- ================================================================== rows

/-- A row is one of the rows it is joined with. -/
theorem rows_le_rowsOfAll (hx : x ∈ xs) : x.rows ≤ rowsOfAll xs := by
  induction xs with
  | nil => cases hx
  | cons y ys ih =>
      rw [rowsOfAll]
      rcases List.mem_cons.mp hx with rfl | hx
      · omega
      · have := ih hx
        omega

/-- Leaving rows out makes them fewer. -/
theorem rowsOfAll_filter_le (test : Results → Bool) (xs : List Results) :
    rowsOfAll (xs.filter test) ≤ rowsOfAll xs := by
  induction xs with
  | nil => exact Nat.le_refl _
  | cons x xs ih =>
      rw [List.filter_cons]
      split
      · rw [rowsOfAll, rowsOfAll]
        omega
      · rw [rowsOfAll]
        omega

/-- A step that is made with each of several rows, with fuel from some on. -/
theorem mapM_ok {f : Nat → Results → Except Failure Results} {g : DocSet → DocSet} {k : Nat}
    (h : AheadEach mem m r U xs Ps)
    (hf : ∀ x ∈ xs, ∀ P ∈ Ps, x.Ahead mem m r U P →
      ∃ x', (∀ fuel, k ≤ fuel → f fuel x = .ok x') ∧ x'.Ahead mem m r U (g P) ∧
        x'.rows ≤ x.rows) :
    ∃ xs', (∀ fuel, k ≤ fuel → xs.mapM (f fuel) = .ok xs') ∧
      AheadEach mem m r U xs' (Ps.map g) ∧ rowsOfAll xs' ≤ rowsOfAll xs := by
  induction xs generalizing Ps with
  | nil =>
      cases Ps with
      | nil => exact ⟨[], fun _ _ => rfl, trivial, Nat.le_refl _⟩
      | cons Q Qs => exact h.elim
  | cons y ys ih =>
      cases Ps with
      | nil => exact h.elim
      | cons Q Qs =>
          obtain ⟨y', hy, hahead, hrows⟩ := hf y List.mem_cons_self Q List.mem_cons_self h.1
          obtain ⟨ys', hys, haheads, hrowss⟩ := ih h.2 fun x hx P hP =>
            hf x (List.mem_cons_of_mem _ hx) P (List.mem_cons_of_mem _ hP)
          refine ⟨y' :: ys', fun fuel hfuel => ?_, ⟨hahead, haheads⟩, ?_⟩
          · rw [List.mapM_cons, hy fuel hfuel, ok_bind, hys fuel hfuel, ok_bind]
            rfl
          · rw [rowsOfAll, rowsOfAll]
            omega

-- ============================================================ any of rows

/-- The nearer of the first of two sets is the first of both together. -/
theorem first_nearerOf {P Q : DocSet} {p q : Option DocKey} (hp : First P p) (hq : First Q q) :
    First (fun d => P d ∨ Q d) (nearerOf p q) := by
  match p, q with
  | none, none => exact fun d hd => hd.elim (hp d) (hq d)
  | none, some c =>
      refine ⟨Or.inr hq.1, fun d hd => ?_⟩
      exact hd.elim (fun h => absurd h (hp d)) (hq.2 d)
  | some c, none =>
      refine ⟨Or.inl hp.1, fun d hd => ?_⟩
      exact hd.elim (hp.2 d) fun h => absurd h (hq d)
  | some c, some e =>
      have hmin {a b : DocKey} {R : DocSet} (hR : ∀ d, R d → d.before b = false)
          (hab : b.before a = false) (d : DocKey) (hd : R d) : d.before a = false := by
        cases hda : d.before a with
        | false => rfl
        | true => rw [← hR d hd, DocKey.before_of_before_of_not hda hab]
      cases hec : e.before c with
      | true =>
          have hnear : nearerOf (some c) (some e) = some e := by
            simp only [nearerOf, nearer, hec, if_true]
          rw [hnear]
          have hce : c.before e = false := by
            cases hce : c.before e with
            | false => rfl
            | true => rw [← DocKey.before_irrefl c, DocKey.before_trans hce hec]
          refine ⟨Or.inr hq.1, fun d hd => ?_⟩
          exact hd.elim (hmin hp.2 hce d) (hq.2 d)
      | false =>
          have hnear : nearerOf (some c) (some e) = some c := by
            simp only [nearerOf, nearer, hec, Bool.false_eq_true, if_false]
          rw [hnear]
          refine ⟨Or.inl hp.1, fun d hd => ?_⟩
          exact hd.elim (hp.2 d) (hmin hq.2 hec d)

/-- The nearest document that rows stand on is the first that is ahead of
some. -/
theorem first_nearest (h : AheadEach mem m r U xs Ps) :
    First (fun d => ∃ Q ∈ Ps, Q d) (nearest xs) := by
  have hfold : ∀ (found : Option DocKey) (P : DocSet), First P found →
      First (fun d => P d ∨ ∃ Q ∈ Ps, Q d)
        (xs.foldl (fun found x => nearerOf found x.position) found) := by
    induction xs generalizing Ps with
    | nil =>
        intro found P hP
        cases Ps with
        | nil =>
            have hsame : (fun d => P d ∨ ∃ Q ∈ ([] : List DocSet), Q d) = P := by
              funext d
              simp
            rw [hsame]
            exact hP
        | cons Q Qs => exact h.elim
    | cons x xs ih =>
        intro found P hP
        cases Ps with
        | nil => exact h.elim
        | cons Q Qs =>
            have hsame : (fun d => P d ∨ ∃ R ∈ Q :: Qs, R d)
                = fun d => (P d ∨ Q d) ∨ ∃ R ∈ Qs, R d := by
              funext d
              simp [or_assoc]
            rw [hsame]
            exact ih h.2 _ _ (first_nearerOf hP h.1.first)
  have hall := hfold none (fun _ => False) fun _ hd => hd
  have hsame : (fun d => False ∨ ∃ Q ∈ Ps, Q d) = fun d => ∃ Q ∈ Ps, Q d := by
    funext d
    simp
  rw [hsame] at hall
  exact hall

/-- Rows that are at their end can be left out of a choice. -/
theorem aheadEach_filter (h : AheadEach mem m r U xs Ps) :
    ∃ Qs, AheadEach mem m r U (xs.filter isValid) Qs ∧
      ∀ d, (∃ Q ∈ Qs, Q d) ↔ ∃ Q ∈ Ps, Q d := by
  induction xs generalizing Ps with
  | nil =>
      cases Ps with
      | nil => exact ⟨[], trivial, fun d => Iff.rfl⟩
      | cons Q Qs => exact h.elim
  | cons x xs ih =>
      cases Ps with
      | nil => exact h.elim
      | cons Q Qs =>
          obtain ⟨Rs, hRs, hsame⟩ := ih h.2
          cases hvalid : x.isValid with
          | true =>
              refine ⟨Q :: Rs, ?_, fun d => ?_⟩
              · rw [List.filter_cons_of_pos hvalid]
                exact ⟨h.1, hRs⟩
              · simp only [List.mem_cons, exists_eq_or_imp, hsame]
          | false =>
              have hnone : x.position = none := by
                unfold isValid at hvalid
                rwa [Option.isSome_eq_false_iff, Option.isNone_iff_eq_none] at hvalid
              have hQ := h.1.first
              rw [hnone] at hQ
              refine ⟨Rs, ?_, fun d => ?_⟩
              · rw [List.filter_cons_of_neg (by rw [hvalid]; exact Bool.false_ne_true)]
                exact hRs
              · simp only [List.mem_cons, exists_eq_or_imp, hsame]
                exact ⟨Or.inr, fun hd => hd.resolve_left (hQ d)⟩

/-- Rows joined by choice have ahead what some of them have. -/
theorem ahead_ofAny (h : AheadEach mem m r U xs Ps) :
    (ofAny xs).Ahead mem m r U (fun d => ∃ Q ∈ Ps, Q d) := by
  obtain ⟨Qs, hQs, hsame⟩ := aheadEach_filter h
  have hsets : (fun d => ∃ Q ∈ Ps, Q d) = fun d => ∃ Q ∈ Qs, Q d := by
    funext d
    exact propext (hsame d).symm
  rw [hsets]
  refine ⟨fun d hd => ?_, first_nearest hQs, Qs, hQs, fun d => Iff.rfl⟩
  obtain ⟨Q, hQ, hd⟩ := hd
  obtain ⟨x, -, hx⟩ := hQs.of_mem_set hQ
  exact hx.within hd

/-- They are no more rows than there were, and one. -/
theorem rows_ofAny_le (xs : List Results) : (ofAny xs).rows ≤ rowsOfAll xs + 1 := by
  have := rowsOfAll_filter_le isValid xs
  unfold ofAny
  rw [rows]
  omega

-- =========================================================== all of rows

/-- The farthest of several documents: one of them, and none of them is
behind it. -/
theorem farther_spec (d e : DocKey) :
    (farther d e = d ∨ farther d e = e) ∧ (farther d e).before d = false ∧
      (farther d e).before e = false := by
  unfold farther
  cases hde : d.before e with
  | true =>
      have hed : e.before d = false := by
        cases hed : e.before d with
        | false => rfl
        | true => rw [← DocKey.before_irrefl d, DocKey.before_trans hde hed]
      exact ⟨Or.inr rfl, hed, DocKey.before_irrefl e⟩
  | false => exact ⟨Or.inl rfl, DocKey.before_irrefl d, hde⟩

/-- The farthest document that rows stand on: one of theirs, and none of
theirs is behind it. -/
theorem farthest_some {xs : List Results} {t : DocKey} (h : farthest xs = some t) :
    (∃ x ∈ xs, x.position = some t) ∧
      ∀ x ∈ xs, ∃ d, x.position = some d ∧ t.before d = false := by
  induction xs generalizing t with
  | nil => cases h
  | cons x xs ih =>
      cases xs with
      | nil =>
          rw [farthest] at h
          refine ⟨⟨x, List.mem_cons_self, h⟩, fun y hy => ?_⟩
          rw [List.mem_singleton.mp hy]
          exact ⟨t, h, DocKey.before_irrefl t⟩
      | cons y ys =>
          rw [farthest] at h
          · split at h
            · next d e hd he =>
                cases h
                obtain ⟨hone, hmax⟩ := ih he
                obtain ⟨hchoice, hfd, hfe⟩ := farther_spec d e
                refine ⟨?_, fun z hz => ?_⟩
                · rcases hchoice with heq | heq
                  · exact ⟨x, List.mem_cons_self, by rw [hd, heq]⟩
                  · obtain ⟨z, hz, hpos⟩ := hone
                    exact ⟨z, List.mem_cons_of_mem _ hz, by rw [hpos, heq]⟩
                · rcases List.mem_cons.mp hz with rfl | hz
                  · exact ⟨d, hd, hfd⟩
                  · obtain ⟨f, hf, hef⟩ := hmax z hz
                    refine ⟨f, hf, ?_⟩
                    cases hlt : (farther d e).before f with
                    | false => rfl
                    | true => rw [← hef, DocKey.before_of_not_before hfe hlt]
            · cases h
          · exact List.cons_ne_nil y ys

/-- If there is no farthest document, a row is at its end, or there is no
row. -/
theorem farthest_none {xs : List Results} (h : farthest xs = none) (hne : xs ≠ []) :
    ∃ x ∈ xs, x.position = none := by
  induction xs with
  | nil => exact absurd rfl hne
  | cons x xs ih =>
      cases xs with
      | nil => exact ⟨x, List.mem_cons_self, h⟩
      | cons y ys =>
          rw [farthest] at h
          · split at h
            · cases h
            · next hnot =>
                cases hpos : x.position with
                | none => exact ⟨x, List.mem_cons_self, hpos⟩
                | some d =>
                    cases hfar : farthest (y :: ys) with
                    | some e => exact absurd hfar (hnot d e hpos)
                    | none =>
                        obtain ⟨z, hz, hend⟩ := ih hfar (List.cons_ne_nil y ys)
                        exact ⟨z, List.mem_cons_of_mem _ hz, hend⟩
          · exact List.cons_ne_nil y ys

-- ================================================================== fuel

/-- The fuel that is enough to move so many rows. -/
def need (U : List DocKey) (rows : Nat) : Nat :=
  (U.length + 4) * rows

/-- Fewer rows need no more. -/
theorem need_mono {a b : Nat} (h : a ≤ b) : need U a ≤ need U b :=
  Nat.mul_le_mul_left _ h

/-- One row more needs as much as rounds and steps can take. -/
theorem need_succ (a : Nat) : need U (a + 1) = need U a + (U.length + 4) :=
  Nat.mul_succ _ _

/-- How many documents of the universe are not before the target. -/
def left (U : List DocKey) (t : DocKey) : Nat :=
  (U.filter fun d => !d.before t).length

/-- They are documents of the universe. -/
theorem left_le (t : DocKey) : left U t ≤ U.length :=
  List.length_filter_le _ _

/-- There are fewer of them when the target has gone up. -/
theorem left_lt {t t' : DocKey} (ht : t ∈ U) (h : t.before t' = true) :
    left U t' < left U t := by
  have hnarrow : (U.filter fun d => !d.before t')
      = (U.filter fun d => !d.before t).filter fun d => !d.before t' := by
    rw [List.filter_filter]
    refine List.filter_congr fun d _ => ?_
    cases hdt : d.before t with
    | false => simp
    | true => rw [DocKey.before_trans hdt h]; rfl
  unfold left
  rw [hnarrow]
  refine List.length_filter_lt_length_iff_exists.mpr ⟨t, List.mem_filter.mpr ⟨ht, ?_⟩, ?_⟩
  · rw [DocKey.before_irrefl]
    rfl
  · rw [h]
    exact Bool.false_ne_true

/-- The target itself is one of them. -/
theorem left_pos {t : DocKey} (ht : t ∈ U) : 1 ≤ left U t := by
  refine List.length_pos_of_mem (List.mem_filter.mpr ⟨ht, ?_⟩)
  rw [DocKey.before_irrefl]
  rfl

/-- There is one more row than are joined. -/
theorem rows_pos (x : Results) : 1 ≤ x.rows := by
  cases x <;> rw [rows] <;> omega

-- ================================================================= moving

/-- Results of so many rows move as they should: a move comes to its end, and
leaves what it is to leave. -/
def Moves (mem : Memory) (m : KeyMap Bytes) (r : ReadView) (U : List DocKey) (n : Nat) : Prop :=
  ∀ x P, x.rows ≤ n → Ahead mem m r U x P → ∀ mv,
    ∃ x', (∀ fuel, need U x.rows ≤ fuel → move mem r fuel mv x = .ok x') ∧
      x'.Ahead mem m r U (mv.rest x.position P) ∧ x'.rows ≤ x.rows

variable {n fuel : Nat}

/-- A row that has nothing before a document passes it with one move, if it
stands there, and with none otherwise. -/
theorem pass_eq (hU : Universe U) (hmoves : Moves mem m r U n) (hn : x.rows ≤ n)
    (h : x.Ahead mem m r U P) {e : DocKey} (he : e ∈ U) (hlow : ∀ d, P d → d.before e = false)
    (hfuel : need U x.rows ≤ fuel + 1) :
    pass mem r (fuel + 2) e x
      = if x.position = some e then move mem r (fuel + 1) .next x else .ok x := by
  have hfirst := h.first
  rw [pass]
  cases hpos : x.position with
  | none => rfl
  | some d =>
      rw [hpos] at hfirst
      cases hbefore : e.before d with
      | true =>
          have hne : some d ≠ some e := by
            rintro ⟨⟩
            rw [DocKey.before_irrefl] at hbefore
            cases hbefore
          rw [if_neg hne]
          simp only [hbefore, if_true]
      | false =>
          obtain rfl : d = e :=
            hU.eq_of_not_before (h.within hfirst.1) he (hlow d hfirst.1) hbefore
          obtain ⟨x', hmove, hahead, -⟩ := hmoves x P hn h .next
          have hfirst' := hahead.first
          rw [if_pos rfl]
          simp only [hbefore, Bool.false_eq_true, if_false, hmove (fuel + 1) hfuel]
          -- behind the document the row stays
          rw [pass]
          cases hpos' : x'.position with
          | none => rfl
          | some d' =>
              rw [hpos'] at hfirst'
              simp only [hfirst'.1.2 d hpos, if_true]

/-- A row that has nothing before a document moves behind it. -/
theorem pass_ok (hU : Universe U) (hmoves : Moves mem m r U n) (hn : x.rows ≤ n)
    (h : x.Ahead mem m r U P) {e : DocKey} (he : e ∈ U) (hlow : ∀ d, P d → d.before e = false) :
    ∃ x', (∀ fuel, need U x.rows + 2 ≤ fuel → pass mem r fuel e x = .ok x') ∧
      x'.Ahead mem m r U (fun d => P d ∧ e.before d = true) ∧ x'.rows ≤ x.rows := by
  have hpass (fuel : Nat) (hfuel : need U x.rows + 2 ≤ fuel) : pass mem r fuel e x
      = if x.position = some e then move mem r (fuel - 1) .next x else .ok x := by
    obtain ⟨fuel, rfl⟩ : ∃ f, fuel = f + 2 := ⟨fuel - 2, by omega⟩
    exact pass_eq hU hmoves hn h he hlow (by omega)
  by_cases hpos : x.position = some e
  · obtain ⟨x', hmove, hahead, hrows⟩ := hmoves x P hn h .next
    have hrest : Move.next.rest x.position P = fun f => P f ∧ e.before f = true := by
      funext f
      rw [hpos]
      refine propext ⟨fun hf => ⟨hf.1, hf.2 e rfl⟩, fun hf => ⟨hf.1, ?_⟩⟩
      rintro c ⟨⟩
      exact hf.2
    rw [hrest] at hahead
    refine ⟨x', fun fuel hfuel => ?_, hahead, hrows⟩
    rw [hpass fuel hfuel, if_pos hpos]
    exact hmove (fuel - 1) (by omega)
  · have hfirst := h.first
    have hall (f : DocKey) (hf : P f) : e.before f = true := by
      cases hd : x.position with
      | none =>
          rw [hd] at hfirst
          exact absurd hf (hfirst f)
      | some d =>
          rw [hd] at hfirst hpos
          cases hbefore : e.before d with
          | true => exact DocKey.before_of_before_of_not hbefore (hfirst.2 f hf)
          | false =>
              exact absurd (congrArg some (hU.eq_of_not_before (h.within hfirst.1) he
                (hlow d hfirst.1) hbefore)) hpos
    have hsame : (fun d => P d ∧ e.before d = true) = P := by
      funext f
      exact propext ⟨fun hf => hf.1, fun hf => ⟨hf, hall f hf⟩⟩
    rw [hsame]
    refine ⟨x, fun fuel hfuel => ?_, h, Nat.le_refl _⟩
    rw [hpass fuel hfuel, if_neg hpos]

/-- Results that stand on a document have it first. -/
theorem Ahead.first_of_standsOn (h : x.Ahead mem m r U P) (hU : Universe U) {t : DocKey}
    (ht : t ∈ U) (hstands : x.standsOn t = true) : First P (some t) := by
  have hfirst := h.first
  unfold standsOn at hstands
  cases hpos : x.position with
  | none =>
      rw [hpos] at hstands
      cases hstands
  | some d =>
      rw [hpos] at hstands hfirst
      have hsame : t = d := hU.eq_of_same ht (h.within hfirst.1) hstands
      rw [hsame]
      exact hfirst

/-- A target that does not go up is what all rows stand on. -/
theorem before_of_not_all_standsOn (hU : Universe U) (h : AheadEach mem m r U xs Ps)
    {t t' : DocKey} (ht : t ∈ U) (hlow : ∀ Q ∈ Ps, ∀ d, Q d → d.before t = false)
    (hfar : farthest xs = some t') (hnot : (xs.all fun x => x.standsOn t') = false) :
    t.before t' = true := by
  obtain ⟨⟨x, hx, hpos⟩, hmax⟩ := farthest_some hfar
  have hstand (y : Results) (hy : y ∈ xs) {d : DocKey} (hd : y.position = some d) :
      d ∈ U ∧ d.before t = false := by
    obtain ⟨Q, hQ, hahead⟩ := h.of_mem hy
    have hfirst := hahead.first
    rw [hd] at hfirst
    exact ⟨hahead.within hfirst.1, hlow Q hQ d hfirst.1⟩
  cases hbefore : t.before t' with
  | true => rfl
  | false =>
      obtain ⟨htU, hlow'⟩ := hstand x hx hpos
      obtain rfl : t = t' := hU.eq_of_not_before ht htU hbefore hlow'
      rw [← hnot]
      refine List.all_eq_true.mpr fun y hy => ?_
      obtain ⟨d, hd, hnotbehind⟩ := hmax y hy
      obtain ⟨hdU, hdlow⟩ := hstand y hy hd
      obtain rfl : d = t := hU.eq_of_not_before hdU ht hdlow hnotbehind
      unfold standsOn
      rw [hd]
      exact beq_self_eq_true _

/-- A round leaves of each row what is not before the target: a row that
stands there stays, any other seeks. -/
theorem align_row_ok (hU : Universe U) (hmoves : Moves mem m r U n)
    (h : x.Ahead mem m r U P) {t : DocKey} (ht : t ∈ U) (hn : x.rows ≤ n) :
    ∃ x', (∀ fuel, need U x.rows ≤ fuel →
        (if x.standsOn t then .ok x else move mem r fuel (.seek t) x) = .ok x') ∧
      x'.Ahead mem m r U ((Move.seek t).rest none P) ∧ x'.rows ≤ x.rows := by
  cases hstands : x.standsOn t with
  | true =>
      have hfirst := h.first_of_standsOn hU ht hstands
      have hrest : (Move.seek t).rest none P = P := by
        funext d
        exact propext ⟨fun hd => hd.1, fun hd => ⟨hd, hfirst.2 d hd⟩⟩
      rw [hrest]
      exact ⟨x, fun _ _ => rfl, h, Nat.le_refl _⟩
  | false =>
      obtain ⟨x', hmove, hahead, hrows⟩ := hmoves x P hn h (.seek t)
      exact ⟨x', hmove, hahead, hrows⟩

/-- A round is made with all rows: the farthest document they stand on then is
as far as the target, or they stand on it. -/
theorem align_round_ok (hU : Universe U) (hmoves : Moves mem m r U n)
    (h : AheadEach mem m r U xs Ps) (hn : rowsOfAll xs ≤ n) {t : DocKey} (ht : t ∈ U) :
    ∃ xs', (∀ fuel, need U (rowsOfAll xs) ≤ fuel →
        xs.mapM (fun y => if y.standsOn t then .ok y else move mem r fuel (.seek t) y)
          = .ok xs') ∧
      AheadEach mem m r U xs' (Ps.map ((Move.seek t).rest none)) ∧
      rowsOfAll xs' ≤ rowsOfAll xs ∧
      ∀ t', farthest xs' = some t' → (xs'.all fun x => x.standsOn t') = false →
        need U (rowsOfAll xs') + left U t' + 1 ≤ need U (rowsOfAll xs) + left U t := by
  obtain ⟨xs', hmap, heach, hrows⟩ :=
    mapM_ok (k := need U (rowsOfAll xs)) (g := (Move.seek t).rest none) h fun y hy R hR hyR =>
      (align_row_ok hU hmoves hyR ht (le_trans (rows_le_rowsOfAll hy) hn)).imp fun _ hy' =>
        ⟨fun fuel hfuel => hy'.1 fuel (le_trans (need_mono (rows_le_rowsOfAll hy)) hfuel), hy'.2⟩
  have hlow (R) (hR : R ∈ Ps.map ((Move.seek t).rest none)) (d) (hd : R d) :
      d.before t = false := by
    obtain ⟨S, -, rfl⟩ := List.mem_map.mp hR
    exact hd.2
  refine ⟨xs', hmap, heach, hrows, fun t' hfar' hnot' => ?_⟩
  have := left_lt ht (before_of_not_all_standsOn hU heach ht hlow hfar' hnot')
  have := need_mono (U := U) hrows
  omega

/-- Each of several rows seeks. -/
theorem seekEach_ok (hmoves : Moves mem m r U n) (h : AheadEach mem m r U xs Ps)
    (hn : rowsOfAll xs ≤ n) (target : DocKey) :
    ∃ xs', (∀ fuel, need U (rowsOfAll xs) ≤ fuel →
        xs.mapM (move mem r fuel (.seek target)) = .ok xs') ∧
      AheadEach mem m r U xs' (Ps.map ((Move.seek target).rest none)) ∧
      rowsOfAll xs' ≤ rowsOfAll xs :=
  mapM_ok (g := (Move.seek target).rest none) h fun y hy Q _ hyQ =>
    (hmoves y Q (le_trans (rows_le_rowsOfAll hy) hn) hyQ (.seek target)).imp fun _ hy' =>
      ⟨fun fuel hfuel => hy'.1 fuel (le_trans (need_mono (rows_le_rowsOfAll hy)) hfuel), hy'.2⟩

/-- Each of several rows that have nothing before a document passes it. -/
theorem passEach_ok (hU : Universe U) (hmoves : Moves mem m r U n)
    (h : AheadEach mem m r U xs Ps) (hn : rowsOfAll xs ≤ n) {e : DocKey} (he : e ∈ U)
    (hlow : ∀ Q ∈ Ps, ∀ d, Q d → d.before e = false) :
    ∃ xs', (∀ fuel, need U (rowsOfAll xs) + 2 ≤ fuel → xs.mapM (pass mem r fuel e) = .ok xs') ∧
      AheadEach mem m r U xs' (Ps.map fun Q d => Q d ∧ e.before d = true) ∧
      rowsOfAll xs' ≤ rowsOfAll xs :=
  mapM_ok (g := fun Q d => Q d ∧ e.before d = true) h fun _ hy Q hQ hyQ =>
    (pass_ok hU hmoves (le_trans (rows_le_rowsOfAll hy) hn) hyQ he (hlow Q hQ)).imp fun _ hy' =>
      ⟨fun fuel hfuel => hy'.1 fuel (le_trans (Nat.add_le_add_right
        (need_mono (rows_le_rowsOfAll hy)) 2) hfuel), hy'.2⟩

/-- What all sets have is not before the first document of one of them. -/
theorem forall_mem_rest {Q : DocSet} (hQ : Q ∈ Ps) {t : DocKey} (hfirst : First Q (some t)) :
    (fun d => ∀ R ∈ Ps.map ((Move.seek t).rest none), R d) = fun d => ∀ R ∈ Ps, R d := by
  funext d
  refine propext ⟨fun hd R hR => ?_, fun hd R hR => ?_⟩
  · exact (hd _ (List.mem_map_of_mem hR)).1
  · obtain ⟨S, hS, rfl⟩ := List.mem_map.mp hR
    exact ⟨hd S hS, hfirst.2 d (hd Q hQ)⟩

/-- Rows are aligned: what is ahead of them together is what is ahead of
each. -/
theorem align_ok (hU : Universe U) (hmoves : Moves mem m r U n)
    (h : AheadEach mem m r U xs Ps) (hne : Ps ≠ []) (hn : rowsOfAll xs ≤ n) (k : Nat)
    (hpos : 1 ≤ k)
    (hk : ∀ t, farthest xs = some t → (xs.all fun x => x.standsOn t) = false →
      need U (rowsOfAll xs) + left U t + 1 ≤ k) :
    ∃ x', (∀ fuel, k ≤ fuel → align mem r fuel xs = .ok x') ∧
      x'.Ahead mem m r U (fun d => ∀ Q ∈ Ps, Q d) ∧ x'.rows ≤ rowsOfAll xs + 1 := by
  have hwithin {Ps : List DocSet} {xs : List Results} (h : AheadEach mem m r U xs Ps)
      (hne : Ps ≠ []) (d : DocKey) (hd : ∀ Q ∈ Ps, Q d) : d ∈ U := by
    obtain ⟨Q, Qs, rfl⟩ := List.exists_cons_of_ne_nil hne
    obtain ⟨x, -, hx⟩ := h.of_mem_set List.mem_cons_self
    exact hx.within (hd Q List.mem_cons_self)
  induction k generalizing xs Ps with
  | zero => omega
  | succ k ih =>
      have hstep (fuel : Nat) (hfuel : k + 1 ≤ fuel) : ∃ f, fuel = f + 1 ∧ k ≤ f :=
        ⟨fuel - 1, by omega, by omega⟩
      cases hfar : farthest xs with
      | none =>
          refine ⟨.all xs none, fun fuel hfuel => ?_,
            ⟨hwithin h hne, fun d hd => ?_, fun hsome => nomatch hsome⟩, Nat.le_refl _⟩
          · obtain ⟨f, rfl, -⟩ := hstep fuel hfuel
            rw [align]
            simp only [hfar]
          have hxs : xs ≠ [] := by
            rintro rfl
            cases Ps with
            | nil => exact hne rfl
            | cons Q Qs => exact h.elim
          obtain ⟨x, hx, hend⟩ := farthest_none hfar hxs
          obtain ⟨Q, hQ, hahead⟩ := h.of_mem hx
          have hfirst := hahead.first
          rw [hend] at hfirst
          exact hfirst d (hd Q hQ)
      | some t =>
          obtain ⟨⟨x, hx, hxt⟩, -⟩ := farthest_some hfar
          obtain ⟨Q, hQ, hahead⟩ := h.of_mem hx
          have hfirst := hahead.first
          rw [hxt] at hfirst
          have ht : t ∈ U := hahead.within hfirst.1
          cases hall : xs.all fun x => x.standsOn t with
          | true =>
              have hfirsts (R : DocSet) (hR : R ∈ Ps) : First R (some t) := by
                obtain ⟨y, hy, hyR⟩ := h.of_mem_set hR
                exact hyR.first_of_standsOn hU ht (List.all_eq_true.mp hall y hy)
              refine ⟨.all xs (some t), fun fuel hfuel => ?_,
                ⟨hwithin h hne, ⟨fun R hR => (hfirsts R hR).1, fun d hd => ?_⟩,
                  fun _ => ⟨Ps, h, hne, fun d => Iff.rfl, hfirsts⟩⟩, Nat.le_refl _⟩
              · obtain ⟨f, rfl, -⟩ := hstep fuel hfuel
                rw [align]
                simp only [hfar, hall, if_true]
              · exact hfirst.2 d (hd Q hQ)
          | false =>
              have hround := hk t hfar hall
              have hleft : 1 ≤ left U t := left_pos ht
              obtain ⟨xs', hmap, heach, hrows, hrounds⟩ := align_round_ok hU hmoves h hn ht
              have hne' : Ps.map ((Move.seek t).rest none) ≠ [] := by
                simpa using hne
              obtain ⟨x', halign, hahead', hrows'⟩ := ih heach hne' (le_trans hrows hn) (by omega)
                fun t' hfar' hnot' => le_trans (hrounds t' hfar' hnot') (by omega)
              refine ⟨x', fun fuel hfuel => ?_, ?_, by omega⟩
              · obtain ⟨f, rfl, hf⟩ := hstep fuel hfuel
                rw [align]
                simp only [hfar, hall, Bool.false_eq_true, if_false, hmap f (by omega)]
                exact halign f hf
              · rw [forall_mem_rest hQ hfirst] at hahead'
                exact hahead'

/-- The first of several rows moves on. -/
theorem nextFirst_ok (hmoves : Moves mem m r U n)
    (h : AheadEach mem m r U (x :: xs) (P :: Ps)) (hn : rowsOfAll (x :: xs) ≤ n) :
    ∃ x', (∀ fuel, need U (rowsOfAll (x :: xs)) ≤ fuel → move mem r fuel .next x = .ok x') ∧
      AheadEach mem m r U (x' :: xs) (Move.next.rest x.position P :: Ps) ∧
      rowsOfAll (x' :: xs) ≤ rowsOfAll (x :: xs) := by
  have hrow := rows_le_rowsOfAll (List.mem_cons_self (a := x) (l := xs))
  obtain ⟨x', hmove, hahead, hrows⟩ := hmoves x P (le_trans hrow hn) h.1 .next
  refine ⟨x', fun fuel hfuel => hmove fuel (le_trans (need_mono hrow) hfuel), ⟨hahead, h.2⟩, ?_⟩
  rw [rowsOfAll, rowsOfAll]
  omega

/-- Rows that are joined by `all` are moved. -/
theorem move_all_ok (hU : Universe U) (hmoves : Moves mem m r U n) {current : Option DocKey}
    (h : (Results.all xs current).Ahead mem m r U P) (hn : rowsOfAll xs ≤ n) (mv : Move) :
    ∃ x', (∀ fuel, need U (rowsOfAll xs) + U.length + 3 ≤ fuel →
        move mem r (fuel + 1) mv (.all xs current) = .ok x') ∧
      x'.Ahead mem m r U (mv.rest current P) ∧ x'.rows ≤ rowsOfAll xs + 1 := by
  obtain ⟨hwithin, hfirst, heach⟩ := h
  match current with
  | none =>
      rw [Move.rest_of_none _ _ hfirst]
      refine ⟨.all xs none, fun _ _ => ?_, ⟨hwithin, hfirst, fun hsome => nomatch hsome⟩,
        Nat.le_refl _⟩
      rw [move]
  | some t =>
      obtain ⟨Ps, heach, hne, hset, hfirsts⟩ := heach rfl
      cases mv with
      | next =>
          obtain ⟨Q, Qs, rfl⟩ := List.exists_cons_of_ne_nil hne
          cases xs with
          | nil => exact heach.elim
          | cons y ys =>
              have hpos : y.position = some t :=
                First.unique hU (fun d => heach.1.within) heach.1.first
                  (hfirsts Q List.mem_cons_self)
              obtain ⟨y', hmove, heach', hrows⟩ := nextFirst_ok hmoves heach hn
              have hneed := need_mono (U := U) hrows
              obtain ⟨x', halign, hahead', hrows'⟩ :=
                align_ok hU hmoves heach' (List.cons_ne_nil _ _) (le_trans hrows hn)
                  (need U (rowsOfAll (y :: ys)) + U.length + 3) (by omega)
                  fun t' _ _ => by have := left_le (U := U) t'; omega
              refine ⟨x', fun fuel hfuel => ?_, ?_, by omega⟩
              · rw [move]
                simp only [hmove fuel (by omega)]
                exact halign fuel hfuel
              · have hrest : (fun d => ∀ R ∈ Move.next.rest y.position Q :: Qs, R d)
                    = Move.next.rest (some t) P := by
                  funext d
                  rw [hpos]
                  simp only [List.forall_mem_cons, Move.rest, hset]
                  exact propext ⟨fun hd => ⟨⟨hd.1.1, hd.2⟩, hd.1.2⟩,
                    fun hd => ⟨⟨hd.1.1, hd.2⟩, hd.1.2⟩⟩
                rw [hrest] at hahead'
                exact hahead'
      | seek target =>
          cases hbefore : t.before target with
          | false =>
              rw [Move.rest_seek_of_first _ hfirst hbefore]
              refine ⟨.all xs (some t), fun _ _ => ?_, ⟨hwithin, hfirst, fun _ =>
                ⟨Ps, heach, hne, hset, hfirsts⟩⟩, Nat.le_refl _⟩
              rw [move]
              simp only [hbefore, Bool.false_eq_true, if_false]
          | true =>
              obtain ⟨xs', hmap, heach', hrows⟩ := seekEach_ok hmoves heach hn target
              have hneed := need_mono (U := U) hrows
              obtain ⟨x', halign, hahead', hrows'⟩ :=
                align_ok hU hmoves heach' (by simpa using hne) (le_trans hrows hn)
                  (need U (rowsOfAll xs) + U.length + 3) (by omega)
                  fun t' _ _ => by have := left_le (U := U) t'; omega
              refine ⟨x', fun fuel hfuel => ?_, ?_, by omega⟩
              · rw [move]
                simp only [hbefore, if_true, hmap fuel (by omega)]
                exact halign fuel hfuel
              · have hrest : (fun d => ∀ R ∈ Ps.map ((Move.seek target).rest none), R d)
                    = (Move.seek target).rest (some t) P := by
                  obtain ⟨Q, hQ⟩ := List.exists_mem_of_ne_nil Ps hne
                  funext d
                  simp only [List.forall_mem_map, Move.rest, hset]
                  exact propext ⟨fun hd => ⟨fun R hR => (hd R hR).1, (hd Q hQ).2⟩,
                    fun hd R hR => ⟨hd.1 R hR, hd.2⟩⟩
                rw [hrest] at hahead'
                exact hahead'

/-- Rows that are joined by `any` are moved. -/
theorem move_any_ok (hU : Universe U) (hmoves : Moves mem m r U n) {current : Option DocKey}
    (h : (Results.any xs current).Ahead mem m r U P) (hn : rowsOfAll xs ≤ n) (mv : Move) :
    ∃ x', (∀ fuel, need U (rowsOfAll xs) + 2 ≤ fuel →
        move mem r (fuel + 1) mv (.any xs current) = .ok x') ∧
      x'.Ahead mem m r U (mv.rest current P) ∧ x'.rows ≤ rowsOfAll xs + 1 := by
  obtain ⟨hwithin, hfirst, Ps, heach, hset⟩ := h
  -- rows that have been moved are joined again
  have hjoin {ys : List Results} {g : DocSet → DocSet} {R : DocSet}
      (hys : AheadEach mem m r U ys (Ps.map g)) (hrows : rowsOfAll ys ≤ rowsOfAll xs)
      (hg : ∀ d, (∃ Q ∈ Ps, g Q d) ↔ R d) :
      (ofAny ys).Ahead mem m r U R ∧ (ofAny ys).rows ≤ rowsOfAll xs + 1 := by
    have hahead := ahead_ofAny hys
    have hsame : (fun d => ∃ Q ∈ Ps.map g, Q d) = R := by
      funext d
      rw [← hg]
      simp
    rw [hsame] at hahead
    exact ⟨hahead, le_trans (rows_ofAny_le ys) (Nat.add_le_add_right hrows 1)⟩
  match current with
  | none =>
      rw [Move.rest_of_none _ _ hfirst]
      refine ⟨.any xs none, fun _ _ => ?_, ⟨hwithin, hfirst, Ps, heach, hset⟩, Nat.le_refl _⟩
      rw [move]
  | some t =>
      cases mv with
      | next =>
          have hsets (d : DocKey) :
              (∃ Q ∈ Ps, Q d ∧ t.before d = true) ↔ Move.next.rest (some t) P d := by
            simp only [Move.rest, hset]
            constructor
            · rintro ⟨Q, hQ, hd, hbefore⟩
              refine ⟨⟨Q, hQ, hd⟩, ?_⟩
              rintro c ⟨⟩
              exact hbefore
            · rintro ⟨⟨Q, hQ, hd⟩, hbefore⟩
              exact ⟨Q, hQ, hd, hbefore t rfl⟩
          obtain ⟨ys, hmap, hys, hrows⟩ := passEach_ok hU hmoves heach hn (hwithin t hfirst.1)
            fun Q hQ d hd => hfirst.2 d ((hset d).mpr ⟨Q, hQ, hd⟩)
          refine ⟨ofAny ys, fun fuel hfuel => ?_, hjoin hys hrows hsets⟩
          rw [move]
          simp only [hmap fuel hfuel]
      | seek target =>
          cases hbefore : t.before target with
          | false =>
              rw [Move.rest_seek_of_first _ hfirst hbefore]
              refine ⟨.any xs (some t), fun _ _ => ?_, ⟨hwithin, hfirst, Ps, heach, hset⟩,
                Nat.le_refl _⟩
              rw [move]
              simp only [hbefore, Bool.false_eq_true, if_false]
          | true =>
              have hsets (d : DocKey) : (∃ Q ∈ Ps, (Move.seek target).rest none Q d) ↔
                  (Move.seek target).rest (some t) P d := by
                simp only [Move.rest, hset]
                constructor
                · rintro ⟨Q, hQ, hd, hnot⟩
                  exact ⟨⟨Q, hQ, hd⟩, hnot⟩
                · rintro ⟨⟨Q, hQ, hd⟩, hnot⟩
                  exact ⟨Q, hQ, hd, hnot⟩
              obtain ⟨ys, hmap, hys, hrows⟩ := seekEach_ok hmoves heach hn target
              refine ⟨ofAny ys, fun fuel hfuel => ?_, hjoin hys hrows hsets⟩
              rw [move]
              simp only [hbefore, if_true, hmap fuel (by omega)]

/-- All results move as they should. -/
theorem moves (hU : Universe U) (n : Nat) : Moves mem m r U n := by
  induction n with
  | zero =>
      intro x P hn
      have := rows_pos x
      omega
  | succ n ih =>
      intro x P hn h mv
      obtain ⟨k, hk⟩ : ∃ k, x.rows = k + 1 := ⟨x.rows - 1, by have := rows_pos x; omega⟩
      have hneed := need_succ (U := U) k
      have hstep {fuel : Nat} (hfuel : need U x.rows ≤ fuel) :
          ∃ f, fuel = f + 1 ∧ need U k + U.length + 3 ≤ f := by
        rw [hk] at hfuel
        exact ⟨fuel - 1, by omega, by omega⟩
      cases x with
      | empty =>
          refine ⟨.empty, fun fuel hfuel => ?_, fun d hd => h d (Move.of_rest hd), Nat.le_refl _⟩
          obtain ⟨f, rfl, -⟩ := hstep hfuel
          rw [move]
      | token p =>
          cases mv with
          | next =>
              obtain ⟨p', hnext, hahead⟩ := Postings.next_ok hU h
              refine ⟨.token p', fun fuel hfuel => ?_, hahead, Nat.le_refl _⟩
              obtain ⟨f, rfl, -⟩ := hstep hfuel
              rw [move, hnext]
              rfl
          | seek target =>
              obtain ⟨p', hseek, hahead⟩ := Postings.seek_ok hU h target
              refine ⟨.token p', fun fuel hfuel => ?_, hahead, Nat.le_refl _⟩
              obtain ⟨f, rfl, -⟩ := hstep hfuel
              rw [move, hseek]
              rfl
      | all xs current =>
          obtain rfl : rowsOfAll xs = k := Nat.succ.inj ((rows.eq_3 _ _).symm.trans hk)
          obtain ⟨x', hmove, hahead, hrows⟩ := move_all_ok hU ih h (by omega) mv
          refine ⟨x', fun fuel hfuel => ?_, hahead, by omega⟩
          obtain ⟨f, rfl, hf⟩ := hstep hfuel
          exact hmove f hf
      | any xs current =>
          obtain rfl : rowsOfAll xs = k := Nat.succ.inj ((rows.eq_4 _ _).symm.trans hk)
          obtain ⟨x', hmove, hahead, hrows⟩ := move_any_ok hU ih h (by omega) mv
          refine ⟨x', fun fuel hfuel => ?_, hahead, by omega⟩
          obtain ⟨f, rfl, hf⟩ := hstep hfuel
          exact hmove f (by omega)

-- ================================================================ budget

/-- The budget is enough, if the universe is no more than what is read
from. -/
theorem need_le_budget (hsize : U.length ≤ r.extent mem) (n : Nat) :
    need U n + U.length + 1 ≤ budget mem r n := by
  have hmul : (U.length + 4) * n ≤ (2 * (r.extent mem + 2)) * n :=
    Nat.mul_le_mul_right n (by omega)
  have hbudget : budget mem r n
      = 2 * (r.extent mem + 2) * n + (2 * (r.extent mem + 2) * n + 4 * (r.extent mem + 2)) := by
    unfold budget
    ring
  unfold need
  omega

/-- What is needed to move results is within the budget. -/
theorem need_rows_le_budget (hsize : U.length ≤ r.extent mem) (x : Results) :
    need U x.rows ≤ budget mem r x.rows := by
  have hbudget := need_le_budget hsize x.rows
  omega

/-- Rows are joined. -/
theorem ofAll_ok (hU : Universe U) (hsize : U.length ≤ r.extent mem)
    (h : AheadEach mem m r U xs Ps) (hne : Ps ≠ []) :
    ∃ x, ofAll mem r xs = .ok x ∧ x.Ahead mem m r U (fun d => ∀ Q ∈ Ps, Q d) := by
  obtain ⟨x, halign, hahead, -⟩ := align_ok hU (moves hU _) h hne (Nat.le_refl _)
    (need U (rowsOfAll xs) + U.length + 1) (by omega)
    fun t _ _ => by have := left_le (U := U) t; omega
  exact ⟨x, halign _ (need_le_budget hsize (rowsOfAll xs)), hahead⟩

/-- Results are moved to the next document. -/
theorem next_ok (hU : Universe U) (hsize : U.length ≤ r.extent mem)
    (h : x.Ahead mem m r U P) :
    ∃ x', x.next mem r = .ok x' ∧ x'.Ahead mem m r U (Move.next.rest x.position P) := by
  obtain ⟨x', hmove, hahead, -⟩ := moves hU x.rows x P (Nat.le_refl _) h .next
  exact ⟨x', hmove _ (need_rows_le_budget hsize x), hahead⟩

-- ============================================================= going over

/-- Results stand on the first of the documents that are ahead. -/
theorem Ahead.position_eq (hU : Universe U) (h : x.Ahead mem m r U P) {ds : List DocKey}
    (hds : InOrder P ds) : x.position = ds.head? :=
  First.unique hU (fun _ => h.within) h.first hds.first

/-- What is taken from results are the first documents that are ahead, in
order, each once. -/
theorem take_ok (hU : Universe U) (hsize : U.length ≤ r.extent mem) (limit : Nat)
    (h : x.Ahead mem m r U P) {ds : List DocKey} (hds : InOrder P ds) :
    ∃ hits, x.take mem r limit = .ok hits ∧ hits.map Prod.fst = ds.take limit := by
  induction limit generalizing x P ds with
  | zero => exact ⟨[], rfl, rfl⟩
  | succ limit ih =>
      have hpos := h.position_eq hU hds
      rw [take]
      cases ds with
      | nil =>
          rw [hpos]
          exact ⟨[], rfl, rfl⟩
      | cons d ds =>
          obtain ⟨y, hnext, hahead⟩ := next_ok hU hsize h
          rw [hpos] at hahead
          obtain ⟨hits, htake, hmap⟩ := ih hahead hds.next
          refine ⟨(d, x.highlights) :: hits, ?_, ?_⟩
          · rw [List.head?_cons] at hpos
            simp only [hpos, hnext, htake]
          · rw [List.map_cons, hmap, List.take_succ_cons]
            rfl

end Results

end OrderedStore
