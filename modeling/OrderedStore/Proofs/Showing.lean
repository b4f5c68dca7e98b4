/-
What results have yet to show.

The terms to show for a document are gathered from the rows that stand on it
when it is reached. Which they are can be told long before: a row of postings
shows its term for each posting that it is not behind, rows joined by `any` show
what some of them show, and rows joined by `all` do for the documents that all
of them have (`Results.Shows`). What is shown is shown for what is ahead
(`Results.Ahead.shows`), and for the document that results stand on it is what is
gathered (`Results.Ahead.rawTerms_iff`); both go by the tree.

A move takes away what is to be shown for the documents that it leaves behind.
For all others nothing is lost and nothing is added (`Results.movesShow`),
whichever rows seek, stay, or are dropped at their end. That is an induction on
rows, as for what is ahead (`Results.moves`); aligning goes by its rounds.
-/
import Mathlib
import OrderedStore.Proofs.Browsing

namespace OrderedStore

-- ==================================================================== rows

namespace Postings

variable {mem : Memory} {m : KeyMap Bytes} {r : ReadView} {U : List DocKey} {p : Postings}
  {P : DocSet} {d : DocKey} {s : String}

/-- The row has yet to show the term for the document: the term is its own, the
document has a posting, and the row does not stand behind that. -/
def Shows (m : KeyMap Bytes) (p : Postings) (d : DocKey) (s : String) : Prop :=
  s = p.display ∧ d.Parsable ∧ (m.find? (key p.lead d)).isSome = true ∧
    ∃ c, p.current = some c ∧ d.before c = false

/-- It shows its term for what is ahead. -/
theorem Ahead.shows_iff (hU : Universe U) (h : p.Ahead mem m r U P) :
    p.Shows m d s ↔ s = p.display ∧ P d := by
  refine and_congr_right fun _ => ⟨?_, fun hd => ?_⟩
  · rintro ⟨hparse, hposted, c, hcur, hbefore⟩
    obtain ⟨v, hv⟩ := Option.isSome_iff_exists.mp hposted
    have hd : d ∈ U := h.shaped d.tail v d hv (DocKey.ofTail?_tail hparse)
    have hfirst := h.first
    rw [hcur] at hfirst
    cases hcd : c.before d with
    | true => exact (h.behind_iff hcur hcd).mpr ⟨hd, hposted⟩
    | false =>
        rw [hU.eq_of_not_before hd (h.within hfirst.1) hbefore hcd]
        exact hfirst.1
  · obtain ⟨b, hb, -⟩ := h.bound
    have hfirst := h.first
    refine ⟨hU.parsable d (h.within hd), ((hb d).mp hd).2.1, ?_⟩
    cases hcur : p.current with
    | none =>
        rw [hcur] at hfirst
        exact absurd hd (hfirst d)
    | some c =>
        rw [hcur] at hfirst
        exact ⟨c, rfl, hfirst.2 d hd⟩

end Postings

-- ================================================================ results

/-- A move spares a document if it does not leave it behind, from where the
results stand. -/
def Move.Spares (position : Option DocKey) (d : DocKey) : Move → Prop
  | .next => ∀ c, position = some c → c.before d = true
  | .seek target => d.before target = false

/-- What is left after a move is what it spares. -/
theorem Move.rest_iff (mv : Move) (position : Option DocKey) (P : DocSet) (d : DocKey) :
    mv.rest position P d ↔ P d ∧ mv.Spares position d := by
  cases mv <;> exact Iff.rfl

namespace Results

open List (Forall₂)

variable {mem : Memory} {m : KeyMap Bytes} {r : ReadView} {U : List DocKey} {P : DocSet}
  {Ps : List DocSet} {x : Results} {xs : List Results} {d : DocKey} {s : String}

mutual

/-- The results have yet to show the term for the document. -/
def Shows (m : KeyMap Bytes) : Results → DocKey → String → Prop
  | .empty, _, _ => False
  | .token p, d, s => p.Shows m d s
  | .all children current, d, s =>
    current.isSome = true ∧ EachShows m children d ∧ SomeShows m children d s
  | .any children _, d, s => SomeShows m children d s

/-- Each of several results has something to show for the document. -/
def EachShows (m : KeyMap Bytes) : List Results → DocKey → Prop
  | [], _ => True
  | x :: xs, d => (∃ s, Shows m x d s) ∧ EachShows m xs d

/-- Some of them have the term to show for it. -/
def SomeShows (m : KeyMap Bytes) : List Results → DocKey → String → Prop
  | [], _, _ => False
  | x :: xs, d, s => Shows m x d s ∨ SomeShows m xs d s

end

/-- Each of the rows has something to show. -/
theorem eachShows_iff : EachShows m xs d ↔ ∀ x ∈ xs, ∃ s, x.Shows m d s := by
  induction xs with
  | nil => simp [EachShows]
  | cons x xs ih => simp [EachShows, ih]

/-- Some row has the term to show. -/
theorem someShows_iff : SomeShows m xs d s ↔ ∃ x ∈ xs, x.Shows m d s := by
  induction xs with
  | nil => simp [SomeShows]
  | cons x xs ih => simp [SomeShows, ih]

mutual

/-- There is something to show for what is ahead, and for nothing else. -/
theorem Ahead.shows (hU : Universe U) :
    ∀ {x : Results} {P : DocSet}, x.Ahead mem m r U P → ∀ d, P d ↔ ∃ s, x.Shows m d s
  | .empty, P, h, d => iff_of_false (h d) fun hs => hs.elim fun _ hs => hs
  | .token p, P, h, d => by
      have hshows (s : String) : (Results.token p).Shows m d s ↔ s = p.display ∧ P d :=
        Postings.Ahead.shows_iff hU h
      simp only [hshows, exists_eq_left]
  | .all xs none, P, h, d => by
      refine iff_of_false (h.2.1 d) ?_
      rintro ⟨s, hs⟩
      cases hs.1
  | .all xs (some t), P, h, d => by
      obtain ⟨Ps, heach, hne, hset, -⟩ := h.2.2 rfl
      obtain ⟨hall, hsome⟩ := AheadEach.shows hU heach d
      rw [hset]
      constructor
      · intro hd
        obtain ⟨Q, hQ⟩ := List.exists_mem_of_ne_nil Ps hne
        obtain ⟨s, hs⟩ := hsome.mp ⟨Q, hQ, hd Q hQ⟩
        exact ⟨s, rfl, hall.mp hd, hs⟩
      · rintro ⟨s, -, hs, -⟩
        exact hall.mpr hs
  | .any xs current, P, h, d => by
      obtain ⟨-, -, Ps, heach, hset⟩ := h
      rw [hset]
      exact (AheadEach.shows hU heach d).2

/-- So it is for several results. -/
theorem AheadEach.shows (hU : Universe U) :
    ∀ {xs : List Results} {Ps : List DocSet}, AheadEach mem m r U xs Ps → ∀ d,
      ((∀ Q ∈ Ps, Q d) ↔ EachShows m xs d) ∧
        ((∃ Q ∈ Ps, Q d) ↔ ∃ s, SomeShows m xs d s)
  | [], [], _, d => by simp [EachShows, SomeShows]
  | [], _ :: _, h, _ => h.elim
  | _ :: _, [], h, _ => h.elim
  | x :: xs, P :: Ps, h, d => by
      obtain ⟨hall, hsome⟩ := AheadEach.shows hU h.2 d
      have hx := Ahead.shows hU h.1 d
      simp only [List.forall_mem_cons, List.exists_mem_cons_iff, EachShows, SomeShows, exists_or,
        hx, hall, hsome, and_self]

end

-- ============================================================= gathering

mutual

/-- Where results stand, the terms that are gathered are those they have to
show. -/
theorem Ahead.rawTerms_iff (hU : Universe U) :
    ∀ {x : Results} {P : DocSet}, x.Ahead mem m r U P → x.position = some d →
      (s ∈ x.rawTerms ↔ x.Shows m d s)
  | .token p, P, h, hpos => by
      have hcur : p.current = some d := hpos
      have hfirst := h.first
      rw [hpos] at hfirst
      have hshows : (Results.token p).Shows m d s ↔ s = p.display ∧ P d :=
        Postings.Ahead.shows_iff hU h
      rw [hshows, rawTerms, hcur, if_pos Option.isSome_some, List.mem_singleton]
      exact (and_iff_left hfirst.1).symm
  | .all xs (some t), P, h, hpos => by
      cases hpos
      obtain ⟨Ps, heach, -, hset, hfirsts⟩ := h.2.2 rfl
      rw [rawTerms, if_pos Option.isSome_some, rawTermsOfAll_iff hU heach hfirsts, Shows]
      refine (and_iff_right rfl).symm.trans (and_congr_right fun _ => (and_iff_right ?_).symm)
      exact (heach.shows hU d).1.mp fun Q hQ => (hfirsts Q hQ).1
  | .any xs (some t), P, h, hpos => by
      cases hpos
      obtain ⟨hwithin, hfirst, Ps, heach, hset⟩ := h
      rw [rawTerms, Shows]
      exact rawTermsAt_iff hU heach (hwithin d hfirst.1) fun Q hQ e he =>
        hfirst.2 e ((hset e).mpr ⟨Q, hQ, he⟩)

/-- So they are for several that all stand there. -/
theorem rawTermsOfAll_iff (hU : Universe U) :
    ∀ {xs : List Results} {Ps : List DocSet}, AheadEach mem m r U xs Ps →
      (∀ Q ∈ Ps, First Q (some d)) → (s ∈ rawTermsOfAll xs ↔ SomeShows m xs d s)
  | [], [], _, _ => by simp [rawTermsOfAll, SomeShows]
  | [], _ :: _, h, _ => h.elim
  | _ :: _, [], h, _ => h.elim
  | x :: xs, P :: Ps, h, hfirsts => by
      obtain ⟨hP, hPs⟩ := List.forall_mem_cons.mp hfirsts
      have hpos : x.position = some d := First.unique hU (fun _ => h.1.within) h.1.first hP
      rw [rawTermsOfAll, List.mem_append, SomeShows, Ahead.rawTerms_iff hU h.1 hpos,
        rawTermsOfAll_iff hU h.2 hPs]

/-- And for those of several that stand there, if none stands before it. -/
theorem rawTermsAt_iff (hU : Universe U) :
    ∀ {xs : List Results} {Ps : List DocSet}, AheadEach mem m r U xs Ps → d ∈ U →
      (∀ Q ∈ Ps, ∀ e, Q e → e.before d = false) → (s ∈ rawTermsAt d xs ↔ SomeShows m xs d s)
  | [], [], _, _, _ => by simp [rawTermsAt, SomeShows]
  | [], _ :: _, h, _, _ => h.elim
  | _ :: _, [], h, _, _ => h.elim
  | x :: xs, P :: Ps, h, hd, hlow => by
      obtain ⟨hP, hPs⟩ := List.forall_mem_cons.mp hlow
      have hrest := rawTermsAt_iff hU h.2 hd hPs
      rw [rawTermsAt, SomeShows]
      cases hstands : x.standsOn d with
      | true =>
          have hpos : x.position = some d := First.unique hU (fun _ => h.1.within) h.1.first
            (h.1.first_of_standsOn hU hd hstands)
          rw [if_pos rfl, List.mem_append, Ahead.rawTerms_iff hU h.1 hpos, hrest]
      | false =>
          rw [if_neg Bool.false_ne_true, hrest]
          refine (or_iff_right fun hs => ?_).symm
          -- what has something to show for it has it first, and stands on it
          have hpos : x.position = some d := First.unique hU (fun _ => h.1.within) h.1.first
            ⟨(h.1.shows hU d).mpr ⟨s, hs⟩, hP⟩
          unfold standsOn at hstands
          rw [hpos] at hstands
          exact Bool.false_ne_true (hstands.symm.trans (beq_self_eq_true _))

end

-- ================================================================= moving

/-- From one row to another, what is to be shown for a document stays the
same. -/
def ShowsSame (m : KeyMap Bytes) (d : DocKey) (x y : Results) : Prop :=
  ∀ s, y.Shows m d s ↔ x.Shows m d s

/-- Then it does for rows together: each has something to show if each had. -/
theorem eachShows_congr {ys : List Results} (h : Forall₂ (ShowsSame m d) xs ys) :
    EachShows m ys d ↔ EachShows m xs d := by
  induction h with
  | nil => exact Iff.rfl
  | cons hxy _ ih =>
      rw [EachShows, EachShows, ih, exists_congr hxy]

/-- And some have the term to show if some had. -/
theorem someShows_congr {ys : List Results} (h : Forall₂ (ShowsSame m d) xs ys) :
    SomeShows m ys d s ↔ SomeShows m xs d s := by
  induction h with
  | nil => exact Iff.rfl
  | cons hxy _ ih => rw [SomeShows, SomeShows, ih, hxy s]

/-- Rows at their end have nothing to show, and can be left out. -/
theorem someShows_filter (hU : Universe U) (h : AheadEach mem m r U xs Ps) :
    SomeShows m (xs.filter isValid) d s ↔ SomeShows m xs d s := by
  rw [someShows_iff, someShows_iff]
  refine exists_congr fun x => ⟨fun hx => ⟨(List.mem_filter.mp hx.1).1, hx.2⟩, fun hx => ?_⟩
  refine ⟨List.mem_filter.mpr ⟨hx.1, ?_⟩, hx.2⟩
  obtain ⟨P, -, hahead⟩ := h.of_mem hx.1
  have hfirst := hahead.first
  unfold isValid
  cases hpos : x.position with
  | none =>
      rw [hpos] at hfirst
      exact absurd ((hahead.shows hU d).mpr ⟨s, hx.2⟩) (hfirst d)
  | some c => rfl

/-- Rows joined by choice show what some of them show. -/
theorem ofAny_shows (hU : Universe U) (h : AheadEach mem m r U xs Ps) :
    (ofAny xs).Shows m d s ↔ SomeShows m xs d s := by
  unfold ofAny
  rw [Shows, someShows_filter hU h]

/-- What is made of elements one by one is related to them, if all of it is
made. -/
theorem forall₂_of_mapM {α β : Type} {S : α → β → Prop} {f : α → Except Failure β} {as : List α}
    (hf : ∀ a ∈ as, ∀ {b}, f a = .ok b → S a b) {bs : List β} (h : as.mapM f = .ok bs) :
    Forall₂ S as bs := by
  induction as generalizing bs with
  | nil =>
      cases h
      exact .nil
  | cons a as ih =>
      rw [List.mapM_cons] at h
      obtain ⟨b, hb, h⟩ := of_ok_bind h
      obtain ⟨bs', hbs', h⟩ := of_ok_bind h
      cases h
      exact .cons (hf a List.mem_cons_self hb)
        (ih (fun a' ha' => hf a' (List.mem_cons_of_mem _ ha')) hbs')

section Moving

variable {n fuel : Nat} {mv : Move} {x' : Results} {xs' : List Results}

/-- Results of so many rows go on showing what they have to show for what a move
spares. -/
def MovesShow (mem : Memory) (m : KeyMap Bytes) (r : ReadView) (U : List DocKey) (n : Nat) :
    Prop :=
  ∀ {x P}, x.rows ≤ n → Ahead mem m r U x P → ∀ {fuel}, need U x.rows ≤ fuel →
    ∀ {mv x'}, move mem r fuel mv x = .ok x' → ∀ {d}, mv.Spares x.position d → ShowsSame m d x x'

/-- So they do when they pass a document that lies before. -/
theorem pass_shows (hU : Universe U) (hshow : MovesShow mem m r U n) (hn : x.rows ≤ n)
    (h : x.Ahead mem m r U P) {e : DocKey} (he : e ∈ U) (hlow : ∀ d, P d → d.before e = false)
    (hfuel : need U x.rows + 2 ≤ fuel) (hx : pass mem r fuel e x = .ok x')
    (hd : e.before d = true) : ShowsSame m d x x' := by
  obtain ⟨fuel, rfl⟩ : ∃ f, fuel = f + 2 := ⟨fuel - 2, by omega⟩
  rw [pass_eq hU (moves hU n) hn h he hlow (by omega)] at hx
  by_cases hpos : x.position = some e
  · rw [if_pos hpos] at hx
    refine hshow hn h (by omega) hx fun c hc => ?_
    obtain rfl := Option.some.inj (hpos.symm.trans hc)
    exact hd
  · rw [if_neg hpos] at hx
    cases hx
    exact fun _ => Iff.rfl

/-- Rows that seek do for what is not before the target. -/
theorem seekEach_shows (hshow : MovesShow mem m r U n) (h : AheadEach mem m r U xs Ps)
    (hn : rowsOfAll xs ≤ n) (hfuel : need U (rowsOfAll xs) ≤ fuel) {target : DocKey}
    (hxs : xs.mapM (move mem r fuel (.seek target)) = .ok xs') (hd : d.before target = false) :
    Forall₂ (ShowsSame m d) xs xs' := by
  refine forall₂_of_mapM (fun x hx x' hx' => ?_) hxs
  obtain ⟨P, -, hP⟩ := h.of_mem hx
  have hrows := rows_le_rowsOfAll hx
  exact hshow (le_trans hrows hn) hP (le_trans (need_mono hrows) hfuel) hx' hd

/-- So do the rows of a round, of which some stay where they are. -/
theorem align_round_shows (hshow : MovesShow mem m r U n) (h : AheadEach mem m r U xs Ps)
    (hn : rowsOfAll xs ≤ n) (hfuel : need U (rowsOfAll xs) ≤ fuel) {t : DocKey}
    (hxs : xs.mapM (fun x => if x.standsOn t then .ok x else move mem r fuel (.seek t) x)
      = .ok xs') (hd : d.before t = false) : Forall₂ (ShowsSame m d) xs xs' := by
  refine forall₂_of_mapM (fun x hx x' hx' => ?_) hxs
  split at hx'
  · cases hx'
    exact fun _ => Iff.rfl
  · obtain ⟨P, -, hP⟩ := h.of_mem hx
    have hrows := rows_le_rowsOfAll hx
    exact hshow (le_trans hrows hn) hP (le_trans (need_mono hrows) hfuel) hx' hd

/-- Where a row does not stand before a document, not all have something to show
for what lies before that. -/
theorem not_eachShows (hU : Universe U) (h : AheadEach mem m r U xs Ps) (hx : x ∈ xs)
    {t : DocKey} (hpos : x.position = some t) (hd : d.before t = true) : ¬EachShows m xs d := by
  intro heach
  obtain ⟨P, -, hahead⟩ := h.of_mem hx
  have hfirst := hahead.first
  rw [hpos] at hfirst
  have hlow := hfirst.2 d ((hahead.shows hU d).mpr (eachShows_iff.mp heach x hx))
  rw [hd] at hlow
  cases hlow

/-- Rows that are aligned show what some of them show, for what all of them
have. -/
theorem align_shows (hU : Universe U) (hshow : MovesShow mem m r U n)
    (h : AheadEach mem m r U xs Ps) (hn : rowsOfAll xs ≤ n) (hpos : 1 ≤ fuel)
    (hfuel : ∀ t, farthest xs = some t → (xs.all fun x => x.standsOn t) = false →
      need U (rowsOfAll xs) + left U t + 1 ≤ fuel)
    (hx : align mem r fuel xs = .ok x') (d : DocKey) (s : String) :
    x'.Shows m d s ↔ EachShows m xs d ∧ SomeShows m xs d s := by
  induction fuel generalizing xs Ps with
  | zero => omega
  | succ fuel ih =>
      rw [align] at hx
      cases hfar : farthest xs with
      | none =>
          rw [hfar] at hx
          cases hx
          refine iff_of_false (fun hs => Bool.false_ne_true hs.1) fun hs => ?_
          obtain ⟨hall, hsome⟩ := hs
          obtain ⟨y, hy, -⟩ := someShows_iff.mp hsome
          obtain ⟨x, hmem, hend⟩ := farthest_none hfar (List.ne_nil_of_mem hy)
          obtain ⟨P, -, hahead⟩ := h.of_mem hmem
          have hfirst := hahead.first
          rw [hend] at hfirst
          exact hfirst d ((hahead.shows hU d).mpr (eachShows_iff.mp hall x hmem))
      | some t =>
          rw [hfar] at hx
          dsimp only at hx
          cases hall : xs.all fun x => x.standsOn t with
          | true =>
              rw [if_pos hall] at hx
              cases hx
              exact and_iff_right rfl
          | false =>
              have hround := hfuel t hfar hall
              obtain ⟨⟨x, hmem, hxt⟩, -⟩ := farthest_some hfar
              obtain ⟨P, -, hP⟩ := h.of_mem hmem
              have hfirst := hP.first
              rw [hxt] at hfirst
              have ht : t ∈ U := hP.within hfirst.1
              have hleft := left_pos ht
              obtain ⟨xs', hmap, heach, hrows, hrounds⟩ := align_round_ok hU (moves hU n) h hn ht
              have hmap := hmap fuel (by omega)
              rw [if_neg (by rw [hall]; exact Bool.false_ne_true)] at hx
              simp only [hmap] at hx
              rw [ih heach (le_trans hrows hn) (by omega)
                (fun t' hfar' hnot' => le_trans (hrounds t' hfar' hnot') (by omega)) hx]
              cases hbefore : d.before t with
              | false =>
                  have hsame := align_round_shows hshow h hn (by omega) hmap hbefore
                  rw [eachShows_congr hsame, someShows_congr hsame]
              | true =>
                  -- what is before the target is behind all, and was not shared before
                  refine iff_of_false (fun hs => ?_) fun hs =>
                    not_eachShows hU h hmem hxt hbefore hs.1
                  obtain ⟨Q, hQ, hd⟩ := (heach.shows hU d).2.mpr ⟨s, hs.2⟩
                  obtain ⟨R, -, rfl⟩ := List.mem_map.mp hQ
                  exact Bool.false_ne_true (hd.2.symm.trans hbefore)

/-- They do with fuel for any round. -/
theorem align_shows_of_need (hU : Universe U) (hshow : MovesShow mem m r U n)
    (h : AheadEach mem m r U xs Ps) (hn : rowsOfAll xs ≤ n)
    (hfuel : need U (rowsOfAll xs) + U.length + 1 ≤ fuel)
    (hx : align mem r fuel xs = .ok x') (d : DocKey) (s : String) :
    x'.Shows m d s ↔ EachShows m xs d ∧ SomeShows m xs d s := by
  refine align_shows hU hshow h hn (by omega) (fun t _ _ => ?_) hx d s
  have := left_le (U := U) t
  omega

/-- Rows that are joined by `all` and moved show the same for what is spared. -/
theorem move_all_shows (hU : Universe U) (hshow : MovesShow mem m r U n) {current : Option DocKey}
    (h : (Results.all xs current).Ahead mem m r U P) (hn : rowsOfAll xs ≤ n)
    (hfuel : need U (rowsOfAll xs) + U.length + 3 ≤ fuel)
    (hx : move mem r (fuel + 1) mv (.all xs current) = .ok x') (hd : mv.Spares current d) :
    ShowsSame m d (.all xs current) x' := by
  match current with
  | none =>
      rw [move] at hx
      cases hx
      exact fun _ => Iff.rfl
  | some t =>
      obtain ⟨Ps, heach, -, -, hfirsts⟩ := h.2.2 rfl
      -- rows that show the same are aligned
      have halign {ys : List Results} {Qs : List DocSet} (hys : AheadEach mem m r U ys Qs)
          (hrows : rowsOfAll ys ≤ rowsOfAll xs) (hx : align mem r fuel ys = .ok x')
          (hsame : Forall₂ (ShowsSame m d) xs ys) : ShowsSame m d (.all xs (some t)) x' := by
        intro s
        have hneed := need_mono (U := U) hrows
        rw [align_shows_of_need hU hshow hys (le_trans hrows hn) (by omega) hx,
          eachShows_congr hsame, someShows_congr hsame, Shows]
        exact (and_iff_right rfl).symm
      cases mv with
      | next =>
          cases xs with
          | nil =>
              rw [move] at hx
              cases hx
              exact fun s => iff_of_false (fun hs => Bool.false_ne_true hs.1) fun hs => hs.2.2
          | cons x xs =>
              cases Ps with
              | nil => exact heach.elim
              | cons Q Qs =>
                  have hpos : x.position = some t :=
                    First.unique hU (fun d => heach.1.within) heach.1.first
                      (hfirsts Q List.mem_cons_self)
                  obtain ⟨y, hmove, hmoved, hrows⟩ := nextFirst_ok (moves hU n) heach hn
                  have hmove := hmove fuel (by omega)
                  have hneed := need_mono (U := U) (rows_le_rowsOfAll
                    (List.mem_cons_self (a := x) (l := xs)))
                  have hsame : ShowsSame m d x y :=
                    hshow (le_trans (rows_le_rowsOfAll List.mem_cons_self) hn) heach.1 (by omega)
                      hmove (hpos ▸ hd)
                  rw [move] at hx
                  simp only [hmove] at hx
                  refine halign hmoved hrows hx (.cons hsame ?_)
                  exact List.forall₂_same.mpr fun _ _ _ => Iff.rfl
      | seek target =>
          rw [move] at hx
          by_cases hbefore : t.before target = true
          · obtain ⟨ys, hmap, hmoved, hrows⟩ := seekEach_ok (moves hU n) heach hn target
            have hmap := hmap fuel (by omega)
            simp only [hbefore, if_true, hmap] at hx
            exact halign hmoved hrows hx (seekEach_shows hshow heach hn (by omega) hmap hd)
          · rw [if_neg hbefore] at hx
            cases hx
            exact fun _ => Iff.rfl

/-- So do rows that are joined by `any`. -/
theorem move_any_shows (hU : Universe U) (hshow : MovesShow mem m r U n) {current : Option DocKey}
    (h : (Results.any xs current).Ahead mem m r U P) (hn : rowsOfAll xs ≤ n)
    (hfuel : need U (rowsOfAll xs) + 2 ≤ fuel)
    (hx : move mem r (fuel + 1) mv (.any xs current) = .ok x') (hd : mv.Spares current d) :
    ShowsSame m d (.any xs current) x' := by
  obtain ⟨hwithin, hfirst, Ps, heach, hset⟩ := h
  match current with
  | none =>
      rw [move] at hx
      cases hx
      exact fun _ => Iff.rfl
  | some t =>
      -- rows that show the same are joined, those at their end left out
      have hjoin {ys : List Results} {Qs : List DocSet} (hys : AheadEach mem m r U ys Qs)
          (hsame : Forall₂ (ShowsSame m d) xs ys) :
          ShowsSame m d (.any xs (some t)) (ofAny ys) := by
        intro s
        rw [ofAny_shows hU hys, someShows_congr hsame, Shows]
      cases mv with
      | next =>
          have hlow (Q : DocSet) (hQ : Q ∈ Ps) (e : DocKey) (he : Q e) : e.before t = false :=
            hfirst.2 e ((hset e).mpr ⟨Q, hQ, he⟩)
          have ht := hwithin t hfirst.1
          obtain ⟨ys, hmap, hmoved, -⟩ := passEach_ok hU (moves hU n) heach hn ht hlow
          have hmap := hmap fuel hfuel
          rw [move] at hx
          simp only [hmap] at hx
          cases hx
          refine hjoin hmoved (forall₂_of_mapM (fun y hy y' hy' => ?_) hmap)
          obtain ⟨Q, hQ, hyQ⟩ := heach.of_mem hy
          have hrows := rows_le_rowsOfAll hy
          have hneed := need_mono (U := U) hrows
          exact pass_shows hU hshow (le_trans hrows hn) hyQ ht (hlow Q hQ) (by omega) hy' (hd t rfl)
      | seek target =>
          rw [move] at hx
          by_cases hbefore : t.before target = true
          · obtain ⟨ys, hmap, hmoved, -⟩ := seekEach_ok (moves hU n) heach hn target
            have hmap := hmap fuel (by omega)
            simp only [hbefore, if_true, hmap] at hx
            cases hx
            exact hjoin hmoved (seekEach_shows hshow heach hn (by omega) hmap hd)
          · rw [if_neg hbefore] at hx
            cases hx
            exact fun _ => Iff.rfl

/-- All results do. -/
theorem movesShow (hU : Universe U) (n : Nat) : MovesShow mem m r U n := by
  induction n with
  | zero =>
      intro x _ hn
      have := rows_pos x
      omega
  | succ n ih =>
      intro x P hn h fuel hfuel mv x' hx d hd
      obtain ⟨k, hk⟩ : ∃ k, x.rows = k + 1 := ⟨x.rows - 1, by have := rows_pos x; omega⟩
      have hneed := need_succ (U := U) k
      rw [hk] at hfuel
      obtain ⟨fuel, rfl⟩ : ∃ f, fuel = f + 1 := ⟨fuel - 1, by omega⟩
      cases x with
      | empty =>
          rw [move] at hx
          cases hx
          exact fun _ => Iff.rfl
      | token p =>
          -- a row of postings keeps its term, and what is spared of what is ahead
          have hrow {p' : Postings} (hdisplay : p'.display = p.display)
              (hahead : p'.Ahead mem m r U (mv.rest p.current P)) :
              ShowsSame m d (.token p) (.token p') := by
            intro s
            rw [Shows, Shows, hahead.shows_iff hU, Postings.Ahead.shows_iff hU h, hdisplay,
              Move.rest_iff]
            exact and_congr_right fun _ => and_iff_left hd
          cases mv with
          | next =>
              obtain ⟨p', hp', hahead⟩ := Postings.next_ok hU h
              rw [move, hp'] at hx
              cases hx
              exact hrow (Postings.next_keeps hp').2 hahead
          | seek target =>
              obtain ⟨p', hp', hahead⟩ := Postings.seek_ok hU h target
              rw [move, hp'] at hx
              cases hx
              exact hrow (Postings.seek_keeps hp').2 hahead
      | all xs current =>
          obtain rfl : rowsOfAll xs = k := Nat.succ.inj ((rows.eq_3 _ _).symm.trans hk)
          exact move_all_shows hU ih h (by omega) (by omega) hx hd
      | any xs current =>
          obtain rfl : rowsOfAll xs = k := Nat.succ.inj ((rows.eq_4 _ _).symm.trans hk)
          exact move_any_shows hU ih h (by omega) (by omega) hx hd

end Moving

/-- Rows joined by `all` show what some of them show, for what all of them
have. -/
theorem ofAll_shows (hU : Universe U) (hsize : U.length ≤ r.extent mem)
    (h : AheadEach mem m r U xs Ps) (hx : ofAll mem r xs = .ok x) :
    x.Shows m d s ↔ EachShows m xs d ∧ SomeShows m xs d s :=
  align_shows_of_need hU (movesShow hU _) h (Nat.le_refl _) (need_le_budget hsize _) hx d s

end Results

end OrderedStore
