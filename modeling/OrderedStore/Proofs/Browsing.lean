/-
Going through results, in two views side by side.

Whoever goes through the results of a search sees the documents that they
stand on, one after the other, and the terms to show for each
(`Results.browse`). Two views may read as maps that agree on the postings of an
index and on nothing else. Then what is seen is the same in both, though
cursors that have left the postings stand elsewhere, and the budgets are others.

So results are compared up to their cursors (`Results.Alike`): the same rows,
with the same leads, terms and documents. Moved side by side they stay alike
(`moves_alike`). That is an induction on rows, as for the moves of one of them
(`Results.moves`), which is where it is known from that there are results to
compare: a row of postings goes to the first of the postings that are left, and
those are the same; whatever is joined asks nothing of its rows but what is
seen of them. Fuel is enough on both sides, and need not be the same.
-/
import Mathlib
import OrderedStore.Proofs.Results

namespace OrderedStore

-- ==================================================================== rows

namespace Postings

variable {mem mem' : Memory} {m m' : KeyMap Bytes} {r r' : ReadView} {U : List DocKey}
  {p q : Postings} {P Q : DocSet}

/-- Loading a row leaves its lead and its term. -/
theorem load_keeps {p' : Postings} {fuel : Nat} (h : load mem r fuel p = .ok p') :
    p'.lead = p.lead ∧ p'.display = p.display := by
  induction fuel generalizing p with
  | zero =>
      cases h
      exact ⟨rfl, rfl⟩
  | succ fuel ih =>
      rw [load] at h
      split at h
      · cases h
        exact ⟨rfl, rfl⟩
      · split at h
        · cases h
          exact ⟨rfl, rfl⟩
        · split at h
          · cases h
            exact ⟨rfl, rfl⟩
          · split at h
            · cases h
            · obtain ⟨hlead, hdisplay⟩ := ih h
              exact ⟨hlead, hdisplay⟩

/-- A row starts with the lead and the term it is given. -/
theorem start_keeps {lead : Bytes} {display : String} (h : start mem r lead display = .ok p) :
    p.lead = lead ∧ p.display = display := by
  unfold start at h
  split at h
  · cases h
  · obtain ⟨hlead, hdisplay⟩ := load_keeps h
    exact ⟨hlead, hdisplay⟩

/-- Going to the next posting leaves them. -/
theorem next_keeps {p' : Postings} (h : p.next mem r = .ok p') :
    p'.lead = p.lead ∧ p'.display = p.display := by
  unfold next at h
  split at h
  · cases h
    exact ⟨rfl, rfl⟩
  · split at h
    · cases h
    · obtain ⟨hlead, hdisplay⟩ := load_keeps h
      exact ⟨hlead, hdisplay⟩

/-- And seeking. -/
theorem seek_keeps {p' : Postings} {target : DocKey} (h : p.seek mem r target = .ok p') :
    p'.lead = p.lead ∧ p'.display = p.display := by
  unfold seek at h
  split at h
  · cases h
    exact ⟨rfl, rfl⟩
  · split at h
    · split at h
      · cases h
      · obtain ⟨hlead, hdisplay⟩ := load_keeps h
        exact ⟨hlead, hdisplay⟩
    · cases h
      exact ⟨rfl, rfl⟩

/-- Rows of the same postings that stand on the same document, whatever their
cursors are. The maps agree on the postings. -/
structure Alike (m m' : KeyMap Bytes) (p q : Postings) : Prop where
  agree : ∀ k, p.lead <+: k → m'.find? k = m.find? k
  lead : q.lead = p.lead
  display : q.display = p.display
  current : q.current = p.current

/-- Behind the document that alike rows stand on they have the same ahead. -/
theorem Alike.behind_iff (h : Alike m m' p q) (hp : p.Ahead mem m r U P)
    (hq : q.Ahead mem' m' r' U Q) {d e : DocKey} (hcur : p.current = some d)
    (hbefore : d.before e = true) : Q e ↔ P e := by
  have hfind : m'.find? (key p.lead e) = m.find? (key p.lead e) :=
    h.agree _ (List.prefix_append _ _)
  rw [hp.behind_iff hcur hbefore, hq.behind_iff (h.current.trans hcur) hbefore, h.lead, hfind]

/-- Rows are alike if they are the same but for the document, and have the same
ahead. -/
theorem Alike.of_ahead (hU : Universe U) {p' q' : Postings} (h : Alike m m' p q)
    (hkeeps : p'.lead = p.lead ∧ p'.display = p.display)
    (hkeeps' : q'.lead = q.lead ∧ q'.display = q.display) (hp : p'.Ahead mem m r U P)
    (hq : q'.Ahead mem' m' r' U P) : Alike m m' p' q' := by
  obtain ⟨hlead, hdisplay⟩ := hkeeps
  obtain ⟨hlead', hdisplay'⟩ := hkeeps'
  refine ⟨?_, ?_, ?_, First.unique hU (fun _ => hp.within) hq.first hp.first⟩
  · rw [hlead]
    exact h.agree
  · rw [hlead', hlead, h.lead]
  · rw [hdisplay', hdisplay, h.display]

/-- They stay alike when they go to the next posting. -/
theorem Alike.next (hU : Universe U) (h : Alike m m' p q) (hp : p.Ahead mem m r U P)
    (hq : q.Ahead mem' m' r' U Q) {p' q' : Postings} (hp' : p.next mem r = .ok p')
    (hq' : q.next mem' r' = .ok q') : Alike m m' p' q' := by
  cases hcur : p.current with
  | none =>
      unfold Postings.next at hp' hq'
      rw [hcur] at hp'
      rw [h.current.trans hcur] at hq'
      cases hp'
      cases hq'
      exact h
  | some d =>
      obtain ⟨p₁, hp₁, hahead⟩ := next_ok hU hp
      obtain ⟨q₁, hq₁, hahead'⟩ := next_ok hU hq
      obtain rfl : p' = p₁ := Except.ok.inj (hp'.symm.trans hp₁)
      obtain rfl : q' = q₁ := Except.ok.inj (hq'.symm.trans hq₁)
      have hsame : Move.next.rest q.current Q = Move.next.rest p.current P := by
        funext e
        rw [h.current, hcur]
        exact propext (and_congr_left fun he => h.behind_iff hp hq hcur (he d rfl))
      rw [hsame] at hahead'
      exact h.of_ahead hU (next_keeps hp') (next_keeps hq') hahead hahead'

/-- And when they seek. -/
theorem Alike.seek (hU : Universe U) (h : Alike m m' p q) (hp : p.Ahead mem m r U P)
    (hq : q.Ahead mem' m' r' U Q) {target : DocKey} {p' q' : Postings}
    (hp' : p.seek mem r target = .ok p') (hq' : q.seek mem' r' target = .ok q') :
    Alike m m' p' q' := by
  -- without a document, and with one that is far enough, both stay
  have hstay (hp' : .ok p = (.ok p' : Except Failure Postings))
      (hq' : .ok q = (.ok q' : Except Failure Postings)) : Alike m m' p' q' := by
    cases hp'
    cases hq'
    exact h
  cases hcur : p.current with
  | none =>
      unfold Postings.seek at hp' hq'
      rw [hcur] at hp'
      rw [h.current.trans hcur] at hq'
      exact hstay hp' hq'
  | some d =>
      cases hbefore : d.before target with
      | false =>
          unfold Postings.seek at hp' hq'
          simp only [hcur, hbefore, Bool.false_eq_true, if_false] at hp'
          simp only [h.current.trans hcur, hbefore, Bool.false_eq_true, if_false] at hq'
          exact hstay hp' hq'
      | true =>
          obtain ⟨p₁, hp₁, hahead⟩ := seek_ok hU hp target
          obtain ⟨q₁, hq₁, hahead'⟩ := seek_ok hU hq target
          obtain rfl : p' = p₁ := Except.ok.inj (hp'.symm.trans hp₁)
          obtain rfl : q' = q₁ := Except.ok.inj (hq'.symm.trans hq₁)
          have hsame : (Move.seek target).rest q.current Q
              = (Move.seek target).rest p.current P := by
            funext e
            exact propext (and_congr_left fun he =>
              h.behind_iff hp hq hcur (DocKey.before_of_before_of_not hbefore he))
          rw [hsame] at hahead'
          exact h.of_ahead hU (seek_keeps hp') (seek_keeps hq') hahead hahead'

/-- Rows with the same lead and term are alike from the start. -/
theorem start_alike (hU : Universe U) (hr : r.Reads mem m) (hr' : r'.Reads mem' m')
    {lead : Bytes} (hagree : ∀ k, lead <+: k → m'.find? k = m.find? k)
    (hshaped : Shaped m U lead) {display : String} {p' q' : Postings}
    (hp' : start mem r lead display = .ok p') (hq' : start mem' r' lead display = .ok q') :
    Alike m m' p' q' := by
  have hshaped' : Shaped m' U lead := fun tail v d hv hread =>
    hshaped tail v d ((hagree _ (List.prefix_append _ _)).symm.trans hv) hread
  obtain ⟨p₁, hp₁, hahead⟩ := start_ok hU hr hshaped display
  obtain ⟨q₁, hq₁, hahead'⟩ := start_ok hU hr' hshaped' display
  obtain rfl : p' = p₁ := Except.ok.inj (hp'.symm.trans hp₁)
  obtain rfl : q' = q₁ := Except.ok.inj (hq'.symm.trans hq₁)
  obtain ⟨hlead, hdisplay⟩ := start_keeps hp'
  obtain ⟨hlead', hdisplay'⟩ := start_keeps hq'
  have hfind (d : DocKey) : m'.find? (key lead d) = m.find? (key lead d) :=
    hagree _ (List.prefix_append _ _)
  simp only [hfind] at hahead'
  refine ⟨?_, hlead'.trans hlead.symm, hdisplay'.trans hdisplay.symm,
    First.unique hU (fun _ => hahead.within) hahead'.first hahead.first⟩
  rw [hlead]
  exact hagree

end Postings

-- ================================================================ results

namespace Results

open List (Forall₂)

variable {m m' : KeyMap Bytes} {x y : Results} {xs ys : List Results}

/-- Results that are joined in one way, from rows that are alike, and stand on
the same documents. -/
inductive Alike (m m' : KeyMap Bytes) : Results → Results → Prop
  | empty : Alike m m' .empty .empty
  | token {p q : Postings} (h : Postings.Alike m m' p q) : Alike m m' (.token p) (.token q)
  | all {xs ys : List Results} {current : Option DocKey} (h : Forall₂ (Alike m m') xs ys) :
      Alike m m' (.all xs current) (.all ys current)
  | any {xs ys : List Results} {current : Option DocKey} (h : Forall₂ (Alike m m') xs ys) :
      Alike m m' (.any xs current) (.any ys current)

/-- They stand on the same document. -/
theorem Alike.position (h : Alike m m' x y) : y.position = x.position := by
  cases h with
  | empty => rfl
  | token h => exact h.current
  | all h => rfl
  | any h => rfl

/-- So either of them does if the other does. -/
theorem Alike.isValid (h : Alike m m' x y) : y.isValid = x.isValid := by
  unfold Results.isValid
  rw [h.position]

/-- And on this one. -/
theorem Alike.standsOn (h : Alike m m' x y) (d : DocKey) : y.standsOn d = x.standsOn d := by
  unfold Results.standsOn
  rw [h.position]

/-- The nearest document is the same. -/
theorem nearest_eq (h : Forall₂ (Alike m m') xs ys) : nearest ys = nearest xs := by
  unfold nearest
  generalize (none : Option DocKey) = found
  induction h generalizing found with
  | nil => rfl
  | cons hx _ ih =>
      rw [List.foldl_cons, List.foldl_cons, hx.position]
      exact ih _

/-- So is the farthest. -/
theorem farthest_eq (h : Forall₂ (Alike m m') xs ys) : farthest ys = farthest xs := by
  induction h with
  | nil => rfl
  | cons hx hxs ih =>
      cases hxs with
      | nil => exact hx.position
      | cons _ _ =>
          rw [farthest.eq_3 _ _ (List.cons_ne_nil _ _), farthest.eq_3 _ _ (List.cons_ne_nil _ _),
            hx.position, ih]

/-- All stand on a document if all do on the other side. -/
theorem all_standsOn_eq (h : Forall₂ (Alike m m') xs ys) (d : DocKey) :
    (ys.all fun y => y.standsOn d) = xs.all fun x => x.standsOn d := by
  induction h with
  | nil => rfl
  | cons hx _ ih => rw [List.all_cons, List.all_cons, hx.standsOn, ih]

/-- The same of them stand on something. -/
theorem filter_alike (h : Forall₂ (Alike m m') xs ys) :
    Forall₂ (Alike m m') (xs.filter Results.isValid) (ys.filter Results.isValid) := by
  refine List.rel_filter (fun x y hx => ?_) h
  dsimp only
  rw [hx.isValid]

/-- Rows joined by choice are alike. -/
theorem ofAny_alike (h : Forall₂ (Alike m m') xs ys) : Alike m m' (ofAny xs) (ofAny ys) := by
  unfold ofAny
  dsimp only
  rw [nearest_eq (filter_alike h)]
  exact .any (filter_alike h)

mutual

/-- The same terms are to be shown. -/
theorem Alike.rawTerms : ∀ {x y : Results}, Alike m m' x y → y.rawTerms = x.rawTerms
  | .empty, _, h => by
      cases h
      rfl
  | .token p, _, h => by
      cases h with
      | token h => rw [Results.rawTerms, Results.rawTerms, h.current, h.display]
  | .all xs current, _, h => by
      cases h with
      | all h => rw [Results.rawTerms, Results.rawTerms, rawTermsOfAll_eq h]
  | .any xs none, _, h => by
      cases h with
      | any h => rw [Results.rawTerms, Results.rawTerms]
  | .any xs (some d), _, h => by
      cases h with
      | any h => rw [Results.rawTerms, Results.rawTerms, rawTermsAt_eq h d]

/-- Of several results. -/
theorem rawTermsOfAll_eq : ∀ {xs ys : List Results}, Forall₂ (Alike m m') xs ys →
    rawTermsOfAll ys = rawTermsOfAll xs
  | [], _, h => by
      cases h
      rfl
  | x :: xs, _, h => by
      cases h with
      | cons hx hxs => rw [rawTermsOfAll, rawTermsOfAll, hx.rawTerms, rawTermsOfAll_eq hxs]

/-- And of those that stand on a document. -/
theorem rawTermsAt_eq : ∀ {xs ys : List Results}, Forall₂ (Alike m m') xs ys → ∀ d : DocKey,
    rawTermsAt d ys = rawTermsAt d xs
  | [], _, h, d => by
      cases h
      rfl
  | x :: xs, _, h, d => by
      cases h with
      | cons hx hxs =>
          rw [rawTermsAt, rawTermsAt, hx.standsOn, hx.rawTerms, rawTermsAt_eq hxs d]

end

/-- So the same is to be highlighted. -/
theorem Alike.highlights (h : Alike m m' x y) : y.highlights = x.highlights := by
  unfold Results.highlights
  rw [h.rawTerms]

-- =========================================================== side by side

section Moving

variable {mem mem' : Memory} {r r' : ReadView} {U : List DocKey} {P Q : DocSet}
  {Ps Qs : List DocSet} {n fuel fuel' : Nat}

/-- What is made of elements that are related is related, if both are made. -/
theorem mapM_forall₂ {α β γ δ : Type} {R : α → β → Prop} {S : γ → δ → Prop}
    {f : α → Except Failure γ} {g : β → Except Failure δ} {as : List α} {bs : List β}
    (h : Forall₂ R as bs)
    (hfg : ∀ a ∈ as, ∀ b ∈ bs, R a b → ∀ {c d}, f a = .ok c → g b = .ok d → S c d)
    {cs : List γ} {ds : List δ} (hcs : as.mapM f = .ok cs) (hds : bs.mapM g = .ok ds) :
    Forall₂ S cs ds := by
  induction h generalizing cs ds with
  | nil =>
      cases hcs
      cases hds
      exact .nil
  | cons hab _ ih =>
      rw [List.mapM_cons] at hcs hds
      obtain ⟨c, hc, hcs⟩ := of_ok_bind hcs
      obtain ⟨cs', hcs', hcs⟩ := of_ok_bind hcs
      obtain ⟨d, hd, hds⟩ := of_ok_bind hds
      obtain ⟨ds', hds', hds⟩ := of_ok_bind hds
      cases hcs
      cases hds
      refine .cons (hfg _ List.mem_cons_self _ List.mem_cons_self hab hc hd) (ih ?_ hcs' hds')
      exact fun a ha b hb => hfg a (List.mem_cons_of_mem _ ha) b (List.mem_cons_of_mem _ hb)

/-- Results of so many rows stay alike when they are moved side by side, each
with fuel enough. -/
def MovesAlike (mem mem' : Memory) (m m' : KeyMap Bytes) (r r' : ReadView) (U : List DocKey)
    (n : Nat) : Prop :=
  ∀ {x y P Q}, x.rows ≤ n → y.rows ≤ n → Ahead mem m r U x P → Ahead mem' m' r' U y Q →
    Alike m m' x y → ∀ {fuel fuel'}, need U x.rows ≤ fuel → need U y.rows ≤ fuel' →
      ∀ {mv x' y'}, move mem r fuel mv x = .ok x' → move mem' r' fuel' mv y = .ok y' →
        Alike m m' x' y'

/-- So they do when they pass a document. -/
theorem pass_alike (hU : Universe U) (halike : MovesAlike mem mem' m m' r r' U n)
    (hn : x.rows ≤ n) (hn' : y.rows ≤ n) (h : x.Ahead mem m r U P) (h' : y.Ahead mem' m' r' U Q)
    (hxy : Alike m m' x y) {e : DocKey} (he : e ∈ U) (hlow : ∀ d, P d → d.before e = false)
    (hlow' : ∀ d, Q d → d.before e = false) (hfuel : need U x.rows + 2 ≤ fuel)
    (hfuel' : need U y.rows + 2 ≤ fuel') {x' y' : Results} (hx : pass mem r fuel e x = .ok x')
    (hy : pass mem' r' fuel' e y = .ok y') : Alike m m' x' y' := by
  obtain ⟨fuel, rfl⟩ : ∃ f, fuel = f + 2 := ⟨fuel - 2, by omega⟩
  obtain ⟨fuel', rfl⟩ : ∃ f, fuel' = f + 2 := ⟨fuel' - 2, by omega⟩
  rw [pass_eq hU (moves hU n) hn h he hlow (by omega)] at hx
  rw [pass_eq hU (moves hU n) hn' h' he hlow' (by omega), hxy.position] at hy
  by_cases hpos : x.position = some e
  · rw [if_pos hpos] at hx hy
    exact halike hn hn' h h' hxy (by omega) (by omega) hx hy
  · rw [if_neg hpos] at hx hy
    cases hx
    cases hy
    exact hxy

/-- A round of aligning leaves rows alike: the same ones seek. -/
theorem align_round_alike (halike : MovesAlike mem mem' m m' r r' U n)
    (h : AheadEach mem m r U xs Ps) (h' : AheadEach mem' m' r' U ys Qs)
    (hxys : Forall₂ (Alike m m') xs ys) (hn : rowsOfAll xs ≤ n) (hn' : rowsOfAll ys ≤ n)
    (hfuel : need U (rowsOfAll xs) ≤ fuel) (hfuel' : need U (rowsOfAll ys) ≤ fuel') {t : DocKey}
    {xs' ys' : List Results}
    (hxs : xs.mapM (fun x => if x.standsOn t then .ok x else move mem r fuel (.seek t) x)
      = .ok xs')
    (hys : ys.mapM (fun y => if y.standsOn t then .ok y else move mem' r' fuel' (.seek t) y)
      = .ok ys') : Forall₂ (Alike m m') xs' ys' := by
  refine mapM_forall₂ hxys (fun x hx y hy hxy x' y' hx' hy' => ?_) hxs hys
  rw [hxy.standsOn] at hy'
  split at hx'
  · next hstands =>
      rw [if_pos hstands] at hy'
      cases hx'
      cases hy'
      exact hxy
  · next hnot =>
      rw [if_neg hnot] at hy'
      obtain ⟨P, -, hP⟩ := h.of_mem hx
      obtain ⟨Q, -, hQ⟩ := h'.of_mem hy
      have hrows := rows_le_rowsOfAll hx
      have hrows' := rows_le_rowsOfAll hy
      exact halike (le_trans hrows hn) (le_trans hrows' hn') hP hQ hxy
        (le_trans (need_mono hrows) hfuel) (le_trans (need_mono hrows') hfuel') hx' hy'

/-- Rows that are aligned side by side are joined alike. -/
theorem align_alike (hU : Universe U) (halike : MovesAlike mem mem' m m' r r' U n)
    (h : AheadEach mem m r U xs Ps) (h' : AheadEach mem' m' r' U ys Qs)
    (hxys : Forall₂ (Alike m m') xs ys) (hn : rowsOfAll xs ≤ n) (hn' : rowsOfAll ys ≤ n)
    (hpos : 1 ≤ fuel) (hpos' : 1 ≤ fuel')
    (hfuel : ∀ t, farthest xs = some t → (xs.all fun x => x.standsOn t) = false →
      need U (rowsOfAll xs) + left U t + 1 ≤ fuel)
    (hfuel' : ∀ t, farthest ys = some t → (ys.all fun y => y.standsOn t) = false →
      need U (rowsOfAll ys) + left U t + 1 ≤ fuel') {x' y' : Results}
    (hx : align mem r fuel xs = .ok x') (hy : align mem' r' fuel' ys = .ok y') :
    Alike m m' x' y' := by
  induction fuel generalizing fuel' xs ys Ps Qs with
  | zero => omega
  | succ fuel ih =>
      obtain ⟨fuel', rfl⟩ : ∃ f, fuel' = f + 1 := ⟨fuel' - 1, by omega⟩
      rw [align] at hx hy
      rw [farthest_eq hxys] at hy hfuel'
      cases hfar : farthest xs with
      | none =>
          rw [hfar] at hx hy
          cases hx
          cases hy
          exact .all hxys
      | some t =>
          rw [hfar] at hx hy
          dsimp only at hx hy
          rw [all_standsOn_eq hxys] at hy
          cases hall : xs.all fun x => x.standsOn t with
          | true =>
              rw [if_pos hall] at hx hy
              cases hx
              cases hy
              exact .all hxys
          | false =>
              have hround := hfuel t hfar hall
              have hround' := hfuel' t hfar ((all_standsOn_eq hxys t).trans hall)
              obtain ⟨⟨x, hmem, hxt⟩, -⟩ := farthest_some hfar
              obtain ⟨P, -, hP⟩ := h.of_mem hmem
              have hfirst := hP.first
              rw [hxt] at hfirst
              have ht : t ∈ U := hP.within hfirst.1
              have henough : need U (rowsOfAll xs) + left U t ≤ fuel := by omega
              have henough' : need U (rowsOfAll ys) + left U t ≤ fuel' := by omega
              obtain ⟨xs', hmap, heach, hrows, hrounds⟩ :=
                align_round_ok hU (moves hU n) h hn ht
              obtain ⟨ys', hmap', heach', hrows', hrounds'⟩ :=
                align_round_ok hU (moves hU n) h' hn' ht
              have hmap := hmap fuel (by omega)
              have hmap' := hmap' fuel' (by omega)
              have hnext := align_round_alike halike h h' hxys hn hn' (by omega) (by omega)
                hmap hmap'
              have hleft := left_pos ht
              have hnot : ¬(xs.all fun x => x.standsOn t) = true := by
                rw [hall]
                exact Bool.false_ne_true
              rw [if_neg hnot] at hx hy
              simp only [hmap] at hx
              simp only [hmap'] at hy
              exact ih heach heach' hnext (le_trans hrows hn) (le_trans hrows' hn') (by omega)
                (by omega) (fun t' hfar' hnot' => le_trans (hrounds t' hfar' hnot') henough)
                (fun t' hfar' hnot' => le_trans (hrounds' t' hfar' hnot') henough') hx hy

/-- They are with fuel for any round. -/
theorem align_alike_of_need (hU : Universe U) (halike : MovesAlike mem mem' m m' r r' U n)
    (h : AheadEach mem m r U xs Ps) (h' : AheadEach mem' m' r' U ys Qs)
    (hxys : Forall₂ (Alike m m') xs ys) (hn : rowsOfAll xs ≤ n) (hn' : rowsOfAll ys ≤ n)
    (hfuel : need U (rowsOfAll xs) + U.length + 1 ≤ fuel)
    (hfuel' : need U (rowsOfAll ys) + U.length + 1 ≤ fuel') {x' y' : Results}
    (hx : align mem r fuel xs = .ok x') (hy : align mem' r' fuel' ys = .ok y') :
    Alike m m' x' y' := by
  refine align_alike hU halike h h' hxys hn hn' (by omega) (by omega) (fun t _ _ => ?_)
    (fun t _ _ => ?_) hx hy
  · have := left_le (U := U) t
    omega
  · have := left_le (U := U) t
    omega

/-- Rows seek side by side. -/
theorem seekEach_alike (halike : MovesAlike mem mem' m m' r r' U n)
    (h : AheadEach mem m r U xs Ps) (h' : AheadEach mem' m' r' U ys Qs)
    (hxys : Forall₂ (Alike m m') xs ys) (hn : rowsOfAll xs ≤ n) (hn' : rowsOfAll ys ≤ n)
    (hfuel : need U (rowsOfAll xs) ≤ fuel) (hfuel' : need U (rowsOfAll ys) ≤ fuel')
    {target : DocKey} {xs' ys' : List Results}
    (hxs : xs.mapM (move mem r fuel (.seek target)) = .ok xs')
    (hys : ys.mapM (move mem' r' fuel' (.seek target)) = .ok ys') :
    Forall₂ (Alike m m') xs' ys' := by
  refine mapM_forall₂ hxys (fun x hx y hy hxy x' y' hx' hy' => ?_) hxs hys
  obtain ⟨P, -, hP⟩ := h.of_mem hx
  obtain ⟨Q, -, hQ⟩ := h'.of_mem hy
  have hrows := rows_le_rowsOfAll hx
  have hrows' := rows_le_rowsOfAll hy
  exact halike (le_trans hrows hn) (le_trans hrows' hn') hP hQ hxy
    (le_trans (need_mono hrows) hfuel) (le_trans (need_mono hrows') hfuel') hx' hy'

/-- The first ones move on side by side. -/
theorem nextFirst_alike (halike : MovesAlike mem mem' m m' r r' U n)
    (h : AheadEach mem m r U (x :: xs) (P :: Ps)) (h' : AheadEach mem' m' r' U (y :: ys) (Q :: Qs))
    (hxys : Forall₂ (Alike m m') (x :: xs) (y :: ys)) (hn : rowsOfAll (x :: xs) ≤ n)
    (hn' : rowsOfAll (y :: ys) ≤ n) (hfuel : need U (rowsOfAll (x :: xs)) ≤ fuel)
    (hfuel' : need U (rowsOfAll (y :: ys)) ≤ fuel') {x' y' : Results}
    (hx : move mem r fuel .next x = .ok x') (hy : move mem' r' fuel' .next y = .ok y') :
    Forall₂ (Alike m m') (x' :: xs) (y' :: ys) := by
  obtain ⟨hxy, hrest⟩ := List.forall₂_cons.mp hxys
  have hrows := rows_le_rowsOfAll (List.mem_cons_self (a := x) (l := xs))
  have hrows' := rows_le_rowsOfAll (List.mem_cons_self (a := y) (l := ys))
  exact .cons (halike (le_trans hrows hn) (le_trans hrows' hn') h.1 h'.1 hxy
    (le_trans (need_mono hrows) hfuel) (le_trans (need_mono hrows') hfuel') hx hy) hrest

/-- Rows that are joined by `all` are moved side by side. -/
theorem move_all_alike (hU : Universe U) (halike : MovesAlike mem mem' m m' r r' U n)
    {current : Option DocKey} (h : (Results.all xs current).Ahead mem m r U P)
    (h' : (Results.all ys current).Ahead mem' m' r' U Q) (hxys : Forall₂ (Alike m m') xs ys)
    (hn : rowsOfAll xs ≤ n) (hn' : rowsOfAll ys ≤ n)
    (hfuel : need U (rowsOfAll xs) + U.length + 3 ≤ fuel)
    (hfuel' : need U (rowsOfAll ys) + U.length + 3 ≤ fuel') {mv : Move} {x' y' : Results}
    (hx : move mem r (fuel + 1) mv (.all xs current) = .ok x')
    (hy : move mem' r' (fuel' + 1) mv (.all ys current) = .ok y') : Alike m m' x' y' := by
  match current with
  | none =>
      rw [move] at hx hy
      cases hx
      cases hy
      exact .all hxys
  | some t =>
      obtain ⟨Ps, heach, -⟩ := h.2.2 rfl
      obtain ⟨Qs, heach', -⟩ := h'.2.2 rfl
      cases mv with
      | next =>
          cases hxys with
          | nil =>
              rw [move] at hx hy
              cases hx
              cases hy
              exact .all .nil
          | @cons x y xs ys hxy hxys =>
              rw [move] at hx hy
              cases Ps with
              | nil => exact heach.elim
              | cons P Ps =>
              cases Qs with
              | nil => exact heach'.elim
              | cons Q Qs =>
                  have henough : need U (rowsOfAll (x :: xs)) ≤ fuel := by omega
                  have henough' : need U (rowsOfAll (y :: ys)) ≤ fuel' := by omega
                  obtain ⟨x₁, hmove, hmoved, hrows⟩ := nextFirst_ok (moves hU n) heach hn
                  obtain ⟨y₁, hmove', hmoved', hrows'⟩ := nextFirst_ok (moves hU n) heach' hn'
                  have hmove := hmove fuel henough
                  have hmove' := hmove' fuel' henough'
                  have hnext := nextFirst_alike halike heach heach' (.cons hxy hxys) hn hn' henough
                    henough' hmove hmove'
                  have hneed := need_mono (U := U) hrows
                  have hneed' := need_mono (U := U) hrows'
                  rw [hmove] at hx
                  rw [hmove'] at hy
                  exact align_alike_of_need hU halike hmoved hmoved' hnext (le_trans hrows hn)
                    (le_trans hrows' hn') (by omega) (by omega) hx hy
      | seek target =>
          rw [move] at hx hy
          by_cases hbefore : t.before target = true
          · rw [if_pos hbefore] at hx hy
            have henough : need U (rowsOfAll xs) ≤ fuel := by omega
            have henough' : need U (rowsOfAll ys) ≤ fuel' := by omega
            obtain ⟨xs', hmap, hmoved, hrows⟩ := seekEach_ok (moves hU n) heach hn target
            obtain ⟨ys', hmap', hmoved', hrows'⟩ := seekEach_ok (moves hU n) heach' hn' target
            have hmap := hmap fuel henough
            have hmap' := hmap' fuel' henough'
            have hnext := seekEach_alike halike heach heach' hxys hn hn' henough henough' hmap hmap'
            have hneed := need_mono (U := U) hrows
            have hneed' := need_mono (U := U) hrows'
            rw [hmap] at hx
            rw [hmap'] at hy
            exact align_alike_of_need hU halike hmoved hmoved' hnext (le_trans hrows hn)
              (le_trans hrows' hn') (by omega) (by omega) hx hy
          · rw [if_neg hbefore] at hx hy
            cases hx
            cases hy
            exact .all hxys

/-- Rows that are joined by `any` are moved side by side. -/
theorem move_any_alike (hU : Universe U) (halike : MovesAlike mem mem' m m' r r' U n)
    {current : Option DocKey} (h : (Results.any xs current).Ahead mem m r U P)
    (h' : (Results.any ys current).Ahead mem' m' r' U Q) (hxys : Forall₂ (Alike m m') xs ys)
    (hn : rowsOfAll xs ≤ n) (hn' : rowsOfAll ys ≤ n)
    (hfuel : need U (rowsOfAll xs) + 2 ≤ fuel) (hfuel' : need U (rowsOfAll ys) + 2 ≤ fuel')
    {mv : Move} {x' y' : Results}
    (hx : move mem r (fuel + 1) mv (.any xs current) = .ok x')
    (hy : move mem' r' (fuel' + 1) mv (.any ys current) = .ok y') : Alike m m' x' y' := by
  obtain ⟨hwithin, hfirst, Ps, heach, hset⟩ := h
  obtain ⟨-, hfirst', Qs, heach', hset'⟩ := h'
  match current with
  | none =>
      rw [move] at hx hy
      cases hx
      cases hy
      exact .any hxys
  | some t =>
      cases mv with
      | next =>
          rw [move] at hx hy
          split at hx
          · cases hx
          · next xs' hxs =>
              split at hy
              · cases hy
              · next ys' hys =>
                  cases hx
                  cases hy
                  refine ofAny_alike (mapM_forall₂ hxys (fun x hx y hy hxy x' y' hx' hy' => ?_)
                    hxs hys)
                  obtain ⟨P, hP, hahead⟩ := heach.of_mem hx
                  obtain ⟨Q, hQ, hahead'⟩ := heach'.of_mem hy
                  have hrows := rows_le_rowsOfAll hx
                  have hrows' := rows_le_rowsOfAll hy
                  have hneed := need_mono (U := U) hrows
                  have hneed' := need_mono (U := U) hrows'
                  exact pass_alike hU halike (le_trans hrows hn) (le_trans hrows' hn') hahead
                    hahead' hxy (hwithin t hfirst.1)
                    (fun d hd => hfirst.2 d ((hset d).mpr ⟨P, hP, hd⟩))
                    (fun d hd => hfirst'.2 d ((hset' d).mpr ⟨Q, hQ, hd⟩)) (by omega) (by omega)
                    hx' hy'
      | seek target =>
          rw [move] at hx hy
          by_cases hbefore : t.before target = true
          · rw [if_pos hbefore] at hx hy
            split at hx
            · cases hx
            · next xs' hxs =>
                split at hy
                · cases hy
                · next ys' hys =>
                    cases hx
                    cases hy
                    exact ofAny_alike (seekEach_alike halike heach heach' hxys hn hn' (by omega)
                      (by omega) hxs hys)
          · rw [if_neg hbefore] at hx hy
            cases hx
            cases hy
            exact .any hxys

/-- All results stay alike when they are moved side by side. -/
theorem moves_alike (hU : Universe U) (n : Nat) : MovesAlike mem mem' m m' r r' U n := by
  induction n with
  | zero =>
      intro x _ _ _ hn
      have := rows_pos x
      omega
  | succ n ih =>
      intro x y P Q hn hn' h h' hxy fuel fuel' hfuel hfuel' mv x' y' hx hy
      obtain ⟨k, hk⟩ : ∃ k, x.rows = k + 1 := ⟨x.rows - 1, by have := rows_pos x; omega⟩
      obtain ⟨k', hk'⟩ : ∃ k, y.rows = k + 1 := ⟨y.rows - 1, by have := rows_pos y; omega⟩
      have hneed := need_succ (U := U) k
      have hneed' := need_succ (U := U) k'
      rw [hk] at hfuel
      rw [hk'] at hfuel'
      obtain ⟨fuel, rfl⟩ : ∃ f, fuel = f + 1 := ⟨fuel - 1, by omega⟩
      obtain ⟨fuel', rfl⟩ : ∃ f, fuel' = f + 1 := ⟨fuel' - 1, by omega⟩
      cases hxy with
      | empty =>
          rw [move] at hx hy
          cases hx
          cases hy
          exact .empty
      | token hpq =>
          cases mv with
          | next =>
              rw [move] at hx hy
              obtain ⟨p', hp', -⟩ := Postings.next_ok hU h
              obtain ⟨q', hq', -⟩ := Postings.next_ok hU h'
              rw [hp'] at hx
              rw [hq'] at hy
              cases hx
              cases hy
              exact .token (hpq.next hU h h' hp' hq')
          | seek target =>
              rw [move] at hx hy
              obtain ⟨p', hp', -⟩ := Postings.seek_ok hU h target
              obtain ⟨q', hq', -⟩ := Postings.seek_ok hU h' target
              rw [hp'] at hx
              rw [hq'] at hy
              cases hx
              cases hy
              exact .token (hpq.seek hU h h' hp' hq')
      | all hxys =>
          rw [rows] at hk hk' hn hn'
          obtain rfl : k = _ := (Nat.succ.inj hk).symm
          obtain rfl : k' = _ := (Nat.succ.inj hk').symm
          exact move_all_alike hU ih h h' hxys (by omega) (by omega) (by omega) (by omega) hx hy
      | any hxys =>
          rw [rows] at hk hk' hn hn'
          obtain rfl : k = _ := (Nat.succ.inj hk).symm
          obtain rfl : k' = _ := (Nat.succ.inj hk').symm
          exact move_any_alike hU ih h h' hxys (by omega) (by omega) (by omega) (by omega) hx hy

end Moving

-- ================================================================ browsing

/-- What can be seen of results: the document they stand on, and the terms to
show for it. -/
def seen (x : Results) : Option DocKey × List String :=
  (x.position, x.highlights)

/-- Results after one move. -/
def moved (mem : Memory) (r : ReadView) (x : Results) : Move → Except Failure Results
  | .next => x.next mem r
  | .seek target => x.seek mem r target

/-- A move is made with the budget of the results. -/
theorem moved_eq (mem : Memory) (r : ReadView) (x : Results) (mv : Move) :
    x.moved mem r mv = move mem r (budget mem r x.rows) mv x := by
  cases mv <;> rfl

/-- What is seen of results that are moved, one move after the other. -/
def browse (mem : Memory) (r : ReadView) :
    List Move → Results → Except Failure (List (Option DocKey × List String))
  | [], x => return [x.seen]
  | mv :: mvs, x => do
    let y ← x.moved mem r mv
    let rest ← browse mem r mvs y
    return x.seen :: rest

section Browsing

variable {mem mem' : Memory} {r r' : ReadView} {U : List DocKey} {P Q : DocSet}
  {Ps Qs : List DocSet}

/-- The same is seen of results that are alike. -/
theorem Alike.seen (h : Alike m m' x y) : y.seen = x.seen := by
  unfold Results.seen
  rw [h.position, h.highlights]

/-- After a move they are alike. -/
theorem moved_alike (hU : Universe U) (hsize : U.length ≤ r.extent mem)
    (hsize' : U.length ≤ r'.extent mem') (h : x.Ahead mem m r U P) (h' : y.Ahead mem' m' r' U Q)
    (hxy : Alike m m' x y) (mv : Move) :
    ∃ x' y', x.moved mem r mv = .ok x' ∧ y.moved mem' r' mv = .ok y' ∧ Alike m m' x' y' ∧
      x'.Ahead mem m r U (mv.rest x.position P) ∧ y'.Ahead mem' m' r' U (mv.rest y.position Q) := by
  have henough := need_rows_le_budget hsize x
  have henough' := need_rows_le_budget hsize' y
  obtain ⟨x', hx, hahead, -⟩ := moves hU x.rows x P (Nat.le_refl _) h mv
  obtain ⟨y', hy, hahead', -⟩ := moves hU y.rows y Q (Nat.le_refl _) h' mv
  have hx := hx _ henough
  have hy := hy _ henough'
  refine ⟨x', y', (moved_eq mem r x mv).trans hx, (moved_eq mem' r' y mv).trans hy, ?_, hahead,
    hahead'⟩
  exact moves_alike hU (max x.rows y.rows) (Nat.le_max_left _ _) (Nat.le_max_right _ _) h h' hxy
    henough henough' hx hy

/-- So the same is seen of them, however they are moved. -/
theorem browse_alike (hU : Universe U) (hsize : U.length ≤ r.extent mem)
    (hsize' : U.length ≤ r'.extent mem') (h : x.Ahead mem m r U P) (h' : y.Ahead mem' m' r' U Q)
    (hxy : Alike m m' x y) (mvs : List Move) :
    ∃ shown, x.browse mem r mvs = .ok shown ∧ y.browse mem' r' mvs = .ok shown := by
  induction mvs generalizing x y P Q with
  | nil =>
      refine ⟨[x.seen], rfl, ?_⟩
      rw [browse, hxy.seen]
      rfl
  | cons mv mvs ih =>
      obtain ⟨x', y', hx, hy, hxy', hahead, hahead'⟩ := moved_alike hU hsize hsize' h h' hxy mv
      obtain ⟨rest, hrest, hrest'⟩ := ih hahead hahead' hxy'
      refine ⟨x.seen :: rest, ?_, ?_⟩
      · rw [browse, hx, ok_bind, hrest, ok_bind]
        rfl
      · rw [browse, hy, ok_bind, hrest', ok_bind, hxy.seen]
        rfl

/-- As many are taken of them, and the same. -/
theorem take_alike (hU : Universe U) (hsize : U.length ≤ r.extent mem)
    (hsize' : U.length ≤ r'.extent mem') (h : x.Ahead mem m r U P) (h' : y.Ahead mem' m' r' U Q)
    (hxy : Alike m m' x y) (limit : Nat) :
    ∃ hits, x.take mem r limit = .ok hits ∧ y.take mem' r' limit = .ok hits := by
  induction limit generalizing x y P Q with
  | zero => exact ⟨[], rfl, rfl⟩
  | succ limit ih =>
      rw [take, take, hxy.position]
      cases x.position with
      | none => exact ⟨[], rfl, rfl⟩
      | some d =>
          obtain ⟨x', y', hx, hy, hxy', hahead, hahead'⟩ :=
            moved_alike hU hsize hsize' h h' hxy .next
          obtain ⟨rest, hrest, hrest'⟩ := ih hahead hahead' hxy'
          refine ⟨(d, x.highlights) :: rest, ?_, ?_⟩
          · have hnext : x.next mem r = .ok x' := hx
            simp only [hnext, hrest]
          · have hnext : y.next mem' r' = .ok y' := hy
            simp only [hnext, hrest', hxy.highlights]

/-- Rows joined by `all` are alike. -/
theorem ofAll_alike (hU : Universe U) (hsize : U.length ≤ r.extent mem)
    (hsize' : U.length ≤ r'.extent mem') (h : AheadEach mem m r U xs Ps)
    (h' : AheadEach mem' m' r' U ys Qs) (hxys : Forall₂ (Alike m m') xs ys)
    (hx : ofAll mem r xs = .ok x) (hy : ofAll mem' r' ys = .ok y) : Alike m m' x y :=
  align_alike_of_need hU (moves_alike hU (max (rowsOfAll xs) (rowsOfAll ys))) h h' hxys
    (Nat.le_max_left _ _) (Nat.le_max_right _ _) (need_le_budget hsize _)
    (need_le_budget hsize' _) hx hy

end Browsing

end Results

end OrderedStore
