/-
The books of an index are kept in balance wherever a session has come.

A session that writes under the keys of an index only what the index writes
leaves every slate in balance, the tokens that handles keep are held, and so
are the tokens that were answered: that is a rule that is kept
(`balancing`, `kept_balancing`). What one step leaves for the others are
the tokens that were given, because what is pending in a transaction depends
on what is held through its tokens only (`Later`).

One more fact is carried along, for the sake of sweeps: wherever a token
leads, the entry there could be written anew and logged (`Affordable`). It is
known from the moment that the token was given, since what was logged then is
longer.
-/
import Mathlib
import OrderedStore.Proofs.Balance
import OrderedStore.Proofs.Desks

namespace OrderedStore

namespace IndexKeys

variable {ks : IndexKeys} {m m' m'' : KeyMap Bytes} {σ : Slate}

-- =================================================================== later

/-- What the lexicon has the other map has, too. -/
structure Later (ks : IndexKeys) (m m' : KeyMap Bytes) : Prop where
  keeps : ∀ {term raw token}, ks.tokenIn m term raw = some token →
    ks.tokenIn m' term raw = some token
  given : ∀ token, ks.Given m token → ks.Given m' token

/-- If the lexicon is the same it has what it had. -/
theorem later_of_lexical (h : ∀ k, ks.Lexical k → m'.find? k = m.find? k) : ks.Later m m' := by
  refine ⟨fun ht => ?_, fun token hgiven => ?_⟩
  · rwa [tokenIn_congr h]
  · rwa [given_eq h]

/-- So it is if tokens lead back where they did. -/
theorem later_of_reverse (h : ks.Paired m) (h' : ks.Paired m')
    (hreverse : ∀ token, m'.find? (ks.reverse token) = m.find? (ks.reverse token)) :
    ks.Later m m' := by
  refine ⟨fun ht => ?_, fun token hgiven => ?_⟩
  · rw [h'.tokenIn_iff, hreverse]
    exact h.tokenIn_iff.mp ht
  · unfold Given
    rw [hreverse]
    exact hgiven

/-- It has when terms have got tokens. -/
theorem later_givenAll (ks : IndexKeys) (m : KeyMap Bytes) (terms : List Term) :
    ks.Later m (ks.givenAll m terms) :=
  ⟨(ks.grown_givenAll m terms).keeps, fun _ hgiven => isSome_givenAll ks terms hgiven⟩

/-- If tokens lead back where they did, nothing leads anywhere new. -/
theorem affords_of_reverse
    (h : ∀ token, m'.find? (ks.reverse token) = m.find? (ks.reverse token)) : ks.Affords m m' := by
  intro token l hl
  rw [h] at hl
  exact Or.inl hl

/-- Wherever a token leads, the entry there could be written anew. -/
def Affordable (ks : IndexKeys) (m : KeyMap Bytes) : Prop :=
  ∀ token l, m.find? (ks.reverse token) = some l → ∀ count, (ks.recounting token l count).Loggable

/-- It can be where nothing that is new cannot. -/
theorem Affordable.mono (h : ks.Affordable m) (h' : ks.Affords m m') : ks.Affordable m' := by
  intro token l hl
  rcases h' token l hl with hl | hcount
  · exact h token l hl
  · exact hcount

-- =========================================================== slates, again

/-- The database under a transaction is in balance. -/
theorem Balanced.base (h : ks.Balanced (fun _ => False) σ) :
    ks.Balanced (fun _ => False) ⟨σ.held, none⟩ :=
  ⟨h.paired, h.tidy.base,
    fun he hk => Or.inr ((h.tally he hk).resolve_left fun hin => hin.2), nofun⟩

/-- There is balance where there is nothing. -/
theorem balanced_empty (ks : IndexKeys) : ks.Balanced (fun _ => False) ⟨KeyMap.empty, none⟩ := by
  have hnone {k v : Bytes} : KeyMap.empty.find? k ≠ some v := nofun
  exact ⟨paired_empty ks, ⟨fun hv _ => absurd hv hnone, nofun⟩, fun he _ => absurd he hnone,
    nofun⟩

/-- What is listed on a slate in balance is not of the lexicon. -/
theorem Balanced.prepared {G : UInt64 → Prop} {c : TokenCache} (h : ks.Balanced G σ)
    (hc : Index.KeptIn ks c σ.held) (docId : String) : Index.Prepared ks σ c docId := by
  refine ⟨hc, fun k hk => ?_⟩
  obtain ⟨token, d, -, rfl, -⟩ := h.tidy.listed docId k hk
  exact Index.not_lexical_posting ks token d

/-- Foreign entries leave a slate in balance. -/
theorem Balanced.foreign {ws : List (Bytes × Entry)} (h : ks.Balanced (fun _ => False) σ)
    (hws : ∀ w ∈ ws, ¬ks.lead <+: w.1) : ks.Balanced (fun _ => False) (σ.writes ws) := by
  refine h.writes (fun w hw => proper_of_not_lead (hws w hw)) fun w hw token hk => hws w hw ?_
  refine List.IsPrefix.trans ?_ hk
  unfold postings part
  rw [List.append_assoc, List.append_assoc]
  exact List.prefix_append _ _

end IndexKeys

-- ================================================================ the rule

open IndexKeys Index

/-- The rule that books are in balance: every slate is, and entries can be
written anew; handles keep tokens that are held; answers are tokens that are
held. -/
def balancing (name : String) : Rule where
  slate σ := (ofName name).Balanced (fun _ => False) σ ∧ (ofName name).Affordable σ.held
  handle m x := x.keys = ofName name ∧ KeptIn (ofName name) x.cache m
  answer m a := (ofName name).tokenIn m a.term (stored a.term a.raw) = some a.token
  later := (ofName name).Later

section Steps

variable {name : String} {m : KeyMap Bytes} {s s' : Slate} {x : Index}

/-- The lexicon stays, so all that goes by it does. -/
theorem step_of_lexical (h : (balancing name).slate s)
    (hs' : (ofName name).Balanced (fun _ => False) s')
    (hlexical : ∀ k, (ofName name).Lexical k → s'.held.find? k = s.held.find? k) :
    (balancing name).Step s s' :=
  ⟨⟨hs', h.2.mono (affords_of_reverse fun token => hlexical _ (lexical_reverse _ token))⟩,
    later_of_lexical hlexical⟩

/-- A token may be asked for. -/
theorem step_asked {term raw : String} (h : (balancing name).slate ⟨m, none⟩)
    (hx : (balancing name).handle m x) (hafford : x.keys.Affords m (x.tokenAt m term raw).2.2)
    (hroom : (x.tokenAt m term raw).2.2.size < UInt64.size) :
    (balancing name).Step ⟨m, none⟩ ⟨(x.tokenAt m term raw).2.2, none⟩ ∧
      (balancing name).handle (x.tokenAt m term raw).2.2 (x.tokenAt m term raw).2.1 ∧
      (balancing name).answer (x.tokenAt m term raw).2.2
        ⟨term, raw, (x.tokenAt m term raw).1⟩ := by
  obtain ⟨hkeys, hkept⟩ := hx
  obtain ⟨hbalanced, haffordable⟩ := h
  rw [← hkeys] at hkept
  obtain ⟨hheld, htoken, hkept'⟩ := tokenAt_of_kept x hkept term raw
  rw [hheld] at hafford hroom ⊢
  rw [hkeys] at hafford hroom htoken hkept' ⊢
  have hlater : (ofName name).Later m ((ofName name).given m term (stored term raw)) :=
    ⟨((ofName name).grown_given m term _).keeps, fun _ hgiven =>
      isSome_given (ofName name) m term _ hgiven⟩
  exact ⟨⟨⟨hbalanced.given (room_of_size hroom), haffordable.mono hafford⟩, hlater⟩,
    ⟨(tokenAt_keys x m term raw).trans hkeys, hkept'⟩, htoken⟩

/-- A document may be filed. -/
theorem step_filed {docId sortKey : String} {terms : List Term} (h : (balancing name).slate s)
    (hx : (balancing name).handle s.held x)
    (hsize : listingBound x.keys ⟨cleanSortKey sortKey, docId⟩ terms.length < UInt64.size)
    (hafford : x.keys.Affords s.held (x.updated s docId sortKey terms).2.held)
    (hroom : (x.updated s docId sortKey terms).2.held.size < UInt64.size) :
    (balancing name).Step s (x.updated s docId sortKey terms).2 ∧
      (balancing name).handle (x.updated s docId sortKey terms).2.held
        (x.updated s docId sortKey terms).1 := by
  obtain ⟨hkeys, hkept⟩ := hx
  obtain ⟨hbalanced, haffordable⟩ := h
  rw [← hkeys] at hkept
  have hprepared : Prepared x.keys s x.cache docId := by
    refine Balanced.prepared (G := fun _ => False) ?_ hkept docId
    rw [hkeys]
    exact hbalanced
  obtain ⟨hrefiled, hkept'⟩ := updated_of_prepared x hprepared sortKey terms
  have hhandle := (updated_keys x s docId sortKey terms).trans hkeys
  rw [hrefiled] at hafford hroom ⊢
  rw [hkeys] at hprepared hsize hafford hroom hkept' ⊢
  have hlater : (ofName name).Later s.held
      (refiled (ofName name) s docId sortKey terms x.stamp).held := by
    have hgiven := later_givenAll (ofName name) s.held terms
    have hsame : (ofName name).Later ((ofName name).givenAll s.held terms)
        (refiled (ofName name) s docId sortKey terms x.stamp).held :=
      later_of_lexical fun k hk => refiled_lexical hprepared.2 hk
    exact ⟨fun ht => hsame.keeps (hgiven.keeps ht), fun token ht =>
      hsame.given token (hgiven.given token ht)⟩
  exact ⟨⟨⟨hbalanced.refiled hsize (room_of_size hroom), haffordable.mono hafford⟩, hlater⟩,
    hhandle, hkept'⟩

end Steps

/-- Books are kept in balance. -/
theorem kept_balancing (name : String) : (balancing name).Kept name where
  empty := ⟨balanced_empty _, fun _ _ hl => absurd ((KeyMap.find?_empty _).symm.trans hl) nofun⟩
  base h := ⟨h.1.base, h.2⟩
  opened h := ⟨h.1.opened, h.2⟩
  moved h h' hlater := ⟨h.1.moved h'.1 hlater.given, h'.2⟩
  handles hlater hx := ⟨hx.1, fun ht => hlater.keeps (hx.2 ht)⟩
  answers hlater ha := hlater.keeps ha
  fresh := fun {m settings stamp x} hx => by
    obtain ⟨hkeys, hcache⟩ := of_openNamed hx
    refine ⟨hkeys, fun ht => ?_⟩
    rw [hcache] at ht
    cases ht
  keys hx := hx.1
  laid h := step_of_lexical h h.1.laid h.1.tidy.lexical_laid
  foreign h hws := step_of_lexical h (h.1.foreign hws) fun _ hk =>
    lexical_writes (fun w hw => (proper_of_not_lead (K := fun _ => True) (hws w hw)).apart) hk
  asked := step_asked
  filed := step_filed
  swept batch h := by
    obtain ⟨hswept, hreverse⟩ := h.1.swept batch
    exact ⟨⟨hswept, h.2.mono (affords_of_reverse hreverse)⟩,
      later_of_reverse h.1.paired hswept.paired hreverse⟩

/-- Wherever calls have come that are the index's own, its books are in
balance. -/
theorem Reached.balanced {name : String} {δ : Desk}
    (h : Reached name (Call.Own (ofName name)) δ) : δ.Obeys (balancing name) :=
  h.obeys (kept_balancing name) fun _ _ hc _ => Or.inl hc

end OrderedStore
