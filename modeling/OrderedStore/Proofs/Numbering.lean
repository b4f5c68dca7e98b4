/-
The tokens that an index gives are a matter of the tokens it has given.

Each token leads back to its lexicon key. Where the books are in balance that
tells all there is to tell of the lexicon but the counts: which terms have
tokens, which ones, and what the next one is (`Paired.tokenIn_eq`,
`Paired.nextIn_eq`). So if tokens lead back alike in two databases, a term that
is asked for gets the same token in both, and they lead back alike afterwards
(`reverse_given`).

To this part of a desk a call does one thing: some terms get tokens that had
none (`Desk.Obeys.lexical_effect`). A sweep writes entries of the lexicon anew,
but not where tokens lead (`Desk.Obeys.reverse_swept`). Which terms those are is
a matter of what is open (`Call.asks`), and what is open after a call is a
matter of what was open. Two desks on which tokens lead back alike, and the
same is open, go on so with every call that is carried out on both
(`Desk.Abreast.effect`).
-/
import Mathlib
import OrderedStore.Proofs.Offices

namespace OrderedStore

-- ============================================================== leading back

namespace IndexKeys

open Index

variable {ks : IndexKeys} {m m' : KeyMap Bytes} {term raw : String}

/-- Where tokens lead back alike terms have the same tokens. -/
theorem Paired.tokenIn_eq (h : ks.Paired m) (h' : ks.Paired m')
    (hreverse : ∀ token, m'.find? (ks.reverse token) = m.find? (ks.reverse token))
    (term raw : String) : ks.tokenIn m' term raw = ks.tokenIn m term raw := by
  refine Option.ext fun token => ?_
  rw [h'.tokenIn_iff, h.tokenIn_iff, hreverse]

/-- If all tokens of one were given in the other, the next token there comes no
earlier. -/
theorem Paired.nextIn_le (h : ks.Paired m) (h' : ks.Paired m')
    (hgiven : ∀ token, ks.Given m token → ks.Given m' token) : ks.nextIn m ≤ ks.nextIn m' := by
  by_contra hlt
  have hfresh : ks.Given m (ks.fresh m') := by
    rw [h.given, toNat_fresh]
    exact ⟨h'.next, by omega⟩
  have hold := ((h'.given _).mp (hgiven _ hfresh)).2
  rw [toNat_fresh] at hold
  omega

/-- So the next token is the same. -/
theorem Paired.nextIn_eq (h : ks.Paired m) (h' : ks.Paired m')
    (hreverse : ∀ token, m'.find? (ks.reverse token) = m.find? (ks.reverse token)) :
    ks.nextIn m' = ks.nextIn m := by
  have hgiven (token : UInt64) : ks.Given m' token ↔ ks.Given m token := by
    unfold Given
    rw [hreverse]
  apply Nat.le_antisymm
  · exact h'.nextIn_le h fun token => (hgiven token).mp
  · exact h.nextIn_le h' fun token => (hgiven token).mpr

/-- And so is the number that it gets. -/
theorem Paired.fresh_eq (h : ks.Paired m) (h' : ks.Paired m')
    (hreverse : ∀ token, m'.find? (ks.reverse token) = m.find? (ks.reverse token)) :
    ks.fresh m' = ks.fresh m := by
  rw [← UInt64.toNat_inj, toNat_fresh, toNat_fresh]
  exact h.nextIn_eq h' hreverse

/-- When a term gets a token they lead back alike again. -/
theorem reverse_given (h : ks.Paired m) (h' : ks.Paired m')
    (hreverse : ∀ token, m'.find? (ks.reverse token) = m.find? (ks.reverse token))
    (token : UInt64) :
    (ks.given m' term raw).find? (ks.reverse token)
      = (ks.given m term raw).find? (ks.reverse token) := by
  unfold given
  rw [h.tokenIn_eq h' hreverse, h.fresh_eq h' hreverse]
  split
  · exact hreverse token
  · rw [find?_minted, find?_minted, hreverse]

/-- And when several do, if there is room for them. -/
theorem reverse_givenAll (h : ks.Paired m) (h' : ks.Paired m') {terms : List Term}
    (hroom : ks.Room (ks.givenAll m terms)) (hroom' : ks.Room (ks.givenAll m' terms))
    (hreverse : ∀ token, m'.find? (ks.reverse token) = m.find? (ks.reverse token)) :
    ∀ token, (ks.givenAll m' terms).find? (ks.reverse token)
      = (ks.givenAll m terms).find? (ks.reverse token) := by
  induction terms generalizing m m' with
  | nil => exact hreverse
  | cons t terms ih =>
      have hfirst : ks.Room (ks.given m t.index (stored t.index t.raw)) :=
        hroom.mono fun k _ => isSome_givenAll ks terms
      have hfirst' : ks.Room (ks.given m' t.index (stored t.index t.raw)) :=
        hroom'.mono fun k _ => isSome_givenAll ks terms
      exact ih (h.given_token hfirst) (h'.given_token hfirst') hroom hroom'
        (reverse_given h h' hreverse)

end IndexKeys

-- ================================================================ one desk

open IndexKeys Index

/-- The terms for which a call asks for tokens. -/
def Call.asks (δ : Desk) : Call → List Term
  | token i term raw => if (δ.handles i).isSome then [⟨term, raw, 0⟩] else []
  | update i place _ _ terms =>
    if (δ.handles i).isSome && (δ.slate place).isSome then terms else []
  | _ => []

namespace Desk

variable {name : String} {δ δ' : Desk} {c : Call} {place : Option Nat} {s : Slate} {x : Index}

/-- The lexicon when a document is filed is that of the map in which its terms
have tokens. -/
theorem lexical_updated (hs : (balancing name).slate s) (hx : (balancing name).handle s.held x)
    (docId sortKey : String) (terms : List Term) {k : Bytes} (hk : (ofName name).Lexical k) :
    (x.updated s docId sortKey terms).2.held.find? k
      = ((ofName name).givenAll s.held terms).find? k := by
  obtain ⟨hkeys, hkept⟩ := hx
  rw [← hkeys] at hkept hk ⊢
  have hprepared : Prepared x.keys s x.cache docId := by
    refine Balanced.prepared (G := fun _ => False) ?_ hkept docId
    rw [hkeys]
    exact hs.1
  rw [(updated_of_prepared x hprepared sortKey terms).1]
  exact refiled_lexical hprepared.2 hk

/-- Entries elsewhere are nothing to the lexicon. -/
theorem lexical_foreign {ws : List (Bytes × Entry)} (hs : δ.slate place = some s)
    (hws : ∀ w ∈ ws, ¬(ofName name).lead <+: w.1) {k : Bytes} (hk : (ofName name).Lexical k) :
    (δ.setSlate place (s.writes ws)).held.find? k = δ.held.find? k := by
  rw [held_setSlate, lexical_writes (fun w hw =>
    (proper_of_not_lead (K := fun _ => True) (hws w hw)).apart) hk, held_slate hs]

/-- Nor is what was pending, when it is written. -/
theorem Obeys.lexical_committed (h : δ.Obeys (balancing name)) (t : Nat) {k : Bytes}
    (hk : (ofName name).Lexical k) :
    (δ.drafted t fun p => (δ.held.laid p, .empty)).held.find? k = δ.held.find? k := by
  refine drafted_rec (P := fun δ' => δ'.held.find? _ = _) (fun _ => rfl) fun {p} hp => ?_
  have hslate : δ.slate (some t) = some ⟨δ.held, some p⟩ := congrArg (Option.map _) hp
  exact (h.places hslate).1.tidy.lexical_laid _ hk

/-- When a document is filed its terms have tokens. -/
theorem Obeys.lexical_filed (h : δ.Obeys (balancing name)) {i : Nat} (hx : δ.handles i = some x)
    (hs : δ.slate place = some s) (docId sortKey : String) (terms : List Term) {k : Bytes}
    (hk : (ofName name).Lexical k) :
    ((δ.setSlate place (x.updated s docId sortKey terms).2).setHandle i
      (x.updated s docId sortKey terms).1).held.find? k
      = ((ofName name).givenAll δ.held terms).find? k := by
  have hhandle := h.handles hx
  rw [← held_slate hs] at hhandle ⊢
  show (δ.setSlate place (x.updated s docId sortKey terms).2).held.find? _ = _
  rw [held_setSlate]
  exact lexical_updated (h.places hs) hhandle docId sortKey terms hk

/-- After a call that is the index's own, and no sweep, the lexicon is the one in
which the terms that were asked for have tokens. -/
theorem Obeys.lexical_effect (h : δ.Obeys (balancing name)) (hc : c.Own (ofName name))
    (hsweep : ∀ i, c ≠ .sweep i) {k : Bytes} (hk : (ofName name).Lexical k) :
    (c.effect name δ).held.find? k
      = ((ofName name).givenAll δ.held (c.asks δ)).find? k := by
  have hwrite {w : Bytes × Entry} (place : Option Nat) (hw : ¬(ofName name).lead <+: w.1) :
      (δ.placed place fun s => δ.setSlate place (s.write w)).held.find? k = δ.held.find? k := by
    refine placed_rec (P := fun δ' => δ'.held.find? _ = _) (fun _ => rfl) fun hs => ?_
    have hone : ∀ w' ∈ [w], ¬(ofName name).lead <+: w'.1 :=
      fun w' hw' => List.mem_singleton.mp hw' ▸ hw
    exact lexical_foreign hs hone hk
  cases c with
  | openIndex i settings stamp =>
      rw [Call.effect.eq_1]
      cases Index.openNamed name settings stamp <;> rfl
  | token i term raw =>
      refine handled_rec (P := fun δ' => δ'.held.find? _ = _) (fun hx => ?_) fun {x} hx => ?_
      · simp only [Call.asks, hx, Option.isSome_none, Bool.false_eq_true, if_false]
        rfl
      · obtain ⟨hkeys, hkept⟩ := h.handles hx
        rw [← hkeys] at hkept
        have hheld := (tokenAt_of_kept x hkept term raw).1
        rw [hkeys] at hheld
        simp only [Call.asks, hx, Option.isSome_some, if_true]
        show (x.tokenAt δ.held term raw).2.2.find? _
          = ((ofName name).given δ.held term (stored term raw)).find? _
        rw [hheld]
  | update i place docId sortKey terms =>
      refine handled_rec (P := fun δ' => δ'.held.find? _ = _) (fun hx => ?_) fun {x} hx => ?_
      · simp only [Call.asks, hx, Option.isSome_none, Bool.false_and, Bool.false_eq_true, if_false]
        rfl
      · refine placed_rec (P := fun δ' => δ'.held.find? _ = _) (fun hs => ?_) fun {s} hs => ?_
        · simp only [Call.asks, hs, Option.isSome_none, Bool.and_false, Bool.false_eq_true, if_false]
          rfl
        · simp only [Call.asks, hx, hs, Option.isSome_some, Bool.and_self, if_true]
          exact h.lexical_filed hx hs docId sortKey terms hk
  | remove i place docId =>
      refine handled_rec (P := fun δ' => δ'.held.find? _ = _) (fun _ => rfl) fun {x} hx => ?_
      refine placed_rec (P := fun δ' => δ'.held.find? _ = _) (fun _ => rfl) fun {s} hs => ?_
      exact h.lexical_filed hx hs docId "" [] hk
  | put place k v => exact hwrite place hc
  | delete place k => exact hwrite place hc
  | begin t | leave t | flush => rfl
  | flushDraft t => exact h.lexical_committed t hk
  | commit t => exact h.lexical_committed t hk
  | abandon t =>
      exact drafted_rec (P := fun δ' => δ'.held.find? _ = _) (fun _ => rfl) fun _ => rfl
  | writeBatch ws =>
      have hwritten := lexical_foreign (rfl : δ.slate none = some ⟨δ.held, none⟩) hc hk
      rw [Slate.writes_database] at hwritten
      exact hwritten
  | sweep i => exact absurd rfl (hsweep i)

-- ============================================================== what is open

/-- The same is open on two desks. -/
structure SameOpen (δ δ' : Desk) : Prop where
  handles : ∀ i, (δ'.handles i).isSome = (δ.handles i).isSome
  drafts : ∀ t, (δ'.drafts t).isSome = (δ.drafts t).isSome

/-- The same is open on a desk and itself. -/
theorem SameOpen.refl (δ : Desk) : SameOpen δ δ :=
  ⟨fun _ => rfl, fun _ => rfl⟩

/-- And the other way around. -/
theorem SameOpen.symm (h : SameOpen δ δ') : SameOpen δ' δ :=
  ⟨fun i => (h.handles i).symm, fun t => (h.drafts t).symm⟩

/-- And on a third desk. -/
theorem SameOpen.trans {δ'' : Desk} (h : SameOpen δ δ') (h' : SameOpen δ' δ'') :
    SameOpen δ δ'' :=
  ⟨fun i => (h'.handles i).trans (h.handles i), fun t => (h'.drafts t).trans (h.drafts t)⟩

/-- Where a handle or a transaction is set that may be open already. -/
theorem isSome_update {α : Type} {f g : Nat → Option α} (h : ∀ i, (g i).isSome = (f i).isSome)
    (i : Nat) {a b : Option α} (hab : b.isSome = a.isSome) (j : Nat) :
    (Function.update g i b j).isSome = (Function.update f i a j).isSome := by
  rw [Function.update_apply, Function.update_apply]
  split
  · exact hab
  · exact h j

/-- A handle is set on both. -/
theorem SameOpen.setHandle (h : SameOpen δ δ') (i : Nat) (x y : Index) :
    SameOpen (δ.setHandle i x) (δ'.setHandle i y) :=
  ⟨isSome_update h.handles i rfl, h.drafts⟩

/-- A transaction is set on both, or taken away. -/
theorem SameOpen.setDraft (h : SameOpen δ δ') (t : Nat) {p q : Option Pending}
    (hpq : q.isSome = p.isSome) : SameOpen (δ.setDraft t p) (δ'.setDraft t q) :=
  ⟨h.handles, isSome_update h.drafts t hpq⟩

/-- A handle is set that was open. -/
theorem sameOpen_setHandle {i : Nat} (hx : δ.handles i = some x) (y : Index) :
    SameOpen δ (δ.setHandle i y) := by
  have hself : δ.setHandle i x = δ :=
    congrArg (fun handles => Desk.mk δ.held handles δ.drafts δ.answers)
      (Function.update_eq_self_iff.mpr hx.symm)
  have hset := (SameOpen.refl δ).setHandle i x y
  rwa [hself] at hset

/-- A slate is set that was there. -/
theorem sameOpen_setSlate {s' : Slate} (hs : δ.slate place = some s)
    (hpending : s'.pending.isSome = s.pending.isSome) : SameOpen δ (δ.setSlate place s') := by
  cases place with
  | none => exact ⟨fun _ => rfl, fun _ => rfl⟩
  | some t =>
      obtain ⟨p, hp, rfl⟩ := Option.map_eq_some_iff.mp hs
      refine ⟨fun _ => rfl, fun u => ?_⟩
      show (Function.update δ.drafts t s'.pending u).isSome = _
      rw [Function.update_apply]
      split
      · next heq => rw [heq, hp, hpending]
      · rfl

/-- A call that opens and drops nothing leaves open what was. -/
theorem Obeys.sameOpen_effect (h : δ.Obeys (balancing name))
    (hindex : ∀ i settings stamp, c ≠ .openIndex i settings stamp) (hbegin : ∀ t, c ≠ .begin t)
    (hleave : ∀ t, c ≠ .leave t) : SameOpen δ (c.effect name δ) := by
  have hself := SameOpen.refl δ
  have hwrite (place : Option Nat) (w : Bytes × Entry) :
      SameOpen δ (δ.placed place fun s => δ.setSlate place (s.write w)) := by
    refine placed_rec (fun _ => hself) fun {s} hs => sameOpen_setSlate hs ?_
    obtain ⟨m, pending⟩ := s
    cases pending <;> rfl
  have hdraft (t : Nat) (f : Pending → KeyMap Bytes × Pending) : SameOpen δ (δ.drafted t f) := by
    refine drafted_rec (fun _ => hself) fun {p} hp => ?_
    have hslate : δ.slate (some t) = some ⟨δ.held, some p⟩ := congrArg (Option.map _) hp
    have hset : SameOpen δ (δ.setSlate (some t) ⟨(f p).1, some (f p).2⟩) :=
      sameOpen_setSlate hslate rfl
    exact hset
  have hfiled (i : Nat) (place : Option Nat) (docId sortKey : String) (terms : List Term) :
      SameOpen δ (δ.handled i fun x => δ.placed place fun s =>
        (δ.setSlate place (x.updated s docId sortKey terms).2).setHandle i
          (x.updated s docId sortKey terms).1) := by
    refine handled_rec (fun _ => hself) fun {x} hx => placed_rec (fun _ => hself) fun {s} hs => ?_
    have hlisted := (h.places hs).1.lead_of_listed docId
    rw [← (h.handles hx).1] at hlisted
    have hset := sameOpen_setSlate hs (within_updated x hlisted sortKey terms).isSome_pending
    refine hset.trans (sameOpen_setHandle (x := x) ?_ _)
    cases place <;> exact hx
  cases c with
  | openIndex i settings stamp => exact absurd rfl (hindex i settings stamp)
  | token i term raw =>
      refine handled_rec (fun _ => hself) fun {x} hx => ?_
      have hset := sameOpen_setHandle hx (x.tokenAt δ.held term raw).2.1
      exact ⟨hset.handles, hset.drafts⟩
  | update i place docId sortKey terms => exact hfiled i place docId sortKey terms
  | remove i place docId => exact hfiled i place docId "" []
  | put place k v => exact hwrite place _
  | delete place k => exact hwrite place _
  | begin t => exact absurd rfl (hbegin t)
  | leave t => exact absurd rfl (hleave t)
  | flushDraft t => exact hdraft t _
  | commit t => exact hdraft t _
  | abandon t => exact hdraft t _
  | writeBatch ws | flush => exact ⟨fun _ => rfl, fun _ => rfl⟩
  | sweep i =>
      exact handled_rec (fun _ => hself) fun {x} hx => ⟨fun _ => rfl, fun _ => rfl⟩

/-- The same is open after a call if the same was. -/
theorem SameOpen.effect (hopen : SameOpen δ δ') (h : δ.Obeys (balancing name))
    (h' : δ'.Obeys (balancing name)) (c : Call) :
    SameOpen (c.effect name δ) (c.effect name δ') := by
  by_cases hopens : (∃ i settings stamp, c = .openIndex i settings stamp) ∨ (∃ t, c = .begin t) ∨
      ∃ t, c = .leave t
  · rcases hopens with ⟨i, settings, stamp, rfl⟩ | ⟨t, rfl⟩ | ⟨t, rfl⟩
    · rw [Call.effect.eq_1, Call.effect.eq_1]
      cases Index.openNamed name settings stamp with
      | error f => exact hopen
      | ok x => exact hopen.setHandle i x x
    · exact hopen.setDraft t rfl
    · exact hopen.setDraft t rfl
  · simp only [not_or, not_exists] at hopens
    obtain ⟨hindex, hbegin, hleave⟩ := hopens
    have hstays := h.sameOpen_effect hindex hbegin hleave
    have hstays' := h'.sameOpen_effect hindex hbegin hleave
    exact hstays.symm.trans (hopen.trans hstays')

/-- A call asks for tokens of the same terms. -/
theorem SameOpen.asks (h : SameOpen δ δ') (c : Call) : c.asks δ' = c.asks δ := by
  have hslate (place : Option Nat) : (δ'.slate place).isSome = (δ.slate place).isSome := by
    cases place with
    | none => rfl
    | some t =>
        show (Option.map _ (δ'.drafts t)).isSome = (Option.map _ (δ.drafts t)).isSome
        rw [Option.isSome_map, Option.isSome_map, h.drafts]
  cases c <;> simp only [Call.asks, h.handles, hslate]

-- ================================================================= two desks

/-- Two desks on which the same is open, tokens of the index lead back alike,
and the same was answered. The books of both are in balance. -/
structure Abreast (name : String) (δ δ' : Desk) : Prop where
  obeys : δ.Obeys (balancing name)
  obeys' : δ'.Obeys (balancing name)
  sameOpen : SameOpen δ δ'
  reverse : ∀ token,
    δ'.held.find? ((ofName name).reverse token) = δ.held.find? ((ofName name).reverse token)
  answers : δ'.answers = δ.answers

/-- A sweep leaves tokens where they lead. -/
theorem Obeys.reverse_swept (h : δ.Obeys (balancing name)) (i : Nat) (token : UInt64) :
    ((Call.sweep i).effect name δ).held.find? ((ofName name).reverse token)
      = δ.held.find? ((ofName name).reverse token) := by
  refine handled_rec (P := fun δ' => δ'.held.find? _ = _) (fun _ => rfl) fun {x} hx => ?_
  show (x.keys.swept x.sweepBatch δ.held).find? _ = _
  rw [(h.handles hx).1]
  exact (h.held.1.swept x.sweepBatch).2 token

/-- After a call tokens lead back alike. -/
theorem Abreast.reverse_effect (h : Abreast name δ δ') (hc : c.Own (ofName name))
    (hroom : c.HasRoom name δ) (hroom' : c.HasRoom name δ') (token : UInt64) :
    (c.effect name δ').held.find? ((ofName name).reverse token)
      = (c.effect name δ).held.find? ((ofName name).reverse token) := by
  by_cases hsweep : ∃ i, c = .sweep i
  · obtain ⟨i, rfl⟩ := hsweep
    rw [h.obeys.reverse_swept, h.obeys'.reverse_swept]
    exact h.reverse token
  · have hno (i : Nat) : c ≠ .sweep i := fun heq => hsweep ⟨i, heq⟩
    have hlexical {k : Bytes} (hk : (ofName name).Lexical k) := h.obeys.lexical_effect hc hno hk
    have hlexical' {k : Bytes} (hk : (ofName name).Lexical k) :=
      h.obeys'.lexical_effect hc hno hk
    rw [h.sameOpen.asks c] at hlexical'
    rw [hlexical (lexical_reverse _ token), hlexical' (lexical_reverse _ token)]
    refine reverse_givenAll h.obeys.held.1.paired h.obeys'.held.1.paired ?_ ?_ h.reverse token
    · refine (room_of_size hroom.size).mono fun k hk hsome => ?_
      rwa [hlexical hk]
    · refine (room_of_size hroom'.size).mono fun k hk hsome => ?_
      rwa [hlexical' hk]

/-- Only where a handle is asked for a token is there an answer. -/
theorem answers_effect (htoken : ∀ i term raw, c = .token i term raw → δ.handles i = none) :
    (c.effect name δ).answers = δ.answers := by
  have hset (place : Option Nat) (s : Slate) : (δ.setSlate place s).answers = δ.answers := by
    cases place <;> rfl
  have hfiled (i : Nat) (place : Option Nat) (docId sortKey : String) (terms : List Term) :
      (δ.handled i fun x => δ.placed place fun s =>
        (δ.setSlate place (x.updated s docId sortKey terms).2).setHandle i
          (x.updated s docId sortKey terms).1).answers = δ.answers :=
    handled_rec (P := fun δ' => δ'.answers = _) (fun _ => rfl) fun {x} _ =>
      placed_rec (P := fun δ' => δ'.answers = _) (fun _ => rfl) fun {s} _ => hset place _
  have hwrite (place : Option Nat) (w : Bytes × Entry) :
      (δ.placed place fun s => δ.setSlate place (s.write w)).answers = δ.answers :=
    placed_rec (P := fun δ' => δ'.answers = _) (fun _ => rfl) fun {s} _ => hset place _
  have hdraft (t : Nat) (f : Pending → KeyMap Bytes × Pending) :
      (δ.drafted t f).answers = δ.answers :=
    drafted_rec (P := fun δ' => δ'.answers = _) (fun _ => rfl) fun _ => rfl
  cases c with
  | openIndex i settings stamp =>
      rw [Call.effect.eq_1]
      cases Index.openNamed name settings stamp <;> rfl
  | token i term raw =>
      refine handled_rec (P := fun δ' => δ'.answers = _) (fun _ => rfl) fun {x} hx => ?_
      rw [htoken i term raw rfl] at hx
      cases hx
  | update i place docId sortKey terms => exact hfiled i place docId sortKey terms
  | remove i place docId => exact hfiled i place docId "" []
  | put place k v => exact hwrite place _
  | delete place k => exact hwrite place _
  | begin t | leave t | writeBatch ws | flush => rfl
  | flushDraft t => exact hdraft t _
  | commit t => exact hdraft t _
  | abandon t => exact hdraft t _
  | sweep i =>
      exact handled_rec (P := fun δ' => δ'.answers = _) (fun _ => rfl) fun _ => rfl

/-- A token that was asked for is the one that the map has then. -/
theorem Obeys.answered {i : Nat} {term raw : String} {x : Index} (hx : δ.handles i = some x)
    (h : ((Call.token i term raw).effect name δ).Obeys (balancing name)) :
    ∃ token, ((Call.token i term raw).effect name δ).answers = ⟨term, raw, token⟩ :: δ.answers ∧
      (ofName name).tokenIn ((Call.token i term raw).effect name δ).held term (stored term raw)
        = some token := by
  have heffect : (Call.token i term raw).effect name δ = _ := handled_of_some hx _
  have hanswers := congrArg Desk.answers heffect
  refine ⟨(x.tokenAt δ.held term raw).1, hanswers, ?_⟩
  exact h.answers ⟨term, raw, (x.tokenAt δ.held term raw).1⟩ (hanswers ▸ List.mem_cons_self)

/-- After a call two desks are abreast again: where a token was asked for the
maps held then say the same of it. -/
theorem Abreast.effect (h : Abreast name δ δ') (hc : c.Own (ofName name))
    (hroom : c.HasRoom name δ) (hroom' : c.HasRoom name δ') :
    Abreast name (c.effect name δ) (c.effect name δ') := by
  have hobeys := h.obeys.effect (kept_balancing name) hc hroom.affords hroom.size
  have hobeys' := h.obeys'.effect (kept_balancing name) hc hroom'.affords hroom'.size
  have hreverse := h.reverse_effect hc hroom hroom'
  refine ⟨hobeys, hobeys', h.sameOpen.effect h.obeys h.obeys' c, hreverse, ?_⟩
  by_cases htoken : ∃ i term raw, c = .token i term raw ∧ (δ.handles i).isSome
  · obtain ⟨i, term, raw, rfl, hsome⟩ := htoken
    obtain ⟨x, hx⟩ := Option.isSome_iff_exists.mp hsome
    rw [← h.sameOpen.handles] at hsome
    obtain ⟨x', hx'⟩ := Option.isSome_iff_exists.mp hsome
    obtain ⟨token, hanswers, hin⟩ := hobeys.answered hx
    obtain ⟨token', hanswers', hin'⟩ := hobeys'.answered hx'
    rw [hobeys.held.1.paired.tokenIn_eq hobeys'.held.1.paired hreverse, hin] at hin'
    cases hin'
    rw [hanswers, hanswers', h.answers]
  · have hclosed (i : Nat) (term raw : String) (heq : c = .token i term raw) :
        δ.handles i = none :=
      Option.not_isSome_iff_eq_none.mp fun hsome => htoken ⟨i, term, raw, heq, hsome⟩
    have hclosed' (i : Nat) (term raw : String) (heq : c = .token i term raw) :
        δ'.handles i = none := by
      refine Option.not_isSome_iff_eq_none.mp fun hsome => htoken ⟨i, term, raw, heq, ?_⟩
      rwa [← h.sameOpen.handles]
    rw [answers_effect hclosed, answers_effect hclosed']
    exact h.answers

/-- So they are without the answers. -/
theorem Abreast.lend_self (h : Abreast name δ δ') :
    Abreast name (δ.lend δ.handles) (δ'.lend δ'.handles) :=
  ⟨h.obeys.lend_self, h.obeys'.lend_self, ⟨h.sameOpen.handles, h.sameOpen.drafts⟩, h.reverse, rfl⟩

/-- And when they are left. -/
theorem Abreast.left (h : Abreast name δ δ') : Abreast name δ.left δ'.left :=
  ⟨h.obeys.left, h.obeys'.left, ⟨fun _ => rfl, fun _ => rfl⟩, h.reverse, h.answers⟩

end Desk

end OrderedStore
