/-
What holds on a desk, whatever is asked of it.

A rule says what is to hold of the slates of a desk, and of its handles and
answers with what the database holds (`Rule`). The desk is shared: a step is
made on one slate, and all that the others learn of it is what the database
holds then. So a rule has one more part, `later`: what a step has to leave of
what was held, so that the rest of the desk goes on as it was.

To show that a rule is kept is to show, step by step, that the slate on which
the step was made is as it is to be (`Rule.Kept`). That is a matter of maps.
What it takes to carry a rule through handles, places and transactions is done
here once for all of them: a call that is the index's own leaves a desk that
obeys (`Desk.Obeys.effect`), and so does a row of such calls, with others
between them for which that is known (`Reached.obeys`).
-/
import Mathlib
import OrderedStore.Proofs.Listings
import OrderedStore.Proofs.Sessions

namespace OrderedStore

-- =================================================================== rules

/-- What is to hold of slates, and of handles and answers with what is held;
and what steps are to leave of it. -/
structure Rule where
  slate : Slate → Prop
  handle : KeyMap Bytes → Index → Prop
  answer : KeyMap Bytes → Answer → Prop
  later : KeyMap Bytes → KeyMap Bytes → Prop

/-- A step that is in keeping with the rule. -/
def Rule.Step (R : Rule) (s s' : Slate) : Prop :=
  R.slate s' ∧ R.later s.held s'.held

/-- The rule is kept by all that an index of this name does, and by writes
that are nothing to it. -/
structure Rule.Kept (R : Rule) (name : String) : Prop where
  empty : R.slate ⟨KeyMap.empty, none⟩
  base : ∀ {s}, R.slate s → R.slate ⟨s.held, none⟩
  opened : ∀ {m}, R.slate ⟨m, none⟩ → R.slate ⟨m, some .empty⟩
  moved : ∀ {m m' p}, R.slate ⟨m, some p⟩ → R.slate ⟨m', none⟩ → R.later m m' →
    R.slate ⟨m', some p⟩
  handles : ∀ {m m' x}, R.later m m' → R.handle m x → R.handle m' x
  answers : ∀ {m m' a}, R.later m m' → R.answer m a → R.answer m' a
  fresh : ∀ {m settings stamp x}, Index.openNamed name settings stamp = .ok x → R.handle m x
  keys : ∀ {m x}, R.handle m x → x.keys = IndexKeys.ofName name
  laid : ∀ {m p}, R.slate ⟨m, some p⟩ → R.Step ⟨m, some p⟩ ⟨m.laid p, none⟩
  foreign : ∀ {s ws}, R.slate s → (∀ w ∈ ws, ¬(IndexKeys.ofName name).lead <+: w.1) →
    R.Step s (s.writes ws)
  asked : ∀ {m x term raw}, R.slate ⟨m, none⟩ → R.handle m x →
    x.keys.Affords m (x.tokenAt m term raw).2.2 →
    (x.tokenAt m term raw).2.2.size < UInt64.size →
      R.Step ⟨m, none⟩ ⟨(x.tokenAt m term raw).2.2, none⟩ ∧
        R.handle (x.tokenAt m term raw).2.2 (x.tokenAt m term raw).2.1 ∧
        R.answer (x.tokenAt m term raw).2.2 ⟨term, raw, (x.tokenAt m term raw).1⟩
  filed : ∀ {s x docId sortKey terms}, R.slate s → R.handle s.held x →
    Index.listingBound x.keys ⟨Index.cleanSortKey sortKey, docId⟩ terms.length < UInt64.size →
    x.keys.Affords s.held (x.updated s docId sortKey terms).2.held →
    (x.updated s docId sortKey terms).2.held.size < UInt64.size →
      R.Step s (x.updated s docId sortKey terms).2 ∧
        R.handle (x.updated s docId sortKey terms).2.held (x.updated s docId sortKey terms).1
  swept : ∀ {m} batch, R.slate ⟨m, none⟩ →
    R.Step ⟨m, none⟩ ⟨(IndexKeys.ofName name).swept batch m, none⟩

-- =================================================================== desks

namespace Desk

/-- Every slate, handle and answer is as the rule has it. -/
structure Obeys (R : Rule) (δ : Desk) : Prop where
  places : ∀ {place s}, δ.slate place = some s → R.slate s
  handles : ∀ {h x}, δ.handles h = some x → R.handle δ.held x
  answers : ∀ a ∈ δ.answers, R.answer δ.held a

variable {R : Rule} {name : String} {δ : Desk} {m' : KeyMap Bytes} {place : Option Nat}
  {s s' : Slate} {x : Index} {i t : Nat}

/-- So is what the database holds. -/
theorem Obeys.held (h : δ.Obeys R) : R.slate ⟨δ.held, none⟩ :=
  h.places (rfl : δ.slate none = _)

/-- A slate holds what the database holds. -/
theorem held_slate (hs : δ.slate place = some s) : s.held = δ.held := by
  cases place with
  | none =>
      cases hs
      rfl
  | some t =>
      obtain ⟨p, -, rfl⟩ := Option.map_eq_some_iff.mp hs
      rfl

/-- What is held when a slate was set. -/
theorem held_setSlate (δ : Desk) (place : Option Nat) (s : Slate) :
    (δ.setSlate place s).held = s.held := by
  cases place <;> rfl

/-- What becomes of a desk with a handle is what is made with that. -/
theorem handled_of_some (hx : δ.handles i = some x) (f : Index → Desk) : δ.handled i f = f x := by
  unfold Desk.handled
  rw [hx]

/-- With a place it is what is made there. -/
theorem placed_of_some (hs : δ.slate place = some s) (f : Slate → Desk) : δ.placed place f = f s := by
  unfold Desk.placed
  rw [hs]

/-- What holds of a desk as it is, and of what is made of it with a handle, holds
of it handled. -/
theorem handled_rec {P : Desk → Prop} {i : Nat} {f : Index → Desk}
    (hnone : δ.handles i = none → P δ) (hsome : ∀ {x}, δ.handles i = some x → P (f x)) :
    P (δ.handled i f) := by
  unfold Desk.handled
  cases hx : δ.handles i with
  | none => exact hnone hx
  | some x => exact hsome hx

/-- So it is with a place. -/
theorem placed_rec {P : Desk → Prop} {f : Slate → Desk} (hnone : δ.slate place = none → P δ)
    (hsome : ∀ {s}, δ.slate place = some s → P (f s)) : P (δ.placed place f) := by
  unfold Desk.placed
  cases hs : δ.slate place with
  | none => exact hnone hs
  | some s => exact hsome hs

/-- And with a transaction. -/
theorem drafted_rec {P : Desk → Prop} {t : Nat} {f : Pending → KeyMap Bytes × Pending}
    (hnone : δ.drafts t = none → P δ)
    (hsome : ∀ {p}, δ.drafts t = some p →
      P (({ δ with held := (f p).1 } : Desk).setDraft t (some (f p).2))) : P (δ.drafted t f) := by
  unfold Desk.drafted
  cases hp : δ.drafts t with
  | none => exact hnone hp
  | some p => exact hsome hp

/-- A blank desk obeys. -/
theorem obeys_blank (hR : R.Kept name) : Desk.blank.Obeys R := by
  refine ⟨fun {place s} hs => ?_, nofun, fun a ha => absurd ha List.not_mem_nil⟩
  cases place with
  | none =>
      cases hs
      exact hR.empty
  | some t => cases hs

/-- A desk that is left obeys. -/
theorem Obeys.left (h : δ.Obeys R) : δ.left.Obeys R := by
  refine ⟨fun {place s} hs => ?_, nofun, h.answers⟩
  cases place with
  | none =>
      cases hs
      exact h.held
  | some t => cases hs

/-- The database may come to hold something else. -/
theorem Obeys.moved (hR : R.Kept name) (h : δ.Obeys R) (hstep : R.Step ⟨δ.held, none⟩ ⟨m', none⟩) :
    ({ δ with held := m' } : Desk).Obeys R := by
  obtain ⟨hbase, hlater⟩ := hstep
  refine ⟨fun {place s} hs => ?_, fun hx => hR.handles hlater (h.handles hx), fun a ha =>
    hR.answers hlater (h.answers a ha)⟩
  cases place with
  | none =>
      cases hs
      exact hbase
  | some t =>
      obtain ⟨p, hp, rfl⟩ := Option.map_eq_some_iff.mp hs
      have hdraft : δ.slate (some t) = some ⟨δ.held, some p⟩ := congrArg (Option.map _) hp
      exact hR.moved (h.places hdraft) hbase hlater

/-- A handle may be set. -/
theorem Obeys.setHandle (h : δ.Obeys R) (hx : R.handle δ.held x) (i : Nat) :
    (δ.setHandle i x).Obeys R := by
  refine ⟨h.places, fun {j y} hy => ?_, h.answers⟩
  change Function.update δ.handles i (some x) j = some y at hy
  rw [Function.update_apply] at hy
  split at hy
  · cases hy
    exact hx
  · exact h.handles hy

/-- A transaction may be set. -/
theorem Obeys.setDraft {pending : Option Pending} (h : δ.Obeys R)
    (hp : ∀ p, pending = some p → R.slate ⟨δ.held, some p⟩) (t : Nat) :
    (δ.setDraft t pending).Obeys R := by
  refine ⟨fun {place s} hs => ?_, h.handles, h.answers⟩
  cases place with
  | none =>
      cases hs
      exact h.held
  | some u =>
      obtain ⟨p, hdraft, rfl⟩ := Option.map_eq_some_iff.mp hs
      change Function.update δ.drafts t pending u = some p at hdraft
      rw [Function.update_apply] at hdraft
      split at hdraft
      · exact hp p hdraft
      · have hslate : δ.slate (some u) = some ⟨δ.held, some p⟩ := congrArg (Option.map _) hdraft
        exact h.places hslate

/-- A slate may be set on which a step was made. -/
theorem Obeys.setSlate (hR : R.Kept name) (h : δ.Obeys R) (hs : δ.slate place = some s)
    (hstep : R.Step s s') : (δ.setSlate place s').Obeys R := by
  obtain ⟨hs', hlater⟩ := hstep
  rw [held_slate hs] at hlater
  have hheld : R.Step ⟨δ.held, none⟩ ⟨s'.held, none⟩ := ⟨hR.base hs', hlater⟩
  have hmoved := h.moved hR hheld
  cases place with
  | none => exact hmoved
  | some t =>
      refine hmoved.setDraft (fun p hp => ?_) t
      obtain ⟨m, pending⟩ := s'
      obtain rfl : pending = some p := hp
      exact hs'

/-- Nothing is wrong when a step needs a handle that is not there. -/
theorem Obeys.handled {f : Index → Desk} (h : δ.Obeys R)
    (hf : ∀ x, δ.handles i = some x → (f x).Obeys R) : (δ.handled i f).Obeys R :=
  handled_rec (fun _ => h) fun hx => hf _ hx

/-- Nor when it needs a place that is not there. -/
theorem Obeys.placed {f : Slate → Desk} (h : δ.Obeys R)
    (hf : ∀ s, δ.slate place = some s → (f s).Obeys R) : (δ.placed place f).Obeys R :=
  placed_rec (fun _ => h) fun hs => hf _ hs

/-- Nor when it needs a transaction. -/
theorem Obeys.drafted {f : Pending → KeyMap Bytes × Pending} (h : δ.Obeys R)
    (hf : ∀ p, R.slate ⟨δ.held, some p⟩ →
      (({ δ with held := (f p).1 } : Desk).setDraft t (some (f p).2)).Obeys R) :
    (δ.drafted t f).Obeys R := by
  refine drafted_rec (fun _ => h) fun {p} hp => ?_
  have hdraft : δ.slate (some t) = some ⟨δ.held, some p⟩ := congrArg (Option.map _) hp
  exact hf p (h.places hdraft)

-- =================================================================== calls

/-- A transaction may make its writes. -/
theorem Obeys.committed (hR : R.Kept name) (h : δ.Obeys R) (t : Nat) :
    (δ.drafted t fun p => (δ.held.laid p, .empty)).Obeys R := by
  refine h.drafted fun p hp => (h.moved hR (hR.laid hp)).setDraft (fun p' hp' => ?_) t
  cases hp'
  exact hR.opened (hR.laid hp).1

/-- Entries may be written that are nothing to the index. -/
theorem Obeys.foreign {ws : List (Bytes × Entry)} (hR : R.Kept name) (h : δ.Obeys R)
    (hws : ∀ w ∈ ws, ¬(IndexKeys.ofName name).lead <+: w.1) (place : Option Nat) :
    (δ.placed place fun s => δ.setSlate place (s.writes ws)).Obeys R :=
  h.placed fun _ hs => h.setSlate hR hs (hR.foreign (h.places hs) hws)

/-- A document may be filed, and taken out. -/
theorem Obeys.filed {docId sortKey : String} {terms : List Term} (hR : R.Kept name)
    (h : δ.Obeys R) (hx : δ.handles i = some x) (hs : δ.slate place = some s)
    (hsize : Index.listingBound (IndexKeys.ofName name) ⟨Index.cleanSortKey sortKey, docId⟩
      terms.length < UInt64.size)
    (hafford : (IndexKeys.ofName name).Affords δ.held (x.updated s docId sortKey terms).2.held)
    (hroom : (x.updated s docId sortKey terms).2.held.size < UInt64.size) :
    ((δ.setSlate place (x.updated s docId sortKey terms).2).setHandle i
      (x.updated s docId sortKey terms).1).Obeys R := by
  have hhandle := h.handles hx
  rw [← hR.keys hhandle] at hsize hafford
  rw [← held_slate hs] at hhandle hafford
  obtain ⟨hstep, hleft⟩ := hR.filed (h.places hs) hhandle hsize hafford hroom
  refine (h.setSlate hR hs hstep).setHandle ?_ i
  rw [held_setSlate]
  exact hleft

/-- Whatever is asked that is the index's own leaves a desk that obeys. -/
theorem Obeys.effect {c : Call} (hR : R.Kept name) (h : δ.Obeys R)
    (hc : c.Own (IndexKeys.ofName name))
    (hafford : c.Mints → (IndexKeys.ofName name).Affords δ.held (c.effect name δ).held)
    (hsize : (c.effect name δ).held.size < UInt64.size) : (c.effect name δ).Obeys R := by
  cases c with
  | openIndex i settings stamp =>
      rw [Call.effect.eq_1]
      cases hx : Index.openNamed name settings stamp with
      | error f => exact h
      | ok x => exact h.setHandle (hR.fresh hx) i
  | token i term raw =>
      refine h.handled fun x hx => ?_
      have heffect : (Call.token i term raw).effect name δ = _ := handled_of_some hx _
      rw [heffect] at hafford hsize
      have hhandle := h.handles hx
      rw [← hR.keys hhandle] at hafford
      obtain ⟨hstep, hleft, hanswer⟩ := hR.asked h.held hhandle (hafford trivial) hsize
      have hmoved := (h.moved hR hstep).setHandle hleft i
      refine ⟨hmoved.places, hmoved.handles, fun a ha => ?_⟩
      rcases List.mem_cons.mp ha with rfl | ha
      · exact hanswer
      · exact hmoved.answers a ha
  | update i place docId sortKey terms =>
      refine h.handled fun x hx => h.placed fun s hs => ?_
      have heffect : (Call.update i place docId sortKey terms).effect name δ = _ :=
        (handled_of_some hx _).trans (placed_of_some hs _)
      have hheld := held_setSlate δ place (x.updated s docId sortKey terms).2
      rw [heffect] at hafford hsize
      refine h.filed hR hx hs hc ?_ ?_
      · rw [← hheld]
        exact hafford trivial
      · rw [← hheld]
        exact hsize
  | remove i place docId =>
      refine h.handled fun x hx => h.placed fun s hs => ?_
      have heffect : (Call.remove i place docId).effect name δ = _ :=
        (handled_of_some hx _).trans (placed_of_some hs _)
      have hheld : _ = (x.updated s docId "" []).2.held :=
        held_setSlate δ place (x.removed s docId).2
      rw [heffect] at hafford hsize
      refine h.filed hR hx hs (IndexRequest.listingBound_remove _ docId) ?_ ?_
      · rw [← hheld]
        exact hafford trivial
      · rw [← hheld]
        exact hsize
  | put place k v =>
      have hforeign : ∀ w ∈ [(k, Entry.value v)], ¬(IndexKeys.ofName name).lead <+: w.1 :=
        fun w hw => List.mem_singleton.mp hw ▸ hc
      exact h.foreign hR hforeign place
  | delete place k =>
      have hforeign : ∀ w ∈ [(k, Entry.tombstone)], ¬(IndexKeys.ofName name).lead <+: w.1 :=
        fun w hw => List.mem_singleton.mp hw ▸ hc
      exact h.foreign hR hforeign place
  | begin t =>
      refine h.setDraft (fun p hp => ?_) t
      cases hp
      exact hR.opened h.held
  | flushDraft t => exact h.committed hR t
  | commit t => exact h.committed hR t
  | abandon t =>
      refine h.drafted fun p hp => h.setDraft (fun p' hp' => ?_) t
      cases hp'
      exact hR.opened h.held
  | leave t => exact h.setDraft (fun p hp => by cases hp) t
  | writeBatch ws =>
      have hforeign := h.foreign hR hc none
      rw [placed_of_some (rfl : δ.slate none = some ⟨δ.held, none⟩), Slate.writes_database]
        at hforeign
      exact hforeign
  | flush => exact h
  | sweep i =>
      refine h.handled fun x hx => ?_
      rw [hR.keys (h.handles hx)]
      exact h.moved hR (hR.swept x.sweepBatch h.held)

end Desk

/-- Wherever calls have come, the desk obeys a rule that is kept, if those
that are not the index's own keep it, too. -/
theorem Reached.obeys {R : Rule} {name : String} {Allowed : Call → Prop} {δ : Desk}
    (hR : R.Kept name) (h : Reached name Allowed δ)
    (hother : ∀ c δ, Allowed c → δ.Obeys R →
      c.Own (IndexKeys.ofName name) ∨ (c.effect name δ).Obeys R) : δ.Obeys R := by
  induction h with
  | blank => exact Desk.obeys_blank hR
  | call hreached hc hafford hsize ih =>
      rcases hother _ _ hc ih with hown | hobeys
      · exact ih.effect hR hown hafford hsize
      · exact hobeys
  | left hreached ih => exact ih.left

end OrderedStore
