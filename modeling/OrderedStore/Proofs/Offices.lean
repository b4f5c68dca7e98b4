/-
Several indexes at work on one database.

The indexes of a database have handles of their own and share the
transactions (`Sessions`). A call is made on the index of one name: it sees
the handles of that name and the transactions, and what it makes of them is
put back. So whatever is known of the sessions of one index goes for each
call, and a database goes on with any number of indexes (`Moment.Next`).

What that comes to is said without the store again (`Office`): a desk for
each name, with what is held and what is pending in common. Where nobody else
writes under the keys of indexes (`Call.Civil`), the books of every index are
in balance (`Office.Sound`): those of the index that is called by what is
known of its own steps, and those of the others because its steps are foreign
writes to them (`Desk.Obeys.lend`).

If there are only calls on one index and they write nothing but documents
and tokens (`Call.Indexes`), then what stands elsewhere stays as it was
(`Desk.Keeps`). What is pending may stand under its lead only for that, so
the transactions have to be its own, too: a run of such calls begins with
none (`Moment.setAside`).
-/
import Mathlib
import OrderedStore.Proofs.Realms

namespace OrderedStore

open Store Engine IndexKeys

-- ================================================================ sessions

/-- What is open at a moment on a database: for each name handles on its
index, and transactions. -/
structure Sessions (ν : Type) where
  handles : String → Nat → Option Index
  drafts : Nat → Option (Transaction ν)

namespace Sessions

variable {ν : Type}

/-- Nothing is open. -/
def blank : Sessions ν :=
  ⟨fun _ _ => none, fun _ => none⟩

/-- The session of the index of a name. -/
def session (σ : Sessions ν) (name : String) : Session ν :=
  ⟨σ.handles name, σ.drafts, []⟩

/-- The session of a name is this one from then on. -/
def setSession (σ : Sessions ν) (name : String) (τ : Session ν) : Sessions ν :=
  ⟨Function.update σ.handles name τ.handles, τ.drafts⟩

/-- The same handles without the transactions. -/
def setAside (σ : Sessions ν) : Sessions ν :=
  { σ with drafts := fun _ => none }

/-- The session of each name is ready. -/
def Ready (σ : Sessions ν) : Prop :=
  ∀ name, (σ.session name).Ready name

/-- Sessions are ready where nothing is open. -/
theorem ready_blank : (blank : Sessions ν).Ready :=
  fun name => Session.ready_blank name

/-- They are without transactions. -/
theorem Ready.setAside {σ : Sessions ν} (h : σ.Ready) : σ.setAside.Ready :=
  fun name => ⟨(h name).keys, nofun⟩

/-- And so they are when one of them has gone on. -/
theorem Ready.setSession {σ : Sessions ν} (h : σ.Ready) {name : String} {τ : Session ν}
    (hτ : τ.Ready name) : (σ.setSession name τ).Ready := by
  refine fun other => ⟨fun {i x} hx => ?_, hτ.idle⟩
  change Function.update σ.handles name τ.handles other i = some x at hx
  by_cases heq : other = name
  · subst heq
    rw [Function.update_self] at hx
    exact hτ.keys hx
  · rw [Function.update_of_ne heq] at hx
    exact (h other).keys hx

end Sessions

-- ================================================================= moments

/-- A moment of a database: what was written before it was opened last, what
is open, and the store. -/
structure Moment (ν : Type) where
  earlier : Nat
  sessions : Sessions ν
  store : Store

/-- A call that writes nothing itself under the keys of indexes; what is
listed under a document can be counted in eight digits. -/
def Call.Civil (name : String) : Call → Prop
  | update _ _ docId sortKey terms =>
    Index.listingBound (ofName name) ⟨Index.cleanSortKey sortKey, docId⟩ terms.length < UInt64.size
  | put _ k _ => ¬realm <+: k
  | delete _ k => ¬realm <+: k
  | writeBatch ws => ∀ w ∈ ws, ¬realm <+: w.1
  | _ => True

instance (name : String) : (c : Call) → Decidable (c.Civil name)
  | .update _ _ _ _ _ => inferInstanceAs (Decidable (_ < _))
  | .put _ _ _ => inferInstanceAs (Decidable (¬_))
  | .delete _ _ => inferInstanceAs (Decidable (¬_))
  | .writeBatch ws => inferInstanceAs (Decidable (∀ w ∈ ws, ¬_))
  | .openIndex _ _ _ | .token _ _ _ | .remove _ _ _ | .begin _ | .flushDraft _ | .commit _
  | .abandon _ | .leave _ | .flush | .sweep _ => inferInstanceAs (Decidable True)

/-- Such a call that puts and deletes no keys itself. -/
def Call.Indexes (name : String) : Call → Prop
  | put _ _ _ => False
  | delete _ _ => False
  | writeBatch _ => False
  | c => c.Civil name

instance (name : String) : (c : Call) → Decidable (c.Indexes name)
  | .put _ _ _ | .delete _ _ | .writeBatch _ => inferInstanceAs (Decidable False)
  | .update h place docId sortKey terms =>
    inferInstanceAs (Decidable ((Call.update h place docId sortKey terms).Civil name))
  | .openIndex _ _ _ | .token _ _ _ | .remove _ _ _ | .begin _ | .flushDraft _ | .commit _
  | .abandon _ | .leave _ | .flush | .sweep _ => inferInstanceAs (Decidable True)

namespace Moment

variable {ν : Type}

/-- What was written to the database in all. -/
def written (M : Moment ν) : Nat :=
  M.earlier + M.store.written

/-- The transactions that are open are left aside. -/
def setAside (M : Moment ν) : Moment ν :=
  { M with sessions := M.sessions.setAside }

/-- The database was opened just now, in a vacant directory. -/
def Fresh (dir : Path) (M : Moment ν) : Prop :=
  ∃ (v v' : Volume) (settings : Settings) (clock : UInt64) (e : Engine),
    Vacant v dir ∧ openAt settings dir clock v = .ok e v' ∧ M = ⟨0, .blank, opened v' e⟩

/-- What can come next: a call of some kind on the index of a name; or the
database is closed, or dropped with a log that is read without fault, and
opened again. -/
inductive Next (dir : Path) (Allowed : String → Call → Prop) (M : Moment ν) : Moment ν → Prop
  | call {name : String} {c : Call} {τ : Session ν} {s : Store}
      (hname : Index.isValidName name = true) (hc : Allowed name c)
      (hrun : c.run name (M.sessions.session name) M.store = .ok τ s) :
      Next dir Allowed M ⟨M.earlier, M.sessions.setSession name τ, s⟩
  | closed {s : Store} {v : Volume} {settings : Settings} {clock : UInt64} {e : Engine}
      (hclose : Database.close M.store = .ok () s)
      (hopen : openAt settings dir clock s.volume = .ok e v) :
      Next dir Allowed M ⟨M.earlier + s.written, .blank, opened v e⟩
  | dropped {v : Volume} {settings : Settings} {clock : UInt64} {e : Engine}
      (hlog : (Log.scan (M.store.volume.content M.store.engine.log.file)).fault = none)
      (hopen : openAt settings dir clock M.store.volume = .ok e v) :
      Next dir Allowed M ⟨M.earlier + M.store.written, .blank, opened v e⟩

end Moment

-- ================================================================= offices

/-- What sessions on a database can come to: what is held, the handles on
each index, and what is pending in the transactions. -/
structure Office where
  held : KeyMap Bytes
  handles : String → Nat → Option Index
  drafts : Nat → Option Pending

namespace Office

/-- The desk of the index of a name. -/
def desk (ω : Office) (name : String) : Desk :=
  ⟨ω.held, ω.handles name, ω.drafts, []⟩

/-- The desk of a name is this one from then on. -/
def setDesk (ω : Office) (name : String) (δ : Desk) : Office :=
  ⟨δ.held, Function.update ω.handles name δ.handles, δ.drafts⟩

/-- The same without the transactions. -/
def setAside (ω : Office) : Office :=
  { ω with drafts := fun _ => none }

/-- The database is opened again: nothing is open on it. -/
def left (ω : Office) : Office :=
  ⟨ω.held, fun _ _ => none, fun _ => none⟩

/-- What can come next: entries that get tokens can be written anew, and keys
can be counted. -/
inductive Next (Allowed : String → Call → Prop) (ω : Office) : Office → Prop
  | call {name : String} {c : Call} (hname : Index.isValidName name = true) (hc : Allowed name c)
      (hafford : c.Mints → (ofName name).Affords ω.held (c.effect name (ω.desk name)).held)
      (hsize : (c.effect name (ω.desk name)).held.size < UInt64.size) :
      Next Allowed ω (ω.setDesk name (c.effect name (ω.desk name)))
  | left : Next Allowed ω ω.left

end Office

/-- What sessions have come to on a map. -/
def Sessions.office {ν : Type} (σ : Sessions ν) (m : KeyMap Bytes) : Office :=
  ⟨m, σ.handles, fun t => (σ.drafts t).map Transaction.pending⟩

namespace Moment

variable {ν : Type} {dir : Path} {Allowed : String → Call → Prop} {M M' : Moment ν}

/-- Sessions stay ready. -/
theorem Next.ready (h : Next dir Allowed M M') (hM : M.sessions.Ready) : M'.sessions.Ready := by
  cases h with
  | call hname hc hrun => exact hM.setSession (Call.returns_run (hM _) _ _ _ _ hrun)
  | closed hclose hopen => exact Sessions.ready_blank
  | dropped hlog hopen => exact Sessions.ready_blank

/-- What was written becomes no less. -/
theorem Next.written_le (h : Next dir Allowed M M') (hM : M.sessions.Ready) :
    M.written ≤ M'.written := by
  unfold written
  cases h with
  | call hname hc hrun =>
      exact Nat.add_le_add_left (Call.leads_run (hM _) _ KeyMap.empty _ _ _ hrun).1 _
  | closed hclose hopen =>
      have := written_flush (of_orFatal hclose)
      dsimp only
      omega
  | dropped hlog hopen => exact Nat.le_add_right _ _

/-- What comes next on the store is what comes next at the desks. -/
theorem Next.office (h : Next dir Allowed M M') (hM : M.sessions.Ready)
    (hroom : M'.written < UInt64.size) {ops : List Operation}
    (hs : M.store.Measured dir M.earlier ops) :
    ∃ ops', M'.store.Measured dir M'.earlier ops' ∧
      Office.Next Allowed (M.sessions.office (contents ops))
        (M'.sessions.office (contents ops')) := by
  have hle := h.written_le hM
  unfold written at hroom hle
  cases h with
  | @call name c τ s hname hc hrun =>
      obtain ⟨ops', hs', hdesk, haffords, hsize⟩ := Call.measured_run (hM name) hrun hs hroom
      have hoffice : (M.sessions.setSession name τ).office (contents ops')
          = (M.sessions.office (contents ops)).setDesk name (τ.desk (contents ops')) := rfl
      refine ⟨ops', hs', ?_⟩
      rw [hoffice, hdesk]
      exact .call hname hc haffords hsize
  | closed hclose hopen =>
      have hwritten := written_flush (of_orFatal hclose)
      dsimp only at hroom
      exact ⟨ops, hs.closed (of_orFatal hclose) (by omega) hopen, .left⟩
  | dropped hlog hopen =>
      dsimp only at hroom
      exact ⟨ops, hs.dropped hlog (by omega) hopen, .left⟩

/-- From one moment to a later one both hold. -/
theorem ready_reaches (h : Relation.ReflTransGen (Next dir Allowed) M M')
    (hM : M.sessions.Ready) : M'.sessions.Ready ∧ M.written ≤ M'.written := by
  induction h with
  | refl => exact ⟨hM, Nat.le_refl _⟩
  | tail _ hnext ih =>
      obtain ⟨hready, hle⟩ := ih
      exact ⟨hnext.ready hready, hle.trans (hnext.written_le hready)⟩

/-- And what comes later on the store is what comes later at the desks. -/
theorem reaches (h : Relation.ReflTransGen (Next dir Allowed) M M') (hM : M.sessions.Ready)
    (hroom : M'.written < UInt64.size) {ops : List Operation}
    (hs : M.store.Measured dir M.earlier ops) :
    ∃ ops', M'.store.Measured dir M'.earlier ops' ∧
      Relation.ReflTransGen (Office.Next Allowed) (M.sessions.office (contents ops))
        (M'.sessions.office (contents ops')) := by
  induction h with
  | refl => exact ⟨ops, hs, .refl⟩
  | tail hrest hnext ih =>
      obtain ⟨hready, -⟩ := ready_reaches hrest hM
      obtain ⟨ops₁, hs₁, hoffice⟩ := ih (lt_of_le_of_lt (hnext.written_le hready) hroom)
      obtain ⟨ops', hs', hlast⟩ := hnext.office hready hroom hs₁
      exact ⟨ops', hs', hoffice.tail hlast⟩

end Moment

-- ============================================================= other desks

/-- A call that needs no handle. -/
def Call.Shares : Call → Prop
  | openIndex _ _ _ | token _ _ _ | update _ _ _ _ _ | remove _ _ _ | sweep _ => False
  | _ => True

namespace Desk

variable {R : Rule} {name other : String} {δ : Desk} {handles : Nat → Option Index}
  {place : Option Nat} {s : Slate} {c : Call}

/-- The desk with other handles: what is held and what is pending is seen from
there, too. -/
def lend (δ : Desk) (handles : Nat → Option Index) : Desk :=
  ⟨δ.held, handles, δ.drafts, []⟩

/-- The same slates are there. -/
theorem slate_lend : (δ.lend handles).slate place = δ.slate place := by
  cases place <;> rfl

/-- A slate that is set is set there. -/
theorem lend_setSlate (δ : Desk) (handles : Nat → Option Index) (place : Option Nat) (s : Slate) :
    (δ.setSlate place s).lend handles = (δ.lend handles).setSlate place s := by
  cases place <;> rfl

/-- What is made with a place is made there. -/
theorem lend_placed {f g : Slate → Desk} (h : ∀ s, (f s).lend handles = g s) :
    (δ.placed place f).lend handles = (δ.lend handles).placed place g := by
  unfold placed
  rw [slate_lend]
  cases δ.slate place with
  | none => rfl
  | some s => exact h s

/-- What is made with a transaction is made there. -/
theorem lend_drafted (t : Nat) (f : Pending → KeyMap Bytes × Pending) :
    (δ.drafted t f).lend handles = (δ.lend handles).drafted t f := by
  have hdrafts : (δ.lend handles).drafts = δ.drafts := rfl
  cases hdraft : δ.drafts t with
  | none => simp only [drafted, hdrafts, hdraft]
  | some p =>
      simp only [drafted, hdrafts, hdraft]
      rfl

/-- A call that needs no handle does the same there. -/
theorem lend_effect (hc : c.Shares) :
    (c.effect name δ).lend handles = c.effect other (δ.lend handles) := by
  cases c with
  | put place k v => exact lend_placed fun s => lend_setSlate δ handles place _
  | delete place k => exact lend_placed fun s => lend_setSlate δ handles place _
  | flushDraft t => exact lend_drafted t _
  | commit t => exact lend_drafted t _
  | abandon t => exact lend_drafted t _
  | begin t | leave t | writeBatch ws | flush => rfl
  | openIndex h settings stamp | token h term raw | update h place docId sortKey terms
  | remove h place docId | sweep h => exact hc.elim

/-- With its own handles and without the answers a desk obeys. -/
theorem Obeys.lend_self (h : δ.Obeys R) : (δ.lend δ.handles).Obeys R := by
  refine ⟨fun {place s} hs => ?_, h.handles, fun a ha => absurd ha List.not_mem_nil⟩
  rw [slate_lend] at hs
  exact h.places hs

/-- One step of an index was made on one slate of the desk; handles and answers
apart, nothing else has changed. -/
def OneStep (ks : IndexKeys) (δ δ' : Desk) : Prop :=
  ∃ place s s', δ.slate place = some s ∧ Within ks s s' ∧
    ∀ handles, δ'.lend handles = (δ.setSlate place s').lend handles

/-- Nothing is done. -/
theorem oneStep_self (ks : IndexKeys) (δ : Desk) : OneStep ks δ δ :=
  ⟨none, _, _, rfl, .nothing, fun _ => rfl⟩

/-- It is made with the help of a handle. -/
theorem oneStep_handled {ks : IndexKeys} {i : Nat} {f : Index → Desk}
    (h : ∀ x, δ.handles i = some x → OneStep ks δ (f x)) : OneStep ks δ (δ.handled i f) :=
  handled_rec (fun _ => oneStep_self ks δ) fun hx => h _ hx

/-- It is made in a place. -/
theorem oneStep_placed {ks : IndexKeys} {f : Slate → Desk}
    (h : ∀ s, δ.slate place = some s → OneStep ks δ (f s)) : OneStep ks δ (δ.placed place f) :=
  placed_rec (fun _ => oneStep_self ks δ) fun hs => h _ hs

/-- It is made on what is held. -/
theorem oneStep_held {ks : IndexKeys} {m' : KeyMap Bytes}
    (h : Within ks ⟨δ.held, none⟩ ⟨m', none⟩) {δ' : Desk} (hheld : δ'.held = m')
    (hdrafts : δ'.drafts = δ.drafts) : OneStep ks δ δ' := by
  refine ⟨none, _, _, rfl, h, fun handles => ?_⟩
  unfold lend
  rw [hheld, hdrafts]
  rfl

/-- A call that needs a handle makes one step of its index. -/
theorem Obeys.oneStep (h : δ.Obeys (balancing name)) (hc : ¬c.Shares) :
    OneStep (ofName name) δ (c.effect name δ) := by
  have hkeys {i : Nat} {x : Index} (hx : δ.handles i = some x) : x.keys = ofName name :=
    (h.handles hx).1
  have hfiled {i : Nat} {place : Option Nat} (docId sortKey : String) (terms : List Term)
      {x : Index} {s : Slate} (hx : δ.handles i = some x) (hs : δ.slate place = some s) :
      OneStep (ofName name) δ
        ((δ.setSlate place (x.updated s docId sortKey terms).2).setHandle i
          (x.updated s docId sortKey terms).1) := by
    have hlisted := (h.places hs).1.lead_of_listed docId
    refine ⟨place, s, _, hs, ?_, fun handles => rfl⟩
    rw [← hkeys hx] at hlisted ⊢
    exact Index.within_updated x hlisted sortKey terms
  cases c with
  | openIndex i settings stamp =>
      rw [Call.effect.eq_1]
      cases Index.openNamed name settings stamp with
      | error f => exact oneStep_self _ δ
      | ok x => exact oneStep_held .nothing rfl rfl
  | token i term raw =>
      refine oneStep_handled fun x hx => oneStep_held ?_ rfl rfl
      rw [← hkeys hx]
      exact Index.within_tokenAt x δ.held term raw none
  | update i place docId sortKey terms =>
      exact oneStep_handled fun x hx => oneStep_placed fun s hs => hfiled docId sortKey terms hx hs
  | remove i place docId =>
      exact oneStep_handled fun x hx => oneStep_placed fun s hs => hfiled docId "" [] hx hs
  | sweep i =>
      refine oneStep_handled fun x hx => oneStep_held ?_ rfl rfl
      rw [hkeys hx]
      exact h.held.1.within_swept x.sweepBatch
  | put place k v | delete place k | begin t | flushDraft t | commit t | abandon t | leave t
  | writeBatch ws | flush => exact absurd trivial hc

end Desk

/-- What a call writes itself under no keys of indexes it writes under none of
this one. -/
theorem Call.Civil.own {name : String} {c : Call} (h : c.Civil name) (hc : c.Shares)
    (other : String) : c.Own (ofName other) := by
  have hlead {k : Bytes} (hk : ¬realm <+: k) : ¬(ofName other).lead <+: k := fun hlead =>
    hk ((realm_prefix_lead other).trans hlead)
  cases c with
  | put place k v => exact hlead h
  | delete place k => exact hlead h
  | writeBatch ws => exact fun w hw => hlead (h w hw)
  | begin t | flushDraft t | commit t | abandon t | leave t | flush => trivial
  | openIndex i settings stamp | token i term raw | update i place docId sortKey terms
  | remove i place docId | sweep i => exact hc.elim

/-- So all that it does is the index's own. -/
theorem Call.Civil.own_self {name : String} {c : Call} (h : c.Civil name) :
    c.Own (ofName name) := by
  by_cases hshared : c.Shares
  · exact h.own hshared name
  · cases c <;> first | exact h | exact absurd trivial hshared

namespace Desk

variable {R : Rule} {name other : String} {δ : Desk} {handles : Nat → Option Index} {c : Call}

/-- A call on one index leaves the desk of another one that obeys, whatever its
rule: what the call needs a handle for are foreign writes there, and without
one it does the same. -/
theorem Obeys.lend (hR : R.Kept other)
    (hapart : ∀ k, (ofName name).lead <+: k → ¬(ofName other).lead <+: k)
    (hown : δ.Obeys (balancing name)) (h : (δ.lend handles).Obeys R) (hc : c.Civil name)
    (hsize : (c.effect name δ).held.size < UInt64.size) :
    ((c.effect name δ).lend handles).Obeys R := by
  by_cases hshared : c.Shares
  · have hsame : (c.effect name δ).lend handles = c.effect other (δ.lend handles) :=
      lend_effect hshared
    have hmints : ¬c.Mints := by cases c <;> first | exact id | exact hshared.elim
    have hheld : (c.effect other (δ.lend handles)).held = (c.effect name δ).held :=
      (congrArg Desk.held hsame).symm
    rw [hsame]
    refine h.effect hR (hc.own hshared other) (fun hm => absurd hm hmints) ?_
    rw [hheld]
    exact hsize
  · obtain ⟨place, s, s', hs, hwithin, heffect⟩ := hown.oneStep hshared
    rw [heffect, Desk.lend_setSlate]
    exact hwithin.obeys hR hapart (slate_lend.trans hs) h

end Desk

-- ============================================================== in balance

namespace Office

variable {ω ω' : Office} {name : String}

/-- The books of every index are in balance. -/
def Sound (ω : Office) : Prop :=
  ∀ {name}, Index.isValidName name = true → (ω.desk name).Obeys (balancing name)

/-- They are where there is nothing. -/
theorem sound_blank : (⟨KeyMap.empty, fun _ _ => none, fun _ => none⟩ : Office).Sound :=
  fun {name} _ => Desk.obeys_blank (kept_balancing name)

/-- And without the transactions. -/
theorem Sound.setAside (h : ω.Sound) : ω.setAside.Sound := by
  intro name hname
  have hδ := h hname
  refine ⟨fun {place s} hs => ?_, hδ.handles, fun a ha => absurd ha List.not_mem_nil⟩
  cases place with
  | none =>
      cases hs
      exact hδ.held
  | some t => cases hs

/-- They stay so, as long as nobody else writes under their keys. -/
theorem Sound.next (h : ω.Sound) (hnext : Next Call.Civil ω ω') : ω'.Sound := by
  intro other hother
  cases hnext with
  | @call name c hname hc hafford hsize =>
      have hδ := h hname
      by_cases heq : other = name
      · subst heq
        have hdesk := (hδ.effect (kept_balancing other) hc.own_self hafford hsize).lend_self
        have hhandles : (c.effect other (ω.desk other)).handles
            = (ω.setDesk other (c.effect other (ω.desk other))).handles other :=
          (Function.update_self other _ ω.handles).symm
        rw [hhandles] at hdesk
        exact hdesk
      · have hapart (k : Bytes) (hk : (ofName name).lead <+: k) : ¬(ofName other).lead <+: k :=
          fun hk' => heq (name_of_lead hother hname hk' hk)
        have hlent : ((ω.desk name).lend (ω.handles other)).Obeys (balancing other) :=
          h hother
        have hdesk := hδ.lend (kept_balancing other) hapart hlent hc hsize
        have hhandles : ω.handles other
            = (ω.setDesk name (c.effect name (ω.desk name))).handles other :=
          (Function.update_of_ne heq _ _).symm
        rw [hhandles] at hdesk
        exact hdesk
  | left => exact (h hother).left

/-- Nor do they need more than that from one moment to a later one. -/
theorem Sound.reaches (h : ω.Sound) (hreach : Relation.ReflTransGen (Next Call.Civil) ω ω') :
    ω'.Sound := by
  induction hreach with
  | refl => exact h
  | tail _ hnext ih => exact ih.next hnext

end Office

-- =============================================================== elsewhere

namespace Desk

variable {ks : IndexKeys} {m : KeyMap Bytes} {name : String} {δ : Desk} {place : Option Nat}
  {s s' : Slate} {c : Call} {handles : Nat → Option Index}

/-- Elsewhere than under the lead of the index the database holds what the map
holds, and nothing is pending. -/
structure Keeps (ks : IndexKeys) (m : KeyMap Bytes) (δ : Desk) : Prop where
  held : ∀ {k}, ¬ks.lead <+: k → δ.held.find? k = m.find? k
  pending : ∀ {t p k}, δ.drafts t = some p → ¬ks.lead <+: k → p.find? k = none

/-- That is a matter of what is held and what is pending alone. -/
theorem keeps_lend (handles : Nat → Option Index) :
    (δ.lend handles).Keeps ks m ↔ δ.Keeps ks m :=
  ⟨fun h => ⟨h.held, h.pending⟩, fun h => ⟨h.held, h.pending⟩⟩

/-- A transaction may be set in which nothing is pending elsewhere. -/
theorem Keeps.setDraft {pending : Option Pending} (h : δ.Keeps ks m)
    (hp : ∀ {p k}, pending = some p → ¬ks.lead <+: k → p.find? k = none) (t : Nat) :
    (δ.setDraft t pending).Keeps ks m := by
  refine ⟨h.held, fun {u p k} hdraft hk => ?_⟩
  change Function.update δ.drafts t pending u = some p at hdraft
  rw [Function.update_apply] at hdraft
  split at hdraft
  · exact hp hdraft hk
  · exact h.pending hdraft hk

/-- A step of the index changes nothing elsewhere. -/
theorem Keeps.setSlate (h : δ.Keeps ks m) (hs : δ.slate place = some s)
    (hwithin : Within ks s s') : (δ.setSlate place s').Keeps ks m := by
  have hheld {k : Bytes} (hk : ¬ks.lead <+: k) : s'.held.find? k = m.find? k := by
    rw [(hwithin.outside hk).1, held_slate hs]
    exact h.held hk
  cases place with
  | none => exact ⟨hheld, h.pending⟩
  | some t =>
      obtain ⟨p, hp, rfl⟩ := Option.map_eq_some_iff.mp hs
      refine Keeps.setDraft (δ := { δ with held := s'.held }) ⟨hheld, h.pending⟩
        (fun {p' k} hp' hk => ?_) t
      have hpending := (hwithin.outside hk).2
      rw [hp'] at hpending
      exact hpending.trans (h.pending hp hk)

/-- To make the writes of a transaction, neither. -/
theorem Keeps.committed (h : δ.Keeps ks m) (t : Nat) :
    (δ.drafted t fun p => (δ.held.laid p, .empty)).Keeps ks m := by
  refine drafted_rec (fun _ => h) fun {p} hp => ?_
  refine Keeps.setDraft (δ := { δ with held := δ.held.laid p }) ⟨fun {k} hk => ?_, h.pending⟩
    (fun hempty _ => ?_) t
  · show (δ.held.laid p).find? k = m.find? k
    rw [KeyMap.find?_laid, h.pending hp hk, ← h.held hk]
    exact KeyMap.find?_or_entry none δ.held k
  · cases hempty
    rfl

/-- Whatever is asked of the index alone changes nothing elsewhere. -/
theorem Keeps.effect (h : δ.Keeps ks m) (hδ : δ.Obeys (balancing name)) (hks : ks = ofName name)
    (hc : c.Indexes name) : (c.effect name δ).Keeps ks m := by
  subst hks
  by_cases hshared : c.Shares
  · cases c with
    | begin t =>
        refine h.setDraft (fun hp _ => ?_) t
        cases hp
        rfl
    | flushDraft t => exact h.committed t
    | commit t => exact h.committed t
    | abandon t =>
        show (δ.drafted t fun _ => (δ.held, .empty)).Keeps _ m
        refine drafted_rec (fun _ => h) fun _ => Keeps.setDraft (δ := δ) h (fun hp _ => ?_) t
        cases hp
        rfl
    | leave t => exact h.setDraft (fun hp => by cases hp) t
    | flush => exact h
    | put place k v | delete place k | writeBatch ws => exact hc.elim
    | openIndex i settings stamp | token i term raw | update i place docId sortKey terms
    | remove i place docId | sweep i => exact hshared.elim
  · obtain ⟨place, s, s', hs, hwithin, heffect⟩ := hδ.oneStep hshared
    have hstep := h.setSlate hs hwithin
    rw [← keeps_lend δ.handles] at hstep ⊢
    rwa [heffect]

end Desk

/-- What is asked of one index alone. -/
def Call.Only (first : String) (name : String) (c : Call) : Prop :=
  name = first ∧ c.Indexes first

/-- That is nothing that is not allowed. -/
theorem Call.Only.civil {first name : String} {c : Call} (h : c.Only first name) : c.Civil name := by
  obtain ⟨rfl, hc⟩ := h
  cases c <;> first | exact hc | exact hc.elim

namespace Office

variable {ω ω' : Office} {first : String} {m : KeyMap Bytes}

/-- A run on one index alone changes nothing elsewhere, and leaves the books of
all in balance. -/
theorem Sound.keeps (h : ω.Sound)
    (hreach : Relation.ReflTransGen (Next (Call.Only first)) ω.setAside ω') :
    ω'.Sound ∧ (ω'.desk first).Keeps (ofName first) ω.held := by
  induction hreach with
  | refl => exact ⟨h.setAside, fun _ => rfl, nofun⟩
  | @tail ω₁ ω' _ hnext ih =>
      obtain ⟨hsound, hkeeps⟩ := ih
      have hcivil : Next Call.Civil ω₁ ω' := by
        cases hnext with
        | call hname hc hafford hsize => exact .call hname hc.civil hafford hsize
        | left => exact .left
      refine ⟨hsound.next hcivil, ?_⟩
      cases hnext with
      | call hname hc hafford hsize =>
          obtain ⟨rfl, hc⟩ := hc
          have hdesk := hkeeps.effect (hsound hname) rfl hc
          exact ⟨hdesk.held, hdesk.pending⟩
      | left => exact ⟨hkeeps.held, nofun⟩

end Office

end OrderedStore
