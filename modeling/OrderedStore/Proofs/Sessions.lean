/-
Sessions: an index at work through many handles and transactions.

Any number of handles may be open on the index of one name, each with tokens
that it keeps in memory and with stamps of its own, and any number of
transactions beside them. What is asked of them, call by call (`Call`),
makes a session; a store may be closed or dropped in between and opened
again, which leaves no handle and no transaction (`Course`).

What a session can come to is said without the store (`Desk`): the map that
the database holds, what is pending in each transaction, what the handles
keep, and the tokens that were answered. Each call has one effect on a desk,
which can be computed from the desk (`Call.effect`), and carried out it leads
there (`Call.leads_run`). So whatever holds of a fresh desk and is kept by
effects holds wherever a course has come (`Course.reached`); the store is not
spoken of from there on. Three things are known of a step besides its effect:
there is room to count the keys, entries for which a token was given could be
written anew, and opening a store again shows what it held.
-/
import Mathlib
import OrderedStore.Proofs.IndexRuns
import OrderedStore.Proofs.LogReading
import OrderedStore.Proofs.Slates
import OrderedStore.Proofs.SweepRuns

namespace OrderedStore

-- =============================================================== reopening

/-- Operations leave no more keys than bytes that were logged of them. -/
theorem size_contents_le (ops : List Operation) : (contents ops).size ≤ Operation.logged ops := by
  have hsub : (contents ops).entries.map Prod.fst ⊆ (Operation.writesOfAll ops).map Prod.fst := by
    intro k hk
    obtain ⟨⟨l, v⟩, hmem, rfl⟩ := List.mem_map.mp hk
    have hfound := KeyMap.mem_entries.mp hmem
    rw [find?_contents] at hfound
    obtain ⟨e, he, -⟩ := Option.bind_eq_some_iff.mp hfound
    exact List.mem_map.mpr ⟨_, mem_of_lastWrite he, rfl⟩
  have hkeys := ((contents ops).nodup_keys.subperm hsub).length_le
  rw [List.length_map, List.length_map] at hkeys
  have hdata := Table.length_le_dataBlock (Operation.writesOfAll ops)
  have hbytes := Operation.length_writesOfAll_le ops
  rw [Operation.logged_eq]
  show (contents ops).entries.length ≤ _
  omega

namespace Log

/-- The frames in front of one that is too long to be read back are taken,
and that one is a fault. -/
theorem exists_taken_of_not_fits {rs : List LogRecord}
    (hframes : ∀ r ∈ rs, r.payload.length < UInt32.size) (hlong : ∃ r ∈ rs, ¬r.Fits)
    (position : Nat) :
    ∃ found position' rest e, Taken position (frames rs) found position' rest ∧ rest ≠ [] ∧
      LogRecord.next position' rest = .error e := by
  induction rs generalizing position with
  | nil =>
      obtain ⟨r, hr, -⟩ := hlong
      exact absurd hr List.not_mem_nil
  | cons r rs ih =>
      have hsplit : frames (r :: rs) = r.bytes ++ frames rs := List.flatMap_cons
      rw [hsplit]
      by_cases hr : r.Fits
      · have hrest : ∃ q ∈ rs, ¬q.Fits := by
          obtain ⟨q, hq, hqlong⟩ := hlong
          rcases List.mem_cons.mp hq with rfl | hq
          · exact absurd hr hqlong
          · exact ⟨q, hq, hqlong⟩
        obtain ⟨found, position', rest, e, htaken, hne, hfault⟩ :=
          ih (fun q hq => hframes q (List.mem_cons_of_mem _ hq)) hrest _
        exact ⟨r :: found, position', rest, e,
          Taken.more (LogRecord.next_bytes hr position _) htaken, hne, hfault⟩
      · refine ⟨[], position, _, _, Taken.none _ _, ?_,
          LogRecord.next_implausible hr (hframes r List.mem_cons_self) position _⟩
        rw [← List.length_pos_iff, List.length_append, LogRecord.length_bytes]
        omega

/-- If a log of frames is read without fault, every record in it is read
back. -/
theorem fits_of_scan {rs : List LogRecord} (hframes : ∀ r ∈ rs, r.payload.length < UInt32.size)
    (hscan : (scan (frames rs)).fault = none) : ∀ r ∈ rs, r.Fits := by
  by_contra hnot
  obtain ⟨r, hr⟩ := not_forall.mp hnot
  obtain ⟨found, position, rest, e, htaken, hne, hfault⟩ :=
    exists_taken_of_not_fits hframes ⟨r, Classical.not_imp.mp hr⟩ 0
  obtain ⟨fault, hfound, hnone⟩ := scan_of_taken htaken (Or.inr ⟨e, hfault⟩)
  rw [hfound] at hscan
  exact hne (hnone.mp hscan)

end Log

namespace Store

open Engine

variable {dir : Path} {earlier : Nat} {s s' : Store} {ops : List Operation} {rs : List LogRecord}
  {settings : Settings} {clock : UInt64} {e : Engine} {v : Volume}

/-- A store that is dropped and opened again holds what it held, if the
records of its log are read back. -/
theorem Measured.reopen (h : s.Measured dir earlier ops) (hrs : s.Durable ops rs)
    (hfits : ∀ r ∈ rs, r.Fits) (hroom : earlier + s.written < UInt64.size)
    (hopen : openAt settings dir clock s.volume = .ok e v) :
    (opened v e).Measured dir (earlier + s.written) ops := by
  obtain ⟨⟨ids, hsound⟩, htotal, hlogged⟩ := h
  have hbytes : Operation.logged ops < UInt64.size := lt_of_le_of_lt htotal hroom
  obtain ⟨e', v', ids', hopen', hsound'⟩ := (recoverable_of_durable hsound hrs hfits).openAt_ok
    hbytes (room_of_logged hbytes) settings clock
  rw [hopen] at hopen'
  cases hopen'
  exact ⟨⟨ids', hsound'⟩, le_trans htotal (Nat.le_add_right _ _), hlogged⟩

/-- So it does if its log is read without fault. -/
theorem Measured.dropped (h : s.Measured dir earlier ops)
    (hlog : (Log.scan (s.volume.content s.engine.log.file)).fault = none)
    (hroom : earlier + s.written < UInt64.size)
    (hopen : openAt settings dir clock s.volume = .ok e v) :
    (opened v e).Measured dir (earlier + s.written) ops := by
  obtain ⟨ids, hsound⟩ := h.sound
  obtain ⟨rs, hrs⟩ := hsound.durable
  rw [hrs.content] at hlog
  refine h.reopen hrs (Log.fits_of_scan (fun r hr => ?_) hlog) hroom hopen
  rw [LogRecord.length_payload]
  exact (h.logged _ (hrs.suffix.subset (List.mem_map_of_mem hr))).2

/-- What is logged writes something. -/
theorem writes_ne_nil {op : Operation} (h : op.Flat) : op.writes ≠ [] := by
  cases op with
  | put k v => exact List.cons_ne_nil _ _
  | delete k => exact List.cons_ne_nil _ _
  | batch ops =>
      obtain ⟨hne, hsingle⟩ := h
      obtain ⟨op, rest, rfl⟩ := List.exists_cons_of_ne_nil hne
      rw [Operation.writes, Operation.writesOfAll]
      have hop := hsingle op List.mem_cons_self
      cases op with
      | put k v => exact List.cons_ne_nil _ _
      | delete k => exact List.cons_ne_nil _ _
      | batch ops => exact hop.elim

/-- A flush leaves nothing in the memtable. -/
theorem Measured.isEmpty_of_flush (h : s.Measured dir earlier ops)
    (hflush : Store.flush s = .ok () s') (hroom : earlier + s'.written < UInt64.size) :
    s'.current.isEmpty = true := by
  cases hempty : s.current.isEmpty with
  | true =>
      rw [flush_idle hempty] at hflush
      cases hflush
      exact hempty
  | false =>
      obtain ⟨ids, hsound⟩ := h.sound
      have htotal := h.total
      have hwritten := written_flush hflush
      obtain ⟨t, v, hturn, -⟩ := hsound.turnOver_ok hempty (by omega)
      rw [flush_eq hempty hturn] at hflush
      cases hflush
      exact congrArg Memtable.isEmpty (Memory.memtable_append_self s.toMemory Memtable.empty)

/-- A store that was closed has nothing in its log, so it holds what it held
when it is opened again. -/
theorem Measured.closed (h : s.Measured dir earlier ops) (hclose : Store.flush s = .ok () s')
    (hroom : earlier + s'.written < UInt64.size)
    (hopen : openAt settings dir clock s'.volume = .ok e v) :
    (opened v e).Measured dir (earlier + s'.written) ops := by
  obtain ⟨hs', -⟩ := h.flush hclose hroom
  obtain ⟨ids, hsound⟩ := hs'.sound
  obtain ⟨rs, hrs⟩ := hsound.durable
  have hempty := h.isEmpty_of_flush hclose hroom
  rw [hrs.empty, List.isEmpty_iff] at hempty
  have hnone : rs = [] := by
    cases rs with
    | nil => rfl
    | cons r rs =>
        have hr := writes_ne_nil (hs'.logged _ (hrs.suffix.subset List.mem_cons_self)).1
        rw [List.map_cons, Operation.writesOfAll] at hempty
        exact absurd (List.append_eq_nil_iff.mp hempty).1 hr
  subst hnone
  exact hs'.reopen hrs (fun r hr => absurd hr List.not_mem_nil) hroom hopen

end Store

-- ================================================================ sessions

/-- A token that was answered, and what it was asked for. -/
structure Answer where
  term : String
  raw : String
  token : UInt64

/-- What is open at a moment: handles on the index, and transactions. The
answers are all that were given so far. -/
structure Session (ν : Type) where
  handles : Nat → Option Index
  drafts : Nat → Option (Transaction ν)
  answers : List Answer

/-- What can be asked. A place of `none` is the database. A handle or a
transaction that is not open does nothing. -/
inductive Call where
  /-- A handle is opened, in place of one that is there. -/
  | openIndex (h : Nat) (settings : IndexSettings) (stamp : UInt64)
  /-- The token of a term and a word is asked for. -/
  | token (h : Nat) (term raw : String)
  /-- A document has this sort key and these terms. -/
  | update (h : Nat) (place : Option Nat) (docId sortKey : String) (terms : List Term)
  /-- A document has no terms. -/
  | remove (h : Nat) (place : Option Nat) (docId : String)
  /-- A key leads to a value. -/
  | put (place : Option Nat) (k value : Bytes)
  /-- A key leads to nothing. -/
  | delete (place : Option Nat) (k : Bytes)
  /-- A transaction is opened, in place of one that is there. -/
  | begin (t : Nat)
  /-- The writes of a transaction are made, and it goes on. -/
  | flushDraft (t : Nat)
  /-- A transaction is committed. -/
  | commit (t : Nat)
  /-- A transaction is abandoned. -/
  | abandon (t : Nat)
  /-- A transaction is dropped. -/
  | leave (t : Nat)
  /-- Entries are written to the database as one. -/
  | writeBatch (ws : List (Bytes × Entry))
  /-- The database is flushed. -/
  | flush
  /-- Counts are brought up to date. -/
  | sweep (h : Nat)

namespace WriteView

variable {ν : Type}

/-- The transaction, if the writes go into one. -/
def draft? (T : WriteView ν) : Option (Transaction ν) :=
  match T with
  | .database => none
  | .transaction t => some t

/-- What is pending is what is pending in it. -/
theorem map_draft? (T : WriteView ν) : T.draft?.map Transaction.pending = T.pending? := by
  cases T <;> rfl

end WriteView

namespace Session

variable {ν : Type}

/-- Nothing is open. -/
def blank : Session ν :=
  ⟨fun _ => none, fun _ => none, []⟩

/-- A handle is this one from then on. -/
def setHandle (σ : Session ν) (h : Nat) (x : Index) : Session ν :=
  { σ with handles := Function.update σ.handles h (some x) }

/-- A transaction is this one from then on, or is no more. -/
def setDraft (σ : Session ν) (t : Nat) (d : Option (Transaction ν)) : Session ν :=
  { σ with drafts := Function.update σ.drafts t d }

/-- Where writes to a place go. -/
def target (σ : Session ν) : Option Nat → Option (WriteView ν)
  | none => some .database
  | some t => (σ.drafts t).map .transaction

/-- Writes to a place went there. -/
def setTarget (σ : Session ν) : Option Nat → WriteView ν → Session ν
  | none, _ => σ
  | some t, T => σ.setDraft t T.draft?

/-- A step that is made with a handle. -/
def handling (σ : Session ν) (h : Nat) (step : Index → DbM (Session ν)) : DbM (Session ν) :=
  match σ.handles h with
  | none => return σ
  | some x => step x

/-- A step that writes to a place. -/
def writing {α : Type} (σ : Session ν) (place : Option Nat) (step : WriteM ν α)
    (f : α → Session ν → Session ν) : DbM (Session ν) :=
  match σ.target place with
  | none => return σ
  | some T => do
    let (a, T, _) ← step.runOn T
    return f a (σ.setTarget place T)

/-- A step that is made with a transaction. -/
def drafting (σ : Session ν) (t : Nat) (step : Transaction ν → DbM (Transaction ν)) :
    DbM (Session ν) :=
  match σ.drafts t with
  | none => return σ
  | some d => do
    let d ← step d
    return σ.setDraft t (some d)

/-- A store is opened again: nothing is open on it. -/
def left (σ : Session ν) : Session ν :=
  { blank with answers := σ.answers }

end Session

namespace Call

variable {ν : Type}

open Session in
/-- Carries the call out on the index of this name. -/
def run (name : String) (σ : Session ν) : Call → DbM (Session ν)
  | openIndex h settings stamp => do
    let x ← orFatal (Index.openNamed name settings stamp)
    return σ.setHandle h x
  | token h term raw => σ.handling h fun x => do
    let (found, x) ← x.tokenOf term raw
    return { σ.setHandle h x with answers := ⟨term, raw, found⟩ :: σ.answers }
  | update h place docId sortKey terms => σ.handling h fun x =>
    σ.writing place (x.update docId sortKey terms) fun x σ => σ.setHandle h x
  | remove h place docId => σ.handling h fun x =>
    σ.writing place (x.remove docId) fun x σ => σ.setHandle h x
  | put place k value => σ.writing place (WriteM.put k value) fun _ σ => σ
  | delete place k => σ.writing place (WriteM.delete k) fun _ σ => σ
  | begin t => return σ.setDraft t (some .empty)
  | flushDraft t => σ.drafting t fun d => d.flush
  | commit t => σ.drafting t fun d => do
    let (d, _) ← d.commit
    return d
  | abandon t => σ.drafting t fun d => return d.abandon
  | leave t => return σ.setDraft t none
  | writeBatch ws => do
    Database.writeBatch (ws.map Transaction.operation)
    return σ
  | flush => do
    Database.flush
    return σ
  | sweep h => σ.handling h fun x => do
    let _ ← x.sweep
    return σ

/-- A call that may give tokens. -/
def Mints : Call → Prop
  | .token _ _ _ => True
  | .update _ _ _ _ _ => True
  | .remove _ _ _ => True
  | _ => False

/-- A call that writes under the keys of the index only what the index
writes; what is listed under a document can be counted in eight digits. -/
def Own (ks : IndexKeys) : Call → Prop
  | update _ _ docId sortKey terms =>
    Index.listingBound ks ⟨Index.cleanSortKey sortKey, docId⟩ terms.length < UInt64.size
  | put _ k _ => ¬ks.lead <+: k
  | delete _ k => ¬ks.lead <+: k
  | writeBatch ws => ∀ w ∈ ws, ¬ks.lead <+: w.1
  | _ => True

instance (ks : IndexKeys) : (c : Call) → Decidable (c.Own ks)
  | update _ _ _ _ _ => inferInstanceAs (Decidable (_ < _))
  | put _ _ _ => inferInstanceAs (Decidable (¬_))
  | delete _ _ => inferInstanceAs (Decidable (¬_))
  | writeBatch ws => inferInstanceAs (Decidable (∀ w ∈ ws, ¬_))
  | openIndex _ _ _ | token _ _ _ | remove _ _ _ | begin _ | flushDraft _ | commit _ | abandon _
  | leave _ | flush | sweep _ => inferInstanceAs (Decidable True)

end Call

-- =================================================================== desks

/-- What a session can come to: what the database holds, the handles, what
is pending in the transactions, and the answers. -/
structure Desk where
  held : KeyMap Bytes
  handles : Nat → Option Index
  drafts : Nat → Option Pending
  answers : List Answer

namespace Desk

/-- Nothing is held, and nothing is open. -/
def blank : Desk :=
  ⟨KeyMap.empty, fun _ => none, fun _ => none, []⟩

/-- A handle is this one from then on. -/
def setHandle (δ : Desk) (h : Nat) (x : Index) : Desk :=
  { δ with handles := Function.update δ.handles h (some x) }

/-- What is pending in a transaction is this from then on, or there is none
any more. -/
def setDraft (δ : Desk) (t : Nat) (p : Option Pending) : Desk :=
  { δ with drafts := Function.update δ.drafts t p }

/-- The slate that writes to a place go on. -/
def slate (δ : Desk) : Option Nat → Option Slate
  | none => some ⟨δ.held, none⟩
  | some t => (δ.drafts t).map fun p => ⟨δ.held, some p⟩

/-- Writes to a place have made this of its slate. -/
def setSlate (δ : Desk) : Option Nat → Slate → Desk
  | none, s => { δ with held := s.held }
  | some t, s => { δ with held := s.held }.setDraft t s.pending

/-- What becomes of a desk with the help of a handle. -/
def handled (δ : Desk) (h : Nat) (f : Index → Desk) : Desk :=
  match δ.handles h with
  | none => δ
  | some x => f x

/-- What becomes of it with a place that is written to. -/
def placed (δ : Desk) (place : Option Nat) (f : Slate → Desk) : Desk :=
  match δ.slate place with
  | none => δ
  | some s => f s

/-- What becomes of it with a transaction: what is held and what is pending
is what `f` makes of what is pending. -/
def drafted (δ : Desk) (t : Nat) (f : Pending → KeyMap Bytes × Pending) : Desk :=
  match δ.drafts t with
  | none => δ
  | some p => { δ with held := (f p).1 }.setDraft t (some (f p).2)

/-- The database is opened again: nothing is open on it. -/
def left (δ : Desk) : Desk :=
  { blank with held := δ.held, answers := δ.answers }

end Desk

/-- What a session has come to on a map. -/
def Session.desk {ν : Type} (σ : Session ν) (m : KeyMap Bytes) : Desk :=
  ⟨m, σ.handles, fun t => (σ.drafts t).map Transaction.pending, σ.answers⟩

/-- What a call makes of a desk. -/
def Call.effect (name : String) (δ : Desk) : Call → Desk
  | openIndex h settings stamp =>
    match Index.openNamed name settings stamp with
    | .error _ => δ
    | .ok x => δ.setHandle h x
  | token h term raw => δ.handled h fun x =>
    let a := x.tokenAt δ.held term raw
    { δ.setHandle h a.2.1 with held := a.2.2, answers := ⟨term, raw, a.1⟩ :: δ.answers }
  | update h place docId sortKey terms => δ.handled h fun x => δ.placed place fun s =>
    (δ.setSlate place (x.updated s docId sortKey terms).2).setHandle h
      (x.updated s docId sortKey terms).1
  | remove h place docId => δ.handled h fun x => δ.placed place fun s =>
    (δ.setSlate place (x.removed s docId).2).setHandle h (x.removed s docId).1
  | put place k value => δ.placed place fun s => δ.setSlate place (s.write (k, .value value))
  | delete place k => δ.placed place fun s => δ.setSlate place (s.write (k, .tombstone))
  | begin t => δ.setDraft t (some .empty)
  | flushDraft t => δ.drafted t fun p => (δ.held.laid p, .empty)
  | commit t => δ.drafted t fun p => (δ.held.laid p, .empty)
  | abandon t => δ.drafted t fun _ => (δ.held, .empty)
  | leave t => δ.setDraft t none
  | writeBatch ws => { δ with held := ws.foldl KeyMap.write δ.held }
  | flush => δ
  | sweep h => δ.handled h fun x => { δ with held := x.keys.swept x.sweepBatch δ.held }

-- ============================================================ from calls

namespace Session

variable {ν α : Type} {σ : Session ν} {name : String} {m : KeyMap Bytes} {place : Option Nat}

/-- The handles have the keys of the name, and triggers that wait do nothing
but give notice. -/
structure Ready (name : String) (σ : Session ν) : Prop where
  keys : ∀ {h x}, σ.handles h = some x → x.keys = IndexKeys.ofName name
  idle : ∀ {t d}, σ.drafts t = some d → d.Idle

/-- Nothing is open that could not be ready. -/
theorem ready_blank (name : String) : (blank : Session ν).Ready name :=
  ⟨nofun, nofun⟩

/-- A handle with the keys of the name may be set. -/
theorem Ready.setHandle (hσ : σ.Ready name) {x : Index} (hx : x.keys = IndexKeys.ofName name)
    (h : Nat) : (σ.setHandle h x).Ready name := by
  refine ⟨fun {h' x'} hx' => ?_, hσ.idle⟩
  change Function.update σ.handles h (some x) h' = some x' at hx'
  rw [Function.update_apply] at hx'
  split at hx'
  · cases hx'
    exact hx
  · exact hσ.keys hx'

/-- A transaction may be set that is idle. -/
theorem Ready.setDraft (hσ : σ.Ready name) {d : Option (Transaction ν)}
    (hd : ∀ {d'}, d = some d' → d'.Idle) (t : Nat) : (σ.setDraft t d).Ready name := by
  refine ⟨hσ.keys, fun {t' d'} hd' => ?_⟩
  change Function.update σ.drafts t d t' = some d' at hd'
  rw [Function.update_apply] at hd'
  split at hd'
  · exact hd hd'
  · exact hσ.idle hd'

/-- Writes to a place go where triggers are idle. -/
theorem Ready.target (hσ : σ.Ready name) {T : WriteView ν} (hT : σ.target place = some T) :
    T.Idle := by
  cases place with
  | none =>
      cases hT
      trivial
  | some t =>
      obtain ⟨d, hd, rfl⟩ := Option.map_eq_some_iff.mp hT
      exact hσ.idle hd

/-- Writes to a place may have gone there. -/
theorem Ready.setTarget (hσ : σ.Ready name) {T : WriteView ν} (hT : T.Idle) (place : Option Nat) :
    (σ.setTarget place T).Ready name := by
  cases place with
  | none => exact hσ
  | some t =>
      refine hσ.setDraft (fun {d} hd => ?_) t
      cases T with
      | database => cases hd
      | transaction d' =>
          cases hd
          exact hT

/-- A step that is made with a handle leaves the session ready. -/
theorem returns_handling (hσ : σ.Ready name) {h : Nat} {step : Index → DbM (Session ν)}
    (hstep : ∀ x, x.keys = IndexKeys.ofName name → Returns (step x) (Ready name)) :
    Returns (σ.handling h step) (Ready name) := by
  unfold handling
  cases hx : σ.handles h with
  | none => exact returns_pure hσ
  | some x => exact hstep x (hσ.keys hx)

/-- A step that writes to a place does, too. -/
theorem returns_writing (hσ : σ.Ready name) {step : WriteM ν α} {Φ : α → Prop}
    (hstep : WriteM.Returns step Φ) {f : α → Session ν → Session ν}
    (hf : ∀ {a τ}, Φ a → τ.Ready name → (f a τ).Ready name) :
    Returns (σ.writing place step f) (Ready name) := by
  unfold writing
  cases hT : σ.target place with
  | none => exact returns_pure hσ
  | some T =>
      exact (hstep.runOn T).bind fun a ha =>
        returns_pure (hf ha.1 (hσ.setTarget (ha.2 (hσ.target hT)) place))

/-- So does one that is made with a transaction. -/
theorem returns_drafting (hσ : σ.Ready name) {t : Nat}
    {step : Transaction ν → DbM (Transaction ν)}
    (hstep : ∀ {d}, d.Idle → Returns (step d) Transaction.Idle) :
    Returns (σ.drafting t step) (Ready name) := by
  unfold drafting
  cases hd : σ.drafts t with
  | none => exact returns_pure hσ
  | some d =>
      refine (hstep (hσ.idle hd)).bind fun d' hd' => returns_pure (hσ.setDraft (fun heq => ?_) t)
      cases heq
      exact hd'

/-- A handle that is set is set on the desk. -/
theorem desk_setHandle (σ : Session ν) (h : Nat) (x : Index) (m : KeyMap Bytes) :
    (σ.setHandle h x).desk m = (σ.desk m).setHandle h x :=
  rfl

/-- So is a transaction. -/
theorem desk_setDraft (σ : Session ν) (t : Nat) (d : Option (Transaction ν)) (m : KeyMap Bytes) :
    (σ.setDraft t d).desk m = (σ.desk m).setDraft t (d.map Transaction.pending) := by
  unfold desk setDraft Desk.setDraft
  refine congrArg (fun drafts => Desk.mk m σ.handles drafts σ.answers) (funext fun u => ?_)
  dsimp only
  rw [Function.update_apply, Function.update_apply]
  split <;> rfl

/-- Where writes went is on the desk. -/
theorem desk_setTarget (σ : Session ν) (place : Option Nat) (T : WriteView ν)
    (m m' : KeyMap Bytes) :
    (σ.setTarget place T).desk m' = (σ.desk m).setSlate place ⟨m', T.pending?⟩ := by
  cases place with
  | none => rfl
  | some t =>
      refine (desk_setDraft σ t T.draft? m').trans ?_
      rw [WriteView.map_draft?]
      rfl

/-- The slate of a place is that of the writes there. -/
theorem slate_desk (σ : Session ν) (place : Option Nat) (m : KeyMap Bytes) :
    (σ.desk m).slate place = (σ.target place).map fun T => ⟨m, T.pending?⟩ := by
  cases place with
  | none => rfl
  | some t =>
      show Option.map _ (Option.map _ (σ.drafts t)) = Option.map _ (Option.map _ (σ.drafts t))
      rw [Option.map_map, Option.map_map]
      rfl

/-- What a step leads to that is made with a handle. -/
theorem leads_handling {h : Nat} {step : Index → DbM (Session ν)}
    {Q : Session ν → List Operation → Prop}
    (hnone : σ.handles h = none → ∀ ops, contents ops = m → Q σ ops)
    (hstep : ∀ {x}, σ.handles h = some x → Leads (fun ops => contents ops = m) (step x) Q) :
    Leads (fun ops => contents ops = m) (σ.handling h step) Q := by
  unfold handling
  cases hx : σ.handles h with
  | none => exact leads_pure (hnone hx)
  | some x => exact hstep hx

/-- What a step leads to that writes to a place. `Φ` says what it makes of a
slate. -/
theorem leads_writing {Φ : Slate → α → Slate → Prop} {step : WriteM ν α}
    (hstep : ∀ s, WriteM.Leads (fun ops T => T.slate ops = s) step fun a ops T =>
      Φ s a (T.slate ops)) (f : α → Session ν → Session ν)
    {Q : Session ν → List Operation → Prop}
    (hnone : (σ.desk m).slate place = none → ∀ ops, contents ops = m → Q σ ops)
    (hsome : ∀ s a T ops, (σ.desk m).slate place = some s → Φ s a (T.slate ops) →
      Q (f a (σ.setTarget place T)) ops) :
    Leads (fun ops => contents ops = m) (σ.writing place step f) Q := by
  have hslate := slate_desk σ place m
  unfold writing
  cases hT : σ.target place with
  | none =>
      rw [hT] at hslate
      exact leads_pure fun ops h => hnone hslate ops h
  | some T =>
      rw [hT] at hslate
      refine (((hstep ⟨m, T.pending?⟩).runOn T).mono (fun ops h => ?_) fun _ _ h => h).bind
        fun a => leads_pure fun ops h => hsome _ _ _ _ hslate h
      show Slate.mk (contents ops) T.pending? = _
      rw [h]

/-- What a step leads to that makes the writes of a transaction. -/
theorem leads_drafting {t : Nat} {step : Transaction ν → DbM (Transaction ν)}
    {f : Pending → KeyMap Bytes × Pending}
    (hstep : ∀ {d}, σ.drafts t = some d → Leads (fun ops => contents ops = m) (step d)
      fun d' ops => (contents ops, d'.pending) = f d.pending) :
    Leads (fun ops => contents ops = m) (σ.drafting t step) fun σ' ops =>
      σ'.desk (contents ops) = (σ.desk m).drafted t f := by
  unfold drafting Desk.drafted
  have hdraft : (σ.desk m).drafts t = (σ.drafts t).map Transaction.pending := rfl
  rw [hdraft]
  cases hd : σ.drafts t with
  | none =>
      refine leads_pure fun ops h => ?_
      rw [h]
      rfl
  | some d =>
      refine (hstep hd).bind fun d' => leads_pure fun ops h => ?_
      rw [desk_setDraft]
      dsimp only [Option.map_some]
      rw [← h]
      rfl

end Session

namespace Call

open Session Index IndexKeys

variable {ν : Type} {σ : Session ν} {name : String}

/-- A call leaves a session ready. -/
theorem returns_run (hσ : σ.Ready name) (c : Call) : Returns (c.run name σ) (Ready name) := by
  cases c with
  | openIndex h settings stamp =>
      exact (returns_orFatal fun x hx => (of_openNamed hx).1).bind fun x hx =>
        returns_pure (hσ.setHandle hx h)
  | token h term raw =>
      refine returns_handling hσ fun x hx => (tokenOf_keys x term raw).bind fun a ha =>
        returns_pure ?_
      obtain ⟨hkeys, hidle⟩ := hσ.setHandle (ha.trans hx) h
      exact ⟨hkeys, hidle⟩
  | update h place docId sortKey terms =>
      exact returns_handling hσ fun x hx => returns_writing hσ
        (update_keys x docId sortKey terms) fun hy hτ => hτ.setHandle (hy.trans hx) h
  | remove h place docId =>
      exact returns_handling hσ fun x hx => returns_writing hσ (remove_keys x docId)
        fun hy hτ => hτ.setHandle (hy.trans hx) h
  | put place k value => exact returns_writing hσ (WriteM.returns_put k value) fun _ hτ => hτ
  | delete place k => exact returns_writing hσ (WriteM.returns_delete k) fun _ hτ => hτ
  | begin t =>
      refine returns_pure (hσ.setDraft (fun hd => ?_) t)
      cases hd
      exact Transaction.idle_empty
  | flushDraft t =>
      exact returns_drafting hσ fun {d} hd => Returns.last fun _ => returns_pure hd
  | commit t =>
      refine returns_drafting hσ fun {d} hd => ?_
      have hcommit : Returns d.commit fun a => a.1.Idle :=
        Returns.last fun _ => Returns.last fun _ =>
          returns_pure fun _ ht => absurd ht List.not_mem_nil
      exact hcommit.bind fun a ha => returns_pure ha
  | abandon t => exact returns_drafting hσ fun {d} _ => returns_pure Transaction.idle_empty
  | leave t => exact returns_pure (hσ.setDraft (fun hd => by cases hd) t)
  | writeBatch ws => exact Returns.last fun _ => returns_pure hσ
  | flush => exact Returns.last fun _ => returns_pure hσ
  | sweep h => exact returns_handling hσ fun x _ => Returns.last fun _ => returns_pure hσ

/-- Where a session is after a call: its desk is what the call makes of the
desk there was, and entries that got tokens could be written anew. -/
def After (name : String) (δ : Desk) (c : Call) (σ : Session ν) (ops : List Operation) : Prop :=
  σ.desk (contents ops) = c.effect name δ ∧
    (c.Mints → (IndexKeys.ofName name).Affords δ.held (contents ops))

section Leads

variable {m : KeyMap Bytes} {c : Call} {place : Option Nat} {h : Nat}

/-- Where nothing is done, nothing is different. -/
theorem after_of_idle (hc : c.effect name (σ.desk m) = σ.desk m) :
    ∀ ops, contents ops = m → After name (σ.desk m) c σ ops := by
  rintro ops rfl
  exact ⟨hc.symm, fun _ => Affords.refl _ _⟩

/-- What a call leads to that writes an entry to a place. -/
theorem leads_entry {w : Bytes × Entry} {step : WriteM ν Unit} (hmints : ¬c.Mints)
    (hstep : ∀ s, WriteM.Leads (fun ops T => T.slate ops = s) step
      fun _ ops T => T.slate ops = s.write w)
    (hc : c.effect name (σ.desk m)
      = (σ.desk m).placed place fun s => (σ.desk m).setSlate place (s.write w)) :
    Leads (fun ops => contents ops = m) (σ.writing place step fun _ σ => σ)
      (After name (σ.desk m) c) := by
  unfold Desk.placed at hc
  refine leads_writing (Φ := fun s _ s' => s' = s.write w) hstep _
    (fun hs => after_of_idle (by rw [hc, hs])) fun s a T ops hs hT =>
      ⟨?_, fun h => absurd h hmints⟩
  rw [hc, hs]
  dsimp only
  rw [← hT, desk_setTarget σ place T m]
  rfl

/-- What a call leads to that files a document, or takes one out. -/
theorem leads_filing {x : Index} {step : WriteM ν Index} {f : Slate → Index × Slate}
    (hx : x.keys = IndexKeys.ofName name)
    (hstep : ∀ s, WriteM.Leads (fun ops T => T.slate ops = s) step fun y ops T =>
      (y, T.slate ops) = f s ∧ x.keys.Affords s.held (T.slate ops).held)
    (hc : c.effect name (σ.desk m) = (σ.desk m).placed place fun s =>
      ((σ.desk m).setSlate place (f s).2).setHandle h (f s).1) :
    Leads (fun ops => contents ops = m) (σ.writing place step fun y σ => σ.setHandle h y)
      (After name (σ.desk m) c) := by
  unfold Desk.placed at hc
  refine leads_writing (Φ := fun s y s' => (y, s') = f s ∧ x.keys.Affords s.held s'.held) hstep _
    (fun hs => after_of_idle (by rw [hc, hs])) fun s y T ops hs hT => ?_
  obtain ⟨heq, hafford⟩ := hT
  have hheld : s.held = m := by
    rw [slate_desk] at hs
    obtain ⟨T', -, rfl⟩ := Option.map_eq_some_iff.mp hs
    rfl
  refine ⟨?_, fun _ => ?_⟩
  · rw [hc, hs]
    dsimp only
    rw [← heq, desk_setHandle, desk_setTarget σ place T m]
    rfl
  · rw [hheld, hx] at hafford
    exact hafford

/-- A desk with a handle that is not there stays. -/
theorem handled_none (hx : σ.handles h = none) (f : Index → Desk) :
    (σ.desk m).handled h f = σ.desk m := by
  have hhandle : (σ.desk m).handles h = σ.handles h := rfl
  unfold Desk.handled
  rw [hhandle, hx]

/-- One with a handle is what is made with that. -/
theorem handled_some {x : Index} (hx : σ.handles h = some x) (f : Index → Desk) :
    (σ.desk m).handled h f = f x := by
  have hhandle : (σ.desk m).handles h = σ.handles h := rfl
  unfold Desk.handled
  rw [hhandle, hx]

end Leads

/-- What a call leads to: its effect. -/
theorem leads_run (hσ : σ.Ready name) (c : Call) (m : KeyMap Bytes) :
    Leads (fun ops => contents ops = m) (c.run name σ) (After name (σ.desk m) c) := by
  cases c with
  | openIndex h settings stamp =>
      refine (leads_orFatal _).bind_returns (returns_orFatal fun x hx => hx) fun x hx =>
        leads_pure fun ops h => ⟨?_, False.elim⟩
      rw [h, effect.eq_1, hx]
      rfl
  | token h term raw =>
      refine leads_handling (fun hx => after_of_idle (handled_none hx _)) fun {x} hx => ?_
      refine (leads_tokenOf_at x m term raw).bind fun a => leads_pure fun ops ha => ⟨?_, fun _ => ?_⟩
      · have hheld : (σ.desk m).held = m := rfl
        refine Eq.trans ?_ (handled_some hx _).symm
        dsimp only
        rw [hheld, ← ha.1]
        rfl
      · rw [← hσ.keys hx]
        exact ha.2
  | update h place docId sortKey terms =>
      exact leads_handling (fun hx => after_of_idle (handled_none hx _)) fun {x} hx =>
        leads_filing (hσ.keys hx) (fun s => leads_update_at x docId sortKey terms)
          (handled_some hx _)
  | remove h place docId =>
      exact leads_handling (fun hx => after_of_idle (handled_none hx _)) fun {x} hx =>
        leads_filing (hσ.keys hx) (fun s => leads_remove_at x docId) (handled_some hx _)
  | put place k value =>
      refine leads_entry id (fun s => WriteM.leads_put k value fun ops T h => ?_) rfl
      rw [WriteView.slate_wrote, h]
  | delete place k =>
      refine leads_entry id (fun s => WriteM.leads_delete k fun ops T h => ?_) rfl
      rw [WriteView.slate_wrote, h]
  | begin t =>
      refine leads_pure fun ops h => ⟨?_, False.elim⟩
      rw [h, desk_setDraft]
      rfl
  | flushDraft t =>
      refine (leads_drafting (f := fun p => (m.laid p, .empty)) fun {d} _ =>
        d.leads_flush fun ops h => ?_).mono (fun ops h => h) fun σ' ops h => ⟨h, False.elim⟩
      rw [Transaction.contents_together, h]
  | commit t =>
      refine (leads_drafting (f := fun p => (m.laid p, .empty)) fun {d} hd => ?_).mono
        (fun ops h => h) fun σ' ops h => ⟨h, False.elim⟩
      refine Leads.bind (Q := fun a ops => (contents ops, a.1.pending) = (m.laid d.pending, .empty))
        (d.leads_commit (hσ.idle hd) fun ops _ h _ => ?_) fun a => leads_pure fun ops h => h
      rw [Transaction.contents_together, h]
      rfl
  | abandon t =>
      refine (leads_drafting (f := fun _ => (m, .empty)) fun {d} _ =>
        leads_pure fun ops h => ?_).mono (fun ops h => h) fun σ' ops h => ⟨h, False.elim⟩
      rw [h]
      rfl
  | leave t =>
      refine leads_pure fun ops h => ⟨?_, False.elim⟩
      rw [h, desk_setDraft]
      rfl
  | writeBatch ws =>
      refine Leads.bind (Q := fun _ ops => contents ops = ws.foldl KeyMap.write m)
        (leads_writeBatch (Transaction.single_operation ws) fun ops h => ?_) fun _ =>
          leads_pure fun ops h => ⟨?_, False.elim⟩
      · rw [contents_append, Operation.writesOfAll_together, Transaction.writesOfAll_operation, h]
      · rw [h]
        rfl
  | flush =>
      exact Leads.bind (Q := fun _ ops => contents ops = m) (leads_flush fun ops h => h) fun _ =>
        leads_pure (after_of_idle rfl)
  | sweep h =>
      refine leads_handling (fun hx => after_of_idle (handled_none hx _)) fun {x} hx => ?_
      refine (x.keys.leads_sweep_at x.sweepBatch m).bind fun n => leads_pure fun ops hops =>
        ⟨?_, False.elim⟩
      refine Eq.trans ?_ (handled_some hx _).symm
      rw [hops]
      rfl

end Call

-- ================================================================= courses

open Store Engine

/-- What can come of sessions on a store in a directory: it was opened when
the directory was vacant, calls of some kind were carried out, and it was
closed, or dropped with a log that is read without fault, and opened again.
`earlier` is what was written before it was opened last. -/
inductive Course {ν : Type} (dir : Path) (name : String) (Allowed : Call → Prop) :
    Nat → Session ν → Store → Prop
  | start {v v' : Volume} {settings : Settings} {clock : UInt64} {e : Engine}
      (hv : Vacant v dir) (hopen : openAt settings dir clock v = .ok e v') :
      Course dir name Allowed 0 .blank (opened v' e)
  | call {earlier : Nat} {σ σ' : Session ν} {s s' : Store} {c : Call}
      (hcourse : Course dir name Allowed earlier σ s) (hc : Allowed c)
      (hrun : c.run name σ s = .ok σ' s') : Course dir name Allowed earlier σ' s'
  | closed {earlier : Nat} {σ : Session ν} {s s' : Store} {v : Volume} {settings : Settings}
      {clock : UInt64} {e : Engine} (hcourse : Course dir name Allowed earlier σ s)
      (hclose : Database.close s = .ok () s')
      (hopen : openAt settings dir clock s'.volume = .ok e v) :
      Course dir name Allowed (earlier + s'.written) σ.left (opened v e)
  | dropped {earlier : Nat} {σ : Session ν} {s : Store} {v : Volume} {settings : Settings}
      {clock : UInt64} {e : Engine} (hcourse : Course dir name Allowed earlier σ s)
      (hlog : (Log.scan (s.volume.content s.engine.log.file)).fault = none)
      (hopen : openAt settings dir clock s.volume = .ok e v) :
      Course dir name Allowed (earlier + s.written) σ.left (opened v e)

/-- Carries calls out, one after the other. -/
def Call.runAll {ν : Type} (name : String) : List Call → Session ν → DbM (Session ν)
  | [], σ => return σ
  | c :: cs, σ => do
    let σ ← c.run name σ
    runAll name cs σ

/-- A row of calls goes on with a course. -/
theorem Course.calls {ν : Type} {dir : Path} {name : String} {Allowed : Call → Prop}
    {earlier : Nat} {σ σ' : Session ν} {s s' : Store} {cs : List Call}
    (h : Course dir name Allowed earlier σ s) (hcs : ∀ c ∈ cs, Allowed c)
    (hrun : Call.runAll name cs σ s = .ok σ' s') : Course dir name Allowed earlier σ' s' := by
  induction cs generalizing σ s with
  | nil =>
      cases hrun
      exact h
  | cons c cs ih =>
      obtain ⟨σ₁, s₁, hfirst, hrest⟩ := of_bind_ok hrun
      exact ih (h.call (hcs c List.mem_cons_self) hfirst)
        (fun c' hc' => hcs c' (List.mem_cons_of_mem _ hc')) hrest

/-- After a call keys can be counted, and entries that get tokens can be written
anew. -/
structure Call.HasRoom (name : String) (δ : Desk) (c : Call) : Prop where
  affords : c.Mints → (IndexKeys.ofName name).Affords δ.held (c.effect name δ).held
  size : (c.effect name δ).held.size < UInt64.size

/-- What a desk can come to by such calls: keys can be counted, and entries
that get tokens can be written anew. -/
inductive Reached (name : String) (Allowed : Call → Prop) : Desk → Prop
  | blank : Reached name Allowed .blank
  | call {δ : Desk} {c : Call} (h : Reached name Allowed δ) (hc : Allowed c)
      (hafford : c.Mints → (IndexKeys.ofName name).Affords δ.held (c.effect name δ).held)
      (hsize : (c.effect name δ).held.size < UInt64.size) :
      Reached name Allowed (c.effect name δ)
  | left {δ : Desk} (h : Reached name Allowed δ) : Reached name Allowed δ.left

section Courses

variable {ν : Type} {dir : Path} {name : String} {Allowed : Call → Prop} {earlier : Nat}
  {σ : Session ν} {s : Store}

/-- Where a call leaves a store that is measured: its desk is what the call
makes of the desk there was, and there was room for that. -/
theorem Call.measured_run {τ : Session ν} {s' : Store} {c : Call} {ops : List Operation}
    (hσ : σ.Ready name) (hrun : c.run name σ s = .ok τ s') (hs : s.Measured dir earlier ops)
    (hroom : earlier + s'.written < UInt64.size) :
    ∃ ops', s'.Measured dir earlier ops' ∧
      τ.desk (contents ops') = c.effect name (σ.desk (contents ops)) ∧
      c.HasRoom name (σ.desk (contents ops)) := by
  obtain ⟨-, hlead⟩ := leads_run hσ c (contents ops) s τ s' hrun
  obtain ⟨ops', hs', -, hdesk, hafford⟩ := hlead hs hroom rfl
  have hheld : (c.effect name (σ.desk (contents ops))).held = contents ops' := by
    rw [← hdesk]
    rfl
  refine ⟨ops', hs', hdesk, fun hmints => ?_, ?_⟩
  · rw [hheld]
    exact hafford hmints
  · rw [hheld]
    have hsize := size_contents_le ops'
    have htotal := hs'.total
    omega

/-- A session that is left is ready. -/
theorem Session.ready_left (name : String) (σ : Session ν) : σ.left.Ready name :=
  ⟨nofun, nofun⟩

/-- It is ready wherever a course has come. -/
theorem Course.ready (h : Course dir name Allowed earlier σ s) : σ.Ready name := by
  induction h with
  | start hv hopen => exact Session.ready_blank name
  | call hcourse hc hrun ih => exact Call.returns_run ih _ _ _ _ hrun
  | closed hcourse hclose hopen ih => exact Session.ready_left name _
  | dropped hcourse hlog hopen ih => exact Session.ready_left name _

/-- Where a course has come, its desk on what the database holds is one that
calls lead to. -/
theorem Course.reached (h : Course dir name Allowed earlier σ s)
    (hroom : earlier + s.written < UInt64.size) :
    ∃ ops, s.Measured dir earlier ops ∧ Reached name Allowed (σ.desk (contents ops)) := by
  induction h with
  | @start v v' settings clock e hv hopen =>
      obtain ⟨e₁, v₁, ids, hopen₁, hsound⟩ := hv.openAt_ok settings clock
      rw [hopen] at hopen₁
      cases hopen₁
      exact ⟨[], hsound.measured, .blank⟩
  | @call earlier σ σ' s s' c hcourse hc hrun ih =>
      obtain ⟨hle, -⟩ := Call.leads_run hcourse.ready c KeyMap.empty s σ' s' hrun
      obtain ⟨ops, hs, hreached⟩ := ih (by omega)
      obtain ⟨ops', hs', hdesk, haffords, hsize⟩ :=
        Call.measured_run hcourse.ready hrun hs hroom
      refine ⟨ops', hs', ?_⟩
      rw [hdesk]
      exact .call hreached hc haffords hsize
  | @closed earlier σ s s' v settings clock e hcourse hclose hopen ih =>
      have hflush : Store.flush s = .ok () s' := of_orFatal hclose
      have hwritten := written_flush hflush
      obtain ⟨ops, hs, hreached⟩ := ih (by omega)
      exact ⟨ops, hs.closed hflush (by omega) hopen, hreached.left⟩
  | @dropped earlier σ s v settings clock e hcourse hlog hopen ih =>
      obtain ⟨ops, hs, hreached⟩ := ih (by omega)
      exact ⟨ops, hs.dropped hlog (by omega) hopen, hreached.left⟩

end Courses

end OrderedStore
