/-
What a step of the database leads to.

What a step means is said of the row of operations that were logged: it
leads from rows for which one thing holds to rows for which another does
(`Leads`), if it ends well, as long as what was written to the store is less
than eight digits count. Rules for the steps of the database, and one for
two steps in turn, then take every longer step apart. Where writes go into a
transaction, what is read there is what is pending laid over what the
database reads as (`WriteView.seen`).
-/
import Mathlib
import OrderedStore.Transaction
import OrderedStore.Proofs.Cursors
import OrderedStore.Proofs.Readers
import OrderedStore.Proofs.Written

namespace OrderedStore

-- ============================================================= operations

namespace Operation

/-- Several operations as they are applied together: none, one as it is, or
a batch. -/
def together : List Operation → List Operation
  | [] => []
  | [op] => [op]
  | ops => [.batch ops]

/-- Together they come to the same writes. -/
@[simp] theorem writesOfAll_together (ops : List Operation) :
    writesOfAll (together ops) = writesOfAll ops := by
  match ops with
  | [] => rfl
  | [_] => rfl
  | op :: op' :: rest =>
      show writesOfAll [.batch (op :: op' :: rest)] = _
      rw [writesOfAll_singleton, writes]

end Operation

namespace Store

variable {dir : Path} {earlier : Nat} {s s' : Store} {ops : List Operation} {op : Operation}

/-- An open store in the directory, after `ops` were logged, which take no
more than what was written: `earlier` is what was written in the sessions
before this one. All of them are single writes or batches of such, and they
could be logged. -/
structure Measured (dir : Path) (earlier : Nat) (s : Store) (ops : List Operation) : Prop where
  sound : ∃ ids, s.Sound dir 1 ops ids
  total : Operation.logged ops ≤ earlier + s.written
  logged : ∀ op ∈ ops, op.Flat ∧ op.Loggable

/-- It reads as what the operations leave. -/
theorem Measured.reads (h : s.Measured dir earlier ops) :
    s.engine.view.Reads s.toMemory (contents ops) := by
  obtain ⟨ids, hsound⟩ := h.sound
  exact hsound.reads

/-- A store that was just opened, and nothing was logged. -/
theorem Sound.measured {ids : List UInt64} (h : s.Sound dir 1 [] ids) : s.Measured dir 0 [] :=
  ⟨⟨ids, h⟩, Nat.zero_le _, fun _ hop => absurd hop List.not_mem_nil⟩

/-- An operation that is applied is logged. -/
theorem Measured.apply (h : s.Measured dir earlier ops) (hop : op.Flat)
    (happly : Store.apply op s = .ok () s') (hroom : earlier + s'.written < UInt64.size) :
    s'.Measured dir earlier (ops ++ [op]) ∧ s.Keeps s' := by
  obtain ⟨⟨ids, hsound⟩, hlogged, hall⟩ := h
  have hwritten := (written_apply happly).2 hsound.current
  have htotal : Operation.logged (ops ++ [op]) ≤ earlier + s'.written := by
    have := Operation.logged_le_cost hop
    rw [Operation.logged_append]
    omega
  have hloggable : op.Loggable := by
    by_contra hnot
    rw [apply_refused s hnot] at happly
    cases happly
  obtain ⟨s₁, ids₁, happly₁, hsound₁, hkeeps⟩ := hsound.apply_ok hloggable
    (lt_of_le_of_lt htotal hroom) (room_of_logged (lt_of_le_of_lt htotal hroom))
  rw [happly] at happly₁
  cases happly₁
  refine ⟨⟨⟨ids₁, hsound₁⟩, htotal, fun other hother => ?_⟩, hkeeps⟩
  rcases List.mem_append.mp hother with hother | hother
  · exact hall other hother
  · rw [List.mem_singleton.mp hother]
    exact ⟨hop, hloggable⟩

/-- A flush logs nothing. -/
theorem Measured.flush (h : s.Measured dir earlier ops) (hflush : Store.flush s = .ok () s')
    (hroom : earlier + s'.written < UInt64.size) :
    s'.Measured dir earlier ops ∧ s.Keeps s' := by
  obtain ⟨⟨ids, hsound⟩, hlogged, hall⟩ := h
  have hwritten := written_flush hflush
  have htotal : Operation.logged ops < UInt64.size := by omega
  obtain ⟨s₁, ids₁, hflush₁, hsound₁, hkeeps⟩ := hsound.flush_ok htotal (room_of_logged htotal)
  rw [hflush] at hflush₁
  cases hflush₁
  exact ⟨⟨⟨ids₁, hsound₁⟩, by omega, hall⟩, hkeeps⟩

end Store

-- ================================================================== steps

section Leads

variable {α β : Type} {P P' : List Operation → Prop} {Q Q' : α → List Operation → Prop}
  {R : β → List Operation → Prop} {step : DbM α} {f : α → DbM β}

/-- The step leads from `P` to `Q`. If it ends well, the store has had no
less written to it; and if what was logged before had `P`, what is logged
then has `Q` with what the step answers, and views are kept. -/
def Leads (P : List Operation → Prop) (step : DbM α) (Q : α → List Operation → Prop) : Prop :=
  ∀ (s : Store) (a : α) (s' : Store), step s = .ok a s' → s.written ≤ s'.written ∧
    ∀ {dir : Path} {earlier : Nat} {ops : List Operation}, s.Measured dir earlier ops →
      earlier + s'.written < UInt64.size →
      P ops → ∃ ops', s'.Measured dir earlier ops' ∧ s.Keeps s' ∧ Q a ops'

/-- Nothing is done. -/
theorem leads_pure {a : α} (h : ∀ ops, P ops → Q a ops) : Leads P (pure a : DbM α) Q := by
  rintro s b s' ⟨⟩
  exact ⟨Nat.le_refl _, fun {dir earlier ops} hs _ hP => ⟨ops, hs, Store.Keeps.refl s, h ops hP⟩⟩

/-- What a step answers has a property, whatever it was carried out on. -/
def Returns (step : DbM α) (Φ : α → Prop) : Prop :=
  ∀ (s : Store) (a : α) (s' : Store), step s = .ok a s' → Φ a

/-- A given answer. -/
theorem returns_pure {Φ : α → Prop} {a : α} (h : Φ a) : Returns (pure a : DbM α) Φ := by
  rintro s b s' ⟨⟩
  exact h

/-- The second of two steps answers. -/
theorem Returns.bind {Φ : α → Prop} {Ψ : β → Prop} (h : Returns step Φ)
    (hf : ∀ a, Φ a → Returns (f a) Ψ) : Returns (step >>= f) Ψ := by
  intro s b s'' hrun
  obtain ⟨a, s', hstep, hrest⟩ := of_bind_ok hrun
  exact hf a (h s a s' hstep) s' b s'' hrest

/-- It may not matter what the first one answers. -/
theorem Returns.last {Ψ : β → Prop} (hf : ∀ a, Returns (f a) Ψ) : Returns (step >>= f) Ψ := by
  intro s b s'' hrun
  obtain ⟨a, s', -, hrest⟩ := of_bind_ok hrun
  exact hf a s' b s'' hrest

/-- One step after the other, if it matters what the first one answers. -/
theorem Leads.bind_returns {Φ : α → Prop} (h : Leads P step Q) (hΦ : Returns step Φ)
    (hf : ∀ a, Φ a → Leads (Q a) (f a) R) : Leads P (step >>= f) R := by
  intro s b s'' hrun
  obtain ⟨a, s', hstep, hrest⟩ := of_bind_ok hrun
  obtain ⟨hfirst, hQ⟩ := h s a s' hstep
  obtain ⟨hsecond, hR⟩ := hf a (hΦ s a s' hstep) s' b s'' hrest
  refine ⟨le_trans hfirst hsecond, fun hs hroom hP => ?_⟩
  obtain ⟨ops', hs', hkeeps, hops'⟩ := hQ hs (by omega) hP
  obtain ⟨ops'', hs'', hkeeps', hops''⟩ := hR hs' hroom hops'
  exact ⟨ops'', hs'', hkeeps.trans hkeeps', hops''⟩

/-- One step after the other. -/
theorem Leads.bind (h : Leads P step Q) (hf : ∀ a, Leads (Q a) (f a) R) :
    Leads P (step >>= f) R :=
  h.bind_returns (fun _ _ _ _ => trivial) fun a _ => hf a

/-- More may be asked, and less promised. -/
theorem Leads.mono (h : Leads P step Q) (hP : ∀ ops, P' ops → P ops)
    (hQ : ∀ a ops, Q a ops → Q' a ops) : Leads P' step Q' := by
  intro s a s' hrun
  obtain ⟨hle, hlead⟩ := h s a s' hrun
  refine ⟨hle, fun hs hroom hops => ?_⟩
  obtain ⟨ops', hs', hkeeps, hops'⟩ := hlead hs hroom (hP _ hops)
  exact ⟨ops', hs', hkeeps, hQ _ _ hops'⟩

/-- A fact stays one. -/
theorem Leads.frame (h : Leads P step Q) (φ : Prop) :
    Leads (fun ops => φ ∧ P ops) step fun a ops => φ ∧ Q a ops := by
  intro s a s' hrun
  obtain ⟨hle, hlead⟩ := h s a s' hrun
  refine ⟨hle, fun hs hroom hP => ?_⟩
  obtain ⟨ops', hs', hkeeps, hQ⟩ := hlead hs hroom hP.2
  exact ⟨ops', hs', hkeeps, hP.1, hQ⟩

/-- What is logged is counted all along. -/
theorem Leads.bounded
    (h : Leads (fun ops => P ops ∧ Operation.logged ops < UInt64.size) step Q) :
    Leads P step Q := by
  intro s a s' hrun
  obtain ⟨hle, hlead⟩ := h s a s' hrun
  refine ⟨hle, fun hs hroom hP => hlead hs hroom ⟨hP, ?_⟩⟩
  have := hs.total
  omega

/-- What is logged could be logged. -/
theorem Leads.loggable
    (h : Leads P step fun a ops => (∀ op ∈ ops, op.Loggable) → Q a ops) : Leads P step Q := by
  intro s a s' hrun
  obtain ⟨hle, hlead⟩ := h s a s' hrun
  refine ⟨hle, fun hs hroom hP => ?_⟩
  obtain ⟨ops', hs', hkeeps, hQ⟩ := hlead hs hroom hP
  exact ⟨ops', hs', hkeeps, hQ fun op hop => (hs'.logged op hop).2⟩

/-- A step that leads as it should whichever thing held before leads as it
should if one did. -/
theorem Leads.exists {ι : Type} [Nonempty ι] {P : ι → List Operation → Prop}
    {Q : ι → α → List Operation → Prop} (h : ∀ i, Leads (P i) step (Q i)) :
    Leads (fun ops => ∃ i, P i ops) step fun a ops => ∃ i, Q i a ops := by
  intro s a s' hrun
  refine ⟨(h (Classical.arbitrary ι) s a s' hrun).1, fun hs hroom hP => ?_⟩
  obtain ⟨i, hP⟩ := hP
  obtain ⟨ops', hs', hkeeps, hQ⟩ := (h i s a s' hrun).2 hs hroom hP
  exact ⟨ops', hs', hkeeps, i, hQ⟩

/-- A value is asked for. -/
theorem leads_orFatal (x : Except Failure α) : Leads P (orFatal x) fun _ => P := by
  cases x with
  | ok a => exact leads_pure fun ops hP => hP
  | error f => rintro s a s' ⟨⟩

/-- What is answered then is the value. -/
theorem returns_orFatal {x : Except Failure α} {Φ : α → Prop} (h : ∀ a, x = .ok a → Φ a) :
    Returns (orFatal x) Φ := by
  cases x with
  | ok a => exact returns_pure (h a rfl)
  | error f => rintro s a s' ⟨⟩

/-- What fails leads nowhere. -/
theorem leads_throw (e : Fatal) : Leads P (throw e : DbM α) Q := by
  rintro s a s' ⟨⟩

-- ===================================================== database primitives

/-- A step of the store that ends well as a step of the database. -/
theorem of_orFatal {run : StoreM α} {s s' : Store} {a : α} (h : run.orFatal s = .ok a s') :
    run s = .ok a s' := by
  unfold StoreM.orFatal at h
  cases hrun : run s with
  | error f s₁ =>
      rw [hrun] at h
      cases h
  | ok b s₁ =>
      rw [hrun] at h
      cases h
      rfl

/-- It does end well if it ends well for the store. -/
theorem orFatal_ok {run : StoreM α} {s s' : Store} {a : α} (h : run s = .ok a s') :
    run.orFatal s = .ok a s' := by
  unfold StoreM.orFatal
  rw [h]

/-- A value that was there when it was asked for. -/
theorem of_orFatal_value {x : Except Failure α} {s s' : Store} {a : α}
    (h : orFatal x s = .ok a s') : x = .ok a ∧ s' = s := by
  cases x with
  | ok b =>
      cases h
      exact ⟨rfl, rfl⟩
  | error f => cases h

/-- Something is read from the tables and memtables as they are. -/
theorem Database.reading_eq (read : Memory → Except Failure α) (s : Store) :
    Database.reading read s = orFatal (read s.toMemory) s :=
  bind_get s _

/-- A key is read from the latest view. -/
theorem Database.get_eq (k : Bytes) (s : Store) :
    Database.get k s = orFatal (s.engine.view.get s.toMemory k) s := by
  unfold Database.get StoreM.orFatal Store.get
  rw [bind_get]
  cases s.engine.view.get s.toMemory k <;> rfl

/-- A step of the store that applies one operation. -/
theorem leads_apply {Q : Unit → List Operation → Prop} (op : Operation) (hop : op.Flat)
    (h : ∀ ops, P ops → Q () (ops ++ [op])) : Leads P (Store.apply op).orFatal Q := by
  intro s a s' hrun
  have happly := of_orFatal hrun
  refine ⟨(Store.written_apply happly).1, fun {dir earlier ops} hs hroom hP => ?_⟩
  obtain ⟨hs', hkeeps⟩ := hs.apply hop happly hroom
  exact ⟨ops ++ [op], hs', hkeeps, h ops hP⟩

/-- A flush. -/
theorem leads_flush {Q : Unit → List Operation → Prop} (h : ∀ ops, P ops → Q () ops) :
    Leads P Database.flush Q := by
  intro s a s' hrun
  have hflush := of_orFatal hrun
  refine ⟨le_of_eq (Store.written_flush hflush).symm, fun {dir earlier ops} hs hroom hP => ?_⟩
  obtain ⟨hs', hkeeps⟩ := hs.flush hflush hroom
  exact ⟨ops, hs', hkeeps, h ops hP⟩

/-- A step that reads from the store. -/
theorem leads_of_reads (read : Memory → View → Except Failure α)
    (hrun : ∀ s, step s = orFatal (read s.toMemory s.engine.view) s)
    (h : ∀ ops mem w a, w.Reads mem (contents ops) → read mem w = .ok a → P ops → Q a ops) :
    Leads P step Q := by
  intro s a s' hstep
  rw [hrun] at hstep
  obtain ⟨hread, rfl⟩ := of_orFatal_value hstep
  exact ⟨Nat.le_refl _, fun {dir earlier ops} hs _ hP =>
    ⟨ops, hs, Store.Keeps.refl s', h _ _ _ _ hs.reads hread hP⟩⟩

/-- Getting a key tells what it leads to. -/
theorem leads_get {Q : Option Bytes → List Operation → Prop} (k : Bytes)
    (h : ∀ ops, P ops → Q ((contents ops).find? k) ops) : Leads P (Database.get k) Q := by
  refine leads_of_reads (fun mem w => w.get mem k) (Database.get_eq k) ?_
  intro ops mem w a hreads hget hP
  rw [hreads.get] at hget
  cases hget
  exact h ops hP

/-- Something is read from some view. -/
theorem leads_reading (read : Memory → Except Failure α) (h : ∀ ops a, P ops → Q a ops) :
    Leads P (Database.reading read) Q :=
  leads_of_reads (fun mem _ => read mem) (Database.reading_eq read)
    fun ops _ _ a _ _ hP => h ops a hP

/-- A snapshot is taken. -/
theorem leads_snapshot {Q : View → List Operation → Prop} (h : ∀ ops w, P ops → Q w ops) :
    Leads P Database.snapshot Q :=
  leads_of_reads (fun _ w => .ok w) (fun _ => rfl) fun ops _ _ _ _ _ hP => h ops _ hP

/-- A key is written. -/
theorem leads_put {Q : Unit → List Operation → Prop} (k value : Bytes)
    (h : ∀ ops, P ops → Q () (ops ++ [.put k value])) : Leads P (Database.put k value) Q :=
  leads_apply (.put k value) trivial h

/-- A key is deleted. -/
theorem leads_delete {Q : Unit → List Operation → Prop} (k : Bytes)
    (h : ∀ ops, P ops → Q () (ops ++ [.delete k])) : Leads P (Database.delete k) Q :=
  leads_apply (.delete k) trivial h

/-- Several writes are applied as one. -/
theorem leads_writeBatch {Q : Unit → List Operation → Prop} {ws : List Operation}
    (hws : ∀ op ∈ ws, op.Single) (h : ∀ ops, P ops → Q () (ops ++ Operation.together ws)) :
    Leads P (Database.writeBatch ws) Q := by
  match ws with
  | [] =>
      refine leads_pure fun ops hP => ?_
      have := h ops hP
      rwa [Operation.together, List.append_nil] at this
  | [op] => exact leads_apply op (hws op (List.mem_singleton_self op)).flat h
  | op :: op' :: rest =>
      have hflat : (Operation.batch (op :: op' :: rest)).Flat := ⟨List.cons_ne_nil _ _, hws⟩
      exact leads_apply _ hflat h

/-- What is made of the latest state is written as one batch. -/
theorem leads_readModifyWrite
    {choose : Memory → View → Except Failure (List Operation × α)}
    (hsingle : ∀ mem w ops a, choose mem w = .ok (ops, a) → ∀ op ∈ ops, op.Single)
    (h : ∀ ops mem w a, w.Reads mem (contents ops) → choose mem w = .ok ([], a) → P ops → Q a ops)
    (h' : ∀ ops mem w op rest a, w.Reads mem (contents ops) →
      choose mem w = .ok (op :: rest, a) → P ops → Q a (ops ++ [.batch (op :: rest)])) :
    Leads P (Database.readModifyWrite choose) Q := by
  intro s a s' hrun
  have hmodify := of_orFatal hrun
  match hchoose : choose s.toMemory s.engine.view with
  | .error f =>
      rw [Store.readModifyWrite_declined hchoose] at hmodify
      cases hmodify
  | .ok ([], b) =>
      rw [Store.readModifyWrite_none hchoose] at hmodify
      cases hmodify
      exact ⟨Nat.le_refl _, fun {dir earlier ops} hs _ hP =>
        ⟨ops, hs, Store.Keeps.refl s, h _ _ _ _ hs.reads hchoose hP⟩⟩
  | .ok (op :: rest, b) =>
      rw [Store.readModifyWrite_some hchoose] at hmodify
      obtain ⟨u, s₁, happly, hrest⟩ := of_bind_ok hmodify
      cases hrest
      have hflat : (Operation.batch (op :: rest)).Flat :=
        ⟨List.cons_ne_nil _ _, hsingle _ _ _ _ hchoose⟩
      refine ⟨(Store.written_apply happly).1, fun {dir earlier ops} hs hroom hP => ?_⟩
      obtain ⟨hs', hkeeps⟩ := hs.apply hflat happly hroom
      exact ⟨ops ++ [.batch (op :: rest)], hs', hkeeps, h' _ _ _ _ _ _ hs.reads hchoose hP⟩

end Leads

-- =========================================================== transactions

namespace Transaction

variable {ν : Type} {t : Transaction ν} {P : List Operation → Prop}

/-- The transaction's triggers do nothing but give notice. -/
def Idle (t : Transaction ν) : Prop :=
  ∀ trigger ∈ t.triggers, ∃ notice : Notice ν, trigger = (pure notice : DbM (Notice ν))

/-- With no triggers there is nothing to do. -/
theorem idle_empty : (empty : Transaction ν).Idle :=
  fun _ ht => absurd ht List.not_mem_nil

/-- One more trigger that gives notice. -/
theorem Idle.addTrigger (h : t.Idle) (key : String) (notice : Notice ν) :
    (t.addTrigger key (pure notice : DbM (Notice ν))).Idle := by
  intro trigger ht
  rcases List.mem_append.mp ht with hkeyed | hothers
  · obtain ⟨p, hp, rfl⟩ := List.mem_map.mp hkeyed
    rcases mem_keys_of_mem_insertSorted hp with rfl | hp
    · exact ⟨notice, rfl⟩
    · exact h _ (List.mem_append_left _ (List.mem_map_of_mem hp))
  · exact h _ (List.mem_append_right _ hothers)

/-- What a write makes of the operations and of the map they leave. -/
theorem contents_operation (ops : List Operation) (w : Bytes × Entry) :
    contents (ops ++ [operation w]) = (contents ops).write w := by
  obtain ⟨k, e⟩ := w
  rw [contents_append, Operation.writesOfAll_singleton]
  cases e <;> rfl

/-- Pending entries stand for single writes. -/
theorem single_operation (ws : List (Bytes × Entry)) :
    ∀ op ∈ ws.map operation, op.Single := by
  intro op hop
  obtain ⟨⟨k, e⟩, -, rfl⟩ := List.mem_map.mp hop
  cases e <;> trivial

/-- Pending entries come to the writes that they stand for. -/
theorem writesOfAll_operation (ws : List (Bytes × Entry)) :
    Operation.writesOfAll (ws.map operation) = ws := by
  induction ws with
  | nil => rfl
  | cons w ws ih =>
      obtain ⟨k, e⟩ := w
      rw [List.map_cons, Operation.writesOfAll, ih]
      cases e <;> rfl

/-- Together they are one operation at most, and one if there are any. -/
theorem length_together (ws : List (Bytes × Entry)) :
    (Operation.together (ws.map operation)).length = if ws = [] then 0 else 1 := by
  match ws with
  | [] => rfl
  | [_] => rfl
  | _ :: _ :: _ => rfl

/-- Pending entries that are applied together are laid over the map. -/
theorem contents_together (ops : List Operation) (p : Pending) :
    contents (ops ++ Operation.together (p.entries.map operation)) = (contents ops).laid p := by
  rw [contents_append, Operation.writesOfAll_together, writesOfAll_operation]
  rfl

/-- Triggers that do nothing lead nowhere else. -/
theorem leads_triggers {triggers : List (Trigger ν)}
    (h : ∀ trigger ∈ triggers, ∃ notice : Notice ν, trigger = (pure notice : DbM (Notice ν))) :
    Leads P (triggers.mapM id) fun _ => P := by
  induction triggers with
  | nil => exact leads_pure fun ops hP => hP
  | cons trigger triggers ih =>
      obtain ⟨notice, rfl⟩ := h trigger List.mem_cons_self
      rw [List.mapM_cons]
      refine Leads.bind (leads_pure (Q := fun _ => P) fun ops hP => hP) fun _ => ?_
      refine Leads.bind (ih fun trigger ht => h trigger (List.mem_cons_of_mem _ ht)) fun _ => ?_
      exact leads_pure fun ops hP => hP

/-- Flushing applies the pending entries together. -/
theorem leads_flush {Q : Transaction ν → List Operation → Prop}
    (h : ∀ ops, P ops → Q { t with pending := KeyMap.empty, mutations := 0 }
      (ops ++ Operation.together (t.pending.entries.map operation))) :
    Leads P t.flush Q :=
  Leads.bind (Q := fun _ ops => Q { t with pending := KeyMap.empty, mutations := 0 } ops)
    (leads_writeBatch (single_operation _) h) fun _ => leads_pure fun _ hQ => hQ

/-- So does committing, and nothing is left of the transaction. -/
theorem leads_commit (hidle : t.Idle) {Q : Transaction ν × List (Notice ν) → List Operation → Prop}
    (h : ∀ ops notices, P ops → Operation.logged ops < UInt64.size →
      Q (empty, notices) (ops ++ Operation.together (t.pending.entries.map operation))) :
    Leads P t.commit Q := by
  have hflush : Leads (fun ops => P ops ∧ Operation.logged ops < UInt64.size) t.flush
      fun t' ops' => t' = { t with pending := KeyMap.empty, mutations := 0 } ∧
        ∀ notices, Q (empty, notices) ops' :=
    leads_flush fun ops hP => ⟨rfl, fun notices => h ops notices hP.1 hP.2⟩
  refine Leads.bounded (hflush.bind fun t' => (leads_triggers hidle).bind fun notices => ?_)
  refine leads_pure fun ops hQ => ?_
  obtain ⟨rfl, hQ⟩ := hQ
  exact hQ notices

/-- A key that is not pending is looked up in the database. -/
theorem leads_get {Q : Option Bytes → List Operation → Prop} (t : Transaction ν) (k : Bytes)
    (h : ∀ ops, P ops → Q (((contents ops).laid t.pending).find? k) ops) :
    Leads P (t.get k) Q := by
  unfold Transaction.get
  cases hfound : t.pending.find? k with
  | some e =>
      refine leads_pure fun ops hP => ?_
      have hQ := h ops hP
      rwa [KeyMap.find?_laid, hfound] at hQ
  | none =>
      refine OrderedStore.leads_get k fun ops hP => ?_
      have hQ := h ops hP
      rw [KeyMap.find?_laid, hfound, Option.none_or] at hQ
      unfold KeyMap.entry at hQ
      cases hv : (contents ops).find? k with
      | none => rwa [hv] at hQ
      | some v => rwa [hv] at hQ

end Transaction

-- ======================================================= where writes go

namespace WriteView

variable {ν : Type}

/-- The map that is read where the writes go. -/
def seen (T : WriteView ν) (ops : List Operation) : KeyMap Bytes :=
  match T with
  | .database => contents ops
  | .transaction t => (contents ops).laid t.pending

/-- What is logged when an entry is written. -/
def logs (T : WriteView ν) (ops : List Operation) (w : Bytes × Entry) : List Operation :=
  match T with
  | .database => ops ++ [Transaction.operation w]
  | .transaction _ => ops

/-- Where the writes go from then on. -/
def wrote (T : WriteView ν) (w : Bytes × Entry) : WriteView ν :=
  match T with
  | .database => .database
  | .transaction t => .transaction (t.buffer w.1 w.2)

/-- The same when a trigger is added. -/
def triggered (T : WriteView ν) (key : String) (trigger : Trigger ν) : WriteView ν :=
  match T with
  | .database => .database
  | .transaction t => .transaction (t.addTrigger key trigger)

/-- The triggers that wait do nothing but give notice. -/
def Idle (T : WriteView ν) : Prop :=
  match T with
  | .database => True
  | .transaction t => t.Idle

/-- The entry that is written is seen. -/
theorem seen_wrote (T : WriteView ν) (ops : List Operation) (w : Bytes × Entry) :
    (T.wrote w).seen (T.logs ops w) = (T.seen ops).write w := by
  cases T with
  | database => exact Transaction.contents_operation ops w
  | transaction t =>
      refine KeyMap.ext_find? fun k => ?_
      show ((contents ops).laid (t.pending.insert w.1 w.2)).find? k
        = ([w].foldl KeyMap.write ((contents ops).laid t.pending)).find? k
      rw [find?_foldl_write, KeyMap.find?_laid, KeyMap.find?_insert, KeyMap.find?_laid]
      obtain ⟨l, e⟩ := w
      have hone : lastWrite [(l, e)] k = if k = l then some e else none := lastWrite_concat [] _ k
      rw [hone]
      split
      · rfl
      · rw [Option.none_or]
        cases ((t.pending.find? k).or ((contents ops).entry k)).bind Entry.value? <;> rfl

/-- A trigger is not seen. -/
@[simp] theorem seen_triggered (T : WriteView ν) (key : String) (trigger : Trigger ν)
    (ops : List Operation) : (T.triggered key trigger).seen ops = T.seen ops := by
  cases T <;> rfl

end WriteView

namespace WriteM

variable {ν α β : Type} {P P' : List Operation → WriteView ν → Prop}
  {Q Q' : α → List Operation → WriteView ν → Prop} {R : β → List Operation → WriteView ν → Prop}
  {step : WriteM ν α} {f : α → WriteM ν β}

/-- What a step leads to that writes somewhere: the same, with where the
writes go. -/
def Leads (P : List Operation → WriteView ν → Prop) (step : WriteM ν α)
    (Q : α → List Operation → WriteView ν → Prop) : Prop :=
  ∀ w : Writing ν, OrderedStore.Leads (fun ops => P ops w.target) (step.run w)
    fun a ops => Q a.1 ops a.2.target

/-- Nothing is done. -/
theorem leads_pure {a : α} (h : ∀ ops T, P ops T → Q a ops T) : Leads P (pure a : WriteM ν α) Q :=
  fun w => OrderedStore.leads_pure fun ops hP => h ops w.target hP

/-- One step after the other. -/
theorem Leads.bind (h : Leads P step Q) (hf : ∀ a, Leads (Q a) (f a) R) :
    Leads P (step >>= f) R := by
  intro w
  rw [StateT.run_bind]
  exact OrderedStore.Leads.bind (h w) fun a => hf a.1 a.2

/-- What a step answers has a property, whatever it was carried out on; and
if the triggers that wait do nothing but give notice, those that wait
afterwards do not either. -/
def Returns (step : WriteM ν α) (Φ : α → Prop) : Prop :=
  ∀ w : Writing ν, OrderedStore.Returns (step.run w) fun a =>
    Φ a.1 ∧ (w.target.Idle → a.2.target.Idle)

/-- A given answer. -/
theorem returns_pure {Φ : α → Prop} {a : α} (h : Φ a) : Returns (pure a : WriteM ν α) Φ :=
  fun _ => OrderedStore.returns_pure ⟨h, id⟩

/-- The second of two steps answers. -/
theorem Returns.bind {Φ : α → Prop} {Ψ : β → Prop} (h : Returns step Φ)
    (hf : ∀ a, Φ a → Returns (f a) Ψ) : Returns (step >>= f) Ψ := by
  intro w
  rw [StateT.run_bind]
  refine OrderedStore.Returns.bind (h w) fun a ha s b s' hrun => ?_
  obtain ⟨hΨ, hidle⟩ := hf a.1 ha.1 a.2 s b s' hrun
  exact ⟨hΨ, fun hw => hidle (ha.2 hw)⟩

/-- A step of the database answers. -/
theorem returns_lift {db : DbM α} {Φ : α → Prop} (h : OrderedStore.Returns db Φ) :
    Returns (liftM db : WriteM ν α) Φ :=
  fun _ => OrderedStore.Returns.bind h fun _ ha => OrderedStore.returns_pure ⟨ha, id⟩

/-- A key is got. -/
theorem returns_get (k : Bytes) : Returns (WriteM.get k : WriteM ν (Option Bytes))
    fun _ => True := by
  rintro ⟨T, notices⟩
  cases T with
  | database => exact OrderedStore.Returns.last fun _ => OrderedStore.returns_pure ⟨trivial, id⟩
  | transaction t =>
      exact OrderedStore.Returns.last fun _ => OrderedStore.returns_pure ⟨trivial, id⟩

/-- A key is written. -/
theorem returns_put (k value : Bytes) : Returns (WriteM.put k value : WriteM ν Unit)
    fun _ => True := by
  rintro ⟨T, notices⟩
  cases T with
  | database => exact OrderedStore.Returns.last fun _ => OrderedStore.returns_pure ⟨trivial, id⟩
  | transaction t => exact OrderedStore.returns_pure ⟨trivial, id⟩

/-- A key is deleted. -/
theorem returns_delete (k : Bytes) : Returns (WriteM.delete k : WriteM ν Unit)
    fun _ => True := by
  rintro ⟨T, notices⟩
  cases T with
  | database => exact OrderedStore.Returns.last fun _ => OrderedStore.returns_pure ⟨trivial, id⟩
  | transaction t => exact OrderedStore.returns_pure ⟨trivial, id⟩

/-- A trigger is left that does nothing but give notice. -/
theorem returns_afterCommit (key : String) (notice : Notice ν) :
    Returns (WriteM.afterCommit key (pure notice : DbM (Notice ν))) fun _ => True := by
  rintro ⟨T, notices⟩
  cases T with
  | database => exact OrderedStore.returns_pure ⟨trivial, id⟩
  | transaction t =>
      exact OrderedStore.returns_pure ⟨trivial, fun h => Transaction.Idle.addTrigger h key notice⟩

/-- A step that is made for each of a row. -/
theorem returns_forM {γ : Type} {g : γ → WriteM ν PUnit} (h : ∀ x, Returns (g x) fun _ => True)
    (xs : List γ) : Returns (xs.forM g) fun _ => True := by
  induction xs with
  | nil => exact returns_pure trivial
  | cons x xs ih => exact (h x).bind fun _ _ => ih

/-- One step after the other, if it matters what the first one answers. -/
theorem Leads.bind_returns {Φ : α → Prop} (h : Leads P step Q) (hΦ : Returns step Φ)
    (hf : ∀ a, Φ a → Leads (Q a) (f a) R) : Leads P (step >>= f) R := by
  intro w
  rw [StateT.run_bind]
  exact OrderedStore.Leads.bind_returns (h w) (hΦ w) fun a ha => hf a.1 ha.1 a.2

/-- A step that leads as it should whichever thing held before leads as it
should if one did. -/
theorem Leads.exists {ι : Type} [Nonempty ι] {P : ι → List Operation → WriteView ν → Prop}
    {Q : ι → α → List Operation → WriteView ν → Prop} (h : ∀ i, Leads (P i) step (Q i)) :
    Leads (fun ops T => ∃ i, P i ops T) step fun a ops T => ∃ i, Q i a ops T :=
  fun w => OrderedStore.Leads.exists fun i => h i w

/-- More may be asked, and less promised. -/
theorem Leads.mono (h : Leads P step Q) (hP : ∀ ops T, P' ops T → P ops T)
    (hQ : ∀ a ops T, Q a ops T → Q' a ops T) : Leads P' step Q' :=
  fun w => OrderedStore.Leads.mono (h w) (fun ops => hP ops w.target)
    fun a ops => hQ a.1 ops a.2.target

/-- A fact stays one. -/
theorem Leads.frame (h : Leads P step Q) (φ : Prop) :
    Leads (fun ops T => φ ∧ P ops T) step fun a ops T => φ ∧ Q a ops T :=
  fun w => OrderedStore.Leads.frame (h w) φ

/-- What is seen and what the database holds before a step can be spoken of
after it. -/
theorem Leads.remember
    (h : ∀ seen held : KeyMap Bytes,
      Leads (fun ops T => (T.seen ops = seen ∧ contents ops = held) ∧ P ops T) step Q) :
    Leads P step Q := by
  have : Nonempty (KeyMap Bytes × KeyMap Bytes) := ⟨⟨KeyMap.empty, KeyMap.empty⟩⟩
  refine (Leads.exists fun i : KeyMap Bytes × KeyMap Bytes => h i.1 i.2).mono
    (fun ops T hP => ⟨⟨T.seen ops, contents ops⟩, ⟨rfl, rfl⟩, hP⟩) fun a ops T hQ => ?_
  obtain ⟨-, hQ⟩ := hQ
  exact hQ

/-- A step that is made for each of a row, one after the other. `I` is what
holds when those in front have been gone through. -/
theorem leads_forM {γ : Type} (I : List γ → List Operation → WriteView ν → Prop)
    {g : γ → WriteM ν PUnit} (xs : List γ)
    (h : ∀ front, ∀ x ∈ xs, Leads (I front) (g x) fun _ => I (front ++ [x])) :
    Leads (I []) (xs.forM g) fun _ => I xs := by
  have hall (front : List γ) : Leads (I front) (xs.forM g) fun _ => I (front ++ xs) := by
    induction xs generalizing front with
    | nil =>
        rw [List.append_nil]
        exact leads_pure fun ops T hI => hI
    | cons x xs ih =>
        have hsplit : front ++ x :: xs = front ++ [x] ++ xs := by
          rw [List.append_assoc]
          rfl
        rw [hsplit]
        refine (h front x List.mem_cons_self).bind fun _ => ?_
        exact ih (fun front y hy => h front y (List.mem_cons_of_mem _ hy)) (front ++ [x])
  exact hall []

/-- A step of the database, after which the writes go on elsewhere. -/
theorem leads_then {P : List Operation → Prop} {db : DbM α} (w : Writing ν)
    (h : OrderedStore.Leads P db fun a ops => Q a ops w.target) :
    OrderedStore.Leads P (db >>= fun a => pure (a, w)) fun a ops => Q a.1 ops a.2.target :=
  OrderedStore.Leads.bind h fun _ => OrderedStore.leads_pure fun _ hQ => hQ

/-- A step of the database changes the database. -/
theorem leads_lift {db : DbM α}
    (h : ∀ T, OrderedStore.Leads (fun ops => P ops T) db fun a ops => Q a ops T) :
    Leads P (liftM db : WriteM ν α) Q :=
  fun w => leads_then w (h w.target)

/-- Getting a key tells what it leads to where the writes go. -/
theorem leads_get {Q : Option Bytes → List Operation → WriteView ν → Prop} (k : Bytes)
    (h : ∀ ops T, P ops T → Q ((T.seen ops).find? k) ops T) :
    Leads P (WriteM.get k) Q := by
  rintro ⟨T, notices⟩
  cases T with
  | database => exact leads_then _ (OrderedStore.leads_get k fun ops hP => h ops .database hP)
  | transaction t => exact leads_then _ (t.leads_get k fun ops hP => h ops (.transaction t) hP)

/-- A key is written where the writes go. -/
theorem leads_put {Q : Unit → List Operation → WriteView ν → Prop} (k value : Bytes)
    (h : ∀ ops T, P ops T → Q () (T.logs ops (k, .value value)) (T.wrote (k, .value value))) :
    Leads P (WriteM.put k value) Q := by
  rintro ⟨T, notices⟩
  cases T with
  | database =>
      exact leads_then _ (OrderedStore.leads_put k value fun ops hP => h ops .database hP)
  | transaction t => exact OrderedStore.leads_pure fun ops hP => h ops _ hP

/-- A key is deleted there. -/
theorem leads_delete {Q : Unit → List Operation → WriteView ν → Prop} (k : Bytes)
    (h : ∀ ops T, P ops T → Q () (T.logs ops (k, .tombstone)) (T.wrote (k, .tombstone))) :
    Leads P (WriteM.delete k) Q := by
  rintro ⟨T, notices⟩
  cases T with
  | database =>
      exact leads_then _ (OrderedStore.leads_delete k fun ops hP => h ops .database hP)
  | transaction t => exact OrderedStore.leads_pure fun ops hP => h ops _ hP

/-- A trigger is left that does nothing but give notice. -/
theorem leads_afterCommit {Q : Unit → List Operation → WriteView ν → Prop} (key : String)
    (notice : Notice ν)
    (h : ∀ ops T, P ops T → Q () ops (T.triggered key (pure notice : DbM (Notice ν)))) :
    Leads P (WriteM.afterCommit key (pure notice : DbM (Notice ν))) Q := by
  rintro ⟨T, notices⟩
  cases T with
  | database => exact OrderedStore.leads_pure fun ops hP => h ops _ hP
  | transaction t => exact OrderedStore.leads_pure fun ops hP => h ops _ hP

/-- Writes that are run on a target lead where they lead. -/
theorem Leads.runOn (h : Leads P step Q) (T : WriteView ν) :
    OrderedStore.Leads (fun ops => P ops T) (step.runOn T) fun a ops => Q a.1 ops a.2.1 :=
  OrderedStore.Leads.bind (h ⟨T, []⟩) fun _ => OrderedStore.leads_pure fun _ hQ => hQ

/-- They answer what they answer, and triggers go on only giving notice. -/
theorem Returns.runOn {Φ : α → Prop} (h : Returns step Φ) (T : WriteView ν) :
    OrderedStore.Returns (step.runOn T) fun a => Φ a.1 ∧ (T.Idle → a.2.1.Idle) :=
  OrderedStore.Returns.bind (h ⟨T, []⟩) fun _ ha => OrderedStore.returns_pure ha

end WriteM

end OrderedStore
