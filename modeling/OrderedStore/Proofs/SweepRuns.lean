/-
What a sweep does to a store, however it ends.

A sweep counts on a snapshot and writes to the latest state, so what is known
between two of its steps is about the store as well as about what was logged:
that the snapshot shows a certain map (`Store.Shows`). And it matters how a
step fails, if it does. `Runs` says both of a step: what holds if it ends
well, and what is true of the failure if not. A rule for each of the steps
that a sweep is made of, or the giving of a token, says which failures there
are. Reading does not fail on a sound store. Writing fails if the record is too large for the log,
or if there is no room left to count what is written.

So a sweep leaves what was computed on maps (`swept`), or it fails on a record
that is too large, and where no such record can come up it does not fail
(`runs_sweep`).
-/
import Mathlib
import OrderedStore.Proofs.Recounts

namespace OrderedStore

namespace Store

variable {dir : Path} {earlier : Nat} {s s' : Store} {ops : List Operation} {op : Operation}
  {f : Failure} {w : View} {m : KeyMap Bytes}

-- ================================================================ failures

/-- A flush that fails writes nothing to memtables either. -/
theorem written_flush_error (h : flush s = .error f s') : s'.written = s.written := by
  rcases of_flush_error h with hturn | ⟨s₁, hturn, htruncate⟩
  · obtain ⟨catalog, v, rfl⟩ := of_turnOver_error hturn
    rfl
  · obtain ⟨catalog, v, -, rfl⟩ := of_turnOver_ok hturn
    obtain ⟨v', -, rfl⟩ := Disk.of_onStore_error htruncate
    exact sum_bulk_concat_empty s.memtables

/-- What an operation that fails after it was logged has added to what was
written. -/
theorem written_apply_error (h : apply op s = .error f s') :
    s.written ≤ s'.written ∧ (op.Loggable → s.engine.memtable < s.memtables.length →
      s'.written = s.written + Memtable.cost op.writes) := by
  rcases of_apply_error h with ⟨hop, rfl⟩ | hflush
  · exact ⟨Nat.le_refl _, fun hop' => absurd hop' hop⟩
  · rw [written_flush_error hflush]
    exact ⟨(written_recorded s op).1, fun _ => (written_recorded s op).2⟩

/-- An operation fails because its record is too large, as long as what is
written can be counted. -/
theorem Measured.apply_error (h : s.Measured dir earlier ops) (hop : op.Flat)
    (happly : Store.apply op s = .error f s') (hroom : earlier + s'.written < UInt64.size) :
    ¬op.Loggable ∧ ∃ n, f = .recordTooLarge n := by
  obtain ⟨⟨ids, hsound⟩, htotal, -⟩ := h
  by_cases hloggable : op.Loggable
  · have hwritten := (written_apply_error happly).2 hloggable hsound.current
    have hlogged : Operation.logged (ops ++ [op]) < UInt64.size := by
      have := Operation.logged_le_cost hop
      rw [Operation.logged_append]
      omega
    obtain ⟨s₁, ids₁, hok, -⟩ := hsound.apply_ok hloggable hlogged (room_of_logged hlogged)
    rw [hok] at happly
    cases happly
  · refine ⟨hloggable, ?_⟩
    rw [apply_refused s hloggable] at happly
    cases happly
    exact ⟨_, rfl⟩

-- =============================================================== snapshots

/-- The view shows the map, whatever is done to the store. -/
def Shows (s : Store) (w : View) (m : KeyMap Bytes) : Prop :=
  ∃ g, s.Pins w g ∧ ∀ k, (g k).bind Entry.value? = m.find? k

/-- It goes on showing it. -/
theorem Shows.keeps (h : s.Shows w m) (hkeeps : s.Keeps s') : s'.Shows w m := by
  obtain ⟨g, hpins, hm⟩ := h
  exact ⟨g, hkeeps w g hpins, hm⟩

/-- The view reads as the map. -/
theorem Shows.reads (h : s.Shows w m) (hs : s.Measured dir earlier ops) :
    w.Reads s.toMemory m := by
  obtain ⟨g, hpins, hm⟩ := h
  obtain ⟨ids, hsound⟩ := hs.sound
  exact hpins.reads hsound hm

/-- A snapshot shows what was logged. -/
theorem Measured.shows (h : s.Measured dir earlier ops) :
    s.Shows s.engine.view (contents ops) := by
  obtain ⟨ids, hsound⟩ := h.sound
  exact ⟨_, hsound.pins, fun k => (find?_contents ops k).symm⟩

end Store

-- ================================================================== running

section Runs

variable {α β : Type} {P P' : Store → List Operation → Prop}
  {Q Q' : α → Store → List Operation → Prop} {R : β → Store → List Operation → Prop}
  {E : Failure → Prop} {step : DbM α} {f : α → DbM β}

/-- The step leads from `P` to `Q` if it ends well, and to a failure with `E`
if it does not. What was written to the store becomes no less in any case,
and the rest holds as long as it can be counted. -/
structure Runs (P : Store → List Operation → Prop) (step : DbM α)
    (Q : α → Store → List Operation → Prop) (E : Failure → Prop) : Prop where
  ends : ∀ {s a s'}, step s = .ok a s' → s.written ≤ s'.written ∧
    ∀ {dir earlier ops}, s.Measured dir earlier ops → earlier + s'.written < UInt64.size →
      P s ops → ∃ ops', s'.Measured dir earlier ops' ∧ s.Keeps s' ∧ Q a s' ops'
  fails : ∀ {s e s'}, step s = .error e s' → s.written ≤ s'.written ∧
    ∀ {dir earlier ops}, s.Measured dir earlier ops → earlier + s'.written < UInt64.size →
      P s ops → E e.cause

/-- Without regard to the store it leads where it leads. -/
theorem Runs.leads {P : List Operation → Prop} {Q : α → List Operation → Prop}
    (h : Runs (fun _ => P) step (fun a _ => Q a) E) : Leads P step Q :=
  fun _ _ _ hstep => h.ends hstep

/-- Nothing is done. -/
theorem runs_pure {a : α} (h : ∀ s ops, P s ops → Q a s ops) : Runs P (pure a : DbM α) Q E := by
  refine ⟨?_, ?_⟩
  · rintro s b s' ⟨⟩
    exact ⟨Nat.le_refl _, fun {dir earlier ops} hs _ hP =>
      ⟨ops, hs, Store.Keeps.refl s, h s ops hP⟩⟩
  · rintro s e s' ⟨⟩

/-- What is thrown is thrown. -/
theorem runs_throw {e : Fatal} (h : ∀ s ops, P s ops → E e.cause) :
    Runs P (throw e : DbM α) Q E := by
  refine ⟨?_, ?_⟩
  · rintro s b s' ⟨⟩
  · rintro s e s' ⟨⟩
    exact ⟨Nat.le_refl _, fun {dir earlier ops} _ _ hP => h s ops hP⟩

/-- One step after the other. -/
theorem Runs.bind (h : Runs P step Q E) (hf : ∀ a, Runs (Q a) (f a) R E) :
    Runs P (step >>= f) R E := by
  refine ⟨fun {s b s''} hrun => ?_, fun {s e s''} hrun => ?_⟩
  · obtain ⟨a, s', hstep, hrest⟩ := of_bind_ok hrun
    obtain ⟨hfirst, hQ⟩ := h.ends hstep
    obtain ⟨hsecond, hR⟩ := (hf a).ends hrest
    refine ⟨le_trans hfirst hsecond, fun hs hroom hP => ?_⟩
    obtain ⟨ops', hs', hkeeps, hops'⟩ := hQ hs (by omega) hP
    obtain ⟨ops'', hs'', hkeeps', hops''⟩ := hR hs' hroom hops'
    exact ⟨ops'', hs'', hkeeps.trans hkeeps', hops''⟩
  · rcases of_bind_error hrun with hstep | ⟨a, s', hstep, hrest⟩
    · exact h.fails hstep
    · obtain ⟨hfirst, hQ⟩ := h.ends hstep
      obtain ⟨hsecond, hE⟩ := (hf a).fails hrest
      refine ⟨le_trans hfirst hsecond, fun hs hroom hP => ?_⟩
      obtain ⟨ops', hs', -, hops'⟩ := hQ hs (by omega) hP
      exact hE hs' hroom hops'

/-- More may be asked, and less promised. -/
theorem Runs.mono (h : Runs P step Q E) (hP : ∀ s ops, P' s ops → P s ops)
    (hQ : ∀ a s ops, Q a s ops → Q' a s ops) : Runs P' step Q' E := by
  refine ⟨fun {s a s'} hrun => ?_, fun {s e s'} hrun => ?_⟩
  · obtain ⟨hle, hlead⟩ := h.ends hrun
    refine ⟨hle, fun hs hroom hops => ?_⟩
    obtain ⟨ops', hs', hkeeps, hops'⟩ := hlead hs hroom (hP _ _ hops)
    exact ⟨ops', hs', hkeeps, hQ _ _ _ hops'⟩
  · obtain ⟨hle, hlead⟩ := h.fails hrun
    exact ⟨hle, fun hs hroom hops => hlead hs hroom (hP _ _ hops)⟩

/-- Less may be said of a failure, given where the step began. -/
theorem Runs.mono_fails {E' : Failure → Prop} (h : Runs P step Q E)
    (hE : ∀ s ops, P s ops → ∀ f, E f → E' f) : Runs P step Q E' := by
  refine ⟨h.ends, fun {s e s'} hrun => ?_⟩
  obtain ⟨hle, hlead⟩ := h.fails hrun
  exact ⟨hle, fun hs hroom hops => hE _ _ hops _ (hlead hs hroom hops)⟩

/-- A fact stays one. -/
theorem Runs.frame (h : Runs P step Q E) (φ : Prop) :
    Runs (fun s ops => φ ∧ P s ops) step (fun a s ops => φ ∧ Q a s ops) E := by
  refine ⟨fun {s a s'} hrun => ?_, fun {s e s'} hrun => ?_⟩
  · obtain ⟨hle, hlead⟩ := h.ends hrun
    refine ⟨hle, fun hs hroom hops => ?_⟩
    obtain ⟨ops', hs', hkeeps, hops'⟩ := hlead hs hroom hops.2
    exact ⟨ops', hs', hkeeps, hops.1, hops'⟩
  · obtain ⟨hle, hlead⟩ := h.fails hrun
    exact ⟨hle, fun hs hroom hops => hlead hs hroom hops.2⟩

/-- A step that reads what can be read on every such store. -/
theorem runs_of_reads (read : Memory → View → Except Failure α)
    (hrun : ∀ s, step s = orFatal (read s.toMemory s.engine.view) s)
    (h : ∀ {s dir earlier ops}, s.Measured dir earlier ops → P s ops →
      ∃ a, read s.toMemory s.engine.view = .ok a ∧ Q a s ops) : Runs P step Q E := by
  refine ⟨fun {s a s'} hstep => ?_, fun {s e s'} hstep => ?_⟩
  · rw [hrun] at hstep
    obtain ⟨hread, rfl⟩ := of_orFatal_value hstep
    refine ⟨Nat.le_refl _, fun {dir earlier ops} hs _ hP => ?_⟩
    obtain ⟨c, hc, hQ⟩ := h hs hP
    rw [hread] at hc
    cases hc
    exact ⟨ops, hs, Store.Keeps.refl s', hQ⟩
  · rw [hrun] at hstep
    cases hread : read s.toMemory s.engine.view with
    | ok b =>
        rw [hread] at hstep
        cases hstep
    | error f =>
        rw [hread] at hstep
        cases hstep
        refine ⟨Nat.le_refl _, fun {dir earlier ops} hs _ hP => ?_⟩
        obtain ⟨c, hc, -⟩ := h hs hP
        rw [hread] at hc
        cases hc

/-- What can be read on every such store is read. -/
theorem runs_reading {read : Memory → Except Failure α}
    (h : ∀ {s dir earlier ops}, s.Measured dir earlier ops → P s ops →
      ∃ a, read s.toMemory = .ok a ∧ Q a s ops) : Runs P (Database.reading read) Q E :=
  runs_of_reads (fun mem _ => read mem) (Database.reading_eq read) h

/-- A key is looked up. -/
theorem runs_lookup {Q : Option Bytes → Store → List Operation → Prop} (k : Bytes)
    (h : ∀ {s ops}, P s ops → Q ((contents ops).find? k) s ops) :
    Runs P (Database.get k) Q E :=
  runs_of_reads (fun mem w => w.get mem k) (Database.get_eq k)
    fun hs hP => ⟨_, hs.reads.get k, h hP⟩

/-- The store is looked at as it is. -/
theorem runs_get {Q : Store → Store → List Operation → Prop}
    (h : ∀ {s dir earlier ops}, s.Measured dir earlier ops → P s ops → Q s s ops) :
    Runs P (MonadState.get : DbM Store) Q E := by
  refine ⟨?_, ?_⟩
  · rintro s a s' ⟨⟩
    exact ⟨Nat.le_refl _, fun {dir earlier ops} hs _ hP =>
      ⟨ops, hs, Store.Keeps.refl s, h hs hP⟩⟩
  · rintro s e s' ⟨⟩

/-- A snapshot is taken. -/
theorem runs_snapshot {Q : View → Store → List Operation → Prop}
    (h : ∀ {s dir earlier ops}, s.Measured dir earlier ops → P s ops →
      Q s.engine.view s ops) : Runs P Database.snapshot Q E :=
  (runs_get (Q := fun s' s ops => Q s'.engine.view s ops) h).bind fun _ =>
    runs_pure fun _ _ hQ => hQ

/-- A step of the store that fails as a step of the database. -/
theorem of_orFatal_error {run : StoreM α} {s s' : Store} {e : Fatal}
    (h : run.orFatal s = .error e s') : run s = .error e.cause s' := by
  unfold StoreM.orFatal at h
  cases hrun : run s with
  | ok b s₁ =>
      rw [hrun] at h
      cases h
  | error f s₁ =>
      rw [hrun] at h
      cases h
      rfl

/-- An operation is applied. -/
theorem runs_apply {Q : Unit → Store → List Operation → Prop} {op : Operation} (hop : op.Flat)
    (h : ∀ {s s' ops}, P s ops → s.Keeps s' → Q () s' (ops ++ [op]))
    (hfail : ∀ {s ops}, P s ops → ¬op.Loggable → ∀ n, E (.recordTooLarge n)) :
    Runs P (Store.apply op).orFatal Q E := by
  refine ⟨fun {s a s'} hrun => ?_, fun {s e s'} hrun => ?_⟩
  · have happly := of_orFatal hrun
    refine ⟨(Store.written_apply happly).1, fun {dir earlier ops} hs hroom hP => ?_⟩
    obtain ⟨hs', hkeeps⟩ := hs.apply hop happly hroom
    exact ⟨ops ++ [op], hs', hkeeps, h hP hkeeps⟩
  · have happly := of_orFatal_error hrun
    refine ⟨(Store.written_apply_error happly).1, fun {dir earlier ops} hs hroom hP => ?_⟩
    obtain ⟨hlong, n, hn⟩ := hs.apply_error hop happly hroom
    rw [hn]
    exact hfail hP hlong n

/-- Several writes are applied as one. -/
theorem runs_writeBatch {Q : Unit → Store → List Operation → Prop} {ws : List Operation}
    (hws : ∀ op ∈ ws, op.Single)
    (h : ∀ {s s' ops}, P s ops → s.Keeps s' → Q () s' (ops ++ Operation.together ws))
    (hfail : ∀ {s ops}, P s ops → ∀ op ∈ Operation.together ws, ¬op.Loggable →
      ∀ n, E (.recordTooLarge n)) : Runs P (Database.writeBatch ws) Q E := by
  match ws with
  | [] =>
      refine runs_pure fun s ops hP => ?_
      have hQ := h hP (Store.Keeps.refl s)
      rwa [Operation.together, List.append_nil] at hQ
  | [op] =>
      exact runs_apply (hws op (List.mem_singleton_self op)).flat h fun hP hlong =>
        hfail hP op (List.mem_singleton_self op) hlong
  | op :: op' :: rest =>
      have hflat : (Operation.batch (op :: op' :: rest)).Flat := ⟨List.cons_ne_nil _ _, hws⟩
      exact runs_apply hflat h fun hP hlong => hfail hP _ (List.mem_singleton_self _) hlong

/-- What is made of the latest state is written as one batch, if it is
anything. -/
theorem runs_readModifyWrite {choose : Memory → View → Except Failure (List Operation × α)}
    {more : List Operation} (hsingle : ∀ op ∈ more, op.Single)
    (hchoose : ∀ {s dir earlier ops}, s.Measured dir earlier ops → P s ops →
      ∃ b, choose s.toMemory s.engine.view = .ok (more, b))
    (hnone : ∀ {s ops} b, P s ops → more = [] → Q b s ops)
    (hsome : ∀ {s s' ops} b, P s ops → s.Keeps s' → Q b s' (ops ++ [.batch more]))
    (hfail : ∀ {s ops}, P s ops → ¬(Operation.batch more).Loggable →
      ∀ n, E (.recordTooLarge n)) :
    Runs P (Database.readModifyWrite choose) Q E := by
  refine ⟨fun {s a s'} hrun => ?_, fun {s e s'} hrun => ?_⟩
  · have hmodify := of_orFatal hrun
    match hchosen : choose s.toMemory s.engine.view with
    | .error f =>
        rw [Store.readModifyWrite_declined hchosen] at hmodify
        cases hmodify
    | .ok ([], b) =>
        rw [Store.readModifyWrite_none hchosen] at hmodify
        cases hmodify
        refine ⟨Nat.le_refl _, fun {dir earlier ops} hs _ hP => ?_⟩
        obtain ⟨c, hc⟩ := hchoose hs hP
        rw [hchosen] at hc
        cases hc
        exact ⟨ops, hs, Store.Keeps.refl s, hnone _ hP rfl⟩
    | .ok (op :: rest, b) =>
        rw [Store.readModifyWrite_some hchosen] at hmodify
        obtain ⟨u, s₁, happly, hrest⟩ := of_bind_ok hmodify
        cases hrest
        refine ⟨(Store.written_apply happly).1, fun {dir earlier ops} hs hroom hP => ?_⟩
        obtain ⟨c, hc⟩ := hchoose hs hP
        rw [hchosen] at hc
        cases hc
        have hflat : (Operation.batch (op :: rest)).Flat := ⟨List.cons_ne_nil _ _, hsingle⟩
        obtain ⟨hs', hkeeps⟩ := hs.apply hflat happly hroom
        exact ⟨ops ++ [.batch (op :: rest)], hs', hkeeps, hsome _ hP hkeeps⟩
  · have hmodify := of_orFatal_error hrun
    match hchosen : choose s.toMemory s.engine.view with
    | .error f =>
        rw [Store.readModifyWrite_declined hchosen] at hmodify
        cases hmodify
        refine ⟨Nat.le_refl _, fun {dir earlier ops} hs _ hP => ?_⟩
        obtain ⟨c, hc⟩ := hchoose hs hP
        rw [hchosen] at hc
        cases hc
    | .ok ([], b) =>
        rw [Store.readModifyWrite_none hchosen] at hmodify
        cases hmodify
    | .ok (op :: rest, b) =>
        rw [Store.readModifyWrite_some hchosen] at hmodify
        rcases of_bind_error hmodify with happly | ⟨u, s₁, -, hrest⟩
        · refine ⟨(Store.written_apply_error happly).1, fun {dir earlier ops} hs hroom hP => ?_⟩
          obtain ⟨c, hc⟩ := hchoose hs hP
          rw [hchosen] at hc
          cases hc
          have hflat : (Operation.batch (op :: rest)).Flat := ⟨List.cons_ne_nil _ _, hsingle⟩
          obtain ⟨hlong, n, hn⟩ := hs.apply_error hflat happly hroom
          rw [hn]
          exact hfail hP hlong n
        · cases hrest

end Runs

-- ================================================================ sweeping

namespace IndexKeys

variable {ks : IndexKeys} {mem : Memory} {w : View} {m m₀ : KeyMap Bytes} {p : Bytes × Bytes}

/-- The postings of a token are counted. -/
theorem countPostings_eq {r : ReadView} (h : r.Reads mem m) (token : UInt64) :
    ks.countPostings mem r token = .ok (ks.countIn m token) := by
  have hscan := h.scan_eq (ks.postings token)
  obtain ⟨c, hcursor, -, -⟩ := h.cursorAt_ok (ks.postings token)
  unfold ReadView.scan at hscan
  rw [hcursor, ok_bind] at hscan
  unfold countPostings
  rw [hcursor, ok_bind, hscan]
  rfl

/-- The first marks are read. -/
theorem marked_eq (h : w.Reads mem m) (batch : Nat) :
    ks.marked mem w batch = .ok (ks.markedIn m batch) := by
  obtain ⟨c, hcursor, hat, hd⟩ := (ReadView.reads_pinned h).cursorAt_ok ks.marks
  unfold marked
  dsimp only
  rw [hcursor, ok_bind, hat.takeFrom_take, hd, ReadView.takeWhile_beyond_prefix]
  rfl

/-- What is to be written for a mark is chosen. -/
theorem refreshed_eq (h : w.Reads mem m) {token : UInt64} (hmark : ks.parseMark? p.1 = some token) :
    ∃ counted, ks.refreshed p.1 p.2 token (UInt64.ofNat (ks.countIn m token)) mem w
      = .ok (ks.upkeep m p, counted) := by
  unfold refreshed upkeep
  rw [h.get, ok_bind, hmark]
  dsimp only
  split
  · exact ⟨false, rfl⟩
  rw [h.get, ok_bind]
  cases m.find? (ks.reverse token) with
  | none => exact ⟨false, rfl⟩
  | some l =>
      dsimp only
      rw [h.get, ok_bind]
      cases m.find? l with
      | none => exact ⟨false, rfl⟩
      | some bytes =>
          dsimp only
          have hstale (e : LexiconEntry) : (e.count ≠ UInt64.ofNat (ks.countIn m token)
              ∨ e.token ≠ token) ↔ ¬e = ks.recount m token := by
            obtain ⟨t, n⟩ := e
            unfold recount
            rw [LexiconEntry.mk.injEq]
            tauto
          change ∃ counted, (if (entryOr token bytes).count ≠ _ ∨ (entryOr token bytes).token ≠ token
            then _ else _) = _
          by_cases heq : entryOr token bytes = ks.recount m token
          · rw [if_pos heq, if_neg (fun h => (hstale _).mp h heq)]
            exact ⟨true, rfl⟩
          · rw [if_neg heq, if_pos ((hstale _).mpr heq)]
            exact ⟨true, rfl⟩

/-- What is known of the map while a sweep goes on, and of the marks that it
meets; and what follows where a record is too large. -/
structure Guards (ks : IndexKeys) (I : KeyMap Bytes → Prop) (J : Bytes → Prop)
    (E : Failure → Prop) : Prop where
  marks : ∀ {m k}, I m → ks.marks <+: k → (m.find? k).isSome = true → J k
  keeps : ∀ {m} {p : Bytes × Bytes}, I m → ks.marks <+: p.1 → J p.1 → I (ks.refreshedIn m p)
  fails : ∀ {m} {p : Bytes × Bytes} {op : Operation}, I m → J p.1 →
    op = .delete p.1 ∨ op = .batch (ks.upkeep m p) →
    ¬op.Loggable → ∀ n, E (.recordTooLarge n)

variable {I : KeyMap Bytes → Prop} {J : Bytes → Prop} {E : Failure → Prop}

/-- In the middle of a pass: the snapshot shows the map with which the pass
began, and there are as many postings as there were. -/
def Passing (ks : IndexKeys) (I : KeyMap Bytes → Prop) (w : View) (m₀ m : KeyMap Bytes) (s : Store)
    (ops : List Operation) : Prop :=
  s.Shows w m₀ ∧ contents ops = m ∧ I m ∧ ∀ token, ks.countIn m token = ks.countIn m₀ token

/-- The mark is one that the sweep may meet. -/
def Meets (ks : IndexKeys) (J : Bytes → Prop) (p : Bytes × Bytes) : Prop :=
  ks.marks <+: p.1 ∧ J p.1

/-- What is written for a mark makes the map what it is then. -/
theorem Passing.wrote {s s' : Store} {ops : List Operation} (hguards : ks.Guards I J E)
    (h : ks.Passing I w m₀ m s ops) (hp : ks.Meets J p) (hkeeps : s.Keeps s')
    {more : List Operation}
    (hmore : Operation.writesOfAll more = Operation.writesOfAll (ks.upkeep m p)) :
    ks.Passing I w m₀ (ks.refreshedIn m p) s' (ops ++ more) := by
  obtain ⟨hshows, rfl, hI, hcount⟩ := h
  refine ⟨hshows.keeps hkeeps, ?_, hguards.keeps hI hp.1 hp.2, fun token => ?_⟩
  · rw [contents_append, hmore]
    rfl
  · rw [← hcount]
    exact countIn_of_marks (fun k hk => isSome_refreshedIn (ne_of_marks hp.1 hk)) token

/-- To refresh a mark makes of the map what was computed. -/
theorem runs_refresh (hguards : ks.Guards I J E) (w : View) (m₀ m : KeyMap Bytes)
    (p : Bytes × Bytes) :
    Runs (fun s ops => ks.Meets J p ∧ ks.Passing I w m₀ m s ops) (ks.refresh w p.1 p.2)
      (fun _ => ks.Passing I w m₀ (ks.refreshedIn m p)) E := by
  unfold refresh
  cases hmark : ks.parseMark? p.1 with
  | none =>
      have hupkeep : ks.upkeep m p = [.delete p.1] := by
        unfold upkeep
        rw [hmark]
      have hflat : (Operation.delete p.1).Flat := trivial
      refine (runs_apply (Q := fun _ => ks.Passing I w m₀ (ks.refreshedIn m p)) hflat
        (fun h hkeeps => ?_) fun h hlong => ?_).bind fun _ => runs_pure fun s ops h => h
      · refine h.2.wrote hguards h.1 hkeeps ?_
        rw [hupkeep]
      · exact hguards.fails h.2.2.2.1 h.1.2 (Or.inl rfl) hlong
  | some token =>
      refine (runs_reading (Q := fun count s ops => count = ks.countIn m token ∧
          ks.Meets J p ∧ ks.Passing I w m₀ m s ops) fun hs h => ?_).bind fun count => ?_
      · refine ⟨_, countPostings_eq (ReadView.reads_pinned (h.2.1.reads hs)) token, ?_, h⟩
        exact (h.2.2.2.2 token).symm
      · have hsingle : ∀ op ∈ ks.upkeep m p, op.Single := by
          rcases upkeep_cases ks m p with ⟨-, -, heq⟩ | ⟨-, heq⟩ | ⟨token, l, bytes, -, heq⟩ <;>
            rw [heq] <;> simp [Operation.Single]
        refine runs_readModifyWrite hsingle (fun hs h => ?_) (fun b h hnone => ?_)
          (fun b h hkeeps => ?_) fun h hlong => ?_
        · obtain ⟨rfl, -, hpassing⟩ := h
          have hreads := hs.reads
          rw [hpassing.2.1] at hreads
          exact refreshed_eq hreads hmark
        · have hsame : ks.refreshedIn m p = m := by
            unfold refreshedIn
            rw [hnone]
            rfl
          rw [hsame]
          exact h.2.2
        · refine h.2.2.wrote hguards h.2.1 hkeeps ?_
          rw [Operation.writesOfAll_singleton, Operation.writes]
        · exact hguards.fails h.2.2.2.2.1 h.2.1.2 (Or.inr rfl) hlong

/-- To refresh several does, one after the other. -/
theorem runs_refreshAll (hguards : ks.Guards I J E) (w : View) (m₀ m : KeyMap Bytes)
    (ps : List (Bytes × Bytes)) :
    Runs (fun s ops => (∀ p ∈ ps, ks.Meets J p) ∧ ks.Passing I w m₀ m s ops)
      (ks.refreshAll w ps) (fun _ => ks.Passing I w m₀ (ks.passed m ps)) E := by
  induction ps generalizing m with
  | nil => exact runs_pure fun s ops h => h.2
  | cons p ps ih =>
      obtain ⟨mark, stamp⟩ := p
      rw [refreshAll]
      refine Runs.bind (((runs_refresh hguards w m₀ m (mark, stamp)).frame
        (∀ q ∈ ps, ks.Meets J q)).mono (fun s ops h => ?_) fun _ s ops h => h) fun counted => ?_
      · obtain ⟨hmeets, hpassing⟩ := h
        exact ⟨fun q hq => hmeets q (List.mem_cons_of_mem _ hq), hmeets _ List.mem_cons_self,
          hpassing⟩
      · exact (ih _).bind fun n => runs_pure fun s ops h => h

/-- Passes make of the map what was computed. -/
theorem runs_sweepFrom (hguards : ks.Guards I J E) (batch fuel : Nat) (m : KeyMap Bytes) :
    Runs (fun _ ops => contents ops = m ∧ I m) (ks.sweepFrom batch fuel)
      (fun _ _ ops => contents ops = ks.sweptFrom batch fuel m ∧ I (ks.sweptFrom batch fuel m))
      E := by
  induction fuel generalizing m with
  | zero => exact runs_pure fun s ops h => h
  | succ fuel ih =>
      rw [sweepFrom]
      refine (runs_snapshot (Q := fun w => ks.Passing I w m m) fun hs h => ?_).bind fun w => ?_
      · obtain ⟨rfl, hI⟩ := h
        exact ⟨hs.shows, rfl, hI, fun token => rfl⟩
      refine (runs_reading (Q := fun ps s ops => ps = ks.markedIn m batch ∧
        ks.Passing I w m m s ops) fun hs h => ⟨_, marked_eq (h.1.reads hs) batch, rfl, h⟩).bind
          fun ps => ?_
      have hswept (hps : ps = ks.markedIn m batch) : ks.sweptFrom batch (fuel + 1) m
          = if ps.isEmpty then m else ks.sweptFrom batch fuel (ks.passed m ps) := by
        rw [hps]
        rfl
      split
      · next hempty =>
          refine runs_pure fun s ops h => ?_
          rw [hswept h.1, if_pos hempty]
          exact ⟨h.2.2.1, h.2.2.2.1⟩
      · next hempty =>
          refine (((runs_refreshAll hguards w m m ps).frame (ps = ks.markedIn m batch)).mono
            (fun s ops h => ⟨h.1, fun p hp => ?_, h.2⟩) fun _ s ops h => h).bind fun counted => ?_
          · obtain ⟨rfl, -, -, hI, -⟩ := h
            obtain ⟨hmet, hmark⟩ := marks_of_markedIn hp
            exact ⟨hmark, hguards.marks hI hmark (by rw [hmet]; rfl)⟩
          · refine (((ih (ks.passed m ps)).frame (ps = ks.markedIn m batch)).mono
              (fun s ops h => ⟨h.1, h.2.2.1, h.2.2.2.1⟩) fun _ s ops h => h).bind fun n =>
                runs_pure fun s ops h => ?_
            rw [hswept h.1, if_neg hempty]
            exact h.2

/-- A sweep makes of a map what was computed, or it fails on a record that
is too large. -/
theorem runs_sweep (hguards : ks.Guards I J E) (batch : Nat) (m : KeyMap Bytes) :
    Runs (fun _ ops => contents ops = m ∧ I m) (ks.sweep batch)
      (fun _ _ ops => contents ops = ks.swept batch m ∧ I (ks.swept batch m)) E := by
  unfold sweep
  refine (runs_snapshot (Q := fun w s ops => w.Reads s.toMemory m ∧ contents ops = m ∧ I m)
    fun hs h => ?_).bind fun w => ?_
  · have hreads := hs.reads
    rw [h.1] at hreads
    exact ⟨hreads, h⟩
  refine (runs_get (Q := fun s _ ops => 2 * m.size + 2 ≤ 2 * w.extent s.toMemory + 2 ∧
    contents ops = m ∧ I m) fun hs h => ?_).bind fun s => ?_
  · have hsize := h.1.size
    exact ⟨by omega, h.2⟩
  refine ((runs_sweepFrom hguards (max batch 1) _ m).frame _).mono (fun _ ops h => h)
    fun _ _ ops h => ?_
  obtain ⟨hfuel, h⟩ := h
  rwa [sweptFrom_eq_swept hfuel] at h

/-- It leads to what was computed. -/
theorem leads_sweep_at (ks : IndexKeys) (batch : Nat) (m : KeyMap Bytes) :
    Leads (fun ops => contents ops = m) (ks.sweep batch) fun _ ops =>
      contents ops = ks.swept batch m := by
  have hguards : ks.Guards (fun _ => True) (fun _ => True) fun _ => True :=
    ⟨fun _ _ _ => trivial, fun _ _ _ => trivial, fun _ _ _ _ _ => trivial⟩
  exact (runs_sweep hguards batch m).leads.mono (fun ops h => ⟨h, trivial⟩) fun _ ops h => h.1

end IndexKeys

end OrderedStore
