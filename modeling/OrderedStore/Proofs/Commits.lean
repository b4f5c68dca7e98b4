/-
What reaches the database from a transaction.

Only a flush and a commit do. Both make the gathered writes by one step of
the database, the last write for each key, in key order; so what they do is
the same for every store, whatever others did to it in between. On a sound
store that step is one operation that goes well if it can be logged, and
afterwards every key reads as it did in the transaction before. The
triggers of a commit find that store.

A row of moves that are made of steps of the database (`Made`) leaves a
sound store sound, so all along such a row that is what the writes are made
on. The induction is on how a step is made; what it logs is added to what
was logged (`Adds`).
-/
import Mathlib
import OrderedStore.Proofs.Runs
import OrderedStore.Proofs.Transactions

namespace OrderedStore

-- ======================================================== sequence numbers

namespace Store

variable {s s' : Store} {op : Operation}

/-- A flush uses up no sequence number. -/
theorem lastSeq_flush (h : flush s = .ok () s') : s'.engine.lastSeq = s.engine.lastSeq := by
  rcases of_flush_ok h with rfl | ⟨s₁, hturn, htruncate⟩
  · rfl
  · obtain ⟨catalog, v, -, rfl⟩ := of_turnOver_ok hturn
    obtain ⟨v', -, rfl⟩ := Disk.of_onStore_ok htruncate
    rfl

/-- An operation that is applied uses up one. -/
theorem lastSeq_apply (h : apply op s = .ok () s') :
    s'.engine.lastSeq = s.engine.lastSeq + 1 := by
  rcases of_apply_ok h with rfl | hflush
  · rfl
  · exact lastSeq_flush hflush

end Store

-- ======================================================= steps of the database

/-- As long as everything logged takes less than eight digits count, the
store `s'` is sound for what was logged with `more` behind it if the store
`s` is for what was logged. -/
def Store.Adds (s s' : Store) (more : List Operation) : Prop :=
  ∀ {dir : Path} {spare : Nat} {ops : List Operation} {ids : List UInt64},
    s.Sound dir spare ops ids → Operation.logged (ops ++ more) < UInt64.size →
    (ops ++ more).length + spare < UInt64.size →
    ∃ ids', s'.Sound dir spare (ops ++ more) ids'

namespace Store

variable {s s' s'' : Store} {op : Operation} {more more' : List Operation}

/-- Nothing is done. -/
theorem Adds.refl (s : Store) : s.Adds s [] := by
  intro dir spare ops ids hs _ _
  rw [List.append_nil]
  exact ⟨ids, hs⟩

/-- One step after the other. -/
theorem Adds.trans (h : s.Adds s' more) (h' : s'.Adds s'' more') :
    s.Adds s'' (more ++ more') := by
  intro dir spare ops ids hs hlogged hroom
  rw [← List.append_assoc] at hlogged hroom ⊢
  have hfirst := Operation.logged_append (ops ++ more) more'
  have hlength : (ops ++ more ++ more').length = (ops ++ more).length + more'.length :=
    List.length_append
  obtain ⟨ids', hs'⟩ := h hs (by omega) (by omega)
  exact h' hs' hlogged hroom

/-- An operation that is applied is logged. -/
theorem adds_apply (h : apply op s = .ok () s') : s.Adds s' [op] := by
  intro dir spare ops ids hs hlogged hroom
  have hop : op.Loggable := by
    by_contra hop
    rw [apply_refused s hop] at h
    cases h
  obtain ⟨s₁, ids₁, happly, hsound, -⟩ := hs.apply_ok hop hlogged hroom
  rw [h] at happly
  cases happly
  exact ⟨ids₁, hsound⟩

/-- A flush logs nothing. -/
theorem adds_flush (h : flush s = .ok () s') : s.Adds s' [] := by
  intro dir spare ops ids hs hlogged hroom
  rw [List.append_nil] at hlogged hroom ⊢
  obtain ⟨s₁, ids₁, hflush, hsound, -⟩ := hs.flush_ok hlogged hroom
  rw [h] at hflush
  cases hflush
  exact ⟨ids₁, hsound⟩

/-- On a sound store a key reads as the operations leave it. -/
theorem Sound.database_get {dir : Path} {spare : Nat} {ops : List Operation} {ids : List UInt64}
    (h : s.Sound dir spare ops ids) (k : Bytes) :
    Database.get k s = .ok ((contents ops).find? k) s := by
  rw [Database.get_eq, h.reads.get k]
  rfl

end Store

/-- The step is made of steps of the database, one after the other, each
chosen by what those before it answered. -/
inductive Made : {α : Type} → DbM α → Prop where
  | pure {α : Type} (a : α) : Made (pure a : DbM α)
  | get (k : Bytes) : Made (Database.get k)
  | snapshot : Made Database.snapshot
  | readView : Made Database.readView
  | reading {α : Type} (read : Memory → Except Failure α) : Made (Database.reading read)
  | put (k value : Bytes) : Made (Database.put k value)
  | delete (k : Bytes) : Made (Database.delete k)
  | writeBatch (ops : List Operation) : Made (Database.writeBatch ops)
  | readModifyWrite {α : Type}
      (choose : Memory → View → Except Failure (List Operation × α)) :
      Made (Database.readModifyWrite choose)
  | flush : Made Database.flush
  | close : Made Database.close
  | bind {α β : Type} {step : DbM α} {f : α → DbM β} (hstep : Made step)
      (hf : ∀ a, Made (f a)) : Made (step >>= f)

/-- Several operations are made as one, or there is nothing to do. -/
theorem Database.writeBatch_eq (ops : List Operation) :
    ops = [] ∧ Database.writeBatch ops = pure () ∨
      ∃ op, Operation.together ops = [op] ∧
        Database.writeBatch ops = (Store.apply op).orFatal := by
  match ops with
  | [] => exact Or.inl ⟨rfl, rfl⟩
  | [op] => exact Or.inr ⟨op, rfl, rfl⟩
  | op :: op' :: rest => exact Or.inr ⟨.batch (op :: op' :: rest), rfl, rfl⟩

/-- What is made of steps of the database adds to what was logged. -/
theorem Made.adds {α : Type} {step : DbM α} (h : Made step) {s s' : Store} {a : α}
    (hrun : step s = .ok a s') : ∃ more, s.Adds s' more := by
  induction h generalizing s s' with
  | pure a =>
      cases hrun
      exact ⟨[], Store.Adds.refl s⟩
  | get k =>
      rw [Database.get_eq] at hrun
      rw [(of_orFatal_value hrun).2]
      exact ⟨[], Store.Adds.refl s⟩
  | snapshot =>
      cases hrun
      exact ⟨[], Store.Adds.refl s⟩
  | readView =>
      cases hrun
      exact ⟨[], Store.Adds.refl s⟩
  | reading read =>
      rw [Database.reading_eq] at hrun
      rw [(of_orFatal_value hrun).2]
      exact ⟨[], Store.Adds.refl s⟩
  | put k value => exact ⟨_, Store.adds_apply (of_orFatal hrun)⟩
  | delete k => exact ⟨_, Store.adds_apply (of_orFatal hrun)⟩
  | writeBatch ops =>
      rcases Database.writeBatch_eq ops with ⟨-, heq⟩ | ⟨op, -, heq⟩
      · rw [heq] at hrun
        cases hrun
        exact ⟨[], Store.Adds.refl s⟩
      · rw [heq] at hrun
        exact ⟨_, Store.adds_apply (of_orFatal hrun)⟩
  | readModifyWrite choose =>
      have hmodify := of_orFatal hrun
      match hchoose : choose s.toMemory s.engine.view with
      | .error f =>
          rw [Store.readModifyWrite_declined hchoose] at hmodify
          cases hmodify
      | .ok ([], b) =>
          rw [Store.readModifyWrite_none hchoose] at hmodify
          cases hmodify
          exact ⟨[], Store.Adds.refl s⟩
      | .ok (op :: rest, b) =>
          rw [Store.readModifyWrite_some hchoose] at hmodify
          obtain ⟨u, s₁, happly, hrest⟩ := of_bind_ok hmodify
          cases hrest
          exact ⟨_, Store.adds_apply happly⟩
  | flush => exact ⟨_, Store.adds_flush (of_orFatal hrun)⟩
  | close => exact ⟨_, Store.adds_flush (of_orFatal hrun)⟩
  | bind hstep hf ih ihf =>
      obtain ⟨b, s₁, hfirst, hrest⟩ := of_bind_ok hrun
      obtain ⟨more, hmore⟩ := ih hfirst
      obtain ⟨more', hmore'⟩ := ihf b hrest
      exact ⟨more ++ more', hmore.trans hmore'⟩

/-- A row of such steps is one. -/
theorem made_mapM {α : Type} {steps : List (DbM α)} (h : ∀ step ∈ steps, Made step) :
    Made (steps.mapM id) := by
  induction steps with
  | nil => exact Made.pure []
  | cons step steps ih =>
      rw [List.mapM_cons]
      refine (h step List.mem_cons_self).bind fun a => ?_
      refine (ih fun other hother => h other (List.mem_cons_of_mem _ hother)).bind fun as => ?_
      exact Made.pure (a :: as)

-- ====================================================== the writes that are made

namespace Transaction

variable {ν : Type} {ms : List (Move ν)} {m : Move ν} {t t' : Transaction ν} {s₀ s s' : Store}
  {notices : List (Notice ν)}

/-- The last entry gathered for a key. -/
theorem find?_lastGathered (ms : List (Move ν)) (k : Bytes) :
    (lastGathered ms).find? k = lastWrite (gathered ms) k :=
  find?_ofList (gathered ms) k

/-- There is a last entry for some key if anything was gathered. -/
theorem lastGathered_eq_nil : (lastGathered ms).entries = [] ↔ gathered ms = [] := by
  constructor
  · intro hnone
    by_contra hne
    obtain ⟨w, hw⟩ := List.exists_mem_of_ne_nil _ hne
    obtain ⟨e, he⟩ := lastWrite_of_mem hw
    have hfound := find?_lastGathered ms w.1
    rw [he, ← KeyMap.mem_entries, hnone] at hfound
    cases hfound
  · intro hnone
    unfold lastGathered
    rw [hnone]
    rfl

/-- What it does to a database to make the gathered writes. If nothing was
gathered it does nothing. Otherwise it applies one operation, which has for
each key in turn the last entry gathered and uses up one sequence number. A
sound store stays sound, for that operation behind the others, if it can be
logged; and then every key reads as it did in the transaction before. -/
structure MakesWrites (ms : List (Move ν)) (t : Transaction ν) (s : Store) : Prop where
  last : ∀ k, (lastGathered ms).find? k = lastWrite (gathered ms) k
  nothing : gathered ms = [] → Database.writeBatch (batch ms) = pure ()
  atOnce : gathered ms ≠ [] → ∃ op, Operation.together (batch ms) = [op] ∧
    op.writes = (lastGathered ms).entries ∧
    Database.writeBatch (batch ms) = (Store.apply op).orFatal
  numbered : ∀ s', Database.writeBatch (batch ms) s = .ok () s' →
    s'.engine.lastSeq = s.engine.lastSeq + if gathered ms = [] then 0 else 1
  sound : ∀ {dir : Path} {spare : Nat} {ops : List Operation} {ids : List UInt64},
    s.Sound dir spare ops ids → (∀ op ∈ Operation.together (batch ms), op.Loggable) →
    Operation.logged (ops ++ Operation.together (batch ms)) < UInt64.size →
    (ops ++ Operation.together (batch ms)).length + spare < UInt64.size →
    ∃ s' ids', Database.writeBatch (batch ms) s = .ok () s' ∧
      s'.Sound dir spare (ops ++ Operation.together (batch ms)) ids' ∧
      ∀ k, ∃ found, t.get k s = .ok found s ∧ Database.get k s' = .ok found s'

/-- What is known of a transaction after the moves, over the store there is
then: what is read in it, which moves reach the database and what they do
there, and what it counts. -/
structure Accounts (ms : List (Move ν)) (t : Transaction ν) (s : Store) : Prop where
  get : ∀ k, t.get k = match lastWrite (gathered ms) k with
    | some e => pure e.value?
    | none => Database.get k
  still : ∀ m : Move ν, m.reaches = false → ∃ t', m.run t s = .ok (t', []) s
  flush : Move.flush.run t = (do
    Database.writeBatch (batch ms)
    return ({ t with pending := KeyMap.empty, mutations := 0 }, []))
  commit : Move.commit.run t = (do
    Database.writeBatch (batch ms)
    let notices ← ((due ms).map Prod.snd).mapM id
    return (empty, notices))
  writes : MakesWrites ms t s
  mutations : t.mutations = (gathered ms).length
  isEmpty : t.mutations = 0 ↔ t.isEmpty = true

/-- A key that is read is looked up in what was gathered, and then in the
database. -/
theorem Represents.get_eq (h : Represents ms t) (k : Bytes) :
    t.get k = match lastWrite (gathered ms) k with
      | some e => pure e.value?
      | none => Database.get k := by
  have hfind : t.pending.find? k = lastWrite (gathered ms) k := by
    rw [h.pending, find?_lastGathered]
  cases hwrite : lastWrite (gathered ms) k <;> simp only [Transaction.get, hfind, hwrite]

/-- A move that does not reach the database leaves it as it is, and gives no
notice. -/
theorem Move.run_of_not_reaches (h : m.reaches = false) (t : Transaction ν) (s : Store) :
    m.run t s = .ok (m.after t, []) s := by
  cases m <;> first | rfl | cases h

/-- What was gathered is made. -/
theorem Represents.makesWrites (h : Represents ms t) (s : Store) : MakesWrites ms t s := by
  have hwrites : Operation.writesOfAll (batch ms) = (lastGathered ms).entries :=
    writesOfAll_operation _
  have hnil : batch ms = [] ↔ gathered ms = [] := by
    unfold batch
    rw [List.map_eq_nil_iff, lastGathered_eq_nil]
  refine ⟨find?_lastGathered ms, fun hnone => ?_, fun hsome => ?_, fun s' hrun => ?_, ?_⟩
  · rw [hnil.mpr hnone]
    rfl
  · rcases Database.writeBatch_eq (batch ms) with ⟨hnone, -⟩ | ⟨op, hop, heq⟩
    · exact absurd (hnil.mp hnone) hsome
    · refine ⟨op, hop, ?_, heq⟩
      rw [← hwrites, ← Operation.writesOfAll_together, hop, Operation.writesOfAll_singleton]
  · rcases Database.writeBatch_eq (batch ms) with ⟨hnone, heq⟩ | ⟨op, hop, heq⟩
    · rw [heq] at hrun
      cases hrun
      rw [if_pos (hnil.mp hnone), UInt64.add_zero]
    · have hsome : gathered ms ≠ [] := by
        intro hnone
        rw [hnil.mpr hnone] at hop
        cases hop
      rw [heq] at hrun
      rw [if_neg hsome]
      exact Store.lastSeq_apply (of_orFatal hrun)
  · intro dir spare ops ids hs hloggable hlogged hroom
    have hafter : contents (ops ++ Operation.together (batch ms)) = (contents ops).laid t.pending := by
      rw [h.pending]
      exact contents_together ops (lastGathered ms)
    have hseen (s' : Store) {ids' : List UInt64}
        (hs' : s'.Sound dir spare (ops ++ Operation.together (batch ms)) ids') (k : Bytes) :
        ∃ found, t.get k s = .ok found s ∧ Database.get k s' = .ok found s' := by
      refine ⟨((contents ops).laid t.pending).find? k, ?_, ?_⟩
      · unfold Transaction.get
        cases hpending : t.pending.find? k with
        | some e =>
            rw [KeyMap.find?_laid, hpending]
            rfl
        | none =>
            rw [KeyMap.find?_laid_of_none hpending]
            exact hs.database_get k
      · rw [hs'.database_get, hafter]
    rcases Database.writeBatch_eq (batch ms) with ⟨hnone, heq⟩ | ⟨op, hop, heq⟩
    · rw [hnone] at hseen ⊢
      have hs' : s.Sound dir spare (ops ++ []) ids := by rwa [List.append_nil]
      exact ⟨s, ids, rfl, hs', hseen s hs'⟩
    · rw [hop] at hloggable hlogged hroom hseen ⊢
      obtain ⟨s', ids', happly, hs', -⟩ :=
        hs.apply_ok (hloggable op (List.mem_singleton_self op)) hlogged hroom
      refine ⟨s', ids', ?_, hs', hseen s' hs'⟩
      rw [heq]
      exact orFatal_ok happly

/-- All that is known of it. -/
theorem Represents.accounts (h : Represents ms t) (s : Store) : Accounts ms t s := by
  refine ⟨h.get_eq, fun m hm => ⟨m.after t, Move.run_of_not_reaches hm t s⟩, ?_, ?_,
    h.makesWrites s, h.mutations, ?_⟩
  · rw [run_flush, h.pending]
    rfl
  · rw [run_commit, h.pending, h.triggers]
    rfl
  · unfold isEmpty KeyMap.isEmpty
    rw [h.mutations, h.pending, List.isEmpty_iff, lastGathered_eq_nil, List.length_eq_zero_iff]

-- ============================================================ rows of moves

/-- What the move does beside the transaction, or leaves to be done, is made
of steps of the database. -/
def Move.Made : Move ν → Prop
  | .addTrigger _ trigger => OrderedStore.Made trigger
  | .addAnonymousTrigger trigger => OrderedStore.Made trigger
  | .afterCommit _ trigger => OrderedStore.Made trigger
  | .beside step => OrderedStore.Made step
  | _ => True

/-- A move is made of steps of the database if it is so itself and the
triggers are. -/
theorem Move.made_run (hm : m.Made) (ht : ∀ trigger ∈ t.triggers, OrderedStore.Made trigger) :
    OrderedStore.Made (m.run t) := by
  cases m with
  | flush =>
      rw [run_flush]
      exact (OrderedStore.Made.writeBatch _).bind fun _ => OrderedStore.Made.pure _
  | commit =>
      rw [run_commit]
      refine (OrderedStore.Made.writeBatch _).bind fun _ => ?_
      exact (made_mapM ht).bind fun _ => OrderedStore.Made.pure _
  | beside step => exact OrderedStore.Made.bind hm fun _ => OrderedStore.Made.pure _
  | _ => exact OrderedStore.Made.pure _

/-- A row of moves that are made of steps of the database adds to what was
logged. -/
theorem Played.adds (h : Played s₀ ms t s) (hmade : ∀ m ∈ ms, m.Made) :
    ∃ more, s₀.Adds s more := by
  induction h with
  | start => exact ⟨[], Store.Adds.refl s₀⟩
  | @move ms t t' s s' m notices hms hm ih =>
      obtain ⟨more, hmore⟩ := ih fun n hn => hmade n (List.mem_append_left _ hn)
      have htriggers : ∀ trigger ∈ t.triggers, OrderedStore.Made trigger := by
        intro trigger htrigger
        rw [hms.represents.triggers] at htrigger
        obtain ⟨⟨i, trigger⟩, hdue, rfl⟩ := List.mem_map.mp htrigger
        obtain ⟨⟨key?, n, hn, hadds⟩, -⟩ := added_of_mem_due hdue
        have hmade := hmade n (List.mem_append_left _ (List.mem_of_getElem? hn))
        cases n <;> cases hadds <;> exact hmade
      have hlast := hmade m (List.mem_append_right _ (List.mem_singleton_self m))
      obtain ⟨more', hmore'⟩ := (Move.made_run hlast htriggers).adds hm
      exact ⟨more ++ more', hmore.trans hmore'⟩

/-- What is known of the triggers after the moves. Due are those that no
commit or abandon came behind, of those under one key the last; they are
run in the order of the keys, and then, those without a key, in the order
they were added. None was run twice, and none that was run is due. -/
structure Triggered (ms : List (Move ν)) : Prop where
  due : ∀ i trigger, (i, trigger) ∈ due ms ↔
    (∃ key, WaitsUnder ms key i trigger) ∨ Added ms i none trigger ∧ GoesOn Move.clears ms i
  ordered : ∃ (keyed : List (Bytes × Nat × Trigger ν)) (others : List (Nat × Trigger ν)),
    Transaction.due ms = keyed.map Prod.snd ++ others ∧
    (keyed.Pairwise fun p q => p.1 < q.1) ∧ (∀ p ∈ keyed, WaitsUnder ms p.1 p.2.1 p.2.2) ∧
    (others.Pairwise fun p q => p.1 < q.1) ∧ ∀ p ∈ others, Added ms p.1 none p.2
  once : (ran ms ++ (Transaction.due ms).map Prod.fst).Nodup

/-- So it is after every row of moves. -/
theorem triggered (ms : List (Move ν)) : Triggered ms := by
  refine ⟨fun i trigger => mem_due, ⟨(dueKeyed ms).entries, dueAnonymous ms, rfl,
    (dueKeyed ms).sorted, fun p hp => ?_, pairwise_dueAnonymous ms, fun p hp => ?_⟩, nodup_ran ms⟩
  · exact find?_dueKeyed.mp (KeyMap.mem_entries.mp hp)
  · exact (mem_dueAnonymous.mp hp).1

/-- After every row of moves, with whatever steps of the database in
between, the transaction reads as what was gathered says, reaches the
database only to make what was gathered by one operation, and runs on a
commit what is due, each trigger once; and if all steps are made of steps of
the database, a sound store stays sound. -/
theorem moves_accounted (h : Played s₀ ms t s) :
    Accounts ms t s ∧ Triggered ms ∧ ((∀ m ∈ ms, m.Made) → ∃ more, s₀.Adds s more) :=
  ⟨h.represents.accounts s, triggered ms, h.adds⟩

/-- Moves that do not reach the database are carried out on every store. -/
theorem played_of_not_reaches (h : ∀ m ∈ ms, m.reaches = false) (s : Store) :
    Played s ms (ms.foldl Move.after empty) s := by
  induction ms using List.reverseRecOn with
  | nil => exact Played.start
  | append_singleton ms m ih =>
      have hm := h m (List.mem_append_right _ (List.mem_singleton_self m))
      rw [List.foldl_append]
      exact (ih fun n hn => h n (List.mem_append_left _ hn)).move
        (Move.run_of_not_reaches hm _ s)

/-- A trigger that leaves a note. -/
def sampleTrigger (content : Nat) : Trigger Nat :=
  (pure (.note content) : DbM (Notice Nat))

/-- A key written twice, and triggers under two keys and under none. -/
def sampleMoves : List (Move Nat) :=
  [.put [1] [2], .afterCommit "b" (sampleTrigger 0), .addAnonymousTrigger (sampleTrigger 1),
    .put [1] [3], .addTrigger "b" (sampleTrigger 2), .addTrigger "a" (sampleTrigger 3)]

/-- A commit then gives three of the notices, and the key leads to what was
written last. -/
theorem moves_accounted_sampleMoves : ∃ (s s' : Store) (t : Transaction Nat),
    Played s sampleMoves t s ∧
      Move.commit.run t s = .ok (empty, [.note 3, .note 2, .note 1]) s' ∧
      Database.get [1] s' = .ok (some [3]) s' := by
  obtain ⟨e, v, ids, -, hs⟩ := (Engine.vacant_empty ["db"]).openAt_ok Settings.standard 0
  have hreaches : ∀ m ∈ sampleMoves, m.reaches = false := by decide
  have hplayed := played_of_not_reaches hreaches (Store.opened v e)
  obtain ⟨haccounts, -, -⟩ := moves_accounted hplayed
  have hdue : (due sampleMoves).map Prod.snd
      = [sampleTrigger 3, sampleTrigger 2, sampleTrigger 1] := rfl
  have htogether : Operation.together (batch sampleMoves) = [.put [1] [3]] := rfl
  obtain ⟨s', ids', hmade, hs', -⟩ := haccounts.writes.sound hs (by rw [htogether]; decide)
    (by rw [htogether]; decide) (by rw [htogether]; decide)
  refine ⟨_, s', _, hplayed, ?_, ?_⟩
  · rw [haccounts.commit, bind_ok hmade, hdue]
    rfl
  · rw [hs'.database_get, htogether]
    rfl

end Transaction

end OrderedStore
