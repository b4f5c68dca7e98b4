/-
Runs of an index.

An index is worked with through requests, one after the other
(`IndexRequest`). Some tell it of documents, and they go where writes go at
the moment: to the database, or into the one transaction that is open. Some
end that transaction or begin another. The rest goes on around the index:
writes to keys of others, flushes, sweeps, and the index being opened anew
with nothing kept in memory.

What was told is written down twice (`Told`): what the database has been
told, and what is seen in the transaction on top of that. One lemma says
what each request leads to, `leads_run`; by induction on the row the index
holds after every run what it was told, as its keys are read
(`leads_runAll_asRead`), which is just what it was told where terms have no
tabs (`leads_runAll`). So a search finds it, in the database, in the
transaction, and in a snapshot that was taken at any moment before.
-/
import Mathlib
import OrderedStore.Proofs.Searches
import OrderedStore.Proofs.Sweeping

namespace OrderedStore

-- =============================================================== requests

/-- An index at work: the index as it is open, and where its writes go. -/
structure Indexing (ν : Type) where
  index : Index
  target : WriteView ν

/-- What can be asked while an index is at work. -/
inductive IndexRequest where
  /-- A document has this sort key and these terms. -/
  | update (docId sortKey : String) (terms : List Term)
  /-- A document has no terms. -/
  | remove (docId : String)
  /-- A key leads to a value, where the writes go. -/
  | put (k value : Bytes)
  /-- A key leads to nothing, where the writes go. -/
  | delete (k : Bytes)
  /-- A transaction is opened; one that is open is dropped. -/
  | begin
  /-- The writes of the transaction are made, and it goes on. -/
  | flushPending
  /-- The transaction is committed. -/
  | commit
  /-- The transaction is abandoned. -/
  | abandon
  /-- The transaction is dropped, and writes go to the database. -/
  | leave
  /-- Entries are written to the database as one. -/
  | writeBatch (ws : List (Bytes × Entry))
  /-- The database is flushed. -/
  | flush
  /-- Counts are brought up to date. -/
  | sweep
  /-- The index is opened anew. -/
  | reopen (settings : IndexSettings) (stamp : UInt64)

namespace IndexRequest

variable {ν : Type}

/-- Carries the request out on the index of this name. -/
def run (name : String) (i : Indexing ν) : IndexRequest → DbM (Indexing ν)
  | update docId sortKey terms => do
    let (x, T, _) ← (i.index.update docId sortKey terms).runOn i.target
    return ⟨x, T⟩
  | remove docId => do
    let (x, T, _) ← (i.index.remove docId).runOn i.target
    return ⟨x, T⟩
  | put k value => do
    let (_, T, _) ← (WriteM.put k value).runOn i.target
    return { i with target := T }
  | delete k => do
    let (_, T, _) ← (WriteM.delete k).runOn i.target
    return { i with target := T }
  | begin => return { i with target := .transaction .empty }
  | flushPending =>
    match i.target with
    | .database => return i
    | .transaction t => return { i with target := .transaction (← t.flush) }
  | commit =>
    match i.target with
    | .database => return i
    | .transaction t => do
      let (t, _) ← t.commit
      return { i with target := .transaction t }
  | abandon =>
    match i.target with
    | .database => return i
    | .transaction t => return { i with target := .transaction t.abandon }
  | leave => return { i with target := .database }
  | writeBatch ws => do
    Database.writeBatch (ws.map Transaction.operation)
    return i
  | flush => do
    Database.flush
    return i
  | sweep => do
    let _ ← i.index.sweep
    return i
  | reopen settings stamp => do
    let x ← orFatal (Index.openNamed name settings stamp)
    return { i with index := x }

/-- Carries requests out one after the other. -/
def runAll (name : String) : List IndexRequest → Indexing ν → DbM (Indexing ν)
  | [], i => return i
  | r :: rs, i => do runAll name rs (← r.run name i)

/-- The request is one that may be made: terms are without tabs, what is
listed under a document can be counted in eight digits, and other writes
keep away from the keys of the index. -/
def Admissible (ks : IndexKeys) : IndexRequest → Prop
  | update docId sortKey terms =>
    (∀ t ∈ terms, Term.delimiter ∉ t.index.toList) ∧
      Index.listingBound ks ⟨Index.cleanSortKey sortKey, docId⟩ terms.length < UInt64.size
  | put k _ => ¬ks.lead <+: k
  | delete k => ¬ks.lead <+: k
  | writeBatch ws => ∀ w ∈ ws, ¬ks.lead <+: w.1
  | _ => True

/-- The request with the terms that the keys of its terms are read as. -/
def asRead : IndexRequest → IndexRequest
  | update docId sortKey terms => update docId sortKey (terms.map Term.asRead)
  | r => r

/-- Terms without tabs are read as they are. -/
theorem asRead_of_admissible {ks : IndexKeys} {r : IndexRequest} (h : r.Admissible ks) :
    r.asRead = r := by
  cases r with
  | update docId sortKey terms => exact congrArg (update docId sortKey) (Term.map_asRead h.1)
  | _ => rfl

end IndexRequest

-- =================================================================== told

namespace Told

/-- Nothing was told yet. -/
def empty : Told :=
  ⟨fun _ => none, none⟩

/-- What is seen is what the database holds from then on. -/
def settle (told : Told) : Told :=
  ⟨told.seen, told.opened⟩

/-- What the database holds is what is seen from then on. -/
def reset (told : Told) : Told :=
  ⟨told.held, told.opened.map fun _ => told.held⟩

/-- When all is reset, what the database holds is what is seen. -/
theorem seen_reset (told : Told) : told.reset.seen = told.held := by
  obtain ⟨held, opened⟩ := told
  cases opened <;> rfl

/-- What a request tells. -/
def tell (told : Told) : IndexRequest → Told
  | .update docId sortKey terms =>
    told.file docId (some ⟨Index.cleanSortKey sortKey, terms⟩)
  | .remove docId => told.file docId none
  | .begin => ⟨told.held, some told.held⟩
  | .flushPending => told.settle
  | .commit => told.settle
  | .abandon => told.reset
  | .leave => ⟨told.held, none⟩
  | _ => told

/-- What requests tell, one after the other. -/
def tellAll (told : Told) (rs : List IndexRequest) : Told :=
  rs.foldl tell told

end Told

-- ======================================================== what stays the same

namespace Index

open IndexKeys

variable {ν : Type} {ks : IndexKeys} {c : TokenCache} {told told' : Told}
  {ops ops' : List Operation} {T T' : WriteView ν}

/-- Maps that are alike in the database are alike where the writes go. -/
theorem alike_seen (h : ks.Apart T) (hlike : ks.Alike (contents ops) (contents ops')) :
    ks.Alike (T.seen ops) (T.seen ops') := by
  have hlexical (ops : List Operation) : ∀ k, ks.Lexical k →
      (T.seen ops).find? k = (contents ops).find? k := fun k hk => h.seen hk
  refine ⟨fun term raw => ?_, ?_, fun hl => ?_, fun k hk => ?_, fun docId => ?_⟩
  · rw [tokenIn_congr (hlexical ops'), tokenIn_congr (hlexical ops), hlike.tokens]
  · rw [nextIn_congr (hlexical ops'), nextIn_congr (hlexical ops), hlike.next]
  · have hcontents : ks.Lexed (contents ops) := hl.congr fun k hk => (hlexical ops k hk).symm
    exact (hlike.lexed hcontents).congr (hlexical ops')
  · exact WriteView.seen_congr (hlike.postings k hk)
  · exact WriteView.seen_congr (hlike.lists docId)

/-- What is held is held while the maps are alike. -/
theorem Filed.alike (h : Filed ks c told ops T) (hlength : ops.length ≤ ops'.length)
    (hapart : ks.Apart T') (hopen : T'.isOpen = T.isOpen)
    (hheld : ks.Alike (contents ops) (contents ops'))
    (hseen : ks.Alike (T.seen ops) (T'.seen ops')) : Filed ks c told ops' T' := by
  refine ⟨⟨hheld.lexed h.lexicon.lexed, ?_⟩, fun ht => ?_, hapart, hopen.trans h.opened,
    h.held.alike hheld, h.seen.alike hseen⟩
  · rw [hheld.next]
    exact le_trans h.lexicon.count (Nat.succ_le_succ hlength)
  · rw [hheld.tokens]
    exact h.kept ht

/-- So it is held whatever else is done in the database. -/
theorem unmoved_filed (ks : IndexKeys) (c : TokenCache) (told : Told) (T : WriteView ν) :
    ks.Unmoved fun ops => Filed ks c told ops T :=
  fun _ _ hlike hlength h => h.alike hlength h.apart rfl hlike (alike_seen h.apart hlike)

/-- A key that does not count may be written. -/
theorem Filed.wrote (h : Filed ks c told ops T) {k : Bytes} (hk : ¬ks.Counts k) (e : Entry) :
    Filed ks c told (T.logs ops (k, e)) (T.wrote (k, e)) := by
  have hlexical : ¬ks.Lexical k := fun hlexical => hk (Or.inl hlexical)
  refine h.alike ?_ (h.apart.wrote hlexical e) (WriteView.isOpen_wrote T _) ?_ ?_
  · cases T with
    | database =>
        show ops.length ≤ (ops ++ [_]).length
        rw [List.length_append]
        exact Nat.le_add_right _ _
    | transaction t => exact Nat.le_refl _
  · cases T with
    | database =>
        show ks.Alike _ (contents (ops ++ [Transaction.operation (k, e)]))
        rw [Transaction.contents_operation]
        exact alike_write _ hk e
    | transaction t => exact Alike.refl ks _
  · rw [WriteView.seen_wrote]
    exact alike_write _ hk e

/-- What was told in a transaction is forgotten with it. -/
theorem Filed.forget (h : Filed ks c told ops T) (hheld : told'.held = told.held)
    (htold : told'.seen = told.held) (hopened : T'.isOpen = told'.opened.isSome)
    (hapart : ks.Apart T') (hseen : T'.seen ops = contents ops) :
    Filed ks c told' ops T' := by
  refine ⟨h.lexicon, h.kept, hapart, hopened, ?_, ?_⟩
  · rw [hheld]
    exact h.held
  · rw [hseen, htold]
    exact h.held

/-- A transaction with nothing pending keeps apart from the lexicon. -/
theorem apart_of_empty {t : Transaction ν} (hempty : t.pending = KeyMap.empty) (hidle : t.Idle) :
    ks.Apart (.transaction t) := by
  refine ⟨fun k _ => ?_, hidle⟩
  rw [hempty]
  rfl

/-- Where writes go to the database there is nothing to be settled. -/
theorem Filed.settle (h : Filed ks c told ops (.database : WriteView ν)) :
    Filed ks c told.settle ops (.database : WriteView ν) := by
  obtain ⟨held, opened⟩ := told
  cases opened with
  | none => exact h
  | some docs => cases h.opened

/-- There is nothing to be reset either. -/
theorem Filed.reset (h : Filed ks c told ops (.database : WriteView ν)) :
    Filed ks c told.reset ops (.database : WriteView ν) := by
  obtain ⟨held, opened⟩ := told
  cases opened with
  | none => exact h
  | some docs => cases h.opened

/-- What was told in a transaction is held when its writes are made. -/
theorem Filed.settled {t t' : Transaction ν} (h : Filed ks c told ops (.transaction t))
    (hempty : t'.pending = KeyMap.empty) (hidle : t'.Idle) :
    Filed ks c told.settle (ops ++ Operation.together (t.pending.entries.map
      Transaction.operation)) (.transaction t') := by
  have hcontents := Transaction.contents_together ops t.pending
  have hlexical : ∀ k, ks.Lexical k → ((contents ops).laid t.pending).find? k
      = (contents ops).find? k := fun k hk => h.apart.seen hk
  have hseen : ks.Posted ((contents ops).laid t.pending) told.seen := h.seen
  have hsettled : told.settle.seen = told.seen := by
    obtain ⟨held, opened⟩ := told
    cases opened <;> rfl
  refine ⟨⟨?_, ?_⟩, fun ht => ?_, apart_of_empty hempty hidle, h.opened, ?_, ?_⟩
  · rw [hcontents]
    exact h.lexicon.lexed.congr hlexical
  · rw [hcontents, nextIn_congr hlexical, List.length_append]
    exact le_trans h.lexicon.count (Nat.succ_le_succ (Nat.le_add_right _ _))
  · rw [hcontents, tokenIn_congr hlexical]
    exact h.kept ht
  · rw [hcontents]
    exact hseen
  · show ks.Posted ((contents _).laid t'.pending) _
    rw [hempty, hcontents, hsettled]
    exact hseen

-- ============================================================ one request

/-- An index that is opened has the keys of its name and keeps no tokens. -/
theorem of_openNamed {name : String} {settings : IndexSettings} {stamp : UInt64} {x : Index}
    (h : openNamed name settings stamp = .ok x) :
    x.keys = IndexKeys.ofName name ∧ x.cache = TokenCache.empty settings.cacheCapacity := by
  unfold openNamed at h
  split at h
  · cases h
    exact ⟨rfl, rfl⟩
  · cases h

/-- No tokens are kept, so those that are kept are in the lexicon. -/
theorem kept_empty (ks : IndexKeys) (capacity : Nat) (ops : List Operation) :
    Kept ks (TokenCache.empty capacity) ops := by
  rintro term raw token ⟨⟩

/-- To mark tokens leaves the keys of an index alone. -/
theorem markTokens_keys (x : Index) (tokens : List UInt64) :
    WriteM.Returns (x.markTokens tokens : WriteM ν Index) fun y => y.keys = x.keys := by
  unfold markTokens
  split
  · exact WriteM.returns_pure rfl
  · refine (WriteM.returns_forM (fun token => WriteM.returns_put _ _) _).bind fun _ _ => ?_
    refine (WriteM.returns_afterCommit _ _).bind fun _ _ => ?_
    exact WriteM.returns_pure rfl

/-- Old postings are deleted. -/
theorem returns_deletePostings (ks : IndexKeys) (docId : String) :
    WriteM.Returns (deletePostings ks docId : WriteM ν (List UInt64)) fun _ => True := by
  unfold deletePostings
  refine (WriteM.returns_get _).bind fun found _ => ?_
  cases found with
  | none => exact WriteM.returns_pure trivial
  | some bytes =>
      dsimp only
      cases Wire.readBlobs bytes with
      | error f => exact WriteM.returns_pure trivial
      | ok found =>
          refine (WriteM.returns_forM WriteM.returns_delete _).bind fun _ _ => ?_
          exact WriteM.returns_pure trivial

/-- To file a document leaves the keys alone. -/
theorem update_keys (x : Index) (docId sortKey : String) (terms : List Term) :
    WriteM.Returns (x.update docId sortKey terms : WriteM ν Index) fun y => y.keys = x.keys := by
  unfold update
  refine (returns_deletePostings _ _).bind fun gone _ => ?_
  refine (WriteM.returns_lift (tokensOf_keys x terms)).bind fun a ha => ?_
  obtain ⟨tokens, y⟩ := a
  have hy : y.keys = x.keys := ha
  have hlast : WriteM.Returns (y.markTokens (gone ++ tokens) : WriteM ν Index)
      fun z => z.keys = x.keys := hy ▸ markTokens_keys y _
  refine (WriteM.returns_forM (fun k => WriteM.returns_put k []) _).bind fun _ _ => ?_
  split
  · exact (WriteM.returns_delete _).bind fun _ _ => hlast
  · exact (WriteM.returns_put _ _).bind fun _ _ => hlast

/-- To take one out does, too. -/
theorem remove_keys (x : Index) (docId : String) :
    WriteM.Returns (x.remove docId : WriteM ν Index) fun y => y.keys = x.keys := by
  unfold remove
  refine (returns_deletePostings _ _).bind fun gone _ => ?_
  refine (WriteM.returns_delete _).bind fun _ _ => ?_
  exact markTokens_keys x gone

end Index

namespace IndexRequest

open Index IndexKeys

variable {ν : Type} {ks : IndexKeys} {told : Told} {i : Indexing ν} {name : String}

/-- The index has the keys of its name, and triggers that wait do nothing
but give notice. -/
structure Ready (name : String) (i : Indexing ν) : Prop where
  keys : i.index.keys = IndexKeys.ofName name
  idle : i.target.Idle

/-- Writing where the writes go leaves it ready. -/
theorem ready_runOn {α : Type} {step : WriteM ν α} {f : α → Index} (h : Ready name i)
    (hstep : WriteM.Returns step fun a => (f a).keys = i.index.keys) :
    Returns (do
      let (a, T, _) ← step.runOn i.target
      return (⟨f a, T⟩ : Indexing ν)) (Ready name) :=
  (hstep.runOn i.target).bind fun _ ha => returns_pure ⟨ha.1.trans h.keys, ha.2 h.idle⟩

/-- So does every request. -/
theorem returns_run (h : Ready name i) (r : IndexRequest) : Returns (r.run name i) (Ready name) := by
  obtain ⟨x, T⟩ := i
  cases r with
  | update docId sortKey terms => exact ready_runOn h (update_keys x docId sortKey terms)
  | remove docId => exact ready_runOn h (remove_keys x docId)
  | put k value =>
      exact ready_runOn (f := fun _ => x) h fun w s a s' hrun =>
        ⟨rfl, (WriteM.returns_put k value w s a s' hrun).2⟩
  | delete k =>
      exact ready_runOn (f := fun _ => x) h fun w s a s' hrun =>
        ⟨rfl, (WriteM.returns_delete k w s a s' hrun).2⟩
  | begin => exact returns_pure ⟨h.keys, Transaction.idle_empty⟩
  | flushPending =>
      cases T with
      | database => exact returns_pure h
      | transaction t =>
          have hflush : Returns t.flush Transaction.Idle :=
            Returns.last fun _ => returns_pure h.idle
          exact hflush.bind fun t' ht => returns_pure ⟨h.keys, ht⟩
  | commit =>
      cases T with
      | database => exact returns_pure h
      | transaction t =>
          have hcommit : Returns t.commit fun a => a.1.Idle :=
            Returns.last fun _ => Returns.last fun _ =>
              returns_pure fun _ ht => absurd ht List.not_mem_nil
          exact hcommit.bind fun a ha => returns_pure ⟨h.keys, ha⟩
  | abandon =>
      cases T with
      | database => exact returns_pure h
      | transaction t => exact returns_pure ⟨h.keys, Transaction.idle_empty⟩
  | leave => exact returns_pure ⟨h.keys, trivial⟩
  | writeBatch ws => exact Returns.last fun _ => returns_pure h
  | flush => exact Returns.last fun _ => returns_pure h
  | sweep => exact Returns.last fun _ => returns_pure h
  | reopen settings stamp =>
      exact (returns_orFatal fun x hx => (of_openNamed hx).1).bind fun x hx =>
        returns_pure ⟨hx, h.idle⟩

/-- The index at work holds what it was told. -/
def Holds (ks : IndexKeys) (told : Told) (i : Indexing ν) (ops : List Operation) : Prop :=
  Filed ks i.index.cache told ops i.target

/-- A key that is not one of the index does not count. -/
theorem not_counts_of_elsewhere {k : Bytes} (h : ¬ks.lead <+: k) : ¬ks.Counts k := by
  have hkind : ks.kind? k = none := by
    unfold IndexKeys.kind?
    cases hafter : Bytes.after? ks.lead k with
    | none => rfl
    | some rest => exact absurd ⟨rest, (Bytes.eq_append_of_after? hafter).symm⟩ h
  unfold IndexKeys.Counts IndexKeys.Lexical
  rw [hkind]
  simp

/-- Filing a document where the writes go. -/
theorem leads_file {docId : String} {filing : Option Filing} {step : WriteM ν Index}
    (h : WriteM.Leads (Filed ks i.index.cache told) step fun y ops T =>
      y.keys = ks ∧ Filed ks y.cache (told.file docId filing) ops T) :
    Leads (Holds ks told i) (do
      let (x, T, _) ← step.runOn i.target
      return (⟨x, T⟩ : Indexing ν)) (Holds ks (told.file docId filing)) :=
  (h.runOn i.target).bind fun _ => leads_pure fun _ hQ => hQ.2

/-- Writing where the writes go what does not count. -/
theorem leads_elsewhere {step : WriteM ν Unit}
    (h : WriteM.Leads (Filed ks i.index.cache told) step fun _ =>
      Filed ks i.index.cache told) :
    Leads (Holds ks told i) (do
      let (_, T, _) ← step.runOn i.target
      return { i with target := T }) (Holds ks told) :=
  (h.runOn i.target).bind fun _ => leads_pure fun _ hQ => hQ

/-- What a request leads to: the index holds what it was told before, and
what the request tells as its keys are read. -/
theorem leads_run (hready : Ready name i) (hkeys : i.index.keys = ks) {r : IndexRequest}
    (hr : r.asRead.Admissible ks) :
    Leads (Holds ks told i) (r.run name i) (Holds ks (told.tell r.asRead)) := by
  subst hkeys
  cases r with
  | update docId sortKey terms =>
      refine leads_file (leads_update i.index docId sortKey terms ?_)
      have hsize := hr.2
      rwa [List.length_map] at hsize
  | remove docId => exact leads_file (leads_remove i.index docId)
  | put k value =>
      refine leads_elsewhere (WriteM.leads_put k value fun ops T h => ?_)
      exact h.wrote (not_counts_of_elsewhere hr) (.value value)
  | delete k =>
      refine leads_elsewhere (WriteM.leads_delete k fun ops T h => ?_)
      exact h.wrote (not_counts_of_elsewhere hr) .tombstone
  | begin =>
      exact leads_pure fun ops h =>
        h.forget rfl rfl rfl (apart_of_empty rfl Transaction.idle_empty) rfl
  | flushPending =>
      obtain ⟨x, T⟩ := i
      cases T with
      | database => exact leads_pure fun ops h => h.settle
      | transaction t =>
          have hflush : Leads (Holds x.keys told ⟨x, .transaction t⟩) t.flush fun t' ops =>
              Filed x.keys x.cache told.settle ops (.transaction t') :=
            t.leads_flush fun ops h => h.settled rfl h.apart.2
          exact hflush.bind fun t' => leads_pure fun ops h => h
  | commit =>
      obtain ⟨x, T⟩ := i
      cases T with
      | database => exact leads_pure fun ops h => h.settle
      | transaction t =>
          have hcommit : Leads (Holds x.keys told ⟨x, .transaction t⟩) t.commit fun a ops =>
              Filed x.keys x.cache told.settle ops (.transaction a.1) :=
            t.leads_commit hready.idle fun ops _ h _ => h.settled rfl Transaction.idle_empty
          exact hcommit.bind fun a => leads_pure fun ops h => h
  | abandon =>
      obtain ⟨x, T⟩ := i
      cases T with
      | database => exact leads_pure fun ops h => h.reset
      | transaction t =>
          refine leads_pure fun ops h => ?_
          exact h.forget rfl told.seen_reset (h.opened.trans Option.isSome_map.symm)
            (apart_of_empty rfl Transaction.idle_empty) rfl
  | leave => exact leads_pure fun ops h => h.forget rfl rfl rfl trivial rfl
  | writeBatch ws =>
      refine Leads.bind (Q := fun _ => Holds i.index.keys told i)
        (leads_writeBatch (Transaction.single_operation ws) fun ops h => ?_)
        fun _ => leads_pure fun ops h => h
      refine unmoved_filed _ _ _ _ ops _ ?_ ?_ h
      · rw [contents_append, Operation.writesOfAll_together, Transaction.writesOfAll_operation]
        exact alike_writes (fun w hw => not_counts_of_elsewhere (hr w hw)) _
      · rw [List.length_append]
        exact Nat.le_add_right _ _
  | flush =>
      exact Leads.bind (Q := fun _ => Holds i.index.keys told i) (leads_flush fun ops h => h)
        fun _ => leads_pure fun ops h => h
  | sweep =>
      refine Leads.bind (Q := fun _ => Holds i.index.keys told i)
        ((leads_sweep (unmoved_filed i.index.keys i.index.cache told i.target) _).mono
          (fun ops h => ⟨h.lexicon.lexed, h⟩) fun _ ops h => h.2)
        fun _ => leads_pure fun ops h => h
  | reopen settings stamp =>
      refine (leads_orFatal _).bind_returns (returns_orFatal fun x hx => (of_openNamed hx).2)
        fun x hx => leads_pure fun ops h => ?_
      refine ⟨h.lexicon, ?_, h.apart, h.opened, h.held, h.seen⟩
      show Kept _ x.cache _
      rw [hx]
      exact kept_empty _ _ _

/-- A run leaves the index ready. -/
theorem returns_runAll (h : Ready name i) (rs : List IndexRequest) :
    Returns (runAll name rs i) (Ready name) := by
  induction rs generalizing i with
  | nil => exact returns_pure h
  | cons r rs ih => exact (returns_run h r).bind fun j hj => ih hj

/-- What a run leads to: the index holds what it was told before, and what
the requests tell one after the other as their keys are read. -/
theorem leads_runAll_asRead (hready : Ready name i) {rs : List IndexRequest}
    (hrs : ∀ r ∈ rs, r.asRead.Admissible (IndexKeys.ofName name)) :
    Leads (Holds (IndexKeys.ofName name) told i) (runAll name rs i)
      (Holds (IndexKeys.ofName name) (told.tellAll (rs.map asRead))) := by
  induction rs generalizing i told with
  | nil => exact leads_pure fun ops h => h
  | cons r rs ih =>
      refine (leads_run hready hready.keys (hrs r List.mem_cons_self)).bind_returns
        (returns_run hready r) fun j hj => ?_
      exact ih hj fun u hu => hrs u (List.mem_cons_of_mem _ hu)

/-- Where terms are without tabs, that is what the requests tell. -/
theorem leads_runAll (hready : Ready name i) {rs : List IndexRequest}
    (hrs : ∀ r ∈ rs, r.Admissible (IndexKeys.ofName name)) :
    Leads (Holds (IndexKeys.ofName name) told i) (runAll name rs i)
      (Holds (IndexKeys.ofName name) (told.tellAll rs)) := by
  have hsame : rs.map asRead = rs :=
    (List.map_congr_left fun r hr => asRead_of_admissible (hrs r hr)).trans (List.map_id rs)
  have hlead : Leads (Holds (IndexKeys.ofName name) told i) (runAll name rs i)
      (Holds (IndexKeys.ofName name) (told.tellAll (rs.map asRead))) := by
    refine leads_runAll_asRead hready fun r hr => ?_
    rw [asRead_of_admissible (hrs r hr)]
    exact hrs r hr
  rwa [hsame] at hlead

end IndexRequest

-- ================================================================ searching

namespace Index

open IndexKeys IndexRequest Store Engine

variable {ν : Type} {ks : IndexKeys} {c : TokenCache} {told : Told} {ops : List Operation}
  {T : WriteView ν} {mem : Memory} {w : View} {q : Query}

/-- A fresh index holds nothing. -/
theorem filed_empty (ks : IndexKeys) (capacity : Nat) :
    Filed ks (TokenCache.empty capacity) Told.empty [] (.database : WriteView ν) := by
  have hposted : ks.Posted (contents []) fun _ => none := by
    refine ⟨?_, ?_, ?_, fun token d _ => ?_, fun docId k => ?_, ?_⟩
    · rintro docId f ⟨⟩
    · rintro docId f ⟨⟩
    · rintro k v ⟨⟩
    · refine ⟨fun h => absurd h Bool.false_ne_true, ?_⟩
      rintro ⟨f, ⟨⟩, -⟩
    · refine ⟨fun hk => absurd hk List.not_mem_nil, ?_⟩
      rintro ⟨token, d, -, -, f, ⟨⟩, -⟩
    · rintro docId bytes ⟨⟩
  refine ⟨⟨⟨?_, ?_, ?_, ?_⟩, Nat.le_refl _⟩, kept_empty ks capacity [], trivial, rfl, hposted,
    hposted⟩
  · rintro k v ⟨⟩
  · rintro term raw term' raw' token - - ⟨⟩
  · rintro term raw token ⟨⟩
  · rintro token l ⟨⟩

/-- A search of the database finds what it holds. -/
theorem Filed.found (h : Filed ks c told ops T) (hreads : w.Reads mem (contents ops))
    (hq : q.Clean) : told.held.Found ks mem (.pinned w) q :=
  IndexKeys.found h.lexicon.lexed h.held (ReadView.reads_pinned hreads) hq

/-- A search in the transaction finds what is seen there. -/
theorem Filed.found_transaction {t : Transaction ν} (h : Filed ks c told ops (.transaction t))
    (hreads : w.Reads mem (contents ops)) (hq : q.Clean) :
    told.seen.Found ks mem (.overlay t.pending w) q := by
  refine IndexKeys.found (h.lexicon.lexed.congr fun k hk => ?_) h.seen
    (ReadView.reads_overlay hreads t.pending) hq
  exact h.apart.seen hk

/-- A fresh index. -/
def sampleIndex : Index where
  name := "n"
  keys := IndexKeys.ofName "n"
  cache := TokenCache.empty IndexSettings.standard.cacheCapacity
  sweepBatch := IndexSettings.standard.sweepBatch
  stamp := 1

/-- One document is told to the database, swept, and taken out again in a
transaction that tells of another one with two terms. -/
def sampleRequests : List IndexRequest :=
  [.update "a" "1" [⟨"x", "x", 0⟩], .sweep, .begin, .remove "a",
    .update "b" "0" [⟨"x", "X", 0⟩, ⟨"xy", "xy", 1⟩]]

/-- They may be asked. -/
theorem admissible_sampleRequests :
    ∀ r ∈ sampleRequests, r.Admissible (IndexKeys.ofName "n") := by
  simp only [sampleRequests, List.forall_mem_cons]
  refine ⟨⟨by decide, by decide⟩, trivial, trivial, trivial, ⟨by decide, by decide⟩, ?_⟩
  exact fun r hr => absurd hr List.not_mem_nil

/-- A search finds what the index was told. On a store that was opened in a
vacant directory, an index is worked with by any requests that may be made;
a transaction gathers what it is told until it is committed or abandoned.
Then every query finds, in strict order and each once, the documents whose
terms it asks for, by what they were told last: in the database those that
the database was told, in a snapshot that was taken on the way those that
it had been told by then, and in the transaction that is open those that
are seen there. The run is one that was not ended by a failure of the
store. -/
theorem search_finds_told {dir : Path} {v v' : Volume} {settings : Settings} {clock : UInt64}
    {e : Engine} (hv : Vacant v dir) (hopen : openAt settings dir clock v = .ok e v')
    {name : String} {indexSettings : IndexSettings} {stamp : UInt64} {x : Index}
    (hx : openNamed name indexSettings stamp = .ok x) {before later : List IndexRequest}
    (hadmissible : ∀ r ∈ before ++ later, r.Admissible x.keys) {i j : Indexing ν} {s s' : Store}
    (hbefore : runAll name before ⟨x, .database⟩ (opened v' e) = .ok i s)
    (hlater : runAll name later i s = .ok j s') (hroom : s'.written < UInt64.size)
    (hq : q.Clean) :
    (Told.empty.tellAll before).held.Found x.keys s'.toMemory (.pinned s.engine.view) q ∧
      (Told.empty.tellAll (before ++ later)).held.Found x.keys s'.toMemory
        (.pinned s'.engine.view) q ∧
      ∀ t, j.target = .transaction t → (Told.empty.tellAll (before ++ later)).seen.Found x.keys
        s'.toMemory (.overlay t.pending s'.engine.view) q := by
  obtain ⟨hkeys, hcache⟩ := of_openNamed hx
  rw [hkeys] at hadmissible ⊢
  obtain ⟨e₁, v₁, ids, hopen₁, hsound⟩ := hv.openAt_ok settings clock
  rw [hopen] at hopen₁
  cases hopen₁
  -- the run up to the snapshot, and from there on
  have hready : Ready name (⟨x, .database⟩ : Indexing ν) := ⟨hkeys, trivial⟩
  have hfresh : Holds (IndexKeys.ofName name) Told.empty (⟨x, .database⟩ : Indexing ν) [] := by
    show Filed _ x.cache _ _ _
    rw [hcache]
    exact filed_empty _ _
  obtain ⟨-, hlead⟩ := leads_runAll hready
    (fun r hr => hadmissible r (List.mem_append_left _ hr)) _ _ _ hbefore
  obtain ⟨hle, hlead'⟩ := leads_runAll (returns_runAll hready before _ _ _ hbefore)
    (fun r hr => hadmissible r (List.mem_append_right _ hr)) _ _ _ hlater
  obtain ⟨ops, hs, -, hholds⟩ := hlead hsound.measured (by omega) hfresh
  obtain ⟨ops', hs', hkeeps, hholds'⟩ := hlead' hs (by omega) hholds
  have hreads := hs'.reads
  obtain ⟨ids₁, hsound₁⟩ := hs.sound
  obtain ⟨ids₂, hsound₂⟩ := hs'.sound
  have hsnapshot : s.engine.view.Reads s'.toMemory (contents ops) :=
    (hkeeps _ _ hsound₁.pins).reads hsound₂ fun k => (find?_contents ops k).symm
  have hall : Told.empty.tellAll (before ++ later)
      = (Told.empty.tellAll before).tellAll later := List.foldl_append
  rw [hall]
  refine ⟨hholds.found hsnapshot hq, hholds'.found hreads hq, fun t ht => ?_⟩
  unfold Holds at hholds'
  rw [ht] at hholds'
  exact hholds'.found_transaction hreads hq

/-- Between the first two and the last three of them the database holds the
one document, and afterwards the other is seen. -/
theorem search_finds_told_sampleRequests :
    ∃ (e : Engine) (v : Volume) (i j : Indexing Unit) (s s' : Store) (t : Transaction Unit),
      openAt Settings.standard ["db"] 0 Volume.empty = .ok e v ∧
        runAll "n" (sampleRequests.take 2) ⟨sampleIndex, .database⟩ (opened v e) = .ok i s ∧
        runAll "n" (sampleRequests.drop 2) i s = .ok j s' ∧ j.target = .transaction t ∧
        (Told.empty.tellAll (sampleRequests.take 2)).held.Found sampleIndex.keys s'.toMemory
          (.pinned s.engine.view) (.term "x") ∧
        (Told.empty.tellAll sampleRequests).seen.Found sampleIndex.keys s'.toMemory
          (.overlay t.pending s'.engine.view) (.all [.term "x", .beginning "x"]) := by
  have hruns : ends (openAt Settings.standard ["db"] 0) Volume.empty (fun e v =>
      ends (runAll "n" (sampleRequests.take 2) (⟨sampleIndex, .database⟩ : Indexing Unit))
        (opened v e) fun i s => ends (runAll "n" (sampleRequests.drop 2) i) s fun j s' =>
          decide (s'.written < UInt64.size) && j.target.isOpen) = true := by
    decide +kernel
  obtain ⟨e, v, hopen, hruns⟩ := of_ends hruns
  obtain ⟨i, s, hbefore, hruns⟩ := of_ends hruns
  obtain ⟨j, s', hlater, hend⟩ := of_ends hruns
  obtain ⟨hroom, htarget⟩ := Bool.and_eq_true_iff.mp hend
  have hx : openNamed "n" IndexSettings.standard 1 = .ok sampleIndex := rfl
  have hfinds {q : Query} (hq : q.Clean) :=
    search_finds_told (vacant_empty ["db"]) hopen hx admissible_sampleRequests hbefore hlater
      (of_decide_eq_true hroom) hq
  cases hj : j.target with
  | database =>
      rw [hj] at htarget
      cases htarget
  | transaction t =>
      exact ⟨e, v, i, j, s, s', t, hopen, hbefore, hlater, hj, (hfinds (by decide)).1,
        (hfinds (by decide)).2.2 t hj⟩

end Index

end OrderedStore
