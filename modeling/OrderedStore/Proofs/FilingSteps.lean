/-
Filing documents, where writes go.

While a document is filed entries are written one by one, and the lexicon
grows in between. How far the filing has come is said of where it began:
what is seen where the writes go is what was seen then, with the entries
written since over it, and tokens that were there go on being there
(`Progress`, `Underway`). Nothing of the lexicon is ever pending, so it is
seen as it is in the database (`Apart`). Each step of a filing moves the
progress on, one lemma per step. At the end the entries have taken the old
postings away, put the new ones and listed them (`refiling`), and so the
index holds what it was told (`Filed`). If the writes went into a
transaction, the database holds what it held.
-/
import Mathlib
import OrderedStore.Proofs.Filing

namespace OrderedStore

-- ============================================================== last writes

section LastWrite

variable {α : Type}

/-- Keys that are not written have no last write. -/
theorem lastWrite_eq_none {ws : List (Bytes × α)} {k : Bytes} (h : ∀ w ∈ ws, w.1 ≠ k) :
    lastWrite ws k = none := by
  cases hu : lastWrite ws k with
  | none => rfl
  | some u => exact absurd rfl (h _ (mem_of_lastWrite hu))

/-- Of one entry written under many keys, each key has that. -/
theorem lastWrite_map_const (keys : List Bytes) (e : α) (k : Bytes) :
    lastWrite (keys.map fun l => (l, e)) k = if k ∈ keys then some e else none := by
  by_cases hk : k ∈ keys
  · rw [if_pos hk]
    obtain ⟨u, hu⟩ := lastWrite_of_mem (List.mem_map_of_mem (f := fun l => (l, e)) hk)
    obtain ⟨l, -, heq⟩ := List.mem_map.mp (mem_of_lastWrite hu)
    rw [hu, ← (Prod.mk.inj heq).2]
  · rw [if_neg hk]
    refine lastWrite_eq_none fun w hw heq => ?_
    obtain ⟨l, hl, rfl⟩ := List.mem_map.mp hw
    exact hk (heq ▸ hl)

end LastWrite

/-- A key that is written leads to what was written, and others to what they
led to. -/
theorem KeyMap.find?_write (m : KeyMap Bytes) (k : Bytes) (e : Entry) (l : Bytes) :
    (m.write (k, e)).find? l = if l = k then e.value? else m.find? l := by
  show ([(k, e)].foldl KeyMap.write m).find? l = _
  have hone : lastWrite [(k, e)] l = if l = k then some e else none := lastWrite_concat [] _ l
  rw [find?_foldl_write, hone]
  by_cases hl : l = k
  · rw [if_pos hl, if_pos hl]
    rfl
  · rw [if_neg hl, if_neg hl, Option.none_or]
    cases m.find? l <;> rfl

-- ========================================================== where writes go

namespace WriteView

variable {ν : Type} {T : WriteView ν} {ops ops' : List Operation} {k : Bytes}

/-- Where the database is the same, so is what is seen. -/
theorem seen_congr (h : (contents ops').find? k = (contents ops).find? k) :
    (T.seen ops').find? k = (T.seen ops).find? k := by
  cases T with
  | database => exact h
  | transaction t =>
      show ((contents ops').laid t.pending).find? k = ((contents ops).laid t.pending).find? k
      rw [KeyMap.find?_laid, KeyMap.find?_laid]
      unfold KeyMap.entry
      rw [h]

/-- Whether the writes go into a transaction. -/
def isOpen (T : WriteView ν) : Bool :=
  match T with
  | .database => false
  | .transaction _ => true

/-- They go on going where they went. -/
theorem isOpen_wrote (T : WriteView ν) (w : Bytes × Entry) : (T.wrote w).isOpen = T.isOpen := by
  cases T <;> rfl

/-- The same when a trigger is added. -/
theorem isOpen_triggered (T : WriteView ν) (key : String) (trigger : Trigger ν) :
    (T.triggered key trigger).isOpen = T.isOpen := by
  cases T <;> rfl

end WriteView

namespace IndexKeys

variable {ν : Type} {ks : IndexKeys} {T : WriteView ν} {ops ops' : List Operation} {k : Bytes}
  {e : Entry}

/-- Nothing of the lexicon is pending, and what is to be done on a commit
does nothing but give notice. -/
def Apart (ks : IndexKeys) (T : WriteView ν) : Prop :=
  match T with
  | .database => True
  | .transaction t => (∀ k, ks.Lexical k → t.pending.find? k = none) ∧ t.Idle

/-- The lexicon is seen as it is in the database. -/
theorem Apart.seen (h : ks.Apart T) (hk : ks.Lexical k) :
    (T.seen ops).find? k = (contents ops).find? k := by
  cases T with
  | database => rfl
  | transaction t =>
      exact KeyMap.find?_laid_of_none (h.1 k hk)

/-- Other entries may be written. -/
theorem Apart.wrote (h : ks.Apart T) (hk : ¬ks.Lexical k) (e : Entry) :
    ks.Apart (T.wrote (k, e)) := by
  cases T with
  | database => trivial
  | transaction t =>
      refine ⟨fun l hl => ?_, h.2⟩
      show (t.pending.insert k e).find? l = none
      rw [KeyMap.find?_insert, if_neg, h.1 l hl]
      rintro rfl
      exact hk hl

/-- Notice may be asked for. -/
theorem Apart.triggered (h : ks.Apart T) (key : String) (notice : Notice ν) :
    ks.Apart (T.triggered key (pure notice : DbM (Notice ν))) := by
  cases T with
  | database => trivial
  | transaction t => exact ⟨h.1, h.2.addTrigger key notice⟩

/-- What is logged of an entry leaves the lexicon alone. -/
theorem find?_logs (hk : ¬ks.Lexical k) {l : Bytes} (hl : ks.Lexical l) :
    (contents (T.logs ops (k, e))).find? l = (contents ops).find? l := by
  cases T with
  | transaction t => rfl
  | database =>
      show (contents (ops ++ [Transaction.operation (k, e)])).find? l = _
      rw [Transaction.contents_operation, KeyMap.find?_write, if_neg]
      rintro rfl
      exact hk hl

/-- So the lexicon goes on being one. -/
theorem Lexicon.logs (h : ks.Lexicon ops) (hk : ¬ks.Lexical k) :
    ks.Lexicon (T.logs ops (k, e)) := by
  have hsame : ∀ l, ks.Lexical l → (contents (T.logs ops (k, e))).find? l
      = (contents ops).find? l := fun l hl => find?_logs hk hl
  refine ⟨h.lexed.congr hsame, ?_⟩
  rw [nextIn_congr hsame]
  refine le_trans h.count (Nat.succ_le_succ ?_)
  cases T with
  | transaction t => exact Nat.le_refl _
  | database =>
      show ops.length ≤ (ops ++ [_]).length
      rw [List.length_append]
      exact Nat.le_add_right _ _

-- ================================================================ progress

/-- How far the filing of a document has come: what was seen and what the
database held when it began, whether a transaction is open, the terms that
have got tokens since, and the entries that have been written. -/
structure Progress where
  seen : KeyMap Bytes
  held : KeyMap Bytes
  opened : Bool
  terms : List Term
  tokens : List UInt64
  entries : List (Bytes × Entry)

/-- More entries have been written. -/
def Progress.write (g : Progress) (ws : List (Bytes × Entry)) : Progress :=
  { g with entries := g.entries ++ ws }

/-- Entries that are written one behind the other. -/
theorem Progress.write_write (g : Progress) (ws us : List (Bytes × Entry)) :
    (g.write ws).write us = g.write (ws ++ us) := by
  unfold write
  rw [List.append_assoc]

/-- No entries. -/
theorem Progress.write_nil (g : Progress) : g.write [] = g := by
  unfold write
  rw [List.append_nil]

/-- The filing has come so far. -/
structure Reached (ks : IndexKeys) (g : Progress) (ops : List Operation) (T : WriteView ν) :
    Prop where
  apart : ks.Apart T
  opened : T.isOpen = g.opened
  keeps : ∀ {term raw token}, ks.tokenIn g.held term raw = some token →
    ks.tokenIn (contents ops) term raw = some token
  given : g.terms.map (ks.tokenFor (contents ops)) = g.tokens.map some
  seen : ∀ k, ¬ks.Lexical k →
    (T.seen ops).find? k = ((lastWrite g.entries k).or (g.seen.entry k)).bind Entry.value?
  held : ∀ t, T = .transaction t → ∀ k, ¬ks.Lexical k →
    (contents ops).find? k = g.held.find? k

/-- It has, the lexicon is one, and the tokens kept in memory are in it. -/
def Underway (ks : IndexKeys) (g : Progress) (c : TokenCache) (ops : List Operation)
    (T : WriteView ν) : Prop :=
  ks.Lexicon ops ∧ Index.Kept ks c ops ∧ ks.Reached g ops T

variable {g : Progress} {c : TokenCache}

/-- It has only begun. -/
theorem reached_start (h : ks.Apart T) :
    ks.Reached ⟨T.seen ops, contents ops, T.isOpen, [], [], []⟩ ops T := by
  refine ⟨h, rfl, fun ht => ht, rfl, fun k _ => ?_, fun _ _ _ _ => rfl⟩
  rw [lastWrite_nil, Option.none_or]
  unfold KeyMap.entry
  cases (T.seen ops).find? k <;> rfl

/-- Tokens that are given go on being found. -/
theorem stable_given (ks : IndexKeys) (terms : List Term) (tokens : List UInt64) :
    ks.Stable fun ops => terms.map (ks.tokenFor (contents ops)) = tokens.map some := by
  intro ops ops' hgrown h
  rw [← h]
  refine List.map_congr_left fun t ht => ?_
  have hmem : ks.tokenFor (contents ops) t ∈ tokens.map some := h ▸ List.mem_map_of_mem ht
  obtain ⟨token, -, htoken⟩ := List.mem_map.mp hmem
  rw [← htoken]
  exact hgrown.keeps htoken.symm

/-- The lexicon may grow in between. -/
theorem stable_reached (ks : IndexKeys) (g : Progress) (T : WriteView ν) :
    ks.Stable fun ops => ks.Reached g ops T := by
  intro ops ops' hgrown h
  refine ⟨h.apart, h.opened, fun ht => hgrown.keeps (h.keeps ht),
    stable_given ks g.terms g.tokens ops ops' hgrown h.given, fun k hk => ?_, fun t ht k hk => ?_⟩
  · rw [WriteView.seen_congr (hgrown.rest k hk), h.seen k hk]
  · rw [hgrown.rest k hk, h.held t ht k hk]

/-- One more entry is written. -/
theorem Underway.wrote (h : ks.Underway g c ops T) (hk : ¬ks.Lexical k) (e : Entry) :
    ks.Underway (g.write [(k, e)]) c (T.logs ops (k, e)) (T.wrote (k, e)) := by
  obtain ⟨hlex, hkept, hreached⟩ := h
  have hsame : ∀ l, ks.Lexical l → (contents (T.logs ops (k, e))).find? l
      = (contents ops).find? l := fun l hl => find?_logs hk hl
  have htokens : ks.tokenFor (contents (T.logs ops (k, e))) = ks.tokenFor (contents ops) :=
    funext fun t => tokenIn_congr hsame _ _
  refine ⟨hlex.logs hk, fun ht => ?_, hreached.apart.wrote hk e, ?_, fun ht => ?_, ?_,
    fun l hl => ?_, fun t ht l hl => ?_⟩
  · rw [tokenIn_congr hsame]
    exact hkept ht
  · rw [WriteView.isOpen_wrote]
    exact hreached.opened
  · rw [tokenIn_congr hsame]
    exact hreached.keeps ht
  · rw [htokens]
    exact hreached.given
  · rw [WriteView.seen_wrote, KeyMap.find?_write]
    show _ = ((lastWrite (g.entries ++ [(k, e)]) l).or (g.seen.entry l)).bind Entry.value?
    rw [lastWrite_concat]
    by_cases hlk : l = k
    · rw [if_pos hlk, if_pos hlk]
      rfl
    · rw [if_neg hlk, if_neg hlk, hreached.seen l hl]
  · cases T with
    | database => cases ht
    | transaction t' => exact hreached.held t' rfl l hl

/-- Notice is asked for. -/
theorem Underway.triggered (h : ks.Underway g c ops T) (key : String) (notice : Notice ν) :
    ks.Underway g c ops (T.triggered key (pure notice : DbM (Notice ν))) := by
  obtain ⟨hlex, hkept, hreached⟩ := h
  refine ⟨hlex, hkept, hreached.apart.triggered key notice, ?_, hreached.keeps, hreached.given,
    fun k hk => ?_, fun t ht k hk => ?_⟩
  · rw [WriteView.isOpen_triggered]
    exact hreached.opened
  · rw [WriteView.seen_triggered]
    exact hreached.seen k hk
  · cases T with
    | database => cases ht
    | transaction t' => exact hreached.held t' rfl k hk

end IndexKeys

-- =================================================================== told

/-- What an index was told: the documents that the database holds, and
those that are seen in the transaction, if one is open. -/
structure Told where
  held : Documents
  opened : Option Documents

/-- The documents that are seen where the writes go. -/
def Told.seen (told : Told) : Documents :=
  told.opened.getD told.held

/-- A document is filed anew, or taken out, where the writes go. -/
def Told.file (told : Told) (docId : String) (filing : Option Filing) : Told :=
  match told.opened with
  | none => ⟨Function.update told.held docId filing, none⟩
  | some docs => ⟨told.held, some (Function.update docs docId filing)⟩

-- ================================================================== steps

namespace Index

open IndexKeys WriteM

variable {ν : Type} {ks : IndexKeys} {g : Progress} {c : TokenCache}

/-- Entries are written one after the other, under keys that are not of the
lexicon as far as a fact goes. -/
theorem leads_write_each {γ : Type} {items : List γ} {key : γ → Bytes} {φ : Prop}
    (hkeys : φ → ∀ a ∈ items, ¬ks.Lexical (key a)) (e : Entry) {step : γ → WriteM ν PUnit}
    (hstep : ∀ a {P : List Operation → WriteView ν → Prop}
      {Q : PUnit → List Operation → WriteView ν → Prop},
      (∀ ops T, P ops T → Q ⟨⟩ (T.logs ops (key a, e)) (T.wrote (key a, e))) →
        WriteM.Leads P (step a) Q) :
    WriteM.Leads (fun ops T => φ ∧ ks.Underway g c ops T) (items.forM step)
      fun _ ops T => φ ∧ ks.Underway (g.write (items.map fun a => (key a, e))) c ops T := by
  have hall := leads_forM
    (fun front ops T => φ ∧ ks.Underway (g.write (front.map fun a => (key a, e))) c ops T) items
    (g := step) fun front a ha => hstep a fun ops T h => by
      rw [List.map_append, List.map_singleton, ← Progress.write_write]
      exact ⟨h.1, h.2.wrote (hkeys h.1 a ha) e⟩
  rwa [List.map_nil, Progress.write_nil] at hall

/-- The key of a document's list is not of the lexicon. -/
theorem not_lexical_document (ks : IndexKeys) (docId : String) :
    ¬ks.Lexical (ks.document docId) := by
  unfold Lexical
  simp

/-- A posting is not. -/
theorem not_lexical_posting (ks : IndexKeys) (token : UInt64) (d : DocKey) :
    ¬ks.Lexical (ks.posting token d) := by
  unfold Lexical
  simp

/-- A mark is not. -/
theorem not_lexical_mark (ks : IndexKeys) (token : UInt64) : ¬ks.Lexical (ks.mark token) := by
  unfold Lexical
  simp

/-- The deletion of what is listed under a document. -/
def cleared (ks : IndexKeys) (m : KeyMap Bytes) (docId : String) : List (Bytes × Entry) :=
  (ks.listedIn m docId).map fun k => (k, .tombstone)

/-- What is listed under a document is deleted, if it is not of the
lexicon. -/
theorem leads_deletePostings (docId : String) (hbegun : g.entries = []) :
    WriteM.Leads (fun ops T => (∀ k ∈ ks.listedIn g.seen docId, ¬ks.Lexical k) ∧
        ks.Underway g c ops T)
      (deletePostings ks docId : WriteM ν (List UInt64))
      fun _ => ks.Underway (g.write (cleared ks g.seen docId)) c := by
  have hget : WriteM.Leads (fun ops T => (∀ k ∈ ks.listedIn g.seen docId, ¬ks.Lexical k) ∧
      ks.Underway g c ops T)
      (WriteM.get (ks.document docId) : WriteM ν (Option Bytes)) fun found ops T =>
        ((∀ k ∈ ks.listedIn g.seen docId, ¬ks.Lexical k) ∧
          g.seen.find? (ks.document docId) = found) ∧ ks.Underway g c ops T := by
    refine WriteM.leads_get _ fun ops T h => ⟨⟨h.1, ?_⟩, h.2⟩
    rw [h.2.2.2.seen _ (not_lexical_document ks docId), hbegun, lastWrite_nil, Option.none_or]
    unfold KeyMap.entry
    cases g.seen.find? (ks.document docId) <;> rfl
  have hnothing {found : Option Bytes}
      (hnil : g.seen.find? (ks.document docId) = found → ks.listedIn g.seen docId = []) :
      WriteM.Leads (fun ops T => ((∀ k ∈ ks.listedIn g.seen docId, ¬ks.Lexical k) ∧
        g.seen.find? (ks.document docId) = found) ∧ ks.Underway g c ops T)
        (pure [] : WriteM ν (List UInt64)) fun _ =>
          ks.Underway (g.write (cleared ks g.seen docId)) c := by
    refine WriteM.leads_pure fun ops T h => ?_
    unfold cleared
    rw [hnil h.1.2, List.map_nil, Progress.write_nil]
    exact h.2
  unfold deletePostings
  refine hget.bind fun found => ?_
  cases found with
  | none =>
      refine hnothing fun hfound => ?_
      unfold listedIn
      rw [hfound]
  | some bytes =>
      dsimp only
      cases hread : Wire.readBlobs bytes with
      | error f =>
          refine hnothing fun hfound => ?_
          unfold listedIn
          rw [hfound]
          simp only [hread]
      | ok found =>
          obtain ⟨postings, rest⟩ := found
          have hsame (h : g.seen.find? (ks.document docId) = some bytes) :
              ks.listedIn g.seen docId = postings := by
            unfold listedIn
            rw [h]
            simp only [hread]
          refine (leads_write_each (fun h k hk => h.1 k (by rwa [hsame h.2])) .tombstone
            fun k _ _ h => WriteM.leads_delete k h).bind fun _ => ?_
          refine WriteM.leads_pure fun ops T h => ?_
          unfold cleared
          rw [hsame h.1.2]
          exact h.2

/-- Terms get tokens, which those that their keys are read as have, too. -/
theorem leads_giveTokens {x : Index} (hx : x.keys = ks) (terms : List Term) :
    WriteM.Leads (ks.Underway g x.cache) (liftM (x.tokensOf terms) : WriteM ν (List UInt64 × Index))
      fun a => ks.Underway { g with terms := terms.map Term.asRead, tokens := a.1 } a.2.cache := by
  subst hx
  refine WriteM.leads_lift fun T => ?_
  refine (leads_tokensOf (stable_reached x.keys g T) terms).mono (fun ops h => h)
    fun a ops h => ?_
  obtain ⟨hlex, hkept, hreached, hgiven⟩ := h
  refine ⟨hlex, hkept, hreached.apart, hreached.opened, hreached.keeps, ?_, hreached.seen,
    hreached.held⟩
  rw [List.map_map]
  exact (List.map_congr_left fun t _ => tokenFor_asRead x.keys _ t).trans hgiven

/-- The entry under a document: the list of its postings, if it has any. -/
def listing (ks : IndexKeys) (docId : String) (postings : List Bytes) : Bytes × Entry :=
  (ks.document docId, if postings.isEmpty then .tombstone else .value (Wire.blobs postings))

/-- Postings are put, and listed under a document; then it goes on. -/
theorem leads_putPostings {α : Type} (docId : String) {postings : List Bytes} {φ : Prop}
    {rest : WriteM ν α} {R : α → List Operation → WriteView ν → Prop}
    (hpostings : ∀ k ∈ postings, ¬ks.Lexical k)
    (hrest : WriteM.Leads (fun ops T => φ ∧ ks.Underway
      (g.write (postings.map (fun k => (k, .value [])) ++ [listing ks docId postings])) c ops T)
      rest R) :
    WriteM.Leads (fun ops T => φ ∧ ks.Underway g c ops T)
      ((postings.forM fun key => WriteM.put key []) >>= fun _ =>
        if postings.isEmpty then WriteM.delete (ks.document docId) >>= fun _ => rest
        else WriteM.put (ks.document docId) (Wire.blobs postings) >>= fun _ => rest) R := by
  have hput : WriteM.Leads (fun ops T => φ ∧ ks.Underway g c ops T)
      (postings.forM fun key => WriteM.put key [] : WriteM ν PUnit) fun _ ops T =>
        φ ∧ ks.Underway (g.write (postings.map fun k => (k, .value []))) c ops T :=
    leads_write_each (fun _ => hpostings) _ fun k _ _ h => WriteM.leads_put k [] h
  rw [← Progress.write_write] at hrest
  unfold listing at hrest
  refine hput.bind fun _ => ?_
  split
  · next hempty =>
      rw [if_pos hempty] at hrest
      exact WriteM.Leads.bind (WriteM.leads_delete _ fun ops T h =>
        ⟨h.1, h.2.wrote (not_lexical_document ks docId) _⟩) fun _ => hrest
  · next hempty =>
      rw [if_neg hempty] at hrest
      exact WriteM.Leads.bind (WriteM.leads_put _ _ fun ops T h =>
        ⟨h.1, h.2.wrote (not_lexical_document ks docId) _⟩) fun _ => hrest

/-- Tokens are marked, or there are none to mark. -/
theorem leads_markTokens {x : Index} (hx : x.keys = ks) (tokens : List UInt64) :
    WriteM.Leads (ks.Underway g x.cache) (x.markTokens tokens : WriteM ν Index)
      fun y ops T => y.keys = ks ∧ ∃ (marks : List UInt64) (e : Entry),
        ks.Underway (g.write (marks.map fun token => (ks.mark token, e))) y.cache ops T := by
  subst hx
  unfold markTokens
  split
  · refine WriteM.leads_pure fun ops T h => ⟨rfl, [], .tombstone, ?_⟩
    rw [List.map_nil, Progress.write_nil]
    exact h
  · have hmarks : WriteM.Leads (fun ops T => True ∧ x.keys.Underway g x.cache ops T)
        ((sortTokens tokens).forM fun token =>
          WriteM.put (x.keys.mark token) (Codec.fixed64 x.stamp) : WriteM ν PUnit)
        fun _ ops T => True ∧ x.keys.Underway (g.write ((sortTokens tokens).map fun token =>
          (x.keys.mark token, .value (Codec.fixed64 x.stamp)))) x.cache ops T :=
      leads_write_each (fun _ token _ => not_lexical_mark x.keys token) _
        fun token _ _ h => WriteM.leads_put (x.keys.mark token) (Codec.fixed64 x.stamp) h
    refine (hmarks.mono (fun ops T h => ⟨trivial, h⟩) fun _ _ _ h => h.2).bind fun _ => ?_
    have hnotice : WriteM.Leads (x.keys.Underway (g.write ((sortTokens tokens).map fun token =>
          (x.keys.mark token, .value (Codec.fixed64 x.stamp)))) x.cache)
        (WriteM.afterCommit ("fulltext-stats/" ++ x.name)
          (pure (Notice.statistics x.name) : DbM (Notice ν))) fun _ =>
        x.keys.Underway (g.write ((sortTokens tokens).map fun token =>
          (x.keys.mark token, .value (Codec.fixed64 x.stamp)))) x.cache :=
      WriteM.leads_afterCommit _ _ fun ops T h => h.triggered _ _
    exact hnotice.bind fun _ => WriteM.leads_pure fun ops T h => ⟨rfl, _, _, h⟩

-- =============================================================== refiling

/-- What is written when a document is filed anew: what was listed is
deleted, postings are put and listed, and tokens are marked. -/
def refiling (ks : IndexKeys) (m : KeyMap Bytes) (docId : String) (fresh : List Bytes)
    (marks : List UInt64) (e : Entry) : List (Bytes × Entry) :=
  cleared ks m docId ++ (fresh.map (fun k => (k, .value [])) ++ [listing ks docId fresh])
    ++ marks.map fun token => (ks.mark token, e)

variable {m : KeyMap Bytes} {docId : String} {fresh : List Bytes} {marks : List UInt64} {e : Entry}

/-- What it makes of postings. -/
theorem lastWrite_refiling_posting {k : Bytes} (hk : ks.kind? k = some 105) :
    lastWrite (refiling ks m docId fresh marks e) k
      = if k ∈ fresh then some (.value [])
        else if k ∈ ks.listedIn m docId then some .tombstone else none := by
  have hmarks : lastWrite (marks.map fun token => (ks.mark token, e)) k = none := by
    refine lastWrite_eq_none fun w hw => ?_
    obtain ⟨token, -, rfl⟩ := List.mem_map.mp hw
    exact ks.ne_of_kind? (by rw [hk]; simp)
  have hlisting : k ≠ (listing ks docId fresh).1 := ks.ne_of_kind? (by rw [hk]; simp [listing])
  unfold refiling cleared
  rw [lastWrite_append, hmarks, Option.none_or, lastWrite_append, lastWrite_concat,
    if_neg hlisting, lastWrite_map_const, lastWrite_map_const]
  by_cases hfresh : k ∈ fresh
  · rw [if_pos hfresh, if_pos hfresh]
    rfl
  · rw [if_neg hfresh, if_neg hfresh, Option.none_or]

/-- What it makes of the lists under documents. -/
theorem lastWrite_refiling_document (hlisted : ∀ k ∈ ks.listedIn m docId, ks.kind? k = some 105)
    (hfresh : ∀ k ∈ fresh, ks.kind? k = some 105) (other : String) :
    lastWrite (refiling ks m docId fresh marks e) (ks.document other)
      = if other = docId then some (listing ks docId fresh).2 else none := by
  have hmarks : lastWrite (marks.map fun token => (ks.mark token, e)) (ks.document other)
      = none := by
    refine lastWrite_eq_none fun w hw => ?_
    obtain ⟨token, -, rfl⟩ := List.mem_map.mp hw
    exact ks.ne_of_kind? (by simp)
  have hposting {keys : List Bytes} (hkeys : ∀ k ∈ keys, ks.kind? k = some 105) :
      ks.document other ∉ keys := by
    intro hmem
    have hkind := hkeys _ hmem
    rw [ks.kind?_document] at hkind
    cases hkind
  unfold refiling cleared
  rw [lastWrite_append, hmarks, Option.none_or, lastWrite_append, lastWrite_concat,
    lastWrite_map_const, lastWrite_map_const, if_neg (hposting hlisted), if_neg (hposting hfresh),
    Option.or_none]
  by_cases hsame : other = docId
  · rw [if_pos hsame, if_pos]
    rw [hsame]
    rfl
  · rw [if_neg hsame, if_neg]
    exact fun heq => hsame (ks.document_inj heq)

/-- What is seen then holds the document as it was filed. -/
theorem posted_of_refiling {ops : List Operation} {T : WriteView ν} {docs : Documents}
    {filing : Option Filing} (h : ks.Reached g ops T)
    (hentries : g.entries = refiling ks g.seen docId fresh marks e)
    (hp : ks.Posted g.seen docs) (hlexical : ∀ k, ks.Lexical k → g.seen.find? k = g.held.find? k)
    (hplain : ∀ f, filing = some f → Plain f.sortKey ∧ ∀ t ∈ f.terms, Plain t.index)
    (hterms : ∀ f, filing = some f → f.terms = g.terms)
    (hfresh : ∀ k, k ∈ fresh ↔ ∃ token d, d.docId = docId ∧ k = ks.posting token d ∧
      ks.Files (contents ops) (Function.update docs docId filing) token d)
    (hsorted : fresh.Pairwise (· < ·)) (hsize : (Wire.blobs fresh).length < UInt64.size) :
    ks.Posted (T.seen ops) (Function.update docs docId filing) := by
  have hseen {term raw : String} : ks.tokenIn (T.seen ops) term raw
      = ks.tokenIn (contents ops) term raw := tokenIn_congr (fun k hk => h.apart.seen hk) _ _
  have hfor : ks.tokenFor (T.seen ops) = ks.tokenFor (contents ops) := funext fun t => hseen
  have hlistedKind : ∀ k ∈ ks.listedIn g.seen docId, ks.kind? k = some 105 := by
    intro k hk
    obtain ⟨token, d, -, rfl, -⟩ := (hp.listed docId k).mp hk
    exact ks.kind?_posting token d
  have hfreshKind : ∀ k ∈ fresh, ks.kind? k = some 105 := by
    intro k hk
    obtain ⟨token, d, -, rfl, -⟩ := (hfresh k).mp hk
    exact ks.kind?_posting token d
  have hdocument (other : String) : (T.seen ops).find? (ks.document other)
      = if other = docId then (listing ks docId fresh).2.value?
        else g.seen.find? (ks.document other) := by
    rw [h.seen _ (not_lexical_document ks other), hentries,
      lastWrite_refiling_document hlistedKind hfreshKind]
    by_cases hsame : other = docId
    · rw [if_pos hsame, if_pos hsame]
      rfl
    · rw [if_neg hsame, if_neg hsame, Option.none_or]
      unfold KeyMap.entry
      cases g.seen.find? (ks.document other) <;> rfl
  have hseenFresh (k : Bytes) : k ∈ fresh ↔ ∃ token d, d.docId = docId ∧
      k = ks.posting token d ∧
      ks.Files (T.seen ops) (Function.update docs docId filing) token d := by
    rw [hfresh]
    unfold Files
    rw [hfor]
  have hread := Wire.readBlobs_blobs hsize []
  rw [List.append_nil] at hread
  refine hp.refile (fun ht => ?_) hplain (fun f hf t ht => ?_) hseenFresh
    (fun k hk => ?_) (fun other hne => ?_) ?_ fun bytes hbytes => ?_
  · rw [hseen]
    refine h.keeps ?_
    rwa [← tokenIn_congr hlexical]
  · rw [hfor]
    have hmem : ks.tokenFor (contents ops) t ∈ g.tokens.map some := by
      rw [← h.given, ← hterms f hf]
      exact List.mem_map_of_mem ht
    obtain ⟨token, -, htoken⟩ := List.mem_map.mp hmem
    rw [← htoken]
    rfl
  · have hlexical : ¬ks.Lexical k := by
      unfold Lexical
      rw [hk]
      simp
    rw [h.seen k hlexical, hentries, lastWrite_refiling_posting hk]
    by_cases hin : k ∈ fresh
    · rw [if_pos hin, if_pos hin]
      rfl
    · rw [if_neg hin, if_neg hin]
      by_cases hold : k ∈ ks.listedIn g.seen docId
      · rw [if_pos hold, if_pos hold]
        rfl
      · rw [if_neg hold, if_neg hold, Option.none_or]
        unfold KeyMap.entry
        cases g.seen.find? k <;> rfl
  · rw [hdocument, if_neg hne]
  · unfold listedIn
    rw [hdocument, if_pos rfl]
    unfold listing
    cases hempty : fresh.isEmpty with
    | true =>
        rw [if_pos rfl]
        exact (List.isEmpty_iff.mp hempty).symm
    | false =>
        rw [if_neg Bool.false_ne_true]
        simp only [Entry.value?, hread]
  · rw [hdocument, if_pos rfl] at hbytes
    unfold listing at hbytes
    cases hempty : fresh.isEmpty with
    | true =>
        rw [hempty] at hbytes
        cases hbytes
    | false =>
        rw [hempty] at hbytes
        cases hbytes
        exact ⟨fresh, hread, List.isEmpty_eq_false_iff.mp hempty, hsorted⟩

/-- The postings under tokens. -/
theorem mem_postingsOf {ks : IndexKeys} {d : DocKey} {tokens : List UInt64} {k : Bytes} :
    k ∈ postingsOf ks d tokens ↔ ∃ token ∈ tokens, k = ks.posting token d := by
  unfold postingsOf
  constructor
  · intro hk
    obtain ⟨⟨l, u⟩, hmem, rfl⟩ := List.mem_map.mp hk
    have hfound := KeyMap.mem_entries.mp hmem
    rw [find?_ofList] at hfound
    obtain ⟨token, htoken, heq⟩ := List.mem_map.mp (mem_of_lastWrite hfound)
    exact ⟨token, htoken, (Prod.mk.inj heq).1.symm⟩
  · rintro ⟨token, htoken, rfl⟩
    obtain ⟨u, hu⟩ := lastWrite_of_mem
      (List.mem_map_of_mem (f := fun token => (ks.posting token d, ())) htoken)
    rw [← find?_ofList] at hu
    exact List.mem_map.mpr ⟨_, KeyMap.mem_entries.mpr hu, rfl⟩

/-- They are in strict order. -/
theorem pairwise_postingsOf (ks : IndexKeys) (d : DocKey) (tokens : List UInt64) :
    (postingsOf ks d tokens).Pairwise (· < ·) :=
  List.pairwise_map.mpr (KeyMap.sorted _)

/-- A number of bytes that the list of a document's postings does not
exceed. -/
def listingBound (ks : IndexKeys) (d : DocKey) (count : Nat) : Nat :=
  8 + count * (ks.lead.length + d.tail.length + 20)

/-- It does not. -/
theorem length_blobs_postingsOf (ks : IndexKeys) (d : DocKey) (tokens : List UInt64) :
    (Wire.blobs (postingsOf ks d tokens)).length ≤ listingBound ks d tokens.length := by
  have hcount : (postingsOf ks d tokens).length ≤ tokens.length := by
    have hsize := size_ofList_le (tokens.map fun token => (ks.posting token d, ()))
    rw [List.length_map] at hsize
    unfold postingsOf
    rw [List.length_map]
    exact hsize
  have hposting (token : UInt64) :
      (ks.posting token d).length ≤ ks.lead.length + d.tail.length + 12 := by
    have hdigits := Bytes.digitCount_le token.toNat_lt
    have hkind : (Text.toBytes "i/").length = 2 := rfl
    unfold posting postings part Codec.ordered
    simp only [List.length_append, List.length_cons, List.length_nil, Bytes.length_bigEndian,
      hkind]
    omega
  have hall {keys : List Bytes} (hkeys : ∀ k ∈ keys, ∃ token, k = ks.posting token d) :
      (keys.flatMap Wire.blob).length ≤ keys.length * (ks.lead.length + d.tail.length + 20) := by
    induction keys with
    | nil => exact Nat.zero_le _
    | cons k keys ih =>
        obtain ⟨token, rfl⟩ := hkeys k List.mem_cons_self
        have hrest := ih fun l hl => hkeys l (List.mem_cons_of_mem _ hl)
        have hfirst := hposting token
        rw [List.flatMap_cons, List.length_append, Wire.length_blob, List.length_cons,
          Nat.succ_mul]
        omega
  have hitems := @hall (postingsOf ks d tokens) fun k hk => by
    obtain ⟨token, -, rfl⟩ := mem_postingsOf.mp hk
    exact ⟨token, rfl⟩
  unfold Wire.blobs listingBound
  rw [List.length_append, Wire.length_word64]
  exact Nat.add_le_add_left (le_trans hitems (Nat.mul_le_mul_right _ hcount)) 8

-- ================================================================== filed

/-- The index holds what it was told: the lexicon is one, the tokens kept in
memory are in it, and the documents are posted in the database and where
the writes go. -/
structure Filed (ks : IndexKeys) (c : TokenCache) (told : Told) (ops : List Operation)
    (T : WriteView ν) : Prop where
  lexicon : ks.Lexicon ops
  kept : Kept ks c ops
  apart : ks.Apart T
  opened : T.isOpen = told.opened.isSome
  held : ks.Posted (contents ops) told.held
  seen : ks.Posted (T.seen ops) told.seen

variable {told : Told} {filing : Option Filing} {T : WriteView ν} {ops : List Operation}

/-- What is known of a filing while it is under way: the documents that were
seen and held when it began. -/
def Known (ks : IndexKeys) (seen base : KeyMap Bytes) (told : Told) : Prop :=
  ks.Posted seen told.seen ∧ ks.Posted base told.held ∧
    ∀ k, ks.Lexical k → seen.find? k = base.find? k

/-- A filing begins. -/
theorem Filed.start (h : Filed ks c told ops T) :
    Known ks (T.seen ops) (contents ops) told ∧
      ks.Underway ⟨T.seen ops, contents ops, told.opened.isSome, [], [], []⟩ c ops T := by
  have hreached : ks.Reached ⟨T.seen ops, contents ops, T.isOpen, [], [], []⟩ ops T :=
    reached_start h.apart
  rw [h.opened] at hreached
  exact ⟨⟨h.seen, h.held, fun _ hk => h.apart.seen hk⟩, h.lexicon, h.kept, hreached⟩

/-- What is listed is not of the lexicon. -/
theorem Known.listed {seen base : KeyMap Bytes} (h : Known ks seen base told)
    (docId : String) : ∀ k ∈ ks.listedIn seen docId, ¬ks.Lexical k := by
  intro k hk
  obtain ⟨token, d, -, rfl, -⟩ := (h.1.listed docId k).mp hk
  exact not_lexical_posting ks token d

/-- A filing is at its end. -/
theorem Known.filed (hknown : Known ks g.seen g.held told) (h : ks.Underway g c ops T)
    (hopened : g.opened = told.opened.isSome)
    (hentries : g.entries = refiling ks g.seen docId fresh marks e)
    (hplain : ∀ f, filing = some f → Plain f.sortKey ∧ ∀ t ∈ f.terms, Plain t.index)
    (hterms : ∀ f, filing = some f → f.terms = g.terms)
    (hfresh : ∀ k, k ∈ fresh ↔ ∃ token d, d.docId = docId ∧ k = ks.posting token d ∧
      ks.Files (contents ops) (Function.update told.seen docId filing) token d)
    (hsorted : fresh.Pairwise (· < ·)) (hsize : (Wire.blobs fresh).length < UInt64.size) :
    Filed ks c (told.file docId filing) ops T := by
  obtain ⟨hlex, hkept, hreached⟩ := h
  obtain ⟨hseen, hheld, hlexical⟩ := hknown
  have hposted := posted_of_refiling hreached hentries hseen hlexical hplain hterms hfresh
    hsorted hsize
  have hisOpen : T.isOpen = told.opened.isSome := hreached.opened.trans hopened
  obtain ⟨held, opened⟩ := told
  cases opened with
  | none =>
      cases T with
      | transaction t => cases hisOpen
      | database => exact ⟨hlex, hkept, hreached.apart, rfl, hposted, hposted⟩
  | some docs =>
      cases T with
      | database => cases hisOpen
      | transaction t =>
          -- the database is as it was
          refine ⟨hlex, hkept, hreached.apart, rfl, ?_, hposted⟩
          refine hheld.congr hreached.keeps (fun k hk => ?_) fun other => ?_
          · refine hreached.held t rfl k ?_
            unfold Lexical
            rw [hk]
            simp
          · exact hreached.held t rfl _ (not_lexical_document ks other)

/-- The postings of what is filed. -/
theorem mem_postingsOf_iff {sortKey : String} {terms : List Term} {tokens : List UInt64}
    (hgiven : terms.map (ks.tokenFor m) = tokens.map some) (k : Bytes) :
    k ∈ postingsOf ks ⟨sortKey, docId⟩ tokens ↔ ∃ token d, d.docId = docId ∧
      k = ks.posting token d ∧
      ks.Files m (Function.update docs docId (some ⟨sortKey, terms⟩)) token d := by
  have htoken (token : UInt64) : token ∈ tokens ↔ ∃ t ∈ terms, ks.tokenFor m t = some token := by
    constructor
    · intro h
      have hmem : some token ∈ terms.map (ks.tokenFor m) := hgiven ▸ List.mem_map_of_mem h
      exact List.mem_map.mp hmem
    · rintro ⟨t, ht, hfor⟩
      have hmem : some token ∈ tokens.map some := by
        rw [← hgiven, ← hfor]
        exact List.mem_map_of_mem ht
      obtain ⟨token', h, heq⟩ := List.mem_map.mp hmem
      rwa [← Option.some.inj heq]
  rw [mem_postingsOf]
  constructor
  · rintro ⟨token, h, rfl⟩
    exact ⟨token, ⟨sortKey, docId⟩, rfl, rfl, ⟨sortKey, terms⟩, Function.update_self _ _ _, rfl,
      (htoken token).mp h⟩
  · rintro ⟨token, ⟨sortKey', docId'⟩, rfl, rfl, f, hf, hkey, hterm⟩
    rw [show (DocKey.mk sortKey' docId').docId = docId' from rfl, Function.update_self] at hf
    cases hf
    obtain rfl : sortKey = sortKey' := hkey
    exact ⟨token, (htoken token).mpr hterm, rfl⟩

/-- A filing is begun by deleting what is listed under the document. -/
theorem leads_clear (x : Index) (docId : String) (told : Told) (seen base : KeyMap Bytes) :
    WriteM.Leads (fun ops T => (T.seen ops = seen ∧ contents ops = base) ∧
        Filed x.keys x.cache told ops T)
      (deletePostings x.keys docId : WriteM ν (List UInt64)) fun _ ops T =>
        Known x.keys seen base told ∧ x.keys.Underway
          ⟨seen, base, told.opened.isSome, [], [], cleared x.keys seen docId⟩ x.cache ops T := by
  refine ((leads_deletePostings (c := x.cache)
    (g := ⟨seen, base, told.opened.isSome, [], [], []⟩) docId rfl).frame
    _).mono (fun ops T h => ?_) fun _ _ _ h => h
  obtain ⟨⟨rfl, rfl⟩, h⟩ := h
  exact ⟨h.start.1, h.start.1.listed docId, h.start.2⟩

/-- Filing a document anew. What it has is the terms that the keys of its terms
are read as. -/
theorem leads_update (x : Index) (docId sortKey : String) (terms : List Term)
    (hsize : listingBound x.keys ⟨cleanSortKey sortKey, docId⟩ terms.length < UInt64.size) :
    WriteM.Leads (Filed x.keys x.cache told) (x.update docId sortKey terms : WriteM ν Index)
      fun y ops T => y.keys = x.keys ∧ Filed x.keys y.cache
        (told.file docId (some ⟨cleanSortKey sortKey, terms.map Term.asRead⟩)) ops T := by
  refine WriteM.Leads.remember fun seen base => ?_
  unfold update
  refine (leads_clear x docId told seen base).bind fun gone => ?_
  refine ((leads_giveTokens rfl terms).frame _).bind_returns
    (returns_lift (tokensOf_keys x terms)) fun a ha => ?_
  obtain ⟨tokens, y⟩ := a
  have hy : y.keys = x.keys := ha
  dsimp only
  rw [hy]
  refine leads_putPostings docId (fun k hk => ?_) ?_
  · obtain ⟨token, -, rfl⟩ := mem_postingsOf.mp hk
    exact not_lexical_posting x.keys token _
  refine ((leads_markTokens hy (gone ++ tokens)).frame _).mono (fun ops T h => h)
    fun z ops T h => ?_
  obtain ⟨hknown, hz, marks, e, hunderway⟩ := h
  have hgiven : (terms.map Term.asRead).map (x.keys.tokenFor (contents ops)) = tokens.map some :=
    hunderway.2.2.given
  have hcount : terms.length = tokens.length := by
    have hlength := congrArg List.length hgiven
    rwa [List.length_map, List.length_map, List.length_map] at hlength
  refine ⟨hz, Known.filed hknown hunderway rfl rfl ?_ ?_ (mem_postingsOf_iff hgiven)
    (pairwise_postingsOf _ _ _) ?_⟩
  · rintro f ⟨⟩
    refine ⟨plain_cleanSortKey sortKey, fun t ht => ?_⟩
    obtain ⟨u, -, rfl⟩ := List.mem_map.mp ht
    exact plain_of_not_mem u.delimiter_not_mem_asRead
  · rintro f ⟨⟩
    rfl
  · rw [hcount] at hsize
    exact lt_of_le_of_lt (length_blobs_postingsOf _ _ _) hsize

/-- Taking a document out. -/
theorem leads_remove (x : Index) (docId : String) :
    WriteM.Leads (Filed x.keys x.cache told) (x.remove docId : WriteM ν Index)
      fun y ops T => y.keys = x.keys ∧
        Filed x.keys y.cache (told.file docId none) ops T := by
  refine WriteM.Leads.remember fun seen base => ?_
  unfold remove
  refine (leads_clear x docId told seen base).bind fun gone => ?_
  have hdelete : WriteM.Leads (fun ops T => Known x.keys seen base told ∧ x.keys.Underway
        ⟨seen, base, told.opened.isSome, [], [], cleared x.keys seen docId⟩ x.cache ops T)
      (WriteM.delete (x.keys.document docId) : WriteM ν PUnit) fun _ ops T =>
        Known x.keys seen base told ∧ x.keys.Underway ⟨seen, base, told.opened.isSome, [], [],
          cleared x.keys seen docId ++ [listing x.keys docId []]⟩ x.cache ops T :=
    WriteM.leads_delete _ fun ops T h =>
      ⟨h.1, h.2.wrote (not_lexical_document x.keys docId) .tombstone⟩
  refine hdelete.bind fun _ => ?_
  refine ((leads_markTokens rfl gone).frame _).mono (fun ops T h => h) fun z ops T h => ?_
  obtain ⟨hknown, hz, marks, e, hunderway⟩ := h
  have hentries : cleared x.keys seen docId ++ [listing x.keys docId []]
      ++ marks.map (fun token => (x.keys.mark token, e))
      = refiling x.keys seen docId [] marks e := rfl
  refine ⟨hz, Known.filed hknown hunderway rfl hentries ?_ ?_ ?_ List.Pairwise.nil ?_⟩
  · rintro f ⟨⟩
  · rintro f ⟨⟩
  · intro k
    refine ⟨fun hk => absurd hk List.not_mem_nil, fun h => ?_⟩
    obtain ⟨token, d, hd, -, f, hf, -⟩ := h
    rw [hd, Function.update_self] at hf
    cases hf
  · decide

end Index

end OrderedStore
