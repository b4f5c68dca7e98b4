/-
What is posted is what is listed.

An index writes down under each document which postings it has, and goes by
that when the document is filed anew. So the two have to go together: the
postings that stand in the database are those that are listed, and under a
document are listed, in order, the postings of the terms that it was told of
last (`Listed`). That follows from what an index holds after every run.

It makes no difference whether documents are filed in the database or in a
transaction that is committed then. Two slates are twins if the same is seen
on both, marks apart, and the same tokens are marked (`Twin`). A filing
reads what is seen and writes by what it read, so it leaves twins, one for
each slate that it is carried out on, and a row of filings does by
induction. To commit is to hold what is seen.
-/
import Mathlib
import OrderedStore.Proofs.IndexRuns
import OrderedStore.Proofs.Slates

namespace OrderedStore

namespace IndexKeys

variable {ks : IndexKeys} {m : KeyMap Bytes} {docs : Documents} {docId : String}

-- ================================================================ listings

/-- The postings are those that are listed, each under its document: in
strict order those of the tokens of its terms, and nothing if it has
none. -/
structure Listed (ks : IndexKeys) (m : KeyMap Bytes) (docs : Documents) : Prop where
  union : ∀ k, (ks.part "i/" <+: k ∧ (m.find? k).isSome = true) ↔ ∃ docId, k ∈ ks.listedIn m docId
  terms : ∀ {docId f}, docs docId = some f → f.terms ≠ [] →
    (∀ t ∈ f.terms, (ks.tokenFor m t).isSome = true) ∧ ∃ bytes postings,
      m.find? (ks.document docId) = some bytes ∧ Wire.readBlobs bytes = .ok (postings, []) ∧
      postings.Pairwise (· < ·) ∧ ∀ k, k ∈ postings ↔
        ∃ t ∈ f.terms, ∃ token, ks.tokenFor m t = some token ∧
          k = ks.posting token ⟨f.sortKey, docId⟩
  bare : ∀ {docId}, (∀ f, docs docId = some f → f.terms = []) →
    m.find? (ks.document docId) = none ∧
      ∀ token sortKey, Plain sortKey → m.find? (ks.posting token ⟨sortKey, docId⟩) = none

/-- A document without terms is not filed. -/
theorem not_files {token : UInt64} {d : DocKey}
    (hbare : ∀ f, docs d.docId = some f → f.terms = []) : ¬ks.Files m docs token d := by
  rintro ⟨f, hf, -, t, ht, -⟩
  rw [hbare f hf] at ht
  exact List.not_mem_nil ht

/-- What is listed is read off the value that is there. -/
theorem listedIn_of_find? {bytes : Bytes} {postings : List Bytes}
    (hbytes : m.find? (ks.document docId) = some bytes)
    (hread : Wire.readBlobs bytes = .ok (postings, [])) : ks.listedIn m docId = postings := by
  unfold listedIn
  rw [hbytes]
  simp only [hread]

/-- A document has a list if and only if something is listed under it. -/
theorem Posted.find?_document_eq_none (h : ks.Posted m docs) :
    m.find? (ks.document docId) = none ↔ ks.listedIn m docId = [] := by
  constructor
  · intro hnone
    unfold listedIn
    rw [hnone]
  · intro hnil
    cases hbytes : m.find? (ks.document docId) with
    | none => rfl
    | some bytes =>
        obtain ⟨postings, hread, hne, -⟩ := h.ordered docId bytes hbytes
        rw [listedIn_of_find? hbytes hread] at hnil
        exact absurd hnil hne

/-- Where the documents of an index are posted, what is posted is
listed. -/
theorem Posted.isListed (h : ks.Posted m docs) : ks.Listed m docs := by
  refine ⟨fun k => ⟨?_, ?_⟩, fun {docId f} hf hne => ?_, fun {docId} hbare => ⟨?_, ?_⟩⟩
  · rintro ⟨hpre, hk⟩
    obtain ⟨v, hv⟩ := Option.isSome_iff_exists.mp hk
    obtain ⟨token, d, hd, rfl⟩ := h.shaped k v hv (ks.kind?_of_prefix rfl hpre)
    exact ⟨d.docId, (h.listed _ _).mpr ⟨token, d, rfl, rfl, (h.posted token d hd).mp hk⟩⟩
  · rintro ⟨docId, hk⟩
    obtain ⟨token, d, -, rfl, hfiles⟩ := (h.listed docId k).mp hk
    refine ⟨?_, (h.posted token d (h.parsable_of_files hfiles)).mpr hfiles⟩
    unfold posting postings
    rw [List.append_assoc, List.append_assoc]
    exact List.prefix_append _ _
  · have hlisted (k : Bytes) : k ∈ ks.listedIn m docId ↔ ∃ t ∈ f.terms, ∃ token,
        ks.tokenFor m t = some token ∧ k = ks.posting token ⟨f.sortKey, docId⟩ := by
      rw [h.listed]
      constructor
      · rintro ⟨token, ⟨sortKey, docId'⟩, rfl, rfl, g, hg, rfl, t, ht, htoken⟩
        rw [hf] at hg
        cases hg
        exact ⟨t, ht, token, htoken, rfl⟩
      · rintro ⟨t, ht, token, htoken, rfl⟩
        exact ⟨token, _, rfl, rfl, f, hf, rfl, t, ht, htoken⟩
    refine ⟨h.tokens hf, ?_⟩
    -- something is listed, so there is a list
    obtain ⟨t, ht⟩ := List.exists_mem_of_ne_nil _ hne
    obtain ⟨token, htoken⟩ := Option.isSome_iff_exists.mp (h.tokens hf t ht)
    have hmem := (hlisted _).mpr ⟨t, ht, token, htoken, rfl⟩
    cases hbytes : m.find? (ks.document docId) with
    | none =>
        rw [h.find?_document_eq_none] at hbytes
        rw [hbytes] at hmem
        exact absurd hmem List.not_mem_nil
    | some bytes =>
        obtain ⟨postings, hread, -, hsorted⟩ := h.ordered docId bytes hbytes
        rw [listedIn_of_find? hbytes hread] at hlisted
        exact ⟨bytes, postings, rfl, hread, hsorted, hlisted⟩
  · rw [h.find?_document_eq_none, List.eq_nil_iff_forall_not_mem]
    intro k hk
    obtain ⟨token, d, rfl, -, hfiles⟩ := (h.listed docId k).mp hk
    exact not_files hbare hfiles
  · intro token sortKey hplain
    have hposted := h.posted token ⟨sortKey, docId⟩ hplain
    rw [← Option.not_isSome_iff_eq_none, hposted]
    exact not_files hbare

end IndexKeys

-- ==================================================================== twins

namespace Index

open IndexKeys

variable {ks : IndexKeys} {σ τ : Slate} {docId sortKey : String} {terms : List Term}
  {stamp stamp' : UInt64} {k : Bytes}

/-- What is listed on the slate are postings, and nothing of the lexicon is
pending. -/
structure Orderly (ks : IndexKeys) (σ : Slate) : Prop where
  listed : ∀ docId, ∀ k ∈ ks.listedIn σ.seen docId, ks.kind? k = some 105
  apart : ∀ p, σ.pending = some p → ∀ k, ks.Lexical k → p.find? k = none

/-- What is listed is not of the lexicon. -/
theorem Orderly.not_lexical (h : Orderly ks σ) (docId : String) :
    ∀ k ∈ ks.listedIn σ.seen docId, ¬ks.Lexical k := by
  intro k hk
  unfold Lexical
  rw [h.listed docId k hk]
  simp

/-- The lexicon is seen as it is held. -/
theorem Orderly.seen (h : Orderly ks σ) (hk : ks.Lexical k) :
    σ.seen.find? k = σ.held.find? k := by
  obtain ⟨m, pending⟩ := σ
  cases pending with
  | none => rfl
  | some p =>
      exact KeyMap.find?_laid_of_none (h.apart p rfl k hk)

/-- What is filed for a document are postings. -/
theorem kind?_freshIn : ∀ k ∈ freshIn ks σ docId sortKey terms, ks.kind? k = some 105 := by
  intro k hk
  obtain ⟨token, -, rfl⟩ := mem_postingsOf.mp hk
  exact ks.kind?_posting token _

/-- They take no more room than is allowed for so many terms. -/
theorem length_blobs_freshIn (hsize :
    listingBound ks ⟨cleanSortKey sortKey, docId⟩ terms.length < UInt64.size) :
    (Wire.blobs (freshIn ks σ docId sortKey terms)).length < UInt64.size := by
  refine lt_of_le_of_lt (length_blobs_postingsOf _ _ _) (lt_of_le_of_lt ?_ hsize)
  exact Nat.add_le_add_left (Nat.mul_le_mul_right _ (List.length_filterMap_le _ _)) 8

/-- Under a document that is filed its new postings are listed. -/
theorem listedIn_refiled (h : Orderly ks σ)
    (hsize : listingBound ks ⟨cleanSortKey sortKey, docId⟩ terms.length < UInt64.size)
    (other : String) :
    ks.listedIn (refiled ks σ docId sortKey terms stamp).seen other
      = if other = docId then freshIn ks σ docId sortKey terms else ks.listedIn σ.seen other := by
  have hread := Wire.readBlobs_blobs (length_blobs_freshIn (σ := σ) hsize) []
  rw [List.append_nil] at hread
  have hfound : (refiled ks σ docId sortKey terms stamp).seen.find? (ks.document other) = _ :=
    refiled_seen (h.not_lexical docId) (not_lexical_document ks other)
  unfold entriesFiled at hfound
  rw [lastWrite_refiling_document (h.listed docId) kind?_freshIn, KeyMap.find?_or_entry] at hfound
  by_cases hother : other = docId
  · rw [if_pos hother] at hfound ⊢
    unfold listing at hfound
    cases hempty : (freshIn ks σ docId sortKey terms).isEmpty with
    | true =>
        rw [hempty] at hfound
        unfold listedIn
        rw [hfound]
        exact (List.isEmpty_iff.mp hempty).symm
    | false =>
        rw [hempty] at hfound
        exact listedIn_of_find? hfound hread
  · rw [if_neg hother] at hfound ⊢
    unfold listedIn
    rw [hfound]

/-- Nothing of the lexicon is among what is written for a document. -/
theorem not_lexical_entriesFiled (h : Orderly ks σ) :
    ∀ w ∈ entriesFiled ks σ docId sortKey terms stamp, ¬ks.Lexical w.1 := by
  intro w hw
  unfold entriesFiled refiling at hw
  rw [List.append_assoc] at hw
  rcases List.mem_append.mp hw with hw | hw
  · exact not_lexical_cleared (h.not_lexical docId) w hw
  · have hfiled : w ∈ filed ks docId sortKey (listedTokens ks σ.seen docId)
        (ks.tokensIn (ks.givenAll σ.held terms) terms) stamp := hw
    exact not_lexical_filed w hfiled

/-- A slate stays in order when a document is filed. -/
theorem Orderly.refiled (h : Orderly ks σ)
    (hsize : listingBound ks ⟨cleanSortKey sortKey, docId⟩ terms.length < UInt64.size) :
    Orderly ks (refiled ks σ docId sortKey terms stamp) := by
  refine ⟨fun other k hk => ?_, fun p hp k hk => ?_⟩
  · rw [listedIn_refiled h hsize] at hk
    split at hk
    · exact kind?_freshIn k hk
    · exact h.listed other k hk
  · obtain ⟨m, pending⟩ := σ
    cases pending with
    | none =>
        rw [refiled_database] at hp
        cases hp
    | some p₀ =>
        obtain ⟨p', hrefiled, hfound⟩ := refiled_transaction m p₀ docId sortKey terms stamp
        rw [hrefiled] at hp
        cases hp
        rw [hfound, h.apart p₀ rfl k hk, Option.or_none]
        refine lastWrite_eq_none fun w hw heq => ?_
        exact not_lexical_entriesFiled h w hw (heq ▸ hk)

/-- The same is seen on both slates, marks apart, and the same tokens are
marked. -/
structure Twin (ks : IndexKeys) (σ τ : Slate) : Prop where
  lexical : ∀ k, ks.Lexical k → τ.held.find? k = σ.held.find? k
  rest : ∀ k, ¬ks.Lexical k → (∀ token, k ≠ ks.mark token) → τ.seen.find? k = σ.seen.find? k
  marks : ∀ token, (τ.seen.find? (ks.mark token)).isSome = (σ.seen.find? (ks.mark token)).isSome

/-- What is listed on a twin is the same. -/
theorem Twin.listedIn (h : Twin ks σ τ) (docId : String) :
    ks.listedIn τ.seen docId = ks.listedIn σ.seen docId := by
  unfold IndexKeys.listedIn
  rw [h.rest _ (not_lexical_document ks docId) fun token => ks.ne_of_kind? (by simp)]

/-- What is written for a document, marks apart, and then the marks. -/
theorem lastWrite_refiling (m : KeyMap Bytes) (docId : String) (fresh : List Bytes)
    (marks : List UInt64) (e : Entry) (k : Bytes) :
    lastWrite (refiling ks m docId fresh marks e) k
      = if k ∈ marks.map ks.mark then some e else lastWrite (refiling ks m docId fresh [] e) k := by
  have hmarks : marks.map (fun token => (ks.mark token, e))
      = (marks.map ks.mark).map fun k => (k, e) := by
    rw [List.map_map]
    rfl
  unfold refiling
  rw [lastWrite_append, hmarks, lastWrite_map_const, List.map_nil, List.append_nil]
  split
  · rfl
  · rw [Option.none_or]

/-- A document that is filed on both of two twins leaves twins. -/
theorem Twin.refiled (h : Twin ks σ τ) (hσ : Orderly ks σ) (hτ : Orderly ks τ) :
    Twin ks (refiled ks σ docId sortKey terms stamp)
      (refiled ks τ docId sortKey terms stamp') := by
  -- the same postings are filed, and the same tokens are marked
  have htokens : ks.tokensIn (ks.givenAll τ.held terms) terms
      = ks.tokensIn (ks.givenAll σ.held terms) terms := by
    have hsame : ks.tokenFor (ks.givenAll τ.held terms) = ks.tokenFor (ks.givenAll σ.held terms) :=
      funext fun t => tokenIn_congr (givenAll_congr h.lexical terms) _ _
    unfold tokensIn
    rw [hsame]
  have hfresh : freshIn ks τ docId sortKey terms = freshIn ks σ docId sortKey terms := by
    unfold freshIn
    rw [htokens]
  have hmarks : marksIn ks τ docId terms = marksIn ks σ docId terms := by
    unfold marksIn listedTokens
    rw [htokens, h.listedIn]
  have hcleared : cleared ks τ.seen docId = cleared ks σ.seen docId := by
    unfold cleared
    rw [h.listedIn]
  have hrow (e e' : Entry) : refiling ks τ.seen docId (freshIn ks τ docId sortKey terms) [] e
      = refiling ks σ.seen docId (freshIn ks σ docId sortKey terms) [] e' := by
    unfold refiling
    rw [hcleared, hfresh]
    rfl
  have hseen {υ : Slate} (hυ : Orderly ks υ) {u : UInt64} {k : Bytes} (hk : ¬ks.Lexical k) :
      (Index.refiled ks υ docId sortKey terms u).seen.find? k
        = if k ∈ (marksIn ks υ docId terms).map ks.mark then some (Codec.fixed64 u)
          else ((lastWrite (refiling ks υ.seen docId (freshIn ks υ docId sortKey terms) []
            .tombstone) k).or (υ.seen.entry k)).bind Entry.value? := by
    rw [refiled_seen (hυ.not_lexical docId) hk]
    unfold entriesFiled
    rw [lastWrite_refiling]
    split <;> rfl
  refine ⟨fun k hk => ?_, fun k hk hmark => ?_, fun token => ?_⟩
  · rw [refiled_lexical (hτ.not_lexical docId) hk, refiled_lexical (hσ.not_lexical docId) hk]
    exact givenAll_congr h.lexical terms k hk
  · have hunmarked : k ∉ (marksIn ks σ docId terms).map ks.mark := by
      intro hmem
      obtain ⟨token, -, rfl⟩ := List.mem_map.mp hmem
      exact hmark token rfl
    rw [hseen hτ hk, hseen hσ hk, hmarks, if_neg hunmarked, if_neg hunmarked,
      hrow .tombstone .tombstone, KeyMap.find?_or_entry, KeyMap.find?_or_entry, h.rest k hk hmark]
  · have hk := not_lexical_mark ks token
    rw [hseen hτ hk, hseen hσ hk, hmarks, hrow .tombstone .tombstone, KeyMap.find?_or_entry,
      KeyMap.find?_or_entry]
    split
    · rfl
    · split
      · rfl
      · exact h.marks token

/-- A twin of a slate that is in order is in order, if nothing of the lexicon
is pending there. -/
theorem Twin.orderly (h : Twin ks σ τ) (hσ : Orderly ks σ)
    (hτ : ∀ p, τ.pending = some p → ∀ k, ks.Lexical k → p.find? k = none) : Orderly ks τ :=
  ⟨fun docId k hk => hσ.listed docId k (h.listedIn docId ▸ hk), hτ⟩

-- ========================================================== rows of filings

end Index

namespace IndexRequest

open Index IndexKeys

variable {ν : Type} {ks : IndexKeys} {name : String} {i : Indexing ν} {σ τ σ' τ' : Slate}
  {rs us : List IndexRequest}

/-- The request files a document, or takes one out. -/
def IsFiling : IndexRequest → Prop
  | .update _ _ _ => True
  | .remove _ => True
  | _ => False

/-- Requests that file documents lead from one slate to the other, one after
the other, with some stamp each. -/
inductive Refiles (ks : IndexKeys) : Slate → List IndexRequest → Slate → Prop
  | nil (σ : Slate) : Refiles ks σ [] σ
  | update {σ τ : Slate} {rs : List IndexRequest} (docId sortKey : String) (terms : List Term)
      (stamp : UInt64) (h : Refiles ks (refiled ks σ docId sortKey terms stamp) rs τ) :
      Refiles ks σ (.update docId sortKey terms :: rs) τ
  | remove {σ τ : Slate} {rs : List IndexRequest} (docId : String) (stamp : UInt64)
      (h : Refiles ks (refiled ks σ docId "" [] stamp) rs τ) : Refiles ks σ (.remove docId :: rs) τ

/-- Nothing is listed for a document that is taken out, and that takes
eight bytes. -/
theorem listingBound_remove (ks : IndexKeys) (docId : String) :
    listingBound ks ⟨cleanSortKey "", docId⟩ ([] : List Term).length < UInt64.size := by
  unfold listingBound
  rw [List.length_nil, Nat.zero_mul]
  decide

/-- Rows of filings that begin on twins end on twins. -/
theorem Refiles.twin (h : Refiles ks σ rs σ') (h' : Refiles ks τ rs τ') (htwin : Twin ks σ τ)
    (hσ : Orderly ks σ) (hτ : Orderly ks τ) (hrs : ∀ r ∈ rs, r.Admissible ks) :
    Twin ks σ' τ' ∧ Orderly ks σ' ∧ Orderly ks τ' := by
  induction h generalizing τ with
  | nil σ =>
      cases h'
      exact ⟨htwin, hσ, hτ⟩
  | update docId sortKey terms stamp h ih =>
      cases h' with
      | update _ _ _ stamp' h' =>
          have hsize := (hrs _ List.mem_cons_self).2
          exact ih h' (htwin.refiled hσ hτ) (hσ.refiled hsize) (hτ.refiled hsize)
            fun r hr => hrs r (List.mem_cons_of_mem _ hr)
  | remove docId stamp h ih =>
      cases h' with
      | remove _ stamp' h' =>
          have hsize := listingBound_remove ks docId
          exact ih h' (htwin.refiled hσ hτ) (hσ.refiled hsize) (hτ.refiled hsize)
            fun r hr => hrs r (List.mem_cons_of_mem _ hr)

/-- The slate is what the database holds and what is pending where an index
writes, and the tokens that it keeps are held. -/
def On (ks : IndexKeys) (σ : Slate) (i : Indexing ν) (ops : List Operation) : Prop :=
  i.target.slate ops = σ ∧ KeptIn ks i.index.cache σ.held

/-- A document is filed where the writes go. -/
theorem leads_refiling {step : WriteM ν Index} {docId sortKey : String} {terms : List Term}
    (hσ : Orderly i.index.keys σ)
    (h : WriteM.Leads (fun ops T => T.slate ops = σ ∧
        Index.Prepared i.index.keys σ i.index.cache docId) step fun y ops T =>
      y.keys = i.index.keys ∧
        (∃ stamp, T.slate ops = refiled i.index.keys σ docId sortKey terms stamp) ∧
        KeptIn i.index.keys y.cache (T.slate ops).held) :
    Leads (On i.index.keys σ i) (do
      let (x, T, _) ← step.runOn i.target
      return (⟨x, T⟩ : Indexing ν)) fun j ops =>
        ∃ stamp, On i.index.keys (refiled i.index.keys σ docId sortKey terms stamp) j ops := by
  refine ((h.runOn i.target).mono (fun ops hon => ⟨hon.1, hon.2, hσ.not_lexical docId⟩)
    fun _ _ h => h).bind fun a => leads_pure fun ops h => ?_
  obtain ⟨-, ⟨stamp, hslate⟩, hkept⟩ := h
  rw [hslate] at hkept
  exact ⟨stamp, hslate, hkept⟩

/-- What a row of filings leads to. -/
theorem leads_filings (hready : Ready name i) (hkeys : i.index.keys = ks) (hσ : Orderly ks σ)
    (hrs : ∀ r ∈ rs, r.IsFiling ∧ r.Admissible ks) :
    Leads (On ks σ i) (runAll name rs i) fun j ops => ∃ τ, Refiles ks σ rs τ ∧ On ks τ j ops := by
  induction rs generalizing i σ with
  | nil => exact leads_pure fun ops h => ⟨σ, .nil σ, h⟩
  | cons r rs ih =>
      have : Nonempty UInt64 := ⟨0⟩
      subst hkeys
      -- the rest begins on what the first one has made, whatever its stamp
      have hrest {docId sortKey : String} {terms : List Term}
          (hsize : listingBound i.index.keys ⟨cleanSortKey sortKey, docId⟩ terms.length
            < UInt64.size) {j : Indexing ν} (hj : Ready name j) :=
        Leads.exists fun stamp => ih hj (hj.keys.trans hready.keys.symm)
          (hσ.refiled hsize : Orderly _ (refiled i.index.keys σ docId sortKey terms stamp))
          fun u hu => hrs u (List.mem_cons_of_mem _ hu)
      rw [runAll]
      cases r with
      | update docId sortKey terms =>
          refine (leads_refiling hσ (leads_update_refiled i.index docId sortKey terms)).bind_returns
            (returns_run hready (.update docId sortKey terms)) fun j hj => ?_
          refine (hrest (hrs _ List.mem_cons_self).2.2 hj).mono (fun ops h => h) fun k ops h => ?_
          obtain ⟨stamp, τ, hτ, hon⟩ := h
          exact ⟨τ, .update docId sortKey terms stamp hτ, hon⟩
      | remove docId =>
          refine (leads_refiling hσ (leads_remove_refiled i.index docId)).bind_returns
            (returns_run hready (.remove docId)) fun j hj => ?_
          refine (hrest (listingBound_remove _ docId) hj).mono (fun ops h => h) fun k ops h => ?_
          obtain ⟨stamp, τ, hτ, hon⟩ := h
          exact ⟨τ, .remove docId stamp hτ, hon⟩
      | _ => exact absurd (hrs _ List.mem_cons_self).1 id

/-- Where nothing is pending, nothing is after filings either. -/
theorem Refiles.pending (h : Refiles ks σ rs τ) (hσ : σ.pending = none) : τ.pending = none := by
  have hrefiled {σ : Slate} (hσ : σ.pending = none) (docId sortKey : String) (terms : List Term)
      (stamp : UInt64) : (refiled ks σ docId sortKey terms stamp).pending = none := by
    obtain ⟨m, pending⟩ := σ
    obtain rfl : pending = none := hσ
    exact refiled_database m docId sortKey terms stamp
  induction h with
  | nil σ => exact hσ
  | update docId sortKey terms stamp h ih => exact ih (hrefiled hσ docId sortKey terms stamp)
  | remove docId stamp h ih => exact ih (hrefiled hσ docId "" [] stamp)

/-- Requests are carried out one row after the other. -/
theorem runAll_append (rs us : List IndexRequest) (i : Indexing ν) :
    runAll name (rs ++ us) i = runAll name rs i >>= runAll name us := by
  induction rs generalizing i with
  | nil => exact (pure_bind i _).symm
  | cons r rs ih =>
      show r.run name i >>= (fun j => runAll name (rs ++ us) j) = _
      rw [runAll, bind_assoc]
      exact bind_congr fun j => ih j

/-- To commit is to hold what is seen. -/
theorem leads_settle (hready : Ready name i) :
    Leads (On ks τ i) (IndexRequest.commit.run name i) fun _ ops => contents ops = τ.seen := by
  obtain ⟨x, T⟩ := i
  cases T with
  | database =>
      refine leads_pure fun ops h => ?_
      obtain ⟨rfl, -⟩ := h
      rfl
  | transaction t =>
      have hcommit : Leads (On ks τ ⟨x, .transaction t⟩) t.commit fun _ ops =>
          contents ops = τ.seen :=
        t.leads_commit hready.idle fun ops _ h _ => by
          obtain ⟨rfl, -⟩ := h
          exact Transaction.contents_together ops t.pending
      exact hcommit.bind fun _ => leads_pure fun ops h => h

/-- What filings lead to in a transaction that is begun for them by the
index opened anew, and committed. -/
theorem leads_filings_committed (hready : Ready name i) {settings : IndexSettings}
    {stamp : UInt64} {m : KeyMap Bytes} (hm : Orderly (IndexKeys.ofName name) ⟨m, some .empty⟩)
    (hrs : ∀ r ∈ rs, r.IsFiling ∧ r.Admissible (IndexKeys.ofName name)) :
    Leads (fun ops => contents ops = m)
      (runAll name (.reopen settings stamp :: .begin :: (rs ++ [.commit])) i) fun _ ops =>
        ∃ τ, Refiles (IndexKeys.ofName name) ⟨m, some .empty⟩ rs τ ∧ contents ops = τ.seen := by
  rw [runAll]
  refine Leads.bind_returns (Q := fun j ops => contents ops = m ∧
      KeptIn (IndexKeys.ofName name) j.index.cache m) ?_
    (returns_run hready (.reopen settings stamp)) fun j hj => ?_
  · refine (leads_orFatal _).bind_returns (returns_orFatal fun x hx => (of_openNamed hx).2)
      fun x hx => leads_pure fun ops h => ⟨h, ?_⟩
    rw [hx]
    rintro term raw token ⟨⟩
  rw [runAll]
  refine Leads.bind_returns (Q := On (IndexKeys.ofName name) ⟨m, some .empty⟩) ?_
    (returns_run hj .begin) fun k hk => ?_
  · refine leads_pure fun ops h => ⟨?_, h.2⟩
    show Slate.mk (contents ops) (some .empty) = _
    rw [h.1]
  rw [runAll_append]
  refine (leads_filings hk hk.keys hm hrs).bind_returns (returns_runAll hk rs) fun l hl => ?_
  have : Nonempty Slate := ⟨⟨m, none⟩⟩
  refine Leads.exists fun τ => ?_
  refine (leads_settle hl).frame _ |>.bind fun u => leads_pure fun ops h => h

end IndexRequest

-- ============================================================ all that holds

namespace IndexKeys

/-- The maps lead to the same, marks apart, and the same tokens are
marked. -/
structure SameButMarks (ks : IndexKeys) (m m' : KeyMap Bytes) : Prop where
  rest : ∀ k, (∀ token, k ≠ ks.mark token) → m'.find? k = m.find? k
  marks : ∀ token, (m'.find? (ks.mark token)).isSome = (m.find? (ks.mark token)).isSome

end IndexKeys

namespace Index

variable {ks : IndexKeys} {σ τ : Slate} {m : KeyMap Bytes} {docs : Documents}

/-- What is seen on twins is the same but for marks. -/
theorem Twin.sameButMarks (h : Twin ks σ τ) (hσ : Orderly ks σ) (hτ : Orderly ks τ) :
    ks.SameButMarks σ.seen τ.seen := by
  refine ⟨fun k hmark => ?_, h.marks⟩
  by_cases hk : ks.Lexical k
  · rw [hτ.seen hk, hσ.seen hk, h.lexical k hk]
  · exact h.rest k hk hmark

/-- With nothing pending a slate of posted documents is in order. -/
theorem orderly_of_posted (h : ks.Posted m docs) : Orderly ks ⟨m, none⟩ := by
  refine ⟨fun docId k hk => ?_, fun p hp => by cases hp⟩
  obtain ⟨token, d, -, rfl, -⟩ := (h.listed docId k).mp hk
  exact ks.kind?_posting token d

/-- It has a twin on which nothing is pending yet. -/
theorem twin_begun (ks : IndexKeys) (m : KeyMap Bytes) : Twin ks ⟨m, none⟩ ⟨m, some .empty⟩ := by
  have hseen (k : Bytes) : (m.laid .empty).find? k = m.find? k := by
    rw [KeyMap.find?_laid]
    exact KeyMap.find?_or_entry none m k
  exact ⟨fun k _ => rfl, fun k _ _ => hseen k, fun token => congrArg Option.isSome (hseen _)⟩

open IndexRequest Store Engine

variable {ν : Type}

/-- What is posted is what is listed. On a store that was opened in a vacant
directory, an index is worked with by any requests that may be made. Then
the postings in the database are those that are listed under its documents,
and under each document are listed the postings of the terms that the
database was told of last. And a row of filings that is carried out there
leaves the same as the same row in a transaction that is committed then,
whatever is kept in memory meanwhile: but for marks, which have other
stamps. The runs are such that were not ended by a failure of the store. -/
theorem postings_listed {dir : Path} {v v' : Volume} {settings : Settings} {clock : UInt64}
    {e : Engine} (hv : Vacant v dir) (hopen : openAt settings dir clock v = .ok e v')
    {name : String} {indexSettings : IndexSettings} {stamp : UInt64} {x : Index}
    (hx : openNamed name indexSettings stamp = .ok x) {rs : List IndexRequest}
    (hadmissible : ∀ r ∈ rs, r.Admissible x.keys) {i : Indexing ν} {s : Store}
    (hrun : runAll name rs ⟨x, .database⟩ (opened v' e) = .ok i s)
    (hroom : s.written < UInt64.size) :
    (∃ m, s.engine.view.Reads s.toMemory m ∧ x.keys.Listed m (Told.empty.tellAll rs).held) ∧
      ∀ {filings : List IndexRequest} {j j' : Indexing ν} {t t' : Store}
        (settings' : IndexSettings) (stamp' : UInt64), i.target.isOpen = false →
        (∀ r ∈ filings, r.IsFiling ∧ r.Admissible x.keys) →
        runAll name filings i s = .ok j t →
        runAll name (.reopen settings' stamp' :: .begin :: (filings ++ [.commit])) i s
          = .ok j' t' →
        t.written < UInt64.size → t'.written < UInt64.size →
        ∃ m m', t.engine.view.Reads t.toMemory m ∧ t'.engine.view.Reads t'.toMemory m' ∧
          x.keys.SameButMarks m m' := by
  obtain ⟨hkeys, hcache⟩ := of_openNamed hx
  rw [hkeys] at hadmissible ⊢
  obtain ⟨e₁, v₁, ids, hopen₁, hsound⟩ := hv.openAt_ok settings clock
  rw [hopen] at hopen₁
  cases hopen₁
  have hready : Ready name (⟨x, .database⟩ : Indexing ν) := ⟨hkeys, trivial⟩
  have hfresh : Holds (IndexKeys.ofName name) Told.empty (⟨x, .database⟩ : Indexing ν) [] := by
    show Filed _ x.cache _ _ _
    rw [hcache]
    exact filed_empty _ _
  obtain ⟨-, hlead⟩ := leads_runAll hready hadmissible _ _ _ hrun
  obtain ⟨ops, hs, -, hholds⟩ := hlead hsound.measured (by omega) hfresh
  refine ⟨⟨contents ops, hs.reads, hholds.held.isListed⟩, ?_⟩
  intro filings j j' t t' settings' stamp' htarget hfilings hdirect hcommitted hroom₁ hroom₂
  -- both runs begin here, and on twins
  have hi : Ready name i := returns_runAll hready rs _ _ _ hrun
  have htwin := twin_begun (IndexKeys.ofName name) (contents ops)
  have hσ : Orderly (IndexKeys.ofName name) ⟨contents ops, none⟩ := orderly_of_posted hholds.held
  have hτ : Orderly (IndexKeys.ofName name) ⟨contents ops, some .empty⟩ := by
    refine htwin.orderly hσ fun p hp k _ => ?_
    cases hp
    rfl
  have hon : On (IndexKeys.ofName name) ⟨contents ops, none⟩ i ops := by
    refine ⟨?_, hholds.kept⟩
    cases hT : i.target with
    | database => rfl
    | transaction t =>
        rw [hT] at htarget
        cases htarget
  obtain ⟨-, hlead₁⟩ := leads_filings hi hi.keys hσ hfilings _ _ _ hdirect
  obtain ⟨ops₁, hs₁, -, σ', hσ', hheld, -⟩ := hlead₁ hs (by omega) hon
  obtain ⟨-, hlead₂⟩ := leads_filings_committed hi hτ hfilings _ _ _ hcommitted
  obtain ⟨ops₂, hs₂, -, τ', hτ', hseen⟩ := hlead₂ hs (by omega) rfl
  obtain ⟨htwin', hσ'', hτ''⟩ := hσ'.twin hτ' htwin hσ hτ fun r hr => (hfilings r hr).2
  have hdatabase : contents ops₁ = σ'.seen := by
    have hpending := hσ'.pending rfl
    obtain ⟨m, pending⟩ := σ'
    obtain rfl : pending = none := hpending
    exact congrArg Slate.held hheld
  refine ⟨_, _, hs₁.reads, hs₂.reads, ?_⟩
  rw [hdatabase, hseen]
  exact htwin'.sameButMarks hσ'' hτ''

/-- One document is told of twice and swept between, and another is told of
in a transaction that is abandoned. -/
def settledRequests : List IndexRequest :=
  [.update "a" "1" [⟨"x", "x", 0⟩], .sweep, .update "a" "2\t" [⟨"x", "X", 0⟩, ⟨"y", "y", 1⟩],
    .begin, .update "b" "0" [⟨"z", "z", 0⟩], .abandon, .leave]

/-- Three filings: that document is told of again, and twice. -/
def laterFilings : List IndexRequest :=
  [.update "a" "3" [⟨"y", "y", 0⟩], .remove "b", .update "a" "2" [⟨"x", "X", 0⟩, ⟨"z", "Z", 2⟩]]

/-- They may be asked. -/
theorem admissible_settledRequests :
    (∀ r ∈ settledRequests, r.Admissible (IndexKeys.ofName "n")) ∧
      ∀ r ∈ laterFilings, r.IsFiling ∧ r.Admissible (IndexKeys.ofName "n") := by
  simp only [settledRequests, laterFilings, List.forall_mem_cons]
  refine ⟨⟨⟨by decide, by decide⟩, trivial, ⟨by decide, by decide⟩, trivial,
    ⟨by decide, by decide⟩, trivial, trivial, ?_⟩, ⟨trivial, by decide, by decide⟩,
    ⟨trivial, trivial⟩, ⟨trivial, by decide, by decide⟩, ?_⟩
  · exact fun r hr => absurd hr List.not_mem_nil
  · exact fun r hr => absurd hr List.not_mem_nil

/-- So it is after those requests, and after the filings that follow. -/
theorem postings_listed_settledRequests :
    ∃ (e : Engine) (v : Volume) (i j j' : Indexing Unit) (s t t' : Store) (m m₁ m₂ : KeyMap Bytes),
      openAt Settings.standard ["db"] 0 Volume.empty = .ok e v ∧
        runAll "n" settledRequests ⟨sampleIndex, .database⟩ (opened v e) = .ok i s ∧
        s.engine.view.Reads s.toMemory m ∧
        sampleIndex.keys.Listed m (Told.empty.tellAll settledRequests).held ∧
        runAll "n" laterFilings i s = .ok j t ∧
        runAll "n" (.reopen ⟨1, 2⟩ 9 :: .begin :: (laterFilings ++ [.commit])) i s = .ok j' t' ∧
        t.engine.view.Reads t.toMemory m₁ ∧ t'.engine.view.Reads t'.toMemory m₂ ∧
        sampleIndex.keys.SameButMarks m₁ m₂ := by
  have hruns : ends (openAt Settings.standard ["db"] 0) Volume.empty (fun e v =>
      ends (runAll "n" settledRequests (⟨sampleIndex, .database⟩ : Indexing Unit))
        (opened v e) fun i s =>
          decide (s.written < UInt64.size) && !i.target.isOpen &&
          ends (runAll "n" laterFilings i) s (fun _ t => decide (t.written < UInt64.size)) &&
          ends (runAll "n" (.reopen ⟨1, 2⟩ 9 :: .begin :: (laterFilings ++ [.commit])) i) s
            fun _ t => decide (t.written < UInt64.size)) = true := by
    decide +kernel
  obtain ⟨e, v, hopen, hruns⟩ := of_ends hruns
  obtain ⟨i, s, hrun, hruns⟩ := of_ends hruns
  simp only [Bool.and_eq_true, Bool.not_eq_true', decide_eq_true_eq] at hruns
  obtain ⟨⟨⟨hroom, htarget⟩, hdirect⟩, hcommitted⟩ := hruns
  obtain ⟨j, t, hdirect, hroom₁⟩ := of_ends hdirect
  obtain ⟨j', t', hcommitted, hroom₂⟩ := of_ends hcommitted
  have hx : openNamed "n" IndexSettings.standard 1 = .ok sampleIndex := rfl
  obtain ⟨⟨m, hreads, hlisted⟩, hfilings⟩ := postings_listed (vacant_empty ["db"]) hopen hx
    admissible_settledRequests.1 hrun hroom
  obtain ⟨m₁, m₂, hreads₁, hreads₂, hsame⟩ := hfilings ⟨1, 2⟩ 9 htarget
    admissible_settledRequests.2 hdirect hcommitted (of_decide_eq_true hroom₁)
    (of_decide_eq_true hroom₂)
  exact ⟨e, v, i, j, j', s, t, t', m, m₁, m₂, hopen, hrun, hreads, hlisted, hdirect, hcommitted,
    hreads₁, hreads₂, hsame⟩

end Index

end OrderedStore
