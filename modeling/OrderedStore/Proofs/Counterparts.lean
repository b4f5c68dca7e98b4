/-
Whatever is asked of an index is answered by its own keys.

Two views may read as maps that agree on the keys of an index, and on no
others (`IndexKeys.Counterparts`). Then every question about the index has an
answer in both, and it is the same (`IndexKeys.AnswersAlike`). Terms that are
suggested, postings that are counted and entries of the lexicon are read off
keys directly. A search makes rows of what it reads, which are alike from the
start, and joins them by the query's tree (`Counterparts.search_alike`), so
they are alike however they are moved from there on.
-/
import Mathlib
import OrderedStore.Proofs.Browsing
import OrderedStore.Proofs.Realms
import OrderedStore.Proofs.Searches

namespace OrderedStore

-- ============================================================== the same keys

namespace KeyMap

variable {m m' : KeyMap Bytes} {lead : Bytes}

/-- Maps that agree on what begins with a string have the same pairs there. -/
theorem beginning_congr (h : ∀ k, lead <+: k → m'.find? k = m.find? k) :
    m'.beginning lead = m.beginning lead := by
  have hsorted (m : KeyMap Bytes) : (m.beginning lead).Pairwise fun p q => p.1 < q.1 :=
    m.sorted.sublist List.filter_sublist
  have hmem : ∀ p, p ∈ m'.beginning lead ↔ p ∈ m.beginning lead := by
    intro ⟨k, v⟩
    rw [mem_beginning, mem_beginning]
    constructor
    · rintro ⟨hv, hlead⟩
      rw [h k hlead] at hv
      exact ⟨hv, hlead⟩
    · rintro ⟨hv, hlead⟩
      rw [← h k hlead] at hv
      exact ⟨hv, hlead⟩
  exact eq_of_mem_iff (fun _ _ hab hba => List.lt_asymm hab hba) (hsorted m') (hsorted m) hmem

/-- What is made of pairs with such keys is made of those that begin so. -/
theorem filterMap_beginning {β : Type} {f : Bytes × Bytes → Option β}
    (h : ∀ p, (f p).isSome = true → lead <+: p.1) (m : KeyMap Bytes) :
    (m.beginning lead).filterMap f = m.entries.filterMap f := by
  unfold beginning
  rw [List.filterMap_filter]
  refine List.filterMap_congr fun p _ => ?_
  split
  · rfl
  · next hnot =>
      cases hf : f p with
      | none => rfl
      | some b =>
          refine absurd (List.isPrefixOf_iff_prefix.mpr (h p ?_)) hnot
          rw [hf]
          rfl

end KeyMap

namespace IndexKeys

variable {ks : IndexKeys} {m m' : KeyMap Bytes}

/-- The same documents have postings. -/
theorem postedDocs_congr (h : ∀ k, ks.lead <+: k → m'.find? k = m.find? k) :
    ks.postedDocs m' = ks.postedDocs m := by
  have hlead (p : Bytes × Bytes) (hp : (ks.documentOf? p.1).isSome = true) : ks.lead <+: p.1 := by
    cases hafter : ks.afterPart? "i/" p.1 with
    | none =>
        unfold documentOf? at hp
        rw [hafter] at hp
        cases hp
    | some rest =>
        have hpart : ks.part "i/" <+: p.1 := ⟨rest, (Bytes.eq_append_of_after? hafter).symm⟩
        exact (List.prefix_append _ _).trans hpart
  unfold postedDocs
  rw [← KeyMap.filterMap_beginning hlead, KeyMap.beginning_congr h,
    KeyMap.filterMap_beginning hlead]

end IndexKeys

-- =============================================================== searching

namespace IndexKeys

open Results
open List (Forall₂)

variable {ks : IndexKeys} {mem mem' : Memory} {r r' : ReadView} {m m' : KeyMap Bytes}
  {x y : Results} {xs ys : List Results}

/-- What is seen of a search for a query, one move after the other. -/
def browse (ks : IndexKeys) (mem : Memory) (r : ReadView) (q : Query) (mvs : List Move) :
    Except Failure (List (Option DocKey × List String)) := do
  let x ← ks.search mem r q
  x.browse mem r mvs

/-- Two views read as maps that agree on the keys of the index. -/
structure Counterparts (ks : IndexKeys) (mem : Memory) (r : ReadView) (m : KeyMap Bytes)
    (mem' : Memory) (r' : ReadView) (m' : KeyMap Bytes) : Prop where
  reads : r.Reads mem m
  reads' : r'.Reads mem' m'
  agree : ∀ k, ks.lead <+: k → m'.find? k = m.find? k

/-- Keys of the lexicon begin with the lead. -/
theorem lead_lexiconFrom (ks : IndexKeys) (lead : String) : ks.lead <+: ks.lexiconFrom lead := by
  unfold lexiconFrom part
  rw [List.append_assoc]
  exact List.prefix_append _ _

/-- So do postings. -/
theorem lead_postings (ks : IndexKeys) (token : UInt64) : ks.lead <+: ks.postings token := by
  unfold postings part
  rw [List.append_assoc, List.append_assoc]
  exact List.prefix_append _ _

/-- The union of alike rows is alike. -/
theorem union_alike (h : Forall₂ (Results.Alike m m') xs ys) : Results.Alike m m' (union xs) (union ys) := by
  cases h with
  | nil => exact .empty
  | cons hx hxs =>
      cases hxs with
      | nil => exact hx
      | cons hx' hxs => exact ofAny_alike (.cons hx (.cons hx' hxs))

namespace Counterparts

/-- What is scanned under a lead of the index is the same. -/
theorem scan (h : Counterparts ks mem r m mem' r' m') {lead : Bytes} (hlead : ks.lead <+: lead) :
    ∃ pairs, r.scan mem lead = .ok pairs ∧ r'.scan mem' lead = .ok pairs := by
  refine ⟨m.beginning lead, h.reads.scan_eq lead, ?_⟩
  rw [h.reads'.scan_eq lead]
  exact congrArg _ (KeyMap.beginning_congr fun k hk => h.agree k (hlead.trans hk))

/-- The universe of one is no larger than either view. -/
theorem size (h : Counterparts ks mem r m mem' r' m') :
    (ks.postedDocs m).length ≤ r.extent mem ∧ (ks.postedDocs m).length ≤ r'.extent mem' := by
  refine ⟨le_trans (ks.length_postedDocs_le m) h.reads.size, ?_⟩
  rw [← postedDocs_congr h.agree]
  exact le_trans (ks.length_postedDocs_le m') h.reads'.size

/-- The results of looking up what begins like a string are alike. -/
theorem searchLexicon_alike (h : Counterparts ks mem r m mem' r' m') {lead : Bytes}
    (hlead : ks.lead <+: lead) (hx : ks.searchLexicon mem r lead = .ok x)
    (hy : ks.searchLexicon mem' r' lead = .ok y) : Results.Alike m m' x y := by
  obtain ⟨pairs, hscan, hscan'⟩ := h.scan hlead
  unfold searchLexicon at hx hy
  rw [hscan, ok_bind] at hx
  rw [hscan', ok_bind] at hy
  obtain ⟨xs, hxs, hx⟩ := of_ok_bind hx
  obtain ⟨ys, hys, hy⟩ := of_ok_bind hy
  cases hx
  cases hy
  refine union_alike (filter_alike (mapM_forall₂ (R := Eq) (List.forall₂_refl _) ?_ hxs hys))
  rintro e - _ - rfl x y hx hy
  have hagree (k : Bytes) (hk : ks.postings e.2.token <+: k) : m'.find? k = m.find? k :=
    h.agree k ((lead_postings ks _).trans hk)
  have hshaped := ks.shaped_postings m e.2.token
  cases hp : Postings.start mem r (ks.postings e.2.token) e.1 with
  | error f =>
      rw [hp] at hx
      cases hx
  | ok p =>
      cases hq : Postings.start mem' r' (ks.postings e.2.token) e.1 with
      | error f =>
          rw [hq] at hy
          cases hy
      | ok q =>
          rw [hp] at hx
          rw [hq] at hy
          cases hx
          cases hy
          exact .token (Postings.start_alike (ks.universe_postedDocs m) h.reads h.reads' hagree hshaped
            hp hq)

mutual

/-- The results of a search are alike. -/
theorem search_alike (h : Counterparts ks mem r m mem' r' m') :
    ∀ (q : Query) {x y : Results}, ks.search mem r q = .ok x → ks.search mem' r' q = .ok y →
      Results.Alike m m' x y
  | .term t, x, y, hx, hy => by
      rw [search] at hx hy
      exact h.searchLexicon_alike ((lead_lexiconFrom ks t).trans (List.prefix_append _ _)) hx hy
  | .beginning lead, x, y, hx, hy => by
      rw [search] at hx hy
      exact h.searchLexicon_alike (lead_lexiconFrom ks lead) hx hy
  | .all children, x, y, hx, hy => by
      rw [search] at hx hy
      obtain ⟨found, hfound, hx⟩ := of_ok_bind hx
      obtain ⟨found', hfound', hy⟩ := of_ok_bind hy
      cases searchAll_alike h children hfound hfound' with
      | none =>
          cases hx
          cases hy
          exact .empty
      | some hxys =>
          have hU := ks.universe_postedDocs m
          have hsame := postedDocs_congr h.agree
          obtain ⟨hsize, hsize'⟩ := h.size
          obtain ⟨_, hone, -, hahead⟩ := searchAll_ok h.reads hsize children
          obtain ⟨_, hother, -, hahead'⟩ :=
            searchAll_ok h.reads' (hsame.symm ▸ hsize') children
          rw [hfound] at hone
          rw [hfound'] at hother
          cases hone
          cases hother
          have heach := hahead _ rfl
          have heach' := hahead' _ rfl
          rw [hsame] at heach'
          match hxys with
          | .nil =>
              cases hx
              cases hy
              exact .empty
          | .cons hone .nil =>
              cases hx
              cases hy
              exact hone
          | .cons hone (.cons htwo hrest) =>
              exact ofAll_alike hU hsize hsize' heach heach' (.cons hone (.cons htwo hrest)) hx hy
  | .any children, x, y, hx, hy => by
      rw [search] at hx hy
      obtain ⟨xs, hxs, hx⟩ := of_ok_bind hx
      obtain ⟨ys, hys, hy⟩ := of_ok_bind hy
      cases hx
      cases hy
      exact union_alike (filter_alike (searchEach_alike h children hxs hys))

/-- Those of several searches are, if there are any. -/
theorem searchAll_alike (h : Counterparts ks mem r m mem' r' m') :
    ∀ (qs : List Query) {found found' : Option (List Results)},
      searchAll ks mem r qs = .ok found → searchAll ks mem' r' qs = .ok found' →
        Option.Rel (Forall₂ (Results.Alike m m')) found found'
  | [], found, found', hx, hy => by
      rw [searchAll] at hx hy
      cases hx
      cases hy
      exact .some .nil
  | q :: qs, found, found', hx, hy => by
      rw [searchAll] at hx hy
      obtain ⟨x, hsearch, hx⟩ := of_ok_bind hx
      obtain ⟨y, hsearch', hy⟩ := of_ok_bind hy
      have hxy := search_alike h q hsearch hsearch'
      rw [hxy.isValid] at hy
      split at hx
      · next hvalid =>
          rw [if_pos hvalid] at hy
          obtain ⟨rest, hrest, hx⟩ := of_ok_bind hx
          obtain ⟨rest', hrest', hy⟩ := of_ok_bind hy
          cases searchAll_alike h qs hrest hrest' with
          | none =>
              cases hx
              cases hy
              exact .none
          | some hxys =>
              cases hx
              cases hy
              exact .some (.cons hxy hxys)
      · next hnot =>
          rw [if_neg hnot] at hy
          cases hx
          cases hy
          exact .none

/-- And one by one. -/
theorem searchEach_alike (h : Counterparts ks mem r m mem' r' m') :
    ∀ (qs : List Query) {xs ys : List Results},
      searchEach ks mem r qs = .ok xs → searchEach ks mem' r' qs = .ok ys →
        Forall₂ (Results.Alike m m') xs ys
  | [], xs, ys, hx, hy => by
      rw [searchEach] at hx hy
      cases hx
      cases hy
      exact .nil
  | q :: qs, xs, ys, hx, hy => by
      rw [searchEach] at hx hy
      obtain ⟨x, hsearch, hx⟩ := of_ok_bind hx
      obtain ⟨y, hsearch', hy⟩ := of_ok_bind hy
      obtain ⟨rest, hrest, hx⟩ := of_ok_bind hx
      obtain ⟨rest', hrest', hy⟩ := of_ok_bind hy
      cases hx
      cases hy
      exact .cons (search_alike h q hsearch hsearch') (searchEach_alike h qs hrest hrest')

end

/-- Both searches have results, which are alike. -/
theorem searched (h : Counterparts ks mem r m mem' r' m') (q : Query) :
    ∃ x y P Q, ks.search mem r q = .ok x ∧ ks.search mem' r' q = .ok y ∧ Results.Alike m m' x y ∧
      x.Ahead mem m r (ks.postedDocs m) P ∧ y.Ahead mem' m' r' (ks.postedDocs m) Q := by
  obtain ⟨hsize, hsize'⟩ := h.size
  have hsame := postedDocs_congr h.agree
  rw [← hsame] at hsize'
  obtain ⟨x, hx, hahead⟩ := search_ok h.reads hsize q
  obtain ⟨y, hy, hahead'⟩ := search_ok h.reads' hsize' q
  rw [hsame] at hahead'
  exact ⟨x, y, _, _, hx, hy, h.search_alike q hx hy, hahead, hahead'⟩

/-- What is seen of them is the same. -/
theorem browse (h : Counterparts ks mem r m mem' r' m') (q : Query) (mvs : List Move) :
    ∃ shown, ks.browse mem r q mvs = .ok shown ∧ ks.browse mem' r' q mvs = .ok shown := by
  obtain ⟨x, y, P, Q, hx, hy, hxy, hahead, hahead'⟩ := h.searched q
  obtain ⟨hsize, hsize'⟩ := h.size
  obtain ⟨shown, hshown, hshown'⟩ :=
    browse_alike (ks.universe_postedDocs m) hsize hsize' hahead hahead' hxy mvs
  refine ⟨shown, ?_, ?_⟩
  · rw [IndexKeys.browse, hx, ok_bind, hshown]
  · rw [IndexKeys.browse, hy, ok_bind, hshown']

/-- The same names are found. -/
theorem searchDocIds (h : Counterparts ks mem r m mem' r' m') (q : Query) (limit : Nat) :
    ∃ ids, ks.searchDocIds mem r q limit = .ok ids ∧ ks.searchDocIds mem' r' q limit = .ok ids := by
  obtain ⟨x, ds, hx, -, -, htake, hids⟩ := yields_turnsUp h.reads q
  obtain ⟨y, ds', hy, -, -, htake', hids'⟩ :=
    yields_turnsUp h.reads' q
  obtain ⟨x₁, y₁, P, Q, hx₁, hy₁, hxy, hahead, hahead'⟩ := h.searched q
  obtain rfl : x = x₁ := Except.ok.inj (hx.symm.trans hx₁)
  obtain rfl : y = y₁ := Except.ok.inj (hy.symm.trans hy₁)
  obtain ⟨hsize, hsize'⟩ := h.size
  -- all documents of both, taken at once
  obtain ⟨hits, htaken, htaken'⟩ := take_alike (ks.universe_postedDocs m) hsize hsize' hahead hahead'
    hxy (ds.length + ds'.length)
  obtain ⟨hits₁, hhits, hmap⟩ := htake (ds.length + ds'.length)
  obtain ⟨hits₂, hhits', hmap'⟩ := htake' (ds.length + ds'.length)
  obtain rfl : hits = hits₁ := Except.ok.inj (htaken.symm.trans hhits)
  obtain rfl : hits = hits₂ := Except.ok.inj (htaken'.symm.trans hhits')
  have hsame : ds' = ds := by
    rw [List.take_of_length_le (Nat.le_add_right _ _)] at hmap
    rw [List.take_of_length_le (Nat.le_add_left _ _)] at hmap'
    exact hmap'.symm.trans hmap
  refine ⟨_, hids limit, ?_⟩
  rw [hids' limit, hsame]

/-- The same terms are suggested. -/
theorem suggestions (h : Counterparts ks mem r m mem' r' m') (lead : String) (limit : Nat) :
    ∃ found, ks.suggestions mem r lead limit = .ok found ∧
      ks.suggestions mem' r' lead limit = .ok found := by
  obtain ⟨pairs, hscan, hscan'⟩ := h.scan (lead_lexiconFrom ks lead)
  unfold IndexKeys.suggestions
  rw [hscan, hscan']
  exact ⟨_, rfl, rfl⟩

/-- As many postings are counted. -/
theorem countPostings (h : Counterparts ks mem r m mem' r' m') (token : UInt64) :
    ∃ n, ks.countPostings mem r token = .ok n ∧ ks.countPostings mem' r' token = .ok n := by
  obtain ⟨pairs, hscan, hscan'⟩ := h.scan (lead_postings ks token)
  have hcount {mem : Memory} {r : ReadView} (hscan : r.scan mem (ks.postings token) = .ok pairs) :
      ks.countPostings mem r token = .ok pairs.length := by
    obtain ⟨c, hcursor, htake⟩ := of_ok_bind hscan
    unfold IndexKeys.countPostings
    rw [hcursor, ok_bind, htake]
    rfl
  exact ⟨pairs.length, hcount hscan, hcount hscan'⟩

/-- The lexicon says the same of a term and a word. -/
theorem lexiconEntry (h : Counterparts ks mem r m mem' r' m') {x : Index} (hx : x.keys = ks)
    (term raw : String) :
    ∃ e, x.lexiconEntry mem r term raw = .ok e ∧ x.lexiconEntry mem' r' term raw = .ok e := by
  have hlead : ks.lead <+: ks.lexicon term (Index.stored term raw) :=
    lead_of_kind? (ks.kind?_lexicon term _)
  unfold Index.lexiconEntry
  rw [hx, h.reads.get, h.reads'.get, h.agree _ hlead, ok_bind]
  cases m.find? (ks.lexicon term (Index.stored term raw)) with
  | none => exact ⟨none, rfl, rfl⟩
  | some bytes =>
      cases hread : LexiconEntry.decode bytes with
      | error f => exact ⟨none, by simp only [hread]; rfl, by simp only [hread]; rfl⟩
      | ok e => exact ⟨some e, by simp only [hread]; rfl, by simp only [hread]; rfl⟩

end Counterparts

/-- Whatever can be asked of the index is answered, and has the same answer, in
two views: what is seen of the results of a search, the names that are found,
the terms that are suggested, how many postings a token has, and what the
lexicon says. -/
structure AnswersAlike (ks : IndexKeys) (mem : Memory) (r : ReadView) (mem' : Memory)
    (r' : ReadView) : Prop where
  browse : ∀ q mvs, ∃ shown,
    ks.browse mem r q mvs = .ok shown ∧ ks.browse mem' r' q mvs = .ok shown
  searchDocIds : ∀ q limit, ∃ ids,
    ks.searchDocIds mem r q limit = .ok ids ∧ ks.searchDocIds mem' r' q limit = .ok ids
  suggestions : ∀ lead limit, ∃ found,
    ks.suggestions mem r lead limit = .ok found ∧ ks.suggestions mem' r' lead limit = .ok found
  countPostings : ∀ token, ∃ n,
    ks.countPostings mem r token = .ok n ∧ ks.countPostings mem' r' token = .ok n
  lexiconEntry : ∀ x : Index, x.keys = ks → ∀ term raw, ∃ e,
    x.lexiconEntry mem r term raw = .ok e ∧ x.lexiconEntry mem' r' term raw = .ok e

/-- Counterparts answer alike. -/
theorem Counterparts.answersAlike (h : Counterparts ks mem r m mem' r' m') :
    ks.AnswersAlike mem r mem' r' :=
  ⟨h.browse, h.searchDocIds, h.suggestions, h.countPostings, fun _ hx => h.lexiconEntry hx⟩

end IndexKeys

end OrderedStore
