/-
Searching finds what a query asks for.

A search goes from the lexicon to the tokens of the terms that are asked for,
from each token to its postings, and these are joined as the query's tree has
it. So what turns up is a matter of keys (`IndexKeys.turnsUp`): what is ahead
on the results are these documents (`search_ok`, by the tree), and going
through them gives them in order, each once (`IndexKeys.Yields`). Nothing is
asked of the map for that: what cannot be read does not turn up.

What a query asks for is said by evaluating it on the terms of one document
(`Query.finds`). If the index holds what it was told of the documents, those
are the ones that turn up (`Posted.turnsUp_iff`), and so a search finds what
the query asks for (`Documents.Found`).
-/
import Mathlib
import OrderedStore.Proofs.Indexed
import OrderedStore.Proofs.Results

namespace OrderedStore

-- ================================================================ queries

namespace Query

mutual

/-- Whether the query finds a document with these terms. -/
def finds (terms : List Term) : Query → Bool
  | .term t => terms.any fun u => u.index == t
  | .beginning lead => terms.any fun u => lead.toList.isPrefixOf u.index.toList
  | .all children => !children.isEmpty && findsAll terms children
  | .any children => findsAny terms children

/-- Whether each of the queries finds it. -/
def findsAll (terms : List Term) : List Query → Bool
  | [] => true
  | q :: qs => q.finds terms && findsAll terms qs

/-- Whether some of the queries finds it. -/
def findsAny (terms : List Term) : List Query → Bool
  | [] => false
  | q :: qs => q.finds terms || findsAny terms qs

end

mutual

/-- The strings that the query asks for. -/
def strings : Query → List String
  | .term t => [t]
  | .beginning lead => [lead]
  | .all children => stringsOfAll children
  | .any children => stringsOfAll children

/-- The strings that several queries ask for. -/
def stringsOfAll : List Query → List String
  | [] => []
  | q :: qs => q.strings ++ stringsOfAll qs

end

/-- Whether the strings that are asked for are without tabs. -/
def Clean (q : Query) : Prop :=
  ∀ s ∈ q.strings, Term.delimiter ∉ s.toList

instance (q : Query) : Decidable q.Clean :=
  inferInstanceAs (Decidable (∀ s ∈ q.strings, Term.delimiter ∉ s.toList))

/-- Whether the strings of several queries are. -/
def AllClean (qs : List Query) : Prop :=
  ∀ s ∈ stringsOfAll qs, Term.delimiter ∉ s.toList

variable {q : Query} {qs : List Query}

/-- The first of clean queries is clean. -/
theorem AllClean.head (h : AllClean (q :: qs)) : q.Clean := by
  intro s hs
  refine h s ?_
  rw [stringsOfAll]
  exact List.mem_append_left _ hs

/-- The others are, too. -/
theorem AllClean.tail (h : AllClean (q :: qs)) : AllClean qs := by
  intro s hs
  refine h s ?_
  rw [stringsOfAll]
  exact List.mem_append_right _ hs

/-- What all of the queries find. -/
theorem findsAll_iff {terms : List Term} :
    findsAll terms qs = true ↔ ∀ q ∈ qs, q.finds terms = true := by
  induction qs with
  | nil => simp [findsAll]
  | cons q qs ih => simp [findsAll, ih]

/-- What some of the queries find. -/
theorem findsAny_iff {terms : List Term} :
    findsAny terms qs = true ↔ ∃ q ∈ qs, q.finds terms = true := by
  induction qs with
  | nil => simp [findsAny]
  | cons q qs ih => simp [findsAny, ih]

end Query

/-- The documents that the query finds. -/
def Documents.finds (docs : Documents) (q : Query) : DocSet :=
  fun d => docs.hit (fun terms => q.finds terms) d = true

namespace Documents

variable {docs : Documents} {q : Query} {qs : List Query} {d : DocKey}

/-- A document is found by all of some queries if it is found by each. -/
theorem finds_all : docs.finds (.all qs) d ↔ qs ≠ [] ∧ ∀ q ∈ qs, docs.finds q d := by
  unfold finds
  simp only [hit_iff, Query.finds, Bool.and_eq_true, Query.findsAll_iff, Bool.not_eq_true',
    List.isEmpty_eq_false_iff]
  constructor
  · rintro ⟨f, hf, hkey, hne, hall⟩
    exact ⟨hne, fun q hq => ⟨f, hf, hkey, hall q hq⟩⟩
  · rintro ⟨hne, hall⟩
    obtain ⟨q, hq⟩ := List.exists_mem_of_ne_nil qs hne
    obtain ⟨f, hf, hkey, -⟩ := hall q hq
    refine ⟨f, hf, hkey, hne, fun q hq => ?_⟩
    obtain ⟨f', hf', -, hfinds⟩ := hall q hq
    rw [hf] at hf'
    cases hf'
    exact hfinds

/-- A document is found by any of some queries if it is found by one. -/
theorem finds_any : docs.finds (.any qs) d ↔ ∃ q ∈ qs, docs.finds q d := by
  unfold finds
  simp only [hit_iff, Query.finds, Query.findsAny_iff]
  constructor
  · rintro ⟨f, hf, hkey, q, hq, hfinds⟩
    exact ⟨q, hq, f, hf, hkey, hfinds⟩
  · rintro ⟨q, hq, f, hf, hkey, hfinds⟩
    exact ⟨f, hf, hkey, q, hq, hfinds⟩

end Documents

-- ============================================================== the union

namespace IndexKeys

open Results

variable {ks : IndexKeys} {m : KeyMap Bytes} {mem : Memory} {r : ReadView} {docs : Documents}
  {U : List DocKey} {xs : List Results} {Ps : List DocSet}

/-- A union has ahead what some of its rows have. -/
theorem union_ok (h : AheadEach mem m r U xs Ps) :
    (union xs).Ahead mem m r U (fun d => ∃ Q ∈ Ps, Q d) := by
  match xs, Ps with
  | [], [] => exact fun d hd => hd.elim fun Q hQ => List.not_mem_nil hQ.1
  | [x], [P] =>
      have hsame : (fun d => ∃ Q ∈ [P], Q d) = P := by
        funext d
        simp
      rw [hsame]
      exact h.1
  | x :: y :: ys, P :: Ps => exact ahead_ofAny h

/-- So has a union of the rows that stand on something. -/
theorem union_valid_ok (h : AheadEach mem m r U xs Ps) :
    (union (xs.filter isValid)).Ahead mem m r U (fun d => ∃ Q ∈ Ps, Q d) := by
  obtain ⟨Qs, hQs, hsame⟩ := aheadEach_filter h
  have hsets : (fun d => ∃ Q ∈ Ps, Q d) = fun d => ∃ Q ∈ Qs, Q d := by
    funext d
    exact propext (hsame d).symm
  rw [hsets]
  exact union_ok hQs

/-- Rows that are made one by one. -/
theorem mapM_rows_ok {α : Type} {es : List α} {f : α → Except Failure Results} {g : α → DocSet}
    (h : ∀ e ∈ es, ∃ x, f e = .ok x ∧ x.Ahead mem m r U (g e)) :
    ∃ xs, es.mapM f = .ok xs ∧ AheadEach mem m r U xs (es.map g) := by
  induction es with
  | nil => exact ⟨[], rfl, trivial⟩
  | cons e es ih =>
      obtain ⟨x, hx, hahead⟩ := h e List.mem_cons_self
      obtain ⟨xs, hxs, haheads⟩ := ih fun e he => h e (List.mem_cons_of_mem _ he)
      refine ⟨x :: xs, ?_, hahead, haheads⟩
      rw [List.mapM_cons, hx, ok_bind, hxs, ok_bind]
      rfl

-- ============================================================= the lexicon

/-- The readable entries among the pairs whose keys begin with a string. -/
theorem mem_readableEntries {lead : Bytes} {shown : String} {e : LexiconEntry} :
    (shown, e) ∈ ks.readableEntries (m.entries.filter fun q => lead.isPrefixOf q.1) ↔
      ∃ l term raw, lead <+: l ∧ ks.parseLexicon? l = some (term, raw) ∧
        shown = display term raw ∧ entryAt m l = some e := by
  unfold readableEntries
  rw [List.mem_filterMap]
  constructor
  · rintro ⟨⟨l, bytes⟩, hmem, hread⟩
    obtain ⟨hentry, hpre⟩ := List.mem_filter.mp hmem
    cases hparse : ks.parseLexicon? l with
    | none =>
        rw [hparse] at hread
        cases hread
    | some parsed =>
        obtain ⟨term, raw⟩ := parsed
        cases hdecode : LexiconEntry.decode bytes with
        | error f =>
            simp only [hparse, hdecode] at hread
            cases hread
        | ok e' =>
            simp only [hparse, hdecode] at hread
            cases hread
            refine ⟨l, term, raw, List.isPrefixOf_iff_prefix.mp hpre, hparse, rfl, ?_⟩
            unfold entryAt
            rw [KeyMap.mem_entries.mp hentry]
            exact congrArg Except.toOption hdecode
  · rintro ⟨l, term, raw, hlead, hparse, rfl, hentry⟩
    obtain ⟨bytes, hbytes, hread⟩ := Option.bind_eq_some_iff.mp hentry
    refine ⟨(l, bytes), List.mem_filter.mpr ⟨KeyMap.mem_entries.mpr hbytes,
      List.isPrefixOf_iff_prefix.mpr hlead⟩, ?_⟩
    cases hdecode : LexiconEntry.decode bytes with
    | error f =>
        rw [hdecode] at hread
        cases hread
    | ok e' =>
        rw [hdecode] at hread
        cases hread
        simp only [hparse]

/-- In a lexicon they are its entries there. -/
theorem Lexed.mem_readableEntries (h : ks.Lexed m) {lead : Bytes} {e : LexiconEntry}
    (hkind : ∀ k, lead <+: k → ks.kind? k = some 108) :
    (∃ shown, (shown, e) ∈ ks.readableEntries (m.entries.filter fun q => lead.isPrefixOf q.1)) ↔
      ∃ term raw, Plain term ∧ lead <+: ks.lexicon term raw ∧
        m.find? (ks.lexicon term raw) = some e.encode := by
  constructor
  · rintro ⟨shown, hmem⟩
    obtain ⟨l, -, -, hlead, -, -, hentry⟩ := IndexKeys.mem_readableEntries.mp hmem
    obtain ⟨bytes, hbytes, -⟩ := Option.bind_eq_some_iff.mp hentry
    obtain ⟨term, raw, e', hplain, rfl, rfl⟩ := h.entry l bytes hbytes (hkind l hlead)
    obtain rfl := Option.some.inj ((entryAt_of_find? hbytes).symm.trans hentry)
    exact ⟨term, raw, hplain, hlead, hbytes⟩
  · rintro ⟨term, raw, hplain, hlead, hfound⟩
    exact ⟨display term raw, IndexKeys.mem_readableEntries.mpr ⟨_, term, raw, hlead,
      ks.parseLexicon?_lexicon hplain raw, rfl, entryAt_of_find? hfound⟩⟩

/-- The documents with a posting under the token of an entry. -/
def under (ks : IndexKeys) (m : KeyMap Bytes) (e : String × LexiconEntry) : DocSet :=
  fun d => d ∈ ks.postedDocs m ∧ (m.find? (ks.posting e.2.token d)).isSome = true

/-- The documents with a posting under a readable entry whose key begins with
a string. -/
def underLead (ks : IndexKeys) (m : KeyMap Bytes) (lead : Bytes) : DocSet :=
  fun d => ∃ e ∈ ks.readableEntries (m.entries.filter fun q => lead.isPrefixOf q.1), ks.under m e d

mutual

/-- The documents that turn up for a query. -/
def turnsUp (ks : IndexKeys) (m : KeyMap Bytes) : Query → DocSet
  | .term t => ks.underLead m (ks.lexiconOf t)
  | .beginning lead => ks.underLead m (ks.lexiconFrom lead)
  | .all children => fun d => children ≠ [] ∧ turnsUpForAll ks m children d
  | .any children => turnsUpForAny ks m children

/-- Those that turn up for each of the queries. -/
def turnsUpForAll (ks : IndexKeys) (m : KeyMap Bytes) : List Query → DocSet
  | [] => fun _ => True
  | q :: qs => fun d => turnsUp ks m q d ∧ turnsUpForAll ks m qs d

/-- Those that turn up for some of the queries. -/
def turnsUpForAny (ks : IndexKeys) (m : KeyMap Bytes) : List Query → DocSet
  | [] => fun _ => False
  | q :: qs => fun d => turnsUp ks m q d ∨ turnsUpForAny ks m qs d

end

/-- A document turns up for each of some queries. -/
theorem turnsUpForAll_iff {qs : List Query} {d : DocKey} :
    ks.turnsUpForAll m qs d ↔ ∀ q ∈ qs, ks.turnsUp m q d := by
  induction qs with
  | nil => simp [turnsUpForAll]
  | cons q qs ih => simp [turnsUpForAll, ih]

/-- A document turns up for some of them. -/
theorem turnsUpForAny_iff {qs : List Query} {d : DocKey} :
    ks.turnsUpForAny m qs d ↔ ∃ q ∈ qs, ks.turnsUp m q d := by
  induction qs with
  | nil => simp [turnsUpForAny]
  | cons q qs ih => simp [turnsUpForAny, ih]

/-- The row of an entry goes through the documents under it. -/
theorem start_under_ok (hr : r.Reads mem m) (ks : IndexKeys) (e : String × LexiconEntry) :
    ∃ p, Postings.start mem r (ks.postings e.2.token) e.1 = .ok p ∧
      p.Ahead mem m r (ks.postedDocs m) (ks.under m e) :=
  Postings.start_ok (ks.universe_postedDocs m) hr (ks.shaped_postings m e.2.token) e.1

/-- There is a row for each entry. -/
theorem rows_ok (hr : r.Reads mem m) (ks : IndexKeys) (es : List (String × LexiconEntry)) :
    ∃ xs, (es.mapM fun e =>
        (Postings.start mem r (ks.postings e.2.token) e.1).map Results.token) = .ok xs ∧
      AheadEach mem m r (ks.postedDocs m) xs (es.map (ks.under m)) := by
  refine mapM_rows_ok fun e _ => ?_
  obtain ⟨p, hstart, hahead⟩ := start_under_ok hr ks e
  refine ⟨.token p, ?_, hahead⟩
  rw [hstart]
  rfl

/-- Looking up what begins like a string finds the documents with a posting
under an entry whose key begins so. -/
theorem searchLexicon_ok (hr : r.Reads mem m) (lead : Bytes) :
    ∃ x, ks.searchLexicon mem r lead = .ok x ∧
      x.Ahead mem m r (ks.postedDocs m) (ks.underLead m lead) := by
  obtain ⟨xs, hmap, haheads⟩ :=
    rows_ok hr ks (ks.readableEntries (m.entries.filter fun q => lead.isPrefixOf q.1))
  have hunion := union_valid_ok haheads
  have hsets : (fun d => ∃ Q ∈ (ks.readableEntries
        (m.entries.filter fun q => lead.isPrefixOf q.1)).map (ks.under m), Q d)
      = ks.underLead m lead := by
    funext d
    simp [underLead]
  rw [hsets] at hunion
  refine ⟨union (xs.filter isValid), ?_, hunion⟩
  unfold searchLexicon
  rw [hr.scan_eq, ok_bind, hmap, ok_bind]
  rfl

-- =============================================================== the tree

mutual

/-- A search has ahead what turns up for the query. -/
theorem search_ok (hr : r.Reads mem m)
    (hsize : (ks.postedDocs m).length ≤ r.extent mem) :
    ∀ q : Query, ∃ x, ks.search mem r q = .ok x ∧
      x.Ahead mem m r (ks.postedDocs m) (ks.turnsUp m q)
  | .term t => by
      rw [search, turnsUp]
      exact searchLexicon_ok hr _
  | .beginning lead => by
      rw [search, turnsUp]
      exact searchLexicon_ok hr _
  | .all children => by
      obtain ⟨found, hfound, hnone, hsome⟩ := searchAll_ok hr hsize children
      rw [search, hfound, ok_bind, turnsUp]
      match found with
      | none =>
          refine ⟨.empty, rfl, fun d hd => ?_⟩
          exact hnone rfl d (turnsUpForAll_iff.mp hd.2)
      | some xs =>
          have haheads := hsome xs rfl
          match xs, children with
          | [], [] => exact ⟨.empty, rfl, fun d hd => hd.1 rfl⟩
          | [x], [q] =>
              have hsame : (fun d => [q] ≠ [] ∧ ks.turnsUpForAll m [q] d) = ks.turnsUp m q := by
                funext d
                simp [turnsUpForAll]
              rw [hsame]
              exact ⟨x, rfl, haheads.1⟩
          | x :: y :: ys, q :: qs =>
              obtain ⟨z, hall, hahead⟩ := ofAll_ok (ks.universe_postedDocs m) hsize haheads
                (List.cons_ne_nil _ _)
              have hsame : (fun d => q :: qs ≠ [] ∧ ks.turnsUpForAll m (q :: qs) d)
                  = fun d => ∀ Q ∈ (q :: qs).map (ks.turnsUp m), Q d := by
                funext d
                simp [turnsUpForAll_iff]
              rw [hsame]
              exact ⟨z, hall, hahead⟩
  | .any children => by
      obtain ⟨xs, hxs, haheads⟩ := searchEach_ok hr hsize children
      have hsame : ks.turnsUpForAny m children
          = fun d => ∃ Q ∈ children.map (ks.turnsUp m), Q d := by
        funext d
        simp [turnsUpForAny_iff]
      rw [search, hxs, ok_bind, turnsUp, hsame]
      exact ⟨_, rfl, union_valid_ok haheads⟩

/-- If nothing turns up for one of the queries, nothing does for all; otherwise
there is a row for each. -/
theorem searchAll_ok (hr : r.Reads mem m)
    (hsize : (ks.postedDocs m).length ≤ r.extent mem) :
    ∀ qs : List Query, ∃ found, searchAll ks mem r qs = .ok found ∧
      (found = none → ∀ d, ¬∀ q ∈ qs, ks.turnsUp m q d) ∧
      ∀ xs, found = some xs → AheadEach mem m r (ks.postedDocs m) xs (qs.map (ks.turnsUp m))
  | [] => by
      refine ⟨some [], by rw [searchAll]; rfl, ?_, ?_⟩
      · rintro ⟨⟩
      · rintro xs ⟨⟩
        exact trivial
  | q :: qs => by
      obtain ⟨x, hx, hahead⟩ := search_ok hr hsize q
      obtain ⟨found, hfound, hnone, hsome⟩ := searchAll_ok hr hsize qs
      rw [searchAll, hx, ok_bind]
      cases hvalid : x.isValid with
      | false =>
          have hfirst := hahead.first
          unfold Results.isValid at hvalid
          rw [Option.isSome_eq_false_iff, Option.isNone_iff_eq_none] at hvalid
          rw [hvalid] at hfirst
          refine ⟨none, rfl, fun _ d hd => hfirst d (hd q List.mem_cons_self), ?_⟩
          rintro xs ⟨⟩
      | true =>
          rw [if_pos rfl, hfound, ok_bind]
          match found with
          | none =>
              refine ⟨none, rfl, fun _ d hd => ?_, ?_⟩
              · exact hnone rfl d fun q hq => hd q (List.mem_cons_of_mem _ hq)
              · rintro xs ⟨⟩
          | some xs =>
              refine ⟨some (x :: xs), rfl, ?_, ?_⟩
              · rintro ⟨⟩
              · rintro ys ⟨⟩
                exact ⟨hahead, hsome xs rfl⟩

/-- There is a row for each of the queries. -/
theorem searchEach_ok (hr : r.Reads mem m)
    (hsize : (ks.postedDocs m).length ≤ r.extent mem) :
    ∀ qs : List Query, ∃ xs, searchEach ks mem r qs = .ok xs ∧
      AheadEach mem m r (ks.postedDocs m) xs (qs.map (ks.turnsUp m))
  | [] => ⟨[], by rw [searchEach]; rfl, trivial⟩
  | q :: qs => by
      obtain ⟨x, hx, hahead⟩ := search_ok hr hsize q
      obtain ⟨xs, hxs, haheads⟩ := searchEach_ok hr hsize qs
      refine ⟨x :: xs, ?_, hahead, haheads⟩
      rw [searchEach, hx, ok_bind, hxs]
      rfl

end

-- ================================================================= results

/-- A search of a query on what is read from, with the keys, yields these
documents: results that can be gone through, and are the documents in strict
order, each once. The names of the first of them can be asked for. -/
def Yields (ks : IndexKeys) (mem : Memory) (r : ReadView) (q : Query) (P : DocSet) : Prop :=
  ∃ (x : Results) (ds : List DocKey), ks.search mem r q = .ok x ∧
    ds.Pairwise (fun d e => d.before e = true) ∧ (∀ d, d ∈ ds ↔ P d) ∧
    (∀ limit, ∃ hits, x.take mem r limit = .ok hits ∧ hits.map Prod.fst = ds.take limit) ∧
    ∀ limit, ks.searchDocIds mem r q limit = .ok ((ds.take limit).map DocKey.docId)

/-- A search yields what turns up. -/
theorem yields_turnsUp (hr : r.Reads mem m) (q : Query) :
    ks.Yields mem r q (ks.turnsUp m q) := by
  have hU := ks.universe_postedDocs m
  have hsize : (ks.postedDocs m).length ≤ r.extent mem :=
    le_trans (ks.length_postedDocs_le m) hr.size
  obtain ⟨x, hx, hahead⟩ := search_ok hr hsize q
  obtain ⟨ds, hds, hlength⟩ := hU.exists_inOrder fun _ => hahead.within
  refine ⟨x, ds, hx, hds.sorted, hds.mem_iff, fun limit => ?_, fun limit => ?_⟩
  · exact Results.take_ok hU hsize limit hahead hds
  · obtain ⟨hits, htake, hmap⟩ :=
      Results.take_ok hU hsize (min limit (r.extent mem + 1)) hahead hds
    have hall : ds.take (min limit (r.extent mem + 1)) = ds.take limit := by
      rw [← List.take_take]
      refine congrArg (List.take limit) (List.take_of_length_le ?_)
      omega
    have hnames : hits.map (fun hit => hit.1.docId) = (hits.map Prod.fst).map DocKey.docId := by
      rw [List.map_map]
      rfl
    unfold searchDocIds
    rw [hx, ok_bind, htake, ok_bind, hnames, hmap, hall]
    rfl

-- =============================================================== documents

/-- The documents with a term that passes a test are those with a posting
under an entry of the lexicon whose term passes it. -/
theorem Lexed.hit_iff (hl : ks.Lexed m) (hp : ks.Posted m docs) {lead : Bytes}
    {test : String → Bool} (hkind : ∀ k, lead <+: k → ks.kind? k = some 108)
    (htest : ∀ term raw, Plain term → (lead <+: ks.lexicon term raw ↔ test term = true))
    (d : DocKey) :
    docs.hit (fun terms => terms.any fun u => test u.index) d = true ↔ ks.underLead m lead d := by
  simp only [Documents.hit_iff, List.any_eq_true]
  constructor
  · rintro ⟨f, hf, hkey, t, ht, htrue⟩
    have hplain := (hp.plain hf).2 t ht
    obtain ⟨token, htoken⟩ := Option.isSome_iff_exists.mp (hp.tokens hf t ht)
    obtain ⟨e, hfound, rfl⟩ := hl.find?_of_tokenIn htoken
    have hlead := (htest t.index (Index.stored t.index t.raw) hplain).mpr htrue
    obtain ⟨shown, he⟩ := (hl.mem_readableEntries hkind).mpr ⟨_, _, hplain, hlead, hfound⟩
    have hparse : d.Parsable := by
      unfold DocKey.Parsable
      rw [← hkey]
      exact (hp.plain hf).1
    have hposted : (m.find? (ks.posting e.token d)).isSome = true :=
      (hp.posted e.token d hparse).mpr ⟨f, hf, hkey, t, ht, htoken⟩
    exact ⟨_, he, mem_postedDocs hparse hposted, hposted⟩
  · rintro ⟨⟨shown, e⟩, he, hdU, hposted⟩
    obtain ⟨term, raw, hplain, hlead, hfound⟩ := (hl.mem_readableEntries hkind).mp ⟨shown, he⟩
    have hparse := (ks.universe_postedDocs m).parsable d hdU
    obtain ⟨f, hf, hkey, t, ht, htoken⟩ := (hp.posted e.token d hparse).mp hposted
    obtain ⟨hterm, -⟩ := hl.injective ((hp.plain hf).2 t ht) hplain htoken
      (tokenIn_of_find? hfound)
    refine ⟨f, hf, hkey, t, ht, ?_⟩
    rw [hterm]
    exact (htest term raw hplain).mp hlead

mutual

/-- What turns up for a clean query are the documents that it finds. -/
theorem Posted.turnsUp_iff (hl : ks.Lexed m) (hp : ks.Posted m docs) (d : DocKey) :
    ∀ q : Query, q.Clean → (ks.turnsUp m q d ↔ docs.finds q d)
  | .term t, hq => by
      have ht : Plain t := plain_of_not_mem (hq t (List.mem_singleton_self t))
      have htest (term raw : String) (hterm : Plain term) :
          ks.lexiconOf t <+: ks.lexicon term raw ↔ (term == t) = true := by
        rw [ks.lexiconOf_prefix_iff ht hterm, beq_iff_eq, eq_comm]
      rw [turnsUp]
      refine (hl.hit_iff hp (fun k hk => ?_) htest d).symm
      exact ks.kind?_of_lexiconFrom ((List.prefix_append _ _).trans hk)
  | .beginning lead, hq => by
      have hlead : Plain lead := plain_of_not_mem (hq lead (List.mem_singleton_self lead))
      have htest (term raw : String) (_ : Plain term) :
          ks.lexiconFrom lead <+: ks.lexicon term raw ↔
            lead.toList.isPrefixOf term.toList = true := by
        rw [ks.lexiconFrom_prefix_iff hlead, Text.toBytes_prefix_iff, List.isPrefixOf_iff_prefix]
      rw [turnsUp]
      exact (hl.hit_iff hp (fun k hk => ks.kind?_of_lexiconFrom hk) htest d).symm
  | .all children, hq => by
      rw [turnsUp, Documents.finds_all]
      refine and_congr_right fun _ => ?_
      rw [turnsUpForAll_iff]
      exact forall₂_congr (Posted.turnsUpFor_iff hl hp d children hq)
  | .any children, hq => by
      rw [turnsUp, Documents.finds_any, turnsUpForAny_iff]
      exact exists_congr fun q => and_congr_right fun hmem =>
        Posted.turnsUpFor_iff hl hp d children hq q hmem

/-- So it is for each of several. -/
theorem Posted.turnsUpFor_iff (hl : ks.Lexed m) (hp : ks.Posted m docs) (d : DocKey) :
    ∀ qs : List Query, Query.AllClean qs → ∀ q ∈ qs, (ks.turnsUp m q d ↔ docs.finds q d)
  | [], _ => fun q hq => absurd hq List.not_mem_nil
  | q :: qs, hqs => fun q' hq' => by
      rcases List.mem_cons.mp hq' with heq | hq'
      · rw [heq]
        exact Posted.turnsUp_iff hl hp d q hqs.head
      · exact Posted.turnsUpFor_iff hl hp d qs hqs.tail q' hq'

end

end IndexKeys

/-- A search of a query on what is read from, with the keys, finds what the
query finds of the documents: results that can be gone through, and are the
documents in strict order, each once. The names of the first of them can be
asked for. -/
def Documents.Found (docs : Documents) (ks : IndexKeys) (mem : Memory) (r : ReadView)
    (q : Query) : Prop :=
  ∃ (x : Results) (ds : List DocKey), ks.search mem r q = .ok x ∧
    ds.Pairwise (fun d e => d.before e = true) ∧
    (∀ d, d ∈ ds ↔
      ∃ f, docs d.docId = some f ∧ f.sortKey = d.sortKey ∧ q.finds f.terms = true) ∧
    (∀ limit, ∃ hits, x.take mem r limit = .ok hits ∧ hits.map Prod.fst = ds.take limit) ∧
    ∀ limit, ks.searchDocIds mem r q limit = .ok ((ds.take limit).map DocKey.docId)

/-- What is read from an index that holds the documents is what a query
finds. -/
theorem IndexKeys.found {ks : IndexKeys} {m : KeyMap Bytes} {mem : Memory} {r : ReadView}
    {docs : Documents} (hl : ks.Lexed m) (hp : ks.Posted m docs) (hr : r.Reads mem m) {q : Query}
    (hq : q.Clean) : docs.Found ks mem r q := by
  obtain ⟨x, ds, hx, hsorted, hds, htake, hnames⟩ := yields_turnsUp hr q
  refine ⟨x, ds, hx, hsorted, fun d => ?_, htake, hnames⟩
  rw [hds, hp.turnsUp_iff hl d q hq]
  exact Documents.hit_iff

end OrderedStore
