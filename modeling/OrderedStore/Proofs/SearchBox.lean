/-
What a search box finds.

The terms of a text come word by word, each with the place of its word. To read
a query off a text is to gather the terms of one place, which gives the words
again (`byPosition_ofWords`, by the row of words): the forms of a word make a
choice, and the choices are asked together. So the query finds the documents
whose terms suit the text (`Query.Suits`, `finds_iff_suits`), and it asks for
no delimiter if no word of the text has one.

The documents are told of by the terms of texts, too, and their words may have
delimiters all the same. What is filed then are the terms that their keys are
read as; nothing that is asked for meets those, so what is found is as if the
documents had been filed as they were told (`suits_asRead`, `yields_suiting`).
-/
import Mathlib
import OrderedStore.Proofs.IndexRuns

namespace OrderedStore

-- ================================================================= places

namespace Query

open Term

/-- One more term in front of terms that are gathered by their places. -/
def joinPlace (t : Term) (groups : List (Nat × List Term)) : List (Nat × List Term) :=
  match groups with
  | (position, ts) :: rest =>
    if position = t.position then (position, t :: ts) :: rest
    else (t.position, [t]) :: groups
  | [] => [(t.position, [t])]

/-- Terms are gathered one by one, from the last on. -/
theorem byPosition_eq_foldr (terms : List Term) : byPosition terms = terms.foldr joinPlace [] :=
  rfl

/-- A term of another place than the first begins a group. -/
theorem joinPlace_of_ne {t : Term} {groups : List (Nat × List Term)}
    (h : ∀ g ∈ groups.head?, g.1 ≠ t.position) :
    joinPlace t groups = (t.position, [t]) :: groups := by
  cases groups with
  | nil => rfl
  | cons g groups => exact if_neg (h g rfl)

/-- A term of the first place joins its group. -/
theorem joinPlace_cons (t : Term) (ts : List Term) (groups : List (Nat × List Term)) :
    joinPlace t ((t.position, ts) :: groups) = (t.position, t :: ts) :: groups :=
  if_pos rfl

/-- Terms of one place, in front of those of another, make a group. -/
theorem foldr_joinPlace {place : Nat} {ts : List Term} (hne : ts ≠ [])
    (hts : ∀ t ∈ ts, t.position = place) {groups : List (Nat × List Term)}
    (hgroups : ∀ g ∈ groups.head?, g.1 ≠ place) :
    ts.foldr joinPlace groups = (place, ts) :: groups := by
  induction ts with
  | nil => exact absurd rfl hne
  | cons t ts ih =>
      obtain ⟨rfl, hrest⟩ := List.forall_mem_cons.mp hts
      rw [List.foldr_cons]
      cases ts with
      | nil => exact joinPlace_of_ne hgroups
      | cons u us => rw [ih (List.cons_ne_nil u us) hrest, joinPlace_cons]

/-- A word has a term. -/
theorem ofWord_ne_nil (place : Nat) (word : List Char) : ofWord place word ≠ [] :=
  List.ne_nil_of_mem (List.mem_map_of_mem (self_mem_forms (Text.lower word)))

/-- Its terms have its place. -/
theorem position_of_mem_ofWord {place : Nat} {word : List Char} {t : Term}
    (ht : t ∈ ofWord place word) : t.position = place % UInt32.size := by
  obtain ⟨form, -, rfl⟩ := List.mem_map.mp ht
  rfl

/-- The terms of words, gathered by their places, are those of each word. -/
theorem byPosition_ofWords (place : Nat) (ws : List (List Char)) :
    byPosition (ofWords place ws)
      = (ws.zipIdx place).map fun p => (p.2 % UInt32.size, ofWord p.2 p.1) := by
  induction ws generalizing place with
  | nil => rfl
  | cons w ws ih =>
      rw [ofWords, byPosition_eq_foldr, List.foldr_append, ← byPosition_eq_foldr, ih,
        List.zipIdx_cons, List.map_cons]
      refine foldr_joinPlace (ofWord_ne_nil place w) (fun t => position_of_mem_ofWord) ?_
      -- the next word has the next place, also where places begin anew
      intro g hg
      cases ws with
      | nil => cases hg
      | cons w' ws =>
          cases hg
          simp only [UInt32.size]
          omega

-- ================================================================ reading

/-- What is asked for a term: one that begins with it if it is of the last
place and no white space ends the text, and the very term otherwise. -/
def leaf (text : String) (last t : Term) : Query :=
  if !Text.endsInWhitespace text && t.position = last.position then .beginning t.index
  else .term t.index

/-- The query that is read off a text: the forms of each word are a choice, and
the choices are asked together. -/
theorem ofText?_eq (text : String) :
    ofText? text = (ofText text).getLast?.map fun last =>
      together ((Text.words text.toList).zipIdx.map fun p =>
        choice ((ofWord p.2 p.1).map (leaf text last))) := by
  unfold ofText?
  dsimp only
  cases (ofText text).getLast? with
  | none => rfl
  | some last =>
      dsimp only
      rw [ofText, byPosition_ofWords, List.map_map]
      rfl

/-- Without words there are no terms, and only then. -/
theorem ofText_eq_nil_iff (text : String) : ofText text = [] ↔ Text.words text.toList = [] := by
  unfold ofText
  cases Text.words text.toList with
  | nil => exact iff_of_true rfl rfl
  | cons w ws =>
      refine iff_of_false ?_ (List.cons_ne_nil w ws)
      exact List.append_ne_nil_of_left_ne_nil (ofWord_ne_nil 0 w) _

/-- Just without words nothing is asked. -/
theorem ofText?_eq_none_iff (text : String) :
    ofText? text = none ↔ Text.words text.toList = [] := by
  rw [ofText?_eq, Option.map_eq_none_iff, List.getLast?_eq_none_iff, ofText_eq_nil_iff]

variable {text : String} {terms : List Term} {q : Query} {qs : List Query}

/-- A choice finds what one of its queries finds. -/
theorem finds_choice : (choice qs).finds terms = true ↔ ∃ q ∈ qs, q.finds terms = true := by
  unfold choice
  split
  · simp
  · rw [finds, findsAny_iff]

/-- Queries that are asked together find what each of them finds. -/
theorem finds_together (hne : qs ≠ []) :
    (together qs).finds terms = true ↔ ∀ q ∈ qs, q.finds terms = true := by
  unfold together
  split
  · simp
  · simp [finds, findsAll_iff, hne]

-- ================================================================ meaning

/-- The term is of the last place of the text, and no white space ends the
text. -/
def Unfinished (text : String) (t : Term) : Prop :=
  Text.endsInWhitespace text = false ∧
    ∃ last, (ofText text).getLast? = some last ∧ t.position = last.position

/-- Terms suit a text: for each word, one of its forms is among them; where the
word is the last one and no white space ends the text, a form that one of them
begins with is enough. -/
def Suits (text : String) (terms : List Term) : Prop :=
  ∀ p ∈ (Text.words text.toList).zipIdx, ∃ t ∈ ofWord p.2 p.1, ∃ u ∈ terms,
    t.index = u.index ∨ (Unfinished text t ∧ t.index.toList <+: u.index.toList)

/-- What is asked for a term. -/
theorem finds_leaf {last : Term} (hlast : (ofText text).getLast? = some last) (t : Term) :
    (leaf text last t).finds terms = true ↔ ∃ u ∈ terms,
      t.index = u.index ∨ (Unfinished text t ∧ t.index.toList <+: u.index.toList) := by
  have hend : Unfinished text t ↔
      (!Text.endsInWhitespace text && t.position = last.position) = true := by
    unfold Unfinished
    simp [hlast]
  unfold leaf
  split
  · next h =>
      simp only [finds, List.any_eq_true, List.isPrefixOf_iff_prefix]
      refine exists_congr fun u => and_congr_right fun _ => ?_
      refine ⟨fun hpre => Or.inr ⟨hend.mpr h, hpre⟩, ?_⟩
      rintro (heq | ⟨-, hpre⟩)
      · rw [heq]
      · exact hpre
  · next h =>
      simp only [finds, List.any_eq_true, beq_iff_eq]
      refine exists_congr fun u => and_congr_right fun _ => ?_
      refine ⟨fun heq => Or.inl heq.symm, ?_⟩
      rintro (heq | ⟨hunfinished, -⟩)
      · exact heq.symm
      · exact absurd (hend.mp hunfinished) h

/-- The query that is read off a text finds the terms that suit the text. -/
theorem finds_iff_suits (hq : ofText? text = some q) (terms : List Term) :
    q.finds terms = true ↔ Suits text terms := by
  have hne : Text.words text.toList ≠ [] := fun hnil => by
    rw [(ofText?_eq_none_iff text).mpr hnil] at hq
    cases hq
  rw [ofText?_eq] at hq
  obtain ⟨last, hlast, rfl⟩ := Option.map_eq_some_iff.mp hq
  rw [finds_together (by simpa using hne), List.forall_mem_map]
  unfold Suits
  refine forall₂_congr fun p _ => ?_
  rw [finds_choice]
  simp only [List.mem_map, exists_exists_and_eq_and, finds_leaf hlast]

/-- The terms of a text suit it. -/
theorem suits_self (text : String) : Suits text (ofText text) := by
  intro p hp
  obtain ⟨t, ht⟩ := List.exists_mem_of_ne_nil _ (ofWord_ne_nil p.2 p.1)
  exact ⟨t, ht, t, mem_ofWords_iff.mpr ⟨p, hp, ht⟩, Or.inl rfl⟩

-- ============================================================== delimiters

/-- The strings of several queries are those of each. -/
theorem mem_stringsOfAll {s : String} : s ∈ stringsOfAll qs ↔ ∃ q ∈ qs, s ∈ q.strings := by
  induction qs with
  | nil => simp [stringsOfAll]
  | cons q qs ih => simp [stringsOfAll, ih]

theorem strings_choice (qs : List Query) : (choice qs).strings = stringsOfAll qs := by
  unfold choice
  split
  · simp [stringsOfAll]
  · rw [strings]

theorem strings_together (qs : List Query) : (together qs).strings = stringsOfAll qs := by
  unfold together
  split
  · simp [stringsOfAll]
  · rw [strings]

theorem strings_leaf (text : String) (last t : Term) : (leaf text last t).strings = [t.index] := by
  unfold leaf
  split <;> rw [strings]

/-- If no word of the text has a delimiter, nothing that is asked for has one. -/
theorem clean_ofText? (hq : ofText? text = some q)
    (hwords : ∀ w ∈ Text.words text.toList, delimiter ∉ w) : q.Clean := by
  rw [ofText?_eq] at hq
  obtain ⟨last, -, rfl⟩ := Option.map_eq_some_iff.mp hq
  intro s hs
  rw [strings_together, mem_stringsOfAll] at hs
  obtain ⟨q, hq, hs⟩ := hs
  obtain ⟨p, hp, rfl⟩ := List.mem_map.mp hq
  rw [strings_choice, mem_stringsOfAll] at hs
  obtain ⟨q, hq, hs⟩ := hs
  obtain ⟨t, ht, rfl⟩ := List.mem_map.mp hq
  rw [strings_leaf, List.mem_singleton] at hs
  rw [hs]
  exact (clean_ofWord_iff.mpr (hwords p.1 (List.fst_mem_of_mem_zipIdx hp)) t ht).1

/-- The terms of a text suit another one without delimiters in its words if
they do as their keys are read. -/
theorem suits_asRead (hwords : ∀ w ∈ Text.words text.toList, delimiter ∉ w) (told : String) :
    Suits text ((ofText told).map asRead) ↔ Suits text (ofText told) := by
  unfold Suits
  refine forall₂_congr fun p hp => exists_congr fun t => and_congr_right fun ht => ?_
  have hclean := clean_ofWord_iff.mpr (hwords p.1 (List.fst_mem_of_mem_zipIdx hp)) t ht
  have hne : t.index ≠ "" := index_ne_empty (mem_ofWords_iff.mpr ⟨p, hp, ht⟩)
  simp only [List.mem_map, exists_exists_and_eq_and]
  refine exists_congr fun u => and_congr_right fun hu => ?_
  obtain ⟨hterm, hlead⟩ := asRead_meets hu hclean.1 hne
  rw [hterm, hlead]

end Query

-- =============================================================== documents

namespace Documents

open Query

variable {docs : Documents} {text : String} {q : Query}

/-- Each document was told of by the terms of a text. -/
def OfTexts (docs : Documents) : Prop :=
  ∀ docId f, docs docId = some f → ∃ told, f.terms = Term.ofText told

/-- The documents with the terms that the keys of their terms are read as. -/
def asRead (docs : Documents) : Documents :=
  fun docId => (docs docId).map fun f => ⟨f.sortKey, f.terms.map Term.asRead⟩

/-- The documents whose terms suit a text. -/
def suiting (docs : Documents) (text : String) : DocSet :=
  fun d => ∃ f, docs d.docId = some f ∧ f.sortKey = d.sortKey ∧ Suits text f.terms

/-- The query that is read off a text finds the documents whose terms suit the
text, though the keys of the terms may be read as those of others. -/
theorem finds_asRead_iff (hdocs : docs.OfTexts) (hq : ofText? text = some q)
    (hwords : ∀ w ∈ Text.words text.toList, Term.delimiter ∉ w) (d : DocKey) :
    docs.asRead.finds q d ↔ docs.suiting text d := by
  unfold finds suiting asRead
  rw [hit_iff]
  simp only [Option.map_eq_some_iff, finds_iff_suits hq]
  constructor
  · rintro ⟨-, ⟨f, hf, rfl⟩, hkey, hsuits⟩
    obtain ⟨told, hterms⟩ := hdocs _ f hf
    dsimp only at hsuits
    rw [hterms, suits_asRead hwords, ← hterms] at hsuits
    exact ⟨f, hf, hkey, hsuits⟩
  · rintro ⟨f, hf, hkey, hsuits⟩
    obtain ⟨told, hterms⟩ := hdocs _ f hf
    refine ⟨_, ⟨f, hf, rfl⟩, hkey, ?_⟩
    dsimp only
    rwa [hterms, suits_asRead hwords, ← hterms]

/-- A document that was told of by the terms of a text is among those that suit
the text. -/
theorem suiting_self {docId sortKey : String}
    (h : docs docId = some ⟨sortKey, Term.ofText text⟩) : docs.suiting text ⟨sortKey, docId⟩ :=
  ⟨_, h, rfl, suits_self text⟩

/-- One more document is told of by the terms of a text, or taken out. -/
theorem OfTexts.update (h : docs.OfTexts) {filing : Option Filing}
    (hfiling : ∀ f, filing = some f → ∃ told, f.terms = Term.ofText told) (docId : String) :
    OfTexts (Function.update docs docId filing) := by
  intro other f hf
  by_cases hsame : other = docId
  · rw [hsame, Function.update_self] at hf
    exact hfiling f hf
  · rw [Function.update_of_ne hsame] at hf
    exact h other f hf

/-- To tell of a document, and to tell of it with what its keys are read as. -/
theorem asRead_update (docs : Documents) (docId : String) (filing : Option Filing) :
    asRead (Function.update docs docId filing) = Function.update docs.asRead docId
      (filing.map fun f => ⟨f.sortKey, f.terms.map Term.asRead⟩) := by
  funext other
  unfold asRead
  by_cases hsame : other = docId
  · rw [hsame, Function.update_self, Function.update_self]
  · rw [Function.update_of_ne hsame, Function.update_of_ne hsame]

end Documents

-- ==================================================================== runs

namespace IndexRequest

/-- The request is one that may be made, but that a document is told of by the
terms of a text, whatever is in its words. -/
def OfText (ks : IndexKeys) : IndexRequest → Prop
  | update docId sortKey terms => (∃ text, terms = Term.ofText text) ∧
      Index.listingBound ks ⟨Index.cleanSortKey sortKey, docId⟩ terms.length < UInt64.size
  | r => r.Admissible ks

/-- As its keys are read, it may be made. -/
theorem OfText.admissible_asRead {ks : IndexKeys} {r : IndexRequest} (h : r.OfText ks) :
    r.asRead.Admissible ks := by
  cases r with
  | update docId sortKey terms =>
      refine ⟨fun t ht => ?_, ?_⟩
      · obtain ⟨u, -, rfl⟩ := List.mem_map.mp ht
        exact u.delimiter_not_mem_asRead
      · rw [List.length_map]
        exact h.2
  | _ => exact h

end IndexRequest

namespace Told

open IndexRequest

variable {ks : IndexKeys} {told : Told}

/-- What was told, with the terms that the keys of terms are read as. -/
def asRead (told : Told) : Told :=
  ⟨told.held.asRead, told.opened.map Documents.asRead⟩

theorem seen_asRead (told : Told) : told.asRead.seen = told.seen.asRead := by
  obtain ⟨held, opened⟩ := told
  cases opened <;> rfl

/-- To file a document, and to file what its keys are read as. -/
theorem asRead_file (told : Told) (docId : String) (filing : Option Filing) :
    (told.file docId filing).asRead = told.asRead.file docId
      (filing.map fun f => ⟨f.sortKey, f.terms.map Term.asRead⟩) := by
  obtain ⟨held, opened⟩ := told
  cases opened with
  | none => exact congrArg (Told.mk · none) (held.asRead_update docId filing)
  | some docs =>
      exact congrArg (fun docs => Told.mk held.asRead (some docs)) (docs.asRead_update docId filing)

/-- So it is whatever a request tells. -/
theorem asRead_tell (told : Told) (r : IndexRequest) :
    (told.tell r).asRead = told.asRead.tell r.asRead := by
  cases r with
  | update docId sortKey terms => exact told.asRead_file docId _
  | remove docId => exact told.asRead_file docId none
  | flushPending | commit => exact congrArg (Told.mk · _) told.seen_asRead.symm
  | abandon =>
      obtain ⟨held, opened⟩ := told
      cases opened <;> rfl
  | _ => rfl

/-- And whatever requests tell one after the other. -/
theorem asRead_tellAll (told : Told) (rs : List IndexRequest) :
    (told.tellAll rs).asRead = told.asRead.tellAll (rs.map IndexRequest.asRead) := by
  induction rs generalizing told with
  | nil => rfl
  | cons r rs ih => exact (ih (told.tell r)).trans (congrArg (tellAll · _) (told.asRead_tell r))

/-- All documents were told of by the terms of texts. -/
def OfTexts (told : Told) : Prop :=
  told.held.OfTexts ∧ told.seen.OfTexts

/-- They still are when one more is filed so, or is taken out. -/
theorem OfTexts.file (h : told.OfTexts) {filing : Option Filing}
    (hfiling : ∀ f, filing = some f → ∃ text, f.terms = Term.ofText text) (docId : String) :
    (told.file docId filing).OfTexts := by
  obtain ⟨held, opened⟩ := told
  cases opened with
  | none => exact ⟨h.1.update hfiling docId, h.1.update hfiling docId⟩
  | some docs => exact ⟨h.1, h.2.update hfiling docId⟩

/-- So they are whatever a request tells. -/
theorem OfTexts.tell (h : told.OfTexts) {r : IndexRequest} (hr : r.OfText ks) :
    (told.tell r).OfTexts := by
  cases r with
  | update docId sortKey terms =>
      refine h.file (fun f hf => ?_) docId
      cases hf
      exact hr.1
  | remove docId => exact h.file (fun f hf => by cases hf) docId
  | flushPending | commit =>
      refine ⟨h.2, ?_⟩
      obtain ⟨held, opened⟩ := told
      cases opened <;> exact h.2
  | abandon => exact ⟨h.1, told.seen_reset ▸ h.1⟩
  | begin | leave => exact ⟨h.1, h.1⟩
  | _ => exact h

/-- And whatever requests tell one after the other. -/
theorem OfTexts.tellAll (h : told.OfTexts) {rs : List IndexRequest}
    (hrs : ∀ r ∈ rs, r.OfText ks) : (told.tellAll rs).OfTexts := by
  induction rs generalizing told with
  | nil => exact h
  | cons r rs ih =>
      exact ih (h.tell (hrs r List.mem_cons_self)) fun u hu => hrs u (List.mem_cons_of_mem r hu)

/-- When nothing was told, there is nothing to tell of. -/
theorem ofTexts_empty : empty.OfTexts := by
  have hnone : Documents.OfTexts fun _ => none := fun docId f hf => by cases hf
  exact ⟨hnone, hnone⟩

end Told

namespace Index

open IndexKeys IndexRequest Store Engine

variable {ν : Type}

/-- The index after a run on a fresh store, and what was told of it: at a
moment on the way, as it is read at the end, and at the end. -/
theorem filed_of_runs {dir : Path} {v v' : Volume} {settings : Settings} {clock : UInt64}
    {e : Engine} (hv : Vacant v dir) (hopen : openAt settings dir clock v = .ok e v')
    {name : String} {indexSettings : IndexSettings} {stamp : UInt64} {x : Index}
    (hx : openNamed name indexSettings stamp = .ok x) {before later : List IndexRequest}
    (hrs : ∀ r ∈ before ++ later, r.asRead.Admissible x.keys) {i j : Indexing ν} {s s' : Store}
    (hbefore : runAll name before ⟨x, .database⟩ (opened v' e) = .ok i s)
    (hlater : runAll name later i s = .ok j s') (hroom : s'.written < UInt64.size) :
    ∃ ops ops',
      Filed x.keys i.index.cache (Told.empty.tellAll (before.map asRead)) ops i.target ∧
      Filed x.keys j.index.cache (Told.empty.tellAll ((before ++ later).map asRead)) ops'
        j.target ∧
      s.engine.view.Reads s'.toMemory (contents ops) ∧
      s'.engine.view.Reads s'.toMemory (contents ops') := by
  obtain ⟨hkeys, hcache⟩ := of_openNamed hx
  rw [hkeys] at hrs ⊢
  obtain ⟨e₁, v₁, ids, hopen₁, hsound⟩ := hv.openAt_ok settings clock
  rw [hopen] at hopen₁
  cases hopen₁
  have hready : Ready name (⟨x, .database⟩ : Indexing ν) := ⟨hkeys, trivial⟩
  have hfresh : Holds (IndexKeys.ofName name) Told.empty (⟨x, .database⟩ : Indexing ν) [] := by
    show Filed _ x.cache _ _ _
    rw [hcache]
    exact filed_empty _ _
  obtain ⟨-, hlead⟩ := leads_runAll_asRead hready
    (fun r hr => hrs r (List.mem_append_left _ hr)) _ _ _ hbefore
  obtain ⟨hle, hlead'⟩ := leads_runAll_asRead (returns_runAll hready before _ _ _ hbefore)
    (fun r hr => hrs r (List.mem_append_right _ hr)) _ _ _ hlater
  obtain ⟨ops, hs, -, hholds⟩ := hlead hsound.measured (by omega) hfresh
  obtain ⟨ops', hs', hkeeps, hholds'⟩ := hlead' hs (by omega) hholds
  obtain ⟨ids₁, hsound₁⟩ := hs.sound
  obtain ⟨ids₂, hsound₂⟩ := hs'.sound
  have hall : Told.empty.tellAll ((before ++ later).map asRead)
      = (Told.empty.tellAll (before.map asRead)).tellAll (later.map asRead) := by
    rw [List.map_append]
    exact List.foldl_append
  rw [hall]
  exact ⟨ops, ops', hholds, hholds', (hkeeps _ _ hsound₁.pins).reads hsound₂ fun k =>
    (find?_contents ops k).symm, hs'.reads⟩

/-- A search of what is read from an index that holds documents as their keys
are read yields those that suit the text. -/
theorem yields_suiting {ks : IndexKeys} {m : KeyMap Bytes} {mem : Memory} {r : ReadView}
    {docs : Documents} (hl : ks.Lexed m) (hp : ks.Posted m docs.asRead) (hr : r.Reads mem m)
    (hdocs : docs.OfTexts) {text : String} {q : Query} (hq : Query.ofText? text = some q)
    (hwords : ∀ w ∈ Text.words text.toList, Term.delimiter ∉ w) :
    ks.Yields mem r q (docs.suiting text) := by
  have hsame : ks.turnsUp m q = docs.suiting text := by
    funext d
    exact propext ((hp.turnsUp_iff hl d q (Query.clean_ofText? hq hwords)).trans
      (Documents.finds_asRead_iff hdocs hq hwords d))
  rw [← hsame]
  exact yields_turnsUp hr q

/-- What a search box finds. On a store that was opened in a vacant directory,
an index is told of documents by the terms of texts, and worked with otherwise
by any requests that may be made. Then nothing is asked by a text just if it has
no words, and if none of its words has a tab, a search of what is asked yields
the documents, in strict order and each once, of which each word of the text has
a form that is a term of theirs; where the word is the last one and no white
space ends the text, a form that a term of theirs begins with is enough. That
goes for the database, for a snapshot that was taken on the way, and for the
transaction that is open. The documents that were told of by the terms of that
very text are among them. The run is one that was not ended by a failure of the
store. -/
theorem box_finds_suiting {dir : Path} {v v' : Volume} {settings : Settings} {clock : UInt64}
    {e : Engine} (hv : Vacant v dir) (hopen : openAt settings dir clock v = .ok e v')
    {name : String} {indexSettings : IndexSettings} {stamp : UInt64} {x : Index}
    (hx : openNamed name indexSettings stamp = .ok x) {before later : List IndexRequest}
    (htexts : ∀ r ∈ before ++ later, r.OfText x.keys) {i j : Indexing ν} {s s' : Store}
    (hbefore : runAll name before ⟨x, .database⟩ (opened v' e) = .ok i s)
    (hlater : runAll name later i s = .ok j s') (hroom : s'.written < UInt64.size)
    (text : String) :
    (Query.ofText? text = none ↔ Text.words text.toList = []) ∧
      ∀ q, Query.ofText? text = some q → (∀ w ∈ Text.words text.toList, Term.delimiter ∉ w) →
        x.keys.Yields s'.toMemory (.pinned s.engine.view) q
          ((Told.empty.tellAll before).held.suiting text) ∧
        x.keys.Yields s'.toMemory (.pinned s'.engine.view) q
          ((Told.empty.tellAll (before ++ later)).held.suiting text) ∧
        (∀ t, j.target = .transaction t →
          x.keys.Yields s'.toMemory (.overlay t.pending s'.engine.view) q
            ((Told.empty.tellAll (before ++ later)).seen.suiting text)) ∧
        ∀ (docs : Documents) (docId sortKey : String),
          docs docId = some ⟨sortKey, Term.ofText text⟩ →
            docs.suiting text ⟨sortKey, docId⟩ := by
  refine ⟨Query.ofText?_eq_none_iff text, fun q hq hwords => ?_⟩
  obtain ⟨ops, ops', hfiled, hfiled', hsnapshot, hreads⟩ :=
    filed_of_runs hv hopen hx (fun r hr => (htexts r hr).admissible_asRead) hbefore hlater hroom
  have hfirst : (Told.empty.tellAll before).OfTexts :=
    Told.ofTexts_empty.tellAll fun r hr => htexts r (List.mem_append_left _ hr)
  have hlast : (Told.empty.tellAll (before ++ later)).OfTexts := Told.ofTexts_empty.tellAll htexts
  -- what was filed is what was told, as its keys are read
  have hempty : Told.empty = Told.empty.asRead := rfl
  rw [hempty, ← Told.asRead_tellAll] at hfiled hfiled'
  refine ⟨?_, ?_, fun t ht => ?_, fun docs docId sortKey => Documents.suiting_self⟩
  · exact yields_suiting hfiled.lexicon.lexed hfiled.held (ReadView.reads_pinned hsnapshot)
      hfirst.1 hq hwords
  · exact yields_suiting hfiled'.lexicon.lexed hfiled'.held (ReadView.reads_pinned hreads)
      hlast.1 hq hwords
  · rw [ht] at hfiled'
    have hseen := hfiled'.seen
    rw [Told.seen_asRead] at hseen
    refine yields_suiting (hfiled'.lexicon.lexed.congr fun k hk => ?_) hseen
      (ReadView.reads_overlay hreads t.pending) hlast.2 hq hwords
    exact hfiled'.apart.seen hk

/-- One document is told of by a text, and in a transaction it is taken out and
another one is told of. -/
def textRequests : List IndexRequest :=
  [.update "a" "1" (Term.ofText "can't stop"), .sweep, .begin, .remove "a",
    .update "b" "0" (Term.ofText "Stop. Cant!")]

/-- They may be asked. -/
theorem ofText_textRequests : ∀ r ∈ textRequests, r.OfText (IndexKeys.ofName "n") := by
  simp only [textRequests, List.forall_mem_cons]
  refine ⟨⟨⟨_, rfl⟩, by decide +kernel⟩, trivial, trivial, trivial,
    ⟨⟨_, rfl⟩, by decide +kernel⟩, ?_⟩
  exact fun r hr => absurd hr List.not_mem_nil

/-- Between the first two and the last three of them a search box finds the one
document, and afterwards the other in the transaction. -/
theorem box_finds_suiting_textRequests :
    ∃ (e : Engine) (v : Volume) (i j : Indexing Unit) (s s' : Store) (t : Transaction Unit)
        (q : Query),
      openAt Settings.standard ["db"] 0 Volume.empty = .ok e v ∧
        runAll "n" (textRequests.take 2) ⟨sampleIndex, .database⟩ (opened v e) = .ok i s ∧
        runAll "n" (textRequests.drop 2) i s = .ok j s' ∧ j.target = .transaction t ∧
        Query.ofText? "CANT st" = some q ∧
        sampleIndex.keys.Yields s'.toMemory (.pinned s.engine.view) q
          ((Told.empty.tellAll (textRequests.take 2)).held.suiting "CANT st") ∧
        sampleIndex.keys.Yields s'.toMemory (.overlay t.pending s'.engine.view) q
          ((Told.empty.tellAll textRequests).seen.suiting "CANT st") := by
  have hruns : ends (openAt Settings.standard ["db"] 0) Volume.empty (fun e v =>
      ends (runAll "n" (textRequests.take 2) (⟨sampleIndex, .database⟩ : Indexing Unit))
        (opened v e) fun i s => ends (runAll "n" (textRequests.drop 2) i) s fun j s' =>
          decide (s'.written < UInt64.size) && j.target.isOpen) = true := by
    decide +kernel
  obtain ⟨e, v, hopen, hruns⟩ := of_ends hruns
  obtain ⟨i, s, hbefore, hruns⟩ := of_ends hruns
  obtain ⟨j, s', hlater, hend⟩ := of_ends hruns
  obtain ⟨hroom, htarget⟩ := Bool.and_eq_true_iff.mp hend
  have hasked : (Query.ofText? "CANT st").isSome = true := by decide +kernel
  obtain ⟨q, hq⟩ := Option.isSome_iff_exists.mp hasked
  have hx : openNamed "n" IndexSettings.standard 1 = .ok sampleIndex := rfl
  have hfinds := (box_finds_suiting (vacant_empty ["db"]) hopen hx ofText_textRequests hbefore
    hlater (of_decide_eq_true hroom) "CANT st").2 q hq (by decide +kernel)
  cases hj : j.target with
  | database =>
      rw [hj] at htarget
      cases htarget
  | transaction t =>
      exact ⟨e, v, i, j, s, s', t, q, hopen, hbefore, hlater, hj, hq, hfinds.1,
        hfinds.2.2.1 t hj⟩

end Index

end OrderedStore
