/-
The terms that are highlighted.

With each document that a search finds come the terms to show for it. They are
said from the query, the lexicon, and the postings (`IndexKeys.shown`): a term,
or a beginning of one, shows every lexicon entry that it matches and under whose
token the document has a posting; `any` shows what some of its queries show; and
so does `all`, for the documents that turn up for each of them. So something is
shown for a document just if it turns up (`exists_shown_iff`).

This is what the results of the search have to show (`search_shows`, by the
tree; rows that a search drops have nothing to show). Moves leave it as it is
for whatever is still ahead (`Results.Ahead.after_shows`), so however someone
came to stand on a document, its terms are these.
-/
import Mathlib
import OrderedStore.Proofs.ResultWalks
import OrderedStore.Proofs.Showing

namespace OrderedStore

namespace Results

open List (Forall₂)

variable {mem : Memory} {mems : Memory → Prop} {m : KeyMap Bytes} {r : ReadView}
  {U : List DocKey} {P : DocSet} {x : Results} {xs : List Results} {d : DocKey} {s : String}

-- =================================================================== walks

/-- After several moves results show what they had to show, for whatever is
ahead then. -/
theorem Ahead.after_shows (hU : Universe U) (hlength : U.length ≤ m.size) (hr : r.ReadsAt mems m)
    (hmem : mems mem) (h : x.Ahead mem m r U P) {mvs : List (Memory × Move)}
    (hmvs : ∀ p ∈ mvs, mems p.1) :
    ∃ y Q, x.after r mvs = .ok y ∧ y.Ahead mem m r U Q ∧ ∀ d, Q d → ShowsSame m d x y := by
  induction mvs generalizing mem x P with
  | nil => exact ⟨x, P, rfl, h, fun _ _ _ => Iff.rfl⟩
  | cons p mvs ih =>
      obtain ⟨hp, hmvs⟩ := List.forall_mem_cons.mp hmvs
      have h := h.later hr hmem hp
      have henough := need_rows_le_budget (le_trans hlength (hr.reads hp).size) x
      obtain ⟨x', hmove, hahead, -⟩ := moves hU x.rows x P (Nat.le_refl _) h p.2
      have hmove := hmove _ henough
      obtain ⟨y, Q, hafter, hahead', hsame⟩ := ih hp hahead hmvs
      refine ⟨y, Q, ?_, hahead'.later hr hp hmem, fun d hd s => (hsame d hd s).trans ?_⟩
      · unfold after at hafter ⊢
        rw [List.foldlM_cons, moved_eq, hmove]
        exact hafter
      · -- what is ahead in the end is shown, so it was ahead after the first move
        obtain ⟨t, ht⟩ := (hahead'.shows hU d).mp hd
        have hrest := (hahead.shows hU d).mpr ⟨t, (hsame d hd t).mp ht⟩
        have hspared := ((p.2.rest_iff x.position P d).mp hrest).2
        exact movesShow hU x.rows (Nat.le_refl _) h henough hmove hspared s

/-- Rows that are made one by one show together what each is to show. -/
theorem someShows_of_forall₂ {α : Type} {as : List α} {p : α → Prop}
    (h : Forall₂ (fun a x => x.Shows m d s ↔ p a) as xs) :
    SomeShows m xs d s ↔ ∃ a ∈ as, p a := by
  induction h with
  | nil => simp [SomeShows]
  | cons ha _ ih => rw [SomeShows, ha, ih, List.exists_mem_cons_iff]

-- ============================================================== highlights

/-- Dropping what is there already leaves a sorted list strictly sorted. -/
theorem pairwise_eraseDups {α : Type} [LinearOrder α] {l : List α} (h : l.Pairwise (· ≤ ·)) :
    l.eraseDups.Pairwise (· < ·) := by
  generalize hn : l.length = n
  induction n using Nat.strong_induction_on generalizing l with
  | _ n ih =>
      cases l with
      | nil => exact List.Pairwise.nil
      | cons a l =>
          obtain ⟨hle, hrest⟩ := List.pairwise_cons.mp h
          rw [List.eraseDups_cons]
          refine List.pairwise_cons.mpr ⟨fun b hb => ?_, ?_⟩
          · obtain ⟨hmem, hne⟩ := List.mem_filter.mp (List.mem_eraseDups.mp hb)
            exact lt_of_le_of_ne (hle b hmem) fun heq => by simp [heq] at hne
          · have hlength := List.length_filter_le (fun b => !b == a) l
            rw [List.length_cons] at hn
            exact ih _ (by omega) (hrest.filter _) rfl

/-- The terms to show are those that are gathered. -/
theorem mem_highlights : s ∈ x.highlights ↔ s ∈ x.rawTerms := by
  unfold highlights
  rw [List.mem_eraseDups, List.mem_mergeSort]

/-- They are in order, each once. -/
theorem pairwise_highlights (x : Results) : x.highlights.Pairwise (· < ·) :=
  pairwise_eraseDups (List.pairwise_mergeSort' (· ≤ ·) x.rawTerms)

end Results

-- =============================================================== the query

namespace IndexKeys

open Results

variable {ks : IndexKeys} {m : KeyMap Bytes} {mem : Memory} {mems : Memory → Prop}
  {r : ReadView} {U : List DocKey} {x : Results} {xs : List Results} {Ps : List DocSet}
  {d : DocKey} {s : String}

/-- The term is shown for the document by a lexicon entry whose key begins with
`lead`: the entry can be read, it is shown by that, and the document has a
posting under its token. -/
def shownUnder (ks : IndexKeys) (m : KeyMap Bytes) (lead : Bytes) (d : DocKey) (s : String) :
    Prop :=
  ∃ l term raw e, lead <+: l ∧ ks.parseLexicon? l = some (term, raw) ∧ entryAt m l = some e ∧
    s = display term raw ∧ (m.find? (ks.posting e.token d)).isSome = true

mutual

/-- The query shows the term for the document. -/
def shown (ks : IndexKeys) (m : KeyMap Bytes) : Query → DocKey → String → Prop
  | .term t, d, s => ks.shownUnder m (ks.lexiconOf t) d s
  | .beginning lead, d, s => ks.shownUnder m (ks.lexiconFrom lead) d s
  | .all children, d, s => ks.turnsUpForAll m children d ∧ shownBySome ks m children d s
  | .any children, d, s => shownBySome ks m children d s

/-- Some of the queries show it. -/
def shownBySome (ks : IndexKeys) (m : KeyMap Bytes) : List Query → DocKey → String → Prop
  | [], _, _ => False
  | q :: qs, d, s => shown ks m q d s ∨ shownBySome ks m qs d s

end

/-- In terms of the entries that a search reads. -/
theorem shownUnder_iff {lead : Bytes} (hd : d.Parsable) :
    ks.shownUnder m lead d s ↔
      ∃ e ∈ ks.readableEntries (m.entries.filter fun q => lead.isPrefixOf q.1),
        s = e.1 ∧ ks.under m e d := by
  constructor
  · rintro ⟨l, term, raw, e, hlead, hparse, hentry, rfl, hposted⟩
    exact ⟨(display term raw, e),
      mem_readableEntries.mpr ⟨l, term, raw, hlead, hparse, rfl, hentry⟩,
      rfl, mem_postedDocs hd hposted, hposted⟩
  · rintro ⟨⟨shown, e⟩, hmem, rfl, -, hposted⟩
    obtain ⟨l, term, raw, hlead, hparse, rfl, hentry⟩ := mem_readableEntries.mp hmem
    exact ⟨l, term, raw, e, hlead, hparse, hentry, rfl, hposted⟩

/-- An entry that shows something has a posting for it, and the other way
round. -/
theorem exists_shownUnder_iff {lead : Bytes} (hd : d.Parsable) :
    (∃ s, ks.shownUnder m lead d s) ↔ ks.underLead m lead d := by
  simp only [shownUnder_iff hd]
  constructor
  · rintro ⟨s, e, he, -, hunder⟩
    exact ⟨e, he, hunder⟩
  · rintro ⟨e, he, hunder⟩
    exact ⟨e.1, e, he, rfl, hunder⟩

mutual

/-- Something is shown for a document just if it turns up. -/
theorem exists_shown_iff (hd : d.Parsable) :
    ∀ q : Query, (∃ s, ks.shown m q d s) ↔ ks.turnsUp m q d
  | .term t => by
      simp only [shown, turnsUp]
      exact exists_shownUnder_iff hd
  | .beginning lead => by
      simp only [shown, turnsUp]
      exact exists_shownUnder_iff hd
  | .all children => by
      simp only [shown, turnsUp, exists_and_left, exists_shownBySome_iff hd children,
        turnsUpForAny_iff, turnsUpForAll_iff]
      constructor
      · rintro ⟨hall, q, hq, -⟩
        exact ⟨List.ne_nil_of_mem hq, hall⟩
      · rintro ⟨hne, hall⟩
        obtain ⟨q, hq⟩ := List.exists_mem_of_ne_nil children hne
        exact ⟨hall, q, hq, hall q hq⟩
  | .any children => by
      simp only [shown, turnsUp]
      exact exists_shownBySome_iff hd children

/-- So it is for several queries. -/
theorem exists_shownBySome_iff (hd : d.Parsable) :
    ∀ qs : List Query, (∃ s, ks.shownBySome m qs d s) ↔ ks.turnsUpForAny m qs d
  | [] => by simp only [shownBySome, turnsUpForAny, exists_false]
  | q :: qs => by
      simp only [shownBySome, turnsUpForAny, exists_or, exists_shown_iff hd q,
        exists_shownBySome_iff hd qs]

end

/-- A union shows what some of its rows show, those at their end left out. -/
theorem union_shows (hU : Universe U) (h : AheadEach mem m r U xs Ps) :
    (union (xs.filter isValid)).Shows m d s ↔ SomeShows m xs d s := by
  obtain ⟨Qs, hQs, -⟩ := aheadEach_filter h
  rw [← someShows_filter hU h]
  match xs.filter isValid, Qs, hQs with
  | [], [], _ => exact Iff.rfl
  | [y], _, _ => exact (or_iff_left id).symm
  | y :: z :: ys, _ :: _, hQs => exact ofAny_shows hU hQs

/-- Looking up what begins like a string shows the entries that do. -/
theorem searchLexicon_shows (hr : r.Reads mem m) (hd : d.Parsable) {lead : Bytes}
    (hx : ks.searchLexicon mem r lead = .ok x) :
    x.Shows m d s ↔ ks.shownUnder m lead d s := by
  have hU := ks.universe_postedDocs m
  obtain ⟨xs, hmap, haheads⟩ :=
    rows_ok hr ks (ks.readableEntries (m.entries.filter fun q => lead.isPrefixOf q.1))
  unfold searchLexicon at hx
  rw [hr.scan_eq, ok_bind, hmap, ok_bind] at hx
  cases hx
  rw [union_shows hU haheads, shownUnder_iff hd]
  refine someShows_of_forall₂ (forall₂_of_mapM (fun e _ x hx => ?_) hmap)
  obtain ⟨p, hstart, hahead⟩ := start_under_ok hr ks e
  rw [hstart] at hx
  cases hx
  rw [Shows, hahead.shows_iff hU, (Postings.start_keeps hstart).2]

mutual

/-- The results of a search have to show what the query shows. -/
theorem search_shows (hr : r.Reads mem m) (hsize : (ks.postedDocs m).length ≤ r.extent mem)
    (hd : d.Parsable) :
    ∀ {q : Query} {x : Results}, ks.search mem r q = .ok x → (x.Shows m d s ↔ ks.shown m q d s)
  | .term t, x, hx => by
      rw [search] at hx
      rw [shown, searchLexicon_shows hr hd hx]
  | .beginning lead, x, hx => by
      rw [search] at hx
      rw [shown, searchLexicon_shows hr hd hx]
  | .all children, x, hx => by
      have hU := ks.universe_postedDocs m
      obtain ⟨found, hfound, hnone, hsome⟩ := searchAll_ok hr hsize children
      rw [search, hfound, ok_bind] at hx
      rw [shown, turnsUpForAll_iff]
      match found with
      | none =>
          cases hx
          exact iff_of_false id fun hs => hnone rfl d hs.1
      | some xs =>
          have haheads := hsome xs rfl
          have hshown := searchAll_shows hr hsize hd hfound
          have hall := (haheads.shows hU d).1
          rw [List.forall_mem_map] at hall
          rw [hall, ← hshown]
          match xs with
          | [] =>
              cases hx
              exact iff_of_false id fun hs => hs.2
          | [y] =>
              cases hx
              rw [EachShows, SomeShows, SomeShows, EachShows, or_false, and_true]
              exact (and_iff_right_of_imp fun hs => ⟨s, hs⟩).symm
          | y :: z :: ys => exact ofAll_shows hU hsize haheads hx
  | .any children, x, hx => by
      have hU := ks.universe_postedDocs m
      obtain ⟨xs, hxs, haheads⟩ := searchEach_ok hr hsize children
      rw [search, hxs, ok_bind] at hx
      cases hx
      rw [union_shows hU haheads, shown, searchEach_shows hr hsize hd hxs]

/-- So do those of several queries, if each finds something. -/
theorem searchAll_shows (hr : r.Reads mem m) (hsize : (ks.postedDocs m).length ≤ r.extent mem)
    (hd : d.Parsable) :
    ∀ {qs : List Query} {xs : List Results}, searchAll ks mem r qs = .ok (some xs) →
      (SomeShows m xs d s ↔ ks.shownBySome m qs d s)
  | [], xs, hxs => by
      rw [searchAll] at hxs
      cases hxs
      exact Iff.rfl
  | q :: qs, xs, hxs => by
      rw [searchAll] at hxs
      obtain ⟨x, hx, hxs⟩ := of_ok_bind hxs
      split at hxs
      · obtain ⟨found, hfound, hxs⟩ := of_ok_bind hxs
        match found with
        | none => cases hxs
        | some ys =>
            cases hxs
            rw [SomeShows, shownBySome, search_shows hr hsize hd hx,
              searchAll_shows hr hsize hd hfound]
      · cases hxs

/-- And if some of them do. -/
theorem searchEach_shows (hr : r.Reads mem m) (hsize : (ks.postedDocs m).length ≤ r.extent mem)
    (hd : d.Parsable) :
    ∀ {qs : List Query} {xs : List Results}, searchEach ks mem r qs = .ok xs →
      (SomeShows m xs d s ↔ ks.shownBySome m qs d s)
  | [], xs, hxs => by
      rw [searchEach] at hxs
      cases hxs
      exact Iff.rfl
  | q :: qs, xs, hxs => by
      rw [searchEach] at hxs
      obtain ⟨x, hx, hxs⟩ := of_ok_bind hxs
      obtain ⟨ys, hys, hxs⟩ := of_ok_bind hxs
      cases hxs
      rw [SomeShows, shownBySome, search_shows hr hsize hd hx, searchEach_shows hr hsize hd hys]

end

-- ============================================================ what is shown

/-- Whoever searches at any of the moments, and moves over the results at
whichever of them, is shown the terms of a relation for each document they come to
stand on: in order, each once, and no others. -/
def Highlights (ks : IndexKeys) (mems : Memory → Prop) (r : ReadView) (q : Query)
    (H : DocKey → String → Prop) : Prop :=
  ∀ mem, mems mem → ∃ x, ks.search mem r q = .ok x ∧
    ∀ mvs : List (Memory × Move), (∀ p ∈ mvs, mems p.1) → ∃ y, x.after r mvs = .ok y ∧
      ∀ d, y.position = some d →
        y.highlights.Pairwise (· < ·) ∧ ∀ s, s ∈ y.highlights ↔ H d s

/-- Whatever is read from, a search highlights what the query shows. -/
theorem highlights_shown (ks : IndexKeys) (hr : r.ReadsAt mems m) (q : Query) :
    ks.Highlights mems r q (ks.shown m q) := by
  intro mem hmem
  have hU := ks.universe_postedDocs m
  have hlength := ks.length_postedDocs_le m
  have hread := hr.reads hmem
  have hsize := le_trans hlength hread.size
  obtain ⟨x, hx, hahead⟩ := search_ok hread hsize q
  refine ⟨x, hx, fun mvs hmvs => ?_⟩
  obtain ⟨y, Q, hafter, hahead', hsame⟩ := hahead.after_shows hU hlength hr hmem hmvs
  refine ⟨y, hafter, fun d hpos => ⟨pairwise_highlights y, fun s => ?_⟩⟩
  have hfirst := hahead'.first
  rw [hpos] at hfirst
  have hd := hU.parsable d (hahead'.within hfirst.1)
  rw [mem_highlights, hahead'.rawTerms_iff hU hpos, hsame d hfirst.1 s,
    search_shows hread hsize hd hx]

end IndexKeys

-- ==================================================================== runs

namespace Store

open Engine

variable {dir : Path} {v v' : Volume} {settings : Settings} {clock : UInt64} {e : Engine}

/-- Highlighting is exact. For every view that was taken in a run, as it is or
with writes of a transaction pending over it, for the keys of any index and every
query: at every later moment, however the results of the search are moved, and
whatever is asked of the store in between, the terms to show for the document they
stand on are those that the query shows for it. -/
theorem highlights_exact (hv : Vacant v dir) (hopen : openAt settings dir clock v = .ok e v')
    (earlier before later : List Request)
    (hfits : ∀ op ∈ (opened v' e).trace dir earlier, op.Fits)
    (hbefore : ∀ r ∈ before, r.reopens = false) (hlater : ∀ r ∈ later, r.reopens = false)
    (htotal : Operation.logged ((opened v' e).trace dir (earlier ++ before ++ later))
      < UInt64.size) (r : ReadView)
    (hr : r.view = ((opened v' e).after dir (earlier ++ before)).engine.view)
    (ks : IndexKeys) (q : Query) :
    ks.Highlights (((opened v' e).after dir (earlier ++ before)).Meanwhile dir later) r q
      (ks.shown
        ((contents ((opened v' e).trace dir (earlier ++ before))).laid r.pending) q) :=
  ks.highlights_shown
    (readsAt_meanwhile hv hopen earlier before later hfits hbefore hlater htotal hr) q

/-- What the sample query shows for the second document. -/
theorem shown_filed (s : String) :
    sampleKeys.shown (contents [.batch filed]) sampleQuery ⟨"2", "e"⟩ s ↔ s = "s" ∨ s = "T" := by
  have hd : (⟨"2", "e"⟩ : DocKey) ∈ sampleKeys.postedDocs (contents [.batch filed]) := by
    decide +kernel
  have hs : sampleKeys.readableEntries ((contents [.batch filed]).entries.filter fun q =>
      (sampleKeys.lexiconOf "s").isPrefixOf q.1) = [("s", ⟨1, 2⟩)] := by
    decide +kernel
  have ht : sampleKeys.readableEntries ((contents [.batch filed]).entries.filter fun q =>
      (sampleKeys.lexiconOf "t").isPrefixOf q.1) = [("T", ⟨2, 2⟩)] := by
    decide +kernel
  have hlead : sampleKeys.readableEntries ((contents [.batch filed]).entries.filter fun q =>
      (sampleKeys.lexiconFrom "t").isPrefixOf q.1) = [("T", ⟨2, 2⟩)] := by
    decide +kernel
  have hone : ((contents [.batch filed]).find?
      (sampleKeys.posting 1 ⟨"2", "e"⟩)).isSome = true := by
    decide +kernel
  have htwo : ((contents [.batch filed]).find?
      (sampleKeys.posting 2 ⟨"2", "e"⟩)).isSome = true := by
    decide +kernel
  have hparse := (sampleKeys.universe_postedDocs _).parsable _ hd
  simp [sampleQuery, IndexKeys.shown, IndexKeys.shownBySome, IndexKeys.turnsUpForAll,
    IndexKeys.turnsUp, IndexKeys.underLead, IndexKeys.shownUnder_iff hparse, hs, ht, hlead,
    IndexKeys.under, hd, hone, htwo]

/-- In a view that was taken between the sample runs, whoever seeks to the second
document is shown the term of the one token and the word of the other. -/
theorem highlights_exact_filedRun :
    ∃ e v' x y, openAt Settings.standard ["db"] 0 Volume.empty = .ok e v' ∧
      let s := (opened v' e).after ["db"] (filedRun ++ [.view])
      let s' := s.after ["db"] unfiledRun
      let r := ReadView.pinned s.engine.view
      sampleKeys.search s.toMemory r sampleQuery = .ok x ∧
        x.after r [(s'.toMemory, .seek ⟨"2", ""⟩)] = .ok y ∧ y.position = some ⟨"2", "e"⟩ ∧
        y.highlights.Pairwise (· < ·) ∧ ∀ t, t ∈ y.highlights ↔ t = "s" ∨ t = "T" := by
  have hfound : ends (openAt Settings.standard ["db"] 0) Volume.empty (fun e v =>
      let s := (opened v e).after ["db"] (filedRun ++ [.view])
      let r := ReadView.pinned s.engine.view
      ((sampleKeys.search s.toMemory r sampleQuery).bind fun x =>
        x.after r [((s.after ["db"] unfiledRun).toMemory, .seek ⟨"2", ""⟩)]).toOption.map
          Results.position == some (some ⟨"2", "e"⟩)) = true := by
    decide +kernel
  obtain ⟨e, v', hopen, hfound⟩ := of_ends hfound
  obtain ⟨hfits, htotal⟩ := fits_filedRun ["db"] (opened v' e)
  have hall := highlights_exact (vacant_empty ["db"]) hopen filedRun [.view] unfiledRun hfits
    (by decide) (by decide) htotal
  have htrace : (opened v' e).trace ["db"] (filedRun ++ [.view]) = [.batch filed] := by
    rw [trace_append, trace_filedRun]
    rfl
  rw [htrace] at hall
  -- without a name for the store it would be run to see that it is the same
  set s := (opened v' e).after ["db"] (filedRun ++ [.view])
  have hnow : s.Meanwhile ["db"] unfiledRun s.toMemory := ⟨[], List.nil_prefix, rfl⟩
  have hthen : s.Meanwhile ["db"] unfiledRun (s.after ["db"] unfiledRun).toMemory :=
    ⟨unfiledRun, List.prefix_refl _, rfl⟩
  obtain ⟨x, hx, hmoves⟩ :=
    hall (.pinned s.engine.view) rfl sampleKeys sampleQuery s.toMemory hnow
  obtain ⟨y, hy, hshown⟩ :=
    hmoves [((s.after ["db"] unfiledRun).toMemory, .seek ⟨"2", ""⟩)]
      (List.forall_mem_singleton.mpr hthen)
  have hpos : y.position = some ⟨"2", "e"⟩ := by
    dsimp only at hfound
    rw [hx] at hfound
    change ((x.after _ _).toOption.map Results.position == _) = true at hfound
    rw [hy] at hfound
    exact Option.some.inj (beq_iff_eq.mp hfound)
  obtain ⟨hsorted, hmem⟩ := hshown _ hpos
  exact ⟨e, v', x, y, hopen, hx, hy, hpos, hsorted, fun t => (hmem t).trans (shown_filed t)⟩

end Store

end OrderedStore
