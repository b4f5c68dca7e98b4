/-
What is suggested for the beginning of a term.

Several entries of the lexicon can be shown by one word: terms that are written
differently once their letters are made plain, or one term with and without a
word that is kept with it. They make one suggestion, with the highest of their
counts. What is collected so is a set, in whatever order the terms are handed
on (`Tops`), and only one row ranks it (`Ranks.unique`): the higher counts
first, and by their terms where counts are the same.

Counts are those of the last sweep. Right after one they are exact if only the
index wrote under its keys, so a suggestion has then as many postings as the one
of its entries that has most.
-/
import Mathlib
import OrderedStore.Proofs.Counterparts
import OrderedStore.Proofs.PrefixScans
import OrderedStore.Proofs.Statistics

namespace OrderedStore

/-- The higher of two counts is one of them, and neither is above it. -/
theorem max_count (a b : UInt64) : (max a b = a ∨ max a b = b) ∧ a ≤ max a b ∧ b ≤ max a b := by
  show (ite (a ≤ b) b a = a ∨ ite (a ≤ b) b a = b) ∧ a ≤ ite (a ≤ b) b a ∧ b ≤ ite (a ≤ b) b a
  by_cases h : a ≤ b
  · rw [if_pos h]
    exact ⟨Or.inr rfl, h, UInt64.le_refl b⟩
  · rw [if_neg h]
    exact ⟨Or.inl rfl, UInt64.le_refl a, (UInt64.le_total a b).resolve_left h⟩

namespace IndexKeys

variable {ks : IndexKeys} {mem : Memory} {r : ReadView} {m : KeyMap Bytes}
  {shows : String → LexiconEntry → Prop} {found ranked ranked' : List Suggestion}
  {s t : Suggestion} {e : LexiconEntry} {lead shown : String}

-- ================================================================ collecting

/-- What has been suggested stays where it is, and a new term comes last. -/
theorem terms_addSuggestion (found : List Suggestion) (s : Suggestion) :
    (addSuggestion found s).map Suggestion.term
      = if s.term ∈ found.map Suggestion.term then found.map Suggestion.term
        else found.map Suggestion.term ++ [s.term] := by
  induction found with
  | nil => rfl
  | cons t found ih =>
      rw [addSuggestion, List.map_cons]
      by_cases hterm : t.term = s.term
      · rw [if_pos hterm, if_pos (List.mem_cons.mpr (Or.inl hterm.symm)), List.map_cons]
      · rw [if_neg hterm, List.map_cons, ih]
        simp only [List.mem_cons, Ne.symm hterm, false_or]
        split <;> rfl

/-- One more changes nothing about other terms. Of its own term it is the first,
or the higher count is kept. -/
theorem of_mem_addSuggestion (hdistinct : (found.map Suggestion.term).Nodup)
    (ht : t ∈ addSuggestion found s) :
    (t ∈ found ∧ t.term ≠ s.term) ∨ (t = s ∧ s.term ∉ found.map Suggestion.term) ∨
      ∃ u ∈ found, u.term = s.term ∧ t = ⟨s.term, max u.count s.count⟩ := by
  induction found with
  | nil => exact Or.inr (Or.inl ⟨List.mem_singleton.mp ht, List.not_mem_nil⟩)
  | cons u found ih =>
      obtain ⟨hnew, hrest⟩ := List.nodup_cons.mp hdistinct
      rw [addSuggestion] at ht
      by_cases hterm : u.term = s.term
      · rw [if_pos hterm] at ht
        rcases List.mem_cons.mp ht with rfl | hold
        · refine Or.inr (Or.inr ⟨u, List.mem_cons_self, hterm, ?_⟩)
          rw [hterm]
        · refine Or.inl ⟨List.mem_cons_of_mem _ hold, fun heq => hnew ?_⟩
          rw [hterm, ← heq]
          exact List.mem_map_of_mem hold
      · rw [if_neg hterm] at ht
        rcases List.mem_cons.mp ht with rfl | hold
        · exact Or.inl ⟨List.mem_cons_self, hterm⟩
        · rcases ih hrest hold with ⟨hmem, hne⟩ | ⟨heq, hfresh⟩ | ⟨w, hw, hsame, heq⟩
          · exact Or.inl ⟨List.mem_cons_of_mem _ hmem, hne⟩
          · refine Or.inr (Or.inl ⟨heq, fun hmem => ?_⟩)
            exact (List.mem_cons.mp hmem).elim (fun h => hterm h.symm) hfresh
          · exact Or.inr (Or.inr ⟨w, List.mem_cons_of_mem _ hw, hsame, heq⟩)

/-- Suggestions are for the terms by which entries are shown, one for each, with
the highest count of the entries that are shown by it. -/
structure Tops (shows : String → LexiconEntry → Prop) (found : List Suggestion) : Prop where
  distinct : (found.map Suggestion.term).Nodup
  highest : ∀ s ∈ found, (∃ e, shows s.term e ∧ e.count = s.count) ∧
    ∀ e, shows s.term e → e.count ≤ s.count
  every : ∀ term e, shows term e → term ∈ found.map Suggestion.term

/-- So they are with one more, when one more entry is shown. -/
theorem Tops.add (h : Tops shows found) (shown : String) (e : LexiconEntry) :
    Tops (fun term e' => shows term e' ∨ term = shown ∧ e' = e)
      (addSuggestion found ⟨shown, e.count⟩) := by
  refine ⟨?_, fun t ht => ?_, fun term e' hshows => ?_⟩
  · rw [terms_addSuggestion]
    split
    · exact h.distinct
    · next hnew => exact List.nodup_append.mpr ⟨h.distinct, List.nodup_singleton _, by
        rintro term hmem _ hlast rfl
        rw [List.mem_singleton.mp hlast] at hmem
        exact hnew hmem⟩
  · rcases of_mem_addSuggestion h.distinct ht with ⟨hmem, hne⟩ | ⟨rfl, hfresh⟩ | ⟨u, hu, hsame, rfl⟩
    · obtain ⟨⟨e', hshows, hcount⟩, hall⟩ := h.highest t hmem
      refine ⟨⟨e', Or.inl hshows, hcount⟩, fun e' hshows' => ?_⟩
      rcases hshows' with hshows' | ⟨heq, -⟩
      · exact hall e' hshows'
      · exact absurd heq hne
    · refine ⟨⟨e, Or.inr ⟨rfl, rfl⟩, rfl⟩, fun e' hshows' => ?_⟩
      rcases hshows' with hshows' | ⟨-, rfl⟩
      · exact absurd (h.every _ _ hshows') hfresh
      · exact UInt64.le_refl _
    · obtain ⟨⟨e', hshows, hcount⟩, hall⟩ := h.highest u hu
      rw [show u.term = shown from hsame] at hshows hall
      obtain ⟨hone, hleft, hright⟩ := max_count u.count e.count
      refine ⟨?_, fun e' hshows' => ?_⟩
      · rcases hone with hu' | he
        · exact ⟨e', Or.inl hshows, hcount.trans hu'.symm⟩
        · exact ⟨e, Or.inr ⟨rfl, rfl⟩, he.symm⟩
      · rcases hshows' with hshows' | ⟨-, rfl⟩
        · exact UInt64.le_trans (hall e' hshows') hleft
        · exact hright
  · rw [terms_addSuggestion]
    rcases hshows with hshows | ⟨rfl, rfl⟩
    · have hold := h.every term e' hshows
      split
      · exact hold
      · exact List.mem_append_left _ hold
    · split
      · assumption
      · exact List.mem_append_right _ (List.mem_singleton_self _)

/-- What has been collected from entries before it is ranked. -/
def collected (es : List (String × LexiconEntry)) : List Suggestion :=
  es.foldl (fun found e => addSuggestion found ⟨e.1, e.2.count⟩) []

/-- It is the highest of what the entries show. -/
theorem tops_collected (es : List (String × LexiconEntry)) :
    Tops (fun term e => (term, e) ∈ es) (collected es) := by
  -- from the end, as each entry is added to what those before it made
  induction es using List.reverseRecOn with
  | nil => exact ⟨List.nodup_nil, fun s hs => absurd hs List.not_mem_nil,
      fun term e h => absurd h List.not_mem_nil⟩
  | append_singleton es p ih =>
      have hadd := ih.add p.1 p.2
      unfold collected
      rw [List.foldl_append]
      simp only [List.mem_append, List.mem_singleton, Prod.ext_iff]
      exact hadd

-- =================================================================== ranking

/-- A suggestion stands before another with a lower count, or with the same count
and a greater term. -/
def Outranks (s t : Suggestion) : Prop :=
  t.count < s.count ∨ s.count = t.count ∧ s.term < t.term

/-- Suggestions in the order in which they are to be shown. -/
structure Ranks (shows : String → LexiconEntry → Prop) (ranked : List Suggestion) : Prop
    extends Tops shows ranked where
  ordered : ranked.Pairwise Outranks

theorem suggestedBefore_iff : suggestedBefore s t = true ↔
    t.count < s.count ∨ s.count = t.count ∧ s.term ≤ t.term := by
  unfold suggestedBefore
  rw [Bool.or_eq_true, Bool.and_eq_true, decide_eq_true_eq, beq_iff_eq, decide_eq_true_eq]

/-- Of two terms that differ the one that is to be shown first outranks the
other. -/
theorem outranks_of_suggestedBefore (h : suggestedBefore s t = true) (hne : s.term ≠ t.term) :
    Outranks s t := by
  rcases suggestedBefore_iff.mp h with hless | ⟨hsame, hle⟩
  · exact Or.inl hless
  · refine Or.inr ⟨hsame, String.not_le.mp fun hge => hne (String.le_antisymm hle hge)⟩

theorem suggestedBefore_trans (s t u : Suggestion) (hst : suggestedBefore s t = true)
    (htu : suggestedBefore t u = true) : suggestedBefore s u = true := by
  rw [suggestedBefore_iff] at hst htu ⊢
  rcases hst with hst | ⟨hst, hst'⟩
  · rcases htu with htu | ⟨htu, -⟩
    · exact Or.inl (UInt64.lt_trans htu hst)
    · exact Or.inl (by rwa [← htu])
  · rw [hst]
    rcases htu with htu | ⟨htu, htu'⟩
    · exact Or.inl htu
    · exact Or.inr ⟨htu, String.le_trans hst' htu'⟩

theorem suggestedBefore_total (s t : Suggestion) :
    (suggestedBefore s t || suggestedBefore t s) = true := by
  rw [Bool.or_eq_true, suggestedBefore_iff, suggestedBefore_iff]
  by_cases hcount : s.count = t.count
  · rcases String.le_total s.term t.term with hle | hge
    · exact Or.inl (Or.inr ⟨hcount, hle⟩)
    · exact Or.inr (Or.inr ⟨hcount.symm, hge⟩)
  · rcases UInt64.le_total s.count t.count with hle | hge
    · exact Or.inr (Or.inl (UInt64.lt_of_le_of_ne hle hcount))
    · exact Or.inl (Or.inl (UInt64.lt_of_le_of_ne hge (Ne.symm hcount)))

theorem Outranks.asymm (h : Outranks s t) : ¬Outranks t s := by
  rintro (hless | ⟨hsame, hlt⟩)
  · rcases h with hless' | ⟨hsame, -⟩
    · exact UInt64.lt_irrefl _ (UInt64.lt_trans hless hless')
    · rw [hsame] at hless
      exact UInt64.lt_irrefl _ hless
  · rcases h with hless | ⟨-, hlt'⟩
    · rw [hsame] at hless
      exact UInt64.lt_irrefl _ hless
    · exact String.lt_irrefl _ (String.lt_trans hlt hlt')

/-- What is collected can be handed on in any order. -/
theorem Tops.perm (h : Tops shows found) {found' : List Suggestion} (hperm : found'.Perm found) :
    Tops shows found' :=
  ⟨(hperm.map _).nodup_iff.mpr h.distinct, fun s hs => h.highest s (hperm.mem_iff.mp hs),
    fun term e hshows => (hperm.map _).mem_iff.mpr (h.every term e hshows)⟩

/-- Sorting ranks it. -/
theorem Tops.ranks (h : Tops shows found) : Ranks shows (found.mergeSort suggestedBefore) := by
  have htops := h.perm (List.mergeSort_perm found suggestedBefore)
  have hsorted := List.pairwise_mergeSort suggestedBefore_trans suggestedBefore_total found
  exact ⟨htops, hsorted.imp₂ (fun s t => outranks_of_suggestedBefore)
    (List.pairwise_map.mp htops.distinct)⟩

/-- Suggestions for the same entries are the same ones. -/
theorem Tops.mem_of_mem (h : Tops shows ranked) (h' : Tops shows ranked') (hs : s ∈ ranked) :
    s ∈ ranked' := by
  obtain ⟨⟨e, hshows, hcount⟩, hall⟩ := h.highest s hs
  obtain ⟨t, ht, hterm⟩ := List.mem_map.mp (h'.every _ _ hshows)
  obtain ⟨⟨e', hshows', hcount'⟩, hall'⟩ := h'.highest t ht
  rw [hterm] at hshows' hall'
  have hsame : t.count = s.count := by
    refine UInt64.le_antisymm ?_ ?_
    · rw [← hcount']
      exact hall e' hshows'
    · rw [← hcount]
      exact hall' e hshows
  have heq : t = s := by
    cases s
    cases t
    cases hterm
    cases hsame
    rfl
  rwa [← heq]

/-- There is one row of them that is ranked. -/
theorem Ranks.unique (h : Ranks shows ranked) (h' : Ranks shows ranked') : ranked = ranked' := by
  have hperm : ranked.Perm ranked' :=
    (List.perm_ext_iff_of_nodup (List.Nodup.of_map _ h.distinct) (List.Nodup.of_map _ h'.distinct)).mpr
      fun s => ⟨h.toTops.mem_of_mem h'.toTops, h'.toTops.mem_of_mem h.toTops⟩
  exact hperm.eq_of_pairwise (fun s t _ _ hst hts => absurd hts hst.asymm) h.ordered h'.ordered

-- ============================================================ entries shown

/-- A lexicon key is made of the term and the word that are read from it. -/
theorem eq_lexicon_of_parseLexicon? {key : Bytes} {term raw : String}
    (h : ks.parseLexicon? key = some (term, raw)) : key = ks.lexicon term raw := by
  unfold parseLexicon? at h
  simp only [Option.bind_eq_bind, Option.bind_eq_some_iff] at h
  obtain ⟨rest, hrest, ⟨front, behind⟩, hsplit, term', hterm, raw', hraw, heq⟩ := h
  cases heq
  obtain ⟨hparts, -⟩ := Bytes.splitAt?_eq_some_iff.mp hsplit
  unfold lexicon lexiconOf lexiconFrom
  rw [Bytes.eq_append_of_after? hrest, hparts, Text.toBytes_of_ofBytes? hterm,
    Text.toBytes_of_ofBytes? hraw, List.append_assoc, List.append_assoc]
  rfl

/-- Keys begin like those of the terms that begin with a text if their own terms
do. -/
theorem lexiconFrom_prefix_of_parse (hlead : Term.delimiter ∉ lead.toList) {key : Bytes}
    {term raw : String} (h : ks.parseLexicon? key = some (term, raw)) :
    ks.lexiconFrom lead <+: key ↔ lead.toList <+: term.toList := by
  rw [eq_lexicon_of_parseLexicon? h, ks.lexiconFrom_prefix_iff (plain_of_not_mem hlead),
    Text.toBytes_prefix_iff]

/-- What is read has an entry for a term that begins with `lead`, which can be
read and is shown by `shown`. -/
def Shows (ks : IndexKeys) (mem : Memory) (r : ReadView) (lead shown : String)
    (e : LexiconEntry) : Prop :=
  ∃ key bytes term raw, r.get mem key = .ok (some bytes) ∧
    ks.parseLexicon? key = some (term, raw) ∧ lead.toList <+: term.toList ∧
      LexiconEntry.decode bytes = .ok e ∧ shown = display term raw

theorem entryAt_eq_some_iff {key : Bytes} :
    entryAt m key = some e ↔ ∃ bytes, m.find? key = some bytes ∧ LexiconEntry.decode bytes = .ok e := by
  unfold entryAt
  rw [Option.bind_eq_some_iff]
  refine exists_congr fun bytes => and_congr_right fun _ => ?_
  cases LexiconEntry.decode bytes <;> simp [Except.toOption]

/-- Such entries are those that are met under the beginning. -/
theorem mem_readableEntries_iff (hr : r.Reads mem m) (hlead : Term.delimiter ∉ lead.toList) :
    (shown, e) ∈ ks.readableEntries
        (m.entries.filter fun q => (ks.lexiconFrom lead).isPrefixOf q.1) ↔
      ks.Shows mem r lead shown e := by
  rw [mem_readableEntries]
  unfold Shows
  constructor
  · rintro ⟨key, term, raw, hpre, hparse, hshown, hentry⟩
    obtain ⟨bytes, hbytes, hdecode⟩ := entryAt_eq_some_iff.mp hentry
    exact ⟨key, bytes, term, raw, by rw [hr.get, hbytes], hparse,
      (lexiconFrom_prefix_of_parse hlead hparse).mp hpre, hdecode, hshown⟩
  · rintro ⟨key, bytes, term, raw, hget, hparse, hpre, hdecode, hshown⟩
    rw [hr.get] at hget
    exact ⟨key, term, raw, (lexiconFrom_prefix_of_parse hlead hparse).mpr hpre, hparse, hshown,
      entryAt_eq_some_iff.mpr ⟨bytes, Except.ok.inj hget, hdecode⟩⟩

/-- What is suggested is the beginning of one row, whatever the limit: that of the
terms that are shown, ranked. The row is the same in whatever order the terms that
were collected are handed on to be sorted. -/
structure Suggests (ks : IndexKeys) (mem : Memory) (r : ReadView) (lead : String)
    (ranked : List Suggestion) : Prop where
  ranks : Ranks (ks.Shows mem r lead) ranked
  take : ∀ limit, ks.suggestions mem r lead limit = .ok (ranked.take limit)
  shorter : ∀ {limit limit' few more}, limit ≤ limit' →
    ks.suggestions mem r lead limit = .ok few →
      ks.suggestions mem r lead limit' = .ok more → few <+: more
  anyOrder : ∃ pairs, r.scan mem (ks.lexiconFrom lead) = .ok pairs ∧
    ∀ found : List Suggestion, found.Perm (collected (ks.readableEntries pairs)) →
      found.mergeSort suggestedBefore = ranked

/-- In what reads as a map there is such a row. -/
theorem suggests_of_reads (hr : r.Reads mem m) (hlead : Term.delimiter ∉ lead.toList) :
    ∃ ranked, ks.Suggests mem r lead ranked := by
  have htops : Tops (ks.Shows mem r lead) (collected (ks.readableEntries
      (m.entries.filter fun q => (ks.lexiconFrom lead).isPrefixOf q.1))) := by
    have hmem : (fun shown e => (shown, e) ∈ ks.readableEntries
        (m.entries.filter fun q => (ks.lexiconFrom lead).isPrefixOf q.1))
          = ks.Shows mem r lead :=
      funext fun _ => funext fun _ => propext (mem_readableEntries_iff hr hlead)
    rw [← hmem]
    exact tops_collected _
  have hscan := hr.scan_eq (ks.lexiconFrom lead)
  have htake (limit : Nat) : ks.suggestions mem r lead limit = .ok (((collected
      (ks.readableEntries (m.entries.filter fun q => (ks.lexiconFrom lead).isPrefixOf q.1))).mergeSort
        suggestedBefore).take limit) := by
    unfold suggestions
    rw [hscan]
    rfl
  refine ⟨_, htops.ranks, htake, fun {limit limit' few more} hle hfew hmore => ?_, _, hscan,
    fun found hperm => (htops.perm hperm).ranks.unique htops.ranks⟩
  rw [htake] at hfew hmore
  rw [← Except.ok.inj hfew, ← Except.ok.inj hmore]
  exact List.take_prefix_take_left hle

/-- A row is suggested that is in order and has what was collected. -/
theorem Suggests.eq_of_perm (h : ks.Suggests mem r lead ranked) {row : List Suggestion}
    (found : List Suggestion)
    (hfound : (r.scan mem (ks.lexiconFrom lead)).toOption.map
      (fun pairs => collected (ks.readableEntries pairs)) = some found)
    (hperm : row.Perm found) (hrow : row.Pairwise fun s t => suggestedBefore s t = true) :
    ranked = row := by
  obtain ⟨pairs, hscan, hany⟩ := h.anyOrder
  rw [hscan] at hfound
  rw [← Option.some.inj hfound] at hperm
  rw [← hany row hperm, List.mergeSort_of_pairwise hrow]

-- ==================================================================== counting

/-- Each entry that is shown by the term has so many postings or fewer, and one of
them has so many. -/
def MostPostings (ks : IndexKeys) (mem : Memory) (r : ReadView) (lead : String)
    (s : Suggestion) : Prop :=
  (∃ e, ks.Shows mem r lead s.term e ∧ ks.countPostings mem r e.token = .ok s.count.toNat) ∧
    ∀ e, ks.Shows mem r lead s.term e →
      ∃ n, ks.countPostings mem r e.token = .ok n ∧ n ≤ s.count.toNat

/-- Whether counts are exact is seen from the keys of the index. -/
theorem Exact.congr {m' : KeyMap Bytes} (h : ks.Exact m)
    (hsame : ∀ k, ks.lead <+: k → m'.find? k = m.find? k) : ks.Exact m' := by
  refine ⟨fun k hk => ?_, fun k v hk hv => ?_⟩
  · rw [hsame k ((List.prefix_append _ _).trans hk)]
    exact h.1 k hk
  · rw [hsame k ((List.prefix_append _ _).trans hk)] at hv
    obtain ⟨e, rfl, hcount⟩ := h.2 k v hk hv
    refine ⟨e, rfl, hcount.trans (countIn_congr fun l hl => ?_)⟩
    rw [hsame l ((lead_postings ks e.token).trans hl)]

/-- Under pending writes that are not the index's they are what they are
without. -/
theorem Exact.laid (h : ks.Exact m) {p : Pending} (hp : ∀ k, ks.lead <+: k → p.find? k = none) :
    ks.Exact (m.laid p) :=
  h.congr fun k hk => KeyMap.find?_laid_of_none (hp k hk)

/-- Where counts are exact, suggestions have them from postings. -/
theorem Exact.mostPostings (hexact : ks.Exact m) (hr : r.Reads mem m)
    (htops : Tops (ks.Shows mem r lead) found) (hs : s ∈ found) :
    ks.MostPostings mem r lead s := by
  have hcount {e : LexiconEntry} (he : ks.Shows mem r lead s.term e) :
      ks.countPostings mem r e.token = .ok e.count.toNat := by
    obtain ⟨key, bytes, term, raw, hget, hparse, -, hdecode, -⟩ := he
    rw [hr.get] at hget
    have hkey : ks.part "l/" <+: key := by
      rw [eq_lexicon_of_parseLexicon? hparse]
      unfold lexicon lexiconOf lexiconFrom
      simp only [List.append_assoc]
      exact List.prefix_append _ _
    obtain ⟨e', rfl, hcount⟩ := hexact.2 key bytes hkey (Except.ok.inj hget)
    rw [LexiconEntry.decode_encode] at hdecode
    obtain rfl := Except.ok.inj hdecode
    rw [countPostings_eq hr, hcount]
  obtain ⟨⟨e, he, heq⟩, hall⟩ := htops.highest s hs
  refine ⟨⟨e, he, ?_⟩, fun e' he' => ⟨_, hcount he', UInt64.le_iff_toNat_le.mp (hall e' he')⟩⟩
  rw [hcount he, heq]

end IndexKeys

-- ====================================================================== runs

namespace Index

open IndexKeys Store Engine

/-- A sweep that ends where only the index wrote under its keys leaves exact
counts. -/
theorem Course.exact_of_sweep {ν : Type} {dir : Path} {name : String} {earlier batch n : Nat}
    {σ : Session ν} {s s' : Store} (hcourse : Course dir name (Call.Own (ofName name)) earlier σ s)
    (hsweep : (ofName name).sweep batch s = .ok n s')
    (hroom : earlier + s'.written < UInt64.size) :
    ∃ m, s'.engine.view.Reads s'.toMemory m ∧ (ofName name).Exact m := by
  have hruns := runs_sweep (guards_balanced (ofName name)) batch
  obtain ⟨hle, -⟩ := (hruns KeyMap.empty).ends hsweep
  obtain ⟨ops, hs, hreached⟩ := hcourse.reached (by omega)
  obtain ⟨-, hlead⟩ := (hruns (contents ops)).ends hsweep
  obtain ⟨ops', hs', -, hswept, hbalanced, -⟩ := hlead hs hroom ⟨rfl, hreached.balanced.held⟩
  rw [← hswept] at hbalanced
  have hsize : (contents ops').size < UInt64.size := by
    have hlogged := size_contents_le ops'
    have htotal := hs'.total
    omega
  refine ⟨contents ops', hs'.reads, (hbalanced.tallied hsize).exact ?_⟩
  rw [hswept]
  exact beginning_swept _ batch _

/-- What is suggested for the beginning of a term without a tab in it. In a view
that can be read, as it is or with writes pending over it, and so in every view of
a run of a store and at every later moment, it is the ranked row of the
terms that entries are shown by, cut off at the limit. Where only the index wrote
under its keys and a sweep has ended, and nothing of the index is pending, the
counts are the highest numbers of postings of those entries. -/
theorem suggestions_ranked (ν : Type) (dir : Path) (name : String) :
    (∀ (ks : IndexKeys) (mem : Memory) (r : ReadView) (lead : String), r.view.Readable mem →
      Term.delimiter ∉ lead.toList → ∃ ranked, ks.Suggests mem r lead ranked) ∧
    (∀ {v v' : Volume} {settings : Settings} {clock : UInt64} {e : Engine},
      Vacant v dir → openAt settings dir clock v = .ok e v' →
      ∀ earlier before later : List Request,
        (∀ op ∈ (opened v' e).trace dir earlier, op.Fits) →
        (∀ q ∈ before, q.reopens = false) → (∀ q ∈ later, q.reopens = false) →
        Operation.logged ((opened v' e).trace dir (earlier ++ before ++ later)) < UInt64.size →
        ∀ r : ReadView, r.view = ((opened v' e).after dir (earlier ++ before)).engine.view →
          ∀ mem, ((opened v' e).after dir (earlier ++ before)).Meanwhile dir later mem →
            ∀ ks : IndexKeys, ∀ lead, Term.delimiter ∉ lead.toList →
              ∃ ranked, ks.Suggests mem r lead ranked) ∧
    ∀ {earlier : Nat} {σ : Session ν} {s s' : Store} {batch n : Nat},
      Course dir name (Call.Own (ofName name)) earlier σ s →
      (ofName name).sweep batch s = .ok n s' → earlier + s'.written < UInt64.size →
        ∀ r : ReadView, r.view = s'.engine.view →
          (∀ k, (ofName name).lead <+: k → r.pending.find? k = none) →
            ∀ lead, Term.delimiter ∉ lead.toList →
              ∃ ranked, (ofName name).Suggests s'.toMemory r lead ranked ∧
                ∀ suggestion ∈ ranked, (ofName name).MostPostings s'.toMemory r lead suggestion := by
  refine ⟨fun ks mem r lead hreadable hlead => ?_, fun hv hopen earlier before later hfits hbefore
    hlater htotal r hr mem hmem ks lead hlead => ?_, fun hcourse hsweep hroom r hr hpending lead
    hlead => ?_⟩
  · obtain ⟨m, hreads, -⟩ := ReadView.reads_overlaid hreadable
    exact suggests_of_reads hreads hlead
  · exact suggests_of_reads ((readsAt_meanwhile hv hopen earlier before later hfits hbefore hlater
      htotal hr).reads hmem) hlead
  · obtain ⟨m, hview, hexact⟩ := Course.exact_of_sweep hcourse hsweep hroom
    have hreads : r.Reads _ (m.laid r.pending) := ⟨m, hr ▸ hview, rfl⟩
    obtain ⟨ranked, hsuggests⟩ := suggests_of_reads hreads hlead
    exact ⟨ranked, hsuggests, fun suggestion hmem =>
      (hexact.laid hpending).mostPostings hreads hsuggests.ranks.toTops hmem⟩

/-- Entries of a lexicon: two terms are shown by one word, one has nothing else to
be shown by than itself, one cannot be read, and one begins otherwise. -/
def shownWrites : List (UInt64 × Bytes × Entry) :=
  [(1, sampleKeys.lexicon "mo" "M", .value (LexiconEntry.encode ⟨1, 3⟩)),
    (2, sampleKeys.lexicon "me" "M", .value (LexiconEntry.encode ⟨2, 7⟩)),
    (3, sampleKeys.lexicon "ma" "", .value (LexiconEntry.encode ⟨3, 7⟩)),
    (4, sampleKeys.lexicon "mu" "", .value [0]),
    (5, sampleKeys.lexicon "n" "", .value (LexiconEntry.encode ⟨4, 9⟩))]

/-- Documents are told of, with two terms that are shown by one word. -/
def shownCalls : List Call :=
  [.openIndex 0 ⟨4, 1⟩ 1, .update 0 none "a" "1" [⟨"ma", "ma", 0⟩, ⟨"mo", "M", 1⟩],
    .update 0 none "b" "2" [⟨"me", "M", 0⟩, ⟨"mo", "M", 0⟩]]

/-- They are the index's own. -/
theorem own_shownCalls : ∀ c ∈ shownCalls, c.Own (ofName "n") := by decide

/-- They can be run and swept, and two terms are collected then, in the order of
their keys. -/
theorem swept_shownCalls : ∃ (e : Engine) (v : Volume) (σ : Session Unit) (s s' : Store) (n : Nat),
    openAt Settings.standard ["db"] 0 Volume.empty = .ok e v ∧
      Call.runAll "n" shownCalls .blank (opened v e) = .ok σ s ∧
      (ofName "n").sweep 1 s = .ok n s' ∧ 0 + s'.written < UInt64.size ∧
      ((ReadView.pinned s'.engine.view).scan s'.toMemory ((ofName "n").lexiconFrom "m")).toOption.map
        (fun pairs => collected ((ofName "n").readableEntries pairs)) = some [⟨"ma", 1⟩, ⟨"M", 2⟩] := by
  have hruns : ends (openAt Settings.standard ["db"] 0) Volume.empty (fun e v =>
      ends (Call.runAll "n" shownCalls (.blank : Session Unit)) (opened v e) fun _ s =>
        ends ((ofName "n").sweep 1) s fun _ s' =>
          decide (0 + s'.written < UInt64.size) &&
          (((ReadView.pinned s'.engine.view).scan s'.toMemory
            ((ofName "n").lexiconFrom "m")).toOption.map
              (fun pairs => collected ((ofName "n").readableEntries pairs))
            == some [⟨"ma", 1⟩, ⟨"M", 2⟩])) = true := by
    decide +kernel
  obtain ⟨e, v, hopen, hruns⟩ := of_ends hruns
  obtain ⟨σ, s, hrun, hruns⟩ := of_ends hruns
  obtain ⟨n, s', hsweep, hruns⟩ := of_ends hruns
  simp only [Bool.and_eq_true, decide_eq_true_eq, beq_iff_eq] at hruns
  exact ⟨e, v, σ, s, s', n, hopen, hrun, hsweep, hruns⟩

/-- So it is with those entries in a memtable, in a view of a run in which a
document is taken out later, and when those calls have been swept. -/
theorem suggestions_ranked_shownCalls :
    sampleKeys.Suggests ⟨Volume.empty, [Memtable.written shownWrites]⟩ (.pinned ⟨0, [], 9⟩) "m"
      [⟨"M", 7⟩, ⟨"ma", 7⟩] ∧
    (∃ e v' ranked, openAt Settings.standard ["db"] 0 Volume.empty = .ok e v' ∧
      let s := (opened v' e).after ["db"] (filedRun ++ [.view])
      sampleKeys.Suggests (s.after ["db"] unfiledRun).toMemory (.pinned s.engine.view) "" ranked) ∧
    ∃ (e : Engine) (v : Volume) (σ : Session Unit) (s s' : Store) (n : Nat),
      openAt Settings.standard ["db"] 0 Volume.empty = .ok e v ∧
        Call.runAll "n" shownCalls .blank (opened v e) = .ok σ s ∧
        (ofName "n").sweep 1 s = .ok n s' ∧
        (ofName "n").Suggests s'.toMemory (.pinned s'.engine.view) "m" [⟨"M", 2⟩, ⟨"ma", 1⟩] ∧
        (ofName "n").MostPostings s'.toMemory (.pinned s'.engine.view) "m" ⟨"M", 2⟩ := by
  obtain ⟨hview, hmoments, hswept⟩ := suggestions_ranked Unit ["db"] "n"
  refine ⟨?_, ?_, ?_⟩
  · obtain ⟨ranked, hsuggests⟩ := hview sampleKeys ⟨Volume.empty, [Memtable.written shownWrites]⟩
      (.pinned ⟨0, [], 9⟩) "m" (fun t ht => absurd ht List.not_mem_nil) (by decide)
    -- they come in the order of their keys
    have hrow : ranked = [⟨"M", 7⟩, ⟨"ma", 7⟩] :=
      hsuggests.eq_of_perm [⟨"ma", 7⟩, ⟨"M", 7⟩] (by decide +kernel)
        (List.Perm.swap _ _ _) (by decide)
    rwa [hrow] at hsuggests
  · obtain ⟨e, v', ids, hopen, -⟩ := (vacant_empty ["db"]).openAt_ok Settings.standard 0
    obtain ⟨hfits, htotal⟩ := fits_filedRun ["db"] (opened v' e)
    have hsuggests := hmoments (vacant_empty ["db"]) hopen filedRun [.view] unfiledRun hfits
      (by decide) (by decide) htotal
    -- without a name for the store it would be run to see that it is the same
    set s := (opened v' e).after ["db"] (filedRun ++ [.view])
    obtain ⟨ranked, hranked⟩ := hsuggests (.pinned s.engine.view) rfl _
      ⟨unfiledRun, List.prefix_refl _, rfl⟩ sampleKeys "" (by decide)
    exact ⟨e, v', ranked, hopen, hranked⟩
  · obtain ⟨e, v, σ, s, s', n, hopen, hrun, hsweep, hroom, hfound⟩ := swept_shownCalls
    have hown : Course ["db"] "n" (Call.Own (ofName "n")) 0 σ s :=
      (Course.start (vacant_empty ["db"]) hopen).calls own_shownCalls hrun
    obtain ⟨ranked, hsuggests, hmost⟩ := hswept hown hsweep hroom (.pinned s'.engine.view) rfl
      (fun k _ => rfl) "m" (by decide)
    have hrow : ranked = [⟨"M", 2⟩, ⟨"ma", 1⟩] :=
      hsuggests.eq_of_perm _ hfound (List.Perm.swap _ _ _) (by decide)
    rw [hrow] at hsuggests hmost
    exact ⟨e, v, σ, s, s', n, hopen, hrun, hsweep, hsuggests, hmost _ List.mem_cons_self⟩

end Index

end OrderedStore
