/-
Which token an entry has after a sweep, and what a search finds then.

For every mark a sweep follows the token back to the lexicon, and the entry
that it finds there it writes anew with that token. Nothing is asked of the
token that the entry had. Where the lexicon is inverse to the keys back to it
that is the same one; but after an entry was spoiled and got another token,
the old one leads back to it, too. If the old one is marked it takes the entry
back, and with it go the postings under the new one (`Reclaims`).

# One pass

Marks are met in order, and each of them is taken away as it is met; so it
makes no difference how many of them a batch takes, and a sweep is one pass
over all marks (`swept_eq_passed`). Whatever entry there is at a key, the last
mark that leads back to it decides which token it has then
(`entryAt_passed`), by induction from the last mark on. Postings stay. So
whoever loses a document has lost the token of an entry under which it was
posted (`Rooted.turnsUp_or`).
-/
import Mathlib
import OrderedStore.Proofs.Spoiling
import OrderedStore.Proofs.Statistics

namespace OrderedStore

/-- Without the first of the keys that begin with a string the others are
left. -/
theorem KeyMap.beginning_of_cons {α : Type} {m m' : KeyMap α} {lead : Bytes} {p : Bytes × α}
    {ps : List (Bytes × α)} (hfirst : m.beginning lead = p :: ps) (hgone : m'.find? p.1 = none)
    (h : ∀ k, lead <+: k → k ≠ p.1 → m'.find? k = m.find? k) : m'.beginning lead = ps := by
  have hsorted := m.sorted.sublist (List.filter_sublist (p := fun q => lead.isPrefixOf q.1))
  change (m.beginning lead).Pairwise _ at hsorted
  rw [hfirst] at hsorted
  have hsorted' := m'.sorted.sublist (List.filter_sublist (p := fun q => lead.isPrefixOf q.1))
  have hmem (q : Bytes × α) : q ∈ m'.beginning lead ↔ q ∈ ps := by
    obtain ⟨k, v⟩ := q
    have hold : (k, v) ∈ p :: ps ↔ m.find? k = some v ∧ lead <+: k := by
      rw [← hfirst]
      exact KeyMap.mem_beginning
    rw [KeyMap.mem_beginning]
    constructor
    · rintro ⟨hv, hlead⟩
      have hne : k ≠ p.1 := by
        rintro rfl
        rw [hgone] at hv
        cases hv
      rw [h k hlead hne] at hv
      rcases List.mem_cons.mp (hold.mpr ⟨hv, hlead⟩) with rfl | hin
      · exact absurd rfl hne
      · exact hin
    · intro hin
      obtain ⟨hv, hlead⟩ := hold.mp (List.mem_cons_of_mem _ hin)
      have hne : k ≠ p.1 := by
        rintro rfl
        have hlt := List.rel_of_pairwise_cons hsorted hin
        exact List.lt_irrefl _ hlt
      exact ⟨(h k hlead hne).trans hv, hlead⟩
  exact eq_of_mem_iff (fun _ _ hab hba => List.lt_asymm hab hba) hsorted' hsorted.tail hmem

namespace IndexKeys

variable {ks : IndexKeys} {m : KeyMap Bytes} {p : Bytes × Bytes} {ps : List (Bytes × Bytes)}
  {l : Bytes} {e : LexiconEntry} {token : UInt64}

-- ================================================================= one pass

/-- Where tokens lead back to the lexicon, the first mark is taken away as it
is met. -/
theorem Rooted.beginning_refreshedIn (h : ks.Rooted ⟨m, none⟩)
    (hfirst : m.beginning ks.marks = p :: ps) :
    (ks.refreshedIn m p).beginning ks.marks = ps := by
  obtain ⟨hmet, hp⟩ := KeyMap.mem_beginning.mp (hfirst ▸ List.mem_cons_self :
    p ∈ m.beginning ks.marks)
  refine KeyMap.beginning_of_cons hfirst ?_ fun k hk hne => ?_
  · rcases refreshedIn_met hmet with hgone | ⟨token, bytes, hrecounts, -⟩
    · exact hgone
    · have hkind := h.back hrecounts.back
      rw [kind?_of_marks hp] at hkind
      cases hkind
  · refine find?_refreshedIn h.back ?_ hne
    rw [kind?_of_marks hk]
    simp

/-- A pass over the first marks leaves the others. -/
theorem Rooted.beginning_passed {front rest : List (Bytes × Bytes)} (h : ks.Rooted ⟨m, none⟩)
    (hmarks : m.beginning ks.marks = front ++ rest) :
    ks.Rooted ⟨ks.passed m front, none⟩ ∧ (ks.passed m front).beginning ks.marks = rest := by
  induction front generalizing m with
  | nil => exact ⟨h, hmarks⟩
  | cons p front ih =>
      have hp : ks.marks <+: p.1 := (KeyMap.mem_beginning.mp (hmarks ▸ List.mem_cons_self :
        p ∈ m.beginning ks.marks)).2
      exact ih (h.refreshed hp) (h.beginning_refreshedIn hmarks)

/-- With one pass for each mark, at least, all of them are met in order. -/
theorem Rooted.sweptFrom_eq_passed {batch fuel : Nat} (hbatch : 0 < batch)
    (h : ks.Rooted ⟨m, none⟩) (hfuel : ks.markCount m ≤ fuel) :
    ks.sweptFrom batch fuel m = ks.passed m (m.beginning ks.marks) := by
  induction fuel generalizing m with
  | zero =>
      have hnone : m.beginning ks.marks = [] := List.length_eq_zero_iff.mp (by
        unfold markCount at hfuel
        omega)
      rw [hnone]
      rfl
  | succ fuel ih =>
      have hsplit : m.beginning ks.marks
          = ks.markedIn m batch ++ (m.beginning ks.marks).drop batch :=
        (List.take_append_drop batch _).symm
      rw [sweptFrom]
      cases hmarked : ks.markedIn m batch with
      | nil =>
          rw [(markedIn_eq_nil hbatch).mp hmarked]
          rfl
      | cons p ps =>
          rw [hmarked] at hsplit
          obtain ⟨hrooted, hrest⟩ := h.beginning_passed hsplit
          have hcount : ks.markCount (ks.passed m (p :: ps)) ≤ fuel := by
            unfold markCount at hfuel ⊢
            rw [hsplit, List.length_append, List.length_cons] at hfuel
            rw [hrest]
            omega
          simp only [List.isEmpty_cons, Bool.false_eq_true, if_false]
          have hall : ks.passed m (m.beginning ks.marks)
              = ks.passed m (p :: ps ++ (m.beginning ks.marks).drop batch) := congrArg _ hsplit
          rw [ih hrooted hcount, hrest, hall]
          exact List.foldl_append.symm

/-- Whatever the batches are, a sweep is one pass over all marks. -/
theorem Rooted.swept_eq_passed (h : ks.Rooted ⟨m, none⟩) (batch : Nat) :
    ks.swept batch m = ks.passed m (m.beginning ks.marks) := by
  have hcount := markCount_le_size ks m
  exact h.sweptFrom_eq_passed (by omega) (by omega)

-- =============================================================== last marks

/-- Marks are in the order of their tokens. -/
theorem mark_lt_mark {token' : UInt64} (h : token < token') : ks.mark token < ks.mark token' := by
  have hlt := Codec.ordered_append_lt h [] []
  rw [List.append_nil, List.append_nil] at hlt
  exact List.append_left_lt hlt

/-- A mark that is met leaves an entry that it leads back to with its token
and count, and others as they were. -/
theorem entryAt_of_met {v : Bytes} (hmet : m.find? (ks.mark token) = some v)
    (hl : ks.kind? l = some 108) (he : entryAt m l = some e) :
    entryAt (ks.refreshedIn m (ks.mark token, v)) l
      = if m.find? (ks.reverse token) = some l then some (ks.recount m token) else some e := by
  have hne : l ≠ ks.mark token := ks.ne_of_kind? (by rw [hl]; simp)
  have hparse := parseMark?_mark ks token
  rcases refreshedIn_cases ks m (ks.mark token, v) with ⟨-, hother, -⟩ | ⟨hcounted, heq⟩ |
    ⟨token', l', bytes, hrecounts, heq⟩
  · exact absurd hmet hother
  · have hsame : entryAt (ks.refreshedIn m (ks.mark token, v)) l = some e := by
      rw [← he]
      refine entryAt_congr ?_
      rw [heq, KeyMap.find?_write, if_neg hne]
    rw [hsame]
    split
    · next hback =>
        -- the entry has the count
        obtain ⟨bytes, hbytes, hread⟩ := Option.bind_eq_some_iff.mp he
        have hentry := hcounted token l bytes hparse hback hbytes
        unfold entryOr at hentry
        cases hdecode : LexiconEntry.decode bytes with
        | error f =>
            rw [hdecode] at hread
            cases hread
        | ok e' =>
            rw [hdecode] at hread hentry
            cases hread
            exact congrArg some hentry
    · rfl
  · have htoken := hrecounts.mark
    rw [hparse] at htoken
    cases htoken
    split
    · next hback =>
        rw [hrecounts.back] at hback
        cases hback
        refine entryAt_of_find? ?_
        rw [heq, KeyMap.find?_write, if_pos rfl]
        rfl
    · next hback =>
        rw [← he]
        refine entryAt_congr ?_
        rw [heq, KeyMap.find?_write, if_neg, KeyMap.find?_write, if_neg hne]
        rintro rfl
        exact hback hrecounts.back

/-- A pass changes nothing but entries of the lexicon and the marks that it
meets. -/
theorem Rooted.find?_passed {k : Bytes} (h : ks.Rooted ⟨m, none⟩)
    (hps : ∀ p ∈ ps, ks.marks <+: p.1) (hk : ks.kind? k ≠ some 108) (hne : k ∉ ps.map Prod.fst) :
    (ks.passed m ps).find? k = m.find? k :=
  (passed_induction (I := fun m' => ks.Rooted ⟨m', none⟩ ∧ m'.find? k = m.find? k)
    (fun _ p hp ih => ⟨ih.1.refreshed (hps p hp), (find?_refreshedIn ih.1.back hk fun heq =>
      hne (heq ▸ List.mem_map_of_mem hp)).trans ih.2⟩) ⟨h, rfl⟩).2

/-- The last mark of a pass is still there when it is met, and leads where it
led. -/
theorem Rooted.entryAt_passed_concat {v : Bytes} (h : ks.Rooted ⟨m, none⟩)
    (hps : ∀ p ∈ ps, ks.marks <+: p.1) (hmet : m.find? (ks.mark token) = some v)
    (hnew : ks.mark token ∉ ps.map Prod.fst) (hl : ks.kind? l = some 108)
    (he : entryAt (ks.passed m ps) l = some e) :
    entryAt (ks.passed m (ps ++ [(ks.mark token, v)])) l
      = if m.find? (ks.reverse token) = some l then some (ks.recount m token) else some e := by
  have hmet' : (ks.passed m ps).find? (ks.mark token) = some v :=
    (h.find?_passed hps (by rw [ks.kind?_mark]; simp) hnew).trans hmet
  have hback : (ks.passed m ps).find? (ks.reverse token) = m.find? (ks.reverse token) := by
    refine h.find?_passed hps (by rw [ks.kind?_reverse]; simp) fun hmem => ?_
    obtain ⟨q, hq, heq⟩ := List.mem_map.mp hmem
    exact not_marks_reverse ks token (heq ▸ hps q hq)
  have hrecount : ks.recount (ks.passed m ps) token = ks.recount m token := by
    unfold recount
    rw [countIn_passed hps]
  have hpassed : ks.passed m (ps ++ [(ks.mark token, v)])
      = ks.refreshedIn (ks.passed m ps) (ks.mark token, v) := List.foldl_append
  rw [hpassed, entryAt_of_met hmet' hl he, hback, hrecount]

/-- After a pass an entry is as it was, and none of the marks leads back to
it; or it has the token of the last mark that does. -/
theorem Rooted.entryAt_passed (h : ks.Rooted ⟨m, none⟩) (hl : ks.kind? l = some 108)
    (he : entryAt m l = some e) (hps : ∀ p ∈ ps, m.find? p.1 = some p.2 ∧ ks.marks <+: p.1)
    (hsorted : (ps.map Prod.fst).Pairwise (· < ·)) :
    (entryAt (ks.passed m ps) l = some e ∧
      ∀ t, ks.mark t ∈ ps.map Prod.fst → m.find? (ks.reverse t) ≠ some l) ∨
    ∃ token, entryAt (ks.passed m ps) l = some (ks.recount m token) ∧
      ks.mark token ∈ ps.map Prod.fst ∧ m.find? (ks.reverse token) = some l ∧
      ∀ t, ks.mark t ∈ ps.map Prod.fst → m.find? (ks.reverse t) = some l → t ≤ token := by
  induction ps using List.reverseRec with
  | nil => exact Or.inl ⟨he, fun t ht => absurd ht List.not_mem_nil⟩
  | append_singleton ps p ih =>
      obtain ⟨mark, v⟩ := p
      have hps' : ∀ q ∈ ps, m.find? q.1 = some q.2 ∧ ks.marks <+: q.1 := fun q hq =>
        hps q (List.mem_append_left _ hq)
      obtain ⟨hmet, hp⟩ := hps (mark, v) (List.mem_append_right _ (List.mem_singleton_self _))
      obtain ⟨token, htoken, -, -⟩ := (h.tidy.held hmet
        (not_lexical_of_marks (p := (mark, v)) hp)).mark (kind?_of_marks hp)
      obtain rfl : mark = ks.mark token := htoken
      rw [List.map_append, List.map_singleton] at hsorted ⊢
      obtain ⟨hsorted', -, hlast⟩ := List.pairwise_append.mp hsorted
      have hbefore : ∀ k ∈ ps.map Prod.fst, k < ks.mark token := fun k hk =>
        hlast k hk _ (List.mem_singleton_self _)
      have hstep {e' : LexiconEntry} (he' : entryAt (ks.passed m ps) l = some e') :=
        h.entryAt_passed_concat (fun q hq => (hps' q hq).2) hmet
          (fun hmem => List.lt_irrefl _ (hbefore _ hmem)) hl he'
      have hmem {t : UInt64} (ht : ks.mark t ∈ ps.map Prod.fst ++ [ks.mark token]) :
          ks.mark t ∈ ps.map Prod.fst ∨ t = token := by
        rcases List.mem_append.mp ht with ht | ht
        · exact Or.inl ht
        · have hsame := congrArg ks.parseMark? (List.mem_singleton.mp ht)
          rw [parseMark?_mark, parseMark?_mark] at hsame
          exact Or.inr (Option.some.inj hsame)
      by_cases hleads : m.find? (ks.reverse token) = some l
      · -- the last mark decides
        refine Or.inr ⟨token, ?_, List.mem_append_right _ (List.mem_singleton_self _), hleads,
          fun t ht _ => ?_⟩
        · rcases ih hps' hsorted' with ⟨he', -⟩ | ⟨token', he', -⟩ <;>
            rw [hstep he', if_pos hleads]
        · rcases hmem ht with ht | rfl
          · refine UInt64.not_lt.mp fun hlt => ?_
            exact List.lt_asymm (mark_lt_mark hlt) (hbefore _ ht)
          · exact UInt64.le_refl _
      · rcases ih hps' hsorted' with ⟨he', hnone⟩ | ⟨token', he', htoken', hback', hmost⟩
        · refine Or.inl ⟨by rw [hstep he', if_neg hleads], fun t ht => ?_⟩
          rcases hmem ht with ht | rfl
          · exact hnone t ht
          · exact hleads
        · refine Or.inr ⟨token', by rw [hstep he', if_neg hleads],
            List.mem_append_left _ htoken', hback', fun t ht hfound => ?_⟩
          rcases hmem ht with ht | rfl
          · exact hmost t ht hfound
          · exact absurd hfound hleads

/-- The last of the marked tokens that lead back to a key: a sweep gives it
the entry there. -/
structure Reclaims (ks : IndexKeys) (m : KeyMap Bytes) (l : Bytes) (token : UInt64) : Prop where
  marked : (m.find? (ks.mark token)).isSome = true
  back : m.find? (ks.reverse token) = some l
  last : ∀ t, (m.find? (ks.mark t)).isSome = true → m.find? (ks.reverse t) = some l → t ≤ token

/-- One token does. -/
theorem Reclaims.unique {token' : UInt64} (h : ks.Reclaims m l token)
    (h' : ks.Reclaims m l token') : token' = token :=
  UInt64.le_antisymm (h.last _ h'.marked h'.back) (h'.last _ h.marked h.back)

/-- After a sweep an entry has the token that reclaims it and its count, or it
is as it was. -/
theorem Rooted.entryAt_swept (h : ks.Rooted ⟨m, none⟩) (hl : ks.kind? l = some 108)
    (he : entryAt m l = some e) (batch : Nat) :
    (entryAt (ks.swept batch m) l = some e ∧ ∀ token, ¬ks.Reclaims m l token) ∨
      ∃ token, ks.Reclaims m l token ∧
        entryAt (ks.swept batch m) l = some (ks.recount m token) := by
  have hmem {t : UInt64} : ks.mark t ∈ (m.beginning ks.marks).map Prod.fst ↔
      (m.find? (ks.mark t)).isSome = true := by
    rw [KeyMap.mem_keys_beginning]
    exact and_iff_left (List.prefix_append _ _)
  rw [h.swept_eq_passed batch]
  rcases h.entryAt_passed hl he (fun p hp => KeyMap.mem_beginning.mp hp)
    (KeyMap.pairwise_keys_beginning m ks.marks) with ⟨hsame, hnone⟩ |
      ⟨token, hentry, hmark, hback, hlast⟩
  · exact Or.inl ⟨hsame, fun token hreclaims =>
      hnone token (hmem.mpr hreclaims.marked) hreclaims.back⟩
  · exact Or.inr ⟨token, ⟨hmem.mp hmark, hback, fun t ht => hlast t (hmem.mpr ht)⟩, hentry⟩

/-- Postings stay. -/
theorem Rooted.posting_swept {k : Bytes} (h : ks.Rooted ⟨m, none⟩) (hk : ks.kind? k = some 105)
    (batch : Nat) : (ks.swept batch m).find? k = m.find? k := by
  rw [h.swept_eq_passed batch]
  refine h.find?_passed (fun p hp => (KeyMap.mem_beginning.mp hp).2) (by rw [hk]; simp) fun hmem => ?_
  obtain ⟨p, hp, rfl⟩ := List.mem_map.mp hmem
  rw [kind?_of_marks (KeyMap.mem_beginning.mp hp).2] at hk
  cases hk

-- ================================================================ searches

/-- The document is posted under an entry whose key begins with a string, and
another token reclaims that entry. -/
def Reclaimed (ks : IndexKeys) (m : KeyMap Bytes) (string : String) (d : DocKey) : Prop :=
  ∃ l e token, ks.lexiconFrom string <+: l ∧ entryAt m l = some e ∧
    (m.find? (ks.posting e.token d)).isSome = true ∧ ks.Reclaims m l token ∧ token ≠ e.token

variable {m' : KeyMap Bytes} {d : DocKey} {batch : Nat}

/-- If postings stay, what was under an entry is under one with its token. -/
theorem under_of_postings
    (hsame : ∀ k, ks.kind? k = some 105 → m'.find? k = m.find? k) {shown shown' : String}
    {e' : LexiconEntry} (htoken : e'.token = e.token) (hd : ks.under m (shown, e) d) :
    ks.under m' (shown', e') d := by
  obtain ⟨hdU, hposted⟩ := hd
  rw [← hsame _ (ks.kind?_posting e.token d), ← htoken] at hposted
  exact ⟨mem_postedDocs ((ks.universe_postedDocs m).parsable d hdU) hposted, hposted⟩

/-- What turned up at a string turns up after a sweep, or its entry was
reclaimed. -/
theorem Rooted.underLead_or {lead : Bytes} {string : String} (h : ks.Rooted ⟨m, none⟩)
    (hlead : ks.lexiconFrom string <+: lead) (batch : Nat) (hd : ks.underLead m lead d) :
    ks.underLead (ks.swept batch m) lead d ∨ ks.Reclaimed m string d := by
  obtain ⟨⟨shown, e⟩, hmem, hunder⟩ := hd
  obtain ⟨l, term, raw, hpre, hparse, hshown, hentry⟩ := mem_readableEntries.mp hmem
  have hkind : ks.kind? l = some 108 := ks.kind?_of_lexiconFrom (hlead.trans hpre)
  have hfound {e' : LexiconEntry} (he' : entryAt (ks.swept batch m) l = some e')
      (htoken : e'.token = e.token) : ks.underLead (ks.swept batch m) lead d :=
    ⟨(shown, e'), mem_readableEntries.mpr ⟨l, term, raw, hpre, hparse, hshown, he'⟩,
      under_of_postings (fun _ hk => h.posting_swept hk batch) htoken hunder⟩
  rcases h.entryAt_swept hkind hentry batch with ⟨hsame, -⟩ | ⟨token, hreclaims, hafter⟩
  · exact Or.inl (hfound hsame rfl)
  · by_cases htoken : token = e.token
    · exact Or.inl (hfound hafter htoken)
    · exact Or.inr ⟨l, e, token, hlead.trans hpre, hentry, hunder.2, hreclaims, htoken⟩

mutual

/-- What turned up for a query turns up after a sweep, or it was posted under
an entry that was reclaimed. -/
theorem Rooted.turnsUp_or (h : ks.Rooted ⟨m, none⟩) (batch : Nat) (d : DocKey) :
    ∀ q : Query, ks.turnsUp m q d →
      ks.turnsUp (ks.swept batch m) q d ∨ ∃ string ∈ q.strings, ks.Reclaimed m string d
  | .term t, hd => by
      rw [turnsUp] at hd ⊢
      refine (h.underLead_or (List.prefix_append _ _) batch hd).imp id fun hlost => ?_
      exact ⟨t, List.mem_singleton_self t, hlost⟩
  | .beginning lead, hd => by
      rw [turnsUp] at hd ⊢
      refine (h.underLead_or (List.prefix_refl _) batch hd).imp id fun hlost => ?_
      exact ⟨lead, List.mem_singleton_self lead, hlost⟩
  | .all children, hd => by
      rw [turnsUp] at hd ⊢
      obtain ⟨hne, hall⟩ := hd
      by_cases hlost : ∃ string ∈ Query.stringsOfAll children, ks.Reclaimed m string d
      · exact Or.inr hlost
      · refine Or.inl ⟨hne, turnsUpForAll_iff.mpr fun q hq => ?_⟩
        exact (Rooted.turnsUpFor_or h batch d children q hq
          (turnsUpForAll_iff.mp hall q hq)).resolve_right hlost
  | .any children, hd => by
      rw [turnsUp, turnsUpForAny_iff] at hd
      obtain ⟨q, hq, hfound⟩ := hd
      rw [turnsUp, turnsUpForAny_iff]
      exact (Rooted.turnsUpFor_or h batch d children q hq hfound).imp (fun hafter =>
        ⟨q, hq, hafter⟩) id

/-- So it is for each of several. -/
theorem Rooted.turnsUpFor_or (h : ks.Rooted ⟨m, none⟩) (batch : Nat) (d : DocKey) :
    ∀ qs : List Query, ∀ q ∈ qs, ks.turnsUp m q d → ks.turnsUp (ks.swept batch m) q d ∨
      ∃ string ∈ Query.stringsOfAll qs, ks.Reclaimed m string d
  | [], q, hq, _ => absurd hq List.not_mem_nil
  | q' :: qs, q, hq, hd => by
      rw [Query.stringsOfAll]
      rcases List.mem_cons.mp hq with heq | hq
      · rw [heq] at hd ⊢
        refine (Rooted.turnsUp_or h batch d q' hd).imp id fun ⟨string, hin, hlost⟩ => ?_
        exact ⟨string, List.mem_append_left _ hin, hlost⟩
      · refine (Rooted.turnsUpFor_or h batch d qs q hq hd).imp id fun ⟨string, hin, hlost⟩ => ?_
        exact ⟨string, List.mem_append_right _ hin, hlost⟩

end

end IndexKeys

-- ================================================================= courses

namespace Index

open IndexKeys Store Engine

/-- What a sweep leaves where only the index wrote under its keys, but for
entries of the lexicon that were spoiled. It does not fail as long as the
bytes that are written can be counted. Every posting stays as it was. An entry
that could be read can be read; and it has the token that it had, exactly if
no other token reclaims it, which is the last of the marked tokens that lead
back to it. And whatever a query finds before it finds afterwards, but for
documents that were posted under an entry, at one of the query's strings,
that another token has reclaimed. -/
theorem found_after_sweep {ν : Type} {dir : Path} {name : String} {earlier : Nat} {σ : Session ν}
    {s : Store}
    (hcourse : Course dir name (fun c => c.Own (ofName name) ∨ c.Spoils (ofName name)) earlier σ s)
    (hroom : earlier + s.written < UInt64.size) :
    ∃ m, s.engine.view.Reads s.toMemory m ∧ ∀ batch,
      (∀ n s', (ofName name).sweep batch s = .ok n s' → earlier + s'.written < UInt64.size →
        ∃ m', s'.engine.view.Reads s'.toMemory m' ∧
          (∀ k, (ofName name).part "i/" <+: k → m'.find? k = m.find? k) ∧
          (∀ l e, (ofName name).part "l/" <+: l → entryAt m l = some e →
            ∃ e', entryAt m' l = some e' ∧
              (e'.token = e.token ↔ ∀ token, (ofName name).Reclaims m l token → token = e.token)) ∧
          ∀ q, ∃ P P', (ofName name).Yields s.toMemory (.pinned s.engine.view) q P ∧
            (ofName name).Yields s'.toMemory (.pinned s'.engine.view) q P' ∧
            ∀ d, P d → P' d ∨ ∃ string ∈ q.strings, (ofName name).Reclaimed m string d) ∧
      ∀ e s', (ofName name).sweep batch s = .error e s' → UInt64.size ≤ earlier + s'.written := by
  obtain ⟨ops, hs, hreached⟩ := hcourse.reached hroom
  have hheld := hreached.rooted.held
  have hrooted : (ofName name).Rooted ⟨contents ops, none⟩ := hheld.1
  have hguards := guards_of_tidy
    (I := fun m => (ofName name).Rooted ⟨m, none⟩ ∧ (ofName name).Affordable m)
    (fun h => h.1.tidy) (fun h => h.2) fun h hp =>
      ⟨h.1.refreshed hp, h.2.mono (affords_of_reverse (reverse_refreshedIn h.1.back hp))⟩
  have hruns := fun batch => runs_sweep hguards batch (contents ops)
  refine ⟨contents ops, hs.reads, fun batch => ⟨fun n s' hsweep hroom' => ?_, fun e s' hsweep => ?_⟩⟩
  · obtain ⟨-, hlead⟩ := (hruns batch).ends hsweep
    obtain ⟨ops', hs', -, hswept, -⟩ := hlead hs hroom' ⟨rfl, hheld⟩
    refine ⟨contents ops', hs'.reads, fun k hk => ?_, fun l e hl he => ?_, fun q => ?_⟩
    · have hkind : (ofName name).kind? k = some 105 := kind?_of_prefix (ofName name) rfl hk
      rw [hswept]
      exact hrooted.posting_swept hkind batch
    · have hkind : (ofName name).kind? l = some 108 := kind?_of_prefix (ofName name) rfl hl
      rw [hswept]
      rcases hrooted.entryAt_swept hkind he batch with ⟨hsame, hnone⟩ |
        ⟨token, hreclaims, hafter⟩
      · exact ⟨e, hsame, fun _ token hreclaims => absurd hreclaims (hnone token), fun _ => rfl⟩
      · refine ⟨_, hafter, fun htoken token' hreclaims' => ?_, fun hall => hall token hreclaims⟩
        exact (hreclaims.unique hreclaims').trans htoken
    · refine ⟨_, _, yields_turnsUp (ReadView.reads_pinned hs.reads) q,
        yields_turnsUp (ReadView.reads_pinned hs'.reads) q, fun d hd => ?_⟩
      rw [hswept]
      exact hrooted.turnsUp_or batch d q hd
  · by_contra hroom'
    exact ((hruns batch).fails hsweep).2 hs (not_le.mp hroom') ⟨rfl, hheld⟩

/-- A document is filed, and the entry of its term is spoiled; another
document with the term is filed through another handle, so the term gets
another token; marks are swept, and the first document is taken out. -/
def spoiledCalls : List Call :=
  [.openIndex 0 ⟨1, 1⟩ 1, .update 0 none "a" "1" [⟨"x", "x", 0⟩], .sweep 0,
    .put none ((ofName "n").lexicon "x" "") [0], .openIndex 1 ⟨1, 1⟩ 5,
    .update 1 none "b" "2" [⟨"x", "x", 0⟩], .sweep 1, .remove 1 none "a"]

/-- They are the index's own, but for the one that spoils an entry. -/
theorem own_or_spoils_spoiledCalls :
    ∀ c ∈ spoiledCalls, c.Own (ofName "n") ∨ c.Spoils (ofName "n") := by decide

/-- So it is with those calls. -/
theorem found_after_sweep_spoiledCalls :
    ∃ (e : Engine) (v : Volume) (σ : Session Unit) (s s' : Store) (n : Nat) (m m' : KeyMap Bytes)
      (P P' : DocSet),
      openAt Settings.standard ["db"] 0 Volume.empty = .ok e v ∧
        Call.runAll "n" spoiledCalls .blank (opened v e) = .ok σ s ∧
        (ofName "n").sweep 1 s = .ok n s' ∧ s.engine.view.Reads s.toMemory m ∧
        s'.engine.view.Reads s'.toMemory m' ∧
        (∀ k, (ofName "n").part "i/" <+: k → m'.find? k = m.find? k) ∧
        (ofName "n").Yields s.toMemory (.pinned s.engine.view) (.term "x") P ∧
        (ofName "n").Yields s'.toMemory (.pinned s'.engine.view) (.term "x") P' ∧
        ∀ d, P d → P' d ∨ (ofName "n").Reclaimed m "x" d := by
  have hruns : ends (openAt Settings.standard ["db"] 0) Volume.empty (fun e v =>
      ends (Call.runAll "n" spoiledCalls (.blank : Session Unit)) (opened v e) fun _ s =>
        decide (s.written < UInt64.size) &&
        ends ((ofName "n").sweep 1) s fun _ s' => decide (s'.written < UInt64.size)) = true := by
    decide +kernel
  obtain ⟨e, v, hopen, hruns⟩ := of_ends hruns
  obtain ⟨σ, s, hrun, hruns⟩ := of_ends hruns
  simp only [Bool.and_eq_true, decide_eq_true_eq] at hruns
  obtain ⟨hroom, hsweep⟩ := hruns
  obtain ⟨n, s', hsweep, hroom'⟩ := of_ends hsweep
  have hzero {i : Nat} (hi : i < UInt64.size) : 0 + i < UInt64.size := by rwa [Nat.zero_add]
  have hcourse := (Course.start (vacant_empty ["db"]) hopen).calls own_or_spoils_spoiledCalls hrun
  obtain ⟨m, hreads, hswept⟩ := found_after_sweep hcourse (hzero hroom)
  obtain ⟨m', hreads', hpostings, -, hfound⟩ :=
    (hswept 1).1 n s' hsweep (hzero (of_decide_eq_true hroom'))
  obtain ⟨P, P', hbefore, hafter, hkept⟩ := hfound (.term "x")
  refine ⟨e, v, σ, s, s', n, m, m', P, P', hopen, hrun, hsweep, hreads, hreads', hpostings, hbefore,
    hafter, fun d hd => (hkept d hd).imp id fun ⟨string, hin, hlost⟩ => ?_⟩
  rwa [List.mem_singleton.mp hin] at hlost

/-- After those calls the term finds the second document before a sweep, and
nothing after it. -/
theorem lost_by_sweep :
    (∀ c ∈ spoiledCalls, c.Own (ofName "n") ∨ c.Spoils (ofName "n")) ∧
      ∃ (e : Engine) (v : Volume) (σ : Session Unit) (s s' : Store) (n : Nat),
        openAt Settings.standard ["db"] 0 Volume.empty = .ok e v ∧
          Call.runAll "n" spoiledCalls .blank (opened v e) = .ok σ s ∧
          (ofName "n").sweep 1 s = .ok n s' ∧
          (ofName "n").searchDocIds s.toMemory (.pinned s.engine.view) (.term "x") 2 = .ok ["b"] ∧
          (ofName "n").searchDocIds s'.toMemory (.pinned s'.engine.view) (.term "x") 2 = .ok [] := by
  have hruns : ends (openAt Settings.standard ["db"] 0) Volume.empty (fun e v =>
      ends (Call.runAll "n" spoiledCalls (.blank : Session Unit)) (opened v e) fun _ s =>
        decide ((ofName "n").searchDocIds s.toMemory (.pinned s.engine.view) (.term "x") 2
          = .ok ["b"]) &&
        ends ((ofName "n").sweep 1) s fun _ s' =>
          decide ((ofName "n").searchDocIds s'.toMemory (.pinned s'.engine.view) (.term "x") 2
            = .ok [])) = true := by
    decide +kernel
  obtain ⟨e, v, hopen, hruns⟩ := of_ends hruns
  obtain ⟨σ, s, hrun, hruns⟩ := of_ends hruns
  simp only [Bool.and_eq_true, decide_eq_true_eq] at hruns
  obtain ⟨hbefore, hsweep⟩ := hruns
  obtain ⟨n, s', hsweep, hafter⟩ := of_ends hsweep
  exact ⟨own_or_spoils_spoiledCalls, e, v, σ, s, s', n, hopen, hrun, hsweep, hbefore,
    of_decide_eq_true hafter⟩

end Index

end OrderedStore
