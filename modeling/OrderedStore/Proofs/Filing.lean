/-
Filing a document anew.

To file a document is to take the postings away that are listed under it,
to put one for each of its new terms, and to list those. A map on which
that was carried out holds the documents that it held, with what the index
was told of this one (`Posted.refile`). Tokens may be given on the way: what
is posted depends on them only as far as they are kept (`Posted.congr`).
-/
import Mathlib
import OrderedStore.Proofs.Tokens

namespace OrderedStore

namespace IndexKeys

variable {ks : IndexKeys} {m m' : KeyMap Bytes} {docs : Documents}

-- =============================================================== replacing

/-- A document that files a term of a token has a parsable key. -/
theorem Posted.parsable_of_files (hp : ks.Posted m docs) {token : UInt64} {d : DocKey}
    (h : ks.Files m docs token d) : d.Parsable := by
  obtain ⟨f, hf, hkey, -⟩ := h
  unfold DocKey.Parsable
  rw [← hkey]
  exact (hp.plain hf).1

/-- Where tokens are kept, the documents' terms have the tokens that they
had. -/
theorem Posted.files_congr (hp : ks.Posted m docs)
    (hkeeps : ∀ {term raw token}, ks.tokenIn m term raw = some token →
      ks.tokenIn m' term raw = some token) (token : UInt64) (d : DocKey) :
    ks.Files m' docs token d ↔ ks.Files m docs token d := by
  constructor
  · rintro ⟨f, hf, hkey, t, ht, htoken⟩
    obtain ⟨token', htoken'⟩ := Option.isSome_iff_exists.mp (hp.tokens hf t ht)
    have hsame := hkeeps htoken'
    unfold tokenFor at htoken
    rw [hsame] at htoken
    cases htoken
    exact ⟨f, hf, hkey, t, ht, htoken'⟩
  · rintro ⟨f, hf, hkey, t, ht, htoken⟩
    exact ⟨f, hf, hkey, t, ht, hkeeps htoken⟩

/-- What an index holds depends on its postings and its documents' lists,
as long as tokens are kept. -/
theorem Posted.congr (hp : ks.Posted m docs)
    (hkeeps : ∀ {term raw token}, ks.tokenIn m term raw = some token →
      ks.tokenIn m' term raw = some token)
    (hpost : ∀ k, ks.kind? k = some 105 → m'.find? k = m.find? k)
    (hlist : ∀ docId, m'.find? (ks.document docId) = m.find? (ks.document docId)) :
    ks.Posted m' docs := by
  refine ⟨hp.plain, fun hf t ht => ?_, fun k v hk hkind => ?_, fun token d hd => ?_,
    fun docId k => ?_, fun docId bytes hbytes => hp.ordered docId bytes (hlist docId ▸ hbytes)⟩
  · obtain ⟨token, htoken⟩ := Option.isSome_iff_exists.mp (hp.tokens hf t ht)
    exact Option.isSome_iff_exists.mpr ⟨token, hkeeps htoken⟩
  · rw [hpost k hkind] at hk
    exact hp.shaped k v hk hkind
  · rw [hpost _ (ks.kind?_posting token d), hp.posted token d hd, hp.files_congr hkeeps]
  · have hsame : ks.listedIn m' docId = ks.listedIn m docId := by
      unfold listedIn
      rw [hlist]
    rw [hsame, hp.listed]
    simp only [hp.files_congr hkeeps]

section Refile

variable {docId : String} {filing : Option Filing} {fresh : List Bytes}

/-- The index after a document was filed anew, or was taken out: `fresh`
are the postings of what was filed, and they stand in the place of those
that were listed under the document. -/
theorem Posted.refile (hp : ks.Posted m docs)
    (hkeeps : ∀ {term raw token}, ks.tokenIn m term raw = some token →
      ks.tokenIn m' term raw = some token)
    (hplain : ∀ f, filing = some f → Plain f.sortKey ∧ ∀ t ∈ f.terms, Plain t.index)
    (htokens : ∀ f, filing = some f → ∀ t ∈ f.terms, (ks.tokenFor m' t).isSome = true)
    (hfresh : ∀ k, k ∈ fresh ↔ ∃ token d, d.docId = docId ∧ k = ks.posting token d ∧
      ks.Files m' (Function.update docs docId filing) token d)
    (hpost : ∀ k, ks.kind? k = some 105 → m'.find? k
      = if k ∈ fresh then some [] else if k ∈ ks.listedIn m docId then none else m.find? k)
    (hlist : ∀ other, other ≠ docId → m'.find? (ks.document other) = m.find? (ks.document other))
    (hself : ks.listedIn m' docId = fresh)
    (hordered : ∀ bytes, m'.find? (ks.document docId) = some bytes → Listing bytes) :
    ks.Posted m' (Function.update docs docId filing) := by
  -- what is filed under the other documents, and under this one
  have hother {other : String} (hne : other ≠ docId) :
      Function.update docs docId filing other = docs other := Function.update_of_ne hne _ _
  have hthis : Function.update docs docId filing docId = filing := Function.update_self _ _ _
  have hplain' {other : String} {f : Filing}
      (hf : Function.update docs docId filing other = some f) :
      Plain f.sortKey ∧ ∀ t ∈ f.terms, Plain t.index := by
    by_cases hne : other = docId
    · rw [hne, hthis] at hf
      exact hplain f hf
    · rw [hother hne] at hf
      exact hp.plain hf
  have hfiles {token : UInt64} {d : DocKey} (hne : d.docId ≠ docId) :
      ks.Files m' (Function.update docs docId filing) token d ↔ ks.Files m docs token d := by
    rw [← hp.files_congr hkeeps]
    unfold Files
    rw [hother hne]
  have hparse {token : UInt64} {d : DocKey}
      (h : ks.Files m' (Function.update docs docId filing) token d) : d.Parsable := by
    obtain ⟨f, hf, hkey, -⟩ := h
    unfold DocKey.Parsable
    rw [← hkey]
    exact (hplain' hf).1
  refine ⟨hplain', fun {other f} hf t ht => ?_, fun k v hk hkind => ?_, fun token d hd => ?_,
    fun other k => ?_, fun other bytes hbytes => ?_⟩
  · by_cases hne : other = docId
    · rw [hne, hthis] at hf
      exact htokens f hf t ht
    · rw [hother hne] at hf
      obtain ⟨token, htoken⟩ := Option.isSome_iff_exists.mp (hp.tokens hf t ht)
      exact Option.isSome_iff_exists.mpr ⟨token, hkeeps htoken⟩
  · rw [hpost k hkind] at hk
    split at hk
    · next hin =>
        obtain ⟨token, d, -, hk, hfile⟩ := (hfresh k).mp hin
        exact ⟨token, d, hparse hfile, hk⟩
    · split at hk
      · cases hk
      · exact hp.shaped k v hk hkind
  · rw [hpost _ (ks.kind?_posting token d)]
    by_cases hne : d.docId = docId
    · by_cases hin : ks.posting token d ∈ fresh
      · rw [if_pos hin]
        obtain ⟨token', e, -, hk, hfile⟩ := (hfresh _).mp hin
        obtain ⟨rfl, rfl⟩ := posting_inj_parsable hd (hparse hfile) hk
        exact ⟨fun _ => hfile, fun _ => rfl⟩
      · rw [if_neg hin]
        have hnot : ¬ks.Files m' (Function.update docs docId filing) token d :=
          fun hfile => hin ((hfresh _).mpr ⟨token, d, hne, rfl, hfile⟩)
        refine ⟨fun hsome => ?_, fun hfile => absurd hfile hnot⟩
        split at hsome
        · cases hsome
        · next hlisted =>
            have hfile := (hp.posted token d hd).mp hsome
            exact absurd ((hp.listed docId _).mpr ⟨token, d, hne, rfl, hfile⟩) hlisted
    · have hnotfresh : ks.posting token d ∉ fresh := by
        intro hin
        obtain ⟨token', e, he, hk, hfile⟩ := (hfresh _).mp hin
        obtain ⟨-, rfl⟩ := posting_inj_parsable hd (hparse hfile) hk
        exact hne he
      have hnotlisted : ks.posting token d ∉ ks.listedIn m docId := by
        intro hin
        obtain ⟨token', e, he, hk, hfile⟩ := (hp.listed docId _).mp hin
        obtain ⟨-, rfl⟩ := posting_inj_parsable hd (hp.parsable_of_files hfile) hk
        exact hne he
      rw [if_neg hnotfresh, if_neg hnotlisted, hp.posted token d hd, hfiles hne]
  · by_cases hne : other = docId
    · rw [hne, hself]
      exact hfresh k
    · have hsame : ks.listedIn m' other = ks.listedIn m other := by
        unfold listedIn
        rw [hlist other hne]
      rw [hsame, hp.listed]
      constructor
      · rintro ⟨token, d, hd, hk, hfile⟩
        exact ⟨token, d, hd, hk, (hfiles (by rwa [hd])).mpr hfile⟩
      · rintro ⟨token, d, hd, hk, hfile⟩
        exact ⟨token, d, hd, hk, (hfiles (by rwa [hd])).mp hfile⟩
  · by_cases hne : other = docId
    · rw [hne] at hbytes
      exact hordered bytes hbytes
    · rw [hlist other hne] at hbytes
      exact hp.ordered other bytes hbytes

end Refile

end IndexKeys

end OrderedStore
