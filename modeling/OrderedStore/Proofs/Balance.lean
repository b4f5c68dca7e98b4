/-
The counts of the lexicon are in balance with the postings.

They are if each entry has the count of its postings or its token is marked
to be counted, and if every transaction that has postings pending has the
marks of their tokens pending (`Balanced`). While a document is filed this
fails for the tokens that it has or gets, until they are marked, which is
done last. So the balance is stated with the tokens that are excepted: to
write an entry keeps it if the entry is no posting or one of an excepted
token (`Balanced.write`), to give tokens keeps it, as the new ones have no
postings (`Balanced.given`), and what is marked need no longer be excepted
(`Balanced.settled`). A sweep takes a mark away only where the count is right
by then (`Balanced.refreshed`).
-/
import Mathlib
import OrderedStore.Proofs.Tidiness

namespace OrderedStore

namespace IndexKeys

variable {ks : IndexKeys} {m m' : KeyMap Bytes} {term raw : String} {k : Bytes}
  {K : UInt64 → Prop} {σ : Slate} {w : Bytes × Entry} {token : UInt64}

-- ================================================================== balance

/-- The counts of the lexicon are in balance with the postings, but for the
excepted tokens: each entry has the count of its postings, or its token is
marked, and where postings are pending the marks of their tokens are. -/
structure Balanced (ks : IndexKeys) (G : UInt64 → Prop) (σ : Slate) : Prop where
  paired : ks.Paired σ.held
  tidy : ks.Tidy (ks.Given σ.held) σ
  tally : ∀ {k} {e : LexiconEntry}, σ.held.find? k = some e.encode → ks.kind? k = some 108 →
    (σ.pending = none ∧ G e.token) ∨ (σ.held.find? (ks.mark e.token)).isSome = true ∨
      e.count = UInt64.ofNat (ks.countIn σ.held e.token)
  covered : ∀ {p k e token}, σ.pending = some p → p.find? k = some e → ks.postings token <+: k →
    G token ∨ (p.find? (ks.mark token)).isSome = true

variable {G G' : UInt64 → Prop}

/-- More tokens may be excepted. -/
theorem Balanced.mono (h : ks.Balanced G σ) (hG : ∀ token, G token → G' token) :
    ks.Balanced G' σ :=
  ⟨h.paired, h.tidy, fun he hk => (h.tally he hk).imp (fun hin => ⟨hin.1, hG _ hin.2⟩) id,
    fun hp he hk => (h.covered hp he hk).imp (hG _) id⟩

/-- An entry may be written that is proper, if it is no posting or one of an
excepted token. -/
theorem Balanced.write (h : ks.Balanced G σ) (hw : ks.Proper (ks.Given σ.held) w)
    (hG : ∀ token, ks.postings token <+: w.1 → G token) : ks.Balanced G (σ.write w) := by
  have hlexical := hw.lexical_write (σ := σ)
  refine ⟨h.paired.congr hlexical, (given_eq hlexical).symm ▸ h.tidy.write hw, ?_, ?_⟩
  · intro k e he hk
    rw [hlexical k (Or.inl hk)] at he
    obtain ⟨m, pending⟩ := σ
    cases pending with
    | some p => exact Or.inr ((h.tally he hk).resolve_left fun hin => nomatch hin.1)
    | none =>
        by_cases hpost : ks.postings e.token <+: w.1
        · exact Or.inl ⟨rfl, hG _ hpost⟩
        · refine (h.tally he hk).imp id (Or.imp (fun hmark => ?_) fun hcount => ?_)
          · show ((m.write (w.1, w.2)).find? _).isSome = true
            rw [KeyMap.find?_write]
            split
            · next heq =>
                obtain ⟨token, -, -, hput⟩ := hw.mark (heq ▸ ks.kind?_mark e.token)
                cases hv : w.2 with
                | tombstone => exact absurd hv hput
                | value v => rfl
            · exact hmark
          · rw [hcount]
            refine congrArg UInt64.ofNat (countIn_congr fun l hl => ?_).symm
            rw [find?_held_write (σ := ⟨m, none⟩) fun heq => hpost (heq ▸ hl)]
  · intro p k e token hp he hk
    obtain ⟨m, pending⟩ := σ
    cases pending with
    | none => cases hp
    | some p₀ =>
        cases hp
        rw [KeyMap.find?_insert] at he
        split at he
        · next heq => exact Or.inl (hG token (heq ▸ hk))
        · refine (h.covered rfl he hk).imp id fun hmark => ?_
          rw [KeyMap.find?_insert]
          split
          · rfl
          · exact hmark

/-- So may several. -/
theorem Balanced.writes {ws : List (Bytes × Entry)} (h : ks.Balanced G σ)
    (hws : ∀ w ∈ ws, ks.Proper (ks.Given σ.held) w)
    (hG : ∀ w ∈ ws, ∀ token, ks.postings token <+: w.1 → G token) :
    ks.Balanced G (σ.writes ws) := by
  induction ws generalizing σ with
  | nil => exact h
  | cons w ws ih =>
      have hw := hws w List.mem_cons_self
      refine ih (h.write hw (hG w List.mem_cons_self)) (fun w' hw' => ?_)
        fun w' hw' => hG w' (List.mem_cons_of_mem _ hw')
      rw [given_eq hw.lexical_write]
      exact hws w' (List.mem_cons_of_mem _ hw')

/-- A token that was not given has no postings. -/
theorem Balanced.countIn_eq_zero (h : ks.Balanced G σ) (hfresh : ¬ks.Given σ.held token) :
    ks.countIn σ.held token = 0 := by
  refine List.length_eq_zero_iff.mpr (KeyMap.beginning_eq_nil.mpr fun k hk => ?_)
  cases hv : σ.held.find? k with
  | none => rfl
  | some v =>
      have hkind := kind?_of_postings hk
      have hproper := h.tidy.held hv (by unfold Lexical; rw [hkind]; simp)
      exact absurd (token_of_posts (hproper.posting hkind) hk) hfresh

/-- A term may get a token, if there is room for its keys: it has no postings
yet. -/
theorem Balanced.given (h : ks.Balanced G σ) (hroom : ks.Room (ks.given σ.held term raw)) :
    ks.Balanced G ⟨ks.given σ.held term raw, σ.pending⟩ := by
  have hgrown := ks.grown_given σ.held term raw
  refine ⟨h.paired.given_token hroom,
    (h.tidy.grown hgrown).mono fun token => isSome_given ks σ.held term raw, ?_, h.covered⟩
  intro k e he hk
  have hsame {l : Bytes} {kind : UInt8} (hl : ks.kind? l = some kind)
      (hkind : kind ≠ 108 ∧ kind ≠ 109 ∧ kind ≠ 114) :
      (ks.given σ.held term raw).find? l = σ.held.find? l := by
    refine hgrown.rest l ?_
    unfold Lexical
    rw [hl]
    simp [hkind]
  have hcount (token : UInt64) :
      ks.countIn (ks.given σ.held term raw) token = ks.countIn σ.held token :=
    countIn_congr fun l hl => congrArg _ (hsame (kind?_of_postings hl) (by decide))
  have hold (he : σ.held.find? k = some e.encode) :
      (σ.pending = none ∧ G e.token) ∨
        ((ks.given σ.held term raw).find? (ks.mark e.token)).isSome = true ∨
        e.count = UInt64.ofNat (ks.countIn (ks.given σ.held term raw) e.token) := by
    rw [hsame (ks.kind?_mark e.token) (by decide), hcount]
    exact h.tally he hk
  cases ht : ks.tokenIn σ.held term raw with
  | some token =>
      change (ks.given σ.held term raw).find? k = _ at he
      rw [given_of_tokenIn ht] at he
      exact hold he
  | none =>
      change (ks.given σ.held term raw).find? k = _ at he
      rw [given_of_none ht, find?_minted, if_neg (ks.ne_of_kind? (by rw [hk]; simp))] at he
      split at he
      · obtain rfl := LexiconEntry.encode_injective (Option.some.inj he)
        refine Or.inr (Or.inr ?_)
        rw [hcount, h.countIn_eq_zero]
        · rfl
        · rw [h.paired.given, ks.toNat_fresh]
          omega
      · rw [if_neg (ks.ne_of_kind? (by rw [hk]; simp))] at he
        exact hold he

/-- So may several terms. -/
theorem Balanced.give (h : ks.Balanced G σ) (terms : List Term)
    (hroom : ks.Room (ks.givenAll σ.held terms)) : ks.Balanced G (σ.give ks terms) := by
  induction terms generalizing σ with
  | nil => exact h
  | cons t terms ih =>
      exact ih (h.given (hroom.mono fun k _ => isSome_givenAll ks terms)) hroom

/-- A token is marked where entries are written. -/
def Marked (ks : IndexKeys) (σ : Slate) (token : UInt64) : Prop :=
  match σ.pending with
  | none => (σ.held.find? (ks.mark token)).isSome = true
  | some p => (p.find? (ks.mark token)).isSome = true

/-- A mark that is put is there from then on. -/
theorem Marked.write (hw : ks.Proper K w) (h : w.1 = ks.mark token ∨ ks.Marked σ token) :
    ks.Marked (σ.write w) token := by
  obtain ⟨m, pending⟩ := σ
  cases pending with
  | none =>
      show ((m.write (w.1, w.2)).find? _).isSome = true
      rw [KeyMap.find?_write]
      split
      · next heq =>
          obtain ⟨-, -, -, hput⟩ := hw.mark (heq ▸ ks.kind?_mark token)
          cases hv : w.2 with
          | tombstone => exact absurd hv hput
          | value v => rfl
      · next hne => exact h.resolve_left fun heq => hne heq.symm
  | some p =>
      show ((p.insert w.1 w.2).find? _).isSome = true
      rw [KeyMap.find?_insert]
      split
      · rfl
      · next hne => exact h.resolve_left fun heq => hne heq.symm

/-- So it is if it is put among other entries. -/
theorem Marked.writes {ws : List (Bytes × Entry)} (hws : ∀ w ∈ ws, ks.Proper K w)
    (h : (∃ w ∈ ws, w.1 = ks.mark token) ∨ ks.Marked σ token) :
    ks.Marked (σ.writes ws) token := by
  induction ws generalizing σ with
  | nil =>
      rcases h with ⟨w, hw, -⟩ | h
      · exact absurd hw List.not_mem_nil
      · exact h
  | cons w ws ih =>
      have hfirst := hws w List.mem_cons_self
      refine ih (fun w' hw' => hws w' (List.mem_cons_of_mem _ hw')) ?_
      rcases h with ⟨w', hw', heq⟩ | h
      · rcases List.mem_cons.mp hw' with rfl | hw'
        · exact Or.inr (Marked.write hfirst (Or.inl heq))
        · exact Or.inl ⟨w', hw', heq⟩
      · exact Or.inr (Marked.write hfirst (Or.inr h))

/-- Tokens that are marked need not be excepted any more. -/
theorem Balanced.settled (h : ks.Balanced G σ) (hmarked : ∀ token, G token → ks.Marked σ token) :
    ks.Balanced (fun _ => False) σ := by
  refine ⟨h.paired, h.tidy, fun {k e} he hk => ?_, fun {p k e token} hp he hk => ?_⟩
  · refine Or.inr ((h.tally he hk).elim (fun hin => Or.inl ?_) id)
    have hmark := hmarked e.token hin.2
    unfold Marked at hmark
    rw [hin.1] at hmark
    exact hmark
  · refine Or.inr ((h.covered hp he hk).elim (fun hin => ?_) id)
    have hmark := hmarked token hin
    unfold Marked at hmark
    rw [hp] at hmark
    exact hmark

section Steps

open Index

variable {docId sortKey : String} {terms : List Term} {stamp : UInt64}

/-- The balance is kept when a document is filed, or taken out. -/
theorem Balanced.refiled (h : ks.Balanced (fun _ => False) σ)
    (hsize : listingBound ks ⟨cleanSortKey sortKey, docId⟩ terms.length < UInt64.size)
    (hroom : ks.Room (refiled ks σ docId sortKey terms stamp).held) :
    ks.Balanced (fun _ => False) (refiled ks σ docId sortKey terms stamp) := by
  unfold Index.refiled at hroom ⊢
  -- the tokens that the document has, and those that it gets
  let gone := listedTokens ks σ.seen docId
  let tokens := ks.tokensIn (begun ks σ docId terms).held terms
  have hcleared : ks.Balanced (fun token => token ∈ gone ++ tokens)
      (σ.writes (cleared ks σ.seen docId)) := by
    refine (h.mono fun _ => False.elim).writes (h.tidy.proper_cleared docId)
      fun w hw token hk => List.mem_append_left _ ?_
    obtain ⟨k, hk', rfl⟩ := List.mem_map.mp hw
    obtain ⟨token', d, -, rfl, -⟩ := h.tidy.listed docId k hk'
    obtain rfl := ks.token_of_prefix hk
    exact List.mem_filterMap.mpr ⟨_, hk', ks.postingToken?_posting token d⟩
  have hbegun : ks.Balanced (fun token => token ∈ gone ++ tokens) (begun ks σ docId terms) := by
    refine hcleared.give terms (hroom.mono fun k hk hsome => ?_)
    rw [lexical_writes not_lexical_filed hk]
    exact hsome
  -- both were given by then
  have hgiven : ∀ token ∈ gone ++ tokens, ks.Given (begun ks σ docId terms).held token := by
    intro token htoken
    rcases List.mem_append.mp htoken with hgone | hnew
    · have hcong : ks.Given (σ.writes (cleared ks σ.seen docId)).held = ks.Given σ.held :=
        given_eq fun k hk => lexical_writes
          (fun w hw => (h.tidy.proper_cleared docId w hw).apart) hk
      refine isSome_givenAll ks terms ?_
      have hheld : ks.Given σ.held token := h.tidy.of_listedTokens hgone
      rw [← hcong] at hheld
      exact hheld
    · obtain ⟨t, -, ht⟩ := List.mem_filterMap.mp hnew
      exact hbegun.paired.isGiven ht
  have hfiled : ∀ w ∈ filed ks docId sortKey gone tokens stamp,
      ks.Proper (ks.Given (begun ks σ docId terms).held) w := by
    refine proper_filed (lt_of_le_of_lt ?_ hsize) hgiven
    exact Nat.add_le_add_left (Nat.mul_le_mul_right _ (List.length_filterMap_le _ _)) 8
  refine (hbegun.writes hfiled fun w hw token hk =>
    List.mem_append_right _ (mem_of_filed hw hk)).settled fun token htoken => ?_
  refine Marked.writes hfiled (Or.inl ⟨(ks.mark token, .value (Codec.fixed64 stamp)), ?_, rfl⟩)
  exact List.mem_append_right _ (List.mem_map.mpr ⟨token, mem_sortTokens.mpr htoken, rfl⟩)

end Steps

/-- The balance is kept when a transaction makes its writes. -/
theorem Balanced.laid {m : KeyMap Bytes} {p : Pending}
    (h : ks.Balanced (fun _ => False) ⟨m, some p⟩) :
    ks.Balanced (fun _ => False) ⟨m.laid p, none⟩ := by
  have hlexical := h.tidy.lexical_laid
  refine ⟨h.paired.congr hlexical, (given_eq hlexical).symm ▸ h.tidy.laid, ?_, nofun⟩
  intro k e he hk
  change (m.laid p).find? k = _ at he
  rw [hlexical k (Or.inl hk)] at he
  refine Or.inr ?_
  show ((m.laid p).find? _).isSome = true ∨ _ = UInt64.ofNat (ks.countIn (m.laid p) _)
  cases hmark : p.find? (ks.mark e.token) with
  | some put =>
      -- the mark is pending, and goes with the postings
      left
      obtain ⟨-, -, -, hput⟩ := (h.tidy.pending rfl hmark).mark (ks.kind?_mark e.token)
      rw [KeyMap.find?_laid, hmark]
      cases put with
      | tombstone => exact absurd rfl hput
      | value v => rfl
  | none =>
      have hunmarked : (m.laid p).find? (ks.mark e.token) = m.find? (ks.mark e.token) := by
        rw [KeyMap.find?_laid, KeyMap.find?_or_entry, hmark]
      have hcount : ks.countIn (m.laid p) e.token = ks.countIn m e.token := by
        refine countIn_congr fun l hl => ?_
        rw [KeyMap.find?_laid, KeyMap.find?_or_entry]
        cases hl' : p.find? l with
        | none => rfl
        | some e' =>
            have hsome := (h.covered rfl hl' hl).resolve_left id
            rw [hmark] at hsome
            cases hsome
      rw [hunmarked, hcount]
      exact (h.tally he hk).resolve_left fun hin => hin.2

/-- What is pending elsewhere does not depend on what is held, as long as its
tokens are given. -/
theorem Balanced.moved {m : KeyMap Bytes} {p : Pending}
    (h : ks.Balanced (fun _ => False) ⟨m, some p⟩) (h' : ks.Balanced (fun _ => False) ⟨m', none⟩)
    (hgiven : ∀ token, ks.Given m token → ks.Given m' token) :
    ks.Balanced (fun _ => False) ⟨m', some p⟩ :=
  ⟨h'.paired, h.tidy.moved h'.tidy hgiven,
    fun he hk => Or.inr ((h'.tally he hk).resolve_left fun hin => hin.2), h.covered⟩

/-- With nothing pending in it a transaction is in balance. -/
theorem Balanced.opened {m : KeyMap Bytes} (h : ks.Balanced (fun _ => False) ⟨m, none⟩) :
    ks.Balanced (fun _ => False) ⟨m, some .empty⟩ :=
  ⟨h.paired, h.tidy.opened,
    fun he hk => Or.inr ((h.tally he hk).resolve_left fun hin => hin.2),
    fun hp he _ => by cases hp; rw [KeyMap.find?_empty] at he; cases he⟩

-- =================================================================== sweeps

section Sweeps

variable {p : Bytes × Bytes} {l : Bytes}

/-- The token of a mark. -/
theorem parseMark?_mark (ks : IndexKeys) (token : UInt64) :
    ks.parseMark? (ks.mark token) = some token := by
  have hafter : ks.afterPart? "ti/" (ks.mark token) = some (Codec.ordered token ++ []) := by
    unfold afterPart? mark marks
    rw [Bytes.after?_append, List.append_nil]
  unfold parseMark?
  rw [hafter]
  simp only [Option.bind_eq_bind, Option.bind_some, Codec.readOrdered_ordered]

/-- An entry may be written anew with another count. -/
theorem Paired.recounted (h : ks.Paired m) (hback : m.find? (ks.reverse token) = some l)
    (count : UInt64) :
    ks.Paired (m.write (l, .value (LexiconEntry.encode ⟨token, count⟩))) := by
  obtain ⟨hk, -⟩ := h.back hback
  have hother {k : Bytes} {kind : UInt8} (hkind : ks.kind? k = some kind) (hne : kind ≠ 108) :
      (m.write (l, .value (LexiconEntry.encode ⟨token, count⟩))).find? k = m.find? k := by
    rw [KeyMap.find?_write, if_neg (ks.ne_of_kind? (by rw [hkind, hk]; simpa using hne))]
  have hreverse (token' : UInt64) := hother (ks.kind?_reverse token') (by decide)
  have hnext : ks.nextIn (m.write (l, .value (LexiconEntry.encode ⟨token, count⟩)))
      = ks.nextIn m := by
    unfold nextIn
    rw [hother ks.kind?_nextToken (by decide)]
  refine ⟨fun {k v} hv hkind => ?_, fun {token' l'} hl' => ?_, fun token' => ?_, hnext ▸ h.next⟩
  · rw [KeyMap.find?_write] at hv
    split at hv
    · next heq =>
        cases hv
        exact ⟨_, rfl, by rw [hreverse, hback, heq]⟩
    · obtain ⟨e, rfl, hfound⟩ := h.entry hv hkind
      exact ⟨e, rfl, (hreverse _).trans hfound⟩
  · rw [hreverse] at hl'
    obtain ⟨hk', count', hentry⟩ := h.back hl'
    refine ⟨hk', ?_⟩
    rw [KeyMap.find?_write]
    split
    · next heq =>
        -- the entry leads back to one token only
        rw [heq, (h.back hback).2.choose_spec] at hentry
        have hsame := LexiconEntry.encode_injective (Option.some.inj hentry)
        exact ⟨count, by rw [(LexiconEntry.mk.inj hsame).1]; rfl⟩
    · exact ⟨count', hentry⟩
  · rw [hnext, ← h.given]
    unfold Given
    rw [hreverse]

section Frame

variable (hback : ∀ {token l}, m.find? (ks.reverse token) = some l → ks.kind? l = some 108)
  (hp : ks.marks <+: p.1)

include hback

/-- Where tokens lead back to the lexicon a refreshing changes nothing but an
entry of the lexicon and its own mark. -/
theorem find?_refreshedIn (hk : ks.kind? k ≠ some 108) (hne : k ≠ p.1) :
    (ks.refreshedIn m p).find? k = m.find? k := by
  rcases refreshedIn_cases ks m p with ⟨-, -, heq⟩ | ⟨-, heq⟩ | ⟨token, l, bytes, hrecounts, heq⟩
  · rw [heq]
  · rw [heq, KeyMap.find?_write, if_neg hne]
  · rw [heq, KeyMap.find?_write, if_neg, KeyMap.find?_write, if_neg hne]
    rintro rfl
    exact hk (hback hrecounts.back)

include hp

/-- So tokens lead back where they did. -/
theorem reverse_refreshedIn (token : UInt64) :
    (ks.refreshedIn m p).find? (ks.reverse token) = m.find? (ks.reverse token) := by
  refine find?_refreshedIn hback ?_ fun heq => not_marks_reverse ks token (heq ▸ hp)
  rw [ks.kind?_reverse]
  simp

/-- The same tokens are given. -/
theorem given_refreshedIn : ks.Given (ks.refreshedIn m p) = ks.Given m := by
  funext token
  unfold Given
  rw [reverse_refreshedIn hback hp]

/-- And what was tidy is. -/
theorem Tidy.refreshed (h : ks.Tidy (ks.Given m) ⟨m, none⟩) :
    ks.Tidy (ks.Given (ks.refreshedIn m p)) ⟨ks.refreshedIn m p, none⟩ := by
  rw [given_refreshedIn hback hp]
  refine ⟨fun {k v} hv hk => ?_, nofun⟩
  by_cases hmark : k = p.1
  · -- a mark that is still there is a mark of a token
    have hsome : (m.find? k).isSome = true := isSome_of_refreshedIn (p := p) (by rw [hv]; rfl)
    obtain ⟨u, hu⟩ := Option.isSome_iff_exists.mp hsome
    obtain ⟨token, hk', htoken, -⟩ := (h.held hu hk).mark (hmark ▸ kind?_of_marks hp)
    obtain rfl : k = ks.mark token := hk'
    exact proper_mark htoken v
  · change (ks.refreshedIn m p).find? k = _ at hv
    rw [find?_refreshedIn hback (fun hkind => hk (Or.inl hkind)) hmark] at hv
    exact h.held hv hk

end Frame

/-- A mark is not of the lexicon. -/
theorem not_lexical_of_marks (hp : ks.marks <+: p.1) : ¬ks.Lexical p.1 := by
  unfold Lexical
  rw [kind?_of_marks hp]
  simp

/-- The lexicon stays paired when a mark is refreshed. -/
theorem Paired.refreshed (h : ks.Paired m) (hp : ks.marks <+: p.1) :
    ks.Paired (ks.refreshedIn m p) := by
  have hcleared : ks.Paired (m.write (p.1, .tombstone)) := by
    refine h.congr fun k hk => ?_
    rw [KeyMap.find?_write, if_neg]
    rintro rfl
    exact not_lexical_of_marks hp hk
  rcases refreshedIn_cases ks m p with ⟨-, -, heq⟩ | ⟨-, heq⟩ | ⟨token, l, bytes, hrecounts, heq⟩
  · rwa [heq]
  · rwa [heq]
  · rw [heq]
    refine hcleared.recounted ?_ _
    have hne : ks.reverse token ≠ p.1 := fun heq => not_marks_reverse ks token (heq ▸ hp)
    rw [KeyMap.find?_write, if_neg hne]
    exact hrecounts.back

/-- The token of an entry leads back to it. -/
theorem Paired.back_of_entry (h : ks.Paired m) {e : LexiconEntry} (he : m.find? k = some e.encode)
    (hk : ks.kind? k = some 108) : m.find? (ks.reverse e.token) = some k := by
  obtain ⟨e', heq, hback⟩ := h.entry he hk
  rwa [LexiconEntry.encode_injective heq]

/-- A refreshing keeps the balance: where it takes a mark away, the entry has
the count by then. -/
theorem Balanced.refreshed (h : ks.Balanced (fun _ => False) ⟨m, none⟩) (hp : ks.marks <+: p.1) :
    ks.Balanced (fun _ => False) ⟨ks.refreshedIn m p, none⟩ := by
  have hback {token : UInt64} {l : Bytes} (hl : m.find? (ks.reverse token) = some l) :=
    (h.paired.back hl).1
  refine ⟨h.paired.refreshed hp, h.tidy.refreshed hback hp, fun {k e} he hk => Or.inr ?_, nofun⟩
  change (ks.refreshedIn m p).find? k = _ at he
  have hcount (token : UInt64) : ks.countIn (ks.refreshedIn m p) token = ks.countIn m token :=
    countIn_of_marks (fun l hl => isSome_refreshedIn (ne_of_marks hp hl)) token
  have hne : k ≠ p.1 := ks.ne_of_kind? (by rw [hk, kind?_of_marks hp]; simp)
  -- an entry whose mark is another one is as it was
  have hkeep (he : m.find? k = some e.encode) (hmark : ks.mark e.token ≠ p.1) :
      ((ks.refreshedIn m p).find? (ks.mark e.token)).isSome = true ∨
        e.count = UInt64.ofNat (ks.countIn (ks.refreshedIn m p) e.token) := by
    rw [find?_refreshedIn hback (by rw [ks.kind?_mark]; simp) hmark, hcount]
    exact (h.tally he hk).resolve_left fun hin => hin.2
  rcases refreshedIn_cases ks m p with ⟨-, -, heq⟩ | ⟨hcounted, heq⟩ |
    ⟨token, l, bytes, hrecounts, heq⟩
  · rw [heq] at he ⊢
    exact (h.tally he hk).resolve_left fun hin => hin.2
  · rw [heq, KeyMap.find?_write, if_neg hne] at he
    by_cases hmark : ks.mark e.token = p.1
    · right
      have hentry := hcounted e.token k e.encode (hmark ▸ parseMark?_mark ks e.token)
        (h.paired.back_of_entry he hk) he
      unfold entryOr at hentry
      rw [LexiconEntry.decode_encode] at hentry
      rw [hcount]
      exact congrArg LexiconEntry.count hentry
    · exact hkeep he hmark
  · rw [heq, KeyMap.find?_write] at he
    split at he
    · obtain rfl := LexiconEntry.encode_injective (Option.some.inj he)
      right
      rw [hcount]
      rfl
    · next hl =>
        rw [KeyMap.find?_write, if_neg hne] at he
        refine hkeep he fun hmark => ?_
        -- the mark leads back to the entry that was written
        have htoken := hrecounts.mark
        rw [← hmark, parseMark?_mark] at htoken
        cases htoken
        have hsame := hrecounts.back
        rw [h.paired.back_of_entry he hk] at hsame
        exact hl (Option.some.inj hsame)

/-- A sweep keeps the balance, and tokens lead back where they did. -/
theorem Balanced.swept (h : ks.Balanced (fun _ => False) ⟨m, none⟩) (batch : Nat) :
    ks.Balanced (fun _ => False) ⟨ks.swept batch m, none⟩ ∧
      ∀ token, (ks.swept batch m).find? (ks.reverse token) = m.find? (ks.reverse token) :=
  swept_induction
    (I := fun m' => ks.Balanced (fun _ => False) ⟨m', none⟩ ∧
      ∀ token, m'.find? (ks.reverse token) = m.find? (ks.reverse token))
    (fun _ _ hp ih => ⟨ih.1.refreshed hp, fun token =>
      (reverse_refreshedIn (fun hl => (ih.1.paired.back hl).1) hp token).trans (ih.2 token)⟩)
    ⟨h, fun _ => rfl⟩ batch

end Sweeps

end IndexKeys

end OrderedStore
