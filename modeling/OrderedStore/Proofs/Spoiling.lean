/-
What stays of the lexicon where entries may be spoiled.

An entry of the lexicon that cannot be read is as good as none to those who
ask for its token: they give another one. So the lexicon and the keys back to
it are no longer inverse to each other, as the old token leads back to where
the new one does. What stays is that every token leads back to the lexicon,
and that the token of an entry that can be read leads back somewhere
(`Rooted`). Of the tokens that handles keep no more is known than that they
were given.

That is enough for all that is written beside the lexicon to be as an index
writes it. It is a rule that an index keeps (`kept_rooting`), and it is kept
by whoever spoils an entry (`Call.Spoils`), as the rule says nothing of
entries that cannot be read.
-/
import Mathlib
import OrderedStore.Proofs.Bookkeeping

namespace OrderedStore

namespace IndexKeys

variable {ks : IndexKeys} {m m' : KeyMap Bytes} {term raw : String} {k : Bytes} {σ σ' : Slate}
  {w : Bytes × Entry}

-- ================================================================== rooted

/-- Every token leads back to the lexicon, the token of an entry that can be
read leads back somewhere, and all the rest is as an index writes it. -/
structure Rooted (ks : IndexKeys) (σ : Slate) : Prop where
  tidy : ks.Tidy (ks.Given σ.held) σ
  back : ∀ {token l}, σ.held.find? (ks.reverse token) = some l → ks.kind? l = some 108
  entry : ∀ {k e}, entryAt σ.held k = some e → ks.kind? k = some 108 → ks.Given σ.held e.token

/-- It is so where there is nothing. -/
theorem rooted_empty (ks : IndexKeys) : ks.Rooted ⟨KeyMap.empty, none⟩ := by
  have hnone {k v : Bytes} : KeyMap.empty.find? k ≠ some v := nofun
  refine ⟨⟨fun hv _ => absurd hv hnone, nofun⟩, fun hl => absurd hl hnone, fun he _ => ?_⟩
  cases he

/-- If the lexicon is the same, what is tidy is rooted. -/
theorem Rooted.of_lexical (h : ks.Rooted σ)
    (hlexical : ∀ k, ks.Lexical k → σ'.held.find? k = σ.held.find? k)
    (htidy : ks.Tidy (ks.Given σ.held) σ') : ks.Rooted σ' := by
  have hgiven := given_eq hlexical
  refine ⟨hgiven.symm ▸ htidy, fun {token l} hl => ?_, fun {k e} he hk => ?_⟩
  · rw [hlexical _ (ks.lexical_reverse token)] at hl
    exact h.back hl
  · rw [entryAt_congr (hlexical k (Or.inl hk))] at he
    rw [hgiven]
    exact h.entry he hk

/-- What is proper may be written. -/
theorem Rooted.writes {ws : List (Bytes × Entry)} (h : ks.Rooted σ)
    (hws : ∀ w ∈ ws, ks.Proper (ks.Given σ.held) w) : ks.Rooted (σ.writes ws) :=
  h.of_lexical (fun _ hk => Index.lexical_writes (fun w hw => (hws w hw).apart) hk)
    (h.tidy.writes hws)

/-- What is pending may be held. -/
theorem Rooted.laid {p : Pending} (h : ks.Rooted ⟨m, some p⟩) : ks.Rooted ⟨m.laid p, none⟩ :=
  h.of_lexical h.tidy.lexical_laid h.tidy.laid

/-- What is pending elsewhere does not depend on what is held, as long as its
tokens are given. -/
theorem Rooted.moved {p : Pending} (h : ks.Rooted ⟨m, some p⟩) (h' : ks.Rooted ⟨m', none⟩)
    (hgiven : ∀ token, ks.Given m token → ks.Given m' token) : ks.Rooted ⟨m', some p⟩ :=
  ⟨h.tidy.moved h'.tidy hgiven, h'.back, h'.entry⟩

/-- A term may get a token. -/
theorem Rooted.given (h : ks.Rooted σ) :
    ks.Rooted ⟨ks.given σ.held term raw, σ.pending⟩ := by
  have hgrown := ks.grown_given σ.held term raw
  have hstay := fun token => isSome_given (k := ks.reverse token) ks σ.held term raw
  cases ht : ks.tokenIn σ.held term raw with
  | some token => rwa [given_of_tokenIn ht]
  | none =>
      rw [given_of_none ht] at hgrown hstay ⊢
      refine ⟨(h.tidy.grown hgrown).mono hstay, fun {token l} hl => ?_, fun {k e} he hk => ?_⟩
      · change (σ.held.laid _).find? _ = _ at hl
        rw [find?_minted] at hl
        split at hl
        · cases hl
          exact ks.kind?_lexicon term raw
        · rw [if_neg (ks.ne_of_kind? (by simp)), if_neg (ks.ne_of_kind? (by simp))] at hl
          exact h.back hl
      · by_cases hkey : k = ks.lexicon term raw
        · -- the new entry has the new token
          subst hkey
          have hentry : entryAt (σ.held.laid (ks.entriesOf term raw (ks.fresh σ.held)))
              (ks.lexicon term raw) = some ⟨ks.fresh σ.held, 0⟩ := by
            refine entryAt_of_find? ?_
            rw [find?_minted, if_neg (ks.ne_of_kind? (by simp)), if_pos rfl]
          change entryAt (σ.held.laid _) _ = _ at he
          rw [hentry] at he
          cases he
          exact (given_minted _ _ _ _ _).mpr (Or.inl rfl)
        · refine hstay _ (h.entry ?_ hk)
          rw [← he]
          refine (entryAt_congr ?_).symm
          show (σ.held.laid _).find? k = _
          rw [find?_minted, if_neg (ks.ne_of_kind? (by rw [hk]; simp)), if_neg hkey,
            if_neg (ks.ne_of_kind? (by rw [hk]; simp))]

/-- To write an entry leaves tokens leading back where they did. -/
theorem reverse_write (hk : ks.kind? k = some 108) (e : Entry) (token : UInt64) :
    (m.write (k, e)).find? (ks.reverse token) = m.find? (ks.reverse token) := by
  rw [KeyMap.find?_write, if_neg (ks.ne_of_kind? (by rw [hk]; simp))]

/-- An entry that cannot be read may be put. -/
theorem Rooted.spoiled {v : Bytes} (h : ks.Rooted ⟨m, none⟩) (hk : ks.kind? k = some 108)
    (hv : (LexiconEntry.decode v).toOption = none) :
    ks.Rooted ⟨m.write (k, .value v), none⟩ := by
  have hreverse := reverse_write (m := m) hk (.value v)
  have hgiven : ks.Given (m.write (k, .value v)) = ks.Given m := by
    funext token
    unfold Given
    rw [hreverse]
  refine ⟨?_, fun {token l} hl => ?_, fun {l e} he hl => ?_⟩
  · rw [hgiven]
    refine ⟨fun {l u} hu hl => ?_, nofun⟩
    change (m.write (k, .value v)).find? l = _ at hu
    rw [KeyMap.find?_write, if_neg] at hu
    · exact h.tidy.held hu hl
    · rintro rfl
      exact hl (Or.inl hk)
  · change (m.write (k, .value v)).find? _ = _ at hl
    rw [hreverse] at hl
    exact h.back hl
  · rw [hgiven]
    change entryAt (m.write (k, .value v)) l = _ at he
    by_cases hkey : l = k
    · unfold entryAt at he
      rw [KeyMap.find?_write, if_pos hkey] at he
      change (LexiconEntry.decode v).toOption = _ at he
      rw [hv] at he
      cases he
    · have hsame : entryAt (m.write (k, .value v)) l = entryAt m l := by
        refine entryAt_congr ?_
        rw [KeyMap.find?_write, if_neg hkey]
      rw [hsame] at he
      exact h.entry he hl

-- =================================================================== sweeps

section Sweeps

variable {p : Bytes × Bytes}

/-- An entry is as it was when a mark is refreshed, or is the one that is
written for that mark. -/
theorem entryAt_refreshedIn (hp : ks.marks <+: p.1) (hk : ks.kind? k = some 108) :
    entryAt (ks.refreshedIn m p) k = entryAt m k ∨
      ∃ token bytes, ks.Recounts m p token k bytes ∧
        entryAt (ks.refreshedIn m p) k = some (ks.recount m token) := by
  have hne : k ≠ p.1 := ks.ne_of_kind? (by rw [hk, kind?_of_marks hp]; simp)
  rcases refreshedIn_cases ks m p with ⟨-, -, heq⟩ | ⟨-, heq⟩ | ⟨token, l, bytes, hrecounts, heq⟩
  · rw [heq]
    exact Or.inl rfl
  · refine Or.inl (entryAt_congr ?_)
    rw [heq, KeyMap.find?_write, if_neg hne]
  · by_cases hl : k = l
    · subst hl
      refine Or.inr ⟨token, bytes, hrecounts, entryAt_of_find? ?_⟩
      rw [heq, KeyMap.find?_write, if_pos rfl]
      rfl
    · refine Or.inl (entryAt_congr ?_)
      rw [heq, KeyMap.find?_write, if_neg hl, KeyMap.find?_write, if_neg hne]

/-- A mark may be refreshed. -/
theorem Rooted.refreshed (h : ks.Rooted ⟨m, none⟩) (hp : ks.marks <+: p.1) :
    ks.Rooted ⟨ks.refreshedIn m p, none⟩ := by
  have hreverse := reverse_refreshedIn h.back hp
  refine ⟨h.tidy.refreshed h.back hp, fun {token l} hl => ?_, fun {k e} he hk => ?_⟩
  · exact h.back ((hreverse token).symm.trans hl)
  · show ((ks.refreshedIn m p).find? _).isSome = true
    rw [hreverse]
    rcases entryAt_refreshedIn (m := m) hp hk with hsame | ⟨token, bytes, hrecounts, hentry⟩
    · exact h.entry (hsame.symm.trans he) hk
    · obtain rfl := Option.some.inj (hentry.symm.trans he)
      show (m.find? (ks.reverse token)).isSome = true
      rw [hrecounts.back]
      rfl

/-- A sweep leaves what is rooted rooted; tokens lead back where they did. -/
theorem Rooted.swept (h : ks.Rooted ⟨m, none⟩) (batch : Nat) :
    ks.Rooted ⟨ks.swept batch m, none⟩ ∧
      ∀ token, (ks.swept batch m).find? (ks.reverse token) = m.find? (ks.reverse token) :=
  swept_induction
    (I := fun m' => ks.Rooted ⟨m', none⟩ ∧
      ∀ token, m'.find? (ks.reverse token) = m.find? (ks.reverse token))
    (fun _ _ hp ih => ⟨ih.1.refreshed hp, fun token =>
      (reverse_refreshedIn ih.1.back hp token).trans (ih.2 token)⟩)
    ⟨h, fun _ => rfl⟩ batch

end Sweeps

end IndexKeys

-- =================================================================== tokens

namespace Index

open IndexKeys

variable {x : Index} {m : KeyMap Bytes} {pending : Option Pending} {s : Slate}

/-- The tokens that are kept in memory were given. -/
def GivenIn (ks : IndexKeys) (c : TokenCache) (m : KeyMap Bytes) : Prop :=
  ∀ {term raw token}, c.find? term raw = some token → ks.Given m token

/-- Whoever asks for a token gets one that was given. -/
theorem rooted_tokenAt (h : x.keys.Rooted ⟨m, pending⟩) (hx : GivenIn x.keys x.cache m)
    (term raw : String) :
    x.keys.Rooted ⟨(x.tokenAt m term raw).2.2, pending⟩ ∧
      x.keys.Given (x.tokenAt m term raw).2.2 (x.tokenAt m term raw).1 ∧
      GivenIn x.keys (x.tokenAt m term raw).2.1.cache (x.tokenAt m term raw).2.2 ∧
      ∀ token, x.keys.Given m token → x.keys.Given (x.tokenAt m term raw).2.2 token := by
  unfold tokenAt
  cases hcache : x.cache.find? term (stored term raw) with
  | some token => exact ⟨h, hx hcache, hx, fun _ => id⟩
  | none =>
      have hrooted : x.keys.Rooted ⟨x.keys.given m term (stored term raw), pending⟩ := h.given
      have hstay := fun token => isSome_given (k := x.keys.reverse token) x.keys m term
        (stored term raw)
      obtain ⟨token, ht⟩ := Option.isSome_iff_exists.mp
        (isSome_tokenIn_given x.keys m term (stored term raw))
      have hgiven : x.keys.Given (x.keys.given m term (stored term raw)) token := by
        rw [tokenIn_eq] at ht
        obtain ⟨e, he, rfl⟩ := Option.map_eq_some_iff.mp ht
        exact hrooted.entry he (x.keys.kind?_lexicon _ _)
      dsimp only
      rw [ht, Option.getD_some]
      refine ⟨hrooted, hgiven, fun hfound => ?_, hstay⟩
      rcases of_find?_insert hfound with ⟨-, -, rfl⟩ | hfound
      · exact hgiven
      · exact hstay _ (hx hfound)

/-- So does whoever asks for several. -/
theorem rooted_tokensAt (h : x.keys.Rooted ⟨m, pending⟩) (hx : GivenIn x.keys x.cache m)
    (terms : List Term) :
    x.keys.Rooted ⟨(x.tokensAt m terms).2.2, pending⟩ ∧
      (∀ token ∈ (x.tokensAt m terms).1, x.keys.Given (x.tokensAt m terms).2.2 token) ∧
      GivenIn x.keys (x.tokensAt m terms).2.1.cache (x.tokensAt m terms).2.2 ∧
      ∀ token, x.keys.Given m token → x.keys.Given (x.tokensAt m terms).2.2 token := by
  induction terms generalizing x m with
  | nil => exact ⟨h, fun token ht => absurd ht List.not_mem_nil, hx, fun _ => id⟩
  | cons t ts ih =>
      obtain ⟨hrooted, hgiven, hkept, hstay⟩ := rooted_tokenAt h hx t.index t.raw
      have hkeys := tokenAt_keys x m t.index t.raw
      rw [← hkeys] at hrooted hkept
      obtain ⟨hrooted', hgivens, hkept', hstay'⟩ := ih hrooted hkept
      rw [hkeys] at hrooted' hgivens hkept' hstay'
      refine ⟨hrooted', fun token ht => ?_, hkept', fun token ht => hstay' token (hstay token ht)⟩
      rcases List.mem_cons.mp ht with rfl | ht
      · exact hstay' _ hgiven
      · exact hgivens token ht

/-- There is one token for each term. -/
theorem length_tokensAt (x : Index) (m : KeyMap Bytes) (terms : List Term) :
    (x.tokensAt m terms).1.length = terms.length := by
  induction terms generalizing x m with
  | nil => rfl
  | cons t ts ih => exact congrArg Nat.succ (ih _ _)

/-- A document may be filed with such tokens. -/
theorem rooted_updated {docId sortKey : String} {terms : List Term} (h : x.keys.Rooted s)
    (hx : GivenIn x.keys x.cache s.held)
    (hsize : listingBound x.keys ⟨cleanSortKey sortKey, docId⟩ terms.length < UInt64.size) :
    x.keys.Rooted (x.updated s docId sortKey terms).2 ∧
      GivenIn x.keys (x.updated s docId sortKey terms).1.cache
        (x.updated s docId sortKey terms).2.held ∧
      ∀ token, x.keys.Given s.held token →
        x.keys.Given (x.updated s docId sortKey terms).2.held token := by
  have hproper := h.tidy.proper_cleared docId
  have hcleared := h.writes hproper
  generalize hbegun : s.writes (cleared x.keys s.seen docId) = begun at hcleared
  have hsame : x.keys.Given begun.held = x.keys.Given s.held := by
    rw [← hbegun]
    exact given_eq fun k hk => lexical_writes (fun w hw => (hproper w hw).apart) hk
  have hkept : GivenIn x.keys x.cache begun.held := by
    intro term raw token ht
    rw [hsame]
    exact hx ht
  obtain ⟨hrooted, hgivens, hkept', hstay⟩ := rooted_tokensAt (hcleared :
    x.keys.Rooted ⟨begun.held, begun.pending⟩) hkept terms
  rw [hsame] at hstay
  have hlength := length_tokensAt x begun.held terms
  have hkeys := tokensAt_keys x begun.held terms
  unfold updated
  dsimp only
  rw [hbegun, stamped_cache]
  generalize x.tokensAt begun.held terms = given at hrooted hgivens hkept' hstay hlength hkeys ⊢
  obtain ⟨tokens, y, held⟩ := given
  dsimp only at hrooted hgivens hkept' hstay hlength hkeys ⊢
  -- both the tokens that the document had and those that it gets were given
  have hfiled : ∀ w ∈ filed x.keys docId sortKey (listedTokens x.keys s.seen docId) tokens y.stamp,
      x.keys.Proper (x.keys.Given held) w := by
    refine proper_filed (by rw [hlength]; exact hsize) fun token ht => ?_
    rcases List.mem_append.mp ht with hgone | hnew
    · exact hstay token (h.tidy.of_listedTokens hgone)
    · exact hgivens token hnew
  have hlexical {k : Bytes} (hk : x.keys.Lexical k) :
      (Slate.writes ⟨held, begun.pending⟩ (filed x.keys docId sortKey
        (listedTokens x.keys s.seen docId) tokens y.stamp)).held.find? k = held.find? k :=
    lexical_writes (fun w hw => (hfiled w hw).apart) hk
  have hgiven := given_eq fun k hk => hlexical hk
  refine ⟨hrooted.writes hfiled, fun ht => ?_, fun token ht => ?_⟩
  · rw [hgiven]
    exact hkept' ht
  · rw [hgiven]
    exact hstay token ht

end Index

-- ================================================================= the rule

open IndexKeys Index

/-- The rule that lexicons are rooted: every slate is, and entries can be
written anew; handles keep tokens that were given. -/
def rooting (name : String) : Rule where
  slate σ := (ofName name).Rooted σ ∧ (ofName name).Affordable σ.held
  handle m x := x.keys = ofName name ∧ GivenIn (ofName name) x.cache m
  answer _ _ := True
  later m m' := ∀ token, (ofName name).Given m token → (ofName name).Given m' token

section Steps

variable {name : String} {m : KeyMap Bytes} {s s' : Slate} {x : Index}

/-- The lexicon stays, so all that goes by it does. -/
theorem rooting_of_lexical (h : (rooting name).slate s) (hs' : (ofName name).Rooted s')
    (hlexical : ∀ k, (ofName name).Lexical k → s'.held.find? k = s.held.find? k) :
    (rooting name).Step s s' := by
  refine ⟨⟨hs', h.2.mono (affords_of_reverse fun token => hlexical _ (lexical_reverse _ token))⟩,
    fun token ht => ?_⟩
  rw [given_eq hlexical]
  exact ht

/-- A token may be asked for. -/
theorem rooting_asked {term raw : String} (h : (rooting name).slate ⟨m, none⟩)
    (hx : (rooting name).handle m x) (hafford : x.keys.Affords m (x.tokenAt m term raw).2.2) :
    (rooting name).Step ⟨m, none⟩ ⟨(x.tokenAt m term raw).2.2, none⟩ ∧
      (rooting name).handle (x.tokenAt m term raw).2.2 (x.tokenAt m term raw).2.1 := by
  obtain ⟨hkeys, hgiven⟩ := hx
  obtain ⟨hrooted, haffordable⟩ := h
  rw [← hkeys] at hgiven hrooted haffordable
  obtain ⟨hrooted', -, hgiven', hstay⟩ := rooted_tokenAt hrooted hgiven term raw
  have haffordable' := haffordable.mono hafford
  rw [hkeys] at hrooted' hgiven' hstay haffordable'
  exact ⟨⟨⟨hrooted', haffordable'⟩, hstay⟩, (tokenAt_keys x m term raw).trans hkeys, hgiven'⟩

/-- A document may be filed. -/
theorem rooting_filed {docId sortKey : String} {terms : List Term} (h : (rooting name).slate s)
    (hx : (rooting name).handle s.held x)
    (hsize : listingBound x.keys ⟨cleanSortKey sortKey, docId⟩ terms.length < UInt64.size)
    (hafford : x.keys.Affords s.held (x.updated s docId sortKey terms).2.held) :
    (rooting name).Step s (x.updated s docId sortKey terms).2 ∧
      (rooting name).handle (x.updated s docId sortKey terms).2.held
        (x.updated s docId sortKey terms).1 := by
  obtain ⟨hkeys, hgiven⟩ := hx
  obtain ⟨hrooted, haffordable⟩ := h
  rw [← hkeys] at hgiven hrooted haffordable
  obtain ⟨hrooted', hgiven', hstay⟩ := rooted_updated hrooted hgiven hsize
  have haffordable' := haffordable.mono hafford
  rw [hkeys] at hrooted' hgiven' hstay haffordable'
  exact ⟨⟨⟨hrooted', haffordable'⟩, hstay⟩, (updated_keys x s docId sortKey terms).trans hkeys,
    hgiven'⟩

end Steps

/-- Lexicons are kept rooted. -/
theorem kept_rooting (name : String) : (rooting name).Kept name where
  empty := ⟨rooted_empty _, fun _ _ hl => absurd ((KeyMap.find?_empty _).symm.trans hl) nofun⟩
  base h := ⟨⟨h.1.tidy.base, h.1.back, h.1.entry⟩, h.2⟩
  opened h := ⟨⟨h.1.tidy.opened, h.1.back, h.1.entry⟩, h.2⟩
  moved h h' hlater := ⟨h.1.moved h'.1 hlater, h'.2⟩
  handles hlater hx := ⟨hx.1, fun ht => hlater _ (hx.2 ht)⟩
  answers _ _ := trivial
  fresh := fun {m settings stamp x} hx => by
    obtain ⟨hkeys, hcache⟩ := of_openNamed hx
    refine ⟨hkeys, fun ht => ?_⟩
    rw [hcache] at ht
    cases ht
  keys hx := hx.1
  laid h := rooting_of_lexical h h.1.laid h.1.tidy.lexical_laid
  foreign h hws := rooting_of_lexical h (h.1.writes fun w hw => proper_of_not_lead (hws w hw))
    fun _ hk => lexical_writes
      (fun w hw => (proper_of_not_lead (K := fun _ => True) (hws w hw)).apart) hk
  asked h hx hafford _ := by
    obtain ⟨hstep, hhandle⟩ := rooting_asked h hx hafford
    exact ⟨hstep, hhandle, trivial⟩
  filed h hx hsize hafford _ := rooting_filed h hx hsize hafford
  swept batch h := by
    obtain ⟨hswept, hreverse⟩ := h.1.swept batch
    refine ⟨⟨hswept, h.2.mono (affords_of_reverse hreverse)⟩, fun token ht => ?_⟩
    unfold IndexKeys.Given
    rw [hreverse]
    exact ht

-- ================================================================== spoiling

/-- A call that spoils an entry: under a key of the lexicon it puts a value
that cannot be read. -/
def Call.Spoils (ks : IndexKeys) : Call → Prop
  | put none k v => ks.part "l/" <+: k ∧ (LexiconEntry.decode v).toOption = none
  | _ => False

instance (ks : IndexKeys) : (c : Call) → Decidable (c.Spoils ks)
  | .put none _ _ => inferInstanceAs (Decidable (_ ∧ _))
  | .put (some _) _ _ | .delete _ _ | .writeBatch _ | .update _ _ _ _ _ | .openIndex _ _ _
  | .token _ _ _ | .remove _ _ _ | .begin _ | .flushDraft _ | .commit _ | .abandon _ | .leave _
  | .flush | .sweep _ => inferInstanceAs (Decidable False)

/-- Wherever calls have come that are the index's own or spoil an entry, its
lexicon is rooted. -/
theorem Reached.rooted {name : String} {δ : Desk}
    (h : Reached name (fun c => c.Own (ofName name) ∨ c.Spoils (ofName name)) δ) :
    δ.Obeys (rooting name) := by
  refine h.obeys (kept_rooting name) fun c δ hc hobeys => hc.imp id fun hspoils => ?_
  match c, hspoils with
  | .put none k v, ⟨hpart, hv⟩ =>
      have hkind : (ofName name).kind? k = some 108 := kind?_of_prefix (ofName name) rfl hpart
      obtain ⟨hrooted, haffordable⟩ := hobeys.held
      have hreverse := reverse_write (m := δ.held) hkind (.value v)
      refine hobeys.moved (kept_rooting name) ⟨⟨hrooted.spoiled hkind hv,
        haffordable.mono (affords_of_reverse hreverse)⟩, fun token ht => ?_⟩
      show ((δ.held.write (k, .value v)).find? _).isSome = true
      rw [hreverse]
      exact ht

end OrderedStore
