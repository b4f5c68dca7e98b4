/-
Tokens are given for good.

A token that is given to a term and a word is written to the lexicon at
once, so the map that the database reads as has grown there and is as it was
elsewhere (`Grown`). A new token is the next one, which no entry has, and
each takes an operation of its own, so tokens do not run out before
operations do. Tokens kept in memory are in the lexicon, too. A term with a
delimiter has the token of the term that its key is read as.
-/
import Mathlib
import OrderedStore.Proofs.DatabaseSteps
import OrderedStore.Proofs.Indexed
import OrderedStore.Proofs.Terms

namespace OrderedStore

namespace IndexKeys

variable {ks : IndexKeys} {m m' m'' : KeyMap Bytes}

-- ================================================================ lexicon

/-- The key belongs to the lexicon: an entry, the key back to one, or the
number of the next token. -/
def Lexical (ks : IndexKeys) (k : Bytes) : Prop :=
  ks.kind? k = some 108 ∨ ks.kind? k = some 109 ∨ ks.kind? k = some 114

theorem lexical_lexicon (ks : IndexKeys) (term raw : String) :
    ks.Lexical (ks.lexicon term raw) :=
  Or.inl (ks.kind?_lexicon term raw)

theorem lexical_nextToken (ks : IndexKeys) : ks.Lexical ks.nextToken :=
  Or.inr (Or.inl ks.kind?_nextToken)

theorem lexical_reverse (ks : IndexKeys) (token : UInt64) : ks.Lexical (ks.reverse token) :=
  Or.inr (Or.inr (ks.kind?_reverse token))

/-- Where the lexicon is the same, tokens are. -/
theorem tokenIn_congr (h : ∀ k, ks.Lexical k → m'.find? k = m.find? k) (term raw : String) :
    ks.tokenIn m' term raw = ks.tokenIn m term raw := by
  unfold tokenIn
  rw [h _ (ks.lexical_lexicon term raw)]

/-- So is the next one. -/
theorem nextIn_congr (h : ∀ k, ks.Lexical k → m'.find? k = m.find? k) :
    ks.nextIn m' = ks.nextIn m := by
  unfold nextIn
  rw [h _ ks.lexical_nextToken]

/-- Only the lexicon's own keys count for it. -/
theorem Lexed.congr (hl : ks.Lexed m) (h : ∀ k, ks.Lexical k → m'.find? k = m.find? k) :
    ks.Lexed m' := by
  refine ⟨fun k v hk hkind => ?_, ?_, ?_, fun token l hk => ?_⟩
  · rw [h k (Or.inl hkind)] at hk
    exact hl.entry k v hk hkind
  · intro term raw term' raw' token hterm hterm' ht ht'
    rw [tokenIn_congr h] at ht ht'
    exact hl.injective hterm hterm' ht ht'
  · intro term raw token ht
    rw [tokenIn_congr h] at ht
    rw [nextIn_congr h]
    exact hl.fresh ht
  · rw [h _ (ks.lexical_reverse token)] at hk
    simp only [tokenIn_congr h]
    exact hl.reverse token l hk

/-- The lexicon has grown, and nothing else has changed. -/
structure Grown (ks : IndexKeys) (m m' : KeyMap Bytes) : Prop where
  keeps : ∀ {term raw token}, ks.tokenIn m term raw = some token →
    ks.tokenIn m' term raw = some token
  rest : ∀ k, ¬ks.Lexical k → m'.find? k = m.find? k

/-- A lexicon that has not changed has grown by nothing. -/
theorem Grown.refl (ks : IndexKeys) (m : KeyMap Bytes) : ks.Grown m m :=
  ⟨fun h => h, fun _ _ => rfl⟩

/-- It may grow again. -/
theorem Grown.trans (h : ks.Grown m m') (h' : ks.Grown m' m'') : ks.Grown m m'' :=
  ⟨fun ht => h'.keeps (h.keeps ht), fun k hk => (h'.rest k hk).trans (h.rest k hk)⟩

-- =============================================================== new tokens

/-- What is written for a new token. -/
def entriesOf (ks : IndexKeys) (term raw : String) (token : UInt64) : Pending :=
  ((KeyMap.empty.insert ks.nextToken (.value (Codec.fixed64 (token + 1)))).insert
    (ks.lexicon term raw) (.value (LexiconEntry.encode ⟨token, 0⟩))).insert
    (ks.reverse token) (.value (ks.lexicon term raw))

/-- What the keys lead to then. -/
theorem find?_minted (m : KeyMap Bytes) (term raw : String) (token : UInt64) (k : Bytes) :
    (m.laid (ks.entriesOf term raw token)).find? k
      = if k = ks.reverse token then some (ks.lexicon term raw)
        else if k = ks.lexicon term raw then some (LexiconEntry.encode ⟨token, 0⟩)
        else if k = ks.nextToken then some (Codec.fixed64 (token + 1)) else m.find? k := by
  rw [KeyMap.find?_laid]
  unfold entriesOf
  simp only [KeyMap.find?_insert, KeyMap.find?_empty]
  split
  · rfl
  · split
    · rfl
    · split
      · rfl
      · unfold KeyMap.entry
        cases m.find? k <;> rfl

section Minted

variable {term raw : String} {token : UInt64}

/-- The new entry has the token. -/
theorem tokenIn_minted (m : KeyMap Bytes) (term raw : String) (token : UInt64) :
    ks.tokenIn (m.laid (ks.entriesOf term raw token)) term raw = some token := by
  refine tokenIn_of_find? (e := ⟨token, 0⟩) ?_
  rw [find?_minted, if_neg (ks.ne_of_kind? (by simp)), if_pos rfl]

/-- Other entries are as they were. -/
theorem tokenIn_minted_ne (m : KeyMap Bytes) {term' raw' : String}
    (hne : ks.lexicon term' raw' ≠ ks.lexicon term raw) :
    ks.tokenIn (m.laid (ks.entriesOf term raw token)) term' raw' = ks.tokenIn m term' raw' := by
  unfold tokenIn
  rw [find?_minted, if_neg (ks.ne_of_kind? (by simp)), if_neg hne,
    if_neg (ks.ne_of_kind? (by simp))]

/-- The number of the next token goes up by one. -/
theorem nextIn_minted (m : KeyMap Bytes) (hroom : token.toNat + 1 < UInt64.size) :
    ks.nextIn (m.laid (ks.entriesOf term raw token)) = token.toNat + 1 := by
  unfold nextIn
  rw [find?_minted, if_neg (ks.ne_of_kind? (by simp)), if_neg (ks.ne_of_kind? (by simp)),
    if_pos rfl]
  simp only [Codec.readFixed64_fixed64]
  exact toNat_succ hroom

/-- A lexicon to which the next token was added. -/
theorem Lexed.minted (hl : ks.Lexed m) (hterm : Plain term)
    (hnext : token.toNat = ks.nextIn m) (hroom : token.toNat + 1 < UInt64.size)
    (hnone : ks.tokenIn m term raw = none) :
    ks.Lexed (m.laid (ks.entriesOf term raw token)) ∧
      ks.Grown m (m.laid (ks.entriesOf term raw token)) := by
  have hgrown : ks.Grown m (m.laid (ks.entriesOf term raw token)) := by
    refine ⟨fun {term' raw' token'} ht => ?_, fun k hk => ?_⟩
    · rw [tokenIn_minted_ne, ht]
      intro heq
      unfold tokenIn at ht hnone
      rw [heq, hnone] at ht
      cases ht
    · rw [find?_minted, if_neg, if_neg, if_neg]
      · rintro rfl
        exact hk ks.lexical_nextToken
      · rintro rfl
        exact hk (ks.lexical_lexicon term raw)
      · rintro rfl
        exact hk (ks.lexical_reverse token)
  -- a token is the new one's, or it was there and is lower
  have hcases {term' raw' token'} (hterm' : Plain term')
      (ht : ks.tokenIn (m.laid (ks.entriesOf term raw token)) term' raw' = some token') :
      (term' = term ∧ raw' = raw ∧ token' = token) ∨
        (ks.tokenIn m term' raw' = some token' ∧ token'.toNat < token.toNat) := by
    by_cases heq : ks.lexicon term' raw' = ks.lexicon term raw
    · obtain ⟨rfl, rfl⟩ := ks.lexicon_inj hterm' hterm heq
      rw [tokenIn_minted] at ht
      exact Or.inl ⟨rfl, rfl, (Option.some.inj ht).symm⟩
    · rw [tokenIn_minted_ne m heq] at ht
      rw [hnext]
      exact Or.inr ⟨ht, hl.fresh ht⟩
  refine ⟨⟨fun k v hk hkind => ?_, ?_, ?_, fun token' l hk => ?_⟩, hgrown⟩
  · rw [find?_minted, if_neg (ks.ne_of_kind? (by rw [hkind]; simp))] at hk
    split at hk
    · next heq =>
        cases hk
        exact ⟨term, raw, _, hterm, heq, rfl⟩
    · rw [if_neg (ks.ne_of_kind? (by rw [hkind]; simp))] at hk
      exact hl.entry k v hk hkind
  · intro t₁ r₁ t₂ r₂ token' h₁ h₂ ht₁ ht₂
    rcases hcases h₁ ht₁ with ⟨rfl, rfl, rfl⟩ | ⟨hin₁, hlt₁⟩
    · rcases hcases h₂ ht₂ with ⟨rfl, rfl, -⟩ | ⟨-, hlt₂⟩
      · exact ⟨rfl, rfl⟩
      · omega
    · rcases hcases h₂ ht₂ with ⟨rfl, rfl, rfl⟩ | ⟨hin₂, -⟩
      · omega
      · exact hl.injective h₁ h₂ hin₁ hin₂
  · intro term' raw' token' ht
    rw [nextIn_minted m hroom]
    by_cases heq : ks.lexicon term' raw' = ks.lexicon term raw
    · have hsame : ks.tokenIn (m.laid (ks.entriesOf term raw token)) term raw = some token :=
        tokenIn_minted m term raw token
      unfold tokenIn at ht hsame
      rw [heq, hsame] at ht
      cases ht
      omega
    · rw [tokenIn_minted_ne m heq] at ht
      have := hl.fresh ht
      omega
  · rw [find?_minted] at hk
    split at hk
    · next heq =>
        cases hk
        obtain rfl := ks.reverse_inj heq
        exact ⟨term, raw, hterm, rfl, tokenIn_minted m term raw token'⟩
    · rw [if_neg (ks.ne_of_kind? (by simp)), if_neg (ks.ne_of_kind? (by simp))] at hk
      obtain ⟨term', raw', hterm', hl', ht⟩ := hl.reverse token' l hk
      exact ⟨term', raw', hterm', hl', hgrown.keeps ht⟩

end Minted

/-- The lexicon that the operations leave. Tokens are no more than the
operations. -/
structure Lexicon (ks : IndexKeys) (ops : List Operation) : Prop where
  lexed : ks.Lexed (contents ops)
  count : ks.nextIn (contents ops) ≤ ops.length + 1

/-- What holds of operations goes on holding when the lexicon grows. -/
def Stable (ks : IndexKeys) (F : List Operation → Prop) : Prop :=
  ∀ ops ops', ks.Grown (contents ops) (contents ops') → F ops → F ops'

variable {F : List Operation → Prop}

/-- A token that is found goes on being found. -/
theorem stable_tokenIn (term raw : String) (token : UInt64) :
    ks.Stable fun ops => ks.tokenIn (contents ops) term raw = some token :=
  fun _ _ hgrown ht => hgrown.keeps ht

/-- Two things that go on holding do together. -/
theorem Stable.and {F' : List Operation → Prop} (h : ks.Stable F) (h' : ks.Stable F') :
    ks.Stable fun ops => F ops ∧ F' ops :=
  fun ops ops' hgrown hF => ⟨h ops ops' hgrown hF.1, h' ops ops' hgrown hF.2⟩

end IndexKeys

namespace Index

open IndexKeys

variable {ks : IndexKeys} {F : List Operation → Prop} {term raw : String}

/-- A token that is read is the one in the lexicon. -/
theorem leads_readToken (ks : IndexKeys) (term raw : String) {P : List Operation → Prop} :
    Leads P (readToken (ks.lexicon term raw)) fun found ops =>
      P ops ∧ found = ks.tokenIn (contents ops) term raw := by
  refine Leads.bind (leads_get _ fun ops hP => ⟨hP, rfl⟩ :
    Leads P _ fun found ops => P ops ∧ found = (contents ops).find? (ks.lexicon term raw))
    fun found => ?_
  match found with
  | none =>
      refine leads_pure fun ops hQ => ⟨hQ.1, ?_⟩
      unfold tokenIn
      rw [← hQ.2]
      rfl
  | some bytes =>
      dsimp only
      cases hdecode : LexiconEntry.decode bytes with
      | ok e =>
          refine leads_pure fun ops hQ => ⟨hQ.1, ?_⟩
          unfold tokenIn
          rw [← hQ.2, Option.bind_some, hdecode]
          rfl
      | error f =>
          refine leads_pure fun ops hQ => ⟨hQ.1, ?_⟩
          unfold tokenIn
          rw [← hQ.2, Option.bind_some, hdecode]
          rfl

/-- The transaction in which a token is minted. -/
def minting (ks : IndexKeys) (term raw : String) (token : UInt64) : Transaction Unit :=
  ((Transaction.empty.put ks.nextToken (Codec.fixed64 (token + 1))).put
    (ks.lexicon term raw) (LexiconEntry.encode ⟨token, 0⟩)).put
    (ks.reverse token) (ks.lexicon term raw)

/-- The number of the next token has been read off the lexicon, for an
entry that is not there. -/
def Reads (ks : IndexKeys) (F : List Operation → Prop) (term raw : String) (token : UInt64)
    (ops : List Operation) : Prop :=
  ks.Lexicon ops ∧ ks.tokenIn (contents ops) term raw = none ∧ F ops ∧
    token.toNat = ks.nextIn (contents ops)

/-- The token is put into the lexicon. -/
theorem leads_minting (hF : ks.Stable F) (hterm : Plain term) (token : UInt64) :
    Leads (Reads ks F term raw token)
      ((minting ks term raw token).commit >>= fun _ => pure token) fun token ops =>
        ks.Lexicon ops ∧ ks.tokenIn (contents ops) term raw = some token ∧ F ops := by
  have hidle : (minting ks term raw token).Idle := fun trigger ht => absurd ht List.not_mem_nil
  refine Leads.bind (Transaction.leads_commit hidle fun ops _ hP hlogged => ?_ :
    Leads _ _ fun _ ops => ks.Lexicon ops ∧ ks.tokenIn (contents ops) term raw = some token ∧ F ops)
    fun _ => leads_pure fun ops hQ => hQ
  obtain ⟨hlex, hnone, hops, hnext⟩ := hP
  have hcontents := Transaction.contents_together ops (minting ks term raw token).pending
  have hroom : token.toNat + 1 < UInt64.size := by
    have := hlex.count
    have hsize : UInt64.size = 2 ^ 64 := rfl
    rw [Operation.logged_eq] at hlogged
    omega
  obtain ⟨hlexed, hgrown⟩ := hlex.lexed.minted hterm hnext hroom hnone
  refine ⟨⟨?_, ?_⟩, ?_, hF ops _ ?_ hops⟩
  · rw [hcontents]
    exact hlexed
  · have hone : (ops ++ Operation.together
        ((minting ks term raw token).pending.entries.map Transaction.operation)).length
          = ops.length + 1 := by
      rw [List.length_append, Transaction.length_together, if_neg]
      intro hnil
      have hfound : (minting ks term raw token).pending.find? (ks.reverse token)
          = some (.value (ks.lexicon term raw)) := KeyMap.find?_insert_self _ _ _
      unfold KeyMap.find? at hfound
      rw [hnil] at hfound
      cases hfound
    rw [hcontents, hone]
    show ks.nextIn ((contents ops).laid (ks.entriesOf term raw token)) ≤ _
    rw [nextIn_minted _ hroom]
    have := hlex.count
    omega
  · rw [hcontents]
    exact tokenIn_minted _ _ _ _
  · rw [hcontents]
    exact hgrown

/-- A token that is minted is new, and in the lexicon from then on. -/
theorem leads_mint (hF : ks.Stable F) (hterm : Plain term) :
    Leads (fun ops => ks.Lexicon ops ∧ ks.tokenIn (contents ops) term raw = none ∧ F ops)
      (mint ks (ks.lexicon term raw)) fun token ops =>
        ks.Lexicon ops ∧ ks.tokenIn (contents ops) term raw = some token ∧ F ops := by
  unfold mint
  refine Leads.bind (Transaction.leads_get _ _ fun ops hP => ⟨hP, rfl⟩ :
    Leads _ _ fun found ops => (ks.Lexicon ops ∧ ks.tokenIn (contents ops) term raw = none ∧ F ops)
      ∧ found = (contents ops).find? ks.nextToken) fun found => ?_
  cases found with
  | none =>
      refine Leads.bind (leads_pure fun ops hQ => ?_) (leads_minting hF hterm)
      obtain ⟨⟨hlex, hnone, hops⟩, hfound⟩ := hQ
      refine ⟨hlex, hnone, hops, ?_⟩
      unfold nextIn
      rw [← hfound]
      rfl
  | some bytes =>
      dsimp only
      cases hbytes : (Codec.readFixed64 bytes).1 with
      | error e => exact Leads.bind (leads_throw _) (leads_minting hF hterm)
      | ok token =>
          refine Leads.bind (leads_pure fun ops hQ => ?_) (leads_minting hF hterm)
          obtain ⟨⟨hlex, hnone, hops⟩, hfound⟩ := hQ
          refine ⟨hlex, hnone, hops, ?_⟩
          unfold nextIn
          rw [← hfound]
          simp only [hbytes]

/-- A term has the token of the term that its key is read as. -/
theorem tokenFor_asRead (ks : IndexKeys) (m : KeyMap Bytes) (t : Term) :
    ks.tokenFor m t.asRead = ks.tokenFor m t := by
  have hkey : ks.lexicon t.asRead.index (stored t.asRead.index t.asRead.raw)
      = ks.lexicon t.index (stored t.index t.raw) := t.lexicon_asRead ks
  unfold tokenFor tokenIn
  rw [hkey]

/-- So it does not matter for minting whether a term has a delimiter. -/
theorem leads_mintFor (hF : ks.Stable F) (t : Term) :
    Leads (fun ops => ks.Lexicon ops ∧ ks.tokenFor (contents ops) t = none ∧ F ops)
      (mint ks (ks.lexicon t.index t.storedRaw)) fun token ops =>
        ks.Lexicon ops ∧ ks.tokenFor (contents ops) t = some token ∧ F ops := by
  simp only [← tokenFor_asRead ks _ t, ← t.lexicon_asRead ks]
  exact leads_mint hF (plain_of_not_mem t.delimiter_not_mem_asRead)

-- ============================================================ kept tokens

/-- The tokens that are kept in memory are in the lexicon. -/
def Kept (ks : IndexKeys) (c : TokenCache) (ops : List Operation) : Prop :=
  ∀ {term raw token}, c.find? term raw = some token →
    ks.tokenIn (contents ops) term raw = some token

/-- They go on being there. -/
theorem stable_kept (ks : IndexKeys) (c : TokenCache) : ks.Stable (Kept ks c) :=
  fun _ _ hgrown hkept _ _ _ ht => hgrown.keeps (hkept ht)

/-- A token that is found after one more was kept is that one, or was kept
before. -/
theorem of_find?_insert {c : TokenCache} {term' raw' : String} {token token' : UInt64}
    (h : (c.insert term raw token).find? term' raw' = some token') :
    (term' = term ∧ raw' = raw ∧ token' = token) ∨ c.find? term' raw' = some token' := by
  unfold TokenCache.find? TokenCache.insert at h
  rw [lookup_pair] at h
  split at h
  · next heq =>
      cases heq
      cases h
      exact Or.inl ⟨rfl, rfl, rfl⟩
  · split at h
    · cases h
    · exact Or.inr h

/-- One more token is kept. -/
theorem Kept.insert {c : TokenCache} {ops : List Operation} {token : UInt64} (h : Kept ks c ops)
    (ht : ks.tokenIn (contents ops) term raw = some token) :
    Kept ks (c.insert term raw token) ops := by
  intro term' raw' token' hfound
  rcases of_find?_insert hfound with ⟨rfl, rfl, rfl⟩ | hfound
  · exact ht
  · exact h hfound

variable {x : Index}

/-- To give a token leaves the keys of an index alone. -/
theorem tokenOf_keys (x : Index) (term raw : String) :
    Returns (x.tokenOf term raw) fun a => a.2.keys = x.keys := by
  have hlast (token : UInt64) (cache : TokenCache) :
      Returns (pure (token, { x with cache := cache }) : DbM (UInt64 × Index))
        fun a => a.2.keys = x.keys := returns_pure rfl
  unfold tokenOf
  dsimp only
  cases x.cache.find? term (stored term raw) with
  | some token => exact returns_pure rfl
  | none =>
      refine Returns.last fun found => ?_
      cases found with
      | some token => exact Returns.last fun token => hlast token _
      | none => exact Returns.last fun token => hlast token _

/-- To give tokens leaves them alone. -/
theorem tokensOf_keys (x : Index) (terms : List Term) :
    Returns (x.tokensOf terms) fun a => a.2.keys = x.keys := by
  induction terms generalizing x with
  | nil => exact returns_pure rfl
  | cons t ts ih =>
      rw [tokensOf]
      refine Returns.bind (tokenOf_keys x t.index t.raw) fun a ha => ?_
      refine Returns.bind (ih a.2) fun b hb => ?_
      exact returns_pure (hb.trans ha)

/-- A term gets the token that it has, or a new one. -/
theorem leads_tokenOf (hF : x.keys.Stable F) (term raw : String) :
    Leads (fun ops => x.keys.Lexicon ops ∧ Kept x.keys x.cache ops ∧ F ops)
      (x.tokenOf term raw) fun a ops =>
        x.keys.Lexicon ops ∧ Kept x.keys a.2.cache ops ∧ F ops ∧
          x.keys.tokenIn (contents ops) term (stored term raw) = some a.1 := by
  -- the token that was found or minted is kept
  have hkeep (token : UInt64) : Leads (fun ops => x.keys.Lexicon ops ∧
      x.keys.tokenIn (contents ops) term (stored term raw) = some token ∧
      Kept x.keys x.cache ops ∧ F ops)
      (pure (token, { x with cache := x.cache.insert term (stored term raw) token }) :
        DbM (UInt64 × Index)) fun a ops =>
      x.keys.Lexicon ops ∧ Kept x.keys a.2.cache ops ∧ F ops ∧
        x.keys.tokenIn (contents ops) term (stored term raw) = some a.1 := by
    refine leads_pure fun ops hQ => ?_
    obtain ⟨hlex, ht, hkept, hops⟩ := hQ
    exact ⟨hlex, hkept.insert ht, hops, ht⟩
  unfold tokenOf
  dsimp only
  cases hcache : x.cache.find? term (stored term raw) with
  | some token =>
      refine leads_pure fun ops hP => ?_
      obtain ⟨hlex, hkept, hops⟩ := hP
      exact ⟨hlex, hkept, hops, hkept hcache⟩
  | none =>
      refine Leads.bind (leads_readToken x.keys term (stored term raw)) fun found => ?_
      cases found with
      | some token =>
          refine Leads.bind (leads_pure fun ops hQ => ?_) hkeep
          obtain ⟨⟨hlex, hkept, hops⟩, hfound⟩ := hQ
          exact ⟨hlex, hfound.symm, hkept, hops⟩
      | none =>
          refine Leads.bind (Leads.mono
            (leads_mintFor ((stable_kept x.keys x.cache).and hF) ⟨term, raw, 0⟩)
            (fun ops hQ => ?_) fun _ _ hQ => hQ) hkeep
          obtain ⟨⟨hlex, hkept, hops⟩, hfound⟩ := hQ
          exact ⟨hlex, hfound.symm, hkept, hops⟩

/-- Terms get their tokens, in order. -/
theorem leads_tokensOf (hF : x.keys.Stable F) (terms : List Term) :
    Leads (fun ops => x.keys.Lexicon ops ∧ Kept x.keys x.cache ops ∧ F ops)
      (x.tokensOf terms) fun a ops =>
        x.keys.Lexicon ops ∧ Kept x.keys a.2.cache ops ∧ F ops ∧
          terms.map (x.keys.tokenFor (contents ops)) = a.1.map some := by
  induction terms generalizing x F with
  | nil =>
      refine leads_pure fun ops hP => ?_
      obtain ⟨hlex, hkept, hops⟩ := hP
      exact ⟨hlex, hkept, hops, rfl⟩
  | cons t ts ih =>
      rw [tokensOf]
      refine Leads.bind_returns (leads_tokenOf hF t.index t.raw)
        (tokenOf_keys x t.index t.raw) fun a ha => ?_
      obtain ⟨token, y⟩ := a
      have hF' : y.keys.Stable fun ops => F ops ∧
          y.keys.tokenIn (contents ops) t.index (stored t.index t.raw) = some token := by
        refine Stable.and ?_ (stable_tokenIn _ _ _)
        rw [ha]
        exact hF
      have hrest := ih hF'
      rw [ha] at hrest
      refine Leads.bind hrest fun b => ?_
      refine leads_pure fun ops hQ => ?_
      obtain ⟨hlex, hkept, ⟨hops, ht⟩, hmap⟩ := hQ
      refine ⟨hlex, hkept, hops, ?_⟩
      rw [List.map_cons, List.map_cons, hmap]
      exact congrArg (· :: _) ht

end Index

end OrderedStore
