/-
What an index writes.

A token and its lexicon entry lead to each other, and tokens are the numbers
from one up to the next one (`Paired`). So the keys of the lexicon are as
many as there are tokens, and while keys can be counted the number of the
next token does not go back to zero (`Paired.toNat_lt`).

Behind the lexicon everything that an index writes is about tokens
(`Proper`): a posting stands under a token, a list holds postings, a mark is
the mark of a token. A slate on which only that was written is tidy (`Tidy`),
and it stays so with every step, whatever else is pending in other
transactions: what is deleted of a document are postings that were listed,
so whoever deletes them knows their tokens.
-/
import Mathlib
import OrderedStore.Proofs.Recounts
import OrderedStore.Proofs.Slates

namespace OrderedStore

/-- Entries are written as they are. -/
theorem LexiconEntry.encode_injective {e e' : LexiconEntry} (h : e.encode = e'.encode) : e = e' := by
  have hread := decode_encode e
  rw [h, decode_encode e'] at hread
  exact (Except.ok.inj hread).symm

/-- The tokens in order are the tokens. -/
theorem Index.mem_sortTokens {token : UInt64} {tokens : List UInt64} :
    token ∈ sortTokens tokens ↔ token ∈ tokens := by
  have hinsert (t : UInt64) (ts : List UInt64) : token ∈ insertToken t ts ↔ token = t ∨ token ∈ ts := by
    induction ts with
    | nil => rw [insertToken, List.mem_singleton, or_iff_left List.not_mem_nil]
    | cons u us ih =>
        rw [insertToken]
        split
        · rw [List.mem_cons]
        · split
          · rw [List.mem_cons, ih, List.mem_cons, or_left_comm]
          · next hle hlt =>
              obtain rfl := UInt64.le_antisymm (UInt64.not_lt.mp hlt) (UInt64.not_lt.mp hle)
              rw [List.mem_cons]
              exact ⟨Or.inr, fun h => h.elim Or.inl id⟩
  induction tokens with
  | nil => rfl
  | cons t ts ih =>
      show token ∈ insertToken t (sortTokens ts) ↔ _
      exact (hinsert t _).trans ((or_congr_right ih).trans List.mem_cons.symm)

namespace IndexKeys

variable {ks : IndexKeys} {m m' : KeyMap Bytes} {term raw : String} {k : Bytes}

-- ============================================================ given tokens

/-- The token leads back to the lexicon. -/
def Given (ks : IndexKeys) (m : KeyMap Bytes) (token : UInt64) : Prop :=
  (m.find? (ks.reverse token)).isSome = true

/-- The lexicon and the keys back to it are inverse to each other, and its
tokens are the numbers from one up to the next one. -/
structure Paired (ks : IndexKeys) (m : KeyMap Bytes) : Prop where
  entry : ∀ {k v}, m.find? k = some v → ks.kind? k = some 108 →
    ∃ e : LexiconEntry, v = e.encode ∧ m.find? (ks.reverse e.token) = some k
  back : ∀ {token l}, m.find? (ks.reverse token) = some l →
    ks.kind? l = some 108 ∧ ∃ count, m.find? l = some (LexiconEntry.encode ⟨token, count⟩)
  given : ∀ token, ks.Given m token ↔ 0 < token.toNat ∧ token.toNat < ks.nextIn m
  next : 0 < ks.nextIn m

/-- Where the lexicon is the same, the same tokens were given. -/
theorem given_eq (h : ∀ k, ks.Lexical k → m'.find? k = m.find? k) : ks.Given m' = ks.Given m := by
  funext token
  unfold Given
  rw [h _ (ks.lexical_reverse token)]

/-- Only the keys of the lexicon count for it. -/
theorem Paired.congr (h : ks.Paired m) (hsame : ∀ k, ks.Lexical k → m'.find? k = m.find? k) :
    ks.Paired m' := by
  refine ⟨fun {k v} hv hk => ?_, fun {token l} hl => ?_, fun token => ?_, ?_⟩
  · rw [hsame k (Or.inl hk)] at hv
    obtain ⟨e, rfl, hback⟩ := h.entry hv hk
    exact ⟨e, rfl, (hsame _ (ks.lexical_reverse _)).trans hback⟩
  · rw [hsame _ (ks.lexical_reverse token)] at hl
    obtain ⟨hk, count, hentry⟩ := h.back hl
    exact ⟨hk, count, (hsame l (Or.inl hk)).trans hentry⟩
  · rw [given_eq hsame, nextIn_congr hsame]
    exact h.given token
  · rw [nextIn_congr hsame]
    exact h.next

/-- There is no token yet where there is nothing. -/
theorem paired_empty (ks : IndexKeys) : ks.Paired KeyMap.empty := by
  have hnext : ks.nextIn KeyMap.empty = 1 := rfl
  refine ⟨fun {k v} hv _ => ?_, fun {token l} hl => ?_, fun token => ?_, hnext ▸ Nat.one_pos⟩
  · rw [KeyMap.find?_empty] at hv
    cases hv
  · rw [KeyMap.find?_empty] at hl
    cases hl
  rw [hnext]
  constructor
  · intro hgiven
    cases hgiven
  · omega

/-- A term and a word have the token that leads back to their lexicon
key. -/
theorem Paired.tokenIn_iff (h : ks.Paired m) {token : UInt64} :
    ks.tokenIn m term raw = some token ↔
      m.find? (ks.reverse token) = some (ks.lexicon term raw) := by
  constructor
  · intro ht
    obtain ⟨bytes, hbytes, hread⟩ := Option.bind_eq_some_iff.mp ht
    obtain ⟨e, rfl, hback⟩ := h.entry hbytes (ks.kind?_lexicon term raw)
    rw [LexiconEntry.decode_encode] at hread
    cases hread
    exact hback
  · intro hback
    obtain ⟨-, count, hentry⟩ := h.back hback
    exact tokenIn_of_find? hentry

/-- A token that a term has was given. -/
theorem Paired.isGiven (h : ks.Paired m) {token : UInt64}
    (ht : ks.tokenIn m term raw = some token) : ks.Given m token := by
  unfold Given
  rw [h.tokenIn_iff.mp ht]
  rfl

/-- Without a token there is no entry. -/
theorem Paired.find?_lexicon (h : ks.Paired m) (hnone : ks.tokenIn m term raw = none) :
    m.find? (ks.lexicon term raw) = none := by
  cases hv : m.find? (ks.lexicon term raw) with
  | none => rfl
  | some v =>
      obtain ⟨e, rfl, -⟩ := h.entry hv (ks.kind?_lexicon term raw)
      rw [tokenIn_of_find? hv] at hnone
      cases hnone

/-- There is room to count the keys of the lexicon. -/
def Room (ks : IndexKeys) (m : KeyMap Bytes) : Prop :=
  ∀ keys : List Bytes, keys.Nodup → (∀ k ∈ keys, ks.Lexical k ∧ (m.find? k).isSome = true) →
    keys.length < UInt64.size

/-- There is if there is room to count all keys. -/
theorem room_of_size (h : m.size < UInt64.size) : ks.Room m := by
  intro keys hnodup hkeys
  have hsub : keys ⊆ m.entries.map Prod.fst := by
    intro k hk
    obtain ⟨v, hv⟩ := Option.isSome_iff_exists.mp (hkeys k hk).2
    exact List.mem_map.mpr ⟨(k, v), KeyMap.mem_entries.mpr hv, rfl⟩
  have hlength := (hnodup.subperm hsub).length_le
  rw [List.length_map] at hlength
  exact lt_of_le_of_lt hlength h

/-- Fewer keys of the lexicon take less room. -/
theorem Room.mono (h : ks.Room m')
    (hsub : ∀ k, ks.Lexical k → (m.find? k).isSome = true → (m'.find? k).isSome = true) :
    ks.Room m :=
  fun keys hnodup hkeys => h keys hnodup fun k hk =>
    ⟨(hkeys k hk).1, hsub k (hkeys k hk).1 (hkeys k hk).2⟩

section Minted

variable {token : UInt64}

/-- A new token is given, and those that were stay so. -/
theorem given_minted (m : KeyMap Bytes) (term raw : String) (token token' : UInt64) :
    ks.Given (m.laid (ks.entriesOf term raw token)) token' ↔ token' = token ∨ ks.Given m token' := by
  unfold Given
  rw [find?_minted]
  by_cases heq : token' = token
  · rw [if_pos (heq ▸ rfl)]
    exact ⟨fun _ => Or.inl heq, fun _ => rfl⟩
  · rw [if_neg fun hkey => heq (ks.reverse_inj hkey), if_neg (ks.ne_of_kind? (by simp)),
      if_neg (ks.ne_of_kind? (by simp))]
    exact ⟨Or.inr, fun h => h.resolve_left heq⟩

/-- Each token takes a key back to the lexicon, and the next one a key of its
own, so there is a number behind the new token. -/
theorem Paired.toNat_lt (h : ks.Paired m) (hnext : token.toNat = ks.nextIn m)
    (hroom : ks.Room (m.laid (ks.entriesOf term raw token))) : token.toNat + 1 < UInt64.size := by
  have hnumber {i : Nat} (hi : i < token.toNat) : (UInt64.ofNat (i + 1)).toNat = i + 1 :=
    UInt64.toNat_ofNat_of_lt (lt_of_le_of_lt hi token.toNat_lt)
  have hlength := hroom (ks.nextToken :: (List.range token.toNat).map fun i =>
    ks.reverse (UInt64.ofNat (i + 1))) ?_ ?_
  · rwa [List.length_cons, List.length_map, List.length_range] at hlength
  · refine List.nodup_cons.mpr ⟨fun hmem => ?_, List.nodup_range.map_on fun i hi j hj hij => ?_⟩
    · obtain ⟨i, -, hkey⟩ := List.mem_map.mp hmem
      exact ks.ne_of_kind? (by simp) hkey
    · have hsame := congrArg UInt64.toNat (ks.reverse_inj hij)
      rw [hnumber (List.mem_range.mp hi), hnumber (List.mem_range.mp hj)] at hsame
      omega
  · intro k hk
    rcases List.mem_cons.mp hk with rfl | hk
    · refine ⟨ks.lexical_nextToken, ?_⟩
      rw [find?_minted, if_neg (ks.ne_of_kind? (by simp)), if_neg (ks.ne_of_kind? (by simp)),
        if_pos rfl]
      rfl
    · obtain ⟨i, hi, rfl⟩ := List.mem_map.mp hk
      have hi := List.mem_range.mp hi
      refine ⟨ks.lexical_reverse _, (given_minted m term raw token _).mpr ?_⟩
      by_cases hlast : i + 1 = token.toNat
      · left
        rw [hlast, UInt64.ofNat_toNat]
      · refine Or.inr ((h.given _).mpr ?_)
        rw [hnumber hi, ← hnext]
        omega

/-- The lexicon stays paired when the next token is given. -/
theorem Paired.minted (h : ks.Paired m) (hnone : ks.tokenIn m term raw = none)
    (hnext : token.toNat = ks.nextIn m)
    (hroom : ks.Room (m.laid (ks.entriesOf term raw token))) :
    ks.Paired (m.laid (ks.entriesOf term raw token)) := by
  have habsent := h.find?_lexicon hnone
  have hsucc : ks.nextIn (m.laid (ks.entriesOf term raw token)) = token.toNat + 1 :=
    nextIn_minted m (h.toNat_lt hnext hroom)
  have hfresh : ¬ks.Given m token := by
    rw [h.given, hnext]
    omega
  refine ⟨fun {k v} hv hk => ?_, fun {token' l} hl => ?_, fun token' => ?_, ?_⟩
  · rw [find?_minted, if_neg (ks.ne_of_kind? (by rw [hk]; simp))] at hv
    split at hv
    · next heq =>
        cases hv
        refine ⟨_, rfl, ?_⟩
        rw [find?_minted, if_pos rfl, heq]
    · rw [if_neg (ks.ne_of_kind? (by rw [hk]; simp))] at hv
      obtain ⟨e, rfl, hback⟩ := h.entry hv hk
      refine ⟨e, rfl, ?_⟩
      rw [find?_minted, if_neg, if_neg (ks.ne_of_kind? (by simp)),
        if_neg (ks.ne_of_kind? (by simp)), hback]
      intro hkey
      refine hfresh (ks.reverse_inj hkey ▸ ?_)
      unfold Given
      rw [hback]
      rfl
  · rw [find?_minted] at hl
    split at hl
    · next heq =>
        cases hl
        obtain rfl := ks.reverse_inj heq
        refine ⟨ks.kind?_lexicon term raw, 0, ?_⟩
        rw [find?_minted, if_neg (ks.ne_of_kind? (by simp)), if_pos rfl]
    · rw [if_neg (ks.ne_of_kind? (by simp)), if_neg (ks.ne_of_kind? (by simp))] at hl
      obtain ⟨hk, count, hentry⟩ := h.back hl
      refine ⟨hk, count, ?_⟩
      rw [find?_minted, if_neg (ks.ne_of_kind? (by rw [hk]; simp)), if_neg,
        if_neg (ks.ne_of_kind? (by rw [hk]; simp)), hentry]
      rintro rfl
      rw [habsent] at hentry
      cases hentry
  · rw [given_minted, hsucc, h.given, ← hnext]
    have hpos := h.next
    constructor
    · rintro (rfl | ⟨hpos', hlt⟩) <;> omega
    · intro hlt
      by_cases heq : token' = token
      · exact Or.inl heq
      · have hne : token'.toNat ≠ token.toNat := fun hsame => heq (UInt64.toNat_inj.mp hsame)
        exact Or.inr (by omega)
  · rw [hsucc]
    omega

end Minted

/-- Keys that are there stay when a term gets a token. -/
theorem isSome_given (ks : IndexKeys) (m : KeyMap Bytes) (term raw : String)
    (h : (m.find? k).isSome = true) : ((ks.given m term raw).find? k).isSome = true := by
  unfold given
  split
  · exact h
  · rw [find?_minted]
    split
    · rfl
    · split
      · rfl
      · split
        · rfl
        · exact h

/-- So they do when several terms get tokens. -/
theorem isSome_givenAll (ks : IndexKeys) (terms : List Term) (h : (m.find? k).isSome = true) :
    ((ks.givenAll m terms).find? k).isSome = true := by
  induction terms generalizing m with
  | nil => exact h
  | cons t terms ih => exact ih (isSome_given ks m t.index _ h)

/-- The lexicon stays paired when a term gets a token. -/
theorem Paired.given_token (h : ks.Paired m) (hroom : ks.Room (ks.given m term raw)) :
    ks.Paired (ks.given m term raw) := by
  cases ht : ks.tokenIn m term raw with
  | some token => rwa [given_of_tokenIn ht]
  | none =>
      rw [given_of_none ht] at hroom ⊢
      exact h.minted ht (ks.toNat_fresh m) hroom

-- ============================================================== tidy slates

/-- A posting of a document that can be read back, under one of these
tokens. -/
def Posts (ks : IndexKeys) (K : UInt64 → Prop) (k : Bytes) : Prop :=
  ∃ token d, d.Parsable ∧ k = ks.posting token d ∧ K token

/-- An entry as an index writes it, for one of these tokens: it is not of
the lexicon, it is a posting if it is of their kind, it is a mark that is put
if it is of theirs, and postings are listed if it is a list. -/
structure Proper (ks : IndexKeys) (K : UInt64 → Prop) (w : Bytes × Entry) : Prop where
  apart : ¬ks.Lexical w.1
  posting : ks.kind? w.1 = some 105 → ks.Posts K w.1
  mark : ks.kind? w.1 = some 116 → ∃ token, w.1 = ks.mark token ∧ K token ∧ w.2 ≠ .tombstone
  list : ∀ {docId bytes postings rest}, w.1 = ks.document docId → w.2 = .value bytes →
    Wire.readBlobs bytes = .ok (postings, rest) → ∀ k ∈ postings, ks.Posts K k

/-- All that a slate holds and has pending is as an index writes it, the
lexicon apart. -/
structure Tidy (ks : IndexKeys) (K : UInt64 → Prop) (σ : Slate) : Prop where
  held : ∀ {k v}, σ.held.find? k = some v → ¬ks.Lexical k → ks.Proper K (k, .value v)
  pending : ∀ {p k e}, σ.pending = some p → p.find? k = some e → ks.Proper K (k, e)

variable {K K' : UInt64 → Prop} {σ : Slate} {w : Bytes × Entry} {token : UInt64} {e : Entry}

/-- With more tokens there are more postings. -/
theorem Posts.mono (h : ks.Posts K k) (hK : ∀ token, K token → K' token) : ks.Posts K' k := by
  obtain ⟨token, d, hd, hk, htoken⟩ := h
  exact ⟨token, d, hd, hk, hK token htoken⟩

/-- More is proper then. -/
theorem Proper.mono (h : ks.Proper K w) (hK : ∀ token, K token → K' token) : ks.Proper K' w := by
  refine ⟨h.apart, fun hk => (h.posting hk).mono hK, fun hk => ?_, fun hk hv hread k hmem =>
    (h.list hk hv hread k hmem).mono hK⟩
  obtain ⟨token, hmark, htoken, hput⟩ := h.mark hk
  exact ⟨token, hmark, hK token htoken, hput⟩

/-- And more is tidy. -/
theorem Tidy.mono (h : ks.Tidy K σ) (hK : ∀ token, K token → K' token) : ks.Tidy K' σ :=
  ⟨fun hv hk => (h.held hv hk).mono hK, fun hp he => (h.pending hp he).mono hK⟩

/-- A posting may be put or deleted. -/
theorem Posts.proper (h : ks.Posts K k) (e : Entry) : ks.Proper K (k, e) := by
  obtain ⟨token, d, hd, rfl, htoken⟩ := h
  refine ⟨Index.not_lexical_posting ks token d, fun _ => ⟨token, d, hd, rfl, htoken⟩,
    fun hk => ?_, fun hk => absurd hk (ks.ne_of_kind? (by simp))⟩
  change ks.kind? (ks.posting token d) = _ at hk
  rw [ks.kind?_posting] at hk
  cases hk

/-- A mark may be put. -/
theorem proper_mark (h : K token) (v : Bytes) : ks.Proper K (ks.mark token, .value v) := by
  refine ⟨Index.not_lexical_mark ks token, fun hk => ?_, fun _ => ⟨token, rfl, h, nofun⟩,
    fun hk => absurd hk (ks.ne_of_kind? (by simp))⟩
  change ks.kind? (ks.mark token) = _ at hk
  rw [ks.kind?_mark] at hk
  cases hk

/-- A list of postings may be put, and may be deleted. -/
theorem proper_listing {docId : String} {postings : List Bytes}
    (h : ∀ k ∈ postings, ks.Posts K k) (hsize : (Wire.blobs postings).length < UInt64.size) :
    ks.Proper K (Index.listing ks docId postings) := by
  have hread := Wire.readBlobs_blobs hsize []
  rw [List.append_nil] at hread
  have hkind : ks.kind? (Index.listing ks docId postings).1 = some 100 := ks.kind?_document docId
  refine ⟨Index.not_lexical_document ks docId, fun hk => ?_, fun hk => ?_,
    fun {docId' bytes listed rest} _ hv hlisted => ?_⟩
  · rw [hkind] at hk
    cases hk
  · rw [hkind] at hk
    cases hk
  · unfold Index.listing at hv
    dsimp only at hv
    split at hv
    · cases hv
    · cases hv
      rw [hread] at hlisted
      cases hlisted
      exact h

/-- What is not under the keys of the index is nothing to it. -/
theorem proper_of_not_lead (h : ¬ks.lead <+: w.1) : ks.Proper K w := by
  have hkind : ks.kind? w.1 = none := by
    unfold kind?
    cases hafter : Bytes.after? ks.lead w.1 with
    | none => rfl
    | some rest => exact absurd ⟨rest, (Bytes.eq_append_of_after? hafter).symm⟩ h
  refine ⟨?_, fun hk => ?_, fun hk => ?_, fun {docId _ _ _} hk => absurd hk fun heq => ?_⟩
  · unfold Lexical
    rw [hkind]
    simp
  · rw [hkind] at hk
    cases hk
  · rw [hkind] at hk
    cases hk
  · have hdocument := ks.kind?_document docId
    rw [← heq, hkind] at hdocument
    cases hdocument

/-- Entries other than these lead where they led. -/
theorem find?_held_write (h : k ≠ w.1) : (σ.write w).held.find? k = σ.held.find? k := by
  have hone : ∀ w' ∈ [w], w'.1 ≠ k := by
    intro w' hw'
    rw [List.mem_singleton.mp hw']
    exact h.symm
  exact Slate.find?_held_writes hone

/-- A proper entry leaves the lexicon alone. -/
theorem Proper.lexical_write (h : ks.Proper K w) :
    ∀ k, ks.Lexical k → (σ.write w).held.find? k = σ.held.find? k := fun _ hk =>
  find?_held_write fun heq => h.apart (heq ▸ hk)

/-- It leaves a slate tidy. -/
theorem Tidy.write (h : ks.Tidy K σ) (hw : ks.Proper K w) : ks.Tidy K (σ.write w) := by
  obtain ⟨m, pending⟩ := σ
  cases pending with
  | none =>
      refine ⟨fun {k v} hv hk => ?_, fun hp => by cases hp⟩
      change (m.write (w.1, w.2)).find? k = some v at hv
      rw [KeyMap.find?_write] at hv
      split at hv
      · next heq =>
          cases hentry : w.2 with
          | tombstone =>
              rw [hentry] at hv
              cases hv
          | value u =>
              rw [hentry] at hv
              cases hv
              rw [heq, ← hentry]
              exact hw
      · exact h.held hv hk
  | some p =>
      refine ⟨h.held, fun {p' k e} hp he => ?_⟩
      cases hp
      rw [KeyMap.find?_insert] at he
      split at he
      · next heq =>
          cases he
          rw [heq]
          exact hw
      · exact h.pending rfl he

/-- So do several. -/
theorem Tidy.writes {ws : List (Bytes × Entry)} (h : ks.Tidy K σ)
    (hws : ∀ w ∈ ws, ks.Proper K w) : ks.Tidy K (σ.writes ws) := by
  induction ws generalizing σ with
  | nil => exact h
  | cons w ws ih =>
      exact ih (h.write (hws w List.mem_cons_self)) fun w' hw' =>
        hws w' (List.mem_cons_of_mem _ hw')

/-- Tokens that are given leave a slate tidy. -/
theorem Tidy.grown (h : ks.Tidy K σ) (hgrown : ks.Grown σ.held m') :
    ks.Tidy K ⟨m', σ.pending⟩ := by
  refine ⟨fun hv hk => ?_, h.pending⟩
  change m'.find? _ = _ at hv
  rw [hgrown.rest _ hk] at hv
  exact h.held hv hk

/-- What is held is tidy whatever is pending. -/
theorem Tidy.base (h : ks.Tidy K σ) : ks.Tidy K ⟨σ.held, none⟩ :=
  ⟨h.held, nofun⟩

/-- Nothing is wrong with a transaction in which nothing is pending. -/
theorem Tidy.opened (h : ks.Tidy K ⟨m, none⟩) : ks.Tidy K ⟨m, some .empty⟩ := by
  refine ⟨h.held, fun hp he => ?_⟩
  cases hp
  rw [KeyMap.find?_empty] at he
  cases he

/-- What is pending is tidy whatever is held, as long as its tokens count. -/
theorem Tidy.moved {p : Pending} (h : ks.Tidy K ⟨m, some p⟩) (h' : ks.Tidy K' ⟨m', none⟩)
    (hK : ∀ token, K token → K' token) : ks.Tidy K' ⟨m', some p⟩ :=
  ⟨h'.held, fun hp he => (h.pending hp he).mono hK⟩

/-- What is listed under a document are postings of these tokens. -/
theorem Tidy.listed (h : ks.Tidy K σ) (docId : String) :
    ∀ k ∈ ks.listedIn σ.seen docId, ks.Posts K k := by
  intro k hk
  have hdocument := Index.not_lexical_document ks docId
  have hvalue {bytes : Bytes} (hv : σ.seen.find? (ks.document docId) = some bytes) :
      ks.Proper K (ks.document docId, .value bytes) := by
    obtain ⟨m, pending⟩ := σ
    cases pending with
    | none => exact h.held hv hdocument
    | some p =>
        change (m.laid p).find? _ = _ at hv
        rw [KeyMap.find?_laid, KeyMap.find?_or_entry] at hv
        cases he : p.find? (ks.document docId) with
        | none =>
            rw [he] at hv
            exact h.held hv hdocument
        | some e =>
            rw [he] at hv
            cases e with
            | tombstone => cases hv
            | value v =>
                cases hv
                exact h.pending rfl he
  unfold listedIn at hk
  cases hv : σ.seen.find? (ks.document docId) with
  | none =>
      rw [hv] at hk
      exact absurd hk List.not_mem_nil
  | some bytes =>
      rw [hv] at hk
      cases hread : Wire.readBlobs bytes with
      | error f =>
          simp only [hread] at hk
          exact absurd hk List.not_mem_nil
      | ok found =>
          obtain ⟨postings, rest⟩ := found
          simp only [hread] at hk
          exact (hvalue hv).list rfl rfl hread k hk

/-- Its tokens are those. -/
theorem Tidy.of_listedTokens (h : ks.Tidy K σ) {docId : String}
    (ht : token ∈ Index.listedTokens ks σ.seen docId) : K token := by
  obtain ⟨k, hk, hread⟩ := List.mem_filterMap.mp ht
  obtain ⟨token', d, -, rfl, htoken⟩ := h.listed docId k hk
  rw [ks.postingToken?_posting] at hread
  cases hread
  exact htoken

/-- Where something proper is pending the lexicon is seen as it is held. -/
theorem Tidy.lexical_laid {m : KeyMap Bytes} {p : Pending} (h : ks.Tidy K ⟨m, some p⟩) :
    ∀ k, ks.Lexical k → (m.laid p).find? k = m.find? k := by
  intro k hk
  refine KeyMap.find?_laid_of_none ?_
  cases he : p.find? k with
  | none => rfl
  | some e => exact absurd hk (h.pending rfl he).apart

/-- What is pending may be held. -/
theorem Tidy.laid {m : KeyMap Bytes} {p : Pending} (h : ks.Tidy K ⟨m, some p⟩) :
    ks.Tidy K ⟨m.laid p, none⟩ := by
  refine ⟨fun {k v} hv hk => ?_, fun hp => by cases hp⟩
  change (m.laid p).find? k = some v at hv
  rw [KeyMap.find?_laid, KeyMap.find?_or_entry] at hv
  cases he : p.find? k with
  | none =>
      rw [he] at hv
      exact h.held hv hk
  | some e =>
      rw [he] at hv
      cases e with
      | tombstone => cases hv
      | value u =>
          cases hv
          exact h.pending rfl he

-- ============================================================ what is filed

section Filed

open Index

variable {docId sortKey : String} {terms : List Term} {gone tokens : List UInt64} {stamp : UInt64}
  {ws : List (Bytes × Entry)}

/-- What is deleted of a document is proper. -/
theorem Tidy.proper_cleared (h : ks.Tidy K σ) (docId : String) :
    ∀ w ∈ cleared ks σ.seen docId, ks.Proper K w := by
  intro w hw
  obtain ⟨k, hk, rfl⟩ := List.mem_map.mp hw
  exact (h.listed docId k hk).proper _

/-- So is what is written for it, if its tokens are among these. -/
theorem proper_filed
    (hsize : listingBound ks ⟨cleanSortKey sortKey, docId⟩ tokens.length < UInt64.size)
    (htokens : ∀ token ∈ gone ++ tokens, K token) :
    ∀ w ∈ filed ks docId sortKey gone tokens stamp, ks.Proper K w := by
  have hposts : ∀ k ∈ postingsOf ks ⟨cleanSortKey sortKey, docId⟩ tokens, ks.Posts K k := by
    intro k hk
    obtain ⟨token, htoken, rfl⟩ := mem_postingsOf.mp hk
    have hparsable : DocKey.Parsable ⟨cleanSortKey sortKey, docId⟩ := plain_cleanSortKey sortKey
    exact ⟨token, _, hparsable, rfl, htokens token (List.mem_append_right _ htoken)⟩
  intro w hw
  rcases List.mem_append.mp hw with hw | hw
  · rcases List.mem_append.mp hw with hw | hw
    · obtain ⟨k, hk, rfl⟩ := List.mem_map.mp hw
      exact (hposts k hk).proper _
    · rw [List.mem_singleton.mp hw]
      exact proper_listing hposts (lt_of_le_of_lt (length_blobs_postingsOf _ _ _) hsize)
  · obtain ⟨token, htoken, rfl⟩ := List.mem_map.mp hw
    exact proper_mark (htokens token (mem_sortTokens.mp htoken)) _

/-- What begins like the postings of a token is a posting of that token, if
it is a posting. -/
theorem token_of_posts {k : Bytes} (h : ks.Posts K k) (hk : ks.postings token <+: k) : K token := by
  obtain ⟨token', d, -, rfl, htoken⟩ := h
  rwa [ks.token_of_prefix hk]

/-- A filing writes postings of its own tokens only. -/
theorem mem_of_filed {w : Bytes × Entry} (hw : w ∈ filed ks docId sortKey gone tokens stamp)
    (hk : ks.postings token <+: w.1) : token ∈ tokens := by
  have hkind := kind?_of_postings hk
  rcases List.mem_append.mp hw with hw | hw
  · rcases List.mem_append.mp hw with hw | hw
    · obtain ⟨k, hmem, rfl⟩ := List.mem_map.mp hw
      obtain ⟨token', htoken, rfl⟩ := mem_postingsOf.mp hmem
      rwa [ks.token_of_prefix hk]
    · rw [List.mem_singleton.mp hw] at hkind
      change ks.kind? (ks.document docId) = _ at hkind
      rw [ks.kind?_document] at hkind
      cases hkind
  · obtain ⟨token', -, rfl⟩ := List.mem_map.mp hw
    change ks.kind? (ks.mark token') = _ at hkind
    rw [ks.kind?_mark] at hkind
    cases hkind

end Filed

end IndexKeys

end OrderedStore
