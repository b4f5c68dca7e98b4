/-
What an index holds.

An index is told of documents: a sort key and terms for each. What it has
to hold for them is said of the map that its database reads as. The lexicon
gives every term and word a token of its own, below the number of the next
one (`Lexed`). A posting stands under a token for a document if the document
has a term of that token, and what is listed under a document are its
postings (`Posted`). Only keys of the index count, by their kinds, so
whatever is written elsewhere, or as a mark, leaves this as it is.
-/
import Mathlib
import OrderedStore.Proofs.Postings

namespace OrderedStore

-- ============================================================== documents

/-- What an index is told of a document: its sort key, as it is written,
and its terms. -/
structure Filing where
  sortKey : String
  terms : List Term
deriving DecidableEq, Repr

/-- The documents of an index, with what it was told of them last. -/
abbrev Documents := String → Option Filing

/-- Whether a query finds what the index was told of a document. -/
def Documents.hit (docs : Documents) (test : List Term → Bool) (d : DocKey) : Bool :=
  (docs d.docId).any fun f => f.sortKey == d.sortKey && test f.terms

/-- A document is a hit if what was told of it passes the test. -/
theorem Documents.hit_iff {docs : Documents} {test : List Term → Bool} {d : DocKey} :
    docs.hit test d = true ↔
      ∃ f, docs d.docId = some f ∧ f.sortKey = d.sortKey ∧ test f.terms = true := by
  unfold hit
  rw [Option.any_eq_true]
  simp only [Bool.and_eq_true, beq_iff_eq]

namespace IndexKeys

variable (ks : IndexKeys) (m : KeyMap Bytes)

-- ================================================================ lexicon

/-- The token that the lexicon has for a term and a word. -/
def tokenIn (term raw : String) : Option UInt64 :=
  (m.find? (ks.lexicon term raw)).bind fun bytes =>
    (LexiconEntry.decode bytes).toOption.map LexiconEntry.token

/-- The entry that can be read under a key. -/
def entryAt (k : Bytes) : Option LexiconEntry :=
  (m.find? k).bind fun bytes => (LexiconEntry.decode bytes).toOption

/-- The token that the lexicon has for a term as it comes from a text. -/
def tokenFor (t : Term) : Option UInt64 :=
  ks.tokenIn m t.index (Index.stored t.index t.raw)

/-- The number of the next token. -/
def nextIn : Nat :=
  match m.find? ks.nextToken with
  | none => 1
  | some bytes =>
    match (Codec.readFixed64 bytes).1 with
    | .ok token => token.toNat
    | .error _ => 0

/-- The lexicon: its keys and values can be read, no two entries have one
token, all tokens are below the next one, and a token leads back to its
entry. -/
structure Lexed : Prop where
  entry : ∀ k v, m.find? k = some v → ks.kind? k = some 108 →
    ∃ term raw e, Plain term ∧ k = ks.lexicon term raw ∧ v = LexiconEntry.encode e
  injective : ∀ {term raw term' raw' token}, Plain term → Plain term' →
    ks.tokenIn m term raw = some token → ks.tokenIn m term' raw' = some token →
    term = term' ∧ raw = raw'
  fresh : ∀ {term raw token}, ks.tokenIn m term raw = some token → token.toNat < ks.nextIn m
  reverse : ∀ token l, m.find? (ks.reverse token) = some l →
    ∃ term raw, Plain term ∧ l = ks.lexicon term raw ∧ ks.tokenIn m term raw = some token

-- =============================================================== postings

/-- The document has a term of the token. -/
def Files (docs : Documents) (token : UInt64) (d : DocKey) : Prop :=
  ∃ f, docs d.docId = some f ∧ f.sortKey = d.sortKey ∧
    ∃ t ∈ f.terms, ks.tokenFor m t = some token

/-- The postings that are listed under a document. -/
def listedIn (docId : String) : List Bytes :=
  match m.find? (ks.document docId) with
  | none => []
  | some bytes =>
    match Wire.readBlobs bytes with
    | .error _ => []
    | .ok (postings, _) => postings

/-- The value is a list of postings: one at least, in strict order, and
nothing else. -/
def Listing (bytes : Bytes) : Prop :=
  ∃ postings, Wire.readBlobs bytes = .ok (postings, []) ∧ postings ≠ [] ∧
    postings.Pairwise (· < ·)

/-- The postings: those of the documents' terms, each listed under its
document. -/
structure Posted (docs : Documents) : Prop where
  plain : ∀ {docId f}, docs docId = some f → Plain f.sortKey ∧ ∀ t ∈ f.terms, Plain t.index
  tokens : ∀ {docId f}, docs docId = some f → ∀ t ∈ f.terms, (ks.tokenFor m t).isSome = true
  shaped : ∀ k v, m.find? k = some v → ks.kind? k = some 105 →
    ∃ token d, d.Parsable ∧ k = ks.posting token d
  posted : ∀ token d, d.Parsable →
    ((m.find? (ks.posting token d)).isSome = true ↔ ks.Files m docs token d)
  listed : ∀ docId k, k ∈ ks.listedIn m docId ↔
    ∃ token d, d.docId = docId ∧ k = ks.posting token d ∧ ks.Files m docs token d
  ordered : ∀ docId bytes, m.find? (ks.document docId) = some bytes → Listing bytes

variable {ks m} {docs : Documents}

/-- The token of a term and a word is that of their entry. -/
theorem tokenIn_eq (ks : IndexKeys) (m : KeyMap Bytes) (term raw : String) :
    ks.tokenIn m term raw = (entryAt m (ks.lexicon term raw)).map LexiconEntry.token := by
  unfold tokenIn entryAt
  cases m.find? (ks.lexicon term raw) <;> rfl

/-- Where a key leads to the same, there is the same entry. -/
theorem entryAt_congr {m' : KeyMap Bytes} {k : Bytes} (h : m'.find? k = m.find? k) :
    entryAt m' k = entryAt m k := by
  unfold entryAt
  rw [h]

/-- An entry that is written can be read. -/
theorem entryAt_of_find? {k : Bytes} {e : LexiconEntry} (h : m.find? k = some e.encode) :
    entryAt m k = some e := by
  unfold entryAt
  rw [h]
  show (LexiconEntry.decode e.encode).toOption = _
  rw [LexiconEntry.decode_encode]
  rfl

/-- The token of a lexicon entry that is there. -/
theorem tokenIn_of_find? {term raw : String} {e : LexiconEntry}
    (h : m.find? (ks.lexicon term raw) = some e.encode) : ks.tokenIn m term raw = some e.token := by
  rw [tokenIn_eq, entryAt_of_find? h]
  rfl

/-- A token comes from an entry that is there. -/
theorem Lexed.find?_of_tokenIn (h : ks.Lexed m) {term raw : String} {token : UInt64}
    (ht : ks.tokenIn m term raw = some token) :
    ∃ e : LexiconEntry, m.find? (ks.lexicon term raw) = some e.encode ∧ e.token = token := by
  cases hv : m.find? (ks.lexicon term raw) with
  | none =>
      unfold tokenIn at ht
      rw [hv] at ht
      cases ht
  | some v =>
      obtain ⟨-, -, e, -, -, rfl⟩ := h.entry _ v hv (ks.kind?_lexicon term raw)
      refine ⟨e, rfl, ?_⟩
      rw [tokenIn_of_find? hv] at ht
      exact Option.some.inj ht

-- ======================================================= posted documents

/-- The document of a posting key. -/
def documentOf? (ks : IndexKeys) (key : Bytes) : Option DocKey := do
  let rest ← ks.afterPart? "i/" key
  match Codec.readOrdered rest with
  | (.ok _, _ :: tail) => DocKey.ofTail? tail
  | _ => none

/-- A posting key leads back to its document. -/
theorem documentOf?_posting (token : UInt64) {d : DocKey} (hd : d.Parsable) :
    ks.documentOf? (ks.posting token d) = some d := by
  have hafter : ks.afterPart? "i/" (ks.posting token d)
      = some (Codec.ordered token ++ ([DocKey.delimiter] ++ d.tail)) := by
    unfold afterPart? posting postings
    rw [List.append_assoc, List.append_assoc, Bytes.after?_append]
  unfold documentOf?
  rw [hafter]
  simp only [Option.bind_eq_bind, Option.bind_some, Codec.readOrdered_ordered]
  exact DocKey.ofTail?_tail hd

/-- The documents with a posting, in order. -/
def postedDocs (ks : IndexKeys) (m : KeyMap Bytes) : List DocKey :=
  (KeyMap.ofList ((m.entries.filterMap fun p => ks.documentOf? p.1).map
    fun d => (d.tail, d))).entries.map Prod.snd

/-- Whatever is read off a key is a document that can be read back. -/
theorem parsable_of_documentOf? {k : Bytes} {d : DocKey} (hd : ks.documentOf? k = some d) :
    d.Parsable := by
  unfold documentOf? at hd
  obtain ⟨rest, -, hd⟩ := Option.bind_eq_some_iff.mp hd
  split at hd
  · exact (DocKey.ofTail?_eq_some_iff.mp hd).2
  · cases hd

/-- The pairs that the universe is made from. -/
theorem mem_pairs {k : Bytes} {d : DocKey}
    (hd : (k, d) ∈ (m.entries.filterMap fun p => ks.documentOf? p.1).map fun d => (d.tail, d)) :
    k = d.tail ∧ d.Parsable := by
  obtain ⟨e, he, heq⟩ := List.mem_map.mp hd
  cases heq
  obtain ⟨p, -, hdoc⟩ := List.mem_filterMap.mp he
  exact ⟨rfl, parsable_of_documentOf? hdoc⟩

/-- A document with a posting is one of them. -/
theorem mem_postedDocs {token : UInt64} {d : DocKey} (hd : d.Parsable)
    (hp : (m.find? (ks.posting token d)).isSome = true) : d ∈ ks.postedDocs m := by
  obtain ⟨v, hv⟩ := Option.isSome_iff_exists.mp hp
  have hmem : (d.tail, d)
      ∈ (m.entries.filterMap fun p => ks.documentOf? p.1).map fun d => (d.tail, d) :=
    List.mem_map.mpr ⟨d, List.mem_filterMap.mpr
      ⟨_, KeyMap.mem_entries.mpr hv, documentOf?_posting token hd⟩, rfl⟩
  obtain ⟨e, he⟩ := lastWrite_of_mem hmem
  obtain ⟨htail, hparse⟩ := mem_pairs (mem_of_lastWrite he)
  obtain rfl : d = e := DocKey.tail_injective hd hparse htail
  rw [← find?_ofList] at he
  exact List.mem_map.mpr ⟨_, KeyMap.mem_entries.mpr he, rfl⟩

/-- They are a universe. -/
theorem universe_postedDocs (ks : IndexKeys) (m : KeyMap Bytes) : Universe (ks.postedDocs m) := by
  have hpairs : ∀ p ∈ (KeyMap.ofList ((m.entries.filterMap fun p => ks.documentOf? p.1).map
      fun d => (d.tail, d))).entries, p.1 = p.2.tail ∧ p.2.Parsable := by
    intro ⟨k, d⟩ hp
    have hfound := KeyMap.mem_entries.mp hp
    rw [find?_ofList] at hfound
    exact mem_pairs (mem_of_lastWrite hfound)
  refine ⟨List.pairwise_map.mpr ?_, fun d hd => ?_⟩
  · refine (KeyMap.sorted _).imp_of_mem fun {p q} hp hq hlt => ?_
    rw [(hpairs p hp).1, (hpairs q hq).1] at hlt
    exact decide_eq_true hlt
  · obtain ⟨p, hp, rfl⟩ := List.mem_map.mp hd
    exact (hpairs p hp).2

/-- They are no more than the map has pairs. -/
theorem length_postedDocs_le (ks : IndexKeys) (m : KeyMap Bytes) :
    (ks.postedDocs m).length ≤ m.size := by
  have hsize := size_ofList_le ((m.entries.filterMap fun p => ks.documentOf? p.1).map
    fun d => (d.tail, d))
  rw [List.length_map] at hsize
  unfold postedDocs
  rw [List.length_map]
  exact le_trans hsize (List.length_filterMap_le _ _)

/-- What begins like the postings of a token and is read as the posting of a
document is that of one of them. -/
theorem shaped_postings (ks : IndexKeys) (m : KeyMap Bytes) (token : UInt64) :
    Postings.Shaped m (ks.postedDocs m) (ks.postings token) := by
  intro tail v d hk hread
  obtain ⟨rfl, hparse⟩ := DocKey.ofTail?_eq_some_iff.mp hread
  have hposted : (m.find? (ks.posting token d)).isSome = true := by
    unfold posting
    rw [hk]
    rfl
  exact mem_postedDocs hparse hposted

end IndexKeys

end OrderedStore
