/-
The keys of an index can be told apart.

Behind the lead of an index stands one byte that says what a key is for,
and it is a different one for each kind (`kind?`). Within a kind the parts
of a key are found again: numbers delimit themselves, and a term ends at
the first tab, if it has none itself. So a search for what begins like the
postings of a token meets the postings of that token only, and a search for
what begins like a term meets the lexicon entries of that term only.
-/
import Mathlib
import OrderedStore.Proofs.Encoding

namespace OrderedStore

-- ============================================================== documents

namespace DocKey

/-- The sort key has no delimiter, so the document is found again from the
end of a posting key. -/
def Parsable (d : DocKey) : Prop :=
  Plain d.sortKey

/-- A document is read back. -/
theorem ofTail?_tail {d : DocKey} (h : d.Parsable) : ofTail? d.tail = some d := by
  unfold ofTail? tail
  rw [Bytes.splitAt?_append h]
  simp only [Text.ofBytes?_toBytes]

/-- Nothing else is read as a document. -/
theorem ofTail?_eq_some_iff {tail : Bytes} {d : DocKey} :
    ofTail? tail = some d ↔ tail = d.tail ∧ d.Parsable := by
  constructor
  · intro h
    unfold ofTail? at h
    split at h
    · cases h
    · next sortKey docId hsplit =>
        obtain ⟨rfl, hplain⟩ := Bytes.splitAt?_eq_some_iff.mp hsplit
        split at h
        · next s e hsort hdoc =>
            cases h
            unfold Parsable Plain DocKey.tail
            rw [Text.toBytes_of_ofBytes? hsort, Text.toBytes_of_ofBytes? hdoc]
            exact ⟨rfl, hplain⟩
        · cases h
  · rintro ⟨rfl, h⟩
    exact ofTail?_tail h

/-- Different documents have different ends of posting keys. -/
theorem tail_injective {d e : DocKey} (hd : d.Parsable) (he : e.Parsable)
    (h : d.tail = e.tail) : d = e := by
  have hread := ofTail?_tail hd
  rw [h, ofTail?_tail he] at hread
  exact (Option.some.inj hread).symm

end DocKey

namespace IndexKeys

variable (ks : IndexKeys)

-- ================================================================== kinds

/-- The byte that says what a key of the index is for. -/
def kind? (key : Bytes) : Option UInt8 :=
  (Bytes.after? ks.lead key).bind List.head?

/-- It is the first byte of the part. -/
theorem kind?_part {part : String} {b : UInt8} {bs : Bytes}
    (hpart : Text.toBytes part = b :: bs) (rest : Bytes) :
    ks.kind? (ks.part part ++ rest) = some b := by
  unfold kind? IndexKeys.part
  rw [List.append_assoc, Bytes.after?_append, hpart]
  rfl

/-- What begins like a part is of its kind. -/
theorem kind?_of_prefix {part : String} {b : UInt8} {bs key : Bytes}
    (hpart : Text.toBytes part = b :: bs) (h : ks.part part <+: key) :
    ks.kind? key = some b := by
  obtain ⟨rest, rfl⟩ := h
  exact ks.kind?_part hpart rest

@[simp] theorem kind?_posting (token : UInt64) (d : DocKey) :
    ks.kind? (ks.posting token d) = some 105 := by
  unfold posting postings
  rw [List.append_assoc, List.append_assoc]
  exact ks.kind?_part rfl _

@[simp] theorem kind?_lexicon (term raw : String) :
    ks.kind? (ks.lexicon term raw) = some 108 := by
  unfold lexicon lexiconOf lexiconFrom
  rw [List.append_assoc, List.append_assoc]
  exact ks.kind?_part rfl _

@[simp] theorem kind?_reverse (token : UInt64) : ks.kind? (ks.reverse token) = some 114 :=
  ks.kind?_part rfl _

@[simp] theorem kind?_mark (token : UInt64) : ks.kind? (ks.mark token) = some 116 :=
  ks.kind?_part rfl _

@[simp] theorem kind?_nextToken : ks.kind? ks.nextToken = some 109 := by
  have hparts : ks.nextToken = ks.part "m/" ++ Text.toBytes "next_id" := by
    unfold nextToken part
    rw [List.append_assoc]
    rfl
  rw [hparts]
  exact ks.kind?_part rfl _

@[simp] theorem kind?_document (docId : String) :
    ks.kind? (ks.document docId) = some 100 :=
  ks.kind?_part rfl _

/-- Keys of different kinds are different. -/
theorem ne_of_kind? {k l : Bytes} (h : ks.kind? k ≠ ks.kind? l) : k ≠ l := by
  rintro rfl
  exact h rfl

-- =============================================================== postings

/-- A posting begins like the postings of its own token only. -/
theorem token_of_prefix {token token' : UInt64} {d : DocKey}
    (h : ks.postings token <+: ks.posting token' d) : token = token' := by
  obtain ⟨rest, hrest⟩ := h
  unfold posting postings at hrest
  simp only [List.append_assoc] at hrest
  exact (Codec.ordered_append_inj (List.append_cancel_left hrest)).1

/-- Different postings have different keys. -/
theorem posting_inj {token token' : UInt64} {d e : DocKey}
    (h : ks.posting token d = ks.posting token' e) : token = token' ∧ d.tail = e.tail := by
  unfold posting postings at h
  simp only [List.append_assoc] at h
  obtain ⟨htoken, hrest⟩ := Codec.ordered_append_inj (List.append_cancel_left h)
  exact ⟨htoken, List.append_cancel_left hrest⟩

/-- Postings of parsable documents are told apart. -/
theorem posting_inj_parsable {ks : IndexKeys} {token token' : UInt64} {d e : DocKey}
    (hd : d.Parsable) (he : e.Parsable) (h : ks.posting token d = ks.posting token' e) :
    token = token' ∧ d = e := by
  obtain ⟨htoken, htail⟩ := ks.posting_inj h
  exact ⟨htoken, DocKey.tail_injective hd he htail⟩

/-- A posting key leads back to its token. -/
theorem postingToken?_posting (token : UInt64) (d : DocKey) :
    ks.postingToken? (ks.posting token d) = some token := by
  have hafter : ks.afterPart? "i/" (ks.posting token d)
      = some (Codec.ordered token ++ ([DocKey.delimiter] ++ d.tail)) := by
    unfold afterPart? posting postings
    rw [List.append_assoc, List.append_assoc, Bytes.after?_append]
  unfold postingToken?
  rw [hafter]
  simp only [Option.bind_eq_bind, Option.bind_some, Codec.readOrdered_ordered]
  rfl

-- ================================================================ lexicon

/-- The parts of a lexicon key are found again. -/
theorem parseLexicon?_lexicon {term : String} (h : Plain term) (raw : String) :
    ks.parseLexicon? (ks.lexicon term raw) = some (term, raw) := by
  have hafter : ks.afterPart? "l/" (ks.lexicon term raw)
      = some (Text.toBytes term ++ DocKey.delimiter :: Text.toBytes raw) := by
    unfold afterPart? lexicon lexiconOf lexiconFrom
    rw [List.append_assoc, List.append_assoc, Bytes.after?_append]
    rfl
  unfold parseLexicon?
  rw [hafter]
  simp only [Option.bind_eq_bind, Option.bind_some, Bytes.splitAt?_append h,
    Text.ofBytes?_toBytes]
  rfl

/-- Different terms and words have different lexicon keys. -/
theorem lexicon_inj {term term' raw raw' : String} (h : Plain term) (h' : Plain term')
    (heq : ks.lexicon term raw = ks.lexicon term' raw') : term = term' ∧ raw = raw' := by
  have hread := ks.parseLexicon?_lexicon h raw
  rw [heq, ks.parseLexicon?_lexicon h' raw'] at hread
  cases hread
  exact ⟨rfl, rfl⟩

/-- What is plain and begins like a string with a delimiter in it begins
like what stands before the delimiter. -/
theorem prefix_of_plain {front bs rest : Bytes} (h : DocKey.delimiter ∉ front)
    (hpre : front <+: bs ++ DocKey.delimiter :: rest) : front <+: bs := by
  have hbs : bs ++ [DocKey.delimiter] <+: bs ++ DocKey.delimiter :: rest :=
    ⟨rest, by rw [List.append_assoc]; rfl⟩
  have hmem : DocKey.delimiter ∈ bs ++ [DocKey.delimiter] :=
    List.mem_append_right _ (List.mem_singleton_self _)
  rcases List.prefix_or_prefix_of_prefix hpre hbs with hshort | hlong
  · rcases List.prefix_concat_iff.mp hshort with heq | hfront
    · rw [← heq] at hmem
      exact absurd hmem h
    · exact hfront
  · exact absurd (hlong.subset hmem) h

/-- What begins like a beginning of terms is a lexicon key. -/
theorem kind?_of_lexiconFrom {lead : String} {key : Bytes} (h : ks.lexiconFrom lead <+: key) :
    ks.kind? key = some 108 :=
  ks.kind?_of_prefix rfl ((List.prefix_append _ _).trans h)

/-- A lexicon key begins like the terms that its own term begins like. -/
theorem lexiconFrom_prefix_iff {lead : String} (h : Plain lead) (term raw : String) :
    ks.lexiconFrom lead <+: ks.lexicon term raw ↔ Text.toBytes lead <+: Text.toBytes term := by
  have hparts : ks.lexicon term raw
      = ks.part "l/" ++ (Text.toBytes term ++ DocKey.delimiter :: Text.toBytes raw) := by
    unfold lexicon lexiconOf lexiconFrom
    rw [List.append_assoc, List.append_assoc]
    rfl
  rw [hparts]
  unfold lexiconFrom
  rw [List.prefix_append_right_inj]
  constructor
  · exact prefix_of_plain h
  · exact fun hpre => hpre.trans (List.prefix_append _ _)

/-- A lexicon key begins like those of its own term only. -/
theorem lexiconOf_prefix_iff {term term' : String} (h : Plain term) (h' : Plain term')
    (raw : String) : ks.lexiconOf term <+: ks.lexicon term' raw ↔ term = term' := by
  constructor
  · rintro ⟨rest, hrest⟩
    unfold lexicon lexiconOf lexiconFrom at hrest
    simp only [List.append_assoc] at hrest
    have hsame := List.append_cancel_left hrest
    have hread := Bytes.splitAt?_append h rest
    rw [← List.singleton_append, hsame, List.singleton_append, Bytes.splitAt?_append h'] at hread
    exact Text.toBytes_injective (Prod.mk.inj (Option.some.inj hread)).1.symm
  · rintro rfl
    exact List.prefix_append _ _

-- =============================================================== the rest

/-- Different tokens have different keys back to the lexicon. -/
theorem reverse_inj {token token' : UInt64} (h : ks.reverse token = ks.reverse token') :
    token = token' := by
  unfold reverse at h
  have hsame : Codec.ordered token ++ [] = Codec.ordered token' ++ [] := by
    rw [List.append_nil, List.append_nil]
    exact List.append_cancel_left h
  exact (Codec.ordered_append_inj hsame).1

/-- Different documents have different keys. -/
theorem document_inj {docId docId' : String} (h : ks.document docId = ks.document docId') :
    docId = docId' :=
  Text.toBytes_injective (List.append_cancel_left h)

end IndexKeys

end OrderedStore
