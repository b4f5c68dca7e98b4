/-
Posting keys and their order.

A posting's key is the lead of the index, the token in ordered encoding, a tab,
and the document, which is its sort key, a tab and its name. Two things could
spoil it: the encoded token may hold a tab, and a sort key may be another one
with bytes behind it that are below the tab. Neither does. The token delimits
itself, so the tab behind it is not looked for, and its order is that of the
numbers whatever stands behind it (`Codec.keeps_ordered`); and documents are not
in the order of their sort keys, but in that of the ends of their keys, which is
how a key puts them anyway. Only a tab in a sort key would make two documents
of one key, and a name may have as many as it likes.
-/
import Mathlib
import OrderedStore.Proofs.EncodingOrder
import OrderedStore.Proofs.IndexKeys

namespace OrderedStore.IndexKeys

variable (ks : IndexKeys) {t t' : UInt64} {d d' : DocKey}

/-- What stands behind the beginning of a token's postings is the document. -/
theorem drop_posting (t : UInt64) (d : DocKey) :
    (ks.posting t d).drop (ks.postings t).length = d.tail :=
  List.drop_left

/-- A posting begins like the postings of its own token, and of no other. -/
theorem postings_prefix_iff : ks.postings t' <+: ks.posting t d ↔ t = t' := by
  constructor
  · exact fun h => (ks.token_of_prefix h).symm
  · rintro rfl
    exact List.prefix_append _ _

/-- Postings are in the order of their tokens, and those of one token in the
order of the ends of their keys. -/
theorem posting_lt_iff :
    ks.posting t d < ks.posting t' d' ↔ t < t' ∨ t = t' ∧ d.before d' = true := by
  have hparts (t : UInt64) (d : DocKey) : ks.posting t d
      = ks.part "i/" ++ (Codec.ordered t ++ ([DocKey.delimiter] ++ d.tail)) := by
    unfold posting postings
    rw [List.append_assoc, List.append_assoc]
  have hbefore : d.before d' = true ↔ d.tail < d'.tail := decide_eq_true_iff
  rw [hparts, hparts, Bytes.append_lt_append_iff, Codec.keeps_ordered.append_lt_iff,
    Bytes.append_lt_append_iff, hbefore]

/-- Postings of documents whose sort keys have no tab are equal only if they are
of the same token and the same document. -/
theorem posting_eq_iff (hd : d.Parsable) (hd' : d'.Parsable) :
    ks.posting t d = ks.posting t' d' ↔ t = t' ∧ d = d' := by
  constructor
  · exact posting_inj_parsable hd hd'
  · rintro ⟨rfl, rfl⟩
    rfl

/-- A posting's key tells its token and its document, and keys are in the order
of their tokens and then of their documents. Nothing is asked of names; sort
keys have no tab. -/
theorem posting_keys_faithful (ks : IndexKeys) (t t' : UInt64) {d d' : DocKey}
    (hd : Term.delimiter ∉ d.sortKey.toList) (hd' : Term.delimiter ∉ d'.sortKey.toList) :
    ks.postingToken? (ks.posting t d) = some t ∧
      DocKey.ofTail? ((ks.posting t d).drop (ks.postings t).length) = some d ∧
      (ks.postings t' <+: ks.posting t d ↔ t = t') ∧
      (ks.posting t d < ks.posting t' d' ↔ t < t' ∨ t = t' ∧ d.before d' = true) ∧
      (ks.posting t d = ks.posting t' d' ↔ t = t' ∧ d = d') := by
  have hparsable : d.Parsable := plain_of_not_mem hd
  have hparsable' : d'.Parsable := plain_of_not_mem hd'
  refine ⟨ks.postingToken?_posting t d, ?_, ks.postings_prefix_iff, ks.posting_lt_iff,
    ks.posting_eq_iff hparsable hparsable'⟩
  rw [drop_posting, DocKey.ofTail?_tail hparsable]

/-- A document whose sort key is another's with a byte behind it that is below
the tab, and whose name has tabs. -/
def extendedDoc : DocKey :=
  ⟨"a\x01", "\t\t"⟩

/-- The document with the shorter sort key, and no name. -/
def shortDoc : DocKey :=
  ⟨"a", ""⟩

/-- The token nine is encoded with a tab. The document with the longer sort key
comes first, before all the documents of the next token that is encoded with two
digits. -/
theorem posting_keys_faithful_extendedDoc :
    Term.delimiter ∉ extendedDoc.sortKey.toList ∧ Term.delimiter ∉ shortDoc.sortKey.toList ∧
      (ofName "x").postingToken? ((ofName "x").posting 9 extendedDoc) = some 9 ∧
      (ofName "x").posting 9 extendedDoc < (ofName "x").posting 9 shortDoc ∧
      (ofName "x").posting 9 shortDoc < (ofName "x").posting 256 extendedDoc := by
  have hextended : Term.delimiter ∉ extendedDoc.sortKey.toList := by decide
  have hshort : Term.delimiter ∉ shortDoc.sortKey.toList := by decide
  obtain ⟨htoken, -, -, hlt, -⟩ := posting_keys_faithful (ofName "x") 9 9 hextended hshort
  obtain ⟨-, -, -, hlt', -⟩ := posting_keys_faithful (ofName "x") 9 256 hshort hextended
  exact ⟨hextended, hshort, htoken, hlt.mpr (Or.inr ⟨rfl, by decide⟩),
    hlt'.mpr (Or.inl (by decide))⟩

end OrderedStore.IndexKeys
