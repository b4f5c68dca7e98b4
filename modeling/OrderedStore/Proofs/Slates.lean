/-
What the steps of an index make of the database, to the last key.

Where writes go there is a slate: the map that the database holds, and what
is pending in the transaction, if one is open (`Slate`). Tokens go to the
database at once, whoever needs them, and all the rest goes where the writes
go. So each step of an index has one result on a slate, which can be
computed from the slate and the index alone (`Index.tokenAt`,
`Index.updated`, `Index.removed`), and the lemmas here say of each step that
it leads there, whatever was written before.

If the tokens that are kept in memory are those of the lexicon, as they are
unless somebody else writes there, that result is simpler: terms have got
tokens where they had none, and the document was filed (`given`, `refiled`).
What follows from it is a matter of maps from then on.
-/
import Mathlib
import OrderedStore.Proofs.FilingSteps

namespace OrderedStore

-- ========================================================== giving tokens

namespace IndexKeys

open Index

variable {ks : IndexKeys} {m m' : KeyMap Bytes} {term raw : String} {k : Bytes}

/-- The number that the next token gets. Where it cannot be read no token
is given, and any number will do. -/
def fresh (ks : IndexKeys) (m : KeyMap Bytes) : UInt64 :=
  match m.find? ks.nextToken with
  | none => 1
  | some bytes =>
    match (Codec.readFixed64 bytes).1 with
    | .ok token => token
    | .error _ => 0

/-- It is the number of the next token. -/
theorem toNat_fresh (ks : IndexKeys) (m : KeyMap Bytes) : (ks.fresh m).toNat = ks.nextIn m := by
  unfold fresh nextIn
  cases m.find? ks.nextToken with
  | none => rfl
  | some bytes =>
      dsimp only
      cases (Codec.readFixed64 bytes).1 <;> rfl

/-- The map in which a term and a word have a token: the one they had, or a
new one. -/
def given (ks : IndexKeys) (m : KeyMap Bytes) (term raw : String) : KeyMap Bytes :=
  if (ks.tokenIn m term raw).isSome then m else m.laid (ks.entriesOf term raw (ks.fresh m))

/-- The map in which terms have got tokens one after the other. -/
def givenAll (ks : IndexKeys) (m : KeyMap Bytes) (terms : List Term) : KeyMap Bytes :=
  terms.foldl (fun m t => ks.given m t.index (stored t.index t.raw)) m

/-- The tokens of terms. -/
def tokensIn (ks : IndexKeys) (m : KeyMap Bytes) (terms : List Term) : List UInt64 :=
  terms.filterMap (ks.tokenFor m)

/-- Terms that have a token keep the map as it is. -/
theorem given_of_tokenIn {token : UInt64} (h : ks.tokenIn m term raw = some token) :
    ks.given m term raw = m := by
  unfold given
  rw [h]
  rfl

/-- Those that have none get a new one. -/
theorem given_of_none (h : ks.tokenIn m term raw = none) :
    ks.given m term raw = m.laid (ks.entriesOf term raw (ks.fresh m)) := by
  unfold given
  rw [h]
  rfl

/-- A new entry leaves every token that there was. -/
theorem grown_entriesOf (h : ks.tokenIn m term raw = none) (token : UInt64) :
    ks.Grown m (m.laid (ks.entriesOf term raw token)) := by
  refine ⟨fun {term' raw' token'} ht => ?_, fun k hk => ?_⟩
  · rw [tokenIn_minted_ne, ht]
    intro heq
    unfold tokenIn at ht h
    rw [heq, h] at ht
    cases ht
  · rw [find?_minted, if_neg, if_neg, if_neg]
    · rintro rfl
      exact hk ks.lexical_nextToken
    · rintro rfl
      exact hk (ks.lexical_lexicon term raw)
    · rintro rfl
      exact hk (ks.lexical_reverse token)

/-- The lexicon has grown then. -/
theorem grown_given (ks : IndexKeys) (m : KeyMap Bytes) (term raw : String) :
    ks.Grown m (ks.given m term raw) := by
  cases h : ks.tokenIn m term raw with
  | some token =>
      rw [given_of_tokenIn h]
      exact Grown.refl ks m
  | none =>
      rw [given_of_none h]
      exact grown_entriesOf h _

/-- It has when several terms got tokens. -/
theorem grown_givenAll (ks : IndexKeys) (m : KeyMap Bytes) (terms : List Term) :
    ks.Grown m (ks.givenAll m terms) := by
  induction terms generalizing m with
  | nil => exact Grown.refl ks m
  | cons t terms ih => exact (ks.grown_given m t.index _).trans (ih _)

/-- What a term gets depends on the lexicon alone. -/
theorem given_congr (h : ∀ k, ks.Lexical k → m'.find? k = m.find? k) (term raw : String)
    (hk : ks.Lexical k) : (ks.given m' term raw).find? k = (ks.given m term raw).find? k := by
  have hfresh : ks.fresh m' = ks.fresh m := by
    unfold fresh
    rw [h _ ks.lexical_nextToken]
  have htoken : ks.tokenIn m' term raw = ks.tokenIn m term raw := tokenIn_congr h term raw
  unfold given
  rw [htoken, hfresh]
  split
  · exact h k hk
  · rw [find?_minted, find?_minted, h k hk]

/-- So do the tokens of several. -/
theorem givenAll_congr (h : ∀ k, ks.Lexical k → m'.find? k = m.find? k) (terms : List Term) :
    ∀ k, ks.Lexical k → (ks.givenAll m' terms).find? k = (ks.givenAll m terms).find? k := by
  induction terms generalizing m m' with
  | nil => exact h
  | cons t terms ih => exact ih fun k hk => given_congr h t.index _ hk

/-- An entry of the lexicon is written anew, with a count, and the mark of its
token is taken away. -/
def recounting (ks : IndexKeys) (token : UInt64) (l : Bytes) (count : UInt64) : Operation :=
  .batch [.delete (ks.mark token), .put l (LexiconEntry.encode ⟨token, count⟩)]

/-- Where a token leads to an entry that it did not lead to before, the entry
could be written anew: its record is no longer than can be logged. -/
def Affords (ks : IndexKeys) (m m' : KeyMap Bytes) : Prop :=
  ∀ token l, m'.find? (ks.reverse token) = some l →
    m.find? (ks.reverse token) = some l ∨ ∀ count, (ks.recounting token l count).Loggable

/-- Nothing new leads anywhere. -/
theorem Affords.refl (ks : IndexKeys) (m : KeyMap Bytes) : ks.Affords m m :=
  fun _ _ h => Or.inl h

/-- What is new may be new since then. -/
theorem Affords.trans {m'' : KeyMap Bytes} (h : ks.Affords m m') (h' : ks.Affords m' m'') :
    ks.Affords m m'' := by
  intro token l hl
  rcases h' token l hl with hl | hcount
  · exact h token l hl
  · exact Or.inr hcount

/-- Two of several operations take no more bytes than all of them. -/
theorem length_serialize_add_le {a b : Operation} {ops : List Operation} (ha : a ∈ ops)
    (hb : b ∈ ops) (hne : a ≠ b) :
    a.serialize.length + b.serialize.length ≤ (Operation.serializeAll ops).length := by
  have hone {a : Operation} {ops : List Operation} (ha : a ∈ ops) :
      a.serialize.length ≤ (Operation.serializeAll ops).length := by
    obtain ⟨front, back, rfl⟩ := List.append_of_mem ha
    rw [Operation.serializeAll_append, Operation.serializeAll, List.length_append,
      List.length_append]
    omega
  obtain ⟨front, back, rfl⟩ := List.append_of_mem ha
  rw [Operation.serializeAll_append, Operation.serializeAll, List.length_append,
    List.length_append]
  rcases List.mem_append.mp hb with hb | hb
  · have := hone hb
    omega
  · rcases List.mem_cons.mp hb with rfl | hb
    · exact absurd rfl hne
    · have := hone hb
      omega

/-- What was written for a token could be logged, so its entry can be
written anew. -/
theorem loggable_recounting {term raw : String} {token : UInt64}
    (h : ∀ op ∈ Operation.together ((ks.entriesOf term raw token).entries.map
      Transaction.operation), op.Loggable) (count : UInt64) :
    (ks.recounting token (ks.lexicon term raw) count).Loggable := by
  have hkeys : ks.reverse token ≠ ks.lexicon term raw := ks.ne_of_kind? (by simp)
  have hfirst : Operation.put (ks.reverse token) (ks.lexicon term raw)
      ∈ (ks.entriesOf term raw token).entries.map Transaction.operation := by
    refine List.mem_map.mpr ⟨(_, .value _), KeyMap.mem_entries.mpr ?_, rfl⟩
    exact KeyMap.find?_insert_self _ _ _
  have hsecond : Operation.put (ks.lexicon term raw) (LexiconEntry.encode ⟨token, 0⟩)
      ∈ (ks.entriesOf term raw token).entries.map Transaction.operation := by
    refine List.mem_map.mpr ⟨(_, .value _), KeyMap.mem_entries.mpr ?_, rfl⟩
    show ((_ : Pending).insert (ks.reverse token) _).find? (ks.lexicon term raw) = _
    rw [KeyMap.find?_insert, if_neg (Ne.symm hkeys)]
    exact KeyMap.find?_insert_self _ _ _
  have hdistinct : Operation.put (ks.reverse token) (ks.lexicon term raw)
      ≠ .put (ks.lexicon term raw) (LexiconEntry.encode ⟨token, 0⟩) := fun heq =>
    hkeys (Operation.put.inj heq).1
  have hboth := length_serialize_add_le hfirst hsecond hdistinct
  generalize (ks.entriesOf term raw token).entries.map Transaction.operation = ops
    at h hfirst hsecond hboth
  match ops with
  | [] => cases hfirst
  | [op] =>
      rw [List.mem_singleton] at hfirst hsecond
      exact absurd (hfirst.trans hsecond.symm) hdistinct
  | op :: op' :: rest =>
      have hlogged := h _ (List.mem_singleton_self _)
      have hmark : (ks.mark token).length = (ks.reverse token).length + 1 := by
        unfold mark marks reverse part
        simp only [List.length_append]
        show _ + 3 + _ = _ + 2 + _ + 1
        omega
      unfold Operation.Loggable at hlogged ⊢
      unfold recounting
      simp only [Operation.serialize, Operation.serializeAll, List.length_append,
        Wire.length_word32, Wire.length_word64, Wire.length_blob, LexiconEntry.encode,
        List.length_nil] at hlogged hboth ⊢
      omega

end IndexKeys

namespace Index

open IndexKeys

variable {ks : IndexKeys} {m : KeyMap Bytes} {term raw : String} {x : Index}

/-- A token that is minted is the next one. -/
theorem leads_mint_fresh (ks : IndexKeys) (term raw : String) (m : KeyMap Bytes) :
    Leads (fun ops => contents ops = m ∧ ks.tokenIn m term raw = none)
      (mint ks (ks.lexicon term raw)) fun token ops => contents ops = ks.given m term raw ∧
        ks.tokenIn (contents ops) term raw = some token ∧ ks.Affords m (contents ops) := by
  have hcommit (token : UInt64) :
      Leads (fun ops => (contents ops = m ∧ ks.tokenIn m term raw = none) ∧ token = ks.fresh m)
        ((minting ks term raw token).commit >>= fun _ => pure token) fun token ops =>
          contents ops = ks.given m term raw ∧
            ks.tokenIn (contents ops) term raw = some token ∧ ks.Affords m (contents ops) := by
    have hidle : (minting ks term raw token).Idle := fun trigger ht => absurd ht List.not_mem_nil
    refine Leads.bind (Q := fun _ ops => contents ops = ks.given m term raw ∧
        ks.tokenIn (contents ops) term raw = some token ∧ ks.Affords m (contents ops)) ?_
      fun _ => leads_pure fun ops hQ => hQ
    refine Leads.loggable (Transaction.leads_commit hidle fun ops _ hP _ hlogged => ?_)
    obtain ⟨⟨rfl, hnone⟩, rfl⟩ := hP
    rw [Transaction.contents_together, given_of_none hnone]
    refine ⟨rfl, tokenIn_minted _ _ _ _, fun token l hl => ?_⟩
    change ((contents ops).laid (ks.entriesOf term raw (ks.fresh (contents ops)))).find? _ = _ at hl
    rw [find?_minted] at hl
    split at hl
    · next heq =>
        cases hl
        obtain rfl := ks.reverse_inj heq
        exact Or.inr (loggable_recounting fun op hop => hlogged op (List.mem_append_right _ hop))
    · rw [if_neg (ks.ne_of_kind? (by simp)), if_neg (ks.ne_of_kind? (by simp))] at hl
      exact Or.inl hl
  unfold mint
  refine Leads.bind (Transaction.leads_get _ _ fun ops hP => ⟨hP, ?_⟩ :
    Leads _ _ fun found ops => (contents ops = m ∧ ks.tokenIn m term raw = none) ∧
      found = m.find? ks.nextToken) fun found => ?_
  · rw [← hP.1]
    rfl
  cases found with
  | none =>
      refine Leads.bind (leads_pure fun ops hQ => ⟨hQ.1, ?_⟩) hcommit
      unfold fresh
      rw [← hQ.2]
  | some bytes =>
      dsimp only
      cases hbytes : (Codec.readFixed64 bytes).1 with
      | error e => exact Leads.bind (leads_throw _) hcommit
      | ok token =>
          refine Leads.bind (leads_pure fun ops hQ => ⟨hQ.1, ?_⟩) hcommit
          unfold fresh
          rw [← hQ.2]
          simp only [hbytes]

/-- The token of a term and a word, the index afterwards, and what the
database holds then: a token that is kept in memory is taken from there. -/
def tokenAt (x : Index) (m : KeyMap Bytes) (term raw : String) :
    UInt64 × Index × KeyMap Bytes :=
  match x.cache.find? term (stored term raw) with
  | some token => (token, x, m)
  | none =>
    let held := x.keys.given m term (stored term raw)
    let token := (x.keys.tokenIn held term (stored term raw)).getD 0
    (token, { x with cache := x.cache.insert term (stored term raw) token }, held)

/-- The tokens of terms, one after the other. -/
def tokensAt (x : Index) (m : KeyMap Bytes) : List Term → List UInt64 × Index × KeyMap Bytes
  | [] => ([], x, m)
  | t :: ts =>
    let first := x.tokenAt m t.index t.raw
    let rest := tokensAt first.2.1 first.2.2 ts
    (first.1 :: rest.1, rest.2)

/-- Asking for a token leads there. -/
theorem leads_tokenOf_at (x : Index) (m : KeyMap Bytes) (term raw : String) :
    Leads (fun ops => contents ops = m) (x.tokenOf term raw) fun a ops =>
      (a.1, a.2, contents ops) = x.tokenAt m term raw ∧ x.keys.Affords m (contents ops) := by
  have hkeep (token : UInt64) (hcache : x.cache.find? term (stored term raw) = none) :
      Leads (fun ops => contents ops = x.keys.given m term (stored term raw) ∧
          x.keys.tokenIn (contents ops) term (stored term raw) = some token ∧
          x.keys.Affords m (contents ops))
        (pure (token, { x with cache := x.cache.insert term (stored term raw) token }) :
          DbM (UInt64 × Index)) fun a ops =>
        (a.1, a.2, contents ops) = x.tokenAt m term raw ∧ x.keys.Affords m (contents ops) := by
    refine leads_pure fun ops hQ => ⟨?_, hQ.2.2⟩
    obtain ⟨hcontents, ht, -⟩ := hQ
    rw [hcontents] at ht
    unfold tokenAt
    simp only [hcache, ht, hcontents]
    rfl
  unfold tokenOf
  dsimp only
  cases hcache : x.cache.find? term (stored term raw) with
  | some token =>
      refine leads_pure fun ops hP => ?_
      obtain rfl := hP
      unfold tokenAt
      rw [hcache]
      exact ⟨rfl, Affords.refl _ _⟩
  | none =>
      refine Leads.bind (leads_readToken x.keys term (stored term raw)) fun found => ?_
      cases found with
      | some token =>
          refine Leads.bind (leads_pure fun ops hQ => ?_) fun token => hkeep token hcache
          obtain ⟨rfl, hfound⟩ := hQ
          exact ⟨(given_of_tokenIn hfound.symm).symm, hfound.symm, Affords.refl _ _⟩
      | none =>
          refine Leads.bind ((leads_mint_fresh x.keys term (stored term raw) m).mono
            (fun ops hQ => ?_) fun _ _ hQ => hQ) fun token => hkeep token hcache
          obtain ⟨rfl, hfound⟩ := hQ
          exact ⟨rfl, hfound.symm⟩

/-- To ask for a token leaves the keys alone. -/
theorem tokenAt_keys (x : Index) (m : KeyMap Bytes) (term raw : String) :
    (x.tokenAt m term raw).2.1.keys = x.keys := by
  unfold tokenAt
  split <;> rfl

/-- So does asking for several. -/
theorem tokensAt_keys (x : Index) (m : KeyMap Bytes) (terms : List Term) :
    (x.tokensAt m terms).2.1.keys = x.keys := by
  induction terms generalizing x m with
  | nil => rfl
  | cons t ts ih => exact (ih _ _).trans (tokenAt_keys x m t.index t.raw)

/-- Asking for tokens leads there. -/
theorem leads_tokensOf_at (x : Index) (m : KeyMap Bytes) (terms : List Term) :
    Leads (fun ops => contents ops = m) (x.tokensOf terms) fun a ops =>
      (a.1, a.2, contents ops) = x.tokensAt m terms ∧ x.keys.Affords m (contents ops) := by
  induction terms generalizing x m with
  | nil =>
      refine leads_pure fun ops hP => ?_
      obtain rfl := hP
      exact ⟨rfl, Affords.refl _ _⟩
  | cons t ts ih =>
      rw [tokensOf]
      refine Leads.bind (leads_tokenOf_at x m t.index t.raw) fun a => ?_
      obtain ⟨token, y⟩ := a
      dsimp only
      -- the rest begins where the first one has led
      refine Leads.bind (((ih y (x.tokenAt m t.index t.raw).2.2).frame
        ((token, y) = ((x.tokenAt m t.index t.raw).1, (x.tokenAt m t.index t.raw).2.1) ∧
          x.keys.Affords m (x.tokenAt m t.index t.raw).2.2)).mono (fun ops hQ => ?_)
            fun _ _ hQ => hQ) fun b => leads_pure fun ops hQ => ?_
      · obtain ⟨heq, hafford⟩ := hQ
        rw [← heq]
        exact ⟨⟨rfl, hafford⟩, rfl⟩
      · obtain ⟨⟨heq, hafford⟩, hrest, hafford'⟩ := hQ
        cases heq
        rw [tokenAt_keys] at hafford'
        rw [tokensAt, ← hrest]
        exact ⟨rfl, hafford.trans hafford'⟩

end Index

-- ================================================================= slates

/-- A key leads to what was written last, or to what it led to. -/
theorem KeyMap.find?_or_entry (e : Option Entry) (m : KeyMap Bytes) (k : Bytes) :
    (e.or (m.entry k)).bind Entry.value?
      = match e with
        | some e => e.value?
        | none => m.find? k := by
  cases e with
  | some e => rfl
  | none =>
      rw [Option.none_or]
      unfold KeyMap.entry
      cases m.find? k <;> rfl

/-- Where writes go: what the database holds, and what is pending if a
transaction is open. -/
structure Slate where
  held : KeyMap Bytes
  pending : Option Pending

namespace Slate

/-- What is seen there. -/
def seen (σ : Slate) : KeyMap Bytes :=
  match σ.pending with
  | none => σ.held
  | some p => σ.held.laid p

/-- An entry is written. -/
def write (σ : Slate) (w : Bytes × Entry) : Slate :=
  match σ.pending with
  | none => ⟨σ.held.write w, none⟩
  | some p => ⟨σ.held, some (p.insert w.1 w.2)⟩

/-- Entries are written one after the other. -/
def writes (σ : Slate) (ws : List (Bytes × Entry)) : Slate :=
  ws.foldl write σ

/-- Terms get tokens. -/
def give (σ : Slate) (ks : IndexKeys) (terms : List Term) : Slate :=
  { σ with held := ks.givenAll σ.held terms }

end Slate

namespace WriteView

variable {ν : Type}

/-- What is pending where the writes go. -/
def pending? (T : WriteView ν) : Option Pending :=
  match T with
  | .database => none
  | .transaction t => some t.pending

/-- The slate there, after operations were logged. -/
def slate (T : WriteView ν) (ops : List Operation) : Slate :=
  ⟨contents ops, T.pending?⟩

/-- What is seen where the writes go is what is seen on the slate. -/
theorem seen_slate (T : WriteView ν) (ops : List Operation) : (T.slate ops).seen = T.seen ops := by
  cases T <;> rfl

/-- To write an entry is to write it on the slate. -/
theorem slate_wrote (T : WriteView ν) (ops : List Operation) (w : Bytes × Entry) :
    (T.wrote w).slate (T.logs ops w) = (T.slate ops).write w := by
  cases T with
  | database =>
      show Slate.mk (contents (ops ++ [Transaction.operation w])) none = ⟨(contents ops).write w, none⟩
      rw [Transaction.contents_operation]
  | transaction t => rfl

/-- A trigger is not on the slate. -/
@[simp] theorem slate_triggered (T : WriteView ν) (key : String) (trigger : Trigger ν)
    (ops : List Operation) : (T.triggered key trigger).slate ops = T.slate ops := by
  cases T <;> rfl

end WriteView

namespace Slate

variable {σ : Slate} {ks : IndexKeys} {k : Bytes}

/-- Entries are written one row after the other. -/
theorem writes_append (σ : Slate) (ws us : List (Bytes × Entry)) :
    σ.writes (ws ++ us) = (σ.writes ws).writes us :=
  List.foldl_append

/-- Where no transaction is open, what is written is held. -/
theorem writes_database (m : KeyMap Bytes) (ws : List (Bytes × Entry)) :
    (Slate.mk m none).writes ws = ⟨ws.foldl KeyMap.write m, none⟩ := by
  induction ws generalizing m with
  | nil => rfl
  | cons w ws ih => exact ih (m.write w)

/-- Where one is, it is pending. -/
theorem writes_transaction (m : KeyMap Bytes) (p : Pending) (ws : List (Bytes × Entry)) :
    (Slate.mk m (some p)).writes ws = ⟨m, some (ws.foldl (fun p w => p.insert w.1 w.2) p)⟩ := by
  induction ws generalizing p with
  | nil => rfl
  | cons w ws ih => exact ih (p.insert w.1 w.2)

/-- The last entry that was put under a key is pending there. -/
theorem find?_foldl_insert {α : Type} (ws : List (Bytes × α)) (p : KeyMap α) (k : Bytes) :
    (ws.foldl (fun p w => p.insert w.1 w.2) p).find? k = (lastWrite ws k).or (p.find? k) := by
  induction ws using List.reverseRec with
  | nil => rfl
  | append_singleton ws w ih =>
      rw [List.foldl_append, List.foldl_cons, List.foldl_nil, KeyMap.find?_insert, ih,
        lastWrite_concat]
      split <;> rfl

/-- An entry that stands for what another one leads to will do for it. -/
theorem bind_or_value (e e' : Option Entry) :
    (e.or ((e'.bind Entry.value?).map Entry.value)).bind Entry.value?
      = (e.or e').bind Entry.value? := by
  cases e with
  | some e => rfl
  | none =>
      cases e' with
      | none => rfl
      | some e' => cases e' <;> rfl

/-- What is written is seen, the last entry of a key first. -/
theorem find?_seen_writes (σ : Slate) (ws : List (Bytes × Entry)) (k : Bytes) :
    (σ.writes ws).seen.find? k
      = ((lastWrite ws k).or (σ.seen.entry k)).bind Entry.value? := by
  obtain ⟨m, pending⟩ := σ
  cases pending with
  | none =>
      rw [writes_database]
      exact find?_foldl_write ws m k
  | some p =>
      rw [writes_transaction]
      show (m.laid _).find? k = ((lastWrite ws k).or ((m.laid p).entry k)).bind Entry.value?
      unfold KeyMap.entry
      rw [KeyMap.find?_laid, find?_foldl_insert, KeyMap.find?_laid, Option.or_assoc, bind_or_value]

/-- What the database holds changes only under keys that are written. -/
theorem find?_held_writes {ws : List (Bytes × Entry)} (h : ∀ w ∈ ws, w.1 ≠ k) :
    (σ.writes ws).held.find? k = σ.held.find? k := by
  obtain ⟨m, pending⟩ := σ
  cases pending with
  | some p => rw [writes_transaction]
  | none =>
      rw [writes_database]
      show (ws.foldl KeyMap.write m).find? k = _
      rw [find?_foldl_write, lastWrite_eq_none h, Option.none_or]
      cases m.find? k <;> rfl

/-- What is pending does not depend on the tokens that are given. -/
theorem seen_give (h : ¬ks.Lexical k) (terms : List Term) :
    (σ.give ks terms).seen.find? k = σ.seen.find? k := by
  have hrest := (ks.grown_givenAll σ.held terms).rest k h
  obtain ⟨m, pending⟩ := σ
  cases pending with
  | none => exact hrest
  | some p =>
      show ((ks.givenAll m terms).laid p).find? k = (m.laid p).find? k
      rw [KeyMap.find?_laid, KeyMap.find?_laid]
      unfold KeyMap.entry
      rw [hrest]

end Slate

-- ======================================================= filing a document

namespace Index

open IndexKeys WriteM

/-- The tokens of what is listed under a document. -/
def listedTokens (ks : IndexKeys) (m : KeyMap Bytes) (docId : String) : List UInt64 :=
  (ks.listedIn m docId).filterMap ks.postingToken?

/-- What is written when a document is filed with terms that have these
tokens, behind the deletion of what was listed: postings and their list,
and a mark for every token, old and new. -/
def filed (ks : IndexKeys) (docId sortKey : String) (gone tokens : List UInt64)
    (stamp : UInt64) : List (Bytes × Entry) :=
  ((postingsOf ks ⟨cleanSortKey sortKey, docId⟩ tokens).map (fun k => (k, .value []))
      ++ [listing ks docId (postingsOf ks ⟨cleanSortKey sortKey, docId⟩ tokens)])
    ++ (sortTokens (gone ++ tokens)).map fun token => (ks.mark token, .value (Codec.fixed64 stamp))

/-- The slate when what was listed under a document has been deleted and
terms have got tokens. -/
def begun (ks : IndexKeys) (σ : Slate) (docId : String) (terms : List Term) : Slate :=
  (σ.writes (cleared ks σ.seen docId)).give ks terms

/-- The slate after a document was filed with these terms. -/
def refiled (ks : IndexKeys) (σ : Slate) (docId sortKey : String) (terms : List Term)
    (stamp : UInt64) : Slate :=
  (begun ks σ docId terms).writes (filed ks docId sortKey (listedTokens ks σ.seen docId)
    (ks.tokensIn (begun ks σ docId terms).held terms) stamp)

variable {ν : Type} {ks : IndexKeys} {σ : Slate}

/-- Entries are written one after the other on a slate. -/
theorem leads_slate_each {γ : Type} (items : List γ) (key : γ → Bytes) (e : Entry)
    {step : γ → WriteM ν PUnit}
    (hstep : ∀ a {P : List Operation → WriteView ν → Prop}
      {Q : PUnit → List Operation → WriteView ν → Prop},
      (∀ ops T, P ops T → Q ⟨⟩ (T.logs ops (key a, e)) (T.wrote (key a, e))) →
        WriteM.Leads P (step a) Q) :
    WriteM.Leads (fun ops T => T.slate ops = σ) (items.forM step)
      fun _ ops T => T.slate ops = σ.writes (items.map fun a => (key a, e)) := by
  refine leads_forM (fun front ops T => T.slate ops = σ.writes (front.map fun a => (key a, e)))
    items fun front a _ => hstep a fun ops T h => ?_
  rw [WriteView.slate_wrote, h, List.map_append, Slate.writes_append]
  rfl

/-- What is listed under a document is deleted. -/
theorem leads_deletePostings_slate (ks : IndexKeys) (docId : String) :
    WriteM.Leads (fun ops T => T.slate ops = σ) (deletePostings ks docId : WriteM ν (List UInt64))
      fun gone ops T => gone = listedTokens ks σ.seen docId ∧
        T.slate ops = σ.writes (cleared ks σ.seen docId) := by
  have hget : WriteM.Leads (fun ops T => T.slate ops = σ)
      (WriteM.get (ks.document docId) : WriteM ν (Option Bytes)) fun found ops T =>
        T.slate ops = σ ∧ σ.seen.find? (ks.document docId) = found := by
    refine WriteM.leads_get _ fun ops T h => ⟨h, ?_⟩
    rw [← h, WriteView.seen_slate]
  have hnothing {found : Option Bytes}
      (hnil : σ.seen.find? (ks.document docId) = found → ks.listedIn σ.seen docId = []) :
      WriteM.Leads (fun ops T => T.slate ops = σ ∧ σ.seen.find? (ks.document docId) = found)
        (pure [] : WriteM ν (List UInt64)) fun gone ops T =>
          gone = listedTokens ks σ.seen docId ∧
            T.slate ops = σ.writes (cleared ks σ.seen docId) := by
    refine WriteM.leads_pure fun ops T h => ?_
    unfold listedTokens cleared
    rw [hnil h.2]
    exact ⟨rfl, h.1⟩
  unfold deletePostings
  refine hget.bind fun found => ?_
  cases found with
  | none =>
      refine hnothing fun hfound => ?_
      unfold listedIn
      rw [hfound]
  | some bytes =>
      dsimp only
      cases hread : Wire.readBlobs bytes with
      | error f =>
          refine hnothing fun hfound => ?_
          unfold listedIn
          rw [hfound]
          simp only [hread]
      | ok found =>
          obtain ⟨postings, rest⟩ := found
          refine (((leads_slate_each postings id .tombstone fun k _ _ h =>
            WriteM.leads_delete k h).frame
              (σ.seen.find? (ks.document docId) = some bytes)).mono
            (fun ops T h => ⟨h.2, h.1⟩) fun _ _ _ h => h).bind fun _ => ?_
          refine WriteM.leads_pure fun ops T h => ?_
          have hlisted : ks.listedIn σ.seen docId = postings := by
            unfold listedIn
            rw [h.1]
            simp only [hread]
          unfold listedTokens cleared
          rw [hlisted]
          exact ⟨rfl, h.2⟩

/-- The index when tokens have been marked: the next marks get another
stamp. -/
def stamped (x : Index) (tokens : List UInt64) : Index :=
  if tokens.isEmpty then x else { x with stamp := x.stamp + 1 }

/-- Tokens are marked, or there are none to mark. -/
theorem leads_markTokens_slate (x : Index) (tokens : List UInt64) :
    WriteM.Leads (fun ops T => T.slate ops = σ) (x.markTokens tokens : WriteM ν Index)
      fun y ops T => y = x.stamped tokens ∧
        T.slate ops = σ.writes ((sortTokens tokens).map fun token =>
          (x.keys.mark token, .value (Codec.fixed64 x.stamp))) := by
  unfold markTokens stamped
  split
  · next hempty =>
      refine WriteM.leads_pure fun ops T h => ⟨rfl, ?_⟩
      rw [List.isEmpty_iff.mp hempty]
      exact h
  · refine (leads_slate_each (sortTokens tokens) x.keys.mark
      (.value (Codec.fixed64 x.stamp)) fun token _ _ h => WriteM.leads_put _ _ h).bind fun _ => ?_
    refine (WriteM.leads_afterCommit (Q := fun _ ops T => T.slate ops
      = σ.writes ((sortTokens tokens).map fun token =>
          (x.keys.mark token, .value (Codec.fixed64 x.stamp)))) _ _ fun ops T h => ?_).bind
      fun _ => WriteM.leads_pure fun ops T h => ⟨rfl, h⟩
    rw [WriteView.slate_triggered]
    exact h

/-- The list under a document is written, or taken away if it is empty. -/
theorem leads_listing_slate {α : Type} (docId : String) {postings : List Bytes}
    {rest : WriteM ν α} {R : α → List Operation → WriteView ν → Prop}
    (hrest : WriteM.Leads (fun ops T => T.slate ops = σ.write (listing ks docId postings)) rest R) :
    WriteM.Leads (fun ops T => T.slate ops = σ)
      (if postings.isEmpty then WriteM.delete (ks.document docId) >>= fun _ => rest
        else WriteM.put (ks.document docId) (Wire.blobs postings) >>= fun _ => rest) R := by
  unfold listing at hrest
  split
  · next hempty =>
      rw [if_pos hempty] at hrest
      refine WriteM.Leads.bind (WriteM.leads_delete _ fun ops T h => ?_) fun _ => hrest
      rw [WriteView.slate_wrote, h]
  · next hempty =>
      rw [if_neg hempty] at hrest
      refine WriteM.Leads.bind (WriteM.leads_put _ _ fun ops T h => ?_) fun _ => hrest
      rw [WriteView.slate_wrote, h]

/-- Terms get tokens, and what is pending stays. -/
theorem leads_give_slate (σ : Slate) (x : Index) (terms : List Term) :
    WriteM.Leads (fun ops T => T.slate ops = σ)
      (liftM (x.tokensOf terms) : WriteM ν (List UInt64 × Index)) fun a ops T =>
        (a.1, a.2) = ((x.tokensAt σ.held terms).1, (x.tokensAt σ.held terms).2.1) ∧
          T.slate ops = { σ with held := (x.tokensAt σ.held terms).2.2 } ∧
          x.keys.Affords σ.held (x.tokensAt σ.held terms).2.2 := by
  refine WriteM.leads_lift fun T => ?_
  refine ((leads_tokensOf_at x σ.held terms).frame (T.pending? = σ.pending)).mono
    (fun ops h => ?_) fun a ops h => ?_
  · obtain rfl := h
    exact ⟨rfl, rfl⟩
  · obtain ⟨hpending, htokens, hafford⟩ := h
    rw [← htokens]
    refine ⟨rfl, ?_, hafford⟩
    unfold WriteView.slate
    rw [hpending]

/-- Entries that are not of the lexicon leave the lexicon alone. -/
theorem lexical_writes {ws : List (Bytes × Entry)} (h : ∀ w ∈ ws, ¬ks.Lexical w.1) {k : Bytes}
    (hk : ks.Lexical k) : (σ.writes ws).held.find? k = σ.held.find? k := by
  refine Slate.find?_held_writes fun w hw heq => ?_
  exact h w hw (heq ▸ hk)

/-- What is written for a document is not of the lexicon. -/
theorem not_lexical_filed {docId sortKey : String} {gone tokens : List UInt64} {stamp : UInt64} :
    ∀ w ∈ filed ks docId sortKey gone tokens stamp, ¬ks.Lexical w.1 := by
  intro w hw
  rcases List.mem_append.mp hw with hw | hw
  · rcases List.mem_append.mp hw with hw | hw
    · obtain ⟨k, hk, rfl⟩ := List.mem_map.mp hw
      obtain ⟨token, -, rfl⟩ := mem_postingsOf.mp hk
      exact not_lexical_posting ks token _
    · rw [List.mem_singleton.mp hw]
      exact not_lexical_document ks docId
  · obtain ⟨token, -, rfl⟩ := List.mem_map.mp hw
    exact not_lexical_mark ks token

/-- The last part of a filing: postings are put and listed, and tokens are
marked. -/
theorem leads_filed_slate (σ : Slate) (y : Index) (docId sortKey : String)
    (gone tokens : List UInt64) :
    WriteM.Leads (fun ops T => T.slate ops = σ)
      ((postingsOf y.keys ⟨cleanSortKey sortKey, docId⟩ tokens).forM (fun key => WriteM.put key [])
        >>= fun _ =>
          if (postingsOf y.keys ⟨cleanSortKey sortKey, docId⟩ tokens).isEmpty then
            WriteM.delete (y.keys.document docId) >>= fun _ =>
              (y.markTokens (gone ++ tokens) : WriteM ν Index)
          else
            WriteM.put (y.keys.document docId)
              (Wire.blobs (postingsOf y.keys ⟨cleanSortKey sortKey, docId⟩ tokens)) >>= fun _ =>
                y.markTokens (gone ++ tokens)) fun z ops T =>
      z = y.stamped (gone ++ tokens) ∧
        T.slate ops = σ.writes (filed y.keys docId sortKey gone tokens y.stamp) := by
  refine (leads_slate_each (postingsOf y.keys ⟨cleanSortKey sortKey, docId⟩ tokens) id (.value [])
    fun k _ _ h => WriteM.leads_put k [] h).bind fun _ => leads_listing_slate docId ?_
  refine (leads_markTokens_slate y (gone ++ tokens)).mono (fun ops T h => h) fun z ops T h => ?_
  refine ⟨h.1, h.2.trans ?_⟩
  unfold filed
  rw [Slate.writes_append, Slate.writes_append]
  rfl

/-- The index and the slate after a document was filed with these terms. -/
def updated (x : Index) (σ : Slate) (docId sortKey : String) (terms : List Term) :
    Index × Slate :=
  let gone := listedTokens x.keys σ.seen docId
  let given := x.tokensAt (σ.writes (cleared x.keys σ.seen docId)).held terms
  (given.2.1.stamped (gone ++ given.1),
    Slate.writes ⟨given.2.2, (σ.writes (cleared x.keys σ.seen docId)).pending⟩
      (filed x.keys docId sortKey gone given.1 given.2.1.stamp))

/-- The same after it was taken out: it was filed with no terms. -/
def removed (x : Index) (σ : Slate) (docId : String) : Index × Slate :=
  x.updated σ docId "" []

/-- What is deleted leads nowhere new. -/
theorem affords_cleared (ks : IndexKeys) (σ : Slate) (docId : String) :
    ks.Affords σ.held (σ.writes (cleared ks σ.seen docId)).held := by
  intro token l hl
  refine Or.inl ?_
  obtain ⟨m, pending⟩ := σ
  cases pending with
  | some p =>
      rw [Slate.writes_transaction] at hl
      exact hl
  | none =>
      rw [Slate.writes_database] at hl
      change ((cleared ks m docId).foldl KeyMap.write m).find? _ = _ at hl
      unfold cleared at hl
      rw [find?_foldl_write, lastWrite_map_const] at hl
      change (Option.or _ (m.entry _)).bind Entry.value? = _ at hl
      rw [KeyMap.find?_or_entry] at hl
      split at hl
      · next heq =>
          split at heq
          · cases heq
            cases hl
          · cases heq
      · exact hl

/-- So is what is written for a document. -/
theorem affords_filed {docId sortKey : String} {gone tokens : List UInt64} {stamp : UInt64} :
    ks.Affords σ.held (σ.writes (filed ks docId sortKey gone tokens stamp)).held := by
  intro token l hl
  rw [lexical_writes not_lexical_filed (ks.lexical_reverse token)] at hl
  exact Or.inl hl

/-- To file a document leads to the slate that is computed. -/
theorem leads_update_at (x : Index) (docId sortKey : String) (terms : List Term) :
    WriteM.Leads (fun ops T => T.slate ops = σ) (x.update docId sortKey terms : WriteM ν Index)
      fun y ops T => (y, T.slate ops) = x.updated σ docId sortKey terms ∧
        x.keys.Affords σ.held (T.slate ops).held := by
  unfold update
  refine (leads_deletePostings_slate x.keys docId).bind fun gone => ?_
  refine WriteM.Leads.bind_returns (((leads_give_slate (σ.writes (cleared x.keys σ.seen docId)) x
    terms).frame (gone = listedTokens x.keys σ.seen docId)).mono (fun ops T h => h)
    fun _ _ _ h => h) (returns_lift (tokensOf_keys x terms)) fun a ha => ?_
  obtain ⟨tokens, y⟩ := a
  have hy : y.keys = x.keys := ha
  dsimp only
  rw [← hy]
  refine ((leads_filed_slate ⟨(x.tokensAt (σ.writes (cleared y.keys σ.seen docId)).held terms).2.2,
    (σ.writes (cleared y.keys σ.seen docId)).pending⟩ y docId sortKey gone tokens).frame
    (gone = listedTokens y.keys σ.seen docId ∧
      (tokens, y) = ((x.tokensAt (σ.writes (cleared y.keys σ.seen docId)).held terms).1,
        (x.tokensAt (σ.writes (cleared y.keys σ.seen docId)).held terms).2.1) ∧
      y.keys.Affords (σ.writes (cleared y.keys σ.seen docId)).held
        (x.tokensAt (σ.writes (cleared y.keys σ.seen docId)).held terms).2.2)).mono
    (fun ops T h => ?_) fun z ops T h => ?_
  · obtain ⟨hgone, htokens, hslate, hafford⟩ := h
    exact ⟨⟨hgone, htokens, hafford⟩, hslate⟩
  · obtain ⟨⟨rfl, htokens, hafford⟩, rfl, hslate⟩ := h
    rw [hslate]
    refine ⟨?_, ((affords_cleared _ σ docId).trans hafford).trans affords_filed⟩
    obtain ⟨rfl, hindex⟩ := Prod.mk.inj htokens
    unfold updated
    rw [hy] at hindex ⊢
    dsimp only
    rw [← hindex]

/-- To take a document out does, too. -/
theorem leads_remove_at (x : Index) (docId : String) :
    WriteM.Leads (fun ops T => T.slate ops = σ) (x.remove docId : WriteM ν Index)
      fun y ops T => (y, T.slate ops) = x.removed σ docId ∧
        x.keys.Affords σ.held (T.slate ops).held := by
  unfold remove
  refine (leads_deletePostings_slate x.keys docId).bind fun gone => ?_
  refine (WriteM.leads_delete (Q := fun _ ops T => gone = listedTokens x.keys σ.seen docId ∧
      T.slate ops = (σ.writes (cleared x.keys σ.seen docId)).write (listing x.keys docId []))
    _ fun ops T h => ⟨h.1, ?_⟩).bind fun _ => ?_
  · rw [WriteView.slate_wrote, h.2]
    rfl
  refine ((leads_markTokens_slate x gone).frame (gone = listedTokens x.keys σ.seen docId)).mono
    (fun ops T h => h) fun y ops T h => ?_
  obtain ⟨rfl, rfl, hslate⟩ := h
  have hremoved : (x.stamped (listedTokens x.keys σ.seen docId), T.slate ops)
      = x.removed σ docId := by
    have hgone : listedTokens x.keys σ.seen docId ++ ([] : List UInt64)
        = listedTokens x.keys σ.seen docId := List.append_nil _
    unfold removed updated tokensAt filed
    dsimp only
    rw [hslate, hgone]
    rfl
  refine ⟨hremoved, ?_⟩
  have hslate' : T.slate ops = (x.removed σ docId).2 := congrArg Prod.snd hremoved
  rw [hslate']
  exact (affords_cleared _ σ docId).trans affords_filed

-- ============================================================= kept tokens

variable {c : TokenCache} {m : KeyMap Bytes}

/-- The tokens that are kept in memory are those of the map. -/
def KeptIn (ks : IndexKeys) (c : TokenCache) (m : KeyMap Bytes) : Prop :=
  ∀ {term raw token}, c.find? term raw = some token → ks.tokenIn m term raw = some token

/-- Whoever was given a token has one. -/
theorem isSome_tokenIn_given (ks : IndexKeys) (m : KeyMap Bytes) (term raw : String) :
    (ks.tokenIn (ks.given m term raw) term raw).isSome = true := by
  cases h : ks.tokenIn m term raw with
  | some token =>
      rw [given_of_tokenIn h, h]
      rfl
  | none =>
      rw [given_of_none h, tokenIn_minted]
      rfl

/-- If the tokens kept are those of the map, a term gets the token that it
has there, or the next one. -/
theorem tokenAt_of_kept (x : Index) (h : KeptIn x.keys x.cache m) (term raw : String) :
    (x.tokenAt m term raw).2.2 = x.keys.given m term (stored term raw) ∧
      x.keys.tokenIn (x.keys.given m term (stored term raw)) term (stored term raw)
        = some (x.tokenAt m term raw).1 ∧
      KeptIn x.keys (x.tokenAt m term raw).2.1.cache
        (x.keys.given m term (stored term raw)) := by
  unfold tokenAt
  cases hcache : x.cache.find? term (stored term raw) with
  | some token =>
      have ht := h hcache
      rw [given_of_tokenIn ht]
      exact ⟨rfl, ht, h⟩
  | none =>
      obtain ⟨token, ht⟩ := Option.isSome_iff_exists.mp
        (isSome_tokenIn_given x.keys m term (stored term raw))
      dsimp only
      rw [ht, Option.getD_some]
      refine ⟨rfl, rfl, fun hfound => ?_⟩
      rcases of_find?_insert hfound with ⟨rfl, rfl, rfl⟩ | hfound
      · exact ht
      · exact (x.keys.grown_given m _ _).keeps (h hfound)

/-- So do several terms. -/
theorem tokensAt_of_kept (x : Index) (h : KeptIn x.keys x.cache m) (terms : List Term) :
    (x.tokensAt m terms).2.2 = x.keys.givenAll m terms ∧
      (x.tokensAt m terms).1 = x.keys.tokensIn (x.keys.givenAll m terms) terms ∧
      KeptIn x.keys (x.tokensAt m terms).2.1.cache (x.keys.givenAll m terms) := by
  induction terms generalizing x m with
  | nil => exact ⟨rfl, rfl, h⟩
  | cons t ts ih =>
      obtain ⟨hheld, htoken, hkept⟩ := tokenAt_of_kept x h t.index t.raw
      have hkeys := tokenAt_keys x m t.index t.raw
      have hrest := ih (x.tokenAt m t.index t.raw).2.1 (hkeys.symm ▸ hkept)
      rw [hkeys] at hrest
      obtain ⟨hheld', htokens, hkept'⟩ := hrest
      -- the first token goes on being found
      have hfirst : x.keys.tokenFor (x.keys.givenAll m (t :: ts)) t
          = some (x.tokenAt m t.index t.raw).1 := (x.keys.grown_givenAll _ ts).keeps htoken
      unfold tokensAt
      dsimp only
      rw [hheld]
      refine ⟨hheld', ?_, hkept'⟩
      unfold tokensIn
      rw [List.filterMap_cons_some hfirst]
      exact congrArg _ htokens

/-- Asking for tokens leaves the stamp alone. -/
theorem tokensAt_stamp (x : Index) (m : KeyMap Bytes) (terms : List Term) :
    (x.tokensAt m terms).2.1.stamp = x.stamp := by
  have hone (x : Index) (m : KeyMap Bytes) (term raw : String) :
      (x.tokenAt m term raw).2.1.stamp = x.stamp := by
    unfold tokenAt
    split <;> rfl
  induction terms generalizing x m with
  | nil => rfl
  | cons t ts ih => exact (ih _ _).trans (hone x m t.index t.raw)

/-- Another stamp does not change what is kept. -/
@[simp] theorem stamped_cache (x : Index) (tokens : List UInt64) :
    (x.stamped tokens).cache = x.cache := by
  unfold stamped
  split <;> rfl

/-- Nor the keys. -/
@[simp] theorem stamped_keys (x : Index) (tokens : List UInt64) :
    (x.stamped tokens).keys = x.keys := by
  unfold stamped
  split <;> rfl

/-- Before a document is filed: the tokens kept in memory are held, and what
is listed under the document is not of the lexicon. -/
def Prepared (ks : IndexKeys) (σ : Slate) (c : TokenCache) (docId : String) : Prop :=
  KeptIn ks c σ.held ∧ ∀ k ∈ ks.listedIn σ.seen docId, ¬ks.Lexical k

/-- Tokens that are kept go on being in the lexicon when other entries are
written. -/
theorem KeptIn.writes {ws : List (Bytes × Entry)} (hkept : KeptIn ks c σ.held)
    (h : ∀ w ∈ ws, ¬ks.Lexical w.1) : KeptIn ks c (σ.writes ws).held := by
  intro term raw token ht
  rw [tokenIn_congr fun k hk => lexical_writes h hk]
  exact hkept ht

/-- Then a document is filed with the tokens of its terms. -/
theorem updated_of_prepared (x : Index) {docId : String} (h : Prepared x.keys σ x.cache docId)
    (sortKey : String) (terms : List Term) :
    (x.updated σ docId sortKey terms).2 = refiled x.keys σ docId sortKey terms x.stamp ∧
      KeptIn x.keys (x.updated σ docId sortKey terms).1.cache
        (refiled x.keys σ docId sortKey terms x.stamp).held := by
  have hkept : KeptIn x.keys x.cache (σ.writes (cleared x.keys σ.seen docId)).held := by
    refine KeptIn.writes (fun ht => h.1 ht) fun w hw => ?_
    obtain ⟨k, hk, rfl⟩ := List.mem_map.mp hw
    exact h.2 k hk
  obtain ⟨hheld, htokens, hkept'⟩ := tokensAt_of_kept x hkept terms
  unfold updated refiled
  dsimp only
  rw [hheld, htokens, tokensAt_stamp, stamped_cache]
  exact ⟨rfl, KeptIn.writes (σ := begun x.keys σ docId terms) hkept' not_lexical_filed⟩

/-- The keys are the same. -/
theorem updated_keys (x : Index) (σ : Slate) (docId sortKey : String) (terms : List Term) :
    (x.updated σ docId sortKey terms).1.keys = x.keys :=
  (stamped_keys _ _).trans (tokensAt_keys x _ terms)

/-- To file a document makes the slate on which it is filed. -/
theorem leads_update_refiled (x : Index) (docId sortKey : String) (terms : List Term) :
    WriteM.Leads (fun ops T => T.slate ops = σ ∧ Prepared x.keys σ x.cache docId)
      (x.update docId sortKey terms : WriteM ν Index) fun y ops T => y.keys = x.keys ∧
        (∃ stamp, T.slate ops = refiled x.keys σ docId sortKey terms stamp) ∧
        KeptIn x.keys y.cache (T.slate ops).held := by
  refine ((leads_update_at x docId sortKey terms).frame (Prepared x.keys σ x.cache docId)).mono
    (fun ops T h => ⟨h.2, h.1⟩) fun y ops T h => ?_
  obtain ⟨hprepared, heq, -⟩ := h
  have hy : y = (x.updated σ docId sortKey terms).1 := congrArg Prod.fst heq
  have hslate : T.slate ops = (x.updated σ docId sortKey terms).2 := congrArg Prod.snd heq
  obtain ⟨hrefiled, hkept⟩ := updated_of_prepared x hprepared sortKey terms
  rw [hslate, hy, hrefiled]
  exact ⟨updated_keys x σ docId sortKey terms, ⟨_, rfl⟩, hkept⟩

/-- To take a document out makes the slate of a filing with no terms. -/
theorem leads_remove_refiled (x : Index) (docId : String) :
    WriteM.Leads (fun ops T => T.slate ops = σ ∧ Prepared x.keys σ x.cache docId)
      (x.remove docId : WriteM ν Index) fun y ops T => y.keys = x.keys ∧
        (∃ stamp, T.slate ops = refiled x.keys σ docId "" [] stamp) ∧
        KeptIn x.keys y.cache (T.slate ops).held := by
  refine ((leads_remove_at x docId).frame (Prepared x.keys σ x.cache docId)).mono
    (fun ops T h => ⟨h.2, h.1⟩) fun y ops T h => ?_
  obtain ⟨hprepared, heq, -⟩ := h
  have hy : y = (x.updated σ docId "" []).1 := congrArg Prod.fst heq
  have hslate : T.slate ops = (x.updated σ docId "" []).2 := congrArg Prod.snd heq
  obtain ⟨hrefiled, hkept⟩ := updated_of_prepared x hprepared "" []
  rw [hslate, hy, hrefiled]
  exact ⟨updated_keys x σ docId "" [], ⟨_, rfl⟩, hkept⟩

-- ========================================================== what it holds

section Refiled

variable {docId sortKey : String} {terms : List Term} {stamp : UInt64} {k : Bytes}

/-- The postings that are filed for a document with terms. -/
def freshIn (ks : IndexKeys) (σ : Slate) (docId sortKey : String) (terms : List Term) :
    List Bytes :=
  postingsOf ks ⟨cleanSortKey sortKey, docId⟩ (ks.tokensIn (ks.givenAll σ.held terms) terms)

/-- The tokens that are marked. -/
def marksIn (ks : IndexKeys) (σ : Slate) (docId : String) (terms : List Term) : List UInt64 :=
  sortTokens (listedTokens ks σ.seen docId ++ ks.tokensIn (ks.givenAll σ.held terms) terms)

/-- All that is written for a document, tokens apart. -/
def entriesFiled (ks : IndexKeys) (σ : Slate) (docId sortKey : String) (terms : List Term)
    (stamp : UInt64) : List (Bytes × Entry) :=
  refiling ks σ.seen docId (freshIn ks σ docId sortKey terms) (marksIn ks σ docId terms)
    (.value (Codec.fixed64 stamp))

/-- Where no transaction is open, all of it is held. -/
theorem refiled_database (m : KeyMap Bytes) (docId sortKey : String) (terms : List Term)
    (stamp : UInt64) : (refiled ks ⟨m, none⟩ docId sortKey terms stamp).pending = none := by
  unfold refiled begun
  rw [Slate.writes_database]
  show (Slate.writes ⟨_, none⟩ _).pending = none
  rw [Slate.writes_database]

/-- In a transaction all but the tokens is pending. -/
theorem refiled_transaction (m : KeyMap Bytes) (p : Pending) (docId sortKey : String)
    (terms : List Term) (stamp : UInt64) :
    ∃ p', refiled ks ⟨m, some p⟩ docId sortKey terms stamp = ⟨ks.givenAll m terms, some p'⟩ ∧
      ∀ k, p'.find? k
        = (lastWrite (entriesFiled ks ⟨m, some p⟩ docId sortKey terms stamp) k).or
            (p.find? k) := by
  have hbegun : begun ks ⟨m, some p⟩ docId terms = ⟨ks.givenAll m terms,
      some ((cleared ks (m.laid p) docId).foldl (fun p w => p.insert w.1 w.2) p)⟩ := by
    unfold begun
    rw [Slate.writes_transaction]
    rfl
  have hrow : entriesFiled ks ⟨m, some p⟩ docId sortKey terms stamp
      = cleared ks (m.laid p) docId ++ filed ks docId sortKey (listedTokens ks (m.laid p) docId)
        (ks.tokensIn (ks.givenAll m terms) terms) stamp := List.append_assoc _ _ _
  have hrefiled : refiled ks ⟨m, some p⟩ docId sortKey terms stamp = ⟨ks.givenAll m terms,
      some ((filed ks docId sortKey (listedTokens ks (m.laid p) docId)
        (ks.tokensIn (ks.givenAll m terms) terms) stamp).foldl (fun p w => p.insert w.1 w.2)
          ((cleared ks (m.laid p) docId).foldl (fun p w => p.insert w.1 w.2) p))⟩ := by
    unfold refiled
    rw [hbegun]
    exact Slate.writes_transaction _ _ _
  refine ⟨_, hrefiled, fun k => ?_⟩
  rw [hrow, lastWrite_append, Option.or_assoc, Slate.find?_foldl_insert,
    Slate.find?_foldl_insert]

variable (hlisted : ∀ k ∈ ks.listedIn σ.seen docId, ¬ks.Lexical k)

include hlisted

/-- What was listed is deleted, and that leaves the lexicon alone. -/
theorem not_lexical_cleared : ∀ w ∈ cleared ks σ.seen docId, ¬ks.Lexical w.1 := by
  intro w hw
  obtain ⟨k, hk, rfl⟩ := List.mem_map.mp hw
  exact hlisted k hk

/-- So the lexicon is that of the map in which the terms have tokens. -/
theorem begun_lexical (terms : List Term) :
    ∀ k, ks.Lexical k →
      (begun ks σ docId terms).held.find? k = (ks.givenAll σ.held terms).find? k :=
  givenAll_congr (fun _ hk => lexical_writes (not_lexical_cleared hlisted) hk) terms

/-- The terms' tokens are those of that map. -/
theorem tokensIn_begun : ks.tokensIn (begun ks σ docId terms).held terms
    = ks.tokensIn (ks.givenAll σ.held terms) terms := by
  have hsame : ks.tokenFor (begun ks σ docId terms).held
      = ks.tokenFor (ks.givenAll σ.held terms) :=
    funext fun t => tokenIn_congr (begun_lexical hlisted terms) _ _
  unfold tokensIn
  rw [hsame]

/-- The lexicon when the document is filed is that of the map in which the
terms have tokens. -/
theorem refiled_lexical (hk : ks.Lexical k) :
    (refiled ks σ docId sortKey terms stamp).held.find? k
      = (ks.givenAll σ.held terms).find? k := by
  unfold refiled
  rw [lexical_writes not_lexical_filed hk, begun_lexical hlisted terms k hk]

/-- Of the rest, what is seen then is what was seen, and what was written
over it. -/
theorem refiled_seen (hk : ¬ks.Lexical k) :
    (refiled ks σ docId sortKey terms stamp).seen.find? k
      = ((lastWrite (entriesFiled ks σ docId sortKey terms stamp) k).or
          (σ.seen.entry k)).bind Entry.value? := by
  have hbegun : (begun ks σ docId terms).seen.entry k
      = (((lastWrite (cleared ks σ.seen docId) k).or (σ.seen.entry k)).bind
          Entry.value?).map Entry.value := by
    unfold begun KeyMap.entry
    rw [Slate.seen_give hk, Slate.find?_seen_writes]
    rfl
  have hrow : entriesFiled ks σ docId sortKey terms stamp = cleared ks σ.seen docId
      ++ filed ks docId sortKey (listedTokens ks σ.seen docId)
        (ks.tokensIn (begun ks σ docId terms).held terms) stamp := by
    rw [tokensIn_begun hlisted]
    exact List.append_assoc _ _ _
  unfold refiled
  rw [Slate.find?_seen_writes, hbegun, Slate.bind_or_value, hrow, lastWrite_append, Option.or_assoc]

end Refiled

end Index

end OrderedStore
