/-
What belongs to one index is apart from what belongs to another.

A name has no slash in it, so the lead of an index ends at the first slash
behind the name, and no key begins with the leads of two names
(`name_of_lead`). What keeps indexes apart is therefore that each of them
writes under its own lead only. Two kinds of keys are not made by an index
itself but read from the database before they are written: the postings that
are listed under a document, which are deleted, and the lexicon key that a
token leads back to, which is written anew by a sweep. Both are found to be
its own as long as only the index writes there.

So every step of an index goes from a slate to a slate with entries under its
lead written on it, and entries of its lexicon put straight into what is held
(`Within`). Two things follow by going over what was written. What is
elsewhere stays as it was (`Within.outside`). And to an index of another name
such a step is nothing but foreign writes, so whatever rule that one keeps is
kept (`Within.obeys`).
-/
import Mathlib
import OrderedStore.Proofs.Bookkeeping

namespace OrderedStore

-- =================================================================== leads

/-- The byte of a slash. -/
def slash : UInt8 := 47

/-- There is no slash among the bytes of a name that an index can have. -/
theorem slash_not_mem {name : String} (h : Index.isValidName name = true) :
    slash ∉ Text.toBytes name := by
  intro hmem
  rw [Text.toBytes_eq] at hmem
  obtain ⟨c, hc, hb⟩ := List.mem_flatMap.mp hmem
  have hnat : c.toNat = 47 := Text.toNat_of_mem_utf8EncodeChar (by decide) hb
  have hslash : c = '/' := by
    rw [← Char.ofNat_toNat c, hnat]
  unfold Index.isValidName at h
  rw [hslash] at hc
  simp [hc] at h

namespace IndexKeys

variable {ks : IndexKeys} {k : Bytes}

/-- What the keys of every index begin with. -/
def realm : Bytes :=
  Text.toBytes "ft/"

/-- The lead of an index is one of these. -/
theorem realm_prefix_lead (name : String) : realm <+: (ofName name).lead := by
  refine ⟨Text.toBytes name ++ Text.toBytes "/", ?_⟩
  unfold ofName realm
  rw [List.append_assoc]

/-- No key begins with the leads of two names. -/
theorem name_of_lead {name other : String} (hname : Index.isValidName name = true)
    (hother : Index.isValidName other = true) (h : (ofName name).lead <+: k)
    (h' : (ofName other).lead <+: k) : name = other := by
  have hsplit {n : String} (hn : Index.isValidName n = true) (hk : (ofName n).lead <+: k) :
      ∃ rest, k = realm ++ (Text.toBytes n ++ slash :: rest) := by
    obtain ⟨rest, rfl⟩ := hk
    refine ⟨rest, ?_⟩
    unfold ofName
    simp only [List.append_assoc]
    rfl
  obtain ⟨rest, hrest⟩ := hsplit hname h
  obtain ⟨rest', hrest'⟩ := hsplit hother h'
  have hsame := List.append_cancel_left (hrest.symm.trans hrest')
  have hread := Bytes.splitAt?_append (slash_not_mem hname) rest
  rw [hsame, Bytes.splitAt?_append (slash_not_mem hother)] at hread
  exact Text.toBytes_injective (Prod.mk.inj (Option.some.inj hread)).1.symm

/-- What is of some kind begins with the lead. -/
theorem lead_of_kind? {b : UInt8} (h : ks.kind? k = some b) : ks.lead <+: k := by
  obtain ⟨rest, hrest, -⟩ := Option.bind_eq_some_iff.mp h
  rw [Bytes.eq_append_of_after? hrest]
  exact List.prefix_append _ _

/-- So does what belongs to the lexicon. -/
theorem lead_of_lexical (h : ks.Lexical k) : ks.lead <+: k := by
  rcases h with h | h | h <;> exact lead_of_kind? h

end IndexKeys

-- ======================================================== what is written

/-- From one slate to another with entries under the lead of an index: they
are written where the writes go, or they are held at once, whatever is
pending. -/
inductive Within (ks : IndexKeys) (s : Slate) : Slate → Prop
  | nothing : Within ks s s
  | written {s' : Slate} {ws : List (Bytes × Entry)} (h : Within ks s s')
      (hws : ∀ w ∈ ws, ks.lead <+: w.1) : Within ks s (s'.writes ws)
  | held {m : KeyMap Bytes} {pending : Option Pending} {ws : List (Bytes × Entry)}
      (h : Within ks s ⟨m, pending⟩) (hws : ∀ w ∈ ws, ks.lead <+: w.1) :
      Within ks s ⟨ws.foldl KeyMap.write m, pending⟩

namespace Within

variable {ks : IndexKeys} {s s' s'' : Slate} {m m' : KeyMap Bytes} {pending : Option Pending}
  {k : Bytes}

/-- One such step after the other. -/
theorem trans (h : Within ks s s') (h' : Within ks s' s'') : Within ks s s'' := by
  induction h' with
  | nothing => exact h
  | written _ hws ih => exact ih.written hws
  | held _ hws ih => exact ih.held hws

/-- What is elsewhere stays as it was. -/
theorem outside (h : Within ks s s') (hk : ¬ks.lead <+: k) :
    s'.held.find? k = s.held.find? k ∧
      (s'.pending.bind fun p => p.find? k) = s.pending.bind fun p => p.find? k := by
  have hother {ws : List (Bytes × Entry)} (hws : ∀ w ∈ ws, ks.lead <+: w.1) :
      ∀ w ∈ ws, w.1 ≠ k := by
    rintro w hw rfl
    exact hk (hws w hw)
  induction h with
  | nothing => exact ⟨rfl, rfl⟩
  | @written s' ws _ hws ih =>
      refine ⟨(Slate.find?_held_writes (hother hws)).trans ih.1, Eq.trans ?_ ih.2⟩
      obtain ⟨m₁, pending₁⟩ := s'
      cases pending₁ with
      | none => rw [Slate.writes_database]
      | some p =>
          rw [Slate.writes_transaction]
          show (ws.foldl (fun p w => p.insert w.1 w.2) p).find? k = p.find? k
          rw [Slate.find?_foldl_insert, lastWrite_eq_none (hother hws), Option.none_or]
  | @held m pending ws _ hws ih =>
      refine ⟨Eq.trans ?_ ih.1, ih.2⟩
      have hheld := Slate.find?_held_writes (σ := ⟨m, none⟩) (hother hws)
      rwa [Slate.writes_database] at hheld

/-- A transaction stays one, and the database stays the database. -/
theorem isSome_pending (h : Within ks s s') : s'.pending.isSome = s.pending.isSome := by
  induction h with
  | nothing => rfl
  | @written s' ws _ hws ih =>
      obtain ⟨m₁, pending₁⟩ := s'
      refine Eq.trans ?_ ih
      cases pending₁ with
      | none => rw [Slate.writes_database]
      | some p =>
          rw [Slate.writes_transaction]
          rfl
  | held _ hws ih => exact ih

end Within

-- ================================================================== steps

namespace Index

open IndexKeys

variable {ks : IndexKeys} {m : KeyMap Bytes} {s : Slate}

/-- What is written for a new token begins with the lead. -/
theorem lead_of_entriesOf {term raw : String} {token : UInt64} :
    ∀ w ∈ (ks.entriesOf term raw token).entries, ks.lead <+: w.1 := by
  rintro ⟨k, e⟩ hw
  have hfound := KeyMap.mem_entries.mp hw
  unfold entriesOf at hfound
  rw [KeyMap.find?_insert, KeyMap.find?_insert, KeyMap.find?_insert] at hfound
  refine lead_of_lexical ?_
  split at hfound
  · next heq => exact heq ▸ ks.lexical_reverse token
  · split at hfound
    · next heq => exact heq ▸ ks.lexical_lexicon term raw
    · split at hfound
      · next heq => exact heq ▸ ks.lexical_nextToken
      · cases hfound

/-- To ask for a token writes under the lead. -/
theorem within_tokenAt (x : Index) (m : KeyMap Bytes) (term raw : String)
    (pending : Option Pending) :
    Within x.keys ⟨m, pending⟩ ⟨(x.tokenAt m term raw).2.2, pending⟩ := by
  unfold tokenAt
  split
  · exact .nothing
  · show Within _ _ ⟨x.keys.given m term (stored term raw), pending⟩
    unfold given
    split
    · exact .nothing
    · exact Within.nothing.held lead_of_entriesOf

/-- So does asking for several. -/
theorem within_tokensAt (x : Index) (m : KeyMap Bytes) (terms : List Term)
    (pending : Option Pending) :
    Within x.keys ⟨m, pending⟩ ⟨(x.tokensAt m terms).2.2, pending⟩ := by
  induction terms generalizing x m with
  | nil => exact .nothing
  | cons t ts ih =>
      have hrest := ih (x.tokenAt m t.index t.raw).2.1 (x.tokenAt m t.index t.raw).2.2
      rw [tokenAt_keys] at hrest
      exact (within_tokenAt x m t.index t.raw pending).trans hrest

/-- What is written for a document begins with the lead. -/
theorem lead_of_filed {docId sortKey : String} {gone tokens : List UInt64} {stamp : UInt64} :
    ∀ w ∈ filed ks docId sortKey gone tokens stamp, ks.lead <+: w.1 := by
  intro w hw
  rcases List.mem_append.mp hw with hw | hw
  · rcases List.mem_append.mp hw with hw | hw
    · obtain ⟨k, hk, rfl⟩ := List.mem_map.mp hw
      obtain ⟨token, -, rfl⟩ := mem_postingsOf.mp hk
      exact lead_of_kind? (ks.kind?_posting token _)
    · rw [List.mem_singleton.mp hw]
      exact lead_of_kind? (ks.kind?_document docId)
  · obtain ⟨token, -, rfl⟩ := List.mem_map.mp hw
    exact lead_of_kind? (ks.kind?_mark token)

/-- To file a document writes under the lead, if what is listed under it
stands there. -/
theorem within_updated (x : Index) {docId : String}
    (h : ∀ k ∈ x.keys.listedIn s.seen docId, x.keys.lead <+: k) (sortKey : String)
    (terms : List Term) : Within x.keys s (x.updated s docId sortKey terms).2 := by
  have hcleared : Within x.keys s (s.writes (cleared x.keys s.seen docId)) := by
    refine Within.nothing.written fun w hw => ?_
    obtain ⟨k, hk, rfl⟩ := List.mem_map.mp hw
    exact h k hk
  exact (hcleared.trans (within_tokensAt x _ terms _)).written lead_of_filed

end Index

namespace IndexKeys

variable {ks : IndexKeys} {m : KeyMap Bytes} {s : Slate}

/-- What is listed on a slate in balance begins with the lead. -/
theorem Balanced.lead_of_listed {G : UInt64 → Prop} (h : ks.Balanced G s) (docId : String) :
    ∀ k ∈ ks.listedIn s.seen docId, ks.lead <+: k := by
  intro k hk
  obtain ⟨token, d, -, rfl, -⟩ := h.tidy.listed docId k hk
  exact lead_of_kind? (ks.kind?_posting token d)

/-- To refresh a mark writes under the lead, if its token leads back there. -/
theorem within_refreshed {p : Bytes × Bytes} (hp : ks.marks <+: p.1)
    (hback : ∀ {token l}, m.find? (ks.reverse token) = some l → ks.kind? l = some 108) :
    Within ks ⟨m, none⟩ ⟨ks.refreshedIn m p, none⟩ := by
  have hmark : ks.lead <+: p.1 := lead_of_kind? (kind?_of_marks hp)
  have hheld (ws : List (Bytes × Entry)) (hws : ∀ w ∈ ws, ks.lead <+: w.1) :
      Within ks ⟨m, none⟩ ⟨ws.foldl KeyMap.write m, none⟩ := Within.nothing.held hws
  rcases refreshedIn_cases ks m p with ⟨-, -, heq⟩ | ⟨-, heq⟩ | ⟨token, l, bytes, hrecounts, heq⟩
  · rw [heq]
    exact .nothing
  · rw [heq]
    refine hheld [(p.1, .tombstone)] fun w hw => ?_
    rw [List.mem_singleton.mp hw]
    exact hmark
  · rw [heq]
    refine hheld [(p.1, .tombstone), (l, .value (ks.recount m token).encode)] fun w hw => ?_
    rcases List.mem_cons.mp hw with rfl | hw
    · exact hmark
    · rw [List.mem_singleton.mp hw]
      exact lead_of_kind? (hback hrecounts.back)

/-- So does a sweep of a map in balance. -/
theorem Balanced.within_swept (h : ks.Balanced (fun _ => False) ⟨m, none⟩) (batch : Nat) :
    Within ks ⟨m, none⟩ ⟨ks.swept batch m, none⟩ := by
  have hkeeps := swept_induction
    (I := fun m' => ks.Balanced (fun _ => False) ⟨m', none⟩ ∧ Within ks ⟨m, none⟩ ⟨m', none⟩)
    (fun _ _ hp ih => ⟨ih.1.refreshed hp, ih.2.trans
      (within_refreshed hp fun hl => (ih.1.paired.back hl).1)⟩) ⟨h, .nothing⟩ batch
  exact hkeeps.2

end IndexKeys

-- ============================================================ foreign steps

namespace Desk

variable {δ : Desk} {place : Option Nat} {s s' : Slate}

/-- A slate that is set is there. -/
theorem slate_setSlate (h : s.pending.isSome = place.isSome) :
    (δ.setSlate place s).slate place = some s := by
  obtain ⟨m, pending⟩ := s
  cases place with
  | none =>
      obtain rfl : pending = none := Option.isSome_eq_false_iff.mp h |> Option.isNone_iff_eq_none.mp
      rfl
  | some t =>
      obtain ⟨p, rfl⟩ := Option.isSome_iff_exists.mp h
      show Option.map _ (Function.update δ.drafts t (some p) t) = _
      rw [Function.update_self]
      rfl

/-- Of two slates that are set in one place the latter counts. -/
theorem setSlate_setSlate (δ : Desk) (place : Option Nat) (s s' : Slate) :
    (δ.setSlate place s).setSlate place s' = δ.setSlate place s' := by
  cases place with
  | none => rfl
  | some t =>
      refine congrArg (fun drafts => Desk.mk s'.held δ.handles drafts δ.answers) ?_
      exact Function.update_idem _ _ _

/-- To set the slate that is there changes nothing. -/
theorem setSlate_self (hs : δ.slate place = some s) : δ.setSlate place s = δ := by
  cases place with
  | none =>
      cases hs
      rfl
  | some t =>
      obtain ⟨p, hp, rfl⟩ := Option.map_eq_some_iff.mp hs
      refine congrArg (fun drafts => Desk.mk δ.held δ.handles drafts δ.answers) ?_
      exact Function.update_eq_self_iff.mpr hp.symm

/-- A transaction has something pending, and the database has not. -/
theorem isSome_pending (hs : δ.slate place = some s) : s.pending.isSome = place.isSome := by
  cases place with
  | none =>
      cases hs
      rfl
  | some t =>
      obtain ⟨p, -, rfl⟩ := Option.map_eq_some_iff.mp hs
      rfl

end Desk

/-- A step of one index is nothing to a rule that another one keeps: it is
foreign writes. -/
theorem Within.obeys {ks : IndexKeys} {s s' : Slate} {R : Rule} {name : String} {δ : Desk}
    {place : Option Nat} (h : Within ks s s') (hR : R.Kept name)
    (hapart : ∀ k, ks.lead <+: k → ¬(IndexKeys.ofName name).lead <+: k)
    (hs : δ.slate place = some s) (hδ : δ.Obeys R) : (δ.setSlate place s').Obeys R := by
  have hforeign {ws : List (Bytes × Entry)} (hws : ∀ w ∈ ws, ks.lead <+: w.1) :
      ∀ w ∈ ws, ¬(IndexKeys.ofName name).lead <+: w.1 := fun w hw => hapart w.1 (hws w hw)
  induction h with
  | nothing => rwa [Desk.setSlate_self hs]
  | @written s' ws hwithin hws ih =>
      have hslate : (δ.setSlate place s').slate place = some s' :=
        Desk.slate_setSlate (hwithin.isSome_pending.trans (Desk.isSome_pending hs))
      have hstep := ih.setSlate hR hslate (hR.foreign (ih.places hslate) (hforeign hws))
      rwa [Desk.setSlate_setSlate] at hstep
  | @held m pending ws hwithin hws ih =>
      have hheld : (δ.setSlate place ⟨m, pending⟩).held = m := Desk.held_setSlate _ _ _
      have hbase := ih.held
      rw [hheld] at hbase
      have hstep := hR.foreign hbase (hforeign hws)
      rw [Slate.writes_database, ← hheld] at hstep
      have hmoved := ih.moved hR hstep
      rw [hheld] at hmoved
      cases place <;> exact hmoved

end OrderedStore
