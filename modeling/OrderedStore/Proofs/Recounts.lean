/-
What a sweep makes of a map, and that it ends.

A sweep takes the first marks, a batch of them at a time, and brings the
count of each marked token up to date: it takes the mark away, and writes a
lexicon entry anew that leads to another token or has another count. What
that makes of a map can be computed from the map (`refreshedIn`, `passed`,
`swept`), for a map of any content: a mark may name no token, a token may
lead back to anything or to nothing, and a value may be no entry.

# The measure

Keys that are no marks stay, and no key is new, so postings go on being as
many as they were and marks become no more. The first mark of a batch is as
it was met, so it is taken away, with one exception: the token leads back to
the mark itself. Then the mark has another value afterwards, and a pass may
leave as many marks as there were. But then every mark that was changed in
the pass leads back to itself, nothing else is different, and the first one
is taken away by the next pass, as its value is what would be written there.
So twice as many passes as there are marks, and one more, are enough
(`beginning_sweptFrom`), and passes beyond those change nothing.
-/
import Mathlib
import OrderedStore.Proofs.FilingSteps

namespace OrderedStore

-- ======================================================== keys with a lead

namespace KeyMap

variable {α β : Type} {m : KeyMap α} {m' : KeyMap β} {lead k : Bytes}

/-- The pairs whose keys begin with a string. -/
def beginning (m : KeyMap α) (lead : Bytes) : List (Bytes × α) :=
  m.entries.filter fun p => lead.isPrefixOf p.1

/-- They are the pairs that the keys lead to. -/
theorem mem_beginning {v : α} : (k, v) ∈ m.beginning lead ↔ m.find? k = some v ∧ lead <+: k := by
  unfold beginning
  rw [List.mem_filter, mem_entries, List.isPrefixOf_iff_prefix]

/-- Their keys. -/
theorem mem_keys_beginning :
    k ∈ (m.beginning lead).map Prod.fst ↔ (m.find? k).isSome = true ∧ lead <+: k := by
  rw [List.mem_map]
  constructor
  · rintro ⟨⟨l, v⟩, hmem, rfl⟩
    obtain ⟨hv, hlead⟩ := mem_beginning.mp hmem
    exact ⟨Option.isSome_iff_exists.mpr ⟨v, hv⟩, hlead⟩
  · rintro ⟨hk, hlead⟩
    obtain ⟨v, hv⟩ := Option.isSome_iff_exists.mp hk
    exact ⟨(k, v), mem_beginning.mpr ⟨hv, hlead⟩, rfl⟩

/-- The keys are in strict order. -/
theorem pairwise_keys_beginning (m : KeyMap α) (lead : Bytes) :
    ((m.beginning lead).map Prod.fst).Pairwise (· < ·) :=
  List.pairwise_map.mpr (m.sorted.sublist List.filter_sublist)

/-- So each of them is there once. -/
theorem nodup_keys_beginning (m : KeyMap α) (lead : Bytes) :
    ((m.beginning lead).map Prod.fst).Nodup :=
  m.nodup_keys.sublist (List.filter_sublist.map _)

/-- There are none if no key begins so. -/
theorem beginning_eq_nil : m.beginning lead = [] ↔ ∀ k, lead <+: k → m.find? k = none := by
  rw [List.eq_nil_iff_forall_not_mem]
  constructor
  · intro h k hlead
    cases hv : m.find? k with
    | none => rfl
    | some v => exact absurd (mem_beginning.mpr ⟨hv, hlead⟩) (h (k, v))
  · rintro h ⟨k, v⟩ hmem
    obtain ⟨hv, hlead⟩ := mem_beginning.mp hmem
    rw [h k hlead] at hv
    cases hv

/-- With no key more there are no more pairs. -/
theorem length_beginning_le
    (h : ∀ k, lead <+: k → (m'.find? k).isSome = true → (m.find? k).isSome = true) :
    (m'.beginning lead).length ≤ (m.beginning lead).length := by
  rw [← List.length_map (f := Prod.fst), ← (List.length_map Prod.fst : _ = (m.beginning lead).length)]
  refine ((nodup_keys_beginning m' lead).subperm fun k hk => ?_).length_le
  obtain ⟨hsome, hlead⟩ := mem_keys_beginning.mp hk
  exact mem_keys_beginning.mpr ⟨h k hlead hsome, hlead⟩

/-- With one key less there are less. -/
theorem length_beginning_lt
    (h : ∀ k, lead <+: k → (m'.find? k).isSome = true → (m.find? k).isSome = true)
    (hlead : lead <+: k) (hk : (m.find? k).isSome = true) (hk' : m'.find? k = none) :
    (m'.beginning lead).length < (m.beginning lead).length := by
  have hnew : k ∉ (m'.beginning lead).map Prod.fst := by
    intro hmem
    have hsome := (mem_keys_beginning.mp hmem).1
    rw [hk'] at hsome
    cases hsome
  have hsub : (k :: (m'.beginning lead).map Prod.fst) ⊆ (m.beginning lead).map Prod.fst := by
    refine List.cons_subset.mpr ⟨mem_keys_beginning.mpr ⟨hk, hlead⟩, fun l hl => ?_⟩
    obtain ⟨hsome, hlead'⟩ := mem_keys_beginning.mp hl
    exact mem_keys_beginning.mpr ⟨h l hlead' hsome, hlead'⟩
  have hlength := ((List.nodup_cons.mpr ⟨hnew, nodup_keys_beginning m' lead⟩).subperm hsub).length_le
  rw [List.length_cons, List.length_map, List.length_map] at hlength
  exact hlength

/-- With no key more and as many pairs the keys are the same. -/
theorem keys_beginning_eq
    (h : ∀ k, lead <+: k → (m'.find? k).isSome = true → (m.find? k).isSome = true)
    (hlength : (m.beginning lead).length ≤ (m'.beginning lead).length) :
    (m'.beginning lead).map Prod.fst = (m.beginning lead).map Prod.fst := by
  have hsub : (m'.beginning lead).map Prod.fst ⊆ (m.beginning lead).map Prod.fst := by
    intro k hk
    obtain ⟨hsome, hlead⟩ := mem_keys_beginning.mp hk
    exact mem_keys_beginning.mpr ⟨h k hlead hsome, hlead⟩
  have hperm := ((nodup_keys_beginning m' lead).subperm hsub).perm_of_length_le (by simpa using hlength)
  exact hperm.eq_of_pairwise (fun a b _ _ hab hba => absurd hba (List.lt_asymm hab))
    (pairwise_keys_beginning m' lead) (pairwise_keys_beginning m lead)

end KeyMap

namespace IndexKeys

variable {ks : IndexKeys} {m m' : KeyMap Bytes} {p : Bytes × Bytes} {k : Bytes}

-- ============================================================= one mark

/-- How many postings of a token there are. -/
def countIn (ks : IndexKeys) (m : KeyMap Bytes) (token : UInt64) : Nat :=
  (m.beginning (ks.postings token)).length

/-- The entry with which the count of a token is written. -/
def recount (ks : IndexKeys) (m : KeyMap Bytes) (token : UInt64) : LexiconEntry :=
  ⟨token, UInt64.ofNat (ks.countIn m token)⟩

/-- What a value of the lexicon is taken for: an entry that cannot be read
has no postings. -/
def entryOr (token : UInt64) (bytes : Bytes) : LexiconEntry :=
  match LexiconEntry.decode bytes with
  | .ok e => e
  | .error _ => ⟨token, 0⟩

/-- What is written to bring the count of a marked token up to date: nothing
if the mark is no longer the one that was met. -/
def upkeep (ks : IndexKeys) (m : KeyMap Bytes) (p : Bytes × Bytes) : List Operation :=
  match ks.parseMark? p.1 with
  | none => [.delete p.1]
  | some token =>
    if m.find? p.1 ≠ some p.2 then []
    else
      match m.find? (ks.reverse token) with
      | none => [.delete p.1]
      | some l =>
        match m.find? l with
        | none => [.delete p.1]
        | some bytes =>
          if entryOr token bytes = ks.recount m token then [.delete p.1]
          else [.delete p.1, .put l (ks.recount m token).encode]

/-- The map after that. -/
def refreshedIn (ks : IndexKeys) (m : KeyMap Bytes) (p : Bytes × Bytes) : KeyMap Bytes :=
  (Operation.writesOfAll (ks.upkeep m p)).foldl KeyMap.write m

/-- The mark is met where it leads back to an entry that has to be written
anew. -/
structure Recounts (ks : IndexKeys) (m : KeyMap Bytes) (p : Bytes × Bytes) (token : UInt64)
    (l bytes : Bytes) : Prop where
  mark : ks.parseMark? p.1 = some token
  met : m.find? p.1 = some p.2
  back : m.find? (ks.reverse token) = some l
  found : m.find? l = some bytes
  stale : entryOr token bytes ≠ ks.recount m token

/-- Whatever entry the mark leads back to has the count. -/
def Counted (ks : IndexKeys) (m : KeyMap Bytes) (p : Bytes × Bytes) : Prop :=
  ∀ token l bytes, ks.parseMark? p.1 = some token → m.find? (ks.reverse token) = some l →
    m.find? l = some bytes → entryOr token bytes = ks.recount m token

/-- What there is to do for a mark: nothing, as the mark is another one by
now; or it is taken away; or it is, and an entry is written anew. -/
theorem upkeep_cases (ks : IndexKeys) (m : KeyMap Bytes) (p : Bytes × Bytes) :
    ((ks.parseMark? p.1).isSome = true ∧ m.find? p.1 ≠ some p.2 ∧ ks.upkeep m p = []) ∨
      (ks.Counted m p ∧ ks.upkeep m p = [.delete p.1]) ∨
      ∃ token l bytes, ks.Recounts m p token l bytes ∧
        ks.upkeep m p = [.delete p.1, .put l (ks.recount m token).encode] := by
  unfold upkeep
  cases hmark : ks.parseMark? p.1 with
  | none =>
      refine Or.inr (Or.inl ⟨fun token l bytes ht _ _ => ?_, rfl⟩)
      rw [hmark] at ht
      cases ht
  | some token =>
      dsimp only
      by_cases hmet : m.find? p.1 = some p.2
      · rw [if_neg (not_not.mpr hmet)]
        cases hback : m.find? (ks.reverse token) with
        | none =>
            refine Or.inr (Or.inl ⟨fun token' l bytes ht hl _ => ?_, rfl⟩)
            rw [hmark] at ht
            cases ht
            rw [hback] at hl
            cases hl
        | some l =>
            dsimp only
            cases hfound : m.find? l with
            | none =>
                refine Or.inr (Or.inl ⟨fun token' l' bytes ht hl hv => ?_, rfl⟩)
                rw [hmark] at ht
                cases ht
                rw [hback] at hl
                cases hl
                rw [hfound] at hv
                cases hv
            | some bytes =>
                dsimp only
                by_cases hstale : entryOr token bytes = ks.recount m token
                · rw [if_pos hstale]
                  refine Or.inr (Or.inl ⟨fun token' l' bytes' ht hl hv => ?_, rfl⟩)
                  rw [hmark] at ht
                  cases ht
                  rw [hback] at hl
                  cases hl
                  rw [hfound] at hv
                  cases hv
                  exact hstale
                · rw [if_neg hstale]
                  exact Or.inr (Or.inr ⟨token, l, bytes, ⟨hmark, hmet, hback, hfound, hstale⟩, rfl⟩)
      · rw [if_pos hmet]
        exact Or.inl ⟨rfl, hmet, rfl⟩

/-- What that makes of a map. -/
theorem refreshedIn_cases (ks : IndexKeys) (m : KeyMap Bytes) (p : Bytes × Bytes) :
    ((ks.parseMark? p.1).isSome = true ∧ m.find? p.1 ≠ some p.2 ∧ ks.refreshedIn m p = m) ∨
      (ks.Counted m p ∧ ks.refreshedIn m p = m.write (p.1, .tombstone)) ∨
      ∃ token l bytes, ks.Recounts m p token l bytes ∧
        ks.refreshedIn m p = (m.write (p.1, .tombstone)).write
          (l, .value (ks.recount m token).encode) := by
  unfold refreshedIn
  rcases upkeep_cases ks m p with ⟨hmark, hmet, hops⟩ | ⟨hcounted, hops⟩ |
    ⟨token, l, bytes, h, hops⟩
  · rw [hops]
    exact Or.inl ⟨hmark, hmet, rfl⟩
  · rw [hops]
    exact Or.inr (Or.inl ⟨hcounted, rfl⟩)
  · rw [hops]
    exact Or.inr (Or.inr ⟨token, l, bytes, h, rfl⟩)

/-- No key is new. -/
theorem isSome_of_refreshedIn (h : ((ks.refreshedIn m p).find? k).isSome = true) :
    (m.find? k).isSome = true := by
  rcases refreshedIn_cases ks m p with ⟨-, -, heq⟩ | ⟨-, heq⟩ | ⟨token, l, bytes, hrecounts, heq⟩
  · rwa [heq] at h
  · rw [heq, KeyMap.find?_write] at h
    split at h
    · cases h
    · exact h
  · rw [heq, KeyMap.find?_write] at h
    split at h
    · next hl =>
        rw [hl, hrecounts.found]
        rfl
    · rw [KeyMap.find?_write] at h
      split at h
      · cases h
      · exact h

/-- Only the mark may be taken away. -/
theorem isSome_refreshedIn (hk : k ≠ p.1) :
    ((ks.refreshedIn m p).find? k).isSome = (m.find? k).isSome := by
  rcases refreshedIn_cases ks m p with ⟨-, -, heq⟩ | ⟨-, heq⟩ | ⟨token, l, bytes, hrecounts, heq⟩
  · rw [heq]
  · rw [heq, KeyMap.find?_write, if_neg hk]
  · rw [heq, KeyMap.find?_write]
    split
    · next hl =>
        rw [hl, hrecounts.found]
        rfl
    · rw [KeyMap.find?_write, if_neg hk]

/-- A key that does not begin like a mark is not a mark. -/
theorem ne_of_marks {l : Bytes} (hl : ks.marks <+: l) (hk : ¬ks.marks <+: k) : k ≠ l := by
  rintro rfl
  exact hk hl

/-- What begins like a mark is of the kind of marks. -/
theorem kind?_of_marks (h : ks.marks <+: k) : ks.kind? k = some 116 :=
  ks.kind?_of_prefix rfl (h : ks.part "ti/" <+: k)

/-- What begins like a posting of some token is of the kind of postings. -/
theorem kind?_of_postings {token : UInt64} (h : ks.postings token <+: k) :
    ks.kind? k = some 105 := by
  have hpart : ks.part "i/" <+: ks.postings token := by
    unfold postings
    rw [List.append_assoc]
    exact List.prefix_append _ _
  exact ks.kind?_of_prefix rfl (hpart.trans h)

/-- A posting is no mark. -/
theorem not_marks_of_postings {token : UInt64} (h : ks.postings token <+: k) : ¬ks.marks <+: k := by
  intro hmark
  have hposting := kind?_of_postings h
  rw [kind?_of_marks hmark] at hposting
  cases hposting

/-- A key back to the lexicon is no mark. -/
theorem not_marks_reverse (ks : IndexKeys) (token : UInt64) : ¬ks.marks <+: ks.reverse token := by
  intro hmark
  have hkind := ks.kind?_reverse token
  rw [kind?_of_marks hmark] at hkind
  cases hkind

/-- Postings of a token are as many as they were if the same are there. -/
theorem countIn_congr {token : UInt64}
    (h : ∀ k, ks.postings token <+: k → (m'.find? k).isSome = (m.find? k).isSome) :
    ks.countIn m' token = ks.countIn m token := by
  refine Nat.le_antisymm (KeyMap.length_beginning_le fun k hk hsome => ?_)
    (KeyMap.length_beginning_le fun k hk hsome => ?_)
  · rwa [← h k hk]
  · rwa [h k hk]

/-- So they are when only marks are different. -/
theorem countIn_of_marks
    (h : ∀ k, ¬ks.marks <+: k → (m'.find? k).isSome = (m.find? k).isSome) (token : UInt64) :
    ks.countIn m' token = ks.countIn m token :=
  countIn_congr fun k hk => h k (not_marks_of_postings hk)

/-- A mark that is as it was met is taken away, unless its token leads back
to the mark itself. -/
theorem refreshedIn_met (h : m.find? p.1 = some p.2) :
    (ks.refreshedIn m p).find? p.1 = none ∨
      ∃ token bytes, ks.Recounts m p token p.1 bytes ∧
        ks.refreshedIn m p = (m.write (p.1, .tombstone)).write
          (p.1, .value (ks.recount m token).encode) := by
  rcases refreshedIn_cases ks m p with ⟨-, hmet, -⟩ | ⟨-, heq⟩ | ⟨token, l, bytes, hrecounts, heq⟩
  · exact absurd h hmet
  · rw [heq, KeyMap.find?_write, if_pos rfl]
    exact Or.inl rfl
  · by_cases hl : p.1 = l
    · rw [← hl] at hrecounts heq
      exact Or.inr ⟨token, bytes, hrecounts, heq⟩
    · rw [heq, KeyMap.find?_write, if_neg hl, KeyMap.find?_write, if_pos rfl]
      exact Or.inl rfl

-- ================================================================= one pass

/-- The first marks of a map, at most `batch` of them. -/
def markedIn (ks : IndexKeys) (m : KeyMap Bytes) (batch : Nat) : List (Bytes × Bytes) :=
  (m.beginning ks.marks).take batch

/-- The map after one pass over marks. -/
def passed (ks : IndexKeys) (m : KeyMap Bytes) (ps : List (Bytes × Bytes)) : KeyMap Bytes :=
  ps.foldl ks.refreshedIn m

/-- What a refreshing keeps a pass keeps. -/
theorem passed_induction {I : KeyMap Bytes → Prop} {ps : List (Bytes × Bytes)}
    (h : ∀ m, ∀ p ∈ ps, I m → I (ks.refreshedIn m p)) (hm : I m) : I (ks.passed m ps) := by
  induction ps generalizing m with
  | nil => exact hm
  | cons p ps ih =>
      exact ih (fun m q hq => h m q (List.mem_cons_of_mem _ hq)) (h m p List.mem_cons_self hm)

/-- No key is new after a pass. -/
theorem isSome_of_passed {ps : List (Bytes × Bytes)} (m : KeyMap Bytes) (k : Bytes)
    (h : ((ks.passed m ps).find? k).isSome = true) : (m.find? k).isSome = true :=
  passed_induction (I := fun m' => (m'.find? k).isSome = true → (m.find? k).isSome = true)
    (fun _ _ _ ih hk => ih (isSome_of_refreshedIn hk)) id h

/-- Keys that are no marks are there if they were. -/
theorem isSome_passed {ps : List (Bytes × Bytes)} (hps : ∀ p ∈ ps, ks.marks <+: p.1)
    (hk : ¬ks.marks <+: k) : ((ks.passed m ps).find? k).isSome = (m.find? k).isSome :=
  passed_induction (I := fun m' => (m'.find? k).isSome = (m.find? k).isSome)
    (fun _ p hp ih => (isSome_refreshedIn (ne_of_marks (hps p hp) hk)).trans ih) rfl

/-- So postings are as many as they were. -/
theorem countIn_passed {ps : List (Bytes × Bytes)} (hps : ∀ p ∈ ps, ks.marks <+: p.1)
    (token : UInt64) : ks.countIn (ks.passed m ps) token = ks.countIn m token :=
  countIn_of_marks (fun _ hk => isSome_passed hps hk) token

/-- The number of marks of a map. -/
def markCount (ks : IndexKeys) (m : KeyMap Bytes) : Nat :=
  (m.beginning ks.marks).length

/-- Where a refreshing takes no mark away it changes nothing but the value of
its own mark. -/
theorem find?_refreshedIn_of_markCount (hp : ks.marks <+: p.1)
    (hcount : ks.markCount m ≤ ks.markCount (ks.refreshedIn m p)) (hk : k ≠ p.1) :
    (ks.refreshedIn m p).find? k = m.find? k := by
  have hless (hmet : (m.find? p.1).isSome = true) (hgone : (ks.refreshedIn m p).find? p.1 = none) :
      ks.markCount (ks.refreshedIn m p) < ks.markCount m :=
    KeyMap.length_beginning_lt (fun l _ hl => isSome_of_refreshedIn hl) hp hmet hgone
  rcases refreshedIn_cases ks m p with ⟨-, -, heq⟩ | ⟨-, heq⟩ | ⟨token, l, bytes, hrecounts, -⟩
  · rw [heq]
  · rw [heq, KeyMap.find?_write, if_neg hk]
  · have hmet : (m.find? p.1).isSome = true := by
      rw [hrecounts.met]
      rfl
    rcases refreshedIn_met hrecounts.met with hgone | ⟨token, bytes, -, heq⟩
    · have := hless hmet hgone
      omega
    · rw [heq, KeyMap.find?_write, if_neg hk, KeyMap.find?_write, if_neg hk]

/-- A refreshing leaves no more marks than there were. -/
theorem markCount_refreshedIn_le (ks : IndexKeys) (m : KeyMap Bytes) (p : Bytes × Bytes) :
    ks.markCount (ks.refreshedIn m p) ≤ ks.markCount m :=
  KeyMap.length_beginning_le fun _ _ h => isSome_of_refreshedIn h

/-- So does a pass. -/
theorem markCount_passed_le (ks : IndexKeys) (m : KeyMap Bytes) (ps : List (Bytes × Bytes)) :
    ks.markCount (ks.passed m ps) ≤ ks.markCount m :=
  KeyMap.length_beginning_le fun k _ h => isSome_of_passed m k h

/-- Where a pass takes no mark away it changes nothing but the values of its
marks. -/
theorem find?_passed_of_markCount {ps : List (Bytes × Bytes)}
    (hps : ∀ p ∈ ps, ks.marks <+: p.1) (hcount : ks.markCount m ≤ ks.markCount (ks.passed m ps))
    (hk : k ∉ ps.map Prod.fst) : (ks.passed m ps).find? k = m.find? k := by
  induction ps generalizing m with
  | nil => rfl
  | cons p ps ih =>
      have hrest := markCount_passed_le ks (ks.refreshedIn m p) ps
      have hfirst := markCount_refreshedIn_le ks m p
      change ks.markCount m ≤ ks.markCount (ks.passed (ks.refreshedIn m p) ps) at hcount
      rw [List.map_cons, List.mem_cons, not_or] at hk
      refine (ih (fun q hq => hps q (List.mem_cons_of_mem _ hq)) (by omega) hk.2).trans ?_
      exact find?_refreshedIn_of_markCount (hps p List.mem_cons_self) (by omega) hk.1

/-- The first mark of the map is one that will be taken away. -/
def Settled (ks : IndexKeys) (m : KeyMap Bytes) : Prop :=
  ∀ p ps, m.beginning ks.marks = p :: ps → ks.upkeep m p = [.delete p.1]

section Pass

variable {batch : Nat} {ps : List (Bytes × Bytes)}

/-- The marks of a pass are marks. -/
theorem marks_of_markedIn (hp : p ∈ ks.markedIn m batch) :
    m.find? p.1 = some p.2 ∧ ks.marks <+: p.1 :=
  KeyMap.mem_beginning.mp (List.mem_of_mem_take hp)

/-- A pass over a map whose first mark is settled takes it away. -/
theorem markCount_lt_of_settled (hs : ks.Settled m) (hmarked : ks.markedIn m batch = p :: ps) :
    ks.markCount (ks.passed m (p :: ps)) < ks.markCount m := by
  obtain ⟨rest, hfirst⟩ : ∃ rest, m.beginning ks.marks = p :: rest := by
    obtain ⟨rest, hrest⟩ := List.take_prefix batch (m.beginning ks.marks)
    unfold markedIn at hmarked
    rw [hmarked] at hrest
    exact ⟨ps ++ rest, hrest.symm⟩
  obtain ⟨hmet, hmark⟩ := marks_of_markedIn (hmarked ▸ List.mem_cons_self :
    p ∈ ks.markedIn m batch)
  have heq : ks.refreshedIn m p = m.write (p.1, .tombstone) := by
    unfold refreshedIn
    rw [hs p rest hfirst]
    rfl
  refine lt_of_le_of_lt (markCount_passed_le ks (ks.refreshedIn m p) ps) ?_
  refine KeyMap.length_beginning_lt (k := p.1) (fun l _ hl => isSome_of_refreshedIn hl) hmark ?_ ?_
  · rw [hmet]
    rfl
  · rw [heq, KeyMap.find?_write, if_pos rfl]
    rfl

/-- A pass that takes no mark away leaves the first one settled. -/
theorem settled_of_markCount (hmarked : ks.markedIn m batch = p :: ps)
    (hcount : ks.markCount m ≤ ks.markCount (ks.passed m (p :: ps))) :
    ks.Settled (ks.passed m (p :: ps)) := by
  have hmarks : ∀ q ∈ p :: ps, ks.marks <+: q.1 := fun q hq =>
    (marks_of_markedIn (hmarked ▸ hq : q ∈ ks.markedIn m batch)).2
  obtain ⟨hmet, hmark⟩ := marks_of_markedIn (hmarked ▸ List.mem_cons_self :
    p ∈ ks.markedIn m batch)
  have hfirst := markCount_refreshedIn_le ks m p
  have hrest := markCount_passed_le ks (ks.refreshedIn m p) ps
  have hsplit : ks.passed m (p :: ps) = ks.passed (ks.refreshedIn m p) ps := rfl
  rw [hsplit] at hcount
  -- the first mark is not met again
  have hfresh : p.1 ∉ ps.map Prod.fst := by
    have hnodup : ((ks.markedIn m batch).map Prod.fst).Nodup :=
      (KeyMap.nodup_keys_beginning m ks.marks).sublist ((List.take_sublist _ _).map _)
    rw [hmarked, List.map_cons] at hnodup
    exact (List.nodup_cons.mp hnodup).1
  have hkeep {k : Bytes} (hk : k ∉ ps.map Prod.fst) :
      (ks.passed m (p :: ps)).find? k = (ks.refreshedIn m p).find? k :=
    find?_passed_of_markCount (fun q hq => hmarks q (List.mem_cons_of_mem _ hq)) (by omega) hk
  intro q qs hq
  -- it is the first one still
  obtain ⟨rest, hbegun⟩ : ∃ rest, m.beginning ks.marks = p :: rest := by
    obtain ⟨rest, hrest⟩ := List.take_prefix batch (m.beginning ks.marks)
    unfold markedIn at hmarked
    rw [hmarked] at hrest
    exact ⟨ps ++ rest, hrest.symm⟩
  have hkeys : ((ks.passed m (p :: ps)).beginning ks.marks).map Prod.fst = _ :=
    KeyMap.keys_beginning_eq (fun k _ hk => isSome_of_passed m k hk) hcount
  rw [hq, hbegun, List.map_cons, List.map_cons] at hkeys
  obtain ⟨hqp, -⟩ := List.cons.inj hkeys
  have hqfound : (ks.passed m (p :: ps)).find? p.1 = some q.2 := by
    rw [← hqp]
    exact (KeyMap.mem_beginning.mp (hq ▸ List.mem_cons_self :
      q ∈ (ks.passed m (p :: ps)).beginning ks.marks)).1
  rcases (refreshedIn_met hmet : (ks.refreshedIn m p).find? p.1 = none ∨ _) with hgone | ⟨token, bytes, hrecounts, heq⟩
  · rw [hkeep hfresh, hgone] at hqfound
    cases hqfound
  · -- its value is what would be written there
    have hvalue : (ks.passed m (p :: ps)).find? p.1 = some (ks.recount m token).encode := by
      rw [hkeep hfresh, heq, KeyMap.find?_write, if_pos rfl]
      rfl
    have hreverse : ks.reverse token ∉ (p :: ps).map Prod.fst := by
      intro hmem
      obtain ⟨r, hr, hreq⟩ := List.mem_map.mp hmem
      exact not_marks_reverse ks token (hreq ▸ hmarks r hr)
    rw [List.map_cons, List.mem_cons, not_or] at hreverse
    have hback : (ks.passed m (p :: ps)).find? (ks.reverse token) = some p.1 := by
      rw [hkeep hreverse.2, heq, KeyMap.find?_write, if_neg hreverse.1, KeyMap.find?_write,
        if_neg hreverse.1, hrecounts.back]
    have hcounted : ks.recount (ks.passed m (p :: ps)) token = ks.recount m token := by
      unfold recount
      rw [countIn_passed hmarks]
    have hentry : entryOr token (ks.recount m token).encode = ks.recount m token := by
      unfold entryOr
      rw [LexiconEntry.decode_encode]
    unfold upkeep
    rw [hqp, hrecounts.mark]
    dsimp only
    rw [if_neg (not_not.mpr hqfound), hback]
    dsimp only
    rw [hvalue]
    dsimp only
    rw [hcounted, hentry, if_pos rfl]

end Pass

-- =============================================================== all passes

/-- The map after at most `fuel` passes, as long as there are marks. -/
def sweptFrom (ks : IndexKeys) (batch : Nat) : Nat → KeyMap Bytes → KeyMap Bytes
  | 0, m => m
  | fuel + 1, m =>
    if (ks.markedIn m batch).isEmpty then m
    else sweptFrom ks batch fuel (ks.passed m (ks.markedIn m batch))

variable {batch fuel : Nat}

/-- Where there are no marks, none is met. -/
theorem markedIn_eq_nil (hbatch : 0 < batch) :
    ks.markedIn m batch = [] ↔ m.beginning ks.marks = [] := by
  unfold markedIn
  rw [List.take_eq_nil_iff]
  constructor
  · rintro (h | h)
    · omega
    · exact h
  · exact Or.inr

/-- Twice as many passes as there are marks, and one more, leave no marks;
one less is enough if the first mark is settled. -/
theorem beginning_sweptFrom (hbatch : 0 < batch)
    (hfuel : 2 * ks.markCount m + 1 ≤ fuel ∨ ks.Settled m ∧ 2 * ks.markCount m ≤ fuel) :
    (ks.sweptFrom batch fuel m).beginning ks.marks = [] := by
  induction fuel generalizing m with
  | zero =>
      have hnone : ks.markCount m = 0 := by omega
      exact List.length_eq_zero_iff.mp hnone
  | succ fuel ih =>
      rw [sweptFrom]
      cases hmarked : ks.markedIn m batch with
      | nil => exact (markedIn_eq_nil hbatch).mp hmarked
      | cons p ps =>
          simp only [List.isEmpty_cons, Bool.false_eq_true, if_false]
          have hle := markCount_passed_le ks m (p :: ps)
          refine ih ?_
          rcases hfuel with hfuel | ⟨hsettled, hfuel⟩
          · by_cases hless : ks.markCount (ks.passed m (p :: ps)) < ks.markCount m
            · exact Or.inl (by omega)
            · exact Or.inr ⟨settled_of_markCount hmarked (by omega), by omega⟩
          · have := markCount_lt_of_settled hsettled hmarked
            exact Or.inl (by omega)

/-- Passes beyond those that leave no marks change nothing. -/
theorem sweptFrom_add (hbatch : 0 < batch)
    (h : (ks.sweptFrom batch fuel m).beginning ks.marks = []) (more : Nat) :
    ks.sweptFrom batch (fuel + more) m = ks.sweptFrom batch fuel m := by
  induction fuel generalizing m with
  | zero =>
      have hnone : ks.markedIn m batch = [] := (markedIn_eq_nil hbatch).mpr h
      cases more with
      | zero => rfl
      | succ more =>
          rw [Nat.zero_add]
          show (if (ks.markedIn m batch).isEmpty then m else _) = m
          rw [hnone]
          rfl
  | succ fuel ih =>
      have hsum : fuel + 1 + more = fuel + more + 1 := by omega
      rw [hsum, sweptFrom, sweptFrom]
      rw [sweptFrom] at h
      split
      · rfl
      · next hne =>
          rw [if_neg hne] at h
          exact ih h

/-- The map after a sweep, with at least one mark in a batch. -/
def swept (ks : IndexKeys) (batch : Nat) (m : KeyMap Bytes) : KeyMap Bytes :=
  ks.sweptFrom (max batch 1) (2 * m.size + 2) m

/-- There are no more marks than pairs. -/
theorem markCount_le_size (ks : IndexKeys) (m : KeyMap Bytes) : ks.markCount m ≤ m.size :=
  List.length_filter_le _ _

/-- A sweep leaves no marks. -/
theorem beginning_swept (ks : IndexKeys) (batch : Nat) (m : KeyMap Bytes) :
    (ks.swept batch m).beginning ks.marks = [] := by
  have hcount := markCount_le_size ks m
  exact beginning_sweptFrom (by omega) (Or.inl (by omega))

/-- It makes as many passes as it takes: with more it leaves the same. -/
theorem sweptFrom_eq_swept (hfuel : 2 * m.size + 2 ≤ fuel) :
    ks.sweptFrom (max batch 1) fuel m = ks.swept batch m := by
  have hsum : fuel = 2 * m.size + 2 + (fuel - (2 * m.size + 2)) := by omega
  rw [hsum]
  exact sweptFrom_add (by omega) (beginning_swept ks batch m) _

/-- What a refreshing keeps a sweep keeps. -/
theorem swept_induction {I : KeyMap Bytes → Prop}
    (h : ∀ m p, ks.marks <+: p.1 → I m → I (ks.refreshedIn m p)) (hm : I m) (batch : Nat) :
    I (ks.swept batch m) := by
  unfold swept
  generalize 2 * m.size + 2 = fuel
  induction fuel generalizing m with
  | zero => exact hm
  | succ fuel ih =>
      rw [sweptFrom]
      split
      · exact hm
      · exact ih (passed_induction (fun m p hp => h m p (marks_of_markedIn hp).2) hm)

/-- Keys that are no marks are there after a sweep if they were before. -/
theorem isSome_swept (hk : ¬ks.marks <+: k) (batch : Nat) :
    ((ks.swept batch m).find? k).isSome = (m.find? k).isSome :=
  swept_induction (I := fun m' => (m'.find? k).isSome = (m.find? k).isSome)
    (fun _ _ hp ih => (isSome_refreshedIn (ne_of_marks hp hk)).trans ih) rfl batch

/-- So postings are as many as they were. -/
theorem countIn_swept (token : UInt64) (batch : Nat) :
    ks.countIn (ks.swept batch m) token = ks.countIn m token :=
  countIn_of_marks (fun _ hk => isSome_swept hk batch) token

end IndexKeys

end OrderedStore
