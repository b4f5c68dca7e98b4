/-
What an index holds does not change by itself.

To an index two maps are alike if terms have the same tokens in both, the
same postings stand there, and the same is listed under the documents
(`Alike`). Writes to keys of others leave a map alike, and so does a sweep:
it takes marks away, and of a lexicon entry it writes the count anew and
leaves the token. For the count it goes by the key that leads from the
token back to its entry, and such a key tells the truth (`Lexed.reverse`).
So a sweep may come between any two steps of an index.
-/
import Mathlib
import OrderedStore.Proofs.FilingSteps

namespace OrderedStore

/-- What is read from a view is an answer of the reading. -/
theorem returns_reading {α : Type} {read : Memory → Except Failure α} {Φ : α → Prop}
    (h : ∀ mem a, read mem = .ok a → Φ a) : Returns (Database.reading read) Φ := by
  intro s a s' hrun
  rw [Database.reading_eq] at hrun
  exact h _ _ (of_orFatal_value hrun).1

/-- The keys of pairs that are taken from a cursor on pass the test. -/
theorem ReadView.passed_of_takeFrom {mem : Memory} {r : ReadView} {test : Bytes → Bool}
    {fuel : Nat} {c : Cursor} {ps : List (Bytes × Bytes)}
    (h : r.takeFrom mem test fuel c = .ok ps) : ∀ p ∈ ps, test p.1 = true := by
  induction fuel generalizing c ps with
  | zero =>
      cases h
      exact fun p hp => absurd hp List.not_mem_nil
  | succ fuel ih =>
      rw [takeFrom] at h
      split at h
      · cases h
        exact fun p hp => absurd hp List.not_mem_nil
      · next p _ =>
          split at h
          · next htest =>
              split at h
              · cases h
              · split at h
                · cases h
                · next hrest =>
                    cases h
                    exact List.forall_mem_cons.mpr ⟨htest, ih hrest⟩
          · cases h
            exact fun p hp => absurd hp List.not_mem_nil

namespace IndexKeys

variable {ks : IndexKeys} {m m' m'' : KeyMap Bytes} {k : Bytes} {e : Entry}

-- ================================================================== alike

/-- The maps are alike to an index. -/
structure Alike (ks : IndexKeys) (m m' : KeyMap Bytes) : Prop where
  tokens : ∀ term raw, ks.tokenIn m' term raw = ks.tokenIn m term raw
  next : ks.nextIn m' = ks.nextIn m
  lexed : ks.Lexed m → ks.Lexed m'
  postings : ∀ k, ks.kind? k = some 105 → m'.find? k = m.find? k
  lists : ∀ docId, m'.find? (ks.document docId) = m.find? (ks.document docId)

/-- A map is like itself. -/
theorem Alike.refl (ks : IndexKeys) (m : KeyMap Bytes) : ks.Alike m m :=
  ⟨fun _ _ => rfl, rfl, fun h => h, fun _ _ => rfl, fun _ => rfl⟩

/-- Two maps that are like a third are alike. -/
theorem Alike.trans (h : ks.Alike m m') (h' : ks.Alike m' m'') : ks.Alike m m'' :=
  ⟨fun term raw => (h'.tokens term raw).trans (h.tokens term raw), h'.next.trans h.next,
    fun hl => h'.lexed (h.lexed hl), fun k hk => (h'.postings k hk).trans (h.postings k hk),
    fun docId => (h'.lists docId).trans (h.lists docId)⟩

/-- The key counts for what an index holds. -/
def Counts (ks : IndexKeys) (k : Bytes) : Prop :=
  ks.Lexical k ∨ ks.kind? k = some 105 ∨ ks.kind? k = some 100

/-- Only keys that count make a difference. -/
theorem alike_of_congr (h : ∀ k, ks.Counts k → m'.find? k = m.find? k) : ks.Alike m m' := by
  have hlexical : ∀ k, ks.Lexical k → m'.find? k = m.find? k := fun k hk => h k (Or.inl hk)
  refine ⟨tokenIn_congr hlexical, nextIn_congr hlexical, fun hl => hl.congr hlexical,
    fun k hk => h k (Or.inr (Or.inl hk)), fun docId => ?_⟩
  exact h _ (Or.inr (Or.inr (ks.kind?_document docId)))

/-- Writing another key leaves the map alike. -/
theorem alike_write (m : KeyMap Bytes) (hk : ¬ks.Counts k) (e : Entry) :
    ks.Alike m (m.write (k, e)) := by
  refine alike_of_congr fun l hl => ?_
  rw [KeyMap.find?_write, if_neg]
  rintro rfl
  exact hk hl

/-- So does writing several. -/
theorem alike_writes {ws : List (Bytes × Entry)} (h : ∀ w ∈ ws, ¬ks.Counts w.1)
    (m : KeyMap Bytes) : ks.Alike m (ws.foldl KeyMap.write m) := by
  induction ws generalizing m with
  | nil => exact Alike.refl ks m
  | cons w ws ih =>
      have hfirst : ks.Alike m (m.write w) := alike_write m (h w List.mem_cons_self) w.2
      exact hfirst.trans (ih (fun u hu => h u (List.mem_cons_of_mem _ hu)) _)

/-- A mark does not count. -/
theorem not_counts_of_mark (hk : ks.kind? k = some 116) : ¬ks.Counts k := by
  unfold Counts Lexical
  rw [hk]
  simp

/-- What an index holds in one of two maps that are alike it holds in the
other. -/
theorem Posted.alike {docs : Documents} (hp : ks.Posted m docs) (h : ks.Alike m m') :
    ks.Posted m' docs :=
  hp.congr (fun ht => by rw [h.tokens, ht]) h.postings h.lists

section Recounted

variable {term raw : String} {token : UInt64}

/-- A lexicon entry that is written anew keeps its token. -/
theorem tokenIn_recounted (ht : ks.tokenIn m term raw = some token) (count : UInt64)
    (term' raw' : String) :
    ks.tokenIn (m.write (ks.lexicon term raw, .value (LexiconEntry.encode ⟨token, count⟩)))
      term' raw' = ks.tokenIn m term' raw' := by
  by_cases hsame : ks.lexicon term' raw' = ks.lexicon term raw
  · have hold : ks.tokenIn m term' raw' = some token := by
      rw [← ht]
      unfold tokenIn
      rw [hsame]
    rw [hold]
    refine tokenIn_of_find? (e := ⟨token, count⟩) ?_
    rw [KeyMap.find?_write, if_pos hsame]
    rfl
  · unfold tokenIn
    rw [KeyMap.find?_write, if_neg hsame]

/-- So with another count the map is alike. -/
theorem alike_recounted (hterm : Plain term) (ht : ks.tokenIn m term raw = some token)
    (count : UInt64) :
    ks.Alike m
      (m.write (ks.lexicon term raw, .value (LexiconEntry.encode ⟨token, count⟩))) := by
  have htokens := tokenIn_recounted ht count
  have hother (k : Bytes) (hk : ks.kind? k ≠ some 108) :
      (m.write (ks.lexicon term raw, .value (LexiconEntry.encode ⟨token, count⟩))).find? k
        = m.find? k := by
    rw [KeyMap.find?_write, if_neg]
    exact ks.ne_of_kind? (by simpa using hk)
  have hnext : ks.nextIn
      (m.write (ks.lexicon term raw, .value (LexiconEntry.encode ⟨token, count⟩)))
        = ks.nextIn m := by
    unfold nextIn
    rw [hother _ (by simp)]
  refine ⟨htokens, hnext, fun hl => ⟨fun k v hk hkind => ?_, ?_, ?_, fun token' l hk => ?_⟩,
    fun k hk => hother k (by simp [hk]), fun docId => hother _ (by simp)⟩
  · rw [KeyMap.find?_write] at hk
    split at hk
    · next heq =>
        cases hk
        exact ⟨term, raw, _, hterm, heq, rfl⟩
    · exact hl.entry k v hk hkind
  · intro t₁ r₁ t₂ r₂ token' h₁ h₂ ht₁ ht₂
    rw [htokens] at ht₁ ht₂
    exact hl.injective h₁ h₂ ht₁ ht₂
  · intro t r token' ht'
    rw [htokens] at ht'
    rw [hnext]
    exact hl.fresh ht'
  · rw [hother _ (by simp)] at hk
    simp only [htokens]
    exact hl.reverse token' l hk

end Recounted

-- ================================================================ sweeping

/-- What holds of operations goes on holding when more are logged that
leave the map alike. -/
def Unmoved (ks : IndexKeys) (F : List Operation → Prop) : Prop :=
  ∀ ops ops', ks.Alike (contents ops) (contents ops') → ops.length ≤ ops'.length →
    F ops → F ops'

/-- The lexicon is one, and something holds that goes on holding while the
map is alike. -/
def Steady (ks : IndexKeys) (F : List Operation → Prop) (ops : List Operation) : Prop :=
  ks.Lexed (contents ops) ∧ F ops

variable {F : List Operation → Prop} {ops : List Operation}

/-- More operations are logged. -/
theorem Steady.append (hF : ks.Unmoved F) (h : ks.Steady F ops) {more : List Operation}
    (hlike : ks.Alike (contents ops)
      ((Operation.writesOfAll more).foldl KeyMap.write (contents ops))) :
    ks.Steady F (ops ++ more) := by
  rw [← contents_append] at hlike
  have hlength : ops.length ≤ (ops ++ more).length := by
    rw [List.length_append]
    exact Nat.le_add_right _ _
  exact ⟨hlike.lexed h.1, hF ops _ hlike hlength h.2⟩

section Refresh

variable {mark stamp : Bytes} {token count : UInt64} {mem : Memory} {w : View} {counted : Bool}
  {more : List Operation}

/-- What is written for a marked token: nothing, or its mark is taken away,
or that is and the entry that it leads back to gets a count. -/
theorem refreshed_cases (h : ks.refreshed mark stamp token count mem w = .ok (more, counted)) :
    more = [] ∨ more = [.delete mark] ∨ ∃ l, w.get mem (ks.reverse token) = .ok (some l) ∧
      more = [.delete mark, .put l (LexiconEntry.encode ⟨token, count⟩)] := by
  unfold refreshed at h
  obtain ⟨found, -, h⟩ := of_ok_bind h
  split at h
  · cases h
    exact Or.inl rfl
  · obtain ⟨reverse, hreverse, h⟩ := of_ok_bind h
    cases reverse with
    | none =>
        cases h
        exact Or.inr (Or.inl rfl)
    | some l =>
        obtain ⟨entry, -, h⟩ := of_ok_bind h
        cases entry with
        | none =>
            cases h
            exact Or.inr (Or.inl rfl)
        | some bytes =>
            dsimp -zeta only at h
            extract_lets e at h
            split at h
            · cases h
              exact Or.inr (Or.inr ⟨l, hreverse, rfl⟩)
            · cases h
              exact Or.inr (Or.inl rfl)

/-- It comes to single writes. -/
theorem single_refreshed (h : ks.refreshed mark stamp token count mem w = .ok (more, counted)) :
    ∀ op ∈ more, op.Single := by
  rcases refreshed_cases h with rfl | rfl | ⟨l, -, rfl⟩ <;> simp [Operation.Single]

/-- The map is alike when it is written. -/
theorem alike_refreshed (hl : ks.Lexed m) (hreads : w.Reads mem m)
    (hmark : ks.kind? mark = some 116)
    (h : ks.refreshed mark stamp token count mem w = .ok (more, counted)) :
    ks.Alike m ((Operation.writesOfAll more).foldl KeyMap.write m) := by
  have hunmarked : ks.Alike m (m.write (mark, .tombstone)) :=
    alike_write m (not_counts_of_mark hmark) _
  rcases refreshed_cases h with rfl | rfl | ⟨l, hreverse, rfl⟩
  · exact Alike.refl ks m
  · exact hunmarked
  · rw [hreads.get] at hreverse
    obtain ⟨term, raw, hterm, rfl, ht⟩ := hl.reverse token l (Except.ok.inj hreverse)
    rw [← hunmarked.tokens] at ht
    exact hunmarked.trans (alike_recounted hterm ht count)

end Refresh

/-- To bring a count up to date moves nothing. -/
theorem leads_refresh (hF : ks.Unmoved F) (snapshot : View) {mark : Bytes} (stamp : Bytes)
    (hmark : ks.kind? mark = some 116) :
    Leads (ks.Steady F) (ks.refresh snapshot mark stamp) fun _ => ks.Steady F := by
  unfold refresh
  cases ks.parseMark? mark with
  | none =>
      refine Leads.bind (Q := fun _ => ks.Steady F) (leads_delete mark fun ops h => ?_)
        fun _ => leads_pure fun ops h => h
      exact h.append hF (alike_write _ (not_counts_of_mark hmark) .tombstone)
  | some token =>
      refine Leads.bind (Q := fun _ => ks.Steady F) (leads_reading _ fun ops _ h => h)
        fun count => leads_readModifyWrite (fun mem w more a h => single_refreshed h)
          (fun ops mem w a _ _ h => h) fun ops mem w op rest a hreads hchoose h => ?_
      have halike := alike_refreshed h.1 hreads hmark hchoose
      refine h.append hF ?_
      rwa [Operation.writesOfAll_singleton, Operation.writes]

/-- To bring several up to date moves nothing. -/
theorem leads_refreshAll (hF : ks.Unmoved F) (snapshot : View) {marks : List (Bytes × Bytes)}
    (hmarks : ∀ p ∈ marks, ks.kind? p.1 = some 116) :
    Leads (ks.Steady F) (ks.refreshAll snapshot marks) fun _ => ks.Steady F := by
  induction marks with
  | nil => exact leads_pure fun ops h => h
  | cons p marks ih =>
      rw [refreshAll]
      refine (leads_refresh hF snapshot p.2 (hmarks p List.mem_cons_self)).bind fun counted => ?_
      refine (ih fun q hq => hmarks q (List.mem_cons_of_mem _ hq)).bind fun n => ?_
      exact leads_pure fun ops h => h

/-- The pairs that are met as marks are marks. -/
theorem kind?_of_marked {mem : Memory} {w : View} {batch : Nat} {marks : List (Bytes × Bytes)}
    (h : ks.marked mem w batch = .ok marks) : ∀ p ∈ marks, ks.kind? p.1 = some 116 := by
  obtain ⟨c, -, htake⟩ := of_ok_bind h
  intro p hp
  have hpre := ReadView.passed_of_takeFrom htake p hp
  exact ks.kind?_of_prefix rfl (List.isPrefixOf_iff_prefix.mp hpre)

/-- Passes over the marks move nothing. -/
theorem leads_sweepFrom (hF : ks.Unmoved F) (batch fuel : Nat) :
    Leads (ks.Steady F) (ks.sweepFrom batch fuel) fun _ => ks.Steady F := by
  induction fuel with
  | zero => exact leads_pure fun ops h => h
  | succ fuel ih =>
      rw [sweepFrom]
      refine Leads.bind (Q := fun _ => ks.Steady F) (leads_snapshot fun ops _ h => h)
        fun snapshot => ?_
      refine Leads.bind_returns (Q := fun _ => ks.Steady F) (leads_reading _ fun ops _ h => h)
        (returns_reading fun mem marks h => kind?_of_marked h) fun marks hmarks => ?_
      split
      · exact leads_pure fun ops h => h
      · refine (leads_refreshAll hF snapshot hmarks).bind fun counted => ?_
        exact ih.bind fun n => leads_pure fun ops h => h

/-- So a sweep moves nothing, wherever it comes. -/
theorem leads_sweep (hF : ks.Unmoved F) (batch : Nat) :
    Leads (ks.Steady F) (ks.sweep batch) fun _ => ks.Steady F := by
  unfold sweep
  refine Leads.bind (Q := fun _ => ks.Steady F) (leads_snapshot fun ops _ h => h)
    fun snapshot => ?_
  refine Leads.bind (Q := fun _ => ks.Steady F) ?_ fun s => leads_sweepFrom hF _ _
  rintro s a s' ⟨⟩
  exact ⟨Nat.le_refl _, fun {dir earlier ops} hs _ h => ⟨ops, hs, Store.Keeps.refl s, h⟩⟩

end IndexKeys

end OrderedStore
