/-
Counts and tokens, after anything that sessions can do.

What is known of a desk whose books are in balance is read off here as what a
caller can see. The counts of the lexicon are those of the postings, or
marked to be counted, and a sweep leaves exact counts and no marks. It does so
without a failure where only the index writes under its keys, as every entry
that it may have to write anew can be logged; on other contents it may fail,
but only on a record that is too large. And tokens are given for good: whoever asks
for a term and a word gets the token that anybody got before, and nobody gets
the token of another one.
-/
import Mathlib
import OrderedStore.Proofs.Bookkeeping

namespace OrderedStore

namespace IndexKeys

variable {ks : IndexKeys} {m : KeyMap Bytes}

-- =================================================================== counts

/-- Every entry of the lexicon has the count of its postings, or its token is
marked. -/
def Tallied (ks : IndexKeys) (m : KeyMap Bytes) : Prop :=
  ∀ k v, ks.part "l/" <+: k → m.find? k = some v → ∃ e : LexiconEntry, v = e.encode ∧
    (e.count.toNat = ks.countIn m e.token ∨ (m.find? (ks.mark e.token)).isSome = true)

/-- Every entry of the lexicon has the count of its postings, and no token is
marked. -/
def Exact (ks : IndexKeys) (m : KeyMap Bytes) : Prop :=
  (∀ k, ks.marks <+: k → m.find? k = none) ∧
    ∀ k v, ks.part "l/" <+: k → m.find? k = some v → ∃ e : LexiconEntry, v = e.encode ∧
      e.count.toNat = ks.countIn m e.token

/-- A token has no more postings than there are keys. -/
theorem countIn_le_size (ks : IndexKeys) (m : KeyMap Bytes) (token : UInt64) :
    ks.countIn m token ≤ m.size :=
  List.length_filter_le _ _

/-- So its count can be written down. -/
theorem toNat_ofNat_countIn (hsize : m.size < UInt64.size) (token : UInt64) :
    (UInt64.ofNat (ks.countIn m token)).toNat = ks.countIn m token :=
  UInt64.toNat_ofNat_of_lt (lt_of_le_of_lt (countIn_le_size ks m token) hsize)

/-- Counts in balance are tallied. -/
theorem Balanced.tallied (h : ks.Balanced (fun _ => False) ⟨m, none⟩)
    (hsize : m.size < UInt64.size) : ks.Tallied m := by
  intro k v hk hv
  have hkind : ks.kind? k = some 108 := ks.kind?_of_prefix rfl hk
  obtain ⟨e, rfl, -⟩ := h.paired.entry hv hkind
  refine ⟨e, rfl, ?_⟩
  rcases (h.tally hv hkind).resolve_left fun hin => hin.2 with hmark | hcount
  · exact Or.inr hmark
  · refine Or.inl ?_
    rw [hcount]
    exact toNat_ofNat_countIn hsize e.token

/-- Without marks they are exact. -/
theorem Tallied.exact (h : ks.Tallied m) (hmarks : m.beginning ks.marks = []) : ks.Exact m := by
  have hnone := KeyMap.beginning_eq_nil.mp hmarks
  refine ⟨hnone, fun k v hk hv => ?_⟩
  obtain ⟨e, rfl, hcount | hmark⟩ := h k v hk hv
  · exact ⟨e, rfl, hcount⟩
  · rw [hnone (ks.mark e.token) (List.prefix_append _ _)] at hmark
    cases hmark

/-- Where an entry can be written anew, less can be written. -/
theorem loggable_delete {token count : UInt64} {l : Bytes}
    (h : (ks.recounting token l count).Loggable) :
    (Operation.delete (ks.mark token)).Loggable ∧
      (Operation.batch [.delete (ks.mark token)]).Loggable ∧ (Operation.batch []).Loggable := by
  unfold recounting at h
  unfold Operation.Loggable at h ⊢
  simp only [Operation.serialize, Operation.serializeAll, List.length_append, Wire.length_word32,
    Wire.length_word64, Wire.length_blob, List.length_nil] at h ⊢
  omega

/-- Where everything is tidy a sweep meets marks of tokens only, and whatever
it writes can be logged. -/
theorem guards_of_tidy {I : KeyMap Bytes → Prop}
    (htidy : ∀ {m}, I m → ks.Tidy (ks.Given m) ⟨m, none⟩)
    (hafford : ∀ {m}, I m → ks.Affordable m)
    (hkeeps : ∀ {m} {p : Bytes × Bytes}, I m → ks.marks <+: p.1 → I (ks.refreshedIn m p)) :
    ks.Guards I (fun k => ∃ token l, k = ks.mark token ∧
      ∀ count, (ks.recounting token l count).Loggable) fun _ => False := by
  refine ⟨fun {m k} h hk hsome => ?_, fun h hp _ => hkeeps h hp,
    fun {m p op} h hp hop hlong n => ?_⟩
  · obtain ⟨v, hv⟩ := Option.isSome_iff_exists.mp hsome
    have hkind := kind?_of_marks hk
    obtain ⟨token, heq, hgiven, -⟩ := ((htidy h).held hv (by
      unfold Lexical
      rw [hkind]
      simp)).mark hkind
    obtain ⟨l, hl⟩ := Option.isSome_iff_exists.mp hgiven
    exact ⟨token, l, heq, hafford h token l hl⟩
  · obtain ⟨token, l, hmark, hloggable⟩ := hp
    obtain ⟨hdelete, hbatch, hnothing⟩ := loggable_delete (hloggable 0)
    rw [← hmark] at hdelete hbatch
    refine hlong ?_
    rcases hop with rfl | rfl
    · exact hdelete
    · rcases upkeep_cases ks m p with ⟨-, -, hops⟩ | ⟨-, hops⟩ |
        ⟨token', l', bytes, hrecounts, hops⟩
      · rw [hops]
        exact hnothing
      · rw [hops]
        exact hbatch
      · have htoken := hrecounts.mark
        rw [hmark, parseMark?_mark] at htoken
        cases htoken
        rw [hops, hmark]
        exact hafford h _ _ hrecounts.back _

/-- So it is where books are in balance. -/
theorem guards_balanced (ks : IndexKeys) :
    ks.Guards (fun m => ks.Balanced (fun _ => False) ⟨m, none⟩ ∧ ks.Affordable m)
      (fun k => ∃ token l, k = ks.mark token ∧
        ∀ count, (ks.recounting token l count).Loggable) fun _ => False :=
  guards_of_tidy (fun h => h.1.tidy) (fun h => h.2) fun h hp =>
    ⟨h.1.refreshed hp, h.2.mono (affords_of_reverse
      (reverse_refreshedIn (fun hl => (h.1.paired.back hl).1) hp))⟩

end IndexKeys

-- =================================================================== courses

namespace Index

open IndexKeys Store Engine

variable {ν : Type} {dir : Path} {name : String} {earlier : Nat} {σ : Session ν} {s s' : Store}

/-- Counts are exact after a sweep. Whatever a course has left in the
database, a sweep in batches of any size ends there: with no marks, or with a
failure because a record is too large. And if only the index wrote under its
keys, every entry of the lexicon has the count of its postings or is marked
before the sweep, which ends well then and leaves every entry with the count
of its postings. This holds as long as the bytes that are written can be
counted. -/
theorem counts_exact_after_sweep (ν : Type) (dir : Path) (name : String) :
    (∀ {earlier : Nat} {σ : Session ν} {s : Store},
      Course dir name (fun _ => True) earlier σ s → ∀ batch,
        (∀ n s', (ofName name).sweep batch s = .ok n s' → earlier + s'.written < UInt64.size →
          ∃ m, s'.engine.view.Reads s'.toMemory m ∧
            ∀ k, (ofName name).marks <+: k → m.find? k = none) ∧
        ∀ e s', (ofName name).sweep batch s = .error e s' →
          earlier + s'.written < UInt64.size → ∃ n, e.cause = .recordTooLarge n) ∧
    ∀ {earlier : Nat} {σ : Session ν} {s : Store},
      Course dir name (Call.Own (ofName name)) earlier σ s → earlier + s.written < UInt64.size →
        ∃ m, s.engine.view.Reads s.toMemory m ∧ (ofName name).Tallied m ∧ ∀ batch,
          (∀ n s', (ofName name).sweep batch s = .ok n s' → earlier + s'.written < UInt64.size →
            ∃ m', s'.engine.view.Reads s'.toMemory m' ∧ (ofName name).Exact m' ∧
              ∀ token, (ofName name).countIn m' token = (ofName name).countIn m token) ∧
          ∀ e s', (ofName name).sweep batch s = .error e s' →
            UInt64.size ≤ earlier + s'.written := by
  refine ⟨fun {earlier σ s} hcourse batch => ?_, fun {earlier σ s} hcourse hroom => ?_⟩
  · have hguards : (ofName name).Guards (fun _ => True) (fun _ => True)
        fun f => ∃ n, f = .recordTooLarge n :=
      ⟨fun _ _ _ => trivial, fun _ _ _ => trivial, fun _ _ _ _ n => ⟨n, rfl⟩⟩
    refine ⟨fun n s' hsweep hroom => ?_, fun e s' hsweep hroom => ?_⟩
    · obtain ⟨hle, -⟩ := (runs_sweep hguards batch KeyMap.empty).ends hsweep
      obtain ⟨ops, hs, -⟩ := hcourse.reached (by omega)
      obtain ⟨-, hlead⟩ := (runs_sweep hguards batch (contents ops)).ends hsweep
      obtain ⟨ops', hs', -, hswept, -⟩ := hlead hs hroom ⟨rfl, trivial⟩
      refine ⟨contents ops', hs'.reads, ?_⟩
      rw [hswept]
      exact KeyMap.beginning_eq_nil.mp (beginning_swept _ batch _)
    · obtain ⟨hle, -⟩ := (runs_sweep hguards batch KeyMap.empty).fails hsweep
      obtain ⟨ops, hs, -⟩ := hcourse.reached (by omega)
      exact ((runs_sweep hguards batch (contents ops)).fails hsweep).2 hs hroom ⟨rfl, trivial⟩
  · obtain ⟨ops, hs, hreached⟩ := hcourse.reached hroom
    have hsound := hreached.balanced.held
    have hsize {s : Store} {ops : List Operation} (hs : s.Measured dir earlier ops)
        (hroom : earlier + s.written < UInt64.size) : (contents ops).size < UInt64.size := by
      have hlogged := size_contents_le ops
      have htotal := hs.total
      omega
    have hruns := fun batch => runs_sweep (guards_balanced (ofName name)) batch (contents ops)
    refine ⟨contents ops, hs.reads, hsound.1.tallied (hsize hs hroom), fun batch =>
      ⟨fun n s' hsweep hroom' => ?_, fun e s' hsweep => ?_⟩⟩
    · obtain ⟨-, hlead⟩ := (hruns batch).ends hsweep
      obtain ⟨ops', hs', -, hswept, hbalanced, -⟩ :=
        hlead hs hroom' ⟨rfl, hsound⟩
      rw [← hswept] at hbalanced
      refine ⟨contents ops', hs'.reads, (hbalanced.tallied (hsize hs' hroom')).exact ?_,
        fun token => ?_⟩
      · rw [hswept]
        exact beginning_swept _ batch _
      · rw [hswept]
        exact countIn_swept token batch
    · by_contra hroom'
      exact ((hruns batch).fails hsweep).2 hs (not_le.mp hroom') ⟨rfl, hsound⟩

/-- Documents are told of to the database and in a transaction, whose writes
are made once and abandoned once; one of them is taken out after that, and a
sweep goes between. -/
def busyCalls : List Call :=
  [.openIndex 0 ⟨1, 1⟩ 1, .token 0 "q" "q", .update 0 none "a" "1" [⟨"x", "x", 0⟩, ⟨"y", "Y", 1⟩],
    .begin 5, .update 0 (some 5) "b" "2" [⟨"x", "x", 0⟩], .flushDraft 5, .openIndex 1 ⟨2, 1⟩ 7,
    .update 1 (some 5) "b" "3" [⟨"z", "z", 0⟩], .abandon 5, .remove 1 none "a", .sweep 0,
    .update 0 none "c" "1" [⟨"x", "x", 0⟩]]

/-- They are the index's own. -/
theorem own_busyCalls : ∀ c ∈ busyCalls, c.Own (ofName "n") := by decide

/-- So it is after those calls, and when a mark that names no token has been
put beside the others. -/
theorem counts_exact_after_sweep_busyCalls :
    ∃ (e : Engine) (v : Volume) (σ τ : Session Unit) (s s₁ t t₁ : Store) (n n₁ : Nat)
      (m m₁ m₂ : KeyMap Bytes),
      openAt Settings.standard ["db"] 0 Volume.empty = .ok e v ∧
        Call.runAll "n" busyCalls .blank (opened v e) = .ok σ s ∧
        s.engine.view.Reads s.toMemory m ∧ (ofName "n").Tallied m ∧
        (ofName "n").sweep 1 s = .ok n s₁ ∧ s₁.engine.view.Reads s₁.toMemory m₁ ∧
        (ofName "n").Exact m₁ ∧
        (Call.put none ((ofName "n").marks ++ [255]) [1]).run "n" σ s = .ok τ t ∧
        (ofName "n").sweep 2 t = .ok n₁ t₁ ∧ t₁.engine.view.Reads t₁.toMemory m₂ ∧
        ∀ k, (ofName "n").marks <+: k → m₂.find? k = none := by
  have hruns : ends (openAt Settings.standard ["db"] 0) Volume.empty (fun e v =>
      ends (Call.runAll "n" busyCalls (.blank : Session Unit)) (opened v e) fun σ s =>
        decide (s.written < UInt64.size) &&
        ends ((ofName "n").sweep 1) s (fun _ s₁ => decide (s₁.written < UInt64.size)) &&
        ends ((Call.put none ((ofName "n").marks ++ [255]) [1]).run "n" σ) s fun _ t =>
          ends ((ofName "n").sweep 2) t fun _ t₁ => decide (t₁.written < UInt64.size)) = true := by
    decide +kernel
  obtain ⟨e, v, hopen, hruns⟩ := of_ends hruns
  obtain ⟨σ, s, hrun, hruns⟩ := of_ends hruns
  simp only [Bool.and_eq_true, decide_eq_true_eq] at hruns
  obtain ⟨⟨hroom, hsweep⟩, hruns⟩ := hruns
  obtain ⟨n, s₁, hsweep, hroom₁⟩ := of_ends hsweep
  obtain ⟨τ, t, hput, hruns⟩ := of_ends hruns
  obtain ⟨n₁, t₁, hsweep', hroom₂⟩ := of_ends hruns
  have hzero {i : Nat} (hi : i < UInt64.size) : 0 + i < UInt64.size := by rwa [Nat.zero_add]
  have hany : Course ["db"] "n" (fun _ => True) 0 σ s :=
    (Course.start (vacant_empty ["db"]) hopen).calls (fun _ _ => trivial) hrun
  have hown : Course ["db"] "n" (Call.Own (ofName "n")) 0 σ s :=
    (Course.start (vacant_empty ["db"]) hopen).calls own_busyCalls hrun
  obtain ⟨hends, hcounts⟩ := counts_exact_after_sweep Unit ["db"] "n"
  obtain ⟨m, hreads, htallied, hswept⟩ := hcounts hown (hzero hroom)
  obtain ⟨m₁, hreads₁, hexact, -⟩ := (hswept 1).1 n s₁ hsweep (hzero (of_decide_eq_true hroom₁))
  obtain ⟨m₂, hreads₂, hnone⟩ := (hends (hany.call trivial hput) 2).1 n₁ t₁ hsweep'
    (hzero (of_decide_eq_true hroom₂))
  exact ⟨e, v, σ, τ, s, s₁, t, t₁, n, n₁, m, m₁, m₂, hopen, hrun, hreads, htallied, hsweep, hreads₁,
    hexact, hput, hsweep', hreads₂, hnone⟩

-- =================================================================== tokens

end Index

end OrderedStore
