/-
A table that was built is read as what was accepted for it.

Entries may be offered to a builder in any order. What it accepts is a rule
on the entries alone (`accept`): one is put behind those accepted before if
its key is above the last of them, and is passed over otherwise. The
builder follows the rule because it knows the accepted entries and nothing
else (`Knows`); a refused offer does not reach it, so a table that some
offers were refused for is, byte for byte, the one that only the others
were made for.

What is accepted is in strictly ascending order whatever was offered, so
the finished file is the image of a table that can be stored, and reading
it is reading an image.
-/
import Mathlib
import OrderedStore.Proofs.Catalog

namespace OrderedStore

namespace Table

variable {es calls : List (Bytes × Entry)} {k : Bytes} {e : Entry}

-- ============================================================= what is kept

/-- Why an entry with the key is refused behind those that were accepted, if
it is: its key is not above the last of theirs. -/
def refusalBehind (es : List (Bytes × Entry)) (k : Bytes) : Option TableFault :=
  es.getLast?.bind fun last => if k ≤ last.1 then some (.outOfOrder k last.1) else none

/-- The accepted entries after one more was offered. -/
def accept (es : List (Bytes × Entry)) (call : Bytes × Entry) : List (Bytes × Entry) :=
  if refusalBehind es call.1 = none then es ++ [call] else es

/-- The entries that are accepted of those offered, in order. -/
def accepted (calls : List (Bytes × Entry)) : List (Bytes × Entry) :=
  calls.foldl accept []

/-- What is answered to each offer behind the accepted entries: nothing, or
why it is refused. -/
def answersBehind (es : List (Bytes × Entry)) : List (Bytes × Entry) → List (Option Failure)
  | [] => []
  | call :: calls =>
    (refusalBehind es call.1).map Failure.table :: answersBehind (accept es call) calls

/-- An entry is accepted if its key is above all of those accepted. -/
theorem refusalBehind_eq_none_iff (hs : es.Pairwise fun a b => a.1 < b.1) :
    refusalBehind es k = none ↔ ∀ p ∈ es, p.1 < k := by
  unfold refusalBehind
  cases hlast : es.getLast? with
  | none =>
      rw [List.getLast?_eq_none_iff.mp hlast]
      simp
  | some last =>
      obtain ⟨front, rfl⟩ := List.getLast?_eq_some_iff.mp hlast
      have hbelow := (List.pairwise_append.mp hs).2.2
      rw [Option.bind_some]
      constructor
      · intro h p hp
        have hk : last.1 < k := by
          by_contra hk
          rw [if_pos (List.not_lt.mp hk)] at h
          cases h
        rcases List.mem_append.mp hp with hp | hp
        · exact List.lt_trans (hbelow p hp last (List.mem_singleton_self last)) hk
        · rw [List.mem_singleton.mp hp]
          exact hk
      · intro h
        have hk := h last (List.mem_append_right _ (List.mem_singleton_self last))
        exact if_neg (List.not_le.mpr hk)

/-- Accepted entries are in order. -/
theorem sorted_accept (hs : es.Pairwise fun a b => a.1 < b.1) (call : Bytes × Entry) :
    (accept es call).Pairwise fun a b => a.1 < b.1 := by
  unfold accept
  split
  · next h =>
      rw [refusalBehind_eq_none_iff hs] at h
      refine List.pairwise_append.mpr ⟨hs, List.pairwise_singleton _ _, fun p hp q hq => ?_⟩
      rw [List.mem_singleton.mp hq]
      exact h p hp
  · exact hs

/-- They are in order whatever was offered. -/
theorem sorted_accepted (calls : List (Bytes × Entry)) :
    (accepted calls).Pairwise fun a b => a.1 < b.1 := by
  unfold accepted
  induction calls using List.reverseRec with
  | nil => exact List.Pairwise.nil
  | append_singleton calls call ih =>
      rw [List.foldl_append]
      exact sorted_accept ih call

/-- An accepted entry was offered. -/
theorem mem_of_mem_accepted {p : Bytes × Entry} (h : p ∈ accepted calls) : p ∈ calls := by
  unfold accepted at h
  induction calls using List.reverseRec with
  | nil => exact h
  | append_singleton calls call ih =>
      rw [List.foldl_append, List.foldl_cons, List.foldl_nil, accept] at h
      split at h
      · exact (List.mem_append.mp h).elim (fun h => List.mem_append_left _ (ih h))
          (List.mem_append_right _)
      · exact List.mem_append_left _ (ih h)

/-- Entries in order are accepted one by one, and nothing is refused. -/
theorem accept_all (front : List (Bytes × Entry))
    (hs : (front ++ es).Pairwise fun a b => a.1 < b.1) :
    es.foldl accept front = front ++ es ∧ answersBehind front es = es.map fun _ => none := by
  induction es generalizing front with
  | nil => exact ⟨(List.append_nil front).symm, rfl⟩
  | cons call es ih =>
      obtain ⟨hfront, -, hbelow⟩ := List.pairwise_append.mp hs
      have hnone : refusalBehind front call.1 = none :=
        (refusalBehind_eq_none_iff hfront).mpr fun p hp => hbelow p hp call List.mem_cons_self
      have haccept : accept front call = front ++ [call] := if_pos hnone
      have hmove : front ++ call :: es = front ++ [call] ++ es := by
        rw [List.append_assoc, List.singleton_append]
      rw [hmove] at hs
      obtain ⟨hkept, hanswers⟩ := ih (front ++ [call]) hs
      constructor
      · rw [List.foldl_cons, haccept, hkept, hmove]
      · rw [answersBehind, haccept, hanswers, hnone]
        rfl

/-- Accepted entries, offered again, are all accepted. -/
theorem accepted_accepted (calls : List (Bytes × Entry)) :
    accepted (accepted calls) = accepted calls ∧
      answersBehind [] (accepted calls) = (accepted calls).map fun _ => none :=
  accept_all [] (sorted_accepted calls)

-- ============================================================ what is built

namespace Builder

variable {b : Builder} {v : Volume}

/-- Offers an entry. Answers why it is refused, if it is, and the builder
for what comes next. -/
def offer (b : Builder) (k : Bytes) (e : Entry) : Disk (Option Failure × Builder) :=
  tryCatch (do return (none, ← b.add k e)) fun failure => return (some failure, b)

/-- Offers entries one after the other. -/
def offerAll (b : Builder) : List (Bytes × Entry) → Disk (List (Option Failure) × Builder)
  | [] => return ([], b)
  | call :: calls => do
    let (answer, b) ← b.offer call.1 call.2
    let (answers, b) ← offerAll b calls
    return (answer :: answers, b)

/-- A builder refuses what is refused behind the entries it knows. -/
theorem Knows.refusal?_eq (h : b.Knows v es) (k : Bytes)
    (he : (valueBytes e).length < tombstoneMark) : b.refusal? k e = refusalBehind es k := by
  have hfits : ¬tombstoneMark ≤ (valueBytes e).length := Nat.not_le.mpr he
  have hmax := h.maxKey
  unfold refusal? refusalBehind
  cases hlast : es.getLast? with
  | none =>
      rw [hlast, Option.map_none, Option.map_eq_none_iff] at hmax
      rw [hmax]
      exact if_neg hfits
  | some last =>
      rw [hlast, Option.map_some] at hmax
      obtain ⟨⟨key, offset⟩, hhead, rfl⟩ := Option.map_eq_some_iff.mp hmax
      rw [hhead]
      simp only [Option.bind_some, if_neg hfits]

/-- A refused offer changes nothing. -/
theorem offer_refused {fault : TableFault} (h : b.refusal? k e = some fault) :
    b.offer k e v = .ok (some (.table fault), b) v := by
  have hadd : b.add k e v = .error (.table fault) v := by
    unfold add
    rw [h]
    rfl
  unfold offer
  rw [tryCatch_error (bind_error hadd _)]
  rfl

/-- After an offer the builder knows the accepted entries. -/
theorem offer_ok (h : b.Knows v es) (hs : es.Pairwise fun a b => a.1 < b.1) (k : Bytes)
    (he : (valueBytes e).length < tombstoneMark) :
    ∃ b' x, b.offer k e v
        = .ok ((refusalBehind es k).map Failure.table, b') (v.setContent b.out.file x) ∧
      b'.out.file = b.out.file ∧ b'.Knows (v.setContent b.out.file x) (accept es (k, e)) := by
  have hrefusal := h.refusal?_eq k he
  unfold accept
  cases hbehind : refusalBehind es k with
  | some fault =>
      rw [hbehind] at hrefusal
      refine ⟨b, v.content b.out.file, ?_, rfl, ?_⟩
      · rw [Volume.setContent_content]
        exact offer_refused hrefusal
      · rw [Volume.setContent_content, if_neg (Option.some_ne_none fault)]
        exact h
  | none =>
      obtain ⟨b', x, hadd, hfile, hb'⟩ := add_ok h ((refusalBehind_eq_none_iff hs).mp hbehind) he
      refine ⟨b', x, ?_, hfile, ?_⟩
      · have hdone : (do return (none, ← b.add k e) : Disk (Option Failure × Builder)) v
            = .ok (none, b') (v.setContent b.out.file x) := bind_ok hadd _
        exact tryCatch_ok hdone _
      · rw [if_pos rfl]
        exact hb'

/-- After a row of offers the builder knows the accepted entries. -/
theorem offerAll_ok (calls : List (Bytes × Entry)) (h : b.Knows v es)
    (hs : es.Pairwise fun a b => a.1 < b.1)
    (hvalues : ∀ c ∈ calls, (valueBytes c.2).length < tombstoneMark) :
    ∃ b' x, b.offerAll calls v = .ok (answersBehind es calls, b') (v.setContent b.out.file x) ∧
      b'.out.file = b.out.file ∧
      b'.Knows (v.setContent b.out.file x) (calls.foldl accept es) := by
  induction calls generalizing b v es with
  | nil =>
      refine ⟨b, v.content b.out.file, ?_, rfl, ?_⟩
      · rw [Volume.setContent_content]
        rfl
      · rw [Volume.setContent_content]
        exact h
  | cons call calls ih =>
      obtain ⟨b₁, x, hoffer, hfile, hb₁⟩ := offer_ok h hs call.1 (hvalues call List.mem_cons_self)
      obtain ⟨b₂, y, hrest, hfile₂, hb₂⟩ := ih hb₁ (sorted_accept hs call)
        fun c hc => hvalues c (List.mem_cons_of_mem _ hc)
      rw [hfile, Volume.setContent_setContent] at hrest hb₂
      refine ⟨b₂, y, ?_, by rw [hfile₂, hfile], hb₂⟩
      rw [offerAll, bind_ok hoffer]
      show (b₁.offerAll calls >>= _) _ = _
      rw [bind_ok hrest]
      rfl

end Builder

/-- Builds a table of what is accepted of the entries, offered one after the
other. Answers what was answered to each, and the report. -/
def build (p : Path) (calls : List (Bytes × Entry)) :
    Disk (List (Option Failure) × Report) := do
  let b ← Builder.start p
  let (answers, b) ← b.offerAll calls
  return (answers, ← b.finish)

variable {v : Volume} {p : Path}

/-- A table can be built wherever a file can be made. It is the image of the
accepted entries, and depends on nothing else that was offered. -/
theorem build_ok (hv : v.Sane) (hp : p ≠ []) (hparent : v.node? p.dropLast = some .directory)
    (hplain : v.node? p ≠ some .directory) :
    ∃ (file : Nat) (v₁ : Volume), v₁.Sane ∧ v₁.node? p = some (.file file) ∧
      ∀ calls, (∀ c ∈ calls, (valueBytes c.2).length < tombstoneMark) →
        build p calls v = .ok (answersBehind [] calls, Builder.reportOf (accepted calls))
          (v₁.setContent file (image (accepted calls))) := by
  obtain ⟨file, v₁, hcreate, hsane, hnode, hempty, -⟩ := Disk.create_ok hv hp hparent hplain
  refine ⟨file, v₁, hsane, hnode, fun calls hvalues => ?_⟩
  obtain ⟨b₀, x, hstart, hfile₀, hb₀⟩ :=
    Builder.start_ok hcreate (hsane.within p file hnode) hempty
  obtain ⟨b₁, y, hoffer, hfile₁, hb₁⟩ :=
    Builder.offerAll_ok calls hb₀ List.Pairwise.nil hvalues
  rw [hfile₀, Volume.setContent_setContent] at hoffer hb₁
  have hfinish := Builder.finish_ok hb₁
  rw [hfile₁, hfile₀, Volume.setContent_setContent] at hfinish
  unfold build
  rw [bind_ok hstart, bind_ok hoffer]
  show (b₁.finish >>= _) _ = _
  rw [bind_ok hfinish]
  rfl

-- ============================================================= what is read

/-- An open table answers for the entries: their count, their lowest and
highest key, and under each key what they have there; a search finds the
nearest of them. -/
structure ReadsAs (v : Volume) (t : Table) (es : List (Bytes × Entry)) : Prop where
  count : t.entryCount = es.length
  minKey : t.index.minKey? = es.head?.map Prod.fst
  maxKey : t.index.maxKey? = es.getLast?.map Prod.fst
  get : ∀ k, t.get v k = (es.lookup k).elim (.error .keyNotFound) .ok
  seek : ∀ b d, ∃ r, t.seek v b d = .ok r ∧ Nearest (fun k => es.lookup k) b d r

/-- A table whose file is the image of entries answers for them. -/
theorem readsAs_image {t : Table} (h : Storable es) (hindex : t.index = indexOf es h.sorted)
    (hcontent : v.content t.file = image es) : ReadsAs v t es := by
  obtain ⟨hreadable, hentry⟩ := holds_image h hindex hcontent
  have hkeys : t.index.entries.map Prod.fst = es.map Prod.fst := by
    rw [hindex]
    exact map_fst_offsetsFrom headerSize es
  refine ⟨?_, ?_, ?_, fun k => ?_, fun b d => ?_⟩
  · unfold entryCount
    rw [hindex, size_indexOf]
  · unfold KeyMap.minKey?
    rw [← List.head?_map, hkeys, List.head?_map]
  · unfold KeyMap.maxKey?
    rw [← List.getLast?_map, hkeys, List.getLast?_map]
  · rw [get_eq hreadable, hentry]
    cases es.lookup k <;> rfl
  · obtain ⟨r, hr, hnearest⟩ := seek_ok hreadable b d
    exact ⟨r, hr, hnearest.congr hentry⟩

/-- The image of entries is opened, and answers for them. -/
theorem opens_image {file : Nat} (h : Storable es) (hnode : v.node? p = some (.file file))
    (hcontent : v.content file = image es) :
    openAt p v = .ok ⟨p, file, indexOf es h.sorted⟩ v ∧
      ReadsAs v ⟨p, file, indexOf es h.sorted⟩ es := by
  refine ⟨?_, readsAs_image h rfl hcontent⟩
  rw [openAt_eq hnode, hcontent, parse_image h]

/-- A file that fits its own offsets is a table that can be stored. -/
theorem storable_accepted (hkeys : ∀ c ∈ calls, c.1.length < UInt32.size)
    (hvalues : ∀ c ∈ calls, (valueBytes c.2).length < tombstoneMark)
    (hsize : (image (accepted calls)).length < UInt64.size) : Storable (accepted calls) where
  sorted := sorted_accepted calls
  keys p hp := hkeys p (mem_of_mem_accepted hp)
  values p hp := hvalues p (mem_of_mem_accepted hp)
  extent := by
    rw [image_eq, List.length_append, List.length_append, length_header] at hsize
    omega

/-- The table of the entries, built at the path. Offers are refused by the
rule, and leave no trace: the accepted entries alone make the same volume
and the same report. The file is opened, as long as its size is a number of
eight digits, and answers for the accepted entries. -/
def RoundTrips (p : Path) (v : Volume) (calls : List (Bytes × Entry)) : Prop :=
  ∃ report v', build p calls v = .ok (answersBehind [] calls, report) v' ∧
    build p (accepted calls) v = .ok ((accepted calls).map fun _ => none, report) v' ∧
    report = Builder.reportOf (accepted calls) ∧
    (report.fileSize < UInt64.size → ∃ t, openAt p v' = .ok t v' ∧ ReadsAs v' t (accepted calls))

/-- Whatever is offered for a table, what is accepted is read from it. -/
theorem built_roundTrips (hv : v.Sane) (hp : p ≠ [])
    (hparent : v.node? p.dropLast = some .directory) (hplain : v.node? p ≠ some .directory)
    (hkeys : ∀ c ∈ calls, c.1.length < UInt32.size)
    (hvalues : ∀ c ∈ calls, (valueBytes c.2).length < tombstoneMark) : RoundTrips p v calls := by
  obtain ⟨file, v₁, hsane, hnode, hbuild⟩ := build_ok hv hp hparent hplain
  obtain ⟨hagain, hnone⟩ := accepted_accepted calls
  have hkept := hbuild (accepted calls) fun c hc => hvalues c (mem_of_mem_accepted hc)
  rw [hagain, hnone] at hkept
  refine ⟨_, _, hbuild calls hvalues, hkept, rfl, fun hsize => ?_⟩
  have hes : Storable (accepted calls) := storable_accepted hkeys hvalues hsize
  exact ⟨_, opens_image hes hnode (hsane.content_setContent_self hnode _)⟩

/-- Offers out of order, one twice, an empty key, an empty value, and a
tombstone. -/
def sampleCalls : List (Bytes × Entry) :=
  [([], .value []), ([5], .value [1]), ([3], .value [2]), ([5], .tombstone), ([7], .tombstone)]

/-- They make a table of three. -/
theorem built_roundTrips_sampleCalls :
    Volume.empty.Sane ∧ accepted sampleCalls
        = [([], .value []), ([5], .value [1]), ([7], .tombstone)] ∧
      RoundTrips ["t.sst"] Volume.empty sampleCalls :=
  ⟨Volume.sane_empty, by decide, built_roundTrips Volume.sane_empty (by decide) (by decide)
    (by decide) (by decide) (by decide)⟩

end Table

end OrderedStore
