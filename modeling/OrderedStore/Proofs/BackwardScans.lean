/-
Scans backward.

A scan backward finds what a scan finds, the last pair first, until it has as
many as were asked for. The two go about it differently. A scan sets out at the
string and ends behind the first key that does not begin with it; a scan
backward has to know first where those keys end. They end below the successor of
the string (`Bytes.prefix_iff_between`), and a string without one consists of
highest bytes, which no key is above that does not begin with it
(`Bytes.prefix_iff_le`).

The successor can be a key itself and is then met first. The loop passes over it,
and it would pass over any number of keys above the string: what it takes are the
pairs ahead whose keys begin with the string, wherever it sets out
(`ReadView.At.takeBackward_eq`). So the successor decides only whether all of
them are ahead (`Bytes.admits_topBound`).

The command line opens a store, lists either way, and closes the store again,
which finds nothing to be flushed (`CommandLine.close_opened`).
-/
import Mathlib
import OrderedStore.Backward
import OrderedStore.CommandLine.Run
import OrderedStore.Proofs.Crash
import OrderedStore.Proofs.PrefixScans
import OrderedStore.Proofs.Recounts

namespace OrderedStore

-- ============================================================== successors

namespace Bytes

variable {lead up : Bytes}

/-- A byte that cannot be raised is the highest. -/
theorem not_lt_high_iff {b : UInt8} : ¬b < 0xFF ↔ b = 0xFF := by
  have hbound : b.toNat < 256 := b.toNat_lt
  have hhigh : (0xFF : UInt8).toNat = 255 := rfl
  rw [UInt8.lt_iff_toNat_lt, ← UInt8.toNat_inj]
  omega

/-- Below a raised byte is what is not above the byte. -/
theorem lt_raised_iff {b c : UInt8} (hb : b < 0xFF) : c < b + 1 ↔ ¬b < c := by
  have hbound : b.toNat < 255 := UInt8.lt_iff_toNat_lt.mp hb
  have hraised : (b + 1).toNat = b.toNat + 1 := by
    rw [UInt8.toNat_add]
    exact Nat.mod_eq_of_lt (Nat.succ_lt_succ hbound)
  rw [UInt8.lt_iff_toNat_lt, UInt8.lt_iff_toNat_lt, hraised]
  omega

/-- A string has no successor only if none of its bytes can be raised. -/
theorem successor?_eq_none_iff : successor? lead = none ↔ ∀ b ∈ lead, b = 0xFF := by
  induction lead with
  | nil => exact ⟨fun _ => List.forall_mem_nil _, fun _ => rfl⟩
  | cons b lead ih =>
      rw [List.forall_mem_cons, ← ih, ← not_lt_high_iff, successor?]
      cases successor? lead with
      | some up => simp
      | none => by_cases hb : b < 0xFF <;> simp [hb]

/-- Then every key that is not below it begins with it. -/
theorem prefix_iff_le (h : ∀ b ∈ lead, b = 0xFF) (k : Bytes) : lead <+: k ↔ lead ≤ k := by
  constructor
  · exact le_of_prefix
  · intro hle
    induction lead generalizing k with
    | nil => exact List.nil_prefix
    | cons b lead ih =>
        obtain ⟨hb, hlead⟩ := List.forall_mem_cons.mp h
        cases k with
        | nil => exact absurd (List.nil_lt_cons b lead) (List.not_lt.mpr hle)
        | cons c k =>
            rcases List.cons_le_cons_iff.mp hle with hbc | ⟨rfl, hrest⟩
            · rw [hb, UInt8.lt_iff_toNat_lt] at hbc
              exact absurd hbc (Nat.not_lt.mpr (Nat.le_of_lt_succ c.toNat_lt))
            · exact (List.prefix_cons_inj b).mpr (ih hlead k hrest)

/-- A byte in front of a string stays in front of the string's end. -/
theorem cons_prefix_iff_between (h : ∀ k, lead <+: k ↔ lead ≤ k ∧ k < up) (b : UInt8)
    (k : Bytes) : b :: lead <+: k ↔ b :: lead ≤ k ∧ k < b :: up := by
  cases k with
  | nil => simp
  | cons c k =>
      rw [List.cons_prefix_cons, List.cons_le_cons_iff, List.cons_lt_cons_iff, h]
      constructor
      · rintro ⟨rfl, hlow, hhigh⟩
        exact ⟨Or.inr ⟨rfl, hlow⟩, Or.inr ⟨rfl, hhigh⟩⟩
      · rintro ⟨hbc | ⟨rfl, hlow⟩, hcb | ⟨heq, hhigh⟩⟩
        · exact absurd (UInt8.lt_trans hbc hcb) (UInt8.lt_irrefl b)
        · exact absurd (heq ▸ hbc) (UInt8.lt_irrefl c)
        · exact absurd hcb (UInt8.lt_irrefl b)
        · exact ⟨rfl, hlow, hhigh⟩

/-- In front of a string that no key is above it is raised. -/
theorem cons_prefix_iff_raised (h : ∀ k, lead <+: k ↔ lead ≤ k) {b : UInt8} (hb : b < 0xFF)
    (k : Bytes) : b :: lead <+: k ↔ b :: lead ≤ k ∧ k < [b + 1] := by
  cases k with
  | nil => simp
  | cons c k =>
      rw [List.cons_prefix_cons, List.cons_le_cons_iff, List.cons_lt_cons_iff, lt_raised_iff hb, h]
      constructor
      · rintro ⟨rfl, hlow⟩
        exact ⟨Or.inr ⟨rfl, hlow⟩, Or.inl (UInt8.lt_irrefl b)⟩
      · rintro ⟨hbc | hlow, hcb | ⟨-, hhigh⟩⟩
        · exact absurd hbc hcb
        · exact absurd hhigh (List.not_lt_nil k)
        · exact hlow
        · exact hlow

/-- The keys that begin with a string are those from the string on that are below
its successor. -/
theorem prefix_iff_between (h : successor? lead = some up) (k : Bytes) :
    lead <+: k ↔ lead ≤ k ∧ k < up := by
  induction lead generalizing up k with
  | nil => cases h
  | cons b lead ih =>
      rw [successor?] at h
      cases hrest : successor? lead with
      | some rest =>
          rw [hrest] at h
          cases h
          exact cons_prefix_iff_between (ih hrest) b k
      | none =>
          rw [hrest] at h
          by_cases hb : b < 0xFF
          · rw [if_pos hb] at h
            cases h
            exact cons_prefix_iff_raised (prefix_iff_le (successor?_eq_none_iff.mp hrest)) hb k
          · rw [if_neg hb] at h
            cases h

/-- Where a scan backward sets out: at the successor of the string, or where all
keys end. -/
def topBound (lead : Bytes) : Bound :=
  match successor? lead with
  | some up => .included up
  | none => .unbounded

/-- All keys that begin with the string are ahead from there. -/
theorem admits_topBound {k : Bytes} (hk : lead <+: k) :
    (topBound lead).admits .reverse k = true := by
  unfold topBound
  cases hup : successor? lead with
  | none => rfl
  | some up => exact decide_eq_true (List.le_of_lt ((prefix_iff_between hup k).mp hk).2)

end Bytes

-- ============================================================== live pairs

/-- The pairs are those that are live under the keys that begin with the string,
in strictly ascending order of their keys. -/
structure LiveUnder (live : Bytes → Option Bytes) (lead : Bytes) (pairs : List (Bytes × Bytes)) :
    Prop where
  ascending : pairs.Pairwise fun p q => p.1 < q.1
  mem_iff : ∀ k value, (k, value) ∈ pairs ↔ lead <+: k ∧ live k = some value

/-- The pairs of a map whose keys begin with the string are the live ones if the map
holds what is live. -/
theorem KeyMap.liveUnder (m : KeyMap Bytes) (lead : Bytes) :
    LiveUnder m.find? lead (m.beginning lead) :=
  ⟨m.sorted.filter _, fun _ _ => mem_beginning.trans and_comm⟩

/-- There is one such row of pairs. -/
theorem LiveUnder.unique {live : Bytes → Option Bytes} {lead : Bytes}
    {pairs pairs' : List (Bytes × Bytes)} (h : LiveUnder live lead pairs)
    (h' : LiveUnder live lead pairs') : pairs = pairs' :=
  eq_of_mem_iff (fun _ _ hab hba => List.lt_asymm hab hba) h.ascending h'.ascending
    fun ⟨k, value⟩ => (h.mem_iff k value).trans (h'.mem_iff k value).symm

-- =================================================================== scans

namespace ReadView

variable {mem : Memory} {r : ReadView} {m : KeyMap Bytes} {c : Cursor} {b : Bound}

/-- Once a key is met that is below the string, no key ahead begins with it. -/
theorem filter_beyond_below (m : KeyMap Bytes) {lead k : Bytes} (hk : k < lead) :
    (m.beyond (.excluded k) .reverse).filter (fun q => lead.isPrefixOf q.1) = [] := by
  refine List.filter_eq_nil_iff.mpr fun p hp hpre => ?_
  have hbehind : p.1 < k := of_decide_eq_true (KeyMap.mem_beyond.mp hp).2
  have hle : lead ≤ p.1 := Bytes.le_of_prefix (List.isPrefixOf_iff_prefix.mp hpre)
  exact List.not_lt.mpr hle (List.lt_trans hbehind hk)

/-- What a scan backward takes from a cursor on are the pairs ahead whose keys
begin with the string, and no more of them than are asked for. -/
theorem At.takeBackward_eq (h : At mem m r c b) (hd : c.direction = .reverse) (lead : Bytes)
    {fuel : Nat} (hfuel : (m.beyond b .reverse).length < fuel) (limit : Nat) :
    r.takeBackward mem lead fuel limit c
      = .ok (((m.beyond b .reverse).filter fun q => lead.isPrefixOf q.1).take limit) := by
  induction fuel generalizing c b limit with
  | zero => omega
  | succ fuel ih =>
      cases limit with
      | zero => rfl
      | succ limit =>
          have hcurrent := h.current
          rw [hd] at hcurrent
          rw [takeBackward]
          match hc : c.current with
          | none =>
              rw [hc] at hcurrent
              rw [KeyMap.beyond_eq_nil hcurrent.symm]
              rfl
          | some q =>
              rw [hc] at hcurrent
              have hbeyond := KeyMap.beyond_eq_cons hcurrent.symm
              obtain ⟨c', hnext, hat, hd'⟩ := h.next_ok hc
              rw [hbeyond, List.length_cons] at hfuel
              have hrest := ih hat (hd'.trans hd) (Nat.lt_of_succ_lt_succ hfuel)
              rw [hbeyond, List.filter_cons]
              by_cases hpre : lead.isPrefixOf q.1 = true
              · simp only [hpre, if_true, hnext, hrest, List.take_succ_cons]
              · by_cases hlow : q.1 < lead
                · simp only [hpre, hlow, if_true, filter_beyond_below m hlow]
                  rfl
                · simp only [hpre, hlow, if_false, hnext, hrest]
                  rfl

/-- The cursor that a scan backward sets out with. -/
def topCursor (mem : Memory) (r : ReadView) (lead : Bytes) : Except Failure Cursor := do
  let c ← r.cursor mem .reverse
  match lead.successor? with
  | some up => r.seek mem up c
  | none => pure c

/-- A scan backward takes its pairs from there. -/
theorem scanBackward_eq_bind (mem : Memory) (r : ReadView) (lead : Bytes) (limit : Nat) :
    r.scanBackward mem lead limit
      = r.topCursor mem lead >>= r.takeBackward mem lead (r.extent mem + 1) limit := by
  unfold scanBackward topCursor
  cases r.cursor mem .reverse with
  | error f => rfl
  | ok c => cases lead.successor? <;> rfl

/-- It is at the bound where a scan backward sets out. -/
theorem Reads.topCursor_ok (h : r.Reads mem m) (lead : Bytes) :
    ∃ c, r.topCursor mem lead = .ok c ∧ At mem m r c lead.topBound ∧ c.direction = .reverse := by
  obtain ⟨c, hcursor, hat, hd⟩ := h.cursor_ok .reverse
  unfold topCursor Bytes.topBound
  rw [hcursor, ok_bind]
  cases lead.successor? with
  | none => exact ⟨c, rfl, hat, hd⟩
  | some up =>
      obtain ⟨c', hseek, hat', hd'⟩ := hat.seek_ok up
      exact ⟨c', hseek, hat', hd'.trans hd⟩

/-- From there on the pairs whose keys begin with the string are met last pair
first, and none is missed. -/
theorem filter_beyond_topBound (m : KeyMap Bytes) (lead : Bytes) :
    (m.beyond lead.topBound .reverse).filter (fun q => lead.isPrefixOf q.1)
      = (m.beginning lead).reverse := by
  unfold KeyMap.beyond Direction.arrange KeyMap.beginning
  rw [List.filter_filter, List.filter_reverse]
  refine congrArg List.reverse (List.filter_congr fun q _ => ?_)
  cases hpre : lead.isPrefixOf q.1 with
  | false => rfl
  | true => exact Bytes.admits_topBound (List.isPrefixOf_iff_prefix.mp hpre)

/-- A scan finds the pairs, and a scan backward finds the last of them, as many as
are asked for, last pair first. It comes to its end by itself: with any more fuel
it finds the same. -/
structure ScansBothWays (mem : Memory) (r : ReadView) (lead : Bytes)
    (pairs : List (Bytes × Bytes)) : Prop where
  scan : r.scan mem lead = .ok pairs
  backward : ∀ limit, r.scanBackward mem lead limit = .ok (pairs.reverse.take limit)
  ends : ∃ c, r.topCursor mem lead = .ok c ∧ ∀ fuel, r.extent mem < fuel → ∀ limit,
    r.takeBackward mem lead fuel limit c = .ok (pairs.reverse.take limit)

/-- What reads as a map is scanned both ways. -/
theorem Reads.scansBothWays (h : r.Reads mem m) (lead : Bytes) :
    r.ScansBothWays mem lead (m.beginning lead) := by
  obtain ⟨c, hcursor, hat, hd⟩ := h.topCursor_ok lead
  have hends (fuel : Nat) (hfuel : r.extent mem < fuel) (limit : Nat) :
      r.takeBackward mem lead fuel limit c = .ok ((m.beginning lead).reverse.take limit) := by
    have hahead : (m.beyond lead.topBound .reverse).length < fuel :=
      lt_of_lt_of_le (h.length_beyond_lt _ _) hfuel
    rw [hat.takeBackward_eq hd lead hahead, filter_beyond_topBound]
  refine ⟨h.scan_eq lead, fun limit => ?_, c, hcursor, hends⟩
  rw [scanBackward_eq_bind, hcursor]
  exact hends _ (Nat.lt_succ_self _) limit

end ReadView

-- ============================================================ command lines

namespace CommandLine

open Engine Store

variable {directory lead : String} {clock : UInt64} {v v' : Volume} {e : Engine}
  {pairs : List (Bytes × Bytes)}

/-- A store that was just opened is closed as it is. -/
theorem close_opened (v : Volume) (e : Engine) :
    Database.close (opened v e) = .ok () (opened v e) := by
  have hempty : (opened v e).current.isEmpty = true := by
    show ((Memory.fresh v).memtable e.memtable).isEmpty = true
    unfold Memory.fresh Memory.memtable
    cases e.memtable <;> rfl
  exact orFatal_ok (flush_idle hempty)

/-- The pairs of a store are put into lines from the first one on or from the
last. -/
theorem perform_scan {s : Store}
    (h : (ReadView.pinned s.engine.view).ScansBothWays s.toMemory (Text.toBytes lead) pairs)
    (directory index : String) (reverse : Bool) (limit : Nat) :
    perform ⟨directory, index, .scan lead reverse limit⟩ s
      = .ok (.ok (((if reverse then pairs.reverse else pairs).take limit).map pairLine)) s := by
  have hview : Database.readView s = .ok (.pinned s.engine.view) s := rfl
  have hread : Database.reading (fun mem =>
      if reverse then (ReadView.pinned s.engine.view).scanBackward mem (Text.toBytes lead) limit
      else ((ReadView.pinned s.engine.view).scan mem (Text.toBytes lead)).map
        fun pairs => pairs.take limit) s
      = .ok ((if reverse then pairs.reverse else pairs).take limit) s := by
    rw [Database.reading_eq]
    cases reverse with
    | false =>
        simp only [Bool.false_eq_true, if_false, h.scan]
        rfl
    | true =>
        simp only [if_true, h.backward]
        rfl
  unfold perform
  show (Database.readView >>= _) s = _
  rw [bind_ok hview, bind_ok hread]
  rfl

/-- The command line prints the pairs: of those it is asked for the first ones, or
in reverse the last ones, last pair first. It does no more to the volume than
opening the store does. -/
def PrintsBothWays (directory : String) (clock : UInt64) (v v' : Volume) (lead : String)
    (pairs : List (Bytes × Bytes)) : Prop :=
  ∀ (index : String) (limit : Nat),
    invoke ⟨directory, index, .scan lead false limit⟩ clock v
      = (⟨some 0, unlines ((pairs.take limit).map pairLine)⟩, v') ∧
    invoke ⟨directory, index, .scan lead true limit⟩ clock v
      = (⟨some 0, unlines ((pairs.reverse.take limit).map pairLine)⟩, v')

/-- What is scanned both ways in a store that was opened is printed both ways. -/
theorem printsBothWays
    (hopen : openAt { Settings.standard with directory := directory } (pathOf directory) clock v
      = .ok e v')
    (h : (ReadView.pinned e.view).ScansBothWays (Memory.fresh v') (Text.toBytes lead) pairs) :
    PrintsBothWays directory clock v v' lead pairs := by
  have hinvoke (index : String) (reverse : Bool) (limit : Nat) :
      invoke ⟨directory, index, .scan lead reverse limit⟩ clock v
        = (⟨some 0, unlines (((if reverse then pairs.reverse else pairs).take limit).map
            pairLine)⟩, v') := by
    have hperform : perform ⟨directory, index, .scan lead reverse limit⟩ (opened v' e) = _ :=
      perform_scan h directory index reverse limit
    generalize ((if reverse then pairs.reverse else pairs).take limit).map pairLine = lines
      at hperform
    have hclose : performAndClose ⟨directory, index, .scan lead reverse limit⟩ (opened v' e)
        = .ok (.ok lines) (opened v' e) := by
      unfold performAndClose
      rw [bind_ok hperform]
      exact bind_ok (close_opened v' e) _
    unfold invoke
    simp only [hopen, hclose]
    rfl
  exact fun index limit => ⟨hinvoke index false limit, hinvoke index true limit⟩

/-- A scan backward lists what a scan lists, last pair first. The keys that begin
with a string are those between it and its successor, and a string without a
successor has none but highest bytes, or no bytes. So whatever view is read whose
tables can be read, a scan finds the live pairs whose keys begin with the string,
and a scan backward, asked for any number of them, the first ones of that list
reversed. The command line prints both lists of whatever volume it can open and
read; and it opens and reads every volume that the history of a store leaves, and
prints the pairs that were written last. -/
theorem scans_reversed :
    (∀ lead : Bytes,
      (∀ up, lead.successor? = some up → ∀ k, lead <+: k ↔ lead ≤ k ∧ k < up) ∧
      (lead.successor? = none ↔ ∀ b ∈ lead, b = 0xFF)) ∧
    (∀ (mem : Memory) (r : ReadView), r.view.Readable mem → ∀ lead, ∃ pairs,
      LiveUnder (r.overlaid fun k => (r.view.entry mem k).bind Entry.value?) lead pairs ∧
      r.ScansBothWays mem lead pairs) ∧
    (∀ {directory : String} {clock : UInt64} {v v' : Volume} {e : Engine},
      openAt { Settings.standard with directory := directory } (pathOf directory) clock v
        = .ok e v' → e.view.Readable (Memory.fresh v') →
      ∀ lead, ∃ pairs,
        (ReadView.pinned e.view).scan (Memory.fresh v') (Text.toBytes lead) = .ok pairs ∧
        PrintsBothWays directory clock v v' lead pairs) ∧
    ∀ {directory : String} {n : Nat} {v : Volume} {ops : List Operation},
      History (pathOf directory) n v ops → (∀ op ∈ ops, op.Fits) →
      Operation.logged ops < UInt64.size → ops.length + 1 + n < UInt64.size →
      ∀ clock, ∃ v', ∀ lead, ∃ pairs,
        LiveUnder (valueAfter ops) (Text.toBytes lead) pairs ∧
        PrintsBothWays directory clock v v' lead pairs := by
  refine ⟨fun lead => ⟨fun up hup => Bytes.prefix_iff_between hup,
    Bytes.successor?_eq_none_iff⟩, fun mem r hr lead => ?_, fun hopen hreadable lead => ?_,
    @fun directory n v ops h hfits htotal hroom clock => ?_⟩
  · obtain ⟨m, hreads, hm⟩ := ReadView.reads_overlaid hr
    rw [← hm]
    exact ⟨_, m.liveUnder lead, hreads.scansBothWays lead⟩
  · obtain ⟨m, hreads, -⟩ := View.reads_live hreadable
    have hscans := (ReadView.reads_pinned hreads).scansBothWays (Text.toBytes lead)
    exact ⟨_, hscans.scan, printsBothWays hopen hscans⟩
  · obtain ⟨e, v', ids, hopen, hsound⟩ := h.openAt_ok hfits htotal hroom _ clock
    refine ⟨v', fun lead => ⟨_, ?_, printsBothWays hopen
      ((ReadView.reads_pinned hsound.reads).scansBothWays (Text.toBytes lead))⟩⟩
    have hlive := (contents ops).liveUnder (Text.toBytes lead)
    rw [funext (find?_contents ops)] at hlive
    exact hlive

/-- A run that leaves two keys that begin with one byte, and above them a key that is
this byte raised. -/
def stepRun : List OrderedStore.Request :=
  [.put [97] [49], .put [98] [51], .put [96, 255] [48], .flush, .put [97, 98] [50]]

/-- What it logs. -/
def stepOperations : List Operation :=
  [.put [97] [49], .put [98] [51], .put [96, 255] [48], .put [97, 98] [50]]

/-- Of the two keys the last one is printed, although the scan comes upon the key
above them first. Where two highest bytes begin the keys there is nothing above. -/
theorem scans_reversed_stepRun :
    (∀ k, [97] <+: k ↔ [97] ≤ k ∧ k < ([98] : Bytes)) ∧
    (View.sampleView.Readable View.sampleMemory ∧
      (ReadView.overlay samplePending View.sampleView).ScansBothWays View.sampleMemory
        [255, 255] [([255, 255], [2]), ([255, 255, 0], [3])]) ∧
    ∃ v e v', History (pathOf "db") 0 v stepOperations ∧
      openAt { Settings.standard with directory := "db" } (pathOf "db") 0 v = .ok e v' ∧
      e.view.Readable (Memory.fresh v') ∧
      (∃ pairs, (ReadView.pinned e.view).scan (Memory.fresh v') (Text.toBytes "a") = .ok pairs ∧
        PrintsBothWays "db" 0 v v' "a" pairs) ∧
      ∃ v'', invoke ⟨"db", "default", .scan "a" true 1⟩ 0 v = (⟨some 0, "ab\t2\n"⟩, v'') := by
  obtain ⟨hkeys, hviews, hopened, hhistories⟩ := scans_reversed
  -- a view, with writes pending over it
  have hreadable : View.sampleView.Readable View.sampleMemory :=
    Tables.readable_of_holds Tables.holds_sampleTables.2
  obtain ⟨pairs, -, hscans⟩ :=
    hviews _ (.overlay samplePending View.sampleView) hreadable [255, 255]
  have hscan : (ReadView.overlay samplePending View.sampleView).scan View.sampleMemory [255, 255]
      = .ok [([255, 255], [2]), ([255, 255, 0], [3])] := by decide +kernel
  obtain rfl := Except.ok.inj (hscans.scan.symm.trans hscan)
  -- the volume that the run leaves
  obtain ⟨e₀, v₀, -, hopen₀, -⟩ := (vacant_empty (pathOf "db")).openAt_ok Settings.standard 0
  have h : History (pathOf "db") 0 ((opened v₀ e₀).after (pathOf "db") stepRun).volume
      stepOperations := (History.new (vacant_empty _)).session hopen₀ stepRun Crash.rest
  generalize ((opened v₀ e₀).after (pathOf "db") stepRun).volume = v at h
  obtain ⟨e, v', ids, hopen, hsound⟩ := h.openAt_ok (by decide) (by decide) (by decide)
    { Settings.standard with directory := "db" } 0
  -- what is printed of it
  obtain ⟨v'', hprinted⟩ := hhistories h (by decide) (by decide) (by decide) 0
  obtain ⟨printed, hlive, hprints⟩ := hprinted "a"
  have hprinted : printed = [([97], [49]), ([97, 98], [50])] := by
    have hunder := (contents stepOperations).liveUnder (Text.toBytes "a")
    rw [funext (find?_contents _)] at hunder
    exact (hlive.unique hunder).trans (by decide)
  refine ⟨(hkeys [97]).1 [98] rfl, ⟨hreadable, hscans⟩, v, e, v', h, hopen, hsound.readable,
    hopened hopen hsound.readable "a", v'', ?_⟩
  have hline : unlines (([([97], [49]), ([97, 98], [50])].reverse.take 1).map pairLine)
      = "ab\t2\n" := by decide
  rw [(hprints "default" 1).2, hprinted, hline]

end CommandLine

end OrderedStore
