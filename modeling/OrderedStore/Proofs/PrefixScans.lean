/-
Scans by the beginning of keys.

Whatever is read from, a view as it is or one with writes pending over it,
there is one value or none that is live under each key. A scan for a string
finds exactly the live pairs whose keys begin with it, each once, in the order
of the keys.

The keys that a view can hold something under are finitely many, so a view
that can be read reads as some map (`View.reads_live`), and of a map it is known
what a scan finds: keys that begin alike stand together, from the string on
(`ReadView.Reads.scan_eq`).
-/
import Mathlib
import OrderedStore.Proofs.Layers
import OrderedStore.Proofs.ResultWalks

namespace OrderedStore

/-- Values of which there are finitely many are the values of a map. -/
theorem KeyMap.exists_find?_eq {α : Type} {f : Bytes → Option α} {keys : List Bytes}
    (h : ∀ k, f k ≠ none → k ∈ keys) : ∃ m : KeyMap α, ∀ k, m.find? k = f k := by
  have hsome : ∃ m : KeyMap α, ∀ k, m.find? k = if k ∈ keys then f k else none := by
    clear h
    induction keys with
    | nil => exact ⟨KeyMap.empty, fun _ => rfl⟩
    | cons l keys ih =>
        obtain ⟨m, hm⟩ := ih
        cases hl : f l with
        | none =>
            refine ⟨m, fun k => ?_⟩
            rw [hm]
            by_cases hk : k = l
            · rw [hk, hl, ite_self, ite_self]
            · simp only [List.mem_cons, hk, false_or]
        | some a =>
            refine ⟨m.insert l a, fun k => ?_⟩
            rw [find?_insert, hm]
            by_cases hk : k = l
            · rw [if_pos hk, if_pos (List.mem_cons.mpr (Or.inl hk)), hk, hl]
            · simp only [List.mem_cons, hk, if_false, false_or]
  obtain ⟨m, hm⟩ := hsome
  refine ⟨m, fun k => ?_⟩
  rw [hm]
  by_cases hk : k ∈ keys
  · exact if_pos hk
  · rw [if_neg hk]
    exact (not_not.mp (mt (h k) hk)).symm

-- =================================================================== views

/-- A view whose tables can be read reads as the map of its live values. -/
theorem View.reads_live {mem : Memory} {w : View} (hw : w.Readable mem) :
    ∃ m : KeyMap Bytes, w.Reads mem m ∧ ∀ k, m.find? k = (w.entry mem k).bind Entry.value? := by
  obtain ⟨m, hm⟩ : ∃ m : KeyMap Bytes, ∀ k, m.find? k = (w.entry mem k).bind Entry.value? := by
    have hkeys (k : Bytes) (hk : (w.entry mem k).bind Entry.value? ≠ none) : k ∈ w.keys mem := by
      refine mem_keys fun hnone => hk ?_
      rw [hnone, Option.bind_none]
    exact KeyMap.exists_find?_eq hkeys
  exact ⟨m, reads_of_entry hw fun k => (hm k).symm, hm⟩

namespace ReadView

variable {mem : Memory} {r : ReadView} {m base : KeyMap Bytes}

/-- Values below, with what is pending over them: a key that is pending to be
deleted has none. -/
def overlaid (r : ReadView) (below : Bytes → Option Bytes) (k : Bytes) : Option Bytes :=
  match r.pending.find? k with
  | some e => e.value?
  | none => below k

/-- What is pending is carried out on a map as it lies over its values. -/
theorem find?_laid_pending (r : ReadView) (base : KeyMap Bytes) (k : Bytes) :
    (base.laid r.pending).find? k = r.overlaid base.find? k := by
  unfold overlaid
  cases hpending : r.pending.find? k with
  | some e =>
      rw [KeyMap.find?_laid, hpending]
      rfl
  | none => exact KeyMap.find?_laid_of_none hpending

/-- What is read from a view that can be read is a map, with the live values
that the layers of the view have and what is pending over them. -/
theorem reads_overlaid (hr : r.view.Readable mem) :
    ∃ m : KeyMap Bytes, r.Reads mem m ∧
      m.find? = r.overlaid fun k => (r.view.entry mem k).bind Entry.value? := by
  obtain ⟨base, hreads, hbase⟩ := View.reads_live hr
  refine ⟨base.laid r.pending, ⟨base, hreads, rfl⟩, funext fun k => ?_⟩
  rw [find?_laid_pending, funext hbase]

-- =================================================================== scans

/-- What is read has these live values: a key is answered with its own, and a
scan, which always ends well, finds the pairs whose keys begin with the string:
all of them and no others, in strictly ascending order of their keys. -/
structure ScansAs (mem : Memory) (r : ReadView) (live : Bytes → Option Bytes) : Prop where
  get : ∀ k, r.get mem k = .ok (live k)
  scan : ∀ lead, ∃ pairs, r.scan mem lead = .ok pairs ∧
    pairs.Pairwise (fun p q => p.1 < q.1) ∧
    ∀ k value, (k, value) ∈ pairs ↔ lead <+: k ∧ live k = some value

/-- What reads as a map has the values of the map. -/
theorem Reads.scansAs (h : r.Reads mem m) : r.ScansAs mem m.find? := by
  refine ⟨h.get, fun lead => ⟨_, h.scan_eq lead, m.sorted.filter _, fun k value => ?_⟩⟩
  rw [List.mem_filter, List.isPrefixOf_iff_prefix, KeyMap.mem_entries, and_comm]

end ReadView

-- ==================================================================== runs

namespace Store

open Engine

/-- Scans find what is live. Whatever view is read, as it is or with writes pending
over it: if its tables can be read, a scan finds the pairs that are live in its
layers under what is pending. And the views that are taken in a run of a store can be
read: at every later moment, whatever was asked of the store in between, a scan
finds the pairs that were written last when the view was taken, under what is
pending. -/
theorem scans_live :
    (∀ (mem : Memory) (r : ReadView), r.view.Readable mem →
      r.ScansAs mem (r.overlaid fun k => (r.view.entry mem k).bind Entry.value?)) ∧
    ∀ {dir : Path} {v v' : Volume} {settings : Settings} {clock : UInt64} {e : Engine},
      Vacant v dir → openAt settings dir clock v = .ok e v' →
      ∀ earlier before later : List Request,
        (∀ op ∈ (opened v' e).trace dir earlier, op.Fits) →
        (∀ q ∈ before, q.reopens = false) → (∀ q ∈ later, q.reopens = false) →
        Operation.logged ((opened v' e).trace dir (earlier ++ before ++ later)) < UInt64.size →
        ∀ r : ReadView, r.view = ((opened v' e).after dir (earlier ++ before)).engine.view →
          ∀ mem, ((opened v' e).after dir (earlier ++ before)).Meanwhile dir later mem →
            r.ScansAs mem
              (r.overlaid (valueAfter ((opened v' e).trace dir (earlier ++ before)))) := by
  refine ⟨fun mem r hr => ?_, fun hv hopen earlier before later hfits hbefore hlater htotal r hr
    mem hmem => ?_⟩
  · obtain ⟨m, hreads, hm⟩ := ReadView.reads_overlaid hr
    rw [← hm]
    exact hreads.scansAs
  · have hreads := (readsAt_meanwhile hv hopen earlier before later hfits hbefore hlater htotal
      hr).reads hmem
    have hlive := hreads.scansAs
    rw [funext (r.find?_laid_pending _), funext (find?_contents _)] at hlive
    exact hlive

/-- A key of the sample view is pending to be deleted, and keys are pending to be
written below and above all that begin with two high bytes. -/
def samplePending : Pending :=
  KeyMap.ofList [([8], .tombstone), ([255, 254], .value [1]), ([255, 255], .value [2]),
    ([255, 255, 0], .value [3])]

/-- Over the sample view, whose last live key is not live any more then; and in a
view that was taken after the sample run, when one of its keys has been deleted
since. -/
theorem scans_live_sampleRun :
    View.sampleView.Readable View.sampleMemory ∧
      (let r := ReadView.overlay samplePending View.sampleView
       let live := r.overlaid fun k => (View.sampleView.entry View.sampleMemory k).bind Entry.value?
       r.ScansAs View.sampleMemory live ∧
        [[], [8], [9], [255, 254], [255, 255], [255, 255, 0]].map live
          = [some [9], none, none, some [1], some [2], some [3]]) ∧
      ∃ e v', openAt Settings.standard ["db"] 0 Volume.empty = .ok e v' ∧
        let s := (opened v' e).after ["db"] (sampleRun ++ [.put [1, 0] [5]])
        let r := ReadView.pinned s.engine.view
        r.ScansAs (s.after ["db"] [.delete [1], .flush]).toMemory
          (r.overlaid (valueAfter ([.put [1] [2],
            .batch [.delete [1], .batch [.put [1] [3], .put [2] [4]]], .delete [2],
            .put [1, 0] [5]]))) := by
  obtain ⟨hany, hruns⟩ := scans_live
  have hreadable : View.sampleView.Readable View.sampleMemory :=
    Tables.readable_of_holds Tables.holds_sampleTables.2
  obtain ⟨e, v', ids, hopen, -⟩ := (vacant_empty ["db"]).openAt_ok Settings.standard 0
  have htotal : Operation.logged ((opened v' e).trace ["db"]
      (sampleRun ++ [.put [1, 0] [5]] ++ [.delete [1], .flush])) < UInt64.size := by
    rw [trace_append, trace_append, trace_sampleRun]
    show Operation.logged (_ ++ [.put [1, 0] [5]] ++ [.delete [1]]) < _
    decide
  have hscans := hruns (vacant_empty ["db"]) hopen sampleRun [.put [1, 0] [5]]
    [.delete [1], .flush] (by rw [trace_sampleRun]; decide) (by decide) (by decide) htotal
  rw [trace_append, trace_sampleRun] at hscans
  -- without a name for the store it would be run to see that it is the same
  set s := (opened v' e).after ["db"] (sampleRun ++ [.put [1, 0] [5]])
  have hthen : s.Meanwhile ["db"] [.delete [1], .flush]
      (s.after ["db"] [.delete [1], .flush]).toMemory := ⟨_, List.prefix_refl _, rfl⟩
  exact ⟨hreadable, ⟨hany _ (.overlay samplePending View.sampleView) hreadable, by decide +kernel⟩,
    e, v', hopen, hscans (.pinned s.engine.view) rfl _ hthen⟩

end Store

end OrderedStore
