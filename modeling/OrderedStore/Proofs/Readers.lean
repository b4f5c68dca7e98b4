/-
What readers of a store are told.

A store that was opened in a vacant directory is an ordered map, whatever
was asked of it since: a key leads to the value last written under it, and
a search finds the nearest key that leads to a value. Where the flushes
fell, and how often the store was opened again, does not show.

A view goes on telling what it told when it was taken. The memtable it
pins is written to until the next flush, and the tables below it are
added to; it sees neither.
-/
import Mathlib
import OrderedStore.Proofs.Runs

namespace OrderedStore.Store

open Engine

variable {dir : Path} {v v' : Volume} {settings : Settings} {clock : UInt64} {e : Engine}

/-- The value that the operations leave under the key. -/
def valueAfter (ops : List Operation) (k : Bytes) : Option Bytes :=
  (lastWrite (Operation.writesOfAll ops) k).bind Entry.value?

/-- Operations that take fewer bytes than eight digits count are fewer by
far, which leaves numbers for the tables. -/
theorem room_of_logged {ops : List Operation} (h : Operation.logged ops < UInt64.size) :
    ops.length + 1 < UInt64.size := by
  rw [Operation.logged_eq] at h
  have hsize : UInt64.size = 2 ^ 64 := rfl
  omega

/-- Getting a key tells what the view of the moment tells. -/
theorem get_eq {s : Store} {k : Bytes} {found : Option Bytes}
    (h : s.engine.view.get s.toMemory k = .ok found) : Store.get k s = .ok found s := by
  unfold Store.get
  rw [bind_get]
  simp only [h]
  rfl

/-- What a view tells that reads as what the operations leave. -/
theorem nearest_of_reads {mem : Memory} {w : View} {ops : List Operation}
    (h : w.Reads mem (contents ops)) (b : Bound) (d : Direction) :
    ∃ found, w.seek mem b d = .ok found ∧ Nearest (valueAfter ops) b d found := by
  refine ⟨(contents ops).seek b d, h.seek b d, ?_⟩
  exact (KeyMap.nearest_seek (contents ops) b d).congr (find?_contents ops)

/-- The store answers as the map that the operations leave: getting a key
tells the value last written under it, a search finds the nearest key at or
beyond the bound that leads to a value, and `n` searches, each from behind
the last, find the first `n` pairs of the map in the order of the way. -/
structure AnswersAs (s : Store) (ops : List Operation) : Prop where
  get : ∀ k, Store.get k s = .ok (valueAfter ops k) s
  seek : ∀ b d, ∃ found, s.engine.view.seek s.toMemory b d = .ok found ∧
    Nearest (valueAfter ops) b d found
  walk : ∀ n b d, s.engine.view.walk s.toMemory d n b
    = .ok (((contents ops).beyond b d).take n)

/-- A sound store answers as its operations have it. -/
theorem Sound.answersAs {spare : Nat} {s : Store} {ops : List Operation} {ids : List UInt64}
    (h : s.Sound dir spare ops ids) : s.AnswersAs ops := by
  refine ⟨fun k => get_eq ?_, nearest_of_reads h.reads, fun n b d => h.reads.walk_eq d n b⟩
  rw [h.reads.get, find?_contents]
  rfl

/-- A store is an ordered map. It opens in a vacant directory; then, after
every run whose operations are of a size that is read back, every request
was answered, and the store answers as the operations have it that were
logged. -/
theorem ordered_map (hv : Vacant v dir) (settings : Settings) (clock : UInt64) :
    ∃ e v', openAt settings dir clock v = .ok e v' ∧
      ∀ reqs : List Request,
        (∀ op ∈ (opened v' e).trace dir reqs, op.Fits) →
        Operation.logged ((opened v' e).trace dir reqs) < UInt64.size →
        (opened v' e).AllAnswered dir reqs ∧
          ((opened v' e).after dir reqs).AnswersAs ((opened v' e).trace dir reqs) := by
  obtain ⟨e, v', ids, hopen, hsound⟩ := hv.openAt_ok settings clock
  refine ⟨e, v', hopen, fun reqs hfits htotal => ?_⟩
  obtain ⟨hanswered, ⟨ids', hsound'⟩, -⟩ :=
    hsound.after reqs (fun _ => hfits) htotal (room_of_logged htotal)
  exact ⟨hanswered, hsound'.answersAs⟩

/-- The sample run leaves one of its keys with the value of the inner
batch, and the other with none. -/
theorem ordered_map_sampleRun :
    ∃ e v', openAt Settings.standard ["db"] 0 Volume.empty = .ok e v' ∧
      Store.get [1] ((opened v' e).after ["db"] sampleRun)
        = .ok (some [3]) ((opened v' e).after ["db"] sampleRun) ∧
      Store.get [2] ((opened v' e).after ["db"] sampleRun)
        = .ok none ((opened v' e).after ["db"] sampleRun) := by
  obtain ⟨e, v', hopen, hruns⟩ := ordered_map (vacant_empty ["db"]) Settings.standard 0
  obtain ⟨-, hanswers⟩ := hruns sampleRun (by rw [trace_sampleRun]; decide)
    (by rw [trace_sampleRun]; decide)
  exact ⟨e, v', hopen, hanswers.get [1], hanswers.get [2]⟩

/-- A view reads at every later point of a run as what it read as when it was
taken: what was logged before that. Before the view was taken the store may have
been opened again, if all that was logged up to then is read back. -/
theorem view_reads (hv : Vacant v dir) (hopen : openAt settings dir clock v = .ok e v')
    (earlier before later : List Request)
    (hfits : ∀ op ∈ (opened v' e).trace dir earlier, op.Fits)
    (hbefore : ∀ r ∈ before, r.reopens = false) (hlater : ∀ r ∈ later, r.reopens = false)
    (htotal : Operation.logged ((opened v' e).trace dir (earlier ++ before ++ later))
      < UInt64.size) :
    let s := (opened v' e).after dir (earlier ++ before)
    let s' := (opened v' e).after dir (earlier ++ before ++ later)
    let ops := (opened v' e).trace dir (earlier ++ before)
    s.engine.view.Reads s.toMemory (contents ops) ∧
      s.engine.view.Reads s'.toMemory (contents ops) := by
  intro s s' ops
  obtain ⟨e₁, v₁, ids, hopen₁, hsound⟩ := hv.openAt_ok settings clock
  rw [hopen] at hopen₁
  cases hopen₁
  -- what is logged up to a point takes no more bytes than all of it
  have hsplit : (opened v' e).trace dir (earlier ++ before ++ later)
      = ops ++ s.trace dir later := trace_append _ _ _
  have hops : ops = (opened v' e).trace dir earlier
      ++ ((opened v' e).after dir earlier).trace dir before := trace_append _ _ _
  have hs' : s' = s.after dir later := after_append _ _ _
  rw [hsplit] at htotal
  have htotalOps : Operation.logged ops < UInt64.size := by
    rw [Operation.logged_append] at htotal
    omega
  have htotalEarlier : Operation.logged ((opened v' e).trace dir earlier) < UInt64.size := by
    rw [hops, Operation.logged_append] at htotalOps
    omega
  -- the store up to the view, and from there on
  obtain ⟨-, ⟨ids₁, hsound₁⟩, -⟩ :=
    hsound.after earlier (fun _ => hfits) htotalEarlier (room_of_logged htotalEarlier)
  have hsoundView : ∃ ids₂, s.Sound dir 1 ops ids₂ := by
    rw [hops] at htotalOps ⊢
    show ∃ ids₂, ((opened v' e).after dir (earlier ++ before)).Sound dir 1 _ ids₂
    rw [after_append]
    exact (hsound₁.after before (Request.not_reopened hbefore) htotalOps
      (room_of_logged htotalOps)).2.1
  obtain ⟨ids₂, hsound₂⟩ := hsoundView
  obtain ⟨-, ⟨ids₃, hsound₃⟩, hkeeps⟩ :=
    hsound₂.after later (Request.not_reopened hlater) htotal (room_of_logged htotal)
  refine ⟨hsound₂.reads, ?_⟩
  rw [hs']
  refine (hkeeps hlater s.engine.view _ hsound₂.pins).reads hsound₃ fun k => ?_
  exact (find?_contents ops k).symm

/-- A view tells at every later point of a run what it told when it was
taken: the state after all operations logged before that, and none after.
Before the view was taken the store may have been opened again, if all that
was logged up to then is read back. -/
theorem view_isolated (hv : Vacant v dir) (hopen : openAt settings dir clock v = .ok e v')
    (earlier before later : List Request)
    (hfits : ∀ op ∈ (opened v' e).trace dir earlier, op.Fits)
    (hbefore : ∀ r ∈ before, r.reopens = false) (hlater : ∀ r ∈ later, r.reopens = false)
    (htotal : Operation.logged ((opened v' e).trace dir (earlier ++ before ++ later))
      < UInt64.size) :
    let s := (opened v' e).after dir (earlier ++ before)
    let s' := (opened v' e).after dir (earlier ++ before ++ later)
    let ops := (opened v' e).trace dir (earlier ++ before)
    let w := s.engine.view
    (∀ k, w.get s'.toMemory k = w.get s.toMemory k ∧
        w.get s.toMemory k = .ok (valueAfter ops k)) ∧
      (∀ b d, w.seek s'.toMemory b d = w.seek s.toMemory b d ∧
        ∃ found, w.seek s.toMemory b d = .ok found ∧ Nearest (valueAfter ops) b d found) := by
  intro s s' ops w
  obtain ⟨hnow, hthen⟩ := view_reads hv hopen earlier before later hfits hbefore hlater htotal
  refine ⟨fun k => ⟨?_, ?_⟩, fun b d => ⟨?_, nearest_of_reads hnow b d⟩⟩
  · rw [hthen.get, hnow.get]
  · rw [hnow.get, find?_contents]
    rfl
  · rw [hthen.seek, hnow.seek]

/-- A view that was taken after the sample run still finds the key when it
was deleted and the deletion was flushed. -/
theorem view_isolated_sampleRun :
    ∃ e v', openAt Settings.standard ["db"] 0 Volume.empty = .ok e v' ∧
      ((opened v' e).after ["db"] (sampleRun ++ [.put [1] [5]])).engine.view.get
          ((opened v' e).after ["db"]
            (sampleRun ++ [.put [1] [5]] ++ [.delete [1], .flush])).toMemory [1]
        = .ok (some [5]) := by
  obtain ⟨e, v', ids, hopen, -⟩ := (vacant_empty ["db"]).openAt_ok Settings.standard 0
  have htotal : Operation.logged ((opened v' e).trace ["db"]
      (sampleRun ++ [.put [1] [5]] ++ [.delete [1], .flush])) < UInt64.size := by
    rw [trace_append, trace_append, trace_sampleRun]
    show Operation.logged (_ ++ [.put [1] [5]] ++ [.delete [1]]) < _
    decide
  obtain ⟨hget, -⟩ := view_isolated (vacant_empty ["db"]) hopen sampleRun [.put [1] [5]]
    [.delete [1], .flush] (by rw [trace_sampleRun]; decide) (by decide) (by decide) htotal
  obtain ⟨hsame, hthen⟩ := hget [1]
  refine ⟨e, v', hopen, hsame.trans (hthen.trans ?_)⟩
  rw [trace_append, trace_sampleRun]
  rfl

end OrderedStore.Store
