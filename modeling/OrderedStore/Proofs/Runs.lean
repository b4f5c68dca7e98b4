/-
Runs of an open store.

A run is a row of requests, each carried out on the store that the one
before it left. A request that is turned down counts as well: the next one
finds the store as it was. `Request.logs` is what a request adds to the
row of logged operations, and `trace` is what a whole run adds.

`Sound.request` says what one request does, and `Sound.after` what a run
does, by induction on the row: it keeps the invariant for the operations
logged by then, and every view, as long as the store is not opened again. A
store that is opened again has memtables of its own, so views taken before
are views of the store that was.
-/
import Mathlib
import OrderedStore.Proofs.Opening

namespace OrderedStore

open Store Engine

-- ==================================================== steps of a store

namespace Store

variable {s : Store} {α : Type} {choose : Memory → View → Except Failure (List Operation × α)}

/-- Gives up the engine and everything in memory, and opens an engine on
the volume. -/
def reopen (settings : Settings) (dir : Path) (clock : UInt64) : StoreM Unit := fun s =>
  match Engine.openAt settings dir clock s.volume with
  | .ok e v => .ok () (opened v e)
  | .error f v => .error f { s with volume := v }

/-- If an engine can be opened on its volume, a store can be opened
again. -/
theorem reopen_ok {settings : Settings} {dir : Path} {clock : UInt64} {e : Engine} {v : Volume}
    (h : Engine.openAt settings dir clock s.volume = .ok e v) :
    reopen settings dir clock s = .ok () (opened v e) := by
  unfold reopen
  rw [h]

/-- What is chosen to be written is applied as one batch. -/
theorem readModifyWrite_some {op : Operation} {ops : List Operation} {a : α}
    (h : choose s.toMemory s.engine.view = .ok (op :: ops, a)) :
    readModifyWrite choose s = (do apply (.batch (op :: ops)); return a : StoreM α) s := by
  unfold readModifyWrite
  rw [bind_get]
  simp only [h]
  rfl

/-- To choose nothing is to write nothing. -/
theorem readModifyWrite_none {a : α} (h : choose s.toMemory s.engine.view = .ok ([], a)) :
    readModifyWrite choose s = .ok a s := by
  unfold readModifyWrite
  rw [bind_get]
  simp only [h]
  rfl

/-- If nothing can be chosen, nothing is written. -/
theorem readModifyWrite_declined {f : Failure}
    (h : choose s.toMemory s.engine.view = .error f) :
    readModifyWrite choose s = .error f s := by
  unfold readModifyWrite
  rw [bind_get]
  simp only [h]
  rfl

end Store

-- =============================================================== requests

/-- What can be asked of an open store. The time may go on at any
moment. -/
inductive Request where
  | put (k value : Bytes)
  | delete (k : Bytes)
  | writeBatch (ops : List Operation)
  | readModifyWrite (choose : Memory → View → Except Failure (List Operation))
  | view
  | flush
  | close
  | reopen (settings : Settings) (clock : UInt64)
  | tick (now : UInt64)

namespace Request

variable {dir : Path} {s : Store} {r : Request}

/-- The choice, with nothing to be answered beside it. -/
def chosen (choose : Memory → View → Except Failure (List Operation)) (mem : Memory)
    (w : View) : Except Failure (List Operation × Unit) :=
  (choose mem w).map fun ops => (ops, ())

/-- Carries the request out on a store in the directory. -/
def run (dir : Path) : Request → StoreM Unit
  | put k value => Store.put k value
  | delete k => Store.delete k
  | writeBatch ops => Store.writeBatch ops
  | readModifyWrite choose => Store.readModifyWrite (chosen choose)
  | view => discard Store.view
  | flush => Store.flush
  | close => Store.close
  | reopen settings clock => Store.reopen settings dir clock
  | tick now => modify fun s => { s with engine := { s.engine with clock := now } }

/-- The store that the request leaves, whether it is carried out or turned
down. -/
def next (dir : Path) (s : Store) (r : Request) : Store :=
  match r.run dir s with
  | .ok _ s' => s'
  | .error _ s' => s'

/-- The operation that the request asks for, if it comes to one. -/
def asks (s : Store) : Request → Option Operation
  | put k value => some (.put k value)
  | delete k => some (.delete k)
  | writeBatch [] => none
  | writeBatch [op] => some op
  | writeBatch ops => some (.batch ops)
  | readModifyWrite choose =>
      match choose s.toMemory s.engine.view with
      | .ok [] => none
      | .ok ops => some (.batch ops)
      | .error _ => none
  | _ => none

/-- The operations that the request logs. -/
def logs (s : Store) (r : Request) : List Operation :=
  (r.asks s).toList.filter fun op => op.Loggable

/-- Whether the request opens the store again. -/
def reopens : Request → Bool
  | reopen _ _ => true
  | _ => false

/-- If no request of a row opens the store again, there is none that does. -/
theorem not_reopened {reqs : List Request} (h : ∀ r ∈ reqs, r.reopens = false)
    {p : Prop} (hany : ∃ r ∈ reqs, r.reopens = true) : p := by
  obtain ⟨r, hr, hreopens⟩ := hany
  rw [h r hr] at hreopens
  cases hreopens

/-- The request is answered: it is carried out, or it is turned down, for
what it asks or by its own choice, and nothing changes. -/
inductive Answered (dir : Path) (s : Store) (r : Request) : Prop where
  | done (h : r.run dir s = .ok () (r.next dir s))
  | tooLarge {op : Operation} (hask : r.asks s = some op) (hop : ¬op.Loggable)
      (h : r.run dir s = .error (.recordTooLarge (op.serialize.length + 8)) s)
  | declined {choose : Memory → View → Except Failure (List Operation)} {f : Failure}
      (hask : r = .readModifyWrite choose) (hno : choose s.toMemory s.engine.view = .error f)
      (h : r.run dir s = .error f s)

/-- What a request that is carried out leaves. -/
theorem next_of_ok {s' : Store} (h : r.run dir s = .ok () s') : r.next dir s = s' := by
  unfold next
  rw [h]

/-- What a request that is turned down leaves. -/
theorem next_of_error {s' : Store} {f : Failure} (h : r.run dir s = .error f s') :
    r.next dir s = s' := by
  unfold next
  rw [h]

/-- A choice that is made. -/
theorem chosen_ok {choose : Memory → View → Except Failure (List Operation)} {mem : Memory}
    {w : View} {ops : List Operation} (h : choose mem w = .ok ops) :
    chosen choose mem w = .ok (ops, ()) := by
  unfold chosen
  rw [h]
  rfl

/-- A choice that is declined. -/
theorem chosen_error {choose : Memory → View → Except Failure (List Operation)} {mem : Memory}
    {w : View} {f : Failure} (h : choose mem w = .error f) :
    chosen choose mem w = .error f := by
  unfold chosen
  rw [h]
  rfl

/-- A request that asks for an operation applies it. -/
theorem run_of_asks {op : Operation} (hask : r.asks s = some op) :
    r.run dir s = apply op s := by
  cases r with
  | put k value => cases hask; rfl
  | delete k => cases hask; rfl
  | writeBatch ops =>
      match ops, hask with
      | [_], rfl => rfl
      | _ :: _ :: _, rfl => rfl
  | readModifyWrite choose =>
      match hchoose : choose s.toMemory s.engine.view with
      | .error f => simp only [asks, hchoose, reduceCtorEq] at hask
      | .ok [] => simp only [asks, hchoose, reduceCtorEq] at hask
      | .ok (op :: ops) =>
          simp only [asks, hchoose, Option.some.injEq] at hask
          subst hask
          refine (readModifyWrite_some (chosen_ok hchoose)).trans ?_
          show EStateM.bind (apply (.batch (op :: ops))) _ s = _
          unfold EStateM.bind
          cases apply (.batch (op :: ops)) s <;> rfl
  | view => cases hask
  | flush => cases hask
  | close => cases hask
  | reopen settings clock => cases hask
  | tick now => cases hask

/-- The operation that is asked for is logged if it can be. -/
theorem logs_of_loggable {op : Operation} (hask : r.asks s = some op) (hop : op.Loggable) :
    r.logs s = [op] := by
  unfold logs
  rw [hask]
  exact List.filter_cons_of_pos (decide_eq_true hop)

/-- An operation that cannot be logged is not. -/
theorem logs_of_not_loggable {op : Operation} (hask : r.asks s = some op)
    (hop : ¬op.Loggable) : r.logs s = [] := by
  unfold logs
  rw [hask]
  exact List.filter_cons_of_neg (by simpa using hop)

/-- A request that asks for nothing logs nothing. -/
theorem logs_of_none (hask : r.asks s = none) : r.logs s = [] := by
  unfold logs
  rw [hask]
  rfl

end Request

namespace Store

variable {dir : Path} {spare : Nat} {s : Store} {ops : List Operation} {ids : List UInt64}
  {r : Request}

/-- What one request does: it is answered, the invariant holds for the row
of operations, and every view is kept unless the store is opened again. -/
structure Outcome (dir : Path) (spare : Nat) (s : Store) (r : Request)
    (row : List Operation) : Prop where
  answered : r.Answered dir s
  sound : ∃ ids, (r.next dir s).Sound dir spare row ids
  keeps : r.reopens = false → s.Keeps (r.next dir s)

/-- What a request does that is carried out. -/
theorem Outcome.of_ok {s' : Store} (hrun : r.run dir s = .ok () s')
    (hsound : s'.Sound dir spare ops ids) (hkeeps : r.reopens = false → s.Keeps s') :
    Outcome dir spare s r ops := by
  have hnext := Request.next_of_ok hrun
  refine ⟨Request.Answered.done ?_, ⟨ids, ?_⟩, ?_⟩
  · rw [hnext, hrun]
  · rw [hnext]
    exact hsound
  · rw [hnext]
    exact hkeeps

/-- A request that asks for an operation keeps the invariant. -/
theorem Sound.request_some (h : s.Sound dir spare ops ids) {op : Operation}
    (hask : r.asks s = some op) (htotal : Operation.logged (ops ++ r.logs s) < UInt64.size)
    (hroom : (ops ++ r.logs s).length + spare < UInt64.size) :
    Outcome dir spare s r (ops ++ r.logs s) := by
  have hrun : r.run dir s = apply op s := r.run_of_asks hask
  by_cases hop : op.Loggable
  · rw [Request.logs_of_loggable hask hop] at htotal hroom ⊢
    obtain ⟨s', ids', happly, hsound, hkeeps⟩ := h.apply_ok hop htotal hroom
    exact Outcome.of_ok (hrun.trans happly) hsound fun _ => hkeeps
  · rw [Request.logs_of_not_loggable hask hop, List.append_nil]
    have hrefused := hrun.trans (apply_refused s hop)
    refine ⟨Request.Answered.tooLarge hask hop hrefused, ⟨ids, ?_⟩, fun _ => ?_⟩
    · rw [Request.next_of_error hrefused]
      exact h
    · rw [Request.next_of_error hrefused]
      exact Keeps.refl s

/-- A request that asks for no operation keeps the invariant. To open the
store again, all that was logged must be read back. -/
theorem Sound.request_none (h : s.Sound dir spare ops ids) (hask : r.asks s = none)
    (hback : r.reopens = true → ∀ op ∈ ops, op.Fits)
    (htotal : Operation.logged ops < UInt64.size) (hroom : ops.length + spare < UInt64.size) :
    Outcome dir spare s r ops := by
  have hidle (hrun : r.run dir s = .ok () s) : Outcome dir spare s r ops :=
    Outcome.of_ok hrun h fun _ => Keeps.refl s
  obtain ⟨s', ids', hflush, hsound, hkeeps⟩ := h.flush_ok htotal hroom
  cases r with
  | put k value => cases hask
  | delete k => cases hask
  | writeBatch row =>
      match row with
      | [] => exact hidle rfl
      | [_] => cases hask
      | _ :: _ :: _ => cases hask
  | readModifyWrite choose =>
      match hchoose : choose s.toMemory s.engine.view with
      | .ok [] => exact hidle (readModifyWrite_none (Request.chosen_ok hchoose))
      | .ok (op :: row) => simp only [Request.asks, hchoose, reduceCtorEq] at hask
      | .error f =>
          have hrun : (Request.readModifyWrite choose).run dir s = .error f s :=
            readModifyWrite_declined (Request.chosen_error hchoose)
          refine ⟨Request.Answered.declined rfl hchoose hrun, ⟨ids, ?_⟩, fun _ => ?_⟩
          · rw [Request.next_of_error hrun]
            exact h
          · rw [Request.next_of_error hrun]
            exact Keeps.refl s
  | view => exact hidle rfl
  | flush => exact Outcome.of_ok hflush hsound fun _ => hkeeps
  | close => exact Outcome.of_ok hflush hsound fun _ => hkeeps
  | reopen settings clock =>
      obtain ⟨rs, hrec⟩ := recoverable_of_sound h (hback rfl)
      obtain ⟨e, v, ids', hopen, hsound⟩ := hrec.openAt_ok htotal hroom settings clock
      refine Outcome.of_ok (reopen_ok hopen) hsound fun hno => ?_
      cases hno
  | tick now =>
      refine Outcome.of_ok rfl (h.tick now) fun _ w f hw => ?_
      exact ⟨hw.memtable, hw.seq, hw.tables, hw.entry⟩

/-- What one request does to a store. -/
theorem Sound.request (h : s.Sound dir spare ops ids) (r : Request)
    (hback : r.reopens = true → ∀ op ∈ ops, op.Fits)
    (htotal : Operation.logged (ops ++ r.logs s) < UInt64.size)
    (hroom : (ops ++ r.logs s).length + spare < UInt64.size) :
    Outcome dir spare s r (ops ++ r.logs s) := by
  cases hask : r.asks s with
  | some op => exact h.request_some hask htotal hroom
  | none =>
      rw [Request.logs_of_none hask, List.append_nil] at htotal hroom ⊢
      exact h.request_none hask hback htotal hroom

-- ==================================================================== runs

/-- The store after a run. -/
def after (dir : Path) : Store → List Request → Store
  | s, [] => s
  | s, r :: rs => after dir (r.next dir s) rs

/-- The operations that a run logs, in order. -/
def trace (dir : Path) : Store → List Request → List Operation
  | _, [] => []
  | s, r :: rs => r.logs s ++ trace dir (r.next dir s) rs

/-- Every request of the run is answered. -/
def AllAnswered (dir : Path) : Store → List Request → Prop
  | _, [] => True
  | s, r :: rs => r.Answered dir s ∧ AllAnswered dir (r.next dir s) rs

/-- A run with a key written, flushed, overwritten in a batch in a batch,
and deleted, over two sessions. -/
def sampleRun : List Request :=
  [.put [1] [2], .flush, .writeBatch [.delete [1], .batch [.put [1] [3], .put [2] [4]]],
    .reopen Settings.standard 1, .delete [2]]

/-- What it logs, wherever it starts. -/
theorem trace_sampleRun (s : Store) : s.trace dir sampleRun
    = [.put [1] [2], .batch [.delete [1], .batch [.put [1] [3], .put [2] [4]]],
      .delete [2]] := rfl

/-- A run goes on from where another one ended. -/
theorem after_append (s : Store) (reqs reqs' : List Request) :
    s.after dir (reqs ++ reqs') = (s.after dir reqs).after dir reqs' := by
  induction reqs generalizing s with
  | nil => rfl
  | cons r reqs ih => exact ih (r.next dir s)

/-- It logs its own operations behind those of the other. -/
theorem trace_append (s : Store) (reqs reqs' : List Request) :
    s.trace dir (reqs ++ reqs') = s.trace dir reqs ++ (s.after dir reqs).trace dir reqs' := by
  induction reqs generalizing s with
  | nil => rfl
  | cons r reqs ih => rw [List.cons_append, trace, ih, trace, after, List.append_assoc]

/-- What a run does: every request is answered, the invariant holds for the
operations logged by the end, and every view is kept unless the store is
opened again. -/
theorem Sound.after (h : s.Sound dir spare ops ids) (reqs : List Request)
    (hback : (∃ r ∈ reqs, r.reopens = true) → ∀ op ∈ ops ++ s.trace dir reqs, op.Fits)
    (htotal : Operation.logged (ops ++ s.trace dir reqs) < UInt64.size)
    (hroom : (ops ++ s.trace dir reqs).length + spare < UInt64.size) :
    s.AllAnswered dir reqs ∧
      (∃ ids', (s.after dir reqs).Sound dir spare (ops ++ s.trace dir reqs) ids') ∧
      ((∀ r ∈ reqs, r.reopens = false) → s.Keeps (s.after dir reqs)) := by
  induction reqs generalizing s ops ids with
  | nil =>
      rw [trace, List.append_nil]
      exact ⟨trivial, ⟨ids, h⟩, fun _ => Keeps.refl s⟩
  | cons r reqs ih =>
      rw [trace, ← List.append_assoc] at hback htotal hroom ⊢
      have hfirst : Operation.logged (ops ++ r.logs s)
          ≤ Operation.logged (ops ++ r.logs s ++ (r.next dir s).trace dir reqs) := by
        rw [Operation.logged_append _ (trace dir _ reqs)]
        omega
      have hlength : (ops ++ r.logs s ++ (r.next dir s).trace dir reqs).length
          = (ops ++ r.logs s).length + ((r.next dir s).trace dir reqs).length :=
        List.length_append
      have hfirstback (hr : r.reopens = true) (op) (hop : op ∈ ops) : op.Fits :=
        hback ⟨r, List.mem_cons_self, hr⟩ op
          (List.mem_append_left _ (List.mem_append_left _ hop))
      have hrestback (hany : ∃ q ∈ reqs, q.reopens = true) :=
        hback (hany.imp fun q hq => ⟨List.mem_cons_of_mem _ hq.1, hq.2⟩)
      have hone := h.request r hfirstback (by omega) (by omega)
      obtain ⟨ids', hsound⟩ := hone.sound
      obtain ⟨hrest, hsound', hkeeps⟩ := ih hsound hrestback htotal hroom
      refine ⟨⟨hone.answered, hrest⟩, hsound', fun hall => ?_⟩
      have hr := hall r List.mem_cons_self
      exact (hone.keeps hr).trans (hkeeps fun q hq => hall q (List.mem_cons_of_mem _ hq))

end Store

end OrderedStore
