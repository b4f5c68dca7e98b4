/-
The numbers that a log gives to what is appended.

A writer keeps the next number in memory. Whoever opens one asks the file for the
last number, and the file knows that of its last record only: when the log has
been emptied it knows none, and the numbers begin again.

So numbers are told by two things, the last one in the file and the next one of
each writer (`Tally`), and what is done on a path is carried out on them alone
(`Tracks.runAll_ok`). They grow as long as whoever appends knows of what was
appended last: by having appended it, or by having been opened when its record
was still there (`Act.knows`). Whoever appends without that repeats a number or
goes below one (`Tally.Numbered.grow_iff`).
-/
import Mathlib
import OrderedStore.Proofs.LogReading
import OrderedStore.Proofs.Opening

namespace OrderedStore

namespace Log

/-- What is done on the path of a log, through writers that are told apart by a
number. Whether the operating system has put the file on its disk cannot be
seen. -/
inductive Act where
  | opens (h : Nat)
  | appends (h : Nat) (now : UInt64) (op : Operation)
  | syncs (h : Nat)
  | truncates (h : Nat)
  | drops (h : Nat)

/-- The writers that are held. -/
abbrev Writers := Nat → Option Writer

namespace Act

/-- Does it, and answers the number that was given, if one was. -/
def run (p : Path) (ws : Writers) : Act → Disk (List UInt64 × Writers)
  | opens h => do
    let w ← Writer.openAt p
    return ([], Function.update ws h (some w))
  | appends h now op =>
    match ws h with
    | none => return ([], ws)
    | some w => do
      let (lsn, w) ← w.append now op
      return ([lsn], Function.update ws h (some w))
  | syncs _ => return ([], ws)
  | truncates h =>
    match ws h with
    | none => return ([], ws)
    | some w => do
      w.truncate
      return ([], ws)
  | drops h => return ([], Function.update ws h none)

/-- Does one after the other, and answers the numbers that were given. -/
def runAll (p : Path) : List Act → Writers → Disk (List UInt64)
  | [], _ => return []
  | a :: acts, ws => do
    let (lsns, ws) ← a.run p ws
    let rest ← runAll p acts ws
    return lsns ++ rest

/-- What is appended, if anything is, is read back. -/
def Fits : Act → Prop
  | appends _ _ op => op.Fits
  | _ => True

instance : (a : Act) → Decidable a.Fits
  | appends _ _ op => inferInstanceAs (Decidable op.Fits)
  | opens _ | syncs _ | truncates _ | drops _ => inferInstanceAs (Decidable True)

-- ============================================================= what was done

/-- How often something was appended. -/
def appended : List Act → Nat
  | [] => 0
  | appends _ _ _ :: acts => appended acts + 1
  | _ :: acts => appended acts

/-- Whether a writer is held, by what was done, the last first. -/
def held (h : Nat) : List Act → Bool
  | [] => false
  | opens g :: past => g = h || held h past
  | drops g :: past => g ≠ h && held h past
  | _ :: past => held h past

/-- Whether what was appended last is still in the file, if anything was
appended. -/
def kept : List Act → Bool
  | [] => true
  | appends _ _ _ :: _ => true
  | truncates _ :: past => appended past = 0
  | _ :: past => kept past

/-- Whether a writer knows of what was appended last: it has appended it, or was
opened after that when it was still in the file. -/
def knows (h : Nat) : List Act → Bool
  | [] => true
  | opens g :: past => if g = h then kept past else knows h past
  | appends g _ _ :: _ => g = h
  | _ :: past => knows h past

/-- Whether it can be done: a writer has to be held for all but opening it. -/
def possible (past : List Act) : Act → Bool
  | opens _ => true
  | appends h _ _ | syncs h | truncates h | drops h => held h past

/-- Whether everything that is done after what was done can be done. -/
def allPossible (past : List Act) : List Act → Bool
  | [] => true
  | a :: acts => a.possible past && allPossible (a :: past) acts

/-- Whether everything that is appended is appended by a writer that knows of what
was appended last. -/
def informed (past : List Act) : List Act → Bool
  | [] => true
  | appends h now op :: acts => knows h past && informed (appends h now op :: past) acts
  | a :: acts => informed (a :: past) acts

end Act

-- ============================================================== numbers alone

/-- The number of the last record in the file, zero if there is none, and the next
number of each writer that is held. -/
structure Tally where
  last : Nat
  next : Nat → Option Nat

namespace Tally

variable {t : Tally} {past acts : List Act} {a : Act} {k : Nat}

/-- What an act makes of the numbers, and the number that it gives. -/
def step (t : Tally) : Act → List Nat × Tally
  | .opens h => ([], { t with next := Function.update t.next h (some (t.last + 1)) })
  | .appends h _ _ =>
    match t.next h with
    | none => ([], t)
    | some x => ([x], ⟨x, Function.update t.next h (some (x + 1))⟩)
  | .syncs _ => ([], t)
  | .truncates h =>
    match t.next h with
    | none => ([], t)
    | some _ => ([], { t with last := 0 })
  | .drops h => ([], { t with next := Function.update t.next h none })

/-- The numbers that are given. -/
def runAll (t : Tally) : List Act → List Nat
  | [] => []
  | a :: acts => (t.step a).1 ++ runAll (t.step a).2 acts

/-- No number is above `k`, and no next one above the one behind it. -/
structure Below (t : Tally) (k : Nat) : Prop where
  last : t.last ≤ k
  next : ∀ h x, t.next h = some x → x ≤ k + 1

/-- Those writers have a next number that are held. -/
def Held (t : Tally) (past : List Act) : Prop :=
  ∀ h, (t.next h).isSome = Act.held h past

/-- The next number of a writer, after so much was done: it is the one behind all that
were given if the writer knows of the last of them, and one of those otherwise. -/
def Fitting (past : List Act) (h : Nat) (next : Option Nat) : Prop :=
  ∀ x, next = some x →
    if Act.knows h past then x = Act.appended past + 1 else x ≤ Act.appended past

/-- As long as whoever has appended knew of what was appended last, the numbers given
are those up to how often something was appended. The file has the last of them if
that was kept, and none otherwise. -/
structure Numbered (t : Tally) (past : List Act) : Prop where
  held : t.Held past
  last : t.last = if Act.kept past then Act.appended past else 0
  next : ∀ h, Fitting past h (t.next h)

/-- One writer gets a next number, or has none any more, and is held or not. -/
theorem Held.update (h : t.Held past) {last : Nat} (i : Nat) {next : Option Nat} {past' : List Act}
    (hnext : next.isSome = Act.held i past')
    (hothers : ∀ j, j ≠ i → Act.held j past = Act.held j past') :
    Held ⟨last, Function.update t.next i next⟩ past' :=
  (Function.forall_update_iff t.next (p := fun j next => next.isSome = Act.held j past')).mpr
    ⟨hnext, fun j hj => (h j).trans (hothers j hj)⟩

/-- Whatever is done, the writers that are held have numbers. -/
theorem Held.step (h : t.Held past) (a : Act) : (t.step a).2.Held (a :: past) := by
  cases a with
  | opens i =>
      refine h.update i ?_ fun j hj => ?_
      · simp [Act.held]
      · simp [Act.held, Ne.symm hj]
  | appends i now op =>
      rw [Tally.step]
      cases hi : t.next i with
      | none => exact h
      | some x =>
          refine h.update i ?_ fun j _ => rfl
          exact (congrArg Option.isSome hi).symm.trans (h i)
  | syncs i => exact h
  | truncates i =>
      rw [Tally.step]
      cases t.next i <;> exact h
  | drops i =>
      refine h.update i ?_ fun j hj => ?_
      · simp [Act.held]
      · simp [Act.held, Ne.symm hj]

/-- What is held has a number. -/
theorem Held.exists_next (h : t.Held past) {i : Nat} (hheld : Act.held i past = true) :
    ∃ x, t.next i = some x :=
  Option.isSome_iff_exists.mp ((h i).trans hheld)

/-- What was not kept was appended. -/
theorem appended_pos_of_not_kept (h : Act.kept past = false) : 0 < Act.appended past := by
  induction past with
  | nil => cases h
  | cons a past ih =>
      cases a with
      | opens | syncs | drops => exact ih h
      | appends => exact Nat.succ_pos _
      | truncates => exact Nat.pos_of_ne_zero (of_decide_eq_false h)

/-- A writer that is opened goes on behind the last number if it was kept, and begins
again otherwise. -/
theorem Numbered.fitting_opens (h : t.Numbered past) (i : Nat) :
    Fitting (.opens i :: past) i (some (t.last + 1)) := by
  intro x hx
  cases hx
  have hlast := h.last
  simp only [Act.knows, Act.appended, if_true]
  cases hkept : Act.kept past with
  | true =>
      rw [if_pos hkept] at hlast
      rw [if_pos rfl, hlast]
  | false =>
      have hpos := appended_pos_of_not_kept hkept
      rw [if_neg (by rw [hkept]; exact Bool.false_ne_true)] at hlast
      rw [if_neg Bool.false_ne_true, hlast]
      exact hpos

/-- To open another one changes nothing for a writer. -/
theorem Fitting.opens {i j : Nat} {next : Option Nat} (h : Fitting past j next) (hj : j ≠ i) :
    Fitting (.opens i :: past) j next := by
  have hknows : Act.knows j (.opens i :: past) = Act.knows j past := if_neg (Ne.symm hj)
  unfold Fitting
  rw [hknows]
  exact h

/-- When another one has appended, it does not know of that. -/
theorem Fitting.appends {i j : Nat} {next : Option Nat} (h : Fitting past j next) (hj : j ≠ i)
    (now : UInt64) (op : Operation) : Fitting (.appends i now op :: past) j next := by
  intro x hx
  have hold := h x hx
  simp only [Act.knows, Act.appended, Ne.symm hj, decide_false, Bool.false_eq_true, if_false]
  split at hold <;> omega

/-- Whatever is done keeps the numbers so, but for appending without knowing of what
was appended last. -/
theorem Numbered.step (h : t.Numbered past) (hpossible : a.possible past = true)
    (hknows : ∀ i now op, a = .appends i now op → Act.knows i past = true) :
    (t.step a).2.Numbered (a :: past) := by
  have hheld := h.held.step a
  cases a with
  | opens i =>
      refine ⟨hheld, h.last, (Function.forall_update_iff t.next
        (p := Fitting (.opens i :: past))).mpr ⟨h.fitting_opens i, fun j hj => (h.next j).opens hj⟩⟩
  | appends i now op =>
      obtain ⟨x, hx⟩ := h.held.exists_next hpossible
      have hnext := h.next i x hx
      rw [if_pos (hknows i now op rfl)] at hnext
      simp only [Tally.step, hx] at hheld ⊢
      refine ⟨hheld, hnext, (Function.forall_update_iff t.next
        (p := Fitting (.appends i now op :: past))).mpr
          ⟨fun y hy => ?_, fun j hj => (h.next j).appends hj now op⟩⟩
      cases hy
      simp only [Act.knows, Act.appended, decide_true, if_true, hnext]
  | syncs i => exact ⟨hheld, h.last, h.next⟩
  | truncates i =>
      obtain ⟨x, hx⟩ := h.held.exists_next hpossible
      simp only [Tally.step, hx] at hheld ⊢
      refine ⟨hheld, ?_, h.next⟩
      -- there was nothing to keep if nothing was appended
      simp only [Act.kept, Act.appended, decide_eq_true_eq]
      split
      · exact Eq.symm ‹_›
      · rfl
  | drops i =>
      exact ⟨hheld, h.last, (Function.forall_update_iff t.next
        (p := Fitting (.drops i :: past))).mpr ⟨(fun x hx => nomatch hx), fun j _ => h.next j⟩⟩

/-- Who does not know of what was appended last comes after something that was
appended. -/
theorem appended_pos_of_not_knows {i : Nat} (h : Act.knows i past = false) :
    0 < Act.appended past := by
  induction past with
  | nil => cases h
  | cons a past ih =>
      cases a with
      | opens j =>
          rw [Act.knows] at h
          split at h
          · exact appended_pos_of_not_kept h
          · exact ih h
      | appends => exact Nat.succ_pos _
      | syncs | truncates | drops => exact ih h

/-- Nothing but appending gives a number. -/
theorem step_silent (h : ∀ i now op, a ≠ .appends i now op) : (t.step a).1 = [] := by
  cases a with
  | opens | syncs | drops => rfl
  | appends i now op => exact absurd rfl (h i now op)
  | truncates i =>
      rw [step]
      cases t.next i <;> rfl

/-- Every time something is appended a number is given. -/
theorem Held.length_runAll (h : t.Held past) (hpossible : Act.allPossible past acts = true) :
    (t.runAll acts).length = Act.appended acts := by
  induction acts generalizing t past with
  | nil => rfl
  | cons a acts ih =>
      obtain ⟨ha, hrest⟩ := Bool.and_eq_true_iff.mp hpossible
      rw [runAll, List.length_append, ih (h.step a) hrest]
      cases a with
      | appends i now op =>
          obtain ⟨x, hx⟩ := h.exists_next ha
          rw [Tally.step, hx]
          exact Nat.add_comm 1 _
      | opens i | syncs i | truncates i | drops i =>
          rw [step_silent, List.length_nil, Nat.zero_add]
          · rfl
          · exact fun _ _ _ heq => nomatch heq

/-- The numbers that were given and those that are still to be given grow if whoever
appends knows of what was appended last, and only then. -/
theorem Numbered.grow_iff (h : t.Numbered past) (hpossible : Act.allPossible past acts = true) :
    (List.range' 1 (Act.appended past) ++ t.runAll acts).Pairwise (· < ·) ↔
      Act.informed past acts = true := by
  induction acts generalizing t past with
  | nil =>
      refine iff_of_true ?_ rfl
      rw [runAll, List.append_nil]
      exact List.pairwise_lt_range'
  | cons a acts ih =>
      obtain ⟨ha, hrest⟩ := Bool.and_eq_true_iff.mp hpossible
      rw [runAll]
      cases a with
      | appends i now op =>
          obtain ⟨x, hx⟩ := h.held.exists_next ha
          have hnext := h.next i x hx
          have hgiven : (t.step (.appends i now op)).1 = [x] := by
            rw [Tally.step, hx]
          rw [hgiven, Act.informed]
          cases hknows : Act.knows i past with
          | true =>
              rw [if_pos hknows] at hnext
              have hstep := ih (h.step ha fun _ _ _ heq => by cases heq; exact hknows) hrest
              rw [Act.appended, List.range'_1_concat, List.append_assoc, Nat.add_comm 1] at hstep
              rw [hnext, Bool.true_and]
              exact hstep
          | false =>
              rw [if_neg (by rw [hknows]; exact Bool.false_ne_true)] at hnext
              have hpos := appended_pos_of_not_knows hknows
              refine iff_of_false (fun hgrow => ?_) Bool.false_ne_true
              -- the last of the numbers given is not below the new one
              have hless := (List.pairwise_append.mp hgrow).2.2 (Act.appended past)
                (List.mem_range'_1.mpr (by omega)) x List.mem_cons_self
              omega
      | opens i | syncs i | truncates i | drops i =>
          rw [step_silent, List.nil_append]
          · exact ih (h.step ha fun _ _ _ heq => nomatch heq) hrest
          · exact fun _ _ _ heq => nomatch heq

/-- What is done once more is counted. -/
theorem appended_cons (a : Act) (acts : List Act) :
    Act.appended (a :: acts) = Act.appended [a] + Act.appended acts := by
  cases a <;> simp only [Act.appended] <;> omega

/-- Numbers that are low enough for one bound are so for a higher one. -/
theorem Below.mono {l : Nat} (h : t.Below k) (hl : k ≤ l) : t.Below l :=
  ⟨h.last.trans hl, fun i x hx => (h.next i x hx).trans (Nat.succ_le_succ hl)⟩

/-- They stay so when a writer gets a next number that is, or none. -/
theorem Below.update (h : t.Below k) (i : Nat) {next : Option Nat}
    (hnext : ∀ x, next = some x → x ≤ k + 1) :
    Below ⟨t.last, Function.update t.next i next⟩ k :=
  ⟨h.last, (Function.forall_update_iff t.next
    (p := fun _ next => ∀ x, next = some x → x ≤ k + 1)).mpr ⟨hnext, fun j _ => h.next j⟩⟩

/-- Numbers grow by one at most, and when something is appended. -/
theorem Below.step (h : t.Below k) (a : Act) : (t.step a).2.Below (k + Act.appended [a]) := by
  cases a with
  | opens i =>
      refine h.update i fun x hx => ?_
      cases hx
      exact Nat.succ_le_succ h.last
  | appends i now op =>
      rw [Tally.step]
      have hmono := h.mono (Nat.le_succ k)
      cases hi : t.next i with
      | none => exact hmono
      | some y =>
          have hy := h.next i y hi
          refine ⟨hy, (hmono.update i fun x hx => ?_).next⟩
          cases hx
          exact Nat.succ_le_succ hy
  | syncs i => exact h
  | truncates i =>
      rw [Tally.step]
      cases t.next i with
      | none => exact h
      | some y => exact ⟨Nat.zero_le _, h.next⟩
  | drops i => exact h.update i fun x hx => nomatch hx

end Tally

-- ================================================================= the file

variable {p : Path} {n k : Nat} {v : Volume} {ws : Writers} {t : Tally} {rs : List LogRecord}
  {acts : List Act}

/-- The tally of a log: its file holds whole records, the last of which has the last
number, and writers append to that file and have the next numbers. -/
structure Tracks (p : Path) (n : Nat) (v : Volume) (ws : Writers) (t : Tally)
    (rs : List LogRecord) : Prop where
  node : v.node? p = some (.file n)
  within : n < v.contents.length
  content : v.content n = frames rs
  fits : ∀ r ∈ rs, r.Fits
  last : ((rs.getLast?.map LogRecord.lsn).getD 0).toNat = t.last
  writers : ∀ h, (ws h).map (fun w => (w.file, w.nextLsn.toNat)) = (t.next h).map fun x => (n, x)

namespace Tracks

/-- A writer is tracked, or there is none. -/
theorem writer (h : Tracks p n v ws t rs) (i : Nat) :
    (ws i = none ∧ t.next i = none) ∨
      ∃ lsn, ws i = some ⟨n, lsn⟩ ∧ t.next i = some lsn.toNat := by
  have hi := h.writers i
  cases hw : ws i with
  | none =>
      rw [hw] at hi
      exact Or.inl ⟨rfl, Option.map_eq_none_iff.mp hi.symm⟩
  | some w =>
      rw [hw] at hi
      obtain ⟨x, hx, heq⟩ := Option.map_eq_some_iff.mp hi.symm
      obtain ⟨file, lsn⟩ := w
      cases heq
      exact Or.inr ⟨lsn, rfl, hx⟩

/-- It stays so when one writer and its number are put in the place of others. -/
theorem update (h : Tracks p n v ws t rs) (i : Nat) (w : Option Writer) (next : Option Nat)
    (hw : w.map (fun w => (w.file, w.nextLsn.toNat)) = next.map fun x => (n, x)) :
    Tracks p n v (Function.update ws i w) ⟨t.last, Function.update t.next i next⟩ rs := by
  refine { h with writers := fun j => ?_ }
  show _ = Option.map _ (Function.update t.next i next j)
  rw [Function.update_apply, Function.update_apply]
  split
  · exact hw
  · exact h.writers j

/-- The file is written, and holds other records then. -/
theorem refilled (h : Tracks p n v ws t rs) (rs' : List LogRecord) (hfits : ∀ r ∈ rs', r.Fits) :
    Tracks p n (v.setContent n (frames rs')) ws
      ⟨((rs'.getLast?.map LogRecord.lsn).getD 0).toNat, t.next⟩ rs' := by
  refine ⟨?_, ?_, ?_, hfits, rfl, h.writers⟩
  · rw [Volume.node?_setContent]
    exact h.node
  · rw [Volume.length_contents_setContent]
    exact h.within
  · rw [Volume.content_setContent h.within, if_pos rfl]

/-- A writer appends its record behind the others, and goes on behind its number. -/
theorem append_ok (h : Tracks p n v ws t rs) (i : Nat) (now : UInt64) {lsn : UInt64}
    {op : Operation} (hop : op.Fits) (hsucc : (lsn + 1).toNat = lsn.toNat + 1) :
    ∃ v', Writer.append ⟨n, lsn⟩ now op v = .ok (lsn, ⟨n, lsn + 1⟩) v' ∧
      Tracks p n v' (Function.update ws i (some ⟨n, lsn + 1⟩))
        ⟨lsn.toNat, Function.update t.next i (some (lsn.toNat + 1))⟩
        (rs ++ [⟨lsn, op, now⟩]) := by
  have happend := Writer.append_ok ⟨n, lsn⟩ now hop.loggable v
  dsimp only at happend
  rw [h.content, ← frames_concat] at happend
  have hfits : ∀ r ∈ rs ++ [⟨lsn, op, now⟩], r.Fits := by
    intro r hr
    rcases List.mem_append.mp hr with hold | hnew
    · exact h.fits r hold
    · rw [List.mem_singleton.mp hnew]
      exact fits_record.mpr hop
  have hupdate := (h.refilled _ hfits).update i (some ⟨n, lsn + 1⟩) (some (lsn.toNat + 1))
    (by rw [Option.map_some, Option.map_some, hsucc])
  rw [List.getLast?_concat] at hupdate
  exact ⟨_, happend, hupdate⟩

/-- What is done on the path is what is done to its tally, as long as numbers can be
counted on. -/
theorem run_ok (h : Tracks p n v ws t rs) (hbelow : t.Below k) (a : Act)
    (hfits : a.Fits) (hroom : k + 1 + Act.appended [a] < UInt64.size) :
    ∃ lsns ws' v' rs', a.run p ws v = .ok (lsns, ws') v' ∧
      lsns.map UInt64.toNat = (t.step a).1 ∧ Tracks p n v' ws' (t.step a).2 rs' := by
  cases a with
  | opens i =>
      obtain ⟨fault, hscan, -⟩ := scan_framed (framed_frames h.fits)
      have hopen := Writer.openAt_eq h.node
      rw [h.content, hscan] at hopen
      have hlast := h.last
      have hless := hbelow.last
      refine ⟨[], _, v, rs, by rw [Act.run, bind_ok hopen]; rfl, rfl, h.update i _ _ ?_⟩
      show some (n, (((rs.getLast?.map LogRecord.lsn).getD 0) + 1).toNat) = some (n, t.last + 1)
      rw [toNat_succ (by omega), hlast]
  | appends i now op =>
      have hop : op.Fits := hfits
      rw [Act.run, Tally.step]
      rcases h.writer i with ⟨hnone, hnext⟩ | ⟨lsn, hw, hnext⟩
      · rw [hnone, hnext]
        exact ⟨[], ws, v, rs, rfl, rfl, h⟩
      · rw [hw, hnext]
        have hless := hbelow.next i _ hnext
        have hsucc : (lsn + 1).toNat = lsn.toNat + 1 := by
          refine toNat_succ ?_
          simp only [Act.appended] at hroom
          omega
        obtain ⟨v', happend, htracks⟩ := h.append_ok i now hop hsucc
        refine ⟨[lsn], _, v', _, ?_, rfl, htracks⟩
        show (Writer.append ⟨n, lsn⟩ now op >>= _) v = _
        rw [bind_ok happend]
        rfl
  | syncs i => exact ⟨[], ws, v, rs, rfl, rfl, h⟩
  | truncates i =>
      rw [Act.run, Tally.step]
      rcases h.writer i with ⟨hnone, hnext⟩ | ⟨lsn, hw, hnext⟩
      · rw [hnone, hnext]
        exact ⟨[], ws, v, rs, rfl, rfl, h⟩
      · rw [hw, hnext]
        exact ⟨[], ws, v.setContent n [], [], rfl, rfl,
          h.refilled [] fun r hr => absurd hr List.not_mem_nil⟩
  | drops i => exact ⟨[], _, v, rs, rfl, rfl, h.update i _ _ rfl⟩

/-- So it is with whatever is done. -/
theorem runAll_ok (h : Tracks p n v ws t rs) (hbelow : t.Below k)
    (hfits : ∀ a ∈ acts, a.Fits) (hroom : k + 1 + Act.appended acts < UInt64.size) :
    ∃ lsns v', Act.runAll p acts ws v = .ok lsns v' ∧
      lsns.map UInt64.toNat = t.runAll acts := by
  induction acts generalizing k v ws t rs with
  | nil => exact ⟨[], v, rfl, rfl⟩
  | cons a acts ih =>
      rw [Tally.appended_cons] at hroom
      obtain ⟨lsns, ws', v', rs', hrun, hlsns, htracks⟩ := h.run_ok hbelow a
        (hfits a List.mem_cons_self) (by omega)
      obtain ⟨rest, v'', hrest, hnumbers⟩ := ih htracks (hbelow.step a)
        (fun b hb => hfits b (List.mem_cons_of_mem _ hb)) (by omega)
      refine ⟨lsns ++ rest, v'', ?_, ?_⟩
      · rw [Act.runAll, bind_ok hrun]
        show (Act.runAll p acts ws' >>= _) v' = _
        rw [bind_ok hrest]
        rfl
      · rw [List.map_append, hlsns, hnumbers]
        rfl

end Tracks

/-- A file that is new holds no records. -/
theorem tracks_addFile (v : Volume) (hp : p ≠ []) :
    Tracks p v.contents.length (v.addFile p []) (fun _ => none) ⟨0, fun _ => none⟩ [] := by
  refine ⟨?_, ?_, Volume.content_addFile_self v p [], fun r hr => absurd hr List.not_mem_nil, rfl,
    fun _ => rfl⟩
  · rw [Volume.node?_addFile v hp, if_pos rfl]
  · rw [Volume.length_contents_addFile]
    exact Nat.lt_succ_self _

/-- Numbers grow exactly if whoever appends knows of what was appended last. On a path
without a file, whatever is done through any number of writers, as long as less is
appended than numbers can count and nothing that is not read back: every append is
answered with a number, and these are strictly ascending if each was made by the
writer that had made the one before, or by one that was opened when the record of
that was still in the file, and only then. -/
theorem numbers_grow_iff (hp : p ≠ []) (hparent : v.node? p.dropLast = some .directory)
    (hnone : v.node? p = none) (hpossible : Act.allPossible [] acts = true)
    (hfits : ∀ a ∈ acts, a.Fits) (hcount : Act.appended acts + 1 < UInt64.size) :
    ∃ lsns v', Act.runAll p acts (fun _ => none) v = .ok lsns v' ∧
      lsns.length = Act.appended acts ∧
      (lsns.Pairwise (· < ·) ↔ Act.informed [] acts = true) := by
  have hnumbered : (Tally.mk 0 fun _ => none).Numbered [] :=
    ⟨fun _ => rfl, rfl, fun _ _ hx => nomatch hx⟩
  obtain ⟨lsns, v', hrun, hlsns⟩ : ∃ lsns v', Act.runAll p acts (fun _ => none) v = .ok lsns v' ∧
      lsns.map UInt64.toNat = (Tally.mk 0 fun _ => none).runAll acts := by
    -- nothing can be done before a writer is opened, which makes the file
    cases acts with
    | nil => exact ⟨[], v, rfl, rfl⟩
    | cons a acts =>
        obtain ⟨ha, -⟩ := Bool.and_eq_true_iff.mp hpossible
        cases a with
        | opens i =>
            have hfirst : (Act.opens i).run p (fun _ => none) v = .ok ([],
                Function.update (fun _ => none) i (some ⟨v.contents.length, 1⟩)) (v.addFile p []) := by
              rw [Act.run, bind_ok (Writer.openAt_made hp hparent hnone)]
              rfl
            have hnothing : (Tally.mk 0 fun _ => none).Below 0 :=
              ⟨Nat.le_refl 0, fun _ _ hx => nomatch hx⟩
            have htracks := (tracks_addFile v hp).update i (some ⟨v.contents.length, 1⟩) (some 1) rfl
            obtain ⟨lsns, v', hrun, hlsns⟩ := htracks.runAll_ok (hnothing.step (.opens i))
              (fun b hb => hfits b (List.mem_cons_of_mem _ hb))
              (by rw [Nat.zero_add, Nat.add_comm]; exact hcount)
            refine ⟨lsns, v', ?_, hlsns⟩
            rw [Act.runAll, bind_ok hfirst]
            show (Act.runAll p acts _ >>= _) _ = _
            rw [bind_ok hrun]
            rfl
        | appends | syncs | truncates | drops => cases ha
  refine ⟨lsns, v', hrun, ?_, ?_⟩
  · rw [← hnumbered.held.length_runAll hpossible, ← hlsns, List.length_map]
  · have hgrow := hnumbered.grow_iff hpossible
    rw [← hlsns, Act.appended, List.range'_zero, List.nil_append, List.pairwise_map] at hgrow
    exact hgrow

/-- A log that is emptied by a writer that goes on, and read by two that come after it
and take turns. -/
def informedActs : List Act :=
  [.opens 0, .appends 0 0 (.put [1] [2]), .syncs 0, .truncates 0, .appends 0 1 (.delete [1]),
    .opens 1, .drops 0, .appends 1 2 (.put [3] [4]), .opens 0, .appends 0 3 (.batch [.delete [3]])]

/-- Four numbers are given to what they append, which are strictly ascending. -/
theorem numbers_grow_iff_informedActs :
    ∃ lsns v', Act.runAll ["wal.log"] informedActs (fun _ => none) Volume.empty = .ok lsns v' ∧
      lsns.length = 4 ∧ lsns.Pairwise (· < ·) := by
  obtain ⟨lsns, v', hrun, hlength, hgrow⟩ := numbers_grow_iff (p := ["wal.log"])
    (v := Volume.empty) (by decide) (by decide) (by decide)
    (show Act.allPossible [] informedActs = true by decide) (by decide) (by decide)
  exact ⟨lsns, v', hrun, hlength, hgrow.mpr (by decide)⟩

/-- A log that is emptied, and closed before anything is appended again. -/
def forgetfulActs : List Act :=
  [.opens 0, .appends 0 0 (.put [1] [2]), .truncates 0, .drops 0, .opens 0,
    .appends 0 1 (.put [3] [4])]

/-- The numbers begin again then: the first is given twice. -/
theorem numbers_again :
    Act.allPossible [] forgetfulActs = true ∧ (∀ a ∈ forgetfulActs, a.Fits) ∧
      Act.appended forgetfulActs + 1 < UInt64.size ∧
      ∃ v', Act.runAll ["wal.log"] forgetfulActs (fun _ => none) Volume.empty = .ok [1, 1] v' ∧
        ¬[(1 : UInt64), 1].Pairwise (· < ·) := by
  have hruns : ends (Act.runAll ["wal.log"] forgetfulActs fun _ => none) Volume.empty
      (fun lsns _ => lsns == [1, 1]) = true := by
    decide +kernel
  obtain ⟨lsns, v', hrun, hlsns⟩ := of_ends hruns
  rw [beq_iff_eq.mp hlsns] at hrun
  exact ⟨by decide, by decide, by decide, v', hrun, by decide⟩

end Log

end OrderedStore
