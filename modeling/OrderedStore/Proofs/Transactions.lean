/-
What a transaction does, over every row of moves.

A transaction has four parts, and a flush empties two of them, while a
commit and an abandon empty all. What the parts hold is told here from the
moves alone: the writes since the last flush, commit or abandon
(`gathered`), and the triggers added since the last commit or abandon, each
with the position of the move that added it (`due`). One lemma says what
every move makes of the four parts (`Represents.after`); the rest is about
the row.

That a trigger is run once at most is a fact about positions: what is due
was added behind the last commit or abandon, and what was run was added
before one.

The steps of others are steps of the database in between (`Move.beside`),
and triggers are steps too. What they do is left open.
-/
import Mathlib
import OrderedStore.Proofs.DatabaseSteps

namespace OrderedStore

-- ================================================================== moves

namespace Transaction

variable {ν : Type}

/-- What is done with a transaction, or beside it: a step of the database
that it has no part in. -/
inductive Move (ν : Type) where
  | put (k value : Bytes)
  | delete (k : Bytes)
  | flush
  | commit
  | abandon
  | addTrigger (key : String) (trigger : Trigger ν)
  | addAnonymousTrigger (trigger : Trigger ν)
  | afterCommit (key : String) (trigger : Trigger ν)
  | beside (step : DbM Unit)

namespace Move

/-- Carries the move out. Answers the transaction as it is then, and the
notices that were left. -/
def run (t : Transaction ν) : Move ν → DbM (Transaction ν × List (Notice ν))
  | put k value => return (t.put k value, [])
  | delete k => return (t.delete k, [])
  | flush => return (← t.flush, [])
  | commit => t.commit
  | abandon => return (t.abandon, [])
  | addTrigger key trigger => return (t.addTrigger key trigger, [])
  | addAnonymousTrigger trigger => return (t.addAnonymousTrigger trigger, [])
  | afterCommit key trigger => do
      match ← (WriteM.afterCommit key trigger).runOn (.transaction t) with
      | (_, .transaction t, notices) => return (t, notices)
      | (_, .database, notices) => return (t, notices)
  | beside step => do
      step
      return (t, [])

/-- The write that the move is. -/
def write? : Move ν → Option (Bytes × Entry)
  | put k value => some (k, .value value)
  | delete k => some (k, .tombstone)
  | _ => none

/-- The trigger that the move adds, with its key if it has one. -/
def adds? : Move ν → Option (Option Bytes × Trigger ν)
  | addTrigger key trigger => some (some (Text.toBytes key), trigger)
  | afterCommit key trigger => some (some (Text.toBytes key), trigger)
  | addAnonymousTrigger trigger => some (none, trigger)
  | _ => none

/-- Whether no write is left after the move. -/
def settles : Move ν → Bool
  | flush | commit | abandon => true
  | _ => false

/-- Whether no trigger is left after the move. -/
def clears : Move ν → Bool
  | commit | abandon => true
  | _ => false

/-- Whether the move runs what is due. -/
def commits : Move ν → Bool
  | commit => true
  | _ => false

/-- Whether the move may touch the database. -/
def reaches : Move ν → Bool
  | flush | commit | beside _ => true
  | _ => false

end Move

/-- The moves were carried out one after the other, from an empty transaction
over the store `s₀`, and led to the transaction and the store. -/
inductive Played (s₀ : Store) : List (Move ν) → Transaction ν → Store → Prop where
  | start : Played s₀ [] empty s₀
  | move {ms : List (Move ν)} {t t' : Transaction ν} {s s' : Store} {m : Move ν}
      {notices : List (Notice ν)} (hms : Played s₀ ms t s)
      (hm : m.run t s = .ok (t', notices) s') : Played s₀ (ms ++ [m]) t' s'

-- ================================================= what the moves come to

/-- The moves behind the last that stops, with their positions in the row. -/
def since (stop : Move ν → Bool) (ms : List (Move ν)) : List (Move ν × Nat) :=
  ms.zipIdx.rtakeWhile fun m => !stop m.1

/-- The writes since the last flush, commit or abandon. -/
def gathered (ms : List (Move ν)) : List (Bytes × Entry) :=
  (since Move.settles ms).filterMap fun m => m.1.write?

/-- The last of them for each key, in the order of the keys. -/
def lastGathered (ms : List (Move ν)) : KeyMap Entry :=
  KeyMap.ofList (gathered ms)

/-- The operations that they stand for. -/
def batch (ms : List (Move ν)) : List Operation :=
  (lastGathered ms).entries.map operation

/-- A trigger under a key, with the key and the position. -/
def keyed? (m : Move ν × Nat) : Option (Bytes × Nat × Trigger ν) :=
  match m.1.adds? with
  | some (some key, trigger) => some (key, m.2, trigger)
  | _ => none

/-- A trigger without a key, with the position. -/
def anonymous? (m : Move ν × Nat) : Option (Nat × Trigger ν) :=
  match m.1.adds? with
  | some (none, trigger) => some (m.2, trigger)
  | _ => none

/-- The last trigger under each key that was added since the last commit or
abandon. -/
def dueKeyed (ms : List (Move ν)) : KeyMap (Nat × Trigger ν) :=
  KeyMap.ofList ((since Move.clears ms).filterMap keyed?)

/-- The triggers without a key that were. -/
def dueAnonymous (ms : List (Move ν)) : List (Nat × Trigger ν) :=
  (since Move.clears ms).filterMap anonymous?

/-- What is to be run on a commit: the keyed triggers in the order of their
keys, and then the others in the order they were added. -/
def due (ms : List (Move ν)) : List (Nat × Trigger ν) :=
  (dueKeyed ms).entries.map Prod.snd ++ dueAnonymous ms

/-- The positions of the triggers that the commits of a row have run. -/
def ran (ms : List (Move ν)) : List Nat :=
  ms.zipIdx.flatMap fun m => if m.1.commits then (due (ms.take m.2)).map Prod.fst else []

variable {ms : List (Move ν)} {m : Move ν} {stop : Move ν → Bool} {t t' : Transaction ν}
  {s₀ s s' : Store} {notices : List (Notice ν)}

/-- A move that stops leaves nothing, and another is one more. -/
theorem since_concat (stop : Move ν → Bool) (ms : List (Move ν)) (m : Move ν) :
    since stop (ms ++ [m]) = if stop m then [] else since stop ms ++ [(m, ms.length)] := by
  have hzip : (ms ++ [m]).zipIdx = ms.zipIdx ++ [(m, ms.length)] := by
    rw [List.zipIdx_append, Nat.zero_add, List.zipIdx_singleton]
  unfold since
  rw [hzip, List.rtakeWhile_concat]
  cases stop m <;> rfl

/-- A move of a longer row is one of the row, or the new one. -/
theorem getElem?_concat_iff {last : Move ν} {i : Nat} :
    (ms ++ [last])[i]? = some m ↔ ms[i]? = some m ∨ i = ms.length ∧ last = m := by
  rw [List.getElem?_append, List.getElem?_singleton]
  split
  · next hlt =>
      constructor
      · exact Or.inl
      · rintro (h | ⟨heq, -⟩)
        · exact h
        · omega
  · next hge =>
      rw [List.getElem?_eq_none (by omega)]
      constructor
      · intro h
        split at h
        · next hzero =>
            cases h
            exact Or.inr ⟨by omega, rfl⟩
        · cases h
      · rintro (h | ⟨rfl, rfl⟩)
        · cases h
        · rw [Nat.sub_self, if_pos rfl]

/-- The row is not stopped from the position on. -/
def GoesOn (stop : Move ν → Bool) (ms : List (Move ν)) (i : Nat) : Prop :=
  ∀ j m, i ≤ j → ms[j]? = some m → stop m = false

/-- A longer row goes on if the row does, and the new move does not stop
it. -/
theorem goesOn_concat {last : Move ν} {i : Nat} : GoesOn stop (ms ++ [last]) i ↔
    GoesOn stop ms i ∧ (i ≤ ms.length → stop last = false) := by
  constructor
  · intro h
    exact ⟨fun j m hij hj => h j m hij (getElem?_concat_iff.mpr (Or.inl hj)),
      fun hi => h ms.length last hi (getElem?_concat_iff.mpr (Or.inr ⟨rfl, rfl⟩))⟩
  · rintro ⟨hgo, hlast⟩ j m hij hj
    rcases getElem?_concat_iff.mp hj with hj | ⟨rfl, rfl⟩
    · exact hgo j m hij hj
    · exact hlast hij

/-- What is behind the last move that stops, by positions. -/
theorem mem_since {i : Nat} : (m, i) ∈ since stop ms ↔ ms[i]? = some m ∧ GoesOn stop ms i := by
  induction ms using List.reverseRecOn with
  | nil => exact ⟨fun h => absurd h List.not_mem_nil, fun h => nomatch h.1⟩
  | append_singleton ms last ih =>
      have hle (h : (ms ++ [last])[i]? = some m) : i ≤ ms.length := by
        have := (List.getElem?_eq_some_iff.mp h).1
        rw [List.length_append, List.length_singleton] at this
        omega
      rw [since_concat, goesOn_concat]
      split
      · next hstop =>
          constructor
          · intro h
            cases h
          · rintro ⟨hi, -, hlast⟩
            rw [hlast (hle hi)] at hstop
            cases hstop
      · next hstop =>
          rw [List.mem_append, List.mem_singleton, ih, Prod.mk.injEq]
          constructor
          · rintro (⟨hi, hgo⟩ | ⟨rfl, rfl⟩)
            · exact ⟨getElem?_concat_iff.mpr (Or.inl hi), hgo, fun _ => Bool.not_eq_true _ ▸ hstop⟩
            · refine ⟨getElem?_concat_iff.mpr (Or.inr ⟨rfl, rfl⟩), fun j m' hj hm' => ?_,
                fun _ => Bool.not_eq_true _ ▸ hstop⟩
              have := (List.getElem?_eq_some_iff.mp hm').1
              omega
          · rintro ⟨hi, hgo, -⟩
            rcases getElem?_concat_iff.mp hi with hi | ⟨rfl, rfl⟩
            · exact Or.inl ⟨hi, hgo⟩
            · exact Or.inr ⟨rfl, rfl⟩

/-- The positions go up. -/
theorem pairwise_since (stop : Move ν → Bool) (ms : List (Move ν)) :
    (since stop ms).Pairwise fun m n => m.2 < n.2 := by
  induction ms using List.reverseRecOn with
  | nil => exact List.Pairwise.nil
  | append_singleton ms last ih =>
      rw [since_concat]
      split
      · exact List.Pairwise.nil
      · refine List.pairwise_append.mpr ⟨ih, List.pairwise_singleton _ _, ?_⟩
        rintro ⟨m, i⟩ hm n hn
        rw [List.mem_singleton.mp hn]
        exact (List.getElem?_eq_some_iff.mp (mem_since.mp hm).1).1

-- ============================================================== what is due

/-- A pair more, in a map of pairs. -/
theorem ofList_concat {α : Type} (ps : List (Bytes × α)) (p : Bytes × α) :
    KeyMap.ofList (ps ++ [p]) = (KeyMap.ofList ps).insert p.1 p.2 := by
  unfold KeyMap.ofList
  rw [List.foldl_append]
  rfl

/-- What a move makes of the writes gathered. -/
theorem gathered_concat (ms : List (Move ν)) (m : Move ν) :
    gathered (ms ++ [m]) = if m.settles then [] else gathered ms ++ m.write?.toList := by
  unfold gathered
  rw [since_concat]
  cases m.settles with
  | true => rfl
  | false =>
      rw [if_neg Bool.false_ne_true, if_neg Bool.false_ne_true, List.filterMap_append]
      cases hwrite : m.write? <;> simp [hwrite]

/-- What a move makes of the keyed triggers. -/
theorem dueKeyed_concat (ms : List (Move ν)) (m : Move ν) :
    dueKeyed (ms ++ [m]) = if m.clears then KeyMap.empty else
      match m.adds? with
      | some (some key, trigger) => (dueKeyed ms).insert key (ms.length, trigger)
      | _ => dueKeyed ms := by
  unfold dueKeyed
  rw [since_concat]
  cases m.clears with
  | true => rfl
  | false =>
      rw [if_neg Bool.false_ne_true, if_neg Bool.false_ne_true, List.filterMap_append]
      match hadds : m.adds? with
      | some (some key, trigger) =>
          have hone : [(m, ms.length)].filterMap keyed? = [(key, ms.length, trigger)] := by
            simp [keyed?, hadds]
          rw [hone, ofList_concat]
      | some (none, trigger) => simp [keyed?, hadds]
      | none => simp [keyed?, hadds]

/-- What a move makes of the others. -/
theorem dueAnonymous_concat (ms : List (Move ν)) (m : Move ν) :
    dueAnonymous (ms ++ [m]) = if m.clears then [] else
      match m.adds? with
      | some (none, trigger) => dueAnonymous ms ++ [(ms.length, trigger)]
      | _ => dueAnonymous ms := by
  unfold dueAnonymous
  rw [since_concat]
  cases m.clears with
  | true => rfl
  | false =>
      rw [if_neg Bool.false_ne_true, if_neg Bool.false_ne_true, List.filterMap_append]
      match hadds : m.adds? with
      | some (some key, trigger) => simp [anonymous?, hadds]
      | some (none, trigger) => simp [anonymous?, hadds]
      | none => simp [anonymous?, hadds]

/-- The move at the position added the trigger, under the key if there is
one. -/
def Added (ms : List (Move ν)) (i : Nat) (key? : Option Bytes) (trigger : Trigger ν) : Prop :=
  ∃ m, ms[i]? = some m ∧ m.adds? = some (key?, trigger)

variable {i : Nat} {key? : Option Bytes} {key : Bytes} {trigger : Trigger ν}

/-- It is one of the row. -/
theorem Added.lt (h : Added ms i key? trigger) : i < ms.length := by
  obtain ⟨m, hm, -⟩ := h
  exact (List.getElem?_eq_some_iff.mp hm).1

/-- A trigger of a longer row is one of the row, or the new one. -/
theorem added_concat : Added (ms ++ [m]) i key? trigger ↔
    Added ms i key? trigger ∨ i = ms.length ∧ m.adds? = some (key?, trigger) := by
  unfold Added
  constructor
  · rintro ⟨n, hn, hadds⟩
    rcases getElem?_concat_iff.mp hn with hn | ⟨rfl, rfl⟩
    · exact Or.inl ⟨n, hn, hadds⟩
    · exact Or.inr ⟨rfl, hadds⟩
  · rintro (⟨n, hn, hadds⟩ | ⟨rfl, hadds⟩)
    · exact ⟨n, getElem?_concat_iff.mpr (Or.inl hn), hadds⟩
    · exact ⟨m, getElem?_concat_iff.mpr (Or.inr ⟨rfl, rfl⟩), hadds⟩

/-- The trigger under the key waits: no commit or abandon came behind it, and
no other trigger under the key. -/
structure WaitsUnder (ms : List (Move ν)) (key : Bytes) (i : Nat) (trigger : Trigger ν) :
    Prop where
  added : Added ms i (some key) trigger
  goesOn : GoesOn Move.clears ms i
  last : ∀ j other, i < j → ¬Added ms j (some key) other

/-- It waits on if the move clears nothing and adds nothing under the key. -/
theorem WaitsUnder.concat_iff (hclears : m.clears = false)
    (hadds : ∀ other, m.adds? ≠ some (some key, other)) :
    WaitsUnder (ms ++ [m]) key i trigger ↔ WaitsUnder ms key i trigger := by
  constructor
  · rintro ⟨hadded, hgo, hlast⟩
    refine ⟨?_, (goesOn_concat.mp hgo).1, fun j other hij hj =>
      hlast j other hij (added_concat.mpr (Or.inl hj))⟩
    rcases added_concat.mp hadded with hadded | ⟨-, h⟩
    · exact hadded
    · exact absurd h (hadds trigger)
  · rintro ⟨hadded, hgo, hlast⟩
    refine ⟨added_concat.mpr (Or.inl hadded), goesOn_concat.mpr ⟨hgo, fun _ => hclears⟩,
      fun j other hij hj => ?_⟩
    rcases added_concat.mp hj with hj | ⟨-, h⟩
    · exact hlast j other hij hj
    · exact hadds other h

/-- A move that adds a trigger under the key takes the place of the others. -/
theorem WaitsUnder.concat_added_iff {new : Trigger ν} (hclears : m.clears = false)
    (hadds : m.adds? = some (some key, new)) :
    WaitsUnder (ms ++ [m]) key i trigger ↔ i = ms.length ∧ trigger = new := by
  constructor
  · rintro ⟨hadded, -, hlast⟩
    rcases added_concat.mp hadded with hadded | ⟨hi, h⟩
    · exact absurd (added_concat.mpr (Or.inr ⟨rfl, hadds⟩)) (hlast _ new hadded.lt)
    · rw [hadds] at h
      cases h
      exact ⟨hi, rfl⟩
  · rintro ⟨rfl, rfl⟩
    refine ⟨added_concat.mpr (Or.inr ⟨rfl, hadds⟩), goesOn_concat.mpr ⟨?_, fun _ => hclears⟩,
      fun j other hj hother => ?_⟩
    · intro j n hj hn
      have := (List.getElem?_eq_some_iff.mp hn).1
      omega
    · have := hother.lt
      rw [List.length_append, List.length_singleton] at this
      omega

/-- The keyed triggers that are due are those that wait under their keys. -/
theorem find?_dueKeyed :
    (dueKeyed ms).find? key = some (i, trigger) ↔ WaitsUnder ms key i trigger := by
  induction ms using List.reverseRecOn with
  | nil =>
      constructor
      · intro h
        cases h
      · intro h
        exact absurd h.added.lt (Nat.not_lt_zero i)
  | append_singleton ms m ih =>
      rw [dueKeyed_concat]
      cases hclears : m.clears with
      | true =>
          rw [if_pos rfl]
          constructor
          · intro h
            cases h
          · intro h
            have hi := h.added.lt
            rw [List.length_append, List.length_singleton] at hi
            have := (goesOn_concat.mp h.goesOn).2 (by omega)
            rw [hclears] at this
            cases this
      | false =>
          rw [if_neg Bool.false_ne_true]
          split
          · next key' new hadds =>
              rw [KeyMap.find?_insert]
              split
              · next hkey =>
                  subst hkey
                  rw [WaitsUnder.concat_added_iff hclears hadds, Option.some.injEq,
                    Prod.mk.injEq, eq_comm, @eq_comm _ new]
              · next hkey =>
                  rw [WaitsUnder.concat_iff hclears, ih]
                  intro other h
                  rw [hadds] at h
                  cases h
                  exact hkey rfl
          · next hadds =>
              rw [WaitsUnder.concat_iff hclears fun other h => hadds key other h, ih]

/-- The others that are due are those with no commit or abandon behind
them. -/
theorem mem_dueAnonymous :
    (i, trigger) ∈ dueAnonymous ms ↔ Added ms i none trigger ∧ GoesOn Move.clears ms i := by
  unfold dueAnonymous Added
  rw [List.mem_filterMap]
  constructor
  · rintro ⟨⟨m, j⟩, hm, hone⟩
    obtain ⟨hm, hgo⟩ := mem_since.mp hm
    unfold anonymous? at hone
    split at hone
    · next trigger' hadds =>
        cases hone
        exact ⟨⟨m, hm, hadds⟩, hgo⟩
    · cases hone
  · rintro ⟨⟨m, hm, hadds⟩, hgo⟩
    refine ⟨(m, i), mem_since.mpr ⟨hm, hgo⟩, ?_⟩
    unfold anonymous?
    rw [hadds]

/-- They are due in the order they were added. -/
theorem pairwise_dueAnonymous (ms : List (Move ν)) :
    (dueAnonymous ms).Pairwise fun p q => p.1 < q.1 := by
  refine List.pairwise_filterMap.mpr ((pairwise_since Move.clears ms).imp ?_)
  rintro ⟨m, i⟩ ⟨n, j⟩ hij p hp q hq
  unfold anonymous? at hp hq
  split at hp
  · split at hq
    · cases hp
      cases hq
      exact hij
    · cases hq
  · cases hp

/-- What is due: the triggers that no commit or abandon came behind; under
each key the last one. -/
theorem mem_due : (i, trigger) ∈ due ms ↔
    (∃ key, WaitsUnder ms key i trigger) ∨
      Added ms i none trigger ∧ GoesOn Move.clears ms i := by
  unfold due
  rw [List.mem_append, mem_dueAnonymous, List.mem_map]
  refine or_congr_left ⟨?_, ?_⟩
  · rintro ⟨⟨key, p⟩, hp, rfl⟩
    exact ⟨key, find?_dueKeyed.mp (KeyMap.mem_entries.mp hp)⟩
  · rintro ⟨key, h⟩
    exact ⟨(key, i, trigger), KeyMap.mem_entries.mpr (find?_dueKeyed.mpr h), rfl⟩

/-- What is due was added, and no commit or abandon came behind it. -/
theorem added_of_mem_due (h : (i, trigger) ∈ due ms) :
    (∃ key?, Added ms i key? trigger) ∧ GoesOn Move.clears ms i := by
  rcases mem_due.mp h with ⟨key, h⟩ | ⟨hadded, hgo⟩
  · exact ⟨⟨_, h.added⟩, h.goesOn⟩
  · exact ⟨⟨_, hadded⟩, hgo⟩

/-- One move adds one trigger. -/
theorem Added.unique {key?' : Option Bytes} {other : Trigger ν} (h : Added ms i key? trigger)
    (h' : Added ms i key?' other) : key? = key?' ∧ trigger = other := by
  obtain ⟨m, hm, hadds⟩ := h
  obtain ⟨m', hm', hadds'⟩ := h'
  rw [hm] at hm'
  cases hm'
  rw [hadds] at hadds'
  cases hadds'
  exact ⟨rfl, rfl⟩

/-- Nothing is due twice. -/
theorem nodup_due (ms : List (Move ν)) : ((due ms).map Prod.fst).Nodup := by
  have hkeyed {p : Bytes × Nat × Trigger ν} (hp : p ∈ (dueKeyed ms).entries) :
      WaitsUnder ms p.1 p.2.1 p.2.2 :=
    find?_dueKeyed.mp (KeyMap.mem_entries.mp hp)
  unfold due
  rw [List.map_append, List.map_map]
  refine List.nodup_append.mpr ⟨?_, ?_, ?_⟩
  · refine List.Nodup.map_on (fun p hp q hq hpq => ?_) (KeyMap.nodup_entries _)
    obtain ⟨key, i, trigger⟩ := p
    obtain ⟨key', j, trigger'⟩ := q
    obtain rfl : i = j := hpq
    obtain ⟨hkey, htrigger⟩ := (hkeyed hp).added.unique (hkeyed hq).added
    cases hkey
    subst htrigger
    rfl
  · exact (List.pairwise_map.mpr (pairwise_dueAnonymous ms)).imp Nat.ne_of_lt
  · intro i hi j hj hij
    subst hij
    obtain ⟨p, hp, rfl⟩ := List.mem_map.mp hi
    obtain ⟨q, hq, heq⟩ := List.mem_map.mp hj
    obtain ⟨j, trigger⟩ := q
    obtain rfl : j = p.2.1 := heq
    cases ((hkeyed hp).added.unique (mem_dueAnonymous.mp hq).1).1

-- =============================================================== what was run

/-- Only a commit runs what is due. -/
theorem ran_concat (ms : List (Move ν)) (m : Move ν) :
    ran (ms ++ [m]) = ran ms ++ if m.commits then (due ms).map Prod.fst else [] := by
  unfold ran
  rw [List.zipIdx_append, List.flatMap_append, Nat.zero_add, List.zipIdx_singleton,
    List.flatMap_singleton, List.take_left]
  congr 1
  refine List.flatMap_congr fun n hn => ?_
  have hlt : n.2 < ms.length := by
    have := List.snd_lt_of_mem_zipIdx hn
    omega
  rw [List.take_append_of_le_length (Nat.le_of_lt hlt)]

/-- What was run was added before a commit. -/
theorem commit_of_mem_ran (h : i ∈ ran ms) : ¬GoesOn Move.clears ms i := by
  induction ms using List.reverseRecOn with
  | nil => cases h
  | append_singleton ms m ih =>
      rw [ran_concat, List.mem_append] at h
      intro hgo
      obtain ⟨hgo, hm⟩ := goesOn_concat.mp hgo
      rcases h with h | h
      · exact ih h hgo
      · split at h
        · next hcommits =>
            obtain ⟨⟨j, trigger⟩, hdue, rfl⟩ := List.mem_map.mp h
            obtain ⟨⟨key?, hadded⟩, -⟩ := added_of_mem_due hdue
            have hclears : m.clears = false := hm (Nat.le_of_lt hadded.lt)
            cases m with
            | commit => exact Bool.noConfusion hclears
            | _ => cases hcommits
        · cases h

/-- What is due was not run. -/
theorem not_mem_ran (h : i ∈ (due ms).map Prod.fst) : i ∉ ran ms := by
  obtain ⟨⟨j, trigger⟩, hdue, rfl⟩ := List.mem_map.mp h
  exact fun hran => commit_of_mem_ran hran (added_of_mem_due hdue).2

/-- Nothing was run twice, and nothing that was run is due. -/
theorem nodup_ran (ms : List (Move ν)) : (ran ms ++ (due ms).map Prod.fst).Nodup := by
  have hran : (ran ms).Nodup := by
    induction ms using List.reverseRecOn with
    | nil => exact List.nodup_nil
    | append_singleton ms m ih =>
        rw [ran_concat]
        split
        · exact List.nodup_append'.mpr ⟨ih, nodup_due ms, fun i hi hj => not_mem_ran hj hi⟩
        · rw [List.append_nil]
          exact ih
  exact List.nodup_append'.mpr ⟨hran, nodup_due ms, fun i hi hj => not_mem_ran hj hi⟩

-- ======================================================== the transaction

/-- What the four parts of a transaction hold, told from the moves. -/
structure Represents (ms : List (Move ν)) (t : Transaction ν) : Prop where
  pending : t.pending = lastGathered ms
  mutations : t.mutations = (gathered ms).length
  keyed : t.keyed = (dueKeyed ms).countWith fun p => some p.2
  anonymous : t.anonymous = (dueAnonymous ms).map Prod.snd

/-- An empty transaction is one with which nothing was done. -/
theorem represents_empty : Represents [] (empty : Transaction ν) :=
  ⟨rfl, rfl, rfl, rfl⟩

/-- The triggers of the transaction are those that are due, in their
order. -/
theorem Represents.triggers (h : Represents ms t) : t.triggers = (due ms).map Prod.snd := by
  have hkeyed : t.keyed.entries.map Prod.snd
      = ((dueKeyed ms).entries.map Prod.snd).map Prod.snd := by
    rw [h.keyed]
    unfold KeyMap.countWith
    simp
  unfold Transaction.triggers due
  rw [hkeyed, h.anonymous, List.map_append]

/-- The transaction after the move. -/
def Move.after (t : Transaction ν) : Move ν → Transaction ν
  | .put k value => t.put k value
  | .delete k => t.delete k
  | .flush => { t with pending := KeyMap.empty, mutations := 0 }
  | .commit => empty
  | .abandon => empty
  | .addTrigger key trigger => t.addTrigger key trigger
  | .addAnonymousTrigger trigger => t.addAnonymousTrigger trigger
  | .afterCommit key trigger => t.addTrigger key trigger
  | .beside _ => t

/-- Flushing, by what is done to the database. -/
theorem run_flush (t : Transaction ν) : Move.flush.run t = (do
    Database.writeBatch (t.pending.entries.map operation)
    return (Move.flush.after t, [])) := by
  simp only [Move.run, flush, bind_assoc, pure_bind]
  rfl

/-- Committing, by what is done to the database. -/
theorem run_commit (t : Transaction ν) : Move.commit.run t = (do
    Database.writeBatch (t.pending.entries.map operation)
    let notices ← t.triggers.mapM id
    return (Move.commit.after t, notices)) := by
  simp only [Move.run, commit, flush, bind_assoc, pure_bind]
  rfl

/-- A move that is carried out leaves that transaction. -/
theorem Move.eq_after (h : m.run t s = .ok (t', notices) s') : t' = m.after t := by
  cases m with
  | flush =>
      rw [run_flush] at h
      obtain ⟨u, s₁, -, hrest⟩ := of_bind_ok h
      cases hrest
      rfl
  | commit =>
      rw [run_commit] at h
      obtain ⟨u, s₁, -, hrest⟩ := of_bind_ok h
      obtain ⟨left, s₂, -, hrest⟩ := of_bind_ok hrest
      cases hrest
      rfl
  | beside step =>
      obtain ⟨u, s₁, -, hrest⟩ := of_bind_ok h
      cases hrest
      rfl
  | _ =>
    cases h
    rfl

/-- A trigger more, in what is told of the triggers. -/
theorem countWith_insert (m : KeyMap (Nat × Trigger ν)) (key : Bytes) (i : Nat)
    (trigger : Trigger ν) : (m.insert key (i, trigger)).countWith (fun p => some p.2)
      = (m.countWith fun p => some p.2).insert key trigger := by
  refine KeyMap.ext_find? fun l => ?_
  rw [KeyMap.find?_countWith, KeyMap.find?_insert, KeyMap.find?_insert, KeyMap.find?_countWith]
  split <;> rfl

/-- A write is gathered, and counted. -/
theorem Represents.buffer (h : Represents ms t) {w : Bytes × Entry} (hwrite : m.write? = some w)
    (hsettles : m.settles = false) (hclears : m.clears = false) (hadds : m.adds? = none) :
    Represents (ms ++ [m]) (t.buffer w.1 w.2) := by
  have hgathered : gathered (ms ++ [m]) = gathered ms ++ [w] := by
    rw [gathered_concat, hsettles, hwrite]
    rfl
  refine ⟨?_, ?_, ?_, ?_⟩
  · unfold lastGathered
    rw [hgathered, ofList_concat]
    show t.pending.insert w.1 w.2 = _
    rw [h.pending, lastGathered]
  · rw [hgathered, List.length_append]
    show t.mutations + 1 = _
    rw [h.mutations, List.length_singleton]
  · rw [dueKeyed_concat, hclears, hadds]
    exact h.keyed
  · rw [dueAnonymous_concat, hclears, hadds]
    exact h.anonymous

/-- A trigger is added under a key, or takes the place of one. -/
theorem Represents.addTrigger (h : Represents ms t) {name : String}
    (hadds : m.adds? = some (some (Text.toBytes name), trigger)) (hwrite : m.write? = none)
    (hsettles : m.settles = false) (hclears : m.clears = false) :
    Represents (ms ++ [m]) (t.addTrigger name trigger) := by
  have hgathered : gathered (ms ++ [m]) = gathered ms := by
    rw [gathered_concat, hsettles, hwrite]
    exact List.append_nil _
  refine ⟨?_, ?_, ?_, ?_⟩
  · unfold lastGathered
    rw [hgathered]
    exact h.pending
  · rw [hgathered]
    exact h.mutations
  · rw [dueKeyed_concat, hclears, hadds]
    show t.keyed.insert _ trigger = ((dueKeyed ms).insert _ (ms.length, trigger)).countWith _
    rw [countWith_insert, h.keyed]
  · rw [dueAnonymous_concat, hclears, hadds]
    exact h.anonymous

/-- Nothing is left when the transaction is at its end. -/
theorem represents_cleared (ms : List (Move ν)) (hsettles : m.settles = true)
    (hclears : m.clears = true) : Represents (ms ++ [m]) (empty : Transaction ν) := by
  have hgathered : gathered (ms ++ [m]) = [] := by
    rw [gathered_concat, hsettles]
    rfl
  refine ⟨?_, ?_, ?_, ?_⟩
  · unfold lastGathered
    rw [hgathered]
    rfl
  · rw [hgathered]
    rfl
  · rw [dueKeyed_concat, hclears]
    rfl
  · rw [dueAnonymous_concat, hclears]
    rfl

/-- What is told of the moves is what the transaction holds after each of
them. -/
theorem Represents.after (h : Represents ms t) (m : Move ν) :
    Represents (ms ++ [m]) (m.after t) := by
  have hgathered := gathered_concat ms m
  have hkeyed := dueKeyed_concat ms m
  have hothers := dueAnonymous_concat ms m
  cases m with
  | put k value => exact h.buffer (w := (k, .value value)) rfl rfl rfl rfl
  | delete k => exact h.buffer (w := (k, .tombstone)) rfl rfl rfl rfl
  | addTrigger name trigger => exact h.addTrigger rfl rfl rfl rfl
  | afterCommit name trigger => exact h.addTrigger rfl rfl rfl rfl
  | commit => exact represents_cleared ms rfl rfl
  | abandon => exact represents_cleared ms rfl rfl
  | flush =>
      have hgathered : gathered (ms ++ [Move.flush]) = [] := hgathered
      refine ⟨?_, ?_, ?_, ?_⟩
      · unfold lastGathered
        rw [hgathered]
        rfl
      · rw [hgathered]
        rfl
      · rw [hkeyed]
        exact h.keyed
      · rw [hothers]
        exact h.anonymous
  | addAnonymousTrigger trigger =>
      have hgathered : gathered (ms ++ [.addAnonymousTrigger trigger]) = gathered ms :=
        hgathered.trans (List.append_nil _)
      refine ⟨?_, ?_, ?_, ?_⟩
      · unfold lastGathered
        rw [hgathered]
        exact h.pending
      · rw [hgathered]
        exact h.mutations
      · rw [hkeyed]
        exact h.keyed
      · have hothers : dueAnonymous (ms ++ [.addAnonymousTrigger trigger])
            = dueAnonymous ms ++ [(ms.length, trigger)] := hothers
        rw [hothers, List.map_append]
        show t.anonymous ++ [trigger] = _
        rw [h.anonymous]
        rfl
  | beside step =>
      have hgathered : gathered (ms ++ [.beside step]) = gathered ms :=
        hgathered.trans (List.append_nil _)
      refine ⟨?_, ?_, ?_, ?_⟩
      · unfold lastGathered
        rw [hgathered]
        exact h.pending
      · rw [hgathered]
        exact h.mutations
      · rw [hkeyed]
        exact h.keyed
      · rw [hothers]
        exact h.anonymous

/-- So it is after every row of moves. -/
theorem Played.represents (h : Played s₀ ms t s) : Represents ms t := by
  induction h with
  | start => exact represents_empty
  | move hms hm ih =>
      rw [Move.eq_after hm]
      exact ih.after _

end Transaction

end OrderedStore
