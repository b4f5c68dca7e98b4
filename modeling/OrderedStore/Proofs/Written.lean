/-
How much was written to a store.

Memtables keep every version of every key, and a store keeps its memtables,
so what was written in a session can be measured at its end: `written`
counts the bytes of keys and values, and 64 more for each write. It never
goes down, and an operation of single writes that is applied adds to it at
least what is logged of it. So as long as what was written is less than
eight digits count, so is what was logged.
-/
import Mathlib
import OrderedStore.Proofs.StoreSteps

namespace OrderedStore

-- ============================================================== memtables

namespace Memtable

/-- What writes take. -/
def cost (ws : List (Bytes × Entry)) : Nat :=
  (ws.map fun w => weight w.1 w.2 + 64).sum

/-- How many versions there are. -/
def count (m : Memtable) : Nat :=
  (m.versions.entries.map fun p => p.2.length).sum

/-- What was written to the memtable, with 64 bytes for each write. -/
def bulk (m : Memtable) : Nat :=
  m.size + 64 * m.count

/-- A longer chain in the place of the one that was there. -/
theorem sum_insertSorted {α : Type} (k : Bytes) (v : α) {xs : List (Bytes × List α)}
    (hs : xs.Pairwise fun a b => a.1 < b.1) :
    ((insertSorted k (v :: (xs.lookup k).getD []) xs).map fun p => p.2.length).sum
      = (xs.map fun p => p.2.length).sum + 1 := by
  induction xs with
  | nil => rfl
  | cons x xs ih =>
      obtain ⟨l, chain⟩ := x
      obtain ⟨hl, hxs⟩ := List.pairwise_cons.mp hs
      rw [lookup_pair, insertSorted]
      by_cases hlt : k < l
      · have hnone : xs.lookup k = none := by
          rw [List.lookup_eq_none_iff]
          intro p hp
          have hne : k ≠ p.1 := fun heq => by
            have := List.lt_trans hlt (hl p hp)
            rw [heq] at this
            exact List.lt_irrefl _ this
          simpa using hne
        have hne : k ≠ l := fun heq => List.lt_irrefl _ (heq ▸ hlt)
        rw [if_pos hlt, if_neg hne, hnone]
        simp only [List.map_cons, List.sum_cons, Option.getD_none, List.length_cons,
          List.length_nil]
        omega
      · rw [if_neg hlt]
        by_cases hgt : l < k
        · have hne : k ≠ l := fun heq => List.lt_irrefl _ (heq ▸ hgt)
          rw [if_pos hgt, if_neg hne, List.map_cons, List.sum_cons, ih hxs]
          simp only [List.map_cons, List.sum_cons]
          omega
        · have heq : k = l := List.le_antisymm (List.not_lt.mp hgt) (List.not_lt.mp hlt)
          rw [if_neg hgt, if_pos heq]
          simp only [List.map_cons, List.sum_cons, Option.getD_some, List.length_cons]
          omega

/-- A write takes its weight, and 64 bytes. -/
theorem bulk_write (m : Memtable) (q : UInt64) (k : Bytes) (e : Entry) :
    (m.write q k e).bulk = m.bulk + (weight k e + 64) := by
  have hcount : (m.write q k e).count = m.count + 1 :=
    sum_insertSorted k (q, e) m.versions.sorted
  unfold bulk
  rw [hcount]
  show m.size + weight k e + 64 * (m.count + 1) = _
  omega

/-- Several writes take what each takes. -/
theorem bulk_writeAll (ws : List (Bytes × Entry)) (m : Memtable) (q : UInt64) :
    (m.writeAll q ws).bulk = m.bulk + cost ws := by
  induction ws generalizing m with
  | nil => rfl
  | cons w ws ih =>
      show ((m.write q w.1 w.2).writeAll q ws).bulk = _
      rw [ih, bulk_write]
      unfold cost
      rw [List.map_cons, List.sum_cons]
      omega

end Memtable

-- ============================================================= operations

namespace Operation

/-- A single write. -/
def Single : Operation → Prop
  | .put _ _ => True
  | .delete _ => True
  | .batch _ => False

/-- A single write, or a batch of single writes. -/
def Flat : Operation → Prop
  | .put _ _ => True
  | .delete _ => True
  | .batch ops => ops ≠ [] ∧ ∀ op ∈ ops, op.Single

/-- A single write is one. -/
theorem Single.flat {op : Operation} (h : op.Single) : op.Flat := by
  cases op with
  | put key value => trivial
  | delete key => trivial
  | batch ops => exact h.elim

/-- What is logged of single writes is less than they take. -/
theorem length_serializeAll_le {ops : List Operation} (h : ∀ op ∈ ops, op.Single) :
    (serializeAll ops).length + 44 * ops.length ≤ Memtable.cost (writesOfAll ops) := by
  induction ops with
  | nil => exact Nat.le_refl _
  | cons op ops ih =>
      have hrest := ih fun op hop => h op (List.mem_cons_of_mem _ hop)
      have hop := h op List.mem_cons_self
      rw [serializeAll, writesOfAll, List.length_append, List.length_cons]
      cases op with
      | put key value =>
          have hcost : Memtable.cost ((Operation.put key value).writes ++ writesOfAll ops)
              = key.length + value.length + 64 + Memtable.cost (writesOfAll ops) := rfl
          rw [hcost, serialize]
          simp only [List.length_append, Wire.length_word32, Wire.length_blob]
          omega
      | delete key =>
          have hcost : Memtable.cost ((Operation.delete key).writes ++ writesOfAll ops)
              = key.length + 0 + 64 + Memtable.cost (writesOfAll ops) := rfl
          rw [hcost, serialize]
          simp only [List.length_append, Wire.length_word32, Wire.length_blob]
          omega
      | batch ops => exact hop.elim

/-- So is what is logged of an operation of single writes. -/
theorem logged_le_cost {op : Operation} (h : op.Flat) :
    logged [op] ≤ Memtable.cost op.writes := by
  rw [logged_singleton]
  have hone {op : Operation} (hop : op.Single) :
      24 + op.serialize.length ≤ Memtable.cost op.writes := by
    have hall : ∀ p ∈ [op], p.Single := fun p hp => by
      rw [List.mem_singleton.mp hp]
      exact hop
    have := length_serializeAll_le hall
    rw [serializeAll_singleton, writesOfAll_singleton, List.length_singleton] at this
    omega
  cases op with
  | put key value => exact hone trivial
  | delete key => exact hone trivial
  | batch ops =>
      obtain ⟨hne, hops⟩ := h
      have hall := length_serializeAll_le hops
      have hpos := List.length_pos_of_ne_nil hne
      rw [writes, serialize]
      simp only [List.length_append, Wire.length_word32, Wire.length_word64]
      omega

end Operation

-- ================================================================= stores

namespace Store

variable {dir : Path} {spare : Nat} {s s' : Store} {ops : List Operation} {ids : List UInt64}
  {op : Operation}

/-- What was written to the store's memtables. -/
def written (s : Store) : Nat :=
  (s.memtables.map Memtable.bulk).sum

/-- One memtable in the place of another. -/
theorem sum_bulk_set (ms : List Memtable) {i : Nat} (hi : i < ms.length) (m : Memtable) :
    ((ms.set i m).map Memtable.bulk).sum + (ms[i]).bulk
      = (ms.map Memtable.bulk).sum + m.bulk := by
  induction ms generalizing i with
  | nil => cases hi
  | cons n ms ih =>
      cases i with
      | zero =>
          simp only [List.set_cons_zero, List.map_cons, List.sum_cons, List.getElem_cons_zero]
          omega
      | succ i =>
          have hrest := ih (Nat.lt_of_succ_lt_succ hi)
          simp only [List.set_cons_succ, List.map_cons, List.sum_cons, List.getElem_cons_succ]
          omega

/-- An empty memtable adds nothing to what was written. -/
theorem sum_bulk_concat_empty (ms : List Memtable) :
    ((ms ++ [Memtable.empty]).map Memtable.bulk).sum = (ms.map Memtable.bulk).sum := by
  rw [List.map_append, List.sum_append]
  rfl

/-- A flush writes nothing to memtables. -/
theorem written_flush (h : flush s = .ok () s') : s'.written = s.written := by
  rcases of_flush_ok h with rfl | ⟨s₁, hturn, htruncate⟩
  · rfl
  · obtain ⟨catalog, v, -, rfl⟩ := of_turnOver_ok hturn
    obtain ⟨v', -, rfl⟩ := Disk.of_onStore_ok htruncate
    exact sum_bulk_concat_empty s.memtables

/-- What is recorded is written to the memtable there is. -/
theorem written_recorded (s : Store) (op : Operation) :
    s.written ≤ (s.recorded op).written ∧
      (s.engine.memtable < s.memtables.length →
        (s.recorded op).written = s.written + Memtable.cost op.writes) := by
  have hset : (s.recorded op).memtables = s.memtables.set s.engine.memtable
      (s.current.writeAll (s.engine.lastSeq + 1) op.writes) := rfl
  by_cases hin : s.engine.memtable < s.memtables.length
  · have hcurrent : s.current = s.memtables[s.engine.memtable] :=
      List.getD_eq_getElem _ _ hin
    have hsum : (s.recorded op).written = s.written + Memtable.cost op.writes := by
      have hbulk := sum_bulk_set s.memtables hin
        (s.current.writeAll (s.engine.lastSeq + 1) op.writes)
      rw [Memtable.bulk_writeAll, hcurrent] at hbulk
      unfold written
      rw [hset, hcurrent]
      omega
    exact ⟨by omega, fun _ => hsum⟩
  · have hsame : (s.recorded op).written = s.written := by
      unfold written
      rw [hset, List.set_eq_of_length_le (by omega)]
    exact ⟨by omega, fun h => absurd h hin⟩

/-- What an operation that is applied adds to what was written. -/
theorem written_apply (h : apply op s = .ok () s') :
    s.written ≤ s'.written ∧
      (s.engine.memtable < s.memtables.length →
        s'.written = s.written + Memtable.cost op.writes) := by
  have hsame : s'.written = (s.recorded op).written := by
    rcases of_apply_ok h with rfl | hflush
    · rfl
    · exact written_flush hflush
  rw [hsame]
  exact written_recorded s op

end Store

end OrderedStore
