/-
The sweep: bringing the counts of the lexicon up to date.

Whatever changes the postings of a token marks it. A sweep takes the marks
a batch at a time. It counts the postings of a marked token on a snapshot,
and then, in one step, takes the mark away and writes the count, unless the
mark has changed since: then the token is left for the next pass. It ends
when there are no marks.
-/
import OrderedStore.Index.Search
import OrderedStore.Transaction

namespace OrderedStore

namespace IndexKeys

/-- What is written for a marked token when its postings have been counted:
nothing if the mark is no longer the one that was met. -/
def refreshed (ks : IndexKeys) (mark stamp : Bytes) (token : UInt64) (count : UInt64)
    (mem : Memory) (w : View) : Except Failure (List Operation × Bool) := do
  if (← w.get mem mark) ≠ some stamp then return ([], false)
  match ← w.get mem (ks.reverse token) with
  | none => return ([.delete mark], false)
  | some lexiconKey =>
    match ← w.get mem lexiconKey with
    | none => return ([.delete mark], false)
    | some bytes =>
      let e := match LexiconEntry.decode bytes with
        | .ok e => e
        | .error _ => ⟨token, 0⟩
      if e.count ≠ count ∨ e.token ≠ token then
        return ([.delete mark, .put lexiconKey (LexiconEntry.encode ⟨token, count⟩)], true)
      else return ([.delete mark], true)

/-- Brings the count of one marked token up to date. A mark that names no
token is taken away. Answers whether the token was counted. -/
def refresh (ks : IndexKeys) (snapshot : View) (mark stamp : Bytes) : DbM Bool := do
  match ks.parseMark? mark with
  | none =>
    Database.delete mark
    return false
  | some token =>
    let count ← Database.reading fun mem => ks.countPostings mem (.pinned snapshot) token
    Database.readModifyWrite (ks.refreshed mark stamp token (UInt64.ofNat count))

/-- Brings the counts of several marked tokens up to date. Answers how many
were counted. -/
def refreshAll (ks : IndexKeys) (snapshot : View) : List (Bytes × Bytes) → DbM Nat
  | [] => return 0
  | (mark, stamp) :: rest => do
    let counted ← ks.refresh snapshot mark stamp
    return (if counted then 1 else 0) + (← refreshAll ks snapshot rest)

/-- The first marks on a view, at most `batch` of them. -/
def marked (ks : IndexKeys) (mem : Memory) (w : View) (batch : Nat) :
    Except Failure (List (Bytes × Bytes)) := do
  let r := ReadView.pinned w
  let c ← r.cursorAt mem ks.marks
  r.takeFrom mem ks.marks.isPrefixOf batch c

/-- At most `fuel` passes over the marks, as long as there are any. -/
def sweepFrom (ks : IndexKeys) (batch : Nat) : Nat → DbM Nat
  | 0 => return 0
  | fuel + 1 => do
    let snapshot ← Database.snapshot
    let marks ← Database.reading fun mem => ks.marked mem snapshot batch
    if marks.isEmpty then return 0
    let counted ← ks.refreshAll snapshot marks
    return counted + (← sweepFrom ks batch fuel)

/-- Sweeps until there are no marks. A pass takes the first mark away, and
at most puts another value in place of a mark, so twice as many passes as
there are pairs are enough. -/
def sweep (ks : IndexKeys) (batch : Nat) : DbM Nat := do
  let snapshot ← Database.snapshot
  sweepFrom ks (max batch 1) (2 * snapshot.extent (← get).toMemory + 2)

end IndexKeys

end OrderedStore
