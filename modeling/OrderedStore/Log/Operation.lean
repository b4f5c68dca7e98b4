/-
Operations: what the log records and what a batch is made of. Batches may
hold batches; what counts in the end is the row of single writes an
operation comes to, in log order.
-/
import OrderedStore.Bytes

namespace OrderedStore

/-- What a key holds: a value, or the mark of its deletion. -/
inductive Entry where
  | value (bytes : Bytes)
  | tombstone
deriving DecidableEq, Repr, Inhabited

namespace Entry

/-- The value, if there is one. -/
def value? : Entry → Option Bytes
  | .value bs => some bs
  | .tombstone => none

/-- The entry that holds the value, or no value. -/
def ofValue? : Option Bytes → Entry
  | some bs => .value bs
  | none => .tombstone

end Entry

/-- Something to be done to the store. -/
inductive Operation where
  | put (key value : Bytes)
  | delete (key : Bytes)
  | batch (operations : List Operation)
deriving BEq, Repr, Inhabited

namespace Operation

mutual

/-- The single writes the operation comes to, in order. -/
def writes : Operation → List (Bytes × Entry)
  | .put key value => [(key, .value value)]
  | .delete key => [(key, .tombstone)]
  | .batch operations => writesOfAll operations

/-- The single writes that several operations come to, in order. -/
def writesOfAll : List Operation → List (Bytes × Entry)
  | [] => []
  | op :: ops => op.writes ++ writesOfAll ops

end

end Operation

end OrderedStore
