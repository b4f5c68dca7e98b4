/-
The log file as a row of frames.

An operation's serialized form is read back whatever stands behind it. The
induction is on the reader's fuel: an operation takes four bytes at least,
so as many bytes as there are hold as many operations as there are, at
every depth. A record's frame is read back as its record. A frame that was
cut off, at whatever byte, is a fault, so a scan of whole frames and at
most a part of one behind them finds exactly the records of the whole ones.

A scan of a file looks at the front of what is left of it, and finds what it
would find in all the bytes (`scanFile_eq`).
-/
import Mathlib
import OrderedStore.Log.Recovery
import OrderedStore.Proofs.Volume
import OrderedStore.Proofs.Wire

namespace OrderedStore

open Wire

-- ============================================================ operations

namespace Operation

/-- An operation takes four bytes at least. -/
theorem length_serialize_ge (op : Operation) : 4 ≤ op.serialize.length := by
  cases op <;>
    · simp only [serialize, List.length_append, length_word32]
      omega

/-- As many bytes as there are hold as many operations as there are. -/
theorem length_le_serializeAll (ops : List Operation) :
    ops.length ≤ (serializeAll ops).length := by
  induction ops with
  | nil => exact Nat.zero_le _
  | cons op ops ih =>
      have hop := op.length_serialize_ge
      rw [serializeAll, List.length_append, List.length_cons]
      omega

/-- Operations are read back, in order and behind those read before. -/
theorem readOnto_serializeAll {fuel : Nat} {ops : List Operation} (done : List Operation)
    (hfuel : (serializeAll ops).length ≤ fuel)
    (hfit : (serializeAll ops).length < UInt64.size) (rest : Bytes) :
    readOnto fuel ops.length done (serializeAll ops ++ rest)
      = .ok (done.reverse ++ ops, rest) := by
  induction fuel generalizing ops done rest with
  | zero =>
      have hcount := length_le_serializeAll ops
      have hnil : ops = [] := List.length_eq_zero_iff.mp (by omega)
      subst hnil
      rw [List.append_nil]
      rfl
  | succ fuel ih =>
      cases ops with
      | nil =>
          rw [List.append_nil]
          rfl
      | cons op ops =>
          have hop := op.length_serialize_ge
          rw [serializeAll, List.length_append] at hfuel hfit
          rw [List.length_cons, readOnto, serializeAll]
          have hrest : ∀ o : Operation,
              readOnto fuel ops.length (o :: done) (serializeAll ops ++ rest)
                = .ok (done.reverse ++ o :: ops, rest) := by
            intro o
            rw [ih (o :: done) (by omega) (by omega), List.reverse_cons, List.append_assoc,
              List.singleton_append]
          cases op with
          | put key value =>
              simp only [serialize, List.length_append, length_word32, length_blob] at hfit
              simp only [serialize, List.append_assoc]
              rw [readWord32_word32 (by decide), ok_bind]
              show (readBlob (blob key ++ _) >>= _) = _
              rw [readBlob_blob (by omega), ok_bind]
              show (readBlob (blob value ++ _) >>= _) = _
              rw [readBlob_blob (by omega), ok_bind]
              exact hrest (.put key value)
          | delete key =>
              simp only [serialize, List.length_append, length_word32, length_blob] at hfit
              simp only [serialize, List.append_assoc]
              rw [readWord32_word32 (by decide), ok_bind]
              show (readBlob (blob key ++ _) >>= _) = _
              rw [readBlob_blob (by omega), ok_bind]
              exact hrest (.delete key)
          | batch inner =>
              have hcount := length_le_serializeAll inner
              simp only [serialize, List.length_append, length_word32, length_word64]
                at hfit hfuel
              simp only [serialize, List.append_assoc]
              rw [readWord32_word32 (by decide), ok_bind]
              show (readWord64 (word64 inner.length ++ _) >>= _) = _
              rw [readWord64_word64 (by omega), ok_bind]
              show (readOnto fuel inner.length [] (serializeAll inner ++ _) >>= _) = _
              rw [ih [] (by omega) (by omega), ok_bind]
              exact hrest (.batch inner)

/-- An operation is read back. -/
theorem read_serialize {op : Operation} (hfit : op.serialize.length < UInt64.size)
    (rest : Bytes) : read (op.serialize ++ rest) = .ok (op, rest) := by
  have hall : serializeAll [op] = op.serialize := List.append_nil _
  have hread : readOnto ((op.serialize ++ rest).length + 1) 1 [] (op.serialize ++ rest)
      = .ok ([op], rest) := by
    have hone : readOnto ((op.serialize ++ rest).length + 1) [op].length []
        (serializeAll [op] ++ rest) = .ok ([] ++ [op], rest) :=
      readOnto_serializeAll [] (by rw [hall, List.length_append]; omega) (by rwa [hall]) rest
    rwa [hall] at hone
  unfold read
  rw [hread]
  rfl

end Operation

-- ================================================================ frames

namespace LogRecord

/-- A payload has the time behind the operation. -/
@[simp] theorem length_payload (r : LogRecord) :
    r.payload.length = r.operation.serialize.length + 8 := by
  rw [payload, List.length_append, length_word64]

/-- A frame has its header before the payload. -/
@[simp] theorem length_frameOf (lsn : UInt64) (payload : Bytes) :
    (frameOf lsn payload).length = headerSize + payload.length := by
  simp only [frameOf, List.length_append, length_word64, length_word32, headerSize]

/-- The bytes of a frame before its payload. -/
def headerOf (lsn : UInt64) (payload : Bytes) : Bytes :=
  word64 lsn.toNat ++ word32 (checksum lsn payload).toNat ++ word32 payload.length

/-- A frame is its header and its payload. -/
theorem frameOf_eq (lsn : UInt64) (payload : Bytes) :
    frameOf lsn payload = headerOf lsn payload ++ payload := rfl

/-- A header takes sixteen bytes. -/
theorem length_headerOf (lsn : UInt64) (payload : Bytes) :
    (headerOf lsn payload).length = headerSize := by
  simp only [headerOf, List.length_append, length_word64, length_word32, headerSize]

/-- A header is read back from whatever begins with it. -/
theorem readHeader_headerOf {lsn : UInt64} {payload : Bytes}
    (hfit : payload.length < UInt32.size) (rest : Bytes) :
    readHeader (headerOf lsn payload ++ rest)
      = ⟨lsn, checksum lsn payload, payload.length⟩ := by
  have hlsn : (headerOf lsn payload ++ rest).take 8 = word64 lsn.toNat := by
    unfold headerOf
    rw [List.append_assoc, List.append_assoc]
    exact List.take_left' (length_word64 _)
  have hcheck : ((headerOf lsn payload ++ rest).drop 8).take 4
      = word32 (checksum lsn payload).toNat := by
    unfold headerOf
    rw [List.append_assoc, List.append_assoc, List.drop_left' (length_word64 _),
      List.take_left' (length_word32 _)]
  have hlength : ((headerOf lsn payload ++ rest).drop 12).take 4
      = word32 payload.length := by
    unfold headerOf
    rw [List.append_assoc, List.drop_left', List.take_left' (length_word32 _)]
    rw [List.length_append, length_word64, length_word32]
  unfold readHeader
  rw [hlsn, hcheck, hlength]
  unfold word64 word32
  rw [Bytes.ofLittleEndian_eight lsn.toNat_lt, Bytes.ofLittleEndian_four (UInt32.toNat_lt _),
    Bytes.ofLittleEndian_four hfit, UInt64.ofNat_toNat, UInt32.ofNat_toNat]

/-- A header is read back when nothing is behind it. -/
theorem readHeader_alone {lsn : UInt64} {payload : Bytes}
    (hfit : payload.length < UInt32.size) :
    readHeader (headerOf lsn payload) = ⟨lsn, checksum lsn payload, payload.length⟩ := by
  rw [← readHeader_headerOf hfit [], List.append_nil]

/-- A frame says how long it is. -/
theorem frameLength_frameOf {lsn : UInt64} {payload : Bytes}
    (hfit : payload.length < UInt32.size) (rest : Bytes) :
    frameLength (frameOf lsn payload ++ rest) = (frameOf lsn payload).length := by
  unfold frameLength
  rw [frameOf_eq, List.append_assoc, readHeader_headerOf hfit, List.length_append,
    length_headerOf]

/-- A header with its own payload makes the record again. -/
theorem ofPayload_payload {r : LogRecord} (hfit : r.payload.length < UInt32.size) :
    ofPayload ⟨r.lsn, checksum r.lsn r.payload, r.payload.length⟩ r.payload = .ok r := by
  have hop : r.operation.serialize.length < UInt64.size := by
    rw [length_payload] at hfit
    exact lt_trans (by omega : _ < UInt32.size) (by decide)
  have hread : Operation.read r.payload
      = .ok (r.operation, word64 r.timestamp.toNat) :=
    Operation.read_serialize hop _
  have htime : readWord64 (word64 r.timestamp.toNat) = .ok (r.timestamp.toNat, []) := by
    have := readWord64_word64 r.timestamp.toNat_lt []
    rwa [List.append_nil] at this
  unfold ofPayload
  rw [if_neg (fun h => h rfl), hread, ok_bind]
  simp only [htime, ok_bind]
  show Except.ok (⟨r.lsn, r.operation, UInt64.ofNat r.timestamp.toNat⟩ : LogRecord) = _
  rw [UInt64.ofNat_toNat]

/-- The record's own frame. -/
def bytes (r : LogRecord) : Bytes :=
  frameOf r.lsn r.payload

/-- Whether the record is read back: its payload is not longer than is
plausible. -/
def Fits (r : LogRecord) : Prop :=
  r.payload.length ≤ maxPayload

/-- A plausible length fits the header. -/
theorem Fits.lt {r : LogRecord} (h : r.Fits) : r.payload.length < UInt32.size :=
  lt_of_le_of_lt h (by decide)

/-- A frame takes the operation's bytes and twenty-four more. -/
theorem length_bytes (r : LogRecord) :
    r.bytes.length = 24 + r.operation.serialize.length := by
  rw [bytes, length_frameOf, length_payload, headerSize]
  omega

/-- The frame that a file begins with is read, and the rest is left. -/
theorem next_bytes {r : LogRecord} (h : r.Fits) (position : Nat) (rest : Bytes) :
    next position (r.bytes ++ rest) = .ok (some (r, rest)) := by
  have hlong : (r.bytes ++ rest).isEmpty = false := by
    rw [List.isEmpty_eq_false_iff, ← List.length_pos_iff, List.length_append, length_bytes]
    omega
  have hhead : Bytes.split? headerSize (r.bytes ++ rest)
      = some (headerOf r.lsn r.payload, r.payload ++ rest) := by
    rw [bytes, frameOf_eq, List.append_assoc]
    exact Bytes.split?_append (length_headerOf _ _) _
  unfold next
  rw [hlong, if_neg Bool.false_ne_true, hhead]
  simp only [readHeader_alone h.lt]
  rw [if_neg (not_lt.mpr h), Bytes.split?_append rfl]
  simp only [ofPayload_payload h.lt]

/-- A frame that was cut off is a fault. -/
theorem next_torn {r : LogRecord} (h : r.Fits) (position : Nat) {n : Nat}
    (hpos : 0 < n) (hcut : n < r.bytes.length) :
    ∃ e, next position (r.bytes.take n) = .error e := by
  have hlength : (r.bytes.take n).length = n := by
    rw [List.length_take]
    omega
  have hlong : (r.bytes.take n).isEmpty = false := by
    rw [List.isEmpty_eq_false_iff, ← List.length_pos_iff, hlength]
    exact hpos
  unfold next
  rw [hlong, if_neg Bool.false_ne_true]
  by_cases hhead : n < headerSize
  · rw [Bytes.split?_short (by rw [hlength]; exact hhead)]
    exact ⟨_, rfl⟩
  · -- the header is whole, and the payload is not
    have hparts : r.bytes.take n
        = headerOf r.lsn r.payload ++ r.payload.take (n - headerSize) := by
      rw [bytes, frameOf_eq, List.take_append, length_headerOf, List.take_of_length_le]
      rw [length_headerOf]
      omega
    have hshort : (r.payload.take (n - headerSize)).length < r.payload.length := by
      rw [bytes, length_frameOf] at hcut
      rw [List.length_take]
      omega
    rw [hparts, Bytes.split?_append (length_headerOf _ _)]
    simp only [readHeader_alone h.lt]
    rw [if_neg (not_lt.mpr h), Bytes.split?_short hshort]
    exact ⟨_, rfl⟩

-- =================================================== frames in contents

/-- What is behind a header is read as the header says. -/
theorem next_header {head : Bytes} (hhead : head.length = headerSize) (position : Nat)
    (body : Bytes) :
    next position (head ++ body)
      = if maxPayload < (readHeader head).length then
          .error (.implausibleLength (readHeader head).length position)
        else
          (Bytes.split? (readHeader head).length body).elim
            (.error (.payloadCut position body.length (readHeader head).length))
            fun found => (ofPayload (readHeader head) found.1).map fun r => some (r, found.2) := by
  have hlong : (head ++ body).isEmpty = false := by
    rw [List.isEmpty_eq_false_iff, ← List.length_pos_iff, List.length_append, hhead]
    exact Nat.lt_add_right _ (by decide)
  unfold next
  rw [hlong, if_neg Bool.false_ne_true, Bytes.split?_append hhead]
  dsimp only
  split
  · rfl
  · cases Bytes.split? (readHeader head).length body with
    | none => rfl
    | some found =>
        obtain ⟨payload, rest⟩ := found
        dsimp only [Option.elim_some]
        cases ofPayload (readHeader head) payload <;> rfl

/-- The front of a content, by its bytes. -/
theorem front_eq {c : Content} {head body : Bytes} (hbytes : c.toBytes = head ++ body)
    (hhead : head.length = headerSize) :
    front c = head ++ if maxPayload < (readHeader head).length then []
      else body.take (readHeader head).length := by
  have hfirst : c.take headerSize = head := by rw [Content.take_eq, hbytes, List.take_left' hhead]
  have hbehind : ∀ n, (c.drop headerSize).take n = body.take n := by
    intro n
    rw [Content.take_eq, Content.toBytes_drop, hbytes, List.drop_left' hhead]
  unfold front
  simp only [hfirst, hhead, lt_irrefl, if_false, hbehind]
  split
  · exact (List.append_nil _).symm
  · rfl

/-- How long a frame is, is said in its header. -/
theorem frameLength_append {head : Bytes} (hhead : head.length = headerSize) (more : Bytes) :
    frameLength (head ++ more) = frameLength head := by
  have hlong : head.length = 16 := hhead
  have hlength : ((head ++ more).drop 12).take 4 = (head.drop 12).take 4 := by
    rw [List.drop_append, List.take_append, Nat.sub_eq_zero_of_le, List.take_zero, List.append_nil]
    rw [List.length_drop]
    omega
  unfold frameLength readHeader
  rw [hlength]

/-- The next record of a file is the one that its front is read as, and
what is left is what is behind the front. -/
theorem next_front (position : Nat) (c : Content) :
    next position c.toBytes
      = (next position (front c)).map (Option.map fun found =>
          (found.1, (c.drop (frameLength (front c))).toBytes)) ∧
      frameLength (front c) = frameLength c.toBytes := by
  by_cases hshort : c.toBytes.length < headerSize
  · -- the front is all there is, and no record
    have hfront : front c = c.toBytes := by
      have hfirst : c.take headerSize = c.toBytes := by
        rw [Content.take_eq, List.take_of_length_le (Nat.le_of_lt hshort)]
      unfold front
      simp only [hfirst, hshort, if_true, Nat.not_lt_zero, if_false]
      rw [Content.take_eq, List.take_zero, List.append_nil]
    rw [hfront]
    refine ⟨?_, rfl⟩
    unfold next
    rw [Bytes.split?_short hshort]
    split <;> rfl
  · obtain ⟨head, body, hbytes, hhead⟩ : ∃ head body, c.toBytes = head ++ body ∧
        head.length = headerSize :=
      ⟨_, _, (List.take_append_drop headerSize _).symm, by rw [List.length_take]; omega⟩
    rw [Content.toBytes_drop, front_eq hbytes hhead, hbytes, frameLength_append hhead,
      frameLength_append hhead]
    refine ⟨?_, rfl⟩
    rw [next_header hhead, next_header hhead]
    by_cases hlong : maxPayload < (readHeader head).length
    · rw [if_pos hlong, if_pos hlong]
      rfl
    · rw [if_neg hlong, if_neg hlong, if_neg hlong]
      by_cases hcut : body.length < (readHeader head).length
      · rw [List.take_of_length_le (Nat.le_of_lt hcut), Bytes.split?_short hcut]
        rfl
      · obtain ⟨payload, rest, rfl, hpayload⟩ : ∃ payload rest, body = payload ++ rest ∧
            payload.length = (readHeader head).length :=
          ⟨_, _, (List.take_append_drop (readHeader head).length body).symm, by
            rw [List.length_take]; omega⟩
        have halone := Bytes.split?_append hpayload []
        rw [List.append_nil] at halone
        rw [List.take_left' hpayload, Bytes.split?_append hpayload, halone]
        have hframe : (head ++ payload).length = frameLength head := by
          rw [List.length_append, hhead, hpayload]
          rfl
        rw [Option.elim_some, Option.elim_some, ← List.append_assoc, List.drop_left' hframe]
        cases ofPayload (readHeader head) payload <;> rfl

end LogRecord

-- ================================================================= scans

namespace Log

open LogRecord

/-- The file that holds the records. -/
def frames (rs : List LogRecord) : Bytes :=
  rs.flatMap LogRecord.bytes

/-- One more record is one more frame at the end. -/
theorem frames_concat (rs : List LogRecord) (r : LogRecord) :
    frames (rs ++ [r]) = frames rs ++ r.bytes := by
  unfold frames
  rw [List.flatMap_append, List.flatMap_singleton]

/-- As many bytes as there are hold as many records as there are. -/
theorem length_le_frames (rs : List LogRecord) : rs.length ≤ (frames rs).length := by
  induction rs with
  | nil => exact Nat.zero_le _
  | cons r rs ih =>
      unfold frames at ih ⊢
      rw [List.flatMap_cons, List.length_append, length_bytes, List.length_cons]
      omega

/-- The file begins with whole frames; behind them there is at most a part
of one, which was cut off. -/
structure Framed (content : Bytes) (rs : List LogRecord) : Prop where
  fits : ∀ r ∈ rs, r.Fits
  split : ∃ torn, content = frames rs ++ torn ∧
    (torn = [] ∨ ∀ position, ∃ e, LogRecord.next position torn = .error e)

/-- Whole frames are framed. -/
theorem framed_frames {rs : List LogRecord} (h : ∀ r ∈ rs, r.Fits) :
    Framed (frames rs) rs :=
  ⟨h, [], (List.append_nil _).symm, Or.inl rfl⟩

/-- A scan reads through whole frames. -/
theorem scanOnto_frames {rs : List LogRecord} {fuel : Nat} (position : Nat)
    (done : List LogRecord) (torn : Bytes) (hfuel : rs.length ≤ fuel)
    (hfits : ∀ r ∈ rs, r.Fits) :
    scanOnto fuel position done (frames rs ++ torn)
      = scanOnto (fuel - rs.length) (position + (frames rs).length) (rs.reverse ++ done)
          torn := by
  induction rs generalizing fuel position done with
  | nil => rfl
  | cons r rs ih =>
      have hr : r.Fits := hfits r List.mem_cons_self
      obtain ⟨fuel, rfl⟩ : ∃ f, fuel = f + 1 :=
        Nat.exists_eq_succ_of_ne_zero (by rw [List.length_cons] at hfuel; omega)
      have hframes : frames (r :: rs) = r.bytes ++ frames rs := List.flatMap_cons
      rw [hframes, List.append_assoc, scanOnto, next_bytes hr]
      show scanOnto fuel (position + frameLength (frameOf r.lsn r.payload ++ _)) (r :: done)
        (frames rs ++ torn) = _
      rw [frameLength_frameOf hr.lt, ih _ _ (Nat.le_of_succ_le_succ hfuel)
        (fun q hq => hfits q (List.mem_cons_of_mem _ hq)), List.length_cons,
        Nat.add_sub_add_right, List.reverse_cons, List.append_assoc, List.singleton_append,
        List.length_append, Nat.add_assoc]
      rfl

/-- A scan finds the records of the whole frames, and their length. There
is no fault only if there is nothing behind them. -/
theorem scan_framed {content : Bytes} {rs : List LogRecord} (h : Framed content rs) :
    ∃ fault, scan content = ⟨rs, (frames rs).length, fault⟩ ∧
      (fault = none → content = frames rs) := by
  obtain ⟨hfits, torn, rfl, htorn⟩ := h
  have hcount := length_le_frames rs
  obtain ⟨fuel, hfuel⟩ : ∃ f, (frames rs ++ torn).length + 1 - rs.length = f + 1 := by
    refine ⟨(frames rs ++ torn).length - rs.length, ?_⟩
    rw [List.length_append]
    omega
  unfold scan
  rw [scanOnto_frames 0 [] torn (by rw [List.length_append]; omega) hfits, hfuel,
    Nat.zero_add, List.append_nil, scanOnto]
  rcases htorn with rfl | htorn
  · refine ⟨none, ?_, fun _ => List.append_nil _⟩
    show Scan.mk rs.reverse.reverse _ none = _
    rw [List.reverse_reverse]
  · obtain ⟨e, he⟩ := htorn (frames rs).length
    refine ⟨some e, ?_, fun hnone => nomatch hnone⟩
    rw [he]
    show Scan.mk rs.reverse.reverse _ (some e) = _
    rw [List.reverse_reverse]

/-- A file whose last frame was cut off, at whatever byte, holds the
records before it, or that one too if nothing of it is missing. -/
theorem framed_cut {rs : List LogRecord} {r : LogRecord} (hfits : ∀ q ∈ rs, q.Fits)
    (hr : r.Fits) {n : Nat} (hlow : (frames rs).length ≤ n)
    (hcut : n < (frames (rs ++ [r])).length) :
    Framed ((frames (rs ++ [r])).take n) rs := by
  rw [frames_concat, List.length_append] at hcut
  have hparts : (frames (rs ++ [r])).take n
      = frames rs ++ r.bytes.take (n - (frames rs).length) := by
    rw [frames_concat, List.take_append, List.take_of_length_le hlow]
  refine ⟨hfits, _, hparts, ?_⟩
  by_cases hn : n = (frames rs).length
  · left
    rw [hn, Nat.sub_self, List.take_zero]
  · right
    intro position
    exact next_torn hr position (by omega) (by omega)

/-- What is left of a file is scanned as its bytes are. -/
theorem scanFrom_eq (fuel position : Nat) (done : List LogRecord) (c : Content) :
    scanFrom fuel position done c = scanOnto fuel position done c.toBytes := by
  induction fuel generalizing position done c with
  | zero => rfl
  | succ fuel ih =>
      obtain ⟨hfront, hlength⟩ := LogRecord.next_front position c
      rw [scanFrom, scanOnto, hfront, ← hlength]
      match hnext : LogRecord.next position (LogRecord.front c) with
      | .error e => rfl
      | .ok none => rfl
      | .ok (some found) =>
          show scanFrom fuel _ _ _ = scanOnto fuel _ _ _
          rw [ih]

/-- A scan of a file is a scan of its bytes. -/
theorem scanFile_eq (c : Content) : scanFile c = scan c.toBytes := by
  unfold scanFile scan
  rw [scanFrom_eq, Content.length_toBytes]

end Log

end OrderedStore
