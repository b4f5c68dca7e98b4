/-
The one encoding of a record.

What is written is read back; here the readers are read the other way. What
a reader accepts is what the writer writes for its answer, and behind it
what the reader leaves. The facts have the shape of the readers: a number
has one string of digits, a byte string has its length in front, and a
batch says how many operations it holds, so by induction on the reader's
fuel a row of operations is accepted only from its serialized form
(`of_readOnto`), at every depth.

There are two places in a frame that no one looks at: the bytes of a payload
behind the time, which the checksum covers but nobody decodes, and the bytes
behind the frame. Apart from them a record has one encoding
(`ofFrame_eq_ok_iff`).
-/
import Mathlib
import OrderedStore.Proofs.LogRecovery

namespace OrderedStore

namespace Wire

-- ================================================================ readers

variable {n : Nat} {input bs rest : Bytes}

/-- Bytes are read off a string that begins with them. -/
theorem readBytes_eq_ok_iff :
    readBytes n input = .ok (bs, rest) ↔ bs.length = n ∧ input = bs ++ rest := by
  constructor
  · intro h
    unfold readBytes at h
    split at h
    · next p hsplit =>
        cases h
        obtain ⟨hinput, hlength⟩ := Bytes.eq_append_of_split? hsplit
        exact ⟨hlength, hinput⟩
    · cases h
  · rintro ⟨hlength, rfl⟩
    exact readBytes_append hlength rest

/-- A number of four digits is read off its digits only. -/
theorem readWord32_eq_ok_iff :
    readWord32 input = .ok (n, rest) ↔ n < UInt32.size ∧ input = word32 n ++ rest := by
  constructor
  · intro h
    obtain ⟨⟨digits, behind⟩, hdigits, h⟩ := of_ok_bind h
    cases h
    obtain ⟨hlength, hinput⟩ := readBytes_eq_ok_iff.mp hdigits
    have hlt := Bytes.ofLittleEndian_lt digits
    rw [hlength, show 256 ^ 4 = UInt32.size by decide] at hlt
    refine ⟨hlt, ?_⟩
    rw [word32, Bytes.littleEndian_ofLittleEndian hlength, hinput]
  · rintro ⟨hlt, rfl⟩
    exact readWord32_word32 hlt rest

/-- A number of eight digits is read off its digits only. -/
theorem readWord64_eq_ok_iff :
    readWord64 input = .ok (n, rest) ↔ n < UInt64.size ∧ input = word64 n ++ rest := by
  constructor
  · intro h
    obtain ⟨⟨digits, behind⟩, hdigits, h⟩ := of_ok_bind h
    cases h
    obtain ⟨hlength, hinput⟩ := readBytes_eq_ok_iff.mp hdigits
    have hlt := Bytes.ofLittleEndian_lt digits
    rw [hlength, show 256 ^ 8 = UInt64.size by decide] at hlt
    refine ⟨hlt, ?_⟩
    rw [word64, Bytes.littleEndian_ofLittleEndian hlength, hinput]
  · rintro ⟨hlt, rfl⟩
    exact readWord64_word64 hlt rest

/-- A byte string is read off its length and its bytes only. -/
theorem readBlob_eq_ok_iff :
    readBlob input = .ok (bs, rest) ↔ bs.length < UInt64.size ∧ input = blob bs ++ rest := by
  constructor
  · intro h
    obtain ⟨⟨length, behind⟩, hlength, h⟩ := of_ok_bind h
    obtain ⟨hlt, hinput⟩ := readWord64_eq_ok_iff.mp hlength
    obtain ⟨rfl, hbehind⟩ := readBytes_eq_ok_iff.mp h
    refine ⟨hlt, ?_⟩
    rw [hinput, hbehind, blob, List.append_assoc]
  · rintro ⟨hlt, rfl⟩
    exact readBlob_blob hlt rest

end Wire

-- ============================================================ operations

namespace Operation

open Wire

variable {input rest payload ignored : Bytes} {op : Operation}

/-- Operations are read off their serialized forms only, one behind the
other, and as many as were asked for. -/
theorem of_readOnto {fuel count : Nat} {done ops : List Operation}
    (h : readOnto fuel count done input = .ok (ops, rest)) :
    ∃ new, ops = done.reverse ++ new ∧ new.length = count ∧
      input = serializeAll new ++ rest := by
  induction fuel generalizing count done input ops rest with
  | zero =>
      cases count with
      | zero =>
          cases h
          exact ⟨[], (List.append_nil _).symm, rfl, rfl⟩
      | succ count => cases h
  | succ fuel ih =>
      cases count with
      | zero =>
          cases h
          exact ⟨[], (List.append_nil _).symm, rfl, rfl⟩
      | succ count =>
          rw [readOnto] at h
          obtain ⟨⟨tag, behind⟩, htag, hgo⟩ := of_ok_bind h
          clear h
          obtain ⟨-, rfl⟩ := readWord32_eq_ok_iff.mp htag
          -- one operation was read, and the others are read behind it
          have hnext {first : Operation} {left : Bytes}
              (hfirst : word32 tag ++ behind = first.serialize ++ left)
              (hleft : readOnto fuel count (first :: done) left = .ok (ops, rest)) :
              ∃ new, ops = done.reverse ++ new ∧ new.length = count + 1 ∧
                word32 tag ++ behind = serializeAll new ++ rest := by
            obtain ⟨new, hops, hcount, hnew⟩ := ih hleft
            refine ⟨first :: new, ?_, ?_, ?_⟩
            · rw [hops, List.reverse_cons, List.append_assoc, List.singleton_append]
            · rw [List.length_cons, hcount]
            · rw [hfirst, hnew, serializeAll, List.append_assoc]
          dsimp only at hgo
          split at hgo
          · obtain ⟨⟨key, left⟩, hkey, hgo⟩ := of_ok_bind hgo
            obtain ⟨⟨value, left'⟩, hvalue, hgo⟩ := of_ok_bind hgo
            have hkey : behind = blob key ++ left := (readBlob_eq_ok_iff.mp hkey).2
            have hvalue : left = blob value ++ left' := (readBlob_eq_ok_iff.mp hvalue).2
            refine hnext ?_ hgo
            rw [hkey, hvalue]
            simp only [serialize, List.append_assoc]
          · obtain ⟨⟨key, left⟩, hkey, hgo⟩ := of_ok_bind hgo
            have hkey : behind = blob key ++ left := (readBlob_eq_ok_iff.mp hkey).2
            refine hnext ?_ hgo
            rw [hkey]
            simp only [serialize, List.append_assoc]
          · obtain ⟨⟨inner, left⟩, hinner, hgo⟩ := of_ok_bind hgo
            obtain ⟨⟨held, left'⟩, hheld, hgo⟩ := of_ok_bind hgo
            have hinner : behind = word64 inner ++ left := (readWord64_eq_ok_iff.mp hinner).2
            obtain ⟨new, hnew, hcount, hleft⟩ := ih hheld
            have hcount : new.length = inner := hcount
            have hleft : left = serializeAll new ++ left' := hleft
            have hnew : held = new := hnew
            subst hnew
            refine hnext ?_ hgo
            rw [hinner, hleft, ← hcount]
            simp only [serialize, List.append_assoc]
          · cases hgo

/-- An operation is read off its serialized form only. -/
theorem of_read (h : read input = .ok (op, rest)) : input = op.serialize ++ rest := by
  unfold read at h
  obtain ⟨⟨ops, behind⟩, hread, h⟩ := of_ok_bind h
  obtain ⟨new, hops, hcount, hinput⟩ := of_readOnto hread
  rw [List.reverse_nil, List.nil_append] at hops
  subst hops
  match ops, hcount with
  | [first], _ =>
      cases h
      rw [hinput, serializeAll, serializeAll, List.append_nil]

end Operation

-- ================================================================ records

namespace LogRecord

open Wire

variable {payload input : Bytes} {op : Operation} {timestamp : UInt64} {r : LogRecord}

/-- A payload that fits a frame decodes exactly if it begins with the
operation and the time in serialized form. -/
theorem decodes_iff (hfit : payload.length < UInt32.size) :
    Decodes payload op timestamp ↔
      ∃ ignored, payload = op.serialize ++ word64 timestamp.toNat ++ ignored := by
  constructor
  · rintro ⟨behind, time, ignored, hop, htime, rfl⟩
    obtain ⟨hlt, rfl⟩ := readWord64_eq_ok_iff.mp htime
    refine ⟨ignored, ?_⟩
    rw [Operation.of_read hop, UInt64.toNat_ofNat', Nat.mod_eq_of_lt hlt, List.append_assoc]
  · rintro ⟨ignored, rfl⟩
    simp only [List.length_append] at hfit
    have hop : op.serialize.length < UInt64.size :=
      lt_trans (by omega : _ < UInt32.size) (by decide)
    refine ⟨word64 timestamp.toNat ++ ignored, timestamp.toNat, ignored, ?_,
      readWord64_word64 timestamp.toNat_lt ignored, UInt64.ofNat_toNat.symm⟩
    rw [List.append_assoc]
    exact Operation.read_serialize hop _

/-- No header names a length that does not fit its four bytes. -/
theorem readHeader_length_lt (input : Bytes) : (readHeader input).length < UInt32.size := by
  have hdigits : ((input.drop 12).take 4).length ≤ 4 := List.length_take_le _ _
  exact lt_of_lt_of_le (Bytes.ofLittleEndian_lt _) (Nat.pow_le_pow_right (by decide) hdigits)

/-- Three numbers of a header are read off a header of their digits. -/
theorem eq_headerOf {head : Bytes} (hhead : head.length = headerSize)
    (hlength : payload.length = (readHeader head).length)
    (hcheck : checksum (readHeader head).lsn payload = (readHeader head).checksum) :
    head = headerOf (readHeader head).lsn payload := by
  have hsixteen : head.length = 16 := hhead
  have hlsn : (head.take 8).length = 8 := by
    rw [List.length_take]
    omega
  have hsum : ((head.drop 8).take 4).length = 4 := by
    rw [List.length_take, List.length_drop]
    omega
  have hsize : ((head.drop 12).take 4).length = 4 := by
    rw [List.length_take, List.length_drop]
    omega
  have hbelow : Bytes.ofLittleEndian (head.take 8) < UInt64.size := by
    have := Bytes.ofLittleEndian_lt (head.take 8)
    rwa [hlsn] at this
  have hbelow' : Bytes.ofLittleEndian ((head.drop 8).take 4) < UInt32.size := by
    have := Bytes.ofLittleEndian_lt ((head.drop 8).take 4)
    rwa [hsum] at this
  have hparts : head.take 8 ++ (head.drop 8).take 4 ++ (head.drop 12).take 4 = head := by
    have hback : (head.drop 12).take 4 = head.drop 12 := by
      refine List.take_of_length_le ?_
      rw [List.length_drop]
      omega
    have hmiddle : (head.drop 8).take 4 ++ head.drop 12 = head.drop 8 := by
      have := List.take_append_drop 4 (head.drop 8)
      rwa [List.drop_drop] at this
    rw [hback, List.append_assoc, hmiddle, List.take_append_drop]
  unfold headerOf
  rw [hcheck, hlength]
  unfold readHeader word64 word32
  dsimp only
  rw [UInt64.toNat_ofNat', UInt32.toNat_ofNat', Nat.mod_eq_of_lt hbelow,
    Nat.mod_eq_of_lt hbelow', Bytes.littleEndian_ofLittleEndian hlsn,
    Bytes.littleEndian_ofLittleEndian hsum, Bytes.littleEndian_ofLittleEndian hsize, hparts]

/-- The payload that a frame says it has: as many bytes behind the header as
the header names. -/
def framed (input : Bytes) : Bytes :=
  (input.drop headerSize).take (readHeader input).length

/-- A frame has the payload that it was made around, whatever is behind
it. -/
theorem framed_frameOf {lsn : UInt64} (hfit : payload.length < UInt32.size) (tail : Bytes) :
    framed (frameOf lsn payload ++ tail) = payload := by
  unfold framed
  rw [frameOf_eq, List.append_assoc, readHeader_headerOf hfit,
    List.drop_left' (length_headerOf lsn payload), List.take_left' rfl]

/-- Bytes are accepted as a record exactly if they begin with a frame around
the record's payload, with any bytes behind it in the frame, and any behind
the frame. -/
theorem ofFrame_eq_ok_iff : ofFrame input = .ok r ↔
    ∃ ignored tail, (r.payload ++ ignored).length < UInt32.size ∧
      input = frameOf r.lsn (r.payload ++ ignored) ++ tail := by
  constructor
  · intro h
    unfold ofFrame at h
    split at h
    · cases h
    · next head body hhead =>
        dsimp only at h
        split at h
        · cases h
        · next payload tail hpayload =>
            obtain ⟨hinput, hsize⟩ := Bytes.eq_append_of_split? hhead
            obtain ⟨hbody, hlength⟩ := Bytes.eq_append_of_split? hpayload
            obtain ⟨hcheck, hdecodes, hlsn⟩ := ofPayload_eq_ok_iff.mp h
            have hfit : payload.length < UInt32.size := by
              rw [hlength]
              exact readHeader_length_lt head
            obtain ⟨ignored, hwhole⟩ := (decodes_iff hfit).mp hdecodes
            have hwhole : payload = r.payload ++ ignored := hwhole
            refine ⟨ignored, tail, ?_, ?_⟩
            · rwa [← hwhole]
            · rw [← hwhole, hlsn, frameOf_eq, ← eq_headerOf hsize hlength hcheck, hinput, hbody,
                List.append_assoc]
  · rintro ⟨ignored, tail, hfit, rfl⟩
    have hsplit := Bytes.split?_append (length_headerOf r.lsn (r.payload ++ ignored))
      (r.payload ++ ignored ++ tail)
    unfold ofFrame
    rw [frameOf_eq, List.append_assoc, hsplit]
    dsimp only
    rw [readHeader_alone hfit, Bytes.split?_append rfl]
    exact ofPayload_eq_ok_iff.mpr ⟨rfl, (decodes_iff hfit).mpr ⟨ignored, rfl⟩, rfl⟩

/-- A record whose payload fits a frame is framed, and read back from its
frame with anything behind it. Whatever bytes are accepted as a record, the
record's number is the one in their header, and it is framed in turn, with
a payload that the payload framed in the bytes begins with; so the bytes
are the one frame that there is for the record and the ignored bytes of the
payload, and what is behind the frame. -/
theorem one_encoding :
    (∀ r : LogRecord, r.payload.length < UInt32.size →
      ∃ bytes, r.frame = .ok bytes ∧ ∀ tail, ofFrame (bytes ++ tail) = .ok r) ∧
    (∀ (input : Bytes) (r : LogRecord), ofFrame input = .ok r →
      r.lsn = (readHeader input).lsn ∧
      ∃ bytes, r.frame = .ok bytes ∧ framed bytes <+: framed input) ∧
    ∀ (input : Bytes) (r : LogRecord), ofFrame input = .ok r ↔
      ∃ ignored tail, (r.payload ++ ignored).length < UInt32.size ∧
        input = frameOf r.lsn (r.payload ++ ignored) ++ tail := by
  have hframe {r : LogRecord} (hfit : r.payload.length < UInt32.size) : r.frame = .ok r.bytes := by
    unfold frame
    rw [if_neg (not_le.mpr hfit)]
    rfl
  refine ⟨fun r hfit => ⟨r.bytes, hframe hfit, fun tail => ?_⟩, fun input r h => ?_,
    fun input r => ofFrame_eq_ok_iff⟩
  · refine ofFrame_eq_ok_iff.mpr ⟨[], tail, ?_, ?_⟩
    · rwa [List.append_nil]
    · rw [List.append_nil, bytes]
  · obtain ⟨ignored, tail, hfit, rfl⟩ := ofFrame_eq_ok_iff.mp h
    have hown : r.payload.length < UInt32.size := by
      rw [List.length_append] at hfit
      omega
    refine ⟨?_, r.bytes, hframe hown, ?_⟩
    · rw [frameOf_eq, List.append_assoc, readHeader_headerOf hfit]
    · have hbytes : framed r.bytes = r.payload := by
        have hown : framed (frameOf r.lsn r.payload ++ []) = r.payload :=
          framed_frameOf hown []
        rwa [List.append_nil] at hown
      rw [framed_frameOf hfit, hbytes]
      exact List.prefix_append r.payload ignored

/-- A batch in a batch, and a value. -/
def nestedRecord : LogRecord :=
  ⟨7, .batch [.batch [.delete [1]], .put [] [2]], 5⟩

/-- It is read back from its frame with a byte behind it, and from the frame
around its payload and a byte that is ignored. -/
theorem one_encoding_nestedRecord :
    nestedRecord.payload.length < UInt32.size ∧
      (∃ bytes, nestedRecord.frame = .ok bytes ∧ ofFrame (bytes ++ [9]) = .ok nestedRecord) ∧
      ofFrame (frameOf 7 (nestedRecord.payload ++ [0])) = .ok nestedRecord := by
  have hfit : nestedRecord.payload.length < UInt32.size := by decide
  obtain ⟨hback, -, haccepted⟩ := one_encoding
  obtain ⟨bytes, hframe, hread⟩ := hback nestedRecord hfit
  refine ⟨hfit, ⟨bytes, hframe, hread [9]⟩, (haccepted _ _).mpr ⟨[0], [], by decide, ?_⟩⟩
  rw [List.append_nil]
  rfl

end LogRecord

end OrderedStore
