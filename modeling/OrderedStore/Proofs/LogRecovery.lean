/-
Recovery of any file.

What is a frame is said here without the reader (`Acceptable`): a whole
header, a plausible length, as many bytes of payload, the check value over
number and payload, and a payload that decodes. `FramesOf` is a row of
them. The reader takes off the front of a file exactly what is a frame
(`next_eq_some_iff_acceptable`), so what a scan takes is a row of frames,
and each row of frames that a file begins with is taken.

A frame says in its own bytes where it ends. That is why there is one
longest row (`Taken.longest`): of two rows that a file begins with, one is
the beginning of the other, and the row of a scan, behind which there is no
frame, is not the shorter one. Recovery answers its records and cuts the
file off behind it, so a second recovery finds the same row with nothing
behind it.
-/
import Mathlib
import OrderedStore.Proofs.Appending
import OrderedStore.Proofs.Checksum

namespace OrderedStore

namespace LogRecord

-- ======================================================= acceptable frames

/-- The payload begins with the operation and the time in serialized
form. -/
def Decodes (payload : Bytes) (op : Operation) (timestamp : UInt64) : Prop :=
  ∃ behind time rest, Operation.read payload = .ok (op, behind) ∧
    Wire.readWord64 behind = .ok (time, rest) ∧ timestamp = UInt64.ofNat time

/-- A header and a payload that are accepted as the record. -/
structure Acceptable (head payload : Bytes) (r : LogRecord) : Prop where
  complete : head.length = headerSize
  bounded : (readHeader head).length ≤ maxPayload
  whole : payload.length = (readHeader head).length
  checked : Checksum.ofBytes (head.take 8 ++ payload) = (readHeader head).checksum
  decodes : Decodes payload r.operation r.timestamp
  numbered : r.lsn = (readHeader head).lsn

/-- Frames one behind the other, and their records. -/
inductive FramesOf : Bytes → List LogRecord → Prop where
  | nil : FramesOf [] []
  | cons {head payload bs : Bytes} {r : LogRecord} {rs : List LogRecord}
      (hframe : Acceptable head payload r) (hrest : FramesOf bs rs) :
      FramesOf (head ++ (payload ++ bs)) (r :: rs)

variable {head payload input rest : Bytes} {h : Header} {r : LogRecord} {position : Nat}

/-- A header's payload makes a record if it passes the check and
decodes. -/
theorem ofPayload_eq_ok_iff : ofPayload h payload = .ok r ↔
    checksum h.lsn payload = h.checksum ∧ Decodes payload r.operation r.timestamp ∧
      r.lsn = h.lsn := by
  unfold ofPayload Decodes
  by_cases hcheck : checksum h.lsn payload = h.checksum
  · rw [if_neg (not_not.mpr hcheck)]
    constructor
    · intro hr
      split at hr
      · next op time hread =>
          cases hr
          obtain ⟨⟨op', behind⟩, hop, hread⟩ := of_ok_bind hread
          obtain ⟨⟨time', behind'⟩, htime, hread⟩ := of_ok_bind hread
          cases hread
          exact ⟨hcheck, ⟨behind, time, behind', hop, htime, rfl⟩, rfl⟩
      · cases hr
    · rintro ⟨-, ⟨behind, time, behind', hop, htime, hstamp⟩, hlsn⟩
      rw [hop, ok_bind]
      simp only [htime, ok_bind]
      cases r
      simp only at hstamp hlsn
      rw [hstamp, hlsn]
      rfl
  · rw [if_pos hcheck]
    constructor
    · intro hr
      cases hr
    · intro hr
      exact absurd hr.1 hcheck

/-- The number that a header is read with is written as its first eight
bytes. -/
theorem checksum_readHeader (hhead : head.length = headerSize) (payload : Bytes) :
    checksum (readHeader head).lsn payload = Checksum.ofBytes (head.take 8 ++ payload) := by
  have height : (head.take 8).length = 8 := by
    rw [List.length_take, hhead]
    rfl
  have hlt := Bytes.ofLittleEndian_lt (head.take 8)
  rw [height, show 256 ^ 8 = 2 ^ 64 by norm_num] at hlt
  have hlsn : Wire.word64 (readHeader head).lsn.toNat = head.take 8 := by
    unfold Wire.word64 readHeader
    rw [UInt64.toNat_ofNat', Nat.mod_eq_of_lt hlt]
    exact Bytes.littleEndian_ofLittleEndian height
  unfold checksum
  rw [hlsn]

/-- A record is taken off the front of a file if there is an acceptable
frame. -/
theorem next_eq_some_iff_acceptable : next position input = .ok (some (r, rest)) ↔
    ∃ head payload, input = head ++ (payload ++ rest) ∧ Acceptable head payload r := by
  rw [next_eq_some_iff]
  constructor
  · rintro ⟨head, payload, hinput, hhead, hpayload, hplausible, hr⟩
    obtain ⟨hcheck, hdecodes, hlsn⟩ := ofPayload_eq_ok_iff.mp hr
    rw [checksum_readHeader hhead] at hcheck
    rw [hpayload] at hplausible
    exact ⟨head, payload, hinput, hhead, hplausible, hpayload, hcheck, hdecodes, hlsn⟩
  · rintro ⟨head, payload, hinput, hframe⟩
    refine ⟨head, payload, hinput, hframe.complete, hframe.whole, ?_, ?_⟩
    · rw [hframe.whole]
      exact hframe.bounded
    · refine ofPayload_eq_ok_iff.mpr ⟨?_, hframe.decodes, hframe.numbered⟩
      rw [checksum_readHeader hframe.complete]
      exact hframe.checked

end LogRecord

namespace Log

open LogRecord

-- ============================================================ rows of frames

variable {position position' position'' : Nat} {input bs rest rest' : Bytes}
  {rs rs' : List LogRecord}

/-- What is taken off a file is a row of frames. -/
theorem Taken.framesOf (h : Taken position input rs position' rest) :
    ∃ bs, input = bs ++ rest ∧ FramesOf bs rs ∧ position' = position + bs.length := by
  induction h with
  | none position input => exact ⟨[], rfl, FramesOf.nil, rfl⟩
  | @more position position' input rest rest' r rs hnext hrest ih =>
      obtain ⟨bs, rfl, hframes, rfl⟩ := ih
      have hlength := length_next hnext
      obtain ⟨head, payload, rfl, hframe⟩ := next_eq_some_iff_acceptable.mp hnext
      refine ⟨head ++ (payload ++ bs), ?_, FramesOf.cons hframe hframes, ?_⟩
      · simp only [List.append_assoc]
      · simp only [List.length_append] at hlength ⊢
        omega

/-- A row of frames that a file begins with is taken. -/
theorem taken_of_framesOf (h : FramesOf bs rs) (position : Nat) (rest : Bytes) :
    Taken position (bs ++ rest) rs (position + bs.length) rest := by
  induction h generalizing position with
  | nil => exact Taken.none position rest
  | @cons head payload bs r rs hframe hrest ih =>
      have hinput : head ++ (payload ++ bs) ++ rest = head ++ (payload ++ (bs ++ rest)) := by
        simp only [List.append_assoc]
      have hnext : LogRecord.next position (head ++ (payload ++ (bs ++ rest)))
          = .ok (some (r, bs ++ rest)) :=
        next_eq_some_iff_acceptable.mpr ⟨head, payload, rfl, hframe⟩
      have hlength := length_next hnext
      have hend : position + (head ++ (payload ++ bs)).length
          = position + frameLength (head ++ (payload ++ (bs ++ rest))) + bs.length := by
        simp only [List.length_append] at hlength ⊢
        omega
      rw [hinput, hend]
      exact Taken.more hnext (ih _)

/-- Where nothing more can be taken, as much has been taken as can be. -/
theorem Taken.longest (h : Taken position input rs position' rest) (hend : Ended position' rest)
    (h' : Taken position input rs' position'' rest') : position'' ≤ position' := by
  induction h generalizing rs' with
  | none position input =>
      cases h' with
      | none => exact Nat.le_refl _
      | more hnext hrest =>
          rcases hend with rfl | ⟨e, he⟩
          · rw [next_eq_none_iff.mpr rfl] at hnext
            cases hnext
          · rw [he] at hnext
            cases hnext
  | more hnext hrest ih =>
      cases h' with
      | none =>
          have hlength := (Taken.more hnext hrest).length
          have hcount := (Taken.more hnext hrest).count
          omega
      | more hnext' hrest' =>
          rw [hnext] at hnext'
          cases hnext'
          exact ih hend hrest'

-- =============================================================== recovery

/-- What is reported of the records of a file, and of whether there was
anything behind them. -/
def summaryOf (rs : List LogRecord) (faulty : Bool) : Summary :=
  { recovered := rs.length
    corrupted := if faulty then 1 else 0
    lastLsn := (rs.getLast?.map LogRecord.lsn).getD 0
    truncated := faulty }

variable {v : Volume} {p : Path} {n : Nat} {kept : Bytes}

/-- The report on a scan is that on its records. -/
theorem scan_summary {length : Nat} (h : Taken 0 input rs length rest) (hend : Ended length rest) :
    (scan input).summary = summaryOf rs (!rest.isEmpty) := by
  obtain ⟨fault, hscan, hfault⟩ := scan_of_taken h hend
  have hfaulty : fault.isSome = !rest.isEmpty := by
    cases fault with
    | none => rw [hfault.mp rfl]; rfl
    | some e =>
        cases rest with
        | nil => cases hfault.mpr rfl
        | cons b rest => rfl
  rw [hscan]
  unfold Scan.summary summaryOf
  rw [hfaulty]

/-- A file is checked as its bytes are. -/
theorem verify_ok (hp : v.node? p = some (.file n)) :
    verify p v = .ok (scan (v.content n)).summary v := by
  unfold verify
  rw [bind_ok (Disk.existing_ok hp), bind_ok (Disk.contentOf_ok n v), scanFile_eq]
  rfl

/-- Recovery answers the records that can be taken, and the file ends
behind them. -/
theorem recover_taken (hp : v.node? p = some (.file n)) (hcontent : v.content n = kept ++ rest)
    (h : Taken 0 (kept ++ rest) rs kept.length rest) (hend : Ended kept.length rest) :
    recover p v = .ok (rs, summaryOf rs (!rest.isEmpty)) (v.setContent n kept) := by
  obtain ⟨fault, hscan, hfault⟩ := scan_of_taken h hend
  have hsummary := scan_summary h hend
  rw [← hcontent] at hscan hsummary
  rw [recover_ok hp, hsummary, hscan]
  cases fault with
  | some e =>
      rw [hcontent, List.take_left]
      rfl
  | none =>
      obtain rfl : rest = [] := hfault.mp rfl
      rw [List.append_nil] at hcontent
      rw [← hcontent, Volume.setContent_content]
      rfl

/-- What recovery and a check answer for the file at the path, which begins
with `kept`, a row of frames, and has `rest` behind it: recovery leaves
`kept`, and when it is done again it finds nothing to cut off. -/
structure Recovers (p : Path) (v : Volume) (n : Nat) (rs : List LogRecord) (kept rest : Bytes) :
    Prop where
  recovered : recover p v = .ok (rs, summaryOf rs (!rest.isEmpty)) (v.setContent n kept)
  left : (v.setContent n kept).content n = kept
  again : recover p (v.setContent n kept) = .ok (rs, summaryOf rs false) (v.setContent n kept)
  verified : verify p v = .ok (summaryOf rs (!rest.isEmpty)) v

/-- What is left by recovery, and what recovery makes of that. -/
theorem recovers_of_taken (hv : v.Sane) (hp : v.node? p = some (.file n))
    (hcontent : v.content n = kept ++ rest)
    (h : Taken 0 (kept ++ rest) rs kept.length rest) (hend : Ended kept.length rest) :
    Recovers p v n rs kept rest := by
  have hleft := hv.content_setContent_self hp kept
  refine ⟨recover_taken hp hcontent h hend, hleft, ?_, ?_⟩
  · -- the row is the whole file now
    have hframes : FramesOf kept rs := by
      obtain ⟨bs, hsplit, hframes, -⟩ := h.framesOf
      rwa [List.append_cancel_right hsplit]
    have htaken := taken_of_framesOf hframes 0 []
    rw [Nat.zero_add] at htaken
    have hagain := recover_taken (v := v.setContent n kept) hp
      (hleft.trans (List.append_nil kept).symm) htaken (Or.inl rfl)
    rwa [Volume.setContent_setContent] at hagain
  · rw [verify_ok hp, hcontent, scan_summary h hend]

/-- The longest row of frames that the file begins with, and what recovery
makes of the file. -/
def RecoversLongest (p : Path) (v : Volume) (n : Nat) : Prop :=
  ∃ kept rest rs, v.content n = kept ++ rest ∧ FramesOf kept rs ∧
    (∀ kept' rest' rs', v.content n = kept' ++ rest' → FramesOf kept' rs' →
      kept'.length ≤ kept.length) ∧
    Recovers p v n rs kept rest

/-- Whatever a file holds, recovery answers the records of the longest row
of frames it begins with, and leaves that row. -/
theorem recovers_longest (hv : v.Sane) (hp : v.node? p = some (.file n)) :
    RecoversLongest p v n := by
  obtain ⟨rs, length, rest, htaken, hend⟩ := exists_taken 0 (v.content n)
  obtain ⟨kept, hcontent, hframes, hlength⟩ := htaken.framesOf
  rw [Nat.zero_add] at hlength
  subst hlength
  refine ⟨kept, rest, rs, hcontent, hframes, fun kept' rest' rs' hcontent' hframes' => ?_, ?_⟩
  · have htaken' := taken_of_framesOf hframes' 0 rest'
    rw [← hcontent', Nat.zero_add] at htaken'
    exact htaken.longest hend htaken'
  · rw [hcontent] at htaken
    exact recovers_of_taken hv hp hcontent htaken hend

/-- A record, and two bytes of another. -/
def tailedFile : Volume :=
  Volume.empty.addFile ["wal.log"] ((LogRecord.mk 1 (.put [1] [2]) 5).bytes ++ [1, 2])

/-- So it does with a file that ends in a part of a record. -/
theorem recovers_longest_tailedFile :
    tailedFile.Sane ∧ tailedFile.node? ["wal.log"] = some (.file 0) ∧
      RecoversLongest ["wal.log"] tailedFile 0 := by
  have hsane : tailedFile.Sane := Volume.sane_empty.addFile (by decide) _
  have hnode : tailedFile.node? ["wal.log"] = some (.file 0) := by decide
  exact ⟨hsane, hnode, recovers_longest hsane hnode⟩

end Log

end OrderedStore
