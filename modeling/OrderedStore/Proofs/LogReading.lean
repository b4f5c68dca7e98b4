/-
Reading records back.

A reader takes its file in blocks, but what is ahead of it is one string
(`Reader.ahead`): what it holds, and behind that what it has not taken. A
pull takes bytes off the front of that string, so a reader reads the records
that can be taken off the file, one by one.

What is appended to a file without a fault is the next record behind those
it held. It is read back if and only if its payload is not longer than a
reader finds plausible; the writer's own limit is higher, and what lies
between the two is appended and then taken for a fault.
-/
import Mathlib
import OrderedStore.Log.Reader
import OrderedStore.Proofs.Appending

namespace OrderedStore

-- ========================================================= longer payloads

namespace LogRecord

/-- A frame whose payload is longer than is plausible is a fault. -/
theorem next_implausible {r : LogRecord} (hlong : ¬r.Fits)
    (hframe : r.payload.length < UInt32.size) (position : Nat) (rest : Bytes) :
    next position (r.bytes ++ rest)
      = .error (.implausibleLength r.payload.length position) := by
  have hempty : (r.bytes ++ rest).isEmpty = false := by
    rw [List.isEmpty_eq_false_iff, ← List.length_pos_iff, List.length_append, length_bytes]
    omega
  have hhead : Bytes.split? headerSize (r.bytes ++ rest)
      = some (headerOf r.lsn r.payload, r.payload ++ rest) := by
    rw [bytes, frameOf_eq, List.append_assoc]
    exact Bytes.split?_append (length_headerOf _ _) _
  unfold next
  rw [hempty, if_neg Bool.false_ne_true, hhead]
  simp only [readHeader_alone hframe]
  exact if_pos (not_le.mp hlong)

end LogRecord

namespace Log

open LogRecord

variable {v : Volume} {p : Path} {n file : Nat} {bs : Bytes}

namespace Reader

-- ================================================================= pulling

/-- What is ahead of the reader in its file. -/
def ahead (v : Volume) (file : Nat) (r : Reader) : Bytes :=
  r.held ++ (v.content file).drop r.taken

/-- The reader reads the file, stands at the position, and has the bytes
ahead. -/
structure At (v : Volume) (file : Nat) (r : Reader) (position : Nat) (bs : Bytes) : Prop where
  node : r.node = .file file
  position : r.position = position
  ahead : r.ahead v file = bs

variable {r : Reader} {position position' : Nat}

/-- What is behind some bytes of a file that were taken. -/
theorem drop_taken (content : Bytes) (taken k : Nat) :
    content.drop (taken + ((content.drop taken).take k).length) = (content.drop taken).drop k := by
  rw [← List.drop_drop, List.length_take]
  by_cases hk : k ≤ (content.drop taken).length
  · rw [Nat.min_eq_left hk]
  · rw [Nat.min_eq_right (by omega), List.drop_length, List.drop_eq_nil_of_le (by omega)]

/-- What is left of a block, and what is behind the block. -/
theorem drop_block (bs : Bytes) {n block : Nat} (h : n ≤ block) :
    (bs.take block).drop n ++ bs.drop block = bs.drop n := by
  have hbehind : bs.drop block = (bs.drop n).drop (block - n) := by
    rw [List.drop_drop, Nat.add_sub_of_le h]
  rw [List.drop_take, hbehind, List.take_append_drop]

/-- A pull takes bytes off the front of what is ahead. -/
theorem At.pull_ok (h : r.At v file position bs) (n : Nat) :
    ∃ r', r.pull n v = .ok (bs.take n, r') v ∧ r'.At v file position (bs.drop n) := by
  obtain ⟨hnode, hposition, rfl⟩ := h
  have hread : Disk.read r.node v = .ok (v.content file) v := by
    rw [hnode]
    exact Disk.read_ok file v
  unfold Reader.ahead
  by_cases hheld : n ≤ r.held.length
  · -- enough is held
    have hfirst : n - (r.held.take n).length = 0 := by
      rw [List.length_take]
      omega
    refine ⟨{ r with held := r.held.drop n }, ?_, hnode, hposition, ?_⟩
    · unfold pull
      rw [if_pos hfirst, List.take_append_of_le_length hheld]
      rfl
    · exact (List.drop_append_of_le_length hheld).symm
  · -- all that is held, and some of what was not taken yet
    have hfirst : r.held.take n = r.held := List.take_of_length_le (by omega)
    have hnone : r.held.drop n = [] := List.drop_eq_nil_of_le (by omega)
    have hmissing : n - (r.held.take n).length ≠ 0 := by
      rw [hfirst]
      omega
    rw [List.take_append, List.drop_append, hfirst, hnone, List.nil_append]
    unfold pull
    rw [if_neg hmissing, bind_ok hread, hfirst, hnone]
    by_cases hblock : blockSize ≤ n - r.held.length
    · rw [if_pos hblock]
      exact ⟨_, rfl, hnode, hposition, drop_taken _ _ _⟩
    · rw [if_neg hblock, List.take_take, Nat.min_eq_left (by omega)]
      refine ⟨_, rfl, hnode, hposition, ?_⟩
      show (((v.content file).drop r.taken).take blockSize).drop (n - r.held.length)
        ++ (v.content file).drop
          (r.taken + (((v.content file).drop r.taken).take blockSize).length) = _
      rw [drop_taken, drop_block _ (by omega)]

/-- A record that can be taken off what is ahead is read. -/
theorem At.next_ok (h : r.At v file position bs) {record : LogRecord} {rest : Bytes}
    (hnext : LogRecord.next position bs = .ok (some (record, rest))) :
    ∃ r', r.next v = .ok (.ok (some record), r') v ∧
      r'.At v file (position + frameLength bs) rest := by
  obtain ⟨head, payload, rfl, hhead, hpayload, hplausible, hrecord⟩ := next_eq_some_iff.mp hnext
  obtain ⟨r₁, hpull₁, h₁⟩ := h.pull_ok headerSize
  rw [List.take_left' hhead] at hpull₁
  rw [List.drop_left' hhead] at h₁
  obtain ⟨r₂, hpull₂, h₂⟩ := h₁.pull_ok (readHeader head).length
  rw [List.take_left' hpayload] at hpull₂
  rw [List.drop_left' hpayload] at h₂
  have hwhole : LogRecord.next r₂.position (head ++ payload) = .ok (some (record, [])) := by
    refine next_eq_some_iff.mpr ⟨head, payload, ?_, hhead, hpayload, hplausible, hrecord⟩
    rw [List.append_nil]
  refine ⟨{ r₂ with position := r₂.position + frameLength head }, ?_, h₂.node, ?_, h₂.ahead⟩
  · have hlength : ¬maxPayload < (readHeader head).length := by omega
    unfold next
    rw [bind_ok hpull₁]
    simp only [hhead, lt_irrefl, if_false, if_neg hlength, bind_ok hpull₂, hwhole]
    rfl
  · rw [frameLength_append hhead]
    exact congrArg (· + frameLength head) h₂.position

/-- The reader moved on by some records, whatever they are. -/
def skip : Nat → Reader → Disk Reader
  | 0, r => return r
  | count + 1, r => do
    let (_, r) ← r.next
    skip count r

/-- A reader is moved on by the records that can be taken off the file. -/
theorem At.skip_ok {rs : List LogRecord} {rest : Bytes} (h : r.At v file position bs)
    (htaken : Taken position bs rs position' rest) :
    ∃ r', r.skip rs.length v = .ok r' v ∧ r'.At v file position' rest := by
  induction htaken generalizing r with
  | none position input => exact ⟨r, rfl, h⟩
  | more hnext hrest ih =>
      obtain ⟨r₁, hread, h₁⟩ := h.next_ok hnext
      obtain ⟨r₂, hskip, h₂⟩ := ih h₁
      refine ⟨r₂, ?_, h₂⟩
      rw [List.length_cons, skip, bind_ok hread]
      exact hskip

/-- A reader is opened in front of the whole file. -/
theorem openAt_ok (hp : v.node? p = some (.file file)) :
    ∃ r, openAt p v = .ok r v ∧ r.At v file 0 (v.content file) :=
  ⟨⟨.file file, 0, [], 0⟩, bind_ok (Disk.existing_ok hp) _, rfl, rfl, rfl⟩

end Reader

-- ============================================================ reading back

/-- The operation is appended to the file at the path by a writer whose next
number is `lsn`, and read back. A reader that was moved on by the records
the file held stands where it was appended, and reads it; recovery finds it
behind them, and cuts nothing off. -/
def ReadBack (p : Path) (file : Nat) (v : Volume) (lsn now : UInt64) (op : Operation) : Prop :=
  ∃ before summary w v' r r' summary' v'',
    recover p v = .ok (before, summary) v ∧
    Writer.append ⟨file, lsn⟩ now op v = .ok (lsn, w) v' ∧
    (Reader.openAt p >>= Reader.skip before.length) v' = .ok r v' ∧
    r.position = (v.content file).length ∧
    r.next v' = .ok (.ok (some ⟨lsn, op, now⟩), r') v' ∧
    recover p v' = .ok (before ++ [⟨lsn, op, now⟩], summary') v'' ∧ summary'.truncated = false

section ReadBack

variable {lsn now : UInt64} {op : Operation}

/-- A record fits if its operation does. -/
theorem fits_record : (LogRecord.mk lsn op now).Fits ↔ op.Fits := by
  unfold LogRecord.Fits
  rw [LogRecord.length_payload]
  exact Iff.rfl

/-- An operation that was read back is not longer than is plausible: behind
a longer one's header recovery would have stopped. -/
theorem fits_of_readBack (hv : v.Sane) (hp : v.node? p = some (.file file))
    (hwhole : (scan (v.content file)).fault = none) (h : ReadBack p file v lsn now op) :
    op.Fits := by
  obtain ⟨before, summary, w, v', r, r', summary', v'', hrecover, happend, -, -, -, hfound, -⟩ := h
  by_contra hlong
  by_cases hop : op.Loggable
  · rw [Writer.append_ok _ now hop v] at happend
    injection happend with _ hv'
    have hp' : v'.node? p = some (.file file) := by
      rw [← hv']
      exact hp
    have hcontent : v'.content file = v.content file ++ (LogRecord.mk lsn op now).bytes := by
      rw [← hv', Volume.content_setContent (hv.within p file hp), if_pos rfl]
    -- the frame is a fault, so recovery finds what it found before
    have hframe : (LogRecord.mk lsn op now).payload.length < UInt32.size := by
      rw [LogRecord.length_payload]
      exact hop
    have hfault := next_implausible (fun hfits => hlong (fits_record.mp hfits)) hframe
      (scan (v.content file)).length []
    rw [List.append_nil] at hfault
    obtain ⟨fault, hscan, -⟩ := scan_of_taken
      ((taken_of_scan hwhole).append (LogRecord.mk lsn op now).bytes) (Or.inr ⟨_, hfault⟩)
    rw [recover_ok hp] at hrecover
    rw [recover_ok hp', hcontent, hscan] at hfound
    injection hrecover with hrecover
    injection hfound with hfound
    have hbefore : (scan (v.content file)).records = before := congrArg Prod.fst hrecover
    have hmore : (scan (v.content file)).records = before ++ [⟨lsn, op, now⟩] :=
      congrArg Prod.fst hfound
    have hlength := congrArg List.length hmore
    rw [hbefore, List.length_append, List.length_singleton] at hlength
    omega
  · rw [Writer.append_refused _ now hop v] at happend
    cases happend

/-- An operation that is not longer than is plausible is read back. -/
theorem readBack_of_fits (hv : v.Sane) (hp : v.node? p = some (.file file))
    (hwhole : (scan (v.content file)).fault = none) (hop : op.Fits) :
    ReadBack p file v lsn now op := by
  have hfits : (LogRecord.mk lsn op now).Fits := fits_record.mpr hop
  have hbefore := recover_ok hp
  rw [hwhole] at hbefore
  -- the file after the operation was appended
  have hp' : (v.setContent file (v.content file ++ (LogRecord.mk lsn op now).bytes)).node? p
      = some (.file file) := hp
  have hcontent : (v.setContent file (v.content file ++ (LogRecord.mk lsn op now).bytes)).content
      file = v.content file ++ (LogRecord.mk lsn op now).bytes := by
    rw [Volume.content_setContent (hv.within p file hp), if_pos rfl]
  -- recovery
  have hframes : (LogRecord.mk lsn op now).bytes = frames [LogRecord.mk lsn op now] :=
    (List.append_nil _).symm
  obtain ⟨found, hfound, hall⟩ := scan_append (v.content file) (LogRecord.mk lsn op now).bytes
  obtain ⟨rfl, hnofault⟩ := hall [LogRecord.mk lsn op now] hwhole
    (fun q hq => by rw [List.mem_singleton.mp hq]; exact hfits) hframes
  have hrecover := recover_ok hp'
  rw [hcontent, hfound] at hrecover
  have htruncated : (scan (v.content file ++ (LogRecord.mk lsn op now).bytes)).summary.truncated
      = false := by
    unfold Scan.summary
    rw [hnofault]
    rfl
  -- reading
  obtain ⟨r₀, hopen, h₀⟩ := Reader.openAt_ok hp'
  rw [hcontent] at h₀
  obtain ⟨r₁, hskip, h₁⟩ := h₀.skip_ok ((taken_of_scan hwhole).append _)
  have hnext := next_bytes hfits (scan (v.content file)).length []
  rw [List.append_nil] at hnext
  obtain ⟨r₂, hread, -⟩ := h₁.next_ok hnext
  refine ⟨_, _, _, _, r₁, r₂, _, _, hbefore, Writer.append_ok _ now hop.loggable v, ?_, ?_, hread,
    hrecover, htruncated⟩
  · rw [bind_ok hopen]
    exact hskip
  · have hlength := (taken_of_scan hwhole).length
    rw [h₁.position]
    rw [List.length_nil] at hlength
    omega

/-- What is appended to a file without a fault is read back if and only if
its payload is not longer than is plausible to a reader. -/
theorem readBack_iff (hv : v.Sane) (hp : v.node? p = some (.file file))
    (hwhole : (scan (v.content file)).fault = none) (lsn now : UInt64) (op : Operation) :
    ReadBack p file v lsn now op ↔ op.Fits :=
  ⟨fits_of_readBack hv hp hwhole, readBack_of_fits hv hp hwhole⟩

/-- A batch is read back that is appended to the sample file. -/
theorem readBack_iff_sampleFile :
    Writer.sampleFile.Sane ∧ Writer.sampleFile.node? ["wal.log"] = some (.file 0) ∧
      (scan (Writer.sampleFile.content 0)).fault = none ∧
      ReadBack ["wal.log"] 0 Writer.sampleFile 8 5 (.batch [.put [1] [2], .delete [1]]) := by
  have hsane : Writer.sampleFile.Sane := Volume.sane_empty.addFile (by decide) _
  have hnode : Writer.sampleFile.node? ["wal.log"] = some (.file 0) := by decide
  have hwhole : (scan (Writer.sampleFile.content 0)).fault = none := by decide +kernel
  exact ⟨hsane, hnode, hwhole, (readBack_iff hsane hnode hwhole 8 5 _).mpr (by decide)⟩

/-- A value of a gibibyte is appended to an empty file, and not read back. -/
theorem lost_of_length {value : Bytes} (hlength : value.length = 0x40000000) :
    (∃ w v', Writer.append ⟨0, 1⟩ 0 (.put [] value) (Volume.empty.addFile ["wal.log"] [])
        = .ok (1, w) v') ∧
      ¬ReadBack ["wal.log"] 0 (Volume.empty.addFile ["wal.log"] []) 1 0 (.put [] value) := by
  have hpayload : (Operation.put [] value).serialize.length + 8 = 0x40000000 + 28 := by
    rw [Operation.serialize, List.length_append, List.length_append, Wire.length_word32,
      Wire.length_blob, Wire.length_blob, hlength]
    rfl
  have hloggable : (Operation.put [] value).Loggable := by
    unfold Operation.Loggable
    rw [hpayload]
    decide
  refine ⟨⟨_, _, Writer.append_ok ⟨0, 1⟩ 0 hloggable _⟩, fun h => ?_⟩
  have hfits : (Operation.put [] value).Fits :=
    fits_of_readBack (Volume.sane_empty.addFile (by decide) _) (by decide) (by decide) h
  unfold Operation.Fits at hfits
  rw [hpayload] at hfits
  exact absurd hfits (by decide)

/-- Not everything that is appended is read back. -/
theorem gibibyte_lost :
    ∃ op, (∃ w v', Writer.append ⟨0, 1⟩ 0 op (Volume.empty.addFile ["wal.log"] [])
        = .ok (1, w) v') ∧
      ¬ReadBack ["wal.log"] 0 (Volume.empty.addFile ["wal.log"] []) 1 0 op :=
  ⟨.put [] (List.replicate 0x40000000 0), lost_of_length List.length_replicate⟩

end ReadBack

end Log

end OrderedStore
