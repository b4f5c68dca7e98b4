/-
Damage to a log of records that were written one behind the other.

A file that was cut off anywhere holds the frames that end before the cut,
and behind them at most a part of one, which is no frame. A frame with one
byte altered, outside of its length, is no frame either: its length is what
it was, so the same bytes are looked at, and the check value over number
and payload no longer agrees with the one in the header, whichever of the
two was hit. The records before the damage are read as before, and the scan
stops at it; what recovery makes of that is said in `Recovers`.
-/
import Mathlib
import OrderedStore.Proofs.LogRecovery

namespace OrderedStore

namespace LogRecord

-- ========================================================== altered frames

variable {head payload bs' : Bytes} {r : LogRecord} {i position : Nat}

/-- The check value in a header with a byte of it altered is another one. -/
theorem checksum_altered {head' : Bytes} (h : Bytes.AlteredAt i head head') (hlow : 8 ≤ i)
    (hhigh : i < 12) : (readHeader head').checksum ≠ (readHeader head).checksum := by
  have hfield := (h.drop hlow).take (n := 4) (by omega)
  have hlt (bs : Bytes) : Bytes.ofLittleEndian ((bs.drop 8).take 4) < 2 ^ 32 := by
    have hspelled := Bytes.ofLittleEndian_lt ((bs.drop 8).take 4)
    have hfew : ((bs.drop 8).take 4).length ≤ 4 := List.length_take_le ..
    calc Bytes.ofLittleEndian ((bs.drop 8).take 4)
        < 256 ^ ((bs.drop 8).take 4).length := hspelled
      _ ≤ 256 ^ 4 := Nat.pow_le_pow_right (by decide) hfew
      _ = 2 ^ 32 := by norm_num
  intro heq
  apply hfield.ofLittleEndian_ne
  have hnumbers := congrArg UInt32.toNat heq
  simp only [readHeader, UInt32.toNat_ofNat'] at hnumbers
  rwa [Nat.mod_eq_of_lt (hlt head'), Nat.mod_eq_of_lt (hlt head)] at hnumbers

/-- A frame that is altered outside of its length fails the check, and is
still as long as it was. -/
theorem Acceptable.altered (h : Acceptable head payload r)
    (halter : Bytes.AlteredAt i (head ++ payload) bs') (hfield : i < 12 ∨ headerSize ≤ i) :
    (readHeader (bs'.take headerSize)).length = payload.length ∧
      checksum (readHeader (bs'.take headerSize)).lsn (bs'.drop headerSize)
        ≠ (readHeader (bs'.take headerSize)).checksum := by
  have hhead : (head ++ payload).take headerSize = head := List.take_left' h.complete
  have hpayload : (head ++ payload).drop headerSize = payload := List.drop_left' h.complete
  have hcomplete : (bs'.take headerSize).length = headerSize := by
    rw [List.length_take, halter.length, List.length_append, h.complete]
    omega
  rw [checksum_readHeader hcomplete]
  rcases hfield with hlow | hhigh
  · -- the header is altered, and the payload is not
    have hsixteen : i < headerSize := lt_trans hlow (by decide)
    have hsame : bs'.drop headerSize = payload := by
      rw [halter.drop_eq hsixteen, hpayload]
    have hheader := halter.take hsixteen
    rw [hhead] at hheader
    have hlength : (readHeader (bs'.take headerSize)).length = (readHeader head).length := by
      unfold readHeader
      simp only [hheader.drop_eq hlow]
    rw [hsame]
    refine ⟨hlength.trans h.whole.symm, ?_⟩
    by_cases hnumber : i < 8
    · -- another number, and the check value of the old one
      have hkept : (readHeader (bs'.take headerSize)).checksum = (readHeader head).checksum := by
        unfold readHeader
        simp only [hheader.drop_eq hnumber]
      rw [hkept, ← h.checked]
      exact Checksum.ofBytes_altered ((hheader.take hnumber).append_right payload)
    · -- another check value
      rw [hheader.take_eq (Nat.not_lt.mp hnumber), h.checked]
      exact (checksum_altered hheader (Nat.not_lt.mp hnumber) hlow).symm
  · -- the payload is altered, and the header is not
    have hsame : bs'.take headerSize = head := by
      rw [halter.take_eq hhigh, hhead]
    have hbehind := halter.drop hhigh
    rw [hpayload] at hbehind
    rw [hsame]
    refine ⟨h.whole.symm, ?_⟩
    rw [← h.checked]
    exact Checksum.ofBytes_altered (hbehind.append_left (head.take 8))

/-- Such a frame is a fault. -/
theorem Acceptable.next_altered (h : Acceptable head payload r)
    (halter : Bytes.AlteredAt i (head ++ payload) bs') (hfield : i < 12 ∨ headerSize ≤ i)
    (position : Nat) (rest : Bytes) : ∃ e, next position (bs' ++ rest) = .error e := by
  obtain ⟨hlength, hcheck⟩ := h.altered halter hfield
  have hsize : bs'.length = headerSize + payload.length := by
    rw [halter.length, List.length_append, h.complete]
  have hcomplete : (bs'.take headerSize).length = headerSize := by
    rw [List.length_take, hsize]
    omega
  have hbehind : (bs'.drop headerSize).length = payload.length := by
    rw [List.length_drop, hsize]
    omega
  have hplausible : ¬maxPayload < payload.length := by
    rw [h.whole]
    exact Nat.not_lt.mpr h.bounded
  have hinput : bs' ++ rest = bs'.take headerSize ++ (bs'.drop headerSize ++ rest) := by
    rw [← List.append_assoc, List.take_append_drop]
  rw [hinput, next_header hcomplete, hlength, if_neg hplausible, Bytes.split?_append hbehind,
    Option.elim_some]
  unfold ofPayload
  rw [if_pos hcheck]
  exact ⟨_, rfl⟩

/-- A record's own frame is acceptable. -/
theorem Fits.acceptable (h : r.Fits) :
    ∃ head payload, r.bytes = head ++ payload ∧ Acceptable head payload r := by
  obtain ⟨head, payload, hbytes, hframe⟩ :=
    next_eq_some_iff_acceptable.mp (next_bytes h 0 [])
  rw [List.append_nil, List.append_nil] at hbytes
  exact ⟨head, payload, hbytes, hframe⟩

/-- A record that fits is written as its frame. -/
theorem Fits.frame_eq (h : r.Fits) : r.frame = .ok r.bytes := by
  unfold frame
  rw [if_neg (Nat.not_le.mpr h.lt)]
  rfl

end LogRecord

namespace Log

open LogRecord

variable {v : Volume} {p : Path} {n : Nat} {rs : List LogRecord} {parts : List Bytes}

-- ========================================================= rows of frames

/-- Records that fit are written one by one. -/
theorem mapM_frame (hfits : ∀ r ∈ rs, r.Fits) :
    rs.mapM LogRecord.frame = .ok (rs.map LogRecord.bytes) := by
  induction rs with
  | nil => rfl
  | cons r rs ih =>
      rw [List.mapM_cons, (hfits r List.mem_cons_self).frame_eq, ok_bind,
        ih fun q hq => hfits q (List.mem_cons_of_mem _ hq), ok_bind]
      rfl

/-- The frames of two rows of records stand one behind the other. -/
theorem frames_append (rs rs' : List LogRecord) : frames (rs ++ rs') = frames rs ++ frames rs' :=
  List.flatMap_append

/-- The first frames of a row are those of its first records. -/
theorem flatten_take_frames (rs : List LogRecord) (k : Nat) :
    ((rs.map LogRecord.bytes).take k).flatten = frames (rs.take k) := by
  rw [← List.map_take]
  rfl

/-- More records take more bytes. -/
theorem length_frames_take_le (rs : List LogRecord) {i j : Nat} (h : i ≤ j) :
    (frames (rs.take i)).length ≤ (frames (rs.take j)).length := by
  obtain ⟨more, hmore⟩ := List.take_prefix_take_left (l := rs) h
  rw [← hmore, frames_append, List.length_append]
  exact Nat.le_add_right _ _

/-- One more record takes the bytes of its frame more. -/
theorem length_frames_take_succ {k : Nat} {r : LogRecord} (h : rs[k]? = some r) :
    (frames (rs.take (k + 1))).length = (frames (rs.take k)).length + r.bytes.length := by
  rw [List.take_add_one, h, Option.toList_some, frames_concat, List.length_append]

/-- Recovery answers the first records of a row if there is nothing to be
read behind their frames. -/
theorem recovers_take (hv : v.Sane) (hp : v.node? p = some (.file n))
    (hfits : ∀ r ∈ rs, r.Fits) {k : Nat} {rest : Bytes}
    (hsplit : v.content n = frames (rs.take k) ++ rest)
    (hended : Ended (frames (rs.take k)).length rest) :
    Recovers p v n (rs.take k) (frames (rs.take k)) rest := by
  have hfirst : ∀ r ∈ rs.take k, r.Fits := fun r hr => hfits r (List.mem_of_mem_take hr)
  have htaken := taken_frames 0 hfirst rest
  rw [Nat.zero_add] at htaken
  exact recovers_of_taken hv hp hsplit htaken hended

-- =================================================================== cuts

/-- There are as many whole frames before a cut as there can be. -/
theorem exists_whole (rs : List LogRecord) (cut : Nat) :
    ∃ kept ≤ rs.length, (frames (rs.take kept)).length ≤ cut ∧
      ∀ r, rs[kept]? = some r → cut < (frames (rs.take kept)).length + r.bytes.length := by
  induction rs generalizing cut with
  | nil => exact ⟨0, Nat.le_refl _, Nat.zero_le _, fun r hr => by cases hr⟩
  | cons r rs ih =>
      by_cases hfirst : r.bytes.length ≤ cut
      · obtain ⟨kept, hle, hlow, hhigh⟩ := ih (cut - r.bytes.length)
        have hlength : (frames ((r :: rs).take (kept + 1))).length
            = r.bytes.length + (frames (rs.take kept)).length := by
          rw [List.take_succ_cons, ← List.singleton_append, frames_append, List.length_append]
          simp [frames]
        refine ⟨kept + 1, by simpa using hle, by omega, fun q hq => ?_⟩
        have hq' := hhigh q (by simpa using hq)
        omega
      · refine ⟨0, Nat.zero_le _, Nat.zero_le _, fun q hq => ?_⟩
        obtain rfl : r = q := by simpa using hq
        rw [List.take_zero]
        exact lt_of_lt_of_le (Nat.not_le.mp hfirst) (Nat.le_add_left _ _)

/-- A record is among the whole ones if its frame ends before the cut. -/
theorem lt_kept_iff {kept cut : Nat} (hlow : (frames (rs.take kept)).length ≤ cut)
    (hhigh : ∀ r, rs[kept]? = some r → cut < (frames (rs.take kept)).length + r.bytes.length)
    {i : Nat} (hi : i < rs.length) : i < kept ↔ (frames (rs.take (i + 1))).length ≤ cut := by
  constructor
  · intro hkept
    exact le_trans (length_frames_take_le rs hkept) hlow
  · intro hcut
    by_contra hkept
    obtain ⟨r, hnext⟩ : ∃ r, rs[kept]? = some r := ⟨_, List.getElem?_eq_getElem (by omega)⟩
    have hbeyond := hhigh r hnext
    rw [← length_frames_take_succ hnext] at hbeyond
    have hmono := length_frames_take_le rs (by omega : kept + 1 ≤ i + 1)
    omega

/-- Behind the whole frames before a cut there is at most a part of one,
which is a fault. -/
theorem ended_cut (hfits : ∀ r ∈ rs, r.Fits) {kept cut : Nat}
    (hhigh : ∀ r, rs[kept]? = some r → cut < (frames (rs.take kept)).length + r.bytes.length)
    (position : Nat) :
    Ended position ((frames (rs.drop kept)).take (cut - (frames (rs.take kept)).length)) := by
  cases hback : rs.drop kept with
  | nil => exact Or.inl List.take_nil
  | cons r back =>
      have hnext : rs[kept]? = some r := by
        rw [← List.head?_drop, hback]
        rfl
      have hshort := hhigh r hnext
      have hlong : 24 ≤ r.bytes.length := by
        rw [length_bytes]
        omega
      have hpart : (frames (r :: back)).take (cut - (frames (rs.take kept)).length)
          = r.bytes.take (cut - (frames (rs.take kept)).length) := by
        rw [← List.singleton_append, frames_append]
        have hone : frames [r] = r.bytes := List.append_nil _
        rw [hone]
        exact List.take_append_of_le_length (by omega)
      rw [hpart]
      by_cases hnone : cut - (frames (rs.take kept)).length = 0
      · left
        rw [hnone, List.take_zero]
      · right
        have hr : r.Fits := hfits r (List.mem_of_getElem? hnext)
        exact next_torn hr position (by omega) (by omega)

/-- A file of these frames that was cut off after `cut` bytes: recovery
answers the records whose frames end before the cut, and leaves their
frames. -/
def CutContained (p : Path) (v : Volume) (n : Nat) (rs : List LogRecord) (parts : List Bytes)
    (cut : Nat) : Prop :=
  ∃ kept faulty, (∀ i < rs.length, i < kept ↔ (parts.take (i + 1)).flatten.length ≤ cut) ∧
    recover p v = .ok (rs.take kept, summaryOf (rs.take kept) faulty)
      (v.setContent n (parts.take kept).flatten) ∧
    (faulty = true ↔ (parts.take kept).flatten ≠ v.content n)

/-- A cut is contained. -/
theorem cutContained (hv : v.Sane) (hp : v.node? p = some (.file n)) (hfits : ∀ r ∈ rs, r.Fits)
    {cut : Nat} (hcontent : v.content n = (rs.map LogRecord.bytes).flatten.take cut) :
    CutContained p v n rs (rs.map LogRecord.bytes) cut := by
  obtain ⟨kept, -, hlow, hhigh⟩ := exists_whole rs cut
  obtain ⟨rest, hrest⟩ : ∃ rest, rest
    = (frames (rs.drop kept)).take (cut - (frames (rs.take kept)).length) := ⟨_, rfl⟩
  have hsplit : v.content n = frames (rs.take kept) ++ rest := by
    have hwhole : (rs.map LogRecord.bytes).flatten
        = frames (rs.take kept) ++ frames (rs.drop kept) := by
      rw [← frames_append, List.take_append_drop]
      rfl
    rw [hcontent, hwhole, List.take_append, List.take_of_length_le hlow, hrest]
  have hended := ended_cut hfits hhigh (frames (rs.take kept)).length
  rw [← hrest] at hended
  have hrecovers := recovers_take hv hp hfits hsplit hended
  refine ⟨kept, !rest.isEmpty, fun i hi => ?_, ?_, ?_⟩
  · rw [flatten_take_frames]
    exact lt_kept_iff hlow hhigh hi
  · rw [flatten_take_frames]
    exact hrecovers.recovered
  · rw [flatten_take_frames, hsplit]
    cases rest <;> simp

-- ================================================================== bytes

/-- A file of these frames in which byte `i` of the frame of record `k` is
`b` instead of another: recovery answers the records before that one,
reports one fault, and leaves their frames. -/
def ByteContained (p : Path) (v : Volume) (n : Nat) (rs : List LogRecord) (parts : List Bytes)
    (k : Nat) : Prop :=
  recover p v = .ok (rs.take k, summaryOf (rs.take k) true)
      (v.setContent n (parts.take k).flatten) ∧
    (v.setContent n (parts.take k).flatten).content n = (parts.take k).flatten

/-- A byte that is altered is contained. -/
theorem byteContained (hv : v.Sane) (hp : v.node? p = some (.file n)) (hfits : ∀ r ∈ rs, r.Fits)
    {k i : Nat} {b : UInt8} {r : LogRecord} (hr : rs[k]? = some r) (hi : i < r.bytes.length)
    (hfield : i < 12 ∨ headerSize ≤ i) (hb : r.bytes[i]? ≠ some b)
    (hcontent : v.content n
      = (rs.map LogRecord.bytes).flatten.set ((frames (rs.take k)).length + i) b) :
    ByteContained p v n rs (rs.map LogRecord.bytes) k := by
  have halter := Bytes.alteredAt_set hi hb
  obtain ⟨head, payload, hbytes, hframe⟩ :=
    (hfits r (List.mem_of_getElem? hr)).acceptable
  rw [hbytes] at halter
  have hsplit : v.content n
      = frames (rs.take k) ++ (r.bytes.set i b ++ frames (rs.drop (k + 1))) := by
    have hwhole : (rs.map LogRecord.bytes).flatten
        = frames (rs.take k) ++ (r.bytes ++ frames (rs.drop (k + 1))) := by
      have hback : r.bytes ++ frames (rs.drop (k + 1)) = frames (rs.drop k) := by
        rw [← List.getElem_cons_drop (List.getElem?_eq_some_iff.mp hr).1,
          (List.getElem?_eq_some_iff.mp hr).2]
        rfl
      rw [hback, ← frames_append, List.take_append_drop]
      rfl
    rw [hcontent, hwhole, List.set_append_right _ _ (Nat.le_add_right _ _),
      Nat.add_sub_cancel_left, List.set_append_left _ _ hi]
  have hended : Ended (frames (rs.take k)).length
      (r.bytes.set i b ++ frames (rs.drop (k + 1))) := by
    right
    rw [hbytes]
    exact hframe.next_altered halter hfield _ _
  have hrecovers := recovers_take hv hp hfits hsplit hended
  have hmore : (r.bytes.set i b ++ frames (rs.drop (k + 1))).isEmpty = false := by
    rw [List.isEmpty_eq_false_iff, ← List.length_pos_iff, List.length_append, List.length_set]
    omega
  have hrecovered := hrecovers.recovered
  rw [hmore] at hrecovered
  unfold ByteContained
  rw [flatten_take_frames]
  exact ⟨hrecovered, hrecovers.left⟩

-- ================================================================= damage

/-- Records that fit are written, and whatever file is cut off from what
was written, or has one byte of it altered outside of the lengths, is
recovered up to the damage. -/
def DamageContained (p : Path) (rs : List LogRecord) : Prop :=
  ∃ parts, rs.mapM LogRecord.frame = .ok parts ∧
    ∀ v n, v.Sane → v.node? p = some (.file n) →
      (∀ cut, v.content n = parts.flatten.take cut → CutContained p v n rs parts cut) ∧
      ∀ k part i b, parts[k]? = some part → i < part.length → (i < 12 ∨ headerSize ≤ i) →
        part[i]? ≠ some b →
        v.content n = parts.flatten.set ((parts.take k).flatten.length + i) b →
        ByteContained p v n rs parts k

/-- Damage to a log of records that fit is contained. -/
theorem damage_contained (p : Path) (hfits : ∀ r ∈ rs, r.Fits) : DamageContained p rs := by
  refine ⟨rs.map LogRecord.bytes, mapM_frame hfits, fun v n hv hp => ⟨fun cut hcut => ?_, ?_⟩⟩
  · exact cutContained hv hp hfits hcut
  · intro k part i b hpart hi hfield hb hcontent
    rw [List.getElem?_map] at hpart
    obtain ⟨r, hr, rfl⟩ := Option.map_eq_some_iff.mp hpart
    rw [flatten_take_frames] at hcontent
    exact byteContained hv hp hfits hr hi hfield hb hcontent

/-- A value, a batch in a batch, and a deletion. -/
def sampleRecords : List LogRecord :=
  [⟨1, .put [1] [2], 5⟩, ⟨2, .batch [.batch [.delete [1]], .put [] []], 6⟩, ⟨3, .delete [2], 7⟩]

/-- Their log, with a byte altered in the payload of the second. -/
def hitFile : Volume :=
  Volume.empty.addFile ["wal.log"] ((sampleRecords.map LogRecord.bytes).flatten.set 66 9)

/-- Only the first of them is recovered from it. -/
theorem damage_contained_hitFile :
    (∀ r ∈ sampleRecords, r.Fits) ∧ hitFile.Sane ∧ hitFile.node? ["wal.log"] = some (.file 0) ∧
      ∃ v, recover ["wal.log"] hitFile
        = .ok (sampleRecords.take 1, summaryOf (sampleRecords.take 1) true) v := by
  have hfits : ∀ r ∈ sampleRecords, r.Fits := by
    unfold LogRecord.Fits
    decide
  have hsane : hitFile.Sane := Volume.sane_empty.addFile (by decide) _
  have hnode : hitFile.node? ["wal.log"] = some (.file 0) := by decide
  obtain ⟨parts, hparts, hcontained⟩ := damage_contained ["wal.log"] hfits
  rw [mapM_frame hfits] at hparts
  cases hparts
  have hhit := (hcontained hitFile 0 hsane hnode).2 1 _ 20 9 rfl (by decide) (by decide)
    (by decide +kernel) (Volume.content_addFile_self _ _ _)
  exact ⟨hfits, hsane, hnode, _, hhit.1⟩

end Log

end OrderedStore
