/-
Appending to a log.

A scan takes records off the front of a file until nothing is left or a
fault is met (`Taken`). What was taken off a file is taken off every longer
one, whatever the bytes are that were added, so records that are appended
behind the last whole one are found behind it. That is all that appending
relies on: the writer goes on at the end of the file, which is the end of
the last record only if there was no fault. Behind a fault everything is
lost, however it was appended.
-/
import Mathlib
import OrderedStore.Proofs.Opening

namespace OrderedStore

-- ================================================================= pieces

/-- The two pieces are the string. -/
theorem Bytes.eq_append_of_split? {n : Nat} {bs front rest : Bytes}
    (h : Bytes.split? n bs = some (front, rest)) : bs = front ++ rest ∧ front.length = n := by
  unfold Bytes.split? at h
  by_cases hshort : (bs.take n).length < n
  · rw [if_pos hshort] at h
    cases h
  · rw [if_neg hshort] at h
    cases h
    refine ⟨(List.take_append_drop n bs).symm, ?_⟩
    have := List.length_take_le n bs
    omega

namespace LogRecord

variable {position : Nat} {input rest : Bytes} {r : LogRecord}

/-- At the end of a file there is no record, and nowhere else. -/
theorem next_eq_none_iff : next position input = .ok none ↔ input = [] := by
  constructor
  · intro h
    unfold next at h
    split at h
    · next hempty => exact List.isEmpty_iff.mp hempty
    · split at h
      · cases h
      · dsimp only at h
        split at h
        · cases h
        · split at h
          · cases h
          · split at h <;> cases h
  · rintro rfl
    rfl

/-- What it takes to read a record: a header, and as many bytes behind it
as the header says, which make the record. -/
theorem next_eq_some_iff : next position input = .ok (some (r, rest)) ↔
    ∃ head payload, input = head ++ (payload ++ rest) ∧ head.length = headerSize ∧
      payload.length = (readHeader head).length ∧ payload.length ≤ maxPayload ∧
      ofPayload (readHeader head) payload = .ok r := by
  constructor
  · intro h
    unfold next at h
    split at h
    · cases h
    · split at h
      · cases h
      · next head body hhead =>
          obtain ⟨rfl, hlength⟩ := Bytes.eq_append_of_split? hhead
          dsimp only at h
          split at h
          · cases h
          · next hplausible =>
              split at h
              · cases h
              · next payload left hbody =>
                  obtain ⟨rfl, hpayload⟩ := Bytes.eq_append_of_split? hbody
                  split at h
                  · next r' hr =>
                      cases h
                      exact ⟨head, payload, rfl, hlength, hpayload, by omega, hr⟩
                  · cases h
  · rintro ⟨head, payload, rfl, hlength, hpayload, hplausible, hr⟩
    rw [next_header hlength, if_neg (by omega), Bytes.split?_append hpayload, Option.elim_some, hr]
    rfl

/-- A record is read whatever follows it. -/
theorem next_append (h : next position input = .ok (some (r, rest))) (more : Bytes) :
    next position (input ++ more) = .ok (some (r, rest ++ more)) := by
  obtain ⟨head, payload, rfl, hlength, hpayload, hplausible, hr⟩ := next_eq_some_iff.mp h
  refine next_eq_some_iff.mpr ⟨head, payload, ?_, hlength, hpayload, hplausible, hr⟩
  rw [List.append_assoc, List.append_assoc]

/-- A frame is as long as it says. -/
theorem length_next (h : next position input = .ok (some (r, rest))) :
    input.length = frameLength input + rest.length := by
  obtain ⟨head, payload, rfl, hlength, hpayload, -, -⟩ := next_eq_some_iff.mp h
  rw [frameLength_append hlength, List.length_append, List.length_append, hlength, hpayload]
  unfold frameLength
  omega

end LogRecord

namespace Log

open LogRecord

-- ========================================================== taking records

/-- Taking records off the front of what is left at a position of a file:
the records, and the position and what is left then. -/
inductive Taken : Nat → Bytes → List LogRecord → Nat → Bytes → Prop where
  | none (position : Nat) (input : Bytes) : Taken position input [] position input
  | more {position position' : Nat} {input rest rest' : Bytes} {r : LogRecord}
      {rs : List LogRecord} (hnext : LogRecord.next position input = .ok (some (r, rest)))
      (hrest : Taken (position + frameLength input) rest rs position' rest') :
      Taken position input (r :: rs) position' rest'

variable {position position' position'' : Nat} {input rest rest' : Bytes}
  {rs rs' : List LogRecord}

/-- What was taken off a file is taken off a longer one. -/
theorem Taken.append (h : Taken position input rs position' rest) (more : Bytes) :
    Taken position (input ++ more) rs position' (rest ++ more) := by
  induction h with
  | none position input => exact Taken.none position (input ++ more)
  | @more position position' input rest rest' r rs hnext hrest ih =>
      refine Taken.more (LogRecord.next_append hnext more) ?_
      have hlong := length_next hnext
      have hlonger := length_next (LogRecord.next_append hnext more)
      rw [List.length_append, List.length_append] at hlonger
      have hsame : frameLength (input ++ more) = frameLength input := by omega
      rw [hsame]
      exact ih

/-- More may be taken then. -/
theorem Taken.trans (h : Taken position input rs position' rest)
    (h' : Taken position' rest rs' position'' rest') :
    Taken position input (rs ++ rs') position'' rest' := by
  induction h with
  | none position input => exact h'
  | more hnext hrest ih => exact Taken.more hnext (ih h')

/-- The position is behind what was taken. -/
theorem Taken.length (h : Taken position input rs position' rest) :
    position' + rest.length = position + input.length := by
  induction h with
  | none position input => rfl
  | more hnext hrest ih =>
      have := length_next hnext
      omega

/-- No record takes no bytes. -/
theorem Taken.count (h : Taken position input rs position' rest) :
    rs.length + rest.length ≤ input.length := by
  induction h with
  | none position input => rw [List.length_nil, Nat.zero_add]
  | more hnext hrest ih =>
      have hlong := length_next hnext
      unfold frameLength headerSize at hlong
      rw [List.length_cons]
      omega

/-- Whole frames are taken one by one. -/
theorem taken_frames (position : Nat) (hfits : ∀ r ∈ rs, r.Fits) (rest : Bytes) :
    Taken position (frames rs ++ rest) rs (position + (frames rs).length) rest := by
  induction rs generalizing position with
  | nil => exact Taken.none position rest
  | cons r rs ih =>
      have hr : r.Fits := hfits r List.mem_cons_self
      have hframes : frames (r :: rs) = r.bytes ++ frames rs := List.flatMap_cons
      rw [hframes, List.append_assoc]
      refine Taken.more (next_bytes hr position _) ?_
      have hlong : frameLength (r.bytes ++ (frames rs ++ rest)) = r.bytes.length :=
        frameLength_frameOf hr.lt _
      rw [hlong, List.length_append, ← Nat.add_assoc]
      exact ih _ fun q hq => hfits q (List.mem_cons_of_mem _ hq)

-- ================================================================== scans

/-- A scan goes on where records were taken. -/
theorem scanOnto_taken (h : Taken position input rs position' rest) {fuel : Nat}
    (hfuel : rs.length ≤ fuel) (done : List LogRecord) :
    scanOnto fuel position done input
      = scanOnto (fuel - rs.length) position' (rs.reverse ++ done) rest := by
  induction h generalizing fuel done with
  | none position input => rfl
  | @more position position' input rest rest' r rs hnext hrest ih =>
      rw [List.length_cons] at hfuel
      obtain ⟨fuel, rfl⟩ : ∃ f, fuel = f + 1 :=
        Nat.exists_eq_succ_of_ne_zero (by omega)
      rw [scanOnto, hnext]
      show scanOnto fuel (position + frameLength input) (r :: done) rest = _
      rw [ih (by omega), List.length_cons, Nat.add_sub_add_right, List.reverse_cons,
        List.append_assoc, List.singleton_append]

/-- Nothing more can be taken: this is the end, or a fault. -/
def Ended (position : Nat) (rest : Bytes) : Prop :=
  rest = [] ∨ ∃ e, LogRecord.next position rest = .error e

/-- A scan finds the records that can be taken, and no fault only if that
is the whole file. -/
theorem scan_of_taken {content : Bytes} {length : Nat} (h : Taken 0 content rs length rest)
    (hend : Ended length rest) :
    ∃ fault, scan content = ⟨rs, length, fault⟩ ∧ (fault = none ↔ rest = []) := by
  have hcount := h.count
  unfold scan
  rw [scanOnto_taken h (by omega), Nat.sub_add_comm (by omega), scanOnto, List.append_nil]
  rcases hend with rfl | ⟨e, he⟩
  · rw [next_eq_none_iff.mpr rfl]
    exact ⟨none, by simp only [List.reverse_reverse], iff_of_true rfl rfl⟩
  · rw [he]
    refine ⟨some e, by simp only [List.reverse_reverse],
      iff_of_false (Option.some_ne_none e) ?_⟩
    rintro rfl
    rw [next_eq_none_iff.mpr rfl] at he
    cases he

/-- Every file is taken apart as a scan does it. -/
theorem exists_taken (position : Nat) (input : Bytes) :
    ∃ rs position' rest, Taken position input rs position' rest ∧ Ended position' rest := by
  induction hn : input.length using Nat.strong_induction_on generalizing position input with
  | _ n ih =>
      match hnext : LogRecord.next position input with
      | .error e => exact ⟨[], position, input, Taken.none position input, Or.inr ⟨e, hnext⟩⟩
      | .ok none =>
          exact ⟨[], position, input, Taken.none position input,
            Or.inl (next_eq_none_iff.mp hnext)⟩
      | .ok (some (r, rest)) =>
          have hshorter : rest.length < n := by
            have hlong := length_next hnext
            unfold frameLength headerSize at hlong
            omega
          obtain ⟨rs, position', rest', htaken, hend⟩ :=
            ih rest.length hshorter (position + frameLength input) rest rfl
          exact ⟨r :: rs, position', rest', Taken.more hnext htaken, hend⟩

/-- A scan without a fault has taken everything. -/
theorem taken_of_scan {content : Bytes} (h : (scan content).fault = none) :
    Taken 0 content (scan content).records (scan content).length [] := by
  obtain ⟨rs, length, rest, htaken, hend⟩ := exists_taken 0 content
  obtain ⟨fault, hscan, hfault⟩ := scan_of_taken htaken hend
  rw [hscan] at h ⊢
  obtain rfl : rest = [] := hfault.mp h
  exact htaken

/-- In a longer file the records are found again. If there was no fault,
what stands behind them is read from its beginning. -/
theorem scan_append (content more : Bytes) :
    ∃ found, (scan (content ++ more)).records = (scan content).records ++ found ∧
      ∀ rs', (scan content).fault = none → (∀ r ∈ rs', r.Fits) → more = frames rs' →
        found = rs' ∧ (scan (content ++ more)).fault = none := by
  obtain ⟨rs, length, rest, htaken, hend⟩ := exists_taken 0 content
  obtain ⟨fault, hscan, hfault⟩ := scan_of_taken htaken hend
  obtain ⟨rs', length', rest', htaken', hend'⟩ := exists_taken length (rest ++ more)
  obtain ⟨fault', hscan', hfault'⟩ := scan_of_taken ((htaken.append more).trans htaken') hend'
  refine ⟨rs', by rw [hscan', hscan], fun new hwhole hfits hmore => ?_⟩
  rw [hscan] at hwhole
  obtain rfl : rest = [] := hfault.mp hwhole
  have hframes := taken_frames length hfits []
  rw [List.append_nil, ← hmore] at hframes
  rw [List.nil_append] at htaken'
  obtain ⟨fault'', hscan'', hfault''⟩ :=
    scan_of_taken ((htaken.append more).trans (by rwa [List.nil_append])) (Or.inl rfl)
  rw [hscan'] at hscan''
  injection hscan'' with hrecords hlength hsame
  refine ⟨List.append_cancel_left hrecords, ?_⟩
  rw [hscan', hsame]
  exact hfault''.mpr rfl

-- ============================================================== appending

variable {v : Volume} {p : Path} {n : Nat}

/-- Recovery answers what a scan of the file finds. If there was no fault
it leaves the file alone. -/
theorem recover_ok (hp : v.node? p = some (.file n)) :
    recover p v = .ok ((scan (v.content n)).records, (scan (v.content n)).summary)
      (if (scan (v.content n)).fault.isSome
        then v.setContent n ((v.content n).take (scan (v.content n)).length) else v) := by
  have hlength : (scan (v.content n)).length ≤ (v.content n).length := by
    obtain ⟨rs, length, rest, htaken, hend⟩ := exists_taken 0 (v.content n)
    obtain ⟨fault, hscan, -⟩ := scan_of_taken htaken hend
    have hcount := htaken.length
    rw [hscan]
    show length ≤ _
    omega
  unfold recover
  rw [bind_ok (Disk.existing_ok hp), bind_ok (Disk.contentOf_ok n v), scanFile_eq]
  show (cut p (scan (v.content n)) >>= _) v = _
  unfold cut
  cases hfault : (scan (v.content n)).fault with
  | none => rfl
  | some e =>
      rw [if_pos Option.isSome_some, if_pos Option.isSome_some, ← Bytes.resize_of_le hlength]
      have hcut : (Disk.existingFile p >>= fun file =>
          Disk.resize file (scan (v.content n)).length) v
          = .ok () (v.setContent n (Bytes.resize (v.content n) (scan (v.content n)).length)) := by
        rw [bind_ok (Disk.existingFile_ok hp), Disk.resize_ok]
      exact bind_ok hcut _

/-- The records of operations under the numbers they were given, each with
the time it was recorded at. -/
def recordsOf (lsns : List UInt64) (appends : List (UInt64 × Operation)) : List LogRecord :=
  List.zipWith (fun lsn a => ⟨lsn, a.2, a.1⟩) lsns appends

namespace Writer

/-- Appends operations one after the other, each with the time it is
recorded at. Answers their numbers. -/
def appendAll (w : Writer) : List (UInt64 × Operation) → Disk (List UInt64 × Writer)
  | [] => return ([], w)
  | (now, op) :: rest => do
    let (lsn, w) ← w.append now op
    let (lsns, w) ← appendAll w rest
    return (lsn :: lsns, w)

/-- Operations that are read back are appended as frames at the end of the
file. -/
theorem appendAll_ok {w : Writer} {appends : List (UInt64 × Operation)}
    (hw : w.file < v.contents.length) (hfits : ∀ a ∈ appends, a.2.Fits) :
    ∃ lsns w', w.appendAll appends v
        = .ok (lsns, w') (v.setContent w.file (v.content w.file ++ frames (recordsOf lsns appends)))
      ∧ lsns.length = appends.length := by
  induction appends generalizing w v with
  | nil =>
      refine ⟨[], w, ?_, rfl⟩
      show EStateM.Result.ok ([], w) v = _
      have hsame : v.content w.file ++ frames (recordsOf [] []) = v.content w.file :=
        List.append_nil _
      rw [hsame, Volume.setContent_content]
  | cons a rest ih =>
      obtain ⟨now, op⟩ := a
      have hop : op.Fits := hfits (now, op) List.mem_cons_self
      obtain ⟨lsns, w', hrest, hcount⟩ := @ih
        (v.setContent w.file (v.content w.file ++ (LogRecord.mk w.nextLsn op now).bytes))
        { w with nextLsn := w.nextLsn + 1 } (by rw [Volume.length_contents_setContent]; exact hw)
        fun b hb => hfits b (List.mem_cons_of_mem _ hb)
      refine ⟨w.nextLsn :: lsns, w', ?_, by rw [List.length_cons, List.length_cons, hcount]⟩
      have hframes : frames (recordsOf (w.nextLsn :: lsns) ((now, op) :: rest))
          = (LogRecord.mk w.nextLsn op now).bytes ++ frames (recordsOf lsns rest) :=
        List.flatMap_cons
      rw [appendAll, bind_ok (append_ok w now hop.loggable v)]
      show (appendAll _ rest >>= _) _ = _
      rw [bind_ok hrest, Volume.content_setContent hw, if_pos rfl, Volume.setContent_setContent,
        hframes, ← List.append_assoc]
      rfl

/-- What is appended is what recovery finds behind the records it would
have found before: `found` and the numbers that appending answered are
related so. -/
def FindsBehind (p : Path) (v : Volume) (appends : List (UInt64 × Operation))
    (related : List UInt64 → List LogRecord → Prop) : Prop :=
  ∃ before summary v₀ w lsns w' v' found summary' v'',
    recover p v = .ok (before, summary) v₀ ∧
    Writer.openAt p v = .ok w v ∧ w.appendAll appends v = .ok (lsns, w') v' ∧
    lsns.length = appends.length ∧
    recover p v' = .ok (before ++ found, summary') v'' ∧ related lsns found

/-- The records of a file that is appended to are found again, whatever it
ends in. If it has no fault, appending goes on right behind its last record,
and all that was appended is found, in order and under the numbers that
appending answered. -/
theorem appends_recovered (hv : v.Sane) (hp : v.node? p = some (.file n))
    (appends : List (UInt64 × Operation)) (hfits : ∀ a ∈ appends, a.2.Fits) :
    FindsBehind p v appends fun lsns found =>
      (scan (v.content n)).fault = none → found = recordsOf lsns appends := by
  have hn := hv.within p n hp
  obtain ⟨lsn, hopen⟩ := openAt_found hp
  obtain ⟨lsns, w', happend, hcount⟩ := @appendAll_ok v ⟨n, lsn⟩ appends hn hfits
  have hrecords : ∀ r ∈ recordsOf lsns appends, r.Fits := by
    intro r hr
    obtain ⟨i, hi, rfl⟩ := List.mem_iff_getElem.mp hr
    unfold recordsOf at hi ⊢
    rw [List.length_zipWith] at hi
    rw [List.getElem_zipWith]
    have hop := hfits appends[i] (List.getElem_mem (by omega))
    unfold LogRecord.Fits
    rw [LogRecord.length_payload]
    exact hop
  have hcontent : (v.setContent n (v.content n ++ frames (recordsOf lsns appends))).content n
      = v.content n ++ frames (recordsOf lsns appends) := by
    rw [Volume.content_setContent hn, if_pos rfl]
  have hnode : (v.setContent n (v.content n ++ frames (recordsOf lsns appends))).node? p
      = some (.file n) := hp
  obtain ⟨found, hfound, hall⟩ := scan_append (v.content n) (frames (recordsOf lsns appends))
  have hrecover := recover_ok hnode
  rw [hcontent, hfound] at hrecover
  exact ⟨_, _, _, _, _, _, _, found, _, _, recover_ok hp, hopen, happend, hcount, hrecover,
    fun hwhole => (hall _ hwhole hrecords rfl).1⟩

/-- A file that holds one record. -/
def sampleFile : Volume :=
  Volume.empty.addFile ["wal.log"] (LogRecord.mk 7 (.delete [9]) 0).bytes

/-- A value, and a batch. -/
def sampleAppends : List (UInt64 × Operation) :=
  [(0, .put [1] [2]), (5, .batch [.delete [1]])]

/-- They are found again behind the record there was. -/
theorem appends_recovered_sampleFile :
    FindsBehind ["wal.log"] sampleFile sampleAppends fun lsns found =>
      found = recordsOf lsns sampleAppends := by
  have hsane : sampleFile.Sane := Volume.sane_empty.addFile (by decide) _
  have hnode : sampleFile.node? ["wal.log"] = some (.file 0) := by decide
  have hwhole : (scan (sampleFile.content 0)).fault = none := by decide +kernel
  obtain ⟨before, summary, v₀, w, lsns, w', v', found, summary', v'', hbefore, hopen, happend,
    hcount, hrecover, hall⟩ := appends_recovered hsane hnode sampleAppends (by decide)
  exact ⟨before, summary, v₀, w, lsns, w', v', found, summary', v'', hbefore, hopen, happend,
    hcount, hrecover, hall hwhole⟩

/-- A file that ends in the first byte of a record. -/
def tornFile : Volume :=
  Volume.empty.addFile ["wal.log"] [1]

/-- What is appended to a file that ends in a part of a record is lost: the
part is taken for the beginning of what was appended behind it. -/
theorem appends_lost_tornFile :
    ¬FindsBehind ["wal.log"] tornFile [(0, .put [1] [2])] fun lsns found =>
      found = recordsOf lsns [(0, .put [1] [2])] := by
  rintro ⟨before, summary, v₀, w, lsns, w', v', found, summary', v'', -, hopen, happend, -,
    hrecover, rfl⟩
  have hopened : openAt ["wal.log"] tornFile = .ok ⟨0, 1⟩ tornFile := by rfl
  rw [hopened] at hopen
  cases hopen
  have happended : appendAll ⟨0, 1⟩ [(0, .put [1] [2])] tornFile = .ok ([1], ⟨0, 2⟩)
      (tornFile.setContent 0 ([1] ++ (LogRecord.mk 1 (.put [1] [2]) 0).bytes)) := by rfl
  rw [happended] at happend
  cases happend
  have hnode : (tornFile.setContent 0 ([1] ++ (LogRecord.mk 1 (.put [1] [2]) 0).bytes)).node?
      ["wal.log"] = some (.file 0) := by decide
  have hnone : (scan ((tornFile.setContent 0
      ([1] ++ (LogRecord.mk 1 (.put [1] [2]) 0).bytes)).content 0)).records.isEmpty = true := by
    decide +kernel
  rw [recover_ok hnode, List.isEmpty_iff.mp hnone] at hrecover
  injection hrecover with hanswer
  have hlost := congrArg (fun a => a.1.length) hanswer
  simp [recordsOf] at hlost

end Writer

end Log

end OrderedStore
