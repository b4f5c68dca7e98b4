/-
What the builder writes is the image of the entries.

A buffered file carries a string: what the file holds already, and behind
it what is held back. Writing makes the string longer, wherever the bytes
go, so nothing here depends on the size of the buffer. The builder carries
the header with a count of zero and the data of the entries added so far;
finishing puts the index and the footer behind them and the count in its
place, and that is `Table.image`.
-/
import OrderedStore.Catalog
import OrderedStore.Proofs.TableImage
import OrderedStore.Proofs.Volume

namespace OrderedStore

-- ========================================================== buffered files

namespace BufferedFile

variable {f : BufferedFile} {v : Volume} {bs : Bytes}

/-- The bytes given to the file so far: those it holds, and behind them
those held back. -/
structure Carries (f : BufferedFile) (v : Volume) (bs : Bytes) : Prop where
  named : f.file < v.contents.length
  aligned : f.written = (v.content f.file).length
  total : v.content f.file ++ f.held = bs

/-- Afterwards the file holds all that was given to it. -/
theorem flush_ok (h : f.Carries v bs) :
    f.flush v = .ok ⟨f.file, bs.length, []⟩ (v.setContent f.file bs) := by
  have hover : Bytes.overwrite (v.content f.file) f.written f.held = bs := by
    rw [h.aligned, Bytes.overwrite_length, h.total]
  have hlength : f.written + f.held.length = bs.length := by
    rw [h.aligned, ← h.total, List.length_append]
  unfold flush
  rw [bind_ok (Disk.overwrite_ok _ _ _ v), hover]
  show EStateM.Result.ok (BufferedFile.mk f.file (f.written + f.held.length) []) _ = _
  rw [hlength]

/-- A file that holds all that was given to it carries it. -/
theorem carries_flushed (hn : f.file < v.contents.length) (bs : Bytes) :
    (BufferedFile.mk f.file bs.length []).Carries (v.setContent f.file bs) bs := by
  have hcontent : (v.setContent f.file bs).content f.file = bs := by
    rw [Volume.content_setContent hn, if_pos rfl]
  refine ⟨?_, ?_, ?_⟩
  · rw [Volume.length_contents_setContent]
    exact hn
  · show bs.length = ((v.setContent f.file bs).content f.file).length
    rw [hcontent]
  · show (v.setContent f.file bs).content f.file ++ [] = bs
    rw [hcontent, List.append_nil]

/-- Where bytes go for which room has been made: behind those held back, or
straight to the file. -/
def place (f : BufferedFile) (cs : Bytes) : Disk BufferedFile :=
  if cs.length < capacity then pure { f with held := f.held ++ cs }
  else do
    Disk.overwrite f.file f.written cs
    return { f with written := f.written + cs.length }

/-- Writing makes room, and then places the bytes. -/
theorem write_eq (f : BufferedFile) (cs : Bytes) :
    f.write cs = if capacity < f.held.length + cs.length then f.flush >>= fun f => f.place cs
      else f.place cs := by
  by_cases hlong : capacity < f.held.length + cs.length
  · rw [write, if_pos hlong, if_pos hlong]
    rfl
  · rw [write, if_neg hlong, if_neg hlong]
    rfl

/-- Bytes that are few, or that nothing is held back before, are placed
behind those before. No other file is touched. -/
theorem place_ok (h : f.Carries v bs) {cs : Bytes}
    (hroom : cs.length < capacity ∨ f.held = []) :
    ∃ f' x, f.place cs v = .ok f' (v.setContent f.file x) ∧ f'.file = f.file ∧
      f'.Carries (v.setContent f.file x) (bs ++ cs) := by
  unfold place
  by_cases hsmall : cs.length < capacity
  · rw [if_pos hsmall]
    refine ⟨{ f with held := f.held ++ cs }, v.content f.file, ?_, rfl, ?_⟩
    · rw [Volume.setContent_content]
      rfl
    · rw [Volume.setContent_content]
      refine ⟨h.named, h.aligned, ?_⟩
      show v.content f.file ++ (f.held ++ cs) = bs ++ cs
      rw [← List.append_assoc, h.total]
  · have hheld : f.held = [] := hroom.resolve_left hsmall
    have hall : v.content f.file = bs := by rw [← h.total, hheld, List.append_nil]
    have hover : Bytes.overwrite (v.content f.file) f.written cs = bs ++ cs := by
      rw [h.aligned, Bytes.overwrite_length, hall]
    have hwritten : f.written = bs.length := by rw [h.aligned, hall]
    rw [if_neg hsmall, bind_ok (Disk.overwrite_ok _ _ _ v), hover]
    refine ⟨⟨f.file, (bs ++ cs).length, []⟩, bs ++ cs, ?_, rfl,
      carries_flushed h.named (bs ++ cs)⟩
    show EStateM.Result.ok (BufferedFile.mk f.file (f.written + cs.length) f.held) _ = _
    rw [hwritten, hheld, List.length_append]

/-- Bytes written are carried behind those before. No other file is
touched. -/
theorem write_ok (h : f.Carries v bs) (cs : Bytes) :
    ∃ f' x, f.write cs v = .ok f' (v.setContent f.file x) ∧ f'.file = f.file ∧
      f'.Carries (v.setContent f.file x) (bs ++ cs) := by
  rw [write_eq]
  by_cases hlong : capacity < f.held.length + cs.length
  · rw [if_pos hlong, bind_ok (flush_ok h)]
    obtain ⟨f', x, hplace, hfile, hf'⟩ :=
      place_ok (carries_flushed h.named bs) (Or.inr rfl : cs.length < capacity ∨ [] = [])
    rw [Volume.setContent_setContent] at hplace hf'
    exact ⟨f', x, hplace, hfile, hf'⟩
  · rw [if_neg hlong]
    refine place_ok h ?_
    by_cases hsmall : cs.length < capacity
    · exact Or.inl hsmall
    · exact Or.inr (List.length_eq_zero_iff.mp (by omega))

/-- Bytes written in parts are carried one part behind the other. -/
theorem writeParts_ok (parts : List Bytes) (h : f.Carries v bs) :
    ∃ f' x, f.writeParts parts v = .ok f' (v.setContent f.file x) ∧ f'.file = f.file ∧
      f'.Carries (v.setContent f.file x) (bs ++ parts.flatten) := by
  induction parts generalizing f v bs with
  | nil =>
      refine ⟨f, v.content f.file, ?_, rfl, ?_⟩
      · rw [Volume.setContent_content]
        rfl
      · rw [Volume.setContent_content, List.flatten_nil, List.append_nil]
        exact h
  | cons part parts ih =>
      obtain ⟨f₁, x, hfirst, hfile, hf₁⟩ := write_ok h part
      obtain ⟨f₂, y, hrest, hfile₂, hf₂⟩ := ih hf₁
      rw [hfile, Volume.setContent_setContent] at hrest hf₂
      refine ⟨f₂, y, ?_, by rw [hfile₂, hfile], ?_⟩
      · unfold writeParts at hrest ⊢
        rw [List.foldlM_cons, bind_ok hfirst, hrest]
      · rw [List.flatten_cons, ← List.append_assoc]
        exact hf₂

end BufferedFile

-- ================================================================ builder

namespace Table.Builder

variable {b : Builder} {v : Volume} {es : List (Bytes × Entry)}

/-- What a builder knows after these entries. -/
structure Knows (b : Builder) (v : Volume) (es : List (Bytes × Entry)) : Prop where
  carries : b.out.Carries v (header 0 ++ dataBlock es)
  added : b.added.reverse = offsetsFrom headerSize es
  offset : b.offset = headerSize + (dataBlock es).length
  remainder : b.remainder = Checksum.extend Checksum.start (dataBlock es)

/-- A builder starts with the header in an empty file. -/
theorem start_ok {p : Path} {v₁ : Volume} {file : Nat} (hmade : Disk.create p v = .ok file v₁)
    (hn : file < v₁.contents.length) (hempty : v₁.content file = []) :
    ∃ b x, start p v = .ok b (v₁.setContent file x) ∧ b.out.file = file ∧
      b.Knows (v₁.setContent file x) [] := by
  have hnew : (BufferedFile.mk file 0 []).Carries v₁ [] := by
    refine ⟨hn, ?_, ?_⟩
    · show 0 = (v₁.content file).length
      rw [hempty]
      rfl
    · show v₁.content file ++ [] = []
      rw [hempty]
      rfl
  obtain ⟨out, x, hwrite, hfile, hout⟩ :=
    BufferedFile.writeParts_ok [magic, Bytes.littleEndian 2 version, Wire.word64 0] hnew
  refine ⟨⟨out, [], headerSize, Checksum.start⟩, x, ?_, hfile, ⟨?_, rfl, rfl, rfl⟩⟩
  · unfold start
    rw [bind_ok hmade, bind_ok hwrite]
    rfl
  · simp only [List.flatten_cons, List.flatten_nil, List.append_nil, List.nil_append] at hout
    show out.Carries _ (header 0 ++ [])
    rw [List.append_nil, header, List.append_assoc]
    exact hout

/-- An entry behind those before it is not refused. -/
theorem refusal?_none (h : b.Knows v es) {k : Bytes} {e : Entry}
    (hlast : ∀ p ∈ es, p.1 < k) (he : (valueBytes e).length < tombstoneMark) :
    b.refusal? k e = none := by
  unfold refusal?
  match hhead : b.added.head? with
  | none => exact if_neg (not_le.mpr he)
  | some (last, offset) =>
      have hmem : last ∈ es.map Prod.fst := by
        rw [← map_fst_offsetsFrom headerSize es, ← h.added, List.map_reverse,
          List.mem_reverse]
        exact List.mem_map.mpr ⟨_, List.mem_of_mem_head? hhead, rfl⟩
      obtain ⟨p, hp, rfl⟩ := List.mem_map.mp hmem
      show (if k ≤ p.1 then some (TableFault.outOfOrder k p.1)
        else if tombstoneMark ≤ (valueBytes e).length then some .valueTooLarge else none) = none
      rw [if_neg, if_neg (not_le.mpr he)]
      exact fun hle => List.lt_irrefl _ (List.lt_of_le_of_lt hle (hlast p hp))

/-- One more entry is known behind those before it. -/
theorem add_ok (h : b.Knows v es) {k : Bytes} {e : Entry} (hlast : ∀ p ∈ es, p.1 < k)
    (he : (valueBytes e).length < tombstoneMark) :
    ∃ b' x, b.add k e v = .ok b' (v.setContent b.out.file x) ∧ b'.out.file = b.out.file ∧
      b'.Knows (v.setContent b.out.file x) (es ++ [(k, e)]) := by
  obtain ⟨out, x, hwrite, hfile, hout⟩ := BufferedFile.writeParts_ok (entryParts k e) h.carries
  have hdata : dataBlock (es ++ [(k, e)]) = dataBlock es ++ entryBytes k e := by
    rw [dataBlock_append, dataBlock_cons]
    exact congrArg _ (List.append_nil _)
  refine ⟨{ out := out, added := (k, b.offset) :: b.added,
            offset := b.offset + (entryBytes k e).length,
            remainder := Checksum.extend b.remainder (entryBytes k e) }, x, ?_, hfile, ?_⟩
  · unfold add
    rw [refusal?_none h hlast he]
    show (b.out.writeParts (entryParts k e) >>= _) v = _
    rw [bind_ok hwrite]
    rfl
  · refine ⟨?_, ?_, ?_, ?_⟩
    · rw [hdata, ← List.append_assoc]
      exact hout
    · show ((k, b.offset) :: b.added).reverse = _
      rw [List.reverse_cons, h.added, offsetsFrom_append, h.offset]
      rfl
    · show b.offset + _ = _
      rw [h.offset, hdata, List.length_append, Nat.add_assoc]
    · show Checksum.extend b.remainder _ = _
      rw [h.remainder, hdata, Checksum.extend_append]

/-- Entries in order are known one behind the other. -/
theorem addAll_ok (back : List (Bytes × Entry)) (h : b.Knows v es)
    (hsorted : (es ++ back).Pairwise fun a b => a.1 < b.1)
    (hvalues : ∀ p ∈ back, (valueBytes p.2).length < tombstoneMark) :
    ∃ b' x, back.foldlM (fun b e => b.add e.1 e.2) b v = .ok b' (v.setContent b.out.file x) ∧
      b'.out.file = b.out.file ∧ b'.Knows (v.setContent b.out.file x) (es ++ back) := by
  induction back generalizing b v es with
  | nil =>
      refine ⟨b, v.content b.out.file, ?_, rfl, ?_⟩
      · rw [Volume.setContent_content]
        rfl
      · rw [Volume.setContent_content, List.append_nil]
        exact h
  | cons p back ih =>
      have hlast : ∀ q ∈ es, q.1 < p.1 := fun q hq =>
        (List.pairwise_append.mp hsorted).2.2 q hq p List.mem_cons_self
      obtain ⟨b₁, x, hadd, hfile, hb₁⟩ := add_ok h hlast (hvalues p List.mem_cons_self)
      obtain ⟨b₂, y, hrest, hfile₂, hb₂⟩ := ih hb₁
        (by rwa [List.append_assoc, List.singleton_append])
        (fun q hq => hvalues q (List.mem_cons_of_mem _ hq))
      rw [hfile, Volume.setContent_setContent] at hrest hb₂
      rw [List.append_assoc, List.singleton_append] at hb₂
      refine ⟨b₂, y, ?_, by rw [hfile₂, hfile], hb₂⟩
      rw [List.foldlM_cons, bind_ok hadd, hrest]

/-- What is reported of a table of these entries. -/
def reportOf (es : List (Bytes × Entry)) : Report where
  entryCount := es.length
  minKey := (es.head?.map Prod.fst).getD []
  maxKey := (es.getLast?.map Prod.fst).getD []
  fileSize := (image es).length

/-- The keys that a builder has are those of its entries. -/
theorem Knows.keys (h : b.Knows v es) : b.added.reverse.map Prod.fst = es.map Prod.fst := by
  rw [h.added, map_fst_offsetsFrom]

/-- The lowest key is that of the first entry. -/
theorem Knows.minKey (h : b.Knows v es) :
    b.added.reverse.head?.map Prod.fst = es.head?.map Prod.fst := by
  rw [← List.head?_map, h.keys, List.head?_map]

/-- The highest key is that of the last entry. -/
theorem Knows.maxKey (h : b.Knows v es) :
    b.added.head?.map Prod.fst = es.getLast?.map Prod.fst := by
  rw [← List.getLast?_reverse, ← List.getLast?_map, h.keys, List.getLast?_map]

/-- A finished table is the image of its entries. -/
theorem finish_ok (h : b.Knows v es) :
    b.finish v = .ok (reportOf es) (v.setContent b.out.file (image es)) := by
  have hcount : b.added.reverse.length = es.length := by
    rw [← List.length_map (f := Prod.fst), h.keys, List.length_map]
  obtain ⟨out₁, x, hindex, hfile₁, hout₁⟩ := BufferedFile.writeParts_ok
    (b.added.reverse.flatMap fun p => indexParts p.1 p.2) h.carries
  obtain ⟨out₂, y, hfooter, hfile₂, hout₂⟩ := BufferedFile.writeParts_ok
    (footerParts b.offset (Checksum.finish b.remainder)) hout₁
  rw [hfile₁, Volume.setContent_setContent] at hfooter hout₂
  have hflush := BufferedFile.flush_ok hout₂
  rw [hfile₂, hfile₁, Volume.setContent_setContent] at hflush
  have hbytes : header 0 ++ dataBlock es
        ++ (b.added.reverse.flatMap fun p => indexParts p.1 p.2).flatten
        ++ (footerParts b.offset (Checksum.finish b.remainder)).flatten
      = (magic ++ Bytes.littleEndian 2 version) ++ (Wire.word64 0 ++ (dataBlock es
          ++ (indexBlock es ++ (footerParts (headerSize + (dataBlock es).length)
              (Checksum.ofBytes (dataBlock es))).flatten))) := by
    have hblock : (b.added.reverse.flatMap fun p => indexParts p.1 p.2).flatten
        = indexBlock es := by
      rw [h.added, indexBlock, List.flatMap, List.flatten_flatten, List.map_map]
      rfl
    rw [hblock, h.offset, h.remainder]
    simp only [header, Checksum.ofBytes, List.append_assoc]
  have himage : Bytes.overwrite (header 0 ++ dataBlock es
        ++ (b.added.reverse.flatMap fun p => indexParts p.1 p.2).flatten
        ++ (footerParts b.offset (Checksum.finish b.remainder)).flatten)
      countOffset (Wire.word64 b.added.reverse.length) = image es := by
    have hsix : countOffset = (magic ++ Bytes.littleEndian 2 version).length := rfl
    rw [hbytes, hcount, hsix, Bytes.overwrite_middle (by simp only [Wire.length_word64])]
    simp only [image, header, List.append_assoc]
  unfold finish
  rw [bind_ok hindex, bind_ok hfooter, bind_ok hflush, bind_ok (Disk.overwrite_ok _ _ _ _)]
  simp only []
  rw [Volume.content_setContent h.carries.named, if_pos rfl, himage,
    Volume.setContent_setContent, hcount, h.minKey, h.maxKey]
  have hcontent : (v.setContent b.out.file (image es)).content b.out.file = image es := by
    rw [Volume.content_setContent h.carries.named, if_pos rfl]
  rw [bind_ok (Disk.content_ok _ _), hcontent]
  rfl

end Table.Builder

namespace Catalog

/-- A table's file is written whole. -/
theorem writeTable_ok {p : Path} {es : List (Bytes × Entry)} {v v₁ : Volume} {file : Nat}
    (hes : Table.Storable es) (hmade : Disk.create p v = .ok file v₁)
    (hn : file < v₁.contents.length) (hempty : v₁.content file = []) :
    ∃ report, writeTable p es v = .ok report (v₁.setContent file (Table.image es)) := by
  obtain ⟨b₀, x, hstart, hfile₀, hb₀⟩ := Table.Builder.start_ok hmade hn hempty
  obtain ⟨b₁, y, hadd, hfile₁, hb₁⟩ := Table.Builder.addAll_ok es hb₀ hes.sorted hes.values
  rw [hfile₀, Volume.setContent_setContent] at hadd hb₁
  have hfinish := Table.Builder.finish_ok hb₁
  rw [hfile₁, hfile₀, Volume.setContent_setContent, List.nil_append] at hfinish
  refine ⟨Table.Builder.reportOf es, ?_⟩
  unfold writeTable
  rw [bind_ok hstart, bind_ok hadd]
  exact hfinish

end Catalog

end OrderedStore
