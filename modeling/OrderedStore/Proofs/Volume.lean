/-
What a step on a volume does to its names and its files.

Two questions are asked of a volume: what a path leads to, and what a file
holds. `Sane` is what every volume that can come about has: no name is
there twice, every file that is named exists, and no file has two names.
For each step there is one equation for when it succeeds, and for each
change of a volume an equation for either question.
-/
import Mathlib
import OrderedStore.Proofs.KeyMap
import OrderedStore.Volume

namespace OrderedStore

-- ================================================================= steps

section Steps

variable {ε σ α β : Type}

/-- A step that succeeds hands its value and its state on. -/
theorem bind_ok {x : EStateM ε σ α} {s s' : σ} {a : α} (h : x s = .ok a s')
    (f : α → EStateM ε σ β) : (x >>= f) s = f a s' := by
  show EStateM.bind x f s = f a s'
  unfold EStateM.bind
  rw [h]

/-- A step that asks for the state is handed it. -/
theorem bind_get (s : σ) (f : σ → EStateM ε σ β) : (MonadState.get >>= f) s = f s s := rfl

/-- A step that fails ends what it is part of. -/
theorem bind_error {x : EStateM ε σ α} {s s' : σ} {e : ε} (h : x s = .error e s')
    (f : α → EStateM ε σ β) : (x >>= f) s = .error e s' := by
  show EStateM.bind x f s = _
  unfold EStateM.bind
  rw [h]

/-- If two steps succeed in turn, the first does, and then the second. -/
theorem of_bind_ok {x : EStateM ε σ α} {f : α → EStateM ε σ β} {s s'' : σ} {b : β}
    (h : (x >>= f) s = .ok b s'') : ∃ a s', x s = .ok a s' ∧ f a s' = .ok b s'' := by
  cases hx : x s with
  | error e s' =>
      rw [bind_error hx] at h
      cases h
  | ok a s' =>
      rw [bind_ok hx] at h
      exact ⟨a, s', rfl, h⟩

/-- If two steps in turn fail, the first does, or the second after it. -/
theorem of_bind_error {x : EStateM ε σ α} {f : α → EStateM ε σ β} {s s'' : σ} {e : ε}
    (h : (x >>= f) s = .error e s'') :
    x s = .error e s'' ∨ ∃ a s', x s = .ok a s' ∧ f a s' = .error e s'' := by
  cases hx : x s with
  | error e' s' =>
      rw [bind_error hx] at h
      cases h
      exact Or.inl rfl
  | ok a s' =>
      rw [bind_ok hx] at h
      exact Or.inr ⟨a, s', rfl, h⟩

/-- Whether a step ends well, and what it answers and leaves passes a
test. -/
def ends (step : EStateM ε σ α) (s : σ) (test : α → σ → Bool) : Bool :=
  match step s with
  | .ok a s' => test a s'
  | .error _ _ => false

/-- There is an answer then. -/
theorem of_ends {step : EStateM ε σ α} {s : σ} {test : α → σ → Bool}
    (h : ends step s test = true) : ∃ a s', step s = .ok a s' ∧ test a s' = true := by
  unfold ends at h
  cases hstep : step s with
  | error f s' =>
      rw [hstep] at h
      cases h
  | ok a s' =>
      rw [hstep] at h
      exact ⟨a, s', rfl, h⟩

/-- What succeeds is not caught. -/
theorem tryCatch_ok {x : EStateM ε σ α} {s s' : σ} {a : α} (h : x s = .ok a s')
    (handle : ε → EStateM ε σ α) : (tryCatch x handle) s = .ok a s' := by
  show EStateM.tryCatch x handle s = _
  unfold EStateM.tryCatch
  rw [h]

/-- What fails is caught where it fails. -/
theorem tryCatch_error {x : EStateM ε σ α} {s s' : σ} {e : ε} (h : x s = .error e s')
    (handle : ε → EStateM ε σ α) : (tryCatch x handle) s = handle e s' := by
  show EStateM.tryCatch x handle s = _
  unfold EStateM.tryCatch
  rw [h]
  rfl

end Steps

-- ================================================================ contents

namespace Content

/-- A string is what it is without the zeros it ends in, and those. -/
theorem trim_append (bs : Bytes) :
    trim bs ++ List.replicate (bs.length - (trim bs).length) 0 = bs := by
  have hsplit := List.takeWhile_append_dropWhile (p := (· == (0 : UInt8))) (l := bs.reverse)
  have hzeros : bs.reverse.takeWhile (· == 0)
      = List.replicate (bs.reverse.takeWhile (· == 0)).length 0 := by
    refine List.eq_replicate_length.mpr fun b hb => ?_
    have hzero : (b == 0) = true := List.mem_takeWhile_imp (p := (· == (0 : UInt8))) hb
    exact eq_of_beq hzero
  have hlength := congrArg List.length hsplit
  rw [List.length_append, List.length_reverse] at hlength
  have hcount : bs.length - (trim bs).length = (bs.reverse.takeWhile (· == 0)).length := by
    unfold trim
    rw [List.length_reverse]
    omega
  rw [hcount, ← List.reverse_replicate, ← hzeros, trim, ← List.reverse_append, hsplit,
    List.reverse_reverse]

/-- A content is made of its bytes. -/
@[simp] theorem toBytes_ofBytes (bs : Bytes) : (ofBytes bs).toBytes = bs :=
  trim_append bs

/-- A content is the only one with its bytes. -/
@[simp] theorem ofBytes_toBytes (c : Content) : ofBytes c.toBytes = c := by
  obtain ⟨stored, zeros, htrimmed⟩ := c
  have htrim : trim (stored ++ List.replicate zeros 0) = stored := by
    unfold trim
    rw [List.reverse_append, List.reverse_replicate, List.dropWhile_append_of_pos (by simp)]
    match hlast : stored.reverse with
    | [] => rw [List.reverse_eq_nil_iff.mp hlast]; rfl
    | b :: rest =>
        have hb : (b == 0) ≠ true := by
          intro hzero
          rw [List.reverse_eq_cons_iff.mp hlast, List.getLast?_concat, eq_of_beq hzero] at htrimmed
          exact htrimmed rfl
        rw [List.dropWhile_cons_of_neg (p := (· == (0 : UInt8))) hb, ← hlast, List.reverse_reverse]
  unfold ofBytes toBytes
  simp only [htrim, List.length_append, List.length_replicate, Nat.add_sub_cancel_left]

/-- The count of the bytes. -/
@[simp] theorem length_toBytes (c : Content) : c.toBytes.length = c.length := by
  unfold toBytes length
  rw [List.length_append, List.length_replicate]

/-- The first bytes. -/
theorem take_eq (n : Nat) (c : Content) : c.take n = c.toBytes.take n := by
  have hmissing : n - (c.stored.take n).length = n - c.stored.length := by
    rw [List.length_take]
    omega
  unfold take toBytes
  rw [List.take_append, List.take_replicate]
  simp only [hmissing]

/-- The bytes that follow. -/
@[simp] theorem toBytes_drop (n : Nat) (c : Content) : (c.drop n).toBytes = c.toBytes.drop n := by
  unfold toBytes
  rw [List.drop_append, List.drop_replicate]
  unfold drop
  split
  · next hnil => rw [hnil]
  · next b rest hrest =>
    have hlong : n < c.stored.length := by
      by_contra hshort
      rw [List.drop_eq_nil_of_le (Nat.not_lt.mp hshort)] at hrest
      cases hrest
    rw [Nat.sub_eq_zero_of_le (Nat.le_of_lt hlong), Nat.sub_zero]
    exact congrArg (· ++ List.replicate c.zeros 0) hrest.symm

/-- A content that is cut or stretched. -/
@[simp] theorem toBytes_resize (c : Content) (n : Nat) :
    (c.resize n).toBytes = Bytes.resize c.toBytes n := by
  unfold resize Bytes.resize
  rw [length_toBytes]
  unfold toBytes length
  rw [List.take_append, List.take_replicate, List.append_assoc, ← List.replicate_add]
  by_cases hn : n < c.stored.length
  · have hnone : min (n - c.stored.length) c.zeros + (n - (c.stored.length + c.zeros)) = 0 := by
      omega
    rw [if_pos hn, hnone]
    exact (toBytes_ofBytes _).trans (List.append_nil _).symm
  · have hcount : min (n - c.stored.length) c.zeros + (n - (c.stored.length + c.zeros))
        = n - c.stored.length := by omega
    rw [if_neg hn, hcount, List.take_of_length_le (Nat.not_lt.mp hn)]

end Content

-- ================================================================= names

namespace Volume

variable {v : Volume} {p q : Path} {n m : Nat} {bs : Bytes}

/-- The outermost directory is always there. -/
@[simp] theorem node?_nil (v : Volume) : v.node? [] = some .directory := rfl

/-- A path with parts is looked up. -/
theorem node?_of_ne (v : Volume) (hp : p ≠ []) : v.node? p = v.names.lookup p :=
  if_neg hp

/-- Taking a name away changes what it leads to, and nothing else. -/
theorem node?_unbind (v : Volume) (hp : p ≠ []) (q : Path) :
    (v.unbind p).node? q = if q = p then none else v.node? q := by
  by_cases hq : q = []
  · subst hq
    rw [if_neg (Ne.symm hp)]
    rfl
  · rw [node?_of_ne _ hq, node?_of_ne _ hq]
    exact lookup_filter_ne p q v.names

/-- A name given changes what it leads to, and nothing else. -/
theorem node?_bind (v : Volume) (hp : p ≠ []) (node : Node) (q : Path) :
    (v.bind p node).node? q = if q = p then some node else v.node? q := by
  by_cases hq : q = []
  · subst hq
    rw [if_neg (Ne.symm hp)]
    rfl
  · rw [node?_of_ne _ hq]
    show ((p, node) :: (v.unbind p).names).lookup q = _
    rw [lookup_pair, ← node?_of_ne _ hq, node?_unbind v hp]
    by_cases hqp : q = p
    · rw [if_pos hqp, if_pos hqp]
    · rw [if_neg hqp, if_neg hqp, if_neg hqp]

/-- Writing a file leaves the names alone. -/
@[simp] theorem node?_setContent (v : Volume) (n : Nat) (bs : Bytes) (q : Path) :
    (v.setContent n bs).node? q = v.node? q := rfl

-- ================================================================= files

/-- What a file holds does not depend on its names. -/
theorem content_of_contents {v v' : Volume} (h : v'.contents = v.contents) (n : Nat) :
    v'.content n = v.content n := by
  unfold content file
  rw [h]

/-- A file holds what was written to it, and others what they held. -/
theorem content_setContent (hn : n < v.contents.length) (bs : Bytes) (m : Nat) :
    (v.setContent n bs).content m = if m = n then bs else v.content m := by
  show ((v.contents.set n (.ofBytes bs)).getD m .empty).toBytes = _
  by_cases hmn : m = n
  · subst hmn
    rw [if_pos rfl, List.getD_eq_getElem?_getD, List.getElem?_set_self hn]
    exact Content.toBytes_ofBytes bs
  · rw [if_neg hmn, List.getD_eq_getElem?_getD, List.getElem?_set_ne (Ne.symm hmn)]
    exact congrArg Content.toBytes (List.getD_eq_getElem?_getD ..).symm

/-- No file is made or lost by writing one. -/
@[simp] theorem length_contents_setContent (v : Volume) (n : Nat) (bs : Bytes) :
    (v.setContent n bs).contents.length = v.contents.length :=
  List.length_set

/-- Of two writes to a file the later counts. -/
@[simp] theorem setContent_setContent (v : Volume) (n : Nat) (bs cs : Bytes) :
    (v.setContent n bs).setContent n cs = v.setContent n cs := by
  unfold setContent
  rw [List.set_set]

/-- A file in which what it holds is written again. -/
theorem setContent_content (v : Volume) (n : Nat) : v.setContent n (v.content n) = v := by
  have : v.contents.set n (v.contents.getD n .empty) = v.contents := by
    refine List.ext_getElem? fun m => ?_
    by_cases hmn : n = m
    · subst hmn
      by_cases hn : n < v.contents.length
      · rw [List.getElem?_set_self hn, List.getD_eq_getElem?_getD,
          List.getElem?_eq_getElem hn]
        rfl
      · rw [List.getElem?_set, if_pos rfl, if_neg hn, List.getElem?_eq_none (by omega)]
    · rw [List.getElem?_set_ne hmn]
  unfold setContent content file
  rw [Content.ofBytes_toBytes, this]

/-- A file that is cut or stretched is written as what it comes to hold. -/
theorem resize_eq (v : Volume) (n length : Nat) :
    v.resize n length = v.setContent n (Bytes.resize (v.content n) length) := by
  unfold resize setContent content
  rw [← Content.toBytes_resize, Content.ofBytes_toBytes]

/-- A new file has the next number. -/
theorem node?_addFile (v : Volume) (hp : p ≠ []) (bs : Bytes) (q : Path) :
    (v.addFile p bs).node? q
      = if q = p then some (.file v.contents.length) else v.node? q :=
  node?_bind v hp _ q

/-- A new file leaves the others alone. -/
theorem content_addFile (hm : m < v.contents.length) (p : Path) (bs : Bytes) :
    (v.addFile p bs).content m = v.content m := by
  show ((v.contents ++ [Content.ofBytes bs]).getD m .empty).toBytes = (v.contents.getD m .empty).toBytes
  rw [List.getD_append _ _ _ _ hm]

/-- A new file holds what it was made with. -/
theorem content_addFile_self (v : Volume) (p : Path) (bs : Bytes) :
    (v.addFile p bs).content v.contents.length = bs := by
  show ((v.contents ++ [Content.ofBytes bs]).getD v.contents.length .empty).toBytes = bs
  rw [List.getD_append_right _ _ _ _ (le_refl _), Nat.sub_self]
  exact Content.toBytes_ofBytes bs

/-- A new file is one more. -/
@[simp] theorem length_contents_addFile (v : Volume) (p : Path) (bs : Bytes) :
    (v.addFile p bs).contents.length = v.contents.length + 1 :=
  List.length_append

-- ========================================================== sane volumes

/-- What every volume has that comes about by steps: a name is there once,
a file that is named exists, and it has one name. -/
structure Sane (v : Volume) : Prop where
  nodup : (v.names.map Prod.fst).Nodup
  within : ∀ p n, v.node? p = some (.file n) → n < v.contents.length
  apart : ∀ p q n, v.node? p = some (.file n) → v.node? q = some (.file n) → p = q

/-- What stands in a directory is what the paths into it lead to. -/
theorem Sane.mem_children (hv : v.Sane) (name : String) (node : Node) :
    (name, node) ∈ v.children p ↔ v.node? (p ++ [name]) = some node := by
  have hne : p ++ [name] ≠ [] := List.append_ne_nil_of_right_ne_nil _ (List.cons_ne_nil _ _)
  rw [node?_of_ne _ hne]
  unfold children
  rw [List.mem_filterMap]
  constructor
  · rintro ⟨⟨q, node'⟩, hmem, hq⟩
    split at hq
    · next hdrop =>
        obtain ⟨last, hlast, heq⟩ := Option.map_eq_some_iff.mp hq
        cases heq
        have hq : q = p ++ [name] := by
          rw [← hdrop]
          exact (List.dropLast_append_getLast? _ hlast).symm
        subst hq
        exact lookup_of_nodup hv.nodup hmem
    · cases hq
  · intro h
    refine ⟨(p ++ [name], node), mem_of_lookup h, ?_⟩
    rw [if_pos List.dropLast_concat, List.getLast?_concat]
    rfl

/-- No name stands in a directory twice. -/
theorem Sane.nodup_children (hv : v.Sane) (p : Path) :
    ((v.children p).map Prod.fst).Nodup := by
  have hstep : (v.children p).map Prod.fst
      = (v.names.map Prod.fst).filterMap fun q =>
          if q.dropLast = p then q.getLast? else none := by
    unfold children
    rw [List.map_filterMap, List.filterMap_map]
    refine List.filterMap_congr fun entry _ => ?_
    show Option.map Prod.fst _ = if entry.1.dropLast = p then entry.1.getLast? else none
    split
    · cases entry.1.getLast? <;> rfl
    · rfl
  rw [hstep]
  refine hv.nodup.filterMap fun q q' name hq hq' => ?_
  split at hq
  · next hdrop =>
      split at hq'
      · next hdrop' =>
          rw [← List.dropLast_append_getLast? _ hq, ← List.dropLast_append_getLast? _ hq',
            hdrop, hdrop']
      · cases hq'
  · cases hq

/-- Taking a name away leaves a sane volume. -/
theorem Sane.unbind (hv : v.Sane) (hp : p ≠ []) : (v.unbind p).Sane := by
  have hold : ∀ q n, (v.unbind p).node? q = some (.file n) → v.node? q = some (.file n) := by
    intro q n hq
    rw [node?_unbind v hp] at hq
    split at hq
    · cases hq
    · exact hq
  refine ⟨?_, fun q n hq => hv.within q n (hold q n hq),
    fun q r n hq hr => hv.apart q r n (hold q n hq) (hold r n hr)⟩
  exact (List.filter_sublist.map Prod.fst).nodup hv.nodup

/-- The names stay different when one is given. -/
theorem nodup_bind (hv : v.Sane) (p : Path) (node : Node) :
    ((v.bind p node).names.map Prod.fst).Nodup := by
  refine List.nodup_cons.mpr ⟨fun hmem => ?_, (List.filter_sublist.map Prod.fst).nodup hv.nodup⟩
  obtain ⟨entry, hentry, heq⟩ := List.mem_map.mp hmem
  have := (List.mem_filter.mp hentry).2
  rw [heq] at this
  simp at this

/-- A directory made leaves a sane volume. -/
theorem Sane.bind_directory (hv : v.Sane) (hp : p ≠ []) : (v.bind p .directory).Sane := by
  have hold : ∀ q n, (v.bind p .directory).node? q = some (.file n) →
      v.node? q = some (.file n) := by
    intro q n hq
    rw [node?_bind v hp] at hq
    split at hq
    · cases hq
    · exact hq
  exact ⟨nodup_bind hv p _, fun q n hq => hv.within q n (hold q n hq),
    fun q r n hq hr => hv.apart q r n (hold q n hq) (hold r n hr)⟩

/-- A file that no other path leads to can be given a name. -/
theorem Sane.bind_file (hv : v.Sane) (hp : p ≠ []) (hn : n < v.contents.length)
    (hfree : ∀ q, q ≠ p → v.node? q ≠ some (.file n)) : (v.bind p (.file n)).Sane := by
  refine ⟨nodup_bind hv p _, fun q m hq => ?_, fun q r m hq hr => ?_⟩
  · rw [node?_bind v hp] at hq
    split at hq
    · cases hq
      exact hn
    · exact hv.within q m hq
  · rw [node?_bind v hp] at hq hr
    split at hq
    · next hqp =>
        cases hq
        split at hr
        · next hrp => rw [hqp, hrp]
        · next hrp => exact absurd hr (hfree r hrp)
    · next hqp =>
        split at hr
        · cases hr
          exact absurd hq (hfree q hqp)
        · exact hv.apart q r m hq hr

/-- Writing a file leaves a sane volume. -/
theorem Sane.setContent (hv : v.Sane) (n : Nat) (bs : Bytes) : (v.setContent n bs).Sane := by
  refine ⟨hv.nodup, fun p m hp => ?_, hv.apart⟩
  rw [length_contents_setContent]
  exact hv.within p m hp

/-- A named file holds what was written to it. -/
theorem Sane.content_setContent_self (hv : v.Sane) (hp : v.node? p = some (.file n))
    (bs : Bytes) : (v.setContent n bs).content n = bs := by
  rw [content_setContent (hv.within p n hp), if_pos rfl]

/-- A file made leaves a sane volume. -/
theorem Sane.addFile (hv : v.Sane) (hp : p ≠ []) (bs : Bytes) : (v.addFile p bs).Sane := by
  have hnew : ∀ q, v.node? q ≠ some (.file v.contents.length) := fun q hq =>
    absurd (hv.within q _ hq) (lt_irrefl _)
  refine ⟨nodup_bind hv p _, fun q m hq => ?_, fun q r m hq hr => ?_⟩
  · rw [node?_addFile v hp] at hq
    rw [length_contents_addFile]
    split at hq
    · cases hq
      omega
    · exact lt_trans (hv.within q m hq) (by omega)
  · rw [node?_addFile v hp] at hq hr
    split at hq
    · next hqp =>
        cases hq
        split at hr
        · next hrp => rw [hqp, hrp]
        · exact absurd hr (hnew r)
    · split at hr
      · cases hr
        exact absurd hq (hnew q)
      · exact hv.apart q r m hq hr

/-- A file that is given another name leaves a sane volume. -/
theorem Sane.rename (hv : v.Sane) (hp : p ≠ []) (hq : q ≠ [])
    (h : v.node? p = some (.file n)) : ((v.unbind p).bind q (.file n)).Sane := by
  refine (hv.unbind hp).bind_file hq (hv.within p n h) fun r _ hr => ?_
  rw [node?_unbind v hp] at hr
  split at hr
  · cases hr
  · next hrp => exact hrp (hv.apart r p n hr h)

/-- Nothing is named on the empty volume. -/
theorem sane_empty : empty.Sane := by
  refine ⟨List.nodup_nil, fun p n hp => ?_, fun p q n hp => ?_⟩ <;>
    · by_cases hnil : p = []
      · subst hnil
        cases hp
      · rw [node?_of_ne _ hnil] at hp
        cases hp

-- ======================================================== what is kept

/-- What the paths in `keep` lead to is the same, and so is what those
files hold. -/
def Agree (keep : Path → Prop) (v v' : Volume) : Prop :=
  ∀ q, keep q → v'.node? q = v.node? q ∧
    ∀ n, v.node? q = some (.file n) → v'.content n = v.content n

variable {keep keep' : Path → Prop} {v' v'' : Volume}

/-- Nothing changes when nothing is done. -/
theorem Agree.refl (keep : Path → Prop) (v : Volume) : v.Agree keep v :=
  fun _ _ => ⟨rfl, fun _ _ => rfl⟩

/-- What two steps keep, both together keep. -/
theorem Agree.trans (h : v.Agree keep v') (h' : v'.Agree keep v'') : v.Agree keep v'' := by
  intro q hq
  obtain ⟨hnode, hcontent⟩ := h q hq
  obtain ⟨hnode', hcontent'⟩ := h' q hq
  refine ⟨hnode'.trans hnode, fun n hn => ?_⟩
  rw [hcontent' n (by rw [hnode, hn]), hcontent n hn]

/-- Less is kept, too. -/
theorem Agree.mono (h : v.Agree keep v') (hkeep : ∀ q, keep' q → keep q) :
    v.Agree keep' v' :=
  fun q hq => h q (hkeep q hq)

/-- Writing a file keeps everything but that file. -/
theorem agree_setContent (hv : v.Sane) (hp : v.node? p = some (.file n)) (bs : Bytes) :
    v.Agree (fun q => q ≠ p) (v.setContent n bs) := by
  intro q hq
  refine ⟨rfl, fun m hm => ?_⟩
  rw [content_setContent (hv.within p n hp), if_neg]
  rintro rfl
  exact hq (hv.apart q p m hm hp)

/-- Making a file keeps everything but that path. -/
theorem agree_addFile (hv : v.Sane) (hp : p ≠ []) (bs : Bytes) :
    v.Agree (fun q => q ≠ p) (v.addFile p bs) := by
  intro q hq
  refine ⟨?_, fun m hm => content_addFile (hv.within q m hm) p bs⟩
  rw [node?_addFile v hp, if_neg hq]

/-- Renaming a file keeps everything but the two paths. -/
theorem agree_rename (hp : p ≠ []) (hq : q ≠ []) (n : Nat) :
    v.Agree (fun r => r ≠ p ∧ r ≠ q) ((v.unbind p).bind q (.file n)) := by
  intro r ⟨hrp, hrq⟩
  refine ⟨?_, fun _ _ => rfl⟩
  rw [node?_bind _ hq, if_neg hrq, node?_unbind v hp, if_neg hrp]

end Volume

-- ==================================================== steps that succeed

namespace Disk

variable {v : Volume} {p q : Path} {n : Nat}

/-- The volume is answered. -/
theorem get_ok (v : Volume) : (get : Disk Volume) v = .ok v v := rfl

/-- What a path leads to is answered. -/
theorem node?_ok (p : Path) (v : Volume) : node? p v = .ok (v.node? p) v := rfl

/-- What a file holds is answered. -/
theorem content_ok (n : Nat) (v : Volume) : content n v = .ok (v.content n) v := rfl

/-- What a file holds is read. -/
theorem read_ok (n : Nat) (v : Volume) : read (.file n) v = .ok (v.content n) v := rfl

/-- A file's content is opened. -/
theorem contentOf_ok (n : Nat) (v : Volume) : contentOf (.file n) v = .ok (v.file n) v := rfl

/-- A file is cut or stretched. -/
theorem resize_ok (n length : Nat) (v : Volume) :
    resize n length v = .ok () (v.setContent n (Bytes.resize (v.content n) length)) := by
  rw [← Volume.resize_eq]
  rfl

/-- A file is written. -/
theorem setContent_ok (n : Nat) (bs : Bytes) (v : Volume) :
    setContent n bs v = .ok () (v.setContent n bs) := rfl

/-- Bytes are put at the end of a file. -/
theorem append_ok (n : Nat) (bs : Bytes) (v : Volume) :
    append n bs v = .ok () (v.setContent n (v.content n ++ bs)) := rfl

/-- Bytes are laid over those of a file. -/
theorem overwrite_ok (n offset : Nat) (bs : Bytes) (v : Volume) :
    overwrite n offset bs v = .ok () (v.setContent n (Bytes.overwrite (v.content n) offset bs)) :=
  rfl

/-- What exists is found. -/
theorem existing_ok {node : Node} (h : v.node? p = some node) :
    existing p v = .ok node v := by
  unfold existing
  rw [bind_ok (node?_ok p v), h]
  rfl

/-- A file that exists is found. -/
theorem existingFile_ok (h : v.node? p = some (.file n)) :
    existingFile p v = .ok n v := by
  unfold existingFile
  rw [bind_ok (existing_ok h)]
  rfl

/-- A file that exists is opened. -/
theorem openOrCreate_found (h : v.node? p = some (.file n)) :
    openOrCreate p v = .ok n v := by
  unfold openOrCreate
  rw [bind_ok (get_ok v), h]
  rfl

/-- A file that does not exist is made, if its directory is there. -/
theorem openOrCreate_made (hp : p ≠ []) (hparent : v.node? p.dropLast = some .directory)
    (h : v.node? p = none) :
    openOrCreate p v = .ok v.contents.length (v.addFile p []) := by
  have hin : v.hasParent p = true := by
    unfold Volume.hasParent
    rw [hparent]
    simpa using hp
  unfold openOrCreate
  rw [bind_ok (get_ok v), h]
  simp only [hin, if_true]
  rfl

/-- A file is found under its new name, and no longer under the old one. -/
theorem rename_ok (h : v.node? p = some (.file n)) (hq : v.node? q ≠ some .directory) :
    rename p q v = .ok () ((v.unbind p).bind q (.file n)) := by
  unfold rename
  rw [bind_ok (existingFile_ok h), bind_ok (node?_ok q v)]
  match hnode : v.node? q with
  | none => rfl
  | some (.file _) => rfl
  | some .directory => exact absurd hnode hq

/-- The name of a file is taken away. -/
theorem removeFile_ok (h : v.node? p = some (.file n)) :
    removeFile p v = .ok () (v.unbind p) := by
  unfold removeFile
  rw [bind_ok (existingFile_ok h)]
  rfl

/-- A file is made, or one that is there is emptied; nothing else is
touched. -/
theorem create_ok (hv : v.Sane) (hp : p ≠ []) (hparent : v.node? p.dropLast = some .directory)
    (hplain : v.node? p ≠ some .directory) :
    ∃ file v', create p v = .ok file v' ∧ v'.Sane ∧ v'.node? p = some (.file file) ∧
      v'.content file = [] ∧ v.Agree (fun q => q ≠ p) v' := by
  unfold create
  match hnode : v.node? p with
  | some .directory => exact absurd hnode hplain
  | some (.file n) =>
      refine ⟨n, v.setContent n [], ?_, hv.setContent n [], hnode, ?_,
        Volume.agree_setContent hv hnode []⟩
      · rw [bind_ok (openOrCreate_found hnode)]
        rfl
      · rw [Volume.content_setContent (hv.within p n hnode), if_pos rfl]
  | none =>
      have hself : (v.addFile p []).setContent v.contents.length [] = v.addFile p [] := by
        have := (v.addFile p []).setContent_content v.contents.length
        rwa [Volume.content_addFile_self] at this
      refine ⟨v.contents.length, v.addFile p [], ?_, hv.addFile hp [], ?_,
        Volume.content_addFile_self v p [], Volume.agree_addFile hv hp []⟩
      · rw [bind_ok (openOrCreate_made hp hparent hnode), bind_ok (setContent_ok _ _ _), hself]
        rfl
      · rw [Volume.node?_addFile v hp, if_pos rfl]

/-- Directories are made where none are. Everything else stays. -/
theorem createDirectoriesFrom_ok (outer : Path) (names : List String) (hv : v.Sane)
    (hfree : ∀ q, outer <+: q → q <+: outer ++ names →
      v.node? q = none ∨ v.node? q = some .directory) :
    ∃ v', createDirectoriesFrom outer names v = .ok () v' ∧ v'.Sane ∧
      v'.contents = v.contents ∧
      ∀ q, v'.node? q = if outer <+: q ∧ q ≠ outer ∧ q <+: outer ++ names
        then some .directory else v.node? q := by
  induction names generalizing v outer with
  | nil =>
      refine ⟨v, rfl, hv, rfl, fun q => ?_⟩
      rw [if_neg]
      rintro ⟨hlow, hne, hhigh⟩
      rw [List.append_nil] at hhigh
      exact hne (hhigh.eq_of_length_le hlow.length_le)
  | cons name names ih =>
      have hpath : outer ++ name :: names = (outer ++ [name]) ++ names := by
        rw [List.append_assoc, List.singleton_append]
      have hne : outer ++ [name] ≠ [] :=
        List.append_ne_nil_of_right_ne_nil _ (List.cons_ne_nil _ _)
      have hstep : outer <+: outer ++ [name] := List.prefix_append _ _
      have hinner : outer ++ [name] <+: outer ++ name :: names := by
        rw [hpath]
        exact List.prefix_append _ _
      -- the directories beyond the first part are those of the way behind it, and itself
      have hbeyond : ∀ q, (outer <+: q ∧ q ≠ outer ∧ q <+: outer ++ name :: names) ↔
          q = outer ++ [name] ∨
            (outer ++ [name] <+: q ∧ q ≠ outer ++ [name] ∧ q <+: (outer ++ [name]) ++ names) := by
        intro q
        rw [hpath]
        constructor
        · rintro ⟨hlow, hneq, hhigh⟩
          have hlong : (outer ++ [name]).length ≤ q.length := by
            have hlt : outer.length < q.length := by
              refine lt_of_le_of_ne hlow.length_le fun hlen => ?_
              exact hneq (hlow.eq_of_length hlen).symm
            rw [List.length_append]
            exact hlt
          have hover := List.prefix_of_prefix_length_le (List.prefix_append _ names) hhigh hlong
          by_cases hq : q = outer ++ [name]
          · exact Or.inl hq
          · exact Or.inr ⟨hover, hq, hhigh⟩
        · rintro (rfl | ⟨hlow, hneq, hhigh⟩)
          · exact ⟨hstep, by simp, List.prefix_append _ _⟩
          · refine ⟨hstep.trans hlow, ?_, hhigh⟩
            rintro rfl
            have := hlow.length_le
            rw [List.length_append, List.length_singleton] at this
            omega
      have hgo : ∃ v₁ : Volume, createDirectoriesFrom outer (name :: names) v
            = createDirectoriesFrom (outer ++ [name]) names v₁ ∧ v₁.Sane ∧
          v₁.contents = v.contents ∧
          ∀ q, v₁.node? q = if q = outer ++ [name] then some .directory else v.node? q := by
        rcases hfree _ hstep hinner with hnode | hnode
        · refine ⟨v.bind (outer ++ [name]) .directory, ?_, hv.bind_directory hne, rfl,
            fun q => Volume.node?_bind v hne _ q⟩
          rw [createDirectoriesFrom, bind_ok (node?_ok _ v), hnode]
          rfl
        · refine ⟨v, ?_, hv, rfl, fun q => ?_⟩
          · rw [createDirectoriesFrom, bind_ok (node?_ok _ v), hnode]
          · by_cases hq : q = outer ++ [name]
            · rw [if_pos hq, hq, hnode]
            · rw [if_neg hq]
      obtain ⟨v₁, hrun, hv₁, hcontents, hnodes⟩ := hgo
      obtain ⟨v', hok, hv', hcontents', hnodes'⟩ := ih (outer ++ [name]) hv₁ (by
        intro q hlow hhigh
        rw [hnodes]
        split
        · exact Or.inr rfl
        · exact hfree q (hstep.trans hlow) (by rw [hpath]; exact hhigh))
      refine ⟨v', by rw [hrun, hok], hv', by rw [hcontents', hcontents], fun q => ?_⟩
      rw [hnodes', hnodes]
      simp only [hbeyond q]
      by_cases hq : q = outer ++ [name]
      · rw [if_pos (Or.inl hq), if_neg (fun h => h.2.1 hq), if_pos hq]
      · rw [if_neg hq]
        simp only [hq, false_or]

/-- A directory and those around it are made where they are not there yet;
everything else stays. -/
theorem createDirectories_ok (hv : v.Sane)
    (hfree : ∀ q, q <+: p → v.node? q = none ∨ v.node? q = some .directory) :
    ∃ v', createDirectories p v = .ok () v' ∧ v'.Sane ∧ v'.contents = v.contents ∧
      ∀ q, v'.node? q = if q <+: p then some .directory else v.node? q := by
  obtain ⟨v', hok, hv', hcontents, hnodes⟩ :=
    createDirectoriesFrom_ok [] p hv fun q _ hq => hfree q hq
  refine ⟨v', hok, hv', hcontents, fun q => ?_⟩
  rw [hnodes, List.nil_append]
  by_cases hnil : q = []
  · subst hnil
    rw [if_neg (fun h => h.2.1 rfl), if_pos List.nil_prefix]
    rfl
  · simp only [List.nil_prefix, true_and, hnil, ne_eq, not_false_eq_true]

/-- Directories that are there already are left as they are. -/
theorem createDirectoriesFrom_rooted (names : List String) {outer : Path}
    (h : ∀ q, q <+: outer ++ names → v.node? q = some .directory) :
    createDirectoriesFrom outer names v = .ok () v := by
  induction names generalizing outer with
  | nil => rfl
  | cons name names ih =>
      have hpath : outer ++ name :: names = (outer ++ [name]) ++ names := by
        rw [List.append_assoc, List.singleton_append]
      rw [hpath] at h
      rw [createDirectoriesFrom, bind_ok (node?_ok _ v), h _ (List.prefix_append _ _)]
      exact ih h

/-- A directory that is there already is left as it is. -/
theorem createDirectories_rooted (h : ∀ q, q <+: p → v.node? q = some .directory) :
    createDirectories p v = .ok () v :=
  createDirectoriesFrom_rooted p (by rwa [List.nil_append])

end Disk

end OrderedStore
