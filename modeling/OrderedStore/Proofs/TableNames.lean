/-
What the name of a file says.

A file is a table's, or one left unfinished, by its name alone, so the
names decide what is found again when a directory is opened. A table's name
gives its number back (`tableId?_tableName`), and a name that says
unfinished is no table's (`tableId?_of_isUnfinished`).
-/
import Mathlib
import OrderedStore.Catalog

namespace OrderedStore

namespace Text

/-- Padded digits are digits. -/
theorem isDigit_of_mem_padded {width n : Nat} {c : Char}
    (h : c ∈ (paddedDecimal width n).toList) : c.isDigit = true := by
  unfold paddedDecimal at h
  rw [String.toList_ofList, Nat.toString_eq_repr, Nat.toList_repr] at h
  rcases List.mem_append.mp h with h | h
  · rw [List.eq_of_mem_replicate h]
    rfl
  · exact Nat.isDigit_of_mem_toDigits (by omega) (by omega) h

/-- There is at least one digit. -/
theorem padded_ne_nil (width n : Nat) : (paddedDecimal width n).toList ≠ [] := by
  unfold paddedDecimal
  rw [String.toList_ofList, Nat.toString_eq_repr, Nat.toList_repr]
  exact List.append_ne_nil_of_right_ne_nil _ Nat.toDigits_ne_nil

/-- A padded number is read back. -/
theorem readDecimal_padded (width : Nat) (id : UInt64) :
    readDecimal (paddedDecimal width id.toNat).toList = some id := by
  have hvalue : ((paddedDecimal width id.toNat).toList).foldl
      (fun n c => 10 * n + (c.toNat - 48)) 0 = id.toNat := by
    unfold paddedDecimal
    rw [String.toList_ofList, Nat.toString_eq_repr, Nat.toList_repr]
    show Nat.ofDigitChars 10 (_ ++ _) 0 = _
    rw [Nat.ofDigitChars_append, Nat.ofDigitChars_replicate_zero, Nat.mul_zero,
      Nat.ofDigitChars_ten_toDigits]
  have hall : (paddedDecimal width id.toNat).toList.all Char.isDigit = true :=
    List.all_eq_true.mpr fun c hc => isDigit_of_mem_padded hc
  obtain ⟨c, cs, hcs⟩ := List.exists_cons_of_ne_nil (padded_ne_nil width id.toNat)
  rw [hcs] at hvalue hall ⊢
  have hplus : c ≠ '+' := by
    rintro rfl
    have := (List.all_eq_true.mp hall) '+' List.mem_cons_self
    cases this
  unfold readDecimal
  split
  · next heq =>
      cases heq
      exact absurd rfl hplus
  · simp only [hall, hvalue, List.isEmpty_cons, Bool.not_true, Bool.or_false,
      Bool.false_eq_true, if_false]
    rw [if_pos id.toNat_lt, UInt64.ofNat_toNat]

end Text

namespace Catalog

-- ============================================================= extensions

/-- What stands behind the last dot is the extension. -/
theorem splitExtension_ofList {stem extension : List Char} (hstem : stem ≠ [])
    (hextension : extension ≠ []) (hdot : '.' ∉ extension) :
    splitExtension (String.ofList (stem ++ '.' :: extension))
      = (String.ofList stem, some (String.ofList extension)) := by
  have hback : (String.ofList (stem ++ '.' :: extension)).toList.reverse
      = extension.reverse ++ '.' :: stem.reverse := by
    rw [String.toList_ofList, List.reverse_append, List.reverse_cons, List.append_assoc,
      List.singleton_append]
  have hnone : ∀ c ∈ extension.reverse, decide (c ≠ '.') = true := by
    intro c hc
    rw [decide_eq_true_eq]
    rintro rfl
    exact hdot (List.mem_reverse.mp hc)
  have htake : (extension.reverse ++ '.' :: stem.reverse).takeWhile (· ≠ '.')
      = extension.reverse := by
    rw [List.takeWhile_append_of_pos hnone, List.takeWhile_cons_of_neg (by simp),
      List.append_nil]
  have hdrop : (extension.reverse ++ '.' :: stem.reverse).dropWhile (· ≠ '.')
      = '.' :: stem.reverse := by
    rw [List.dropWhile_append_of_pos hnone, List.dropWhile_cons_of_neg (by simp)]
  have hname : (String.ofList (stem ++ '.' :: extension) == "..") = false := by
    rw [beq_eq_false_iff_ne]
    intro heq
    have hlength := congrArg (fun s : String => s.toList.length) heq
    have hdots : "..".toList.length = 2 := rfl
    simp only [String.toList_ofList, List.length_append, List.length_cons, hdots] at hlength
    have := List.length_pos_iff.mpr hstem
    have := List.length_pos_iff.mpr hextension
    omega
  have hempty : stem.reverse.isEmpty = false := by
    rw [List.isEmpty_eq_false_iff, ne_eq, List.reverse_eq_nil_iff]
    exact hstem
  unfold splitExtension
  simp only [hback, htake, hdrop, hname, hempty, Bool.or_false, Bool.false_eq_true, if_false,
    List.reverse_reverse]

/-- What stands before the dot in a table's name. -/
def stemOf (id : UInt64) : List Char :=
  "sstable_".toList ++ (Text.paddedDecimal 6 id.toNat).toList

/-- A table's name, character by character. -/
theorem tableName_eq (id : UInt64) :
    tableName id = String.ofList (stemOf id ++ '.' :: ['s', 's', 't']) := by
  refine String.toList_injective ?_
  have hright : (String.ofList (stemOf id ++ '.' :: ['s', 's', 't'])).toList
      = stemOf id ++ '.' :: ['s', 's', 't'] := String.toList_ofList
  unfold tableName
  rw [hright, String.toList_append, String.toList_append]
  rfl

/-- What follows a beginning is found. -/
theorem after?_append (lead cs : List Char) : after? lead (lead ++ cs) = some cs := by
  induction lead with
  | nil => cases cs <;> rfl
  | cons c lead ih =>
      rw [List.cons_append, after?, if_pos rfl, ih]

/-- A table's name has the extension of tables. -/
theorem splitExtension_tableName (id : UInt64) :
    splitExtension (tableName id) = (String.ofList (stemOf id), some "sst") := by
  rw [tableName_eq, splitExtension_ofList]
  · exact List.append_ne_nil_of_right_ne_nil _ (Text.padded_ne_nil _ _)
  · decide
  · decide

/-- With the extension of tables, the number is what follows the beginning
that all tables have. -/
theorem tableId?_of_split {name : String} {stem : List Char}
    (h : splitExtension name = (String.ofList stem, some "sst")) :
    tableId? name = (after? "sstable_".toList stem).bind Text.readDecimal := by
  unfold tableId?
  rw [h]
  simp only [if_true]
  congr 2
  exact String.toList_ofList

/-- A table's name gives its number back. -/
theorem tableId?_tableName (id : UInt64) : tableId? (tableName id) = some id := by
  have hdigits : after? "sstable_".toList (stemOf id)
      = some (Text.paddedDecimal 6 id.toNat).toList := after?_append _ _
  have hread := Text.readDecimal_padded 6 id
  rw [tableId?_of_split (splitExtension_tableName id), hdigits, Option.bind_some, hread]

/-- Tables with different numbers have different names. -/
theorem tableName_injective {id id' : UInt64} (h : tableName id = tableName id') :
    id = id' := by
  have := tableId?_tableName id
  rw [h, tableId?_tableName] at this
  exact (Option.some.inj this).symm

-- ============================================================== unfinished

/-- A name that says unfinished is no table's. -/
theorem tableId?_of_isUnfinished {name : String} (h : isUnfinished name = true) :
    tableId? name = none := by
  have htmp : (splitExtension name).2 = some "tmp" := by
    simpa [isUnfinished] using h
  unfold tableId?
  match hsplit : splitExtension name with
  | (stem, extension) =>
      rw [hsplit] at htmp
      obtain rfl : extension = some "tmp" := htmp
      rfl

/-- A name that ends as temporary names do says unfinished. -/
theorem isUnfinished_tmp {s : String} (hs : s ≠ "") : isUnfinished (s ++ ".tmp") = true := by
  have hname : s ++ ".tmp" = String.ofList (s.toList ++ '.' :: ['t', 'm', 'p']) := by
    refine String.toList_injective ?_
    have hright : (String.ofList (s.toList ++ '.' :: ['t', 'm', 'p'])).toList
        = s.toList ++ '.' :: ['t', 'm', 'p'] := String.toList_ofList
    rw [hright, String.toList_append]
    rfl
  have hstem : s.toList ≠ [] := by
    intro hnil
    exact hs (String.toList_injective hnil)
  unfold isUnfinished
  rw [hname, splitExtension_ofList hstem (by decide) (by decide), String.ofList_toList]
  rfl

/-- The name under which a table is written says unfinished. -/
theorem isUnfinished_temporary (id : UInt64) :
    isUnfinished (tableName id ++ ".tmp") = true := by
  refine isUnfinished_tmp fun hempty => ?_
  have := congrArg String.toList hempty
  rw [tableName_eq, String.toList_ofList] at this
  cases this

/-- A table's name is not one under which a table is written. -/
theorem tableName_ne_temporary (id id' : UInt64) : tableName id ≠ tableName id' ++ ".tmp" := by
  intro heq
  have := tableId?_tableName id
  rw [heq, tableId?_of_isUnfinished (isUnfinished_temporary id')] at this
  cases this

end Catalog

end OrderedStore
