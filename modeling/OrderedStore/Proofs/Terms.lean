/-
The delimiter of keys in the terms of a text.

A term comes from a word in lower case. Lower case gives no delimiter and takes
none away. Of the variants of a word, the one without what is neither letter
nor digit and the folded one never have a delimiter, since a delimiter is
neither, and since whatever a character is folded into is spelled in letters
and digits of ASCII. So all that is left is the word itself, and a word has a
delimiter only where one makes a word (`Text.entangled`).

The key of a term can be told from all others just if there is no delimiter in
what is indexed: then it is read back, and a search for a term or for what
begins like a text meets it as the term alone would have it (`IndexKeys.Tells`).
Otherwise it is the key of another term, too, which has no delimiter
(`Term.asRead`). In a term of a text the delimiter stands in front, so what the
other one indexes is empty, and only what is empty or has a delimiter itself
could take the one for the other (`asRead_meets`).
-/
import Mathlib
import OrderedStore.Proofs.IndexKeys
import OrderedStore.Proofs.Words

namespace OrderedStore
namespace Text

open Term (delimiter)

-- ================================================================ folding

/-- Nothing but letters and digits of ASCII. -/
def Spelled (cs : List Char) : Prop :=
  ∀ c ∈ cs, c.isAlphanum = true

theorem spelled_nil : Spelled [] :=
  fun _ hc => absurd hc List.not_mem_nil

theorem Spelled.append {cs ds : List Char} (hc : Spelled cs) (hd : Spelled ds) :
    Spelled (cs ++ ds) :=
  List.forall_mem_append.mpr ⟨hc, hd⟩

theorem spelled_of_all {cs : List Char} (h : cs.all Char.isAlphanum = true) : Spelled cs :=
  List.all_eq_true.mp h

/-- Letters and digits stay so in lower case. -/
theorem isAlphanum_toLower {c : Char} (h : c.isAlphanum = true) : c.toLower.isAlphanum = true := by
  have hall : ∀ n < 128, (Char.ofNat n).isAlphanum = true →
      (Char.ofNat n).toLower.isAlphanum = true := by
    decide +kernel
  have hlow : c.toNat < 128 := by
    simp only [Char.isAlphanum, Char.isAlpha, Char.isUpper, Char.isLower, Char.isDigit,
      Bool.or_eq_true, Bool.and_eq_true, decide_eq_true_eq, UInt32.le_iff_toNat_le,
      ge_iff_le] at h
    have hc : c.toNat = c.val.toNat := rfl
    have hZ : 'Z'.val.toNat = 90 := rfl
    have hz : 'z'.val.toNat = 122 := rfl
    have hnine : '9'.val.toNat = 57 := rfl
    omega
  have hc := hall c.toNat hlow
  rw [Char.ofNat_toNat] at hc
  exact hc h

theorem spelled_transliterateAscii (c : Char) : Spelled (transliterateAscii c) := by
  unfold transliterateAscii isAsciiAlphanumeric
  split
  · next h =>
      intro x hx
      rw [List.mem_singleton.mp hx]
      exact isAlphanum_toLower h
  · exact spelled_nil

/-- A code point counted round from a letter or digit on spells one, if they
all do. -/
theorem spelled_singleton {first count n : Nat} (hn : n < count)
    (h : ∀ k < count, (Char.ofNat (first + k)).isAlphanum = true) :
    Spelled [Char.ofNat (first + n)] := by
  intro x hx
  rw [List.mem_singleton.mp hx]
  exact h n hn

/-- What stands in a list of spelled words at some place, if anything. -/
theorem spelled_getD {words : List String}
    (h : words.all (fun w => w.toList.all Char.isAlphanum) = true) (i : Nat) :
    Spelled (words.getD i "").toList := by
  rw [List.getD_eq_getElem?_getD]
  cases hi : words[i]? with
  | none => exact spelled_nil
  | some w => exact spelled_of_all (List.all_eq_true.mp h w (List.mem_of_getElem? hi))

theorem spelled_hangulSyllable (index : Nat) : Spelled (hangulSyllable index).toList := by
  unfold hangulSyllable
  rw [String.toList_append, String.toList_append]
  refine ((spelled_getD ?_ _).append (spelled_getD ?_ _)).append (spelled_getD ?_ _) <;>
    decide +kernel

/-- The readings of Han characters are syllables, entered in turn into a table
that is empty at first. -/
theorem spelled_hanReading (n : Nat) : Spelled (hanReading n) := by
  have hsyllables : hanSyllables.all (fun p => p.1.toList.all Char.isAlphanum) = true := by
    decide +kernel
  have hreadings : ∀ reading ∈ hanReadings, Spelled reading := by
    unfold hanReadings
    refine List.foldlRecOn (motive := fun readings => ∀ reading ∈ readings, Spelled reading)
      hanSyllables _ ?_ fun readings hreadings p hp => ?_
    · intro reading hreading
      rw [(Array.mem_replicate.mp hreading).2]
      exact spelled_nil
    · refine List.foldlRecOn (motive := fun readings => ∀ reading ∈ readings, Spelled reading)
        p.2.toList _ hreadings fun entered hentered c _ => ?_
      intro reading hreading
      rcases Array.mem_or_eq_of_mem_setIfInBounds hreading with hold | rfl
      · exact hentered reading hold
      · exact spelled_of_all (List.all_eq_true.mp hsyllables p hp)
  unfold hanReading
  rw [Array.getD_eq_getD_getElem?]
  cases hi : hanReadings[n - hanFirst]? with
  | none => exact spelled_nil
  | some reading => exact hreadings reading (Array.mem_of_getElem? hi)

/-- Rows whose characters all have spelled words. -/
def SpelledRows (rows : List LetterRow) : Prop :=
  ∀ row ∈ rows, ∀ letters ∈ row.letters, Spelled letters

theorem spelledRows_nil : SpelledRows [] :=
  fun _ h => absurd h List.not_mem_nil

/-- Of the words of a row only letters and digits count. -/
theorem spelledRows_cons (first : Nat) (lines : List String) {rows : List LetterRow}
    (h : SpelledRows rows) : SpelledRows (.ofLines first lines :: rows) := by
  refine List.forall_mem_cons.mpr ⟨?_, h⟩
  intro letters hletters x hx
  unfold LetterRow.ofLines at hletters
  simp only [List.mem_toArray, List.mem_map] at hletters
  obtain ⟨word, -, rfl⟩ := hletters
  exact (List.mem_filter.mp hx).2

theorem spelledRows_append {rows rows' : List LetterRow} (h : SpelledRows rows)
    (h' : SpelledRows rows') : SpelledRows (rows ++ rows') :=
  List.forall_mem_append.mpr ⟨h, h'⟩

theorem spelledRows_letterRows : SpelledRows letterRows := by
  unfold letterRows
  repeat' first | apply spelledRows_append | apply spelledRows_cons | exact spelledRows_nil

theorem spelled_rowLetters (n : Nat) : Spelled (rowLetters n) := by
  unfold rowLetters
  cases hfound : letterRows.findSome? fun row => row.letters? n with
  | none => exact spelled_nil
  | some letters =>
      obtain ⟨row, hrow, hletters⟩ := List.exists_of_findSome?_eq_some hfound
      unfold LetterRow.letters? at hletters
      split at hletters
      · exact spelledRows_letterRows row hrow letters (Array.mem_of_getElem? hletters)
      · cases hletters

/-- Whatever stands for a character is spelled in letters and digits. -/
theorem spelled_transliterate (c : Char) : Spelled (transliterate c) := by
  unfold transliterate
  dsimp only
  split
  · exact spelled_transliterateAscii c
  split
  · exact spelled_hangulSyllable _
  split
  · exact spelled_transliterateAscii _
  split
  · exact spelled_singleton (Nat.mod_lt _ (by decide : 0 < 26)) (by decide +kernel)
  split
  · exact spelled_singleton (Nat.mod_lt _ (by decide : 0 < 10)) (by decide +kernel)
  split
  · next h =>
      exact spelled_singleton (show c.toNat - 0x1F1E6 < 26 by omega) (by decide +kernel)
  split
  · exact spelled_hanReading _
  · exact spelled_rowLetters _

/-- So is what a text is folded into. -/
theorem spelled_fold (cs : List Char) : Spelled (fold cs) := by
  intro x hx
  obtain ⟨c, -, hc⟩ := List.mem_flatMap.mp hx
  exact spelled_transliterate c x hc

theorem delimiter_not_mem_fold (cs : List Char) : delimiter ∉ fold cs :=
  fun h => absurd (spelled_fold cs delimiter h) (by decide)

-- ============================================================= lower case

/-- A code point that is no tab is not that of a tab. -/
theorem ofNat_ne_delimiter {n : Nat} (h : n ≠ 9) : Char.ofNat n ≠ delimiter := by
  intro heq
  by_cases hvalid : n.isValidChar
  · have hn : (Char.ofNat n).toNat = n := by
      rw [Char.ofNat, dif_pos hvalid]
      rfl
    rw [heq] at hn
    exact h hn.symm
  · rw [Char.ofNat, dif_neg hvalid] at heq
    exact absurd heq (by decide)

/-- A character becomes a delimiter only if it is one. -/
theorem delimiter_mem_lowerChar {c : Char} : delimiter ∈ lowerChar c ↔ c = delimiter := by
  have hruns : caseRuns.all (fun r => 9 < r.first && 9 < (r.first : Int) + r.shift) = true := by
    decide +kernel
  unfold lowerChar
  split
  · next hdotted =>
      refine iff_of_false (by decide) fun hc => ?_
      rw [hc] at hdotted
      exact absurd hdotted (by decide)
  split
  · next r hfound =>
      have hfirst : r.first ≤ c.toNat := by
        have hholds := List.find?_some hfound
        simp only [Bool.and_eq_true, decide_eq_true_eq] at hholds
        exact hholds.1.1
      have habove := List.all_eq_true.mp hruns r (List.mem_of_find?_eq_some hfound)
      rw [Bool.and_eq_true, decide_eq_true_eq, decide_eq_true_eq] at habove
      refine iff_of_false (fun h => ?_) fun hc => ?_
      · exact ofNat_ne_delimiter (by omega) (List.mem_singleton.mp h).symm
      · have hnat : c.toNat = 9 := congrArg Char.toNat hc
        omega
  · rw [List.mem_singleton]
    exact eq_comm

theorem delimiter_mem_lowerBetween {before : List Char} {c : Char} {rest : List Char} :
    delimiter ∈ lowerBetween before c rest ↔ c = delimiter := by
  unfold lowerBetween
  split
  · next hsigma =>
      refine iff_of_false ?_ fun hc => ?_
      · split <;> decide
      · rw [hc] at hsigma
        exact absurd hsigma (by decide)
  · exact delimiter_mem_lowerChar

/-- A text in lower case has a delimiter if the text has one. -/
theorem delimiter_mem_lower (cs : List Char) : delimiter ∈ lower cs ↔ delimiter ∈ cs := by
  have honto (done before : List Char) :
      delimiter ∈ lowerOnto done before cs ↔ delimiter ∈ done ∨ delimiter ∈ cs := by
    induction cs generalizing done before with
    | nil => simp only [lowerOnto, List.mem_reverse, List.not_mem_nil, or_false]
    | cons c cs ih =>
        rw [lowerOnto, ih, List.mem_append, List.mem_reverse, delimiter_mem_lowerBetween,
          List.mem_cons, or_comm (a := c = delimiter), or_assoc, eq_comm]
  unfold lower
  rw [honto, or_iff_right List.not_mem_nil]

/-- The text in lower case begins with its first character in lower case. -/
theorem lower_cons (c : Char) (cs : List Char) :
    ∃ rest, lower (c :: cs) = lowerBetween [] c cs ++ rest := by
  have honto (done before cs : List Char) :
      lowerOnto done before cs = done.reverse ++ lowerOnto [] before cs := by
    induction cs generalizing done before with
    | nil => exact (List.append_nil _).symm
    | cons c cs ih =>
        rw [lowerOnto, lowerOnto, ih, ih ((lowerBetween before c cs).reverse ++ [])]
        simp
  refine ⟨lowerOnto [] [c] cs, ?_⟩
  unfold lower
  rw [lowerOnto, honto]
  simp

/-- No character is lost in lower case. -/
theorem lowerBetween_ne_nil (before : List Char) (c : Char) (rest : List Char) :
    lowerBetween before c rest ≠ [] := by
  unfold lowerBetween lowerChar
  split
  · split <;> exact List.cons_ne_nil _ _
  · split
    · exact List.cons_ne_nil _ _
    · split <;> exact List.cons_ne_nil _ _

/-- So a text in lower case is empty only if the text is. -/
theorem lower_ne_nil {cs : List Char} (h : cs ≠ []) : lower cs ≠ [] := by
  cases cs with
  | nil => exact absurd rfl h
  | cons c cs =>
      obtain ⟨rest, hlower⟩ := lower_cons c cs
      rw [hlower]
      exact List.append_ne_nil_of_left_ne_nil (lowerBetween_ne_nil _ _ _) rest

/-- It begins with a delimiter if the text does. -/
theorem head?_lower {cs : List Char} (h : cs.head? = some delimiter) :
    (lower cs).head? = some delimiter := by
  cases cs with
  | nil => cases h
  | cons c cs =>
      obtain rfl : c = delimiter := Option.some.inj h
      have hkept : lowerBetween [] delimiter cs = [delimiter] := by
        unfold lowerBetween
        rw [if_neg (by decide)]
        decide +kernel
      obtain ⟨rest, hlower⟩ := lower_cons delimiter cs
      rw [hlower, hkept]
      rfl

end Text

-- ================================================================== terms

namespace Term

/-- No delimiter in what is indexed, and none in the word it comes from. -/
def Clean (t : Term) : Prop :=
  delimiter ∉ t.index.toList ∧ delimiter ∉ t.raw.toList

theorem mem_addForm {forms : List (List Char)} {form form' : List Char}
    (h : form' ∈ addForm forms form) : form' ∈ forms ∨ form' = form := by
  unfold addForm at h
  split at h
  · exact Or.inl h
  · exact (List.mem_append.mp h).imp id List.mem_singleton.mp

theorem mem_addForm_of_mem {forms : List (List Char)} {form' : List Char} (h : form' ∈ forms)
    (form : List Char) : form' ∈ addForm forms form := by
  unfold addForm
  split
  · exact h
  · exact List.mem_append_left _ h

/-- A word is among its forms. -/
theorem self_mem_forms (word : List Char) : word ∈ forms word :=
  mem_addForm_of_mem (mem_addForm_of_mem (List.mem_singleton_self word) _) _

/-- Only the word itself can have a delimiter. -/
theorem eq_of_mem_forms {word form : List Char} (h : form ∈ forms word)
    (hdelimiter : delimiter ∈ form) : form = word := by
  rcases mem_addForm h with h | rfl
  · rcases mem_addForm h with h | rfl
    · exact List.mem_singleton.mp h
    · exact absurd (List.mem_filter.mp hdelimiter).2 (by decide +kernel)
  · exact absurd hdelimiter (Text.delimiter_not_mem_fold word)

/-- The terms of a word are clean if the word is. -/
theorem clean_ofWord_iff {position : Nat} {word : List Char} :
    (∀ t ∈ ofWord position word, t.Clean) ↔ delimiter ∉ word := by
  unfold ofWord
  rw [← Text.delimiter_mem_lower word]
  dsimp only
  constructor
  · intro h
    have hself := (h _ (List.mem_map_of_mem (self_mem_forms (Text.lower word)))).2
    rwa [String.toList_ofList] at hself
  · intro h t ht
    obtain ⟨form, hform, rfl⟩ := List.mem_map.mp ht
    unfold Clean
    rw [String.toList_ofList, String.toList_ofList]
    exact ⟨fun hdelimiter => h (eq_of_mem_forms hform hdelimiter ▸ hdelimiter), h⟩

/-- The terms of words are clean if the words are. -/
theorem clean_ofWords_iff {position : Nat} {ws : List (List Char)} :
    (∀ t ∈ ofWords position ws, t.Clean) ↔ ∀ w ∈ ws, delimiter ∉ w := by
  induction ws generalizing position with
  | nil => simp only [ofWords, List.not_mem_nil, false_implies, implies_true]
  | cons w ws ih =>
      rw [ofWords, List.forall_mem_append, clean_ofWord_iff, ih, List.forall_mem_cons]

/-- The terms of a text are clean unless a delimiter of the text makes a word. -/
theorem clean_ofText_iff (text : String) :
    (∀ t ∈ ofText text, t.Clean) ↔ Text.entangled text.toList = false := by
  unfold ofText
  rw [clean_ofWords_iff, ← Bool.not_eq_true, ← Text.marked_words_iff, not_exists]
  exact forall_congr' fun w => not_and.symm

/-- A text as one term is clean, whatever the text. -/
theorem clean_verbatim (text : String) : (verbatim text).Clean := by
  have hfilter : delimiter ∉ text.toList.filter (· ≠ delimiter) := fun h =>
    of_decide_eq_true (List.mem_filter.mp h).2 rfl
  unfold verbatim Clean
  rw [String.toList_ofList]
  exact ⟨hfilter, hfilter⟩

/-- No variant is empty. -/
theorem nil_not_mem_addForm {forms : List (List Char)} (h : [] ∉ forms) (form : List Char) :
    [] ∉ addForm forms form := by
  unfold addForm
  split
  · exact h
  · next hnew =>
      intro hmem
      rcases List.mem_append.mp hmem with hmem | hmem
      · exact h hmem
      · rw [← List.mem_singleton.mp hmem] at hnew
        exact hnew rfl

/-- No form of a word is empty. -/
theorem nil_not_mem_forms {word : List Char} (h : word ≠ []) : [] ∉ forms word :=
  nil_not_mem_addForm (nil_not_mem_addForm (fun hmem => h (List.mem_singleton.mp hmem).symm) _) _

/-- The terms of words are those of each word at its place. -/
theorem mem_ofWords_iff {position : Nat} {ws : List (List Char)} {t : Term} :
    t ∈ ofWords position ws ↔ ∃ p ∈ ws.zipIdx position, t ∈ ofWord p.2 p.1 := by
  induction ws generalizing position with
  | nil => simp [ofWords]
  | cons w ws ih => simp [ofWords, ih]

/-- What is indexed of a text is never empty. -/
theorem index_ne_empty {text : String} {t : Term} (ht : t ∈ ofText text) : t.index ≠ "" := by
  obtain ⟨⟨word, i⟩, hword, ht⟩ := mem_ofWords_iff.mp ht
  obtain ⟨form, hform, rfl⟩ := List.mem_map.mp ht
  have hne := Text.ne_nil_of_mem_words (List.fst_mem_of_mem_zipIdx hword)
  intro hempty
  obtain rfl : form = [] := String.ofList_eq_empty_iff.mp hempty
  exact nil_not_mem_forms (Text.lower_ne_nil hne) hform

/-- It begins with a delimiter if there is one in it. -/
theorem head?_index {text : String} {t : Term} (ht : t ∈ ofText text)
    (h : delimiter ∈ t.index.toList) : t.index.toList.head? = some delimiter := by
  obtain ⟨⟨word, i⟩, hword, ht⟩ := mem_ofWords_iff.mp ht
  obtain ⟨form, hform, rfl⟩ := List.mem_map.mp ht
  rw [String.toList_ofList] at h ⊢
  obtain rfl := eq_of_mem_forms hform h
  exact Text.head?_lower (Text.head?_of_mem_words (List.fst_mem_of_mem_zipIdx hword)
    ((Text.delimiter_mem_lower word).mp h))

/-- A term of words is a form of one of them, and all forms of that are among
the terms. -/
theorem of_mem_ofWords {position : Nat} {ws : List (List Char)} {t : Term}
    (ht : t ∈ ofWords position ws) :
    ∃ place word, t ∈ ofWord place word ∧ ∀ t' ∈ ofWord place word, t' ∈ ofWords position ws := by
  obtain ⟨p, hp, ht⟩ := mem_ofWords_iff.mp ht
  exact ⟨p.2, p.1, ht, fun t' ht' => mem_ofWords_iff.mpr ⟨p, hp, ht'⟩⟩

/-- In what is indexed there is a delimiter only if it is the word itself. -/
theorem index_eq_raw {text : String} {t : Term} (ht : t ∈ ofText text)
    (h : delimiter ∈ t.index.toList) : t.index = t.raw := by
  obtain ⟨place, word, hword, -⟩ := of_mem_ofWords ht
  obtain ⟨form, hform, rfl⟩ := List.mem_map.mp hword
  rw [String.toList_ofList] at h
  exact congrArg String.ofList (eq_of_mem_forms hform h)

/-- The word a term comes from is a term of the text itself. -/
theorem exists_index_eq_raw {text : String} {t : Term} (ht : t ∈ ofText text) :
    ∃ t' ∈ ofText text, t'.index = t.raw := by
  obtain ⟨place, word, hword, hall⟩ := of_mem_ofWords ht
  obtain ⟨form, hform, rfl⟩ := List.mem_map.mp hword
  exact ⟨_, hall _ (List.mem_map_of_mem (self_mem_forms (Text.lower word))), rfl⟩

end Term

-- =================================================================== keys

namespace IndexKeys

variable (ks : IndexKeys)

/-- What is read as the term of a lexicon key has no delimiter. -/
theorem plain_of_parseLexicon? {key : Bytes} {term raw : String}
    (h : ks.parseLexicon? key = some (term, raw)) : Plain term := by
  unfold parseLexicon? at h
  simp only [Option.bind_eq_bind, Option.bind_eq_some_iff] at h
  obtain ⟨rest, -, ⟨front, behind⟩, hsplit, term', hterm, raw', -, heq⟩ := h
  cases heq
  unfold Plain
  rw [Text.toBytes_of_ofBytes? hterm]
  exact (Bytes.splitAt?_eq_some_iff.mp hsplit).2

/-- The lexicon key of a term tells it from all others. -/
structure Tells (t : Term) : Prop where
  /-- The term and what is kept of its word are read back. -/
  parse : ks.parseLexicon? (ks.lexicon t.index t.storedRaw) = some (t.index, t.storedRaw)
  /-- A search for a term meets the key if that is the term. -/
  term (s : String) (hs : Term.delimiter ∉ s.toList) :
    ks.lexiconOf s <+: ks.lexicon t.index t.storedRaw ↔ s = t.index
  /-- A search for what begins like a text meets the key if the term begins so. -/
  lead (s : String) (hs : Term.delimiter ∉ s.toList) :
    ks.lexiconFrom s <+: ks.lexicon t.index t.storedRaw ↔ s.toList <+: t.index.toList

/-- It does so if there is no delimiter in what is indexed. -/
theorem tells_iff (t : Term) : ks.Tells t ↔ Term.delimiter ∉ t.index.toList := by
  constructor
  · intro h
    exact plain_iff.mp (ks.plain_of_parseLexicon? h.parse)
  · intro h
    have hplain := plain_of_not_mem h
    refine ⟨ks.parseLexicon?_lexicon hplain _, fun s hs => ?_, fun s hs => ?_⟩
    · exact ks.lexiconOf_prefix_iff (plain_of_not_mem hs) hplain _
    · rw [ks.lexiconFrom_prefix_iff (plain_of_not_mem hs), Text.toBytes_prefix_iff]

end IndexKeys

namespace Term

/-- The term that the key of a term is read as: behind the first delimiter in
what is indexed, all is taken for the word. -/
def asRead (t : Term) : Term :=
  if delimiter ∈ t.index.toList then
    ⟨String.ofList (t.index.toList.takeWhile (· ≠ delimiter)),
      String.ofList ((t.index.toList.dropWhile (· ≠ delimiter)).tail
        ++ delimiter :: t.storedRaw.toList), t.position⟩
  else t

/-- A term without a delimiter is read as it is. -/
theorem asRead_of_not_mem {t : Term} (h : delimiter ∉ t.index.toList) : t.asRead = t :=
  if_neg h

theorem map_asRead {terms : List Term} (h : ∀ t ∈ terms, delimiter ∉ t.index.toList) :
    terms.map asRead = terms :=
  (List.map_congr_left fun t ht => asRead_of_not_mem (h t ht)).trans (List.map_id terms)

/-- No term is read with a delimiter in what is indexed. -/
theorem delimiter_not_mem_asRead (t : Term) : delimiter ∉ t.asRead.index.toList := by
  unfold asRead
  split
  · rw [String.toList_ofList]
    exact fun h => absurd (List.mem_takeWhile_imp h) (by simp)
  · next h => exact h

/-- What stands in front of the first delimiter, the delimiter, and the rest. -/
theorem takeWhile_dropWhile_delimiter {cs : List Char} (h : delimiter ∈ cs) :
    cs.takeWhile (· ≠ delimiter) ++ delimiter :: (cs.dropWhile (· ≠ delimiter)).tail = cs := by
  induction cs with
  | nil => exact absurd h List.not_mem_nil
  | cons c cs ih =>
      by_cases hc : c = delimiter
      · rw [List.takeWhile_cons_of_neg (by simp [hc]), List.dropWhile_cons_of_neg (by simp [hc]),
          hc]
        rfl
      · have hrest := (List.mem_cons.mp h).resolve_left fun heq => hc heq.symm
        rw [List.takeWhile_cons_of_pos (by simp [hc]), List.dropWhile_cons_of_pos (by simp [hc]),
          List.cons_append, ih hrest]

/-- A term and the term that its key is read as have one key. -/
theorem lexicon_asRead (ks : IndexKeys) (t : Term) :
    ks.lexicon t.asRead.index t.asRead.storedRaw = ks.lexicon t.index t.storedRaw := by
  by_cases h : delimiter ∈ t.index.toList
  · have hraw : t.asRead.storedRaw = t.asRead.raw := by
      refine if_neg fun heq => delimiter_not_mem_asRead t ?_
      rw [← heq, asRead, if_pos h, String.toList_ofList]
      exact List.mem_append_right _ List.mem_cons_self
    have hspelled : String.utf8EncodeChar delimiter = [DocKey.delimiter] := by decide
    rw [hraw, asRead, if_pos h]
    unfold IndexKeys.lexicon IndexKeys.lexiconOf IndexKeys.lexiconFrom
    simp only [Text.toBytes_eq, String.toList_ofList, List.append_assoc]
    refine congrArg (ks.part "l/" ++ ·) ?_
    nth_rewrite 3 [← takeWhile_dropWhile_delimiter h]
    simp only [List.flatMap_append, List.flatMap_cons, hspelled, List.append_assoc]
  · rw [asRead_of_not_mem h]

/-- What has no delimiter and is not empty is what is indexed, or what that
begins with, as the key is read and as it is: a delimiter in a term of a text
stands in front. -/
theorem asRead_meets {text : String} {t : Term} (ht : t ∈ ofText text) {s : String}
    (hs : delimiter ∉ s.toList) (hne : s ≠ "") :
    (s = t.asRead.index ↔ s = t.index) ∧
      (s.toList <+: t.asRead.index.toList ↔ s.toList <+: t.index.toList) := by
  by_cases h : delimiter ∈ t.index.toList
  · have hempty : t.asRead.index = "" := by
      obtain ⟨rest, hrest⟩ := List.head?_eq_some_iff.mp (head?_index ht h)
      rw [asRead, if_pos h, hrest, List.takeWhile_cons_of_neg (by simp)]
    have hlist : s.toList ≠ [] := fun hnil => hne (String.toList_eq_nil_iff.mp hnil)
    rw [hempty]
    refine ⟨iff_of_false hne fun heq => hs (heq ▸ h), iff_of_false ?_ fun hpre => hs ?_⟩
    · exact fun hpre => hlist (List.prefix_nil.mp hpre)
    · obtain ⟨rest, hrest⟩ := hpre
      obtain ⟨c, cs, hcs⟩ := List.exists_cons_of_ne_nil hlist
      have hhead := head?_index ht h
      rw [← hrest, hcs] at hhead
      obtain rfl : c = delimiter := Option.some.inj hhead
      rw [hcs]
      exact List.mem_cons_self
  · rw [asRead_of_not_mem h]
    exact ⟨Iff.rfl, Iff.rfl⟩

/-- The keys of all terms of a text tell them from all others unless a delimiter
of the text makes a word. -/
theorem tells_ofText_iff (ks : IndexKeys) (text : String) :
    (∀ t ∈ ofText text, ks.Tells t) ↔ Text.entangled text.toList = false := by
  rw [← clean_ofText_iff]
  constructor
  · intro h t ht
    refine ⟨(ks.tells_iff t).mp (h t ht), fun hraw => ?_⟩
    obtain ⟨t', ht', heq⟩ := exists_index_eq_raw ht
    exact (ks.tells_iff t').mp (h t' ht') (heq ▸ hraw)
  · exact fun h t ht => (ks.tells_iff t).mpr (h t ht).1

/-- A text as one term is clean, and its key tells it from all others. The terms
of a text are clean unless a delimiter of the text makes a word, and just then
their keys tell them from all others. Even in such a text that goes for all
terms that differ from the word they come from. -/
theorem clean_and_told (ks : IndexKeys) (text : String) :
    ((verbatim text).Clean ∧ ks.Tells (verbatim text)) ∧
      ((∀ t ∈ ofText text, t.Clean) ↔ Text.entangled text.toList = false) ∧
      ((∀ t ∈ ofText text, ks.Tells t) ↔ Text.entangled text.toList = false) ∧
      ∀ t ∈ ofText text, t.index ≠ t.raw → ks.Tells t := by
  refine ⟨⟨clean_verbatim text, ?_⟩, clean_ofText_iff text, tells_ofText_iff ks text, ?_⟩
  · exact (ks.tells_iff _).mpr (clean_verbatim text).1
  · exact fun t ht hne => (ks.tells_iff t).mpr fun h => hne (index_eq_raw ht h)

/-- A combining mark that counts as a letter, behind a tab: the term of this text
begins with the tab, its key is read as that of an empty term, and a search for
the empty term meets it. -/
theorem misread_markBehindTab :
    ∃ t ∈ ofText "\t\u0345", ¬ t.Clean ∧
      (IndexKeys.ofName "x").parseLexicon? ((IndexKeys.ofName "x").lexicon t.index t.storedRaw)
        = some ("", "\u0345\t") ∧
      (IndexKeys.ofName "x").lexiconOf "" <+: (IndexKeys.ofName "x").lexicon t.index t.storedRaw ∧
      t.index ≠ "" := by
  have hwords : Text.words "\t\u0345".toList = ["\t\u0345".toList] := by decide +kernel
  have hlower : Text.lower "\t\u0345".toList = "\t\u0345".toList := by decide +kernel
  have hmem : (⟨"\t\u0345", "\t\u0345", 0⟩ : Term) ∈ ofText "\t\u0345" := by
    unfold ofText
    rw [hwords]
    refine List.mem_append_left _ (List.mem_map.mpr ⟨"\t\u0345".toList, ?_, ?_⟩)
    · rw [hlower]
      exact self_mem_forms _
    · rw [hlower]
      rfl
  refine ⟨_, hmem, fun hclean => hclean.1 (by decide), ?_, ?_, by decide⟩
  · decide +kernel
  · exact ⟨Text.toBytes "\u0345\t", by decide +kernel⟩

end Term

end OrderedStore
