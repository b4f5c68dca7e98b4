/-
Where the delimiter of keys ends up when a text is cut into words.

A delimiter is a character without a class of its own, so there is a boundary
in front of it, and behind it nothing is joined: only what stays with anything
before it in its line stays with it, which are marks and joiners, and a
pictograph behind a joiner. So a segment with a delimiter in it begins with
the delimiter, has no other, and goes on as far as characters cling. The
segments with a delimiter can thus be read off the text and its classes
(`delimited`), and they are the ones the boundary rules give
(`filter_segments`).

Most of what clings is neither letter nor digit, and then the segment is no
word. But some marks count as letters; a delimiter with one of them behind it
is a word.
-/
import Mathlib
import OrderedStore.Index.Term

namespace OrderedStore
namespace Text

open Term (delimiter)

-- ============================================================= boundaries

namespace WordClass

/-- Classes that stay with whatever stands before them in its line. -/
def clings (k : WordClass) : Bool :=
  k.isTransparent || k = .tied

/-- Nothing joins what has no class of its own to what is before it. -/
theorem joins_other (before : List WordClass) (ahead : List (Char × WordClass)) :
    joins before .other ahead = false := by
  unfold joins
  split
  · rfl
  · simp [isLetter, joinsLetters, joinsNumbers]

/-- So there is a boundary in front of it. -/
theorem boundary_other (before : List WordClass) (ahead : List (Char × WordClass)) :
    boundary before .other ahead = true := by
  cases before with
  | nil => rfl
  | cons l farther => simp [boundary, joins_other, isTransparent]

/-- Behind what has no class of its own, and what clings to it, the rules see
nothing that could join anything. -/
theorem visible_behind_other {glued : List WordClass} (hglued : ∀ l ∈ glued, l.clings = true)
    (older : List WordClass) :
    ∃ l farther, visible (glued ++ .other :: older) = l :: farther ∧ (l = .tied ∨ l = .other) := by
  induction glued with
  | nil => exact ⟨.other, older, rfl, Or.inr rfl⟩
  | cons l glued ih =>
      obtain ⟨hl, hrest⟩ := List.forall_mem_cons.mp hglued
      cases htransparent : l.isTransparent with
      | true =>
          obtain ⟨l', farther, hvisible, hkind⟩ := ih hrest
          refine ⟨l', farther, ?_, hkind⟩
          unfold visible at hvisible ⊢
          rwa [List.cons_append, List.dropWhile_cons_of_pos htransparent]
      | false =>
          refine ⟨l, glued ++ .other :: older, ?_, Or.inl ?_⟩
          · unfold visible
            exact List.dropWhile_cons_of_neg (by rw [htransparent]; exact Bool.false_ne_true)
          · unfold clings at hl
            rw [htransparent, Bool.false_or] at hl
            exact of_decide_eq_true hl

/-- Nothing is joined there. -/
theorem joins_behind_other {glued : List WordClass} (hglued : ∀ l ∈ glued, l.clings = true)
    (older : List WordClass) (k : WordClass) (ahead : List (Char × WordClass)) :
    joins (glued ++ .other :: older) k ahead = false := by
  obtain ⟨l, farther, hvisible, hkind⟩ := visible_behind_other hglued older
  unfold joins
  rw [hvisible]
  rcases hkind with rfl | rfl <;> simp [isLetter, joinsLetters, joinsNumbers]

/-- What clings ends no line, and is no space. -/
theorem inline_of_clings {l : WordClass} (h : l.clings = true) :
    l.endsLine = false ∧ l ≠ .space := by
  revert h
  cases l <;> decide

/-- So only what clings stays with it. -/
theorem boundary_behind_other {glued : List WordClass} (hglued : ∀ l ∈ glued, l.clings = true)
    (older : List WordClass) (k : WordClass) (ahead : List (Char × WordClass)) :
    boundary (glued ++ .other :: older) k ahead = !k.clings := by
  have hjoins := joins_behind_other hglued older k ahead
  obtain ⟨l, farther, hbefore, hends, hspace⟩ : ∃ l farther,
      glued ++ .other :: older = l :: farther ∧ l.endsLine = false ∧ l ≠ .space := by
    cases glued with
    | nil => exact ⟨.other, older, rfl, by decide⟩
    | cons l glued =>
        exact ⟨l, glued ++ .other :: older, rfl, inline_of_clings (hglued l List.mem_cons_self)⟩
  have hreturn : l ≠ .carriageReturn := by
    rintro rfl
    cases hends
  rw [hbefore] at hjoins ⊢
  unfold boundary
  simp only [hjoins, hends]
  cases k <;> simp [hreturn, hspace, clings, isTransparent, endsLine]

/-- A delimiter has no class of its own, wherever it stands. -/
theorem inText_delimiter (joined odd : Bool) : inText joined odd delimiter = .other := by
  cases joined <;> cases odd <;> decide +kernel

end WordClass

-- =============================================================== segments

/-- The characters that stay with what stands before them, from the first on. -/
def clinging (ps : List (Char × WordClass)) : List Char :=
  (ps.takeWhile fun p => p.2.clings).map Prod.fst

/-- What begins with the delimiters of a text: each with all that clings to
it. -/
def delimited : List (Char × WordClass) → List (List Char)
  | [] => []
  | (c, _) :: ps => if c = delimiter then (c :: clinging ps) :: delimited ps else delimited ps

/-- What clings goes on. -/
theorem clinging_cons {k : WordClass} (h : k.clings = true) (c : Char)
    (ps : List (Char × WordClass)) : clinging ((c, k) :: ps) = c :: clinging ps := by
  unfold clinging
  rw [List.takeWhile_cons_of_pos (by exact h), List.map_cons]

/-- What does not cling ends it. -/
theorem clinging_stop {k : WordClass} (h : k.clings = false) (c : Char)
    (ps : List (Char × WordClass)) : clinging ((c, k) :: ps) = [] := by
  unfold clinging
  rw [List.takeWhile_cons_of_neg (by rw [h]; exact Bool.false_ne_true), List.map_nil]

/-- Delimiters have no class of their own in a text. -/
theorem classified_delimiter (cs : List Char) :
    ∀ p ∈ classified cs, p.1 = delimiter → p.2 = .other := by
  have honto (done : List (Char × WordClass)) (joined odd : Bool)
      (hdone : ∀ p ∈ done, p.1 = delimiter → p.2 = .other) :
      ∀ p ∈ classifiedOnto done joined odd cs, p.1 = delimiter → p.2 = .other := by
    induction cs generalizing done joined odd with
    | nil => exact fun p hp => hdone p (List.mem_reverse.mp hp)
    | cons c cs ih =>
        rw [classifiedOnto]
        refine ih _ _ _ (List.forall_mem_cons.mpr ⟨fun hc => ?_, hdone⟩)
        dsimp only at hc ⊢
        rw [hc, WordClass.inText_delimiter]
  exact honto [] false false fun p hp => absurd hp List.not_mem_nil

/-- Whether there is a delimiter in a segment. -/
def marked (w : List Char) : Bool :=
  w.contains delimiter

theorem marked_iff {w : List Char} : marked w = true ↔ delimiter ∈ w :=
  List.contains_iff_mem

/-- What becomes of a segment that has been begun, if it has a delimiter: it
goes on as far as characters cling to it. -/
def begun (segment : List Char) (ps : List (Char × WordClass)) : List (List Char) :=
  if marked segment then [segment.reverse ++ clinging ps] else []

theorem begun_of_mem {segment : List Char} (h : delimiter ∈ segment)
    (ps : List (Char × WordClass)) : begun segment ps = [segment.reverse ++ clinging ps] :=
  if_pos (marked_iff.mpr h)

theorem begun_of_not_mem {segment : List Char} (h : delimiter ∉ segment)
    (ps : List (Char × WordClass)) : begun segment ps = [] :=
  if_neg fun hmarked => h (marked_iff.mp hmarked)

/-- At a boundary it is left as it is. -/
theorem begun_stop {k : WordClass} (h : k.clings = false) (segment : List Char) (c : Char)
    (ps : List (Char × WordClass)) :
    begun segment ((c, k) :: ps) = [segment.reverse].filter marked := by
  by_cases hmem : delimiter ∈ segment
  · rw [begun_of_mem hmem, clinging_stop h, List.append_nil, List.filter_cons_of_pos
      (marked_iff.mpr (List.mem_reverse.mpr hmem)), List.filter_nil]
  · rw [begun_of_not_mem hmem, List.filter_cons_of_neg
      fun hmarked => hmem (List.mem_reverse.mp (marked_iff.mp hmarked)), List.filter_nil]

/-- So it is at the end of the text. -/
theorem begun_nil (segment : List Char) : begun segment [] = [segment.reverse].filter marked :=
  begun_stop (k := .other) rfl segment delimiter []

/-- Behind the delimiter of a segment there is nothing but what clings to it. -/
def Clasped (segment : List Char) (before : List WordClass) : Prop :=
  delimiter ∈ segment → ∃ glued older, before = glued ++ .other :: older ∧
    ∀ l ∈ glued, l.clings = true

/-- A segment that has just been begun is so. -/
theorem clasped_singleton {c : Char} {k : WordClass} (h : c = delimiter → k = .other)
    (before : List WordClass) : Clasped [c] (k :: before) := fun hmem =>
  ⟨[], before, congrArg (· :: before) (h (List.mem_singleton.mp hmem).symm),
    fun _ hl => absurd hl List.not_mem_nil⟩

/-- The segments with a delimiter among those of a text that is left: those
that are done, the one that is begun, and those that begin with the delimiters
to come. -/
theorem filter_segmentsOnto {ps : List (Char × WordClass)}
    (hother : ∀ p ∈ ps, p.1 = delimiter → p.2 = .other) (done : List (List Char))
    {segment : List Char} {before : List WordClass} (hclasped : Clasped segment before) :
    (segmentsOnto done segment before ps).filter marked
      = done.reverse.filter marked ++ (begun segment ps ++ delimited ps) := by
  induction ps generalizing done segment before with
  | nil =>
      rw [segmentsOnto, List.reverse_cons, List.filter_append, begun_nil, delimited,
        List.append_nil]
  | cons p ps ih =>
      obtain ⟨c, k⟩ := p
      obtain ⟨hc, hps⟩ := List.forall_mem_cons.mp hother
      have hends : (segmentsOnto (segment.reverse :: done) [c] (k :: before) ps).filter marked
          = done.reverse.filter marked ++
            ([segment.reverse].filter marked ++ (begun [c] ps ++ delimited ps)) := by
        rw [ih hps _ (clasped_singleton hc before), List.reverse_cons, List.filter_append,
          List.append_assoc]
      rw [segmentsOnto]
      by_cases hdelimiter : c = delimiter
      · -- whatever was begun ends here, and the delimiter begins a segment
        obtain rfl : k = .other := hc hdelimiter
        rw [if_pos (WordClass.boundary_other _ _), hends, begun_stop rfl, delimited,
          if_pos hdelimiter, begun_of_mem (hdelimiter ▸ List.mem_singleton_self c)]
        rfl
      · have hnew : delimiter ∉ [c] := fun h => hdelimiter (List.mem_singleton.mp h).symm
        rw [begun_of_not_mem hnew, List.nil_append] at hends
        rw [delimited, if_neg hdelimiter]
        by_cases hin : delimiter ∈ segment
        · obtain ⟨glued, older, rfl, hglued⟩ := hclasped hin
          rw [WordClass.boundary_behind_other hglued]
          cases hclings : k.clings with
          | true =>
              have hgrown : begun (c :: segment) ps = begun segment ((c, k) :: ps) := by
                rw [begun_of_mem hin, begun_of_mem (List.mem_cons_of_mem c hin),
                  clinging_cons hclings, List.reverse_cons, List.append_assoc,
                  List.singleton_append]
              rw [Bool.not_true, if_neg Bool.false_ne_true, ← hgrown]
              exact ih hps done fun _ => ⟨k :: glued, older, rfl,
                List.forall_mem_cons.mpr ⟨hclings, hglued⟩⟩
          | false => rw [Bool.not_false, if_pos rfl, hends, begun_stop hclings]
        · -- what was begun has no delimiter, and goes on without one
          have hgrown : delimiter ∉ c :: segment :=
            fun h => (List.mem_cons.mp h).elim (fun h => hdelimiter h.symm) hin
          split
          · rw [hends, ← begun_nil, begun_of_not_mem hin, begun_of_not_mem hin]
          · rw [ih hps done fun h => absurd h hgrown, begun_of_not_mem hgrown,
              begun_of_not_mem hin]

/-- The segments of a text with a delimiter in them: each begins with it, and
goes on as far as characters cling to it. -/
theorem filter_segments (cs : List Char) :
    (segments cs).filter marked = delimited (classified cs) := by
  have hother := classified_delimiter cs
  unfold segments
  cases hps : classified cs with
  | nil => rfl
  | cons p ps =>
      obtain ⟨c, k⟩ := p
      rw [hps] at hother
      obtain ⟨hc, hrest⟩ := List.forall_mem_cons.mp hother
      dsimp only
      rw [filter_segmentsOnto hrest [] (clasped_singleton hc []), List.reverse_nil,
        List.filter_nil, List.nil_append, delimited]
      by_cases hdelimiter : c = delimiter
      · rw [if_pos hdelimiter, begun_of_mem (hdelimiter ▸ List.mem_singleton_self c)]
        rfl
      · rw [if_neg hdelimiter, begun_of_not_mem fun h => hdelimiter (List.mem_singleton.mp h).symm,
          List.nil_append]

/-- What begins with a delimiter has it in front. -/
theorem head?_of_mem_delimited {ps : List (Char × WordClass)} {w : List Char}
    (h : w ∈ delimited ps) : w.head? = some delimiter := by
  induction ps with
  | nil => exact absurd h List.not_mem_nil
  | cons p ps ih =>
      obtain ⟨c, k⟩ := p
      rw [delimited] at h
      split at h
      · next hc =>
          rcases List.mem_cons.mp h with rfl | h
          · exact congrArg some hc
          · exact ih h
      · exact ih h

/-- A word with a delimiter in it begins with the delimiter. -/
theorem head?_of_mem_words {cs w : List Char} (h : w ∈ words cs) (hdelimiter : delimiter ∈ w) :
    w.head? = some delimiter := by
  have hmarked : w ∈ (segments cs).filter marked :=
    List.mem_filter.mpr ⟨(List.mem_filter.mp h).1, marked_iff.mpr hdelimiter⟩
  rw [filter_segments] at hmarked
  exact head?_of_mem_delimited hmarked

/-- No word is empty. -/
theorem ne_nil_of_mem_words {cs w : List Char} (h : w ∈ words cs) : w ≠ [] := by
  rintro rfl
  exact Bool.false_ne_true (List.mem_filter.mp h).2

/-- Whether a delimiter of the text makes a word: something clings to it that
counts as a letter or digit. -/
def entangled (cs : List Char) : Bool :=
  (delimited (classified cs)).any fun w => w.any isAlphanumeric

/-- The words of a text have no delimiter in them unless one of them makes a
word. -/
theorem marked_words_iff (cs : List Char) :
    (∃ w ∈ words cs, delimiter ∈ w) ↔ entangled cs = true := by
  unfold entangled words
  rw [← filter_segments, List.any_eq_true]
  constructor
  · rintro ⟨w, hw, hdelimiter⟩
    obtain ⟨hsegment, halphanumeric⟩ := List.mem_filter.mp hw
    exact ⟨w, List.mem_filter.mpr ⟨hsegment, marked_iff.mpr hdelimiter⟩, halphanumeric⟩
  · rintro ⟨w, hw, halphanumeric⟩
    obtain ⟨hsegment, hmarked⟩ := List.mem_filter.mp hw
    exact ⟨w, List.mem_filter.mpr ⟨hsegment, halphanumeric⟩, marked_iff.mp hmarked⟩

end Text
end OrderedStore
