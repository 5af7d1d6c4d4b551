import Mathlib.Data.List.Basic
import ZoneCatalog.Text.Blank

/-! Texts that are put together from pieces, and cut apart again. Pieces without a cut in them are
found again between the cuts, and words that are set with single blanks are the words read. -/
namespace ZoneCatalog.Text

section Split

variable {cut : Char → Bool} {cs rest : List Char} {c d : Char}

theorem splitAtEach_of_uncut (h : ∀ c ∈ cs, cut c = false) : splitAtEach cut cs = [cs] := by
  induction cs with
  | nil => rfl
  | cons c cs ih =>
    rw [List.forall_mem_cons] at h
    simp [splitAtEach, h.1, ih h.2]

theorem splitAtEach_eq_cons (cut : Char → Bool) (cs : List Char) :
    ∃ piece pieces, splitAtEach cut cs = piece :: pieces := by
  cases cs with
  | nil => exact ⟨[], [], rfl⟩
  | cons c cs =>
    rw [splitAtEach]
    split
    · exact ⟨_, _, rfl⟩
    · split
      · exact ⟨_, _, rfl⟩
      · exact ⟨_, _, rfl⟩

/-- The pieces on the two sides of a cut. -/
theorem splitAtEach_append (hd : cut d = true) (cs rest : List Char) :
    splitAtEach cut (cs ++ d :: rest) = splitAtEach cut cs ++ splitAtEach cut rest := by
  induction cs with
  | nil => simp [splitAtEach, hd]
  | cons c cs ih =>
    obtain ⟨piece, pieces, first⟩ := splitAtEach_eq_cons cut cs
    cases hc : cut c <;> simp [splitAtEach, hc, ih, first]

/-- The first piece ends at the first cut. -/
theorem splitAtEach_append_cons (h : ∀ c ∈ cs, cut c = false) (hd : cut d = true) :
    splitAtEach cut (cs ++ d :: rest) = cs :: splitAtEach cut rest := by
  rw [splitAtEach_append hd, splitAtEach_of_uncut h, List.singleton_append]

theorem splitAtEach_intersperse {pieces : List (List Char)} (hd : cut d = true)
    (h : ∀ piece ∈ pieces, ∀ c ∈ piece, cut c = false) (nonempty : pieces ≠ []) :
    splitAtEach cut (pieces.intersperse [d]).flatten = pieces := by
  induction pieces with
  | nil => exact absurd rfl nonempty
  | cons piece pieces ih =>
    rw [List.forall_mem_cons] at h
    cases pieces with
    | nil => simpa using splitAtEach_of_uncut h.1
    | cons next pieces =>
      have others := ih h.2 (List.cons_ne_nil _ _)
      have first : splitAtEach cut (piece ++ d :: ((next :: pieces).intersperse [d]).flatten) =
          piece :: splitAtEach cut ((next :: pieces).intersperse [d]).flatten :=
        splitAtEach_append_cons h.1 hd
      simpa [others] using first

/-- What stands in pieces set with a separator stands in one of them, unless it is the separator. -/
theorem mem_intersperse {pieces : List (List Char)}
    (h : c ∈ (pieces.intersperse [d]).flatten) : c = d ∨ ∃ piece ∈ pieces, c ∈ piece := by
  induction pieces with
  | nil => simp at h
  | cons piece pieces ih =>
    cases pieces with
    | nil => exact .inr ⟨piece, by simpa using h⟩
    | cons next pieces =>
      rw [List.intersperse_cons_cons, List.flatten_cons, List.flatten_cons, List.mem_append,
        List.mem_append, List.mem_singleton] at h
      rcases h with here | same | rest
      · exact .inr ⟨piece, List.mem_cons_self, here⟩
      · exact .inl same
      · exact (ih rest).imp_right fun ⟨other, within, hc⟩ => ⟨other, .tail _ within, hc⟩

end Split

variable {cs : List Char} {c : Char}

theorem words_intersperse {fields : List (List Char)}
    (h : ∀ field ∈ fields, ∀ c ∈ field, isBlank c = false) :
    words (fields.intersperse [' ']).flatten = fields.filter (· ≠ []) := by
  cases fields with
  | nil => rfl
  | cons field fields =>
    rw [words, splitAtEach_intersperse (by decide) h (List.cons_ne_nil _ _)]

theorem cutAt_of_not_mem (h : c ∉ cs) : cutAt c cs = (cs, none) := by
  induction cs with
  | nil => rfl
  | cons d ds ih =>
    rw [List.mem_cons, not_or] at h
    rw [cutAt, if_neg (Ne.symm h.1), ih h.2]

/-- What comes after the first cut makes no difference to what is before it. -/
theorem cutAt_append (h : c ∈ cs) (rest : List Char) :
    (cutAt c (cs ++ rest)).1 = (cutAt c cs).1 := by
  induction cs with
  | nil => cases h
  | cons d ds ih =>
    rw [List.cons_append, cutAt, cutAt]
    split
    · rfl
    · rename_i other
      exact congrArg (d :: ·) (ih ((List.mem_cons.1 h).resolve_left (Ne.symm other)))

/-! Words on the two sides of a gap. -/

theorem words_append {d : Char} (hd : isBlank d = true) (cs rest : List Char) :
    words (cs ++ d :: rest) = words cs ++ words rest := by
  rw [words, splitAtEach_append hd, List.filter_append, words, words]

/-- No word goes on after a blank. -/
theorem words_append_of_ends {cs : List Char} (blank : ∀ d ∈ cs.getLast?, isBlank d = true)
    (rest : List Char) : words (cs ++ rest) = words cs ++ words rest := by
  rcases List.eq_nil_or_concat' cs with rfl | ⟨front, d, rfl⟩
  · rfl
  · have hd := blank d List.getLast?_concat
    rw [List.append_assoc, List.singleton_append, words_append hd, words_append hd front []]
    exact congrArg (· ++ words rest) (List.append_nil _).symm

/-- No word goes on with a blank. -/
theorem words_append_of_starts {rest : List Char} (blank : ∀ d ∈ rest.head?, isBlank d = true)
    (cs : List Char) : words (cs ++ rest) = words cs ++ words rest := by
  cases rest with
  | nil => rw [List.append_nil]; exact (List.append_nil _).symm
  | cons d rest =>
    have hd := blank d rfl
    rw [words_append hd]
    exact congrArg (words cs ++ ·) (words_append hd [] rest).symm

theorem words_blank_append {gap : List Char} (blank : ∀ d ∈ gap, isBlank d = true)
    (rest : List Char) : words (gap ++ rest) = words rest := by
  induction gap with
  | nil => rfl
  | cons d gap ih =>
    rw [List.forall_mem_cons] at blank
    rw [List.cons_append, ← ih blank.2]
    exact words_append blank.1 [] (gap ++ rest)

/-- A gap of any length parts words, and one at an end of the text parts nothing. -/
theorem words_gap {gap cs rest : List Char} (blank : ∀ d ∈ gap, isBlank d = true)
    (ends : gap = [] → cs = [] ∨ rest = []) :
    words (cs ++ (gap ++ rest)) = words cs ++ words rest := by
  by_cases nothing : gap = []
  · rw [nothing, List.nil_append]
    rcases ends nothing with rfl | rfl
    · rfl
    · rw [List.append_nil]
      exact (List.append_nil _).symm
  · have starts : ∀ d ∈ (gap ++ rest).head?, isBlank d = true := by
      intro d hd
      rw [List.head?_append_of_ne_nil gap nothing] at hd
      exact blank d (List.mem_of_mem_head? hd)
    rw [words_append_of_starts starts, words_blank_append blank]

theorem flatten_splitAtEach (cut : Char → Bool) (cs : List Char) :
    (splitAtEach cut cs).flatten = cs.filter fun c => !cut c := by
  induction cs with
  | nil => rfl
  | cons c cs ih =>
    obtain ⟨piece, pieces, first⟩ := splitAtEach_eq_cons cut cs
    rw [first, List.flatten_cons] at ih
    cases hc : cut c <;> simp [splitAtEach, hc, first, ih]

/-- The words of a text are the text without its blanks. -/
theorem flatten_words (cs : List Char) : (words cs).flatten = cs.filter fun c => !isBlank c := by
  rw [words, ← flatten_splitAtEach]
  induction splitAtEach isBlank cs with
  | nil => rfl
  | cons piece pieces ih =>
    by_cases nothing : piece = []
    · rw [List.filter_cons_of_neg (by simp [nothing]), ih, nothing, List.flatten_cons,
        List.nil_append]
    · rw [List.filter_cons_of_pos (by simp [nothing]), List.flatten_cons, List.flatten_cons, ih]

/-! Lines and what they end with. -/

/-- A text is one line, or a line, a line feed and a text. -/
@[elab_as_elim]
theorem line_induction {motive : List Char → Prop}
    (last : ∀ line, '\n' ∉ line → motive line)
    (more : ∀ line rest, '\n' ∉ line → motive rest → motive (line ++ '\n' :: rest))
    (cs : List Char) : motive cs := by
  suffices h : ∀ line, '\n' ∉ line → motive (line ++ cs) from h [] List.not_mem_nil
  induction cs with
  | nil =>
    intro line whole
    rw [List.append_nil]
    exact last line whole
  | cons c cs ih =>
    intro line whole
    by_cases hc : c = '\n'
    · subst hc
      exact more line cs whole (ih [] List.not_mem_nil)
    · have longer := ih (line ++ [c]) (by simp [whole, Ne.symm hc])
      rwa [List.append_assoc, List.singleton_append] at longer

/-- What is gathered from the lines is gathered from the pieces between the line feeds, if neither
an empty line nor a carriage return at the end of one adds anything. -/
theorem flatMap_lines {α : Type} {f : List Char → List α} (none : f [] = [])
    (same : ∀ line, f (dropReturn line) = f line) (cs : List Char) :
    (lines cs).flatMap f = (splitAtEach (· = '\n') cs).flatMap f := by
  rw [lines]
  induction splitAtEach (· = '\n') cs using endLines.induct with
  | case1 => rfl
  | case2 => simp [endLines, none]
  | case3 last something => simp [endLines, something]
  | case4 line rest more ih => simp [endLines, same, ih]

/-- Text without a line feed is one line, or none if there is no text. -/
theorem lines_of_not_mem (h : '\n' ∉ cs) : lines cs = if cs = [] then [] else [cs] := by
  have uncut : ∀ c ∈ cs, decide (c = '\n') = false :=
    fun c hc => decide_eq_false fun same => h (same ▸ hc)
  rw [lines, splitAtEach_of_uncut uncut, endLines]

end ZoneCatalog.Text
