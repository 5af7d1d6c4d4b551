import ZoneCatalog.Proofs.Text.Words
import ZoneCatalog.Text.Glob

/-! What glob patterns match: a text matches exactly if it is the pattern with some text in place of
each star. Taking every piece at its leftmost occurrence loses no match, as what follows it there
ends with what follows it anywhere else. -/
namespace ZoneCatalog.Text.Glob

/-- A text is a pattern with some text in place of each star. -/
inductive Fills : List Char → List Char → Prop where
  | nil : Fills [] []
  | char {c : Char} {pattern text : List Char} (hc : c ≠ '*') (rest : Fills pattern text) :
      Fills (c :: pattern) (c :: text)
  | star {pattern text : List Char} (gap : List Char) (rest : Fills pattern text) :
      Fills ('*' :: pattern) (gap ++ text)

theorem Fills.self (pattern : List Char) : Fills pattern pattern := by
  induction pattern with
  | nil => exact .nil
  | cons c rest ih =>
    by_cases hc : c = '*'
    · subst hc
      exact .star ['*'] ih
    · exact .char hc ih

/-- The pattern with the given texts in place of its stars, in order. -/
def fill : List Char → List (List Char) → List Char
  | [], _ => []
  | c :: pattern, gaps =>
    if c = '*' then gaps.headD [] ++ fill pattern gaps.tail else c :: fill pattern gaps

/-- What fills a pattern are the texts put in place of its stars, one for each. -/
theorem fills_iff_exists_fill {pattern text : List Char} : Fills pattern text ↔
    ∃ gaps : List (List Char), gaps.length = pattern.count '*' ∧ fill pattern gaps = text := by
  constructor
  · intro fills
    induction fills with
    | nil => exact ⟨[], rfl, rfl⟩
    | char hc _ ih =>
      obtain ⟨gaps, number, rfl⟩ := ih
      exact ⟨gaps, by rw [number, List.count_cons_of_ne hc], by rw [fill, if_neg hc]⟩
    | star gap _ ih =>
      obtain ⟨gaps, number, rfl⟩ := ih
      exact ⟨gap :: gaps, by rw [List.length_cons, number, List.count_cons_self], rfl⟩
  · rintro ⟨gaps, number, rfl⟩
    induction pattern generalizing gaps with
    | nil => exact .nil
    | cons c pattern ih =>
      by_cases hc : c = '*'
      · subst hc
        rw [List.count_cons_self] at number
        obtain ⟨gap, gaps, rfl⟩ := List.exists_cons_of_length_eq_add_one number
        exact .star gap (ih gaps (Nat.succ.inj number))
      · rw [fill, if_neg hc]
        rw [List.count_cons_of_ne hc] at number
        exact .char hc (ih gaps number)

/-- A text is made of the given parts in order, with some text before each of them. -/
def Spread : List (List Char) → List Char → Prop
  | [], text => text = []
  | part :: parts, text => ∃ gap rest, text = gap ++ part ++ rest ∧ Spread parts rest

theorem Spread.longer {part : List Char} {parts : List (List Char)} {text longer : List Char}
    (h : Spread (part :: parts) text) (hs : text <:+ longer) : Spread (part :: parts) longer := by
  obtain ⟨gap, rest, rfl, hrest⟩ := h
  obtain ⟨front, rfl⟩ := hs
  exact ⟨front ++ gap, rest, by simp, hrest⟩

/-- The pieces between the stars of a pattern say what it matches. -/
theorem fills_iff_spread {pattern text first : List Char} {parts : List (List Char)}
    (h : splitAtEach (· = '*') pattern = first :: parts) :
    Fills pattern text ↔ ∃ rest, text = first ++ rest ∧ Spread parts rest := by
  induction pattern generalizing text first parts with
  | nil =>
    obtain ⟨rfl, rfl⟩ := List.cons.inj h
    constructor
    · rintro ⟨⟩
      exact ⟨[], rfl, rfl⟩
    · rintro ⟨rest, rfl, rfl⟩
      exact .nil
  | cons c pattern ih =>
    obtain ⟨piece, pieces, hp⟩ := splitAtEach_eq_cons (· = '*') pattern
    by_cases hc : c = '*'
    · obtain ⟨rfl, rfl⟩ : [] = first ∧ piece :: pieces = parts := by
        simpa [splitAtEach, hc, hp] using h
      subst hc
      constructor
      · intro fills
        cases fills with
        | char hc => exact absurd rfl hc
        | star gap rest =>
          obtain ⟨tail, rfl, spread⟩ := (ih hp).1 rest
          exact ⟨_, rfl, gap, tail, by simp, spread⟩
      · rintro ⟨_, rfl, gap, tail, rfl, spread⟩
        simpa using Fills.star gap ((ih hp).2 ⟨tail, rfl, spread⟩)
    · obtain ⟨rfl, rfl⟩ : c :: piece = first ∧ pieces = parts := by
        simpa [splitAtEach, hc, hp] using h
      constructor
      · intro fills
        cases fills with
        | char _ rest =>
          obtain ⟨tail, rfl, spread⟩ := (ih hp).1 rest
          exact ⟨tail, rfl, spread⟩
        | star => exact absurd rfl hc
      · rintro ⟨tail, rfl, spread⟩
        exact .char hc ((ih hp).2 ⟨tail, rfl, spread⟩)

theorem afterFirst_eq_some {part text rest : List Char} (h : afterFirst part text = some rest) :
    ∃ gap, text = gap ++ part ++ rest := by
  induction text with
  | nil =>
    obtain ⟨rfl, rfl⟩ : part = [] ∧ [] = rest := by simpa [afterFirst] using h
    exact ⟨[], rfl⟩
  | cons c cs ih =>
    rw [afterFirst] at h
    split at h
    · rename_i starts
      obtain ⟨tail, ht⟩ := List.isPrefixOf_iff_prefix.1 starts
      obtain rfl := Option.some.inj h
      exact ⟨[], by simp [← ht]⟩
    · obtain ⟨gap, hgap⟩ := ih h
      exact ⟨c :: gap, by simp [hgap]⟩

/-- The leftmost occurrence leaves the most to follow. -/
theorem afterFirst_leftmost (part gap rest : List Char) :
    ∃ more, afterFirst part (gap ++ part ++ rest) = some more ∧ rest <:+ more := by
  induction gap with
  | nil =>
    cases h : part ++ rest with
    | nil =>
      obtain ⟨rfl, rfl⟩ := List.append_eq_nil_iff.1 h
      exact ⟨[], rfl, List.suffix_refl _⟩
    | cons c cs =>
      refine ⟨rest, ?_, List.suffix_refl _⟩
      have starts : part.isPrefixOf (c :: cs) = true :=
        List.isPrefixOf_iff_prefix.2 ⟨rest, h⟩
      rw [List.nil_append, h, afterFirst, if_pos starts, ← h, List.drop_left]
  | cons c gap ih =>
    obtain ⟨more, hm, hs⟩ := ih
    by_cases starts : part.isPrefixOf (c :: (gap ++ part ++ rest))
    · refine ⟨_, by rw [List.cons_append, List.cons_append, afterFirst, if_pos starts], ?_⟩
      have : c :: (gap ++ part ++ rest) = (c :: gap ++ part) ++ rest := by simp
      rw [this, List.drop_append_of_le_length (by simp; omega)]
      exact List.suffix_append _ _
    · exact ⟨more, by rw [List.cons_append, List.cons_append, afterFirst, if_neg starts, hm], hs⟩

theorem followed_iff_spread (part : List Char) (parts : List (List Char)) (text : List Char) :
    followed (part :: parts) text ↔ Spread (part :: parts) text := by
  induction parts generalizing part text with
  | nil =>
    simp only [followed, List.isSuffixOf_iff_suffix, Spread]
    constructor
    · rintro ⟨gap, rfl⟩
      exact ⟨gap, [], by simp, rfl⟩
    · rintro ⟨gap, _, rfl, rfl⟩
      exact ⟨gap, by simp⟩
  | cons next parts ih =>
    constructor
    · intro h
      unfold followed at h
      split at h
      · rename_i rest hrest
        obtain ⟨gap, rfl⟩ := afterFirst_eq_some hrest
        exact ⟨gap, rest, rfl, (ih next rest).1 h⟩
      · cases h
    · rintro ⟨gap, rest, rfl, spread⟩
      obtain ⟨more, hm, hs⟩ := afterFirst_leftmost part gap rest
      unfold followed
      rw [hm]
      exact (ih next more).2 (spread.longer hs)

/-- A text matches a pattern exactly if it is the pattern with some text in place of each star. -/
theorem isMatch_iff_fills (pattern key : String) :
    isMatch pattern key ↔ Fills pattern.toList key.toList := by
  obtain ⟨first, parts, h⟩ := splitAtEach_eq_cons (· = '*') pattern.toList
  rw [fills_iff_spread h]
  rw [isMatch]
  rw [h]
  cases parts with
  | nil =>
    simp only [beq_iff_eq, Spread]
    constructor
    · rintro rfl
      exact ⟨[], by simp, rfl⟩
    · rintro ⟨_, hk, rfl⟩
      simp [hk]
  | cons part parts =>
    simp only [Bool.and_eq_true, List.isPrefixOf_iff_prefix, followed_iff_spread]
    constructor
    · rintro ⟨⟨rest, hr⟩, spread⟩
      rw [← hr, List.drop_left] at spread
      exact ⟨rest, hr.symm, spread⟩
    · rintro ⟨rest, hr, spread⟩
      rw [hr, List.drop_left]
      exact ⟨List.prefix_append _ _, spread⟩

/-- Every text, taken as a pattern, matches itself. -/
@[simp] theorem isMatch_self (key : String) : isMatch key key = true :=
  (isMatch_iff_fills key key).2 (.self key.toList)

/-- A text matches a pattern exactly if it is the pattern with each star replaced by some text, and
so every text matches itself, its stars included. -/
theorem isMatch_iff_exists_fill (pattern key : String) :
    (isMatch pattern key = true ↔ ∃ gaps : List (List Char),
      gaps.length = pattern.toList.count '*' ∧
        key = String.ofList (fill pattern.toList gaps)) ∧
      isMatch key key = true := by
  refine ⟨?_, isMatch_self key⟩
  have spelled (text : List Char) : text = key.toList ↔ key = String.ofList text :=
    ⟨fun h => by rw [h, String.ofList_toList], fun h => by rw [h, String.toList_ofList]⟩
  rw [isMatch_iff_fills, fills_iff_exists_fill]
  simp only [spelled]

end ZoneCatalog.Text.Glob
