import ZoneCatalog.Proofs.Name.Caseless

/-! Where a text of a name is cut into labels. What a text adds to the labels read before it does
not depend on them, so a text can be taken apart wherever no escape is under way. -/
namespace ZoneCatalog

/-- The characters of labels in order, and a `none` where a label ends. -/
def marks (labels : List (List Char)) : List (Option Char) :=
  labels.flatMap fun l => l.map some ++ [none]

@[simp] theorem marks_nil : marks [] = [] := rfl

@[simp] theorem marks_append (xs ys : List (List Char)) : marks (xs ++ ys) = marks xs ++ marks ys :=
  List.flatMap_append

private theorem map_some_append_inj {xs ys : List Char} {as bs : List (Option Char)}
    (h : xs.map some ++ none :: as = ys.map some ++ none :: bs) : xs = ys ∧ as = bs := by
  induction xs generalizing ys with
  | nil =>
    cases ys with
    | nil => exact ⟨rfl, List.tail_eq_of_cons_eq h⟩
    | cons y ys => simp at h
  | cons x xs ih =>
    cases ys with
    | nil => simp at h
    | cons y ys =>
      simp only [List.map_cons, List.cons_append, List.cons.injEq, Option.some.injEq] at h
      obtain ⟨rfl, rfl⟩ := ih h.2
      exact ⟨congrArg (· :: xs) h.1, rfl⟩

/-- Labels can be told from their marks. -/
theorem marks_injective {xs ys : List (List Char)} (h : marks xs = marks ys) : xs = ys := by
  induction xs generalizing ys with
  | nil =>
    cases ys with
    | nil => rfl
    | cons y ys => simp [marks] at h
  | cons x xs ih =>
    cases ys with
    | nil => simp [marks] at h
    | cons y ys =>
      simp only [marks, List.flatMap_cons, List.append_assoc, List.singleton_append] at h
      obtain ⟨rfl, rest⟩ := map_some_append_inj h
      rw [ih rest]

theorem mem_marks {labels : List (List Char)} {c : Char} :
    some c ∈ marks labels ↔ ∃ l ∈ labels, c ∈ l := by
  simp [marks]

/-- No label ends in a character that has not been marked as its end. -/
theorem marks_ne_concat_some (labels : List (List Char)) (before : List (Option Char)) (c : Char) :
    marks labels ≠ before ++ [some c] := by
  rcases List.eq_nil_or_concat labels with rfl | ⟨front, last, rfl⟩
  · simp
  · intro h
    rw [List.concat_eq_append, marks_append, marks, marks, List.flatMap_singleton,
      ← List.append_assoc] at h
    cases List.append_inj_right' h rfl

/-- Behind the end of a label, what is marked by labels is nothing or ends where the last one
does. -/
theorem cons_none_marks (labels : List (List Char)) :
    ∃ before, none :: marks labels = before ++ [none] := by
  rcases List.eq_nil_or_concat' labels with rfl | ⟨front, last, rfl⟩
  · exact ⟨[], rfl⟩
  · exact ⟨none :: (marks front ++ last.map some), by simp [marks]⟩

namespace DomainName

/-- What a character adds to the labels, and the escape that is under way after it. -/
def Escape.take (e : Escape) (c : Char) : List (Option Char) × Escape :=
  let digit := (Text.digitValue 8 c).getD 0
  match e with
  | .outside =>
    if c = '.' then ([none], .outside)
    else if c = '\\' then ([], .opened)
    else ([some c], .outside)
  | .opened => if Text.isNumeric c then ([], .oneDigit digit) else ([some c], .outside)
  | .oneDigit high => ([], .twoDigits high digit)
  | .twoDigits high middle => ([some (Char.ofNat (high * 64 + middle * 8 + digit))], .outside)

/-- What a text adds to the labels. -/
def Escape.adds (e : Escape) : List Char → List (Option Char)
  | [] => []
  | c :: text => (e.take c).1 ++ (e.take c).2.adds text

/-- The escape that is under way after a text. -/
def Escape.after (e : Escape) (text : List Char) : Escape := text.foldl (fun e c => (e.take c).2) e

namespace Escape

variable (e : Escape)

theorem adds_append (text more : List Char) :
    e.adds (text ++ more) = e.adds text ++ (e.after text).adds more := by
  induction text generalizing e with
  | nil => rfl
  | cons c text ih => simp [adds, ih, after]

theorem after_append (text more : List Char) :
    e.after (text ++ more) = (e.after text).after more := List.foldl_append

variable {e}

/-- A character that is no dot and leaves no escape open adds a character to a label. -/
theorem take_of_ne_dot {c : Char} (noDot : c ≠ '.') (outside : (e.take c).2 = .outside) :
    ∃ d, (e.take c).1 = [some d] := by
  cases e with
  | outside =>
    by_cases escape : c = '\\'
    · simp [take, escape] at outside
    · simp [take, noDot, escape]
  | opened =>
    by_cases numeric : Text.isNumeric c = true
    · simp [take, numeric] at outside
    · simp [take, numeric]
  | oneDigit high => simp [take] at outside
  | twoDigits high middle => simp [take]

end Escape

namespace Reading

/-- The marks of the labels read, and of the one under way. -/
def trace (r : Reading) : List (Option Char) :=
  marks (r.name.labels.map Label.chars) ++ r.pending.reverse.map some

variable {r r' : Reading} {c : Char} {text : List Char}

theorem append_labels {n n' : DomainName} {l : Label} (h : n.append l = .ok n') :
    n'.labels = n.labels ++ [l] := by
  rw [append] at h
  split at h
  · cases h
    rfl
  · cases h

private theorem octalDigit_value {digit : Nat} (h : octalDigit c = .ok digit) :
    (Text.digitValue 8 c).getD 0 = digit ∧ Text.isNumeric c = true := by
  rw [octalDigit] at h
  split at h
  · rename_i numeric
    split at h
    · rename_i value
      cases h
      exact ⟨by rw [value]; rfl, numeric⟩
    · cases h
  · cases h

theorem Step.trace (step : r.Step c r') :
    r'.trace = r.trace ++ (r.escape.take c).1 ∧ r'.escape = (r.escape.take c).2 := by
  cases step with
  | ended outside chars appended =>
    simp [Reading.trace, outside, Escape.take, append_labels appended, chars, marks]
  | opened outside => simp [Reading.trace, outside, Escape.take]
  | plain outside noDot noEscape noGap =>
    simp [Reading.trace, outside, Escape.take, noDot, noEscape]
  | escaped opened noDigit => simp [Reading.trace, opened, Escape.take, noDigit]
  | high opened hc => simp [Reading.trace, opened, Escape.take, octalDigit_value hc]
  | middle within hc => simp [Reading.trace, within, Escape.take, octalDigit_value hc]
  | low within hc => simp [Reading.trace, within, Escape.take, octalDigit_value hc]

/-- What a text adds to a reading depends on the escape under way alone. -/
theorem trace_of_foldlM (h : text.foldlM read r = .ok r') :
    r'.trace = r.trace ++ r.escape.adds text ∧ r'.escape = r.escape.after text := by
  induction text generalizing r with
  | nil =>
    cases h
    simp [Escape.adds, Escape.after]
  | cons c text ih =>
    obtain ⟨r₁, step, reads⟩ := Except.bind_eq_ok.1 h
    obtain ⟨here, escape⟩ := (read_eq_ok.1 step).trace
    obtain ⟨there, ended⟩ := ih reads
    rw [there, ended, here, escape]
    simp [Escape.adds, Escape.after]

theorem trace_of_start (h : text.foldlM read start = .ok r) :
    r.trace = Escape.outside.adds text ∧ r.escape = Escape.outside.after text := trace_of_foldlM h

/-! What becomes of the characters of a text. -/

/-- A character ends a label, belongs to an escape or is taken into the label under way. -/
theorem Step.noted (step : r.Step c r') :
    c = '.' ∨ c = '\\' ∨ Text.isNumeric c = true ∨ some c ∈ r'.trace := by
  cases step with
  | ended => exact .inl rfl
  | opened => exact .inr (.inl rfl)
  | plain | escaped => simp [Reading.trace]
  | high _ hc | middle _ hc | low _ hc => exact .inr (.inr (.inl (octalDigit_value hc).2))

theorem noted_of_foldlM (h : text.foldlM read r = .ok r') (hc : c ∈ text) :
    c = '.' ∨ c = '\\' ∨ Text.isNumeric c = true ∨ some c ∈ r'.trace := by
  induction text generalizing r with
  | nil => cases hc
  | cons d text ih =>
    obtain ⟨r₁, step, reads⟩ := Except.bind_eq_ok.1 h
    rcases List.mem_cons.1 hc with rfl | hc
    · -- what has been taken in stays, whatever is read after it
      have onward : some c ∈ r₁.trace → some c ∈ r'.trace := by
        rw [(trace_of_foldlM reads).1]
        exact List.mem_append_left _
      exact (read_eq_ok.1 step).noted.imp_right (.imp_right (.imp_right onward))
    · exact ih reads hc

theorem Ends.mem_labels {name : DomainName} (ends : r.Ends name) (hc : some c ∈ r.trace) :
    ∃ l ∈ name.labels, c ∈ l.chars := by
  have marked : some c ∈ marks (name.labels.map Label.chars) := by
    cases ends with
    | between nothing => simpa [Reading.trace, nothing] using hc
    | within _ chars appended =>
      rw [append_labels appended, List.map_append, marks_append]
      simpa [Reading.trace, marks, chars] using hc
  obtain ⟨_, within, hc⟩ := mem_marks.1 marked
  obtain ⟨l, hl, rfl⟩ := List.mem_map.1 within
  exact ⟨l, hl, hc⟩

/-! Texts without a dot at their end. -/

/-- A label is under way behind a text that does not end with a dot. -/
theorem pending_ne_nil (h : text.foldlM read start = .ok r) (outside : r.escape = .outside)
    (something : text ≠ []) (noDot : text.getLast? ≠ some '.') : r.pending ≠ [] := by
  obtain ⟨front, c, rfl⟩ := (List.eq_nil_or_concat' text).resolve_left something
  obtain ⟨adds, ended⟩ := trace_of_start h
  rw [Escape.after_append, outside] at ended
  obtain ⟨d, last⟩ := Escape.take_of_ne_dot (by simpa using noDot) ended.symm
  intro nothing
  simp only [Escape.adds_append, trace, nothing, Escape.adds, last] at adds
  exact marks_ne_concat_some _ _ d (by simpa using adds)

/-- A dot ends the label under way. -/
theorem read_dot (outside : r.escape = .outside) (h : r.read '.' = .ok r') :
    ∃ label name, label.chars = r.pending.reverse ∧ r.name.append label = .ok name ∧
      r' = { r with name, pending := [] } := by
  have ended : r.endLabel = .ok r' := by simpa [read, outside] using h
  exact endLabel_eq_ok.1 ended

/-- A dot cannot stand where no label is under way. -/
theorem read_dot_ne_ok (outside : r.escape = .outside) (nothing : r.pending = []) :
    r.read '.' ≠ .ok r' := by
  intro h
  obtain ⟨label, name, chars, -⟩ := read_dot outside h
  have size := label.size_bounds.1
  simp [Label.size, chars, nothing] at size

/-- Labels have been read, all of the last one too, though its end has not been seen. -/
structure Spells (r : Reading) (labels : List Label) : Prop where
  outside : r.escape = .outside
  something : r.pending ≠ []
  ends : ∃ last, r.Ends last ∧ last.labels = labels

variable {labels : List Label}

theorem Spells.last (spells : r.Spells labels) : ∃ label name, label.chars = r.pending.reverse ∧
    r.name.append label = .ok name ∧ name.labels = labels := by
  obtain ⟨last, ends, same⟩ := spells.ends
  cases ends with
  | between nothing => exact absurd nothing spells.something
  | within _ chars appended => exact ⟨_, _, chars, appended, same⟩

theorem Spells.labels_ne_nil (spells : r.Spells labels) : labels ≠ [] := by
  obtain ⟨label, last, -, appended, rfl⟩ := spells.last
  simp [append_labels appended]

theorem Spells.marks (spells : r.Spells labels) :
    marks (labels.map Label.chars) = r.trace ++ [none] := by
  obtain ⟨label, name, chars, appended, rfl⟩ := spells.last
  simp [append_labels appended, trace, chars, ZoneCatalog.marks]

/-- There is one way to spell labels. -/
theorem Spells.unique {ks : List Label} (spells : r.Spells labels) (again : r.Spells ks) :
    labels = ks :=
  List.map_injective_iff.2 Label.chars_injective
    (marks_injective (spells.marks.trans again.marks.symm))

theorem Spells.alike {s : Reading} (spells : r.Spells labels) (alike : r.Alike s) :
    ∃ labels', s.Spells labels' ∧ labels.map Label.folded = labels'.map Label.folded := by
  obtain ⟨last, ends, rfl⟩ := spells.ends
  obtain ⟨last', ends', folded⟩ := ends.alike alike
  refine ⟨last'.labels,
    ⟨alike.escape ▸ spells.outside, fun nothing => ?_, last', ends', rfl⟩, folded⟩
  have pending := alike.pending
  rw [nothing] at pending
  exact spells.something (List.map_eq_nil_iff.1 pending)

/-- The labels are those of a name, with or without a dot behind the text. -/
theorem Spells.parse_dots (spells : r.Spells labels) (reads : text.foldlM read start = .ok r)
    {dots : List Char} (hd : dots = [] ∨ dots = ['.']) :
    ∃ name, parse (text ++ dots) = .ok name ∧ name.labels = labels := by
  obtain ⟨label, last, chars, appended, rfl⟩ := spells.last
  have nonempty : text ≠ [] := by
    rintro rfl
    cases reads
    exact spells.something rfl
  have root : text ++ dots ≠ ['.'] := by
    intro dot
    rcases hd with rfl | rfl
    · rw [List.append_nil] at dot
      subst dot
      obtain ⟨r₁, first, -⟩ := Except.bind_eq_ok.1 reads
      exact read_dot_ne_ok rfl rfl first
    · exact nonempty (List.append_left_eq_self.1 dot)
  rcases hd with rfl | rfl
  · rw [List.append_nil] at root ⊢
    exact ⟨_, (parse_eq_ok root).2
      ⟨r, last, reads, .within spells.something chars appended, rfl⟩, rfl⟩
  · have dot : r.read '.' = .ok { r with name := last, pending := [] } :=
      read_eq_ok.2 (.ended spells.outside chars appended)
    refine ⟨_, (parse_eq_ok root).2 ⟨⟨last, [], r.escape⟩, last, ?_, .between rfl, rfl⟩, rfl⟩
    rw [List.foldlM_append, reads, Except.ok_bind, List.foldlM_cons, dot]
    rfl

theorem Spells.of_read_dot (outside : r.escape = .outside) (h : r.read '.' = .ok r') :
    r.Spells r'.name.labels ∧ r'.pending = [] ∧ r'.escape = .outside := by
  have something : r.pending ≠ [] := fun nothing => read_dot_ne_ok outside nothing h
  obtain ⟨label, name, chars, appended, rfl⟩ := read_dot outside h
  exact ⟨⟨outside, something, name, .within something chars appended, rfl⟩, rfl, outside⟩

end Reading

/-- What is neither a dot nor part of an escape is in a label. -/
theorem noted_of_parse {text : List Char} {name : DomainName} {c : Char}
    (h : parse text = .ok name) (hc : c ∈ text) :
    c = '.' ∨ c = '\\' ∨ Text.isNumeric c = true ∨ ∃ l ∈ name.labels, c ∈ l.chars := by
  by_cases root : text = ['.']
  · subst root
    exact .inl (List.mem_singleton.1 hc)
  · obtain ⟨r, last, reads, ends, rfl⟩ := (parse_eq_ok root).1 h
    exact (Reading.noted_of_foldlM reads hc).imp_right
      (.imp_right (.imp_right ends.mem_labels))

/-- A name is read off its text but for a dot at the end, if no escape is under way there. -/
theorem spells_of_parse {text : List Char} {name : DomainName} {dots : Nat} (something : text ≠ [])
    (noDot : text.getLast? ≠ some '.') (outside : Escape.outside.after text = .outside)
    (h : parse (text ++ List.replicate dots '.') = .ok name) :
    dots ≤ 1 ∧ ∃ r, text.foldlM Reading.read Reading.start = .ok r ∧ r.Spells name.labels := by
  have root : text ++ List.replicate dots '.' ≠ ['.'] := by
    intro dot
    rcases List.append_eq_singleton_iff.1 dot with ⟨nothing, -⟩ | ⟨rfl, -⟩
    · exact something nothing
    · exact noDot rfl
  obtain ⟨r₀, last, reads, ends, rfl⟩ := (parse_eq_ok root).1 h
  rw [List.foldlM_append] at reads
  obtain ⟨r, front, reads⟩ := Except.bind_eq_ok.1 reads
  have escape : r.escape = .outside := (Reading.trace_of_start front).2.trans outside
  have pending := Reading.pending_ne_nil front escape something noDot
  rcases dots with _ | _ | dots
  · have same : r = r₀ := Except.ok.inj reads
    subst same
    exact ⟨by omega, r, front, escape, pending, last, ends, rfl⟩
  · obtain ⟨r₁, dot, rest⟩ := Except.bind_eq_ok.1 reads
    have same : r₁ = r₀ := Except.ok.inj rest
    subst same
    obtain ⟨spells, nothing, -⟩ := Reading.Spells.of_read_dot escape dot
    cases ends with
    | between => exact ⟨by omega, r, front, spells⟩
    | within something => exact absurd nothing something
  · obtain ⟨r₁, dot, rest⟩ := Except.bind_eq_ok.1 reads
    obtain ⟨r₂, dot', -⟩ := Except.bind_eq_ok.1 rest
    obtain ⟨-, nothing, outside'⟩ := Reading.Spells.of_read_dot escape dot
    exact absurd dot' (Reading.read_dot_ne_ok outside' nothing)

end DomainName
end ZoneCatalog
