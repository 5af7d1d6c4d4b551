import ZoneCatalog.Name.Printer
import ZoneCatalog.Proofs.Name.Marks
import ZoneCatalog.Proofs.Text.Words

/-! Names read back off their text. Every label is found again, escaped dots and all, as long as
there is a text to read at all: a relative name without labels has none, and comes about only from
an escape that its text cuts off. -/
namespace ZoneCatalog

/-- Whether a character is nothing but itself in the tokens of a record. -/
def Text.isSolid (c : Char) : Bool := !(isControl c || isBlank c) && !(['(', ')', ';'].contains c)

namespace Label

variable {l : Label} {c : Char}

theorem spelled (hc : c ∈ l.chars) : isPlain c = true ∨ c = '*' ∨ c = '-' := by
  obtain ⟨chars, valid⟩ := l
  cases chars with
  | nil => cases hc
  | cons first rest =>
    simp only [isValid, Bool.and_eq_true, Bool.or_eq_true, decide_eq_true_eq, List.all_eq_true]
      at valid
    rcases List.mem_cons.1 hc with rfl | hc
    · exact valid.1.1.imp_right .inl
    · exact (valid.1.2 c hc).imp_right .inr

theorem solid_chars (hc : c ∈ l.chars) : Text.isSolid c = true ∧ c ≠ '\\' := by
  have all : ∀ n : Fin 128, (isPlain (Char.ofNat n) = true ∨ Char.ofNat n = '*' ∨
      Char.ofNat n = '-') → Text.isSolid (Char.ofNat n) = true ∧ Char.ofNat n ≠ '\\' := by
    decide +kernel
  have here := all ⟨c.toNat, l.ascii c hc⟩
  simp only [Char.ofNat_toNat] at here
  exact here (spelled hc)

theorem chars_ne_nil (l : Label) : l.chars ≠ [] :=
  List.length_pos_iff.1 l.size_bounds.1

theorem text_ne_nil (l : Label) : l.text ≠ [] := by
  obtain ⟨c, cs, hl⟩ := List.exists_cons_of_ne_nil l.chars_ne_nil
  simp only [text, hl, List.flatMap_cons]
  split <;> simp

theorem solid_text (hc : c ∈ l.text) : Text.isSolid c = true := by
  obtain ⟨d, hd, hc⟩ := List.mem_flatMap.1 hc
  split at hc
  · simp only [List.mem_cons, List.not_mem_nil, or_false] at hc
    rcases hc with rfl | rfl
    · decide
    · decide
  · rw [List.mem_singleton] at hc
    exact hc ▸ (solid_chars hd).1

end Label

namespace DomainName

variable {name : DomainName} {c : Char}

theorem solid_joined {labels : List Label} (hc : c ∈ ((labels.map Label.text).intersperse
    ['.']).flatten) : Text.isSolid c = true := by
  rcases Text.mem_intersperse hc with rfl | ⟨piece, within, hc⟩
  · decide
  · obtain ⟨l, -, rfl⟩ := List.mem_map.1 within
    exact Label.solid_text hc

theorem solid_text (hc : c ∈ name.text) : Text.isSolid c = true := by
  simp only [text] at hc
  split at hc
  · rcases List.mem_append.1 hc with joined | dot
    · exact solid_joined joined
    · rw [List.mem_singleton.1 dot]
      decide
  · exact solid_joined hc

theorem labelRoom_append (ls ks : List Label) :
    labelRoom (ls ++ ks) = labelRoom ls + labelRoom ks := by
  induction ls with
  | nil => exact (Nat.zero_add _).symm
  | cons l ls ih =>
    have room : ∀ ms, labelRoom (l :: ms) = l.size + 1 + labelRoom ms := fun _ => rfl
    rw [List.cons_append, room, room, ih, ← Nat.add_assoc]

theorem append_of_room {n : DomainName} {l : Label} (h : labelRoom (n.labels ++ [l]) ≤ 255) :
    ∃ n', n.append l = .ok n' ∧ n'.labels = n.labels ++ [l] :=
  ⟨_, dif_pos h, rfl⟩

namespace Reading

variable {r : Reading}

/-- The text of a label adds its characters to the label under way. -/
theorem foldlM_label (outside : r.escape = .outside) (l : Label) :
    l.text.foldlM read r = .ok { r with pending := l.chars.reverse ++ r.pending } := by
  have each : ∀ cs : List Char, (∀ c ∈ cs, c ∈ l.chars) → ∀ s : Reading, s.escape = .outside →
      (cs.flatMap fun c => if c = '.' then ['\\', '.'] else [c]).foldlM read s =
        .ok { s with pending := cs.reverse ++ s.pending } := by
    intro cs within
    induction cs with
    | nil =>
      intro s _
      rfl
    | cons c cs ih =>
      intro s outside
      rw [List.forall_mem_cons] at within
      have taken : (if c = '.' then ['\\', '.'] else [c]).foldlM read s =
          .ok { s with pending := c :: s.pending } := by
        by_cases dot : c = '.'
        · have escaped :=
            Step.escaped (r := { s with escape := .opened }) (c := '.') rfl (by decide)
          rw [if_pos dot, dot, List.foldlM_cons, read_eq_ok.2 (.opened outside), Except.ok_bind,
            List.foldlM_cons, read_eq_ok.2 escaped, outside]
          rfl
        · obtain ⟨solid, noEscape⟩ := Label.solid_chars within.1
          have noGap : (Text.isControl c || Text.isBlank c) = false := by
            simp only [Text.isSolid, Bool.and_eq_true, Bool.not_eq_true'] at solid
            exact solid.1
          rw [if_neg dot, List.foldlM_cons, read_eq_ok.2 (.plain outside dot noEscape noGap)]
          rfl
      rw [List.flatMap_cons, List.foldlM_append, taken, Except.ok_bind,
        ih within.2 { s with pending := c :: s.pending } outside]
      simp
  exact each l.chars (fun _ hc => hc) r outside

/-- Labels that there is room for are read off their joined texts. -/
theorem foldlM_joined {labels : List Label} (outside : r.escape = .outside)
    (nothing : r.pending = []) (room : labelRoom (r.name.labels ++ labels) ≤ 255)
    (nonempty : labels ≠ []) :
    ∃ r', ((labels.map Label.text).intersperse ['.']).flatten.foldlM read r = .ok r' ∧
      r'.Spells (r.name.labels ++ labels) := by
  induction labels generalizing r with
  | nil => exact absurd rfl nonempty
  | cons l ls ih =>
    have front : labelRoom (r.name.labels ++ [l]) ≤ 255 := by
      rw [List.append_cons, labelRoom_append] at room
      omega
    obtain ⟨name, appended, same⟩ := append_of_room front
    have chars : l.chars = (l.chars.reverse ++ r.pending).reverse := by simp [nothing]
    cases ls with
    | nil =>
      have pending : l.chars.reverse ++ r.pending ≠ [] := by simp [nothing, l.chars_ne_nil]
      refine ⟨{ r with pending := l.chars.reverse ++ r.pending }, ?_, outside, pending, name,
        .within pending chars appended, same⟩
      simpa using foldlM_label outside l
    | cons k ks =>
      have ended := Step.ended (r := { r with pending := l.chars.reverse ++ r.pending }) outside
        chars appended
      have rest := ih (r := { r with name, pending := [] }) outside rfl
        (by rwa [same, List.append_assoc]) (List.cons_ne_nil _ _)
      obtain ⟨r', reads, spells⟩ := rest
      refine ⟨r', ?_, by rwa [same, List.append_assoc] at spells⟩
      simp only [List.map_cons, List.intersperse_cons_cons, List.flatten_cons,
        List.foldlM_append, foldlM_label outside, Except.ok_bind, List.foldlM_cons,
        read_eq_ok.2 ended] at reads ⊢
      exact reads

end Reading

/-- A name without labels is the root or the relative one. -/
theorem eq_root_or_empty (nothing : name.labels = []) :
    name = if name.absolute then root else empty := by
  obtain ⟨labels, absolute, fits⟩ := name
  subst nothing
  cases absolute <;> rfl

/-- Every name but one has a text. -/
theorem text_eq_nil_iff : name.text = [] ↔ name = empty := by
  constructor
  · intro h
    simp only [text] at h
    split at h
    · exact absurd h (by simp)
    · rename_i relative
      have nothing : name.labels = [] := by
        by_contra nonempty
        obtain ⟨l, ls, hl⟩ := List.exists_cons_of_ne_nil nonempty
        rw [hl] at h
        cases ls with
        | nil => exact l.text_ne_nil (by simpa using h)
        | cons k ks => exact l.text_ne_nil (List.append_eq_nil_iff.1 h).1
      rw [eq_root_or_empty nothing, if_neg relative]
  · rintro rfl
    rfl

/-- The names with a text are the root and those with a label. -/
theorem text_ne_nil_iff : name.text ≠ [] ↔ name = root ∨ name.labels ≠ [] := by
  rw [Ne, text_eq_nil_iff]
  constructor
  · intro other
    by_cases nothing : name.labels = []
    · left
      have either := eq_root_or_empty nothing
      split at either
      · exact either
      · exact absurd either other
    · exact .inr nothing
  · rintro (rfl | labelled)
    · decide
    · rintro rfl
      exact labelled rfl

/-- A name that has a text is read back off it, with all its labels. -/
theorem parse_text (h : name.text ≠ []) :
    ∃ again, parse name.text = .ok again ∧ again.labels = name.labels := by
  by_cases nothing : name.labels = []
  · obtain rfl := (text_ne_nil_iff.1 h).resolve_right (not_not_intro nothing)
    exact ⟨root, rfl, rfl⟩
  · obtain ⟨r, reads, spells⟩ :=
      Reading.foldlM_joined (r := Reading.start) rfl rfl name.fits nothing
    simp only [text]
    split
    · exact spells.parse_dots reads (.inr rfl)
    · rw [← List.append_nil (List.flatten _)]
      exact spells.parse_dots reads (.inl rfl)

/-! The texts of a relative name without labels. -/

/-- The number of characters by which an escape under way is over. -/
def Escape.room : Escape → Nat
  | .outside => 0
  | .opened => 3
  | .oneDigit _ => 2
  | .twoDigits _ _ => 1

namespace Reading

variable {r r' : Reading} {text : List Char}

/-- Behind an open escape nothing but digits can be read without adding to the labels, and too few
of them to end it. -/
theorem digits_of_trace_nil (reads : text.foldlM read r = .ok r') (nothing : r'.trace = [])
    (within : r.escape ≠ .outside) :
    text.length < r.escape.room ∧ ∀ d ∈ text, ∃ n, octalDigit d = .ok n := by
  induction text generalizing r with
  | nil =>
    refine ⟨?_, by simp⟩
    cases escape : r.escape with
    | outside => exact absurd escape within
    | opened => simp [Escape.room]
    | oneDigit high => simp [Escape.room]
    | twoDigits high middle => simp [Escape.room]
  | cons c text ih =>
    obtain ⟨r₁, step, reads⟩ := Except.bind_eq_ok.1 reads
    have still : r₁.trace = [] := by
      rw [(trace_of_foldlM reads).1] at nothing
      exact (List.append_eq_nil_iff.1 nothing).1
    cases read_eq_ok.1 step with
    | ended outside => exact absurd outside within
    | opened outside => exact absurd outside within
    | plain outside => exact absurd outside within
    | escaped => simp [trace] at still
    | low => simp [trace] at still
    | high opened hc =>
      obtain ⟨few, digits⟩ := ih reads (by rintro ⟨⟩)
      have longer := Nat.succ_lt_succ few
      exact ⟨by rwa [opened], List.forall_mem_cons.2 ⟨⟨_, hc⟩, digits⟩⟩
    | middle oneDigit hc =>
      obtain ⟨few, digits⟩ := ih reads (by rintro ⟨⟩)
      have longer := Nat.succ_lt_succ few
      exact ⟨by rwa [oneDigit], List.forall_mem_cons.2 ⟨⟨_, hc⟩, digits⟩⟩

end Reading

private theorem octalDigit_ne_dot {n : Nat} (h : octalDigit c = .ok n) : c ≠ '.' := by
  rintro rfl
  have dot : octalDigit '.' = .error (.unrecognized '.') := by decide
  rw [dot] at h
  cases h

/-- Of all texts, the ones that are read as a relative name without labels are the empty one and an
escape that the text cuts off: a backslash and fewer octal digits than a character code has. -/
theorem parse_eq_empty_iff {text : List Char} (something : text ≠ []) :
    parse text = .ok empty ↔ ∃ digits, text = '\\' :: digits ∧ digits.length < 3 ∧
      ∀ d ∈ digits, ∃ n, octalDigit d = .ok n := by
  constructor
  · intro h
    have other : text ≠ ['.'] := by
      rintro rfl
      cases h
    obtain ⟨r, last, reads, ends, same⟩ := (parse_eq_ok other).1 h
    have labels : last.labels = [] := (congrArg DomainName.labels same).symm
    have nothing : r.trace = [] := by
      cases ends with
      | between nothing => simp [Reading.trace, nothing, labels]
      | within _ _ appended => simp [Reading.append_labels appended] at labels
    obtain ⟨c, digits, rfl⟩ := List.exists_cons_of_ne_nil something
    obtain ⟨r₁, step, reads⟩ := Except.bind_eq_ok.1 reads
    have still : r₁.trace = [] := by
      rw [(Reading.trace_of_foldlM reads).1] at nothing
      exact (List.append_eq_nil_iff.1 nothing).1
    cases Reading.read_eq_ok.1 step with
    | ended _ _ appended => simp [Reading.trace, Reading.append_labels appended, marks] at still
    | plain => simp [Reading.trace] at still
    | opened => exact ⟨digits, rfl, Reading.digits_of_trace_nil reads nothing (by rintro ⟨⟩)⟩
    | escaped opened => cases opened
    | high opened => cases opened
    | middle oneDigit => cases oneDigit
    | low twoDigits => cases twoDigits
  · rintro ⟨digits, rfl, few, octal⟩
    have reads : ∃ escape, ('\\' :: digits).foldlM Reading.read Reading.start =
        .ok ⟨empty, [], escape⟩ := by
      have opened := Reading.read_eq_ok.2 (.opened (r := Reading.start) rfl)
      rw [List.foldlM_cons, opened, Except.ok_bind]
      rcases digits with _ | ⟨d, _ | ⟨e, _ | ⟨f, rest⟩⟩⟩
      · exact ⟨_, rfl⟩
      · obtain ⟨n, hd⟩ := octal d (by simp)
        rw [List.foldlM_cons, Reading.read_eq_ok.2 (.high rfl hd)]
        exact ⟨_, rfl⟩
      · obtain ⟨n, hd⟩ := octal d (by simp)
        obtain ⟨m, he⟩ := octal e (by simp)
        rw [List.foldlM_cons, Reading.read_eq_ok.2 (.high rfl hd), Except.ok_bind,
          List.foldlM_cons, Reading.read_eq_ok.2 (.middle rfl he)]
        exact ⟨_, rfl⟩
      · simp only [List.length_cons] at few
        omega
    obtain ⟨escape, reads⟩ := reads
    have relative : ('\\' :: digits).getLast? ≠ some '.' := by
      intro dot
      rcases List.mem_cons.1 (List.mem_of_getLast? dot) with slash | digit
      · cases slash
      · obtain ⟨n, hn⟩ := octal _ digit
        exact octalDigit_ne_dot hn rfl
    have other : '\\' :: digits ≠ ['.'] := by simp
    refine (parse_eq_ok other).2 ⟨_, _, reads, .between rfl, ?_⟩
    simp [relative, empty]

end DomainName
end ZoneCatalog
