import ZoneCatalog.Proofs.Data.Except
import ZoneCatalog.Proofs.Name.Agreement

/-! Texts that differ in the case of letters alone are read alike: the one is a name if and only if
the other is, and their labels agree. -/
namespace ZoneCatalog

namespace Text

theorem toNat_toLower (c : Char) :
    c.toLower.toNat = if 65 ≤ c.toNat ∧ c.toNat ≤ 90 then c.toNat + 32 else c.toNat := by
  have upper : (c.val ≥ 'A'.val ∧ c.val ≤ 'Z'.val) ↔ 65 ≤ c.toNat ∧ c.toNat ≤ 90 :=
    and_congr UInt32.le_iff_toNat_le UInt32.le_iff_toNat_le
  delta Char.toLower
  by_cases h : c.val ≥ 'A'.val ∧ c.val ≤ 'Z'.val
  · have bound := upper.1 h
    rw [dif_pos h, if_pos bound]
    change (c.val + 32).toNat = c.toNat + 32
    rw [UInt32.toNat_add]
    exact Nat.mod_eq_of_lt (by omega : c.toNat + 32 < 2 ^ 32)
  · rw [dif_neg h, if_neg (mt upper.2 h)]

theorem toLower_toLower (c : Char) : c.toLower.toLower = c.toLower := by
  refine Char.toNat_inj.1 ?_
  rw [toNat_toLower, toNat_toLower]
  split
  · rw [if_neg (by omega)]
  · rfl

theorem isAlpha_iff {c : Char} : c.isAlpha = true ↔
    65 ≤ c.toNat ∧ c.toNat ≤ 90 ∨ 97 ≤ c.toNat ∧ c.toNat ≤ 122 := by
  delta Char.isAlpha Char.isUpper Char.isLower
  simp only [Bool.or_eq_true, Bool.and_eq_true, decide_eq_true_eq, ge_iff_le,
    UInt32.le_iff_toNat_le]
  rfl

/-- What is the same for all letters is the same for characters with the same small letter. -/
theorem congr_of_toLower {α : Type} {c d : Char} (h : c.toLower = d.toLower) {f : Char → α}
    {a : α} (letters : ∀ e : Char, e.isAlpha = true → f e = a) : f c = f d := by
  have same := congrArg Char.toNat h
  rw [toNat_toLower, toNat_toLower] at same
  by_cases equal : c.toNat = d.toNat
  · rw [Char.toNat_inj.1 equal]
  · have hc : c.isAlpha = true := isAlpha_iff.2 (by split at same <;> split at same <;> omega)
    have hd : d.isAlpha = true := isAlpha_iff.2 (by split at same <;> split at same <;> omega)
    rw [letters c hc, letters d hd]

private theorem letter_induction {P : Char → Prop}
    (h : ∀ n : Fin 128, (Char.ofNat n).isAlpha = true → P (Char.ofNat n)) :
    ∀ c : Char, c.isAlpha = true → P c := by
  intro c hc
  have bound := isAlpha_iff.1 hc
  have small : c.toNat < 128 := by omega
  have here := h ⟨c.toNat, small⟩
  simp only [Char.ofNat_toNat] at here
  exact here hc

variable {c d : Char}

theorem isNumeric_of_isAlpha : ∀ c : Char, c.isAlpha = true → isNumeric c = false :=
  letter_induction (by decide +kernel)

theorem isNumeric_congr (h : c.toLower = d.toLower) : isNumeric c = isNumeric d :=
  congr_of_toLower h isNumeric_of_isAlpha

theorem isGap_congr (h : c.toLower = d.toLower) :
    (isControl c || isBlank c) = (isControl d || isBlank d) :=
  congr_of_toLower (f := fun c => isControl c || isBlank c) (a := false) h
    (letter_induction (by decide +kernel))

/-- Only the same mark looks like a mark. -/
theorem eq_iff_of_toLower {m : Char} (mark : m.isAlpha = false) (h : c.toLower = d.toLower) :
    c = m ↔ d = m := by
  have letters : ∀ e : Char, e.isAlpha = true → (e = m) = False := by
    intro e he
    refine eq_false ?_
    rintro rfl
    rw [he] at mark
    cases mark
  exact iff_of_eq (congr_of_toLower h letters)

end Text

namespace Label

theorem utf8ByteSize_of_ascii {cs : List Char} (h : ∀ c ∈ cs, c.toNat < 128) :
    (String.ofList cs).utf8ByteSize = cs.length := by
  induction cs with
  | nil => rfl
  | cons c cs ih =>
    obtain ⟨first, rest⟩ := List.forall_mem_cons.1 h
    have size : c.utf8Size = 1 :=
      Char.utf8Size_eq_one_iff.2 (UInt32.le_iff_toNat_le.2 (Nat.le_of_lt_succ first))
    rw [String.ofList_cons, String.utf8ByteSize_append, String.utf8ByteSize_singleton, ih rest,
      size, List.length_cons, Nat.add_comm]

/-- The only label that is made of characters is the one that has them. -/
theorem ofChars_eq_ok_iff {cs : List Char} {l : Label} : ofChars cs = .ok l ↔ l.chars = cs := by
  constructor
  · intro h
    simp only [ofChars] at h
    split at h
    · cases h
    · split at h
      · cases h
        rfl
      · cases h
  · rintro rfl
    have size := utf8ByteSize_of_ascii l.ascii
    have bounds := l.size_bounds
    rw [Label.size] at bounds
    simp only [ofChars, l.valid, dite_true]
    rw [if_neg (by omega)]

private theorem isPlain_congr {c d : Char} (h : c.toLower = d.toLower) : isPlain c = isPlain d :=
  Text.congr_of_toLower (a := true) h fun e he => by simp [isPlain, Char.isAlphanum, he]

theorem isValid_congr {cs ds : List Char} (h : Text.fold cs = Text.fold ds) :
    isValid cs = isValid ds := by
  have all : ∀ {cs ds : List Char}, Text.fold cs = Text.fold ds →
      (cs.all fun c => isPlain c || c = '-') = ds.all fun c => isPlain c || c = '-' := by
    intro cs
    induction cs with
    | nil =>
      intro ds h
      rw [List.map_eq_nil_iff.1 h.symm]
    | cons c cs ih =>
      intro ds h
      obtain ⟨d, ds, rfl, first, rest⟩ := List.map_eq_cons_iff.1 h.symm
      have mark := Text.eq_iff_of_toLower (m := '-') rfl first
      simp only [List.all_cons, isPlain_congr first, mark, ih rest.symm]
  cases cs with
  | nil => rw [List.map_eq_nil_iff.1 h.symm]
  | cons c cs =>
    obtain ⟨d, ds, rfl, first, rest⟩ := List.map_eq_cons_iff.1 h.symm
    have star := Text.eq_iff_of_toLower (m := '*') rfl first
    have length : ds.length = cs.length := by simpa [Text.fold] using congrArg List.length rest
    simp only [isValid, isPlain_congr first, star, all rest, length]

theorem size_eq_of_folded {l k : Label} (h : l.folded = k.folded) : l.size = k.size := by
  simpa [folded, Text.fold, size] using congrArg List.length h

end Label

namespace DomainName

theorem labelRoom_eq_of_folded {ls ks : List Label}
    (h : ls.map Label.folded = ks.map Label.folded) : labelRoom ls = labelRoom ks := by
  induction ls generalizing ks with
  | nil => rw [List.map_eq_nil_iff.1 h.symm]
  | cons l ls ih =>
    obtain ⟨k, ks, rfl, first, rest⟩ := List.map_eq_cons_iff.1 h.symm
    have here := Label.size_eq_of_folded first
    have there := ih rest.symm
    simp only [labelRoom, List.foldr_cons] at there ⊢
    omega

namespace Reading

/-! What one character can do to a reading. -/

/-- A reading goes on with one character. -/
inductive Step (r : Reading) : Char → Reading → Prop where
  | ended {label : Label} {name : DomainName} (outside : r.escape = .outside)
      (chars : label.chars = r.pending.reverse) (appended : r.name.append label = .ok name) :
    Step r '.' { r with name, pending := [] }
  | opened (outside : r.escape = .outside) : Step r '\\' { r with escape := .opened }
  | plain {c : Char} (outside : r.escape = .outside) (noDot : c ≠ '.') (noEscape : c ≠ '\\')
      (noGap : (Text.isControl c || Text.isBlank c) = false) :
    Step r c { r with pending := c :: r.pending }
  | escaped {c : Char} (opened : r.escape = .opened) (noDigit : Text.isNumeric c = false) :
    Step r c { r with pending := c :: r.pending, escape := .outside }
  | high {c : Char} {digit : Nat} (opened : r.escape = .opened) (hc : octalDigit c = .ok digit) :
    Step r c { r with escape := .oneDigit digit }
  | middle {c : Char} {digit high : Nat} (within : r.escape = .oneDigit high)
      (hc : octalDigit c = .ok digit) : Step r c { r with escape := .twoDigits high digit }
  | low {c : Char} {digit high middle : Nat} (within : r.escape = .twoDigits high middle)
      (hc : octalDigit c = .ok digit) :
    Step r c { r with
      pending := Char.ofNat (high * 64 + middle * 8 + digit) :: r.pending, escape := .outside }

variable {r r' : Reading} {c : Char}

theorem endLabel_eq_ok : r.endLabel = .ok r' ↔ ∃ label name, label.chars = r.pending.reverse ∧
    r.name.append label = .ok name ∧ r' = { r with name, pending := [] } := by
  simp only [endLabel, Except.bind_eq_ok, Label.ofChars_eq_ok_iff]
  constructor
  · rintro ⟨label, chars, name, appended, ⟨⟩⟩
    exact ⟨label, name, chars, appended, rfl⟩
  · rintro ⟨label, name, chars, appended, rfl⟩
    exact ⟨label, chars, name, appended, rfl⟩

/-- This is all that a character can do. -/
theorem read_eq_ok : r.read c = .ok r' ↔ r.Step c r' := by
  constructor
  · intro h
    rw [read] at h
    split at h
    · rename_i outside
      split at h
      · rename_i dot
        obtain ⟨label, name, chars, appended, rfl⟩ := endLabel_eq_ok.1 h
        exact dot ▸ .ended outside chars appended
      · rename_i noDot
        split at h
        · rename_i escape
          cases h
          exact escape ▸ .opened outside
        · rename_i noEscape
          split at h
          · cases h
          · rename_i noGap
            cases h
            exact .plain outside noDot noEscape (by simpa using noGap)
    · rename_i opened
      split at h
      · obtain ⟨digit, hc, rfl⟩ := Except.map_eq_ok.1 h
        exact .high opened hc
      · rename_i noDigit
        cases h
        exact .escaped opened (by simpa using noDigit)
    · rename_i high within
      obtain ⟨digit, hc, rfl⟩ := Except.map_eq_ok.1 h
      exact .middle within hc
    · rename_i high middle within
      obtain ⟨digit, hc, rfl⟩ := Except.map_eq_ok.1 h
      exact .low within hc
  · intro h
    cases h with
    | ended outside chars appended =>
      have ends := endLabel_eq_ok.2 ⟨_, _, chars, appended, rfl⟩
      simpa [read, outside] using ends
    | opened outside =>
      rw [read, outside]
      rfl
    | plain outside noDot noEscape noGap =>
      simp [read, outside, noDot, noEscape, noGap]
    | escaped opened noDigit => simp [read, opened, noDigit]
    | high opened hc =>
      have numeric : Text.isNumeric c = true := by
        by_contra other
        simp [octalDigit, other] at hc
      simp [read, opened, numeric, hc, Except.map]
    | middle within hc => simp [read, within, hc, Except.map]
    | low within hc => simp [read, within, hc, Except.map]

/-! Readings that differ in the case of letters alone. -/

structure Alike (r s : Reading) : Prop where
  folded : r.name.folded = s.name.folded
  pending : Text.fold r.pending = Text.fold s.pending
  escape : r.escape = s.escape

variable {s : Reading} {d : Char}

theorem append_alike {n m n' : DomainName} {l k : Label} (names : n.folded = m.folded)
    (labels : l.folded = k.folded) (h : n.append l = .ok n') :
    ∃ m', m.append k = .ok m' ∧ n'.folded = m'.folded := by
  have lists : (n.labels ++ [l]).map Label.folded = (m.labels ++ [k]).map Label.folded := by
    simp only [List.map_append, List.map_cons, labels]
    exact congrArg (· ++ _) names
  rw [append] at h
  split at h
  · rename_i fits
    cases h
    refine ⟨_, dif_pos (labelRoom_eq_of_folded lists ▸ fits), lists⟩
  · cases h

theorem octalDigit_congr (h : c.toLower = d.toLower) {digit : Nat}
    (hc : octalDigit c = .ok digit) : octalDigit d = .ok digit := by
  have letters : ∀ e : Char, e.isAlpha = true → (octalDigit e = .ok digit) = False := by
    intro e he
    have noDigit : Text.isNumeric e = false := Text.isNumeric_of_isAlpha e he
    simp [octalDigit, noDigit]
  exact (iff_of_eq (Text.congr_of_toLower h letters)).1 hc

theorem Step.alike (step : r.Step c r') (alike : r.Alike s) (h : c.toLower = d.toLower) :
    ∃ s', s.Step d s' ∧ r'.Alike s' := by
  obtain ⟨folded, pending, escape⟩ := alike
  have taken : Text.fold (c :: r.pending) = Text.fold (d :: s.pending) := by
    simp only [Text.fold, List.map_cons, h]
    exact congrArg _ pending
  cases step with
  | @ended label name outside chars appended =>
    obtain rfl : d = '.' := (Text.eq_iff_of_toLower rfl h).1 rfl
    have lasts : Text.fold s.pending.reverse = label.folded := by
      simpa [Label.folded, chars, Text.fold] using pending.symm
    have valid : Label.isValid s.pending.reverse = true :=
      (Label.isValid_congr lasts).trans label.valid
    obtain ⟨name', appended', names⟩ :=
      append_alike folded (k := ⟨s.pending.reverse, valid⟩) lasts.symm appended
    exact ⟨_, .ended (escape ▸ outside) rfl appended', names, rfl, escape⟩
  | opened outside =>
    obtain rfl : d = '\\' := (Text.eq_iff_of_toLower rfl h).1 rfl
    exact ⟨_, .opened (escape ▸ outside), folded, pending, rfl⟩
  | plain outside noDot noEscape noGap =>
    refine ⟨_, .plain (escape ▸ outside) ?_ ?_ ?_, folded, taken, escape⟩
    · exact mt (Text.eq_iff_of_toLower rfl h).2 noDot
    · exact mt (Text.eq_iff_of_toLower rfl h).2 noEscape
    · exact (Text.isGap_congr h).symm.trans noGap
  | escaped opened noDigit =>
    exact ⟨_, .escaped (escape ▸ opened) ((Text.isNumeric_congr h).symm.trans noDigit), folded,
      taken, rfl⟩
  | high opened hc =>
    exact ⟨_, .high (escape ▸ opened) (octalDigit_congr h hc), folded, pending, rfl⟩
  | middle within hc =>
    exact ⟨_, .middle (escape ▸ within) (octalDigit_congr h hc), folded, pending, rfl⟩
  | low within hc =>
    refine ⟨_, .low (escape ▸ within) (octalDigit_congr h hc), folded, ?_, rfl⟩
    simp only [Text.fold, List.map_cons]
    exact congrArg _ pending

/-- Alike texts are read alike, from readings that are alike. -/
theorem foldlM_alike {text text' : List Char} (texts : Text.fold text = Text.fold text')
    (alike : r.Alike s) (h : text.foldlM read r = .ok r') :
    ∃ s', text'.foldlM read s = .ok s' ∧ r'.Alike s' := by
  induction text generalizing r s text' with
  | nil =>
    obtain rfl := List.map_eq_nil_iff.1 texts.symm
    cases h
    exact ⟨s, rfl, alike⟩
  | cons c text ih =>
    obtain ⟨d, text', rfl, first, rest⟩ := List.map_eq_cons_iff.1 texts.symm
    obtain ⟨r₁, step, reads⟩ := Except.bind_eq_ok.1 h
    obtain ⟨s₁, step', alike'⟩ := (read_eq_ok.1 step).alike alike first.symm
    obtain ⟨s', reads', ends⟩ := ih rest.symm alike' reads
    refine ⟨s', ?_, ends⟩
    rw [List.foldlM_cons, read_eq_ok.2 step']
    exact reads'

/-! The end of a text. -/

/-- The reading of a text from its beginning. -/
def start : Reading := ⟨empty, [], .outside⟩

/-- The name that a reading comes to if nothing more is read. -/
inductive Ends (r : Reading) : DomainName → Prop where
  | between (nothing : r.pending = []) : Ends r r.name
  | within {label : Label} {name : DomainName} (something : r.pending ≠ [])
      (chars : label.chars = r.pending.reverse) (appended : r.name.append label = .ok name) :
    Ends r name

theorem Ends.alike {name : DomainName} (ends : r.Ends name) (alike : r.Alike s) :
    ∃ name', s.Ends name' ∧ name.folded = name'.folded := by
  obtain ⟨folded, pending, -⟩ := alike
  cases ends with
  | between nothing =>
    have none_left : s.pending = [] := List.map_eq_nil_iff.1 (pending ▸ congrArg Text.fold nothing)
    exact ⟨_, .between none_left, folded⟩
  | @within label _ something chars appended =>
    have lasts : Text.fold s.pending.reverse = label.folded := by
      simpa [Label.folded, chars, Text.fold] using pending.symm
    have valid : Label.isValid s.pending.reverse = true :=
      (Label.isValid_congr lasts).trans label.valid
    obtain ⟨name', appended', names⟩ :=
      append_alike folded (k := ⟨s.pending.reverse, valid⟩) lasts.symm appended
    refine ⟨name', .within (fun nothing => ?_) rfl appended', names⟩
    rw [nothing] at pending
    exact something (List.map_eq_nil_iff.1 pending)

end Reading

/-- A text other than the root is read to its end, and is absolute if it ends with a dot. -/
theorem parse_eq_ok {text : List Char} {name : DomainName} (other : text ≠ ['.']) :
    parse text = .ok name ↔ ∃ r last, text.foldlM Reading.read Reading.start = .ok r ∧
      r.Ends last ∧ name = { last with absolute := text.getLast? = some '.' } := by
  rw [parse, if_neg other, Except.bind_eq_ok]
  constructor
  · rintro ⟨r, reads, h⟩
    split at h
    · rename_i nothing
      cases h
      exact ⟨r, r.name, reads, .between nothing, rfl⟩
    · rename_i something
      obtain ⟨r', ended, ⟨⟩⟩ := Except.bind_eq_ok.1 h
      obtain ⟨label, last, chars, appended, rfl⟩ := Reading.endLabel_eq_ok.1 ended
      exact ⟨r, last, reads, .within something chars appended, rfl⟩
  · rintro ⟨r, last, reads, ends, rfl⟩
    refine ⟨r, reads, ?_⟩
    cases ends with
    | between nothing =>
      rw [if_pos nothing]
      rfl
    | within something chars appended =>
      have ended := Reading.endLabel_eq_ok.2 ⟨_, _, chars, appended, rfl⟩
      rw [if_neg something, ended]
      rfl

/-- Of texts that differ in the case of letters alone, one is a name if and only if the other is,
and their labels agree. -/
theorem parse_alike {text text' : List Char} {name : DomainName}
    (texts : Text.fold text = Text.fold text') (h : parse text = .ok name) :
    ∃ name', parse text' = .ok name' ∧ name.folded = name'.folded := by
  by_cases root : text = ['.']
  · subst root
    obtain ⟨d, rest, rfl, dot, nothing⟩ := List.map_eq_cons_iff.1 texts.symm
    obtain rfl : d = '.' := (Text.eq_iff_of_toLower rfl dot).2 rfl
    obtain rfl := List.map_eq_nil_iff.1 nothing
    exact ⟨name, h, rfl⟩
  · have root' : text' ≠ ['.'] := by
      rintro rfl
      obtain ⟨d, rest, rfl, dot, nothing⟩ := List.map_eq_cons_iff.1 texts
      obtain rfl : d = '.' := (Text.eq_iff_of_toLower rfl dot).2 rfl
      obtain rfl := List.map_eq_nil_iff.1 nothing
      exact root rfl
    obtain ⟨r, last, reads, ends, rfl⟩ := (parse_eq_ok root).1 h
    obtain ⟨r', reads', alike⟩ := Reading.foldlM_alike texts ⟨rfl, rfl, rfl⟩ reads
    obtain ⟨last', ends', folded⟩ := ends.alike alike
    exact ⟨_, (parse_eq_ok root').2 ⟨r', last', reads', ends', rfl⟩, folded⟩

end DomainName
end ZoneCatalog
