import Mathlib.Data.List.Forall2
import ZoneCatalog.Dnssec.PrivateKey
import ZoneCatalog.Proofs.Bytes.Base64
import ZoneCatalog.Proofs.Data.Except
import ZoneCatalog.Proofs.Text.Numeral
import ZoneCatalog.Proofs.Text.Words

/-! What documents hold a secret key. Of the lines for a field the last one counts and all of them
have to be sound, but only the last format is looked at. Other lines, and the order of the fields,
make no difference. -/
namespace ZoneCatalog.PrivateKey

variable {line : List Char} {lines : List (List Char)} {field other value : String}
  {v : List Char} {draft draft' : Draft} {k : PrivateKey}

/-! The grammar of a document. -/

/-- The value that a line gives a field: what stands after the first colon, if the field stands
before it. Blanks at the ends of either do not count. -/
def value? (field : String) (line : List Char) : Option (List Char) :=
  match Text.cutAt ':' line with
  | (name, some value) => if Text.trim name = field.toList then some (Text.trim value) else none
  | (_, none) => none

/-- All values of a field, in the order of their lines. -/
def values (field : String) (lines : List (List Char)) : List (List Char) :=
  lines.filterMap (value? field)

/-- The first word of a value is the number. -/
def Numbers (value : List Char) (number : UInt8) : Prop :=
  ∃ word, (Text.words value).head? = some word ∧ Text.IsNumeral word number.toNat

/-- A value spells the bytes, apart from its blanks. -/
def SpellsSecret (value : List Char) (bytes : Bytes) : Prop :=
  Base64.Spells (value.filter fun c => !Text.isBlank c) bytes

/-- The lines of a document are those of a key. -/
structure Denotes (lines : List (List Char)) (k : PrivateKey) : Prop where
  format : ∃ format, (values "Private-key-format" lines).getLast? = some format ∧
    "v1.".toList <+: format
  algorithm : ∃ numbers, List.Forall₂ Numbers (values "Algorithm" lines) numbers ∧
    numbers.getLast? = some k.algorithm
  secret : ∃ secrets, List.Forall₂ SpellsSecret (values "PrivateKey" lines) secrets ∧
    secrets.getLast? = some k.secret

/-- A line that says nothing of a key: it has no colon, or another field before it. -/
def IsForeign (line : List Char) : Prop :=
  ∀ field ∈ ["Private-key-format", "Algorithm", "PrivateKey"], value? field line = none

instance (line : List Char) : Decidable (IsForeign line) :=
  inferInstanceAs (Decidable (∀ field ∈ _, _))

/-! Reading one line. -/

theorem value?_eq_some_iff : value? field line = some v ↔ ∃ name text,
    Text.cutAt ':' line = (name, some text) ∧ Text.trim name = field.toList ∧
      Text.trim text = v := by
  rw [value?]
  split
  · rename_i name text cut
    rw [cut]
    by_cases named : Text.trim name = field.toList
    · simp [named]
    · simp [named]
  · rename_i name cut
    rw [cut]
    simp

/-- A line is about one field at most. -/
theorem value?_eq_none (h : value? field line = some v) (ne : field ≠ other) :
    value? other line = none := by
  cases hv : value? other line with
  | none => rfl
  | some w =>
    obtain ⟨name, text, cut, named, -⟩ := value?_eq_some_iff.1 h
    obtain ⟨name', text', cut', named', -⟩ := value?_eq_some_iff.1 hv
    rw [cut] at cut'
    cases cut'
    exact absurd (String.toList_injective (named.symm.trans named')) ne

theorem readLine_format (h : value? "Private-key-format" line = some v) :
    readLine draft line = .ok { draft with format := some v } := by
  obtain ⟨name, text, cut, named, rfl⟩ := value?_eq_some_iff.1 h
  simp only [readLine, cut, named, if_true]

theorem readLine_algorithm (h : value? "Algorithm" line = some v) :
    readLine draft line = .ok draft' ↔
      ∃ number, Numbers v number ∧ draft' = { draft with algorithm := some number } := by
  obtain ⟨name, text, cut, named, rfl⟩ := value?_eq_some_iff.1 h
  have other : "Algorithm".toList ≠ "Private-key-format".toList := by decide
  simp only [readLine, cut, named, if_neg other, if_true]
  constructor
  · intro read
    split at read
    · rename_i n numeral
      obtain ⟨numeral, small⟩ := Text.numeral?_eq_some_iff.1 numeral
      have same : (UInt8.ofNat n).toNat = n := Nat.mod_eq_of_lt small
      cases read
      refine ⟨UInt8.ofNat n, ?_, rfl⟩
      cases first : Text.words (Text.trim text) with
      | nil =>
        rw [first] at numeral
        obtain ⟨digits, spelled, something, -⟩ := numeral
        rcases spelled with rfl | spelled
        · exact absurd rfl something
        · cases spelled
      | cons word words =>
        rw [first] at numeral
        exact ⟨word, by rw [first]; rfl, by rw [same]; exact numeral⟩
    · cases read
  · rintro ⟨number, ⟨word, first, numeral⟩, rfl⟩
    have read := Text.numeral?_eq_some_iff.2 ⟨numeral, number.toNat_lt⟩
    rw [List.headD_eq_head?_getD, first, Option.getD_some]
    simp only [UInt8.size, read, UInt8.ofNat_toNat]

theorem readLine_secret (h : value? "PrivateKey" line = some v) :
    readLine draft line = .ok draft' ↔
      ∃ bytes, SpellsSecret v bytes ∧ draft' = { draft with secret := some bytes } := by
  obtain ⟨name, text, cut, named, rfl⟩ := value?_eq_some_iff.1 h
  have other : "PrivateKey".toList ≠ "Private-key-format".toList := by decide
  have another : "PrivateKey".toList ≠ "Algorithm".toList := by decide
  simp only [readLine, cut, named, if_neg other, if_neg another, if_true, SpellsSecret,
    ← Base64.decode_eq_some_iff, ← Text.flatten_words]
  constructor
  · intro read
    split at read
    · rename_i bytes decoded
      cases read
      exact ⟨bytes, decoded, rfl⟩
    · cases read
  · rintro ⟨bytes, decoded, rfl⟩
    rw [decoded]

theorem readLine_foreign (h : IsForeign line) : readLine draft line = .ok draft := by
  simp only [IsForeign, List.forall_mem_cons, List.not_mem_nil, false_imp_iff, forall_const,
    and_true, value?] at h
  obtain ⟨noFormat, noAlgorithm, noSecret⟩ := h
  rw [readLine]
  split
  · rfl
  · rename_i name text cut
    simp only [cut, ite_eq_right_iff, reduceCtorEq, imp_false] at noFormat noAlgorithm noSecret
    simp only [if_neg noFormat, if_neg noAlgorithm, if_neg noSecret]

theorem line_cases (line : List Char) : IsForeign line ∨
    (∃ v, value? "Private-key-format" line = some v) ∨ (∃ v, value? "Algorithm" line = some v) ∨
      ∃ v, value? "PrivateKey" line = some v := by
  simp only [← Option.isSome_iff_exists, IsForeign, List.forall_mem_cons, List.not_mem_nil,
    false_imp_iff, forall_const, and_true, ← Option.not_isSome_iff_eq_none]
  tauto

/-! Reading all lines. -/

/-- What is drafted from the values of the three fields, after what was drafted before them. -/
structure Draft.Reads (draft : Draft) (formats algorithms secrets : List (List Char))
    (draft' : Draft) : Prop where
  format : draft'.format = (formats.map some).getLastD draft.format
  algorithm : ∃ numbers, List.Forall₂ Numbers algorithms numbers ∧
    draft'.algorithm = (numbers.map some).getLastD draft.algorithm
  secret : ∃ keys, List.Forall₂ SpellsSecret secrets keys ∧
    draft'.secret = (keys.map some).getLastD draft.secret

section Reads

variable {formats algorithms secrets : List (List Char)}

theorem Draft.reads_nil : draft.Reads [] [] [] draft' ↔ draft' = draft := by
  constructor
  · rintro ⟨format, ⟨_, ⟨⟩, algorithm⟩, ⟨_, ⟨⟩, secret⟩⟩
    cases draft
    cases draft'
    exact congr (congr (congrArg Draft.mk format) algorithm) secret
  · rintro rfl
    exact ⟨rfl, ⟨[], .nil, rfl⟩, ⟨[], .nil, rfl⟩⟩

theorem Draft.reads_format : draft.Reads (v :: formats) algorithms secrets draft' ↔
    { draft with format := some v }.Reads formats algorithms secrets draft' := by
  constructor
  · rintro ⟨format, algorithm, secret⟩
    rw [List.map_cons, List.getLastD_cons] at format
    exact ⟨format, algorithm, secret⟩
  · rintro ⟨format, algorithm, secret⟩
    exact ⟨by rw [List.map_cons, List.getLastD_cons, format], algorithm, secret⟩

theorem Draft.reads_algorithm : draft.Reads formats (v :: algorithms) secrets draft' ↔
    ∃ number, Numbers v number ∧
      { draft with algorithm := some number }.Reads formats algorithms secrets draft' := by
  constructor
  · rintro ⟨format, ⟨_, numbered, algorithm⟩, secret⟩
    obtain ⟨number, numbers, first, others, rfl⟩ := List.forall₂_cons_left_iff.1 numbered
    rw [List.map_cons, List.getLastD_cons] at algorithm
    exact ⟨number, first, format, ⟨numbers, others, algorithm⟩, secret⟩
  · rintro ⟨number, first, format, ⟨numbers, others, algorithm⟩, secret⟩
    refine ⟨format, ⟨number :: numbers, .cons first others, ?_⟩, secret⟩
    rw [List.map_cons, List.getLastD_cons, algorithm]

theorem Draft.reads_secret : draft.Reads formats algorithms (v :: secrets) draft' ↔
    ∃ bytes, SpellsSecret v bytes ∧
      { draft with secret := some bytes }.Reads formats algorithms secrets draft' := by
  constructor
  · rintro ⟨format, algorithm, ⟨_, spelled, secret⟩⟩
    obtain ⟨bytes, keys, first, others, rfl⟩ := List.forall₂_cons_left_iff.1 spelled
    rw [List.map_cons, List.getLastD_cons] at secret
    exact ⟨bytes, first, format, algorithm, ⟨keys, others, secret⟩⟩
  · rintro ⟨bytes, first, format, algorithm, ⟨keys, others, secret⟩⟩
    refine ⟨format, algorithm, ⟨bytes :: keys, .cons first others, ?_⟩⟩
    rw [List.map_cons, List.getLastD_cons, secret]

end Reads

theorem values_cons (field : String) (line : List Char) (lines : List (List Char)) :
    values field (line :: lines) = (value? field line).toList ++ values field lines := by
  rw [values, values]
  cases h : value? field line with
  | none => exact List.filterMap_cons_none h
  | some v => exact List.filterMap_cons_some h

/-- Lines are read if every value of an algorithm and of a key is sound, and what is drafted then
are the last values. -/
theorem foldlM_readLine_eq_ok_iff : lines.foldlM readLine draft = .ok draft' ↔
    draft.Reads (values "Private-key-format" lines) (values "Algorithm" lines)
      (values "PrivateKey" lines) draft' := by
  induction lines generalizing draft with
  | nil =>
    rw [List.foldlM_nil]
    exact ⟨fun h => Draft.reads_nil.2 (Except.ok.inj h).symm,
      fun h => congrArg Except.ok (Draft.reads_nil.1 h).symm⟩
  | cons line lines ih =>
    rw [List.foldlM_cons, Except.bind_eq_ok, values_cons, values_cons, values_cons]
    rcases line_cases line with foreign | ⟨v, about⟩ | ⟨v, about⟩ | ⟨v, about⟩
    · rw [readLine_foreign foreign, foreign "Private-key-format" (by decide),
        foreign "Algorithm" (by decide), foreign "PrivateKey" (by decide)]
      simp [ih]
    · rw [readLine_format about, about, value?_eq_none about (by decide : _ ≠ "Algorithm"),
        value?_eq_none about (by decide : _ ≠ "PrivateKey")]
      simp [ih, Draft.reads_format]
    · simp only [readLine_algorithm about, about,
        value?_eq_none about (by decide : _ ≠ "Private-key-format"),
        value?_eq_none about (by decide : _ ≠ "PrivateKey")]
      simp [ih, Draft.reads_algorithm]
    · simp only [readLine_secret about, about,
        value?_eq_none about (by decide : _ ≠ "Private-key-format"),
        value?_eq_none about (by decide : _ ≠ "Algorithm")]
      simp [ih, Draft.reads_secret]

theorem Draft.finish_eq_ok_iff : draft.finish = .ok k ↔
    (∃ format, draft.format = some format ∧ "v1.".toList <+: format) ∧
      draft.algorithm = some k.algorithm ∧ draft.secret = some k.secret := by
  obtain ⟨format, algorithm, secret⟩ := draft
  cases format with
  | none => exact iff_of_false nofun fun h => nomatch h.1
  | some format =>
    rw [Draft.finish]
    by_cases supported : "v1.".toList <+: format
    · have passes : "v1.".toList.isPrefixOf format = true := List.isPrefixOf_iff_prefix.2 supported
      simp only [passes, Bool.not_true, Bool.false_eq_true, if_false]
      cases algorithm with
      | none => exact iff_of_false nofun fun h => nomatch h.2.1
      | some algorithm =>
        cases secret with
        | none => exact iff_of_false nofun fun h => nomatch h.2.2
        | some secret =>
          constructor
          · rintro ⟨⟩
            exact ⟨⟨format, rfl, supported⟩, rfl, rfl⟩
          · rintro ⟨-, ⟨⟩, ⟨⟩⟩
            rfl
    · have fails : "v1.".toList.isPrefixOf format = false := by
        rw [Bool.eq_false_iff]
        exact mt List.isPrefixOf_iff_prefix.1 supported
      simp only [fails, Bool.not_false, if_true]
      refine iff_of_false nofun ?_
      rintro ⟨⟨_, ⟨⟩, begins⟩, -⟩
      exact supported begins

theorem getLastD_map_some {α : Type} {a : α} (as : List α) :
    (as.map some).getLastD none = some a ↔ as.getLast? = some a := by
  rw [List.getLastD_eq_getLast?, List.getLast?_map]
  cases as.getLast? with
  | none => simp
  | some b => simp

theorem parse_eq_ok_iff {key text : String} :
    parse key text = .ok k ↔ Denotes (Text.lines text.toList) k := by
  rw [parse, Except.mapError_eq_ok, Except.bind_eq_ok]
  simp only [foldlM_readLine_eq_ok_iff, Draft.finish_eq_ok_iff]
  constructor
  · rintro ⟨draft, ⟨format, ⟨numbers, numbered, algorithm⟩, ⟨keys, spelled, secret⟩⟩,
      ⟨v, last, supported⟩, named, kept⟩
    refine ⟨⟨v, ?_, supported⟩, ⟨numbers, numbered, ?_⟩, ⟨keys, spelled, ?_⟩⟩
    · exact (getLastD_map_some _).1 (format.symm.trans last)
    · exact (getLastD_map_some _).1 (algorithm.symm.trans named)
    · exact (getLastD_map_some _).1 (secret.symm.trans kept)
  · rintro ⟨⟨v, last, supported⟩, ⟨numbers, numbered, named⟩, ⟨keys, spelled, kept⟩⟩
    refine ⟨⟨some v, some k.algorithm, some k.secret⟩, ⟨?_, ⟨numbers, numbered, ?_⟩,
      ⟨keys, spelled, ?_⟩⟩, ⟨v, rfl, supported⟩, rfl, rfl⟩
    · exact ((getLastD_map_some _).2 last).symm
    · exact ((getLastD_map_some _).2 named).symm
    · exact ((getLastD_map_some _).2 kept).symm

/-! Documents that differ where it makes no difference. -/

/-- Lines of which each field has exactly one. -/
def Single (lines : List (List Char)) : Prop :=
  ∀ field ∈ ["Private-key-format", "Algorithm", "PrivateKey"], (values field lines).length = 1

theorem values_of_perm {lines lines' : List (List Char)} (h : lines.Perm lines')
    (single : (values field lines).length = 1) : values field lines' = values field lines := by
  obtain ⟨v, only⟩ := List.length_eq_one_iff.1 single
  have moved : (values field lines).Perm (values field lines') := h.filterMap _
  rw [only] at moved ⊢
  exact List.perm_singleton.1 moved.symm

theorem Denotes.of_perm {lines lines' : List (List Char)} (h : Denotes lines k)
    (single : Single lines) (moved : lines.Perm lines') : Denotes lines' k := by
  have same (field) (listed : field ∈ ["Private-key-format", "Algorithm", "PrivateKey"]) :
      values field lines' = values field lines := values_of_perm moved (single field listed)
  obtain ⟨format, algorithm, secret⟩ := h
  refine ⟨?_, ?_, ?_⟩
  · rwa [same "Private-key-format" (by decide)]
  · rwa [same "Algorithm" (by decide)]
  · rwa [same "PrivateKey" (by decide)]

theorem foldlM_readLine_withoutForeign (draft : Draft) (lines : List (List Char)) :
    lines.foldlM readLine draft =
      (lines.filter fun line => ¬ IsForeign line).foldlM readLine draft := by
  induction lines generalizing draft with
  | nil => rfl
  | cons line lines ih =>
    by_cases foreign : IsForeign line
    · rw [List.filter_cons_of_neg (by simpa using foreign), List.foldlM_cons,
        readLine_foreign foreign, Except.ok_bind, ih]
    · rw [List.filter_cons_of_pos (by simpa using foreign), List.foldlM_cons, List.foldlM_cons]
      exact congrArg (readLine draft line >>= ·) (funext ih)

/-- A document is read exactly if its lines are those of a key, and as this key. The lines of a
document with one line for each field may stand in any order, and lines that are foreign to it may
stand anywhere among them. -/
theorem parse_iff_values (key text : String) :
    (∀ k, parse key text = .ok k ↔ Denotes (Text.lines text.toList) k) ∧
      (∀ k text', parse key text = .ok k → Single (Text.lines text.toList) →
        (Text.lines text.toList).Perm (Text.lines text'.toList) → parse key text' = .ok k) ∧
      ∀ text', (Text.lines text'.toList).filter (fun line => ¬ IsForeign line) =
          (Text.lines text.toList).filter (fun line => ¬ IsForeign line) →
        parse key text' = parse key text := by
  refine ⟨fun k => parse_eq_ok_iff, ?_, ?_⟩
  · intro k text' read single moved
    exact parse_eq_ok_iff.2 ((parse_eq_ok_iff.1 read).of_perm single moved)
  · intro text' same
    rw [parse, parse, foldlM_readLine_withoutForeign, same, ← foldlM_readLine_withoutForeign]

/-- A document of three lines. -/
def secretText : String :=
  "Private-key-format: v1.3\nAlgorithm: 15 (ED25519)\nPrivateKey: BwcH\n"

def secretKey : PrivateKey := ⟨15, [7, 7, 7]⟩

theorem denotes_secretKey : Denotes (Text.lines secretText.toList) secretKey := by
  have format : values "Private-key-format" (Text.lines secretText.toList) = ["v1.3".toList] := by
    decide
  have algorithm : values "Algorithm" (Text.lines secretText.toList) = ["15 (ED25519)".toList] := by
    decide
  have secret : values "PrivateKey" (Text.lines secretText.toList) = ["BwcH".toList] := by
    decide
  refine ⟨⟨"v1.3".toList, by rw [format]; rfl, by decide⟩, ⟨[15], ?_, rfl⟩, ⟨[[7, 7, 7]], ?_, rfl⟩⟩
  · rw [algorithm]
    exact .cons ⟨"15".toList, by decide, Text.isNumeral_of_digits (by decide) rfl⟩ .nil
  · rw [secret]
    exact .cons ⟨[[7, 7, 7]], by decide, rfl⟩ .nil

theorem parse_iff_values_secretText : parse "k" secretText = .ok secretKey ∧
    parse "k" "PrivateKey: BwcH\nPrivate-key-format: v1.3\nAlgorithm: 15 (ED25519)" =
      .ok secretKey ∧
    parse "k" ("; zsk\nPrivate-key-format: v1.3\nCreated: 1\nAlgorithm: 15 (ED25519)\n" ++
      "PrivateKey: BwcH") = parse "k" secretText := by
  obtain ⟨grammar, order, foreign⟩ := parse_iff_values "k" secretText
  have read : parse "k" secretText = .ok secretKey := (grammar secretKey).2 denotes_secretKey
  refine ⟨read, order secretKey _ read ?_ ?_, foreign _ ?_⟩
  · unfold Single
    decide
  · decide
  · decide

end ZoneCatalog.PrivateKey
