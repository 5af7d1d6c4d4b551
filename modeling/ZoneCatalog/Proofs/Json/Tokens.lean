import Mathlib.Data.List.TakeWhile
import ZoneCatalog.Json.Decode
import ZoneCatalog.Json.Writer
import ZoneCatalog.Proofs.Data.Decode
import ZoneCatalog.Proofs.Json.Spelling
import ZoneCatalog.Proofs.Text.Numeral

/-! Written JSON falls into the tokens of its tree. A word is at its end only when something else
comes, so a reading is told by the tokens that it amounts to if nothing more comes. -/
namespace ZoneCatalog

namespace Json
namespace Token

theorem joinUnits_toNat (done cs : List Char) :
    joinUnits done (cs.map Char.toNat) = some (cs.reverse ++ done) := by
  induction cs generalizing done with
  | nil => rfl
  | cons c cs ih =>
    have valid : c.toNat < 0xD800 ∨ 0xDFFF < c.toNat ∧ c.toNat < 0x110000 := c.valid
    rw [List.map_cons, joinUnits.eq_def]
    dsimp only
    rw [if_neg (by omega), if_neg (by omega), Char.ofNat_toNat, ih]
    simp

/-! Numbers. -/

private theorem isDigit_toDigits (n : Nat) : ∀ c ∈ Nat.toDigits 10 n, c.isDigit = true :=
  fun _ hc => Nat.isDigit_of_mem_toDigits (by decide) (by decide) hc

/-- A numeral is as long as its digits, has no superfluous zeros, and has the value of its
number. -/
private theorem toDigits_whole (n : Nat) :
    (Nat.toDigits 10 n).takeWhile Char.isDigit = Nat.toDigits 10 n ∧
      (Nat.toDigits 10 n).dropWhile Char.isDigit = [] ∧
        ¬ (Nat.toDigits 10 n = [] ∨
          (Nat.toDigits 10 n).head? = some '0' ∧ Nat.toDigits 10 n ≠ ['0']) ∧
            Text.digitsValue 10 (Nat.toDigits 10 n) = some n := by
  refine ⟨?_, ?_, ?_, Text.digitsValue_toDigits (by decide) (by decide) n⟩
  · exact List.takeWhile_eq_self_iff.2 (isDigit_toDigits n)
  · exact List.dropWhile_eq_nil_iff.2 (isDigit_toDigits n)
  · rintro (empty | ⟨zero, long⟩)
    · exact Nat.toDigits_ne_nil empty
    · rw [Text.eq_zero_of_head?_toDigits (by decide) zero] at long
      exact long (Nat.toDigits_zero 10)

theorem number?_signedDecimal (n : Int) : number? (Text.signedDecimal n) = some (.int n) := by
  cases n with
  | ofNat n =>
    obtain ⟨whole, tail, usual, value⟩ := toDigits_whole n
    obtain ⟨d, ds, cons⟩ := List.exists_cons_of_ne_nil (Nat.toDigits_ne_nil (b := 10) (n := n))
    have digit : d.isDigit = true := isDigit_toDigits n d (by simp [cons])
    have unsigned : d ≠ '-' := by
      rintro rfl
      cases digit
    rw [cons] at whole tail usual value
    simp only [Text.signedDecimal, Text.decimal, cons, number?]
    split
    · rename_i heq
      simp_all
    · simp only [whole, tail, if_neg usual, value]
      simp
  | negSucc n =>
    obtain ⟨whole, tail, usual, value⟩ := toDigits_whole (n + 1)
    simp only [Text.signedDecimal, Text.decimal, number?, whole, tail, if_neg usual, value]
    simp only [Int.negSucc_eq, bind, Option.bind_some, pure, Option.map_some, if_true]
    rw [if_neg (by simp)]
    rfl

theorem isWordChar_of_isDigit {c : Char} (h : c.isDigit = true) : isWordChar c = true := by
  simp [isWordChar, Char.isAlphanum, h]

theorem isWordChar_signedDecimal (n : Int) : ∀ c ∈ Text.signedDecimal n, isWordChar c = true := by
  cases n with
  | ofNat n => exact fun c hc => isWordChar_of_isDigit (isDigit_toDigits n c hc)
  | negSucc n =>
    intro c hc
    rcases List.mem_cons.1 hc with rfl | digit
    · rfl
    · exact isWordChar_of_isDigit (isDigit_toDigits (n + 1) c digit)

/-- A number is not mistaken for a constant. -/
theorem ofWord_signedDecimal (n : Int) : ofWord (Text.signedDecimal n) = some (.int n) := by
  have number := number?_signedDecimal n
  have word : ∀ w, number? w = none → Text.signedDecimal n ≠ w := by
    rintro w none_of rfl
    rw [number] at none_of
    cases none_of
  rw [ofWord, if_neg (word _ rfl), if_neg (word _ rfl), if_neg (word _ rfl), number]

namespace Scan

/-- The tokens that a reading amounts to if nothing more comes, the last of them first. -/
def tokens? (s : Scan) : Option (List Token) :=
  match s.place with
  | .between => some s.done
  | .inWord read => (ofWord read.reverse).map (· :: s.done)
  | _ => none

theorem finish_eq (s : Scan) : s.finish = s.tokens?.map List.reverse := by
  obtain ⟨place, done⟩ := s
  cases place <;> simp [finish, tokens?, Function.comp_def]

/-- After a text the reading amounts to some tokens. -/
def Reads (s : Scan) (text : List Char) (ts : List Token) : Prop :=
  ∃ s', text.foldlM read s = some s' ∧ s'.tokens? = some ts

variable {s s' : Scan} {text more : List Char} {ts ts' : List Token} {c : Char} {t : Token}

theorem Reads.append (first : s.Reads text ts)
    (second : ∀ s' : Scan, s'.tokens? = some ts → s'.Reads more ts') :
    s.Reads (text ++ more) ts' := by
  obtain ⟨s₁, reads, amounts⟩ := first
  obtain ⟨s₂, reads', amounts'⟩ := second s₁ amounts
  exact ⟨s₂, by rw [List.foldlM_append, reads]; exact reads', amounts'⟩

theorem atGap_of_isWordChar (done : List Token) (h : isWordChar c = true) :
    atGap done c = some ⟨.inWord [c], done⟩ := by
  have other : ∀ d, isWordChar d = false → c ≠ d := by
    rintro d hd rfl
    rw [h] at hd
    cases hd
  have gap : isGap c = false := by
    simp [isGap, other ' ' rfl, other '\t' rfl, other '\n' rfl, other '\r' rfl]
  have mark : mark? c = none := by
    simp [mark?, other '[' rfl, other ']' rfl, other '\x7b' rfl, other '\x7d' rfl,
      other ':' rfl, other ',' rfl]
  simp [atGap, gap, mark, h, other '"' rfl]

theorem atGap_of_mark? (done : List Token) (h : mark? c = some t) :
    atGap done c = some ⟨.between, t :: done⟩ := by
  have other : ∀ d, mark? d = none → c ≠ d := by
    rintro d hd rfl
    rw [h] at hd
    cases hd
  have gap : isGap c = false := by
    simp [isGap, other ' ' rfl, other '\t' rfl, other '\n' rfl, other '\r' rfl]
  simp [atGap, gap, h, other '"' rfl]

/-- What cannot be in a word ends the word before it. -/
theorem read_of_tokens? (amounts : s.tokens? = some ts) (hc : isWordChar c = false) :
    s.read c = atGap ts c := by
  obtain ⟨place, done⟩ := s
  cases place with
  | between =>
    obtain rfl := Option.some.inj amounts
    rfl
  | inWord word =>
    obtain ⟨t, ht, rfl⟩ := Option.map_eq_some_iff.1 amounts
    simp [read, hc, ht]
  | _ => cases amounts

theorem Reads.mark (h : mark? c = some t) (amounts : s.tokens? = some ts)
    (rest : Reads ⟨.between, t :: ts⟩ more ts') : s.Reads (c :: more) ts' := by
  have apart : isWordChar c = false := by
    refine Bool.eq_false_iff.2 fun word => ?_
    have bare := atGap_of_isWordChar [] word
    rw [atGap_of_mark? [] h] at bare
    cases bare
  obtain ⟨s₁, reads, amounts'⟩ := rest
  refine ⟨s₁, ?_, amounts'⟩
  rw [List.foldlM_cons, read_of_tokens? amounts apart, atGap_of_mark? ts h]
  exact reads

/-! Words and quoted texts. -/

private theorem read_inWord (done : List Token) (before word : List Char)
    (h : ∀ c ∈ word, isWordChar c = true) : word.foldlM read ⟨.inWord before, done⟩ =
      some ⟨.inWord (word.reverse ++ before), done⟩ := by
  induction word generalizing before with
  | nil => rfl
  | cons c word ih =>
    have next : read ⟨.inWord before, done⟩ c = some ⟨.inWord (c :: before), done⟩ :=
      if_pos (h c (by simp))
    rw [List.foldlM_cons, next]
    simpa using ih (c :: before) fun d hd => h d (by simp [hd])

theorem reads_word {word : List Char} (done : List Token) (nonempty : word ≠ [])
    (chars : ∀ c ∈ word, isWordChar c = true) (ht : ofWord word = some t) :
    Reads ⟨.between, done⟩ word (t :: done) := by
  cases word with
  | nil => exact absurd rfl nonempty
  | cons c word =>
    refine ⟨⟨.inWord (word.reverse ++ [c]), done⟩, ?_, by simp [tokens?, ht]⟩
    have first : read ⟨.between, done⟩ c = some ⟨.inWord [c], done⟩ :=
      atGap_of_isWordChar done (chars c (by simp))
    rw [List.foldlM_cons, first]
    exact read_inWord done [c] word fun d hd => chars d (by simp [hd])

private theorem read_digitChar (done : List Token) (before : List Nat) (missing value : Nat)
    {digit : Nat} (h : digit < 16) :
    read ⟨.inCode before missing value, done⟩ (Nat.digitChar digit) =
      some (if missing ≤ 1 then ⟨.inText ((value * 16 + digit) :: before), done⟩
        else ⟨.inCode before (missing - 1) (value * 16 + digit), done⟩) := by
  simp [read, Text.digitValue_digitChar (Nat.le_refl 16) h]

/-- An escaped character is read as itself. -/
theorem read_escapeChar (done : List Token) (before : List Nat) (c : Char) :
    (escapeChar c).foldlM read ⟨.inText before, done⟩ =
      some ⟨.inText (c.toNat :: before), done⟩ := by
  unfold escapeChar
  split
  · subst c
    rfl
  split
  · subst c
    rfl
  split
  · subst c
    rfl
  split
  · subst c
    rfl
  split
  · subst c
    rfl
  split
  · subst c
    rfl
  split
  · subst c
    rfl
  split
  · rename_i control
    have code : c.toNat / 16 * 16 + c.toNat % 16 = c.toNat := by omega
    have high : c.toNat / 16 < 16 := by omega
    have low : c.toNat % 16 < 16 := by omega
    change [Nat.digitChar (c.toNat / 16), Nat.digitChar (c.toNat % 16)].foldlM read
      ⟨.inCode before 2 0, done⟩ = _
    rw [List.foldlM_cons, read_digitChar done before 2 0 high]
    change [Nat.digitChar (c.toNat % 16)].foldlM read
      ⟨.inCode before 1 (0 * 16 + c.toNat / 16), done⟩ = _
    rw [List.foldlM_cons, read_digitChar done before 1 _ low, Nat.zero_mul, Nat.zero_add, code]
    rfl
  · rename_i quotation backslash _ _ _ _ _ control
    simp [read, quotation, backslash, control]

theorem read_quote (done : List Token) (text : String) :
    (quote text).foldlM read ⟨.between, done⟩ = some ⟨.between, .text (some text) :: done⟩ := by
  have inside : ∀ (before : List Nat) (cs : List Char),
      (cs.flatMap escapeChar).foldlM read ⟨.inText before, done⟩ =
        some ⟨.inText ((cs.map Char.toNat).reverse ++ before), done⟩ := by
    intro before cs
    induction cs generalizing before with
    | nil => rfl
    | cons c cs ih =>
      rw [List.flatMap_cons, List.foldlM_append, read_escapeChar]
      simpa using ih (c.toNat :: before)
  rw [quote, List.cons_append, List.foldlM_cons]
  change (text.toList.flatMap escapeChar ++ ['"']).foldlM read ⟨.inText [], done⟩ = _
  rw [List.foldlM_append, inside, List.append_nil, ← List.map_reverse]
  change some (Scan.mk .between
    (.text ((joinUnits [] (text.toList.reverse.map Char.toNat)).map String.ofList) :: done)) = _
  rw [joinUnits_toNat]
  simp

/-! Trees. -/

/-- The written form of a tree is read as its tokens, whatever tokens are before it. -/
def ReadsWritten (d : Datum) : Prop :=
  ∀ done, Reads ⟨.between, done⟩ (write d) ((spell d).reverse ++ done)

/-- A name with its value, read after a mark. -/
private theorem reads_member (name : String) {value : Datum} (reads : ReadsWritten value)
    (done : List Token) (rest : ∀ s' : Scan, s'.tokens? =
      some ((spell value).reverse ++ .colon :: .text (some name) :: done) → s'.Reads more ts) :
    Reads ⟨.between, done⟩ (quoteText (some name) ++ ':' :: (write value ++ more)) ts := by
  refine Reads.append ⟨_, read_quote done name, rfl⟩ fun _ named => ?_
  exact Reads.mark rfl named (Reads.append (reads _) rest)

private theorem reads_writeItems {items : List Datum} (h : ∀ d ∈ items, ReadsWritten d)
    (amounts : s.tokens? = some ts) :
    s.Reads (writeItems items) ((spellItems items).reverse ++ ts) := by
  induction items generalizing s ts with
  | nil => exact Reads.mark rfl amounts ⟨_, rfl, rfl⟩
  | cons item items ih =>
    obtain ⟨first, rest⟩ := List.forall_mem_cons.1 h
    have tokens := Reads.mark (c := ',') rfl amounts
      (Reads.append (first _) fun _ read => ih rest read)
    simpa [writeItems, spellItems] using tokens

private theorem reads_writeMembers {members : List (String × Datum)}
    (h : ∀ m ∈ members, ReadsWritten m.2) (amounts : s.tokens? = some ts) :
    s.Reads (writeMembers (members.map fun (name, value) => (some name, value)))
      ((spellMembers (members.map fun (name, value) => (some name, value))).reverse ++ ts) := by
  induction members generalizing s ts with
  | nil => exact Reads.mark rfl amounts ⟨_, rfl, rfl⟩
  | cons m members ih =>
    obtain ⟨first, rest⟩ := List.forall_mem_cons.1 h
    have tokens := Reads.mark (c := ',') rfl amounts
      (reads_member m.1 first _ fun _ read => ih rest read)
    simpa [writeMembers, spellMembers] using tokens

/-- A written tree falls into its tokens. -/
theorem reads_write {d : Datum} (plain : d.Plain) : ReadsWritten d := by
  induction plain with
  | null => exact fun done => reads_word done (by decide) (List.all_eq_true.1 rfl) rfl
  | bool b => cases b <;> exact fun done => reads_word done (by decide) (List.all_eq_true.1 rfl) rfl
  | int n =>
    intro done
    have nonempty : Text.signedDecimal n ≠ [] := by
      cases n with
      | ofNat n => exact Nat.toDigits_ne_nil
      | negSucc n => exact List.cons_ne_nil _ _
    exact reads_word done nonempty (isWordChar_signedDecimal n) (ofWord_signedDecimal n)
  | str s => exact fun done => ⟨_, read_quote done s, rfl⟩
  | @list items _ ih =>
    intro done
    cases items with
    | nil => exact ⟨_, rfl, rfl⟩
    | cons item items =>
      obtain ⟨first, rest⟩ := List.forall_mem_cons.1 ih
      have tokens := Reads.mark (s := ⟨.between, done⟩) (c := '[') rfl rfl
        (Reads.append (first _) fun _ read => reads_writeItems rest read)
      simpa [write, spell] using tokens
  | @object members _ ih =>
    intro done
    cases members with
    | nil => exact ⟨_, rfl, rfl⟩
    | cons m members =>
      obtain ⟨first, rest⟩ := List.forall_mem_cons.1 ih
      have tokens := Reads.mark (s := ⟨.between, done⟩) (c := '\x7b') rfl rfl
        (reads_member m.1 first _ fun _ read => reads_writeMembers rest read)
      simpa [Datum.object, write, spell] using tokens

end Scan
end Token

theorem tokens_write {d : Datum} (plain : d.Plain) : tokens (write d) = some (spell d) := by
  obtain ⟨s, reads, amounts⟩ := Token.Scan.reads_write plain []
  rw [tokens, reads, Option.bind_some, Token.Scan.finish_eq, amounts]
  simp

/-- A written tree is read back. -/
theorem read?_write {d : Datum} (plain : d.Plain) : read? (write d) = some d := by
  rw [read?, tokens_write plain]
  change ((spell d).foldlM Reading.read ⟨.value, []⟩).bind _ = _
  rw [Reading.read_spell]
  rfl

end Json

/-- Every value is read back off the text it is written as. -/
theorem Datum.Faithful.decode_writeString {α : Type} {encode : α → Datum}
    {decode : Datum → Decoded α} (faithful : Faithful encode decode) (x : α) :
    Json.decode decode (Json.writeString (encode x)) = .ok x := by
  rw [Json.decode, Json.writeString, String.toList_ofList,
    Json.read?_write (faithful.plain x)]
  simp [faithful.decode_encode, Except.mapError]

end ZoneCatalog
