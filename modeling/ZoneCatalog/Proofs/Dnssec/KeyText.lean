import Mathlib.Data.Nat.Digits.Defs
import ZoneCatalog.Proofs.Dnssec.KeyGrammar
import ZoneCatalog.Proofs.Name.Lower
import ZoneCatalog.Proofs.Name.Printer

/-! The text of a public key record. Whatever key is read, its text is read again, and as the same
key unless its owner has no text: then the time to live stands where the owner should. -/
namespace ZoneCatalog

namespace Text

variable {n bound : Nat} {c : Char}

/-- A character of which `P` is known for all digits. -/
private theorem of_mem_decimal {P : Char → Prop} (h : ∀ d : Fin 10, P (Nat.digitChar d))
    (hc : c ∈ decimal n) : P c := by
  obtain ⟨d, hd, rfl⟩ := exists_digit_of_mem_toDigits (by omega) hc
  exact h ⟨d, hd⟩

theorem solid_decimal (hc : c ∈ decimal n) : isSolid c = true :=
  of_mem_decimal (P := fun c => isSolid c = true) (by decide) hc

theorem exists_cons_decimal (n : Nat) : ∃ c cs, decimal n = c :: cs ∧ c ∈ decimal n := by
  obtain ⟨c, cs, h⟩ := List.exists_cons_of_ne_nil (Nat.toDigits_ne_nil (b := 10) (n := n))
  exact ⟨c, cs, h, by rw [decimal, h]; exact List.mem_cons_self⟩

/-- The numeral of a number within the bound is read as that number. -/
theorem numeral?_decimal (h : n < bound) : numeral? bound (decimal n) = some n := by
  obtain ⟨c, cs, spelled, first⟩ := exists_cons_decimal n
  have unsigned : c ≠ '+' := of_mem_decimal (P := (· ≠ '+')) (by decide) first
  have value : digitsValue 10 (c :: cs) = some n :=
    spelled ▸ digitsValue_toDigits (by omega) (by omega) n
  rw [spelled]
  simp [numeral?, unsigned, value, h]

/-- No numeral is taken for the record type. -/
theorem isWord_decimal (n : Nat) : isWord "DNSKEY" (decimal n) = false := by
  obtain ⟨c, cs, spelled, first⟩ := exists_cons_decimal n
  have other : c.toLower ≠ 'd' := of_mem_decimal (P := fun c => c.toLower ≠ 'd') (by decide) first
  have word : fold "DNSKEY".toList = 'd' :: "nskey".toList := by decide
  rw [isWord, spelled, sameFolded, word]
  simp [fold, other.symm]

end Text

namespace Dnskey

variable {key text : String} {k : Dnskey} {c : Char}

/-! The tokens of a text that is made of them. -/

theorem tokens_intersperse {fields : List (List Char)}
    (solid : ∀ field ∈ fields, ∀ c ∈ field, Text.isSolid c = true) :
    tokens (String.ofList (fields.intersperse [' ']).flatten) = fields.filter (· ≠ []) := by
  have noGap : ∀ field ∈ fields, ∀ c ∈ field, Text.isBlank c = false := by
    intro field hfield c hc
    have := solid field hfield c hc
    simp only [Text.isSolid, Bool.and_eq_true, Bool.not_eq_true', Bool.or_eq_false_iff] at this
    exact this.1.2
  have absent : ∀ {m : Char}, Text.isSolid m = false → m ≠ ' ' →
      m ∉ (fields.intersperse [' ']).flatten := by
    intro m mark other hm
    rcases Text.mem_intersperse hm with same | ⟨field, hfield, hm⟩
    · exact other same
    · rw [solid field hfield m hm] at mark
      cases mark
  have words := Text.words_intersperse noGap
  have whole : (Text.lines (fields.intersperse [' ']).flatten).flatMap
      (fun line => Text.words (Text.cutAt ';' line).1) = fields.filter (· ≠ []) := by
    rw [Text.lines_of_not_mem (absent (by decide) (by decide))]
    split
    · rename_i nothing
      rw [← words, nothing]
      rfl
    · rw [List.flatMap_singleton, Text.cutAt_of_not_mem (absent (by decide) (by decide)), words]
  rw [tokens, String.toList_ofList, whole]
  refine List.filter_eq_self.2 fun token htoken => ?_
  have inside := solid token (List.mem_filter.1 htoken).1
  have bracket : ∀ {m : Char}, Text.isSolid m = false → token ≠ [m] := by
    rintro m mark rfl
    rw [inside m (by simp)] at mark
    cases mark
  simp [bracket (show Text.isSolid '(' = false by decide),
    bracket (show Text.isSolid ')' = false by decide)]


/-! Reading a record back from its fields. -/

/-- The fields of the text of a key. -/
def fields (k : Dnskey) : List (List Char) := [
  k.owner.text, Text.decimal k.ttl.toNat, ['I', 'N'], ['D', 'N', 'S', 'K', 'E', 'Y'],
  Text.decimal k.flags.toNat, Text.decimal protocol.toNat,
  Text.decimal k.algorithm.number.toNat, Base64.encode k.publicKey]

theorem solid_encode {bytes : Bytes} (hc : c ∈ Base64.encode bytes) : Text.isSolid c = true := by
  have all : ∀ d : Fin 64, Text.isSolid (Base64.digit d) = true := by decide +kernel
  rcases Base64.mem_encode hc with rfl | ⟨n, small, rfl⟩
  · decide
  · exact all ⟨n, small⟩

theorem solid_fields : ∀ field ∈ k.fields, ∀ c ∈ field, Text.isSolid c = true := by
  intro field hfield c hc
  simp only [fields, List.mem_cons, List.not_mem_nil, or_false] at hfield
  rcases hfield with rfl | rfl | rfl | rfl | rfl | rfl | rfl | rfl
  · exact DomainName.solid_text hc
  · exact Text.solid_decimal hc
  · have all : ['I', 'N'].all Text.isSolid = true := by decide
    exact List.all_eq_true.1 all c hc
  · have all : ['D', 'N', 'S', 'K', 'E', 'Y'].all Text.isSolid = true := by decide
    exact List.all_eq_true.1 all c hc
  · exact Text.solid_decimal hc
  · exact Text.solid_decimal hc
  · exact Text.solid_decimal hc
  · exact solid_encode hc

/-- What stands behind the record type in the text of a key. -/
def data (k : Dnskey) : List (List Char) := [
  Text.decimal k.flags.toNat, Text.decimal protocol.toNat,
  Text.decimal k.algorithm.number.toNat, Base64.encode k.publicKey]

theorem tokens_display (keyed : k.publicKey ≠ []) : tokens k.display =
    [k.owner.text].filter (· ≠ []) ++
      Text.decimal k.ttl.toNat :: ['I', 'N'] :: ['D', 'N', 'S', 'K', 'E', 'Y'] :: k.data := by
  have decimal : ∀ n, Text.decimal n ≠ [] := fun n => Nat.toDigits_ne_nil
  have cut : tokens k.display = k.fields.filter (· ≠ []) := tokens_intersperse solid_fields
  rw [cut]
  by_cases nothing : k.owner.text = []
  · simp [fields, data, nothing, decimal, Base64.encode_ne_nil keyed]
  · simp [fields, data, nothing, decimal, Base64.encode_ne_nil keyed]

/-- The size of a key that is read is the one its algorithm calls for. -/
theorem parse_inv (h : parse key text = .ok k) :
    (∃ first rest, tokens text = first :: rest ∧ DomainName.parse first = .ok k.owner) ∧
      k.publicKey.length = k.algorithm.publicKeySize := by
  obtain ⟨first, rest, _, _, _, _, _, _, cut, owned, -, -, -, -, -, -, -, -, size⟩ :=
    parse_eq_ok_iff.1 h
  exact ⟨⟨first, rest, cut, owned⟩, size⟩

/-- No algorithm has empty keys. -/
theorem publicKey_ne_nil (size : k.publicKey.length = k.algorithm.publicKeySize) :
    k.publicKey ≠ [] := by
  intro nothing
  rw [nothing] at size
  exact absurd size (Nat.ne_of_lt (publicKeySize_pos _))

theorem readNumeral_decimal {n bound : Nat} {fault : KeyFault} {rest : List (List Char)}
    (h : n < bound) : readNumeral bound fault (Text.decimal n :: rest) = .ok (n, rest) := by
  simp [readNumeral, Text.numeral?_decimal h]

theorem ofNumber?_number (algorithm : Algorithm) :
    Algorithm.ofNumber? algorithm.number = some algorithm := by
  cases algorithm <;> rfl

/-- The fields behind the owner, from the class on. -/
theorem readTtl_class (ttl : UInt32) (rest : List (List Char)) :
    readTtl ttl (['I', 'N'] :: ['D', 'N', 'S', 'K', 'E', 'Y'] :: rest) = .ok (ttl, rest) := by
  have noType : Text.isWord "DNSKEY" ['I', 'N'] = false := by decide
  have noTtl : Text.numeral? UInt32.size ['I', 'N'] = none := by decide
  have isIn : isClass ['I', 'N'] = true := by decide
  have isType : Text.isWord "DNSKEY" ['D', 'N', 'S', 'K', 'E', 'Y'] = true := by decide
  simp [readTtl, noType, noTtl, isIn, isType]

theorem readTtl_decimal (start ttl : UInt32) (rest : List (List Char)) :
    readTtl start (Text.decimal ttl.toNat :: rest) = readTtl ttl rest := by
  simp [readTtl, Text.isWord_decimal, Text.numeral?_decimal ttl.toNat_lt]

/-- A record is read if its owner and its time to live are, and its data are those of a key. -/
theorem parse_of_tokens {owner : DomainName} {ttl : UInt32} {first : List Char}
    {rest : List (List Char)} (cut : tokens text = first :: rest)
    (owned : DomainName.parse first = .ok owner) (timed : readTtl 0 rest = .ok (ttl, k.data))
    (size : k.publicKey.length = k.algorithm.publicKeySize) :
    parse key text = .ok { k with owner, ttl } := by
  have keyed := publicKey_ne_nil size
  rw [parse, cut]
  simp [owned, timed, data, readNumeral_decimal (k.flags.toNat_lt),
    readNumeral_decimal protocol.toNat_lt, readNumeral_decimal k.algorithm.number.toNat_lt,
    ofNumber?_number, Base64.encode_ne_nil keyed, Base64.decode_encode, size, Except.mapError]

/-- The time to live, read as a name, is a name of one label. -/
theorem parse_decimal (n : UInt32) :
    ∃ name, DomainName.parse (Text.decimal n.toNat) = .ok name ∧ name.labels ≠ [] := by
  have length : (Text.decimal n.toNat).length ≤ 10 :=
    Nat.toDigits_length 10 n.toNat 10 (by omega) (by have := n.toNat_lt; omega)
  have plain : ∀ c ∈ Text.decimal n.toNat, Label.isPlain c = true ∧ c ≠ '.' :=
    fun c hc => Text.of_mem_decimal (P := fun c => Label.isPlain c = true ∧ c ≠ '.') (by decide) hc
  have valid : Label.isValid (Text.decimal n.toNat) = true := by
    obtain ⟨c, cs, spelled, -⟩ := Text.exists_cons_decimal n.toNat
    rw [spelled] at length plain ⊢
    rw [List.forall_mem_cons] at plain
    have short : cs.length < 63 := by
      rw [List.length_cons] at length
      omega
    simp only [Label.isValid, plain.1.1, Bool.true_or, Bool.true_and, Bool.and_eq_true,
      List.all_eq_true, decide_eq_true_eq]
    exact ⟨fun d hd => by simp [(plain.2 d hd).1], short⟩
  let label : Label := ⟨Text.decimal n.toNat, valid⟩
  have room : labelRoom [label] ≤ 255 := by
    simp only [labelRoom, List.foldr_cons, List.foldr_nil, Label.size, label]
    omega
  have spelled : label.text = Text.decimal n.toNat := by
    have single : ∀ c ∈ label.chars, (if c = '.' then ['\\', '.'] else [c]) = [c] :=
      fun c hc => if_neg (plain c hc).2
    rw [Label.text, List.flatMap_congr single]
    exact List.flatMap_singleton' _
  have shown : (⟨[label], false, room⟩ : DomainName).text = Text.decimal n.toNat := by
    simpa [DomainName.text] using spelled
  have something : (⟨[label], false, room⟩ : DomainName).text ≠ [] := by
    rw [shown]
    exact Nat.toDigits_ne_nil
  obtain ⟨name, read, labels⟩ := DomainName.parse_text something
  exact ⟨name, shown ▸ read, by simp [labels]⟩

/-- The text of a key that was read is read again. It is the same key if and only if its owner is
the root or has a label. A relative owner without labels, which only an escape cut off by the end
of its token can name, leaves no token behind, and the time to live is taken for the owner. (A
label with the prefix of encoded labels would be shown decoded.) -/
theorem parse_display (key text again : String) (k : Dnskey) (h : parse key text = .ok k)
    (_ : ∀ label ∈ k.owner.labels, ¬ "xn--".toList <+: label.chars) :
    ∃ k', parse again k.display = .ok k' ∧
      (k'.same k = true ↔ k.owner = .root ∨ k.owner.labels ≠ []) ∧
      (¬ (k.owner = .root ∨ k.owner.labels ≠ []) → k.owner = .empty ∧
        ∃ digits rest, tokens text = ('\\' :: digits) :: rest ∧ digits.length < 3 ∧
          ∀ d ∈ digits, ∃ n, DomainName.octalDigit d = .ok n) := by
  obtain ⟨⟨first, rest, cut, owned⟩, size⟩ := parse_inv h
  have keyed := publicKey_ne_nil size
  have shown := tokens_display keyed
  by_cases unnamed : k.owner.text = []
  · have owner : k.owner = .empty := DomainName.text_eq_nil_iff.1 unnamed
    have neither : ¬ (k.owner = .root ∨ k.owner.labels ≠ []) :=
      fun named => DomainName.text_ne_nil_iff.2 named unnamed
    obtain ⟨name, read, labelled⟩ := parse_decimal k.ttl
    rw [unnamed] at shown
    refine ⟨_, parse_of_tokens shown read (readTtl_class 0 _) size, ?_, fun _ => ⟨owner, ?_⟩⟩
    · have other : name.same k.owner = false := by
        rw [owner, Bool.eq_false_iff, Ne, DomainName.same, beq_iff_eq, DomainName.folded]
        exact mt List.map_eq_nil_iff.1 labelled
      refine iff_of_false ?_ neither
      simp [same, other]
    · have something : first ≠ [] := by
        rintro rfl
        have kept := List.mem_filter.1 (cut ▸ List.mem_cons_self : [] ∈ tokens text)
        obtain ⟨line, -, word⟩ := List.mem_flatMap.1 kept.1
        exact absurd rfl (of_decide_eq_true (List.mem_filter.1 word).2)
      rw [owner] at owned
      obtain ⟨digits, rfl, few, octal⟩ := (DomainName.parse_eq_empty_iff something).1 owned
      exact ⟨digits, rest, cut, few, octal⟩
  · have named := DomainName.text_ne_nil_iff.1 unnamed
    obtain ⟨name, read, labels⟩ := DomainName.parse_text unnamed
    have cut : tokens k.display = k.owner.text :: Text.decimal k.ttl.toNat ::
        ['I', 'N'] :: ['D', 'N', 'S', 'K', 'E', 'Y'] :: k.data := by
      simpa [unnamed] using shown
    have timed := (readTtl_decimal 0 k.ttl _).trans (readTtl_class k.ttl k.data)
    have alike : name.same k.owner = true := by
      rw [DomainName.same, DomainName.folded, DomainName.folded, labels, beq_self_eq_true]
    exact ⟨_, parse_of_tokens cut read timed size, by simp [same, alike, named],
      fun other => absurd named other⟩

/-- A key of 32 equal bytes. -/
def plainKey (owner : DomainName) : Dnskey := ⟨owner, 60, 256, .ed25519, List.replicate 32 7⟩

/-- A record whose owner has a star, an escaped dot and a letter given by its code. -/
def starText : String :=
  "*.a\\.\\142.IN. IN 60 DNSKEY ( 256 3 15 ; zsk\n" ++
    "BwcHBwcHBwcHBwcHBwcHBwcHBwcH BwcHBwcHBwcHBwc= )"

/-- A record whose owner is nothing but an escape cut off. -/
def cutOffText : String :=
  "\\12 60 DNSKEY 256 3 15 BwcHBwcHBwcHBwcHBwcHBwcHBwcHBwcHBwcHBwcHBwc="

theorem parse_display_escapes :
    (∃ k k', parse "k" starText = .ok k ∧ parse "k" k.display = .ok k' ∧ k'.same k = true) ∧
      ∃ k k', parse "k" cutOffText = .ok k ∧ parse "k" k.display = .ok k' ∧
        k'.same k = false := by
  have star : parse "k" starText = .ok (plainKey ⟨[⟨['*'], rfl⟩, ⟨"a.b".toList, by decide⟩,
      ⟨"IN".toList, by decide⟩], true, by decide⟩) := by decide +kernel
  have cutOff : parse "k" cutOffText = .ok (plainKey .empty) := by decide +kernel
  constructor
  · obtain ⟨k', read, same, -⟩ := parse_display _ _ "k" _ star (by decide)
    exact ⟨_, k', star, read, same.2 (.inr (List.cons_ne_nil _ _))⟩
  · obtain ⟨k', read, same, -⟩ := parse_display _ _ "k" _ cutOff (by decide)
    have other : k'.same (plainKey .empty) ≠ true := mt same.1 (by decide)
    exact ⟨_, k', cutOff, read, Bool.eq_false_iff.2 other⟩

end Dnskey
end ZoneCatalog
