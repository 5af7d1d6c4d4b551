import Mathlib.Data.List.Forall2
import Mathlib.Data.List.ReduceOption
import ZoneCatalog.Dnssec.Dnskey
import ZoneCatalog.Proofs.Bytes.Base64
import ZoneCatalog.Proofs.Data.Except
import ZoneCatalog.Proofs.Name.Caseless
import ZoneCatalog.Proofs.Text.Numeral
import ZoneCatalog.Proofs.Text.Words

/-! The grammar of public key records. A text is read exactly if its tokens are those of a record,
one part after the other, and how the tokens are laid out makes no difference: where lines end,
what comments say, where parentheses stand, on which side of the class the time to live is and
where the key is split. -/
namespace ZoneCatalog.Dnskey

variable {key text text' : String} {k : Dnskey} {token : List Char} {ttl : UInt32} {n : Nat}

/-! The parts of a record. -/

/-- The tokens of a record in their places. -/
structure Parts where
  owner : List Char
  settings : List (List Char)
  type : List Char
  flags : List Char
  protocol : List Char
  algorithm : List Char
  data : List (List Char)

def Parts.tokens (p : Parts) : List (List Char) :=
  p.owner :: (p.settings ++ p.type :: p.flags :: p.protocol :: p.algorithm :: p.data)

/-- What a token between owner and type sets: a time to live, or nothing if it is a class. -/
def Sets (token : List Char) : Option UInt32 → Prop
  | some ttl => Text.IsNumeral token ttl.toNat
  | none => isClass token = true

/-- The settings of a record leave a time to live, the last one that they set or, if they set none,
the one at the start. -/
def Leaves (start : UInt32) (settings : List (List Char)) (ttl : UInt32) : Prop :=
  ∃ times, List.Forall₂ Sets settings times ∧ times.reduceOption.getLastD start = ttl

/-- The algorithms, each with its number and the size of its keys. -/
def IsAlgorithm : Algorithm → Nat → Nat → Prop
  | .ecdsaP256, number, size => number = 13 ∧ size = 64
  | .ecdsaP384, number, size => number = 14 ∧ size = 96
  | .ed25519, number, size => number = 15 ∧ size = 32

/-- The parts are those of a key. -/
structure Parts.Denotes (p : Parts) (k : Dnskey) : Prop where
  owner : DomainName.parse p.owner = .ok k.owner
  ttl : Leaves 0 p.settings k.ttl
  type : Text.isWord "DNSKEY" p.type = true
  flags : Text.IsNumeral p.flags k.flags.toNat
  protocol : Text.IsNumeral p.protocol 3
  algorithm : ∃ number, Text.IsNumeral p.algorithm number ∧
    IsAlgorithm k.algorithm number k.publicKey.length
  data : p.data ≠ [] ∧ Base64.Spells p.data.flatten k.publicKey

/-! Reading the settings. -/

theorem not_isWord_of_isNumeral (h : Text.IsNumeral token n) :
    Text.isWord "DNSKEY" token = false := by
  have word : Text.fold "DNSKEY".toList = 'd' :: "nskey".toList := by decide
  have other (c : Char) (hc : c = '+' ∨ c.isDigit = true) : c.toLower ≠ 'd' := by
    rcases hc with rfl | digit
    · decide
    · intro letter
      have high : c.toNat ≤ 57 := by
        simp only [Char.isDigit, Bool.and_eq_true, decide_eq_true_eq] at digit
        exact digit.2
      have lowered := Text.toNat_toLower c
      rw [letter, if_neg (by omega)] at lowered
      have code : 'd'.toNat = 100 := rfl
      omega
  obtain ⟨digits, spelled, something, numeric, -⟩ := h
  obtain ⟨c, cs, rfl, hc⟩ : ∃ c cs, token = c :: cs ∧ (c = '+' ∨ c.isDigit = true) := by
    rcases spelled with rfl | rfl
    · obtain ⟨c, cs, rfl⟩ := List.exists_cons_of_ne_nil something
      exact ⟨c, cs, rfl, .inr (numeric c List.mem_cons_self)⟩
    · exact ⟨'+', digits, rfl, .inl rfl⟩
  rw [Text.isWord, Text.sameFolded, word]
  simp [Text.fold, (other c hc).symm]

/-- What is known of the names of all classes is known of a class. -/
theorem of_isClass {P : List Char → Prop} (h : isClass token = true)
    (all : ∀ name ∈ ["IN", "CH", "HS", "NONE", "ANY", "*"], P name.toList) : P token := by
  obtain ⟨name, listed, same⟩ := List.any_eq_true.1 h
  rw [← eq_of_beq same]
  exact all name listed

theorem not_isWord_of_isClass (h : isClass token = true) :
    Text.isWord "DNSKEY" token = false :=
  of_isClass (P := fun token => Text.isWord "DNSKEY" token = false) h (by decide)

theorem numeral?_of_isClass (h : isClass token = true) :
    Text.numeral? UInt32.size token = none :=
  of_isClass (P := fun token => Text.numeral? UInt32.size token = none) h (by decide)

/-- A time to live takes the place of the one before. -/
theorem readTtl_cons_numeral (h : Text.IsNumeral token ttl.toNat) (start : UInt32)
    (rest : List (List Char)) : readTtl start (token :: rest) = readTtl ttl rest := by
  have read := Text.numeral?_eq_some_iff.2 ⟨h, ttl.toNat_lt⟩
  rw [readTtl, not_isWord_of_isNumeral h, if_neg Bool.false_ne_true]
  simp only [UInt32.size, read, UInt32.ofNat_toNat]

/-- A class is passed over. -/
theorem readTtl_cons_class (h : isClass token = true) (start : UInt32) (rest : List (List Char)) :
    readTtl start (token :: rest) = readTtl start rest := by
  rw [readTtl, not_isWord_of_isClass h, if_neg Bool.false_ne_true, numeral?_of_isClass h]
  exact if_pos h

theorem leaves_nil {start : UInt32} : Leaves start [] ttl ↔ start = ttl := by
  constructor
  · rintro ⟨_, ⟨⟩, last⟩
    exact last
  · rintro rfl
    exact ⟨[], .nil, rfl⟩

/-- The first setting is passed over, or the others start from it. -/
theorem leaves_cons {start : UInt32} {settings : List (List Char)} :
    Leaves start (token :: settings) ttl ↔ isClass token = true ∧ Leaves start settings ttl ∨
      ∃ time : UInt32, Text.IsNumeral token time.toNat ∧ Leaves time settings ttl := by
  constructor
  · rintro ⟨_, sets, last⟩
    obtain ⟨time, times, first, others, rfl⟩ := List.forall₂_cons_left_iff.1 sets
    cases time with
    | none =>
      rw [List.reduceOption_cons_of_none] at last
      exact .inl ⟨first, times, others, last⟩
    | some time =>
      rw [List.reduceOption_cons_of_some, List.getLastD_cons] at last
      exact .inr ⟨time, first, times, others, last⟩
  · rintro (⟨known, times, sets, last⟩ | ⟨time, numeral, times, sets, last⟩)
    · refine ⟨none :: times, .cons known sets, ?_⟩
      rw [List.reduceOption_cons_of_none]
      exact last
    · refine ⟨some time :: times, .cons numeral sets, ?_⟩
      rw [List.reduceOption_cons_of_some, List.getLastD_cons]
      exact last

/-- The settings are read up to the type, and what comes after it is left. -/
theorem readTtl_eq_ok_iff {start : UInt32} {tokens rest : List (List Char)} :
    readTtl start tokens = .ok (ttl, rest) ↔ ∃ settings type,
      tokens = settings ++ type :: rest ∧ Leaves start settings ttl ∧
        Text.isWord "DNSKEY" type = true := by
  constructor
  · intro h
    induction tokens generalizing start with
    | nil => cases h
    | cons token tokens ih =>
      rw [readTtl] at h
      split at h
      · rename_i word
        cases h
        exact ⟨[], token, rfl, leaves_nil.2 rfl, word⟩
      · split at h
        · rename_i number read
          obtain ⟨numeral, small⟩ := Text.numeral?_eq_some_iff.1 read
          have same : (UInt32.ofNat number).toNat = number := Nat.mod_eq_of_lt small
          rw [← same] at numeral
          obtain ⟨settings, type, rfl, left, word⟩ := ih h
          exact ⟨token :: settings, type, rfl, leaves_cons.2 (.inr ⟨_, numeral, left⟩), word⟩
        · split at h
          · rename_i known
            obtain ⟨settings, type, rfl, left, word⟩ := ih h
            exact ⟨token :: settings, type, rfl, leaves_cons.2 (.inl ⟨known, left⟩), word⟩
          · cases h
  · rintro ⟨settings, type, rfl, left, word⟩
    induction settings generalizing start with
    | nil =>
      rw [List.nil_append, readTtl, if_pos word, leaves_nil.1 left]
    | cons token settings ih =>
      rw [List.cons_append]
      rcases leaves_cons.1 left with ⟨known, left⟩ | ⟨time, numeral, left⟩
      · rw [readTtl_cons_class known, ih left]
      · rw [readTtl_cons_numeral numeral, ih left]

/-- Classes make no difference to what is read of other settings. -/
theorem readTtl_withoutClasses {settings : List (List Char)}
    (noType : ∀ token ∈ settings, Text.isWord "DNSKEY" token = false) (start : UInt32)
    (rest : List (List Char)) : readTtl start (settings ++ rest) =
      readTtl start (settings.filter (fun token => !isClass token) ++ rest) := by
  induction settings generalizing start with
  | nil => rfl
  | cons token settings ih =>
    obtain ⟨other, others⟩ := List.forall_mem_cons.1 noType
    cases hc : isClass token with
    | true =>
      rw [List.cons_append, readTtl_cons_class hc, ih others,
        List.filter_cons_of_neg (by simp [hc])]
    | false =>
      rw [List.filter_cons_of_pos (by simp [hc]), List.cons_append, List.cons_append, readTtl,
        readTtl, other, hc, if_neg Bool.false_ne_true, if_neg Bool.false_ne_true]
      split
      · exact ih others _
      · rfl

/-! Reading a record. -/

theorem readNumeral_eq_ok_iff {bound : Nat} {fault : KeyFault} {tokens rest : List (List Char)} :
    readNumeral bound fault tokens = .ok (n, rest) ↔
      ∃ token, tokens = token :: rest ∧ Text.IsNumeral token n ∧ n < bound := by
  constructor
  · intro h
    cases tokens with
    | nil => cases h
    | cons token tokens =>
      rw [readNumeral] at h
      split at h
      · rename_i number read
        cases h
        exact ⟨token, rfl, Text.numeral?_eq_some_iff.1 read⟩
      · cases h
  · rintro ⟨token, rfl, numeral⟩
    rw [readNumeral, Text.numeral?_eq_some_iff.2 numeral]

/-- The number of an algorithm and the size that it asks for. -/
theorem isAlgorithm_iff {algorithm : Algorithm} {number size : Nat} :
    IsAlgorithm algorithm number size ↔ number < UInt8.size ∧
      Algorithm.ofNumber? (UInt8.ofNat number) = some algorithm ∧
        size = algorithm.publicKeySize := by
  constructor
  · intro h
    cases algorithm <;> obtain ⟨rfl, rfl⟩ := h <;> decide
  · rintro ⟨small, named, rfl⟩
    have numbered : number = algorithm.number.toNat := by
      have same : (UInt8.ofNat number).toNat = number := Nat.mod_eq_of_lt small
      rw [← same]
      congr 1
      simp only [Algorithm.ofNumber?] at named
      split at named
      · rename_i is
        cases named
        exact is
      · split at named
        · rename_i is
          cases named
          exact is
        · split at named
          · rename_i is
            cases named
            exact is
          · cases named
    cases algorithm <;> exact ⟨numbered, rfl⟩

theorem publicKeySize_pos (algorithm : Algorithm) : 0 < algorithm.publicKeySize := by
  cases algorithm <;> decide

/-- A record is read if every part of it is, the next one from what the last one left. -/
theorem parse_eq_ok_iff : parse key text = .ok k ↔
    ∃ owner rest typed flags flagged protocolled number data,
      tokens text = owner :: rest ∧ DomainName.parse owner = .ok k.owner ∧
      readTtl 0 rest = .ok (k.ttl, typed) ∧
      readNumeral UInt16.size .badFlags typed = .ok (flags, flagged) ∧
      UInt16.ofNat flags = k.flags ∧
      readNumeral UInt8.size .badProtocol flagged = .ok (protocol.toNat, protocolled) ∧
      readNumeral UInt8.size .badAlgorithm protocolled = .ok (number, data) ∧
      Algorithm.ofNumber? (UInt8.ofNat number) = some k.algorithm ∧ data ≠ [] ∧
      Base64.decode data.flatten = some k.publicKey ∧
      k.publicKey.length = k.algorithm.publicKeySize := by
  constructor
  · intro h
    simp only [parse] at h
    split at h
    · cases h
    · rename_i owner rest cut
      obtain ⟨name, owned, h⟩ := Except.bind_eq_ok.1 h
      obtain ⟨⟨ttl, typed⟩, timed, h⟩ := Except.bind_eq_ok.1 h
      obtain ⟨⟨flags, flagged⟩, readFlags, h⟩ := Except.bind_eq_ok.1 h
      obtain ⟨⟨protocolField, protocolled⟩, readProtocol, h⟩ := Except.bind_eq_ok.1 h
      dsimp only at h
      split at h
      · cases h
      · rename_i usual
        obtain ⟨⟨number, data⟩, readNumber, h⟩ := Except.bind_eq_ok.1 h
        dsimp only at h
        split at h
        · rename_i algorithm named
          split at h
          · cases h
          · rename_i keyed
            split at h
            · rename_i publicKey decoded
              split at h
              · cases h
              · rename_i size
                cases h
                obtain rfl := not_not.1 usual
                exact ⟨owner, rest, typed, flags, flagged, protocolled, number, data, cut,
                  Except.mapError_eq_ok.1 owned, Except.mapError_eq_ok.1 timed,
                  Except.mapError_eq_ok.1 readFlags, rfl, Except.mapError_eq_ok.1 readProtocol,
                  Except.mapError_eq_ok.1 readNumber, named, fun none => keyed (by rw [none]; rfl),
                  decoded, not_not.1 size⟩
            · cases h
        · cases h
  · rintro ⟨owner, rest, typed, flags, flagged, protocolled, number, data, cut, owned, timed,
      readFlags, sameFlags, readProtocol, readNumber, named, -, decoded, size⟩
    have keyed : data.flatten ≠ [] := by
      intro nothing
      rw [nothing] at decoded
      rw [← Option.some.inj decoded] at size
      exact absurd size (Nat.ne_of_lt (publicKeySize_pos _))
    rw [parse, cut]
    simp [owned, timed, readFlags, sameFlags, readProtocol, readNumber, named, keyed, decoded, size,
      Except.mapError, -List.flatten_eq_nil_iff]

/-- A record is read exactly if its tokens are those of a key. -/
theorem parse_iff_denotes :
    parse key text = .ok k ↔ ∃ p : Parts, tokens text = p.tokens ∧ p.Denotes k := by
  rw [parse_eq_ok_iff]
  constructor
  · rintro ⟨owner, rest, typed, flags, flagged, protocolled, number, data, cut, owned, timed,
      readFlags, sameFlags, readProtocol, readNumber, named, something, decoded, size⟩
    obtain ⟨settings, type, rfl, left, word⟩ := readTtl_eq_ok_iff.1 timed
    obtain ⟨flagsToken, rfl, flagsNumeral, flagsSmall⟩ := readNumeral_eq_ok_iff.1 readFlags
    obtain ⟨protocolToken, rfl, protocolNumeral, -⟩ := readNumeral_eq_ok_iff.1 readProtocol
    obtain ⟨algorithmToken, rfl, numeral, small⟩ := readNumeral_eq_ok_iff.1 readNumber
    refine ⟨⟨owner, settings, type, flagsToken, protocolToken, algorithmToken, data⟩, cut, owned,
      left, word, ?_, protocolNumeral, ⟨number, numeral, isAlgorithm_iff.2 ⟨small, named, size⟩⟩,
      something, Base64.decode_eq_some_iff.1 decoded⟩
    have same : (UInt16.ofNat flags).toNat = flags := Nat.mod_eq_of_lt flagsSmall
    rw [← sameFlags, same]
    exact flagsNumeral
  · rintro ⟨p, cut, denotes⟩
    obtain ⟨number, numeral, known⟩ := denotes.algorithm
    obtain ⟨small, named, size⟩ := isAlgorithm_iff.1 known
    exact ⟨p.owner, p.settings ++ p.type :: _, p.flags :: _, k.flags.toNat, p.protocol :: _,
      p.algorithm :: _, number, p.data, cut, denotes.owner,
      readTtl_eq_ok_iff.2 ⟨p.settings, p.type, rfl, denotes.ttl, denotes.type⟩,
      readNumeral_eq_ok_iff.2 ⟨p.flags, rfl, denotes.flags, k.flags.toNat_lt⟩, UInt16.ofNat_toNat,
      readNumeral_eq_ok_iff.2 ⟨p.protocol, rfl, denotes.protocol, protocol.toNat_lt⟩,
      readNumeral_eq_ok_iff.2 ⟨p.algorithm, rfl, numeral, small⟩, named, denotes.data.1,
      Base64.decode_eq_some_iff.2 denotes.data.2, size⟩

end ZoneCatalog.Dnskey
