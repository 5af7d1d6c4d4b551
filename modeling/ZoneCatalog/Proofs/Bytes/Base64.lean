import Mathlib.Data.Option.Basic
import ZoneCatalog.Bytes.Base64
import ZoneCatalog.Proofs.Bytes.Basic

/-! Base64 of bytes. Whatever bytes are written are read back, what is written is made of the
characters of the alphabet and the padding alone, and nothing else than what is written can be
read. -/
namespace ZoneCatalog.Base64

theorem value?_digit {n : Nat} (h : n < 64) : value? (digit n) = some n := by
  have all : ∀ d : Fin 64, value? (digit d) = some d.val := by decide
  exact all ⟨n, h⟩

theorem digit_ne_padding {n : Nat} (h : n < 64) : digit n ≠ '=' := by
  have all : ∀ d : Fin 64, digit d ≠ '=' := by decide
  exact all ⟨n, h⟩

private theorem ofNat_eq {n : Nat} {a : UInt8} (h : n % 256 = a.toNat) : UInt8.ofNat n = a := by
  rw [← UInt8.toNat_inj, UInt8.toNat_ofNat']
  exact h

theorem decodeGroup_one (a : UInt8) :
    decodeGroup (digit (a.toNat * 16 / 64)) (digit (a.toNat * 16 % 64)) '=' '=' = some [a] := by
  have bound := a.toNat_lt
  have even : a.toNat * 16 % 64 % 16 = 0 := by omega
  have byte : (a.toNat * 16 / 64 * 64 + a.toNat * 16 % 64) / 16 % 256 = a.toNat := by omega
  simp only [decodeGroup, value?_digit (show a.toNat * 16 / 64 < 64 by omega),
    value?_digit (show a.toNat * 16 % 64 < 64 by omega)]
  simp [guard, even, ofNat_eq byte]

theorem decodeGroup_two {a b : UInt8} {n : Nat} (hn : n = (a.toNat * 256 + b.toNat) * 4) :
    decodeGroup (digit (n / 4096)) (digit (n / 64 % 64)) (digit (n % 64)) '=' = some [a, b] := by
  have ha := a.toNat_lt
  have hb := b.toNat_lt
  have high : n / 4096 < 64 := by omega
  have middle : n / 64 % 64 < 64 := by omega
  have low : n % 64 < 64 := by omega
  have even : n % 64 % 4 = 0 := by omega
  have whole : ((n / 4096 * 64 + n / 64 % 64) * 64 + n % 64) / 4 = a.toNat * 256 + b.toNat := by
    omega
  have first : UInt8.ofNat ((a.toNat * 256 + b.toNat) / 256) = a := ofNat_eq (by omega)
  have second : UInt8.ofNat (a.toNat * 256 + b.toNat) = b := ofNat_eq (by omega)
  have bytes : Bytes.ofNatBE 2 (a.toNat * 256 + b.toNat) = [a, b] := by
    simp only [Bytes.ofNatBE, Bytes.ofNatLE, first, second, List.reverse_cons, List.reverse_nil,
      List.nil_append, List.cons_append]
  simp only [decodeGroup, value?_digit high, value?_digit middle, value?_digit low]
  simp [guard, even, digit_ne_padding low, whole, bytes]

theorem decodeGroup_three {a b c : UInt8} {n : Nat}
    (hn : n = (a.toNat * 256 + b.toNat) * 256 + c.toNat) :
    decodeGroup (digit (n / 262144)) (digit (n / 4096 % 64)) (digit (n / 64 % 64))
      (digit (n % 64)) = some [a, b, c] := by
  have ha := a.toNat_lt
  have hb := b.toNat_lt
  have hc := c.toNat_lt
  have first : n / 262144 < 64 := by omega
  have second : n / 4096 % 64 < 64 := by omega
  have third : n / 64 % 64 < 64 := by omega
  have fourth : n % 64 < 64 := by omega
  have whole : ((n / 262144 * 64 + n / 4096 % 64) * 64 + n / 64 % 64) * 64 + n % 64 = n := by
    omega
  have high : UInt8.ofNat (n / 256 / 256) = a := ofNat_eq (by omega)
  have middle : UInt8.ofNat (n / 256) = b := ofNat_eq (by omega)
  have low : UInt8.ofNat n = c := ofNat_eq (by omega)
  have bytes : Bytes.ofNatBE 3 n = [a, b, c] := by
    simp only [Bytes.ofNatBE, Bytes.ofNatLE, high, middle, low, List.reverse_cons,
      List.reverse_nil, List.nil_append, List.cons_append]
  simp only [decodeGroup, value?_digit first, value?_digit second, value?_digit third,
    value?_digit fourth]
  simp [digit_ne_padding fourth, whole, bytes]

/-- Written bytes are read back, and then whatever follows them. -/
theorem decode_encode_append (bytes : Bytes) (rest : List Char) :
    decode (encode bytes ++ rest) = (decode rest).map (bytes ++ ·) := by
  have others (group : Bytes) (more : Option Bytes) :
      (more >>= fun bytes => some (group ++ bytes)) = more.map (group ++ ·) := by
    cases more <;> rfl
  induction bytes using encode.induct with
  | case1 => simp [encode]
  | case2 a => simp [encode, decode, decodeGroup_one, others]
  | case3 a b => simp [encode, decode, decodeGroup_two rfl, others]
  | case4 a b c bytes ih =>
    simp only [encode, List.cons_append, decode, decodeGroup_three rfl, ih]
    cases decode rest <;> rfl

/-- Written bytes are read back. -/
theorem decode_encode (bytes : Bytes) : decode (encode bytes) = some bytes := by
  simpa [decode] using decode_encode_append bytes []

theorem encode_ne_nil {bytes : Bytes} (h : bytes ≠ []) : encode bytes ≠ [] := by
  intro nothing
  have read := decode_encode bytes
  rw [nothing] at read
  exact h (Option.some.inj read).symm

/-- What is written is made of digits and the padding. -/
theorem mem_encode {bytes : Bytes} {c : Char} (hc : c ∈ encode bytes) :
    c = '=' ∨ ∃ n < 64, c = digit n := by
  have digits : ∀ {n : Nat}, n < 64 → c = digit n → c = '=' ∨ ∃ n < 64, c = digit n :=
    fun small same => .inr ⟨_, small, same⟩
  induction bytes using encode.induct with
  | case1 => simp [encode] at hc
  | case2 a =>
    have bound := a.toNat_lt
    simp only [encode, List.mem_cons, List.not_mem_nil, or_false] at hc
    rcases hc with hc | hc | hc | hc
    · exact digits (by omega) hc
    · exact digits (by omega) hc
    · exact .inl hc
    · exact .inl hc
  | case3 a b =>
    have ha := a.toNat_lt
    have hb := b.toNat_lt
    simp only [encode, List.mem_cons, List.not_mem_nil, or_false] at hc
    rcases hc with hc | hc | hc | hc
    · exact digits (by omega) hc
    · exact digits (by omega) hc
    · exact digits (by omega) hc
    · exact .inl hc
  | case4 a b c' rest ih =>
    have ha := a.toNat_lt
    have hb := b.toNat_lt
    have hc' := c'.toNat_lt
    simp only [encode, List.mem_cons] at hc
    rcases hc with hc | hc | hc | hc | hc
    · exact digits (by omega) hc
    · exact digits (by omega) hc
    · exact digits (by omega) hc
    · exact digits (by omega) hc
    · exact ih hc

/-! What texts can be read. -/

/-- A text spells bytes if it is made of pieces of them, one after the other and each written as
Base64. So the padding of a piece may stand before another. -/
def Spells (text : List Char) (bytes : Bytes) : Prop :=
  ∃ pieces : List Bytes, (pieces.map encode).flatten = text ∧ pieces.flatten = bytes

theorem digit_of_value? {c : Char} {n : Nat} (h : value? c = some n) : n < 64 ∧ digit n = c := by
  have spelled {code : Nat} (same : code = c.toNat) : Char.ofNat code = c := by
    rw [same, Char.ofNat_toNat]
  have upper : 'A'.toNat = 65 := rfl
  have lower : 'a'.toNat = 97 := rfl
  have zero : '0'.toNat = 48 := rfl
  simp only [value?, upper, lower, zero] at h
  split at h
  · rename_i letter
    obtain ⟨low, high⟩ : 65 ≤ c.toNat ∧ c.toNat ≤ 90 := by
      delta Char.isUpper at letter
      simpa [UInt32.le_iff_toNat_le] using letter
    cases h
    exact ⟨by omega, by rw [digit, if_pos (by omega), upper]; exact spelled (by omega)⟩
  · split at h
    · rename_i letter
      obtain ⟨low, high⟩ : 97 ≤ c.toNat ∧ c.toNat ≤ 122 := by
        delta Char.isLower at letter
        simpa [UInt32.le_iff_toNat_le] using letter
      cases h
      refine ⟨by omega, ?_⟩
      rw [digit, if_neg (by omega), if_pos (by omega), lower]
      exact spelled (by omega)
    · split at h
      · rename_i numeric
        obtain ⟨low, high⟩ : 48 ≤ c.toNat ∧ c.toNat ≤ 57 := by
          simpa [Char.isDigit, UInt32.le_iff_toNat_le] using numeric
        cases h
        refine ⟨by omega, ?_⟩
        rw [digit, if_neg (by omega), if_neg (by omega), if_pos (by omega), zero]
        exact spelled (by omega)
      · split at h
        · rename_i plus
          cases h
          exact ⟨by omega, plus.symm⟩
        · split at h
          · rename_i slash
            cases h
            exact ⟨by omega, slash.symm⟩
          · cases h

private theorem guard_bind_eq_some {α : Type} {p : Prop} [Decidable p] {x : Option α} {a : α} :
    ((guard p : Option Unit).bind fun _ => x) = some a ↔ p ∧ x = some a := by
  by_cases h : p
  · simp [guard, h]
  · have refused : (guard p : Option Unit) = none := if_neg h
    rw [refused]
    exact iff_of_false (by rintro ⟨⟩) fun both => h both.1

/-- A group that can be read is the one that is written for its bytes. -/
theorem encode_of_decodeGroup {c₁ c₂ c₃ c₄ : Char} {bytes : Bytes}
    (h : decodeGroup c₁ c₂ c₃ c₄ = some bytes) : encode bytes = [c₁, c₂, c₃, c₄] := by
  simp only [decodeGroup, Option.bind_eq_bind, Option.bind_eq_some_iff] at h
  obtain ⟨v₁, h₁, v₂, h₂, h⟩ := h
  obtain ⟨small₁, rfl⟩ := digit_of_value? h₁
  obtain ⟨small₂, rfl⟩ := digit_of_value? h₂
  split at h
  · rename_i padded
    split at h
    · rename_i twice
      obtain ⟨even, same⟩ := guard_bind_eq_some.1 h
      cases same
      have whole : (UInt8.ofNat ((v₁ * 64 + v₂) / 16)).toNat * 16 = v₁ * 64 + v₂ := by
        rw [UInt8.toNat_ofNat']
        omega
      have first : (v₁ * 64 + v₂) / 64 = v₁ := by omega
      have second : (v₁ * 64 + v₂) % 64 = v₂ := by omega
      simp only [encode, whole, first, second, padded, twice]
    · obtain ⟨v₃, h₃, read⟩ := Option.bind_eq_some_iff.1 h
      obtain ⟨small₃, rfl⟩ := digit_of_value? h₃
      obtain ⟨even, same⟩ := guard_bind_eq_some.1 read
      cases same
      have whole : ((UInt8.ofNat (((v₁ * 64 + v₂) * 64 + v₃) / 4 / 256)).toNat * 256 +
          (UInt8.ofNat (((v₁ * 64 + v₂) * 64 + v₃) / 4)).toNat) * 4 =
            (v₁ * 64 + v₂) * 64 + v₃ := by
        rw [UInt8.toNat_ofNat', UInt8.toNat_ofNat']
        omega
      have first : ((v₁ * 64 + v₂) * 64 + v₃) / 4096 = v₁ := by omega
      have second : ((v₁ * 64 + v₂) * 64 + v₃) / 64 % 64 = v₂ := by omega
      have third : ((v₁ * 64 + v₂) * 64 + v₃) % 64 = v₃ := by omega
      simp only [Bytes.ofNatBE, Bytes.ofNatLE, List.reverse_cons, List.reverse_nil,
        List.nil_append, List.cons_append, encode, whole, first, second, third, padded]
  · obtain ⟨v₃, h₃, read⟩ := Option.bind_eq_some_iff.1 h
    obtain ⟨v₄, h₄, same⟩ := Option.bind_eq_some_iff.1 read
    obtain ⟨small₃, rfl⟩ := digit_of_value? h₃
    obtain ⟨small₄, rfl⟩ := digit_of_value? h₄
    cases same
    have whole : ((UInt8.ofNat ((((v₁ * 64 + v₂) * 64 + v₃) * 64 + v₄) / 256 / 256)).toNat * 256 +
        (UInt8.ofNat ((((v₁ * 64 + v₂) * 64 + v₃) * 64 + v₄) / 256)).toNat) * 256 +
          (UInt8.ofNat (((v₁ * 64 + v₂) * 64 + v₃) * 64 + v₄)).toNat =
            ((v₁ * 64 + v₂) * 64 + v₃) * 64 + v₄ := by
      rw [UInt8.toNat_ofNat', UInt8.toNat_ofNat', UInt8.toNat_ofNat']
      omega
    have first : (((v₁ * 64 + v₂) * 64 + v₃) * 64 + v₄) / 262144 = v₁ := by omega
    have second : (((v₁ * 64 + v₂) * 64 + v₃) * 64 + v₄) / 4096 % 64 = v₂ := by omega
    have third : (((v₁ * 64 + v₂) * 64 + v₃) * 64 + v₄) / 64 % 64 = v₃ := by omega
    have fourth : (((v₁ * 64 + v₂) * 64 + v₃) * 64 + v₄) % 64 = v₄ := by omega
    simp only [Bytes.ofNatBE, Bytes.ofNatLE, List.reverse_cons, List.reverse_nil,
      List.nil_append, List.cons_append, encode, whole, first, second, third, fourth]

/-- A text is read exactly if it spells bytes, and as these. -/
theorem decode_eq_some_iff {text : List Char} {bytes : Bytes} :
    decode text = some bytes ↔ Spells text bytes := by
  constructor
  · intro read
    induction text using decode.induct generalizing bytes with
    | case1 =>
      cases read
      exact ⟨[], rfl, rfl⟩
    | case2 c₁ c₂ c₃ c₄ rest ih =>
      simp only [decode, Option.bind_eq_bind, Option.bind_eq_some_iff] at read
      obtain ⟨group, first, others, more, same⟩ := read
      cases same
      obtain ⟨pieces, rfl, rfl⟩ := ih more
      exact ⟨group :: pieces, by simp [encode_of_decodeGroup first], rfl⟩
    | case3 text short long =>
      rw [decode] at read
      · cases read
      · exact short
      · exact long
  · rintro ⟨pieces, rfl, rfl⟩
    induction pieces with
    | nil => rfl
    | cons piece pieces ih =>
      rw [List.map_cons, List.flatten_cons, decode_encode_append, ih, Option.map_some,
        List.flatten_cons]

end ZoneCatalog.Base64
