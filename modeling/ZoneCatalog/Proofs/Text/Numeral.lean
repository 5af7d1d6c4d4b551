import ZoneCatalog.Text.Numeral

/-! Numerals read back as the numbers they were written for, in every base that has digits, and what
decimal texts are numerals. -/
namespace ZoneCatalog.Text

/-- Numbers are made of a last digit and the number before it. -/
@[elab_as_elim]
theorem digit_induction {base : Nat} {motive : Nat → Prop} (large : 1 < base)
    (digit : ∀ n, n < base → motive n) (more : ∀ n, base ≤ n → motive (n / base) → motive n)
    (n : Nat) : motive n := by
  induction n using Nat.strongRecOn with
  | ind n ih =>
    by_cases h : n < base
    · exact digit n h
    · exact more n (by omega) (ih (n / base) (Nat.div_lt_self (by omega) large))

variable {base n : Nat}

theorem digitValue_digitChar (small : base ≤ 16) (h : n < base) :
    digitValue base (Nat.digitChar n) = some n := by
  have all : ∀ d : Fin 16, digitValue 16 (Nat.digitChar d) = some d.val := by decide
  have sixteen := all ⟨n, by omega⟩
  simp only [digitValue, Option.filter_eq_some_iff] at sixteen ⊢
  exact ⟨sixteen.1, by simpa using h⟩

theorem digitsValue_append (cs ds : List Char) : digitsValue base (cs ++ ds) =
    (digitsValue base cs).bind fun value =>
      ds.foldlM (fun acc c => (digitValue base c).map (acc * base + ·)) value :=
  List.foldlM_append

/-- The number that is read off a numeral is the one it was written for. -/
theorem digitsValue_toDigits (large : 1 < base) (small : base ≤ 16) (n : Nat) :
    digitsValue base (Nat.toDigits base n) = some n := by
  induction n using digit_induction large with
  | digit n h => simp [Nat.toDigits_of_lt_base h, digitsValue, digitValue_digitChar small h]
  | more n h ih =>
    have last : n % base < base := Nat.mod_lt n (by omega)
    rw [Nat.toDigits_of_base_le large h, digitsValue_append, ih]
    simp [digitValue_digitChar small last, Nat.div_add_mod']

theorem exists_digit_of_mem_toDigits (large : 1 < base) {c : Char}
    (hc : c ∈ Nat.toDigits base n) : ∃ d < base, c = Nat.digitChar d := by
  induction n using digit_induction large with
  | digit n h =>
    rw [Nat.toDigits_of_lt_base h, List.mem_singleton] at hc
    exact ⟨n, h, hc⟩
  | more n h ih =>
    rw [Nat.toDigits_of_base_le large h, List.mem_append, List.mem_singleton] at hc
    rcases hc with front | last
    · exact ih front
    · exact ⟨n % base, Nat.mod_lt n (by omega), last⟩

theorem digitValue_of_mem_toDigits (large : 1 < base) (small : base ≤ 16) {c : Char}
    (hc : c ∈ Nat.toDigits base n) : (digitValue base c).isSome := by
  obtain ⟨d, hd, rfl⟩ := exists_digit_of_mem_toDigits large hc
  rw [digitValue_digitChar small hd]
  rfl

/-- No superfluous zero leads a numeral. -/
theorem eq_zero_of_head?_toDigits (large : 1 < base)
    (h : (Nat.toDigits base n).head? = some '0') : n = 0 := by
  induction n using digit_induction large with
  | digit n hn =>
    rw [Nat.toDigits_of_lt_base hn, List.head?_cons, Option.some.injEq] at h
    exact Nat.digitChar_eq_zero.1 h
  | more n hn ih =>
    obtain ⟨d, ds, front⟩ :=
      List.exists_cons_of_ne_nil (Nat.toDigits_ne_nil (b := base) (n := n / base))
    rw [Nat.toDigits_of_base_le large hn, front] at h
    have zero := ih (front ▸ h)
    have positive : 0 < n / base := Nat.div_pos hn (by omega)
    omega

/-! What the numerals of a bound are. -/

/-- A decimal numeral and its value: digits, with at most one plus sign before them. -/
def IsNumeral (cs : List Char) (n : Nat) : Prop :=
  ∃ digits, (cs = digits ∨ cs = '+' :: digits) ∧ digits ≠ [] ∧
    (∀ d ∈ digits, d.isDigit = true) ∧ Nat.ofDigitChars 10 digits 0 = n

variable {cs : List Char} {bound : Nat}

theorem digitValue_ten_eq_some_iff {c : Char} {d : Nat} :
    digitValue 10 c = some d ↔ c.isDigit = true ∧ c.toNat - '0'.toNat = d := by
  simp only [digitValue, Option.filter_eq_some_iff, decide_eq_true_eq]
  constructor
  · rintro ⟨value, small⟩
    -- The letters of larger bases stand for ten and more.
    split at value
    · rename_i digit
      exact ⟨digit, Option.some.inj value⟩
    · split at value
      · have := Option.some.inj value
        omega
      · split at value
        · have := Option.some.inj value
          omega
        · cases value
  · rintro ⟨digit, rfl⟩
    refine ⟨if_pos digit, ?_⟩
    simp only [Char.isDigit, Bool.and_eq_true, decide_eq_true_eq] at digit
    have high : c.toNat ≤ 57 := digit.2
    have zero : '0'.toNat = 48 := rfl
    omega

theorem isNumeral_of_digits (some : cs ≠ []) (digits : cs.all Char.isDigit = true) :
    IsNumeral cs (Nat.ofDigitChars 10 cs 0) :=
  ⟨cs, .inl rfl, some, List.all_eq_true.1 digits, rfl⟩

/-- Reading on from a number, digit after digit. -/
theorem foldlM_digitValue_eq_some_iff {start : Nat} :
    cs.foldlM (fun acc c => (digitValue 10 c).map (acc * 10 + ·)) start = some n ↔
      (∀ d ∈ cs, d.isDigit = true) ∧ Nat.ofDigitChars 10 cs start = n := by
  induction cs generalizing start with
  | nil => simp [Nat.ofDigitChars]
  | cons c cs ih =>
    rw [List.foldlM_cons, Option.bind_eq_bind, Option.bind_eq_some_iff, List.forall_mem_cons,
      Nat.ofDigitChars_cons, Nat.mul_comm 10 start]
    simp only [Option.map_eq_some_iff, digitValue_ten_eq_some_iff, ih]
    constructor
    · rintro ⟨_, ⟨_, ⟨digit, rfl⟩, rfl⟩, digits, value⟩
      exact ⟨⟨digit, digits⟩, value⟩
    · rintro ⟨⟨digit, digits⟩, value⟩
      exact ⟨_, ⟨_, ⟨digit, rfl⟩, rfl⟩, digits, value⟩

/-- The digits of a text are read within a bound. -/
private theorem digits_eq_some_iff {digits : List Char} :
    (if digits = [] then none else (digitsValue 10 digits).filter (· < bound)) = some n ↔
      (digits ≠ [] ∧ (∀ d ∈ digits, d.isDigit = true) ∧ Nat.ofDigitChars 10 digits 0 = n) ∧
        n < bound := by
  by_cases nothing : digits = []
  · simp [nothing]
  · rw [if_neg nothing, Option.filter_eq_some_iff, digitsValue, foldlM_digitValue_eq_some_iff,
      decide_eq_true_eq]
    simp [nothing]

/-- A text is read within a bound exactly if it is a numeral of a number below it. -/
theorem numeral?_eq_some_iff : numeral? bound cs = some n ↔ IsNumeral cs n ∧ n < bound := by
  by_cases signed : ∃ rest, cs = '+' :: rest
  · obtain ⟨rest, rfl⟩ := signed
    refine digits_eq_some_iff.trans (and_congr_left fun _ => ?_)
    refine ⟨fun read => ⟨rest, .inr rfl, read⟩, ?_⟩
    rintro ⟨digits, rfl | same, read⟩
    · exact absurd (read.2.1 '+' List.mem_cons_self) (by decide)
    · cases same
      exact read
  · have unsigned : numeral? bound cs =
        if cs = [] then none else (digitsValue 10 cs).filter (· < bound) := by
      simp only [numeral?]
      split
      · exact absurd ⟨_, rfl⟩ signed
      · rfl
    rw [unsigned]
    refine digits_eq_some_iff.trans (and_congr_left fun _ => ⟨fun read => ⟨cs, .inl rfl, read⟩, ?_⟩)
    rintro ⟨digits, rfl | rfl, read⟩
    · exact read
    · exact absurd ⟨digits, rfl⟩ signed

end ZoneCatalog.Text
