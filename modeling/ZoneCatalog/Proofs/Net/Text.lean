import Mathlib.Algebra.Group.Nat.Defs
import ZoneCatalog.Net.Printer
import ZoneCatalog.Net.Reader
import ZoneCatalog.Proofs.Text.Numeral

/-! Addresses read back from their canonical text. A group is read up to the next colon, so a
printed row of groups is read group by group; the run of zeros that is left out is as long as what
is missing from eight. -/
namespace ZoneCatalog

theorem Ipv4.groups_ofGroups (hi lo : UInt16) : (ofGroups hi lo).groups = [hi, lo] := by
  have whole : ∀ g : UInt16, (g / 256).toUInt8.toUInt16 * 256 + g.toUInt8.toUInt16 = g := by
    intro g
    apply UInt16.toNat_inj.1
    have bound := g.toNat_lt
    simp
    omega
  change [_, _] = [hi, lo]
  rw [ofGroups, whole hi, whole lo]

namespace IpAddress

/-- No digit of the base comes next. -/
def Stops (base : Nat) (rest : List Char) : Prop :=
  ∀ c, rest.head? = some c → Text.digitValue base c = none

variable {base most : Nat} {digits rest cs : List Char}

theorem stops_nil : Stops base [] := by
  rintro c ⟨⟩

theorem stops_cons {c : Char} (h : Text.digitValue base c = none) : Stops base (c :: rest) := by
  rintro d ⟨⟩
  exact h

theorem Stops.decimal (stops : Stops 16 rest) : Stops 10 rest := by
  intro c hc
  have none16 := stops c hc
  simp only [Text.digitValue, Option.filter_eq_none_iff] at none16 ⊢
  intro value hvalue
  have small := none16 value hvalue
  simp at small ⊢
  omega

theorem readDigits_append (nonempty : digits ≠ []) (short : digits.length ≤ most)
    (all : ∀ c ∈ digits, (Text.digitValue base c).isSome) (stops : Stops base rest) :
    readDigits base most (digits ++ rest) = some (digits, rest) := by
  have front : rest.takeWhile (fun c => (Text.digitValue base c).isSome) = [] ∧
      rest.dropWhile (fun c => (Text.digitValue base c).isSome) = rest := by
    cases rest with
    | nil => exact ⟨rfl, rfl⟩
    | cons c rest => simp [stops c rfl]
  rw [readDigits]
  simp only [List.takeWhile_append_of_pos all, List.dropWhile_append_of_pos all, front,
    List.append_nil]
  rw [if_neg (by simp [nonempty]; omega)]

theorem readDigits_of_stops (stops : Stops base rest) : readDigits base most rest = none := by
  cases rest with
  | nil => rfl
  | cons c rest => simp [readDigits, stops c rfl]

private theorem readDigits_toDigits (large : 1 < base) (small : base ≤ 16) {n : Nat}
    (short : n < base ^ most) (hmost : 0 < most) (stops : Stops base rest) :
    readDigits base most (Nat.toDigits base n ++ rest) = some (Nat.toDigits base n, rest) :=
  readDigits_append Nat.toDigits_ne_nil ((Nat.length_toDigits_le_iff large hmost).2 short)
    (fun _ hc => Text.digitValue_of_mem_toDigits large small hc) stops

theorem readOctet_decimal (o : UInt8) (stops : Stops 10 rest) :
    readOctet (Text.decimal o.toNat ++ rest) = some (o, rest) := by
  have bound := o.toNat_lt
  have usual : ¬ (255 < o.toNat ∨ ((Nat.toDigits 10 o.toNat).head? = some '0' ∧
      Nat.toDigits 10 o.toNat ≠ ['0'])) := by
    rintro (large | ⟨zero, long⟩)
    · omega
    · rw [Text.eq_zero_of_head?_toDigits (by decide) zero] at long
      exact long (Nat.toDigits_zero 10)
  rw [readOctet, Text.decimal,
    readDigits_toDigits (by decide) (by decide) (by omega) (by decide) stops]
  change (Text.digitsValue 10 (Nat.toDigits 10 o.toNat)).bind _ = _
  rw [Text.digitsValue_toDigits (by decide) (by decide), Option.bind_some, if_neg usual]
  simp

/-- An IPv4 address is read from its text, up to whatever is not a digit. -/
theorem readV4_text (ip : Ipv4) (stops : Stops 10 rest) :
    readV4 (ip.text ++ rest) = some (ip, rest) := by
  have dot : ∀ more, Stops 10 ('.' :: more) := fun more => stops_cons rfl
  simp [readV4, Ipv4.text, Ipv4.octets, readOctet_decimal, readDotOctet, dot, stops]

theorem readV4_of_stops (stops : Stops 10 rest) : readV4 rest = none := by
  rw [readV4, readOctet, readDigits_of_stops stops]
  rfl

theorem readGroup_toDigits (g : UInt16) (stops : Stops 16 rest) :
    readGroup (Nat.toDigits 16 g.toNat ++ rest) = some (g, rest) := by
  have bound := g.toNat_lt
  rw [readGroup, readDigits_toDigits (by decide) (by decide) (by omega) (by decide) stops]
  simp [Text.digitsValue_toDigits]

theorem readGroup_of_stops (stops : Stops 16 rest) : readGroup rest = none := by
  rw [readGroup, readDigits_of_stops stops]
  rfl

/-! Rows of groups. -/

/-- A group of a row is at its end: a colon follows it, or nothing. -/
def EndsGroup (rest : List Char) : Prop := ∀ c, rest.head? = some c → c = ':'

theorem endsGroup_nil : EndsGroup [] := by
  rintro c ⟨⟩

theorem endsGroup_cons : EndsGroup (':' :: rest) := by
  rintro c ⟨⟩
  rfl

theorem EndsGroup.stops (ends : EndsGroup rest) (base : Nat) : Stops base rest := by
  intro c hc
  rw [ends c hc]
  rfl

private theorem readOctet_rest {o : UInt8} (h : readOctet cs = some (o, rest)) :
    rest = cs.dropWhile fun c => (Text.digitValue 10 c).isSome := by
  obtain ⟨⟨digits, after⟩, run, value⟩ := Option.bind_eq_some_iff.1 h
  obtain ⟨n, -, octet⟩ := Option.bind_eq_some_iff.1 value
  simp only [readDigits] at run
  split at run
  · cases run
  split at octet
  · cases octet
  cases run
  cases octet
  rfl

/-- No group is the beginning of an IPv4 address, which would have a point after its digits. -/
theorem readV4_toDigits (g : UInt16) (ends : EndsGroup rest) :
    readV4 (Nat.toDigits 16 g.toNat ++ rest) = none := by
  rw [readV4]
  cases octet : readOctet (Nat.toDigits 16 g.toNat ++ rest) with
  | none => rfl
  | some read =>
    obtain ⟨o, after⟩ := read
    have noPoint : ∀ more, after ≠ '.' :: more := by
      rintro more rfl
      have point := readOctet_rest octet
      rw [List.dropWhile_append] at point
      split at point
      · cases rest with
        | nil => cases point
        | cons c rest =>
          obtain rfl := ends c rfl
          cases point
      · rename_i some_left
        obtain ⟨c, left, cons⟩ := List.exists_cons_of_ne_nil (mt List.isEmpty_iff.2 some_left)
        rw [cons] at point
        cases point
        have digit : '.' ∈ Nat.toDigits 16 g.toNat :=
          (List.dropWhile_sublist _).subset (cons ▸ List.mem_cons_self)
        cases Text.digitValue_of_mem_toDigits (by decide) (by decide) digit
    have noOctet : readDotOctet after = none := by
      rw [readDotOctet.eq_def]
      split
      · exact absurd rfl (noPoint _)
      · rfl
    simp [noOctet]

/-- Groups with a colon before each of them. -/
def laterGroups (gs : List UInt16) : List Char := gs.flatMap fun g => ':' :: Nat.toDigits 16 g.toNat

theorem joinGroups_cons (g : UInt16) (gs : List UInt16) :
    Ipv6.joinGroups (g :: gs) = Nat.toDigits 16 g.toNat ++ laterGroups gs := by
  induction gs generalizing g with
  | nil => simp [Ipv6.joinGroups, laterGroups]
  | cons g' gs ih =>
    have rest := ih g'
    simp only [Ipv6.joinGroups, List.map_cons] at rest ⊢
    rw [List.intersperse_cons_cons, List.flatten_cons, List.flatten_cons, rest]
    simp [laterGroups]

/-- A row of groups is at its end: two colons follow it, or nothing. -/
def EndsRow (rest : List Char) : Prop := rest = [] ∨ ∃ more, rest = ':' :: ':' :: more

theorem EndsRow.endsGroup (ends : EndsRow rest) (gs : List UInt16) :
    EndsGroup (laterGroups gs ++ rest) := by
  cases gs with
  | nil =>
    obtain rfl | ⟨more, rfl⟩ := ends
    · exact endsGroup_nil
    · exact endsGroup_cons
  | cons g gs => exact endsGroup_cons

theorem EndsRow.stops_afterColon (ends : EndsRow rest) {first : Bool} {more : List Char}
    (h : afterColon first rest = some more) : Stops 16 more := by
  cases first with
  | true =>
    cases h
    exact (ends.endsGroup []).stops 16
  | false =>
    obtain rfl | ⟨after, rfl⟩ := ends
    · cases h
    · cases h
      exact stops_cons rfl

theorem readGroups_of_endsRow (first : Bool) (room : Nat) (ends : EndsRow rest) :
    readGroups first room rest = ⟨[], false, rest⟩ := by
  cases room with
  | zero => rfl
  | succ room =>
    cases h : afterColon first rest with
    | none => simp [readGroups, h]
    | some more =>
      have stops := ends.stops_afterColon h
      simp [readGroups, h, readV4_of_stops stops.decimal, readGroup_of_stops stops]

/-- One group of a row is read. -/
theorem readGroups_group {first : Bool} {g : UInt16} (room : Nat)
    (h : afterColon first cs = some (Nat.toDigits 16 g.toNat ++ rest)) (ends : EndsGroup rest) :
    readGroups first (room + 1) cs =
      { readGroups false room rest with values := g :: (readGroups false room rest).values } := by
  simp [readGroups, h, readV4_toDigits g ends, readGroup_toDigits g (ends.stops 16)]

theorem readGroups_laterGroups (room : Nat) (gs : List UInt16) (h : gs.length ≤ room)
    (ends : EndsRow rest) :
    readGroups false room (laterGroups gs ++ rest) = ⟨gs, false, rest⟩ := by
  induction gs generalizing room with
  | nil => exact readGroups_of_endsRow false room ends
  | cons g gs ih =>
    obtain ⟨room, rfl⟩ : ∃ r, room = r + 1 := ⟨room - 1, by simp at h; omega⟩
    rw [readGroups_group room (g := g) _ (ends.endsGroup gs)]
    · rw [ih room (by simpa using h)]
    · simp [laterGroups, afterColon]

/-- A row of groups is read as it was written. -/
theorem readGroups_joinGroups (room : Nat) (gs : List UInt16) (h : gs.length ≤ room)
    (ends : EndsRow rest) :
    readGroups true room (Ipv6.joinGroups gs ++ rest) = ⟨gs, false, rest⟩ := by
  cases gs with
  | nil => exact readGroups_of_endsRow true room ends
  | cons g gs =>
    obtain ⟨room, rfl⟩ : ∃ r, room = r + 1 := ⟨room - 1, by simp at h; omega⟩
    rw [joinGroups_cons, List.append_assoc]
    rw [readGroups_group (g := g) room rfl (ends.endsGroup gs)]
    rw [readGroups_laterGroups room gs (by simpa using h) ends]

theorem readV4_joinGroups (gs : List UInt16) (ends : EndsRow rest) :
    readV4 (Ipv6.joinGroups gs ++ rest) = none := by
  cases gs with
  | nil => exact readV4_of_stops ((ends.endsGroup []).stops 10)
  | cons g gs =>
    rw [joinGroups_cons, List.append_assoc]
    exact readV4_toDigits g (ends.endsGroup gs)

end IpAddress

namespace Ipv6

/-- A run of zeros stands between the groups before it and those after it. -/
theorem eq_append_zeros (groups : List UInt16) (place : Nat) :
    groups.take place ++ List.replicate (zerosAt groups place) 0 ++
      groups.drop (place + zerosAt groups place) = groups := by
  let isZero := fun g : UInt16 => decide (g = 0)
  have parts : (groups.drop place).takeWhile isZero ++ (groups.drop place).dropWhile isZero =
      groups.drop place := List.takeWhile_append_dropWhile
  have zeros : (groups.drop place).takeWhile isZero = List.replicate (zerosAt groups place) 0 := by
    refine List.eq_replicate_iff.2 ⟨rfl, fun g hg => ?_⟩
    exact of_decide_eq_true (List.all_eq_true.1 List.all_takeWhile g hg)
  have after : (groups.drop place).dropWhile isZero =
      groups.drop (place + zerosAt groups place) := by
    rw [← List.drop_drop]
    calc (groups.drop place).dropWhile isZero
      _ = ((groups.drop place).takeWhile isZero ++ (groups.drop place).dropWhile isZero).drop
            (zerosAt groups place) :=
          (List.drop_left' (by rw [zeros, List.length_replicate])).symm
      _ = (groups.drop place).drop (zerosAt groups place) := by rw [parts]
  rw [← zeros, ← after, List.append_assoc, parts, List.take_append_drop]

theorem ofGroups_groups (ip : Ipv6) : IpAddress.ofGroups ip.groups = some ip :=
  dif_pos ip.length_eq

theorem readV6_joinGroups (ip : Ipv6) :
    IpAddress.readV6 (joinGroups ip.groups) = some (ip, []) := by
  have head := IpAddress.readGroups_joinGroups 8 ip.groups (Nat.le_of_eq ip.length_eq) (.inl rfl)
  rw [List.append_nil] at head
  simp [IpAddress.readV6, head, ip.length_eq, ofGroups_groups]

theorem readV6_leftOut (ip : Ipv6) (place : Nat) (h : 1 < zerosAt ip.groups place) :
    IpAddress.readV6 (joinGroups (ip.groups.take place) ++ [':', ':'] ++
      joinGroups (ip.groups.drop (place + zerosAt ip.groups place))) = some (ip, []) := by
  have parts := eq_append_zeros ip.groups place
  have lengths := congrArg List.length parts
  have length_eq := ip.length_eq
  generalize ip.groups.take place = front at *
  generalize ip.groups.drop (place + zerosAt ip.groups place) = back at *
  generalize zerosAt ip.groups place = count at *
  simp only [List.length_append, List.length_replicate, length_eq] at lengths
  rw [List.append_assoc] at parts
  have ends : IpAddress.EndsRow (':' :: ':' :: joinGroups back) := .inr ⟨joinGroups back, rfl⟩
  have head := IpAddress.readGroups_joinGroups 8 front (by omega) ends
  have tail := IpAddress.readGroups_joinGroups (7 - front.length) back (by omega) (.inl rfl)
  rw [List.append_nil] at tail
  have zeros : 8 - front.length - back.length = count := by omega
  have short : front.length ≠ 8 := by omega
  simp [IpAddress.readV6, head, tail, short, zeros, parts, ofGroups_groups]

/-- An IPv4 address that is mapped is read from its own text. -/
theorem readV6_mapped (ip : Ipv6) (mapped : Ipv4)
    (h : ip.groups = [0, 0, 0, 0, 0, 0xFFFF] ++ mapped.groups) :
    IpAddress.readV6 ("::ffff:".toList ++ mapped.text) = some (ip, []) := by
  let dotted := ':' :: mapped.text
  have head : IpAddress.readGroups true 8 (':' :: ':' :: 'f' :: 'f' :: 'f' :: 'f' :: dotted) =
      ⟨[], false, ':' :: ':' :: 'f' :: 'f' :: 'f' :: 'f' :: dotted⟩ :=
    IpAddress.readGroups_of_endsRow true 8 (.inr ⟨_, rfl⟩)
  have v4 : IpAddress.readGroups false 6 dotted = ⟨mapped.groups, true, []⟩ := by
    have whole := IpAddress.readV4_text mapped IpAddress.stops_nil
    rw [List.append_nil] at whole
    simp [IpAddress.readGroups, IpAddress.afterColon, dotted, whole]
  have tail : IpAddress.readGroups true 7 ('f' :: 'f' :: 'f' :: 'f' :: dotted) =
      ⟨0xFFFF :: mapped.groups, true, []⟩ := by
    rw [IpAddress.readGroups_group 6 (g := 0xFFFF) rfl IpAddress.endsGroup_cons, v4]
  change IpAddress.readV6 (':' :: ':' :: 'f' :: 'f' :: 'f' :: 'f' :: dotted) = _
  have zeros : 7 - mapped.groups.length = 5 := rfl
  have filled : 0 :: 0 :: 0 :: 0 :: 0 :: 0xFFFF :: mapped.groups = ip.groups := h.symm
  simp [IpAddress.readV6, head, tail, zeros, filled, ofGroups_groups]

/-- An IPv6 address is read from its canonical text. -/
theorem readV6_text (ip : Ipv6) : IpAddress.readV6 ip.text = some (ip, []) := by
  rw [text]
  split
  · rename_i hi lo heq
    exact readV6_mapped ip (Ipv4.ofGroups hi lo) (by rw [heq, Ipv4.groups_ofGroups]; rfl)
  · dsimp only
    split
    · exact readV6_joinGroups ip
    · exact readV6_leftOut ip _ (by omega)

/-- No IPv6 address has the text of an IPv4 address, nor one that begins with it. -/
theorem readV4_text (ip : Ipv6) : IpAddress.readV4 ip.text = none := by
  rw [text]
  split
  · exact IpAddress.readV4_of_stops (IpAddress.stops_cons rfl)
  · dsimp only
    split
    · have row := IpAddress.readV4_joinGroups ip.groups (.inl rfl)
      rwa [List.append_nil] at row
    · rw [List.append_assoc]
      exact IpAddress.readV4_joinGroups _ (.inr ⟨_, rfl⟩)

end Ipv6

/-- Every address is read from its canonical text. -/
theorem IpAddress.ofText_text (ip : IpAddress) : IpAddress.ofText ip.text = some ip := by
  cases ip with
  | v4 ip =>
    have whole := readV4_text ip stops_nil
    rw [List.append_nil] at whole
    simp [text, ofText, whole]
  | v6 ip => simp [text, ofText, ip.readV4_text, ip.readV6_text]

end ZoneCatalog
