import ZoneCatalog.Proofs.Name.Marks
import ZoneCatalog.Proofs.Zone.Index
import ZoneCatalog.Zone.Location

/-! The labels of locations against the names they are in. A zone contains a name if the labels at
the end of the name agree with its own; the label of a location goes by the end of its text. -/
namespace ZoneCatalog

open DomainName

/-! Dots at the end of a text. -/

theorem trimDots_append_dots (text : List Char) :
    ∃ dots, text = trimDots text ++ List.replicate dots '.' := by
  refine ⟨(text.reverse.takeWhile (· = '.')).length, ?_⟩
  have parts := congrArg List.reverse
    (List.takeWhile_append_dropWhile (p := fun c => decide (c = '.')) (l := text.reverse))
  have dots : text.reverse.takeWhile (fun c => decide (c = '.')) =
      List.replicate (text.reverse.takeWhile (fun c => decide (c = '.'))).length '.' :=
    List.eq_replicate_iff.2 ⟨rfl, fun c hc =>
      of_decide_eq_true (List.all_eq_true.1 List.all_takeWhile c hc)⟩
  rw [dots, List.reverse_append, List.reverse_reverse, List.reverse_replicate] at parts
  exact parts.symm

theorem getLast?_trimDots (text : List Char) : (trimDots text).getLast? ≠ some '.' := by
  rw [trimDots, List.getLast?_reverse]
  intro dot
  have first := List.head?_dropWhile_not (fun c => decide (c = '.')) text.reverse
  rw [dot] at first
  cases first

/-- Behind a dot or from the beginning, the text of a zone stands at the end of a text, whatever the
case of letters and however many dots end either. -/
def EndsWith (text zone : String) : Prop :=
  '.' :: Text.fold (trimDots zone.toList) <:+ '.' :: Text.fold (trimDots text.toList)

instance (text zone : String) : Decidable (EndsWith text zone) :=
  inferInstanceAs (Decidable ('.' :: Text.fold (trimDots zone.toList) <:+ _))

private theorem exists_cut {l z : List Char} (h : Text.sameFolded l ('.' :: z)) :
    ∃ tail, l = '.' :: tail ∧ Text.fold tail = Text.fold z := by
  obtain ⟨d, tail, rfl, dot, rest⟩ := List.map_eq_cons_iff.1 (beq_iff_eq.1 h)
  obtain rfl : d = '.' := (Text.eq_iff_of_toLower rfl dot).2 rfl
  exact ⟨tail, rfl, rest⟩

private theorem cut_of_endsWith {l z : List Char} (other : Text.fold l ≠ Text.fold z)
    (h : '.' :: Text.fold z <:+ '.' :: Text.fold l) :
    z.length < l.length ∧
      Text.sameFolded (l.drop (l.length - (z.length + 1))) ('.' :: z) = true := by
  obtain ⟨front, cut⟩ := h
  cases front with
  | nil => exact absurd (List.tail_eq_of_cons_eq cut).symm other
  | cons d front =>
    have whole := List.tail_eq_of_cons_eq cut
    have sizes : l.length = front.length + (z.length + 1) := by
      simpa [Text.fold] using (congrArg List.length whole).symm
    refine ⟨by omega, beq_iff_eq.2 ?_⟩
    have headSize : l.length - (z.length + 1) = front.length := by omega
    rw [headSize, Text.fold, List.map_drop]
    change (Text.fold l).drop front.length = '.' :: Text.fold z
    rw [← whole]
    exact List.drop_left

/-- What the label of a location is. -/
theorem relativeLabel_cases (location zone : String) :
    (trimDots location.toList = [] ∨ trimDots location.toList = apexLabel.toList ∨
        Text.fold (trimDots location.toList) = Text.fold (trimDots zone.toList)) ∧
      relativeLabel location zone = apexLabel ∨
    (∃ head tail, trimDots location.toList = head ++ '.' :: tail ∧
      Text.fold tail = Text.fold (trimDots zone.toList) ∧
        relativeLabel location zone = String.ofList head) ∨
    trimDots location.toList ≠ [] ∧ trimDots location.toList ≠ apexLabel.toList ∧
      ¬ EndsWith location zone ∧
        relativeLabel location zone = String.ofList (trimDots location.toList) := by
  generalize hl : trimDots location.toList = l
  generalize hz : trimDots zone.toList = z
  by_cases apex : l = [] ∨ l = apexLabel.toList ∨ Text.fold l = Text.fold z
  · refine .inl ⟨apex, ?_⟩
    simp [relativeLabel, hl, hz, Text.sameFolded, apex]
  · refine .inr ?_
    have unlike : ¬ (l = [] ∨ l = apexLabel.toList ∨ Text.sameFolded l z = true) := by
      simpa [Text.sameFolded] using apex
    simp only [relativeLabel, hl, hz, if_neg unlike]
    split
    · rename_i cut
      obtain ⟨tail, ending, folded⟩ := exists_cut cut.2
      refine .inl ⟨l.take (l.length - (z.length + 1)), tail, ?_, folded, rfl⟩
      rw [← ending, List.take_append_drop]
    · rename_i uncut
      simp only [not_or] at apex
      refine .inr ⟨apex.1, apex.2.1, fun ends => ?_, rfl⟩
      rw [EndsWith, hl, hz] at ends
      exact uncut (cut_of_endsWith apex.2.2 ends)

/-! Names and the ends of their texts. -/

theorem DomainName.contains_iff_folded {zone name : DomainName} : zone.Contains name ↔
    ∃ front rest, name.labels = front ++ rest ∧
      rest.map Label.folded = zone.labels.map Label.folded := by
  rw [contains_iff, path, path, List.reverse_prefix]
  constructor
  · rintro ⟨front, same⟩
    obtain ⟨front', rest, labels, -, agree⟩ := List.map_eq_append_iff.1 same.symm
    exact ⟨front', rest, labels, agree⟩
  · rintro ⟨front, rest, labels, agree⟩
    refine ⟨front.map Label.folded, ?_⟩
    rw [folded, folded, labels, List.map_append, agree]

/-- No escape is under way where the dots at the end of a text begin. -/
def Whole (text : String) : Prop := Escape.outside.after (trimDots text.toList) = .outside

variable {text q z : String} {name zone : DomainName}

/-- The text of a name is a text that spells its labels, and a dot at most. -/
theorem Denotes.spells (denotes : Denotes text name) (whole : Whole text)
    (something : trimDots text.toList ≠ []) :
    ∃ r dots, (dots = [] ∨ dots = ['.']) ∧ text.toList = trimDots text.toList ++ dots ∧
      (trimDots text.toList).foldlM Reading.read Reading.start = .ok r ∧ r.Spells name.labels := by
  obtain ⟨dots, cut⟩ := trimDots_append_dots text.toList
  rw [Denotes, cut] at denotes
  obtain ⟨few, r, reads, spells⟩ :=
    spells_of_parse something (getLast?_trimDots _) whole denotes
  refine ⟨r, List.replicate dots '.', ?_, cut, reads, spells⟩
  rcases Nat.le_one_iff_eq_zero_or_eq_one.1 few with rfl | rfl
  · exact .inl rfl
  · exact .inr rfl

/-- Where a text has a dot behind which the text of a zone follows, the zone contains the name if
the dot ends a label, and what is before the dot are the labels above the zone. -/
theorem cut_at_label {head tail : List Char} {r s : Reading} {ls zs : List Label}
    (reads : (head ++ '.' :: tail).foldlM Reading.read Reading.start = .ok r) (spells : r.Spells ls)
    (outside : Escape.outside.after head = .outside) {z : List Char}
    (readsZone : z.foldlM Reading.read Reading.start = .ok s) (spellsZone : s.Spells zs)
    (alike : Text.fold tail = Text.fold z) :
    ∃ front rest, ls = front ++ rest ∧ rest.map Label.folded = zs.map Label.folded ∧
      (∃ h, head.foldlM Reading.read Reading.start = .ok h ∧ h.Spells front) ∧
      ∃ t owner, (head ++ '.' :: z).foldlM Reading.read Reading.start = .ok t ∧ t.Spells owner ∧
        owner.map Label.folded = ls.map Label.folded := by
  rw [List.foldlM_append] at reads
  obtain ⟨h, front, reads⟩ := Except.bind_eq_ok.1 reads
  obtain ⟨h₁, dot, back⟩ := Except.bind_eq_ok.1 reads
  have escape : h.escape = .outside := (Reading.trace_of_start front).2.trans outside
  obtain ⟨spellsFront, nothing, outside'⟩ := Reading.Spells.of_read_dot escape dot
  -- the end of the text, read by itself
  obtain ⟨t, readsTail, tailAlike⟩ := Reading.foldlM_alike alike.symm ⟨rfl, rfl, rfl⟩ readsZone
  obtain ⟨rest, spellsRest, same⟩ := spellsZone.alike tailAlike
  have parts : ls = h₁.name.labels ++ rest := by
    have whole := spells.marks
    have last := spellsRest.marks
    rw [(Reading.trace_of_foldlM back).1, outside'] at whole
    rw [(Reading.trace_of_start readsTail).1] at last
    have chars : ls.map Label.chars = (h₁.name.labels ++ rest).map Label.chars := by
      refine marks_injective ?_
      rw [whole, List.map_append, marks_append, last]
      simp [Reading.trace, nothing]
    exact List.map_injective_iff.2 Label.chars_injective chars
  -- the zone, read in the place of the end of the text
  obtain ⟨u, readsOwner, ownerAlike⟩ :=
    Reading.foldlM_alike alike (⟨rfl, rfl, rfl⟩ : h₁.Alike h₁) back
  obtain ⟨owner, spellsOwner, same'⟩ := spells.alike ownerAlike
  refine ⟨_, rest, parts, same.symm, ⟨h, front, spellsFront⟩, u, owner, ?_, spellsOwner, same'.symm⟩
  rw [List.foldlM_append, front, Except.ok_bind, List.foldlM_cons, dot]
  exact readsOwner

private theorem length_marks {ls ks : List Label}
    (h : ls.map Label.folded = ks.map Label.folded) :
    (marks (ls.map Label.chars)).length = (marks (ks.map Label.chars)).length := by
  induction ls generalizing ks with
  | nil => rw [List.map_eq_nil_iff.1 h.symm]
  | cons l ls ih =>
    obtain ⟨k, ks, rfl, first, rest⟩ := List.map_eq_cons_iff.1 h.symm
    have here : l.chars.length = k.chars.length := Label.size_eq_of_folded first.symm
    have there := ih rest.symm
    simp only [marks, List.map_cons, List.flatMap_cons, List.length_append, List.length_map] at *
    omega

/-- An escaped dot ends no label: the label that it is in is longer than the one of the zone. -/
theorem no_cut_in_escape {head tail z : List Char} {r s : Reading} {ls zs : List Label}
    (reads : (head ++ '.' :: tail).foldlM Reading.read Reading.start = .ok r) (spells : r.Spells ls)
    (escaped : Escape.outside.after head ≠ .outside)
    (readsZone : z.foldlM Reading.read Reading.start = .ok s) (spellsZone : s.Spells zs)
    (alike : Text.fold tail = Text.fold z) {front rest : List Label} (parts : ls = front ++ rest) :
    rest.map Label.folded ≠ zs.map Label.folded := by
  intro same
  obtain ⟨t, readsTail, tailAlike⟩ := Reading.foldlM_alike alike.symm ⟨rfl, rfl, rfl⟩ readsZone
  obtain ⟨rest', spellsRest, same'⟩ := spellsZone.alike tailAlike
  have taken : Escape.take (Escape.outside.after head) '.' = ([some '.'], .outside) := by
    rw [List.foldlM_append] at reads
    obtain ⟨h, front, reads⟩ := Except.bind_eq_ok.1 reads
    obtain ⟨h₁, dot, -⟩ := Except.bind_eq_ok.1 reads
    have escape := (Reading.trace_of_start front).2
    rw [← escape] at escaped ⊢
    have noDigit : octalDigit '.' = .error (.unrecognized '.') := by decide +kernel
    cases he : h.escape with
    | outside => exact absurd he escaped
    | opened =>
      have noNumeral : Text.isNumeric '.' = false := by decide +kernel
      simp [Escape.take, noNumeral]
    | oneDigit high => simp [Reading.read, he, noDigit, Except.map] at dot
    | twoDigits high middle => simp [Reading.read, he, noDigit, Except.map] at dot
  have whole := spells.marks
  have last := spellsRest.marks
  rw [(Reading.trace_of_start reads).1, Escape.adds_append, Escape.adds, taken] at whole
  rw [(Reading.trace_of_start readsTail).1] at last
  rw [parts, List.map_append, marks_append, List.append_assoc, List.append_assoc, ← last,
    ← List.append_assoc] at whole
  have sizes := length_marks (same.trans same')
  exact marks_ne_concat_some _ _ '.' (List.append_inj_left' whole sizes)

/-! The label of a location against the labels of the name. -/

/-- The label of a location agrees with the names that the texts of the location and the zone
denote. For a name in the zone it is the label of the apex if the name has no more labels than the
zone, and a text of just those labels that it has above the zone otherwise; and the whole name of
the location is the name that was asked for. For any other name only the dot at its end is left
out. -/
structure LabelAgrees (q z : String) (name zone : DomainName) : Prop where
  apex : zone.Contains name → name.labels.length = zone.labels.length →
    relativeLabel q z = apexLabel
  above : zone.Contains name → name.labels.length ≠ zone.labels.length →
    ∃ front, Denotes (relativeLabel q z) front ∧
      front.labels = name.labels.take (name.labels.length - zone.labels.length)
  owner : zone.Contains name →
    ∃ owner, Denotes (ownerName (relativeLabel q z) z) owner ∧ owner.Agrees name
  outside : ¬ zone.Contains name → relativeLabel q z = String.ofList q.toList.dropLast

theorem not_denotes_apexLabel : ¬ Denotes apexLabel name := by
  have refused : DomainName.parse apexLabel.toList = .error (.malformedLabel ['@']) := by
    decide +kernel
  intro denotes
  rw [Denotes, refused] at denotes
  cases denotes

/-- Of dots alone only the root is a name, and no dot at all. -/
theorem Denotes.of_trimDots_eq_nil (denotes : Denotes text name)
    (nothing : trimDots text.toList = []) :
    name.labels = [] ∧ (text = "." ∨ text = "" ∧ name.absolute = false) := by
  obtain ⟨dots, cut⟩ := trimDots_append_dots text.toList
  rw [nothing, List.nil_append] at cut
  rw [Denotes, cut] at denotes
  rcases dots with _ | _ | dots
  · cases denotes
    exact ⟨rfl, .inr ⟨String.toList_inj.1 cut, rfl⟩⟩
  · cases denotes
    exact ⟨rfl, .inl (String.toList_inj.1 cut)⟩
  · obtain ⟨r, last, reads, -⟩ := (parse_eq_ok (by simp [List.replicate_succ])).1 denotes
    obtain ⟨r₁, first, -⟩ := Except.bind_eq_ok.1 reads
    exact absurd first (Reading.read_dot_ne_ok rfl rfl)

theorem ownerName_toList {label : String} (h : label ≠ apexLabel) :
    (ownerName label z).toList = label.toList ++ '.' :: z.toList := by
  simp [ownerName, h]

theorem DomainName.agrees_of_folded {a b : DomainName}
    (h : a.labels.map Label.folded = b.labels.map Label.folded) : a.Agrees b :=
  agrees_iff.2 (congrArg List.reverse h)

theorem DomainName.contains_of_labels_eq_nil (h : zone.labels = []) : zone.Contains name :=
  contains_iff_folded.2 ⟨name.labels, [], by simp, by simp [h]⟩

/-- Texts that are alike but for the dots at their ends denote names that agree. -/
theorem agrees_of_trimDots (hq : Denotes q name) (hz : Denotes z zone) (wq : Whole q) (wz : Whole z)
    (something : trimDots q.toList ≠ [])
    (alike : Text.fold (trimDots q.toList) = Text.fold (trimDots z.toList)) :
    name.labels.map Label.folded = zone.labels.map Label.folded := by
  have something' : trimDots z.toList ≠ [] := by
    intro nothing
    rw [nothing] at alike
    exact something (List.map_eq_nil_iff.1 alike)
  obtain ⟨r, -, -, -, reads, spells⟩ := hq.spells wq something
  obtain ⟨s, -, -, -, reads', spells'⟩ := hz.spells wz something'
  obtain ⟨t, again, same⟩ := Reading.foldlM_alike alike ⟨rfl, rfl, rfl⟩ reads
  obtain rfl : s = t := Except.ok.inj (reads'.symm.trans again)
  obtain ⟨labels, spells'', folded⟩ := spells.alike same
  rwa [spells'.unique spells'']

theorem Denotes.trimDots_ne_apexLabel (hq : Denotes q name) (wq : Whole q)
    (something : trimDots q.toList ≠ []) : trimDots q.toList ≠ apexLabel.toList := by
  intro apex
  obtain ⟨r, -, -, -, reads, spells⟩ := hq.spells wq something
  obtain ⟨whole, parsed, -⟩ := spells.parse_dots reads (.inl rfl)
  rw [List.append_nil, apex] at parsed
  exact not_denotes_apexLabel parsed

/-- A location that ends where the name of the zone would stand, at a label, is found under the
labels that it has above the zone. -/
theorem labelAgrees_of_cut {head tail : List Char} {r s : Reading} {dots : List Char}
    (reads : (head ++ '.' :: tail).foldlM Reading.read Reading.start = .ok r)
    (spells : r.Spells name.labels) (outside : Escape.outside.after head = .outside)
    (readsZone : (trimDots z.toList).foldlM Reading.read Reading.start = .ok s)
    (spellsZone : s.Spells zone.labels) (alike : Text.fold tail = Text.fold (trimDots z.toList))
    (hd : dots = [] ∨ dots = ['.']) (cut : z.toList = trimDots z.toList ++ dots)
    (label : relativeLabel q z = String.ofList head) :
    zone.Contains name ∧ LabelAgrees q z name zone := by
  obtain ⟨front, rest, parts, same, ⟨h, readsHead, spellsHead⟩, t, labels, readsOwner, spellsOwner,
    folded⟩ := cut_at_label reads spells outside readsZone spellsZone alike
  obtain ⟨above, parsed, hfront⟩ := spellsHead.parse_dots readsHead (.inl rfl)
  rw [List.append_nil] at parsed
  obtain ⟨owner, parsedOwner, howner⟩ := spellsOwner.parse_dots readsOwner hd
  have contains : zone.Contains name := contains_iff_folded.2 ⟨front, rest, parts, same⟩
  have sizes : name.labels.length = front.length + zone.labels.length := by
    simpa [parts] using congrArg List.length same
  have denotes : Denotes (relativeLabel q z) above := by
    rw [Denotes, label, String.toList_ofList, parsed]
  have other : relativeLabel q z ≠ apexLabel := by
    intro apex
    rw [apex] at denotes
    exact not_denotes_apexLabel denotes
  refine ⟨contains, fun _ equal => ?_, fun _ _ => ⟨above, denotes, ?_⟩, fun _ => ⟨owner, ?_, ?_⟩,
    fun outside => absurd contains outside⟩
  · have nothing : front = [] := List.length_eq_zero_iff.1 (by omega)
    exact absurd nothing spellsHead.labels_ne_nil
  · rw [hfront, sizes, Nat.add_sub_cancel, parts, List.take_left]
  · rw [Denotes, ownerName_toList other, label, String.toList_ofList, cut, ← List.cons_append,
      ← List.append_assoc, parsedOwner]
  · exact agrees_of_folded (howner ▸ folded)

/-- A location that is left whole is found if it is not in the zone. -/
theorem labelAgrees_iff_of_uncut {r s : Reading}
    (reads : (trimDots q.toList).foldlM Reading.read Reading.start = .ok r)
    (spells : r.Spells name.labels) (spellsZone : s.Spells zone.labels)
    (dot : q.toList = trimDots q.toList ++ ['.'])
    (label : relativeLabel q z = String.ofList (trimDots q.toList))
    (other : trimDots q.toList ≠ apexLabel.toList) :
    LabelAgrees q z name zone ↔ ¬ zone.Contains name := by
  constructor
  · intro agrees contains
    by_cases equal : name.labels.length = zone.labels.length
    · refine other ?_
      rw [← agrees.apex contains equal, label, String.toList_ofList]
    · obtain ⟨front, denotes, same⟩ := agrees.above contains equal
      obtain ⟨whole, parsed, labels⟩ := spells.parse_dots reads (.inl rfl)
      rw [List.append_nil] at parsed
      rw [Denotes, label, String.toList_ofList, parsed] at denotes
      obtain rfl : whole = front := Except.ok.inj denotes
      have sizes := congrArg List.length (labels.symm.trans same)
      have some_label := List.length_pos_iff.2 spells.labels_ne_nil
      have some_label' := List.length_pos_iff.2 spellsZone.labels_ne_nil
      rw [List.length_take] at sizes
      omega
  · intro outside
    refine ⟨fun c => absurd c outside, fun c => absurd c outside, fun c => absurd c outside,
      fun _ => ?_⟩
    rw [label, dot, List.dropLast_concat, ← dot]

/-- The text of an absolute name ends with a dot. -/
theorem Denotes.dot (hq : Denotes q name) (wq : Whole q) (absolute : name.absolute = true)
    (something : trimDots q.toList ≠ []) : q.toList = trimDots q.toList ++ ['.'] := by
  obtain ⟨-, dots, hd, cut, -⟩ := hq.spells wq something
  rcases hd with rfl | rfl
  · rw [List.append_nil] at cut
    have root : q.toList ≠ ['.'] := by
      intro root
      rw [root] at something
      exact something rfl
    obtain ⟨-, last, -, -, rfl⟩ := (parse_eq_ok root).1 hq
    have ends : q.toList.getLast? = some '.' := of_decide_eq_true absolute
    rw [cut] at ends
    exact absurd ends (getLast?_trimDots _)
  · exact cut

/-- In a zone of nothing but dots a location is left whole. -/
theorem relativeLabel_of_trimDots_eq_nil (nothing : trimDots z.toList = [])
    (something : trimDots q.toList ≠ []) (other : trimDots q.toList ≠ apexLabel.toList) :
    relativeLabel q z = String.ofList (trimDots q.toList) := by
  rcases relativeLabel_cases q z with ⟨apex, -⟩ | ⟨head, tail, cut, alike, -⟩ | ⟨-, -, -, label⟩
  · rw [nothing] at apex
    rcases apex with h | h | h
    · exact absurd h something
    · exact absurd h other
    · exact absurd (List.map_eq_nil_iff.1 h) something
  · rw [nothing] at alike
    obtain rfl := List.map_eq_nil_iff.1 alike
    refine absurd ?_ (getLast?_trimDots q.toList)
    rw [cut, List.getLast?_concat]
  · exact label

/-- A name with labels is not found in the zone of all names, whose dot doubles the one before it.
In a zone of no text at all it is. -/
theorem labelAgrees_root (hq : Denotes q name) (wq : Whole q) (something : trimDots q.toList ≠ [])
    (hz : zone.labels = []) :
    (z = "." → ¬ LabelAgrees q z name zone) ∧ (z = "" → LabelAgrees q z name zone) := by
  have contains : zone.Contains name := contains_of_labels_eq_nil hz
  have other := hq.trimDots_ne_apexLabel wq something
  obtain ⟨r, -, -, -, reads, spells⟩ := hq.spells wq something
  have label (nothing : trimDots z.toList = []) :=
    relativeLabel_of_trimDots_eq_nil nothing something other
  have away : String.ofList (trimDots q.toList) ≠ apexLabel := by
    intro apex
    exact other (by rw [← apex, String.toList_ofList])
  constructor
  · rintro rfl agrees
    obtain ⟨owner, denotes, -⟩ := agrees.owner contains
    rw [label rfl, Denotes, ownerName_toList away, String.toList_ofList] at denotes
    have doubled : parse (trimDots q.toList ++ List.replicate 2 '.') = .ok owner := denotes
    have few := (spells_of_parse something (getLast?_trimDots _) wq doubled).1
    omega
  · rintro rfl
    obtain ⟨front, parsed, same⟩ := spells.parse_dots reads (.inl rfl)
    obtain ⟨owner, parsedOwner, same'⟩ := spells.parse_dots reads (.inr rfl)
    rw [List.append_nil] at parsed
    refine ⟨fun _ equal => ?_, fun _ _ => ⟨front, ?_, ?_⟩, fun _ => ⟨owner, ?_, ?_⟩,
      fun outside => absurd contains outside⟩
    · rw [hz, List.length_nil, List.length_eq_zero_iff] at equal
      exact absurd equal spells.labels_ne_nil
    · rw [Denotes, label rfl, String.toList_ofList, parsed]
    · simp [same, hz]
    · rw [label rfl, Denotes, ownerName_toList away, String.toList_ofList]
      exact parsedOwner
    · exact agrees_of_folded (congrArg _ same')

/-- Where both a location and a zone have labels, the label agrees with the names if the texts tell
what is in the zone. -/
theorem labelAgrees_iff_of_labels (hq : Denotes q name) (hz : Denotes z zone) (wq : Whole q)
    (wz : Whole z) (absolute : name.absolute = true) (something : trimDots q.toList ≠ [])
    (something' : trimDots z.toList ≠ []) :
    LabelAgrees q z name zone ↔ (zone.Contains name ↔ EndsWith q z) := by
  have other := hq.trimDots_ne_apexLabel wq something
  have dot := hq.dot wq absolute something
  obtain ⟨r, -, -, -, reads, spells⟩ := hq.spells wq something
  obtain ⟨s, dots, hd, cut', reads', spells'⟩ := hz.spells wz something'
  rcases relativeLabel_cases q z with ⟨apex, label⟩ | ⟨head, tail, cut, alike, label⟩ |
    ⟨-, -, uncut, label⟩
  · have alike := (apex.resolve_left something).resolve_left other
    have same := agrees_of_trimDots hq hz wq wz something alike
    have contains : zone.Contains name := contains_iff_folded.2 ⟨[], _, rfl, same⟩
    have ends : EndsWith q z := ⟨[], by rw [List.nil_append, alike]⟩
    have sizes : name.labels.length = zone.labels.length := by
      simpa using congrArg List.length same
    have owner : ownerName (relativeLabel q z) z = z := by
      rw [label, ownerName, if_pos rfl]
    refine iff_of_true ⟨fun _ _ => label, fun _ longer => absurd sizes longer, fun _ => ?_,
      fun outside => absurd contains outside⟩ (iff_of_true contains ends)
    exact ⟨zone, owner.symm ▸ hz, agrees_of_folded same.symm⟩
  · have ends : EndsWith q z := by
      rw [EndsWith, cut, ← alike]
      exact ⟨'.' :: Text.fold head, by simp [Text.fold]⟩
    rw [cut] at reads
    by_cases outside : Escape.outside.after head = .outside
    · obtain ⟨contains, agrees⟩ :=
        labelAgrees_of_cut reads spells outside reads' spells' alike hd cut' label
      exact iff_of_true agrees (iff_of_true contains ends)
    · have apart : ¬ zone.Contains name := by
        intro contains
        obtain ⟨front, rest, parts, same⟩ := contains_iff_folded.1 contains
        exact no_cut_in_escape reads spells outside reads' spells' alike parts same
      refine iff_of_false (fun agrees => ?_) (fun same => apart (same.2 ends))
      have whole := agrees.outside apart
      rw [label, dot, List.dropLast_concat, cut, String.ofList_inj] at whole
      simp at whole
  · rw [labelAgrees_iff_of_uncut reads spells spells' dot label other, iff_false_right uncut]

/-! Texts without escapes. -/

/-- The mark of a character that is not part of an escape. -/
private def markOf (c : Char) : Option Char := if c = '.' then none else some c

private theorem getD_markOf (c : Char) : (markOf c).getD '.' = c := by
  rw [markOf]
  split
  · exact Eq.symm ‹_›
  · rfl

private theorem take_plain {c : Char} (h : c ≠ '\\') :
    Escape.outside.take c = ([markOf c], .outside) := by
  by_cases dot : c = '.'
  · simp [Escape.take, markOf, dot]
  · simp [Escape.take, markOf, dot, h]

/-- Without escapes every character stands for itself, and every dot ends a label. -/
theorem plain_text {cs : List Char} (h : '\\' ∉ cs) :
    Escape.outside.adds cs = cs.map markOf ∧ Escape.outside.after cs = .outside := by
  induction cs with
  | nil => exact ⟨rfl, rfl⟩
  | cons c cs ih =>
    rw [List.mem_cons, not_or] at h
    have here := take_plain (Ne.symm h.1)
    obtain ⟨adds, ends⟩ := ih h.2
    constructor
    · rw [Escape.adds, here, adds]
      rfl
    · rw [Escape.after, List.foldl_cons, here]
      exact ends

theorem not_mem_trimDots {cs : List Char} {c : Char} (h : c ∉ cs) : c ∉ trimDots cs := by
  obtain ⟨dots, cut⟩ := trimDots_append_dots cs
  rw [cut, List.mem_append, not_or] at h
  exact h.1

theorem Whole.of_plain (h : '\\' ∉ text.toList) : Whole text :=
  (plain_text (not_mem_trimDots h)).2

private theorem markOf_toLower (c : Char) :
    markOf c.toLower = (markOf c).map Char.toLower := by
  have same : c.toLower = '.' ↔ c = '.' := by
    have twice : c.toLower.toLower = c.toLower := Text.toLower_toLower c
    exact Text.eq_iff_of_toLower rfl twice
  by_cases dot : c = '.'
  · simp [markOf, dot]
  · simp [markOf, dot, same]

private theorem marks_folded (ls : List Label) :
    marks (ls.map Label.folded) = (marks (ls.map Label.chars)).map (Option.map Char.toLower) := by
  induction ls with
  | nil => rfl
  | cons l ls ih =>
    simp only [List.map_cons, marks, List.flatMap_cons, List.map_append] at ih ⊢
    rw [ih]
    simp [Label.folded, Text.fold]

/-- The folded labels of a name that is spelled without escapes are those of its text. -/
theorem marks_of_plain {cs : List Char} (h : '\\' ∉ cs) {r : Reading} {ls : List Label}
    (reads : cs.foldlM Reading.read Reading.start = .ok r) (spells : r.Spells ls) :
    marks (ls.map Label.folded) = (Text.fold cs).map markOf ++ [none] := by
  rw [marks_folded, spells.marks, (Reading.trace_of_start reads).1, (plain_text h).1]
  simp [Text.fold, Function.comp_def, markOf_toLower]

/-- A zone that contains a name ends its text, if there are no escapes in either. -/
theorem endsWith_of_contains (hq : Denotes q name) (hz : Denotes z zone)
    (plain : '\\' ∉ q.toList) (plain' : '\\' ∉ z.toList) (something : trimDots q.toList ≠ [])
    (something' : trimDots z.toList ≠ []) (contains : zone.Contains name) : EndsWith q z := by
  obtain ⟨r, -, -, -, reads, spells⟩ := hq.spells (Whole.of_plain plain) something
  obtain ⟨s, -, -, -, reads', spells'⟩ := hz.spells (Whole.of_plain plain') something'
  obtain ⟨front, rest, parts, same⟩ := contains_iff_folded.1 contains
  have whole := marks_of_plain (not_mem_trimDots plain) reads spells
  have ending := marks_of_plain (not_mem_trimDots plain') reads' spells'
  rw [parts, List.map_append, marks_append, same, ending, ← List.append_assoc] at whole
  have above := List.append_cancel_right whole
  obtain ⟨before, dot⟩ := cons_none_marks (front.map Label.folded)
  -- the characters are read off their marks again
  refine ⟨before.map (Option.getD · '.'), ?_⟩
  have text := congrArg (List.map (Option.getD · '.') ∘ List.cons none) above
  simp only [Function.comp_apply, ← List.cons_append, dot, List.append_assoc] at text
  simpa [Function.comp_def, getD_markOf] using text

/-- A zone whose text ends the text of a name contains it, if there are no escapes in either. -/
theorem contains_of_endsWith (hq : Denotes q name) (hz : Denotes z zone)
    (plain : '\\' ∉ q.toList) (plain' : '\\' ∉ z.toList) (something : trimDots q.toList ≠ [])
    (something' : trimDots z.toList ≠ []) (ends : EndsWith q z) : zone.Contains name := by
  have wq := Whole.of_plain plain
  have wz := Whole.of_plain plain'
  rcases relativeLabel_cases q z with ⟨apex, -⟩ | ⟨head, tail, cut, alike, -⟩ | ⟨-, -, uncut, -⟩
  · have other := hq.trimDots_ne_apexLabel wq something
    have alike := (apex.resolve_left something).resolve_left other
    exact contains_iff_folded.2 ⟨[], _, rfl, agrees_of_trimDots hq hz wq wz something alike⟩
  · have outside : Escape.outside.after head = .outside := by
      refine (plain_text fun escape => not_mem_trimDots plain ?_).2
      rw [cut]
      exact List.mem_append_left _ escape
    obtain ⟨r, -, -, -, reads, spells⟩ := hq.spells wq something
    obtain ⟨s, -, -, -, reads', spells'⟩ := hz.spells wz something'
    rw [cut] at reads
    obtain ⟨front, rest, parts, same, -⟩ := cut_at_label reads spells outside reads' spells' alike
    exact contains_iff_folded.2 ⟨front, rest, parts, same⟩
  · exact absurd ends uncut

theorem Denotes.labels_ne_nil (hz : Denotes z zone) (wz : Whole z)
    (something : trimDots z.toList ≠ []) : zone.labels ≠ [] := by
  obtain ⟨r, -, -, -, -, spells⟩ := hz.spells wz something
  exact spells.labels_ne_nil

theorem Denotes.eq_root (hq : Denotes q name) (absolute : name.absolute = true)
    (nothing : trimDots q.toList = []) : name.labels = [] ∧ q = "." := by
  obtain ⟨none_left, rfl | ⟨-, relative⟩⟩ := hq.of_trimDots_eq_nil nothing
  · exact ⟨none_left, rfl⟩
  · rw [absolute] at relative
    cases relative

/-- The root is taken for the apex of every zone, but it is in no zone that has labels. -/
theorem labelAgrees_of_root (hz : Denotes z zone) (root : name.labels = []) :
    LabelAgrees "." z name zone ↔ zone.labels = [] := by
  have label : relativeLabel "." z = apexLabel := rfl
  constructor
  · intro agrees
    by_contra named
    have apart : ¬ zone.Contains name := by
      intro contains
      obtain ⟨front, rest, parts, same⟩ := contains_iff_folded.1 contains
      rw [root] at parts
      obtain ⟨-, rfl⟩ := List.append_eq_nil_iff.1 parts.symm
      exact named (List.map_eq_nil_iff.1 same.symm)
    have empty := agrees.outside apart
    rw [label] at empty
    exact absurd empty (by decide)
  · intro none_left
    have sizes : name.labels.length = zone.labels.length := by rw [root, none_left]
    refine ⟨fun _ _ => label, fun _ longer => absurd sizes longer, fun _ => ⟨zone, hz, ?_⟩,
      fun outside => absurd (contains_of_labels_eq_nil none_left) outside⟩
    exact agrees_of_folded (by rw [root, none_left])

/-- The exact condition under which a label agrees with the names, wherever the texts of both end
outside of an escape. -/
theorem labelAgrees_iff_of_whole (hq : Denotes q name) (hz : Denotes z zone)
    (absolute : name.absolute = true) (wq : Whole q) (wz : Whole z) :
    LabelAgrees q z name zone ↔ (z = "." → q = ".") ∧
      (zone.labels ≠ [] → q ≠ "." ∧ (zone.Contains name ↔ EndsWith q z)) := by
  by_cases nothing : trimDots q.toList = []
  · obtain ⟨root, rfl⟩ := hq.eq_root absolute nothing
    rw [labelAgrees_of_root hz root]
    exact ⟨fun h => ⟨fun _ => rfl, fun named => absurd h named⟩,
      fun h => by_contra fun named => (h.2 named).1 rfl⟩
  · have other : q ≠ "." := by
      rintro rfl
      exact nothing rfl
    by_cases nothing' : trimDots z.toList = []
    · obtain ⟨none_left, rfl | ⟨rfl, -⟩⟩ := hz.of_trimDots_eq_nil nothing'
      · have missed := (labelAgrees_root hq wq nothing none_left).1 rfl
        exact iff_of_false missed fun h => other (h.1 rfl)
      · have found := (labelAgrees_root hq wq nothing none_left).2 rfl
        exact iff_of_true found ⟨nofun, fun h => absurd none_left h⟩
    · have named := hz.labels_ne_nil wz nothing'
      have other' : z ≠ "." := by
        rintro rfl
        exact nothing' rfl
      rw [labelAgrees_iff_of_labels hq hz wq wz absolute nothing nothing']
      exact ⟨fun h => ⟨fun root => absurd root other', fun _ => ⟨other, h⟩⟩,
        fun h => (h.2 named).2⟩

/-- The label of a location agrees with what the zone contains, but in the zone of all names, for
the root in another zone, and where escapes hide from the text where labels end. -/
theorem labelAgrees_iff (hq : Denotes q name) (hz : Denotes z zone)
    (absolute : name.absolute = true) :
    (Whole q → Whole z → (LabelAgrees q z name zone ↔ (z = "." → q = ".") ∧
      (zone.labels ≠ [] → q ≠ "." ∧ (zone.Contains name ↔ EndsWith q z)))) ∧
    ('\\' ∉ q.toList → '\\' ∉ z.toList → (LabelAgrees q z name zone ↔
      (z = "." → q = ".") ∧ (q = "." → zone.labels = []))) := by
  refine ⟨labelAgrees_iff_of_whole hq hz absolute, fun plain plain' => ?_⟩
  rw [labelAgrees_iff_of_whole hq hz absolute (Whole.of_plain plain) (Whole.of_plain plain')]
  refine and_congr_right fun _ => ⟨fun h root => ?_, fun h named => ?_⟩
  · exact by_contra fun named => (h named).1 root
  · have other : q ≠ "." := fun root => named (h root)
    have something : trimDots q.toList ≠ [] := fun nothing => other (hq.eq_root absolute nothing).2
    have something' : trimDots z.toList ≠ [] :=
      fun nothing => named (hz.of_trimDots_eq_nil nothing).1
    exact ⟨other, endsWith_of_contains hq hz plain plain' something something',
      contains_of_endsWith hq hz plain plain' something something'⟩

private theorem exists_denotes (text : String) (p : DomainName → Bool)
    (h : (DomainName.parse text.toList).toOption.any p = true) :
    ∃ name, Denotes text name ∧ p name = true := by
  cases parsed : DomainName.parse text.toList with
  | error e =>
    rw [parsed] at h
    cases h
  | ok name =>
    rw [parsed] at h
    exact ⟨name, parsed, h⟩

theorem labelAgrees_www : ∃ name zone, Denotes "www.example.com." name ∧
    Denotes "example.com." zone ∧ name.absolute = true ∧
      LabelAgrees "www.example.com." "example.com." name zone := by
  obtain ⟨name, hq, absolute⟩ :=
    exists_denotes "www.example.com." DomainName.absolute (by decide +kernel)
  obtain ⟨zone, hz, -⟩ :=
    exists_denotes "example.com." DomainName.absolute (by decide +kernel)
  refine ⟨name, zone, hq, hz, absolute, ((labelAgrees_iff hq hz absolute).2 ?_ ?_).2 ?_⟩
  · decide +kernel
  · decide +kernel
  · exact ⟨fun root => absurd root (by decide +kernel), fun root => absurd root (by decide +kernel)⟩

/-- The zone of all names contains the name of a host, but the location of the host has the text of
no name. A zone is cut off a text that ends like it, though an escaped dot before it makes it a part
of another label. -/
theorem not_labelAgrees : (∃ name zone, Denotes "www.example.com." name ∧ Denotes "." zone ∧
      name.absolute = true ∧ zone.Contains name ∧
      ∀ owner, ¬ Denotes (ownerName (relativeLabel "www.example.com." ".") ".") owner) ∧
    ∃ name zone, Denotes "a\\.b.com." name ∧ Denotes "b.com." zone ∧ name.absolute = true ∧
      ¬ zone.Contains name ∧ relativeLabel "a\\.b.com." "b.com." = "a\\" := by
  constructor
  · obtain ⟨name, hq, absolute⟩ :=
      exists_denotes "www.example.com." DomainName.absolute (by decide +kernel)
    obtain ⟨zone, hz, root⟩ :=
      exists_denotes "." (fun zone => zone.labels.isEmpty) (by decide +kernel)
    refine ⟨name, zone, hq, hz, absolute,
      contains_of_labels_eq_nil (List.isEmpty_iff.1 root), fun owner denotes => ?_⟩
    have nameless : (DomainName.parse
        (ownerName (relativeLabel "www.example.com." ".") ".").toList).toOption.isNone = true := by
      decide +kernel
    rw [(denotes : DomainName.parse _ = .ok owner)] at nameless
    cases nameless
  · obtain ⟨name, hq, h⟩ := exists_denotes "a\\.b.com."
      (fun name => name.absolute && name.path == ["com".toList, "a.b".toList]) (by decide +kernel)
    obtain ⟨zone, hz, h'⟩ := exists_denotes "b.com."
      (fun zone => zone.path == ["com".toList, "b".toList]) (by decide +kernel)
    rw [Bool.and_eq_true, beq_iff_eq] at h
    rw [beq_iff_eq] at h'
    refine ⟨name, zone, hq, hz, h.1, ?_, by decide +kernel⟩
    rw [contains_iff, h.2, h']
    decide +kernel

end ZoneCatalog
