import Mathlib.Logic.Relation
import ZoneCatalog.Proofs.Dnssec.KeyGrammar

/-! The layout of public key records. Blanks, line ends, comments and parentheses that stand alone
leave no trace in the tokens of a text, and neither the places of the classes nor those where the
key is split leave one in what is read of the tokens. -/
namespace ZoneCatalog.Dnskey

variable {key text text' : String} {front back : List Char}

/-! Texts without their comments. -/

/-- What is left of a text without its comments. `inside` says that it starts in one. -/
def uncomment (inside : Bool) : List Char → List Char
  | [] => []
  | c :: cs =>
    if inside then if c = '\n' then '\n' :: uncomment false cs else uncomment true cs
    else if c = ';' then uncomment true cs
    else c :: uncomment false cs

/-- Every comment ends, with the line that it stands on. -/
def Closed (front : List Char) : Prop :=
  ∀ before note, front = before ++ ';' :: note → '\n' ∈ note

theorem uncomment_line {line : List Char} (whole : '\n' ∉ line) :
    uncomment true line = [] ∧ uncomment false line = (Text.cutAt ';' line).1 := by
  induction line with
  | nil => exact ⟨rfl, rfl⟩
  | cons c line ih =>
    rw [List.mem_cons, not_or] at whole
    obtain ⟨inside, outside⟩ := ih whole.2
    refine ⟨?_, ?_⟩
    · rw [uncomment, if_pos rfl, if_neg (Ne.symm whole.1), inside]
    · rw [uncomment, if_neg Bool.false_ne_true, Text.cutAt]
      split
      · exact inside
      · rw [outside]

/-- A line break ends a comment if there is one. -/
theorem uncomment_break (inside : Bool) (front back : List Char) :
    uncomment inside (front ++ '\n' :: back) =
      uncomment inside front ++ '\n' :: uncomment false back := by
  induction front generalizing inside with
  | nil => cases inside <;> rfl
  | cons c front ih =>
    simp only [List.cons_append, uncomment, ih]
    split
    · split <;> rfl
    · split <;> rfl

/-- A text after which no comment is left open is followed by what follows. -/
theorem uncomment_append (closed : Closed front) (back : List Char) :
    uncomment false (front ++ back) = uncomment false front ++ uncomment false back := by
  induction front using Text.line_induction with
  | last line whole =>
    have plain : ';' ∉ line := by
      intro mark
      obtain ⟨before, note, rfl⟩ := List.append_of_mem mark
      exact whole (List.mem_append_right _ (.tail _ (closed before note rfl)))
    clear closed whole
    induction line with
    | nil => rfl
    | cons c line ih =>
      rw [List.mem_cons, not_or] at plain
      simp only [List.cons_append, uncomment, Bool.false_eq_true, if_false,
        if_neg (Ne.symm plain.1), ih plain.2]
  | more line rest whole ih =>
    have later : Closed rest := by
      intro before note same
      exact closed (line ++ '\n' :: before) note (by rw [same, List.append_assoc, List.cons_append])
    rw [List.append_assoc, List.cons_append, uncomment_break, uncomment_break, ih later,
      List.append_assoc, List.cons_append]

theorem uncomment_blank_append {gap : List Char} (blank : ∀ d ∈ gap, Text.isBlank d = true)
    (back : List Char) : uncomment false (gap ++ back) = gap ++ uncomment false back := by
  induction gap with
  | nil => rfl
  | cons d gap ih =>
    rw [List.forall_mem_cons] at blank
    have noMark : d ≠ ';' := by
      rintro rfl
      exact absurd blank.1 (by decide)
    rw [List.cons_append, uncomment, if_neg Bool.false_ne_true, if_neg noMark, ih blank.2,
      List.cons_append]

/-- A gap before the end of a text, outside of comments, is still there without them. -/
theorem ends_uncomment (closed : Closed front)
    (blank : ∀ d ∈ front.getLast?, Text.isBlank d = true) :
    ∀ d ∈ (uncomment false front).getLast?, Text.isBlank d = true := by
  rcases List.eq_nil_or_concat' front with rfl | ⟨cs, d, rfl⟩
  · exact fun d hd => nomatch hd
  · have hd : Text.isBlank d = true := blank d List.getLast?_concat
    have kept : ∃ shown, uncomment false (cs ++ [d]) = shown ++ [d] := by
      by_cases lineBreak : d = '\n'
      · subst lineBreak
        exact ⟨_, uncomment_break false cs []⟩
      · have before : Closed cs := by
          intro front note same
          have within := closed front (note ++ [d]) (by rw [same]; simp)
          rcases List.mem_append.1 within with within | last
          · exact within
          · exact absurd (List.mem_singleton.1 last).symm lineBreak
        have alone : uncomment false [d] = [d] :=
          uncomment_blank_append (List.forall_mem_singleton.2 hd) []
        exact ⟨_, by rw [uncomment_append before, alone]⟩
    obtain ⟨shown, same⟩ := kept
    intro e he
    rw [same, List.getLast?_concat] at he
    exact Option.some.inj he ▸ hd

/-- A gap or a comment at the start of a text leaves a gap, if anything. -/
theorem starts_uncomment {back : List Char}
    (blank : ∀ d ∈ back.head?, Text.isBlank d = true ∨ d = ';') :
    ∀ d ∈ (uncomment false back).head?, Text.isBlank d = true := by
  have inside (cs : List Char) : ∀ d ∈ (uncomment true cs).head?, Text.isBlank d = true := by
    induction cs with
    | nil => exact fun d hd => nomatch hd
    | cons c cs ih =>
      rw [uncomment, if_pos rfl]
      split
      · intro d hd
        exact Option.some.inj hd ▸ (by decide)
      · exact ih
  cases back with
  | nil => exact fun d hd => nomatch hd
  | cons c back =>
    rw [uncomment, if_neg Bool.false_ne_true]
    split
    · exact inside back
    · rename_i noMark
      intro d hd
      exact Option.some.inj hd ▸ (blank c rfl).resolve_right noMark

theorem uncomment_inside_eq (back : List Char) (ends : ∀ c ∈ back.head?, c = '\n') :
    uncomment true back = uncomment false back := by
  cases back with
  | nil => rfl
  | cons c back =>
    obtain rfl := ends c rfl
    rfl

/-- A comment that runs to the end of its line is as good as none. -/
theorem uncomment_comment (inside : Bool) (front : List Char) {note : List Char}
    (whole : '\n' ∉ note) (ends : ∀ c ∈ back.head?, c = '\n') :
    uncomment inside (front ++ ';' :: (note ++ back)) = uncomment inside (front ++ back) := by
  have skipped : uncomment true (note ++ back) = uncomment true back := by
    clear ends
    induction note with
    | nil => rfl
    | cons c note ih =>
      rw [List.mem_cons, not_or] at whole
      rw [List.cons_append, uncomment, if_pos rfl, if_neg (Ne.symm whole.1), ih whole.2]
  induction front generalizing inside with
  | nil =>
    cases inside with
    | true => exact skipped
    | false => exact skipped.trans (uncomment_inside_eq back ends)
  | cons c front ih => simp only [List.cons_append, uncomment, ih]

/-! Tokens are what is left of a text. -/

theorem words_cutAt_dropReturn (line : List Char) :
    Text.words (Text.cutAt ';' (Text.dropReturn line)).1 =
      Text.words (Text.cutAt ';' line).1 := by
  rw [Text.dropReturn]
  split
  · rename_i last
    obtain ⟨cs, rfl⟩ := List.getLast?_eq_some_iff.1 last
    rw [List.dropLast_concat]
    by_cases mark : ';' ∈ cs
    · have cut := Text.cutAt_append mark ['\r']
      rw [cut]
    · have whole : ';' ∉ cs ++ ['\r'] := by simp [mark]
      rw [Text.cutAt_of_not_mem mark, Text.cutAt_of_not_mem whole]
      have blank := Text.words_append (d := '\r') (by decide) cs []
      exact (blank.trans (List.append_nil _)).symm
  · rfl

theorem words_uncomment (cs : List Char) :
    ((Text.lines cs).flatMap fun line => Text.words (Text.cutAt ';' line).1) =
      Text.words (uncomment false cs) := by
  rw [Text.flatMap_lines rfl words_cutAt_dropReturn]
  induction cs using Text.line_induction with
  | last line whole =>
    have uncut : ∀ c ∈ line, decide (c = '\n') = false :=
      fun c hc => decide_eq_false fun same => whole (same ▸ hc)
    rw [Text.splitAtEach_of_uncut uncut, List.flatMap_singleton, (uncomment_line whole).2]
  | more line rest whole ih =>
    have uncut : ∀ c ∈ line, decide (c = '\n') = false :=
      fun c hc => decide_eq_false fun same => whole (same ▸ hc)
    rw [Text.splitAtEach_append_cons uncut (by rfl), List.flatMap_cons, ih, uncomment_break,
      Text.words_append (by decide), (uncomment_line whole).2]

/-- The tokens of what is left of a text without its comments. -/
def bareTokens (cs : List Char) : List (List Char) :=
  (Text.words cs).filter fun token => token ≠ ['('] ∧ token ≠ [')']

theorem tokens_eq (text : String) : tokens text = bareTokens (uncomment false text.toList) := by
  rw [tokens, words_uncomment, bareTokens]

/-! Layouts of the same record. -/

/-- One change to the layout of a text. -/
inductive Relaid : List Char → List Char → Prop where
  /-- Blanks, line breaks among them, in the place of others, and at an end of the text in the place
  of none. -/
  | gap {front gap gap' back : List Char} (closed : Closed front)
      (blank : ∀ d ∈ gap, Text.isBlank d = true) (blank' : ∀ d ∈ gap', Text.isBlank d = true)
      (ends : gap = [] ∨ gap' = [] → front = [] ∨ back = []) :
      Relaid (front ++ (gap ++ back)) (front ++ (gap' ++ back))
  /-- A comment, to the end of the line that it is on. -/
  | comment {front note back : List Char} (whole : '\n' ∉ note)
      (ends : ∀ c ∈ back.head?, c = '\n') :
      Relaid (front ++ ';' :: (note ++ back)) (front ++ back)
  /-- A parenthesis that stands alone. -/
  | paren {front back : List Char} {p : Char} (is : p = '(' ∨ p = ')') (closed : Closed front)
      (before : ∀ d ∈ front.getLast?, Text.isBlank d = true)
      (after : ∀ d ∈ back.head?, Text.isBlank d = true ∨ d = ';') :
      Relaid (front ++ p :: back) (front ++ back)

theorem bareTokens_paren {p : Char} (is : p = '(' ∨ p = ')')
    (before : ∀ d ∈ front.getLast?, Text.isBlank d = true)
    (after : ∀ d ∈ back.head?, Text.isBlank d = true) :
    bareTokens (front ++ p :: back) = bareTokens (front ++ back) := by
  have parted : Text.words (p :: back) = [p] :: Text.words back := by
    have alone : Text.words [p] = [[p]] := by
      rcases is with rfl | rfl
      · decide
      · decide
    have word := Text.words_append_of_starts after [p]
    rwa [alone] at word
  rw [bareTokens, bareTokens, Text.words_append_of_ends before, Text.words_append_of_ends before,
    parted, List.filter_append, List.filter_append]
  congr 1
  rcases is with rfl | rfl
  · exact List.filter_cons_of_neg (by simp)
  · exact List.filter_cons_of_neg (by simp)

/-- The layout leaves no trace in the tokens. -/
theorem Relaid.bareTokens {cs cs' : List Char} (h : Relaid cs cs') :
    bareTokens (uncomment false cs) = bareTokens (uncomment false cs') := by
  cases h with
  | @gap front gap gap' back closed blank blank' ends =>
    have shown (gap : List Char) (blank : ∀ d ∈ gap, Text.isBlank d = true)
        (ends : gap = [] → front = [] ∨ back = []) :
        Text.words (uncomment false (front ++ (gap ++ back))) =
          Text.words (uncomment false front) ++ Text.words (uncomment false back) := by
      rw [uncomment_append closed, uncomment_blank_append blank]
      apply Text.words_gap blank
      intro nothing
      rcases ends nothing with rfl | rfl
      · exact .inl rfl
      · exact .inr rfl
    rw [Dnskey.bareTokens, Dnskey.bareTokens, shown gap blank fun nothing => ends (.inl nothing),
      shown gap' blank' fun nothing => ends (.inr nothing)]
  | comment whole ends => rw [uncomment_comment false _ whole ends]
  | @paren front back p is closed before after =>
    have kept : uncomment false (p :: back) = p :: uncomment false back := by
      rcases is with rfl | rfl
      · rfl
      · rfl
    rw [uncomment_append closed, uncomment_append closed, kept]
    exact bareTokens_paren is (ends_uncomment closed before) (starts_uncomment after)

theorem tokens_of_relaid (h : Relation.EqvGen Relaid text.toList text'.toList) :
    tokens text = tokens text' := by
  rw [tokens_eq, tokens_eq]
  generalize text.toList = cs at h ⊢
  generalize text'.toList = cs' at h ⊢
  induction h with
  | rel _ _ change => exact change.bareTokens
  | refl => rfl
  | symm _ _ _ ih => exact ih.symm
  | trans _ _ _ _ _ ih ih' => exact ih.trans ih'

/-! Records that differ where it makes no difference. -/

/-- Parts of records, up to the first type, that differ at most in the places of the classes and in
the places where the key is split. -/
structure Parts.Alike (p p' : Parts) : Prop where
  owner : p.owner = p'.owner
  settings : p.settings.filter (fun token => !isClass token) =
    p'.settings.filter fun token => !isClass token
  noType : ∀ token ∈ p.settings, Text.isWord "DNSKEY" token = false
  isType : Text.isWord "DNSKEY" p.type = true
  type : p.type = p'.type
  flags : p.flags = p'.flags
  protocol : p.protocol = p'.protocol
  algorithm : p.algorithm = p'.algorithm
  data : p.data.flatten = p'.data.flatten

theorem Parts.Alike.noType' {p p' : Parts} (h : p.Alike p') :
    ∀ token ∈ p'.settings, Text.isWord "DNSKEY" token = false := by
  intro token among
  cases hc : isClass token with
  | true => exact not_isWord_of_isClass hc
  | false =>
    have kept : token ∈ p'.settings.filter fun token => !isClass token :=
      List.mem_filter.2 ⟨among, by simp [hc]⟩
    rw [← h.settings] at kept
    exact h.noType token (List.mem_filter.1 kept).1

/-- What comes after the type is left as it is. -/
theorem readTtl_type {settings : List (List Char)} {type : List Char}
    (noType : ∀ token ∈ settings, Text.isWord "DNSKEY" token = false)
    (isType : Text.isWord "DNSKEY" type = true) (start : UInt32) (rest : List (List Char)) :
    readTtl start (settings ++ type :: rest) =
      (readTtl start (settings ++ [type])).map fun read => (read.1, rest) := by
  induction settings generalizing start with
  | nil => simp only [List.nil_append, readTtl, if_pos isType, Except.map]
  | cons token settings ih =>
    obtain ⟨other, others⟩ := List.forall_mem_cons.1 noType
    simp only [List.cons_append, readTtl, other, Bool.false_eq_true, if_false, ih others]
    split
    · rfl
    · split <;> rfl

/-- What comes after a number is left as it is. -/
theorem readNumeral_cons (bound : Nat) (fault : KeyFault) (token : List Char) :
    ∃ number : Except KeyFault Nat, ∀ rest,
      readNumeral bound fault (token :: rest) = number.map (·, rest) := by
  cases h : Text.numeral? bound token with
  | none => exact ⟨.error fault, fun rest => by rw [readNumeral, h]; rfl⟩
  | some n => exact ⟨.ok n, fun rest => by rw [readNumeral, h]; rfl⟩

/-- The places of classes and the places where the key is split make no difference, whether the
record is read or not. -/
theorem parse_of_alike {p p' : Parts} (h : p.Alike p') (cut : tokens text = p.tokens)
    (cut' : tokens text' = p'.tokens) : parse key text = parse key text' := by
  have settings (rest rest' : List (List Char)) :
      ∃ ttl : Except KeyFault UInt32,
        readTtl 0 (p.settings ++ p.type :: rest) = ttl.map (·, rest) ∧
        readTtl 0 (p'.settings ++ p'.type :: rest') = ttl.map (·, rest') := by
    refine ⟨(readTtl 0 (p.settings ++ [p.type])).map (·.1), ?_, ?_⟩
    · rw [readTtl_type h.noType h.isType]
      cases readTtl 0 (p.settings ++ [p.type]) <;> rfl
    · rw [readTtl_type h.noType' (h.type ▸ h.isType), readTtl_withoutClasses h.noType',
        readTtl_withoutClasses h.noType, h.settings, h.type]
      cases readTtl 0 (p'.settings.filter (fun token => !isClass token) ++ [p'.type]) <;> rfl
  obtain ⟨ttl, read, read'⟩ := settings
    (p'.flags :: p'.protocol :: p'.algorithm :: p.data)
    (p'.flags :: p'.protocol :: p'.algorithm :: p'.data)
  obtain ⟨flags, readFlags⟩ := readNumeral_cons UInt16.size .badFlags p'.flags
  obtain ⟨protocolField, readProtocol⟩ := readNumeral_cons UInt8.size .badProtocol p'.protocol
  obtain ⟨number, readNumber⟩ := readNumeral_cons UInt8.size .badAlgorithm p'.algorithm
  simp only [parse, cut, cut', Parts.tokens, h.owner, h.flags, h.protocol, h.algorithm, read, read']
  cases DomainName.parse p'.owner with
  | error => rfl
  | ok owner =>
    cases ttl with
    | error => rfl
    | ok ttl =>
      simp only [Except.map, Except.mapError, Except.ok_bind, readFlags]
      cases flags with
      | error => rfl
      | ok flags =>
        simp only [Except.map, Except.ok_bind, readProtocol]
        cases protocolField with
        | error => rfl
        | ok protocolField =>
          simp only [Except.map, Except.ok_bind, readNumber]
          cases number with
          | error => rfl
          | ok number => simp only [Except.ok_bind, h.data]

/-- A text is read exactly if its tokens are the parts of a record, and as the key that these are
the parts of. Layouts of one text are read alike, and so are records that differ at most in the
places of the classes and of the splits in the key. -/
theorem parse_iff_grammar (key text : String) :
    (∀ k, parse key text = .ok k ↔ ∃ p : Parts, tokens text = p.tokens ∧ p.Denotes k) ∧
      (∀ text', Relation.EqvGen Relaid text.toList text'.toList →
        parse key text' = parse key text) ∧
      ∀ text' (p p' : Parts), tokens text = p.tokens → tokens text' = p'.tokens → p.Alike p' →
        parse key text' = parse key text := by
  refine ⟨fun k => parse_iff_denotes, ?_, ?_⟩
  · intro text' layout
    rw [parse, parse, tokens_of_relaid layout]
  · intro text' p p' cut cut' alike
    exact (parse_of_alike alike cut cut').symm

/-- A record over two lines, the first with a comment. Its class stands before its time to live. -/
def splitText : String :=
  "k. IN 60 DNSKEY ( 256 3 15 ; zsk\nBwcHBwcHBwcHBwcHBwcHBwcHBwcH BwcHBwcHBwcHBwc= )"

/-- The same record on one line. -/
def lineText : String := "k. 60 IN DNSKEY 256 3 15 BwcHBwcHBwcHBwcHBwcHBwcHBwcHBwcHBwcHBwcHBwc="

def splitParts : Parts :=
  ⟨"k.".toList, ["IN".toList, "60".toList], "DNSKEY".toList, "256".toList, "3".toList, "15".toList,
    ["BwcHBwcHBwcHBwcHBwcHBwcHBwcH".toList, "BwcHBwcHBwcHBwc=".toList]⟩

def splitKey : Dnskey :=
  ⟨⟨[⟨['k'], rfl⟩], true, by decide⟩, 60, 256, .ed25519, List.replicate 32 7⟩

theorem splitParts_denotes : splitParts.Denotes splitKey where
  owner := by decide +kernel
  ttl :=
    have known : isClass "IN".toList = true := by decide
    have time : Text.IsNumeral "60".toList 60 := Text.isNumeral_of_digits (by decide) rfl
    ⟨[none, some 60], .cons known (.cons time .nil), rfl⟩
  type := by decide
  flags := Text.isNumeral_of_digits (by decide) rfl
  protocol := Text.isNumeral_of_digits (by decide) rfl
  algorithm := ⟨15, Text.isNumeral_of_digits (by decide) rfl, rfl, rfl⟩
  data := ⟨by decide, Base64.decode_eq_some_iff.1 (by decide +kernel)⟩

theorem parse_iff_grammar_splitText :
    parse "k" splitText = .ok splitKey ∧ parse "k" lineText = parse "k" splitText ∧
      parse "k" "k. IN 60 DNSKEY ( 256 3 15 \nBwcHBwcHBwcHBwcHBwcHBwcHBwcH BwcHBwcHBwcHBwc= )" =
        parse "k" splitText := by
  obtain ⟨grammar, layout, parts⟩ := parse_iff_grammar "k" splitText
  have cut : tokens splitText = splitParts.tokens := by decide +kernel
  refine ⟨(grammar splitKey).2 ⟨splitParts, cut, splitParts_denotes⟩, ?_, ?_⟩
  · refine parts lineText splitParts { splitParts with
      settings := ["60".toList, "IN".toList]
      data := ["BwcHBwcHBwcHBwcHBwcHBwcHBwcHBwcHBwcHBwcHBwc=".toList] } cut (by decide +kernel) ?_
    exact ⟨rfl, by decide, by decide, by decide, rfl, rfl, rfl, rfl, by decide⟩
  · refine layout _ (.rel _ _ ?_)
    let note := " zsk".toList
    let back := "\nBwcHBwcHBwcHBwcHBwcHBwcHBwcH BwcHBwcHBwcHBwc= )".toList
    have same : splitText.toList =
        "k. IN 60 DNSKEY ( 256 3 15 ".toList ++ ';' :: (note ++ back) := by
      decide
    have whole : '\n' ∉ note := by decide
    have ends : ∀ c ∈ back.head?, c = '\n' := by
      intro c hc
      exact (Option.some.inj hc).symm
    rw [same]
    exact .comment whole ends

end ZoneCatalog.Dnskey
