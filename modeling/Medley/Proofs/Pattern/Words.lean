import Medley.Pattern.Grammar

/-!
# Words of patterns

The expressions that hold no other one, as a relation between their tokens and the collections that
they describe: sequences of numbers, tests of a property, words that are searched for, and references.
Which of them an expression is, its first token tells (`Pattern.simple_cons`), so the first alternative
that fits is the only one (`Pattern.simple_sound`, `Pattern.Simple.reads`).
-/

namespace Medley

namespace Pattern

/-! ## Words -/

/-- What one element of a sequence selects: a number, all numbers from one on, all numbers up to one, or
a range of numbers.  Bounds are inclusive, so that a number must have a neighbour to be one. -/
inductive Element (field : SequenceField) : List Char → Shape → Prop where
  | number {text : List Char} {value : Int64} (plain : '-' ∉ text)
      (reads : Text.readInt64? (String.ofList text) = some value) :
      Element field text (field.filter .equals (String.ofList text) everything)
  | since {first : List Char} {lower : Int64} (plain : '-' ∉ first)
      (reads : Text.readInt64? (String.ofList first) = some lower)
      (bounded : lower ≠ Int64.minValue) :
      Element field (first ++ ['-'])
        (field.filter .greater (Text.writeInt64 (lower - 1)) everything)
  | until {last : List Char} {upper : Int64}
      (reads : Text.readInt64? (String.ofList last) = some upper)
      (bounded : upper ≠ Int64.maxValue) :
      Element field ('-' :: last)
        (field.filter .smaller (Text.writeInt64 (upper + 1)) everything)
  | range {first last : List Char} {lower upper : Int64} (plain : '-' ∉ first)
      (readsLower : Text.readInt64? (String.ofList first) = some lower)
      (boundedLower : lower ≠ Int64.minValue)
      (readsUpper : Text.readInt64? (String.ofList last) = some upper)
      (boundedUpper : upper ≠ Int64.maxValue) :
      Element field (first ++ '-' :: last)
        (field.filter .smaller (Text.writeInt64 (upper + 1))
          (field.filter .greater (Text.writeInt64 (lower - 1)) everything))

/-- What the elements of a sequence select, between commas. -/
inductive Elements (field : SequenceField) : List Char → List Shape → Prop where
  | single {text : List Char} {shape : Shape} (plain : ',' ∉ text)
      (element : Element field text shape) : Elements field text [shape]
  | cons {text rest : List Char} {shape : Shape} {shapes : List Shape} (plain : ',' ∉ text)
      (element : Element field text shape) (others : Elements field rest shapes) :
      Elements field (text ++ ',' :: rest) (shape :: shapes)

/-- The property that a token names. -/
inductive Names : Token → String → Prop where
  | listed {token : Token} {letter : Char} {rest : List Char} {name : String}
      (short : token.kind = .propShort) (text : token.text.toList = letter :: rest)
      (listed : (letter, name) ∈ shortProperties) : Names token name
  | unlisted {token : Token} {letter : Char} {rest : List Char}
      (short : token.kind = .propShort) (text : token.text.toList = letter :: rest)
      (unlisted : ∀ name, (letter, name) ∉ shortProperties) : Names token token.text
  | long {token : Token} (long : token.kind = .propLong) : Names token token.text

/-- The tests of a property, with the kinds of their sign and of the word behind it. -/
inductive Tests : TokenKind → TokenKind → FilterTest → Prop where
  | equals : Tests .equals .string .equals
  | matches {word : TokenKind} (text : word.isText) : Tests .matches word .pattern
  | smaller : Tests .smaller .integer .smaller
  | smallerEq : Tests .smallerEq .integer .smallerEq
  | greater : Tests .greater .integer .greater
  | greaterEq : Tests .greaterEq .integer .greaterEq

theorem boundBelow?_eq_some {text : List Char} {bound : Int64} :
    boundBelow? text = some bound ↔ ∃ lower, Text.readInt64? (String.ofList text) = some lower ∧
      lower ≠ Int64.minValue ∧ bound = lower - 1 := by
  rw [boundBelow?, Option.bind_eq_some_iff]
  refine exists_congr fun lower => and_congr_right fun _ => ?_
  by_cases least : lower = Int64.minValue <;> simp [least, eq_comm]

theorem boundAbove?_eq_some {text : List Char} {bound : Int64} :
    boundAbove? text = some bound ↔ ∃ upper, Text.readInt64? (String.ofList text) = some upper ∧
      upper ≠ Int64.maxValue ∧ bound = upper + 1 := by
  rw [boundAbove?, Option.bind_eq_some_iff]
  refine exists_congr fun upper => and_congr_right fun _ => ?_
  by_cases most : upper = Int64.maxValue <;> simp [most, eq_comm]

/-- No number is written without a character. -/
theorem readInt64?_nil : Text.readInt64? (String.ofList []) = none := rfl

theorem sequenceElement?_eq_some {field : SequenceField} {text : List Char} {shape : Shape} :
    sequenceElement? field text = some shape ↔ Element field text shape := by
  constructor
  · intro reads
    unfold sequenceElement? at reads
    split at reads
    · next plain =>
      obtain ⟨value, number, rfl⟩ := Option.map_eq_some_iff.1 reads
      exact .number (Text.splitFirst?_eq_none_iff.1 plain) number
    · cases reads
    · next first _ split =>
      obtain ⟨rfl, plain⟩ := Text.eq_of_splitFirst? split
      obtain ⟨_, below, rfl⟩ := Option.map_eq_some_iff.1 reads
      obtain ⟨lower, number, bounded, rfl⟩ := boundBelow?_eq_some.1 below
      exact .since plain number bounded
    · next last _ split =>
      obtain ⟨rfl, -⟩ := Text.eq_of_splitFirst? split
      obtain ⟨_, above, rfl⟩ := Option.map_eq_some_iff.1 reads
      obtain ⟨upper, number, bounded, rfl⟩ := boundAbove?_eq_some.1 above
      exact .until number bounded
    · next first last _ _ _ split =>
      obtain ⟨rfl, plain⟩ := Text.eq_of_splitFirst? split
      obtain ⟨_, below, reads⟩ := Option.bind_eq_some_iff.1 reads
      obtain ⟨_, above, reads⟩ := Option.bind_eq_some_iff.1 reads
      obtain rfl := Option.some.inj reads
      obtain ⟨lower, numberLower, boundedLower, rfl⟩ := boundBelow?_eq_some.1 below
      obtain ⟨upper, numberUpper, boundedUpper, rfl⟩ := boundAbove?_eq_some.1 above
      exact .range plain numberLower boundedLower numberUpper boundedUpper
  · intro element
    cases element with
    | number plain reads =>
        rw [sequenceElement?, Text.splitFirst?_eq_none_iff.2 plain]
        simp [reads]
    | @since first lower plain reads bounded =>
        have below := boundBelow?_eq_some.2 ⟨lower, reads, bounded, rfl⟩
        rw [sequenceElement?, Text.splitFirst?_append plain]
        cases first with
        | nil => cases readInt64?_nil.symm.trans reads
        | cons => simp [below]
    | @«until» last upper reads bounded =>
        have above := boundAbove?_eq_some.2 ⟨upper, reads, bounded, rfl⟩
        rw [sequenceElement?, show '-' :: last = [] ++ '-' :: last from rfl,
          Text.splitFirst?_append List.not_mem_nil]
        cases last with
        | nil => cases readInt64?_nil.symm.trans reads
        | cons => simp [above]
    | @range first last lower upper plain readsLower boundedLower readsUpper boundedUpper =>
        have below := boundBelow?_eq_some.2 ⟨lower, readsLower, boundedLower, rfl⟩
        have above := boundAbove?_eq_some.2 ⟨upper, readsUpper, boundedUpper, rfl⟩
        rw [sequenceElement?, Text.splitFirst?_append plain]
        cases first with
        | nil => cases readInt64?_nil.symm.trans readsLower
        | cons =>
            cases last with
            | nil => cases readInt64?_nil.symm.trans readsUpper
            | cons => simp [below, above]

theorem elements_iff {field : SequenceField} {text : List Char} {shapes : List Shape} :
    (Text.splitAll ',' text).mapM (sequenceElement? field) = some shapes ↔
      Elements field text shapes := by
  constructor
  · intro reads
    induction length : text.length using Nat.strongRecOn generalizing text shapes with
    | ind size ih =>
        cases split : Text.splitFirst? ',' text with
        | none =>
            have plain := Text.splitFirst?_eq_none_iff.1 split
            rw [Text.splitAll_of_not_mem plain, List.mapM_cons, List.mapM_nil] at reads
            obtain ⟨shape, element, reads⟩ := Option.bind_eq_some_iff.1 reads
            obtain rfl := Option.some.inj reads
            exact .single plain (sequenceElement?_eq_some.1 element)
        | some sides =>
            obtain ⟨first, rest⟩ := sides
            obtain ⟨rfl, plain⟩ := Text.eq_of_splitFirst? split
            rw [Text.splitAll_append plain, List.mapM_cons] at reads
            obtain ⟨shape, element, reads⟩ := Option.bind_eq_some_iff.1 reads
            obtain ⟨others, readsRest, reads⟩ := Option.bind_eq_some_iff.1 reads
            obtain rfl := Option.some.inj reads
            refine .cons plain (sequenceElement?_eq_some.1 element) (ih rest.length ?_ readsRest rfl)
            rw [← length, List.length_append, List.length_cons]
            omega
  · intro elements
    induction elements with
    | single plain element =>
        rw [Text.splitAll_of_not_mem plain, List.mapM_cons, sequenceElement?_eq_some.2 element]
        rfl
    | cons plain element others ih =>
        rw [Text.splitAll_append plain, List.mapM_cons, sequenceElement?_eq_some.2 element, ih]
        rfl

theorem sequenceOf?_eq_some {field : SequenceField} {token : Token} {shape : Shape} :
    sequenceOf? field token = some shape ↔
      (token.kind = .integer ∨ token.kind = .sequence) ∧
        ∃ shapes, Elements field token.text.toList shapes ∧ shape = combine .union shapes := by
  unfold sequenceOf?
  split
  · next numbers =>
    rw [Option.map_eq_some_iff, and_iff_right numbers]
    exact exists_congr fun shapes => and_congr elements_iff eq_comm
  · next other => simp [other]

/-- A letter stands for at most one property. -/
theorem find?_shortProperties {letter : Char} {name : String}
    (listed : (letter, name) ∈ shortProperties) :
    shortProperties.find? (fun entry => entry.1 == letter) = some (letter, name) := by
  have each : ∀ entry ∈ shortProperties,
      shortProperties.find? (fun other => other.1 == entry.1) = some entry := by decide
  exact each (letter, name) listed

theorem propertyOf?_eq_some {token : Token} {name : String} :
    propertyOf? token = some name ↔ Names token name := by
  constructor
  · intro names
    unfold propertyOf? at names
    split at names
    · next short =>
      obtain ⟨letter, head, rfl⟩ := Option.map_eq_some_iff.1 names
      obtain ⟨rest, text⟩ := List.head?_eq_some_iff.1 head
      cases found : shortProperties.find? fun entry => entry.1 == letter with
      | none =>
          refine .unlisted short text fun name member => ?_
          rw [find?_shortProperties member] at found
          cases found
      | some entry =>
          have same : entry.1 = letter := by simpa using List.find?_some found
          exact .listed short text (same ▸ List.mem_of_find?_eq_some found)
    · next long =>
      obtain rfl := Option.some.inj names
      exact .long long
    · cases names
  · intro names
    cases names with
    | listed short text listed => simp [propertyOf?, short, text, find?_shortProperties listed]
    | @unlisted letter rest short text unlisted =>
        have absent : shortProperties.find? (fun entry => entry.1 == letter) = none := by
          refine List.find?_eq_none.2 fun entry member same => ?_
          obtain rfl : entry.1 = letter := by simpa using same
          exact unlisted entry.2 member
        simp [propertyOf?, short, text, absent]
    | long long => simp [propertyOf?, long]

theorem testOf?_eq_some {operator word : TokenKind} {test : FilterTest} :
    testOf? operator word = some test ↔ Tests operator word test := by
  constructor
  · intro tests
    unfold testOf? at tests
    split at tests <;> cases tests
    · exact .equals
    · exact .matches rfl
    · exact .matches rfl
    · exact .smaller
    · exact .greater
    · exact .smallerEq
    · exact .greaterEq
  · intro tests
    cases tests with
    | «matches» text => cases word <;> first | rfl | cases text
    | _ => rfl

/-! ## Expressions that hold no other -/

/-- What the tokens of an expression describe that holds no other expression. -/
inductive Simple (fields : List String) : List Token → Shape → Prop where
  | positions {token : Token} {shapes : List Shape}
      (numbers : token.kind = .integer ∨ token.kind = .sequence)
      (elements : Elements .position token.text.toList shapes) :
      Simple fields [token] (combine .union shapes)
  | ids {sign token : Token} {shapes : List Shape} (hash : sign.kind = .symbolId)
      (numbers : token.kind = .integer ∨ token.kind = .sequence)
      (elements : Elements .id token.text.toList shapes) :
      Simple fields [sign, token] (combine .union shapes)
  | presence {sign token : Token} {field : String} (plus : sign.kind = .has)
      (names : Names token field) : Simple fields [sign, token] (.has () field everything)
  | comparison {token operator word : Token} {field : String} {test : FilterTest}
      (names : Names token field) (tests : Tests operator.kind word.kind test) :
      Simple fields [token, operator, word]
        (.filter () (.filter test) field word.text everything)
  | everything {token : Token} (wild : token.kind = .pattern) (star : token.text = "*") :
      Simple fields [token] everything
  | word {token : Token} (plain : token.kind = .string) :
      Simple fields [token] (searchAll fields .token token.text)
  | wildcard {token : Token} (wild : token.kind = .pattern) (other : token.text ≠ "*") :
      Simple fields [token] (searchAll fields .pattern token.text)
  | equals {sign token : Token} (colon : sign.kind = .equals) (text : token.kind.isText) :
      Simple fields [sign, token] (searchAll fields .equals token.text)
  | matches {sign token : Token} (tilde : sign.kind = .matches) (text : token.kind.isText) :
      Simple fields [sign, token] (searchAll fields .pattern token.text)
  | reference {sign token : Token} (marks : sign.kind = .reference)
      (plain : token.kind = .string) : Simple fields [sign, token] (referenceTo token.text)

/-- The first token tells which alternative an expression can be. -/
theorem simple_cons (fields : List String) (first : Token) (rest : List Token) :
    simple fields (first :: rest) = match first.kind with
      | .integer | .sequence => positions (first :: rest)
      | .symbolId => ids (first :: rest)
      | .has => presence (first :: rest)
      | .propShort | .propLong => comparison (first :: rest)
      | .pattern => (loneStar (first :: rest)).or (search fields (first :: rest))
      | .string | .equals | .matches => search fields (first :: rest)
      | .reference => reference (first :: rest)
      | _ => none := by
  unfold simple
  cases kind : first.kind
  all_goals
    rcases rest with _ | ⟨second, _ | ⟨third, rest⟩⟩ <;>
      simp [positions, ids, presence, comparison, loneStar, search, reference, sequenceOf?,
        propertyOf?, TokenKind.isText, kind]

section Reading

variable {fields : List String} {tokens rest : List Token} {shape : Shape}

theorem positions_sound (reads : positions tokens = some (shape, rest)) :
    ∃ front, tokens = front ++ rest ∧ Simple fields front shape := by
  cases tokens with
  | nil => cases reads
  | cons token tokens =>
      obtain ⟨sequence, numbers, same⟩ := Option.map_eq_some_iff.1 reads
      obtain ⟨rfl, rfl⟩ := Prod.mk.inj same
      obtain ⟨kind, shapes, elements, rfl⟩ := sequenceOf?_eq_some.1 numbers
      exact ⟨[token], rfl, .positions kind elements⟩

theorem ids_sound (reads : ids tokens = some (shape, rest)) :
    ∃ front, tokens = front ++ rest ∧ Simple fields front shape := by
  unfold ids at reads
  split at reads
  · next sign token tokens =>
    split at reads
    · next hash =>
      obtain ⟨sequence, numbers, same⟩ := Option.map_eq_some_iff.1 reads
      obtain ⟨rfl, rfl⟩ := Prod.mk.inj same
      obtain ⟨kind, shapes, elements, rfl⟩ := sequenceOf?_eq_some.1 numbers
      exact ⟨[sign, token], rfl, .ids hash kind elements⟩
    · cases reads
  · cases reads

theorem presence_sound (reads : presence tokens = some (shape, rest)) :
    ∃ front, tokens = front ++ rest ∧ Simple fields front shape := by
  unfold presence at reads
  split at reads
  · next sign token tokens =>
    split at reads
    · next plus =>
      obtain ⟨field, names, same⟩ := Option.map_eq_some_iff.1 reads
      obtain ⟨rfl, rfl⟩ := Prod.mk.inj same
      exact ⟨[sign, token], rfl, .presence plus (propertyOf?_eq_some.1 names)⟩
    · cases reads
  · cases reads

theorem comparison_sound (reads : comparison tokens = some (shape, rest)) :
    ∃ front, tokens = front ++ rest ∧ Simple fields front shape := by
  unfold comparison at reads
  split at reads
  · next token operator word tokens =>
    obtain ⟨field, names, reads⟩ := Option.bind_eq_some_iff.1 reads
    obtain ⟨test, tests, reads⟩ := Option.bind_eq_some_iff.1 reads
    obtain ⟨rfl, rfl⟩ := Prod.mk.inj (Option.some.inj reads)
    exact ⟨[token, operator, word], rfl,
      .comparison (propertyOf?_eq_some.1 names) (testOf?_eq_some.1 tests)⟩
  · cases reads

theorem loneStar_sound (reads : loneStar tokens = some (shape, rest)) :
    ∃ front, tokens = front ++ rest ∧ Simple fields front shape := by
  unfold loneStar at reads
  split at reads
  · next token tokens =>
    split at reads
    · next star =>
      obtain ⟨rfl, rfl⟩ := Prod.mk.inj (Option.some.inj reads)
      exact ⟨[token], rfl, .everything star.1 star.2⟩
    · cases reads
  · cases reads

theorem search_sound (other : loneStar tokens = none)
    (reads : search fields tokens = some (shape, rest)) :
    ∃ front, tokens = front ++ rest ∧ Simple fields front shape := by
  cases tokens with
  | nil => cases reads
  | cons first tokens =>
      cases kind : first.kind with
      | string =>
          simp only [search, kind, TokenKind.isText, if_true] at reads
          obtain ⟨rfl, rfl⟩ := Prod.mk.inj (Option.some.inj reads)
          exact ⟨[first], rfl, .word kind⟩
      | pattern =>
          simp only [search, kind, TokenKind.isText, if_true] at reads
          obtain ⟨rfl, rfl⟩ := Prod.mk.inj (Option.some.inj reads)
          refine ⟨[first], rfl, .wildcard kind fun star => ?_⟩
          rw [loneStar, if_pos ⟨kind, star⟩] at other
          cases other
      | equals =>
          simp only [search, kind] at reads
          split at reads
          · next word tokens =>
            split at reads
            · next text =>
              obtain ⟨rfl, rfl⟩ := Prod.mk.inj (Option.some.inj reads)
              exact ⟨[first, word], rfl, .equals kind text⟩
            · cases reads
          · cases reads
      | «matches» =>
          simp only [search, kind] at reads
          split at reads
          · next word tokens =>
            split at reads
            · next text =>
              obtain ⟨rfl, rfl⟩ := Prod.mk.inj (Option.some.inj reads)
              exact ⟨[first, word], rfl, .matches kind text⟩
            · cases reads
          · cases reads
      | _ => simp [search, kind, TokenKind.isText] at reads

theorem reference_sound (reads : reference tokens = some (shape, rest)) :
    ∃ front, tokens = front ++ rest ∧ Simple fields front shape := by
  unfold reference at reads
  split at reads
  · next sign word tokens =>
    split at reads
    · next marked =>
      obtain ⟨rfl, rfl⟩ := Prod.mk.inj (Option.some.inj reads)
      exact ⟨[sign, word], rfl, .reference marked.1 marked.2⟩
    · cases reads
  · cases reads

theorem simple_sound (reads : simple fields tokens = some (shape, rest)) :
    ∃ front, tokens = front ++ rest ∧ Simple fields front shape := by
  simp only [simple, Option.or_eq_some_iff] at reads
  rcases reads with reads | ⟨-, reads | ⟨-, reads | ⟨-, reads | ⟨-, reads | ⟨other, reads |
    ⟨-, reads⟩⟩⟩⟩⟩⟩
  · exact positions_sound reads
  · exact ids_sound reads
  · exact presence_sound reads
  · exact comparison_sound reads
  · exact loneStar_sound reads
  · exact search_sound other reads
  · exact reference_sound reads

/-- An expression that holds no other is read whatever is behind it. -/
theorem Simple.reads (derives : Simple fields tokens shape) (rest : List Token) :
    simple fields (tokens ++ rest) = some (shape, rest) := by
  cases derives with
  | @positions token shapes numbers elements =>
      have sequence := sequenceOf?_eq_some.2 ⟨numbers, shapes, elements, rfl⟩
      rw [List.cons_append, simple_cons]
      rcases numbers with kind | kind <;> simp [kind, Pattern.positions, sequence]
  | @ids sign token shapes hash numbers elements =>
      have sequence := sequenceOf?_eq_some.2 ⟨numbers, shapes, elements, rfl⟩
      rw [List.cons_append, simple_cons]
      simp [hash, Pattern.ids, sequence]
  | presence plus names =>
      have property := propertyOf?_eq_some.2 names
      rw [List.cons_append, simple_cons]
      simp [plus, Pattern.presence, property]
  | comparison names tests =>
      have property := propertyOf?_eq_some.2 names
      have tested := testOf?_eq_some.2 tests
      rw [List.cons_append, simple_cons]
      cases names with
      | listed short => simp [short, Pattern.comparison, property, tested]
      | unlisted short => simp [short, Pattern.comparison, property, tested]
      | long long => simp [long, Pattern.comparison, property, tested]
  | everything wild star =>
      rw [List.cons_append, simple_cons]
      simp [wild, star, loneStar]
  | word plain =>
      rw [List.cons_append, simple_cons]
      simp [plain, search, TokenKind.isText]
  | wildcard wild other =>
      rw [List.cons_append, simple_cons]
      simp [wild, other, loneStar, search, TokenKind.isText]
  | equals colon text =>
      rw [List.cons_append, simple_cons]
      simp [colon, text, search]
  | «matches» tilde text =>
      rw [List.cons_append, simple_cons]
      simp [tilde, text, search]
  | reference marks plain =>
      rw [List.cons_append, simple_cons]
      simp [marks, plain, Pattern.reference]

end Reading

end Pattern

end Medley
