import Mathlib.Data.List.Chain
import Medley.Proofs.Pattern.Derivations
import Medley.Proofs.Tree.Validity

/-!
# Rules of parsed patterns

Parsing writes the attributes that the kinds ask for, but it does not look at two of them: the number
that a property is compared with may be too large, and a reference may name a namespace that there is
not.  Both are words behind a sign, so they can be told from neighbouring tokens.  A parsed collection
keeps the rules of its kinds exactly if each word is right behind its sign
(`Pattern.validate_parse`).
-/

namespace Medley

namespace Tree

/-- The rules of a filter ask for an integer where its test compares by magnitude or looks for an
id. -/
theorem validate_unary_filter {operator : Operator} {operand : Shape} (test : FilterTest)
    (field : Field) (value : String) (kind : operator.kind = .filter test)
    (compared : operator.attributes.get? Key.value = some value)
    (looks : operator.filterField = .ok field)
    (plain : operator.attributes.get? Key.caseSensitive = none) :
    (Tree.unary () operator operand).validate = .ok () ↔
      (Operator.needsInteger test field → (Text.readInt64? value).isSome) ∧
        operand.validate = .ok () := by
  rw [Tree.unary, validate_node]
  refine and_congr ?_ (by simp)
  simp only [Operator.view, kind, Operator.oneOperand, Operator.require, compared, looks,
    Operator.caseSensitivity, plain]
  cases needs : Operator.needsInteger test field <;> cases reads : Text.readInt64? value <;>
    simp [bind, Except.bind, pure, Except.pure, Operator.badValue, fail, View.Refers, needs,
      reads]

end Tree

namespace Pattern

open Medley.Tree

section Shapes

variable {operand : Shape} {shapes : List Shape}

theorem validate_everything : everything.validate = .ok () := rfl

theorem validate_filter {test : FilterTest} {field value : String} :
    (Tree.filter () (.filter test) field value operand).validate = .ok () ↔
      (test.isNumeric → (Text.readInt64? value).isSome) ∧ operand.validate = .ok () := by
  rw [Tree.filter, validate_unary_filter test (.property field) value]
  · simp [Operator.needsInteger]
  · rfl
  · simp [Operator.get?_withAttributes]
  · simp [Operator.filterField, Operator.require, Operator.get?_withAttributes, Key.type, Key.field,
      Key.value, Except.map]
  · simp [Operator.get?_withAttributes, Key.caseSensitive, Key.field, Key.value]

/-- Sequences compare with numbers only. -/
theorem SequenceField.validate_filter (field : SequenceField) {test : FilterTest} {value : String}
    (number : (Text.readInt64? value).isSome) :
    (field.filter test value operand).validate = .ok () ↔ operand.validate = .ok () := by
  cases field with
  | position =>
      rw [SequenceField.filter, validate_unary_filter test (.property "position") value]
      · simp [number]
      · rfl
      · simp [Operator.get?_withAttributes, Key.field, Key.value]
      · simp [Operator.filterField, Operator.require, Operator.get?_withAttributes, Key.type,
          Key.field, Key.value, Except.map]
      · simp [Operator.get?_withAttributes, Key.caseSensitive, Key.field, Key.value]
  | id =>
      rw [SequenceField.filter, validate_unary_filter test .id value]
      · simp [number]
      · rfl
      · simp [Operator.get?_withAttributes, Key.type, Key.value]
      · simp [Operator.filterField, Operator.get?_withAttributes, Key.type]
      · simp [Operator.get?_withAttributes, Key.caseSensitive, Key.type, Key.value]

theorem validate_has {field : String} : (Tree.has () field everything).validate = .ok () := by
  rw [Tree.has, Tree.unary, validate_node]
  simp [Operator.view, Operator.withAttributes, Operator.oneOperand, Operator.require,
    SortedMap.ofList, bind, Except.bind, pure, Except.pure, View.Refers, validate_everything]

theorem validate_complement :
    (Tree.unary () { kind := .complement } operand).validate = .ok () ↔
      operand.validate = .ok () := by
  rw [Tree.unary, validate_node]
  simp [Operator.view, Operator.oneOperand, bind, Except.bind, pure, Except.pure, View.Refers]

/-- Whether an operator of a kind that joins operands is valid depends on its operands. -/
theorem validate_node_of_chain {kind : Kind} (joins : kind = .union ∨ kind = .intersection)
    (some : shapes ≠ []) :
    (Tree.node () { kind } shapes).validate = .ok () ↔
      ∀ shape ∈ shapes, shape.validate = .ok () := by
  rw [validate_node, and_iff_right_iff_imp]
  intro _
  obtain ⟨first, others, rfl⟩ := List.exists_cons_of_ne_nil some
  rcases joins with rfl | rfl
  · exact ⟨.union (first :: others), rfl, trivial⟩
  · exact ⟨.intersection (first :: others), rfl, trivial⟩

theorem validate_combine {kind : Kind} (joins : kind = .union ∨ kind = .intersection)
    (some : shapes ≠ []) :
    (combine kind shapes).validate = .ok () ↔ ∀ shape ∈ shapes, shape.validate = .ok () := by
  unfold combine
  split
  · next shape => simp
  · exact validate_node_of_chain joins some

theorem validate_searchAll {fields : List String} {test : FilterTest} {value : String}
    (some : fields ≠ []) (words : test.isNumeric = false) :
    (searchAll fields test value).validate = .ok () := by
  rw [searchAll, validate_node_of_chain (.inl rfl) (by simpa using some)]
  intro shape member
  obtain ⟨field, -, rfl⟩ := List.mem_map.1 member
  rw [validate_filter, words]
  exact ⟨nofun, validate_everything⟩

/-- Elements of sequences are valid: they write the numbers that they compare with. -/
theorem Element.valid {field : SequenceField} {text : List Char} {shape : Shape}
    (element : Element field text shape) : shape.validate = .ok () := by
  cases element with
  | number plain reads =>
      exact (field.validate_filter (by rw [reads]; rfl)).2 validate_everything
  | since plain reads bounded => exact (field.validate_filter (by simp)).2 validate_everything
  | «until» reads bounded => exact (field.validate_filter (by simp)).2 validate_everything
  | range plain readsLower boundedLower readsUpper boundedUpper =>
      rw [field.validate_filter (by simp), field.validate_filter (by simp)]
      exact validate_everything

theorem Elements.valid {field : SequenceField} {text : List Char}
    (elements : Elements field text shapes) :
    shapes ≠ [] ∧ ∀ shape ∈ shapes, shape.validate = .ok () := by
  induction elements with
  | single plain element => simpa using element.valid
  | cons plain element others ih => simpa using ⟨element.valid, ih.2⟩

/-- A sequence of numbers is a valid collection. -/
theorem Elements.validate_union {field : SequenceField} {text : List Char}
    (elements : Elements field text shapes) : (combine .union shapes).validate = .ok () :=
  (validate_combine (.inl rfl) elements.valid.1).2 elements.valid.2

/-- Whether the namespace that a word writes before a name is one, unless it leaves it out or refers to
the whole library. -/
def KnownSpace (word : String) : Prop :=
  ∀ space name, Text.splitFirst? '/' word.toList = some (space, name) → space ≠ [] →
    String.ofList name ≠ allMedia → ∃ known : Namespace, String.ofList space = known.name

theorem validate_leaf_reference {space name : String} :
    (Tree.leaf () (.withAttributes .reference [(Key.space, space), (Key.reference, name)])).validate =
        .ok () ↔
      (name ≠ allMedia → ∃ known : Namespace, space = known.name) := by
  generalize written : Operator.withAttributes .reference
    [(Key.space, space), (Key.reference, name)] = operator
  have kind : operator.kind = .reference := written ▸ rfl
  have named : operator.attributes.get? Key.reference = some name := by
    simp [← written, Operator.get?_withAttributes]
  have spaced : operator.attributes.get? Key.space = some space := by
    simp [← written, Operator.get?_withAttributes, Key.space, Key.reference]
  simp [Tree.leaf, validate_node, Operator.view_reference_eq_ok kind, named, spaced,
    Namespace.read_eq_ok, View.Refers]

theorem validate_referenceTo {word : String} :
    (referenceTo word).validate = .ok () ↔ KnownSpace word := by
  have default : ∃ known : Namespace, defaultSpace = known.name := ⟨.collections, rfl⟩
  unfold referenceTo KnownSpace
  cases Text.splitFirst? '/' word.toList with
  | none => simpa [validate_leaf_reference] using fun _ => default
  | some sides =>
      obtain ⟨space, name⟩ := sides
      cases space with
      | nil => simpa [validate_leaf_reference] using fun _ => default
      | cons first others => simp [validate_leaf_reference]

end Shapes

/-! ## Words behind signs -/

/-- Whether a reference names a namespace that there is. -/
def Locates (sign word : Token) : Prop := sign.kind = .reference → KnownSpace word.text

/-- Whether a property is compared by magnitude with a number that 64 bits hold. -/
def Measures (sign number : Token) : Prop :=
  sign.kind.isComparison → (Text.readInt64? number.text).isSome

/-- Whether a word is right behind a sign. -/
def Suits (sign word : Token) : Prop := Locates sign word ∧ Measures sign word

/-- Whether a kind of token takes any word behind it. -/
def TokenKind.isFree (kind : TokenKind) : Bool := kind != .reference && !kind.isComparison

/-- Whether some tokens, whose last one takes any word behind it, say by their words whether something
is valid. -/
structure Judges (tokens : List Token) (valid : Prop) : Prop where
  ends : ∀ last ∈ tokens.getLast?, last.kind.isFree
  decides : valid ↔ tokens.IsChain Suits

section Judging

variable {tokens rest : List Token} {valid also : Prop}

theorem Suits.of_isFree {sign word : Token} (free : sign.kind.isFree) : Suits sign word := by
  constructor
  · intro reference
    simp [reference, TokenKind.isFree] at free
  · intro comparison
    simp [comparison, TokenKind.isFree] at free

theorem Judges.congr (judges : Judges tokens valid) (same : also ↔ valid) : Judges tokens also :=
  ⟨judges.ends, same.trans judges.decides⟩

theorem Judges.single {token : Token} (free : token.kind.isFree) : Judges [token] True where
  ends := by simpa using free
  decides := by simp

theorem Judges.pair {sign word : Token} (free : word.kind.isFree) :
    Judges [sign, word] (Suits sign word) where
  ends := by simpa using free
  decides := by simp

theorem Judges.append (left : Judges tokens valid) (right : Judges rest also) :
    Judges (tokens ++ rest) (valid ∧ also) where
  ends last member := by
    rw [List.getLast?_append, Option.mem_def, Option.or_eq_some_iff] at member
    rcases member with here | ⟨-, there⟩
    · exact right.ends last here
    · exact left.ends last there
  decides := by
    rw [List.isChain_append, left.decides, right.decides]
    have seam : ∀ last ∈ tokens.getLast?, ∀ first ∈ rest.head?, Suits last first :=
      fun last member first _ => .of_isFree (left.ends last member)
    rw [and_iff_left seam]

theorem Judges.cons {token : Token} (free : token.kind.isFree) (judges : Judges tokens valid) :
    Judges (token :: tokens) valid :=
  ((single free).append judges).congr (iff_of_eq (true_and valid)).symm

end Judging

section Judged

variable {fields : List String} {derives : List Token → Shape → Prop} {bound : Nat}
  {tokens : List Token} {shape : Shape} {shapes : List Shape}

/-- Whether tokens of a number that is bounded judge the shapes that are derived from them. -/
def JudgesWithin (derives : List Token → Shape → Prop) (bound : Nat) : Prop :=
  ∀ {tokens shape}, derives tokens shape → tokens.length ≤ bound →
    Judges tokens (shape.validate = .ok ())

theorem Alternatives.ne_nil (chain : Alternatives derives tokens shapes) : shapes ≠ [] := by
  cases chain <;> exact List.cons_ne_nil _ _

theorem Conjuncts.ne_nil (operation : Conjuncts derives tokens shapes) : shapes ≠ [] := by
  cases operation <;> exact List.cons_ne_nil _ _

theorem Alternatives.judges (below : JudgesWithin derives bound)
    (chain : Alternatives derives tokens shapes) (short : tokens.length ≤ bound) :
    Judges tokens ((combine .union shapes).validate = .ok ()) := by
  refine Judges.congr ?_ (validate_combine (.inl rfl) chain.ne_nil)
  induction chain with
  | single derives => exact (below derives short).congr (by simp)
  | or derives joins others ih =>
      rw [List.length_append, List.length_cons] at short
      have first := below derives (by omega)
      have rest := (ih (by omega)).cons (by rw [joins]; rfl)
      exact (first.append rest).congr (by simp)

theorem Conjuncts.judges (below : JudgesWithin derives bound)
    (operation : Conjuncts derives tokens shapes) (short : tokens.length ≤ bound) :
    Judges tokens ((combine .intersection shapes).validate = .ok ()) := by
  refine Judges.congr ?_ (validate_combine (.inr rfl) operation.ne_nil)
  induction operation with
  | single chain => exact (chain.judges below short).congr (by simp)
  | beside chain more ih =>
      rw [List.length_append] at short
      have first := chain.judges below (by omega)
      have rest := ih (by omega)
      exact (first.append rest).congr (by simp)
  | and chain joins more ih =>
      rw [List.length_append, List.length_cons] at short
      have first := chain.judges below (by omega)
      have rest := (ih (by omega)).cons (by rw [joins]; rfl)
      exact (first.append rest).congr (by simp)

theorem Names.isFree {token : Token} {name : String} (names : Names token name) :
    token.kind.isFree := by
  cases names with
  | listed short => rw [short]; rfl
  | unlisted short => rw [short]; rfl
  | long long => rw [long]; rfl

theorem TokenKind.isFree_of_isText {kind : TokenKind} (text : kind.isText) : kind.isFree := by
  cases kind <;> first | rfl | cases text

theorem Tests.isFree {operator word : TokenKind} {test : FilterTest}
    (tests : Tests operator word test) : word.isFree := by
  cases tests with
  | «matches» text => exact TokenKind.isFree_of_isText text
  | _ => rfl

/-- A test asks for a number exactly if its sign does. -/
theorem Tests.isNumeric {operator word : TokenKind} {test : FilterTest}
    (tests : Tests operator word test) : test.isNumeric = operator.isComparison := by
  cases tests <;> rfl

theorem Tests.ne_reference {operator word : TokenKind} {test : FilterTest}
    (tests : Tests operator word test) : operator ≠ .reference := by
  cases tests <;> nofun

/-- The words of an expression that holds no other decide whether it is valid. -/
theorem Simple.judges (searched : fields ≠ []) (simple : Simple fields tokens shape) :
    Judges tokens (shape.validate = .ok ()) := by
  cases simple with
  | positions numbers elements =>
      refine (Judges.single ?_).congr (iff_true_intro elements.validate_union)
      rcases numbers with kind | kind <;> rw [kind] <;> rfl
  | ids hash numbers elements =>
      refine ((Judges.single ?_).cons ?_).congr (iff_true_intro elements.validate_union)
      · rcases numbers with kind | kind <;> rw [kind] <;> rfl
      · rw [hash]; rfl
  | presence plus names =>
      refine ((Judges.single names.isFree).cons ?_).congr (iff_true_intro validate_has)
      rw [plus]; rfl
  | @comparison token operator word field test names tests =>
      refine ((Judges.pair tests.isFree).cons names.isFree).congr ?_
      rw [validate_filter, and_iff_left validate_everything, tests.isNumeric, Suits, Locates,
        Measures, and_iff_right (fun reference => absurd reference tests.ne_reference)]
  | everything wild star =>
      refine (Judges.single ?_).congr (iff_true_intro validate_everything)
      rw [wild]; rfl
  | word plain =>
      refine (Judges.single ?_).congr (iff_true_intro (validate_searchAll searched rfl))
      rw [plain]; rfl
  | wildcard wild other =>
      refine (Judges.single ?_).congr (iff_true_intro (validate_searchAll searched rfl))
      rw [wild]; rfl
  | equals colon text =>
      refine ((Judges.single (TokenKind.isFree_of_isText text)).cons ?_).congr
        (iff_true_intro (validate_searchAll searched rfl))
      rw [colon]; rfl
  | «matches» tilde text =>
      refine ((Judges.single (TokenKind.isFree_of_isText text)).cons ?_).congr
        (iff_true_intro (validate_searchAll searched rfl))
      rw [tilde]; rfl
  | reference marks plain =>
      refine (Judges.pair (by rw [plain]; rfl)).congr ?_
      simp [validate_referenceTo, Suits, Locates, Measures, marks, TokenKind.isComparison]

theorem expression_judges (searched : fields ≠ []) (bound : Nat) :
    JudgesWithin (Expression fields) bound := by
  induction bound with
  | zero =>
      intro tokens shape derives short
      have := derives.starts.length_pos
      omega
  | succ bound ih =>
      intro tokens shape derives short
      cases derives with
      | simple simple => exact simple.judges searched
      | group opens operation closes =>
          simp only [List.length_cons, List.length_append, List.length_nil] at short
          have inner := operation.judges ih (by omega)
          have last : Judges [_] True := .single (by rw [closes]; rfl)
          exact ((inner.append last).cons (by rw [opens]; rfl)).congr (iff_of_eq (and_true _).symm)
      | negation excludes operand =>
          rw [List.length_cons] at short
          exact ((ih operand (by omega)).cons (by rw [excludes]; rfl)).congr validate_complement

end Judged

theorem isChain_suits {tokens : List Token} :
    tokens.IsChain Suits ↔ tokens.IsChain Locates ∧ tokens.IsChain Measures := by
  simp only [List.isChain_iff_forall_rel_of_append_cons_cons, Suits]
  constructor
  · intro suits
    exact ⟨fun _ _ _ _ split => (suits split).1, fun _ _ _ _ split => (suits split).2⟩
  · rintro ⟨locates, measures⟩ _ _ _ _ split
    exact ⟨locates split, measures split⟩

/-- The collection of a pattern keeps the rules of its kinds exactly if its references name namespaces
that there are and it compares with numbers that 64 bits hold. -/
theorem validate_parse {fields : List String} {pattern : String} {shape : Shape}
    (searched : fields ≠ []) (parsed : parse fields pattern = .ok shape) :
    shape.validate = .ok () ↔
      (settle (tokenize pattern).1).IsChain Locates ∧
        (settle (tokenize pattern).1).IsChain Measures := by
  rw [← isChain_suits]
  unfold parse at parsed
  split at parsed
  · cases parsed
  · next tokens read =>
    rw [read]
    obtain ⟨shapes, operation, rfl⟩ := (build_eq_ok_iff ..).1 parsed
    have judges := operation.judges (expression_judges searched _) (Nat.le_refl _)
    exact judges.decides

/-- A number that 64 bits do not hold is read as one but not accepted. -/
theorem validate_parse_beyond_range :
    ∃ shape, parse ["artist"] "year>9223372036854775808" = .ok shape ∧
      shape.validate ≠ .ok () := by
  have parsed : parse ["artist"] "year>9223372036854775808" =
      .ok (.filter () (.filter .greater) "year" "9223372036854775808" everything) := rfl
  have tokens : settle (tokenize "year>9223372036854775808").1 =
      [⟨.propLong, "year", 0⟩, ⟨.greater, "", 4⟩, ⟨.integer, "9223372036854775808", 5⟩] := by
    decide +kernel
  have unread : Text.readInt64? "9223372036854775808" = none := by decide +kernel
  refine ⟨_, parsed, fun valid => ?_⟩
  obtain ⟨-, measures⟩ := (validate_parse (List.cons_ne_nil "artist" []) parsed).1 valid
  rw [tokens, List.isChain_cons_cons, List.isChain_pair] at measures
  have measured := measures.2 rfl
  rw [unread] at measured
  cases measured

end Pattern
end Medley
