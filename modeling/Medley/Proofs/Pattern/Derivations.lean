import Medley.Proofs.Pattern.Words

/-!
# Derivations of patterns

The grammar of patterns as a relation: which tokens make an expression, a chain of alternatives or an
operation, and the collection that they then describe.  No expression starts with a token that stands
between expressions, and none is the beginning of another one, so a chain that goes on for as long as it
can loses no derivation.  Tokens are built into a collection exactly if they derive it
(`Pattern.build_eq_ok_iff`).
-/

namespace Medley

namespace Pattern

/-! ## Chains -/

/-- The shapes that a chain of alternatives joins, by what its expressions describe. -/
inductive Alternatives (expression : List Token → Shape → Prop) :
    List Token → List Shape → Prop where
  | single {tokens : List Token} {shape : Shape} (derives : expression tokens shape) :
      Alternatives expression tokens [shape]
  | or {tokens rest : List Token} {sign : Token} {shape : Shape} {shapes : List Shape}
      (derives : expression tokens shape) (joins : sign.kind = .or)
      (others : Alternatives expression rest shapes) :
      Alternatives expression (tokens ++ sign :: rest) (shape :: shapes)

/-- The shapes that an operation intersects, by what its expressions describe. -/
inductive Conjuncts (expression : List Token → Shape → Prop) :
    List Token → List Shape → Prop where
  | single {tokens : List Token} {shapes : List Shape}
      (chain : Alternatives expression tokens shapes) :
      Conjuncts expression tokens [combine .union shapes]
  | beside {tokens rest : List Token} {shapes others : List Shape}
      (chain : Alternatives expression tokens shapes) (more : Conjuncts expression rest others) :
      Conjuncts expression (tokens ++ rest) (combine .union shapes :: others)
  | and {tokens rest : List Token} {sign : Token} {shapes others : List Shape}
      (chain : Alternatives expression tokens shapes) (joins : sign.kind = .and)
      (more : Conjuncts expression rest others) :
      Conjuncts expression (tokens ++ sign :: rest) (combine .union shapes :: others)

/-- What the tokens of an expression describe. -/
inductive Expression (fields : List String) : List Token → Shape → Prop where
  | simple {tokens : List Token} {shape : Shape} (simple : Simple fields tokens shape) :
      Expression fields tokens shape
  | group {opening closing : Token} {tokens : List Token} {shapes : List Shape}
      (opens : opening.kind = .groupOpen) (operation : Conjuncts (Expression fields) tokens shapes)
      (closes : closing.kind = .groupClose) :
      Expression fields (opening :: (tokens ++ [closing])) (combine .intersection shapes)
  | negation {sign : Token} {tokens : List Token} {shape : Shape} (excludes : sign.kind = .not)
      (operand : Expression fields tokens shape) :
      Expression fields (sign :: tokens) (.unary () { kind := .complement } shape)

/-- What the tokens of an operation describe. -/
def Operation (fields : List String) (tokens : List Token) (shape : Shape) : Prop :=
  ∃ shapes, Conjuncts (Expression fields) tokens shapes ∧ shape = combine .intersection shapes

/-- Whether a kind of token stands between expressions or behind one, never at the start of one. -/
def TokenKind.isJoint : TokenKind → Bool
  | .or | .and | .groupClose => true
  | _ => false

/-- What starts with a token that can be the first of an expression. -/
def Starts (tokens : List Token) : Prop :=
  ∃ first rest, tokens = first :: rest ∧ first.kind.isJoint = false

/-- Whether a phrase reads what is derived from tokens of a number that is bounded, whatever is behind
them. -/
def ReadsWithin (phrase : Phrase) (derives : List Token → Shape → Prop) (bound : Nat) : Prop :=
  ∀ {tokens shape} rest, derives tokens shape → tokens.length ≤ bound →
    phrase (tokens ++ rest) = some (shape, rest)

/-- Whether what a phrase reads is derived. -/
def Derived (phrase : Phrase) (derives : List Token → Shape → Prop) : Prop :=
  ∀ {tokens shape rest}, phrase tokens = some (shape, rest) →
    ∃ front, tokens = front ++ rest ∧ derives front shape

section Chains

variable {phrase : Phrase} {derives : List Token → Shape → Prop} {bound : Nat}
  {tokens rest : List Token} {shapes : List Shape}

theorem Starts.append (starts : Starts tokens) (rest : List Token) : Starts (tokens ++ rest) := by
  obtain ⟨first, others, rfl, kind⟩ := starts
  exact ⟨first, others ++ rest, rfl, kind⟩

theorem Starts.length_pos (starts : Starts tokens) : 0 < tokens.length := by
  obtain ⟨first, others, rfl, -⟩ := starts
  exact Nat.succ_pos _

theorem Starts.head?_ne_or (starts : Starts tokens) : tokens.head?.map Token.kind ≠ some .or := by
  obtain ⟨first, others, rfl, kind⟩ := starts
  intro or
  rw [Option.some.inj or] at kind
  cases kind

theorem Starts.skipAnd (starts : Starts tokens) : skipAnd tokens = tokens := by
  obtain ⟨first, others, rfl, kind⟩ := starts
  refine if_neg fun and => ?_
  rw [and] at kind
  cases kind

theorem alternatives_stop (budget : Nat) (stops : rest.head?.map Token.kind ≠ some .or) :
    alternatives phrase budget rest = ([], rest) := by
  cases budget with
  | zero => rfl
  | succ budget =>
      cases rest with
      | nil => rfl
      | cons next rest => exact if_neg fun or => stops (congrArg some or)

section Completeness

variable (complete : ReadsWithin phrase derives bound)
  (opens : ∀ {tokens shape}, derives tokens shape → Starts tokens)

include opens

theorem Alternatives.starts (chain : Alternatives derives tokens shapes) : Starts tokens := by
  cases chain with
  | single first => exact opens first
  | or first joins others => exact (opens first).append _

theorem Conjuncts.starts (operation : Conjuncts derives tokens shapes) : Starts tokens := by
  cases operation with
  | single chain => exact chain.starts opens
  | beside chain more => exact (chain.starts opens).append _
  | and chain joins more => exact (chain.starts opens).append _

include complete

/-- A chain of alternatives is read up to its end if no other one is behind it. -/
theorem Alternatives.reads (chain : Alternatives derives tokens shapes)
    (short : tokens.length ≤ bound) (stops : rest.head?.map Token.kind ≠ some .or) :
    ∃ first others left, shapes = first :: others ∧ phrase (tokens ++ rest) = some (first, left) ∧
      left.length < tokens.length + rest.length ∧
      ∀ budget, left.length ≤ budget → alternatives phrase budget left = (others, rest) := by
  induction chain with
  | @single tokens shape first =>
      have consumes := (opens first).length_pos
      exact ⟨shape, [], rest, rfl, complete rest first short, by omega,
        fun budget _ => alternatives_stop budget stops⟩
  | @or tokens more sign shape shapes first joins others ih =>
      rw [List.length_append, List.length_cons] at short
      obtain ⟨next, rejoined, left, rfl, readsNext, shorter, continues⟩ := ih (by omega)
      have readsFirst := complete (sign :: (more ++ rest)) first (by omega)
      refine ⟨shape, next :: rejoined, sign :: (more ++ rest), rfl, ?_, ?_, fun budget enough => ?_⟩
      · rw [List.append_assoc, List.cons_append, readsFirst]
      · have consumes := (opens first).length_pos
        simp only [List.length_append, List.length_cons]
        omega
      · cases budget with
        | zero => cases enough
        | succ budget =>
            simp only [List.length_append, List.length_cons] at enough
            rw [alternatives, if_pos joins, readsNext]
            simp only [continues budget (by omega)]

theorem Alternatives.orChain_eq (chain : Alternatives derives tokens shapes)
    (short : tokens.length ≤ bound) (stops : rest.head?.map Token.kind ≠ some .or) :
    orChain phrase (tokens ++ rest) = some (combine .union shapes, rest) := by
  obtain ⟨first, others, left, rfl, readsFirst, -, continues⟩ :=
    chain.reads complete opens short stops
  simp [orChain, readsFirst, continues left.length (Nat.le_refl _)]

/-- An operation is read up to its end if neither another alternative nor another operand is behind
it. -/
theorem Conjuncts.reads (operation : Conjuncts derives tokens shapes)
    (short : tokens.length ≤ bound) (stops : rest.head?.map Token.kind ≠ some .or)
    (ends : orChain phrase (skipAnd rest) = none) :
    ∃ first others left, shapes = first :: others ∧
      orChain phrase (tokens ++ rest) = some (first, left) ∧
      left.length < tokens.length + rest.length ∧
      ∀ budget, left.length ≤ budget → conjuncts phrase budget left = (others, rest) := by
  induction operation with
  | @single tokens shapes chain =>
      have consumes := (chain.starts opens).length_pos
      refine ⟨_, [], rest, rfl, chain.orChain_eq complete opens short stops, by omega,
        fun budget _ => ?_⟩
      cases budget with
      | zero => rfl
      | succ budget => simp only [conjuncts, ends]
  | @beside tokens more shapes others chain operation ih =>
      rw [List.length_append] at short
      have consumes := (chain.starts opens).length_pos
      have begins := (operation.starts opens).append rest
      obtain ⟨next, others, left, rfl, readsNext, shorter, continues⟩ := ih (by omega)
      refine ⟨_, _, more ++ rest, rfl, ?_, ?_, fun budget enough => ?_⟩
      · rw [List.append_assoc]
        exact chain.orChain_eq complete opens (by omega) begins.head?_ne_or
      · simp only [List.length_append]
        omega
      · rw [List.length_append] at enough
        cases budget with
        | zero =>
            have := (operation.starts opens).length_pos
            omega
        | succ budget =>
            simp only [conjuncts, begins.skipAnd, readsNext, continues budget (by omega)]
  | @and tokens more sign shapes others chain joins operation ih =>
      rw [List.length_append, List.length_cons] at short
      have consumes := (chain.starts opens).length_pos
      obtain ⟨next, others, left, rfl, readsNext, shorter, continues⟩ := ih (by omega)
      refine ⟨_, _, sign :: (more ++ rest), rfl, ?_, ?_, fun budget enough => ?_⟩
      · rw [List.append_assoc]
        refine chain.orChain_eq complete opens (by omega) fun or => ?_
        cases joins.symm.trans (Option.some.inj or)
      · simp only [List.length_append, List.length_cons]
        omega
      · simp only [List.length_append, List.length_cons] at enough
        cases budget with
        | zero => omega
        | succ budget =>
            have skips : skipAnd (sign :: (more ++ rest)) = more ++ rest := if_pos joins
            simp only [conjuncts, skips, readsNext, continues budget (by omega)]

theorem Conjuncts.operation_eq (operation : Conjuncts derives tokens shapes)
    (short : tokens.length ≤ bound) (stops : rest.head?.map Token.kind ≠ some .or)
    (ends : orChain phrase (skipAnd rest) = none) :
    Pattern.operation phrase (tokens ++ rest) = some (combine .intersection shapes, rest) := by
  obtain ⟨first, others, left, rfl, readsFirst, -, continues⟩ :=
    operation.reads complete opens short stops ends
  simp [Pattern.operation, readsFirst, continues left.length (Nat.le_refl _)]

end Completeness

/-- What stands behind a sign that may be left out. -/
theorem skipAnd_cases (tokens : List Token) :
    skipAnd tokens = tokens ∨ ∃ sign, sign.kind = .and ∧ tokens = sign :: skipAnd tokens := by
  cases tokens with
  | nil => exact .inl rfl
  | cons sign rest =>
      rw [skipAnd]
      split
      · next and => exact .inr ⟨sign, and, rfl⟩
      · exact .inl rfl

/-- A chain of alternatives is an operand of an operation, whether or not a sign stands before the
next one. -/
theorem Conjuncts.cons {after more : List Token} {others : List Shape}
    (chain : Alternatives derives tokens shapes) (next : skipAnd after = more ++ rest)
    (operation : Conjuncts derives more others) :
    ∃ joined, tokens ++ after = joined ++ rest ∧
      Conjuncts derives joined (combine .union shapes :: others) := by
  rcases skipAnd_cases after with same | ⟨sign, and, same⟩
  · refine ⟨tokens ++ more, ?_, .beside chain operation⟩
    rw [List.append_assoc, ← next, same]
  · refine ⟨tokens ++ sign :: more, ?_, .and chain and operation⟩
    rw [List.append_assoc, List.cons_append, ← next, ← same]

section Soundness

variable (derived : Derived phrase derives)

include derived

theorem alternatives_sound {budget : Nat}
    (reads : alternatives phrase budget tokens = (shapes, rest)) :
    (shapes = [] ∧ tokens = rest) ∨ ∃ sign chain, tokens = sign :: (chain ++ rest) ∧
      sign.kind = .or ∧ Alternatives derives chain shapes := by
  induction budget generalizing tokens shapes with
  | zero =>
      obtain ⟨rfl, rfl⟩ := Prod.mk.inj reads
      exact .inl ⟨rfl, rfl⟩
  | succ budget ih =>
      cases tokens with
      | nil =>
          obtain ⟨rfl, rfl⟩ := Prod.mk.inj reads
          exact .inl ⟨rfl, rfl⟩
      | cons sign tokens =>
          rw [alternatives] at reads
          split at reads
          · next joins =>
            split at reads
            · obtain ⟨rfl, rfl⟩ := Prod.mk.inj reads
              exact .inl ⟨rfl, rfl⟩
            · next shape after readsFirst =>
              generalize continued : alternatives phrase budget after = result at reads
              obtain ⟨others, left⟩ := result
              obtain ⟨rfl, rfl⟩ := Prod.mk.inj reads
              obtain ⟨front, rfl, first⟩ := derived readsFirst
              refine .inr ⟨sign, ?_⟩
              rcases ih continued with ⟨rfl, rfl⟩ | ⟨next, chain, rfl, also, others⟩
              · exact ⟨front, rfl, joins, .single first⟩
              · refine ⟨front ++ next :: chain, ?_, joins, .or first also others⟩
                rw [List.append_assoc, List.cons_append]
          · obtain ⟨rfl, rfl⟩ := Prod.mk.inj reads
            exact .inl ⟨rfl, rfl⟩

theorem orChain_sound {shape : Shape} (reads : orChain phrase tokens = some (shape, rest)) :
    ∃ chain shapes, tokens = chain ++ rest ∧ Alternatives derives chain shapes ∧
      shape = combine .union shapes := by
  obtain ⟨⟨first, after⟩, readsFirst, finishes⟩ := Option.bind_eq_some_iff.1 reads
  simp only at finishes
  obtain ⟨front, rfl, derivesFirst⟩ := derived readsFirst
  generalize continued : alternatives phrase after.length after = result at finishes
  obtain ⟨others, left⟩ := result
  obtain ⟨rfl, rfl⟩ := Prod.mk.inj (Option.some.inj finishes)
  rcases alternatives_sound derived continued with ⟨rfl, rfl⟩ | ⟨sign, chain, rfl, joins, others⟩
  · exact ⟨front, [first], rfl, .single derivesFirst, rfl⟩
  · refine ⟨front ++ sign :: chain, _, ?_, .or derivesFirst joins others, rfl⟩
    rw [List.append_assoc, List.cons_append]

theorem conjuncts_sound {budget : Nat}
    (reads : conjuncts phrase budget tokens = (shapes, rest)) :
    (shapes = [] ∧ tokens = rest) ∨ ∃ more, skipAnd tokens = more ++ rest ∧
      Conjuncts derives more shapes := by
  induction budget generalizing tokens shapes with
  | zero =>
      obtain ⟨rfl, rfl⟩ := Prod.mk.inj reads
      exact .inl ⟨rfl, rfl⟩
  | succ budget ih =>
      rw [conjuncts] at reads
      split at reads
      · obtain ⟨rfl, rfl⟩ := Prod.mk.inj reads
        exact .inl ⟨rfl, rfl⟩
      · next shape after readsFirst =>
        generalize continued : conjuncts phrase budget after = result at reads
        obtain ⟨others, left⟩ := result
        obtain ⟨rfl, rfl⟩ := Prod.mk.inj reads
        obtain ⟨chain, shapes, same, first, rfl⟩ := orChain_sound derived readsFirst
        rw [same]
        refine .inr ?_
        rcases ih continued with ⟨rfl, rfl⟩ | ⟨more, next, operation⟩
        · exact ⟨chain, rfl, .single first⟩
        · exact Conjuncts.cons first next operation

theorem operation_sound {shape : Shape}
    (reads : Pattern.operation phrase tokens = some (shape, rest)) :
    ∃ front shapes, tokens = front ++ rest ∧ Conjuncts derives front shapes ∧
      shape = combine .intersection shapes := by
  obtain ⟨⟨first, after⟩, readsFirst, finishes⟩ := Option.bind_eq_some_iff.1 reads
  simp only at finishes
  obtain ⟨chain, shapes, rfl, derivesFirst, rfl⟩ := orChain_sound derived readsFirst
  generalize continued : conjuncts phrase after.length after = result at finishes
  obtain ⟨others, left⟩ := result
  obtain ⟨rfl, rfl⟩ := Prod.mk.inj (Option.some.inj finishes)
  rcases conjuncts_sound derived continued with ⟨rfl, rfl⟩ | ⟨more, next, operation⟩
  · exact ⟨chain, _, rfl, .single derivesFirst, rfl⟩
  · obtain ⟨joined, same, operation⟩ := Conjuncts.cons derivesFirst next operation
    exact ⟨joined, _, same, operation, rfl⟩

end Soundness

end Chains

/-! ## Expressions -/

section Expressions

variable {fields : List String} {tokens rest : List Token} {shape : Shape}

theorem Simple.starts (derives : Simple fields tokens shape) : Starts tokens := by
  cases derives with
  | @positions token _ numbers _ =>
      refine ⟨token, [], rfl, ?_⟩
      rcases numbers with kind | kind <;> rw [kind] <;> rfl
  | ids hash _ _ => exact ⟨_, _, rfl, by rw [hash]; rfl⟩
  | presence plus _ => exact ⟨_, _, rfl, by rw [plus]; rfl⟩
  | comparison names _ =>
      refine ⟨_, _, rfl, ?_⟩
      cases names with
      | listed short => rw [short]; rfl
      | unlisted short => rw [short]; rfl
      | long long => rw [long]; rfl
  | everything wild _ => exact ⟨_, _, rfl, by rw [wild]; rfl⟩
  | word plain => exact ⟨_, _, rfl, by rw [plain]; rfl⟩
  | wildcard wild _ => exact ⟨_, _, rfl, by rw [wild]; rfl⟩
  | equals colon _ => exact ⟨_, _, rfl, by rw [colon]; rfl⟩
  | «matches» tilde _ => exact ⟨_, _, rfl, by rw [tilde]; rfl⟩
  | reference marks _ => exact ⟨_, _, rfl, by rw [marks]; rfl⟩

theorem Expression.starts (derives : Expression fields tokens shape) : Starts tokens := by
  cases derives with
  | simple simple => exact simple.starts
  | group opens _ _ => exact ⟨_, _, rfl, by rw [opens]; rfl⟩
  | negation excludes _ => exact ⟨_, _, rfl, by rw [excludes]; rfl⟩

/-- No expression starts with a token that stands between expressions. -/
theorem expressionWithin_of_isJoint {depth : Nat} {next : Token} (joint : next.kind.isJoint = true) :
    expressionWithin fields depth (next :: rest) = none := by
  have simpleFails : simple fields (next :: rest) = none := by
    rw [simple_cons]
    cases kind : next.kind <;> simp_all [TokenKind.isJoint]
  cases depth with
  | zero => exact simpleFails
  | succ depth =>
      rw [expressionWithin, simpleFails, Option.none_or, group, negation]
      cases kind : next.kind <;> simp_all [TokenKind.isJoint]

theorem expressionWithin_nil {depth : Nat} : expressionWithin fields depth [] = none := by
  cases depth <;> rfl

/-- An expression is read if it nests no deeper than is looked for. -/
theorem expressionWithin_complete (depth : Nat) :
    ReadsWithin (expressionWithin fields depth) (Expression fields) depth := by
  induction depth with
  | zero =>
      intro tokens shape rest derives short
      have := derives.starts.length_pos
      omega
  | succ depth ih =>
      intro tokens shape rest derives short
      cases derives with
      | simple simple => rw [expressionWithin, simple.reads rest, Option.some_or]
      | @group opening closing tokens shapes opens operation closes =>
          simp only [List.length_cons, List.length_append, List.length_nil] at short
          have stops : (closing :: rest).head?.map Token.kind ≠ some .or := fun or => by
            cases closes.symm.trans (Option.some.inj or)
          have ends : orChain (expressionWithin fields depth) (skipAnd (closing :: rest)) = none := by
            have joint : closing.kind.isJoint = true := by rw [closes]; rfl
            rw [skipAnd, if_neg (by rw [closes]; decide), orChain, expressionWithin_of_isJoint joint]
            rfl
          have reads := operation.operation_eq ih Expression.starts (by omega) stops ends
          have simpleFails : simple fields (opening :: (tokens ++ closing :: rest)) = none := by
            rw [simple_cons, opens]
          have grouped : group (expressionWithin fields depth)
              (opening :: (tokens ++ closing :: rest)) =
                some (combine .intersection shapes, rest) := by
            simp only [group, if_pos opens, reads, if_pos closes]
          rw [List.cons_append, List.append_assoc, List.singleton_append, expressionWithin,
            simpleFails, Option.none_or, grouped, Option.some_or]
      | @negation sign tokens shape excludes operand =>
          rw [List.length_cons] at short
          have reads := ih rest operand (by omega)
          have simpleFails : simple fields (sign :: (tokens ++ rest)) = none := by
            rw [simple_cons, excludes]
          have groupFails :
              group (expressionWithin fields depth) (sign :: (tokens ++ rest)) = none := by
            rw [group, if_neg (by rw [excludes]; decide)]
          rw [List.cons_append, expressionWithin, simpleFails, Option.none_or, groupFails,
            Option.none_or, negation, if_pos excludes, reads]
          rfl

theorem expressionWithin_sound (depth : Nat) :
    Derived (expressionWithin fields depth) (Expression fields) := by
  induction depth with
  | zero =>
      intro tokens shape rest reads
      obtain ⟨front, same, derives⟩ := simple_sound reads
      exact ⟨front, same, .simple derives⟩
  | succ depth ih =>
      intro tokens shape rest reads
      simp only [expressionWithin, Option.or_eq_some_iff] at reads
      rcases reads with reads | ⟨-, reads | ⟨-, reads⟩⟩
      · obtain ⟨front, same, derives⟩ := simple_sound reads
        exact ⟨front, same, .simple derives⟩
      · cases tokens with
        | nil => cases reads
        | cons opening tokens =>
            rw [group] at reads
            split at reads
            · next opens =>
              split at reads
              · next inner closing after operates =>
                split at reads
                · next closes =>
                  obtain ⟨rfl, rfl⟩ := Prod.mk.inj (Option.some.inj reads)
                  obtain ⟨front, shapes, rfl, operation, rfl⟩ := operation_sound ih operates
                  refine ⟨opening :: (front ++ [closing]), ?_, .group opens operation closes⟩
                  rw [List.cons_append, List.append_assoc, List.singleton_append]
                · cases reads
              · cases reads
            · cases reads
      · cases tokens with
        | nil => cases reads
        | cons sign tokens =>
            rw [negation] at reads
            split at reads
            · next excludes =>
              obtain ⟨⟨inner, after⟩, readsInner, same⟩ := Option.map_eq_some_iff.1 reads
              obtain ⟨rfl, rfl⟩ := Prod.mk.inj same
              obtain ⟨front, rfl, operand⟩ := ih readsInner
              exact ⟨sign :: front, rfl, .negation excludes operand⟩
            · cases reads

/-- Some tokens are an operation exactly if all of them are read as one. -/
theorem phrase_eq_some_iff :
    phrase fields tokens = some (shape, []) ↔ Operation fields tokens shape := by
  constructor
  · intro reads
    obtain ⟨front, shapes, same, operation, rfl⟩ :=
      operation_sound (expressionWithin_sound tokens.length) reads
    rw [List.append_nil] at same
    exact ⟨shapes, same ▸ operation, rfl⟩
  · rintro ⟨shapes, operation, rfl⟩
    have ends : orChain (expressionWithin fields tokens.length) (skipAnd []) = none := by
      rw [skipAnd, orChain, expressionWithin_nil]
      rfl
    have stops : ([] : List Token).head?.map Token.kind ≠ some .or := nofun
    have reads := operation.operation_eq (expressionWithin_complete tokens.length)
      Expression.starts (Nat.le_refl _) stops ends
    rwa [List.append_nil] at reads

/-- An expression that holds no other is the pattern that it is read from. -/
theorem parse_of_simple {pattern : String} (reads : tokenize pattern = (tokens, none))
    (derives : Simple fields (settle tokens) shape) : parse fields pattern = .ok shape := by
  have phrases : phrase fields (settle tokens) = some (shape, []) :=
    phrase_eq_some_iff.2 ⟨[shape], .single (.single (.simple derives)), rfl⟩
  rw [parse, reads]
  show build fields pattern (settle tokens) = _
  rw [build, phrases]

/-- Tokens are built into a collection exactly if they derive it as an operation.  So a derivation tells
the collection, and tokens without one are refused. -/
theorem build_eq_ok_iff (fields : List String) (pattern : String) (tokens : List Token)
    (shape : Shape) :
    build fields pattern tokens = .ok shape ↔ Operation fields tokens shape := by
  rw [← phrase_eq_some_iff]
  unfold build
  cases phrase fields tokens with
  | none => simp
  | some result =>
      obtain ⟨found, left⟩ := result
      cases left <;> simp

end Expressions

end Pattern

end Medley
