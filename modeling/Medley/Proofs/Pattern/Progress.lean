import Medley.Proofs.Pattern.Positions

/-!
# Progress of reading

No reader is given up that may make five calls for each token and five more, from every position and
whatever the tokens are, and none takes a token that is not there.  Every reader that finds something has
gone at least one token ahead, and not beyond the last one (`Pattern.readers_advance`).  This is so because
all readers follow phrases: what is nested in an expression starts behind it, and each turn of a chain
takes a token.
-/

namespace Medley

namespace Pattern

/-! ## Phrases that take tokens -/

/-- Whether a phrase takes at least one token, and leaves those behind it. -/
def Advances (phrase : Phrase) : Prop :=
  ∀ ⦃tokens shape rest⦄, phrase tokens = some (shape, rest) →
    ∃ front, tokens = front ++ rest ∧ front ≠ []

section Advancing

variable {fields : List String} {phrase : Phrase} {derives : List Token → Shape → Prop}

theorem Derived.advances (derived : Derived phrase derives)
    (opens : ∀ {tokens shape}, derives tokens shape → Starts tokens) : Advances phrase := by
  intro tokens shape rest reads
  obtain ⟨front, same, derivesFront⟩ := derived reads
  exact ⟨front, same, List.length_pos_iff.1 (opens derivesFront).length_pos⟩

theorem Advances.nil (advances : Advances phrase) : phrase [] = none := by
  cases found : phrase [] with
  | none => rfl
  | some result =>
      obtain ⟨front, same, nonempty⟩ := advances found
      exact (nonempty (List.append_eq_nil_iff.1 same.symm).1).elim

theorem Advances.or {first second : Phrase} (advances : Advances first) (advances' : Advances second) :
    Advances fun tokens => (first tokens).or (second tokens) := by
  intro tokens shape rest reads
  cases Option.or_eq_some_iff.1 reads with
  | inl reads => exact advances reads
  | inr reads => exact advances' reads.2

section Nested

variable (derived : Derived phrase derives)
  (opens : ∀ {tokens shape}, derives tokens shape → Starts tokens)

include derived opens

theorem advances_orChain : Advances (orChain phrase) := by
  intro tokens shape rest reads
  obtain ⟨chain, shapes, same, derivesChain, -⟩ := orChain_sound derived reads
  exact ⟨chain, same, List.length_pos_iff.1 (derivesChain.starts opens).length_pos⟩

theorem advances_operation : Advances (operation phrase) := by
  intro tokens shape rest reads
  obtain ⟨front, shapes, same, derivesFront, -⟩ := operation_sound derived reads
  exact ⟨front, same, List.length_pos_iff.1 (derivesFront.starts opens).length_pos⟩

theorem advances_group : Advances (group phrase) := by
  intro tokens shape rest reads
  unfold group at reads
  split at reads
  · next sign tokens =>
    split at reads
    · split at reads
      · next inner close after operates =>
        split at reads
        · cases reads
          obtain ⟨front, same, -⟩ := advances_operation derived opens operates
          exact ⟨sign :: (front ++ [close]), by simp [same], List.cons_ne_nil _ _⟩
        · cases reads
      · cases reads
    · cases reads
  · cases reads

theorem advances_negation : Advances (negation phrase) := by
  intro tokens shape rest reads
  unfold negation at reads
  split at reads
  · next sign tokens =>
    split at reads
    · obtain ⟨⟨inner, after⟩, readsInner, same⟩ := Option.map_eq_some_iff.1 reads
      cases same
      obtain ⟨front, same, -⟩ := derived.advances opens readsInner
      exact ⟨sign :: front, by rw [same]; rfl, List.cons_ne_nil _ _⟩
    · cases reads
  · cases reads

end Nested

theorem advances_phrase : Advances (Pattern.phrase fields) := by
  intro tokens shape rest reads
  exact advances_operation (expressionWithin_sound tokens.length) Expression.starts reads

theorem advances_wordOf (test : FilterTest) : Advances (wordOf fields test) := by
  intro tokens shape rest reads
  cases tokens with
  | nil => cases reads
  | cons word tokens =>
      rw [wordOf] at reads
      split at reads
      · cases reads
        exact ⟨[word], rfl, List.cons_ne_nil _ _⟩
      · cases reads

theorem advances_search : Advances (search fields) := by
  intro tokens shape rest reads
  cases tokens with
  | nil => cases reads
  | cons first tokens =>
      have word (test : FilterTest)
          (finds : wordOf fields test (first :: tokens) = some (shape, rest)) :=
        advances_wordOf test finds
      have behind (test : FilterTest) (finds : wordOf fields test tokens = some (shape, rest)) :
          ∃ front, first :: tokens = front ++ rest ∧ front ≠ [] := by
        obtain ⟨front, same, -⟩ := advances_wordOf test finds
        exact ⟨first :: front, by rw [same, List.cons_append], List.cons_ne_nil _ _⟩
      rw [search] at reads
      split at reads
      · exact behind .equals reads
      · exact behind .pattern reads
      · exact word .pattern reads
      · exact word .token reads

theorem advances_filter : Advances fun tokens => (presence tokens).or <|
    (comparison tokens).or <| (loneStar tokens).or <| search fields tokens := by
  have plain {phrase : Phrase} (derived : Derived phrase (Simple fields)) : Advances phrase :=
    derived.advances Simple.starts
  apply (plain presence_sound).or
  apply (plain comparison_sound).or
  exact (plain loneStar_sound).or advances_search

end Advancing

/-! ## Chains -/

section Chains

variable {fields : List String} {tokens suffix : List Token} {start position : Nat}
  {phrase : Phrase}
  (follows : FollowsFrom tokens (expressionAt fields tokens) 3 phrase start)

include follows

/-- A chain goes on at positions as it goes on in the tokens there.  Each turn takes a token, so that the
number of tokens left bounds the turns. -/
theorem alternativesAt_eq (advances : Advances phrase) {budget : Nat} (calls : Nat)
    (operands : List Shape) (later : start ≤ position) (within : position ≤ tokens.length)
    (behind : tokens.drop position = suffix) (enough : suffix.length ≤ budget)
    (many : 5 * suffix.length + 1 ≤ calls) :
    alternativesAt fields tokens calls operands position =
      pure (placed tokens (some (combine .union (operands ++ (alternatives phrase budget suffix).1),
        (alternatives phrase budget suffix).2))) := by
  have here : tokens.length - suffix.length = position := by
    rw [← behind, List.length_drop]
    omega
  induction budget generalizing operands position suffix calls with
  | zero =>
      obtain rfl := List.length_eq_zero_iff.1 (Nat.le_zero.1 enough)
      obtain ⟨calls, rfl⟩ := Nat.exists_eq_add_one_of_ne_zero (show calls ≠ 0 by omega)
      rw [alternativesAt, isAt_eq _ behind]
      simp [alternatives, placed, ← here]
  | succ budget ih =>
      obtain ⟨calls, rfl⟩ := Nat.exists_eq_add_one_of_ne_zero (show calls ≠ 0 by omega)
      rw [alternativesAt, isAt_eq _ behind]
      cases suffix with
      | nil => simp [alternatives, placed, ← here]
      | cons sign rest =>
          rw [List.length_cons] at enough many here
          by_cases or : sign.kind = .or
          · have reads : FollowsAt tokens (expressionAt fields tokens calls) phrase (position + 1) :=
              follows (by omega) (by omega)
            unfold FollowsAt at reads
            rw [drop_succ behind] at reads
            rw [alternatives, if_pos or, reads]
            cases found : phrase rest with
            | none => simp [or, placed, ← here]
            | some result =>
                obtain ⟨shape, after⟩ := result
                obtain ⟨front, same, nonempty⟩ := advances found
                have shorter := congrArg List.length same
                rw [List.length_append] at shorter
                rw [same] at behind
                have next := length_sub_eq (sign :: front) behind (List.cons_ne_nil _ _)
                have goesOn := ih calls (operands ++ [shape]) (by omega) (Nat.sub_le _ _)
                  (drop_length_sub (sign :: front) behind) (by omega) (by omega) rfl
                simp only [List.head?_cons, Option.any_some, or, decide_true, if_true, pure_bind,
                  placed, Option.map_some] at goesOn ⊢
                rw [goesOn, List.append_assoc]
                rfl
          · simp [alternatives, placed, or, ← here]

theorem orChainAt_eq (advances : Advances phrase) :
    FollowsFrom tokens (orChainAt fields tokens) 4 (orChain phrase) start := by
  intro calls position later many
  obtain ⟨calls, rfl⟩ := Nat.exists_eq_add_one_of_ne_zero (show calls ≠ 0 by omega)
  have reads : FollowsAt tokens (expressionAt fields tokens calls) phrase position :=
    follows later (by omega)
  unfold FollowsAt at reads ⊢
  rw [orChainAt, reads]
  cases found : phrase (tokens.drop position) with
  | none => simp [orChain, found, placed]
  | some result =>
      obtain ⟨first, after⟩ := result
      obtain ⟨front, behind, nonempty⟩ := advances found
      have next := length_sub_eq front behind nonempty
      have left := congrArg List.length behind
      rw [List.length_drop, List.length_append] at left
      have goesOn := alternativesAt_eq follows advances calls [first] (by omega) (Nat.sub_le _ _)
        (drop_length_sub front behind) (Nat.le_refl _) (by omega)
      simp only [orChain, found, placed, pure_bind, Option.map_some, Option.bind_eq_bind,
        Option.bind_some, List.singleton_append] at goesOn ⊢
      exact goesOn

/-- One turn of an operation: an operand behind the sign, if there is one, or the end in front of it. -/
theorem conjunctsAt_turn (advances : Advances phrase) (calls : Nat) (operands : List Shape)
    (later : start ≤ position) (within : position ≤ tokens.length)
    (behind : tokens.drop position = suffix) (many : 5 * suffix.length + 4 ≤ calls) :
    conjunctsAt fields tokens (calls + 1) operands position =
      match orChain phrase (skipAnd suffix) with
      | none => pure (some (combine .intersection operands, position))
      | some (shape, after) =>
          conjunctsAt fields tokens calls (operands ++ [shape]) (tokens.length - after.length) := by
  have left : tokens.length - position = suffix.length := by rw [← behind, List.length_drop]
  have notBefore : position ≤ if isAt tokens .and position then position + 1 else position := by
    split <;> omega
  have reads : FollowsAt tokens (orChainAt fields tokens calls) (orChain phrase) _ :=
    orChainAt_eq follows advances (Nat.le_trans later notBefore) (by omega)
  unfold FollowsAt at reads
  rw [drop_skipAnd behind] at reads
  rw [conjunctsAt, reads, pure_bind]
  cases orChain phrase (skipAnd suffix) with
  | none => rfl
  | some result => rfl

theorem conjunctsAt_eq (advances : Advances phrase) (advancesChain : Advances (orChain phrase))
    {budget : Nat} (calls : Nat) (operands : List Shape) (later : start ≤ position)
    (within : position ≤ tokens.length) (behind : tokens.drop position = suffix)
    (enough : suffix.length ≤ budget) (many : 5 * suffix.length + 5 ≤ calls) :
    conjunctsAt fields tokens calls operands position =
      pure (placed tokens (some (combine .intersection (operands ++ (conjuncts phrase budget suffix).1),
        (conjuncts phrase budget suffix).2))) := by
  have here : tokens.length - suffix.length = position := by
    rw [← behind, List.length_drop]
    omega
  induction budget generalizing operands position suffix calls with
  | zero =>
      obtain rfl := List.length_eq_zero_iff.1 (Nat.le_zero.1 enough)
      obtain ⟨calls, rfl⟩ := Nat.exists_eq_add_one_of_ne_zero (show calls ≠ 0 by omega)
      rw [conjunctsAt_turn follows advances calls operands later within behind (by omega), skipAnd,
        advancesChain.nil]
      simp [conjuncts, placed, ← here]
  | succ budget ih =>
      obtain ⟨calls, rfl⟩ := Nat.exists_eq_add_one_of_ne_zero (show calls ≠ 0 by omega)
      rw [conjunctsAt_turn follows advances calls operands later within behind (by omega), conjuncts]
      cases found : orChain phrase (skipAnd suffix) with
      | none => simp [placed, ← here]
      | some result =>
          obtain ⟨shape, after⟩ := result
          obtain ⟨front, same, nonempty⟩ := advancesChain found
          have skipped := (drop_skipAnd behind).trans same
          have next := length_sub_eq front skipped nonempty
          have short := length_skipAnd_le suffix
          have positive := List.length_pos_iff.2 nonempty
          rw [same, List.length_append] at short
          have notBefore : start ≤ tokens.length - after.length := by
            rw [next]
            split <;> omega
          have goesOn := ih calls (operands ++ [shape]) notBefore (Nat.sub_le _ _)
            (drop_length_sub front skipped) (by omega) (by omega) rfl
          simp only [placed, Option.map_some] at goesOn ⊢
          rw [goesOn, List.append_assoc]
          rfl

theorem operationAt_eq (advances : Advances phrase) (advancesChain : Advances (orChain phrase)) :
    FollowsFrom tokens (operationAt fields tokens) 5 (operation phrase) start := by
  intro calls position later many
  obtain ⟨calls, rfl⟩ := Nat.exists_eq_add_one_of_ne_zero (show calls ≠ 0 by omega)
  have reads : FollowsAt tokens (orChainAt fields tokens calls) (orChain phrase) position :=
    orChainAt_eq follows advances later (by omega)
  unfold FollowsAt at reads ⊢
  rw [operationAt, reads]
  cases found : orChain phrase (tokens.drop position) with
  | none => simp [operation, found, placed]
  | some result =>
      obtain ⟨first, after⟩ := result
      obtain ⟨front, behind, nonempty⟩ := advancesChain found
      have next := length_sub_eq front behind nonempty
      have left := congrArg List.length behind
      rw [List.length_drop, List.length_append] at left
      have positive := List.length_pos_iff.2 nonempty
      have goesOn := conjunctsAt_eq follows advances advancesChain calls [first] (by omega)
        (Nat.sub_le _ _) (drop_length_sub front behind) (Nat.le_refl _) (by omega)
      simp only [operation, found, placed, pure_bind, Option.map_some, Option.bind_eq_bind,
        Option.bind_some, List.singleton_append] at goesOn ⊢
      exact goesOn

end Chains

/-! ## Expressions -/

section Nesting

variable {fields : List String} {tokens : List Token} {start : Nat} {phrase : Phrase}
  {derives : List Token → Shape → Prop}
  (derived : Derived phrase derives)
  (opens : ∀ {tokens shape}, derives tokens shape → Starts tokens)
  (follows : FollowsFrom tokens (expressionAt fields tokens) 3 phrase (start + 1))

include follows

theorem negationAt_eq {calls : Nat} (many : 5 * (tokens.length - start) + 1 ≤ calls) :
    FollowsAt tokens (negationAt fields tokens calls) (negation phrase) start := by
  obtain ⟨calls, rfl⟩ := Nat.exists_eq_add_one_of_ne_zero (show calls ≠ 0 by omega)
  unfold FollowsAt
  rw [negationAt]
  cases behind : tokens.drop start with
  | nil => simp [isAt_eq _ behind, negation, placed]
  | cons sign rest =>
      have left := congrArg List.length behind
      rw [List.length_drop, List.length_cons] at left
      have reads : FollowsAt tokens (expressionAt fields tokens calls) phrase (start + 1) :=
        follows (Nat.le_refl _) (by omega)
      unfold FollowsAt at reads
      rw [drop_succ behind] at reads
      by_cases not : sign.kind = .not
      · rw [reads]
        cases found : phrase rest <;> simp [isAt_eq _ behind, not, negation, found, placed]
      · simp [isAt_eq _ behind, not, negation, placed]

include derived opens

theorem groupAt_eq {calls : Nat} (many : 5 * (tokens.length - start) + 1 ≤ calls) :
    FollowsAt tokens (groupAt fields tokens calls) (group phrase) start := by
  obtain ⟨calls, rfl⟩ := Nat.exists_eq_add_one_of_ne_zero (show calls ≠ 0 by omega)
  unfold FollowsAt
  rw [groupAt]
  cases behind : tokens.drop start with
  | nil => simp [isAt_eq _ behind, group, placed]
  | cons sign rest =>
      have left := congrArg List.length behind
      rw [List.length_drop, List.length_cons] at left
      have reads : FollowsAt tokens (operationAt fields tokens calls) (operation phrase) (start + 1) :=
        operationAt_eq follows (derived.advances opens) (advances_orChain derived opens)
          (Nat.le_refl _) (by omega)
      unfold FollowsAt at reads
      rw [drop_succ behind] at reads
      by_cases opening : sign.kind = .groupOpen
      · rw [reads]
        cases found : operation phrase rest with
        | none => simp [isAt_eq _ behind, opening, group, found, placed]
        | some result =>
            obtain ⟨shape, after⟩ := result
            obtain ⟨front, same, nonempty⟩ := advances_operation derived opens found
            have within : tokens.drop start = (sign :: front) ++ after := by rw [behind, same]; rfl
            have ends := drop_length_sub (sign :: front) within
            simp only [isAt_eq _ behind, List.head?_cons, Option.any_some, opening, decide_true, if_true,
              placed, Option.map_some, pure_bind, group, found]
            rw [isAt_eq _ ends]
            cases after with
            | nil => rfl
            | cons close rest =>
                have next := length_sub_eq [close] ends (List.cons_ne_nil _ _)
                by_cases closes : close.kind = .groupClose
                · simp [closes, next]
                · simp [closes]
      · simp [isAt_eq _ behind, opening, group, placed]

end Nesting

section Expressions

variable {fields : List String} {tokens : List Token} {start : Nat}

/-- A reference starts with a token of its own, so it can be looked for last. -/
theorem reference_or (phrase : Phrase) (tokens : List Token) :
    (reference tokens).or ((group phrase tokens).or (negation phrase tokens)) =
      (group phrase tokens).or ((negation phrase tokens).or (reference tokens)) := by
  cases tokens with
  | nil => rfl
  | cons sign rest =>
      by_cases marks : sign.kind = .reference
      · have noGroup : group phrase (sign :: rest) = none := if_neg (by rw [marks]; decide)
        have noNegation : negation phrase (sign :: rest) = none := if_neg (by rw [marks]; decide)
        rw [noGroup, noNegation, Option.none_or, Option.none_or, Option.none_or, Option.or_none]
      · have none : reference (sign :: rest) = none := by
          cases rest with
          | nil => rfl
          | cons word rest => exact if_neg fun both => marks both.1
        rw [none, Option.none_or, Option.or_none]

theorem expressionWithin_succ (depth : Nat) (suffix : List Token) :
    expressionWithin fields (depth + 1) suffix =
      ((positions suffix).or ((ids suffix).or ((presence suffix).or ((comparison suffix).or
        ((loneStar suffix).or (search fields suffix)))))).or
      ((group (expressionWithin fields depth) suffix).or
        ((negation (expressionWithin fields depth) suffix).or (reference suffix))) := by
  rw [expressionWithin, simple, ← reference_or]
  simp only [Option.or_assoc]

theorem unaryAt_eq {phrase : Phrase}
    (follows : FollowsFrom tokens (expressionAt fields tokens) 3 phrase (start + 1)) {calls : Nat}
    (many : 5 * (tokens.length - start) + 2 ≤ calls) :
    FollowsAt tokens (unaryAt fields tokens calls)
      (fun tokens => (negation phrase tokens).or (reference tokens)) start := by
  obtain ⟨calls, rfl⟩ := Nat.exists_eq_add_one_of_ne_zero (show calls ≠ 0 by omega)
  have negates : FollowsAt tokens (negationAt fields tokens calls) (negation phrase) start :=
    negationAt_eq follows (by omega)
  have reads := negates.either (follows_reference tokens start)
  unfold FollowsAt at reads ⊢
  rw [unaryAt, reads]

theorem expressionAt_succ {depth calls : Nat}
    (inner : FollowsFrom tokens (expressionAt fields tokens) 3 (expressionWithin fields depth)
      (start + 1))
    (many : 5 * (tokens.length - start) + 3 ≤ calls) :
    FollowsAt tokens (expressionAt fields tokens calls) (expressionWithin fields (depth + 1)) start := by
  obtain ⟨calls, rfl⟩ := Nat.exists_eq_add_one_of_ne_zero (show calls ≠ 0 by omega)
  have plain := (follows_positions tokens start).either
    ((follows_ids tokens start).either (follows_filter fields tokens start))
  have groups : FollowsAt tokens (groupAt fields tokens calls) _ start :=
    groupAt_eq (expressionWithin_sound depth) Expression.starts inner (by omega)
  have unary : FollowsAt tokens (unaryAt fields tokens calls) _ start := unaryAt_eq inner (by omega)
  have whole := plain.either (groups.either unary)
  unfold FollowsAt at whole ⊢
  rw [expressionWithin_succ, ← whole, expressionAt]

theorem expressionAt_of_nil {calls : Nat} (behind : tokens.drop start = []) (many : 3 ≤ calls) :
    expressionAt fields tokens calls start = pure none := by
  obtain ⟨calls, rfl⟩ := Nat.exists_eq_add_of_le' many
  have groups : groupAt fields tokens (calls + 2) start = pure none := by
    rw [groupAt, isAt_eq _ behind]
    rfl
  have negates : negationAt fields tokens (calls + 1) start = pure none := by
    rw [negationAt, isAt_eq _ behind]
    rfl
  have refers := follows_reference tokens start
  have plain := (follows_positions tokens start).either
    ((follows_ids tokens start).either (follows_filter fields tokens start))
  unfold FollowsAt at refers plain
  rw [behind] at refers plain
  rw [expressionAt, either, plain]
  show either (groupAt fields tokens (calls + 2)) (unaryAt fields tokens (calls + 2)) start = _
  rw [either, groups]
  show unaryAt fields tokens (calls + 2) start = _
  rw [unaryAt, either, negates]
  exact refers

/-- Expressions are read at positions as they are read of the tokens there.  What is nested in one starts
behind it, so that the number of tokens left bounds how deep they nest. -/
theorem expressionAt_eq {depth : Nat} (enough : tokens.length - start ≤ depth) :
    FollowsFrom tokens (expressionAt fields tokens) 3 (expressionWithin fields depth) start := by
  induction depth generalizing start with
  | zero =>
      intro calls position later many
      have behind : tokens.drop position = [] := List.drop_eq_nil_of_le (by omega)
      rw [FollowsAt, behind, expressionAt_of_nil behind (by omega)]
      rfl
  | succ depth ih =>
      intro calls position later many
      exact expressionAt_succ (ih (by omega)) many

/-- A reader that follows a phrase ends, and what it finds ends behind its start. -/
theorem FollowsAt.lands {reader : Reader} {phrase : Phrase}
    (follows : FollowsAt tokens reader phrase start) (advances : Advances phrase) :
    ∃ found, reader start = pure found ∧ ∀ shape position, found = some (shape, position) →
      start < position ∧ position ≤ tokens.length := by
  refine ⟨_, follows, ?_⟩
  intro shape position finds
  obtain ⟨⟨_, rest⟩, reads, same⟩ := Option.map_eq_some_iff.1 finds
  cases same
  obtain ⟨front, behind, nonempty⟩ := advances reads
  have positive := List.length_pos_iff.2 nonempty
  rw [length_sub_eq front behind nonempty]
  have lengths := congrArg List.length behind
  rw [List.length_drop, List.length_append] at lengths
  omega

theorem expressionAt_follows (start : Nat) : FollowsFrom tokens (expressionAt fields tokens) 3
    (expressionWithin fields (tokens.drop start).length) start :=
  expressionAt_eq (Nat.le_of_eq List.length_drop.symm)

theorem operationAt_eq_phrase {calls : Nat} (start : Nat) (many : 5 * tokens.length + 5 ≤ calls) :
    FollowsAt tokens (operationAt fields tokens calls) (phrase fields) start := by
  have derived : Derived (expressionWithin fields (tokens.drop start).length) (Expression fields) :=
    expressionWithin_sound _
  exact operationAt_eq (expressionAt_follows start) (derived.advances Expression.starts)
    (advances_orChain derived Expression.starts) (Nat.le_refl start) (by omega)

/-- What is built from the tokens is what the reader of operations finds at their start.  Where it has
not found all of them, there is a token to report. -/
theorem buildAt_eq {calls : Nat} (many : 5 * tokens.length + 5 ≤ calls) (pattern : String) :
    buildAt fields tokens calls pattern = pure (build fields pattern tokens) := by
  have reads : FollowsAt tokens (operationAt fields tokens calls) (phrase fields) 0 :=
    operationAt_eq_phrase 0 many
  unfold FollowsAt at reads
  rw [List.drop_zero] at reads
  rw [buildAt, reads]
  unfold build
  cases found : phrase fields tokens with
  | none => rfl
  | some result =>
      obtain ⟨shape, rest⟩ := result
      obtain ⟨front, same, nonempty⟩ := advances_phrase found
      have behind : tokens.drop 0 = front ++ rest := by rw [List.drop_zero, same]
      have ends := drop_length_sub front behind
      cases rest with
      | nil => simp [placed]
      | cons next rest =>
          have unread : tokens[tokens.length - (next :: rest).length]? = some next := look ends 0
          have before : tokens.length - (next :: rest).length ≠ tokens.length := by
            have lengths := congrArg List.length same
            rw [List.length_append, List.length_cons] at lengths
            rw [List.length_cons]
            omega
          simp only [placed, Option.map_some, pure_bind, if_neg before, tokenAt, unread]

end Expressions

/-! ## Progress -/

section Progress

variable {fields : List String} {tokens : List Token}

/-- Every reader ends without a fault from every position, and what it finds ends at a later one, not
beyond the last token. -/
theorem reader_lands {calls : Nat} (many : 5 * tokens.length + 5 ≤ calls) {reader : Reader}
    (is : reader ∈ readers fields tokens calls) (start : Nat) :
    ∃ found, reader start = pure found ∧ ∀ shape position, found = some (shape, position) →
      start < position ∧ position ≤ tokens.length := by
  have plain {phrase : Phrase} (derived : Derived phrase (Simple fields)) : Advances phrase :=
    derived.advances Simple.starts
  have derived : Derived (expressionWithin fields (tokens.drop start).length) (Expression fields) :=
    expressionWithin_sound _
  have expression : Advances (expressionWithin fields (tokens.drop start).length) :=
    derived.advances Expression.starts
  have chain := advances_orChain derived Expression.starts
  have group := advances_group derived Expression.starts
  have negation := advances_negation derived Expression.starts
  have follows : FollowsFrom tokens (expressionAt fields tokens) 3
      (expressionWithin fields (tokens.drop start).length) start := expressionAt_follows start
  have later : FollowsFrom tokens (expressionAt fields tokens) 3
      (expressionWithin fields (tokens.drop start).length) (start + 1) :=
    fun _ _ behind spare => follows (Nat.le_of_succ_le behind) spare
  simp only [readers, List.mem_cons, List.not_mem_nil, or_false] at is
  rcases is with rfl | rfl | rfl | rfl | rfl | rfl | rfl | rfl | rfl | rfl | rfl | rfl | rfl
  · exact (operationAt_eq_phrase start many).lands advances_phrase
  · exact (orChainAt_eq follows expression (Nat.le_refl start) (by omega)).lands chain
  · exact (follows (Nat.le_refl start) (by omega)).lands expression
  · exact (follows_positions tokens start).lands (plain positions_sound)
  · exact (follows_ids tokens start).lands (plain ids_sound)
  · exact (follows_filter fields tokens start).lands advances_filter
  · exact (follows_presence tokens start).lands (plain presence_sound)
  · exact (follows_comparison tokens start).lands (plain comparison_sound)
  · exact (follows_search fields tokens start).lands advances_search
  · exact (groupAt_eq derived Expression.starts later (by omega)).lands group
  · exact (unaryAt_eq later (by omega)).lands (negation.or (plain reference_sound))
  · exact (negationAt_eq later (by omega)).lands negation
  · exact (follows_reference tokens start).lands (plain reference_sound)

/-- Both chains come to an end, whatever they hold already and wherever they go on. -/
theorem chains_end {calls : Nat} (many : 5 * tokens.length + 5 ≤ calls) (operands : List Shape)
    {position : Nat} (within : position ≤ tokens.length) :
    (∃ result, alternativesAt fields tokens calls operands position = pure (some result)) ∧
      ∃ result, conjunctsAt fields tokens calls operands position = pure (some result) := by
  have derived : Derived (expressionWithin fields (tokens.drop 0).length) (Expression fields) :=
    expressionWithin_sound _
  have expression := derived.advances Expression.starts
  have follows : FollowsFrom tokens (expressionAt fields tokens) 3
      (expressionWithin fields (tokens.drop 0).length) 0 := expressionAt_follows 0
  have left : (tokens.drop position).length ≤ tokens.length := by
    rw [List.length_drop]
    exact Nat.sub_le _ _
  constructor
  · exact ⟨_, alternativesAt_eq follows expression calls operands (Nat.zero_le _) within rfl
      (Nat.le_refl _) (by omega)⟩
  · exact ⟨_, conjunctsAt_eq follows expression (advances_orChain derived Expression.starts) calls
      operands (Nat.zero_le _) within rfl (Nat.le_refl _) (by omega)⟩

/-- Whatever the tokens are, with five calls for each of them and five more every reader ends from every
position, without taking a token that is not there, and goes ahead if it finds something, but not beyond
the last token; both chains end.  So reading at positions is what the grammar is, for an operation and for
all tokens. -/
theorem readers_advance (fields : List String) (tokens : List Token) {calls : Nat}
    (many : 5 * tokens.length + 5 ≤ calls) :
    (∀ reader ∈ readers fields tokens calls, ∀ start, ∃ found, reader start = pure found ∧
      ∀ shape position, found = some (shape, position) →
        start < position ∧ position ≤ tokens.length) ∧
    (∀ operands position, position ≤ tokens.length →
      (∃ result, alternativesAt fields tokens calls operands position = pure (some result)) ∧
        ∃ result, conjunctsAt fields tokens calls operands position = pure (some result)) ∧
    (∀ start, operationAt fields tokens calls start =
      pure (placed tokens (phrase fields (tokens.drop start)))) ∧
    ∀ pattern, buildAt fields tokens calls pattern = pure (build fields pattern tokens) := by
  refine ⟨?_, ?_, ?_, ?_⟩
  · intro reader is start
    exact reader_lands many is start
  · intro operands position within
    exact chains_end many operands within
  · intro start
    exact operationAt_eq_phrase start many
  · intro pattern
    exact buildAt_eq many pattern

/-- Tokens that no pattern has: a comparison of a property without a name with an integer that is none,
in a group that is not closed, and offsets that do not ascend. -/
def unclosed : List Token :=
  [⟨.groupOpen, "", 9⟩, ⟨.propLong, "", 4⟩, ⟨.greater, "", 4⟩, ⟨.integer, "x", 0⟩, ⟨.or, "", 1⟩]

theorem readers_advance_unclosed : 5 * unclosed.length + 5 ≤ 30 ∧
    (∃ found, groupAt ["title"] unclosed 30 0 = pure found ∧ ∀ shape position,
      found = some (shape, position) → 0 < position ∧ position ≤ 5) ∧
    operationAt ["title"] unclosed 30 0 = pure none ∧
    operationAt ["title"] unclosed 30 1 =
      pure (some (.filter () (.filter .greater) "" "x" everything, 4)) := by
  have many : 5 * unclosed.length + 5 ≤ 30 := by decide
  obtain ⟨advance, -, reads, -⟩ := readers_advance ["title"] unclosed many
  refine ⟨many, advance (groupAt ["title"] unclosed 30) (by simp [readers]) 0, ?_, ?_⟩
  · rw [reads 0]
    rfl
  · rw [reads 1]
    rfl

end Progress

end Pattern

end Medley
