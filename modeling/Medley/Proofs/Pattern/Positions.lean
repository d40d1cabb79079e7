import Medley.Proofs.Pattern.Derivations

/-!
# Reading at positions

The grammar once more, for readers that go from position to position in a list of tokens.  They ask for a
token where there may be none, and take one without asking where they have seen it before; taking one that
is not there would be a fault (`Pattern.Outside`).  Nothing in them bounds how deep expressions nest and
how long chains are.  How many calls may be open at a time, the turns of a chain included, is given from
outside, and a run that needs more is given up.

A reader follows a phrase of the grammar where it finds what the phrase reads of the tokens from there on
(`Pattern.FollowsAt`).  The readers of expressions that hold no other do so everywhere.
-/

namespace Medley

namespace Pattern

/-- A token was taken that is not there. -/
structure Outside where
  index : Nat
  deriving DecidableEq

/-- Runs that may end with a fault, or be given up. -/
abbrev Run := ExceptT Outside Option

/-- A run that is given up. -/
def givenUp {α : Type} : Run α := ExceptT.mk none

/-- What a reader finds, if anything: a shape, and the position behind its tokens. -/
abbrev Found := Option (Shape × Nat)

/-- A reader that starts at a position. -/
abbrev Reader := Nat → Run Found

section Readers

variable (fields : List String) (tokens : List Token)

/-- Take the token at a position. -/
def tokenAt (position : Nat) : Run Token :=
  match tokens[position]? with
  | some token => return token
  | none => throw ⟨position⟩

/-- Whether there is a token of a kind at a position. -/
def isAt (kind : TokenKind) (position : Nat) : Bool :=
  tokens[position]?.any (·.kind = kind)

/-- The property that a token at a position names. -/
def propertyAt (position : Nat) : Option String := tokens[position]?.bind propertyOf?

/-- The sequence of numbers that a token at a position holds. -/
def sequenceAt (field : SequenceField) (position : Nat) : Option Shape :=
  tokens[position]?.bind (sequenceOf? field)

def positionsAt : Reader := fun start =>
  return (sequenceAt tokens .position start).map fun shape => (shape, start + 1)

def idsAt : Reader := fun start =>
  if isAt tokens .symbolId start then
    return (sequenceAt tokens .id (start + 1)).map fun shape => (shape, start + 2)
  else return none

def presenceAt : Reader := fun start =>
  if isAt tokens .has start then
    return (propertyAt tokens (start + 1)).map fun field => (.has () field everything, start + 2)
  else return none

def comparisonAt : Reader := fun start => return do
  let field ← propertyAt tokens start
  let operator ← tokens[start + 1]?
  let word ← tokens[start + 2]?
  let test ← testOf? operator.kind word.kind
  return (.filter () (.filter test) field word.text everything, start + 3)

/-- A word at a position, searched in every field. -/
def wordAt (test : FilterTest) (position : Nat) : Found := do
  let word ← tokens[position]?
  if word.kind.isText then some (searchAll fields test word.text, position + 1) else none

def searchAt : Reader := fun start => return do
  let first ← tokens[start]?
  match first.kind with
  | .equals => wordAt fields tokens .equals (start + 1)
  | .matches => wordAt fields tokens .pattern (start + 1)
  | .pattern => wordAt fields tokens .pattern start
  | _ => wordAt fields tokens .token start

def loneStarAt : Reader := fun start => return do
  let token ← tokens[start]?
  if token.kind = .pattern ∧ token.text = "*" then some (everything, start + 1) else none

def referenceAt : Reader := fun start => do
  if isAt tokens .reference start && isAt tokens .string (start + 1) then
    let word ← tokenAt tokens (start + 1)
    return some (referenceTo word.text, start + 2)
  else return none

/-- What the second reader finds, if the first one finds nothing. -/
def either (first second : Reader) : Reader := fun start => do
  match ← first start with
  | some found => return some found
  | none => second start

/-- A test of a property, the whole library, or a word that is searched for. -/
def filterAt : Reader :=
  either (presenceAt tokens) <| either (comparisonAt tokens) <|
    either (loneStarAt tokens) (searchAt fields tokens)

mutual

def expressionAt : Nat → Reader
  | 0, _ => givenUp
  | calls + 1, start =>
      either (either (positionsAt tokens) (either (idsAt tokens) (filterAt fields tokens)))
        (either (groupAt calls) (unaryAt calls)) start

def groupAt : Nat → Reader
  | 0, _ => givenUp
  | calls + 1, start => do
      if isAt tokens .groupOpen start then
        match ← operationAt calls (start + 1) with
        | some (shape, position) =>
            if isAt tokens .groupClose position then return some (shape, position + 1) else return none
        | none => return none
      else return none

def unaryAt : Nat → Reader
  | 0, _ => givenUp
  | calls + 1, start => either (negationAt calls) (referenceAt tokens) start

def negationAt : Nat → Reader
  | 0, _ => givenUp
  | calls + 1, start => do
      if isAt tokens .not start then
        match ← expressionAt calls (start + 1) with
        | some (shape, position) => return some (.unary () { kind := .complement } shape, position)
        | none => return none
      else return none

def orChainAt : Nat → Reader
  | 0, _ => givenUp
  | calls + 1, start => do
      match ← expressionAt calls start with
      | some (first, position) => alternativesAt calls [first] position
      | none => return none

/-- Add to a chain of alternatives for as long as signs join them. -/
def alternativesAt : Nat → List Shape → Reader
  | 0, _, _ => givenUp
  | calls + 1, operands, position => do
      if isAt tokens .or position then
        match ← expressionAt calls (position + 1) with
        | some (shape, behind) => alternativesAt calls (operands ++ [shape]) behind
        | none => return some (combine .union operands, position)
      else return some (combine .union operands, position)

def operationAt : Nat → Reader
  | 0, _ => givenUp
  | calls + 1, start => do
      match ← orChainAt calls start with
      | some (first, position) => conjunctsAt calls [first] position
      | none => return none

/-- Add to an operation for as long as operands follow. -/
def conjunctsAt : Nat → List Shape → Reader
  | 0, _, _ => givenUp
  | calls + 1, operands, position => do
      let next := if isAt tokens .and position then position + 1 else position
      match ← orChainAt calls next with
      | some (shape, behind) => conjunctsAt calls (operands ++ [shape]) behind
      | none => return some (combine .intersection operands, position)

end

/-- The collection that tokens describe if the reader of operations finds all of them. -/
def buildAt (calls : Nat) (pattern : String) : Run (Except Error Shape) := do
  let refuse (fault : PatternFault) (offset : Nat) : Except Error Shape :=
    .error { cause := .malformedPattern pattern fault, position := .atOffset offset }
  match ← operationAt fields tokens calls 0 with
  | some (shape, position) =>
      if position = tokens.length then return .ok shape
      else return refuse .unparsedRest (← tokenAt tokens position).offset
  | none => return refuse .notAPattern ((tokens.head?.map Token.offset).getD pattern.utf8ByteSize)

/-- All readers, with a number of calls. -/
def readers (calls : Nat) : List Reader :=
  [operationAt fields tokens calls, orChainAt fields tokens calls, expressionAt fields tokens calls,
   positionsAt tokens, idsAt tokens, filterAt fields tokens, presenceAt tokens, comparisonAt tokens,
   searchAt fields tokens, groupAt fields tokens calls, unaryAt fields tokens calls,
   negationAt fields tokens calls, referenceAt tokens]

end Readers

/-- What a phrase reads, with the position behind it. -/
def placed (tokens : List Token) (result : Option (Shape × List Token)) : Found :=
  result.map fun (shape, rest) => (shape, tokens.length - rest.length)

/-- Whether a reader finds at a position what a phrase reads of the tokens from there on. -/
def FollowsAt (tokens : List Token) (reader : Reader) (phrase : Phrase) (start : Nat) : Prop :=
  reader start = pure (placed tokens (phrase (tokens.drop start)))

/-- Whether a reader finds what a phrase reads at all positions from a given one on, with five calls for
each token that is left there and some more. -/
def FollowsFrom (tokens : List Token) (reader : Nat → Reader) (more : Nat) (phrase : Phrase)
    (start : Nat) : Prop :=
  ∀ ⦃calls position⦄, start ≤ position → 5 * (tokens.length - position) + more ≤ calls →
    FollowsAt tokens (reader calls) phrase position

/-! ## Positions and tokens behind them -/

section Places

variable {tokens rest suffix : List Token} {start : Nat}

theorem look (behind : tokens.drop start = suffix) (ahead : Nat) :
    tokens[start + ahead]? = suffix[ahead]? := by
  rw [← behind, List.getElem?_drop]

theorem isAt_eq (kind : TokenKind) (behind : tokens.drop start = suffix) :
    isAt tokens kind start = suffix.head?.any (·.kind = kind) := by
  have first : tokens[start]? = suffix[0]? := look behind 0
  rw [isAt, first, List.head?_eq_getElem?]

theorem length_sub_eq (front : List Token) (behind : tokens.drop start = front ++ rest)
    (nonempty : front ≠ []) : tokens.length - rest.length = start + front.length := by
  have lengths := congrArg List.length behind
  have positive := List.length_pos_iff.2 nonempty
  rw [List.length_drop, List.length_append] at lengths
  omega

theorem drop_length_sub (front : List Token) (behind : tokens.drop start = front ++ rest) :
    tokens.drop (tokens.length - rest.length) = rest := by
  have inner : rest <:+ tokens.drop start := behind ▸ List.suffix_append front rest
  exact (List.suffix_iff_eq_drop.1 (inner.trans (List.drop_suffix start tokens))).symm

theorem drop_succ {token : Token} (behind : tokens.drop start = token :: rest) :
    tokens.drop (start + 1) = rest := by
  rw [← List.drop_drop, behind]
  rfl

theorem drop_skipAnd (behind : tokens.drop start = suffix) :
    tokens.drop (if isAt tokens .and start then start + 1 else start) = skipAnd suffix := by
  rw [isAt_eq _ behind]
  cases suffix with
  | nil => exact behind
  | cons sign rest =>
      by_cases and : sign.kind = .and
      · simp [and, skipAnd, drop_succ behind]
      · simp [and, skipAnd, behind]

theorem length_skipAnd_le (tokens : List Token) : (skipAnd tokens).length ≤ tokens.length := by
  cases skipAnd_cases tokens with
  | inl same => exact Nat.le_of_eq (congrArg List.length same)
  | inr skips =>
      obtain ⟨sign, -, same⟩ := skips
      have shorter := congrArg List.length same
      rw [List.length_cons] at shorter
      omega

end Places

/-! ## Expressions that hold no other -/

section Simple

variable (fields : List String) (tokens : List Token)

theorem FollowsAt.either {tokens : List Token} {start : Nat} {first second : Reader}
    {phrase other : Phrase}
    (follows : FollowsAt tokens first phrase start) (follows' : FollowsAt tokens second other start) :
    FollowsAt tokens (either first second) (fun tokens => (phrase tokens).or (other tokens)) start := by
  show (first start >>= fun found => _) =
    pure (placed tokens ((phrase (tokens.drop start)).or (other (tokens.drop start))))
  rw [follows, pure_bind]
  cases phrase (tokens.drop start) with
  | none => exact follows'
  | some result => rfl

theorem follows_positions (start : Nat) : FollowsAt tokens (positionsAt tokens) positions start := by
  unfold FollowsAt positionsAt sequenceAt
  cases behind : tokens.drop start with
  | nil =>
      have first : tokens[start]? = none := look behind 0
      simp [first, placed, positions]
  | cons token rest =>
      have first : tokens[start]? = some token := look behind 0
      have one : tokens.length - rest.length = start + 1 :=
        length_sub_eq [token] behind (List.cons_ne_nil _ _)
      simp [first, placed, positions, one, Function.comp_def]

theorem follows_ids (start : Nat) : FollowsAt tokens (idsAt tokens) ids start := by
  unfold FollowsAt idsAt sequenceAt
  cases behind : tokens.drop start with
  | nil => simp [isAt_eq _ behind, placed, ids]
  | cons sign rest =>
      have second : tokens[start + 1]? = rest[0]? := look behind 1
      cases rest with
      | nil => simp [isAt_eq _ behind, second, placed, ids]
      | cons token rest =>
          have two : tokens.length - rest.length = start + 2 :=
            length_sub_eq [sign, token] behind (List.cons_ne_nil _ _)
          by_cases hash : sign.kind = .symbolId <;>
            simp [isAt_eq _ behind, second, placed, ids, two, hash, Function.comp_def]

theorem follows_presence (start : Nat) : FollowsAt tokens (presenceAt tokens) presence start := by
  unfold FollowsAt presenceAt propertyAt
  cases behind : tokens.drop start with
  | nil => simp [isAt_eq _ behind, placed, presence]
  | cons sign rest =>
      have second : tokens[start + 1]? = rest[0]? := look behind 1
      cases rest with
      | nil => simp [isAt_eq _ behind, second, placed, presence]
      | cons token rest =>
          have two : tokens.length - rest.length = start + 2 :=
            length_sub_eq [sign, token] behind (List.cons_ne_nil _ _)
          by_cases plus : sign.kind = .has <;>
            simp [isAt_eq _ behind, second, placed, presence, two, plus, Function.comp_def]

theorem follows_comparison (start : Nat) :
    FollowsAt tokens (comparisonAt tokens) comparison start := by
  unfold FollowsAt comparisonAt propertyAt
  cases behind : tokens.drop start with
  | nil =>
      have first : tokens[start]? = none := look behind 0
      simp [first, placed, comparison]
  | cons token rest =>
      have first : tokens[start]? = some token := look behind 0
      have second : tokens[start + 1]? = rest[0]? := look behind 1
      have third : tokens[start + 2]? = rest[1]? := look behind 2
      cases rest with
      | nil => simp [first, second, placed, comparison]
      | cons operator rest =>
          cases rest with
          | nil => simp [first, second, third, placed, comparison]
          | cons word rest =>
              have three : tokens.length - rest.length = start + 3 :=
                length_sub_eq [token, operator, word] behind (List.cons_ne_nil _ _)
              cases named : propertyOf? token <;> cases tested : testOf? operator.kind word.kind <;>
                simp [first, second, third, placed, comparison, named, tested, three]

/-- A word searched in every field. -/
def wordOf (fields : List String) (test : FilterTest) : Phrase
  | word :: rest =>
      if word.kind.isText then some (searchAll fields test word.text, rest) else none
  | [] => none

theorem wordAt_eq (test : FilterTest) (position : Nat) :
    wordAt fields tokens test position =
      placed tokens (wordOf fields test (tokens.drop position)) := by
  unfold wordAt
  cases behind : tokens.drop position with
  | nil =>
      have first : tokens[position]? = none := look behind 0
      rw [first]
      rfl
  | cons word rest =>
      have first : tokens[position]? = some word := look behind 0
      have one : tokens.length - rest.length = position + 1 :=
        length_sub_eq [word] behind (List.cons_ne_nil _ _)
      cases text : word.kind.isText <;> simp [first, wordOf, placed, text, one]

theorem follows_search (start : Nat) :
    FollowsAt tokens (searchAt fields tokens) (search fields) start := by
  unfold FollowsAt searchAt
  apply congrArg pure
  cases behind : tokens.drop start with
  | nil =>
      have first : tokens[start]? = none := look behind 0
      rw [first]
      rfl
  | cons token rest =>
      have first : tokens[start]? = some token := look behind 0
      simp only [first, Option.bind_eq_bind, Option.bind_some, wordAt_eq, drop_succ behind, behind]
      cases kind : token.kind with
      | equals => simp only [search, kind]; rfl
      | «matches» => simp only [search, kind]; rfl
      | pattern => simp only [search, kind, wordOf]
      | _ => simp only [search, kind, wordOf]

theorem follows_loneStar (start : Nat) :
    FollowsAt tokens (loneStarAt tokens) loneStar start := by
  unfold FollowsAt loneStarAt
  cases behind : tokens.drop start with
  | nil =>
      have first : tokens[start]? = none := look behind 0
      simp [first, placed, loneStar]
  | cons token rest =>
      have first : tokens[start]? = some token := look behind 0
      have one : tokens.length - rest.length = start + 1 :=
        length_sub_eq [token] behind (List.cons_ne_nil _ _)
      by_cases star : token.kind = .pattern ∧ token.text = "*" <;>
        simp [first, placed, loneStar, star, one]

theorem follows_reference (start : Nat) : FollowsAt tokens (referenceAt tokens) reference start := by
  unfold FollowsAt referenceAt tokenAt
  cases behind : tokens.drop start with
  | nil => simp [isAt_eq _ behind, placed, reference]
  | cons sign rest =>
      have second : tokens[start + 1]? = rest[0]? := look behind 1
      cases rest with
      | nil => simp [isAt, second, placed, reference]
      | cons word rest =>
          have two : tokens.length - rest.length = start + 2 :=
            length_sub_eq [sign, word] behind (List.cons_ne_nil _ _)
          have isWord : isAt tokens .string (start + 1) = decide (word.kind = .string) := by
            rw [isAt, second]
            rfl
          by_cases marks : sign.kind = .reference <;> by_cases plain : word.kind = .string <;>
            simp [isAt_eq _ behind, isWord, second, placed, reference, two, marks, plain]

theorem follows_filter (start : Nat) :
    FollowsAt tokens (filterAt fields tokens) (fun tokens => (presence tokens).or <|
      (comparison tokens).or <| (loneStar tokens).or <| search fields tokens) start := by
  apply (follows_presence tokens start).either
  apply (follows_comparison tokens start).either
  exact (follows_loneStar tokens start).either (follows_search fields tokens start)

end Simple

end Pattern

end Medley
