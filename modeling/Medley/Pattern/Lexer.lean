import Medley.Error
import Medley.Pattern.Token
import Medley.Text.Blank

/-!
# From text to tokens

A token starts at the first character that is not blank: a symbol, else a keyword that ends a word,
else `in:`, else a quoted or a bare word.  A backslash takes the character after it into a word,
whatever that character is; a backslash with nothing after it is an error, and ends the stream of
tokens.
-/

namespace Medley.Pattern

/-- What can be read at the start of a text: the kind and the text of a token, and what is left; or
what is wrong, and the rest of the text at which it is. -/
abbrev Scanned := Except (PatternFault × List Char) (TokenKind × String × List Char)

/-- The symbol at the start of a text. -/
def symbol? : List Char → Option (TokenKind × List Char)
  | '(' :: rest => some (.groupOpen, rest)
  | ')' :: rest => some (.groupClose, rest)
  | '#' :: rest => some (.symbolId, rest)
  | '+' :: rest => some (.has, rest)
  | ':' :: rest => some (.equals, rest)
  | '~' :: rest => some (.matches, rest)
  | '<' :: '=' :: rest => some (.smallerEq, rest)
  | '>' :: '=' :: rest => some (.greaterEq, rest)
  | '<' :: rest => some (.smaller, rest)
  | '>' :: rest => some (.greater, rest)
  | _ => none

/-- Whether a word has ended before a text. -/
def atBoundary : List Char → Bool
  | [] => true
  | char :: _ => Text.isBlank char || char == '(' || char == ')'

/-- The keyword at the start of a text, if it is a whole word. -/
def keyword? (text : List Char) : Option (TokenKind × List Char) :=
  let found := match text with
    | 'O' :: 'R' :: rest => some (TokenKind.or, rest)
    | 'A' :: 'N' :: 'D' :: rest => some (TokenKind.and, rest)
    | 'N' :: 'O' :: 'T' :: rest => some (TokenKind.not, rest)
    | _ => none
  found.filter fun (_, rest) => atBoundary rest

/-- The mark of a reference at the start of a text. -/
def reference? : List Char → Option (TokenKind × List Char)
  | 'i' :: 'n' :: ':' :: rest => some (.reference, rest)
  | _ => none

/-- The longest run of escaped characters and of characters that a test accepts, and what is left
behind it. -/
def word (accept : Char → Bool) : List Char → List Lexeme × List Char
  | [] => ([], [])
  | '\\' :: char :: rest =>
      let (lexemes, left) := word accept rest
      (⟨char, true⟩ :: lexemes, left)
  | char :: rest =>
      if char ≠ '\\' ∧ accept char then
        let (lexemes, left) := word accept rest
        (⟨char, false⟩ :: lexemes, left)
      else ([], char :: rest)

/-- A word up to its closing quote, or up to the end of the text if the quote is missing. -/
def quotedWord (quote : Char) (text : List Char) : Scanned :=
  let (lexemes, left) := word (· != quote) text
  let kind : TokenKind := if lexemes.any Lexeme.isWildcard then .pattern else .string
  match left with
  | [] => .ok (kind, wordText lexemes, [])
  | next :: rest =>
      if next = quote then .ok (kind, wordText lexemes, rest) else .error (.trailingBackslash, left)

/-- The comparison signs that end a bare word and make it a property. -/
def isPropertySign (char : Char) : Bool :=
  char == ':' || char == '~' || char == '<' || char == '>'

/-- Whether a character can stand in a bare word without a backslash. -/
def isBare (char : Char) : Bool :=
  !(Text.isBlank char || char == '(' || char == ')' || char == '\\' || isPropertySign char)

/-- A word without quotes.  It names a property if a comparison sign follows; a property name of one
character, without a backslash, is a short name. -/
def bareWord (text : List Char) : Scanned :=
  let (lexemes, left) := word isBare text
  match left with
  | '\\' :: _ => .error (.trailingBackslash, left)
  | _ =>
      if lexemes.isEmpty then .error (.unexpectedCharacter, text)
      else
        let kind : TokenKind :=
          if left.head?.any isPropertySign then
            if lexemes.length = 1 ∧ lexemes.all (!·.escaped) then .propShort else .propLong
          else classify lexemes
        .ok (kind, wordText lexemes, left)

/-- The token at the start of a text that is not blank there. -/
def scan (text : List Char) : Scanned :=
  match (symbol? text).or ((keyword? text).or (reference? text)) with
  | some (kind, rest) => .ok (kind, "", rest)
  | none =>
      match text with
      | '"' :: rest => quotedWord '"' rest
      | '\'' :: rest => quotedWord '\'' rest
      | _ => bareWord text

/-- A stream of tokens: a pattern, the rest of it that is still to be read, and whether reading has
failed before. -/
structure Tokenizer where
  pattern : String
  rest : List Char
  hasFailed : Bool := false
  deriving DecidableEq

namespace Tokenizer

/-- The stream of all tokens of a pattern. -/
def start (pattern : String) : Tokenizer := { pattern, rest := pattern.toList }

/-- The error of a stream at a rest of its pattern. -/
def failAt (stream : Tokenizer) (fault : PatternFault) (left : List Char) : Error :=
  { cause := .malformedPattern stream.pattern fault
    position := .ofRest stream.pattern.toList left }

/-- The next item of a stream, and the stream behind it.  Nothing comes at the end of the pattern nor
after an error. -/
def next (stream : Tokenizer) : Option (Except Error Token) × Tokenizer :=
  if stream.hasFailed then (none, stream)
  else
    let text := stream.rest.dropWhile Text.isBlank
    match text with
    | [] => (none, { stream with rest := [] })
    | _ =>
        match scan text with
        | .ok (kind, word, rest) =>
            let offset := byteLength stream.pattern.toList - byteLength text
            (some (.ok ⟨kind, word, offset⟩), { stream with rest })
        | .error (fault, left) =>
            (some (.error (stream.failAt fault left)),
              { stream with rest := text, hasFailed := true })

/-- At most a given number of tokens of a stream, up to its end or to its first error, and that
error. -/
def collect : Tokenizer → Nat → List Token × Option Error
  | _, 0 => ([], none)
  | stream, budget + 1 =>
      match stream.next with
      | (none, _) => ([], none)
      | (some (.error error), _) => ([], some error)
      | (some (.ok token), later) =>
          let (tokens, failure) := collect later budget
          (token :: tokens, failure)

end Tokenizer

/-- The tokens of a pattern up to its end or to the first error, and that error.  Every token takes
at least one character, so the length of the text bounds their number. -/
def tokenize (pattern : String) : List Token × Option Error :=
  (Tokenizer.start pattern).collect pattern.toList.length

end Medley.Pattern
