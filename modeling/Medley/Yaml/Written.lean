import Medley.Text.Lowercase
import Medley.Text.Percent
import Medley.Yaml.Scalar

/-!
# Writing YAML scalars

A text is written plain if it reads back as the same text.  What could be taken for something else
stands in single quotes, a text of several lines is a literal block, and what neither can hold stands
in double quotes.
-/

namespace Medley.Yaml

/-- Whether a character breaks a line. -/
def isBreak (char : Char) : Bool := char ∈ ['\n', '\r', '\u0085', '\u2028', '\u2029']

/-- Whether a character is shown as it is. -/
def isShown (char : Char) : Bool :=
  let code := char.toNat
  code == 0x0A || (0x20 ≤ code && code ≤ 0x7E) ||
  (0xA0 ≤ code && code < 0x10000 && code != 0xFEFF && code != 0xFFFE && code != 0xFFFF)

/-- Whether white space or the end of the text is ahead. -/
def gapAhead : List Char → Bool
  | [] => true
  | char :: _ => isBlank char || isBreak char || char == '\x00'

/-- Whether marks in the rest of a text make it something else than a plain scalar. -/
def hasMark (afterGap : Bool) : List Char → Bool
  | [] => false
  | char :: rest =>
      (char == ':' && gapAhead rest) || (char == '#' && afterGap) || hasMark (gapAhead [char]) rest

/-- Whether the start of a text makes it something else than a plain scalar. -/
def startsAsMark : List Char → Bool
  | [] => false
  | '-' :: '-' :: '-' :: _ => true
  | '.' :: '.' :: '.' :: _ => true
  | char :: rest =>
      char ∈ [',', '[', ']', '\x7b', '\x7d', '#', '&', '*', '!', '|', '>', '\'', '"', '%', '@',
        '\x60'] ||
      (char ∈ ['?', ':', '-'] && gapAhead rest)

/-- Whether a space stands next to a line break in a text, before it or behind it. -/
def hasSpaceBeside (first second : Char → Bool) : List Char → Bool
  | left :: right :: rest =>
      (first left && second right) || hasSpaceBeside first second (right :: rest)
  | _ => false

/-- Whether a text looks like a number without fraction: digits with or without a sign, in any of the
bases. -/
def looksWhole (chars : List Char) : Bool :=
  let unsigned := match chars with
    | '+' :: rest => rest
    | '-' :: rest => rest
    | rest => rest
  let among (digits : List Char) (rest : List Char) : Bool :=
    !rest.isEmpty && rest.all fun char => char ∈ digits
  match unsigned with
  | '0' :: 'x' :: rest => among "0123456789abcdefABCDEF".toList rest
  | '0' :: 'o' :: rest => among "01234567".toList rest
  | '0' :: 'b' :: rest => among "01".toList rest
  | rest => among "0123456789".toList rest

/-- Whether a text is a run of digits. -/
def isDigits (chars : List Char) : Bool := !chars.isEmpty && chars.all Char.isDigit

/-- Whether a text is an exponent: a letter `e`, perhaps a sign, and digits. -/
def isExponent : List Char → Bool
  | mark :: '+' :: digits => (mark == 'e' || mark == 'E') && isDigits digits
  | mark :: '-' :: digits => (mark == 'e' || mark == 'E') && isDigits digits
  | mark :: digits => (mark == 'e' || mark == 'E') && isDigits digits
  | [] => false

/-- Whether a text looks like a decimal fraction: digits with a point before, among or behind them,
perhaps with a sign and an exponent. -/
def looksFractional (chars : List Char) : Bool :=
  let unsigned := match chars with
    | '+' :: rest => rest
    | '-' :: rest => rest
    | rest => rest
  let whole := unsigned.takeWhile Char.isDigit
  let (fraction, rest) := match unsigned.dropWhile Char.isDigit with
    | '.' :: rest => (rest.takeWhile Char.isDigit, rest.dropWhile Char.isDigit)
    | rest => ([], rest)
  !(whole ++ fraction).isEmpty && (rest.isEmpty || isExponent rest)

/-- Whether a text on one line could be taken for nothing, a truth value or a number. -/
def isAmbiguous (text : String) : Bool :=
  let lower := Text.lowercase text
  text.isEmpty ||
  lower ∈ ["null", "nil", "~", "true", "false", "y", "yes", "n", "no", "on", "off", "nan",
    ".nan", ".inf", "+.inf", "-.inf"] ||
  looksWhole text.toList || looksFractional text.toList

/-- A number as hexadecimal digits, filled with zeros to a width. -/
def hexDigits : Nat → Nat → List Char
  | 0, _ => []
  | width + 1, value => hexDigits width (value / 16) ++ [Text.hexDigit (value % 16)]

/-- A character inside double quotes. -/
def doubleQuotedChar (char : Char) : List Char :=
  if isShown char ∧ ¬ isBreak char ∧ char ≠ '"' ∧ char ≠ '\\' then [char]
  else match char with
    | '\x00' => ['\\', '0']
    | '\x07' => ['\\', 'a']
    | '\x08' => ['\\', 'b']
    | '\t' => ['\\', 't']
    | '\n' => ['\\', 'n']
    | '\x0b' => ['\\', 'v']
    | '\x0c' => ['\\', 'f']
    | '\r' => ['\\', 'r']
    | '\x1b' => ['\\', 'e']
    | '"' => ['\\', '"']
    | '\\' => ['\\', '\\']
    | '\u0085' => ['\\', 'N']
    | '\u2028' => ['\\', 'L']
    | '\u2029' => ['\\', 'P']
    | char =>
        if char.toNat ≤ 0xFF then '\\' :: 'x' :: hexDigits 2 char.toNat
        else if char.toNat ≤ 0xFFFF then '\\' :: 'u' :: hexDigits 4 char.toNat
        else '\\' :: 'U' :: hexDigits 8 char.toNat

/-- A text in double quotes. -/
def doubleQuoted (chars : List Char) : List Char :=
  '"' :: (chars.flatMap doubleQuotedChar ++ ['"'])

/-- A text in single quotes. -/
def singleQuoted (chars : List Char) : List Char :=
  '\'' :: (chars.flatMap (fun char => if char = '\'' then ['\'', '\''] else [char]) ++ ['\''])

/-- A text as a literal block whose lines are indented by two spaces. -/
def literal (chars : List Char) : List Char :=
  let trailing := (chars.reverse.takeWhile (· == '\n')).length
  let body := chars.take (chars.length - trailing)
  let hint := if chars.head?.any fun char => char == ' ' || char == '\n' then ['2'] else []
  let chomp :=
    if trailing = 0 then ['-'] else if body.isEmpty ∨ trailing > 1 then ['+'] else []
  let indented (line : List Char) : List Char := if line.isEmpty then [] else ' ' :: ' ' :: line
  '|' :: (hint ++ chomp ++ (Text.splitAll '\n' body).flatMap fun line => '\n' :: indented line) ++
    List.replicate (trailing - 1) '\n'

/-- How a text is written as a scalar.  Plain and single quoted ones are on one line, so a text with
breaks of its own kind is in double quotes if it is no block. -/
def writeScalar (text : String) : String :=
  let chars := text.toList
  let hidden := chars.any (!isShown ·) || hasSpaceBeside (· == ' ') isBreak chars
  let outerSpace := chars.head? == some ' ' || chars.getLast? == some ' '
  String.ofList <|
    if chars.contains '\n' then
      if hidden || chars.getLast? == some ' ' then doubleQuoted chars else literal chars
    else if hidden || chars.any isBreak then doubleQuoted chars
    else if isAmbiguous text || outerSpace || startsAsMark chars || hasMark true chars then
      singleQuoted chars
    else chars

end Medley.Yaml
