import Medley.Yaml.Scalar

/-!
# Reading YAML

A reader for the YAML that configurations are written in: mappings and lists in block or in flow
form, with scalars as leaves.  Anchors, tags, directives, folded blocks and keys that are no scalars
are refused, and so is more than one document.
-/

namespace Medley

/-- A YAML value as it is written. -/
inductive Yaml where
  | scalar (text : String) (isPlain : Bool)
  | list (items : List Yaml)
  /-- Entries in the order of the text; a key may occur more than once. -/
  | mapping (entries : List (String × Yaml))

namespace Yaml

/-- The value of what is left out. -/
def absent : Yaml := scalar "" true

/-- A step of reading: it starts at a cursor, and gives what it has read and the cursor behind it. -/
abbrev Reads (α : Type) := Cursor → Option (α × Cursor)

/-- Whether a colon that ends a key is ahead. -/
def keyEnds : List Char → Bool
  | ':' :: rest => blankAhead rest
  | _ => false

/-- Whether a colon that ends a key inside brackets is ahead; behind a key in quotes it needs no
blank. -/
def flowKeyEnds (isPlain : Bool) : List Char → Bool
  | ':' :: rest => !isPlain || blankAhead rest
  | _ => false

/-- Read a scalar inside brackets. -/
def flowScalar (cursor : Cursor) : Option (Yaml × Cursor) := do
  match cursor.rest.head? with
  | some '\'' | some '"' =>
      let (text, behind) ← quotedScalar cursor
      return (.scalar text false, behind.next true)
  | _ =>
      if startsPlain true cursor.rest then
        let (text, behind) := plainScalar true 0 cursor
        return (.scalar text true, behind.next true)
      else none

/-- The items up to a closing bracket, with commas between them and perhaps one behind the last, at
most a given number. -/
def itemsBefore {α : Type} (close : Char) (item : Reads α) : Nat → Reads (List α)
  | 0, _ => none
  | budget + 1, cursor => do
      if cursor.rest.head? = some close then return ([], cursor.advance 1)
      else
        let (first, behind) ← item cursor
        if behind.rest.head? = some ',' then
          let (items, final) ← itemsBefore close item budget ((behind.advance 1).next true)
          return (first :: items, final)
        else if behind.rest.head? = some close then return ([first], behind.advance 1)
        else none

/-- The items in brackets, at the opening one. -/
def bracketed {α : Type} (close : Char) (item : Reads α) (cursor : Cursor) :
    Option (List α × Cursor) :=
  itemsBefore close item (cursor.rest.length + 1) ((cursor.advance 1).next true)

/-- Read an entry of a mapping in braces; a key without a colon has no value. -/
def flowEntry (value : Reads Yaml) (cursor : Cursor) : Option ((String × Yaml) × Cursor) := do
  match ← flowScalar cursor with
  | (.scalar key isPlain, behind) =>
      if flowKeyEnds isPlain behind.rest then
        let start := (behind.advance 1).next true
        if start.rest.head?.any fun char => char == ',' || char == '\x7d' then
          return ((key, absent), start)
        else
          let (value, final) ← value start
          return ((key, value), final)
      else return ((key, absent), behind)
  | _ => none

/-- Read an item of a list in brackets; a key with a value makes a mapping of its own. -/
def flowItem (value : Reads Yaml) (cursor : Cursor) : Option (Yaml × Cursor) := do
  let (item, behind) ← value cursor
  match item with
  | .scalar key isPlain =>
      if flowKeyEnds isPlain behind.rest then
        let start := (behind.advance 1).next true
        if start.rest.head?.any fun char => char == ',' || char == ']' then
          return (.mapping [(key, absent)], start)
        else
          let (value, final) ← value start
          return (.mapping [(key, value)], final)
      else return (item, behind)
  | _ => return (item, behind)

/-- Read a value inside brackets that nests no deeper than a given number of levels. -/
def flowWithin : Nat → Reads Yaml
  | 0, _ => none
  | depth + 1, cursor => do
      match cursor.rest.head? with
      | some '[' =>
          let (items, behind) ← bracketed ']' (flowItem (flowWithin depth)) cursor
          return (.list items, behind.next true)
      | some '\x7b' =>
          let (entries, behind) ← bracketed '\x7d' (flowEntry (flowWithin depth)) cursor
          return (.mapping entries, behind.next true)
      | _ => flowScalar cursor

/-- Read a list or a mapping in brackets that stands in block form. -/
def flowNode (cursor : Cursor) : Option (Yaml × Cursor) := do
  match cursor.rest.head? with
  | some '[' =>
      let depth := cursor.rest.length
      let (items, behind) ← bracketed ']' (flowItem (flowWithin depth)) cursor
      return (.list items, behind)
  | _ =>
      let depth := cursor.rest.length
      let (entries, behind) ← bracketed '\x7d' (flowEntry (flowWithin depth)) cursor
      return (.mapping entries, behind)

/-- What may stand behind a colon on the same line: anything but a list or a mapping in block form.
The lines that carry it on must be indented at least to a given column. -/
def inlineNode (parent floor : Nat) (cursor : Cursor) : Option (Yaml × Cursor) := do
  match cursor.rest.head? with
  | some '[' | some '\x7b' => flowNode cursor
  | some '\'' | some '"' =>
      let (text, behind) ← quotedScalar cursor
      return (.scalar text false, behind)
  | some '|' =>
      let (text, behind) ← literalBlock parent floor cursor
      return (.scalar text false, behind)
  | _ =>
      if startsPlain false cursor.rest then
        let (text, behind) := plainScalar false floor cursor
        return (.scalar text true, behind)
      else none

/-- What a cursor shows behind a value: the cursor at the next thing, which must be on a new line. -/
def onNewLine (cursor : Cursor) : Option Cursor :=
  let following := cursor.next false
  if following.isFresh ∨ following.rest.isEmpty then some following else none

/-- A scalar on one line that a colon makes a key, and the cursor at that colon.  A colon alone is one
behind an empty key. -/
def key? (cursor : Cursor) : Option (String × Cursor) := do
  match cursor.rest.head? with
  | some '\'' | some '"' =>
      let (text, behind) ← quotedScalar cursor
      let colon := behind.skipBlanks
      let passed := cursor.rest.take (cursor.rest.length - colon.rest.length)
      if keyEnds colon.rest ∧ ¬ passed.contains '\n' then return (text, colon) else none
  | _ =>
      if keyEnds cursor.rest then return ("", cursor)
      else if startsPlain false cursor.rest then
        let (raw, left) := plainLine false false cursor.rest
        if keyEnds left then return (String.ofList (trimEnd raw), cursor.jump left) else none
      else none

/-- Whether an item of a list in block form is ahead. -/
def itemStarts : List Char → Bool
  | '-' :: rest => blankAhead rest
  | _ => false

/-- Read the entries of a mapping in block form, at most a given number.  Keys stand in one column;
the value of a key is behind its colon, or below it and further in, and a list may also be below it
in the same column. -/
def mappingAt (node : Nat → Reads Yaml) (items : Nat → Reads (List Yaml)) (column : Nat) :
    Nat → Reads (List (String × Yaml))
  | 0, _ => none
  | budget + 1, cursor => do
      let (key, colon) ← key? cursor
      let start := (colon.advance 1).next false
      let (value, following) ←
        if start.atDocumentEnd then some (absent, start)
        else if ¬ start.isFresh then do
          let (value, behind) ← inlineNode column (column + 1) start
          some (value, ← onNewLine behind)
        else if column < start.column then node (column + 1) start
        else if start.column = column ∧ itemStarts start.rest then
          (items column start).map fun (items, final) => (.list items, final)
        else some (absent, start)
      if following.atDocumentEnd ∨ following.column < column then
        return ([(key, value)], following)
      else if following.column = column then
        let (entries, final) ← mappingAt node items column budget following
        return ((key, value) :: entries, final)
      else none

/-- Read the items of a list in block form, at most a given number.  What else stands in the column
of the items ends the list. -/
def itemsAt (node : Nat → Reads Yaml) (column : Nat) : Nat → Reads (List Yaml)
  | 0, _ => none
  | budget + 1, cursor => do
      let start := { cursor.advance 1 with isFresh := true }.next false
      let isInline := !(cursor.rest.take (cursor.rest.length - start.rest.length)).contains '\n'
      let (value, following) ←
        if start.atDocumentEnd then some (absent, start)
        else if isInline ∨ column < start.column then node (column + 1) start
        else some (absent, start)
      if ¬ following.atDocumentEnd ∧ following.column = column ∧ itemStarts following.rest then
        let (items, final) ← itemsAt node column budget following
        return (value :: items, final)
      else if following.atDocumentEnd ∨ following.column ≤ column then return ([value], following)
      else none

/-- Read a value in block form that nests no deeper than a given number of levels. -/
def blockWithin : Nat → Nat → Reads Yaml
  | 0, _, _ => none
  | depth + 1, floor, cursor => do
      let count := cursor.rest.length + 1
      let items (column : Nat) (cursor : Cursor) := itemsAt (blockWithin depth) column count cursor
      if itemStarts cursor.rest then
        let (items, final) ← items cursor.column cursor
        if ¬ final.atDocumentEnd ∧ final.column = cursor.column then none
        else return (.list items, final)
      else if (key? cursor).isSome then
        let (entries, final) ←
          mappingAt (blockWithin depth) items cursor.column count cursor
        return (.mapping entries, final)
      else
        let (value, behind) ← inlineNode (floor - 1) floor cursor
        return (value, ← onNewLine behind)

/-- Whether a character may stand in a YAML text. -/
def isAllowed (char : Char) : Bool :=
  let code := char.toNat
  char == '\t' || char == '\n' || code == 0x85 || (0x20 ≤ code && code < 0x7F) ||
  (0xA0 ≤ code && code != 0xFFFE && code != 0xFFFF)

/-- A text with every line break written as a line feed. -/
def unifyBreaks : List Char → List Char
  | [] => []
  | '\r' :: '\n' :: rest => '\n' :: unifyBreaks rest
  | char :: rest => (if char = '\r' ∨ char = '\u0085' then '\n' else char) :: unifyBreaks rest

/-- Whether nothing but the end of the document is ahead. -/
def endsHere (cursor : Cursor) : Bool :=
  match cursor.rest with
  | [] => true
  | '.' :: '.' :: '.' :: rest =>
      let following := ({ rest, column := 3, isFresh := false } : Cursor).next false
      following.rest.isEmpty
  | _ => false

/-- The cursor at the content of a document, behind the mark that may start it. -/
def documentStart (cursor : Cursor) : Cursor :=
  match cursor.rest with
  | '-' :: '-' :: '-' :: rest =>
      if cursor.column = 0 ∧ blankAhead rest then
        ({ rest, column := 3, isFresh := false } : Cursor).next false
      else cursor
  | _ => cursor

/-- The value that a text is. -/
def parse? (text : String) : Option Yaml := do
  let chars := unifyBreaks text.toList
  let chars := if chars.head? = some '\uFEFF' then chars.tail else chars
  if ¬ chars.all isAllowed then none
  else
    let start := documentStart (({ rest := chars } : Cursor).next false)
    if start.atDocumentEnd then
      if endsHere start then return absent else none
    else
      let (value, final) ← blockWithin (chars.length + 1) 0 start
      if endsHere final then return value else none

end Yaml

end Medley
