import Medley.Proofs.Tree.Substitution
import Medley.Record.Reader
import Medley.Record.Written

/-!
# Reading what was written

Every reader takes exactly the text that was written for a value off the start of what it sees: first
texts, attributes, kinds and ids, then repetitions of such items, and then records by induction on the
tree.  A record leaves out what a reference owns, and nothing else: trees in which references own
nothing are read back as they are, so their records tell them apart
(`Record.read_back_and_write_eq_iff`).
-/

namespace Medley

section Attributes

variable {κ : Type} [Ord κ] [Std.TransOrd κ] [Std.LawfulEqOrd κ] {α : Type}

omit [Std.LawfulEqOrd κ] in
theorem SortedMap.put_of_gt {key : κ} {value : α} {entries : List (κ × α)}
    (after : ∀ entry ∈ entries, compare entry.1 key = .lt) :
    put key value entries = entries ++ [(key, value)] := by
  induction entries with
  | nil => rfl
  | cons entry rest ih =>
      obtain ⟨other, old⟩ := entry
      have greater : compare key other = .gt := Std.OrientedCmp.gt_of_lt (after _ (.head _))
      rw [put, greater]
      exact congrArg _ (ih fun entry member => after entry (.tail _ member))

/-- A map is made of its entries. -/
theorem SortedMap.ofList_entries (map : SortedMap κ α) : ofList map.entries = map := by
  have appended : ∀ (entries : List (κ × α)) (before : SortedMap κ α),
      (before.entries ++ entries).Pairwise (fun left right => compare left.1 right.1 = .lt) →
      (entries.foldl (fun map entry => map.insert entry.1 entry.2) before).entries =
        before.entries ++ entries := by
    intro entries
    induction entries with
    | nil => simp
    | cons entry rest ih =>
        intro before sorted
        have placed : (before.insert entry.1 entry.2).entries = before.entries ++ [entry] :=
          put_of_gt fun other member =>
            (List.pairwise_append.1 sorted).2.2 other member entry (.head _)
        rw [List.foldl_cons, ih, placed, List.append_assoc, List.singleton_append]
        rwa [placed, List.append_assoc, List.singleton_append]
  exact ext (appended map.entries ∅ map.sorted)

end Attributes

namespace Record

variable {α β : Type}

section Steps

theorem bind_of_ok {item : Reader α} {next : α → Reader β} {text rest : List Char} {value : α}
    (reads : item text = .ok (value, rest)) : (item >>= next) text = next value rest := by
  simp only [bind, StateT.bind, reads, Except.bind]

theorem skipGap_cons {char : Char} (solid : isGap char = false) (text : List Char) :
    skipGap (char :: text) = char :: text := by
  rw [skipGap, List.dropWhile_cons_of_neg (by simp [solid])]

theorem expect_cons {char : Char} (solid : isGap char = false) (rest : List Char) :
    expect char (char :: rest) = .ok ((), rest) := by
  rw [expect, skipGap_cons solid]
  exact if_pos rfl

theorem expect_space {char : Char} (solid : isGap char = false) (rest : List Char) :
    expect char (' ' :: char :: rest) = .ok ((), rest) :=
  expect_cons solid rest

end Steps

section Texts

/-- A quoted text ends at the first quote that no backslash stands before. -/
theorem closeQuote_escape (text rest : List Char) :
    closeQuote (escape text ++ '"' :: rest) = some (text, rest) := by
  induction text with
  | nil => rfl
  | cons char text ih =>
      rw [escape]
      split
      · rw [List.cons_append, List.cons_append, closeQuote, ih]
        rfl
      · next plain =>
        have quote : char ≠ '"' := fun same => plain (.inl same)
        have backslash : char ≠ '\\' := fun same => plain (.inr same)
        rw [List.cons_append]
        simp [closeQuote, backslash, ih]

theorem quotedText_quoted (text : String) (rest : List Char) :
    quotedText (quoted text.toList ++ rest) = .ok (text, rest) := by
  rw [quotedText, quoted, List.cons_append, bind_of_ok (expect_cons rfl _), List.append_assoc,
    List.singleton_append]
  simp only [closeQuote_escape, String.ofList_toList]

theorem entry_attributeText (pair : String × String) (rest : List Char) :
    entry (attributeText pair ++ rest) = .ok (pair, rest) := by
  rw [entry, attributeText, List.append_assoc, bind_of_ok (quotedText_quoted ..), List.cons_append,
    bind_of_ok (expect_cons rfl _), bind_of_ok (quotedText_quoted ..)]
  rfl

/-- Nothing in a text continues a word of accepted characters before it. -/
theorem span_word {accepts : Char → Bool} {word rest : List Char}
    (all : ∀ char ∈ word, accepts char = true) (stops : ∀ char ∈ rest.head?, accepts char = false) :
    (word ++ rest).takeWhile accepts = word ∧ (word ++ rest).dropWhile accepts = rest := by
  rw [List.takeWhile_append_of_pos all, List.dropWhile_append_of_pos all]
  cases rest with
  | nil => simp
  | cons char rest =>
      have refused := stops char rfl
      simp [refused]

/-- A text that does not start with a gap is read where it stands. -/
theorem skipGap_append {word : List Char} (present : word ≠ [])
    (solid : ∀ char ∈ word, isGap char = false) (rest : List Char) :
    skipGap (word ++ rest) = word ++ rest := by
  obtain ⟨first, word, rfl⟩ := List.exists_cons_of_ne_nil present
  exact skipGap_cons (solid first (.head _)) _

theorem isGap_of_isAlpha {char : Char} (letter : char.isAlpha = true) : isGap char = false := by
  simp only [isGap, Bool.or_eq_false_iff, beq_eq_false_iff_ne]
  refine ⟨⟨⟨?_, ?_⟩, ?_⟩, ?_⟩ <;> rintro rfl <;> cases letter

theorem isGap_of_isDigit {char : Char} (digit : char.isDigit = true) : isGap char = false := by
  simp only [isGap, Bool.or_eq_false_iff, beq_eq_false_iff_ne]
  refine ⟨⟨⟨?_, ?_⟩, ?_⟩, ?_⟩ <;> rintro rfl <;> cases digit

/-- The name of a kind is a word of letters. -/
theorem name_spelled (kind : Kind) :
    kind.name.toList ≠ [] ∧ ∀ char ∈ kind.name.toList, char.isAlpha = true := by
  rw [← List.isEmpty_eq_false_iff, ← List.all_eq_true]
  cases kind with
  | filter test => cases test <;> exact ⟨rfl, rfl⟩
  | list form => cases form <;> exact ⟨rfl, rfl⟩
  | _ => exact ⟨rfl, rfl⟩

theorem kindWord_name (kind : Kind) (rest : List Char) :
    kindWord (kind.name.toList ++ ' ' :: rest) = .ok (kind, ' ' :: rest) := by
  have spelled := name_spelled kind
  have stands := skipGap_append spelled.1 (fun char member => isGap_of_isAlpha (spelled.2 char member))
  have ends : ∀ char ∈ (' ' :: rest).head?, char.isAlpha = false := by
    rintro char ⟨⟩
    rfl
  obtain ⟨taken, left⟩ := span_word spelled.2 ends
  rw [kindWord, stands, taken, left, String.ofList_toList, Kind.ofName?_name]

/-- A text that does not continue a number before it. -/
def EndsNumber (rest : List Char) : Prop := ∀ char ∈ rest.head?, char.isDigit = false

theorem endsNumber_close (rest : List Char) : EndsNumber (']' :: rest) := by
  rintro char ⟨⟩
  rfl

theorem writeInteger_ne_nil (value : Int) : Text.writeInteger value ≠ [] := by
  cases value with
  | ofNat value => exact Text.writeDigits_ne_nil value
  | negSucc value => exact List.cons_ne_nil _ _

theorem mediaId_writeInteger (id : Int64) {rest : List Char} (ends : EndsNumber rest) :
    mediaId (Text.writeInteger id.toInt ++ rest) = .ok (id, rest) := by
  have reads : Text.readInt64? (String.ofList (Text.writeInteger id.toInt)) = some id :=
    Text.readInt64?_writeInt64 id
  generalize id.toInt = value at reads
  cases value with
  | ofNat value =>
      have digits : ∀ char ∈ Text.writeDigits value, char.isDigit = true :=
        fun _ => Text.isDigit_of_mem_writeDigits
      obtain ⟨taken, left⟩ := span_word digits ends
      have stands := skipGap_append (Text.writeDigits_ne_nil value)
        fun char member => isGap_of_isDigit (digits char member)
      rw [Text.writeInteger] at reads ⊢
      rw [mediaId, stands]
      split
      next sign unsigned splits =>
      split at splits
      · next signed =>
        obtain ⟨first, others, written⟩ := List.exists_cons_of_ne_nil (Text.writeDigits_ne_nil value)
        rw [written] at signed digits
        have digit := digits first (.head _)
        rw [(List.cons.inj signed).1] at digit
        cases digit
      · obtain ⟨rfl, rfl⟩ := Prod.mk.inj splits
        rw [taken, left, List.nil_append, reads]
  | negSucc value =>
      have digits : ∀ char ∈ Text.writeDigits (value + 1), char.isDigit = true :=
        fun _ => Text.isDigit_of_mem_writeDigits
      obtain ⟨taken, left⟩ := span_word digits ends
      rw [Text.writeInteger] at reads ⊢
      rw [List.cons_append, mediaId, skipGap_cons rfl]
      simp only [taken, left]
      rw [List.singleton_append, reads]

end Texts

section Repetitions

variable {item : Reader β} {written : α → List Char} {image : α → β} {values : List α}
  {tail failure : List Char}

theorem endsNumber_pieces (ends : EndsNumber tail) (pieces : List (List Char)) :
    EndsNumber (pieces.flatMap (' ' :: ·) ++ tail) := by
  cases pieces with
  | nil => exact ends
  | cons piece pieces =>
      rintro char ⟨⟩
      rfl

/-- Items behind spaces are read one by one, up to a text that is no item. -/
theorem many_pieces (gap : ∀ text, item (' ' :: text) = item text)
    (reads : ∀ value ∈ values, ∀ rest, EndsNumber rest →
      item (written value ++ rest) = .ok (image value, rest))
    (ends : EndsNumber tail) (stops : item tail = .error failure) {budget : Nat}
    (enough : values.length ≤ budget) :
    many item budget ((values.map written).flatMap (' ' :: ·) ++ tail) = (values.map image, tail) := by
  induction values generalizing budget with
  | nil =>
      cases budget with
      | zero => rfl
      | succ budget => simp [many, stops]
  | cons value values ih =>
      obtain _ | budget := budget
      · cases enough
      have rest := ih (fun other member => reads other (.tail _ member)) (Nat.le_of_succ_le_succ enough)
      have first := reads value (.head _) _ (endsNumber_pieces ends (values.map written))
      rw [List.map_cons, List.flatMap_cons, List.cons_append, List.cons_append, List.append_assoc,
        many, gap, first]
      simp only [rest, List.map_cons]

theorem spaced_cons (piece : List Char) (pieces : List (List Char)) :
    spaced (piece :: pieces) = piece ++ pieces.flatMap (' ' :: ·) := by
  induction pieces generalizing piece with
  | nil => simp [spaced]
  | cons next pieces ih =>
      have step : spaced (piece :: next :: pieces) = piece ++ ' ' :: spaced (next :: pieces) := by
        simp [spaced, List.intercalate, List.intersperse]
      rw [step, ih]
      rfl

theorem length_le_pieces (pieces : List (List Char)) :
    pieces.length ≤ (pieces.flatMap (' ' :: ·)).length := by
  induction pieces with
  | nil => exact Nat.le_refl _
  | cons piece pieces ih =>
      rw [List.flatMap_cons, List.length_append, List.length_cons, List.length_cons]
      omega

/-- Items with spaces between them are read one by one, up to a text that is no item. -/
theorem repeated_spaced (gap : ∀ text, item (' ' :: text) = item text)
    (reads : ∀ value ∈ values, ∀ rest, EndsNumber rest →
      item (written value ++ rest) = .ok (image value, rest))
    (ends : EndsNumber tail) (stops : item tail = .error failure)
    (present : ∀ value ∈ values, written value ≠ []) :
    repeated item (spaced (values.map written) ++ tail) = .ok (values.map image, tail) := by
  cases values with
  | nil =>
      have none := many_pieces gap reads ends stops (Nat.zero_le tail.length)
      exact congrArg Except.ok none
  | cons value values =>
      have first := reads value (.head _) _ (endsNumber_pieces ends (values.map written))
      have some := List.length_pos_iff.2 (present value (.head _))
      have count := length_le_pieces (values.map written)
      rw [List.length_map] at count
      rw [List.map_cons, spaced_cons, List.append_assoc, repeated]
      cases size : (written value ++ ((values.map written).flatMap (' ' :: ·) ++ tail)).length with
      | zero =>
          rw [List.length_append] at size
          omega
      | succ budget =>
          rw [List.length_append, List.length_append] at size
          have others : many item budget ((values.map written).flatMap (' ' :: ·) ++ tail) =
              (values.map image, tail) :=
            many_pieces gap (fun other member => reads other (.tail _ member)) ends stops (by omega)
          rw [many, first]
          simp only [others, List.map_cons]

/-- Items behind spaces are read one by one, up to a text that is no item. -/
theorem repeated_pieces (gap : ∀ text, item (' ' :: text) = item text)
    (reads : ∀ value ∈ values, ∀ rest, EndsNumber rest →
      item (written value ++ rest) = .ok (image value, rest))
    (ends : EndsNumber tail) (stops : item tail = .error failure) :
    repeated item ((values.map written).flatMap (' ' :: ·) ++ tail) =
      .ok (values.map image, tail) := by
  rw [repeated, many_pieces gap reads ends stops]
  have count := length_le_pieces (values.map written)
  rw [List.length_map] at count
  rw [List.length_append]
  omega

end Repetitions

section Trees

/-- Marks are not written. -/
@[simp] theorem write_shape (tree : Tree α) : write tree.shape = write tree := by
  suffices same : chars tree.shape = chars tree from congrArg String.ofList same
  induction tree using Tree.induction with
  | node mark operator operands ih =>
      rw [Tree.shape_node, chars_node, chars_node, List.map_map]
      congr 2
      exact List.map_congr_left ih

theorem shapeWithin_space (depth : Nat) (text : List Char) :
    shapeWithin depth (' ' :: text) = shapeWithin depth text := by
  cases depth <;> rfl

theorem shapeWithin_close (depth : Nat) (text : List Char) :
    shapeWithin depth (')' :: text) = .error (')' :: text) := by
  cases depth <;> rfl

theorem length_le_flatMap {piece : List Char} {pieces : List (List Char)} (member : piece ∈ pieces) :
    piece.length ≤ (pieces.flatMap (' ' :: ·)).length := by
  induction pieces with
  | nil => cases member
  | cons first pieces ih =>
      rw [List.flatMap_cons, List.length_append, List.length_cons]
      rcases List.mem_cons.1 member with rfl | member
      · omega
      · exact Nat.le_trans (ih member) (Nat.le_add_left ..)

/-- The record of an operand is shorter than the record around it. -/
theorem length_lt_form {operator : Operator} {pieces : List (List Char)} {piece : List Char}
    (member : piece ∈ pieces) : piece.length < (form operator pieces).length := by
  have inside := length_le_flatMap member
  simp only [form, List.length_cons, List.length_append]
  omega

/-- A record is read up to where it was written. -/
theorem shapeWithin_chars {tree : Tree α} (bare : tree.BareReferences) {depth : Nat}
    (enough : (chars tree).length ≤ depth) (rest : List Char) :
    shapeWithin depth (chars tree ++ rest) = .ok (tree.shape, rest) := by
  induction tree using Tree.induction generalizing depth rest with
  | node mark operator operands ih =>
      obtain ⟨ownsNothing, bareBelow⟩ := Tree.bareReferences_node.1 bare
      rw [chars_node] at enough ⊢
      obtain _ | depth := depth
      · cases enough
      have written : (if operator.kind = .reference then [] else operands.map chars) =
          operands.map chars := by
        split
        · next reference => rw [ownsNothing reference, List.map_nil]
        · rfl
      rw [written] at enough ⊢
      have attributes : ∀ tail, repeated entry
          (spaced (operator.attributes.entries.map attributeText) ++ ']' :: tail) =
            .ok (operator.attributes.entries, ']' :: tail) := by
        intro tail
        have read := repeated_spaced (fun _ => rfl) (fun pair _ rest _ => entry_attributeText pair rest)
          (endsNumber_close tail) (rfl : entry (']' :: tail) = .error (']' :: tail))
          (fun pair (_ : pair ∈ operator.attributes.entries) => List.cons_ne_nil _ _)
        rwa [List.map_id'] at read
      have ids : ∀ tail, repeated mediaId
          (spaced (operator.ids.map fun id => Text.writeInteger id.toInt) ++ ']' :: tail) =
            .ok (operator.ids, ']' :: tail) := by
        intro tail
        have read := repeated_spaced (fun _ => rfl) (fun id _ rest => mediaId_writeInteger id)
          (endsNumber_close tail) (rfl : mediaId (']' :: tail) = .error (']' :: tail))
          (fun id (_ : id ∈ operator.ids) => writeInteger_ne_nil id.toInt)
        rwa [List.map_id'] at read
      have below : repeated (shapeWithin depth)
          ((operands.map chars).flatMap (' ' :: ·) ++ ')' :: rest) =
            .ok (operands.map Tree.shape, ')' :: rest) := by
        refine repeated_pieces (shapeWithin_space depth) (fun operand member tail _ => ?_)
          (fun char first => ?_) (shapeWithin_close depth rest)
        · have shorter : (chars operand).length < (form operator (operands.map chars)).length :=
            length_lt_form (List.mem_map_of_mem member)
          exact ih operand member (bareBelow operand member) (by omega) tail
        · cases first
          rfl
      rw [form, shapeWithin]
      simp only [List.cons_append, List.append_assoc]
      rw [bind_of_ok (expect_cons rfl _), bind_of_ok (kindWord_name ..),
        bind_of_ok (expect_space rfl _), bind_of_ok (attributes _), bind_of_ok (expect_cons rfl _),
        bind_of_ok (expect_space rfl _), bind_of_ok (ids _), bind_of_ok (expect_cons rfl _),
        List.nil_append, bind_of_ok below, bind_of_ok (expect_cons rfl _), SortedMap.ofList_entries,
        Tree.shape_node]
      rfl

/-- Reading a record gives the tree that was written. -/
theorem read_write_of_bare {tree : Tree α} (bare : tree.BareReferences) (what : String) :
    read what (write tree) = .ok tree.shape := by
  have whole : shape (chars tree) = .ok (tree.shape, []) := by
    have read := shapeWithin_chars bare (Nat.le_succ (chars tree).length) []
    rwa [List.append_nil] at read
  rw [read, write, String.toList_ofList]
  simp only [whole]
  rfl

theorem read_write {tree : Tree α} (valid : tree.validate = .ok ()) (what : String) :
    read what (write tree) = .ok tree.shape :=
  read_write_of_bare (Tree.bareReferences_of_validate valid) what

/-- Trees in which references own nothing are read back as they are, and have the same record exactly
if they say the same. -/
theorem read_back_and_write_eq_iff {left : Tree α} {right : Tree β} (bare : left.BareReferences)
    (bareOther : right.BareReferences) (what : String) :
    (∃ back, read what (write left) = .ok back ∧ back.sameShape left = true) ∧
      (write left = write right ↔ left.sameShape right = true) := by
  have backLeft := read_write_of_bare bare what
  have backRight := read_write_of_bare bareOther what
  refine ⟨⟨left.shape, backLeft, ?_⟩, fun same => ?_, fun same => ?_⟩
  · rw [Tree.sameShape_eq_true, Tree.shape_shape]
  · rw [same, backRight] at backLeft
    exact Tree.sameShape_eq_true.2 (Except.ok.inj backLeft).symm
  · calc write left = write left.shape := (write_shape left).symm
      _ = write right.shape := congrArg write (Tree.sameShape_eq_true.1 same)
      _ = write right := write_shape right

/-- A tree of texts that are escaped or empty and of ids at the ends of their range, over a
reference. -/
def awkward : Shape :=
  .node ()
    { kind := .has
      attributes := .ofList [("", ""), ("say \"hi\"", "\\ [ ( \n")]
      ids := [Int64.minValue, -1, Int64.maxValue] }
    [.reference () "] \" \\" "Collections"]

theorem read_back_awkward :
    (awkward.BareReferences ∧ (Tree.everything ()).BareReferences) ∧
      (∃ back, read "awkward" (write awkward) = .ok back ∧ back.sameShape awkward = true) ∧
      (write awkward = write (Tree.everything ()) ↔
        awkward.sameShape (Tree.everything ()) = true) := by
  have bare : awkward.BareReferences := by
    simp [awkward, Tree.reference, Tree.leaf, Tree.bareReferences_node]
  have bareOther : (Tree.everything ()).BareReferences := by
    simp [Tree.everything, Tree.leaf, Tree.bareReferences_node]
  exact ⟨⟨bare, bareOther⟩, read_back_and_write_eq_iff bare bareOther "awkward"⟩

end Trees

end Record

end Medley
