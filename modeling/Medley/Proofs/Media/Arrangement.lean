import Mathlib.Data.List.Pairwise
import Medley.Proofs.Media.Order
import Medley.Proofs.Meaning.Selection

/-!
# What a query answers

A library answers a query in four steps: it takes the media that the query selects, leaves the one with
the lowest id for each group of values, sorts them by the keys of the query and cuts a range out of them.
Where no pattern is broken, no key is random and no key finds both integers and texts, the answer is the
range of the one arrangement in which every medium precedes those that come later
(`MemoryLibrary.execute_eq_slice`).
-/

namespace Medley

/-! ## Which medium is before which -/

/-- A relation in a direction. -/
def Direction.Puts {α : Type} (direction : Direction) (below : α → α → Prop) (first second : α) : Prop :=
  match direction with
  | .ascending => below first second
  | .descending => below second first

theorem Direction.apply_eq_lt {α : Type} (below : α → α → Prop) (order : α → α → Ordering)
    (lawful : ∀ left right, order left right = .lt ↔ below left right)
    (turns : ∀ left right, order right left = (order left right).swap) (direction : Direction)
    (left right : α) : direction.apply (order left right) = .lt ↔ direction.Puts below left right := by
  cases direction with
  | ascending => exact lawful left right
  | descending =>
      rw [Puts, ← lawful, turns left right]
      rfl

namespace Value

/-- Whether a value is below another one: as integers if both hold one, else as texts. -/
def Below (ignoresCase : Bool) (left right : Value) : Prop :=
  match left.toInteger?, right.toInteger? with
  | some left, some right => left < right
  | _, _ => left.sortText ignoresCase < right.sortText ignoresCase

theorem order_eq_lt_iff (ignoresCase : Bool) (left right : Value) :
    order ignoresCase left right = .lt ↔ Below ignoresCase left right := by
  rw [order_eq, Text.order, Below, readHeldInt64?_sortText, readHeldInt64?_sortText]
  cases left.toInteger? <;> cases right.toInteger? <;> exact compareOfLessAndEq_eq_lt

end Value

namespace OrderBy

variable {order : OrderBy} {orders : List OrderBy} {first second : Medium}

/-- Whether a key puts a medium before another one.  A medium that has the value is before one that
lacks it in either direction. -/
inductive Before (order : OrderBy) (first second : Medium) : Prop where
  | id (isKey : order.key = .id) (puts : order.direction.Puts (· < ·) first.id second.id)
  | value {field : String} {number : Option Nat} {value other : Value}
      (isKey : order.key = .value field number) (has : first.properties.get? field = some value)
      (has' : second.properties.get? field = some other)
      (puts : order.direction.Puts (Value.Below (order.collation == some "NOCASE")) value other)
  | missing {field : String} {number : Option Nat} {value : Value}
      (isKey : order.key = .value field number) (has : first.properties.get? field = some value)
      (lacks : second.properties.get? field = none)

theorem compare_eq_lt_iff (order : OrderBy) (first second : Medium) :
    order.compare first second = .lt ↔ order.Before first second := by
  cases isKey : order.key with
  | random =>
      simp only [compare, isKey]
      refine ⟨fun same => absurd same (by decide), fun before => ?_⟩
      cases before <;> simp_all
  | id =>
      have directed := order.direction.apply_eq_lt (· < ·) Ord.compare
        (fun left right => compareOfLessAndEq_eq_lt) (fun left right => Std.OrientedCmp.eq_swap)
        first.id second.id
      simp only [compare, isKey]
      refine directed.trans ⟨.id isKey, fun before => ?_⟩
      cases before <;> simp_all
  | value field number =>
      rw [compare_of_value isKey, value?_of_value isKey, value?_of_value isKey]
      constructor
      · intro before
        cases has : first.properties.get? field with
        | none => cases lacks : second.properties.get? field <;> simp [has, lacks, orderValues] at before
        | some value =>
            cases has' : second.properties.get? field with
            | none => exact .missing isKey has has'
            | some other =>
                rw [has, has', orderValues, Direction.apply_eq_lt _ _ (Value.order_eq_lt_iff _)
                  (Value.order_swap _)] at before
                exact .value isKey has has' before
      · intro before
        cases before with
        | id isId puts => cases isKey.symm.trans isId
        | value isValue has has' puts =>
            cases isKey.symm.trans isValue
            rw [has, has', orderValues, Direction.apply_eq_lt _ _ (Value.order_eq_lt_iff _)
              (Value.order_swap _)]
            exact puts
        | missing isValue has lacks =>
            cases isKey.symm.trans isValue
            rw [has, lacks, orderValues]

theorem compare_eq_gt_iff (order : OrderBy) (first second : Medium) :
    order.compare first second = .gt ↔ order.Before second first := by
  rw [← compare_eq_lt_iff, order.compare_swap second first, Ordering.swap_eq_gt]

/-- Whether a medium comes before another one for several keys: a later key counts where the earlier ones
do not tell them apart, and the id where none does. -/
def Precedes : List OrderBy → Medium → Medium → Prop
  | [], first, second => first.id < second.id
  | order :: later, first, second =>
      order.Before first second ∨ ¬ order.Before second first ∧ Precedes later first second

theorem precedes_iff (orders : List OrderBy) (first second : Medium) :
    Precedes orders first second ↔ compareAll orders first second = .lt ∨
      compareAll orders first second = .eq ∧ first.id < second.id := by
  induction orders with
  | nil => simp [Precedes]
  | cons order later ih =>
      rw [Precedes, ih, ← compare_eq_lt_iff, ← compare_eq_gt_iff, compareAll_cons]
      cases order.compare first second <;> simp

theorem Precedes.asymm (precedes : Precedes orders first second) : ¬ Precedes orders second first := by
  rw [precedes_iff] at precedes
  rw [precedes_iff, compareAll_swap]
  rcases precedes with before | ⟨level, lower⟩
  · simp [before]
  · simpa [level] using Int64.le_of_lt lower

/-! ## Keys that find one kind of values -/

/-- Whether a key has one order for some media: it is not random, and what it looks at is an integer for
all of them or for none. -/
structure Definite (order : OrderBy) (media : List Medium) : Prop where
  notRandom : order.key ≠ .random
  uniform : ∀ field number, order.key = .value field number →
    (∀ medium ∈ media, ∀ value, medium.properties.get? field = some value →
      value.toInteger?.isSome = true) ∨
    ∀ medium ∈ media, ∀ value, medium.properties.get? field = some value → value.toInteger? = none

theorem Definite.mono {media some : List Medium} (definite : order.Definite media)
    (within : ∀ medium ∈ some, medium ∈ media) : order.Definite some where
  notRandom := definite.notRandom
  uniform := fun field number isKey =>
    (definite.uniform field number isKey).imp (fun all medium member => all medium (within medium member))
      fun none medium member => none medium (within medium member)

theorem Definite.not_splits {media : List Medium} {third : Medium} (definite : order.Definite media)
    (isFirst : first ∈ media) (isSecond : second ∈ media) : ¬ order.Splits first second third := by
  intro splits
  obtain ⟨value, has, isText⟩ := splits.noNumber
  have isNumber := splits.numberBelow
  cases isKey : order.key with
  | id => simp [value?, isKey] at has
  | random => simp [value?, isKey] at has
  | value field number =>
      rw [value?_of_value isKey] at has isNumber
      rcases definite.uniform field number isKey with all | none
      · simpa [isText] using all second isSecond value has
      · cases has' : first.properties.get? field with
        | none => simp [has'] at isNumber
        | some other => simp [has', none first isFirst other has'] at isNumber

theorem not_entangled_of_definite {media : List Medium} {third : Medium}
    (definite : ∀ order ∈ orders, order.Definite media) (isFirst : first ∈ media)
    (isSecond : second ∈ media) : ¬ Entangled orders first second third := by
  rintro ⟨before, order, after, rfl, -, splits, -⟩
  exact (definite order (List.mem_append_right _ (.head _))).not_splits isFirst isSecond splits

end OrderBy

/-! ## Sorted media -/

/-- Of two elements of a list that is ordered by a relation, the lower one comes first. -/
theorem List.pair_sublist_of_pairwise {α : Type} {relation : α → α → Prop} {elements : List α}
    (asymm : ∀ first second, relation first second → ¬ relation second first)
    (ordered : elements.Pairwise relation) {first second : α} (isFirst : first ∈ elements)
    (isSecond : second ∈ elements) (related : relation first second) :
    [first, second].Sublist elements := by
  induction elements with
  | nil => cases isFirst
  | cons element rest ih =>
      obtain ⟨ahead, later⟩ := List.pairwise_cons.1 ordered
      rcases List.mem_cons.1 isFirst with rfl | inside
      · rcases List.mem_cons.1 isSecond with rfl | inside
        · exact absurd related (asymm _ _ related)
        · exact (List.singleton_sublist.2 inside).cons_cons _
      · rcases List.mem_cons.1 isSecond with rfl | inside'
        · exact absurd (ahead first inside) (asymm _ _ related)
        · exact (ih later inside inside').cons _

theorem List.not_sublist_swap {α : Type} {elements : List α} (distinct : elements.Nodup)
    {first second : α} (placed : [first, second].Sublist elements) :
    ¬ [second, first].Sublist elements := by
  induction elements with
  | nil => cases placed
  | cons element rest ih =>
      obtain ⟨absent, later⟩ := List.nodup_cons.1 distinct
      intro turned
      rcases List.cons_sublist_cons'.1 placed with below | ⟨rfl, below⟩
      · rcases List.cons_sublist_cons'.1 turned with below' | ⟨rfl, -⟩
        · exact ih later below below'
        · exact absent (below.subset (.tail _ (.head _)))
      · rcases List.cons_sublist_cons'.1 turned with below' | ⟨rfl, -⟩
        · exact absent (below'.subset (.tail _ (.head _)))
        · exact absent (below.subset (.head _))

/-- A sort by a test that is transitive and total among the elements of a list keeps the order of those
that the test does not tell apart. -/
theorem List.pairwise_mergeSort_of_pairwise {α : Type} (relation : α → α → Prop) (test : α → α → Bool)
    {elements : List α} (asymm : ∀ first second, relation first second → ¬ relation second first)
    (transitive : ∀ first ∈ elements, ∀ second ∈ elements, ∀ third ∈ elements,
      test first second = true → test second third = true → test first third = true)
    (total : ∀ first second, (test first second || test second first) = true)
    (ordered : elements.Pairwise relation) :
    (elements.mergeSort test).Pairwise fun first second =>
      test first second = true ∧ (test second first = true → relation first second) := by
  -- Within the elements of the list the test is transitive without a proviso.
  let within (first second : {element // element ∈ elements}) : Bool := test first.1 second.1
  have sorts : elements.mergeSort test = (elements.attach.mergeSort within).map Subtype.val := by
    have maps := List.map_mergeSort (r := within) (s := test) (f := Subtype.val)
      (l := elements.attach) fun _ _ _ _ => rfl
    rw [maps, List.attach_map_subtype_val]
  have chains : ∀ first second third, within first second = true → within second third = true →
      within first third = true := fun first second third =>
    transitive first.1 first.2 second.1 second.2 third.1 third.2
  have compares : ∀ first second, (within first second || within second first) = true :=
    fun first second => total first.1 second.1
  have attached : elements.attach.Pairwise fun first second => relation first.1 second.1 := by
    rw [← List.pairwise_map (R := relation), List.attach_map_subtype_val]
    exact ordered
  have distinct : (elements.attach.mergeSort within).Nodup := by
    refine (List.mergeSort_perm _ _).nodup_iff.2 (attached.imp fun {first second} related same => ?_)
    exact asymm _ _ (same ▸ related) (same ▸ related)
  let related (first second : {element // element ∈ elements}) : Prop :=
    relation first.1 second.1 ∨ relation second.1 first.1
  have symm : Std.Symm related := ⟨fun _ _ => Or.symm⟩
  have all : elements.attach.Pairwise related := attached.imp .inl
  rw [sorts, List.pairwise_map]
  refine List.pairwise_iff_forall_sublist.2 fun {first second} placed => ⟨?_, fun level => ?_⟩
  · exact List.pairwise_iff_forall_sublist.1 (List.pairwise_mergeSort chains compares _) placed
  · have isFirst := List.mem_attach elements first
    have isSecond := List.mem_attach elements second
    have differs : first ≠ second := List.pairwise_iff_forall_sublist.1 distinct placed
    refine (all.forall isFirst isSecond differs).resolve_right fun turned => ?_
    -- The sort would have left the second in front of the first.
    refine List.not_sublist_swap distinct placed (List.pair_sublist_mergeSort chains compares level ?_)
    exact List.pair_sublist_of_pairwise (fun _ _ => asymm _ _) attached isSecond isFirst turned

/-- Media in the order of their ids are sorted such that each precedes those that come later. -/
theorem OrderBy.pairwise_sort {orders : List OrderBy} {media : List Medium}
    (ascending : media.Pairwise fun first second => first.id < second.id)
    (definite : ∀ order ∈ orders, order.Definite media) :
    (OrderBy.sort orders media).Pairwise (Precedes orders) := by
  have asymm (first second : Medium) (lower : first.id < second.id) : ¬ second.id < first.id :=
    Int64.lt_asymm lower
  have transitive : ∀ first ∈ media, ∀ second ∈ media, ∀ third ∈ media,
      (compareAll orders first second).isLE = true → (compareAll orders second third).isLE = true →
        (compareAll orders first third).isLE = true :=
    fun first isFirst second isSecond third isThird =>
      compareAll_isLE_trans (not_entangled_of_definite definite isFirst isSecond)
        (not_entangled_of_definite definite isSecond isThird)
        (not_entangled_of_definite definite isThird isFirst)
  have total (first second : Medium) :
      ((compareAll orders first second).isLE || (compareAll orders second first).isLE) = true := by
    rw [compareAll_swap orders first second]
    cases compareAll orders first second <;> rfl
  have sorted := List.pairwise_mergeSort_of_pairwise (fun first second : Medium => first.id < second.id)
    (fun first second => (compareAll orders first second).isLE) asymm transitive total ascending
  refine sorted.imp fun {first second} ⟨isLE, keeps⟩ => (precedes_iff ..).2 ?_
  rw [compareAll_swap] at keeps
  cases compares : compareAll orders first second with
  | lt => exact .inl rfl
  | eq => exact .inr ⟨rfl, keeps (by rw [compares]; rfl)⟩
  | gt => simp [compares] at isLE

/-! ## The lowest of each group -/

/-- Of media in the order of their ids, the one with the lowest id is left of those that have the same
image. -/
theorem mem_distinctBy {β : Type} [DecidableEq β] {image : Medium → β} {media : List Medium}
    (ascending : media.Pairwise fun first second => first.id < second.id) {medium : Medium} :
    medium ∈ distinctBy image media ↔
      medium ∈ media ∧ ∀ other ∈ media, image other = image medium → medium.id ≤ other.id := by
  induction media with
  | nil => simp [distinctBy]
  | cons first rest ih =>
      obtain ⟨below, later⟩ := List.pairwise_cons.1 ascending
      rw [distinctBy, List.mem_cons, List.mem_cons, List.mem_filter, ih later, decide_eq_true_iff,
        List.forall_mem_cons]
      constructor
      · rintro (rfl | ⟨⟨inside, lowest⟩, differs⟩)
        · exact ⟨.inl rfl, fun _ => Int64.le_refl _,
            fun other member _ => Int64.le_of_lt (below other member)⟩
        · exact ⟨.inr inside, fun same => absurd same.symm differs, lowest⟩
      · rintro ⟨rfl | inside, ahead, lowest⟩
        · exact .inl rfl
        · refine .inr ⟨⟨inside, lowest⟩, fun same => ?_⟩
          exact absurd (below medium inside) (Int64.not_lt.2 (ahead same.symm))

theorem sublist_distinctBy {α β : Type} [DecidableEq β] (image : α → β) (elements : List α) :
    (distinctBy image elements).Sublist elements := by
  induction elements with
  | nil => exact .slnil
  | cons first rest ih => exact (List.filter_sublist.trans ih).cons_cons _

/-! ## Ranges -/

theorem Range.getElem?_slice {α : Type} (range : Range) (elements : List α) (index : Nat) :
    (range.slice elements)[index]? =
      if range.length = 0 ∨ index < range.length.toNat then elements[range.start.toNat + index]?
      else none := by
  unfold slice
  by_cases endless : range.length = 0
  · rw [if_pos endless, if_pos (.inl endless), List.getElem?_drop]
  · rw [if_neg endless, List.getElem?_take, List.getElem?_drop]
    simp [endless]

/-! ## Predicates without broken patterns -/

namespace Predicate

mutual

/-- The wildcard patterns that a predicate matches values with. -/
def patterns : Predicate → List String
  | always => []
  | never => []
  | all operands => patternsEach operands
  | any operands => patternsEach operands
  | not operand => patterns operand
  | has _ => []
  | inIds _ => []
  | compare _ test literal _ =>
      match test with
      | .like => [Glob.ofLike literal.toText]
      | .glob => [literal.toText]
      | _ => []

/-- The wildcard patterns of every predicate of a list. -/
def patternsEach : List Predicate → List String
  | [] => []
  | operand :: rest => patterns operand ++ patternsEach rest

end

theorem patternsEach_eq_flatMap (operands : List Predicate) :
    patternsEach operands = operands.flatMap patterns := by
  induction operands with
  | nil => rfl
  | cons operand rest ih => rw [patternsEach, List.flatMap_cons, ih]

/-- Whether every pattern that a predicate matches values with is one. -/
def Sound (predicate : Predicate) : Prop :=
  ∀ pattern ∈ predicate.patterns, ∃ tokens, Glob.parse pattern = .ok tokens

variable {medium : Medium} {operands : List Predicate}

theorem exists_evaluateAll (each : ∀ operand ∈ operands, ∃ truth, operand.evaluate medium = .ok truth) :
    ∃ truth, evaluateAll medium operands = .ok truth := by
  induction operands with
  | nil => exact ⟨_, rfl⟩
  | cons operand rest ih =>
      obtain ⟨truth, evaluates⟩ := each operand (.head _)
      obtain ⟨later, evaluates'⟩ := ih fun other member => each other (.tail _ member)
      rw [evaluateAll, evaluates, evaluates']
      rcases truth with _ | _ | _ <;> exact ⟨_, rfl⟩

theorem exists_evaluateAny (each : ∀ operand ∈ operands, ∃ truth, operand.evaluate medium = .ok truth) :
    ∃ truth, evaluateAny medium operands = .ok truth := by
  induction operands with
  | nil => exact ⟨_, rfl⟩
  | cons operand rest ih =>
      obtain ⟨truth, evaluates⟩ := each operand (.head _)
      obtain ⟨later, evaluates'⟩ := ih fun other member => each other (.tail _ member)
      rw [evaluateAny, evaluates, evaluates']
      rcases truth with _ | _ | _ <;> exact ⟨_, rfl⟩

theorem exists_isLike {pattern : String} {tokens : List GlobToken}
    (parses : Glob.parse pattern = .ok tokens) (caseSensitive : Bool) (value : Value) :
    ∃ truth, value.isLike caseSensitive pattern = .ok truth := by
  rw [Value.isLike, parses]
  exact ⟨_, rfl⟩

/-- A predicate without a broken pattern has a value for every medium. -/
theorem Sound.exists_evaluate {predicate : Predicate} (sound : predicate.Sound) (medium : Medium) :
    ∃ truth, predicate.evaluate medium = .ok truth := by
  induction predicate using Predicate.induction with
  | always => exact ⟨_, rfl⟩
  | never => exact ⟨_, rfl⟩
  | all operands ih =>
      rw [Sound, patterns, patternsEach_eq_flatMap] at sound
      rw [evaluate]
      exact exists_evaluateAll fun operand member => ih operand member fun pattern inside =>
        sound pattern (List.mem_flatMap.2 ⟨operand, member, inside⟩)
  | any operands ih =>
      rw [Sound, patterns, patternsEach_eq_flatMap] at sound
      rw [evaluate]
      exact exists_evaluateAny fun operand member => ih operand member fun pattern inside =>
        sound pattern (List.mem_flatMap.2 ⟨operand, member, inside⟩)
  | not operand ih =>
      obtain ⟨truth, evaluates⟩ := ih (by rwa [Sound, patterns] at sound)
      rw [evaluate, evaluates]
      exact ⟨_, rfl⟩
  | has column => exact ⟨_, rfl⟩
  | inIds ids => exact ⟨_, rfl⟩
  | compare column test literal caseSensitive =>
      rw [evaluate]
      cases medium.value? column with
      | none => exact ⟨_, rfl⟩
      | some value =>
          cases test with
          | like =>
              obtain ⟨tokens, parses⟩ := sound _ (by rw [patterns]; exact .head _)
              exact exists_isLike parses false value
          | glob =>
              obtain ⟨tokens, parses⟩ := sound _ (by rw [patterns]; exact .head _)
              exact exists_isLike parses true value
          | _ => exact ⟨_, rfl⟩

end Predicate

/-! ## Answers -/

namespace CompiledQuery

/-- Whether a query of some media answers with a medium, apart from the range: the medium is selected and
has the lowest id of those selected with the same values to group by. -/
structure Represents (query : CompiledQuery) (media : List Medium) (medium : Medium) : Prop where
  member : medium ∈ media
  selected : query.selects medium = .ok true
  lowest : query.groupBy ≠ [] → ∀ other ∈ media, query.selects other = .ok true →
    query.groupBy.map other.value? = query.groupBy.map medium.value? → medium.id ≤ other.id

/-- Whether media are those that a query answers with, each before those that it precedes. -/
structure Arranges (query : CompiledQuery) (media sorted : List Medium) : Prop where
  ordered : sorted.Pairwise (OrderBy.Precedes query.orderBy)
  mem_iff : ∀ medium, medium ∈ sorted ↔ query.Represents media medium

/-- There is one arrangement of the media of a query at most. -/
theorem Arranges.unique {query : CompiledQuery} {media sorted other : List Medium}
    (arranges : query.Arranges media sorted) (arranges' : query.Arranges media other) :
    other = sorted := by
  have distinct {sorted : List Medium} (arranges : query.Arranges media sorted) : sorted.Nodup :=
    arranges.ordered.imp fun precedes same => (same ▸ precedes).asymm (same ▸ precedes)
  have permutes : other.Perm sorted :=
    (List.perm_ext_iff_of_nodup (distinct arranges') (distinct arranges)).2 fun medium =>
      (arranges'.mem_iff medium).trans (arranges.mem_iff medium).symm
  exact permutes.eq_of_pairwise (fun _ _ _ _ precedes precedes' => absurd precedes' precedes.asymm)
    arranges'.ordered arranges.ordered

/-- A predicate without broken patterns settles whether a query selects a medium. -/
theorem exists_selects {query : CompiledQuery} (sound : query.predicate.Sound) (medium : Medium) :
    ∃ selected, query.selects medium = .ok selected := by
  obtain ⟨truth, evaluates⟩ := sound.exists_evaluate medium
  rw [selects, evaluates]
  split <;> exact ⟨_, rfl⟩

theorem grouped_sublist (query : CompiledQuery) (selected : List Medium) :
    (query.grouped selected).Sublist selected := by
  unfold grouped
  split
  · exact .refl _
  · exact sublist_distinctBy _ _

theorem mem_grouped_iff {query : CompiledQuery} {media selected : List Medium}
    (ascending : selected.Pairwise fun first second => first.id < second.id)
    (mem_iff : ∀ medium, medium ∈ selected ↔ medium ∈ media ∧ query.selects medium = .ok true)
    (medium : Medium) : medium ∈ query.grouped selected ↔ query.Represents media medium := by
  unfold grouped
  split
  · next ungrouped =>
    have none : query.groupBy = [] := List.isEmpty_iff.1 ungrouped
    rw [mem_iff]
    constructor
    · rintro ⟨member, selected⟩
      exact ⟨member, selected, fun grouped => absurd none grouped⟩
    · intro represents
      exact ⟨represents.member, represents.selected⟩
  · next grouped =>
    have some : query.groupBy ≠ [] := fun none => grouped (List.isEmpty_iff.2 none)
    rw [mem_distinctBy ascending, mem_iff]
    constructor
    · rintro ⟨⟨member, selected⟩, lowest⟩
      exact ⟨member, selected, fun _ other inside selected =>
        lowest other ((mem_iff other).2 ⟨inside, selected⟩)⟩
    · intro represents
      refine ⟨⟨represents.member, represents.selected⟩, fun other inside => ?_⟩
      obtain ⟨inside, selected⟩ := (mem_iff other).1 inside
      exact represents.lowest some other inside selected

/-- The media that a query selects from some, if its patterns are sound. -/
theorem exists_filterM {query : CompiledQuery} (sound : query.predicate.Sound) (media : List Medium) :
    ∃ selected, media.filterM query.selects = .ok selected ∧ selected.Sublist media ∧
      ∀ medium, medium ∈ selected ↔ medium ∈ media ∧ query.selects medium = .ok true := by
  let keep (medium : Medium) : Bool := (query.selects medium).toOption.getD false
  have selects : ∀ medium ∈ media, query.selects medium = .ok (keep medium) := fun medium _ => by
    obtain ⟨selected, selects⟩ := exists_selects sound medium
    simp only [keep, selects]
    rfl
  refine ⟨_, List.filterM_of_ok selects, List.filter_sublist, fun medium => ?_⟩
  rw [List.mem_filter]
  refine and_congr_right fun member => ?_
  rw [selects medium member, Except.ok.injEq]

/-- The selected media in their order are the arrangement of those that the query answers with. -/
theorem arranges_sort {query : CompiledQuery} {media selected : List Medium}
    (ascending : media.Pairwise fun first second => first.id < second.id)
    (within : selected.Sublist media)
    (mem_iff : ∀ medium, medium ∈ selected ↔ medium ∈ media ∧ query.selects medium = .ok true)
    (definite : ∀ order ∈ query.orderBy, order.Definite media) :
    query.Arranges media (OrderBy.sort query.orderBy (query.grouped selected)) := by
  have left := (query.grouped_sublist selected).trans within
  refine ⟨OrderBy.pairwise_sort (ascending.sublist left) fun order member =>
    (definite order member).mono fun medium => (left.subset ·), fun medium => ?_⟩
  rw [← mem_grouped_iff (ascending.sublist within) mem_iff medium]
  exact (List.mergeSort_perm _ _).mem_iff

/-- Nothing is shuffled if no key is random. -/
theorem settled_of_definite {query : CompiledQuery} {media : List Medium}
    (definite : ∀ order ∈ query.orderBy, order.Definite media) : query.shuffles = false := by
  refine List.any_eq_false.2 fun order member => ?_
  rw [decide_eq_true_eq]
  exact (definite order member).notRandom

theorem getElem?_cut (query : CompiledQuery) (media : List Medium) (index : Nat) :
    (query.cut media)[index]? =
      if (query.limit.getD ⟨0, 0⟩).length = 0 ∨ index < (query.limit.getD ⟨0, 0⟩).length.toNat then
        media[(query.limit.getD ⟨0, 0⟩).start.toNat + index]? else none := by
  unfold cut
  cases query.limit with
  | none => simp
  | some range => exact range.getElem?_slice media index

end CompiledQuery

/-- A library answers a query whose patterns are sound and whose keys are definite with the rows of a
range of the one arrangement of the media that it is about, whatever is drawn. -/
theorem MemoryLibrary.execute_eq_slice {library : MemoryLibrary} {query : CompiledQuery}
    (sound : query.predicate.Sound) (definite : ∀ order ∈ query.orderBy, order.Definite library.media) :
    ∃ sorted rows, query.Arranges library.media sorted ∧
      (∀ other, query.Arranges library.media other → other = sorted) ∧
      (∀ draw, library.execute draw query = .ok rows) ∧
      ∀ index : Nat, rows[index]? =
        if (query.limit.getD ⟨0, 0⟩).length = 0 ∨ index < (query.limit.getD ⟨0, 0⟩).length.toNat then
          sorted[(query.limit.getD ⟨0, 0⟩).start.toNat + index]?.map query.row
        else none := by
  obtain ⟨selected, filters, within, mem_iff⟩ :=
    CompiledQuery.exists_filterM sound library.media
  have arranges := CompiledQuery.arranges_sort library.media_pairwise within mem_iff definite
  have settled := CompiledQuery.settled_of_definite definite
  have executes : ∀ draw, library.execute draw query = .ok
      ((query.cut (OrderBy.sort query.orderBy (query.grouped selected))).map query.row) := by
    intro draw
    rw [execute, query.find_eq, filters, ← CompiledQuery.sorted_of_settled settled draw]
    rfl
  refine ⟨_, _, arranges, fun other => arranges.unique, executes, fun index => ?_⟩
  rw [List.getElem?_map, CompiledQuery.getElem?_cut]
  split <;> rfl

/-- Two media with a title, the last one first, of which the first is left out. -/
theorem MemoryLibrary.execute_eq_slice_titles :
    let library : MemoryLibrary :=
      .ofList [(1, .ofList [("title", .text "One")]), (2, .ofList [("title", .text "Two")])]
    let query : CompiledQuery := {
      predicate := .compare (.value 0 "title") .like (.text "%") false
      conditions := "1"
      aliases := []
      baseField := "title"
      fetch := []
      groupBy := [.value 0 "title"]
      orderBy := [⟨.value "title" (some 0), .descending, some "NOCASE"⟩]
      limit := some ⟨1, 0⟩ }
    query.predicate.Sound ∧ (∀ order ∈ query.orderBy, order.Definite library.media) ∧
      ∃ sorted rows, query.Arranges library.media sorted ∧
        (∀ other, query.Arranges library.media other → other = sorted) ∧
        (∀ draw, library.execute draw query = .ok rows) ∧
        ∀ index : Nat, rows[index]? =
          if (query.limit.getD ⟨0, 0⟩).length = 0 ∨
              index < (query.limit.getD ⟨0, 0⟩).length.toNat then
            sorted[(query.limit.getD ⟨0, 0⟩).start.toNat + index]?.map query.row
          else none := by
  intro library query
  have sound : query.predicate.Sound := by
    intro pattern member
    obtain rfl := List.mem_singleton.1 member
    exact ⟨[.anyRun], by decide +kernel⟩
  have definite : ∀ order ∈ query.orderBy, order.Definite library.media := by
    intro order member
    obtain rfl := List.mem_singleton.1 member
    refine ⟨nofun, fun field number isKey => .inr fun medium inside value has => ?_⟩
    cases isKey
    rcases List.mem_cons.1 inside with rfl | inside
    · cases has
      decide +kernel
    · obtain rfl := List.mem_singleton.1 inside
      cases has
      decide +kernel
  exact ⟨sound, definite, execute_eq_slice sound definite⟩

end Medley
