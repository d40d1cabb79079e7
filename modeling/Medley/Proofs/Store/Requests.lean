import Medley.Proofs.Text.Lines
import Medley.Store.Basic
import Medley.Text.Percent

/-!
# Requests to a store

What a program asks of a store, one request after the other, and the requests that a store in files cannot
answer as a store in memory does (`StoreRequest.Betrays`).  Names become names of files, but percent
encoding leaves `.` and `..` as they are, which lead to the directory of the namespace and to the one above
it.  The name of the active playlist becomes a line, and is read back without the blanks at its ends.
-/

namespace Medley

/-- What a program asks of a store. -/
inductive StoreRequest where
  | list (space : Namespace)
  | get (address : Address)
  | set (address : Address) (record : String)
  | remove (address : Address)
  | getActive
  | setActive (name : Option String)

/-- What a store answers. -/
inductive StoreAnswer where
  | names (names : Except Error (List String))
  | record (record : Except Error String)
  | active (name : Except Error (Option String))
  | done (result : Except Error Unit)

namespace StoreRequest

section Answers

variable {σ : Type} [RecordStore σ]

/-- The answer of a store to a request, and the store after it. -/
def serve (store : σ) : StoreRequest → StoreAnswer × σ
  | .list space => (.names (RecordStore.list store space), store)
  | .get address => (.record (RecordStore.get store address), store)
  | .set address record => ((RecordStore.set address record).run store).map .done id
  | .remove address => ((RecordStore.remove address).run store).map .done id
  | .getActive => (.active (RecordStore.getActive store), store)
  | .setActive name => ((RecordStore.setActive name).run store).map .done id

/-- The answers of a store to requests that are made one after the other. -/
def answers (store : σ) : List StoreRequest → List StoreAnswer
  | [] => []
  | request :: rest => (serve store request).1 :: answers (serve store request).2 rest

end Answers

/-- Whether a name becomes the name of a file that a directory takes. -/
def NameFits (name : String) : Prop :=
  Text.percentEncode name ≠ "" ∧ (Text.percentEncode name).utf8ByteSize ≤ 255

/-- Whether the names of records in a request become names of files that a directory takes. -/
def Fits : StoreRequest → Prop
  | .get address | .set address _ | .remove address => NameFits address.name
  | .list _ | .getActive | .setActive _ => True

instance (name : String) : Decidable (NameFits name) := inferInstanceAs (Decidable (_ ∧ _))

instance : DecidablePred Fits
  | .get address | .set address _ | .remove address => inferInstanceAs (Decidable (NameFits address.name))
  | .list _ | .getActive | .setActive _ => .isTrue trivial

/-- Whether a name, which stands for itself in percent encoding, is a special step of a path. -/
def IsDotted (name : String) : Prop := name = "." ∨ name = ".."

/-- The namespace that a request stores a record in. -/
def storedSpace? : StoreRequest → Option Namespace
  | .set address _ => some address.space
  | .list _ | .get _ | .remove _ | .getActive | .setActive _ => none

/-- The namespaces that requests store records in. -/
def storedSpaces (requests : List StoreRequest) : List Namespace := requests.filterMap storedSpace?

/-- The active playlist after a request. -/
def nextActive (active : Option String) : StoreRequest → Option String
  | .setActive name => name
  | .list _ | .get _ | .set _ _ | .remove _ | .getActive => active

/-- The active playlist after requests to a store without one. -/
def lastActive (requests : List StoreRequest) : Option String := requests.foldl nextActive none

/-- Whether a request after others gets another answer from a store in files than from one in memory. -/
def Betrays (before : List StoreRequest) : StoreRequest → Prop
  | .set address _ => IsDotted address.name
  | .get address | .remove address => IsDotted address.name ∧ address.space ∈ storedSpaces before
  | .getActive => ∃ name, lastActive before = some name ∧ ¬ Text.IsLine name
  | .list _ | .setActive _ => False

@[simp] theorem lastActive_append (before : List StoreRequest) (request : StoreRequest) :
    lastActive (before ++ [request]) = nextActive (lastActive before) request := by
  rw [lastActive, List.foldl_append]
  rfl

theorem mem_storedSpaces_append {before : List StoreRequest} {request : StoreRequest} {space : Namespace} :
    space ∈ storedSpaces (before ++ [request]) ↔
      space ∈ storedSpaces before ∨ request.storedSpace? = some space := by
  simp [storedSpaces]

end StoreRequest

end Medley
