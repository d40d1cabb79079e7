import Medley.Proofs.Store.Files

/-!
# Stores in files and stores in memory

From stores that hold the same, a request gets the same answer if it is not one that a store in files
betrays, and then the two hold the same again.  So from an empty directory the answers agree along a whole
run exactly if no request of it is betrayed (`FileStore.answers_eq_iff`).
-/

namespace Medley

open StoreRequest

namespace FileStore

namespace Keeps

variable {store : FileStore} {place : Place} {before : List StoreRequest} {memory : MemoryStore}
  (keeps : store.Keeps place before memory)

include keeps

/-- A request gets the same answer from both stores exactly if it is not betrayed. -/
theorem answer_eq_iff {request : StoreRequest} (fits : request.Fits) :
    (serve store request).1 = (serve memory request).1 ↔ ¬ request.Betrays before := by
  cases request with
  | list space => simp [serve, Betrays, keeps.list_eq]
  | get address => simpa [serve, Betrays] using keeps.get_eq_iff fits
  | getActive => simpa [serve, Betrays] using keeps.getActive_eq_iff
  | set address record =>
      change StoreAnswer.done ((RecordStore.set address record).run store).1 = .done (.ok ()) ↔
        ¬ IsDotted address.name
      rw [StoreAnswer.done.injEq]
      constructor
      · exact fun same dotted => keeps.set_fails dotted record same
      · intro plain
        obtain ⟨_, _, runs, -⟩ := keeps.exists_set fits plain record
        rw [runs]
  | remove address =>
      change StoreAnswer.done ((RecordStore.remove address).run store).1 = .done (.ok ()) ↔
        ¬ (IsDotted address.name ∧ address.space ∈ storedSpaces before)
      rw [StoreAnswer.done.injEq]
      constructor
      · exact fun same both => keeps.remove_fails both.2 both.1 same
      · intro plain
        obtain ⟨_, runs, -⟩ := keeps.exists_remove fits plain
        rw [runs]
  | setActive name =>
      obtain ⟨_, runs, -⟩ := keeps.exists_setActive name
      change StoreAnswer.done ((RecordStore.setActive name).run store).1 = .done (.ok ()) ↔ ¬ False
      rw [runs]
      simp

/-- After a request that is not betrayed both stores hold the same again. -/
theorem after {request : StoreRequest} (fits : request.Fits) (agrees : ¬ request.Betrays before) :
    (serve store request).2.Keeps place (before ++ [request]) (serve memory request).2 := by
  cases request with
  | list space => exact keeps.later _ rfl rfl
  | get address => exact keeps.later _ rfl rfl
  | getActive => exact keeps.later _ rfl rfl
  | set address record =>
      obtain ⟨_, _, runs, directory, file⟩ := keeps.exists_set fits agrees record
      change ((RecordStore.set address record).run store).2.Keeps _ _ _
      rw [runs]
      exact keeps.after_set directory file
  | remove address =>
      obtain ⟨_, runs, updates⟩ := keeps.exists_remove fits agrees
      change ((RecordStore.remove address).run store).2.Keeps _ _ _
      rw [runs]
      exact keeps.after_remove updates
  | setActive name =>
      obtain ⟨_, runs, updates⟩ := keeps.exists_setActive name
      change ((RecordStore.setActive name).run store).2.Keeps _ _ _
      rw [runs]
      exact keeps.after_setActive updates

/-- From stores that hold the same, the answers agree exactly if no request is betrayed. -/
theorem same_answers_iff {requests : List StoreRequest} (fits : ∀ request ∈ requests, request.Fits) :
    answers store requests = answers memory requests ↔ ∀ earlier request later,
      requests = earlier ++ request :: later → ¬ request.Betrays (before ++ earlier) := by
  induction requests generalizing store memory before with
  | nil => simp [answers]
  | cons first rest ih =>
      obtain ⟨firstFits, restFit⟩ := List.forall_mem_cons.1 fits
      rw [answers, answers, List.cons.injEq, keeps.answer_eq_iff firstFits]
      constructor
      · rintro ⟨agrees, same⟩ earlier request later split
        cases earlier with
        | nil =>
            obtain ⟨rfl, -⟩ := List.cons.inj split
            rwa [List.append_nil]
        | cons _ earlier =>
            obtain ⟨rfl, behind⟩ := List.cons.inj split
            rw [List.append_cons]
            exact (ih (keeps.after firstFits agrees) restFit).1 same earlier request later behind
      · intro agree
        have agrees := agree [] first rest rfl
        rw [List.append_nil] at agrees
        refine ⟨agrees, (ih (keeps.after firstFits agrees) restFit).2 ?_⟩
        rintro earlier request later rfl
        rw [← List.append_cons]
        exact agree (first :: earlier) request later rfl

end Keeps

/-- Whether the directory of a store is there and empty. -/
def IsFresh (store : FileStore) : Prop :=
  ∃ place, store.files.Opens store.directory place ∧
    ∀ below, below ≠ [] → store.files.get? (place ++ below) = none

theorem IsFresh.keeps {store : FileStore} (fresh : store.IsFresh) :
    ∃ place, store.Keeps place [] {} := by
  obtain ⟨place, opens, nothing⟩ := fresh
  have empty : ∀ space fileName, store.files.get? (spacePlace place space ++ [fileName]) = none := by
    intro space fileName
    rw [spacePlace, List.append_assoc]
    exact nothing _ (by simp)
  have forgets : ∀ address, ({} : MemoryStore).get? address = none := by
    rintro ⟨space, name⟩
    cases space <;> rfl
  exact ⟨place, {
    opens := opens
    spaces := fun space => nothing _ (by simp)
    records := fun address => by
      rw [forgets]
      exact empty address.space _
    named := fun space fileName held => absurd (empty space fileName) held
    active := nothing _ (by simp)
    stored := fun address held => absurd (forgets address) held
    noted := rfl }⟩

/-- Over an empty directory a store in files answers requests, whose names fit, as a store in memory does,
exactly if no request is one that it betrays: a record is not stored under a name that is a special step of
a path, nor looked for or removed under one once the directory of the namespace is there, and the active
playlist is not asked for while its name is no line without blanks at its ends. -/
theorem answers_eq_iff {store : FileStore} {requests : List StoreRequest} (fresh : store.IsFresh)
    (fits : ∀ request ∈ requests, request.Fits) :
    answers store requests = answers ({} : MemoryStore) requests ↔ ∀ before request later,
      requests = before ++ request :: later → ¬ request.Betrays before := by
  obtain ⟨place, keeps⟩ := fresh.keeps
  exact keeps.same_answers_iff fits

/-- A store in the empty directory of a root. -/
def atMusic : FileStore where
  root := "/music"
  files := ({} : FileSystem).put ["music"] .directory

theorem isFresh_atMusic : atMusic.IsFresh := by
  refine ⟨["music"], ⟨rfl, rfl⟩, fun below inside => ?_⟩
  have updates : ({} : FileSystem).Updates atMusic.files ["music"] (some .directory) :=
    .put (List.cons_ne_nil "music" []) .directory
  rw [updates.get?_of_ne (by simpa using inside)]
  rfl

/-- A record that is removed under the name `.`, and an active playlist whose name starts with a blank. -/
def partyRequests : List StoreRequest :=
  [.set ⟨.collections, "A"⟩ "(universe [] [])", .remove ⟨.collections, "."⟩, .setActive (some " Party"),
    .getActive]

theorem answers_ne_of_party : atMusic.IsFresh ∧ (∀ request ∈ partyRequests, request.Fits) ∧
    answers atMusic partyRequests ≠ answers ({} : MemoryStore) partyRequests := by
  have fits : ∀ request ∈ partyRequests, request.Fits := by decide
  refine ⟨isFresh_atMusic, fits, fun same => ?_⟩
  have agrees := (answers_eq_iff isFresh_atMusic fits).1 same
  exact agrees [.set ⟨.collections, "A"⟩ "(universe [] [])"] (.remove ⟨.collections, "."⟩) _ rfl
    ⟨.inl rfl, .head _⟩

end FileStore

end Medley
