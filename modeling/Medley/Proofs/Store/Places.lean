import Mathlib.Data.List.Basic
import Medley.FileSystem
import Medley.Proofs.Store.Memory
import Medley.Proofs.Tree.Validity

/-!
# Below a directory

A path that leads to a directory (`FileSystem.Opens`) can be carried on by names that are no special steps
(`IsPlain`), and then leads to the place of these names below that of the directory.  What the operations
on files do at such a path is therefore said by what the places below the directory hold.
-/

namespace Medley

/-- Whether a name leads to a place of that name: it is no special step and not too long. -/
structure IsPlain (name : String) : Prop where
  nonempty : name ≠ ""
  notHere : name ≠ "."
  notAbove : name ≠ ".."
  short : name.utf8ByteSize ≤ nameLimit

theorem Place.step_of_plain {name : String} (plain : IsPlain name) (place : Place) :
    place.step name = .ok (place ++ [name]) := by
  rw [step, if_neg (not_or.2 ⟨plain.nonempty, plain.notHere⟩), if_neg plain.notAbove,
    if_neg (Nat.not_lt.2 plain.short)]

namespace FileSystem

variable {files after : FileSystem} {path more : List String} {place other : Place} {name : String}
  {entry : FileEntry}

/-- Whether a path leads to a directory at a place. -/
structure Opens (files : FileSystem) (path : List String) (place : Place) : Prop where
  located : files.locate path = .ok place
  directory : files.get? place = some .directory

/-- Whether a change gives one place something to hold, or nothing, and leaves all others alone. -/
structure Updates (files after : FileSystem) (place : Place) (entry : Option FileEntry) : Prop where
  get? : ∀ other, after.get? other = if other = place then entry else files.get? other
  workingDirectory : after.workingDirectory = files.workingDirectory

namespace Updates

theorem refl {entry : Option FileEntry} (holds : files.get? place = entry) :
    files.Updates files place entry where
  get? other := by
    split
    · next same => rw [same, holds]
    · rfl
  workingDirectory := rfl

theorem put (inside : place ≠ []) (entry : FileEntry) :
    files.Updates (files.put place entry) place (some entry) where
  get? other := by
    unfold FileSystem.get? FileSystem.put
    cases other with
    | nil =>
        rw [if_neg inside.symm]
        rfl
    | cons name rest => exact SortedMap.get?_insert ..
  workingDirectory := rfl

theorem erase (inside : place ≠ []) :
    files.Updates { files with entries := files.entries.erase place } place none where
  get? other := by
    unfold FileSystem.get?
    cases other with
    | nil =>
        rw [if_neg inside.symm]
        rfl
    | cons name rest => exact SortedMap.get?_erase ..
  workingDirectory := rfl

theorem get?_of_ne {entry : Option FileEntry} (updates : files.Updates after place entry)
    (different : other ≠ place) : after.get? other = files.get? other := by
  rw [updates.get?, if_neg different]

theorem get?_self {entry : Option FileEntry} (updates : files.Updates after place entry) :
    after.get? place = entry := by
  rw [updates.get?, if_pos rfl]

end Updates

section Locating

theorem locateFrom_append (files : FileSystem) (place : Place) (path more : List String) :
    files.locateFrom place (path ++ more) =
      files.locateFrom place path >>= fun next => files.locateFrom next more := by
  induction path generalizing place with
  | nil => rfl
  | cons name rest ih =>
      rw [List.cons_append, locateFrom, locateFrom]
      cases files.get? place with
      | none => rfl
      | some entry =>
          cases entry with
          | file content => rfl
          | directory =>
              cases place.step name with
              | error fault => rfl
              | ok next => exact ih next

/-- A path goes through directories alone. -/
theorem directory_of_locateFrom (located : files.locateFrom other path = .ok place)
    (directory : files.get? place = some .directory) : files.get? other = some .directory := by
  cases path with
  | nil =>
      obtain rfl := Except.ok.inj located
      exact directory
  | cons name rest =>
      rw [locateFrom] at located
      split at located
      · cases located
      · cases located
      · next here => exact here

theorem locateFrom_mono (keeps : ∀ other, files.get? other = some .directory →
      after.get? other = some .directory)
    (located : files.locateFrom other path = .ok place) : after.locateFrom other path = .ok place := by
  induction path generalizing other with
  | nil => exact located
  | cons name rest ih =>
      rw [locateFrom] at located ⊢
      split at located
      · cases located
      · cases located
      · next here =>
        obtain ⟨next, steps, located⟩ := Except.bind_eq_ok.1 located
        rw [keeps _ here, steps]
        exact ih located

theorem start_append (noRoot : more.head? ≠ some "") (files : FileSystem) (path : List String) :
    files.start (path ++ more) = files.start path := by
  cases path with
  | nil =>
      rw [List.nil_append, start, if_neg noRoot]
      rfl
  | cons name rest => rfl

namespace Opens

variable (opens : files.Opens path place)

include opens

/-- As long as no directory becomes anything else, a path leads to the same one. -/
theorem updates {target : Place} {entry : Option FileEntry} (changes : files.Updates after target entry)
    (keeps : files.get? target = some .directory → entry = some .directory) :
    after.Opens path place := by
  have stay : ∀ other, files.get? other = some .directory → after.get? other = some .directory := by
    intro other directory
    rw [changes.get?]
    split
    · next same => exact keeps (same ▸ directory)
    · exact directory
  have start : after.start path = files.start path := by rw [start, start, changes.workingDirectory]
  refine ⟨?_, stay place opens.directory⟩
  rw [locate, start]
  exact locateFrom_mono stay opens.located

theorem locate_append (noRoot : more.head? ≠ some "") :
    files.locate (path ++ more) = files.locateFrom place more := by
  have located : files.locateFrom (files.start path) path = .ok place := opens.located
  rw [locate, start_append noRoot, locateFrom_append, located]
  rfl

theorem locate_name (plain : IsPlain name) : files.locate (path ++ [name]) = .ok (place ++ [name]) := by
  rw [opens.locate_append (by simpa using plain.nonempty), locateFrom, opens.directory]
  change (place.step name >>= _) = _
  rw [Place.step_of_plain plain]
  rfl

theorem child (plain : IsPlain name) (directory : files.get? (place ++ [name]) = some .directory) :
    files.Opens (path ++ [name]) (place ++ [name]) := ⟨opens.locate_name plain, directory⟩

/-- Nothing is found below what is not there. -/
theorem locate_missing {step : String} (plain : IsPlain name) (missing : files.get? (place ++ [name]) = none) :
    files.locate (path ++ [name] ++ [step]) = .error .notFound := by
  have here := opens.locate_name plain
  rw [opens.locate_append (by simpa using plain.nonempty)] at here
  rw [List.append_assoc, opens.locate_append (by simpa using plain.nonempty), locateFrom_append, here]
  change files.locateFrom (place ++ [name]) [step] = _
  rw [locateFrom, missing]

/-- A special step leads from a directory below to a directory again. -/
theorem locate_special {step : String} (plain : IsPlain name) (special : step = "." ∨ step = "..")
    (directory : files.get? (place ++ [name]) = some .directory) :
    ∃ target, files.locate (path ++ [name] ++ [step]) = .ok target ∧
      files.get? target = some .directory := by
  have child := opens.child plain directory
  have steps : ∀ target, (place ++ [name]).step step = .ok target →
      files.locate (path ++ [name] ++ [step]) = .ok target := by
    intro target steps
    rw [child.locate_append (by rcases special with rfl | rfl <;> simp), locateFrom, directory]
    change ((place ++ [name]).step step >>= _) = _
    rw [steps]
    rfl
  rcases special with rfl | rfl
  · exact ⟨_, steps _ rfl, directory⟩
  · refine ⟨place, steps _ ?_, opens.directory⟩
    exact congrArg Except.ok List.dropLast_concat

end Opens

end Locating

/-! ## Running operations -/

section Running

variable {α β : Type}

theorem get_bind_run (next : FileSystem → FileAction β) (files : FileSystem) :
    ((MonadState.get : FileAction FileSystem) >>= next).run files = (next files).run files := rfl

theorem liftM_ok_bind_run (value : α) (next : α → FileAction β) (files : FileSystem) :
    ((liftM (Except.ok value : Except FileFault α) : FileAction α) >>= next).run files =
      (next value).run files := rfl

theorem liftM_error_bind_run (fault : FileFault) (next : α → FileAction β) (files : FileSystem) :
    ((liftM (Except.error fault : Except FileFault α) : FileAction α) >>= next).run files =
      (.error fault, files) := rfl

end Running

section Operations

variable (located : files.locate path = .ok place)

include located

theorem find_eq : files.find path = (files.get? place).elim (.error .notFound) .ok := by
  rw [find, located]
  simp only [bind, Except.bind]
  cases files.get? place <;> rfl

theorem contains_eq : files.contains path = (files.get? place).isSome := by
  rw [contains, find_eq located]
  cases files.get? place <;> rfl

/-- A file is written where no directory is. -/
theorem exists_write (noSlash : path.getLast? ≠ some "")
    (noDirectory : files.get? place ≠ some .directory) (content : ByteArray) :
    ∃ after, (write path content).run files = (.ok (), after) ∧
      files.Updates after place (some (.file content)) := by
  have inside : place ≠ [] := by
    rintro rfl
    exact noDirectory rfl
  refine ⟨_, ?_, .put inside _⟩
  rw [write, if_neg noSlash, get_bind_run, located, liftM_ok_bind_run, get_bind_run]
  cases held : files.get? place with
  | none => rfl
  | some entry =>
      cases entry with
      | directory => exact absurd held noDirectory
      | file content => rfl

/-- A file is removed if it is there. -/
theorem exists_removeFile (noDirectory : files.get? place ≠ some .directory) :
    ∃ after, (do if (← get).contains path then removeFile path : FileAction Unit).run files =
      (.ok (), after) ∧ files.Updates after place none := by
  change ∃ after, (if files.contains path then removeFile path else pure () : FileAction Unit).run files =
    (.ok (), after) ∧ _
  rw [contains_eq located]
  cases held : files.get? place with
  | none => exact ⟨files, rfl, .refl held⟩
  | some entry =>
      cases entry with
      | directory => exact absurd held noDirectory
      | file content =>
          have inside : place ≠ [] := by
            rintro rfl
            exact noDirectory rfl
          have reads : files.read path = .ok content := by
            rw [read, find_eq located, held]
            rfl
          refine ⟨_, ?_, .erase inside⟩
          rw [if_pos Option.isSome_some, removeFile, get_bind_run, reads, liftM_ok_bind_run, get_bind_run,
            located]
          rfl

end Operations

/-- Nothing is written where a directory or nothing at all is found. -/
theorem write_fails (noSlash : path.getLast? ≠ some "")
    (nowhere : ∀ target, files.locate path = .ok target → files.get? target = some .directory)
    (content : ByteArray) : ∃ fault, (write path content).run files = (.error fault, files) := by
  rw [write, if_neg noSlash, get_bind_run]
  cases located : files.locate path with
  | error fault => exact ⟨fault, liftM_error_bind_run ..⟩
  | ok target =>
      rw [liftM_ok_bind_run, get_bind_run, nowhere target located]
      exact ⟨_, rfl⟩

/-- No directory is removed as a file. -/
theorem removeFile_fails (found : files.find path = .ok .directory) :
    ∃ fault, (do if (← get).contains path then removeFile path : FileAction Unit).run files =
      (.error fault, files) := by
  have here : files.contains path = true := by
    rw [contains, found]
    rfl
  change ∃ fault, (if files.contains path then removeFile path else pure () : FileAction Unit).run files =
    (.error fault, files)
  rw [if_pos here, removeFile, get_bind_run, read, found]
  exact ⟨_, rfl⟩

section Making

theorem makeDirectoriesFrom_cons {next : Place} (steps : place.step name = .ok next)
    (rest : List String) :
    (makeDirectoriesFrom place (name :: rest)).run files = match files.get? next with
      | some .directory => (makeDirectoriesFrom next rest).run files
      | some (.file _) => (.error (if rest.isEmpty then .exists else .notDirectory), files)
      | none => (makeDirectoriesFrom next rest).run (files.put next .directory) := by
  rw [makeDirectoriesFrom, steps, liftM_ok_bind_run, get_bind_run]
  cases files.get? next with
  | none => rfl
  | some entry => cases entry <;> rfl

/-- Along directories that are there nothing is made. -/
theorem makeDirectoriesFrom_append (located : files.locateFrom other path = .ok place)
    (directory : files.get? place = some .directory) (more : List String) :
    (makeDirectoriesFrom other (path ++ more)).run files =
      (makeDirectoriesFrom place more).run files := by
  induction path generalizing other with
  | nil =>
      obtain rfl := Except.ok.inj located
      rfl
  | cons name rest ih =>
      rw [locateFrom] at located
      split at located
      · cases located
      · cases located
      · obtain ⟨next, steps, located⟩ := Except.bind_eq_ok.1 located
        rw [List.cons_append, makeDirectoriesFrom_cons steps,
          directory_of_locateFrom located directory]
        exact ih located

namespace Opens

variable (opens : files.Opens path place)

include opens

theorem makeDirectories_run : (makeDirectories path).run files = (.ok (), files) := by
  have makes := makeDirectoriesFrom_append opens.located opens.directory []
  rw [List.append_nil] at makes
  exact makes

/-- A directory is made below one that is there, unless there is one already. -/
theorem exists_makeDirectories (plain : IsPlain name)
    (noFile : ∀ content, files.get? (place ++ [name]) ≠ some (.file content)) :
    ∃ after, (makeDirectories (path ++ [name])).run files = (.ok (), after) ∧
      files.Updates after (place ++ [name]) (some .directory) := by
  have noRoot : [name].head? ≠ some "" := by simpa using plain.nonempty
  have makes := makeDirectoriesFrom_append opens.located opens.directory [name]
  rw [makeDirectoriesFrom_cons (Place.step_of_plain plain place)] at makes
  change ∃ after, (makeDirectoriesFrom (files.start (path ++ [name])) (path ++ [name])).run files = _ ∧ _
  rw [start_append noRoot, makes]
  cases here : files.get? (place ++ [name]) with
  | none => exact ⟨_, rfl, .put (by simp) _⟩
  | some entry =>
      cases entry with
      | directory => exact ⟨_, rfl, .refl here⟩
      | file content => exact absurd here (noFile content)

end Opens

end Making

section Listing

/-- The name of a file in a directory, for an entry that is one. -/
def nameIn? (place : Place) : Place × FileEntry → Option String
  | (_, .directory) => none
  | (other, .file _) => if other.dropLast = place then other.getLast? else none

theorem nameIn?_eq_some : nameIn? place (other, entry) = some name ↔
    other = place ++ [name] ∧ ∃ content, entry = .file content := by
  cases entry with
  | directory => simp [nameIn?]
  | file content =>
      simp only [nameIn?, FileEntry.file.injEq, exists_eq', and_true]
      constructor
      · intro found
        split at found
        · next above =>
          rw [← above, List.dropLast_append_getLast? name found]
        · cases found
      · rintro rfl
        simp

/-- The names of the files in a directory, each once. -/
theorem exists_fileNames (opens : files.Opens path place) :
    ∃ names, files.fileNames path = .ok names ∧ names.Nodup ∧
      ∀ name, name ∈ names ↔ ∃ content, files.get? (place ++ [name]) = some (.file content) := by
  have find : files.find path = .ok .directory := by
    rw [find_eq opens.located, opens.directory]
    rfl
  refine ⟨files.entries.entries.filterMap (nameIn? place), ?_, ?_, ?_⟩
  · rw [fileNames, find, opens.located]
    change Except.ok (List.filterMap _ _) = _
    refine congrArg Except.ok (List.filterMap_congr fun entry _ => ?_)
    obtain ⟨other, entry⟩ := entry
    cases entry <;> rfl
  · refine List.pairwise_filterMap.2 (files.entries.sorted.imp ?_)
    rintro ⟨left, leftEntry⟩ ⟨right, rightEntry⟩ before name isLeft _ isRight rfl
    obtain ⟨rfl, -⟩ := nameIn?_eq_some.1 isLeft
    obtain ⟨rfl, -⟩ := nameIn?_eq_some.1 isRight
    simp at before
  · intro name
    have here : files.get? (place ++ [name]) = files.entries.get? (place ++ [name]) := by
      rw [get?, if_neg (by simp)]
    simp only [List.mem_filterMap, Prod.exists, nameIn?_eq_some, here, SortedMap.mem_entries_iff.symm]
    constructor
    · rintro ⟨_, _, member, rfl, content, rfl⟩
      exact ⟨content, member⟩
    · rintro ⟨content, member⟩
      exact ⟨_, _, member, rfl, content, rfl⟩

end Listing

end FileSystem

end Medley
