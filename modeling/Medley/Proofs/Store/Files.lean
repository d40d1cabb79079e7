import Mathlib.Data.List.Nodup
import Mathlib.Data.Set.List
import Medley.Proofs.Store.Places
import Medley.Proofs.Store.Requests
import Medley.Proofs.Text.Percent
import Medley.Store.Files

/-!
# What a store in files holds

A store in files holds what a store in memory does (`FileStore.Keeps`) if the directory of a namespace is
there once a record was stored in it, the files in it are the records by their names in percent encoding,
and a file beside them is the name of the active playlist with a line break behind it.  Then a record, a
list and the active playlist are found as in memory, and what changes both stores leaves them so, except
under a name that is a special step of a path, where there is a directory.
-/

namespace Medley

open StoreRequest

namespace FileStore

section Places

/-- Where the directory of a namespace is. -/
def spacePlace (place : Place) (space : Namespace) : Place := place ++ [space.name]

/-- Where the file of a record is. -/
def recordPlace (place : Place) (address : Address) : Place :=
  spacePlace place address.space ++ [Text.percentEncode address.name]

/-- Where the file with the name of the active playlist is. -/
def activePlace (place : Place) : Place := place ++ [activeFile]

variable {place : Place} {space other : Namespace} {address : Address} {fileName : String}

theorem isPlain_space (space : Namespace) : IsPlain space.name := by
  cases space <;> constructor <;> decide

theorem isPlain_activeFile : IsPlain activeFile := by constructor <;> decide

theorem isPlain_percentEncode {name : String} (fits : NameFits name) (plain : ¬ IsDotted name) :
    IsPlain (Text.percentEncode name) where
  nonempty := fits.1
  notHere same := plain (.inl (Text.percentEncode_injective (same.trans (by decide))))
  notAbove same := plain (.inr (Text.percentEncode_injective (same.trans (by decide))))
  short := fits.2

theorem percentEncode_of_isDotted {name : String} (dotted : IsDotted name) :
    Text.percentEncode name = name := by
  rcases dotted with rfl | rfl <;> decide

@[simp] theorem spacePlace_inj : spacePlace place space = spacePlace place other ↔ space = other := by
  constructor
  · intro same
    exact Namespace.name_injective (by simpa [spacePlace] using same)
  · exact congrArg _

@[simp] theorem activePlace_ne_spacePlace : activePlace place ≠ spacePlace place space := by
  cases space <;> simp [activePlace, spacePlace, activeFile, Namespace.name]

@[simp] theorem file_ne_spacePlace : spacePlace place space ++ [fileName] ≠ spacePlace place other := by
  intro same
  simpa [spacePlace] using congrArg List.length same

@[simp] theorem file_ne_activePlace : spacePlace place space ++ [fileName] ≠ activePlace place := by
  intro same
  simpa [spacePlace, activePlace] using congrArg List.length same

@[simp] theorem file_eq_recordPlace : spacePlace place space ++ [fileName] = recordPlace place address ↔
    space = address.space ∧ fileName = Text.percentEncode address.name := by
  rw [recordPlace, List.append_singleton_inj, spacePlace_inj]

theorem recordPlace_ne_spacePlace : recordPlace place address ≠ spacePlace place space :=
  file_ne_spacePlace

theorem recordPlace_ne_activePlace : recordPlace place address ≠ activePlace place :=
  file_ne_activePlace

theorem recordPlace_inj {left right : Address} :
    recordPlace place left = recordPlace place right ↔ left = right := by
  rw [recordPlace, file_eq_recordPlace, Text.percentEncode_injective.eq_iff, Address.mk.injEq]

end Places

theorem mapM_decodeName (store : FileStore) (names : List String) :
    (names.map Text.percentEncode).mapM store.decodeName = .ok names := by
  have decodes : store.decodeName ∘ Text.percentEncode = pure := by
    funext name
    rw [Function.comp, decodeName, Text.percentDecode_percentEncode]
    rfl
  rw [List.mapM_map, decodes, List.mapM_pure, List.map_id']
  rfl

section Changes

variable {store : FileStore} {action : FileAction Unit} {what text : String} {path : List String}
  {made files : FileSystem} {fault : FileFault}

theorem change_ok (runs : action.run store.files = (.ok (), files)) :
    (change what action).run store = (.ok (), { store with files }) := by
  rw [ExceptT.run] at runs ⊢
  unfold change
  rw [ExceptT.run, runs]

theorem change_fails (fails : action.run store.files = (.error fault, files)) :
    ((change what action).run store).1 ≠ .ok () := by
  rw [ExceptT.run] at fails ⊢
  unfold change
  rw [ExceptT.run, fails]
  exact nofun

variable (makes : (FileSystem.makeDirectories (parent path)).run store.files = (.ok (), made))

include makes

theorem writeText_ok (writes : (FileSystem.write path text.toUTF8).run made = (.ok (), files)) :
    (writeText what path text).run store = (.ok (), { store with files }) :=
  change_ok ((Registry.storing_bind makes).trans writes)

theorem writeText_fails (fails : (FileSystem.write path text.toUTF8).run made = (.error fault, files)) :
    ((writeText what path text).run store).1 ≠ .ok () :=
  change_fails ((Registry.storing_bind makes).trans fails)

end Changes

theorem readText_of_find {store : FileStore} {path : List String} {what text : String}
    (found : store.files.find path = .ok (.file text.toUTF8)) : store.readText what path = .ok text := by
  have reads : store.files.read path = .ok text.toUTF8 := by
    rw [FileSystem.read, found]
    rfl
  rw [readText, reads]
  simp only [Text.ofBytes_toUTF8]

theorem set_run (store : FileStore) (address : Address) (record : String) :
    (RecordStore.set address record).run store =
      (writeText address.render (store.recordFile address) record).run store := rfl

theorem setActive_some_run (store : FileStore) (name : String) :
    (RecordStore.setActive (some name)).run store =
      (writeText activeFile store.activePath (name ++ "\n")).run store := rfl

/-- Whether a store in files at a place holds, after some requests, what a store in memory holds. -/
structure Keeps (store : FileStore) (place : Place) (before : List StoreRequest)
    (memory : MemoryStore) : Prop where
  opens : store.files.Opens store.directory place
  spaces : ∀ space, store.files.get? (spacePlace place space) =
    if space ∈ storedSpaces before then some .directory else none
  records : ∀ address, store.files.get? (recordPlace place address) =
    (memory.get? address).map fun record => .file record.toUTF8
  named : ∀ space fileName, store.files.get? (spacePlace place space ++ [fileName]) ≠ none →
    ∃ name, fileName = Text.percentEncode name
  active : store.files.get? (activePlace place) =
    memory.active.map fun name => .file (name ++ "\n").toUTF8
  stored : ∀ address, memory.get? address ≠ none → address.space ∈ storedSpaces before
  noted : memory.active = lastActive before

namespace Keeps

variable {store : FileStore} {place : Place} {before : List StoreRequest} {memory : MemoryStore}
  {address : Address} {space : Namespace} (keeps : store.Keeps place before memory)

include keeps

section Finding

theorem space_directory (made : space ∈ storedSpaces before) :
    store.files.get? (spacePlace place space) = some .directory := by
  rw [keeps.spaces, if_pos made]

theorem space_missing (missing : space ∉ storedSpaces before) :
    store.files.get? (spacePlace place space) = none := by
  rw [keeps.spaces, if_neg missing]

theorem locate_space (space : Namespace) :
    store.files.locate (store.spaceDirectory space) = .ok (spacePlace place space) :=
  keeps.opens.locate_name (isPlain_space space)

theorem opens_space (made : space ∈ storedSpaces before) :
    store.files.Opens (store.spaceDirectory space) (spacePlace place space) :=
  keeps.opens.child (isPlain_space space) (keeps.space_directory made)

theorem locate_active : store.files.locate store.activePath = .ok (activePlace place) :=
  keeps.opens.locate_name isPlain_activeFile

theorem locate_record (made : address.space ∈ storedSpaces before)
    (plain : IsPlain (Text.percentEncode address.name)) :
    store.files.locate (store.recordFile address) = .ok (recordPlace place address) :=
  (keeps.opens_space made).locate_name plain

theorem locate_record_missing (missing : address.space ∉ storedSpaces before) :
    store.files.locate (store.recordFile address) = .error .notFound :=
  keeps.opens.locate_missing (isPlain_space address.space) (keeps.space_missing missing)

theorem locate_record_dotted (made : address.space ∈ storedSpaces before)
    (dotted : IsDotted address.name) :
    ∃ target, store.files.locate (store.recordFile address) = .ok target ∧
      store.files.get? target = some .directory := by
  rw [recordFile, percentEncode_of_isDotted dotted]
  exact keeps.opens.locate_special (isPlain_space address.space) dotted (keeps.space_directory made)

theorem get?_eq_none (missing : address.space ∉ storedSpaces before) : memory.get? address = none :=
  Decidable.not_not.1 fun held => missing (keeps.stored address held)

/-- The file of a record is found if a store in memory holds the record. -/
theorem find_record (fits : NameFits address.name)
    (plain : ¬ (IsDotted address.name ∧ address.space ∈ storedSpaces before)) :
    store.files.find (store.recordFile address) =
      (memory.get? address).elim (.error .notFound) fun record => .ok (.file record.toUTF8) := by
  by_cases made : address.space ∈ storedSpaces before
  · have plain := isPlain_percentEncode fits fun dotted => plain ⟨dotted, made⟩
    rw [FileSystem.find_eq (keeps.locate_record made plain), keeps.records]
    cases memory.get? address <;> rfl
  · rw [keeps.get?_eq_none made, FileSystem.find, keeps.locate_record_missing made]
    rfl

/-- Under a name that is a special step a directory is found. -/
theorem find_record_dotted (made : address.space ∈ storedSpaces before)
    (dotted : IsDotted address.name) :
    store.files.find (store.recordFile address) = .ok .directory := by
  obtain ⟨target, located, directory⟩ := keeps.locate_record_dotted made dotted
  rw [FileSystem.find_eq located, directory]
  rfl

end Finding

section Reading

/-- A record is read as from memory, unless its name is a special step from a directory. -/
theorem get_eq_iff (fits : NameFits address.name) :
    RecordStore.get store address = RecordStore.get memory address ↔
      ¬ (IsDotted address.name ∧ address.space ∈ storedSpaces before) := by
  have reads : RecordStore.get store address =
      if (store.files.find (store.recordFile address)).isOk then
        store.readText address.render (store.recordFile address) else address.notFound := rfl
  have remembers : RecordStore.get memory address = (memory.get? address).elim address.notFound .ok := rfl
  rw [reads, remembers]
  constructor
  · rintro same ⟨dotted, made⟩
    have found := keeps.find_record_dotted made dotted
    rw [found, readText, FileSystem.read, found] at same
    cases held : memory.get? address with
    | none => rw [held] at same; cases same
    | some record => rw [held] at same; cases same
  · intro plain
    have found := keeps.find_record fits plain
    cases held : memory.get? address with
    | none =>
        rw [held] at found
        rw [found]
        rfl
    | some record =>
        rw [held] at found
        rw [readText_of_find found, found]
        rfl

/-- The files in the directory of a namespace are the names that a store in memory has there. -/
theorem exists_names (made : space ∈ storedSpaces before) :
    ∃ names : List String, store.files.fileNames (store.spaceDirectory space) =
        .ok (names.map Text.percentEncode) ∧ names.Nodup ∧
      ∀ name, name ∈ names ↔ (memory.get? ⟨space, name⟩).isSome := by
  obtain ⟨fileNames, lists, nodup, members⟩ := FileSystem.exists_fileNames (keeps.opens_space made)
  obtain ⟨names, rfl⟩ : fileNames ∈ Set.range (List.map Text.percentEncode) := by
    rw [Set.range_list_map]
    intro fileName member
    obtain ⟨content, held⟩ := (members fileName).1 member
    obtain ⟨name, rfl⟩ := keeps.named space fileName fun missing => by
      rw [held] at missing
      cases missing
    exact ⟨name, rfl⟩
  refine ⟨names, lists, nodup.of_map _, fun name => ?_⟩
  rw [← List.mem_map_of_injective Text.percentEncode_injective, members]
  change (∃ content, store.files.get? (recordPlace place ⟨space, name⟩) = _) ↔ _
  rw [keeps.records]
  cases memory.get? ⟨space, name⟩ <;> simp

/-- The names of a namespace are listed as from memory. -/
theorem list_eq (space : Namespace) : RecordStore.list store space = RecordStore.list memory space := by
  change store.list space = .ok (memory.records space).keys
  rw [list, FileSystem.contains_eq (keeps.locate_space space)]
  by_cases made : space ∈ storedSpaces before
  · obtain ⟨names, lists, nodup, members⟩ := keeps.exists_names made
    rw [keeps.space_directory made, if_pos Option.isSome_some, lists]
    change ((names.map Text.percentEncode).mapM store.decodeName >>= _) = _
    rw [mapM_decodeName]
    exact congrArg Except.ok (SortedMap.mergeSort_eq_keys nodup members)
  · rw [keeps.space_missing made, if_neg (by simp)]
    refine congrArg Except.ok (List.eq_nil_iff_forall_not_mem.2 fun name member => ?_).symm
    rw [SortedMap.mem_keys_iff, Option.isSome_iff_ne_none] at member
    exact made (keeps.stored ⟨space, name⟩ member)

/-- The name of the active playlist is what is read back from the line that it was written in. -/
theorem getActive_eq : RecordStore.getActive store = .ok (memory.active.bind Text.readLine) := by
  change store.getActive = _
  have found := FileSystem.find_eq keeps.locate_active
  have here := FileSystem.contains_eq keeps.locate_active
  rw [keeps.active] at found here
  cases held : memory.active with
  | none =>
      rw [held] at here
      rw [getActive, here]
      rfl
  | some name =>
      rw [held] at found here
      rw [getActive, here, readText_of_find found, Option.bind_some, Text.readLine,
        ← Text.firstLine_append_break]
      rfl

theorem getActive_eq_iff : RecordStore.getActive store = RecordStore.getActive memory ↔
    ¬ ∃ name, lastActive before = some name ∧ ¬ Text.IsLine name := by
  rw [keeps.getActive_eq, ← keeps.noted]
  change Except.ok (memory.active.bind Text.readLine) = .ok memory.active ↔ _
  cases memory.active with
  | none => simp
  | some name => simp [Text.readLine_eq_iff]

end Reading

section Changing

/-- A request that stores nothing and sets nothing leaves what is to be held as it is. -/
theorem later (request : StoreRequest) (storesNone : request.storedSpace? = none)
    (sameActive : nextActive (lastActive before) request = lastActive before) :
    store.Keeps place (before ++ [request]) memory where
  opens := keeps.opens
  spaces := by
    intro space
    rw [keeps.spaces]
    simp [mem_storedSpaces_append, storesNone]
  records := keeps.records
  named := keeps.named
  active := keeps.active
  stored address held := mem_storedSpaces_append.2 (.inl (keeps.stored address held))
  noted := by rw [lastActive_append, sameActive, keeps.noted]

theorem active_noDirectory : store.files.get? (activePlace place) ≠ some .directory := by
  rw [keeps.active]
  cases memory.active <;> simp

theorem record_noDirectory (address : Address) :
    store.files.get? (recordPlace place address) ≠ some .directory := by
  rw [keeps.records]
  cases memory.get? address <;> simp

/-- Setting the active playlist changes the file with its name. -/
theorem exists_setActive (name : Option String) :
    ∃ files, (RecordStore.setActive name).run store = (.ok (), { store with files }) ∧
      store.files.Updates files (activePlace place)
        (name.map fun name => .file (name ++ "\n").toUTF8) := by
  cases name with
  | none =>
      obtain ⟨files, runs, updates⟩ :=
        FileSystem.exists_removeFile keeps.locate_active keeps.active_noDirectory
      exact ⟨files, change_ok runs, updates⟩
  | some name =>
      obtain ⟨files, runs, updates⟩ := FileSystem.exists_write keeps.locate_active
        (by simp [activePath, activeFile]) keeps.active_noDirectory (name ++ "\n").toUTF8
      have above : parent store.activePath = store.directory := by
        simp [parent, activePath, activeFile]
      have makes := above ▸ keeps.opens.makeDirectories_run
      exact ⟨files, (setActive_some_run store name).trans (writeText_ok makes runs), updates⟩

theorem after_setActive {name : Option String} {files : FileSystem}
    (updates : store.files.Updates files (activePlace place)
      (name.map fun name => .file (name ++ "\n").toUTF8)) :
    { store with files }.Keeps place (before ++ [StoreRequest.setActive name])
      { memory with active := name } where
  opens := keeps.opens.updates updates fun directory => absurd directory keeps.active_noDirectory
  spaces space := by
    rw [updates.get?_of_ne activePlace_ne_spacePlace.symm, keeps.spaces]
    simp [mem_storedSpaces_append, storedSpace?]
  records address := (updates.get?_of_ne file_ne_activePlace).trans (keeps.records address)
  named space fileName held := by
    rw [updates.get?_of_ne file_ne_activePlace] at held
    exact keeps.named space fileName held
  active := updates.get?_self
  stored address held := mem_storedSpaces_append.2 (.inl (keeps.stored address held))
  noted := by rw [lastActive_append, nextActive]

/-- Removing a record removes its file, if there is one. -/
theorem exists_remove (fits : NameFits address.name)
    (plain : ¬ (IsDotted address.name ∧ address.space ∈ storedSpaces before)) :
    ∃ files, (RecordStore.remove address).run store = (.ok (), { store with files }) ∧
      store.files.Updates files (recordPlace place address) none := by
  by_cases made : address.space ∈ storedSpaces before
  · have plain := isPlain_percentEncode fits fun dotted => plain ⟨dotted, made⟩
    obtain ⟨files, runs, updates⟩ :=
      FileSystem.exists_removeFile (keeps.locate_record made plain) (keeps.record_noDirectory address)
    exact ⟨files, change_ok runs, updates⟩
  · have missing : store.files.contains (store.recordFile address) = false := by
      rw [FileSystem.contains, FileSystem.find, keeps.locate_record_missing made]
      rfl
    refine ⟨store.files, change_ok ?_, .refl ?_⟩
    · change (if store.files.contains (store.recordFile address) then _ else pure () : FileAction Unit).run
        store.files = _
      rw [missing]
      rfl
    · rw [keeps.records, keeps.get?_eq_none made]
      rfl

theorem remove_fails (made : address.space ∈ storedSpaces before) (dotted : IsDotted address.name) :
    ((RecordStore.remove address).run store).1 ≠ .ok () := by
  obtain ⟨fault, fails⟩ := FileSystem.removeFile_fails (keeps.find_record_dotted made dotted)
  exact change_fails fails

theorem after_remove {files : FileSystem}
    (updates : store.files.Updates files (recordPlace place address) none) :
    { store with files }.Keeps place (before ++ [StoreRequest.remove address]) (memory.erase address) where
  opens := keeps.opens.updates updates fun directory =>
    absurd directory (keeps.record_noDirectory address)
  spaces space := by
    rw [updates.get?_of_ne recordPlace_ne_spacePlace.symm, keeps.spaces]
    simp [mem_storedSpaces_append, storedSpace?]
  records other := by
    rw [updates.get?, MemoryStore.get?_erase, keeps.records]
    simp only [recordPlace_inj]
    split <;> rfl
  named space fileName held := by
    refine keeps.named space fileName fun missing => held ?_
    rw [updates.get?, missing, ite_self]
  active := by
    rw [updates.get?_of_ne recordPlace_ne_activePlace.symm, keeps.active, MemoryStore.active_erase]
  stored other held := by
    refine mem_storedSpaces_append.2 (.inl (keeps.stored other fun missing => held ?_))
    rw [MemoryStore.get?_erase, missing, ite_self]
  noted := by
    rw [lastActive_append, nextActive, ← keeps.noted, MemoryStore.active_erase]

theorem space_noFile (space : Namespace) (content : ByteArray) :
    store.files.get? (spacePlace place space) ≠ some (.file content) := by
  rw [keeps.spaces]
  split <;> simp

/-- Storing a record makes the directory of its namespace and writes its file. -/
theorem exists_set (fits : NameFits address.name) (plain : ¬ IsDotted address.name) (record : String) :
    ∃ made files, (RecordStore.set address record).run store = (.ok (), { store with files }) ∧
      store.files.Updates made (spacePlace place address.space) (some .directory) ∧
      made.Updates files (recordPlace place address) (some (.file record.toUTF8)) := by
  have plain := isPlain_percentEncode fits plain
  obtain ⟨made, makes, directory⟩ :=
    keeps.opens.exists_makeDirectories (isPlain_space address.space) (keeps.space_noFile address.space)
  have above : parent (store.recordFile address) = store.directory ++ [address.space.name] := by
    simp [parent, recordFile, spaceDirectory, plain.nonempty, plain.notHere]
  rw [← above] at makes
  have opens := keeps.opens.updates directory fun _ => rfl
  have located : made.locate (store.recordFile address) = .ok (recordPlace place address) :=
    (opens.child (isPlain_space address.space) directory.get?_self).locate_name plain
  have noDirectory : made.get? (recordPlace place address) ≠ some .directory := by
    rw [directory.get?_of_ne recordPlace_ne_spacePlace]
    exact keeps.record_noDirectory address
  obtain ⟨files, writes, file⟩ := FileSystem.exists_write located
    (by simp [recordFile, plain.nonempty]) noDirectory record.toUTF8
  exact ⟨made, files, (set_run store address record).trans (writeText_ok makes writes), directory, file⟩

/-- The directory that is made for a record whose name is a special step. -/
theorem exists_parent (dotted : IsDotted address.name) :
    ∃ made, (FileSystem.makeDirectories (parent (store.recordFile address))).run store.files =
        (.ok (), made) ∧ made.Opens store.directory place ∧
      ∀ content, made.get? (spacePlace place address.space) ≠ some (.file content) := by
  rw [recordFile, percentEncode_of_isDotted dotted]
  rcases dotted with here | above
  · have parent : parent (store.spaceDirectory address.space ++ [address.name]) = store.directory := by
      simp [parent, spaceDirectory, here]
    exact ⟨store.files, parent ▸ keeps.opens.makeDirectories_run, keeps.opens,
      keeps.space_noFile address.space⟩
  · obtain ⟨made, makes, directory⟩ :=
      keeps.opens.exists_makeDirectories (isPlain_space address.space) (keeps.space_noFile address.space)
    have parent : parent (store.spaceDirectory address.space ++ [address.name]) =
        store.directory ++ [address.space.name] := by
      simp [parent, spaceDirectory, above]
    refine ⟨made, parent ▸ makes, keeps.opens.updates directory fun _ => rfl, fun content file => ?_⟩
    cases directory.get?_self.symm.trans file

/-- No record is stored under a name that is a special step. -/
theorem set_fails (dotted : IsDotted address.name) (record : String) :
    ((RecordStore.set address record).run store).1 ≠ .ok () := by
  obtain ⟨made, makes, opens, noFile⟩ := keeps.exists_parent dotted
  have path : store.recordFile address =
      store.directory ++ [address.space.name] ++ [address.name] := by
    rw [recordFile, percentEncode_of_isDotted dotted]
    rfl
  have nowhere : ∀ target, made.locate (store.recordFile address) = .ok target →
      made.get? target = some .directory := by
    intro target located
    rw [path] at located
    cases here : made.get? (spacePlace place address.space) with
    | none =>
        rw [opens.locate_missing (isPlain_space address.space) here] at located
        cases located
    | some entry =>
        cases entry with
        | file content => exact absurd here (noFile content)
        | directory =>
            obtain ⟨other, elsewhere, directory⟩ :=
              opens.locate_special (isPlain_space address.space) dotted here
            obtain rfl := Except.ok.inj (located.symm.trans elsewhere)
            exact directory
  obtain ⟨fault, fails⟩ := FileSystem.write_fails
    (by rcases dotted with here | above <;> simp [*]) nowhere record.toUTF8
  rw [set_run]
  exact writeText_fails makes fails

theorem after_set {made files : FileSystem} {record : String}
    (directory : store.files.Updates made (spacePlace place address.space) (some .directory))
    (file : made.Updates files (recordPlace place address) (some (.file record.toUTF8))) :
    { store with files }.Keeps place (before ++ [StoreRequest.set address record])
      (memory.insert address record) where
  opens := by
    refine (keeps.opens.updates directory fun _ => rfl).updates file fun there => ?_
    rw [directory.get?_of_ne recordPlace_ne_spacePlace] at there
    exact absurd there (keeps.record_noDirectory address)
  spaces space := by
    rw [file.get?_of_ne recordPlace_ne_spacePlace.symm, directory.get?, keeps.spaces]
    simp only [spacePlace_inj, mem_storedSpaces_append, storedSpace?, Option.some.injEq]
    by_cases same : space = address.space
    · simp [same]
    · simp [same, Ne.symm same]
  records other := by
    rw [file.get?, MemoryStore.get?_insert, directory.get?_of_ne recordPlace_ne_spacePlace, keeps.records]
    simp only [recordPlace_inj]
    split <;> rfl
  named space fileName held := by
    rw [file.get?] at held
    split at held
    · next same => exact ⟨_, (file_eq_recordPlace.1 same).2⟩
    · rw [directory.get?_of_ne file_ne_spacePlace] at held
      exact keeps.named space fileName held
  active := by
    rw [file.get?_of_ne recordPlace_ne_activePlace.symm, directory.get?_of_ne activePlace_ne_spacePlace,
      keeps.active, MemoryStore.active_insert]
  stored other held := by
    rw [MemoryStore.get?_insert] at held
    rw [mem_storedSpaces_append]
    split at held
    · next same => exact .inr (congrArg some (congrArg Address.space same.symm))
    · exact .inl (keeps.stored other held)
  noted := by
    rw [lastActive_append, nextActive, ← keeps.noted, MemoryStore.active_insert]

end Changing

end Keeps

end FileStore

end Medley
