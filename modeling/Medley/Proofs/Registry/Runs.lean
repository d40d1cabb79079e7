import Medley.Proofs.Registry.Changes
import Medley.Registry.Basic

/-!
# Runs of a registry

A program makes nodes and changes what is stored, one request after the other.  A request that
succeeds does what it asks to the stored collections, and one that fails leaves them as they were
(`Registry.serve_cases`), so they stay well-formed through a run.
-/

namespace Medley

/-- What a program asks for when it works with stored collections. -/
inductive Request where
  /-- To make nodes: a number of identities is handed out. -/
  | create (count : Nat)
  | save (address : Address) (tree : Node)
  | remove (address : Address)
  | rename (address : Address) (name : String)
  | activate (name : String)

/-- The namespaces that a request changes. -/
def Request.spaces : Request → List Namespace
  | .create _ => []
  | .save address _ => [address.space]
  | .remove _ => Namespace.all
  | .rename _ _ => Namespace.all
  | .activate _ => [.playlists]

namespace State

/-- The stored collections after a change, from the first identity not in use. -/
def apply (state : State) : Request → Fresh (Except Error State)
  | .create count => fun next => (.ok state, next + count)
  | .save address tree => pure (state.save address tree)
  | .remove address => state.remove address
  | .rename address name => pure (state.rename address name)
  | .activate name => pure (state.activate name)

variable {state after : State}

/-- What is well-formed stays so in a change that succeeds. -/
theorem WellFormed.apply (wellFormed : state.WellFormed) {request : Request} {next : Nat}
    (applied : (state.apply request next).1 = .ok after) : after.WellFormed := by
  cases request with
  | create count => exact Except.ok.inj applied ▸ wellFormed
  | save address tree =>
      obtain ⟨-, handle, redirects, -⟩ := wellFormed.save applied
      exact redirects.wellFormed
  | remove address =>
      obtain ⟨_, _, -, -, afterwards, -⟩ := wellFormed.remove applied
      exact afterwards
  | rename address name =>
      obtain ⟨_, -, -, afterwards, -⟩ := wellFormed.rename applied
      exact afterwards
  | activate name =>
      obtain ⟨_, _, -, -, redirects, -⟩ := wellFormed.activate applied
      exact redirects.wellFormed

end State

namespace Registry

variable {σ : Type} [RecordStore σ]

/-- The call that answers a request. -/
def call : Request → Call σ Unit
  | .create count => modify fun registry =>
      { registry with nextIdentity := registry.nextIdentity + count }
  | .save address tree => save address tree
  | .remove address => remove address
  | .rename address name => rename address name
  | .activate name => setActive name

/-- A request that does not make nodes changes the stored collections as it asks. -/
theorem call_cases (registry : Registry σ) (request : Request) :
    (∃ count, request = .create count) ∨ (call request).run registry =
      (change request.spaces fun state => state.apply request).run registry := by
  cases request with
  | create count => exact .inl ⟨count, rfl⟩
  | _ => exact .inr rfl

/-- The registry after a request. -/
def serve (registry : Registry σ) (request : Request) : Registry σ :=
  ((call request).run registry).2

/-- Whether a request succeeds. -/
def Accepts (registry : Registry σ) (request : Request) : Prop :=
  ((call request).run registry).1 = .ok ()

/-- The registry after several requests. -/
def serveAll (registry : Registry σ) (requests : List Request) : Registry σ :=
  requests.foldl serve registry

section Steps

omit [RecordStore σ]

variable {α β : Type} (registry : Registry σ)

theorem bind_run (action : Call σ α) (next : α → Call σ β) :
    (action >>= next).run registry =
      match (action.run registry).1 with
      | .ok value => (next value).run (action.run registry).2
      | .error error => (.error error, (action.run registry).2) := by
  simp only [bind, ExceptT.bind, ExceptT.run, ExceptT.mk, ExceptT.bindCont, StateT.bind]
  cases action registry with
  | mk result after => cases result <;> rfl

theorem get_bind_run (next : Registry σ → Call σ β) :
    ((MonadState.get : Call σ (Registry σ)) >>= next).run registry = (next registry).run registry :=
  rfl

theorem modify_run (image : Registry σ → Registry σ) :
    (modify image : Call σ Unit).run registry = (.ok (), image registry) := rfl

theorem modify_bind_run (image : Registry σ → Registry σ) (next : Unit → Call σ β) :
    ((modify image : Call σ Unit) >>= next).run registry = (next ()).run (image registry) := rfl

theorem fresh_bind_run (action : Fresh α) (next : α → Call σ β) :
    (fresh action >>= next).run registry =
      (next (action registry.nextIdentity).1).run
        { registry with nextIdentity := (action registry.nextIdentity).2 } := rfl

theorem lift_bind (value : α) (next : α → Call σ β) :
    (liftM (.ok value : Except Error α) >>= next) = next value := rfl

theorem tryCatch_run (action : Call σ α) (handler : Error → Call σ α) :
    (tryCatch action handler).run registry =
      match (action.run registry).1 with
      | .ok value => (.ok value, (action.run registry).2)
      | .error error => (handler error).run (action.run registry).2 := by
  simp only [tryCatch, tryCatchThe, MonadExceptOf.tryCatch, ExceptT.tryCatch, ExceptT.run,
    ExceptT.mk, bind, StateT.bind]
  cases action registry with
  | mk result after => cases result <;> rfl

end Steps

variable (registry : Registry σ)

theorem persist_run (spaces : List Namespace) :
    (persist spaces).run registry =
      if RecordStore.isPersistent registry.store && registry.isPersisting then
        let written := (spaces.forM (writeNamespace registry.state)).run registry.store
        (written.1, { registry with store := written.2 })
      else (.ok (), registry) := by
  rw [persist, get_bind_run]
  split <;> rfl

theorem change_run (spaces : List Namespace) (action : State → Fresh (Except Error State)) :
    (change spaces action).run registry =
      match action registry.state registry.nextIdentity with
      | (.error error, nextIdentity) => (.error error, { registry with nextIdentity })
      | (.ok state, nextIdentity) =>
          let changed := { registry with state, nextIdentity }
          match registry.config.persistence with
          | .deferred => (.ok (), changed.markDirty spaces)
          | .immediate =>
              let written := (persist spaces).run changed
              match written.1 with
              | .ok () => written
              | .error error => (.error error, written.2.withState registry.state) := by
  unfold change
  rw [get_bind_run, fresh_bind_run]
  obtain ⟨result, next⟩ := action registry.state registry.nextIdentity
  cases result with
  | error error => rfl
  | ok state =>
      simp only
      rw [lift_bind, modify_bind_run, get_bind_run]
      simp only [withState]
      cases registry.config.persistence with
      | deferred => rfl
      | immediate =>
          simp only [tryCatch_run]
          cases written : (persist spaces).run { registry with state, nextIdentity := next } with
          | mk result after => cases result <;> rfl

/-- Writing changes nothing but the store. -/
theorem persist_cases (spaces : List Namespace) :
    ∃ result store, (persist spaces).run registry = (result, { registry with store }) := by
  rw [persist_run]
  split
  · exact ⟨_, _, rfl⟩
  · exact ⟨_, registry.store, rfl⟩

theorem state_persist (spaces : List Namespace) :
    ((persist spaces).run registry).2.state = registry.state := by
  obtain ⟨result, store, written⟩ := registry.persist_cases spaces
  rw [written]

/-- A change either happens and changes nothing but the stored collections and what waits to be
written, or leaves all as it was but for the store.  In both cases the identities that it handed out
are in use. -/
theorem change_cases (spaces : List Namespace) (action : State → Fresh (Except Error State)) :
    let nextIdentity := (action registry.state registry.nextIdentity).2
    (∃ state store isDirty isRequested,
        (action registry.state registry.nextIdentity).1 = .ok state ∧
        (change spaces action).run registry =
          (.ok (), { registry with state, store, isDirty, isRequested, nextIdentity })) ∨
      ∃ error store,
        (change spaces action).run registry = (.error error, { registry with store, nextIdentity }) := by
  rw [change_run]
  obtain ⟨result, next⟩ := action registry.state registry.nextIdentity
  cases result with
  | error error => exact .inr ⟨error, registry.store, rfl⟩
  | ok state =>
      simp only
      cases registry.config.persistence with
      | deferred => exact .inl ⟨state, _, _, _, rfl, rfl⟩
      | immediate =>
          obtain ⟨result, store, written⟩ :=
            persist_cases { registry with state, nextIdentity := next } spaces
          simp only [written]
          cases result with
          | ok value => exact .inl ⟨state, store, _, _, rfl, rfl⟩
          | error error => exact .inr ⟨error, store, rfl⟩

/-- A request either does what it asks, or leaves all as it was but for the store and the identities
in use. -/
theorem serve_inversion (request : Request) :
    let nextIdentity := (registry.state.apply request registry.nextIdentity).2
    (∃ state store isDirty isRequested,
        (registry.state.apply request registry.nextIdentity).1 = .ok state ∧ registry.Accepts request ∧
        registry.serve request =
          { registry with state, store, isDirty, isRequested, nextIdentity }) ∨
      (¬ registry.Accepts request ∧
        ∃ store, registry.serve request = { registry with store, nextIdentity }) := by
  unfold Accepts serve
  rcases registry.call_cases request with ⟨count, rfl⟩ | changes
  · exact .inl ⟨registry.state, registry.store, registry.isDirty, registry.isRequested, rfl, rfl, rfl⟩
  · rw [changes]
    rcases registry.change_cases request.spaces fun state => state.apply request with
      ⟨state, store, isDirty, isRequested, applied, runs⟩ | ⟨error, store, runs⟩
    · exact .inl ⟨state, store, isDirty, isRequested, applied, by rw [runs], by rw [runs]⟩
    · exact .inr ⟨by simp [runs], store, by rw [runs]⟩

/-- A request either changes the stored collections as it asks or leaves them as they were. -/
theorem serve_cases (request : Request) :
    (∃ state, (registry.state.apply request registry.nextIdentity).1 = .ok state ∧
        registry.Accepts request ∧ (registry.serve request).state = state) ∨
      (¬ registry.Accepts request ∧ (registry.serve request).state = registry.state) := by
  rcases registry.serve_inversion request with
    ⟨state, store, isDirty, isRequested, applied, accepted, same⟩ | ⟨refused, store, same⟩
  · exact .inl ⟨state, applied, accepted, by rw [same]⟩
  · exact .inr ⟨refused, by rw [same]⟩

/-- Where nothing is kept, a request succeeds if the change that it asks for does. -/
theorem serve_of_apply (quiet : RecordStore.isPersistent registry.store = false) {request : Request}
    {state : State} (applied : (registry.state.apply request registry.nextIdentity).1 = .ok state) :
    registry.Accepts request ∧ (registry.serve request).state = state := by
  unfold Accepts serve
  rcases registry.call_cases request with ⟨count, rfl⟩ | changes
  · exact ⟨rfl, Except.ok.inj applied⟩
  · rw [changes, change_run]
    generalize registry.state.apply request registry.nextIdentity = changed at applied
    obtain ⟨result, next⟩ := changed
    obtain rfl : result = .ok state := applied
    cases registry.config.persistence with
    | deferred => exact ⟨rfl, rfl⟩
    | immediate =>
        simp only [persist_run, quiet, Bool.false_and, Bool.false_eq_true, if_false]
        trivial

/-- What a registry answers with is not changed by requests. -/
theorem settings_serve (request : Request) :
    (registry.serve request).config = registry.config ∧
      (registry.serve request).library = registry.library := by
  rcases registry.serve_inversion request with ⟨_, _, _, _, -, -, same⟩ | ⟨-, _, same⟩
  · rw [same]
    exact ⟨rfl, rfl⟩
  · rw [same]
    exact ⟨rfl, rfl⟩

theorem settings_serveAll (requests : List Request) :
    (registry.serveAll requests).config = registry.config ∧
      (registry.serveAll requests).library = registry.library := by
  induction requests generalizing registry with
  | nil => exact ⟨rfl, rfl⟩
  | cons request rest ih =>
      have first := settings_serve registry request
      have later := ih (registry.serve request)
      exact ⟨later.1.trans first.1, later.2.trans first.2⟩

theorem wellFormed_serve {registry : Registry σ} (wellFormed : registry.state.WellFormed)
    (request : Request) : (registry.serve request).state.WellFormed := by
  rcases registry.serve_cases request with ⟨state, applied, -, same⟩ | ⟨-, same⟩
  · exact same ▸ wellFormed.apply applied
  · exact same ▸ wellFormed

theorem wellFormed_serveAll {registry : Registry σ} (wellFormed : registry.state.WellFormed)
    (requests : List Request) : (registry.serveAll requests).state.WellFormed := by
  induction requests generalizing registry with
  | nil => exact wellFormed
  | cons request rest ih => exact ih (wellFormed_serve wellFormed request)

theorem serveAll_append (requests more : List Request) :
    registry.serveAll (requests ++ more) = (registry.serveAll requests).serveAll more :=
  List.foldl_append

end Registry

end Medley
