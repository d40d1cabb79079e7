import Medley.Proofs.Persistence.Mirror
import Medley.Registry.Scheduler

/-!
# Writes that are deferred

Clients change a registry while a worker writes it whenever a request is due, until the worker is stopped
and what it has left is written (`Session`).  The requests and the namespaces that have changed are kept
apart and are cleared at different times, and yet no change is lost: a namespace that does not count as
changed is mirrored by the store, and as long as one does, a request is there or about to be answered
(`Session.Kept`).  So a shutdown leaves a store that mirrors everything (`Session.mirrors_of_run`).
-/

namespace Medley

/-- A store has what is written of the stored collections of a namespace. -/
structure MirrorsIn (store : MemoryStore) (state : State) (space : Namespace) : Prop where
  records : ∀ name, store.get? ⟨space, name⟩ = (state.recorded ⟨space, name⟩).map Record.write
  active : space = .playlists → store.active = state.activeTarget

theorem mirrors_iff_each {store : MemoryStore} {state : State} :
    Mirrors store state ↔ ∀ space, MirrorsIn store state space := by
  constructor
  · intro mirrors space
    exact ⟨fun name => mirrors.records ⟨space, name⟩, fun _ => mirrors.active⟩
  · intro each
    exact ⟨fun address => (each address.space).records address.name, (each .playlists).active rfl⟩

/-- What a change leaves alone is mirrored as before. -/
theorem MirrorsIn.of_leaves {store : MemoryStore} {state after : State} {space : Namespace}
    {spaces : List Namespace} (mirrors : MirrorsIn store state space)
    (leaves : state.Leaves after spaces) (untouched : space ∉ spaces) :
    MirrorsIn store after space where
  records name := (mirrors.records name).trans
    (congrArg (Option.map Record.write) (leaves.recorded untouched).symm)
  active isPlaylists := (mirrors.active isPlaylists).trans
    (leaves.activeTarget (isPlaylists ▸ untouched)).symm

/-! ## What happens in a session -/

/-- What the worker does: it waits for a request that is due, or has taken one and is going to write, or
has ended. -/
inductive Worker where
  | waiting
  | writing
  | ended

/-- How far a shutdown has come. -/
inductive Closing where
  | open
  /-- The worker has been told to stop. -/
  | stopping
  /-- The worker has ended. -/
  | joined
  /-- There were changes then, which are going to be written. -/
  | writing
  | returned (result : Except Error Unit)
  deriving DecidableEq

/-- A registry that clients and a worker share until it is shut down. -/
structure Session where
  registry : Registry MemoryStore
  worker : Worker := .waiting
  /-- Whether the worker has been told to stop. -/
  isStopped : Bool := false
  closing : Closing := .open

/-- What happens while the registry or the request is locked, so that nothing else happens meanwhile. -/
inductive Event where
  /-- A client changes the stored collections, which marks them and files a request. -/
  | serve (request : Request)
  /-- A client asks for a write. -/
  | request
  /-- A client writes everything. -/
  | sync
  /-- The worker takes a request that is due. -/
  | take
  /-- The worker answers the request that it has taken. -/
  | write
  /-- The worker ends because it has been told to stop. -/
  | leave
  /-- A shutdown tells the worker to stop. -/
  | stop
  /-- The shutdown has waited for the worker to end. -/
  | join
  /-- The shutdown looks for changes. -/
  | check
  /-- The shutdown writes the changes. -/
  | finish

namespace Session

/-- A session over an empty store. -/
def start (config : Config) (library : MediaLibrary) : Session :=
  { registry := { config, library, store := {} } }

/-- What an event makes of a session, if it can happen. -/
def step (session : Session) : Event → Option Session
  | .serve request => some { session with registry := session.registry.serve request }
  | .request => some { session with registry := session.registry.request }
  | .sync => some { session with registry := (Registry.sync.run session.registry).2 }
  | .take =>
      match session.worker, session.isStopped with
      | .waiting, false => session.registry.takeRequest?.map fun registry =>
          { session with registry, worker := .writing }
      | _, _ => none
  | .write =>
      match session.worker with
      | .writing => some { session with
          registry := (Registry.sync.run session.registry).2, worker := .waiting }
      | _ => none
  | .leave =>
      match session.worker, session.isStopped with
      | .waiting, true => some { session with worker := .ended }
      | _, _ => none
  | .stop =>
      match session.closing with
      | .open | .returned _ => some { session with isStopped := true, closing := .stopping }
      | _ => none
  | .join =>
      match session.closing, session.worker with
      | .stopping, .ended => some { session with closing := .joined }
      | _, _ => none
  | .check =>
      match session.closing with
      | .joined => some { session with
          closing := if session.registry.hasChanges then .writing else .returned (.ok ()) }
      | _ => none
  | .finish =>
      match session.closing with
      | .writing =>
          let (result, registry) := Registry.sync.run session.registry
          some { session with registry, closing := .returned result }
      | _ => none

/-- What events make of a session, if they can happen one after the other. -/
def run (session : Session) (events : List Event) : Option Session := events.foldlM step session

theorem run_append (session : Session) (events more : List Event) :
    session.run (events ++ more) = (session.run events).bind fun between => between.run more :=
  List.foldlM_append

/-- The worker does with a request what it does when it is alone. -/
theorem run_take_write {session : Session} (waits : session.worker = .waiting)
    (goesOn : session.isStopped = false) (requested : session.registry.isRequested = true) :
    session.run [.take, .write] = some { session with registry := session.registry.runDue } := by
  obtain ⟨registry, worker, isStopped, closing⟩ := session
  obtain rfl : worker = .waiting := waits
  obtain rfl : isStopped = false := goesOn
  have taken : registry.takeRequest? = some { registry with isRequested := false } := if_pos requested
  simp only [run, List.foldlM, step, Registry.runDue, taken]
  rfl

/-- The shutdown does what it does when it is alone. -/
theorem run_check_finish {session : Session} (joined : session.closing = .joined) :
    session.run (if session.registry.hasChanges then [.check, .finish] else [.check]) =
      let closes := Registry.shutdown.run session.registry
      some { session with registry := closes.2, closing := .returned closes.1 } := by
  obtain ⟨registry, worker, isStopped, closing⟩ := session
  obtain rfl : closing = .joined := joined
  simp only [Registry.shutdown, Registry.get_bind_run]
  cases dirty : registry.hasChanges with
  | false =>
      simp only [run, Bool.false_eq_true, if_false, List.foldlM, step, dirty]
      rfl
  | true =>
      simp only [run, if_true, List.foldlM, step, dirty]
      rfl

/-- What can happen: a client changes something, everything is written, a request is filed or taken, or
nothing happens to the registry, and the worker and the shutdown finish what they are going to write. -/
theorem step_cases {session after : Session} {event : Event}
    (steps : session.step event = some after) :
    (∃ request, event = .serve request ∧
        after = { session with registry := session.registry.serve request }) ∨
      after.registry = (Registry.sync.run session.registry).2 ∨
      (after.registry = session.registry.request ∧ after.worker = session.worker ∧
        after.closing = session.closing) ∨
      (after.registry = { session.registry with isRequested := false } ∧ after.worker = .writing ∧
        after.closing = session.closing) ∨
      (after.registry = session.registry ∧ (session.worker = .writing → after.worker = .writing) ∧
        (session.closing = .writing → after.closing = .writing)) := by
  obtain ⟨registry, worker, isStopped, closing⟩ := session
  cases event with
  | serve request => exact .inl ⟨request, rfl, (Option.some.inj steps).symm⟩
  | request =>
      obtain rfl := Option.some.inj steps
      exact .inr (.inr (.inl ⟨rfl, rfl, rfl⟩))
  | sync =>
      obtain rfl := Option.some.inj steps
      exact .inr (.inl rfl)
  | take =>
      refine .inr (.inr (.inr (.inl ?_)))
      cases worker <;> cases isStopped <;> try cases steps
      obtain ⟨taken, takes, rfl⟩ := Option.map_eq_some_iff.1 steps
      unfold Registry.takeRequest? at takes
      split at takes
      · obtain rfl := Option.some.inj takes
        exact ⟨rfl, rfl, rfl⟩
      · cases takes
  | write =>
      refine .inr (.inl ?_)
      cases worker <;> cases steps
      rfl
  | leave =>
      refine .inr (.inr (.inr (.inr ?_)))
      cases worker <;> cases isStopped <;> cases steps
      exact ⟨rfl, nofun, id⟩
  | stop =>
      refine .inr (.inr (.inr (.inr ?_)))
      cases closing <;> cases steps <;> exact ⟨rfl, id, nofun⟩
  | join =>
      refine .inr (.inr (.inr (.inr ?_)))
      cases closing <;> cases worker <;> cases steps
      exact ⟨rfl, id, nofun⟩
  | check =>
      refine .inr (.inr (.inr (.inr ?_)))
      cases closing <;> cases steps
      exact ⟨rfl, id, nofun⟩
  | finish =>
      refine .inr (.inl ?_)
      cases closing <;> cases steps
      rfl

end Session

/-! ## No change is lost -/

namespace Registry

variable {registry : Registry MemoryStore}

theorem hasChanges_eq_false : registry.hasChanges = false ↔ ∀ space, registry.isDirty space = false := by
  simp [hasChanges]

/-- A registry whose writes are deferred, and whose store mirrors the namespaces that do not count as
changed. -/
structure Deferring (registry : Registry MemoryStore) : Prop where
  wellFormed : registry.state.WellFormed
  persisting : registry.isPersisting = true
  deferred : registry.config.persistence = .deferred
  mirrored : ∀ space, registry.isDirty space = false → MirrorsIn registry.store registry.state space

/-- A request either leaves everything but identities as it is, or changes the namespaces that it is
about, which then count as changed. -/
theorem serve_deferred (deferred : registry.config.persistence = .deferred) (request : Request) :
    (∃ nextIdentity, registry.serve request = { registry with nextIdentity }) ∨
      ∃ state nextIdentity, (registry.state.apply request registry.nextIdentity).1 = .ok state ∧
        registry.serve request =
          markDirty { registry with state, nextIdentity } request.spaces := by
  unfold serve
  rcases registry.call_cases request with ⟨count, rfl⟩ | changes
  · exact .inl ⟨registry.nextIdentity + count, rfl⟩
  · rw [changes, change_run]
    obtain ⟨result, nextIdentity⟩ := registry.state.apply request registry.nextIdentity
    cases result with
    | error error => exact .inl ⟨nextIdentity, rfl⟩
    | ok state =>
        refine .inr ⟨state, nextIdentity, rfl, ?_⟩
        simp only [deferred]

namespace Deferring

variable (deferring : registry.Deferring)

include deferring

theorem serve (request : Request) : (registry.serve request).Deferring := by
  rcases serve_deferred deferring.deferred request with ⟨nextIdentity, same⟩ |
    ⟨state, nextIdentity, applied, same⟩
  · rw [same]
    exact ⟨deferring.wellFormed, deferring.persisting, deferring.deferred, deferring.mirrored⟩
  · rw [same]
    refine ⟨deferring.wellFormed.apply applied, deferring.persisting, deferring.deferred, ?_⟩
    intro space clean
    obtain ⟨before, untouched⟩ := Bool.or_eq_false_iff.1 clean
    refine (deferring.mirrored space before).of_leaves (deferring.wellFormed.leaves_apply applied) ?_
    simpa using untouched

/-- To write everything succeeds, after which nothing counts as changed and everything is mirrored. -/
theorem sync_run : ∃ store, (sync : Call MemoryStore Unit).run registry =
    (.ok (), { registry with store, isDirty := fun _ => false }) ∧ Mirrors store registry.state := by
  obtain ⟨store, runs, records, active⟩ :=
    writeNamespaces_run deferring.wellFormed.toSound Namespace.all registry.store
  have persists : (persist Namespace.all).run registry = (.ok (), { registry with store }) := by
    rw [persist_run]
    simp only [deferring.persisting, runs]
    rfl
  have persistent : RecordStore.isPersistent registry.store = true := rfl
  refine ⟨store, ?_, fun address => ?_, ?_⟩
  · rw [sync, get_bind_run]
    simp only [persistent, if_true]
    rw [if_pos deferring.persisting, bind_run, persists]
    rfl
  · rw [records, if_pos (Namespace.mem_all address.space)]
  · rw [active, if_pos (Namespace.mem_all .playlists)]

theorem sync : ((sync : Call MemoryStore Unit).run registry).2.Deferring := by
  obtain ⟨store, runs, mirrors⟩ := deferring.sync_run
  rw [runs]
  exact ⟨deferring.wellFormed, deferring.persisting, deferring.deferred,
    fun space _ => mirrors_iff_each.1 mirrors space⟩

theorem hasChanges_sync :
    ((Registry.sync : Call MemoryStore Unit).run registry).2.hasChanges = false := by
  obtain ⟨store, runs, -⟩ := deferring.sync_run
  rw [runs]
  exact hasChanges_eq_false.2 fun _ => rfl

end Deferring

end Registry

namespace Session

variable {session after : Session} {event : Event} {events : List Event}

/-- No change is on the way to being lost: as long as there is one, a request is filed, or the worker
has taken one and is going to write. -/
structure Kept (session : Session) : Prop where
  deferring : session.registry.Deferring
  requested : session.registry.hasChanges = true →
    session.registry.isRequested = true ∨ session.worker = .writing

theorem kept_start (config : Config) (library : MediaLibrary)
    (deferred : config.persistence = .deferred) : (start config library).Kept where
  deferring := by
    refine ⟨State.WellFormed.empty, rfl, deferred, fun space _ => ?_⟩
    exact mirrors_iff_each.1 Registry.mirrors_empty space
  requested := nofun

/-- Nothing that happens loses a change: a change files a request, and the worker takes one only to
write. -/
theorem kept_step (kept : session.Kept) (steps : session.step event = some after) : after.Kept := by
  obtain ⟨deferring, requested⟩ := kept
  rcases step_cases steps with ⟨request, -, rfl⟩ | synced | ⟨asked, worker, -⟩ | ⟨taken, worker, -⟩ |
    ⟨same, worker, -⟩
  · refine ⟨deferring.serve request, ?_⟩
    rcases Registry.serve_deferred deferring.deferred request with ⟨nextIdentity, same⟩ |
      ⟨state, nextIdentity, -, same⟩
    · rw [same]
      exact requested
    · rw [same]
      exact fun _ => .inl rfl
  · refine ⟨synced ▸ deferring.sync, fun dirty => ?_⟩
    rw [synced, deferring.hasChanges_sync] at dirty
    cases dirty
  · refine ⟨asked ▸ ?_, fun _ => .inl (asked ▸ rfl)⟩
    exact ⟨deferring.wellFormed, deferring.persisting, deferring.deferred, deferring.mirrored⟩
  · refine ⟨taken ▸ ?_, fun _ => .inr worker⟩
    exact ⟨deferring.wellFormed, deferring.persisting, deferring.deferred, deferring.mirrored⟩
  · refine ⟨same ▸ deferring, fun dirty => ?_⟩
    rw [same] at dirty ⊢
    exact (requested dirty).imp_right worker

theorem kept_run (kept : session.Kept) (runs : session.run events = some after) : after.Kept := by
  induction events generalizing session with
  | nil => exact Option.some.inj runs ▸ kept
  | cons event rest ih =>
      obtain ⟨between, steps, runs⟩ := Option.bind_eq_some_iff.1 runs
      exact ih (kept_step kept steps) runs

/-- Whether nothing is left to a shutdown that has looked for changes: there are none, or it is going to
write them. -/
def Settles (session : Session) : Prop :=
  session.registry.hasChanges = false ∨ session.closing = .writing

theorem settles_check (steps : session.step .check = some after) : after.Settles := by
  obtain ⟨registry, worker, isStopped, closing⟩ := session
  cases closing <;> cases steps
  cases dirty : registry.hasChanges with
  | false => exact .inl dirty
  | true => exact .inr rfl

theorem settles_step (kept : session.Kept) (settles : session.Settles)
    (unchanged : ∀ request, event ≠ .serve request) (steps : session.step event = some after) :
    after.Settles := by
  rcases step_cases steps with ⟨request, served, -⟩ | synced | ⟨asked, -, closing⟩ |
    ⟨taken, -, closing⟩ | ⟨same, -, closing⟩
  · exact absurd served (unchanged request)
  · exact .inl (synced ▸ kept.deferring.hasChanges_sync)
  · exact settles.imp (fun clean => asked ▸ clean) closing.trans
  · exact settles.imp (fun clean => taken ▸ clean) closing.trans
  · exact settles.imp (fun clean => same ▸ clean) closing

theorem settles_run (kept : session.Kept) (settles : session.Settles)
    (unchanged : ∀ request, .serve request ∉ events) (runs : session.run events = some after) :
    after.Settles := by
  induction events generalizing session with
  | nil => exact Option.some.inj runs ▸ settles
  | cons event rest ih =>
      obtain ⟨between, steps, runs⟩ := Option.bind_eq_some_iff.1 runs
      have step := settles_step kept settles
        (fun request same => unchanged request (same ▸ .head _)) steps
      exact ih (kept_step kept steps) step (fun request member => unchanged request (.tail _ member))
        runs

/-- However clients, the worker and the shutdown take turns, the store mirrors the namespaces that do not
count as changed, and as long as one does, a request is filed or the worker has taken one and is going to
write.  When a shutdown has succeeded and nothing was changed since it looked for changes, nothing counts
as changed and everything is mirrored. -/
theorem mirrors_of_run (config : Config) (library : MediaLibrary)
    (deferred : config.persistence = .deferred) (events : List Event)
    (runs : (start config library).run events = some session) :
    (∀ space, session.registry.isDirty space = false →
      MirrorsIn session.registry.store session.registry.state space) ∧
    (session.registry.hasChanges = true →
      session.registry.isRequested = true ∨ session.worker = .writing) ∧
    (∀ before rest, events = before ++ .check :: rest → (∀ request, .serve request ∉ rest) →
      session.closing = .returned (.ok ()) →
      session.registry.hasChanges = false ∧ Mirrors session.registry.store session.registry.state) := by
  have started := kept_start config library deferred
  have kept := kept_run started runs
  refine ⟨kept.deferring.mirrored, kept.requested, ?_⟩
  intro before rest parts unchanged returned
  rw [parts, run_append] at runs
  obtain ⟨between, reaches, runs⟩ := Option.bind_eq_some_iff.1 runs
  obtain ⟨checked, checks, runs⟩ := Option.bind_eq_some_iff.1 runs
  have settled := settles_run (kept_step (kept_run started reaches) checks) (settles_check checks)
    unchanged runs
  have clean : session.registry.hasChanges = false := by
    refine settled.resolve_right fun writing => ?_
    rw [returned] at writing
    cases writing
  refine ⟨clean, mirrors_iff_each.2 fun space => ?_⟩
  exact kept.deferring.mirrored space (Registry.hasChanges_eq_false.1 clean space)

/-- A playlist is saved after the worker has taken the request for another one, and a third one after the
worker has ended. -/
theorem mirrors_of_run_playlists :
    let save (name : String) : Event :=
      .serve (.save ⟨.playlists, name⟩ (.leaf ⟨0, none⟩ { kind := .list .list, ids := [1] }))
    let before : List Event := [save "One", .take, save "Two", .write, .stop, .leave, save "Three", .join]
    ∃ session, (start { persistence := .deferred } .absent).run (before ++ [.check, .finish]) =
        some session ∧ session.closing = .returned (.ok ()) ∧
      session.registry.hasChanges = false ∧
      Mirrors session.registry.store session.registry.state := by
  intro save before
  have reaches : ((start { persistence := .deferred } .absent).run (before ++ [.check, .finish])).map
      Session.closing = some (.returned (.ok ())) := by
    decide +kernel
  obtain ⟨session, runs, returned⟩ := Option.map_eq_some_iff.1 reaches
  obtain ⟨-, -, closes⟩ := mirrors_of_run { persistence := .deferred } .absent rfl _ runs
  exact ⟨session, runs, returned, closes before [.finish] rfl (by simp) returned⟩

end Session

end Medley
