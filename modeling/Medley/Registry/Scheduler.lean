import Medley.Registry.Restore

/-!
# Deferred writes

When writes are deferred, changes request one.  A scheduler takes a request once it is due, which
clears it, and then writes everything.  It is stopped in the end, and what is still dirty then is
written by the call that stops it.
-/

namespace Medley.Registry

variable {σ : Type}

/-- Ask for a write. -/
def request (registry : Registry σ) : Registry σ := { registry with isRequested := true }

/-- Take a request, if there is one. -/
def takeRequest? (registry : Registry σ) : Option (Registry σ) :=
  if registry.isRequested then some { registry with isRequested := false } else none

variable [RecordStore σ]

/-- What a scheduler does when a request is due.  A failure to write leaves everything dirty. -/
def runDue (registry : Registry σ) : Registry σ :=
  match registry.takeRequest? with
  | some taken => (sync.run taken).2
  | none => registry

/-- Write what is still dirty after the scheduler has been stopped. -/
def shutdown : Call σ Unit := do
  if (← MonadState.get).hasChanges then sync

end Medley.Registry
