/-!
# Warnings

What the library reports beside its answers: failures that no caller is told of, and handles that
were never released.
-/

namespace Collectors

/-- Something to report that is no answer to a call. -/
inductive Warning where
  /-- The instance of a collector that could not be entered failed to close. -/
  | closeOfUnregistered
  /-- A removed collector's backend failed to destroy it. -/
  | destroyFailed
  /-- The instance of a collector failed to close while its provider was shut down. -/
  | closeAtTeardown
  /-- A client was finalized while `count` handles were open. -/
  | finalizedWithOpenHandles (count : Nat)
  /-- The last reference to a client went while `count` handles were open. -/
  | droppedWithOpenHandles (count : Nat)
  deriving DecidableEq

/-- The wording of a warning. -/
def Warning.message : Warning → String
  | closeOfUnregistered => "Failed to close unregistered collector"
  | destroyFailed => "Could not destroy collector, backend state may be left invalid"
  | closeAtTeardown => "Failed to close collector during teardown"
  | finalizedWithOpenHandles _ => "Collector client finalized with handles still open"
  | droppedWithOpenHandles _ => "Collector client dropped with handles still open"

end Collectors
