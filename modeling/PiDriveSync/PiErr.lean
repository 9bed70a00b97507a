import Mathlib.Init

/-!
# The errors of the syncer
-/

namespace PiDriveSync

/-- What a call of the syncer can fail with. -/
inductive SyncerErrors where
  | invalidPathError
  | syncerNoneError
  | noAppSecret
  | providerError
  deriving DecidableEq, Repr

/-- A path that does not have the expected prefix. -/
structure StripPrefixError where
  deriving DecidableEq, Repr

/-- A failed prefix is an invalid path. -/
def SyncerErrors.fromStripPrefixError (_ : StripPrefixError) : SyncerErrors :=
  .invalidPathError

end PiDriveSync
