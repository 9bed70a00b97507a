import Mathlib.Data.Finset.Basic
import PiDriveSync.DriveCli

/-!
# The daemon

`startup` looks the root folder up and creates it if the drive has none.  Then the
watcher delivers raw events, one at a time, and `handleRawEvent` passes the path of
a creation to `handleEvent`, which uploads it if its name passes the filters and it
is a regular file.
-/

namespace PiDriveSync

open Fallible

/-- What happened to a path, as the bits of `notify::Op`. -/
inductive OpBit where
  | chmod
  | create
  | remove
  | rename
  | write
  | closeWrite
  | rescan
  deriving DecidableEq, Repr

/-- A set of bits: one event may report several things at once. -/
abbrev Op := Finset OpBit

/-- A path of the file system, which need not be UTF-8. -/
inductive PathBuf where
  | utf8 (s : Str)
  | other (bytes : Bytes)
  deriving DecidableEq, Repr

def PathBuf.toStr : PathBuf → Option Str
  | .utf8 s => some s
  | .other _ => none

/-- `notify::RawEvent`.  The operation is missing when the watcher reports an
error instead. -/
structure RawEvent where
  path : Option PathBuf
  op : Option Op
  cookie : Option ℕ := none

/-- The filters, from the option `regexp_filter`. -/
def fileNameFilters (regexpFilter : Option Str) : List Str :=
  (regexpFilter.getD (str "")).splitOn ','

/-- The directory that is watched, and mirrored under the root folder. -/
def rootRemoteDir : Str :=
  localRootFolder ++ '/' :: driveRootFolder

variable {σ : Type} [Base64] (c : Drive3Client σ)

/-- What the program does before it watches anything.  Without a hub it stops. -/
def startup : Sync σ Unit := do
  let _ ← ofExcept c.getHub
  match ← (c.id rootRemoteDir).attempt with
  | .ok (some _) => pure ()
  | .ok none =>
    let _ ← (c.createDir rootRemoteDir none).attempt
    pure ()
  | .error _ => pure ()

variable [RegexCrate]

/-- Handle the creation of a path. -/
def handleEvent (p : PathBuf) : Sync σ Unit :=
  match p.toStr with
  | some path => do
    if ← c.passesFilter path then
      if ← isFile c.machine path then
        let _ ← (c.uploadFile path).attempt
        pure ()
  | none => pure ()

/-- Only an event that reports a creation and nothing else is handled. -/
def handleRawEvent (e : RawEvent) : Sync σ Unit :=
  match e.path, e.op with
  | some path, some op => if op = {.create} then handleEvent c path else pure ()
  | _, _ => pure ()

theorem handleRawEvent_creation {e : RawEvent} {path : Str} (hp : e.path = some (.utf8 path))
    (hop : e.op = some {.create}) :
    handleRawEvent c e = (do
      if ← c.passesFilter path then
        if ← isFile c.machine path then
          let _ ← (c.uploadFile path).attempt
          pure ()) := by
  rw [handleRawEvent, hp, hop]
  simp only [if_true]
  rfl

/-- The loop over what the watcher reports.  It goes on unless an event ends in a
panic. -/
def eventLoop : List RawEvent → Sync σ Unit
  | [] => pure ()
  | e :: es => do
    handleRawEvent c e
    eventLoop es

variable {e : RawEvent} {w w' : World σ}

theorem eventLoop_cons_of_ok (h : handleRawEvent c e w = (.ok (), w')) (es : List RawEvent) :
    eventLoop c (e :: es) w = eventLoop c es w' := by
  rw [eventLoop, bind_run_ok h]

theorem eventLoop_cons_of_panic (h : handleRawEvent c e w = (.panic, w')) (es : List RawEvent) :
    eventLoop c (e :: es) w = (.panic, w') := by
  rw [eventLoop, bind_run_panic h]

end PiDriveSync
