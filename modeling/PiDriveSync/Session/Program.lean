import PiDriveSync.Events.Attempts
import PiDriveSync.Session.Causes

/-!
# The program, from its options to its last event

`program` is `main`: it makes the client, stops when there is no hub, looks the root
folder up, stops when only the token was to be checked, and handles what the watcher
reports.  The hub, the machine and the events are arbitrary.

`program_causal` says of everything the program ever creates that there was a cause for
it: it is the root folder, or a file whose creation was reported and whose name passes the
filters, or a directory above such a file, and the drive had been searched as `Caused`
says.
-/

namespace PiDriveSync

open UnixPath Fallible

/-- What is asked for on the command line. -/
structure Options where
  checkAuth : Option Str
  regexpFilter : Option Str

variable {σ : Type}

/-- The client that the program makes. -/
def Options.client (opts : Options) (hub : Option (Hub σ)) (machine : Machine σ) :
    Drive3Client σ :=
  Drive3Client.new hub (fileNameFilters opts.regexpFilter) machine

variable [Base64] [RegexCrate]

/-- The program, until it has handled `events`.  It ends with an exit code, or waits for
more. -/
def program (opts : Options) (hub : Option (Hub σ)) (machine : Machine σ)
    (events : List RawEvent) : Sync σ (Option ℕ) :=
  let c := opts.client hub machine
  match c.getHub with
  | .error _ => pure (some 0x0100)
  | .ok _ => do
    startup c
    if opts.checkAuth = some (str "yes") then
      pure (some 0x0100)
    else
      eventLoop c events
      pure none

/-- The paths that the program is to upload: their creation was reported, and nothing else,
and their name passes the filters. -/
def Accepted (c : Drive3Client σ) (events : List RawEvent) (path : Str) : Prop :=
  ∃ e ∈ events, e.op = some {.create} ∧ e.path = some (.utf8 path) ∧
    ∃ name, (SyncableFile.mk path).getFilename = some name ∧ c.passes name = true

section Causes

variable (c : Drive3Client σ)

/-- **One event** has causes for what is created in it. -/
theorem handleRawEvent_causal (e : RawEvent) :
    LogsCausally World.trace (CausedCall (Accepted c [e])) (handleRawEvent c e) := by
  by_cases hcreation : e.op = some {.create} ∧ ∃ path, e.path = some (.utf8 path)
  · obtain ⟨hop, path, hpath⟩ := hcreation
    rw [handleRawEvent_creation c hpath hop]
    cases hname : (SyncableFile.mk path).getFilename with
    | none =>
      rw [Drive3Client.passesFilter, hname, unwrapOption_none, abort_bind_eq, abort_bind_eq]
      exact .abort
    | some name =>
      rw [Drive3Client.passesFilter_eq c hname, pure_bind_eq]
      cases hpass : c.passes name with
      | false => exact .pure _
      | true =>
        have hregular : LogsCausally World.trace (CausedCall (Accepted c [e]))
            (isFile c.machine path) :=
          fun w => ⟨[], (List.append_nil _).symm, fun before => .nil before⟩
        have hupload : LogsCausally World.trace (CausedCall (Accepted c [e]))
            (c.uploadFile path) :=
          (uploadFile_asks c path).mono fun _ _ h before =>
            h.causal ⟨e, List.mem_singleton.mpr rfl, hop, hpath, name, hname, hpass⟩ before
        rw [if_pos rfl]
        refine hregular.bind fun regular => ?_
        cases regular with
        | false => exact .pure _
        | true => exact hupload.attempt.bind fun _ => .pure _
  · have hidle : handleRawEvent c e = pure () := by
      rw [handleRawEvent_eq]
      exact handleRawEventBy_other fun path hop hpath => hcreation ⟨hop, path, hpath⟩
    rw [hidle]
    exact .pure _

/-- **The loop.** -/
theorem eventLoop_causal (events : List RawEvent) :
    LogsCausally World.trace (CausedCall (Accepted c events)) (eventLoop c events) := by
  have hsuffix : ∀ es, es ⊆ events →
      LogsCausally World.trace (CausedCall (Accepted c events)) (eventLoop c es) := by
    intro es
    induction es with
    | nil => exact fun _ => .pure _
    | cons e es ih =>
      intro hsub
      have hpaths : ∀ path, Accepted c [e] path → Accepted c events path := by
        rintro path ⟨e', he', hrest⟩
        rw [List.mem_singleton.mp he'] at hrest
        exact ⟨e, hsub (List.mem_cons_self ..), hrest⟩
      have hfirst : LogsCausally World.trace (CausedCall (Accepted c events))
          (handleRawEvent c e) :=
        (handleRawEvent_causal c e).mono fun _ _ h before => (h before).mono (.mono hpaths)
      exact hfirst.bind fun _ => ih (List.subset_of_cons_subset hsub)
  exact hsuffix events (List.Subset.refl _)

end Causes

/-- **Everything the program creates has a cause** in front of it, whatever the hub and the
machine answer and the watcher reports.  When only the token is checked, the root folder is
all that can be created. -/
theorem program_causal (opts : Options) (hub : Option (Hub σ)) (machine : Machine σ)
    (events : List RawEvent) (w : World σ) (before after : List Call) (req : File)
    (reply : Except HubError File) :
    callsSince w (program opts hub machine events w).2 = before ++ .create req reply :: after →
      Caused (fun path => opts.checkAuth ≠ some (str "yes") ∧
        Accepted (opts.client hub machine) events path) before req := by
  intro hsplit
  have hlogs : LogsCausally World.trace (CausedCall fun path =>
      opts.checkAuth ≠ some (str "yes") ∧ Accepted (opts.client hub machine) events path)
      (program opts hub machine events) := by
    rw [program]
    cases (opts.client hub machine).getHub with
    | error e => exact .pure _
    | ok h =>
      refine .bind ((startup_asks _).mono fun _ _ h before => h.causal before) fun _ => ?_
      by_cases hcheck : opts.checkAuth = some (str "yes")
      · rw [if_pos hcheck]
        exact .pure _
      · rw [if_neg hcheck]
        exact .bind ((eventLoop_causal _ events).mono fun _ _ h before =>
          (h before).mono (.mono fun path hpath => ⟨hcheck, hpath⟩)) fun _ => .pure _
  exact (logs_callsSince hlogs w []).of_split hsplit

deriving instance DecidableEq for Call

omit [Base64] [RegexCrate] in
/-- The creation of a file is reported, and its request is the last call. -/
theorem program_causal_file :
    let opts : Options := ⟨none, none⟩
    let hub := some (driveHub calm)
    let machine := driveMachine calm true
    let events := [creationOf [str "f"]]
    let w : DriveWorld := ⟨⟨[], everyFile, 0⟩, [], []⟩
    let calls := callsSince w
      (@program _ standardBase64 literalRegex opts hub machine events w).2
    @Caused standardBase64 (fun path => opts.checkAuth ≠ some (str "yes") ∧
        @Accepted _ literalRegex (opts.client hub machine) events path) calls.dropLast
      (fileRequest (str "f") (some (str "i")) (@keyOf standardBase64 [str "f"])) := by
  intro opts hub machine events w calls
  let req := fileRequest (str "f") (some (str "i")) (@keyOf standardBase64 [str "f"])
  exact @program_causal _ standardBase64 literalRegex opts hub machine events w calls.dropLast []
    req (.ok { req with id := some (str "ii") }) (by decide +kernel)

end PiDriveSync
