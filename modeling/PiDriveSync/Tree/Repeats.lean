import PiDriveSync.Provider.Calm
import PiDriveSync.Provider.Record

/-!
# One file for each upload

A folder is looked up before it is created; a file is not.  So the drive holds as many
plain objects under a unique id as there were uploads of that id with success
(`plainCarriers_run`), and the id stands for one file exactly when there was one such
upload.
-/

namespace PiDriveSync

open UnixPath Fallible

/-- The objects outside the trash that carry a unique id and are not folders. -/
def plainCarriers (objs : List Obj) (k : Str) : List Obj :=
  (carriers objs k).filter fun o => !o.isFolder

@[simp] theorem plainCarriers_append (objs objs' : List Obj) (k : Str) :
    plainCarriers (objs ++ objs') k = plainCarriers objs k ++ plainCarriers objs' k := by
  simp [plainCarriers]

theorem length_plainCarriers_file {m : Moment} {objs : List Obj} {name k k' : Str}
    {p : Option Str} {content : Bytes} :
    (plainCarriers [newObj m objs (fileRequest name p k) content] k').length =
      if k = k' then 1 else 0 := by
  by_cases hk : k = k' <;> simp [plainCarriers, carriers, hk]

/-- `Ok(Some(id))`. -/
def succeeded : Outcome SyncerErrors (Option Str) → Bool
  | .ok (some _) => true
  | _ => false

/-- An upload that ended with success, of a path with the unique id `k`. -/
def uploadedAs [Base64] (k : Except SyncerErrors Str)
    (e : Str × Outcome SyncerErrors (Option Str)) : Bool :=
  succeeded e.2 && (SyncableFile.mk e.1).getUniqueId == k

/-- Folders do not count. -/
theorem plainCarriers_eq_of_folders {objs objs' : List Obj} (h : GrowsByFolders objs objs')
    (k : Str) : plainCarriers objs' k = plainCarriers objs k := by
  refine h.inv (P := fun l => plainCarriers l k = plainCarriers objs k) rfl fun l o hl ho => ?_
  have hnone : plainCarriers [o] k = [] := by simp [plainCarriers, carriers, ho]
  rw [plainCarriers_append, hl, hnone, List.append_nil]

section Files

variable [Base64] {ω : Schedule} {w w' : DriveWorld} {k : Str}

/-- Placing a file adds one object under its id if it ends with success, and nothing
otherwise. -/
theorem PlaceEnds.length_plainCarriers (hω : NoneLost ω) {path : Str}
    {r : Outcome SyncerErrors (Option Str)} (h : PlaceEnds ω path w r w') :
    (plainCarriers w'.objs k).length =
      (plainCarriers w.objs k).length + if uploadedAs (.ok k) (path, r) then 1 else 0 := by
  cases h with
  | unnamed | unanswered | noUid | unreadable | vanished | rejected => rfl
  | lost _ _ _ _ _ _ _ _ _ _ hc => exact absurd hc (hω _)
  | made name pk k' content o _ _ hk _ _ _ ho =>
    show (plainCarriers (w.objs ++ [o]) k).length = _
    rw [plainCarriers_append, List.length_append, ho, length_plainCarriers_file]
    simp [uploadedAs, succeeded, hk]

theorem UploadEnds.length_plainCarriers (hω : NoneLost ω) {checks : Bool} {path : Str}
    {r : Outcome SyncerErrors (Option Str)} (h : UploadEnds ω checks path w r w') :
    (plainCarriers w'.objs k).length =
      (plainCarriers w.objs k).length + if uploadedAs (.ok k) (path, r) then 1 else 0 := by
  cases h with
  | outside | rootChecked => rfl
  | root _ _ hp => exact hp.length_plainCarriers hω
  | crashed _ h =>
    rw [plainCarriers_eq_of_folders h.growsByFolders]
    rfl
  | placed _ h hp =>
    rw [hp.length_plainCarriers hω, plainCarriers_eq_of_folders h.growsByFolders]

end Files

/-! ## Runs -/

variable [Base64]

/-- **The drive counts the uploads**: in a run in which no answer is lost, there are as
many new plain objects under an id as uploads of it with success. -/
theorem plainCarriers_run (ω : Schedule) (hω : NoneLost ω) (filters : List Str) (checks : Bool)
    (objs : List Obj) (actions : List Action) (k : Str) :
    (plainCarriers (run ω filters checks objs actions).world.objs k).length =
      (plainCarriers objs k).length +
        (run ω filters checks objs actions).log.countP (uploadedAs (.ok k)) := by
  refine run_inv ω filters checks (fun s => (plainCarriers s.world.objs k).length =
    (plainCarriers objs k).length + s.log.countP (uploadedAs (.ok k))) ?_ ?_ ?_ ?_
  · intro r w' h
    show (plainCarriers w'.objs k).length = _
    rw [plainCarriers_eq_of_folders h.growsByFolders]
    rfl
  · intro s r w' hs h
    show (plainCarriers w'.objs k).length = _
    rw [plainCarriers_eq_of_folders h.growsByFolders]
    exact hs
  · exact fun _ _ _ hs => hs
  · intro disk path _ s r w' hs _ h
    have hstep : (plainCarriers w'.objs k).length =
        (plainCarriers s.world.objs k).length + if uploadedAs (.ok k) (path, r) then 1 else 0 :=
      h.length_plainCarriers hω
    show (plainCarriers w'.objs k).length = _ + (s.log ++ [(path, r)]).countP (uploadedAs (.ok k))
    rw [hstep, hs, List.countP_append, List.countP_singleton, Nat.add_assoc]

/-- **When a unique id stands for one file**: exactly when one upload of it ended with
success. -/
theorem one_file_iff (ω : Schedule) (hω : NoneLost ω) (filters : List Str) (checks : Bool)
    (objs : List Obj) (hobjs : Unsynced objs) (actions : List Action) (path : Str)
    (dirs : List Str) (f : Str) (hpath : IsFilePath path dirs f) :
    (∃ o, plainCarriers (run ω filters checks objs actions).world.objs (keyOf (dirs ++ [f])) =
      [o]) ↔
      (run ω filters checks objs actions).log.countP
        (uploadedAs (SyncableFile.mk path).getUniqueId) = 1 := by
  have hbefore : plainCarriers objs (keyOf (dirs ++ [f])) = [] := by
    rw [plainCarriers, carriers_of_unsynced hobjs, List.filter_nil]
  have hcount := plainCarriers_run ω hω filters checks objs actions (keyOf (dirs ++ [f]))
  rw [hbefore, List.length_nil, Nat.zero_add] at hcount
  rw [hpath.getUniqueId, ← hcount, List.length_eq_one_iff]

omit [Base64] in
/-- A file that is uploaded once, and another. -/
theorem one_file_calm :
    ∃ o, plainCarriers (@run standardBase64 calm [] true []
      (uploadsOf [[str "a"], [str "b"]])).world.objs (@keyOf standardBase64 ([] ++ [str "a"])) =
        [o] :=
  (@one_file_iff standardBase64 calm (by simp [NoneLost, calm]) [] true [] (by simp [Unsynced])
    _ (below [str "a"]) [] (str "a") ⟨rfl, by simp, by decide +kernel⟩).mpr (by decide +kernel)

omit [Base64] in
/-- A file that is deleted, written again and uploaded again has two objects. -/
theorem uploaded_twice_two_files :
    let s := @run standardBase64 calm [] true [] (uploadsOf [[str "a"], [str "a"]])
    s.log.map (fun e => succeeded e.2) = [true, true] ∧
      (plainCarriers s.world.objs (@keyOf standardBase64 [str "a"])).length = 2 := by
  decide +kernel

end PiDriveSync
