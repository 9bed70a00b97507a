import PiDriveSync.Asked
import PiDriveSync.Provider.Calm
import PiDriveSync.Provider.Commands

/-!
# Ids with more than one object

A lookup takes the last object out of the answer and warns if more than one is left.  So
it warns from three objects on: two objects with one unique id, which is what a repeated
upload or a folder that is created again leaves behind, go unnoticed.  With any other
number of objects a lookup is right in every respect (`noticesAmbiguity_iff`).
-/

namespace PiDriveSync

open UnixPath Fallible

variable [Base64] {ω : Schedule} {filters : List Str} {checks : Bool}

/-- A lookup of the path answers with an object that carries the unique id `k`, if there
is one, and warns just if there are several. -/
def NoticesAmbiguity (c : Drive3Client DriveState) (path k : Str) (w : DriveWorld) : Prop :=
  (∃ found, (c.id path w).1 = .ok found ∧ (found = none ↔ carriers w.objs k = []) ∧
      ∀ i, found = some i → ∃ o ∈ carriers w.objs k, o.id = i) ∧
    (.moreThanOne k ∈ callsSince w (c.id path w).2 ↔ 2 ≤ (carriers w.objs k).length)

omit [Base64] in
/-- The warning of a lookup whose query is answered. -/
theorem moreThanOne_mem_queryCalls {m : Moment} (hf : m.fault = .none) (objs : List Obj) (k : Str) :
    .moreThanOne k ∈ queryCalls m objs k ↔ 3 ≤ (carriers objs k).length := by
  rw [queryCalls]
  split_ifs with h
  · have hlen : 3 ≤ (carriers objs k).length := by omega
    simp [hlen]
  · have hlen : ¬ 3 ≤ (carriers objs k).length := fun hlen => h ⟨hf, by omega⟩
    simp [hlen]

/-- A lookup, whatever is on the drive. -/
theorem noticesAmbiguity_world_iff {path k : Str} {w : DriveWorld}
    (hk : (SyncableFile.mk path).getUniqueId = .ok k) (hf : (ω w.tick).fault = .none) :
    NoticesAmbiguity (driveClient ω filters checks) path k w ↔ (carriers w.objs k).length ≠ 2 := by
  have hrun := @id_run ω filters checks _ path k hk w
  rw [if_pos hf] at hrun
  have hanswer : ∃ found, ((driveClient ω filters checks).id path w).1 = .ok found ∧
      (found = none ↔ carriers w.objs k = []) ∧
      ∀ i, found = some i → ∃ o ∈ carriers w.objs k, o.id = i :=
    ⟨_, by rw [hrun], pick_eq_none, fun i hi => mem_of_pick hi⟩
  have hcalls : callsSince w ((driveClient ω filters checks).id path w).2 =
      queryCalls (ω w.tick) w.objs k := by
    rw [hrun]
    exact callsSince_of_trace rfl
  rw [NoticesAmbiguity, and_iff_right hanswer, hcalls, moreThanOne_mem_queryCalls hf]
  omega

/-- **When the warning is right.**  In every state that a run can reach, a lookup whose
query is answered does what it should, unless exactly two live objects carry the unique
id. -/
theorem noticesAmbiguity_iff (ω : Schedule) (filters : List Str) (checks : Bool)
    (objs : List Obj) (commands : List Command) (path k : Str)
    (hk : (SyncableFile.mk path).getUniqueId = .ok k)
    (hf : (ω (obeyed ω filters checks objs commands).world.tick).fault = .none) :
    NoticesAmbiguity (driveClient ω filters checks) path k
        (obeyed ω filters checks objs commands).world ↔
      (carriers (obeyed ω filters checks objs commands).world.objs k).length ≠ 2 :=
  noticesAmbiguity_world_iff hk hf

/-- A file is uploaded, and uploaded again. -/
abbrev uploadedTwice : List Command :=
  [.act (.upload everyFile (below [str "f"])), .act (.upload everyFile (below [str "f"]))]

omit [Base64] in
/-- The lookup of the watched directory behind these uploads. -/
theorem noticesAmbiguity_root :
    @NoticesAmbiguity standardBase64 (driveClient calm [] true) rootRemoteDir
        (@keyOf standardBase64 []) (@obeyed standardBase64 calm [] true [] uploadedTwice).world ↔
      (carriers (@obeyed standardBase64 calm [] true [] uploadedTwice).world.objs
        (@keyOf standardBase64 [])).length ≠ 2 :=
  @noticesAmbiguity_iff standardBase64 calm [] true [] uploadedTwice rootRemoteDir
    (@keyOf standardBase64 []) (by decide +kernel) rfl

omit [Base64] in
/-- The two files are there, and a lookup of the second takes no notice of the first. -/
theorem two_files_unnoticed :
    ¬ @NoticesAmbiguity standardBase64 (driveClient calm [] true) (below [str "f"])
      (@keyOf standardBase64 [str "f"])
      (@obeyed standardBase64 calm [] true [] uploadedTwice).world := by
  rw [@noticesAmbiguity_world_iff standardBase64 calm [] true _ _ _ (by decide +kernel) rfl]
  exact not_not.mpr (by decide +kernel)

end PiDriveSync
