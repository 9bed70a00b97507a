import PiDriveSync.Provider.Record

/-!
# The walk comes to the directory at the end

The walk over the directories above a file leads through other directories first, whose
unique ids differ from that of the last one.  So whatever can be told of one unique id
alone is settled at the last step of the walk: nothing that carries it comes in before,
nothing is asked for it, and the cache does not answer for it.

`walk_comes_to` splits a walk in this way, at the directory of the file.
-/

namespace PiDriveSync

open UnixPath Fallible

/-! ## What a step leaves alone -/

/-- The keys that the cache answered for. -/
def hits (calls : List Call) : List Str :=
  calls.filterMap fun c => match c with
    | .containsKey k true => some k
    | _ => none

@[simp] theorem hits_append (c c' : List Call) : hits (c ++ c') = hits c ++ hits c' :=
  List.filterMap_append ..

@[simp] theorem hits_queryCalls (m : Moment) (objs : List Obj) (k : Str) :
    hits (queryCalls m objs k) = [] := by
  unfold queryCalls
  split_ifs <;> rfl

/-- Nothing is requested for the key, and the cache does not answer for it. -/
def Aside (k : Str) (calls : List Call) : Prop :=
  k ∉ hits calls ∧ ∀ req ∈ requests calls, ¬ RequestFor k req

namespace Aside

variable {k : Str} {calls calls' : List Call}

theorem nil (k : Str) : Aside k [] :=
  ⟨List.not_mem_nil, by simp⟩

theorem append (h : Aside k calls) (h' : Aside k calls') : Aside k (calls ++ calls') := by
  refine ⟨?_, ?_⟩
  · rw [hits_append, List.mem_append]
    exact not_or.mpr ⟨h.1, h'.1⟩
  · rw [requests_append]
    exact List.forall_mem_append.mpr ⟨h.2, h'.2⟩

theorem queryCalls (m : Moment) (objs : List Obj) (k' : Str) :
    Aside k (queryCalls m objs k') := by
  refine ⟨?_, ?_⟩
  · rw [hits_queryCalls]
    exact List.not_mem_nil
  · simp

theorem containsKey {k' : Str} (hk : k' ≠ k) (hit : Bool) : Aside k [.containsKey k' hit] := by
  refine ⟨?_, by simp⟩
  cases hit with
  | false => exact List.not_mem_nil
  | true => exact fun hmem => hk (List.mem_singleton.mp hmem).symm

theorem tempfile (made : Bool) : Aside k [.tempfile made] :=
  ⟨List.not_mem_nil, by simp⟩

theorem create {req : File} (hreq : ¬ RequestFor k req) (reply : Except HubError File) :
    Aside k [.create req reply] :=
  ⟨List.not_mem_nil, by simpa using hreq⟩

end Aside

/-- On the way from `w` to `w'` nothing that carries the key came in, nothing was
requested for it, and the cache did not answer for it. -/
def Untouched (k : Str) (w w' : DriveWorld) : Prop :=
  carriers w'.objs k = carriers w.objs k ∧ ∃ calls, w'.trace = w.trace ++ calls ∧ Aside k calls

namespace Untouched

variable {k : Str} {w w₁ w' : DriveWorld}

theorem refl (w : DriveWorld) : Untouched k w w :=
  ⟨rfl, [], (List.append_nil _).symm, .nil k⟩

theorem trans (h : Untouched k w w₁) (h' : Untouched k w₁ w') : Untouched k w w' := by
  obtain ⟨hobjs, calls, htrace, hcalls⟩ := h
  obtain ⟨hobjs', calls', htrace', hcalls'⟩ := h'
  refine ⟨hobjs'.trans hobjs, calls ++ calls', ?_, hcalls.append hcalls'⟩
  rw [htrace', htrace, List.append_assoc]

/-- Other things are asked. -/
theorem asked {calls : List Call} (hcalls : Aside k calls) (h : Untouched k w w') :
    Untouched k w (w'.asked calls) :=
  h.trans ⟨rfl, calls, rfl, hcalls⟩

theorem sought (ω : Schedule) (k' : Str) (h : Untouched k w w') :
    Untouched k w (w'.sought ω k') :=
  h.asked (.queryCalls ..)

theorem looked (m : Moment) {k' : Str} (hk : k' ≠ k) (h : Untouched k w w') :
    Untouched k w (w'.looked m k') :=
  h.trans ⟨rfl, _, rfl, .containsKey hk _⟩

theorem remembered (k' v : Str) (h : Untouched k w w') : Untouched k w (w'.remembered k' v) := h

theorem added {o : Obj} (ho : o.syncId ≠ some k) (h : Untouched k w w') :
    Untouched k w (w'.added o) := by
  obtain ⟨hobjs, hcalls⟩ := h
  refine ⟨?_, hcalls⟩
  rw [World.added_objs, carriers_append, hobjs, List.append_right_eq_self]
  simp [carriers, ho]

end Untouched

variable {ω : Schedule} {w w' : DriveWorld}

theorem CreateEnds.untouched {path k k' : Str} (hk : k' ≠ k) {parentId : Option Str}
    {r : Outcome SyncerErrors (Option Str)} (h : CreateEnds ω path k' parentId w r w') :
    Untouched k w w' := by
  have htemp : ∀ made, Untouched k w (w.asked [.tempfile made]) :=
    fun made => (Untouched.refl w).asked (.tempfile made)
  have hreq : ¬ RequestFor k (folderRequest path parentId k') := by
    rwa [requestFor_folder]
  cases h with
  | noTempfile => exact htemp false
  | rejected => exact (htemp true).asked (.create hreq _)
  | made o _ _ ho =>
    refine (((htemp true).asked (.create hreq _)).added ?_).remembered ..
    rw [ho]
    simpa using hk
  | lost o _ _ ho =>
    refine ((htemp true).asked (.create hreq _)).added ?_
    rw [ho]
    simpa using hk

theorem EnsureEnds.untouched {path k k' pk : Str} (hk : k' ≠ k) {r : Outcome SyncerErrors Unit}
    (h : EnsureEnds ω path k' pk w r w') : Untouched k w w' := by
  have hlooked : Untouched k w (w.looked (ω w.tick) k') := (Untouched.refl w).looked _ hk
  cases h with
  | hit => exact hlooked
  | found => exact (hlooked.sought ω k').remembered ..
  | orphan => exact (hlooked.sought ω k').sought ω pk
  | create _ _ _ _ _ _ h => exact ((hlooked.sought ω k').sought ω pk).trans (h.untouched hk)

variable [Base64]

/-! ## The walk -/

/-- **The walk stays on its way**: a key of none of its directories is left alone. -/
theorem WalkEnds.untouched {done dirs : List Str} {k : Str}
    (hk : ∀ d ds, d :: ds <+: dirs → keyOf (done ++ d :: ds) ≠ k) {r : Outcome SyncerErrors Unit}
    (h : WalkEnds ω done dirs w r w') : Untouched k w w' := by
  induction h with
  | nil => exact .refl _
  | stop h => exact h.untouched (hk _ [] (by simp))
  | @cons done dirs d w w₁ w' r h _ ih =>
    refine (h.untouched (hk d [] (by simp))).trans (ih fun e es hpre => ?_)
    have hnext := hk d (e :: es) (List.cons_prefix_cons.mpr ⟨rfl, hpre⟩)
    rwa [List.append_assoc]

/-- A walk comes to its last directory at the end. -/
theorem walk_last {done ds : List Str} {d : Str}
    (h : WalkEnds ω done (ds ++ [d]) w (.ok ()) w') :
    ∃ w₁, WalkEnds ω done ds w (.ok ()) w₁ ∧
      EnsureEnds ω (below (done ++ ds ++ [d])) (keyOf (done ++ ds ++ [d])) (keyOf (done ++ ds)) w₁
        (.ok ()) w' := by
  induction ds generalizing done w with
  | nil =>
    rw [List.nil_append] at h
    cases h with
    | cons h rest =>
      cases rest
      rw [List.append_nil]
      exact ⟨w, .nil done w, h⟩
  | cons e ds ih =>
    rw [List.cons_append] at h
    cases h with
    | cons h rest =>
      obtain ⟨w₁, hwalk, hlast⟩ := ih rest
      refine ⟨w₁, .cons h hwalk, ?_⟩
      simpa only [List.append_assoc, List.singleton_append] using hlast

/-- **The walk to a directory**: the directories above it leave it alone, and then it is
its turn. -/
theorem walk_comes_to {ds : List Str} {d : Str} (hsolid : ∀ c ∈ ds ++ [d], Solid c)
    (h : WalkEnds ω [] (ds ++ [d]) w (.ok ()) w') :
    ∃ w₁, WalkEnds ω [] ds w (.ok ()) w₁ ∧ Untouched (keyOf (ds ++ [d])) w w₁ ∧
      EnsureEnds ω (below (ds ++ [d])) (keyOf (ds ++ [d])) (keyOf ds) w₁ (.ok ()) w' := by
  obtain ⟨w₁, hwalk, hlast⟩ := walk_last h
  refine ⟨w₁, hwalk, hwalk.untouched fun e es hpre heq => ?_, hlast⟩
  have hsub : ∀ c ∈ [] ++ e :: es, Solid c :=
    fun c hc => hsolid c (List.mem_append_left _ (hpre.subset hc))
  rw [keyOf_inj hsub hsolid, List.nil_append] at heq
  have hlen := hpre.length_le
  rw [heq, List.length_append, List.length_singleton] at hlen
  omega

end PiDriveSync
