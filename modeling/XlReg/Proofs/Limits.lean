import XlReg.Sanity.Plain
import XlReg.Sanity.Registered

/-! The parameters of clusters. The size asked for is brought into its range before a cluster is
made. The number of end points is checked by `NewRegCluster` only, whose error is overwritten by
the result of the next step, so that a Create which asks for none makes a cluster all the same. -/

namespace XlReg

/-- The message is a Create for a name that is not in use, with the ID `n` drawn for it and with
nothing in the way of a new cluster but its end point count: the table for its members can be made, and
its name, which may be the default one, and its ID pass the checks of `AddCluster`. -/
structure Creating (D : Deps) (s : Service) (c : Session) (x : Input) (n : NodeID) : Prop where
  handler : dispatch c.h.entryState (op2tag x.msg.getOp) = some .doCreateMsg
  unused : s.world.reg.clustersByName.lookup x.msg.getClusterName = none
  drawn : Draws D s.world.reg.idFilter x.draws n
  table : D.newHAMT D.maxW (D.nextExp2_32 (clampSize x.msg.getClusterMaxSize)) = none
  key : D.newBytesKey (some n.value) = none
  name : s.world.reg.clustersByName.lookup
    (if x.msg.getClusterName = "" then "xlCluster" else x.msg.getClusterName) = none
  id : s.world.reg.clustersByID.find D n.value = .ok none

def SizeInRange (maxSize : UInt32) : Prop := MIN_CLUSTER_SIZE ≤ maxSize ∧ maxSize ≤ MAX_CLUSTER_SIZE

theorem clampSize_inRange (n : UInt32) : SizeInRange (clampSize n) := by
  unfold clampSize SizeInRange
  split_ifs with hlow hhigh
  · decide
  · decide
  · exact ⟨UInt32.not_lt.1 hlow, UInt32.not_lt.1 hhigh⟩

variable {D : Deps}

theorem Creating.makes {s : Service} {c : Session} {x : Input} {n : NodeID} (hc : Creating D s c x n) :
    ∃ rc, newRegCluster D x.msg.getClusterName n 0 (clampSize x.msg.getClusterMaxSize)
      x.msg.getEndPointCount = .ok rc ∧ s.world.Admits D rc :=
  ⟨_, newRegCluster_clamped hc.table, hc.key, hc.name, hc.id⟩

theorem Creating.step {s : Service} {c : Session} {x : Input} {n : NodeID} (hc : Creating D s c x n) :
    ∃ s' c' rc, sessionStep D s c x = .ok (s', c') ∧
      s.world.heap.length ∈ s'.world.reg.clusters ∧ s'.world.heap[s.world.heap.length]? = some rc ∧
      rc.maxSize = clampSize x.msg.getClusterMaxSize ∧ rc.epCount = x.msg.getEndPointCount := by
  obtain ⟨rc, hmade, hadmits⟩ := hc.makes
  obtain ⟨-, -, -, -, hmax, hep⟩ := newRegCluster_ok hmade
  let w := (s.world.setFilter ⟨s.world.reg.idFilter.ids ++ [n.value]⟩).alloc rc
  have hlast : w.heap[s.world.heap.length]? = some rc := s.world.make_last _ rc
  have hadm : w.Admits D rc := ⟨hadmits.key, hadmits.name, hadmits.id⟩
  have hrun : doCreateMsg D s.world { c.h with msgIn := x.msg } x.draws =
      createNew D s.world { c.h with msgIn := x.msg } x.draws := by
    simp only [doCreateMsg, hc.unused]
  rw [createNew_drawn (h := { c.h with msgIn := x.msg }) hc.drawn hmade,
    addCluster_of_admits hlast hadm] at hrun
  unfold sessionStep
  rw [if_neg (open_of_dispatch hc.handler), startIter_inside hc.handler]
  simp only [HandlerName.handler, hrun]
  -- an error of the HAMT comes after the cluster is on the list
  rcases D.insertErr w.reg.clustersByID.map.keys rc.id.value with - | e
  · exact ⟨_, _, rc, rfl, List.mem_append_right _ (List.mem_singleton_self _), hlast, hmax, hep⟩
  · exact ⟨_, _, rc, rfl, List.mem_append_right _ (List.mem_singleton_self _), hlast, hmax, hep⟩

/-- Every cluster on the list has parameters that are in `P`. -/
def World.ListedIn (P : UInt32 → UInt32 → Prop) (w : World) : Prop :=
  ∀ p ∈ w.reg.clusters, ∀ rc, w.heap[p]? = some rc → P rc.maxSize rc.epCount

def CreatesIn (P : UInt32 → UInt32 → Prop) (D : Deps) (s : Service) (c : Session) (x : Input) : Prop :=
  ∀ n, Creating D s c x n → P (clampSize x.msg.getClusterMaxSize) x.msg.getEndPointCount

variable {P : UInt32 → UInt32 → Prop}

/-- Only a Create puts a cluster on the list. -/
theorem World.ListedIn.handler {f : HandlerName} {w w' : World} {h h' : InHandler}
    {draws : List NodeID} (hw : w.Registered) (hP : w.ListedIn P)
    (hcreate : f = .doCreateMsg → w.reg.clustersByName.lookup h.msgIn.getClusterName = none →
      ∀ n rc, Draws D w.reg.idFilter draws n →
      newRegCluster D h.msgIn.getClusterName n 0 (clampSize h.msgIn.getClusterMaxSize)
        h.msgIn.getEndPointCount = .ok rc → w.Admits D rc →
      P (clampSize h.msgIn.getClusterMaxSize) h.msgIn.getEndPointCount)
    (hr : f.handler D w h draws = .ok (w', h')) : w'.ListedIn P := by
  have hg := handler_grows hr
  have hold : ∀ p ∈ w.reg.clusters, ∀ rc', w'.heap[p]? = some rc' → P rc'.maxSize rc'.epCount := by
    intro p hp rc' hrc'
    obtain ⟨rc, rc1, hrc, hrc1, hgr⟩ := hg.at (hw.valid p hp)
    rw [hrc'] at hrc1
    cases hrc1
    rw [hgr.maxSize, hgr.epCount]
    exact hP p hp rc hrc
  rcases handler_world hr with ⟨fl, n, -, rfl⟩ | ⟨n, rc, i, err, hf, hm, ha⟩ |
    ⟨client, p, rc, -, -, rfl⟩
  · exact hold
  · have hlast := w.make_last ⟨w.reg.idFilter.ids ++ [n.value]⟩ rc
    by_cases hadm : w.Admits D rc
    · have hclusters : w'.reg.clusters = w.reg.clusters ++ [w.heap.length] := by
        rw [addCluster_of_admits hlast ⟨hadm.key, hadm.name, hadm.id⟩] at ha
        split at ha <;> cases ha <;> rfl
      intro p hp rc' hrc'
      rw [hclusters] at hp
      rcases List.mem_append.1 hp with hp | hp
      · exact hold p hp rc' hrc'
      · rw [List.mem_singleton.1 hp, addCluster_heap ha, hlast] at hrc'
        cases hrc'
        obtain ⟨-, -, -, -, hmax, hep⟩ := newRegCluster_ok hm.made
        rw [hmax, hep]
        exact hcreate hf hm.unused n rc hm.drawn hm.made hadm
    · obtain ⟨e, he⟩ := addCluster_of_not_admits hlast
        fun hadm' => hadm ⟨hadm'.key, hadm'.name, hadm'.id⟩
      rw [he] at ha
      cases ha
      exact hold
  · exact hold

theorem listed_contract (P : UInt32 → UInt32 → Prop) (D : Deps) :
    Parties.Contract (server D) (CreatesIn P D) (fun s => s.world.Registered ∧ s.world.ListedIn P)
      (fun _ _ => True) (fun _ _ => True) := by
  apply shared_contract
  intro s c x w g ex hI hC hi
  obtain ⟨f, h1, hd, hh, -, -⟩ := startIter_ok hi
  refine ⟨handler_registered hI.1 hh, World.ListedIn.handler hI.1 hI.2 ?_ hh⟩
  rintro rfl hl n rc hn hnew hadm
  obtain ⟨-, hname, hid, -⟩ := newRegCluster_ok hnew
  exact hC n ⟨hd, hl, hn, newRegCluster_table hnew, hid ▸ hadm.key, hname ▸ hadm.name,
    hid ▸ hadm.id⟩

/-- All clusters ever listed have their parameters in `P` if and only if the Creates that made
them asked for such. -/
theorem listed_always_iff (P : UInt32 → UInt32 → Prop) (D : Deps) (regID : NodeID)
    (evs : List ServerEvent) :
    Run.Always (server D).next (fun s => s.shared.world.ListedIn P) (ServerState.init regID) evs ↔
      Run.Along (server D).next (Parties.On (CreatesIn P D)) (ServerState.init regID) evs := by
  apply (listed_contract P D).always_iff_along (Q := fun s => s.world.ListedIn P)
  · exact fun _ hs => hs.2
  · intro s c x _ _ hno
    obtain ⟨n, hc, hout⟩ : ∃ n, Creating D s c x n ∧
        ¬ P (clampSize x.msg.getClusterMaxSize) x.msg.getEndPointCount := by
      simpa [CreatesIn] using hno
    obtain ⟨s', c', rc, hs, hmem, hrc, hmax, hep⟩ := hc.step
    refine ⟨s', c', hs, fun hin => hout ?_⟩
    rw [← hmax, ← hep]
    exact hin _ hmem rc hrc
  · exact ⟨⟨World.init_registered regID, fun p hp => by cases hp⟩, fun _ _ => trivial⟩

/-- What `NewRegCluster` should do: refuse a cluster without members or end points, and otherwise
make the one described, the empty name standing for the default. -/
def NewRegClusterRight (D : Deps) (name : String) (id : NodeID) (attrs : UInt64)
    (maxSize epCount : UInt32) : Prop :=
  if epCount < 1 ∨ maxSize < 1 then ∃ e, newRegCluster D name id attrs maxSize epCount = .error e
  else ∃ rc, newRegCluster D name id attrs maxSize epCount = .ok rc ∧ rc.Fresh ∧
    rc.name = (if name = "" then "xlCluster" else name) ∧ rc.id = id ∧ rc.attrs = attrs ∧
    rc.maxSize = maxSize ∧ rc.epCount = epCount

theorem newRegClusterRight_iff (D : Deps) (name : String) (id : NodeID) (attrs : UInt64)
    (maxSize epCount : UInt32) :
    NewRegClusterRight D name id attrs maxSize epCount ↔
      if epCount < 1 then D.newHAMT D.maxW (D.nextExp2_32 maxSize) ≠ none
      else maxSize < 1 ∨ D.newHAMT D.maxW (D.nextExp2_32 maxSize) = none := by
  unfold NewRegClusterRight newRegCluster
  by_cases hep : epCount < 1
  · rcases D.newHAMT D.maxW (D.nextExp2_32 maxSize) with - | e <;> simp [hep]
  · by_cases hmax : maxSize < 1
    · simp [hep, hmax]
    · rcases D.newHAMT D.maxW (D.nextExp2_32 maxSize) with - | e
      · simp only [hep, hmax, or_self, if_false, and_false, or_true, iff_true]
        exact ⟨_, rfl, ⟨rfl, rfl, rfl⟩, rfl, rfl, rfl, rfl, rfl⟩
      · simp [hep, hmax]

/-- In every run the listed clusters have a size in range. They have an end point count of at
least 1 as well, in all the states reached, if and only if every Create that nothing else stands in the
way of asks for one. And `NewRegCluster` does what it should if and only if, for an end point count of 0,
`NewHAMT` happens to fail, and otherwise only sizes of 0 make it fail. -/
theorem serve_limits_iff (D : Deps) :
    (∀ regID evs, Run.Always (server D).next
      (fun s => s.shared.world.ListedIn fun maxSize _ => SizeInRange maxSize)
      (ServerState.init regID) evs) ∧
    (∀ regID evs, Run.Always (server D).next
        (fun s => s.shared.world.ListedIn fun maxSize epCount => SizeInRange maxSize ∧ 1 ≤ epCount)
        (ServerState.init regID) evs ↔
      Run.Along (server D).next
        (Parties.On fun s c x => ∀ n, Creating D s c x n → 1 ≤ x.msg.getEndPointCount)
        (ServerState.init regID) evs) ∧
    (∀ name id attrs maxSize epCount, NewRegClusterRight D name id attrs maxSize epCount ↔
      if epCount < 1 then D.newHAMT D.maxW (D.nextExp2_32 maxSize) ≠ none
      else maxSize < 1 ∨ D.newHAMT D.maxW (D.nextExp2_32 maxSize) = none) := by
  refine ⟨fun regID evs => ?_, fun regID evs => ?_, newRegClusterRight_iff D⟩
  · rw [listed_always_iff]
    refine (Parties.along_on_congr fun s c x => ?_).1 (Run.along_of Parties.on_true _ _)
    exact ⟨fun _ n _ => clampSize_inRange _, fun _ => trivial⟩
  · rw [listed_always_iff]
    apply Parties.along_on_congr
    intro s c x
    exact ⟨fun h n hc => (h n hc).2, fun h n hc => ⟨clampSize_inRange _, h n hc⟩⟩

def Sample.noEndPoints : List ServerEvent :=
  [.enter (), .act 0 ⟨member "a" none 2, [.rep 1]⟩,
   .act 0 ⟨{ create "xy" 2 with endPointCount := none }, [.rep 5]⟩]

/-- The server makes the cluster and lists it; the constructor takes an end point count of 0,
and with it even a size of 0. -/
theorem serve_limits_exceeded :
    (∃ (s : ServerState) (rc : RegCluster), serve .plain (.rep 9) Sample.noEndPoints = .ok s ∧
      s.shared.world.reg.clusters = [0] ∧ s.shared.world.heap[0]? = some rc ∧ rc.epCount = 0) ∧
    (∃ rc, newRegCluster .plain "xy" (.rep 5) 0 2 0 = .ok rc) ∧
    (∃ rc, newRegCluster .plain "xy" (.rep 5) 0 0 0 = .ok rc) := by
  refine ⟨?_, ⟨_, rfl⟩, ⟨_, rfl⟩⟩
  obtain ⟨s, hr, hp⟩ := Run.exists_of_ends (server .plain).next (ServerState.init (.rep 9))
    Sample.noEndPoints (fun s => s.shared.world.heap[0]?.any fun (rc : RegCluster) =>
      decide (s.shared.world.reg.clusters = [0] ∧ rc.epCount = 0)) (by decide)
  obtain ⟨rc, hrc, hp⟩ := (Option.any_eq_true _ _).1 hp
  obtain ⟨hlist, hep⟩ := of_decide_eq_true hp
  exact ⟨s, rc, hr, hlist, hrc, hep⟩

end XlReg
