import XlReg.Sanity.Plain

/-! Additions that fail. `AddMember` and `AddCluster` put the newcomer into the list and the
name map before its key is made and the HAMT takes it, and they undo nothing: an error of those
last steps leaves the newcomer listed and named. Every earlier error leaves all as it was. -/

namespace XlReg

/-- A call of `AddMember` that returns an error changes none of the three structures. -/
def AddMemberAtomic (D : Deps) (rc : RegCluster) (m : ClientInfo) : Prop :=
  (rc.addMember D m).2 ≠ none → (rc.addMember D m).1.members = rc.members ∧
    (rc.addMember D m).1.membersByName = rc.membersByName ∧
    (rc.addMember D m).1.membersByID = rc.membersByID

/-- A call of `AddCluster` that returns an error returns the index -1 and changes none of the
three structures. -/
def AddClusterAtomic (D : Deps) (w : World) (c : Option Ptr) : Prop :=
  ∀ w' i e, addCluster D w c = .ok (w', i, some e) → i = -1 ∧
    w'.reg.clusters = w.reg.clusters ∧ w'.reg.clustersByName = w.reg.clustersByName ∧
    w'.reg.clustersByID = w.reg.clustersByID

theorem append_err_none_iff (D : Deps) (rc : RegCluster) (m : ClientInfo) :
    (rc.append D m).2 = none ↔ D.newBytesKey (some m.nodeID.value) = none ∧
      D.insertErr rc.membersByID.map.keys m.nodeID.value = none := by
  unfold RegCluster.append newBytesKey Hamt.insert
  rcases hk : D.newBytesKey (some m.nodeID.value) with - | e
  · rcases hi : D.insertErr rc.membersByID.map.keys m.nodeID.value with - | e
    · simp [hi]
    · simp [hi]
  · simp

theorem addMemberAtomic_iff (D : Deps) (rc : RegCluster) (m : ClientInfo) :
    AddMemberAtomic D rc m ↔ (rc.Admits D m → D.newBytesKey (some m.nodeID.value) = none ∧
      D.insertErr rc.membersByID.map.keys m.nodeID.value = none) := by
  unfold AddMemberAtomic
  rcases rc.addMember_eq D m with ⟨ha, he⟩ | ⟨hna, e, he⟩
  · rw [he, ← append_err_none_iff, RegCluster.append_members]
    refine ⟨fun h _ => ?_, fun h hne => absurd (h ha) hne⟩
    by_contra hne
    obtain ⟨hmem, -, -⟩ := h hne
    simp at hmem
  · rw [he]
    exact iff_of_true (fun _ => ⟨rfl, rfl, rfl⟩) fun ha => absurd ha hna

theorem addClusterAtomic_iff (D : Deps) (w : World) (c : Option Ptr) :
    AddClusterAtomic D w c ↔ ∀ p rc, c = some p → w.heap[p]? = some rc → w.Admits D rc →
      D.insertErr w.reg.clustersByID.map.keys rc.id.value = none := by
  constructor
  · rintro h p rc rfl hp ha
    by_contra hne
    obtain ⟨e, he⟩ := Option.ne_none_iff_exists'.1 hne
    have hrun := addCluster_of_admits hp ha
    rw [he] at hrun
    obtain ⟨-, hlist, -, -⟩ := h _ _ _ hrun
    simp at hlist
  · intro h w' i e hrun
    rcases addCluster_cases hrun with ⟨rfl, rfl, -⟩ | ⟨p, rc, rfl, hp, -, -, -, ⟨-, -, he⟩ | -⟩
    · exact ⟨rfl, rfl, rfl, rfl⟩
    · cases he
    · by_cases ha : w.Admits D rc
      · rw [addCluster_of_admits hp ha, h p rc rfl hp ha] at hrun
        cases hrun
      · obtain ⟨e', he'⟩ := addCluster_of_not_admits hp ha
        rw [he'] at hrun
        cases hrun
        exact ⟨rfl, rfl, rfl, rfl⟩

/-- For every cluster and member, and for every registry and cluster pointer: the addition is
atomic if and only if what passes the checks also gets its key made and taken by the HAMT. -/
theorem additions_atomic_iff (D : Deps) :
    (∀ rc m, AddMemberAtomic D rc m ↔ (rc.Admits D m →
      D.newBytesKey (some m.nodeID.value) = none ∧
      D.insertErr rc.membersByID.map.keys m.nodeID.value = none)) ∧
    (∀ w c, AddClusterAtomic D w c ↔ ∀ p rc, c = some p → w.heap[p]? = some rc →
      w.Admits D rc → D.insertErr w.reg.clustersByID.map.keys rc.id.value = none) :=
  ⟨addMemberAtomic_iff D, addClusterAtomic_iff D⟩

/-- A HAMT that cannot hold two keys with the same first eight bytes, from which it takes its
hash: the second one exceeds the maximum depth. -/
def Deps.deep : Deps :=
  { Deps.plain with
    insertErr := fun keys k =>
      if keys.any fun k' => decide (k' ≠ k ∧ k'.take 8 = k.take 8) then
        some (.other "maximum table depth exceeded")
      else none }

/-- The node ID of 20 bytes `b`. -/
def NodeID.short (b : UInt8) : NodeID := ⟨List.replicate 20 b, by simp⟩

/-- Two clusters made but not registered yet, whose IDs have the same first eight bytes. -/
def Sample.colliding : World :=
  ⟨(World.init (.rep 9)).reg, [cluster, { cluster with name := "d", id := .short 0 }], 0⟩

/-- A member and a cluster whose IDs collide with those already there are refused with the
error of the HAMT, and are in the list and the name map all the same. -/
theorem additions_not_atomic :
    (let rc := (Sample.cluster.addMember .deep (Sample.client 0 "a" 1)).1
     let b : ClientInfo := { Sample.client 1 "b" 1 with nodeID := .short 1 }
     (rc.addMember .deep b).2 ≠ none ∧ b ∈ (rc.addMember .deep b).1.members ∧
       ¬ AddMemberAtomic .deep rc b) ∧
    (∃ w w' e, addCluster .deep Sample.colliding (some 0) = .ok (w, 0, none) ∧
      addCluster .deep w (some 1) = .ok (w', -1, some e) ∧ w'.reg.clusters = [0, 1] ∧
      w'.reg.clustersByName.lookup "d" = some 1 ∧ ¬ AddClusterAtomic .deep w (some 1)) := by
  refine ⟨⟨by decide, by decide, fun h => ?_⟩, _, _, _, rfl, rfl, rfl, rfl, fun h => ?_⟩
  · exact absurd (h (by decide)).1 (by decide)
  · have hlist := (h _ _ _ rfl).2.1
    cases hlist

end XlReg
