import XlReg.Lib.Run
import XlReg.Lib.Index
import XlReg.Spec.Cluster
import XlReg.Sanity.Plain

/-! Clusters under calls of `AddMember` made one at a time. The list of members, the map by
name and the HAMT by ID are kept in step by every mixture of accepted and refused calls.
The ID check looks the cluster's own ID up in the HAMT, not the new member's: it answers
rightly exactly when both IDs, or neither, are held by a member. -/

namespace XlReg

open Index

def addCall (D : Deps) (rc : RegCluster) (member : ClientInfo) : Except Abort RegCluster :=
  .ok (rc.addMember D member).1

def addAll (D : Deps) (rc : RegCluster) (ms : List ClientInfo) : RegCluster :=
  ms.foldl (fun rc m => (rc.addMember D m).1) rc

def accepted (D : Deps) : RegCluster → List ClientInfo → List ClientInfo
  | _, [] => []
  | rc, m :: ms =>
    (if (rc.addMember D m).2 = none then [m] else []) ++ accepted D (rc.addMember D m).1 ms

theorem run_addCall (D : Deps) (rc : RegCluster) (ms : List ClientInfo) :
    Run.run (addCall D) rc ms = .ok (addAll D rc ms) := by
  induction ms generalizing rc with
  | nil => rfl
  | cons m ms ih => rw [Run.run_cons]; exact ih _

structure RegCluster.Indexed (rc : RegCluster) : Prop where
  byName : Indexes (·.name) rc.members rc.membersByName
  byID : Covers (·.nodeID.value) rc.members rc.membersByID.map

theorem RegCluster.Fresh.indexed {rc : RegCluster} (h : rc.Fresh) : rc.Indexed := by
  refine ⟨?_, ?_⟩
  · rw [h.members, h.membersByName]; exact Indexes.empty _
  · rw [h.members, h.membersByID]; exact Covers.empty _

section Calls

variable {D : Deps} (hins : ∀ keys k, D.insertErr keys k = none) (hkey : D.KeysNodeIDs)
include hins hkey

theorem addMember_spec (rc : RegCluster) (m : ClientInfo) :
    (rc.Admits D m ∧ rc.addMember D m =
      ({ rc with members := rc.members ++ [m],
                 membersByName := rc.membersByName.insert m.name m,
                 membersByID := ⟨rc.membersByID.map.insert m.nodeID.value m⟩ }, none)) ∨
    (¬ rc.Admits D m ∧ ∃ e, rc.addMember D m = (rc, some e)) := by
  rcases rc.addMember_eq D m with ⟨ha, he⟩ | h
  · exact .inl ⟨ha, by rw [he, rc.append_ok m (hkey m.nodeID) hins]⟩
  · exact .inr h

theorem addMember_indexed {rc : RegCluster} (h : rc.Indexed) (m : ClientInfo) :
    (rc.addMember D m).1.Indexed := by
  rcases addMember_spec hins hkey rc m with ⟨ha, he⟩ | ⟨-, e, he⟩
  · rw [he]
    exact ⟨h.byName.append ha.1, h.byID.append m⟩
  · rw [he]
    exact h

theorem addAll_indexed {rc : RegCluster} (h : rc.Indexed) (ms : List ClientInfo) :
    (addAll D rc ms).Indexed :=
  Run.run_inv (fun _ m _ hi hs => by cases hs; exact addMember_indexed hins hkey hi m)
    h (run_addCall D rc ms)

/-- The members are those whose calls had no error, in the order of the calls. -/
theorem addAll_members (rc : RegCluster) (ms : List ClientInfo) :
    (addAll D rc ms).members = rc.members ++ accepted D rc ms := by
  induction ms generalizing rc with
  | nil => simp [addAll, accepted]
  | cons m ms ih =>
    have hcons : addAll D rc (m :: ms) = addAll D (rc.addMember D m).1 ms := rfl
    rw [hcons, ih, accepted]
    rcases addMember_spec hins hkey rc m with ⟨-, he⟩ | ⟨-, e, he⟩
    · simp [he]
    · simp [he]

/-- However a cluster was reached, its list, name map and HAMT agree, a further call only
appends, and a refused one changes nothing. -/
theorem addMember_calls_agree {name : String} {id : NodeID} {attrs : UInt64}
    {maxSize epCount : UInt32} {rc₀ : RegCluster}
    (hnew : newRegCluster D name id attrs maxSize epCount = .ok rc₀) (ms : List ClientInfo) :
    (∀ m, (addAll D rc₀ ms).members <+: ((addAll D rc₀ ms).addMember D m).1.members) ∧
    ((addAll D rc₀ ms).members.map (·.name)).Nodup ∧
    (∀ k x, (addAll D rc₀ ms).membersByName.lookup k = some x ↔
      x ∈ (addAll D rc₀ ms).members ∧ x.name = k) ∧
    (∀ k, k ∈ (addAll D rc₀ ms).membersByID.map ↔
      ∃ x ∈ (addAll D rc₀ ms).members, x.nodeID.value = k) ∧
    ((accepted D rc₀ ms).length < 2 ^ 32 →
      (addAll D rc₀ ms).size.toNat = (accepted D rc₀ ms).length) ∧
    (∀ m e, ((addAll D rc₀ ms).addMember D m).2 = some e →
      ((addAll D rc₀ ms).addMember D m).1 = addAll D rc₀ ms) := by
  have hfresh := (newRegCluster_ok hnew).1
  have hi := addAll_indexed hins hkey hfresh.indexed ms
  have hmem := addAll_members hins hkey rc₀ ms
  rw [hfresh.members, List.nil_append] at hmem
  refine ⟨?_, hi.byName.nodup, hi.byName.lookup, hi.byID, ?_, ?_⟩
  · intro m
    rcases addMember_spec hins hkey (addAll D rc₀ ms) m with ⟨-, h⟩ | ⟨-, e, h⟩
    · rw [h]; exact List.prefix_append _ _
    · rw [h]
  · intro hlt
    rw [RegCluster.size, hmem, UInt32.toNat_ofNat_of_lt' hlt]
  · intro m e he
    rcases addMember_spec hins hkey (addAll D rc₀ ms) m with ⟨-, h⟩ | ⟨-, e', h⟩
    · rw [h] at he; cases he
    · rw [h]

end Calls

/-- A name used twice: one call of three is refused. -/
theorem addMember_calls_agree_sample :
    (addAll .plain Sample.cluster [Sample.client 0 "a" 1, Sample.client 0 "a" 2, Sample.client 0 "b" 3]).size.toNat = 2 :=
  (addMember_calls_agree (fun _ _ => rfl) plain_keysNodeIDs
    (show newRegCluster .plain "c" (.rep 0) 0 2 1 = .ok Sample.cluster from rfl)
    [Sample.client 0 "a" 1, Sample.client 0 "a" 2, Sample.client 0 "b" 3]).2.2.2.2.1 (by decide)

/-! The ID check. -/

/-- What the check is for: a call with a name not in use reports the ID in use exactly when
a member has that ID, and otherwise the member is admitted. -/
def IDCheckRight (D : Deps) (rc : RegCluster) (m : ClientInfo) : Prop :=
  ((rc.addMember D m).2 = some .clusterMemberIDInUse ↔ ∃ x ∈ rc.members, x.nodeID = m.nodeID) ∧
  ((∀ x ∈ rc.members, x.nodeID ≠ m.nodeID) →
    (rc.addMember D m).2 = none ∧ (rc.addMember D m).1.members = rc.members ++ [m])

/-- A member holds the cluster's own ID exactly when one holds the new member's ID. -/
def OwnIDAgrees (rc : RegCluster) (m : ClientInfo) : Prop :=
  (∃ x ∈ rc.members, x.nodeID = rc.id) ↔ ∃ x ∈ rc.members, x.nodeID = m.nodeID

section IDCheck

variable {D : Deps} (hmap : D.HamtTotal) (hkey : D.KeysNodeIDs)
include hmap hkey

theorem idEntry_none_iff {rc : RegCluster} (h : rc.Indexed) :
    rc.idEntry D = .ok none ↔ ∀ x ∈ rc.members, x.nodeID ≠ rc.id := by
  simp only [RegCluster.idEntry, newBytesKey_value hkey, Hamt.find_total hmap, Except.ok.injEq]
  rw [h.byID.lookup_none]
  simp only [ne_eq, NodeID.value_inj]

/-- A call with a new name is refused exactly when a member holds the cluster's ID, and then
with the error that speaks of the new member's. -/
theorem addMember_new_name {rc : RegCluster} (h : rc.Indexed) {m : ClientInfo}
    (hname : ∀ x ∈ rc.members, x.name ≠ m.name) :
    ((∃ x ∈ rc.members, x.nodeID = rc.id) ∧
      rc.addMember D m = (rc, some .clusterMemberIDInUse)) ∨
    ((∀ x ∈ rc.members, x.nodeID ≠ rc.id) ∧ (rc.addMember D m).2 = none ∧
      (rc.addMember D m).1.members = rc.members ++ [m]) := by
  have hn : rc.membersByName.lookup m.name = none := (h.byName.lookup_none _).2 hname
  by_cases hown : ∀ x ∈ rc.members, x.nodeID ≠ rc.id
  · have hid := (idEntry_none_iff hmap hkey h).2 hown
    rcases addMember_spec hmap.insert hkey rc m with ⟨-, he⟩ | ⟨hna, -⟩
    · exact .inr ⟨hown, by rw [he], by rw [he]⟩
    · exact absurd ⟨hn, hid⟩ hna
  · have hb : rc.nameInUse m = false := by simp [RegCluster.nameInUse, hn]
    have hfind : rc.idEntry D ≠ .ok none := fun hid => hown ((idEntry_none_iff hmap hkey h).1 hid)
    simp only [RegCluster.idEntry, newBytesKey_value hkey, Hamt.find_total hmap] at hfind
    obtain ⟨y, hy⟩ := Option.ne_none_iff_exists'.1 fun hl => hfind (congrArg Except.ok hl)
    refine .inl ⟨by simpa using hown, ?_⟩
    simp [RegCluster.addMember, hb, RegCluster.idEntry, newBytesKey_value hkey,
      Hamt.find_total hmap, hy]

theorem idCheckRight_iff {rc : RegCluster} (h : rc.Indexed) {m : ClientInfo}
    (hname : ∀ x ∈ rc.members, x.name ≠ m.name) : IDCheckRight D rc m ↔ OwnIDAgrees rc m := by
  unfold IDCheckRight OwnIDAgrees
  rcases addMember_new_name hmap hkey h hname with ⟨hown, he⟩ | ⟨hown, he, hmem⟩
  · simp only [he, hown, true_iff]
    refine ⟨fun hr => hr.1, fun hex => ⟨hex, fun hne => ?_⟩⟩
    obtain ⟨x, hx, hxm⟩ := hex
    exact absurd hxm (hne x hx)
  · have hno : ¬ ∃ x ∈ rc.members, x.nodeID = rc.id := fun ⟨x, hx, hxe⟩ => hown x hx hxe
    simp only [he, hmem, hno, false_iff, and_self, implies_true, and_true, reduceCtorEq]

/-- What holds after calls that meet the condition: the members' IDs differ. -/
theorem addMember_ids_nodup {rc : RegCluster} (h : rc.Indexed) {m : ClientInfo}
    (hagree : (∀ x ∈ rc.members, x.name ≠ m.name) → OwnIDAgrees rc m)
    (hnd : (rc.members.map (·.nodeID)).Nodup) :
    ((rc.addMember D m).1.members.map (·.nodeID)).Nodup := by
  rcases addMember_spec hmap.insert hkey rc m with ⟨ha, he⟩ | ⟨-, e, he⟩
  · have hname := (h.byName.lookup_none _).1 ha.1
    have hown := (idEntry_none_iff hmap hkey h).1 ha.2
    rw [he]
    simp only [List.map_append, List.map_cons, List.map_nil]
    refine List.nodup_append.2 ⟨hnd, List.nodup_singleton _, ?_⟩
    intro a ha b hb hab
    obtain ⟨x, hx, rfl⟩ := List.mem_map.1 ha
    rw [List.mem_singleton] at hb
    obtain ⟨y, hy, hye⟩ := (hagree hname).2 ⟨x, hx, hab.trans hb⟩
    exact hown y hy hye
  · rw [he]
    exact hnd

/-- On every cluster reached, a call with a new name is answered rightly if and only if both
the cluster's own ID and the new member's, or neither, are held by members; and where all the
calls with new names met this, the members' IDs are pairwise distinct. -/
theorem addMember_id_check {name : String} {id : NodeID} {attrs : UInt64}
    {maxSize epCount : UInt32} {rc₀ : RegCluster}
    (hnew : newRegCluster D name id attrs maxSize epCount = .ok rc₀) (ms : List ClientInfo) :
    (∀ m, (∀ x ∈ (addAll D rc₀ ms).members, x.name ≠ m.name) →
      (IDCheckRight D (addAll D rc₀ ms) m ↔ OwnIDAgrees (addAll D rc₀ ms) m)) ∧
    (Run.Along (addCall D) (fun rc m => (∀ x ∈ rc.members, x.name ≠ m.name) → OwnIDAgrees rc m)
      rc₀ ms → ((addAll D rc₀ ms).members.map (·.nodeID)).Nodup) := by
  have hfresh := (newRegCluster_ok hnew).1
  constructor
  · intro m hm
    exact idCheckRight_iff hmap hkey (addAll_indexed hmap.insert hkey hfresh.indexed ms) hm
  · intro hal
    have hinv := Run.along_inv
      (I := fun rc => rc.Indexed ∧ (rc.members.map (·.nodeID)).Nodup)
      (fun rc m rc' hi hP hs => by
        cases hs
        exact ⟨addMember_indexed hmap.insert hkey hi.1 m, addMember_ids_nodup hmap hkey hi.1 hP hi.2⟩)
      ⟨hfresh.indexed, by rw [hfresh.members]; exact List.nodup_nil⟩ hal (run_addCall D rc₀ ms)
    exact hinv.2

end IDCheck

/-- Two clients with one ID and different names: the second call succeeds as well. -/
theorem addMember_misses_duplicate :
    (∀ x ∈ (addAll .plain Sample.cluster [Sample.client 0 "a" 1]).members, x.name ≠ "b") ∧
    ¬ IDCheckRight .plain (addAll .plain Sample.cluster [Sample.client 0 "a" 1]) (Sample.client 0 "b" 1) := by
  refine ⟨by decide, fun h => ?_⟩
  have hdup := h.1.2 ⟨Sample.client 0 "a" 1, by decide, by decide⟩
  revert hdup
  decide

theorem addMember_id_check_sample :
    IDCheckRight .plain (addAll .plain Sample.cluster [Sample.client 0 "a" 1]) (Sample.client 0 "b" 2) :=
  ((addMember_id_check plain_hamtTotal plain_keysNodeIDs
    (show newRegCluster .plain "c" (.rep 0) 0 2 1 = .ok Sample.cluster from rfl)
    [Sample.client 0 "a" 1]).1 (Sample.client 0 "b" 2) (by decide)).2 (by unfold OwnIDAgrees; decide)

end XlReg
