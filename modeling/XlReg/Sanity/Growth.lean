import XlReg.Lib.Index
import XlReg.Spec.Registry

/-! Nothing in the registry is ever taken back. A cluster keeps its name, ID and parameters
and only gains members at the end of its list; the list of clusters and the filter only grow
at the end. What one session found therefore stays true while others act. -/

namespace XlReg

open Index

/-- `rc'` is `rc` with, possibly, more members. -/
structure RegCluster.Grows (rc rc' : RegCluster) : Prop where
  name : rc'.name = rc.name
  id : rc'.id = rc.id
  attrs : rc'.attrs = rc.attrs
  maxSize : rc'.maxSize = rc.maxSize
  epCount : rc'.epCount = rc.epCount
  members : rc.members <+: rc'.members

theorem RegCluster.Grows.refl (rc : RegCluster) : rc.Grows rc :=
  ⟨rfl, rfl, rfl, rfl, rfl, List.prefix_refl _⟩

theorem RegCluster.Grows.trans {a b c : RegCluster} (h1 : a.Grows b) (h2 : b.Grows c) : a.Grows c :=
  ⟨h2.name.trans h1.name, h2.id.trans h1.id, h2.attrs.trans h1.attrs, h2.maxSize.trans h1.maxSize,
    h2.epCount.trans h1.epCount, h1.members.trans h2.members⟩

theorem RegCluster.grows_append (D : Deps) (rc : RegCluster) (m : ClientInfo) :
    rc.Grows (rc.append D m).1 := by
  obtain ⟨x, err, h⟩ := rc.append_eq D m
  rw [h]
  exact ⟨rfl, rfl, rfl, rfl, rfl, List.prefix_append _ _⟩

theorem RegCluster.grows_addMember (D : Deps) (rc : RegCluster) (m : ClientInfo) :
    rc.Grows (rc.addMember D m).1 := by
  rcases rc.addMember_eq D m with ⟨-, he⟩ | ⟨-, e, he⟩
  · rw [he]; exact rc.grows_append D m
  · rw [he]; exact .refl rc

theorem RegCluster.mem_addMember {D : Deps} (rc : RegCluster) {m : ClientInfo}
    (h : (rc.addMember D m).2 = none) : m ∈ (rc.addMember D m).1.members := by
  rcases rc.addMember_eq D m with ⟨-, he⟩ | ⟨-, e, he⟩
  · rw [he]
    simp
  · rw [he] at h
    cases h

structure World.Grows (w w' : World) : Prop where
  regID : w'.reg.regID = w.reg.regID
  ids : w.reg.idFilter.ids <+: w'.reg.idFilter.ids
  clusters : w.reg.clusters <+: w'.reg.clusters
  heap : ∀ (p : Ptr) rc, w.heap[p]? = some rc → ∃ rc', w'.heap[p]? = some rc' ∧ rc.Grows rc'

theorem World.Grows.refl (w : World) : w.Grows w :=
  ⟨rfl, List.prefix_refl _, List.prefix_refl _, fun _ rc h => ⟨rc, h, .refl rc⟩⟩

theorem World.Grows.trans {a b c : World} (h1 : a.Grows b) (h2 : b.Grows c) : a.Grows c := by
  refine ⟨h2.regID.trans h1.regID, h1.ids.trans h2.ids, h1.clusters.trans h2.clusters, ?_⟩
  intro p rc hp
  obtain ⟨rc1, hp1, hg1⟩ := h1.heap p rc hp
  obtain ⟨rc2, hp2, hg2⟩ := h2.heap p rc1 hp1
  exact ⟨rc2, hp2, hg1.trans hg2⟩

theorem World.grows_alloc (w : World) (rc : RegCluster) : w.Grows (w.alloc rc) := by
  refine ⟨rfl, List.prefix_refl _, List.prefix_refl _, fun p rc' h => ⟨rc', ?_, .refl rc'⟩⟩
  have hlt : p < w.heap.length := (List.getElem?_eq_some_iff.1 h).1
  simp only [World.alloc]
  rw [List.getElem?_append_left hlt, h]

theorem World.grows_store {w : World} {p : Ptr} {rc rc' : RegCluster} (h : w.heap[p]? = some rc)
    (hg : rc.Grows rc') : w.Grows (w.store p rc') := by
  refine ⟨rfl, List.prefix_refl _, List.prefix_refl _, ?_⟩
  intro q rc1 hq
  have hlt : p < w.heap.length := (List.getElem?_eq_some_iff.1 h).1
  by_cases hpq : p = q
  · subst hpq
    rw [h] at hq
    cases hq
    exact ⟨rc', by simp [World.store, hlt], hg⟩
  · exact ⟨rc1, by simp only [World.store]; rw [List.getElem?_set_ne hpq, hq], .refl rc1⟩

theorem World.store_self {w : World} {p : Ptr} {rc : RegCluster} (hp : w.heap[p]? = some rc) :
    w.store p rc = w := by
  obtain ⟨hlt, rfl⟩ := List.getElem?_eq_some_iff.1 hp
  rw [World.store, List.set_getElem_self]

/-- Giving the registry other indexes and a longer list or filter changes no cluster. -/
theorem World.grows_reg {w : World} {r : Registry} (h1 : r.regID = w.reg.regID)
    (h2 : w.reg.idFilter.ids <+: r.idFilter.ids) (h3 : w.reg.clusters <+: r.clusters) :
    w.Grows { w with reg := r } :=
  ⟨h1, h2, h3, fun _ rc h => ⟨rc, h, .refl rc⟩⟩

theorem World.grows_addCluster {D : Deps} {w w' : World} {c : Option Ptr} {i : ℤ} {err : Option Err}
    (h : addCluster D w c = .ok (w', i, err)) : w.Grows w' := by
  rcases addCluster_cases h with ⟨rfl, -, -⟩ | ⟨p, rc, -, -, -, -, -, ⟨rfl, -, -⟩ | ⟨rfl, -, -⟩⟩
  · exact .refl _
  · exact grows_reg rfl (List.prefix_refl _) (List.prefix_append _ _)
  · exact grows_reg rfl (List.prefix_refl _) (List.prefix_append _ _)

/-- What a pointer's cluster is called, and its ID. -/
def World.nameAt (w : World) (p : Ptr) : String := (w.heap[p]?.map (·.name)).getD ""
def World.idAt (w : World) (p : Ptr) : Bytes := (w.heap[p]?.map (·.id.value)).getD []

theorem World.nameAt_eq {w : World} {p : Ptr} {rc : RegCluster} (h : w.heap[p]? = some rc) :
    w.nameAt p = rc.name := by simp [nameAt, h]

theorem World.idAt_eq {w : World} {p : Ptr} {rc : RegCluster} (h : w.heap[p]? = some rc) :
    w.idAt p = rc.id.value := by simp [idAt, h]

section Pointers

variable {w w' : World} (hg : w.Grows w') {p : Ptr} (hp : p < w.heap.length)
include hg hp

/-- A pointer keeps leading to the same cluster, with what that had when it was made. -/
theorem World.Grows.at : ∃ rc rc', w.heap[p]? = some rc ∧ w'.heap[p]? = some rc' ∧ rc.Grows rc' := by
  obtain ⟨rc', hrc', hgr⟩ := hg.heap p _ (List.getElem?_eq_getElem hp)
  exact ⟨_, rc', List.getElem?_eq_getElem hp, hrc', hgr⟩

theorem World.Grows.lt_length : p < w'.heap.length := by
  obtain ⟨-, rc', -, hrc', -⟩ := hg.at hp
  exact (List.getElem?_eq_some_iff.1 hrc').1

theorem World.Grows.nameAt : w'.nameAt p = w.nameAt p := by
  obtain ⟨rc, rc', hrc, hrc', hgr⟩ := hg.at hp
  rw [World.nameAt_eq hrc, World.nameAt_eq hrc', hgr.name]

theorem World.Grows.idAt : w'.idAt p = w.idAt p := by
  obtain ⟨rc, rc', hrc, hrc', hgr⟩ := hg.at hp
  rw [World.idAt_eq hrc, World.idAt_eq hrc', hgr.id]

end Pointers

def World.membersAt (w : World) (p : Ptr) : Option (List ClientInfo) := w.heap[p]?.map (·.members)

theorem World.membersAt_store {w : World} {p : Ptr} {rc : RegCluster} (h : w.heap[p]? = some rc)
    (rc' : RegCluster) (q : Ptr) :
    (w.store p rc').membersAt q = if q = p then some rc'.members else w.membersAt q := by
  have hlt : p < w.heap.length := (List.getElem?_eq_some_iff.1 h).1
  unfold World.membersAt World.store
  by_cases hq : q = p
  · subst hq
    simp [hlt]
  · rw [if_neg hq, List.getElem?_set_ne (Ne.symm hq)]

theorem World.membersAt_store_self {w : World} {p : Ptr} {rc : RegCluster}
    (h : w.heap[p]? = some rc) (q : Ptr) : (w.store p rc).membersAt q = w.membersAt q := by
  rw [membersAt_store h]
  split_ifs with hq
  · rw [hq, membersAt, h]
    rfl
  · rfl

theorem World.membersAt_store_append {D : Deps} {w : World} {p : Ptr} {rc : RegCluster}
    (h : w.heap[p]? = some rc) (m : ClientInfo) :
    (w.store p (rc.append D m).1).membersAt p ≠ w.membersAt p := by
  rw [membersAt_store h, if_pos rfl, membersAt, h, RegCluster.append_members]
  simp

/-- The list of clusters, the map by name and the HAMT by ID say the same, and `NewBytesKey`
accepts the IDs in it. -/
structure World.Consistent (D : Deps) (w : World) : Prop where
  valid : ∀ p ∈ w.reg.clusters, p < w.heap.length
  keyed : ∀ p ∈ w.reg.clusters, D.newBytesKey (some (w.idAt p)) = none
  byName : Indexes w.nameAt w.reg.clusters w.reg.clustersByName
  byID : Indexes w.idAt w.reg.clusters w.reg.clustersByID.map

theorem World.init_consistent (D : Deps) (regID : NodeID) : (World.init regID).Consistent D :=
  ⟨by simp [init], by simp [init], Indexes.empty _, Indexes.empty _⟩

theorem World.Consistent.exists_deref {D : Deps} {w : World} (h : w.Consistent D) {p : Ptr}
    (hp : p ∈ w.reg.clusters) : ∃ rc, w.heap[p]? = some rc :=
  ⟨_, List.getElem?_eq_getElem (h.valid p hp)⟩

/-- The indexes survive whatever leaves the registry alone. -/
theorem World.Consistent.of_grows {D : Deps} {w w' : World} (h : w.Consistent D) (hg : w.Grows w')
    (h1 : w'.reg.clusters = w.reg.clusters) (h2 : w'.reg.clustersByName = w.reg.clustersByName)
    (h3 : w'.reg.clustersByID = w.reg.clustersByID) : w'.Consistent D := by
  refine ⟨?_, ?_, ?_, ?_⟩
  · rw [h1]
    exact fun p hp => hg.lt_length (h.valid p hp)
  · rw [h1]
    intro p hp
    rw [hg.idAt (h.valid p hp)]
    exact h.keyed p hp
  · rw [h1, h2]
    exact h.byName.congr fun p hp => hg.nameAt (h.valid p hp)
  · rw [h1, h3]
    exact h.byID.congr fun p hp => hg.idAt (h.valid p hp)

/-- `AddCluster` keeps the three in step, provided the HAMT takes a valid ID it lacks. -/
theorem World.Consistent.addCluster {D : Deps}
    (hins : ∀ keys (n : NodeID), n.value ∉ keys → D.insertErr keys n.value = none)
    {w w' : World} {c : Option Ptr} {i : ℤ} {err : Option Err} (hw : w.Consistent D)
    (h : XlReg.addCluster D w c = .ok (w', i, err)) : w'.Consistent D := by
  rcases addCluster_cases h with ⟨rfl, -, -⟩ | ⟨p, rc, -, hp, hkey, hn, hid, ⟨rfl, -, -⟩ | ⟨-, -, e, -, he⟩⟩
  · exact hw
  · have hname := World.nameAt_eq hp
    have hidAt := World.idAt_eq hp
    refine ⟨?_, ?_, ?_, ?_⟩
    · intro q hq
      rcases List.mem_append.1 hq with hq | hq
      · exact hw.valid q hq
      · rw [List.mem_singleton.1 hq]
        exact (List.getElem?_eq_some_iff.1 hp).1
    · intro q hq
      rcases List.mem_append.1 hq with hq | hq
      · exact hw.keyed q hq
      · rw [List.mem_singleton.1 hq]
        change D.newBytesKey (some (w.idAt p)) = none
        rw [hidAt]
        exact hkey
    · rw [← hname] at hn ⊢
      exact hw.byName.append hn
    · rw [← hidAt] at hid ⊢
      exact hw.byID.append hid
  · have hno : rc.id.value ∉ w.reg.clustersByID.map.keys := by
      rw [← AList.mem_keys, ← AList.lookup_eq_none]
      exact hid
    rw [hins _ rc.id hno] at he
    cases he

end XlReg
