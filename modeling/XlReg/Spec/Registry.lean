import XlReg.Spec.Cluster

/-! The registry (registry.go). Clusters are objects that the registry's list and indexes and
the sessions share, so they live in a heap and are named by pointers into it. -/

namespace XlReg

abbrev Ptr := ℕ

structure Registry where
  regID : NodeID
  idFilter : IdFilter
  clusters : List Ptr
  clustersByName : AList fun _ : String => Ptr
  clustersByID : Hamt Ptr

/-- The registry, every cluster made so far and the number of client records made. -/
structure World where
  reg : Registry
  heap : List RegCluster
  clients : ℕ

/-- A registry created with no clusters: its own ID is the first in the filter. -/
def World.init (regID : NodeID) : World :=
  ⟨⟨regID, ⟨[regID.value]⟩, [], ∅, .empty⟩, [], 0⟩

def World.deref (w : World) (p : Ptr) : Except Abort RegCluster :=
  match w.heap[p]? with
  | none => .error .nilDeref
  | some rc => .ok rc

def World.alloc (w : World) (rc : RegCluster) : World := { w with heap := w.heap ++ [rc] }

def World.store (w : World) (p : Ptr) (rc : RegCluster) : World :=
  { w with heap := w.heap.set p rc }

def containsID (D : Deps) (f : IdFilter) (n : NodeID) : Except Err Bool := f.isMember D n.value

def insertID (D : Deps) (f : IdFilter) (n : NodeID) : IdFilter × Option Err :=
  match f.isMember D n.value with
  | .error e => (f, some e)
  | .ok true => (f, some .idAlreadyInUse)
  | .ok false =>
    match f.insert D n.value with
    | .error e => (f, some e)
    | .ok f => (f, none)

def Registry.idCount (reg : Registry) : ℕ := reg.idFilter.size

/-- Draws random IDs until the filter does not know the one drawn, and inserts that one. The
IDs that `xi.New(nil)` draws during the call are an argument. -/
def insertUniqueNodeID (D : Deps) (f : IdFilter) :
    List NodeID → Except Abort (IdFilter × Except Err NodeID)
  | [] => .error .drawing
  | n :: draws =>
    match containsID D f n with
    | .error e => .ok (f, .error e)
    | .ok true => insertUniqueNodeID D f draws
    | .ok false =>
      match f.insert D n.value with
      | .error e => .ok (f, .error e)
      | .ok f => .ok (f, .ok n)

/-- The part of `AddCluster` under the registry's lock, for a pointer `p` to `rc`. -/
def addClusterLocked (D : Deps) (w : World) (p : Ptr) (rc : RegCluster) (bKey : Bytes) :
    Except Abort (World × ℤ × Option Err) :=
  let err := if (w.reg.clustersByName.lookup rc.name).isSome then some Err.nameAlreadyInUse
    else match w.reg.clustersByID.find D bKey with
      | .error e => some e
      | .ok (some _) => some .idAlreadyInUse
      | .ok none => none
  match err with
  | some e => .ok (w, -1, some e)
  | none =>
    let index := w.reg.clusters.length
    let reg := { w.reg with clusters := w.reg.clusters ++ [p],
                            clustersByName := w.reg.clustersByName.insert rc.name p }
    match rc.getNodeID D with
    | none => .error .nilDeref
    | some id =>
      match newBytesKey D (some id.value) with
      | .error e => .ok ({ w with reg := reg }, -1, some e)
      | .ok cKey =>
        match reg.clustersByID.insert D cKey p with
        | .error e => .ok ({ w with reg := reg }, -1, some e)
        | .ok m => .ok ({ w with reg := { reg with clustersByID := m } }, index, none)

/-- The index is -1 whenever there is an error. -/
def addCluster (D : Deps) (w : World) (cluster : Option Ptr) :
    Except Abort (World × ℤ × Option Err) :=
  match cluster with
  | none => .ok (w, -1, some .nilCluster)
  | some p =>
    match w.deref p with
    | .error a => .error a
    | .ok rc =>
      match newBytesKey D (some rc.id.value) with
      | .error e => .ok (w, -1, some e)
      | .ok bKey => addClusterLocked D w p rc bKey

theorem World.alloc_last (w : World) (rc : RegCluster) :
    (w.alloc rc).heap[w.heap.length]? = some rc := by
  simp [World.alloc]

theorem deref_ok {w : World} {p : Ptr} {rc : RegCluster} :
    w.deref p = .ok rc ↔ w.heap[p]? = some rc := by
  unfold World.deref
  cases w.heap[p]? <;> simp

structure World.Admits (D : Deps) (w : World) (rc : RegCluster) : Prop where
  key : D.newBytesKey (some rc.id.value) = none
  name : w.reg.clustersByName.lookup rc.name = none
  id : w.reg.clustersByID.find D rc.id.value = .ok none

theorem addCluster_of_not_admits {D : Deps} {w : World} {p : Ptr} {rc : RegCluster}
    (hp : w.heap[p]? = some rc) (ha : ¬ w.Admits D rc) :
    ∃ e, addCluster D w (some p) = .ok (w, -1, some e) := by
  simp only [addCluster, deref_ok.2 hp]
  cases hk : newBytesKey D (some rc.id.value) with
  | error e => exact ⟨e, rfl⟩
  | ok bKey =>
    obtain ⟨hkey, rfl⟩ := newBytesKey_ok hk
    simp only [addClusterLocked]
    by_cases hn : (w.reg.clustersByName.lookup rc.name).isSome
    · simp [hn]
    · cases hf : w.reg.clustersByID.find D rc.id.value with
      | error e => simp [hn]
      | ok x =>
        cases x with
        | some q => simp [hn]
        | none => exact absurd ⟨hkey, by simpa using hn, hf⟩ ha

/-- A cluster that passes the checks is put into the list and the name map, and into the HAMT
unless that reports an error. -/
theorem addCluster_of_admits {D : Deps} {w : World} {p : Ptr} {rc : RegCluster}
    (hp : w.heap[p]? = some rc) (ha : w.Admits D rc) :
    addCluster D w (some p) = .ok (match D.insertErr w.reg.clustersByID.map.keys rc.id.value with
      | none => ({ w with reg := { w.reg with
          clusters := w.reg.clusters ++ [p],
          clustersByName := w.reg.clustersByName.insert rc.name p,
          clustersByID := ⟨w.reg.clustersByID.map.insert rc.id.value p⟩ } },
        w.reg.clusters.length, none)
      | some e => ({ w with reg := { w.reg with
          clusters := w.reg.clusters ++ [p],
          clustersByName := w.reg.clustersByName.insert rc.name p } }, -1, some e)) := by
  simp only [addCluster, deref_ok.2 hp, newBytesKey, ha.key, addClusterLocked, ha.name, ha.id,
    RegCluster.getNodeID_eq, Option.isSome_none, Bool.false_eq_true, if_false, Option.getD_some,
    Hamt.insert]
  cases D.insertErr w.reg.clustersByID.map.keys rc.id.value <;> rfl

/-- The three things a call of `AddCluster` can do: refuse, add the cluster everywhere, or add
it to the list and the name map only, with the error of the HAMT. -/
theorem addCluster_cases {D : Deps} {w w' : World} {c : Option Ptr} {i : ℤ} {err : Option Err}
    (h : addCluster D w c = .ok (w', i, err)) :
    (w' = w ∧ i = -1 ∧ ∃ e, err = some e) ∨
    ∃ p rc, c = some p ∧ w.heap[p]? = some rc ∧ D.newBytesKey (some rc.id.value) = none ∧
      w.reg.clustersByName.lookup rc.name = none ∧ w.reg.clustersByID.map.lookup rc.id.value = none ∧
      ((w' = { w with reg := { w.reg with
          clusters := w.reg.clusters ++ [p],
          clustersByName := w.reg.clustersByName.insert rc.name p,
          clustersByID := ⟨w.reg.clustersByID.map.insert rc.id.value p⟩ } } ∧
        i = w.reg.clusters.length ∧ err = none) ∨
       (w' = { w with reg := { w.reg with
          clusters := w.reg.clusters ++ [p],
          clustersByName := w.reg.clustersByName.insert rc.name p } } ∧
        i = -1 ∧ ∃ e, err = some e ∧ D.insertErr w.reg.clustersByID.map.keys rc.id.value = some e)) := by
  cases c with
  | none => cases h; exact .inl ⟨rfl, rfl, _, rfl⟩
  | some p =>
    cases hp : w.heap[p]? with
    | none => simp [addCluster, World.deref, hp] at h
    | some rc =>
      by_cases ha : w.Admits D rc
      · rw [addCluster_of_admits hp ha] at h
        refine .inr ⟨p, rc, rfl, hp, ha.key, ha.name, Hamt.find_none ha.id, ?_⟩
        cases hi : D.insertErr w.reg.clustersByID.map.keys rc.id.value with
        | none => simp only [hi] at h; cases h; exact .inl ⟨rfl, rfl, rfl⟩
        | some e => simp only [hi] at h; cases h; exact .inr ⟨rfl, rfl, e, rfl, rfl⟩
      · obtain ⟨e, he⟩ := addCluster_of_not_admits hp ha
        rw [he] at h
        cases h
        exact .inl ⟨rfl, rfl, e, rfl⟩

theorem addCluster_heap {D : Deps} {w w' : World} {c : Option Ptr} {i : ℤ} {err : Option Err}
    (h : addCluster D w c = .ok (w', i, err)) : w'.heap = w.heap := by
  rcases addCluster_cases h with ⟨rfl, -, -⟩ | ⟨p, rc, -, -, -, -, -, ⟨rfl, -, -⟩ | ⟨rfl, -, -⟩⟩
  · rfl
  · rfl
  · rfl

theorem addCluster_filter {D : Deps} {w w' : World} {c : Option Ptr} {i : ℤ} {err : Option Err}
    (h : addCluster D w c = .ok (w', i, err)) : w'.reg.idFilter = w.reg.idFilter := by
  rcases addCluster_cases h with ⟨rfl, -, -⟩ | ⟨p, rc, -, -, -, -, -, ⟨rfl, -, -⟩ | ⟨rfl, -, -⟩⟩
  · rfl
  · rfl
  · rfl

end XlReg
