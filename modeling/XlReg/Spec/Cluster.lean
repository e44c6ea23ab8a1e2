import XlReg.Spec.Packages

/-! Clients and clusters (clientInfo.go, reg_cluster.go). `addMember` is put together from
its three lock-protected sections, which `Spec.Joins` takes one at a time. -/

namespace XlReg

/-- A client as the registry knows it. The code passes these records by pointer and never
changes one: `addr` stands for the pointer, the rest for the record. -/
structure ClientInfo where
  addr : ℕ
  name : String
  nodeID : NodeID
  commsPubKey : RSAPublicKey
  sigPubKey : RSAPublicKey
  attrs : UInt64
  myEnds : List String
deriving DecidableEq

def newClientInfo (D : Deps) (addr : ℕ) (name : String) (id : NodeID) (ck sk : RSAPublicKey)
    (attrs : UInt64) (myEnds : List String) : Except Err ClientInfo :=
  match D.newBaseNode name id ck sk with
  | some e => .error e
  | none => .ok ⟨addr, name, id, ck, sk, attrs, myEnds⟩

/-- The token corresponding to a client; it carries no signature. -/
def ClientInfo.token (D : Deps) (mi : ClientInfo) : Except Err Token :=
  match D.rsaPubKeyToWire mi.commsPubKey with
  | .error e => .error e
  | .ok ckBytes =>
    match D.rsaPubKeyToWire mi.sigPubKey with
    | .error e => .error e
    | .ok skBytes =>
      .ok { name := some mi.name, attrs := some mi.attrs, id := some mi.nodeID.value,
            commsKey := some ckBytes, sigKey := some skBytes, myEnds := mi.myEnds }

/-- `newRegCluster` is the only constructor and stores the value of the NodeID it is
given, so the ID is kept here as the NodeID. -/
structure RegCluster where
  name : String
  id : NodeID
  attrs : UInt64
  maxSize : UInt32
  epCount : UInt32
  members : List ClientInfo
  membersByName : AList fun _ : String => ClientInfo
  membersByID : Hamt ClientInfo

def newRegCluster (D : Deps) (name : String) (id : NodeID) (attrs : UInt64)
    (maxSize epCount : UInt32) : Except Err RegCluster :=
  let name := if name = "" then "xlCluster" else name
  let err := if epCount < 1 then some Err.clusterMembersMustHaveEndPoint else none
  -- the else branch also runs after the first error, and overwrites it
  let err := if err = none ∧ maxSize < 1 then some Err.clusterMustHaveMember
    else D.newHAMT D.maxW (D.nextExp2_32 maxSize)
  match err with
  | some e => .error e
  | none =>
    .ok { name := name, id := id, attrs := attrs, maxSize := maxSize, epCount := epCount,
          members := [], membersByName := ∅, membersByID := .empty }

structure RegCluster.Fresh (rc : RegCluster) : Prop where
  members : rc.members = []
  membersByName : rc.membersByName = ∅
  membersByID : rc.membersByID = .empty

theorem newRegCluster_ok {D : Deps} {name : String} {id : NodeID} {attrs : UInt64}
    {maxSize epCount : UInt32} {rc : RegCluster}
    (h : newRegCluster D name id attrs maxSize epCount = .ok rc) :
    rc.Fresh ∧ rc.name = (if name = "" then "xlCluster" else name) ∧ rc.id = id ∧
      rc.attrs = attrs ∧ rc.maxSize = maxSize ∧ rc.epCount = epCount := by
  unfold newRegCluster at h
  simp only at h
  split at h
  · cases h
  · cases h
    exact ⟨⟨rfl, rfl, rfl⟩, rfl, rfl, rfl, rfl, rfl⟩

namespace RegCluster

/-- First section of `AddMember`: is the name in use? -/
def nameInUse (rc : RegCluster) (member : ClientInfo) : Bool :=
  (rc.membersByName.lookup member.name).isSome

/-- Second section: the lookup in the HAMT. Its key is made from the cluster's own ID, and
an error in making it is overwritten by the result of `Find`. -/
def idEntry (D : Deps) (rc : RegCluster) : Except Err (Option ClientInfo) :=
  let bKey := match newBytesKey D (some rc.id.value) with
    | .ok k => k
    | .error _ => []
  rc.membersByID.find D bKey

/-- Third section: append and index. An error here leaves the member in the list. -/
def append (D : Deps) (rc : RegCluster) (member : ClientInfo) : RegCluster × Option Err :=
  let rc := { rc with members := rc.members ++ [member],
                      membersByName := rc.membersByName.insert member.name member }
  match newBytesKey D (some member.nodeID.value) with
  | .error e => (rc, some e)
  | .ok bKey =>
    match rc.membersByID.insert D bKey member with
    | .error e => (rc, some e)
    | .ok m => ({ rc with membersByID := m }, none)

def addMember (D : Deps) (rc : RegCluster) (member : ClientInfo) : RegCluster × Option Err :=
  if rc.nameInUse member then (rc, some .clusterMemberNameInUse)
  else match rc.idEntry D with
    | .error e => (rc, some e)
    | .ok (some _) => (rc, some .clusterMemberIDInUse)
    | .ok none => rc.append D member

/-- The number of members, not the maximum, as a uint32. -/
def size (rc : RegCluster) : UInt32 := UInt32.ofNat rc.members.length

/-- The error of `xi.New` is dropped, and leaves nil. -/
def getNodeID (D : Deps) (rc : RegCluster) : Option NodeID := (nodeIDOf D rc.id.value).toOption

@[simp] theorem getNodeID_eq (D : Deps) (rc : RegCluster) : rc.getNodeID D = some rc.id := by
  simp [getNodeID, Except.toOption]

/-- The checks of `AddMember` let the member through to the append. -/
def Admits (D : Deps) (rc : RegCluster) (member : ClientInfo) : Prop :=
  rc.membersByName.lookup member.name = none ∧ rc.idEntry D = .ok none

instance (D : Deps) (rc : RegCluster) (member : ClientInfo) : Decidable (rc.Admits D member) :=
  match h : rc.idEntry D with
  | .ok none => decidable_of_iff (rc.membersByName.lookup member.name = none) (by simp [Admits, h])
  | .ok (some _) => isFalse (by simp [Admits, h])
  | .error _ => isFalse (by simp [Admits, h])

/-- What `AddMember` does: it appends, or it reports an error and changes nothing. -/
theorem addMember_eq (D : Deps) (rc : RegCluster) (member : ClientInfo) :
    (rc.Admits D member ∧ rc.addMember D member = rc.append D member) ∨
    (¬ rc.Admits D member ∧ ∃ e, rc.addMember D member = (rc, some e)) := by
  unfold addMember
  by_cases hn : rc.membersByName.lookup member.name = none
  · have hb : rc.nameInUse member = false := by simp [nameInUse, hn]
    simp only [hb, Bool.false_eq_true, if_false]
    cases hid : rc.idEntry D with
    | error e => exact .inr ⟨by simp [Admits, hid], e, rfl⟩
    | ok x =>
      cases x with
      | none => exact .inl ⟨⟨hn, hid⟩, rfl⟩
      | some y => exact .inr ⟨by simp [Admits, hid], _, rfl⟩
  · have hb : rc.nameInUse member = true := by
      simpa [nameInUse, Option.isSome_iff_ne_none] using hn
    simp only [hb, if_true]
    exact .inr ⟨fun h => hn h.1, _, rfl⟩

theorem addMember_of_admits {D : Deps} {rc : RegCluster} {member : ClientInfo}
    (h : rc.Admits D member) : rc.addMember D member = rc.append D member :=
  ((rc.addMember_eq D member).resolve_right fun hno => hno.1 h).2

theorem addMember_of_not_admits {D : Deps} {rc : RegCluster} {member : ClientInfo}
    (h : ¬ rc.Admits D member) : ∃ e, rc.addMember D member = (rc, some e) :=
  ((rc.addMember_eq D member).resolve_left fun hyes => h hyes.1).2

/-- All that an append changes; the HAMT may or may not have taken the entry. -/
theorem append_eq (D : Deps) (rc : RegCluster) (member : ClientInfo) :
    ∃ m err, rc.append D member =
      ({ rc with members := rc.members ++ [member],
                 membersByName := rc.membersByName.insert member.name member,
                 membersByID := m }, err) := by
  unfold append
  simp only
  split
  · exact ⟨_, _, rfl⟩
  · split <;> exact ⟨_, _, rfl⟩

@[simp] theorem append_members (D : Deps) (rc : RegCluster) (member : ClientInfo) :
    (rc.append D member).1.members = rc.members ++ [member] := by
  obtain ⟨m, err, h⟩ := rc.append_eq D member
  rw [h]

theorem append_ok {D : Deps} (rc : RegCluster) (member : ClientInfo)
    (hkey : D.newBytesKey (some member.nodeID.value) = none)
    (hins : ∀ keys k, D.insertErr keys k = none) :
    rc.append D member =
      ({ rc with members := rc.members ++ [member],
                 membersByName := rc.membersByName.insert member.name member,
                 membersByID := ⟨rc.membersByID.map.insert member.nodeID.value member⟩ }, none) := by
  simp [append, newBytesKey, hkey, Hamt.insert, hins]

end RegCluster

end XlReg
