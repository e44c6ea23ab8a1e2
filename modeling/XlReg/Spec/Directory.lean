import XlReg.Spec.Server

/-! What the registry is for, said without its maps, pointers and records. A directory has the IDs
given out and the clusters in the order in which they were made, each with its members in the order
in which they joined. A visit is what a session has come to. The requests are stated by what they
do to these, on lists and sets, with the answers and the faults that the code has. -/

namespace XlReg

namespace Directory

structure Member where
  name : String
  nodeID : NodeID
  commsPubKey : RSAPublicKey
  sigPubKey : RSAPublicKey
  attrs : UInt64
  myEnds : List String
deriving DecidableEq

def Member.token (D : Deps) (m : Member) : Option Token :=
  match D.rsaPubKeyToWire m.commsPubKey, D.rsaPubKeyToWire m.sigPubKey with
  | .ok ck, .ok sk =>
    some { name := some m.name, attrs := some m.attrs, id := some m.nodeID.value,
           commsKey := some ck, sigKey := some sk, myEnds := m.myEnds }
  | _, _ => none

/-- A cluster, in which no two members have one name. -/
structure Cluster where
  name : String
  id : NodeID
  maxSize : UInt32
  epCount : UInt32
  members : List Member
  distinct : (members.map Member.name).Nodup
deriving DecidableEq

def Cluster.add (c : Cluster) (m : Member) (h : m.name ∉ c.members.map Member.name) : Cluster :=
  { c with
    members := c.members ++ [m]
    distinct := by
      rw [List.map_append, List.map_singleton]
      exact List.Nodup.append c.distinct (List.nodup_singleton _) (by simpa using h) }

/-- The tokens of the members listed, up to the first that has none, with the members' indexes. -/
def tokensOf (D : Deps) : List (Member × ℕ) → List (Token × ℕ)
  | [] => []
  | (m, i) :: rest =>
    match m.token D with
    | none => []
    | some t => (t, i) :: tokensOf D rest

/-- The tokens sent to who asks for the members `which`. The number of members is counted as a
uint32, and at most 64 are looked at. -/
def Cluster.listing (D : Deps) (c : Cluster) (which : UInt64) : List (Token × ℕ) :=
  tokensOf D ((c.members.take (min (c.members.length % 2 ^ 32) 64)).zipIdx.filter
    fun p => D.bits.test which p.2)

end Directory

/-- No two clusters have one name or one ID, and their IDs are among those given out. -/
structure Directory where
  known : Finset Bytes
  clusters : List Directory.Cluster
  named : (clusters.map (·.name)).Nodup
  identified : (clusters.map (·.id)).Nodup
  recorded : ∀ c ∈ clusters, c.id.value ∈ known

/-- What a session has come to: its client has been accepted, it has asked for a cluster (and made
it, if there is an `own`), its client has joined one, it has taken its leave, or it was closed. -/
inductive Visit
  | new
  | known (m : Directory.Member)
  | created (m : Directory.Member) (own : Option NodeID)
  | joined (m : Directory.Member)
  | left
  | closed
deriving DecidableEq

inductive Request
  | member
  | create
  | join
  | getCluster
  | bye
deriving DecidableEq

/-- What an op asks for: that of a reply counts as the request it answers, and 2 as a Member
message. -/
def Request.of (op : Int32) : Option Request :=
  if op.toInt < 2 then none
  else if op.toInt ≤ 4 then some .member
  else if op.toInt ≤ 6 then some .create
  else if op.toInt ≤ 8 then some .join
  else if op.toInt ≤ 10 then some .getCluster
  else if op.toInt ≤ 12 then some .bye
  else none

namespace Directory

abbrev Outcome := Except Abort (Directory × Visit × XLRegMsg)

def init (regID : NodeID) : Directory := ⟨{regID.value}, [], by simp, by simp, by simp⟩

def byName (d : Directory) (name : String) : Option Cluster :=
  d.clusters.find? fun c => c.name = name

def byID (d : Directory) (id : Bytes) : Option Cluster :=
  d.clusters.find? fun c => c.id.value = id

def record (d : Directory) (n : NodeID) : Directory :=
  { d with
    known := insert n.value d.known
    recorded := fun c hc => Finset.mem_insert_of_mem (d.recorded c hc) }

def enter (d : Directory) (c : Cluster) (hname : c.name ∉ d.clusters.map (·.name))
    (hid : c.id.value ∉ d.known) : Directory where
  known := insert c.id.value d.known
  clusters := d.clusters ++ [c]
  named := by
    rw [List.map_append, List.map_singleton]
    exact List.Nodup.append d.named (List.nodup_singleton _) (by simpa using hname)
  identified := by
    rw [List.map_append, List.map_singleton]
    refine List.Nodup.append d.identified (List.nodup_singleton _) ?_
    intro n hn hc
    obtain ⟨c', hc', rfl⟩ := List.mem_map.1 hn
    rw [← List.mem_singleton.1 hc] at hid
    exact hid (d.recorded c' hc')
  recorded := by
    intro c' hc'
    rcases List.mem_append.1 hc' with hold | hlast
    · exact Finset.mem_insert_of_mem (d.recorded c' hold)
    · rw [List.mem_singleton.1 hlast]
      exact Finset.mem_insert_self _ _

/-- A cluster after a member whose name it does not have yet has joined the one with the ID `id`. -/
def addAt (id : NodeID) (m : Member) (c : Cluster) : Cluster :=
  if h : c.id = id ∧ m.name ∉ c.members.map Member.name then c.add m h.2 else c

@[simp] theorem addAt_name (id : NodeID) (m : Member) (c : Cluster) :
    (addAt id m c).name = c.name := by
  unfold addAt
  split <;> rfl

@[simp] theorem addAt_id (id : NodeID) (m : Member) (c : Cluster) : (addAt id m c).id = c.id := by
  unfold addAt
  split <;> rfl

def addTo (d : Directory) (id : NodeID) (m : Member) : Directory where
  known := d.known
  clusters := d.clusters.map (addAt id m)
  named := by
    have hsame : (fun c : Cluster => c.name) ∘ addAt id m = fun c => c.name := by
      funext c
      exact addAt_name id m c
    rw [List.map_map, hsame]
    exact d.named
  identified := by
    have hsame : (fun c : Cluster => c.id) ∘ addAt id m = fun c => c.id := by
      funext c
      exact addAt_id id m c
    rw [List.map_map, hsame]
    exact d.identified
  recorded := by
    intro c hc
    obtain ⟨c', hc', rfl⟩ := List.mem_map.1 hc
    rw [addAt_id]
    exact d.recorded c' hc'

def fresh (d : Directory) (draws : List NodeID) : Except Abort { n : NodeID // n.value ∉ d.known } :=
  match h : draws.find? fun n => n.value ∉ d.known with
  | none => .error .drawing
  | some n => .ok ⟨n, by simpa using List.find?_some h⟩

def refuse (d : Directory) (e : Err) : Outcome := .ok (d, .closed, errorMsg e)

def clientID (D : Deps) (d : Directory) (id : Option Bytes) (draws : List NodeID) :
    Except Abort (Except Err NodeID) :=
  match id with
  | some b => .ok (nodeIDOf D b)
  | none => (d.fresh draws).map fun n => .ok n.1

/-- Member: a client whose signature verifies is accepted if a node can be made of it. Its ID is
given out even if none can. -/
def identify (D : Deps) (d : Directory) (x : Input) : Outcome :=
  let specs := x.msg.getMemberSpecs
  match verifySpecs D specs with
  | .error e => d.refuse e
  | .ok (ck, sk) =>
    match d.clientID D specs.id x.draws with
    | .error a => .error a
    | .ok (.error e) => d.refuse e
    | .ok (.ok n) =>
      match D.newBaseNode specs.getName n ck sk with
      | some e => (d.record n).refuse e
      | none =>
        .ok (d.record n, .known ⟨specs.getName, n, ck, sk, specs.getAttrs, specs.myEnds⟩,
          memberOK n specs.getAttrs)

/-- Create: of a cluster with that name the properties are reported; else one is made. Without a
name it is to be "xlCluster", and if there is such a cluster an ID has been given out in vain. -/
def create (d : Directory) (m : Member) (x : Input) : Outcome :=
  let name := x.msg.getClusterName
  match d.byName name with
  | some c => .ok (d, .created m none, createReply c.id c.maxSize 0 c.epCount)
  | none =>
    match d.fresh x.draws with
    | .error a => .error a
    | .ok n =>
      let c : Cluster := ⟨if name = "" then "xlCluster" else name, n.1, clampSize x.msg.getClusterMaxSize,
        x.msg.getEndPointCount, [], List.nodup_nil⟩
      if h : c.name ∈ d.clusters.map (·.name) then (d.record n.1).refuse .nameAlreadyInUse
      else .ok (d.enter c h n.2, .created m (some c.id),
        createReply c.id c.maxSize x.msg.getClusterAttrs c.epCount)

def joinTarget (D : Deps) (d : Directory) (own : Option NodeID) (msg : XLRegMsg) : Option Cluster :=
  match msg.clusterID with
  | some id => if D.newBytesKey (some id) = none then d.byID id else none
  | none =>
    if msg.getClusterName = "" then own.bind fun n => d.byID n.value
    else d.byName msg.getClusterName

/-- Join: whoever asks is admitted, unless its name is in use or a member has the cluster's own ID.
A Join about no cluster is a fault. -/
def join (D : Deps) (d : Directory) (m : Member) (own : Option NodeID) (msg : XLRegMsg) : Outcome :=
  match d.joinTarget D own msg with
  | none => .error .nilDeref
  | some c =>
    if m.name ∈ c.members.map Member.name then d.refuse .clusterMemberNameInUse
    else if c.id ∈ c.members.map Member.nodeID then d.refuse .clusterMemberIDInUse
    else .ok (d.addTo c.id m, .joined m,
      { op := some Tag.joinReply, clusterID := some c.id.value, clusterAttrs := some 0,
        clusterMaxSize := some c.maxSize, endPointCount := some c.epCount })

/-- GetCluster. -/
def list (D : Deps) (d : Directory) (m : Member) (msg : XLRegMsg) : Outcome :=
  match D.newBytesKey msg.clusterID with
  | some e => d.refuse e
  | none =>
    match d.byID (msg.clusterID.getD []) with
    | none => d.refuse (.other ("doGetMsg: can't find cluster with ID " ++ hexEncode (msg.clusterID.getD [])))
    | some c =>
      .ok (d, .joined m,
        { op := some Tag.clusterMembers, clusterID := some c.id.value,
          which := some ((c.listing D msg.getWhich).foldl (fun b p => D.bits.set b p.2) 0),
          tokens := (c.listing D msg.getWhich).map Prod.fst })

/-- What a request on an open visit leads to. -/
def handle (D : Deps) (d : Directory) (v : Visit) (x : Input) : Outcome :=
  match v, Request.of x.msg.getOp with
  | .left, _ => .error .indexOutOfRange
  | _, none => .error .indexOutOfRange
  | _, some .bye => .ok (d, .left, { op := some Tag.ack })
  | .new, some .member => d.identify D x
  | .known m, some .create => d.create m x
  | .known m, some .join => d.join D m none x.msg
  | .created m own, some .join => d.join D m own x.msg
  | .joined m, some .getCluster => d.list D m x.msg
  | _, some _ => d.refuse .rcvdInvalidMsgForState

end Directory

structure Visitor where
  visit : Visit := .new
  answers : List XLRegMsg := []

def Visitor.step (D : Deps) (d : Directory) (v : Visitor) (x : Input) :
    Except Abort (Directory × Visitor) :=
  if v.visit = .closed then .ok (d, v)
  else (d.handle D v.visit x).map fun r => (r.1, ⟨r.2.1, v.answers ++ [r.2.2]⟩)

def directory (D : Deps) : Parties Directory Unit Visitor Input Abort where
  start _ := {}
  step := Visitor.step D

end XlReg
