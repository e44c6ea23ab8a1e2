import XlReg.Spec.MemberNode
import XlReg.Spec.Tokens

/-! The constructors of the kinds of clients (user_client.go, admin_client.go, bootstrap.go,
solo_client.go). The object that each of them makes is the client's `MemberMaker`. -/

namespace XlReg

/-- What the constructors use of packages outside the repository, besides `Deps` and `ClientDeps`. -/
structure NodeDeps where
  attrEphemeral : UInt64
  /-- `xn.New`, without end points, peers and overlays. -/
  newNode : String → NodeID → String → Option RSAPrivateKey → Option RSAPrivateKey → Except Err Node
  /-- `xn.NewNew`. -/
  newNewNode : String → NodeID → String → Except Err Node

/-- The blocks in which the node and then the client is made: each declares an `err` of its own, so
that the caller gets the one from before them, which is nil. -/
def madeInside (node : Except Err Node) (make : Option Node → Except Abort (Except Err ClusterMember)) :
    Except Abort (Returned ClusterMember) :=
  match node with
  | .error _ => .ok (none, none)
  | .ok node =>
    match make (some node) with
    | .error a => .error a
    | .ok (.error _) => .ok (none, none)
    | .ok (.ok mn) => .ok (some mn, none)

section Constructors

variable (D : Deps) (K : ClientDeps) (N : NodeDeps) (draw : Except Err NodeID)

/-- `draw` is what comes of `xi.New(nil)`. -/
def newUserMember (name lfs : String) (ckPriv skPriv : Option RSAPrivateKey)
    (serverName : String) (serverID : Option NodeID) (serverEnd : Option EndPoint)
    (serverCK serverSK : Option RSAPublicKey) (clusterName : String) (clusterAttrs : UInt64)
    (clusterID : Option NodeID) (size epCount : UInt32) (e : List EndPoint) :
    Except Abort (Returned ClusterMember) :=
  match draw with
  | .error err => .ok (none, some err)
  | .ok nodeID =>
    let attrs := if lfs = "" then N.attrEphemeral else 0
    madeInside (N.newNode name nodeID lfs ckPriv skPriv) fun node =>
      newMemberMaker D K node attrs serverName serverID serverEnd serverCK serverSK clusterName
        clusterAttrs clusterID size epCount e

/-- The new ID is printed before the error is looked at. -/
def newAdminClient (serverName : String) (serverID : Option NodeID) (serverEnd : Option EndPoint)
    (serverCK serverSK : Option RSAPublicKey) (clusterName : String) (clusterAttrs : UInt64)
    (size epCount : UInt32) (e : List EndPoint) : Except Abort (Returned ClusterMember) :=
  match draw with
  | .error _ => .error .nilDeref
  | .ok nodeID =>
    madeInside (N.newNewNode "admin" nodeID "") fun node =>
      newMemberMaker D K node (K.attrAdmin ||| K.attrSolo ||| N.attrEphemeral) serverName serverID
        serverEnd serverCK serverSK clusterName clusterAttrs none size epCount e

def newBootstrapper (name lfs : String) (attrs : UInt64)
    (serverName : String) (serverID : Option NodeID) (serverEnd : Option EndPoint)
    (serverCK serverSK : Option RSAPublicKey) (clusterName : String) (clusterAttrs : UInt64)
    (clusterID : Option NodeID) (size epCount : UInt32) (e : List EndPoint) :
    Except Abort (Returned ClusterMember) :=
  let attrs := if lfs = "" then attrs ||| N.attrEphemeral else attrs
  match draw with
  | .error err => .ok (none, some err)
  | .ok nodeID =>
    madeInside (N.newNewNode name nodeID lfs) fun node =>
      newMemberMaker D K node attrs serverName serverID serverEnd serverCK serverSK clusterName
        clusterAttrs clusterID size epCount e

end Constructors

/-- This one gets its node ready made, and declares no second `err`. -/
def newSoloMember (D : Deps) (K : ClientDeps) (node : Option Node) (serverName : String)
    (serverID : Option NodeID) (serverEnd : Option EndPoint) (serverCK serverSK : Option RSAPublicKey)
    (e : List EndPoint) : Except Abort (Returned ClusterMember) :=
  match newMemberMaker D K node K.attrSolo serverName serverID serverEnd serverCK serverSK "" 0 none 0
      (UInt32.ofNat e.length) e with
  | .error a => .error a
  | .ok (.error err) => .ok (none, some err)
  | .ok (.ok cn) => .ok (some cn, none)

end XlReg
