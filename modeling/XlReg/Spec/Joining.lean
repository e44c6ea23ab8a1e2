import XlReg.Spec.MemberNode

/-! Clients that join one cluster and then collect its members, any number of them at a time. The
server's side of a Join is a call of `AddMember`, section by section; when it has returned without an
error the client reads the JoinReply, and goes on to `GetAndMembers`. -/

namespace XlReg

/-- A client that comes to join: what the registry knows of it, the size that it expects, and the
number of slots in its table, which are all nil. `NewMemberMaker` makes as many as that size; after a
Create they may differ. -/
structure Entrant where
  info : ClientInfo
  clusterMaxSize : UInt32
  slots : ℕ
deriving DecidableEq

/-- A client whose Join is at the server, or one that has read the JoinReply, with the largest size
of the cluster at which the server has taken a request of it since (which no step reads). -/
inductive Joiner
  | adding (c : Call) (e : Entrant)
  | getting (mm : MemberMaker) (served : ℕ)
deriving DecidableEq

/-- `JoinAndReply` after the reply, and the call of `GetAndMembers`. -/
def Entrant.joined (D : Deps) (rc : RegCluster) (e : Entrant) : MemberMaker :=
  MemberMaker.getAndMembers D
    { nodeID := e.info.nodeID, clusterID := rc.id, clusterMaxSize := rc.maxSize,
      members := resized e.clusterMaxSize rc.maxSize (List.replicate e.slots none),
      stillToGet := 0, pc := .returned }

/-- The server reads the size of the cluster when it takes a request. -/
def MemberMaker.servedAt (rc : RegCluster) (mm : MemberMaker) (x : Chance) (served : ℕ) : ℕ :=
  match mm.pc, x.failure with
  | .requested _, none => max served (getSize rc)
  | _, _ => served

/-- A Join that has been refused, and a call that has returned, take no more steps. -/
def joining (D : Deps) : Parties RegCluster Entrant Joiner Chance Abort where
  start e := .adding ⟨e.info, .nameLookup⟩ e
  step rc p x :=
    match p with
    | .adding c e =>
      match c.phase with
      | .returned none => .ok (rc, .getting (e.joined D rc) 0)
      | _ => .ok ((callStep D rc c).1, .adding (callStep D rc c).2 e)
    | .getting mm served =>
      if mm.pc = .returned then .ok (rc, .getting mm served)
      else
        match mm.step D rc x with
        | .error a => .error a
        | .ok mm' => .ok (rc, .getting mm' (mm.servedAt rc x served))

end XlReg
