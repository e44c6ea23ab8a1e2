import XlReg.Spec.Joins
import XlReg.Spec.Server

/-! The client's side of GetCluster (memberNode.go, member_info.go). `GetAndMembers` polls the
registry until it has all members or gives up. It runs here in small steps, with those of the
server's `doGetMsg` in between, so that Joins may fall anywhere: the server reads the size of the
cluster under its lock, and then each member without it. -/

namespace XlReg

structure MemberInfo where
  attrs : UInt64
  name : String
  nodeID : NodeID
  commsPubKey : RSAPublicKey
  sigPubKey : RSAPublicKey
  connectors : List Connector
deriving DecidableEq

/-- The loop that makes connectors; it stops at the first error. -/
def newConnectors (D : Deps) : List String → Except Err (List Connector)
  | [] => .ok []
  | myEnd :: myEnds =>
    match D.newTcpEndPoint myEnd with
    | .error e => .error e
    | .ok farEnd =>
      match D.newTcpConnector farEnd with
      | .error e => .error e
      | .ok ctor => (newConnectors D myEnds).map (ctor :: ·)

/-- Without an ID in the token, `xi.New` draws one. -/
def newMemberInfoFromToken (D : Deps) (draw : NodeID) (token : Option Token) :
    Except Err MemberInfo :=
  match token with
  | none => .error .nilToken
  | some token =>
    match xiNew D draw token.id with
    | .error e => .error e
    | .ok nodeID =>
      match D.rsaPubKeyFromWire token.commsKey with
      | .error e => .error e
      | .ok ck =>
        match D.rsaPubKeyFromWire token.sigKey with
        | .error e => .error e
        | .ok sk =>
          match newConnectors D token.myEnds with
          | .error e => .error e
          | .ok ctors =>
            match D.newPeer token.getName nodeID ck sk ctors with
            | some e => .error e
            | none => .ok ⟨token.getAttrs, token.getName, nodeID, ck, sk, ctors⟩

def MAX_GET : ℕ := 32

inductive Progress
  /-- The head of the outer loop, at a count. -/
  | head (count : ℕ)
  /-- The loop that clears the bits of filled slots. -/
  | clearing (count i : ℕ)
  /-- Before the request is written, and when it is at the server. -/
  | request (count : ℕ)
  | requested (count : ℕ)
  /-- The server's loop over its members. -/
  | serving (count : ℕ) (whichToSend : UInt64) (size i : ℕ) (sent : Sending)
  /-- Before the response is read. -/
  | response (count : ℕ) (msg : XLRegMsg)
  /-- The loop over the tokens received. -/
  | unpacking (count : ℕ) (which : UInt64) (tokens : List Token) (i offset : ℕ)
  | returned
deriving DecidableEq

/-- The fields of a `MemberMaker` that `GetAndMembers` uses, and its variables. -/
structure MemberMaker where
  nodeID : NodeID
  clusterID : NodeID
  clusterMaxSize : UInt32
  members : List (Option MemberInfo)
  selfIndex : ℕ := 0
  stillToGet : UInt64
  err : Option Err := none
  pc : Progress
deriving DecidableEq

/-- The index of the slot that has the client's own ID, or the old value if there is none. -/
def selfIndexIn (nodeID : NodeID) (slots : List (Option MemberInfo)) (old : ℕ) : ℕ :=
  (slots.findIdx? fun mi => mi.any fun mi => mi.nodeID.value == nodeID.value).getD old

/-- What a step meets: the ID that `xi.New(nil)` would draw, and possibly a failure of the
connection or of the server's lookup of the cluster. -/
structure Chance where
  draw : NodeID
  failure : Option Err := none

namespace MemberMaker

/-- The call of `GetAndMembers`, up to the outer loop. -/
def getAndMembers (D : Deps) (mm : MemberMaker) : MemberMaker :=
  { mm with stillToGet := D.bits.lowNMap mm.clusterMaxSize.toNat, err := none, pc := .head 0 }

def new (D : Deps) (nodeID clusterID : NodeID) (maxSize : UInt32) : MemberMaker :=
  getAndMembers D { nodeID := nodeID, clusterID := clusterID, clusterMaxSize := maxSize,
                    members := List.replicate maxSize.toNat none, stillToGet := 0, pc := .returned }

/-- After the outer loop: without an error, look for oneself among the members. -/
def finish (mm : MemberMaker) : MemberMaker :=
  match mm.err with
  | some _ => { mm with pc := .returned }
  | none =>
    { mm with
      pc := .returned
      selfIndex := selfIndexIn mm.nodeID (mm.members.take mm.clusterMaxSize.toNat) mm.selfIndex }

def endLoop (D : Deps) (mm : MemberMaker) (count : ℕ) : MemberMaker :=
  if D.bits.any mm.stillToGet then { mm with pc := .head (count + 1) } else mm.finish

/-- A token received for slot `i`: a failure to decode it leaves the slot nil and its bit set. -/
def unpack (D : Deps) (mm : MemberMaker) (draw : NodeID) (i : ℕ) (token : Token) : MemberMaker :=
  match newMemberInfoFromToken D draw (some token) with
  | .error e => { mm with members := mm.members.set i none, err := some e }
  | .ok mi => { mm with members := mm.members.set i (some mi), err := none,
                        stillToGet := D.bits.clear mm.stillToGet i }

def answered (mm : MemberMaker) (count : ℕ) (sent : Sending) : MemberMaker :=
  { mm with pc := .response count (getReply (some mm.clusterID.value) sent) }

/-- One step, of the client or of the server for it. A call that has returned is made again. -/
def step (D : Deps) (rc : RegCluster) (mm : MemberMaker) (x : Chance) : Except Abort MemberMaker :=
  match mm.pc with
  | .head count =>
    if count < MAX_GET ∧ D.bits.any mm.stillToGet then .ok { mm with pc := .clearing count 0 }
    else .ok mm.finish
  | .clearing count i =>
    if i < mm.clusterMaxSize.toNat then
      match mm.members[i]? with
      | none => .error .indexOutOfRange
      | some none => .ok { mm with pc := .clearing count (i + 1) }
      | some (some _) =>
        .ok { mm with stillToGet := D.bits.clear mm.stillToGet i, pc := .clearing count (i + 1) }
    else .ok { mm with pc := .request count }
  | .request count =>
    match x.failure with
    | some e => .ok { mm with err := some e }.finish
    | none => .ok { mm with err := none, pc := .requested count }
  | .requested count =>
    match x.failure with
    | some e => .ok { mm with pc := .response count (errorMsg e) }
    | none =>
      let size := getSize rc
      let whichToSend := D.bits.intersection mm.stillToGet (D.bits.lowNMap size)
      .ok { mm with pc := .serving count whichToSend size 0 ⟨[], 0⟩ }
  | .serving count whichToSend size i sent =>
    if i < size then
      match getIter D rc.members whichToSend i sent with
      | .error a => .error a
      | .ok none => .ok (mm.answered count sent)
      | .ok (some sent) => .ok { mm with pc := .serving count whichToSend size (i + 1) sent }
    else .ok (mm.answered count sent)
  | .response count msg =>
    match x.failure with
    | some e => .ok { mm with err := some e }.finish
    | none =>
      if D.bits.any msg.getWhich then
        .ok { mm with err := none, pc := .unpacking count msg.getWhich msg.tokens 0 0 }
      else .ok (endLoop D { mm with err := none } count)
  | .unpacking count which tokens i offset =>
    if i < mm.clusterMaxSize.toNat then
      if D.bits.test which i then
        match tokens[offset]? with
        | none => .error .indexOutOfRange
        | some token =>
          .ok { mm.unpack D x.draw i token with pc := .unpacking count which tokens (i + 1) (offset + 1) }
      else .ok { mm with pc := .unpacking count which tokens (i + 1) offset }
    else .ok (endLoop D mm count)
  | .returned => .ok (getAndMembers D mm)

end MemberMaker

/-- One cluster, with any number of calls of `AddMember` and any number of clients that poll it,
each of which knows its ID and maximum size. -/
def polling (D : Deps) (clusterID : NodeID) (maxSize : UInt32) :
    Parties RegCluster (ClientInfo ⊕ NodeID) (Call ⊕ MemberMaker) Chance Abort where
  start
    | .inl m => .inl ⟨m, .nameLookup⟩
    | .inr nodeID => .inr (MemberMaker.new D nodeID clusterID maxSize)
  step rc p x :=
    match p with
    | .inl c => .ok ((callStep D rc c).1, .inl (callStep D rc c).2)
    | .inr mm =>
      match mm.step D rc x with
      | .error a => .error a
      | .ok mm => .ok (rc, .inr mm)

end XlReg
