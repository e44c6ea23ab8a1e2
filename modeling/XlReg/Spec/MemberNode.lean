import XlReg.Lib.Script
import XlReg.Spec.Client
import XlReg.Spec.Strings

/-! The client's side of a whole session (memberNode.go) and the kinds of clients (user_client.go,
admin_client.go, solo_client.go, bootstrap.go). A session is a script of steps; most of them write a
request and read one answer, which may be anything. `GetAndMembers` is here a function of the answers
it gets, where Spec/Client has it in small steps together with those of the server. -/

namespace XlReg

open Text Script

/-- A node, by what a client uses of it. It has an ID in any case. -/
structure Node where
  name : String
  nodeID : NodeID
  ckPriv : RSAPrivateKey
  skPriv : RSAPrivateKey
  endPoints : List EndPoint

structure ClientDeps where
  attrAdmin : UInt64
  attrSolo : UInt64
  addEndPoint : Node → EndPoint → Except Err Node
  newRegPeer : String → NodeID → RSAPublicKey → Option RSAPublicKey → Connector → Option Err
  addPeer : Node → String → NodeID → Option Err
  signPKCS1v15 : RSAPrivateKey → Bytes → Except Err Bytes

structure ClusterMember where
  node : Node
  proposedAttrs : UInt64
  attrs : UInt64 := 0
  clusterName : String
  clusterAttrs : UInt64
  clusterID : Option NodeID
  clusterMaxSize : UInt32
  epCount : UInt32
  members : List (Option MemberInfo)
  selfIndex : ℕ := 0

/-! The constructor. -/

/-- The loop that adds `n` end points from the `i`-th on; each one overwrites the error. -/
def addEndPoints (K : ClientDeps) (endPoints : List EndPoint) :
    ℕ → ℕ → Node × Option Err → Except Abort (Node × Option Err)
  | 0, _, r => .ok r
  | n + 1, i, (node, _) =>
    match endPoints[i]? with
    | none => .error .indexOutOfRange
    | some ep =>
      match K.addEndPoint node ep with
      | .error e => addEndPoints K endPoints n (i + 1) (node, some e)
      | .ok node => addEndPoints K endPoints n (i + 1) (node, none)

def checkEndPoints (K : ClientDeps) (node : Node) (attrs : UInt64) (clusterName : String)
    (epCount : UInt32) (endPoints : List EndPoint) : Except Abort (Except Err (Node × UInt32)) :=
  if attrs &&& K.attrSolo ≠ 0 then .ok (.ok (node, epCount))
  else if clusterName = "" then .ok (.error .missingClusterNameOrID)
  else
    let epCount := if epCount < 1 then 1 else epCount
    if attrs &&& K.attrAdmin ≠ 0 then .ok (.ok (node, epCount))
    else
      let actualEPCount := UInt32.ofNat endPoints.length
      let err := if actualEPCount = 0 then some .memberMustHaveEndPoint else none
      let epCount := if actualEPCount ≠ 0 ∧ epCount > actualEPCount then actualEPCount else epCount
      match addEndPoints K endPoints epCount.toNat 0 (node, err) with
      | .error a => .error a
      | .ok (_, some e) => .ok (.error e)
      | .ok (node, none) => .ok (.ok (node, epCount))

def newMemberMaker (D : Deps) (K : ClientDeps) (node : Option Node) (attrs : UInt64) (regName : String)
    (regID : Option NodeID) (regEnd : Option EndPoint) (regCK regSK : Option RSAPublicKey)
    (clusterName : String) (clusterAttrs : UInt64) (clusterID : Option NodeID) (size epCount : UInt32)
    (endPoints : List EndPoint) : Except Abort (Except Err ClusterMember) :=
  match node with
  | none => .ok (.error .missingNode)
  | some node =>
    match regID, regEnd, regCK with
    | some regID, some regEnd, some regCK =>
      if regName = "" then .ok (.error .missingServerInfo)
      else
        match checkEndPoints K node attrs clusterName epCount endPoints with
        | .error a => .error a
        | .ok (.error e) => .ok (.error e)
        | .ok (.ok (node, epCount)) =>
          match D.newTcpConnector regEnd with
          | .error e => .ok (.error e)
          | .ok ctor =>
            match K.newRegPeer regName regID regCK regSK ctor with
            | some e => .ok (.error e)
            | none =>
              match K.addPeer node regName regID with
              | some e => .ok (.error e)
              | none => .ok (.ok { node, proposedAttrs := attrs, clusterName, clusterAttrs, clusterID,
                                   clusterMaxSize := size, epCount,
                                   members := List.replicate size.toNat none })
    | _, _, _ => .ok (.error .missingServerInfo)

/-! Requests and answers. -/

inductive ClientStep
  | openAcc
  | sessionSetup
  | memberAndOK
  | createAndReply
  | joinAndReply
  | getAndMembers
  | byeAndAck
  | persistNode
deriving DecidableEq

/-- `io.EOF`. -/
def EOF : Err := .other "EOF"

/-- What a request meets: whether it can be written, what is read after it, and the IDs that
`xi.New(nil)` draws. Reading no bytes gives a nil message, whose getters are those of an empty one. -/
structure Turn where
  write : Option Err := none
  read : Except Err (Option XLRegMsg)
  draws : ℕ → NodeID

/-- The step that asks, the client's `ClusterMaxSize` at the time, the request unless it could not
be made, and what it met. -/
structure Ask where
  step : ClientStep
  size : UInt32
  request : Option XLRegMsg
  turn : Turn

structure Client where
  cm : ClusterMember
  log : List Ask := []

abbrev Stepped := Outcome Client Abort Err

/-- The `k`-th request of a session meets `net k`. -/
def Client.ask (net : ℕ → Turn) (c : Client) (step : ClientStep) (request : Option XLRegMsg) :
    Client × Turn :=
  ({ c with log := c.log ++ [⟨step, c.cm.clusterMaxSize, request, net c.log.length⟩] }, net c.log.length)

def myEnd (ep : EndPoint) : String := (after "TcpEndPoint: " ep.string).getD ep.string

def memberToken (D : Deps) (K : ClientDeps) (cm : ClusterMember) : Except Err Token := do
  let node := cm.node
  let ckBytes ← D.rsaPubKeyToWire node.ckPriv.pub
  let skBytes ← D.rsaPubKeyToWire node.skPriv.pub
  let myEnds := node.endPoints.map myEnd
  let hash := D.sha1 (node.name.toUTF8.data.toList ++ putUint64 cm.proposedAttrs ++ ckBytes ++ skBytes ++
    myEnds.flatMap fun e => e.toUTF8.data.toList)
  let digSig ← K.signPKCS1v15 node.skPriv hash
  pure { name := some node.name, id := some node.nodeID.value, attrs := some cm.proposedAttrs,
         commsKey := some ckBytes, sigKey := some skBytes, myEnds, digSig := some digSig }

def memberRequest (D : Deps) (K : ClientDeps) (cm : ClusterMember) : Option XLRegMsg :=
  (memberToken D K cm).toOption.map fun token => { op := some Tag.member, memberSpecs := some token }

/-- An error before the answer is read is overwritten by reading it. -/
def memberAndOK (D : Deps) (K : ClientDeps) (net : ℕ → Turn) (c : Client) : Stepped :=
  let (c, t) := c.ask net .memberAndOK (memberRequest D K c.cm)
  match t.read with
  | .error e => (c, .ok (some e))
  | .ok m => ({ c with cm := { c.cm with attrs := (m.getD {}).getMemberAttrs } }, .ok none)

/-- The end of the stream is not taken for an error here. -/
def Turn.readCreate (t : Turn) : Except Err (Option XLRegMsg) :=
  match t.read with
  | .error e => if e = EOF then .ok none else .error e
  | .ok m => .ok m

def createRequest (cm : ClusterMember) : XLRegMsg :=
  { op := some Tag.create, clusterName := some cm.clusterName, clusterAttrs := some cm.clusterAttrs,
    clusterMaxSize := some cm.clusterMaxSize, endPointCount := some cm.epCount }

def createAndReply (D : Deps) (net : ℕ → Turn) (c : Client) : Stepped :=
  let (c, t) := c.ask net .createAndReply (some (createRequest c.cm))
  match t.write with
  | some e => (c, .ok (some e))
  | none =>
    match t.readCreate with
    | .error e => (c, .ok (some e))
    | .ok m =>
      let m := m.getD {}
      match xiNew D (t.draws 0) m.clusterID with
      | .error e => ({ c with cm := { c.cm with clusterID := none } }, .ok (some e))
      | .ok id =>
        ({ c with cm := { c.cm with clusterID := some id, clusterAttrs := m.getClusterAttrs,
                                    clusterMaxSize := m.getClusterMaxSize } }, .ok none)

def resized (size now : UInt32) (members : List (Option MemberInfo)) : List (Option MemberInfo) :=
  if size ≠ now then List.replicate now.toNat none else members

def joinRequest (id : NodeID) : XLRegMsg := { op := some Tag.join, clusterID := some id.value }

def joinAndReply (net : ℕ → Turn) (c : Client) : Stepped :=
  match c.cm.clusterID with
  | none => (c, .error .nilDeref)
  | some id =>
    let (c, t) := c.ask net .joinAndReply (some (joinRequest id))
    match t.write with
    | some e => (c, .ok (some e))
    | none =>
      match t.read with
      | .error e => (c, .ok (some e))
      | .ok m =>
        let m := m.getD {}
        ({ c with cm := { c.cm with
            clusterMaxSize := m.getClusterMaxSize
            members := resized c.cm.clusterMaxSize m.getClusterMaxSize c.cm.members
            epCount := m.getEndPointCount } }, .ok none)

/-! Collecting the members. -/

/-- The loop that clears the bits of filled slots, over `n` of them from the `i`-th on. -/
def clearFilled (D : Deps) (members : List (Option MemberInfo)) : ℕ → ℕ → UInt64 → Except Abort UInt64
  | 0, _, still => .ok still
  | n + 1, i, still =>
    match members[i]? with
    | none => .error .indexOutOfRange
    | some none => clearFilled D members n (i + 1) still
    | some (some _) => clearFilled D members n (i + 1) (D.bits.clear still i)

namespace MemberMaker

/-- The loop over the tokens received, over `n` slots from the `i`-th on. The slots are there: the
loop that cleared the bits has been through them. -/
def unpackAll (D : Deps) (which : UInt64) (tokens : List Token) (draws : ℕ → NodeID) :
    ℕ → ℕ → ℕ → MemberMaker → Except Abort MemberMaker
  | 0, _, _, mm => .ok mm
  | n + 1, i, offset, mm =>
    if D.bits.test which i then
      match tokens[offset]? with
      | none => .error .indexOutOfRange
      | some token =>
        unpackAll D which tokens draws n (i + 1) (offset + 1) (mm.unpack D (draws i) i token)
    else unpackAll D which tokens draws n (i + 1) offset mm

def getRequest (mm : MemberMaker) : XLRegMsg :=
  { op := some Tag.getCluster, clusterID := some mm.clusterID.value, which := some mm.stillToGet }

/-- A round from its request on, and whether the loop goes on after it. -/
def exchange (D : Deps) (mm : MemberMaker) (t : Turn) : Except Abort (MemberMaker × Bool) :=
  match t.write with
  | some e => .ok ({ mm with err := some e }, false)
  | none =>
    match t.read with
    | .error e => .ok ({ mm with err := some e }, false)
    | .ok m =>
      let m := m.getD {}
      let mm := { mm with err := none }
      if D.bits.any m.getWhich then
        match mm.unpackAll D m.getWhich m.tokens t.draws mm.clusterMaxSize.toNat 0 0 with
        | .error a => .error a
        | .ok mm => .ok (mm, D.bits.any mm.stillToGet)
      else .ok (mm, D.bits.any mm.stillToGet)

end MemberMaker

/-- The outer loop, with `n` rounds left. -/
def getRounds (D : Deps) (net : ℕ → Turn) :
    ℕ → List Ask → MemberMaker → List Ask × Except Abort MemberMaker
  | 0, log, mm => (log, .ok mm)
  | n + 1, log, mm =>
    if D.bits.any mm.stillToGet then
      match clearFilled D mm.members mm.clusterMaxSize.toNat 0 mm.stillToGet with
      | .error a => (log, .error a)
      | .ok still =>
        let mm := { mm with stillToGet := still }
        let t := net log.length
        let log := log ++ [⟨.getAndMembers, mm.clusterMaxSize, some mm.getRequest, t⟩]
        match mm.exchange D t with
        | .error a => (log, .error a)
        | .ok (mm, true) => getRounds D net n log mm
        | .ok (mm, false) => (log, .ok mm)
    else (log, .ok mm)

/-- The search for oneself, over `n` slots from the `i`-th on. -/
def findSelf (nodeID : NodeID) (members : List (Option MemberInfo)) (old : ℕ) : ℕ → ℕ → Except Abort ℕ
  | 0, _ => .ok old
  | n + 1, i =>
    match members[i]? with
    | none => .error .indexOutOfRange
    | some none => findSelf nodeID members old n (i + 1)
    | some (some mi) =>
      if mi.nodeID.value == nodeID.value then .ok i else findSelf nodeID members old n (i + 1)

def Client.lookForSelf (c : Client) : Stepped :=
  match findSelf c.cm.node.nodeID c.cm.members c.cm.selfIndex c.cm.clusterMaxSize.toNat 0 with
  | .error a => (c, .error a)
  | .ok selfIndex => ({ c with cm := { c.cm with selfIndex } }, .ok none)

def ClusterMember.maker (D : Deps) (cm : ClusterMember) (id : NodeID) : MemberMaker :=
  MemberMaker.getAndMembers D
    { nodeID := cm.node.nodeID, clusterID := id, clusterMaxSize := cm.clusterMaxSize,
      members := cm.members, selfIndex := cm.selfIndex, stillToGet := 0, pc := .returned }

/-- Without a cluster ID the first request cannot be made. -/
def getAndMembers (D : Deps) (net : ℕ → Turn) (c : Client) : Stepped :=
  match c.cm.clusterID with
  | some id =>
    match getRounds D net MAX_GET c.log (c.cm.maker D id) with
    | (log, .error a) => (⟨c.cm, log⟩, .error a)
    | (log, .ok mm) =>
      let c : Client := ⟨{ c.cm with members := mm.members }, log⟩
      match mm.err with
      | some e => (c, .ok (some e))
      | none => c.lookForSelf
  | none =>
    let size := c.cm.clusterMaxSize.toNat
    if D.bits.any (D.bits.lowNMap size) then
      match clearFilled D c.cm.members size 0 (D.bits.lowNMap size) with
      | .error a => (c, .error a)
      | .ok _ => (c, .error .nilDeref)
    else c.lookForSelf

def byeRequest : XLRegMsg := { op := some Tag.bye }

def byeAndAck (net : ℕ → Turn) (c : Client) : Stepped :=
  let (c, t) := c.ask net .byeAndAck (some byeRequest)
  match t.write with
  | some e => (c, .ok (some e))
  | none =>
    match t.read with
    | .error e => (c, .ok (some e))
    | .ok _ => (c, .ok none)

/-! The kinds of clients. -/

/-- What a client meets: what comes of opening its acceptor, of the hello exchange and of writing
its configuration, and the turns of its requests. -/
structure Surroundings where
  openAcc : Option Err := none
  sessionSetup : Option Err := none
  persistNode : Option Err := none
  net : ℕ → Turn

def ClientStep.run (D : Deps) (K : ClientDeps) (env : Surroundings) : ClientStep → Client → Stepped
  | .openAcc, c => (c, .ok env.openAcc)
  | .sessionSetup, c => (c, .ok env.sessionSetup)
  | .memberAndOK, c => XlReg.memberAndOK D K env.net c
  | .createAndReply, c => XlReg.createAndReply D env.net c
  | .joinAndReply, c => XlReg.joinAndReply env.net c
  | .getAndMembers, c => XlReg.getAndMembers D env.net c
  | .byeAndAck, c => XlReg.byeAndAck env.net c
  | .persistNode, c => (c, .ok env.persistNode)

/-- A sequence of steps; a step is taken only if those before it reported no error. -/
def runSteps (D : Deps) (K : ClientDeps) (env : Surroundings) (steps : List ClientStep) (c : Client) :
    Stepped :=
  Script.run (steps.map (ClientStep.run D K env)) c

inductive ClientKind
  | userMember
  | adminClient
  | soloMember
  | bootstrapper
deriving DecidableEq

/-- What `Start` does. Of a bootstrapper, what `JoinCluster` does: its `Start` only sends the Bye. -/
def ClientKind.steps : ClientKind → List ClientStep
  | .userMember => [.openAcc, .sessionSetup, .memberAndOK, .joinAndReply, .getAndMembers, .byeAndAck]
  | .adminClient => [.sessionSetup, .memberAndOK, .createAndReply, .byeAndAck]
  | .soloMember => [.sessionSetup, .memberAndOK, .byeAndAck, .persistNode]
  | .bootstrapper => [.sessionSetup, .memberAndOK, .joinAndReply, .getAndMembers]

/-- A run of a client. The error, if it comes to one, is what is sent on `DoneCh`. -/
def ClientKind.start (D : Deps) (K : ClientDeps) (env : Surroundings) (kind : ClientKind)
    (cm : ClusterMember) : Stepped :=
  runSteps D K env kind.steps ⟨cm, []⟩

end XlReg
