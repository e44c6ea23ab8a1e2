import XlReg.Spec.Registry

/-! The message handlers (msg_handlers.go). Each reads the message from the session's `msgIn`
and leaves its reply in `msgOut`, its error in `errOut` and the next state in `exitState`; what
it does not set keeps its old value. A handler takes the random IDs drawn while it runs. -/

namespace XlReg

/-- States through which the input cnx may pass. -/
inductive InState
  | helloRcvd
  | clientDetailsRcvd
  | createRequestRcvd
  | joinRcvd
  | byeRcvd
  | inClosed
deriving DecidableEq

structure InHandler where
  thisClient : Option ClientInfo := none
  cluster : Option Ptr := none
  entryState : InState := .helloRcvd
  exitState : InState := .helloRcvd
  msgIn : XLRegMsg := {}
  msgOut : Option XLRegMsg := none
  errOut : Option Err := none

abbrev Handler := World → InHandler → List NodeID → Except Abort (World × InHandler)

def InHandler.fail (h : InHandler) (e : Err) : InHandler := { h with errOut := some e }

def InHandler.reply (h : InHandler) (m : XLRegMsg) (s : InState) : InHandler :=
  { h with msgOut := some m, exitState := s, errOut := none }

def World.setFilter (w : World) (f : IdFilter) : World :=
  { w with reg := { w.reg with idFilter := f } }

def badCombo : Handler := fun w h _ => .ok (w, h.fail .rcvdInvalidMsgForState)

/-- `binary.LittleEndian.PutUint64`. -/
def putUint64 (x : UInt64) : Bytes :=
  (List.range 8).map fun i => (x >>> (8 * UInt64.ofNat i)).toUInt8

/-- What a Member message is signed over: its fields in canonical order, excluding the ID. -/
def signedBytes (t : Token) : Bytes :=
  t.getName.toUTF8.data.toList ++ putUint64 t.getAttrs ++ t.commsKey.getD [] ++ t.sigKey.getD [] ++
    t.myEnds.flatMap fun e => e.toUTF8.data.toList

def verifySpecs (D : Deps) (t : Token) : Except Err (RSAPublicKey × RSAPublicKey) :=
  match D.rsaPubKeyFromWire t.commsKey with
  | .error e => .error e
  | .ok ck =>
    match D.rsaPubKeyFromWire t.sigKey with
    | .error e => .error e
    | .ok sk =>
      match D.verifyPKCS1v15 sk (D.sha1 (signedBytes t)) t.digSig with
      | some e => .error e
      | none => .ok (ck, sk)

/-- The ID a client gets: a new one if it proposes none; a proposed one is inserted unless
the filter knows it. That `InsertID` finds it after all is not an error here. -/
def clientID (D : Deps) (f : IdFilter) (id : Option Bytes) (draws : List NodeID) :
    Except Abort (IdFilter × Except Err NodeID) :=
  match id with
  | none => insertUniqueNodeID D f draws
  | some b =>
    match nodeIDOf D b with
    | .error e => .ok (f, .error e)
    | .ok nodeID =>
      match containsID D f nodeID with
      | .error e => .ok (f, .error e)
      | .ok true => .ok (f, .ok nodeID)
      | .ok false =>
        match insertID D f nodeID with
        | (f, none) => .ok (f, .ok nodeID)
        | (f, some .idAlreadyInUse) => .ok (f, .ok nodeID)
        | (f, some e) => .ok (f, .error e)

def memberOK (id : NodeID) (attrs : UInt64) : XLRegMsg :=
  { op := some Tag.memberOK, memberID := some id.value, memberAttrs := some attrs }

def doClientMsg (D : Deps) : Handler := fun w h draws =>
  let specs := h.msgIn.getMemberSpecs
  match verifySpecs D specs with
  | .error e => .ok (w, h.fail e)
  | .ok (ck, sk) =>
    match clientID D w.reg.idFilter specs.id draws with
    | .error a => .error a
    | .ok (f, .error e) => .ok (w.setFilter f, h.fail e)
    | .ok (f, .ok nodeID) =>
      match newClientInfo D w.clients specs.getName nodeID ck sk specs.getAttrs specs.myEnds with
      | .error e => .ok (w.setFilter f, h.fail e)
      | .ok cm =>
        .ok ({ w.setFilter f with clients := w.clients + 1 },
          { h with thisClient := some cm }.reply (memberOK nodeID specs.getAttrs) .clientDetailsRcvd)

def clampSize (n : UInt32) : UInt32 :=
  if n < MIN_CLUSTER_SIZE then MIN_CLUSTER_SIZE
  else if n > MAX_CLUSTER_SIZE then MAX_CLUSTER_SIZE
  else n

def createReply (id : NodeID) (maxSize : UInt32) (attrs : UInt64) (epCount : UInt32) : XLRegMsg :=
  { op := some Tag.createReply, clusterID := some id.value, clusterMaxSize := some maxSize,
    clusterAttrs := some attrs, endPointCount := some epCount }

/-- Create, for a name that is not in use yet. The cluster hangs on the session before the
registry has accepted it. -/
def createNew (D : Deps) : Handler := fun w h draws =>
  let m := h.msgIn
  let maxSize := clampSize m.getClusterMaxSize
  match insertUniqueNodeID D w.reg.idFilter draws with
  | .error a => .error a
  | .ok (f, .error e) => .ok (w.setFilter f, h.fail e)
  | .ok (f, .ok clusterID) =>
    match newRegCluster D m.getClusterName clusterID 0 maxSize m.getEndPointCount with
    | .error e => .ok (w.setFilter f, h.fail e)
    | .ok rc =>
      let p := w.heap.length
      match addCluster D ((w.setFilter f).alloc rc) (some p) with
      | .error a => .error a
      | .ok (w, _, some e) => .ok (w, { h with cluster := some p }.fail e)
      | .ok (w, _, none) =>
        .ok (w, { h with cluster := some p }.reply
          (createReply clusterID maxSize m.getClusterAttrs m.getEndPointCount) .createRequestRcvd)

/-- Create: of a cluster whose name is in use only the properties are reported. -/
def doCreateMsg (D : Deps) : Handler := fun w h draws =>
  match w.reg.clustersByName.lookup h.msgIn.getClusterName with
  | none => createNew D w h draws
  | some p =>
    match w.deref p with
    | .error a => .error a
    | .ok rc =>
      .ok (w, h.reply (createReply rc.id rc.maxSize rc.attrs rc.epCount) .createRequestRcvd)

/-- The lookup of Join: the cluster variable and the outer err variable after it. On the ID
path the errors go to an inner err that shadows the outer one. -/
def joinLookup (D : Deps) (w : World) (h : InHandler) : Option Ptr × Option Err :=
  match h.msgIn.clusterID with
  | some id =>
    match newBytesKey D (some id) with
    | .error _ => (none, none)
    | .ok bKey =>
      match w.reg.clustersByID.find D bKey with
      | .ok (some p) => (some p, none)
      | .ok none => (none, none)
      | .error _ => (none, none)
  | none =>
    if h.msgIn.getClusterName = "" then
      match h.cluster with
      | some p => (some p, none)
      | none => (none, some .missingClusterNameOrID)
    else
      match w.reg.clustersByName.lookup h.msgIn.getClusterName with
      | some p => (some p, none)
      | none => (none, some .cantFindClusterByName)

def joinReply (rc : RegCluster) : XLRegMsg :=
  { op := some Tag.joinReply, clusterID := some rc.id.value, clusterAttrs := some rc.attrs,
    clusterMaxSize := some rc.maxSize, endPointCount := some rc.epCount }

/-- Join: ties the session to a cluster, by ID, by name, or the one it already has. -/
def doJoinMsg (D : Deps) : Handler := fun w h _ =>
  match h.thisClient with
  | none => .error .nilDeref
  | some client =>
    match joinLookup D w h with
    -- the error is logged together with cluster.ID
    | (none, some _) => .error .nilDeref
    | (some _, some e) => .ok (w, h.fail e)
    -- cluster.AddMember takes the lock of a nil cluster
    | (none, none) => .error .nilDeref
    | (some p, none) =>
      match w.deref p with
      | .error a => .error a
      | .ok rc =>
        match rc.addMember D client with
        | (rc', some e) => .ok (w.store p rc', h.fail e)
        | (rc', none) =>
          .ok (w.store p rc', { h with cluster := some p }.reply (joinReply rc') .joinRcvd)

structure Sending where
  tokens : List Token
  which : UInt64
deriving DecidableEq

/-- The body of the loop over the members, at index `i`; `none` is the break. -/
def getIter (D : Deps) (members : List ClientInfo) (toSend : UInt64) (i : ℕ) (acc : Sending) :
    Except Abort (Option Sending) :=
  if D.bits.test toSend i then
    match members[i]? with
    | none => .error .indexOutOfRange
    | some member =>
      match member.token D with
      | .error _ => .ok none
      | .ok t => .ok (some ⟨acc.tokens ++ [t], D.bits.set acc.which i⟩)
  else .ok (some acc)

def getLoop (D : Deps) (members : List ClientInfo) (toSend : UInt64) :
    ℕ → ℕ → Sending → Except Abort Sending
  | 0, _, acc => .ok acc
  | n + 1, i, acc =>
    match getIter D members toSend i acc with
    | .error a => .error a
    | .ok none => .ok acc
    | .ok (some acc) => getLoop D members toSend n (i + 1) acc

def getSize (rc : RegCluster) : ℕ :=
  (if rc.size > MAX_CLUSTER_SIZE then MAX_CLUSTER_SIZE else rc.size).toNat

def getReply (clusterID : Option Bytes) (s : Sending) : XLRegMsg :=
  { op := some Tag.clusterMembers, clusterID := clusterID, which := some s.which,
    tokens := s.tokens }

/-- GetCluster: the tokens of the members asked for, with a bit map of those returned. -/
def doGetMsg (D : Deps) : Handler := fun w h _ =>
  let clusterID := h.msgIn.clusterID
  let notFound := Err.other ("doGetMsg: can't find cluster with ID " ++ hexEncode (clusterID.getD []))
  match newBytesKey D clusterID with
  | .error e => .ok (w, h.fail e)
  | .ok bKey =>
    match w.reg.clustersByID.find D bKey with
    | .error _ => .ok (w, h.fail notFound)
    | .ok none => .ok (w, h.fail notFound)
    | .ok (some p) =>
      match w.deref p with
      | .error a => .error a
      | .ok rc =>
        let size := getSize rc
        let toSend := D.bits.intersection h.msgIn.getWhich (D.bits.lowNMap size)
        match getLoop D rc.members toSend size 0 ⟨[], 0⟩ with
        | .error a => .error a
        | .ok s => .ok (w, h.reply (getReply clusterID s) .joinRcvd)

def doByeMsg : Handler := fun w h _ => .ok (w, h.reply { op := some Tag.ack } .byeRcvd)

end XlReg
