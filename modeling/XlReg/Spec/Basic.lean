import Mathlib

/-! The registry's data: byte strings, node IDs, keys, the errors it reports and the
messages of its protocol. Optional protobuf fields are `Option`s; `none` is an absent field
or a nil slice, which the code tells apart from an empty one. -/

namespace XlReg

abbrev Bytes := List UInt8

/-- A NodeID: a 20- or 32-byte value. -/
structure NodeID where
  value : Bytes
  valid : value.length = 20 ∨ value.length = 32
deriving DecidableEq

theorem NodeID.value_inj {a b : NodeID} : a.value = b.value ↔ a = b := by
  cases a; cases b; simp

structure RSAPublicKey where
  n : ℕ
  e : ℕ
deriving DecidableEq

/-- The errors of the registry that the modelled code returns, those of the packages it
calls, and those it makes on the spot, as `other` with their text. -/
inductive Err
  | badAttrsLine
  | cantFindClusterByName
  | clusterMemberIDInUse
  | clusterMembersMustHaveEndPoint
  | clusterMemberNameInUse
  | clusterMustHaveMember
  | idAlreadyInUse
  | illFormedCluster
  | illFormedRegCred
  | memberMustHaveEndPoint
  | missingClosingBrace
  | missingClusterNameOrID
  | missingEndPointsSection
  | missingMembersList
  | missingNode
  | missingPrivateKey
  | missingRegNodeLine
  | missingServerInfo
  | nameAlreadyInUse
  | nilCluster
  | nilNode
  | nilRegNode
  | nilToken
  | rcvdInvalidMsgForState
  | tagOutOfRange
  | wrongNumberOfBytesInAttrs
  | other (text : String)
deriving DecidableEq

/-- `err.Error()`. -/
def Err.text : Err → String
  | badAttrsLine => "badly formed attrs line"
  | cantFindClusterByName => "cannot find cluster with this name"
  | clusterMemberIDInUse => "cluster member id already in use"
  | clusterMembersMustHaveEndPoint => "cluster members must have at least one endPoint"
  | clusterMemberNameInUse => "cluster member name already in use"
  | clusterMustHaveMember => "cluster must have a member!"
  | idAlreadyInUse => "ID already in use"
  | illFormedCluster => "ill-formed cluster serialization"
  | illFormedRegCred => "ill-formed regCred serialization"
  | memberMustHaveEndPoint => "member must have at least one endPoint"
  | missingClosingBrace => "missing closing brace"
  | missingClusterNameOrID => "missing cluster name or ID"
  | missingEndPointsSection => "missing endPoints section"
  | missingMembersList => "missing members list"
  | missingNode => "missing node parameter"
  | missingPrivateKey => "missing private key line"
  | missingRegNodeLine => "missing regNode line"
  | missingServerInfo => "missing server info"
  | nameAlreadyInUse => "name already in use"
  | nilCluster => "nil cluster argument"
  | nilNode => "nil node argument"
  | nilRegNode => "nil RegNode argument"
  | nilToken => "nil XLRegMsg_Token argument"
  | rcvdInvalidMsgForState => "invalid msg type for current state"
  | tagOutOfRange => "message tag out of range"
  | wrongNumberOfBytesInAttrs => "wrong number of bytes in attrs"
  | other text => text

/-- Why a handler does not come back. The two panics end the server; `drawing` is a loop
that wants more random IDs than it was given. -/
inductive Abort
  | indexOutOfRange
  | nilDeref
  | drawing
deriving DecidableEq

def MAX_CLUSTER_SIZE : UInt32 := 64
def MIN_CLUSTER_SIZE : UInt32 := 2

/-- `hex.EncodeToString`. -/
def hexEncode (b : Bytes) : String :=
  String.ofList (b.flatMap fun x => [Nat.digitChar (x.toNat / 16), Nat.digitChar (x.toNat % 16)])

structure Token where
  name : Option String := none
  attrs : Option UInt64 := none
  id : Option Bytes := none
  commsKey : Option Bytes := none
  sigKey : Option Bytes := none
  myEnds : List String := []
  digSig : Option Bytes := none
deriving DecidableEq

/-! The values of `XLRegMsg_Tag`, an int32 on the wire: any other value may arrive too. -/

def Tag.regCredRequest : Int32 := 1
def Tag.member : Int32 := 3
def Tag.memberOK : Int32 := 4
def Tag.create : Int32 := 5
def Tag.createReply : Int32 := 6
def Tag.join : Int32 := 7
def Tag.joinReply : Int32 := 8
def Tag.getCluster : Int32 := 9
def Tag.clusterMembers : Int32 := 10
def Tag.bye : Int32 := 11
def Tag.ack : Int32 := 12
def Tag.error : Int32 := 13

structure XLRegMsg where
  op : Option Int32 := none
  memberID : Option Bytes := none
  memberAttrs : Option UInt64 := none
  memberSpecs : Option Token := none
  clusterID : Option Bytes := none
  clusterName : Option String := none
  clusterMaxSize : Option UInt32 := none
  clusterAttrs : Option UInt64 := none
  endPointCount : Option UInt32 := none
  which : Option UInt64 := none
  tokens : List Token := []
  errDesc : Option String := none
deriving DecidableEq

/-! The generated getters. Those of a nil token give what those of an empty one give. -/

def XLRegMsg.getOp (m : XLRegMsg) : Int32 := m.op.getD Tag.regCredRequest
def XLRegMsg.getMemberSpecs (m : XLRegMsg) : Token := m.memberSpecs.getD {}
def XLRegMsg.getMemberAttrs (m : XLRegMsg) : UInt64 := m.memberAttrs.getD 0
def XLRegMsg.getClusterName (m : XLRegMsg) : String := m.clusterName.getD ""
def XLRegMsg.getClusterMaxSize (m : XLRegMsg) : UInt32 := m.clusterMaxSize.getD 0
def XLRegMsg.getClusterAttrs (m : XLRegMsg) : UInt64 := m.clusterAttrs.getD 0
def XLRegMsg.getEndPointCount (m : XLRegMsg) : UInt32 := m.endPointCount.getD 0
def XLRegMsg.getWhich (m : XLRegMsg) : UInt64 := m.which.getD 0

def Token.getName (t : Token) : String := t.name.getD ""
def Token.getAttrs (t : Token) : UInt64 := t.attrs.getD 0

end XlReg
