import XlReg.Lib.Lines
import XlReg.Spec.Startup

/-! Records as text (clientInfo.go, reg_cluster.go, reg_cred.go, reg_node.go). `Strings` gives the
lines of a record; a parser takes them off a list of lines and hands on the rest. Every line is
read through `xc.NextNBLine`, except that the loops first peek at `rest[0]`. -/

namespace XlReg

open Text Lines Lines.Parser

/-- What a client's record has of the package `xlNode_go`. -/
structure BaseNode where
  name : String
  nodeID : NodeID
  commsPubKey : RSAPublicKey
  sigPubKey : RSAPublicKey
deriving DecidableEq

structure RSAPrivateKey where
  pub : RSAPublicKey
  d : ℕ
deriving DecidableEq

/-- What reading and writing texts uses of packages outside the repository. Their parsers return
what they left of the lines they were given. -/
structure Texts where
  /-- What `xc.NextNBLine` reports when no non-blank line is left. -/
  exhausted : Err
  /-- What `hex.DecodeString` and the functions of `strconv` report. -/
  hexError : String → Err
  numError : String → Err
  baseNodeStrings : BaseNode → List String
  parseBNFromStrings : String → List String → Except Err (BaseNode × List String)
  parseBN_le : ∀ whichType ss bn rest, parseBNFromStrings whichType ss = .ok (bn, rest) →
    rest.length ≤ ss.length
  rsaPubKeyFromDisk : String → Except Err RSAPublicKey
  parseNodeFromStrings : List String → Except Err (RegNode × List String)
  expectRSAPrivateKey : List String → Except Err (RSAPrivateKey × List String)
  openAcc : RegNode → Option Err
  getAcceptor : RegNode → Option Unit
  acceptorNotLive : Err

abbrev Parse (α : Type) := Parser Err Abort α

def Texts.nextNBLine (T : Texts) : Parse String := next T.exhausted

def Texts.closingBrace (T : Texts) : Parse Unit := expect T.exhausted .missingClosingBrace "\x7d"

def Texts.hexDecodeString (T : Texts) (s : String) : Except Err Bytes :=
  match decodeHex s.toList with
  | some b => .ok b
  | none => .error (T.hexError s)

/-- `strconv`: a numeral whose value fits into an int64. -/
def Texts.int64 (T : Texts) (s : String) (value : Option ℤ) : Except Err ℤ :=
  match value with
  | none => .error (T.numError s)
  | some i => if -2 ^ 63 ≤ i ∧ i < 2 ^ 63 then .ok i else .error (T.numError s)

/-- `strconv.ParseInt(s, 0, 64)`, as it is before Go 1.13: no `0b`, no `0o` and no underscores. -/
def Texts.parseInt (T : Texts) (s : String) : Except Err ℤ :=
  T.int64 s (signed basedMagnitude s.toList)

/-- `strconv.Atoi`, with an int of 64 bits. -/
def Texts.atoi (T : Texts) (s : String) : Except Err ℤ := T.int64 s (signed (magnitude 10) s.toList)

/-- `fmt.Sprintf("%016x", x)`. -/
def hex16 (x : UInt64) : String := String.ofList (hexDigits 16 x.toNat)

theorem hexEncode_toList (b : Bytes) : (hexEncode b).toList = b.flatMap hexByte := by
  rw [hexEncode, String.toList_ofList]
  rfl

theorem mem_hexEncode {b : Bytes} {c : Char} (h : c ∈ (hexEncode b).toList) :
    ∃ d < 16, c = Nat.digitChar d := by
  rw [hexEncode_toList, List.mem_flatMap] at h
  obtain ⟨x, -, hx⟩ := h
  have hlt : x.toNat < 256 := x.toNat_lt
  simp only [hexByte, List.mem_cons, List.not_mem_nil, or_false] at hx
  rcases hx with rfl | rfl
  · exact ⟨_, by omega, rfl⟩
  · exact ⟨_, by omega, rfl⟩

theorem trimmed_hexEncode (b : Bytes) (h : b ≠ []) : Trimmed (hexEncode b) := by
  apply trimmed_of_no_space
  · intro heq
    have hl := congrArg String.toList heq
    rw [hexEncode_toList] at hl
    cases b with
    | nil => exact h rfl
    | cons x b => simp [hexByte] at hl
  · intro c hc
    obtain ⟨d, hd, rfl⟩ := mem_hexEncode hc
    exact isSpace_digitChar hd

theorem trimmed_hex16 (a : UInt64) : Trimmed (hex16 a) := by
  apply trimmed_of_no_space
  · intro h
    have hlen := congrArg String.toList h
    simp [hex16, hexDigits] at hlen
  · intro c hc
    rw [hex16, String.toList_ofList] at hc
    obtain ⟨d, hd, rfl⟩ := mem_hexDigits hc
    exact isSpace_digitChar hd

/-! Clients. -/

def ClientInfo.baseNode (mi : ClientInfo) : BaseNode :=
  ⟨mi.name, mi.nodeID, mi.commsPubKey, mi.sigPubKey⟩

/-- A nil `MyEnds` is the empty list; there is no other one. -/
def ClientInfo.equal (mi other : ClientInfo) : Bool :=
  mi.attrs == other.attrs && mi.myEnds == other.myEnds && mi.baseNode == other.baseNode

def ClientInfo.strings (T : Texts) (mi : ClientInfo) : List String :=
  ["clientInfo \x7b"] ++ (T.baseNodeStrings mi.baseNode).map ("    " ++ ·) ++
    ["    attrs: 0x" ++ hex16 mi.attrs, "    endPoints \x7b"] ++ mi.myEnds.map ("        " ++ ·) ++
    ["    \x7d", "\x7d"]

/-- The bytes shifted into a word, the first one highest. -/
def orBytes : List UInt8 → UInt64 → UInt64
  | [], attrs => attrs
  | v :: val, attrs => orBytes val (attrs ||| v.toUInt64 <<< UInt64.ofNat (8 * val.length))

def collectClientAttrs (T : Texts) : Parse UInt64 := do
  let line ← T.nextNBLine
  match after "attrs: 0x" line with
  | none => fail .badAttrsLine
  | some digits =>
    let val ← ofExcept (T.hexDecodeString digits)
    if val.length ≠ 8 then fail .wrongNumberOfBytesInAttrs else pure (orBytes val 0)

/-- A round of the loop over the end points. It does not leave the loop on an error. -/
def collectEnd (T : Texts) (ends : List String × Option Err) : Parse (List String × Option Err) :=
  fun rest =>
    match T.nextNBLine rest with
    | .ok line rest => .ok (ends.1 ++ [line], none) rest
    | .error e => .ok (ends.1, some e) []
    | .fault x => .fault x

def collectMyEnds (T : Texts) : Parse (List String) := do
  let line ← T.nextNBLine
  if line = "endPoints \x7b" then
    let (ends, err) ← loop .indexOutOfRange "\x7d" (collectEnd T) ([], none)
    match err with
    | some e => fail e
    | none =>
      T.closingBrace
      pure ends
  else fail .missingEndPointsSection

/-- The record is made at `addr`. -/
def parseClientInfoFromStrings (T : Texts) (addr : ℕ) : Parse ClientInfo := do
  let bn ← lift (T.parseBNFromStrings "clientInfo")
  let attrs ← collectClientAttrs T
  let ends ← collectMyEnds T
  T.closingBrace
  pure ⟨addr, bn.name, bn.nodeID, bn.commsPubKey, bn.sigPubKey, attrs, ends⟩

/-! Clusters. -/

namespace RegCluster

def equal (rc other : RegCluster) : Bool :=
  rc.attrs == other.attrs && rc.name == other.name && rc.id == other.id &&
    rc.epCount == other.epCount && rc.maxSize == other.maxSize && rc.size == other.size &&
    (List.range rc.size.toNat).all fun i =>
      match rc.members[i]?, other.members[i]? with
      | some a, some b => a.equal b
      | _, _ => false

def strings (T : Texts) (rc : RegCluster) : List String :=
  ["regCluster \x7b",
    "    Attrs: 0x" ++ hex16 rc.attrs,
    "    Name: " ++ rc.name,
    "    ID: " ++ hexEncode rc.id.value,
    "    epCount: " ++ toString rc.epCount.toNat,
    "    maxSize: " ++ toString rc.maxSize.toNat,
    "    Members \x7b"] ++
    rc.members.flatMap (fun mi => (mi.strings T).map ("        " ++ ·)) ++
    ["    \x7d", "\x7d"]

end RegCluster

/-- A line of a cluster's text: what follows the tag is read, another line is ill-formed. -/
def clusterLine {α : Type} (T : Texts) (tag : String) (read : String → Except Err α) : Parse α := do
  let line ← T.nextNBLine
  match after tag line with
  | none => fail .illFormedCluster
  | some s => ofExcept (read s)

/-- `hex.DecodeString`, whose result is never nil, then `xi.New`. -/
def Texts.nodeID (D : Deps) (T : Texts) (s : String) : Except Err NodeID := do
  let val ← T.hexDecodeString s
  nodeIDOf D val

def clusterAttrs (T : Texts) : Parse UInt64 :=
  clusterLine T "Attrs: " fun s => (T.parseInt s).map UInt64.ofInt

def clusterName (T : Texts) : Parse String := clusterLine T "Name: " .ok

def clusterID (D : Deps) (T : Texts) : Parse NodeID := clusterLine T "ID: " (T.nodeID D)

def clusterEpCount (T : Texts) : Parse UInt32 :=
  clusterLine T "epCount: " fun s => (T.atoi s).map UInt32.ofInt

def clusterMaxSize (T : Texts) : Parse UInt32 :=
  clusterLine T "maxSize: " fun s => (T.atoi s).map UInt32.ofInt

/-- A round of the loop over the members. The record of a member is made after those of the
members before it. -/
def collectMember (D : Deps) (T : Texts) (addr : ℕ) (rc : RegCluster) : Parse RegCluster := do
  let member ← parseClientInfoFromStrings T (addr + rc.members.length)
  match rc.addMember D member with
  | (rc, none) => pure rc
  | (_, some e) => fail e

def clusterHead (D : Deps) (T : Texts) : Parse RegCluster := do
  expect T.exhausted .illFormedCluster "regCluster \x7b"
  let attrs ← clusterAttrs T
  let name ← clusterName T
  let id ← clusterID D T
  let epCount ← clusterEpCount T
  let maxSize ← clusterMaxSize T
  ofExcept (newRegCluster D name id attrs maxSize epCount)

def parseRegClusterFromStrings (D : Deps) (T : Texts) (addr : ℕ) : Parse RegCluster := do
  let rc ← clusterHead D T
  expect T.exhausted .missingMembersList "Members \x7b"
  let rc ← loop .indexOutOfRange "\x7d" (collectMember D T addr) rc
  T.closingBrace
  T.closingBrace
  pure rc

/-! Credentials. -/

/-- `strings.Split(line, ": ")`. -/
def parts (line : String) : List String := (splitPair ':' ' ' line.toList).map String.ofList

/-- What `line` has after `tag`, if it consists of these two parts. -/
def credValue (tag line : String) : Except Err String :=
  match parts line with
  | [t, v] => if t = tag then .ok v else .error .illFormedRegCred
  | _ => .error .illFormedRegCred

/-- A line of a credential's text. -/
def credLine {α : Type} (T : Texts) (tag : String) (read : String → Except Err α) : Parse α := do
  let line ← T.nextNBLine
  let v ← ofExcept (credValue tag line)
  ofExcept (read v)

/-- `strings.TrimLeft(s, " \t")`. -/
def trimLeftBlanks (s : String) : String :=
  String.ofList (s.toList.dropWhile fun c => c == ' ' || c == '\t')

def credName (T : Texts) : Parse String := credLine T "Name" fun v => .ok (trimLeftBlanks v)

def credID (D : Deps) (T : Texts) : Parse NodeID := credLine T "ID" (T.nodeID D)

def credCommsPubKey (T : Texts) : Parse RSAPublicKey := credLine T "CommsPubKey" T.rsaPubKeyFromDisk

def credSigPubKey (T : Texts) : Parse RSAPublicKey := credLine T "SigPubKey" T.rsaPubKeyFromDisk

def credVersion (H : Host) (T : Texts) : Parse DecimalVersion :=
  credLine T "Version" H.parseDecimalVersion

/-- A round of the loop over the end points. -/
def collectEndPoint (D : Deps) (T : Texts) (e : List EndPoint) : Parse (List EndPoint) := do
  let line ← T.nextNBLine
  let v ← ofExcept (credValue "TcpEndPoint" (trimSpace line))
  let ep ← ofExcept (D.newTcpEndPoint v)
  pure (e ++ [ep])

/-- The lines from the first one to that which opens the section of the end points. -/
def credHead (D : Deps) (T : Texts) : Parse (String × NodeID × RSAPublicKey × RSAPublicKey) := do
  expect T.exhausted .illFormedRegCred "regCred \x7b"
  let name ← credName T
  let nodeID ← credID D T
  let ck ← credCommsPubKey T
  let sk ← credSigPubKey T
  expect T.exhausted .missingEndPointsSection "EndPoints \x7b"
  pure (name, nodeID, ck, sk)

/-- Nothing is read after the version. -/
def parseRegCredLines (D : Deps) (H : Host) (T : Texts) : Parse RegCred := do
  let (name, nodeID, ck, sk) ← credHead D T
  let e ← loop .indexOutOfRange "\x7d" (collectEndPoint D T) []
  T.closingBrace
  let version ← credVersion H T
  pure ⟨name, nodeID, ck, sk, e, version⟩

def parseRegCred (D : Deps) (H : Host) (T : Texts) (s : String) : Except Abort (Except Err RegCred) :=
  match parseRegCredLines D H T (linesOf s) with
  | .ok rc _ => .ok (.ok rc)
  | .error e => .ok (.error e)
  | .fault a => .error a

/-! The registry's node. -/

/-- A `RegNode` with its private keys and an open acceptor. -/
structure LiveRegNode where
  node : RegNode
  ckPriv : RSAPrivateKey
  skPriv : RSAPrivateKey

def newRegNode (T : Texts) (node : Option RegNode) (commsKey sigKey : RSAPrivateKey) :
    Except Err LiveRegNode :=
  match node with
  | none => .error .nilNode
  | some node =>
    match T.getAcceptor node with
    | none => .error T.acceptorNotLive
    | some _ => .ok ⟨node, commsKey, sigKey⟩

/-- A line that announces a private key, and the key. The second part of the line is looked at
only if the first is the tag, and then without asking whether there is one. -/
def privateKey (T : Texts) (tag : String) : Parse RSAPrivateKey := do
  let line ← T.nextNBLine
  if (parts line)[0]? = some tag then
    match (parts line)[1]? with
    | none => fun _ => .fault .indexOutOfRange
    | some v =>
      if v = "-----BEGIN -----" then lift T.expectRSAPrivateKey else fail .missingPrivateKey
  else fail .missingPrivateKey

/-- The lines after the first one. -/
def regNodeBody (T : Texts) : Parse LiveRegNode := do
  let node ← lift T.parseNodeFromStrings
  let ckPriv ← privateKey T "ckPriv"
  let skPriv ← privateKey T "skPriv"
  T.closingBrace
  match T.openAcc node with
  | some e => fail e
  | none => ofExcept (newRegNode T (some node) ckPriv skPriv)

/-- When there is no first line its error is overwritten by that of the node's parser. -/
def parseRegNodeFromStrings (T : Texts) : Parse LiveRegNode := fun ss =>
  match T.nextNBLine ss with
  | .ok line rest =>
    if line ≠ "regNode \x7b" then .error .missingRegNodeLine else regNodeBody T rest
  | .error _ => regNodeBody T []
  | .fault a => .fault a

/-! Assumptions that results make about these packages. -/

/-- The node's parser reads the text of `bn` under the header of a client, at any depth, and
leaves what follows. -/
def Texts.ParsesBack (T : Texts) (bn : BaseNode) : Prop :=
  ∀ ind, AllSpace ind → ∀ tail,
    T.parseBNFromStrings "clientInfo"
      ((ind ++ "clientInfo \x7b") :: (T.baseNodeStrings bn).map (fun l => ind ++ ("    " ++ l)) ++ tail) =
        .ok (bn, tail)

end XlReg
