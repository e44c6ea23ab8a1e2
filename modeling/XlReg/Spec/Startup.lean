import XlReg.Spec.Server

/-! Starting the registry: `NewRegistry` (registry.go) and the credentials it writes for its
clients (reg_cred.go). With a backing file the ID filter is mapped onto that file, so the file
has at any time the IDs that the filter has. -/

namespace XlReg

def VERSION : String := "1.9.24"

abbrev DecimalVersion := UInt32

/-- What the start uses of packages outside the repository and of the file system. A file
operation that reports an error has changed nothing. -/
structure Host where
  parseDecimalVersion : String → Except Err DecimalVersion
  versionString : DecimalVersion → String
  rsaPubKeyToDisk : RSAPublicKey → Except Err String
  join : String → String → String
  newBloomSHA : ℕ → ℕ → Option Err
  /-- The filter mapped onto a backing file, by what the file holds, if there is one. -/
  newMappedBloomSHA : ℕ → ℕ → Option IdFilter → Except Err IdFilter
  writeFile : String → String → Option Err

structure Disk where
  filters : AList fun _ : String => IdFilter
  texts : AList fun _ : String => String

structure RegNode where
  name : String
  id : NodeID
  lfs : String
  commsPubKey : RSAPublicKey
  sigPubKey : RSAPublicKey

structure RegOptions where
  backingFile : String
  m : ℕ
  k : ℕ
  t : ℕ
  globalEndPoint : Option EndPoint

structure RegCred where
  name : String
  id : NodeID
  commsPubKey : RSAPublicKey
  sigPubKey : RSAPublicKey
  endPoints : List EndPoint
  version : DecimalVersion

def EndPoint.string (ep : EndPoint) : String := "TcpEndPoint: " ++ ep.addr

/-- A key that cannot be serialized leaves its line empty. -/
def RegCred.string (H : Host) (rc : RegCred) : String :=
  let ck := (H.rsaPubKeyToDisk rc.commsPubKey).toOption.getD ""
  let sk := (H.rsaPubKeyToDisk rc.sigPubKey).toOption.getD ""
  let ss := ["regCred \x7b",
    "    Name: " ++ rc.name,
    "    ID: " ++ hexEncode rc.id.value,
    "    CommsPubKey: " ++ ck,
    "    SigPubKey: " ++ sk,
    "    EndPoints \x7b"] ++
    rc.endPoints.map (fun ep => "         " ++ ep.string) ++
    ["    \x7d", "    Version: " ++ H.versionString rc.version, "\x7d"]
  String.intercalate "\r\n" ss ++ "\r\n"

/-- The files once the filter mapped onto the backing file has come to `f`. -/
def Disk.mapped (d : Disk) (opt : RegOptions) (f : IdFilter) : Disk :=
  if opt.backingFile = "" then d else { d with filters := d.filters.insert opt.backingFile f }

def openFilter (H : Host) (d : Disk) (opt : RegOptions) : Except Err IdFilter :=
  if opt.backingFile = "" then
    match H.newBloomSHA opt.m opt.k with
    | some e => .error e
    | none => .ok ⟨[]⟩
  else H.newMappedBloomSHA opt.m opt.k (d.filters.lookup opt.backingFile)

/-- The part of `NewRegistry` that writes `regCred.dat`, for a node that has an LFS. -/
def writeRegCred (H : Host) (d : Disk) (rn : RegNode) (opt : RegOptions) (version : DecimalVersion) :
    Except Abort (Disk × Option Err) :=
  if rn.lfs = "" then .ok (d, none)
  else
    match opt.globalEndPoint with
    -- `String` of a nil end point
    | none => .error .nilDeref
    | some ep =>
      let regCred : RegCred := ⟨rn.name, rn.id, rn.commsPubKey, rn.sigPubKey, [ep], version⟩
      let pathToFile := H.join rn.lfs "regCred.dat"
      match H.writeFile pathToFile (regCred.string H) with
      | some e => .ok (d, some e)
      | none => .ok ({ d with texts := d.texts.insert pathToFile (regCred.string H) }, none)

/-- The clusters given are pointers into `heap`; the indexes are not populated from them. A
registry may be returned together with an error. -/
def newRegistry (D : Deps) (H : Host) (d : Disk) (heap : List RegCluster) (clusters : List Ptr)
    (rn : Option RegNode) (opt : Option RegOptions) :
    Except Abort (Disk × Option World × Option Err) :=
  match H.parseDecimalVersion VERSION with
  | .error e => .ok (d, none, some e)
  | .ok serverVersion =>
    match rn, opt with
    | none, _ => .ok (d, none, some .nilRegNode)
    | some _, none => .error .nilDeref
    | some rn, some opt =>
      match openFilter H d opt with
      | .error e => .ok (d, none, some e)
      | .ok f =>
        let d := d.mapped opt f
        -- the root table has 2^t cells
        match D.newHAMT D.maxW opt.t with
        | some e => .ok (d, none, some e)
        | none =>
          let w : World := ⟨⟨rn.id, f, clusters, ∅, .empty⟩, heap, 0⟩
          match writeRegCred H d rn opt serverVersion with
          | .error a => .error a
          | .ok (d, some e) => .ok (d, some w, some e)
          | .ok (d, none) =>
            -- registry's own ID added to the filter
            let (f, err) := insertID D f rn.id
            .ok (d.mapped opt f, some (w.setFilter f), err)

def World.serving (w : World) : ServerState := ⟨⟨w, []⟩, []⟩

end XlReg
