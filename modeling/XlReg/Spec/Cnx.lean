import XlReg.Spec.MemberNode
import XlReg.Spec.Server

/-! A connection (cnxHandler.go) and what `InHandler.Start` does on it from the hello on
(in_handler.go). In Spec/Server a session begins after its hello and takes decoded messages. -/

namespace XlReg

def MSG_BUF_LEN : ℕ := 16 * 1024

/-- What a `Read` into the buffer comes back with: the bytes it has put there, and an error or nil. -/
structure Received where
  data : Bytes
  err : Option Err := none
  fits : data.length ≤ MSG_BUF_LEN

/-- One `Read`. The data are nil if there are none, or if the error is any but the end of the stream. -/
def readData (r : Received) : Option Bytes × Option Err :=
  (if (r.err = none ∨ r.err = some EOF) ∧ 0 < r.data.length then some r.data else none, r.err)

/-- A `Read` of some of the bytes that have arrived, into the buffer. -/
def Received.ofBytes (b : Bytes) : Received :=
  { data := b.take MSG_BUF_LEN, fits := List.length_take_le _ _ }

def readMsg (decryptUnpadDecode : Bytes → Except Err XLRegMsg) (r : Received) :
    Except Err (Option XLRegMsg) :=
  match readData r with
  | (_, some e) => .error e
  | (none, none) => .ok none
  | (some inBuf, none) => (decryptUnpadDecode inBuf).map some

/-- The cryptography of `xlProtocol_go/aes_cnx` and the protobuf encoding, with sessions of type `S`. -/
structure Crypto (S : Type) where
  /-- The session of the one-time key, and the version that the client proposes. -/
  serverDecryptHello : Option Bytes → Except Err (S × UInt32)
  serverEncryptHelloReply : S → UInt32 → Except Err (S × Bytes)
  /-- Under the zero value of a session too. -/
  decryptUnpadDecode : Option S → Option Bytes → Except Err XLRegMsg

variable {S : Type}

/-- A `CnxHandler`: its session is the zero value until one is installed. `helloReply` is there once
it has been written without an error. -/
structure CnxHandler (S : Type) where
  aesSession : Option S := none
  version : UInt32 := 0
  helloReply : Option Bytes := none
  closed : Bool := false

/-- What a connection brings: what is read next, what comes of writing the hello reply if one is
written then, and the random IDs drawn. -/
structure Arrival where
  received : Received
  write : Option Err := none
  draws : List NodeID := []

/-- The hello exchange. The block that makes the reply and writes it has an `err` of its own, so its
errors neither close the connection nor reach the caller. -/
def handleHello (C : Crypto S) (serverVersion : UInt32) (cnx : CnxHandler S) (x : Arrival) :
    CnxHandler S × Option Err :=
  match readData x.received with
  | (_, some e) => ({ cnx with closed := true }, some e)
  | (ciphertext, none) =>
    match C.serverDecryptHello ciphertext with
    | .error e => ({ cnx with closed := true }, some e)
    | .ok (sOneShot, _) =>
      match C.serverEncryptHelloReply sOneShot serverVersion with
      | .error _ => (cnx, none)
      | .ok (sSession, ciphertextOut) =>
        let cnx := { cnx with aesSession := some sSession }
        match x.write with
        | some _ => (cnx, none)
        | none => ({ cnx with helloReply := some ciphertextOut, version := serverVersion }, none)

/-- Where `Start` is: before the hello, in the loop, or back from it. -/
inductive Progressed
  | hello
  | loop
  | returned
deriving DecidableEq

structure Connection (S : Type) where
  pc : Progressed := .hello
  cnx : CnxHandler S := {}
  session : Session := {}

def Connection.leave (c : Connection S) : Connection S :=
  { c with pc := .returned, cnx := { c.cnx with closed := true } }

def Connection.step (D : Deps) (C : Crypto S) (serverVersion : UInt32) (s : Service) (c : Connection S)
    (x : Arrival) : Except Abort (Service × Connection S) :=
  match c.pc with
  | .hello =>
    match handleHello C serverVersion c.cnx x with
    | (cnx, some _) => .ok (s, Connection.leave { c with cnx })
    | (cnx, none) => .ok (s, { c with cnx, pc := .loop })
  | .loop =>
    match readData x.received with
    | (_, some _) => .ok (s, c.leave)
    | (ciphertext, none) =>
      match C.decryptUnpadDecode c.cnx.aesSession ciphertext with
      | .error _ => .ok (s, c.leave)
      | .ok msgIn =>
        match sessionStep D s c.session ⟨msgIn, x.draws⟩ with
        | .error a => .error a
        | .ok (s, session) =>
          let c := { c with session }
          .ok (s, if session.h.entryState = .inClosed then c.leave else c)
  | .returned => .ok (s, c)

def connections (D : Deps) (C : Crypto S) (serverVersion : UInt32) :
    Parties Service Unit (Connection S) Arrival Abort where
  start _ := {}
  step := Connection.step D C serverVersion

def accept (D : Deps) (C : Crypto S) (serverVersion : UInt32) (regID : NodeID)
    (evs : List (Parties.Event Unit Arrival)) : Except Abort (Parties.State Service (Connection S)) :=
  Run.run (connections D C serverVersion).next ⟨⟨World.init regID, []⟩, []⟩ evs

end XlReg
