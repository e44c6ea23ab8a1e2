import XlReg.Spec.Cnx

/-! Both ends of a connection and the bytes on their way (cnxHandler.go, memberNode.go, in_handler.go).
What arrives is an argument in Spec/Cnx, and what a client reads is one in Spec/MemberNode; here it is
what the other end has written, in order. A read takes some of it, so where a message ends is lost. -/

namespace XlReg

variable {S : Type}

/-- `proto.Marshal` and `proto.Unmarshal` of golang/protobuf, for messages. -/
structure Codec where
  marshal : XLRegMsg → Except Err Bytes
  unmarshal : Bytes → Except Err XLRegMsg

/-- A message comes back from its encoding. -/
structure Codec.Lawful (P : Codec) : Prop where
  unmarshal : ∀ m b, P.marshal m = .ok b → P.unmarshal b = .ok m

def encodePacket (P : Codec) (msg : XLRegMsg) : Except Err Bytes := P.marshal msg

def decodePacket (P : Codec) (data : Bytes) : Except Err XLRegMsg := P.unmarshal data

/-- What both ends use of packages outside the repository: the encoding of messages, and the
cryptography of `xlProtocol_go/aes_cnx`. What is random at the client and in encrypting is an argument. -/
structure Cipher (S : Type) where
  codec : Codec
  /-- The AES key of a session. The two ends have sessions of their own. -/
  key : S → Bytes
  encrypt : Option S → Bytes → Bytes → Except Err Bytes
  decrypt : Option S → Option Bytes → Except Err Bytes
  clientEncryptHello : UInt32 → Bytes → Except Err (S × Bytes)
  clientDecryptHelloReply : S → Bytes → Except Err (S × UInt32)
  serverDecryptHello : Option Bytes → Except Err (S × UInt32)
  serverEncryptHelloReply : S → UInt32 → Except Err (S × Bytes)

namespace Cipher

def encodePadEncrypt (Y : Cipher S) (aesSession : Option S) (iv : Bytes) (msg : XLRegMsg) :
    Except Err Bytes := do
  let cData ← encodePacket Y.codec msg
  Y.encrypt aesSession iv cData

def decryptUnpadDecode (Y : Cipher S) (aesSession : Option S) (pCiphertext : Option Bytes) :
    Except Err XLRegMsg := do
  let plaintext ← Y.decrypt aesSession pCiphertext
  decodePacket Y.codec plaintext

/-- What `InHandler.Start` uses of it. -/
def crypto (Y : Cipher S) : Crypto S where
  serverDecryptHello := Y.serverDecryptHello
  serverEncryptHelloReply := Y.serverEncryptHelloReply
  decryptUnpadDecode := Y.decryptUnpadDecode

/-- The ends undo what the other end does, whichever session they hold, if its key is the same. -/
structure Lawful (Y : Cipher S) : Prop where
  codec : Y.codec.Lawful
  decrypt : ∀ s t iv p b, Y.key s = Y.key t → Y.encrypt (some s) iv p = .ok b →
    Y.decrypt (some t) (some b) = .ok p
  hello : ∀ v random s b, Y.clientEncryptHello v random = .ok (s, b) →
    ∃ t, Y.serverDecryptHello (some b) = .ok (t, v) ∧ Y.key t = Y.key s
  helloReply : ∀ s t v s' b, Y.key s = Y.key t → Y.serverEncryptHelloReply s v = .ok (s', b) →
    ∃ t', Y.clientDecryptHelloReply t b = .ok (t', v) ∧ Y.key s' = Y.key t'

end Cipher

def writeMsg (Y : Cipher S) (aesSession : Option S) (iv : Bytes) (write : Option Err) (m : XLRegMsg) :
    Except Err Bytes :=
  match Y.encodePadEncrypt aesSession iv m with
  | .error e => .error e
  | .ok data =>
    match write with
    | some e => .error e
    | none => .ok data

/-- How far `SessionSetup` is: before the hello, waiting for the reply to it, or back. -/
inductive Setup (S : Type)
  | start
  | helloSent (cOneShot : S)
  | done (cSession : S) (decidedVersion : UInt32)
  | failed (err : Err)

/-- Up to the read, with what has been put on the wire. -/
def sendHello (Y : Cipher S) (proposedVersion : UInt32) (random : Bytes) (write : Option Err) :
    Setup S × Bytes :=
  match Y.clientEncryptHello proposedVersion random with
  | .error e => (.failed e, [])
  | .ok (cOneShot, ciphertext1) =>
    match write with
    | some e => (.failed e, [])
    | none => (.helloSent cOneShot, ciphertext1)

/-- From the read on. To read nothing is an error here. -/
def readHelloReply (Y : Cipher S) (cOneShot : S) (r : Received) : Setup S :=
  match readData r with
  | (_, some e) => .failed e
  | (none, none) => .failed EOF
  | (some ciphertext2, none) =>
    match Y.clientDecryptHelloReply cOneShot ciphertext2 with
    | .error e => .failed e
    | .ok (cSession, decidedVersion) => .done cSession decidedVersion

/-- What comes of a `Read`: some of the bytes there, the end of the stream, or another error. -/
inductive ReadOf
  | bytes (n : ℕ)
  | eof
  | fails (e : Err)

/-- The read, unless it is one that cannot come about: a `Read` waits for bytes, and the stream is at
its end when the other end is closed and nothing is left. -/
def ReadOf.received (pending : Bytes) (closed : Bool) : ReadOf → Option Received
  | .bytes n =>
    if h : 0 < n ∧ n ≤ MSG_BUF_LEN ∧ n ≤ pending.length then
      some { data := pending.take n, fits := (List.length_take_le _ _).trans h.2.1 }
    else none
  | .eof => if closed ∧ pending = [] then some { data := [], err := some EOF, fits := Nat.zero_le _ } else none
  | .fails e => if e = EOF then none else some { data := [], err := some e, fits := Nat.zero_le _ }

def ReadOf.rest (pending : Bytes) : ReadOf → Bytes
  | .bytes n => pending.drop n
  | .eof => pending
  | .fails _ => pending

/-- A connection with its client: what is on the way to the server and back, the requests that the
client has written, and what it has read after them. -/
structure Link (S : Type) where
  server : Connection S := {}
  setup : Setup S := .start
  toServer : Bytes := []
  toClient : Bytes := []
  sent : List XLRegMsg := []
  got : List (Except Err (Option XLRegMsg)) := []
  gone : Bool := false

/-- What a client does: the two halves of `SessionSetup`, a request, reading the answer to it, and
closing the connection. -/
inductive ClientMove
  | hello (proposedVersion : UInt32) (random : Bytes) (write : Option Err)
  | helloReply (r : ReadOf)
  | request (m : XLRegMsg) (iv : Bytes) (write : Option Err)
  | answer (r : ReadOf)
  | hangUp

/-- What happens on a link. The server goes on with each `Read`: the hello, or a round of the loop. -/
inductive Move
  | client (a : ClientMove)
  | serve (r : ReadOf) (write : Option Err) (draws : List NodeID) (iv : Bytes)

namespace Link

/-- All steps of a client return at an error from reading, but for `CreateAndReply` at the end of the
stream. -/
def GoesOn (l : Link S) : Prop :=
  l.got.length = l.sent.length ∧ ∀ e, l.got.getLast? = some (.error e) → e = EOF

instance (l : Link S) : Decidable l.GoesOn :=
  decidable_of_iff (l.got.length = l.sent.length ∧ l.got.getLast?.all fun
      | .error e => decide (e = EOF)
      | .ok _ => true) <| by
    rw [GoesOn]
    refine and_congr_right fun _ => ?_
    rcases l.got.getLast? with - | (e | m) <;> simp

/-- What comes of a move of the client, as long as it has not closed the connection. -/
def client (Y : Cipher S) (l : Link S) : ClientMove → Link S
  | .hello proposedVersion random write =>
    match l.setup with
    | .start =>
      let (setup, ciphertext1) := sendHello Y proposedVersion random write
      { l with setup, toServer := l.toServer ++ ciphertext1 }
    | _ => l
  | .helloReply r =>
    match l.setup, r.received l.toClient l.server.cnx.closed with
    | .helloSent cOneShot, some received =>
      { l with setup := readHelloReply Y cOneShot received, toClient := r.rest l.toClient }
    | _, _ => l
  | .request m iv write =>
    match l.setup with
    | .done cSession _ =>
      if l.GoesOn then
        match writeMsg Y (some cSession) iv write m with
        | .error _ => l
        | .ok data => { l with toServer := l.toServer ++ data, sent := l.sent ++ [m] }
      else l
    | _ => l
  | .answer r =>
    match l.setup, r.received l.toClient l.server.cnx.closed with
    | .done cSession _, some received =>
      if l.got.length < l.sent.length then
        let m := readMsg (fun b => Y.decryptUnpadDecode (some cSession) (some b)) received
        { l with got := l.got ++ [m], toClient := r.rest l.toClient }
      else l
    | _, _ => l
  | .hangUp => { l with gone := true }

/-- What the server has put on the wire on the way from `c` to `c'`: its reply to the hello, or the
message that a round of the loop leaves. That it cannot be encoded or written is only logged. -/
def replied (Y : Cipher S) (write : Option Err) (iv : Bytes) (c c' : Connection S) : Bytes :=
  match c.pc with
  | .hello => c'.cnx.helloReply.getD []
  | .loop =>
    if c.session.exchanges.length < c'.session.exchanges.length then
      match c'.session.h.msgOut with
      | some msgOut => (writeMsg Y c'.cnx.aesSession iv write msgOut).toOption.getD []
      | none => []
    else []
  | .returned => []

def step (D : Deps) (Y : Cipher S) (serverVersion : UInt32) (s : Service) (l : Link S) :
    Move → Except Abort (Service × Link S)
  | .client a => .ok (s, if l.gone then l else l.client Y a)
  | .serve r write draws iv =>
    match r.received l.toServer l.gone with
    | none => .ok (s, l)
    | some received =>
      match l.server.step D Y.crypto serverVersion s ⟨received, write, draws⟩ with
      | .error a => .error a
      | .ok (s, server) =>
        .ok (s, { l with server, toServer := r.rest l.toServer,
                         toClient := l.toClient ++ replied Y write iv l.server server })

end Link

/-- The server with its connections and the clients at their other ends. -/
def links (D : Deps) (Y : Cipher S) (serverVersion : UInt32) :
    Parties Service Unit (Link S) Move Abort where
  start _ := {}
  step := Link.step D Y serverVersion

def communicate (D : Deps) (Y : Cipher S) (serverVersion : UInt32) (regID : NodeID)
    (evs : List (Parties.Event Unit Move)) : Except Abort (Parties.State Service (Link S)) :=
  Run.run (links D Y serverVersion).next ⟨⟨World.init regID, []⟩, []⟩ evs

end XlReg
