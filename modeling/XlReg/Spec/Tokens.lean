import XlReg.Spec.Client
import XlReg.Spec.Strings

/-! Clients and members out of tokens and into them (clientInfo.go, member_info.go), besides what
the server and `GetAndMembers` do with them. -/

namespace XlReg

/-- `xi.New`, where also drawing a random ID may fail. -/
def xiNewOf (D : Deps) (draw : Except Err NodeID) : Option Bytes → Except Err NodeID
  | none => draw
  | some b => nodeIDOf D b

/-- An object and an error, each possibly nil. -/
abbrev Returned (α : Type) := Option α × Option Err

/-- Only the error of `xi.New` reaches the caller: those of the calls after it go to variables of
inner scopes. -/
def newClientInfoFromToken (D : Deps) (addr : ℕ) (draw : Except Err NodeID) (token : Option Token) :
    Returned ClientInfo :=
  match token with
  | none => (none, some .nilToken)
  | some token =>
    match xiNewOf D draw token.id with
    | .error e => (none, some e)
    | .ok nodeID =>
      match D.rsaPubKeyFromWire token.commsKey with
      | .error _ => (none, none)
      | .ok ck =>
        match D.rsaPubKeyFromWire token.sigKey with
        | .error _ => (none, none)
        | .ok sk =>
          match newClientInfo D addr token.getName nodeID ck sk token.getAttrs token.myEnds with
          | .error _ => (none, none)
          | .ok m => (some m, none)

/-- `String` of a connector: the address of its far end, after the tag of its type. -/
def Connector.string (tag : String) (ctor : Connector) : String := tag ++ ctor.farEnd.addr

/-- The token corresponding to a member. Its end points are the texts of the connectors. -/
def tokenFromMemberInfo (D : Deps) (tag : String) (mi : MemberInfo) : Except Err Token :=
  match D.rsaPubKeyToWire mi.commsPubKey with
  | .error e => .error e
  | .ok ckBytes =>
    match D.rsaPubKeyToWire mi.sigPubKey with
    | .error e => .error e
    | .ok skBytes =>
      .ok { name := some mi.name, attrs := some mi.attrs, id := some mi.nodeID.value,
            commsKey := some ckBytes, sigKey := some skBytes,
            myEnds := mi.connectors.map (Connector.string tag) }

end XlReg
