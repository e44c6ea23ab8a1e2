import XlReg.Lib.Parties
import XlReg.Spec.Handlers

/-! The server (in_handler.go, reg_server.go): one session for each connection, all of them on
one registry. `startIter` is one round of the loop of `InHandler.Start`, from a decoded message
to the reply; rounds of different sessions alternate in any order. -/

namespace XlReg

inductive HandlerName
  | badCombo
  | doClientMsg
  | doCreateMsg
  | doJoinMsg
  | doGetMsg
  | doByeMsg
deriving DecidableEq

def HandlerName.handler (D : Deps) : HandlerName → Handler
  | .badCombo => XlReg.badCombo
  | .doClientMsg => XlReg.doClientMsg D
  | .doCreateMsg => XlReg.doCreateMsg D
  | .doJoinMsg => XlReg.doJoinMsg D
  | .doGetMsg => XlReg.doGetMsg D
  | .doByeMsg => XlReg.doByeMsg

/-- The dispatch table, by state and tag. -/
def msgHandlers : List (List HandlerName) :=
  [ -- client messages permitted in HELLO_RCVD state
    [.doClientMsg, .badCombo, .badCombo, .badCombo, .doByeMsg],
    -- messages permitted in CLIENT_DETAILS_RCVD
    [.badCombo, .doCreateMsg, .doJoinMsg, .badCombo, .doByeMsg],
    -- messages permitted in CREATE_REQUEST_RCVD
    [.badCombo, .badCombo, .doJoinMsg, .badCombo, .doByeMsg],
    -- messages permitted in JOIN_RCVD
    [.badCombo, .badCombo, .badCombo, .doGetMsg, .doByeMsg] ]

def MIN_TAG : ℤ := 0
def MAX_TAG : ℤ := 4

def InState.toNat : InState → ℕ
  | .helloRcvd => 0
  | .clientDetailsRcvd => 1
  | .createRequestRcvd => 2
  | .joinRcvd => 3
  | .byeRcvd => 4
  | .inClosed => 5

/-- The zero-based tag of an op: an int32 subtraction, then a division that truncates. -/
def op2tag (op : Int32) : ℤ := (op - Tag.member).toInt.tdiv 2

/-- `msgHandlers[entryState][tag]`, where it is inside the table. -/
def dispatch (s : InState) (tag : ℤ) : Option HandlerName :=
  if tag < 0 then none else (msgHandlers[s.toNat]?).bind fun row => row[tag.toNat]?

structure Input where
  msg : XLRegMsg
  draws : List NodeID

/-- What a round of the loop did: the message met in a state, the handler run, the error it
reported and the reply. -/
structure Exchange where
  entryState : InState
  msg : XLRegMsg
  handler : HandlerName
  err : Option Err
  reply : Option XLRegMsg

def errorMsg (e : Err) : XLRegMsg := { op := some Tag.error, errDesc := some e.text }

def respond (h : InHandler) : InHandler :=
  match h.errOut with
  | some e => { h with msgOut := some (errorMsg e), errOut := none, exitState := .inClosed }
  | none => h

/-- One round of the loop. A failed write of the reply is only logged, so it is left out. -/
def startIter (D : Deps) (w : World) (h : InHandler) (x : Input) :
    Except Abort (World × InHandler × Exchange) :=
  let h := { h with msgIn := x.msg }
  let tag := op2tag x.msg.getOp
  let h := if tag < MIN_TAG ∨ tag > MAX_TAG then { h with errOut := some .tagOutOfRange } else h
  match dispatch h.entryState tag with
  | none => .error .indexOutOfRange
  | some f =>
    match f.handler D w h x.draws with
    | .error a => .error a
    | .ok (w, h') =>
      let out := respond h'
      .ok (w, { out with entryState := out.exitState }, ⟨h.entryState, x.msg, f, h'.errOut, out.msgOut⟩)

structure Service where
  world : World
  log : List Exchange

structure Session where
  h : InHandler := {}
  exchanges : List Exchange := []

/-- Once the loop is left, a session reads no more. -/
def sessionStep (D : Deps) (s : Service) (c : Session) (x : Input) : Except Abort (Service × Session) :=
  if c.h.entryState = .inClosed then .ok (s, c)
  else
    match startIter D s.world c.h x with
    | .error a => .error a
    | .ok (w, h, ex) => .ok (⟨w, s.log ++ [ex]⟩, ⟨h, c.exchanges ++ [ex]⟩)

def server (D : Deps) : Parties Service Unit Session Input Abort where
  start _ := {}
  step := sessionStep D

abbrev ServerState := Parties.State Service Session
abbrev ServerEvent := Parties.Event Unit Input

def ServerState.init (regID : NodeID) : ServerState := ⟨⟨World.init regID, []⟩, []⟩

def serve (D : Deps) (regID : NodeID) (evs : List ServerEvent) : Except Abort ServerState :=
  Run.run (server D).next (ServerState.init regID) evs

end XlReg
