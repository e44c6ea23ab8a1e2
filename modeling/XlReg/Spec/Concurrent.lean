import XlReg.Lib.Sections
import XlReg.Spec.Server

/-! The server as it runs: each session in its own goroutine, and each handler in the sections in
which it holds a lock or makes one step of the filter. A lock is given up between the sections, so
those of different sessions interleave. A session remembers the worlds that the sections of its
current round have met; no code looks at them. -/

namespace XlReg

open Code

/-- A handler's code: its sections work on the registry. -/
abbrev Task := Code World Abort

def look {α : Type} (f : World → α) : Task α := atomically fun w => .ok (w, f w)

def lookAt {α : Type} (p : Ptr) (f : RegCluster → α) : Task α :=
  atomically fun w => (w.deref p).map fun rc => (w, f rc)

def filterInsertTask (D : Deps) (b : Bytes) : Task (Option Err) :=
  atomically fun w =>
    match w.reg.idFilter.insert D b with
    | .error e => .ok (w, some e)
    | .ok f => .ok (w.setFilter f, none)

def insertIDTask (D : Deps) (n : NodeID) : Task (Option Err) :=
  (look fun w => w.reg.idFilter.isMember D n.value).bind fun
    | .error e => .done (some e)
    | .ok true => .done (some .idAlreadyInUse)
    | .ok false => filterInsertTask D n.value

/-- The filter is asked and told in two steps. -/
def insertUniqueNodeIDTask (D : Deps) : List NodeID → Task (Except Err NodeID)
  | [] => .stop .drawing
  | n :: draws =>
    (look fun w => containsID D w.reg.idFilter n).bind fun
      | .error e => .done (.error e)
      | .ok true => insertUniqueNodeIDTask D draws
      | .ok false =>
        (filterInsertTask D n.value).bind fun
          | some e => .done (.error e)
          | none => .done (.ok n)

def clientIDTask (D : Deps) (id : Option Bytes) (draws : List NodeID) : Task (Except Err NodeID) :=
  match id with
  | none => insertUniqueNodeIDTask D draws
  | some b =>
    match nodeIDOf D b with
    | .error e => .done (.error e)
    | .ok nodeID =>
      (look fun w => containsID D w.reg.idFilter nodeID).bind fun
        | .error e => .done (.error e)
        | .ok true => .done (.ok nodeID)
        | .ok false =>
          (insertIDTask D nodeID).bind fun
            | none => .done (.ok nodeID)
            | some .idAlreadyInUse => .done (.ok nodeID)
            | some e => .done (.error e)

def doClientMsgTask (D : Deps) (h : InHandler) (draws : List NodeID) : Task InHandler :=
  let specs := h.msgIn.getMemberSpecs
  match verifySpecs D specs with
  | .error e => .done (h.fail e)
  | .ok (ck, sk) =>
    (clientIDTask D specs.id draws).bind fun
      | .error e => .done (h.fail e)
      | .ok nodeID =>
        match D.newBaseNode specs.getName nodeID ck sk with
        | some e => .done (h.fail e)
        | none =>
          (atomically fun w => .ok ({ w with clients := w.clients + 1 }, w.clients)).bind fun addr =>
            .done ({ h with thisClient := some ⟨addr, specs.getName, nodeID, ck, sk, specs.getAttrs,
                specs.myEnds⟩ }.reply (memberOK nodeID specs.getAttrs) .clientDetailsRcvd)

def addClusterTask (D : Deps) (p : Ptr) : Task (Option Err) :=
  atomically fun w => (addCluster D w (some p)).map fun r => (r.1, r.2.2)

def createNewTask (D : Deps) (h : InHandler) (draws : List NodeID) : Task InHandler :=
  let m := h.msgIn
  let maxSize := clampSize m.getClusterMaxSize
  (insertUniqueNodeIDTask D draws).bind fun
    | .error e => .done (h.fail e)
    | .ok clusterID =>
      match newRegCluster D m.getClusterName clusterID 0 maxSize m.getEndPointCount with
      | .error e => .done (h.fail e)
      | .ok rc =>
        (atomically fun w => .ok (w.alloc rc, w.heap.length)).bind fun p =>
          (addClusterTask D p).bind fun
            | some e => .done ({ h with cluster := some p }.fail e)
            | none => .done ({ h with cluster := some p }.reply
                (createReply clusterID maxSize m.getClusterAttrs m.getEndPointCount) .createRequestRcvd)

def doCreateMsgTask (D : Deps) (h : InHandler) (draws : List NodeID) : Task InHandler :=
  (look fun w => w.reg.clustersByName.lookup h.msgIn.getClusterName).bind fun
    | none => createNewTask D h draws
    | some p =>
      (lookAt p fun rc => createReply rc.id rc.maxSize rc.attrs rc.epCount).bind fun r =>
        .done (h.reply r .createRequestRcvd)

def addMemberTask (D : Deps) (p : Ptr) (member : ClientInfo) : Task (Option Err) :=
  (lookAt p fun rc => rc.nameInUse member).bind fun
    | true => .done (some .clusterMemberNameInUse)
    | false =>
      (lookAt p fun rc => rc.idEntry D).bind fun
        | .error e => .done (some e)
        | .ok (some _) => .done (some .clusterMemberIDInUse)
        | .ok none =>
          atomically fun w => (w.deref p).map fun rc =>
            (w.store p (rc.append D member).1, (rc.append D member).2)

def doJoinMsgTask (D : Deps) (h : InHandler) : Task InHandler :=
  match h.thisClient with
  | none => .stop .nilDeref
  | some client =>
    (look fun w => joinLookup D w h).bind fun
      | (none, some _) => .stop .nilDeref
      | (some _, some e) => .done (h.fail e)
      | (none, none) => .stop .nilDeref
      | (some p, none) =>
        (addMemberTask D p client).bind fun
          | some e => .done (h.fail e)
          | none =>
            (lookAt p joinReply).bind fun r =>
              .done ({ h with cluster := some p }.reply r .joinRcvd)

/-- The loop over the members: each is read without a lock. -/
def getLoopTask (D : Deps) (p : Ptr) (toSend : UInt64) : ℕ → ℕ → Sending → Task Sending
  | 0, _, acc => .done acc
  | n + 1, i, acc =>
    if D.bits.test toSend i then
      (atomically fun w => (w.deref p).bind fun rc =>
          match rc.members[i]? with
          | none => .error .indexOutOfRange
          | some member => .ok (w, member)).bind fun member =>
        match member.token D with
        | .error _ => .done acc
        | .ok t => getLoopTask D p toSend n (i + 1) ⟨acc.tokens ++ [t], D.bits.set acc.which i⟩
    else getLoopTask D p toSend n (i + 1) acc

def doGetMsgTask (D : Deps) (h : InHandler) : Task InHandler :=
  let clusterID := h.msgIn.clusterID
  let notFound := Err.other ("doGetMsg: can't find cluster with ID " ++ hexEncode (clusterID.getD []))
  match newBytesKey D clusterID with
  | .error e => .done (h.fail e)
  | .ok bKey =>
    (look fun w => w.reg.clustersByID.find D bKey).bind fun
      | .error _ => .done (h.fail notFound)
      | .ok none => .done (h.fail notFound)
      | .ok (some p) =>
        (lookAt p getSize).bind fun size =>
          (getLoopTask D p (D.bits.intersection h.msgIn.getWhich (D.bits.lowNMap size)) size 0
              ⟨[], 0⟩).bind fun s =>
            .done (h.reply (getReply clusterID s) .joinRcvd)

def HandlerName.task (D : Deps) (h : InHandler) (draws : List NodeID) : HandlerName → Task InHandler
  | .badCombo => .done (h.fail .rcvdInvalidMsgForState)
  | .doClientMsg => doClientMsgTask D h draws
  | .doCreateMsg => doCreateMsgTask D h draws
  | .doJoinMsg => doJoinMsgTask D h
  | .doGetMsg => doGetMsgTask D h
  | .doByeMsg => .done (h.reply { op := some Tag.ack } .byeRcvd)

structure Round where
  msg : XLRegMsg
  draws : List NodeID
  handler : HandlerName
  task : Task InHandler
  met : List World

structure Finished where
  exchange : Exchange
  draws : List NodeID
  met : List World

structure Routine where
  h : InHandler := {}
  round : Option Round := none
  finished : List Finished := []

/-- When the handler has come back, the response part of the round follows at once. -/
def Routine.settle (c : Routine) (r : Round) : Routine :=
  match r.task with
  | .done h' =>
    let out := respond h'
    { h := { out with entryState := out.exitState }, round := none,
      finished := c.finished ++
        [⟨⟨c.h.entryState, r.msg, r.handler, h'.errOut, out.msgOut⟩, r.draws, r.met⟩] }
  | _ => { c with round := some r }

def Routine.receive (D : Deps) (c : Routine) (x : Input) : Except Abort Routine :=
  if c.h.entryState = .inClosed ∨ c.round.isSome then .ok c
  else
    match dispatch c.h.entryState (op2tag x.msg.getOp) with
    | none => .error .indexOutOfRange
    | some f => .ok (c.settle ⟨x.msg, x.draws, f, f.task D { c.h with msgIn := x.msg } x.draws, []⟩)

def Routine.proceed (w : World) (c : Routine) : Except Abort (World × Routine) :=
  match c.round with
  | none => .ok (w, c)
  | some r =>
    match r.task.step w with
    | .error a => .error a
    | .ok (w', t) => .ok (w', c.settle { r with task := t, met := r.met ++ [w] })

/-- Any number of sessions at once: one reads its next message, or takes its next section. -/
def concurrent (D : Deps) : Parties World Unit Routine (Option Input) Abort where
  start _ := {}
  step w c
    | some x => (c.receive D x).map fun c => (w, c)
    | none => c.proceed w

abbrev ConcurrentState := Parties.State World Routine
abbrev ConcurrentEvent := Parties.Event Unit (Option Input)

def serveConcurrent (D : Deps) (regID : NodeID) (evs : List ConcurrentEvent) :
    Except Abort ConcurrentState :=
  Run.run (concurrent D).next ⟨World.init regID, []⟩ evs

end XlReg
