import XlReg.Spec.Concurrent
import XlReg.Sanity.Sessions

/-! The handlers section by section, left alone, are the handlers of `Spec.Handlers`. -/

namespace XlReg

open Code

section Alone

variable (D : Deps)

theorem run_look {α β : Type} (f : World → α) (g : α → Task β) (w : World) :
    ((look f).bind g).run w = (g (f w)).run w := run_atomically_bind _ _ _

theorem run_lookAt {α β : Type} (p : Ptr) (f : RegCluster → α) (g : α → Task β) (w : World) :
    ((lookAt p f).bind g).run w = (w.deref p).bind fun rc => (g (f rc)).run w := by
  rw [lookAt, run_atomically_bind]
  rcases w.deref p with a | rc <;> rfl

theorem insertUniqueNodeIDTask_run (draws : List NodeID) (w : World) :
    (insertUniqueNodeIDTask D draws).run w =
      (insertUniqueNodeID D w.reg.idFilter draws).map fun r => (w.setFilter r.1, r.2) := by
  induction draws with
  | nil => rfl
  | cons n draws ih =>
    simp only [insertUniqueNodeIDTask, insertUniqueNodeID, run_look]
    rcases containsID D w.reg.idFilter n with e | found
    · rfl
    · cases found with
      | true => exact ih
      | false =>
        simp only [filterInsertTask, run_atomically_bind]
        rcases w.reg.idFilter.insert D n.value with e | f <;> rfl

theorem insertIDTask_run (n : NodeID) (w : World) :
    (insertIDTask D n).run w =
      .ok (w.setFilter (insertID D w.reg.idFilter n).1, (insertID D w.reg.idFilter n).2) := by
  simp only [insertIDTask, insertID, run_look]
  rcases w.reg.idFilter.isMember D n.value with e | found
  · rfl
  · cases found with
    | true => rfl
    | false =>
      simp only [filterInsertTask, run_atomically]
      rcases w.reg.idFilter.insert D n.value with e | f <;> rfl

theorem clientIDTask_run (id : Option Bytes) (draws : List NodeID) (w : World) :
    (clientIDTask D id draws).run w =
      (clientID D w.reg.idFilter id draws).map fun r => (w.setFilter r.1, r.2) := by
  cases id with
  | none => exact insertUniqueNodeIDTask_run D draws w
  | some b =>
    simp only [clientIDTask, clientID]
    rcases nodeIDOf D b with e | n
    · rfl
    · simp only [run_look]
      rcases containsID D w.reg.idFilter n with e | found
      · rfl
      · cases found with
        | true => rfl
        | false =>
          simp only [run_bind, insertIDTask_run]
          rcases insertID D w.reg.idFilter n with ⟨f, - | e⟩
          · rfl
          · cases e <;> rfl

theorem doClientMsgTask_run (h : InHandler) (draws : List NodeID) (w : World) :
    (doClientMsgTask D h draws).run w = doClientMsg D w h draws := by
  simp only [doClientMsgTask, doClientMsg]
  rcases verifySpecs D h.msgIn.getMemberSpecs with e | ⟨ck, sk⟩
  · rfl
  · simp only [run_bind, clientIDTask_run]
    rcases clientID D w.reg.idFilter h.msgIn.getMemberSpecs.id draws with a | ⟨f, e | n⟩
    · rfl
    · rfl
    · simp only [Except.map, Except.bind, newClientInfo]
      rcases D.newBaseNode h.msgIn.getMemberSpecs.getName n ck sk with - | e <;> rfl

theorem createNewTask_run (h : InHandler) (draws : List NodeID) (w : World) :
    (createNewTask D h draws).run w = createNew D w h draws := by
  simp only [createNewTask, createNew, run_bind, insertUniqueNodeIDTask_run]
  rcases insertUniqueNodeID D w.reg.idFilter draws with a | ⟨f, e | n⟩
  · rfl
  · rfl
  · simp only [Except.map, Except.bind]
    rcases newRegCluster D h.msgIn.getClusterName n 0 (clampSize h.msgIn.getClusterMaxSize)
      h.msgIn.getEndPointCount with e | rc
    · rfl
    · simp only [run_atomically_bind, Except.bind, addClusterTask]
      change ((addCluster D ((w.setFilter f).alloc rc) (some w.heap.length)).map _).bind _ = _
      rcases addCluster D ((w.setFilter f).alloc rc) (some w.heap.length) with a | ⟨w', i, - | e⟩ <;> rfl

theorem doCreateMsgTask_run (h : InHandler) (draws : List NodeID) (w : World) :
    (doCreateMsgTask D h draws).run w = doCreateMsg D w h draws := by
  simp only [doCreateMsgTask, doCreateMsg, run_look]
  rcases w.reg.clustersByName.lookup h.msgIn.getClusterName with - | p
  · exact createNewTask_run D h draws w
  · simp only [run_lookAt]
    rcases w.deref p with a | rc <;> rfl

theorem addMemberTask_run {w : World} {p : Ptr} {rc : RegCluster} (hp : w.deref p = .ok rc)
    (member : ClientInfo) :
    (addMemberTask D p member).run w =
      .ok (w.store p (rc.addMember D member).1, (rc.addMember D member).2) := by
  have hself := World.store_self (deref_ok.1 hp)
  simp only [addMemberTask, RegCluster.addMember, run_lookAt, hp, Except.bind]
  rcases rc.nameInUse member with - | -
  · simp only [run_lookAt, hp, Except.bind, Bool.false_eq_true, if_false]
    rcases rc.idEntry D with e | - | m
    · simp only [run_done, hself]
    · simp only [run_atomically, hp]
      rfl
    · simp only [run_done, hself]
  · simp only [run_done, if_true, hself]

theorem doJoinMsgTask_run (h : InHandler) (draws : List NodeID) (w : World) :
    (doJoinMsgTask D h).run w = doJoinMsg D w h draws := by
  simp only [doJoinMsgTask, doJoinMsg]
  rcases h.thisClient with - | client
  · rfl
  · simp only [run_look]
    rcases joinLookup D w h with ⟨- | p, - | e⟩
    · rfl
    · rfl
    · simp only [run_bind]
      rcases hp : w.deref p with a | rc
      · simp only [addMemberTask, run_lookAt, hp]
        rfl
      · simp only [addMemberTask_run D hp, Except.bind]
        have hat : (w.store p (rc.addMember D client).1).deref p = .ok (rc.addMember D client).1 := by
          have hlt := (List.getElem?_eq_some_iff.1 (deref_ok.1 hp)).1
          exact deref_ok.2 (by simp [World.store, hlt])
        generalize rc.addMember D client = r at hat
        obtain ⟨rc', - | e⟩ := r
        · change (w.store p rc').deref p = .ok rc' at hat
          simp only [run_lookAt, hat]
          rfl
        · rfl
    · rfl

theorem getLoopTask_run {w : World} {p : Ptr} {rc : RegCluster} (hp : w.deref p = .ok rc)
    (toSend : UInt64) (n i : ℕ) (acc : Sending) :
    (getLoopTask D p toSend n i acc).run w =
      (getLoop D rc.members toSend n i acc).map fun s => (w, s) := by
  induction n generalizing i acc with
  | zero => rfl
  | succ n ih =>
    simp only [getLoopTask, getLoop, getIter]
    split_ifs
    · simp only [run_atomically_bind, hp, Except.bind]
      rcases rc.members[i]? with - | member
      · rfl
      · simp only
        rcases member.token D with e | t
        · rfl
        · exact ih _ _
    · exact ih _ _

theorem doGetMsgTask_run (h : InHandler) (draws : List NodeID) (w : World) :
    (doGetMsgTask D h).run w = doGetMsg D w h draws := by
  simp only [doGetMsgTask, doGetMsg]
  rcases newBytesKey D h.msgIn.clusterID with e | bKey
  · rfl
  · simp only [run_look]
    rcases w.reg.clustersByID.find D bKey with e | - | p
    · rfl
    · rfl
    · simp only [run_lookAt]
      rcases hp : w.deref p with a | rc
      · rfl
      · simp only [Except.bind, run_bind, getLoopTask_run D hp]
        rcases getLoop D rc.members _ (getSize rc) 0 ⟨[], 0⟩ with a | s <;> rfl

/-- A handler that is not interrupted is the handler of one piece. -/
theorem task_run (f : HandlerName) (h : InHandler) (draws : List NodeID) (w : World) :
    (f.task D h draws).run w = f.handler D w h draws := by
  cases f with
  | badCombo => rfl
  | doClientMsg => exact doClientMsgTask_run D h draws w
  | doCreateMsg => exact doCreateMsgTask_run D h draws w
  | doJoinMsg => exact doJoinMsgTask_run D h draws w
  | doGetMsg => exact doGetMsgTask_run D h draws w
  | doByeMsg => rfl

end Alone

end XlReg
