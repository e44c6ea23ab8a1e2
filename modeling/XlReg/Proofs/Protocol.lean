import XlReg.Sanity.Plain
import XlReg.Sanity.Sessions

/-! The order of a session's requests. In each state the handlers completed so far form a word
of that state's language (`phase`), and the dispatch table only appends what leads from one to
the next. What a round leaves behind in `msgOut`, `errOut` and `exitState` is never read by the
next one, so each reply is built for its own request. -/

namespace XlReg

open RegularExpression Computability

/-- (Member Create? (Join GetCluster*)?)? Bye -/
def sessionWord : RegularExpression HandlerName :=
  (1 + char HandlerName.doClientMsg * (1 + char HandlerName.doCreateMsg) *
      (1 + char HandlerName.doJoinMsg * star (char HandlerName.doGetMsg))) *
    char HandlerName.doByeMsg

/-- What a session in a state has completed. -/
def phase : InState → RegularExpression HandlerName
  | .helloRcvd => 1
  | .clientDetailsRcvd => char .doClientMsg
  | .createRequestRcvd => char HandlerName.doClientMsg * char HandlerName.doCreateMsg
  | .joinRcvd => char HandlerName.doClientMsg * (1 + char HandlerName.doCreateMsg) *
      (char HandlerName.doJoinMsg * star (char HandlerName.doGetMsg))
  | .byeRcvd => sessionWord
  | .inClosed => 0

section Words

variable {α : Type} [KleeneAlgebra α] (m c j g b : α)

theorem join_le_joined : (m + m * c) * j ≤ m * (1 + c) * (j * g∗) := by
  calc (m + m * c) * j = m * (1 + c) * (j * 1) := by rw [mul_add, mul_one, mul_one]
    _ ≤ m * (1 + c) * (j * g∗) := by gcongr; exact one_le_kstar

theorem joined_get_le : m * (1 + c) * (j * g∗) * g ≤ m * (1 + c) * (j * g∗) := by
  rw [mul_assoc, mul_assoc j]
  gcongr
  exact kstar_mul_le_kstar

/-- Every state but the last may be followed by Bye. -/
theorem bye_le_whole :
    (1 + m + m * c + m * (1 + c) * (j * g∗)) * b ≤ (1 + m * (1 + c) * (1 + j * g∗)) * b := by
  have hall : m * (1 + c) * (1 + j * g∗) = m + m * c + m * (1 + c) * (j * g∗) := by
    rw [mul_add (m * (1 + c)), mul_one, mul_add m, mul_one]
  rw [hall, ← add_assoc, ← add_assoc]

end Words

/-- What the table permits in a state leads to the language of the handler's exit state. -/
theorem phase_mul_le {s : InState} {f : HandlerName} (h : (s, f) ∈ permitted) :
    (phase s).matches' * (char f).matches' ≤ (phase f.exit).matches' := by
  have hjoin := join_le_joined (char HandlerName.doClientMsg).matches'
    (char HandlerName.doCreateMsg).matches' (char HandlerName.doJoinMsg).matches'
    (char HandlerName.doGetMsg).matches'
  have hget := joined_get_le (char HandlerName.doClientMsg).matches'
    (char HandlerName.doCreateMsg).matches' (char HandlerName.doJoinMsg).matches'
    (char HandlerName.doGetMsg).matches'
  have hbye := bye_le_whole (char HandlerName.doClientMsg).matches'
    (char HandlerName.doCreateMsg).matches' (char HandlerName.doJoinMsg).matches'
    (char HandlerName.doGetMsg).matches' (char HandlerName.doByeMsg).matches'
  rw [add_mul] at hjoin
  rw [add_mul, add_mul, add_mul] at hbye
  obtain ⟨hbye, hbyeJoined⟩ := add_le_iff.1 hbye
  obtain ⟨hbye, hbyeCreate⟩ := add_le_iff.1 hbye
  obtain ⟨hbyeHello, hbyeMember⟩ := add_le_iff.1 hbye
  simp only [permitted, List.mem_cons, Prod.mk.injEq, List.not_mem_nil, or_false] at h
  rcases h with ⟨rfl, rfl⟩ | ⟨rfl, rfl⟩ | ⟨rfl, rfl⟩ | ⟨rfl, rfl⟩ | ⟨rfl, rfl⟩ | ⟨rfl, rfl⟩ |
    ⟨rfl, rfl⟩ | ⟨rfl, rfl⟩ | ⟨rfl, rfl⟩
  · exact (one_mul _).le
  · exact hbyeHello
  · exact le_refl _
  · exact (add_le_iff.1 hjoin).1
  · exact hbyeMember
  · exact (add_le_iff.1 hjoin).2
  · exact hbyeCreate
  · exact hget
  · exact hbyeJoined

/-- Whatever the state of a session that is still read, its Bye completes a word. -/
theorem phase_complete {s : InState} {ws : List HandlerName} (h : ws ∈ (phase s).matches') :
    ∃ t, ws ++ t ∈ sessionWord.matches' := by
  have hend : (s, HandlerName.doByeMsg) ∈ permitted → ∃ t, ws ++ t ∈ sessionWord.matches' :=
    fun hp => ⟨[.doByeMsg], phase_mul_le hp (Language.append_mem_mul h rfl)⟩
  cases s with
  | helloRcvd => exact hend (by decide)
  | clientDetailsRcvd => exact hend (by decide)
  | createRequestRcvd => exact hend (by decide)
  | joinRcvd => exact hend (by decide)
  | byeRcvd => exact ⟨[], by rw [List.append_nil]; exact h⟩
  | inClosed => exact absurd h (by simp [phase])

def Session.completed (c : Session) : List HandlerName :=
  (c.exchanges.filter (·.err.isNone)).map (·.handler)

def Exchange.replyOp (ex : Exchange) : Int32 :=
  if ex.err = none then ex.handler.replyOp else Tag.error

/-- An open session has completed a word of its state and had no error; a closed one had its
error, if any, last. Every request has its own kind of reply or an Error message, and the last
reply is in `msgOut`. -/
structure Session.InOrder (c : Session) : Prop where
  word : ∃ s, c.completed ∈ (phase s).matches' ∧
    (c.h.entryState ≠ .inClosed → s = c.h.entryState ∧ ∀ ex ∈ c.exchanges, ex.err = none)
  errorLast : ∀ ex ∈ c.exchanges.dropLast, ex.err = none
  replies : ∀ ex ∈ c.exchanges, (∃ r, ex.reply = some r ∧ r.op = some ex.replyOp) ∧
    (ex.replyOp = Tag.error → ex.err ≠ none)
  last : ∀ ex, c.exchanges.getLast? = some ex → c.h.msgOut = ex.reply

theorem Session.inOrder_init : Session.InOrder {} :=
  ⟨⟨.helloRcvd, rfl, fun _ => ⟨rfl, by simp⟩⟩, by simp, by simp, by simp⟩

theorem Session.InOrder.round {D : Deps} {w w' : World} {c : Session} {x : Input} {h' : InHandler}
    {ex : Exchange} (hc : c.InOrder) (hopen : c.h.entryState ≠ .inClosed)
    (hr : startIter D w c.h x = .ok (w', h', ex)) : Session.InOrder ⟨h', c.exchanges ++ [ex]⟩ := by
  obtain ⟨s, hw, hs⟩ := hc.word
  obtain ⟨rfl, hnone⟩ := hs hopen
  have hlast : ∀ e, (c.exchanges ++ [ex]).getLast? = some e → e = ex := by
    intro e he
    rw [List.getLast?_concat] at he
    exact (Option.some.inj he).symm
  have hdrop : ∀ e ∈ (c.exchanges ++ [ex]).dropLast, e.err = none := by
    rw [List.dropLast_concat]
    exact hnone
  rcases startIter_outcome hr with ⟨e, he, hrep, hm, hcl⟩ | ⟨he, hp, hx, hm, r, hrep, hop⟩
  · refine ⟨⟨c.h.entryState, ?_, fun hne => absurd hcl hne⟩, hdrop, ?_, ?_⟩
    · have hsame : Session.completed ⟨h', c.exchanges ++ [ex]⟩ = c.completed := by
        simp [Session.completed, he]
      rw [hsame]
      exact hw
    · refine List.forall_mem_append.2 ⟨hc.replies, List.forall_mem_singleton.2 ⟨⟨_, hrep, ?_⟩, ?_⟩⟩
      · simp [errorMsg, Exchange.replyOp, he]
      · simp [he]
    · intro y hy
      rw [hlast y hy]
      exact hm
  · refine ⟨⟨h'.entryState, ?_, fun _ => ⟨rfl, ?_⟩⟩, hdrop, ?_, ?_⟩
    · have hsnoc : Session.completed ⟨h', c.exchanges ++ [ex]⟩ = c.completed ++ [ex.handler] := by
        simp [Session.completed, he]
      rw [hsnoc, hx]
      exact phase_mul_le hp (Language.append_mem_mul hw rfl)
    · exact List.forall_mem_append.2 ⟨hnone, List.forall_mem_singleton.2 he⟩
    · have hown : ex.replyOp = ex.handler.replyOp := if_pos he
      have hnot : ∀ p ∈ permitted, p.2.replyOp ≠ Tag.error := by decide
      refine List.forall_mem_append.2 ⟨hc.replies, List.forall_mem_singleton.2 ⟨⟨r, hrep, ?_⟩, ?_⟩⟩
      · rw [hop, hown]
      · intro herr
        exact absurd (hown.symm.trans herr) (hnot _ hp)
    · intro y hy
      rw [hlast y hy]
      exact hm

/-- The session as it would be had earlier rounds left other things behind. -/
def InHandler.leftOver (h : InHandler) (out : Option XLRegMsg) (err : Option Err) (st : InState) :
    InHandler :=
  { h with msgOut := out, errOut := err, exitState := st }

section LeftOver

variable (D : Deps) (w : World) (h : InHandler) (draws : List NodeID) (out : Option XLRegMsg)
  (err : Option Err) (st : InState)

theorem doClientMsg_leftOver :
    closing (doClientMsg D w (h.leftOver out err st) draws) = closing (doClientMsg D w h draws) := by
  simp only [doClientMsg, InHandler.leftOver]
  cases verifySpecs D h.msgIn.getMemberSpecs with
  | error e => rfl
  | ok keys =>
    cases clientID D w.reg.idFilter h.msgIn.getMemberSpecs.id draws with
    | error a => rfl
    | ok fr =>
      obtain ⟨f, r⟩ := fr
      cases r with
      | error e => rfl
      | ok n =>
        simp only
        cases newClientInfo D w.clients h.msgIn.getMemberSpecs.getName n keys.1 keys.2
            h.msgIn.getMemberSpecs.getAttrs h.msgIn.getMemberSpecs.myEnds <;> rfl

theorem createNew_leftOver :
    closing (createNew D w (h.leftOver out err st) draws) = closing (createNew D w h draws) := by
  simp only [createNew, InHandler.leftOver]
  cases insertUniqueNodeID D w.reg.idFilter draws with
  | error a => rfl
  | ok fr =>
    obtain ⟨f, r⟩ := fr
    cases r with
    | error e => rfl
    | ok n =>
      simp only
      cases newRegCluster D h.msgIn.getClusterName n 0 (clampSize h.msgIn.getClusterMaxSize)
          h.msgIn.getEndPointCount with
      | error e => rfl
      | ok rc =>
        simp only
        cases addCluster D ((w.setFilter f).alloc rc) (some w.heap.length) with
        | error a => rfl
        | ok res =>
          obtain ⟨w1, i, err⟩ := res
          cases err <;> rfl

theorem doCreateMsg_leftOver :
    closing (doCreateMsg D w (h.leftOver out err st) draws) = closing (doCreateMsg D w h draws) := by
  have hmsg : (h.leftOver out err st).msgIn = h.msgIn := rfl
  cases hl : w.reg.clustersByName.lookup h.msgIn.getClusterName with
  | none =>
    have hl' := hl
    rw [← hmsg] at hl'
    simp only [doCreateMsg, hl, hl']
    exact createNew_leftOver D w h draws out err st
  | some p =>
    have hl' := hl
    rw [← hmsg] at hl'
    simp only [doCreateMsg, hl, hl']
    cases w.deref p <;> rfl

theorem doJoinMsg_leftOver :
    closing (doJoinMsg D w (h.leftOver out err st) draws) = closing (doJoinMsg D w h draws) := by
  have hl : joinLookup D w (h.leftOver out err st) = joinLookup D w h := rfl
  have hc : (h.leftOver out err st).thisClient = h.thisClient := rfl
  simp only [doJoinMsg, hl, hc]
  rcases joinLookup D w h with ⟨c, e⟩
  cases h.thisClient with
  | none => rfl
  | some client =>
    cases c with
    | none => cases e <;> rfl
    | some p =>
      cases e with
      | some e => rfl
      | none =>
        simp only
        cases w.deref p with
        | error a => rfl
        | ok rc =>
          simp only
          rcases rc.addMember D client with ⟨rc', err⟩
          cases err <;> rfl

theorem doGetMsg_leftOver :
    closing (doGetMsg D w (h.leftOver out err st) draws) = closing (doGetMsg D w h draws) := by
  simp only [doGetMsg, InHandler.leftOver]
  cases newBytesKey D h.msgIn.clusterID with
  | error e => rfl
  | ok bKey =>
    simp only
    cases w.reg.clustersByID.find D bKey with
    | error e => rfl
    | ok found =>
      cases found with
      | none => rfl
      | some p =>
        simp only
        cases w.deref p with
        | error a => rfl
        | ok rc =>
          simp only
          cases getLoop D rc.members (D.bits.intersection h.msgIn.getWhich
              (D.bits.lowNMap (getSize rc))) (getSize rc) 0 ⟨[], 0⟩ <;> rfl

/-- No handler reads what is left over, and what it does not set itself the loop sets. -/
theorem handler_leftOver (f : HandlerName) :
    closing (f.handler D w (h.leftOver out err st) draws) = closing (f.handler D w h draws) := by
  cases f with
  | badCombo => rfl
  | doClientMsg => exact doClientMsg_leftOver D w h draws out err st
  | doCreateMsg => exact doCreateMsg_leftOver D w h draws out err st
  | doJoinMsg => exact doJoinMsg_leftOver D w h draws out err st
  | doGetMsg => exact doGetMsg_leftOver D w h draws out err st
  | doByeMsg => rfl

end LeftOver

theorem startIter_leftOver (D : Deps) (w : World) (h : InHandler) (x : Input)
    (out : Option XLRegMsg) (err : Option Err) (st : InState) :
    startIter D w (h.leftOver out err st) x = startIter D w h x := by
  have hstate : (h.leftOver out err st).entryState = h.entryState := rfl
  cases hd : dispatch h.entryState (op2tag x.msg.getOp) with
  | none => rw [startIter_outside hd, startIter_outside (by rw [hstate]; exact hd)]
  | some f =>
    have hsame := handler_leftOver D w { h with msgIn := x.msg } x.draws out err st f
    rw [startIter_inside hd, startIter_inside (h := h.leftOver out err st) hd]
    change (closing (f.handler D w ({ h with msgIn := x.msg }.leftOver out err st) x.draws)).map _ = _
    rw [hsame]
    rfl

theorem session_contract (D : Deps) :
    Parties.Contract (server D) (fun _ _ _ => True) (fun _ => True)
      (fun s s' => s.world.Grows s'.world) (fun s c => c.InOrder ∧ c.h.Established s.world) where
  start s _ _ := ⟨Session.inOrder_init, InHandler.established_init s.world⟩
  step s c x s' c' _ hJ _ hr := by
    rcases sessionStep_ok hr with ⟨-, rfl, rfl⟩ | ⟨hopen, w, h, ex, hi, rfl, rfl⟩
    · exact ⟨trivial, .refl _, hJ⟩
    · exact ⟨trivial, startIter_grows hi, hJ.1.round hopen hi, startIter_established hJ.2 hi⟩
  stable s s' c _ hJ hg := ⟨hJ.1, hJ.2.of_grows hg⟩

/-- Every session of every run without a fault: the handlers completed are the beginning of a
word of the protocol; nothing is handled after an Error; each request has one reply of its own
kind, which is in `msgOut` and owes nothing to what earlier rounds left there; and the session
has the client and the cluster its state speaks of. -/
theorem serve_session_protocol {D : Deps} {regID : NodeID} {evs : List ServerEvent} {s : ServerState}
    (h : serve D regID evs = .ok s) {c : Session} (hc : c ∈ s.parties) :
    (∃ t, c.completed ++ t ∈ sessionWord.matches') ∧
    (∀ pre ex post, c.exchanges = pre ++ ex :: post → ex.replyOp = Tag.error →
      post = [] ∧ c.h.entryState = .inClosed) ∧
    (∀ ex ∈ c.exchanges, ∃ r, ex.reply = some r ∧ r.op = some ex.replyOp) ∧
    (∀ ex, c.exchanges.getLast? = some ex → c.h.msgOut = ex.reply) ∧
    (∀ w x out err st, startIter D w (c.h.leftOver out err st) x = startIter D w c.h x) ∧
    (c.h.entryState ∈ [.clientDetailsRcvd, .createRequestRcvd, .joinRcvd] →
      ∃ m, c.h.thisClient = some m) ∧
    (c.h.entryState = .joinRcvd → ∃ m p rc, c.h.thisClient = some m ∧ c.h.cluster = some p ∧
      s.shared.world.heap[p]? = some rc ∧ m ∈ rc.members) := by
  obtain ⟨hord, hest⟩ := ((session_contract D).holds_of_run ⟨trivial, fun _ hc => by cases hc⟩ h).2 c hc
  refine ⟨?_, ?_, fun ex hex => (hord.replies ex hex).1, hord.last, fun w x out err st => startIter_leftOver D w c.h x out err st,
    hest.client, hest.joined⟩
  · obtain ⟨st, hw, -⟩ := hord.word
    exact phase_complete hw
  · intro pre ex post heq hop
    have hmem : ex ∈ c.exchanges := by rw [heq]; simp
    have herr : ex.err ≠ none := (hord.replies ex hmem).2 hop
    refine ⟨?_, ?_⟩
    · by_contra hpost
      have hdrop : ex ∈ c.exchanges.dropLast := by
        rw [heq, List.dropLast_append_of_ne_nil (by simp), List.dropLast_cons_of_ne_nil hpost]
        simp
      exact herr (hord.errorLast ex hdrop)
    · by_contra hopen
      obtain ⟨st, -, hs⟩ := hord.word
      exact herr ((hs hopen).2 ex hmem)

/-- A session that does all of it. -/
theorem serve_session_protocol_sample :
    ∃ s c, serve .plain (.rep 9)
        [.enter (), .act 0 ⟨Sample.member "alice" none 2, [.rep 1]⟩,
         .act 0 ⟨Sample.create "c" 2, [.rep 5]⟩, .act 0 ⟨Sample.joinByName "c", []⟩,
         .act 0 ⟨Sample.get (.rep 5) 3, []⟩, .act 0 ⟨Sample.bye, []⟩] = .ok s ∧ c ∈ s.parties ∧
      c.completed = [.doClientMsg, .doCreateMsg, .doJoinMsg, .doGetMsg, .doByeMsg] ∧
      ∃ t, c.completed ++ t ∈ sessionWord.matches' := by
  obtain ⟨s, hr, hp⟩ := Run.exists_of_ends (server .plain).next (ServerState.init (.rep 9))
    [.enter (), .act 0 ⟨Sample.member "alice" none 2, [.rep 1]⟩,
      .act 0 ⟨Sample.create "c" 2, [.rep 5]⟩, .act 0 ⟨Sample.joinByName "c", []⟩,
      .act 0 ⟨Sample.get (.rep 5) 3, []⟩, .act 0 ⟨Sample.bye, []⟩]
    (fun s => s.parties.any fun c => decide
      (c.completed = [.doClientMsg, .doCreateMsg, .doJoinMsg, .doGetMsg, .doByeMsg])) (by decide)
  obtain ⟨c, hc, hw⟩ := List.any_eq_true.1 hp
  exact ⟨s, c, hr, hc, of_decide_eq_true hw, (serve_session_protocol hr hc).1⟩

end XlReg
