import XlReg.Sanity.Plain
import XlReg.Sanity.Rounds

/-! The lookup in the dispatch table. A tag out of range only sets `errOut`; the table is
indexed all the same, and it has no row for BYE_RCVD. The lookup is inside the table exactly
for the ops 2 to 12 and before a Bye has been acknowledged. The division in `op2tag` gives two
ops one column (three share the first), so that a reply's op is taken for a request's wherever
the state permits that request. -/

namespace XlReg

/-- The ops whose tag is in range: the subtraction may wrap, but never back into the range,
and -1 is divided to 0. -/
theorem op2tag_range (op : Int32) :
    (MIN_TAG ≤ op2tag op ∧ op2tag op ≤ MAX_TAG) ↔ 2 ≤ op.toInt ∧ op.toInt ≤ 12 := by
  have hlt := op.toInt_lt
  have hle := op.le_toInt
  have h3 : Tag.member.toInt = 3 := by decide
  unfold op2tag MIN_TAG MAX_TAG
  rw [Int32.toInt_sub, h3]
  -- the wrapped difference, then the truncated quotient by its two cases
  have hb : (op.toInt - 3).bmod (2 ^ 32) = op.toInt - 3 ∨
      (op.toInt < -2147483645 ∧ (op.toInt - 3).bmod (2 ^ 32) = op.toInt - 3 + 4294967296) := by
    rw [Int.bmod_def]
    split_ifs <;> omega
  have hq : ∀ a : ℤ, (0 ≤ a.tdiv 2 ∧ a.tdiv 2 ≤ 4) ↔ -1 ≤ a ∧ a ≤ 9 := by
    intro a
    rcases le_or_gt 0 a with ha | ha
    · rw [Int.tdiv_eq_ediv_of_nonneg ha]
      omega
    · have hneg : a.tdiv 2 = -((-a) / 2) := by
        rw [← Int.tdiv_eq_ediv_of_nonneg (by omega : 0 ≤ -a), Int.neg_tdiv, neg_neg]
      rw [hneg]
      omega
  rw [hq]
  rcases hb with hb | ⟨hs, hb⟩
  · rw [hb]; omega
  · rw [hb]; omega

/-- The round a session is about to start finds its handler in the table. -/
def InTable (_ : Service) (c : Session) (x : Input) : Prop :=
  c.h.entryState ≠ .inClosed → dispatch c.h.entryState (op2tag x.msg.getOp) ≠ none

/-- No Bye has been acknowledged yet and the op is one from 2 to 12. -/
def Expected (_ : Service) (c : Session) (x : Input) : Prop :=
  c.h.entryState ≠ .inClosed →
    c.h.entryState ≠ .byeRcvd ∧ 2 ≤ x.msg.getOp.toInt ∧ x.msg.getOp.toInt ≤ 12

theorem inTable_iff (s : Service) (c : Session) (x : Input) : InTable s c x ↔ Expected s c x := by
  unfold InTable Expected
  apply imp_congr_right
  intro hopen
  rw [dispatch_isSome_iff, op2tag_range]
  apply and_congr_left
  intro _
  revert hopen
  cases c.h.entryState <;> simp [InState.toNat]

/-- In every run, of any number of sessions and any messages, the lookups are all inside the
table if and only if every message read comes before a Bye was acknowledged on its session
and has an op from 2 to 12. A lookup outside ends the server; a round that comes back has
run an entry of the table without error, or answered with an Error message and closed. -/
theorem dispatch_in_table_iff (D : Deps) (regID : NodeID) (evs : List ServerEvent) :
    (Run.Along (server D).next (Parties.On InTable) (ServerState.init regID) evs ↔
      Run.Along (server D).next (Parties.On Expected) (ServerState.init regID) evs) ∧
    (∀ s c x, ¬ InTable s c x → sessionStep D s c x = .error .indexOutOfRange) ∧
    (∀ s c x s' c', c.h.entryState ≠ .inClosed → sessionStep D s c x = .ok (s', c') →
      ∃ ex, c'.exchanges = c.exchanges ++ [ex] ∧ c'.h.msgOut = ex.reply ∧
        dispatch c.h.entryState (op2tag x.msg.getOp) = some ex.handler ∧
        (ex.err = none ∨ ∃ e, ex.reply = some (errorMsg e) ∧ c'.h.entryState = .inClosed)) := by
  refine ⟨Parties.along_on_congr inTable_iff, ?_, ?_⟩
  · intro s c x hout
    obtain ⟨hopen, hd⟩ := Classical.not_imp.1 hout
    unfold sessionStep
    rw [if_neg hopen, startIter_outside (not_not.1 hd)]
  · intro s c x s' c' hopen hr
    rcases sessionStep_ok hr with ⟨hcl, -, -⟩ | ⟨-, w, h, ex, hi, -, rfl⟩
    · exact absurd hcl hopen
    · obtain ⟨f, h1, hd, -, -, hex⟩ := startIter_ok hi
      have hf : f = ex.handler := by rw [hex]
      rcases startIter_outcome hi with ⟨e, -, hrep, hm, hcl⟩ | ⟨he, -, -, hm, -⟩
      · exact ⟨ex, rfl, hm, hf ▸ hd, .inr ⟨e, hrep, hcl⟩⟩
      · exact ⟨ex, rfl, hm, hf ▸ hd, .inl he⟩

/-- A first message without op, one with the op of an Error message, and any message after a
Bye: each ends the server. -/
theorem dispatch_faults :
    (¬ Run.Along (server .plain).next (Parties.On InTable) (ServerState.init (.rep 9))
      [.enter (), .act 0 ⟨{}, []⟩]) ∧
    serve .plain (.rep 9) [.enter (), .act 0 ⟨{}, []⟩] = .error .indexOutOfRange ∧
    serve .plain (.rep 9) [.enter (), .act 0 ⟨{ op := some 13 }, []⟩] = .error .indexOutOfRange ∧
    serve .plain (.rep 9) [.enter (), .act 0 ⟨{ op := some 11 }, []⟩, .act 0 ⟨{ op := some 11 }, []⟩] =
      .error .indexOutOfRange := by
  refine ⟨fun h => ?_, rfl, rfl, rfl⟩
  exact (h.2 _ rfl).1 {} rfl (by decide) (by decide)

/-! Ops and requests. -/

def HandlerName.requestOp : HandlerName → Option Int32
  | .badCombo => none
  | .doClientMsg => some Tag.member
  | .doCreateMsg => some Tag.create
  | .doJoinMsg => some Tag.join
  | .doGetMsg => some Tag.getCluster
  | .doByeMsg => some Tag.bye

def requests : List (Int32 × HandlerName) :=
  [(Tag.member, .doClientMsg), (Tag.create, .doCreateMsg), (Tag.join, .doJoinMsg),
   (Tag.getCluster, .doGetMsg), (Tag.bye, .doByeMsg)]

def requestOps : List Int32 := requests.map (·.1)

def waiting : List InState := [.helloRcvd, .clientDetailsRcvd, .createRequestRcvd, .joinRcvd]

/-- What the dispatch is for: a handler runs on the op of its own request only, and an op that
is no request's is answered with an Error message that closes the session. -/
structure OpRight (D : Deps) (w : World) (h : InHandler) (x : Input) : Prop where
  own : ∀ f, dispatch h.entryState (op2tag x.msg.getOp) = some f →
    f = .badCombo ∨ f.requestOp = some x.msg.getOp
  others : x.msg.getOp ∉ requestOps → ∃ w' h' ex e, startIter D w h x = .ok (w', h', ex) ∧
    ex.reply = some (errorMsg e) ∧ h'.entryState = .inClosed

/-- The ops that are no request's and share a column with one. -/
def sharedColumn : List (Int32 × HandlerName) :=
  [(2, .doClientMsg), (Tag.memberOK, .doClientMsg), (Tag.createReply, .doCreateMsg),
   (Tag.joinReply, .doJoinMsg), (Tag.clusterMembers, .doGetMsg), (Tag.ack, .doByeMsg)]

theorem mem_of_range {op : Int32} (h2 : 2 ≤ op.toInt) (h12 : op.toInt ≤ 12) :
    op ∈ requestOps ++ sharedColumn.map (·.1) := by
  have hop : op = Int32.ofInt op.toInt := by simp
  generalize op.toInt = n at *
  subst hop
  interval_cases n <;> decide

theorem dispatch_column : ∀ a ∈ requests ++ sharedColumn, ∀ s ∈ waiting,
    dispatch s (op2tag a.1) = some (if (s, a.2) ∈ permitted then a.2 else .badCombo) := by decide

theorem requests_own : ∀ a ∈ requests, a.2.requestOp = some a.1 := by decide

theorem sharedColumn_not_own : ∀ a ∈ sharedColumn, a.2 ≠ .badCombo ∧ a.2.requestOp ≠ some a.1 := by
  decide

theorem startIter_badCombo {D : Deps} {w : World} {h : InHandler} {x : Input}
    (hd : dispatch h.entryState (op2tag x.msg.getOp) = some .badCombo) :
    ∃ h' ex, startIter D w h x = .ok (w, h', ex) ∧
      ex.reply = some (errorMsg .rcvdInvalidMsgForState) ∧ h'.entryState = .inClosed := by
  rw [startIter_inside hd]
  exact ⟨_, _, rfl, rfl, rfl⟩

/-- For every op and every state before Bye: the dispatch is right if and only if the op is a
request's, or it shares its column with a request that the state does not permit. -/
theorem startIter_op_right_iff (D : Deps) (w : World) {h : InHandler} (hs : h.entryState ∈ waiting)
    (x : Input) :
    OpRight D w h x ↔ x.msg.getOp ∈ requestOps ∨
      ∃ f, (x.msg.getOp, f) ∈ sharedColumn ∧ (h.entryState, f) ∉ permitted := by
  constructor
  · intro hr
    by_contra hno
    obtain ⟨hreq, hcol⟩ := not_or.1 hno
    obtain ⟨w', h', ex, e, hi, -, -⟩ := hr.others hreq
    obtain ⟨f, h1, hd, -, -, -⟩ := startIter_ok hi
    have hin := (dispatch_isSome_iff _ _).1 (by rw [hd]; exact Option.some_ne_none f)
    obtain ⟨h2, h12⟩ := (op2tag_range _).1 hin.2
    rcases List.mem_append.1 (mem_of_range h2 h12) with hmem | hmem
    · exact hreq hmem
    · obtain ⟨⟨op, g⟩, hg, hop⟩ := List.mem_map.1 hmem
      obtain rfl : op = x.msg.getOp := hop
      have hdisp := dispatch_column _ (List.mem_append_right _ hg) _ hs
      have hperm : (h.entryState, g) ∈ permitted := by
        by_contra hn
        exact hcol ⟨g, hg, hn⟩
      rw [if_pos hperm] at hdisp
      -- the handler of the column runs on an op that is not its own
      obtain ⟨hbad, hne⟩ := sharedColumn_not_own _ hg
      rcases hr.own g hdisp with heq | heq
      · exact hbad heq
      · exact hne heq
  · rintro (hreq | ⟨f, hf, hperm⟩)
    · refine ⟨fun f hd => ?_, fun hno => absurd hreq hno⟩
      obtain ⟨⟨op, g⟩, hg, hop⟩ := List.mem_map.1 hreq
      obtain rfl : op = x.msg.getOp := hop
      rw [dispatch_column _ (List.mem_append_left _ hg) _ hs] at hd
      obtain rfl := Option.some.inj hd
      split_ifs
      · exact .inr (requests_own _ hg)
      · exact .inl rfl
    · have hdisp := dispatch_column _ (List.mem_append_right _ hf) _ hs
      rw [if_neg hperm] at hdisp
      refine ⟨fun g hg => .inl ?_, fun _ => ?_⟩
      · rw [hdisp] at hg
        exact (Option.some.inj hg).symm
      · obtain ⟨h', ex, hi, hrep, hcl⟩ := startIter_badCombo (D := D) (w := w) hdisp
        exact ⟨w, h', ex, _, hi, hrep, hcl⟩

/-- A CreateReply sent to a session in HELLO_RCVD is refused as it should be. -/
theorem startIter_op_right_iff_sample :
    OpRight .plain (World.init (.rep 9)) {} ⟨{ op := some Tag.createReply }, []⟩ :=
  (startIter_op_right_iff .plain (World.init (.rep 9)) (h := {}) (by decide) _).2
    (.inr ⟨.doCreateMsg, by decide, by decide⟩)

/-- A MemberOK is handled as a Member message and answered with MemberOK, and an Ack as a Bye;
an Error message ends the server. -/
theorem startIter_op_faults :
    (¬ OpRight .plain (World.init (.rep 9)) {}
      ⟨{ Sample.member "a" none 2 with op := some Tag.memberOK }, [.rep 1]⟩) ∧
    (∃ s, serve .plain (.rep 9)
        [.enter (), .act 0 ⟨{ Sample.member "a" none 2 with op := some Tag.memberOK }, [.rep 1]⟩,
         .act 0 ⟨{ op := some Tag.ack }, []⟩] = .ok s ∧
      s.shared.log.map (·.handler) = [.doClientMsg, .doByeMsg] ∧
      s.shared.log.map (·.reply) = [some (memberOK (.rep 1) 0), some { op := some Tag.ack }]) ∧
    (¬ OpRight .plain (World.init (.rep 9)) {} ⟨{ op := some Tag.error }, []⟩) := by
  refine ⟨fun h => ?_, ?_, fun h => ?_⟩
  · exact absurd (h.own .doClientMsg (by decide)) (by decide)
  · obtain ⟨s, hr, hp⟩ := Run.exists_of_ends (server .plain).next (ServerState.init (.rep 9))
      [.enter (), .act 0 ⟨{ Sample.member "a" none 2 with op := some Tag.memberOK }, [.rep 1]⟩,
        .act 0 ⟨{ op := some Tag.ack }, []⟩]
      (fun s => decide (s.shared.log.map (·.handler) = [.doClientMsg, .doByeMsg] ∧
        s.shared.log.map (·.reply) = [some (memberOK (.rep 1) 0), some { op := some Tag.ack }]))
      (by decide)
    obtain ⟨hh, hrep⟩ := of_decide_eq_true hp
    exact ⟨s, hr, hh, hrep⟩
  · obtain ⟨w', h', ex, e, hi, -, -⟩ := h.others (by decide)
    cases hi

end XlReg
