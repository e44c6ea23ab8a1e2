import XlReg.Proofs.Interleaved
import XlReg.Proofs.Membership

/-! No Join is lost and none counts twice. When the sections of many sessions interleave, the members
of a listed cluster are, one for one, the clients of the sessions that were sent a JoinReply with its
ID, and of those whose Join has made its append and has not been answered yet. -/

namespace XlReg

open Code

def Round.appendedTo (D : Deps) (h : InHandler) (r : Round) : Option Bytes :=
  if r.handler = .doJoinMsg ∧ 3 < r.met.length then
    r.met.head?.bind fun w => (joinLookup D w { h with msgIn := r.msg }).1.map w.idAt
  else none

def Routine.told (b : Bytes) (c : Routine) : Bool := c.finished.any (·.exchange.joined b)

def Routine.appending (D : Deps) (b : Bytes) (c : Routine) : Bool :=
  c.round.any fun r => decide (r.appendedTo D c.h = some b)

def Routine.joinedAs (D : Deps) (b : Bytes) (c : Routine) : Option ClientInfo :=
  if c.told b || c.appending D b then c.h.thisClient else none

structure Routine.Informed (D : Deps) (c : Routine) : Prop where
  early : c.h.entryState.Early → ∀ b, c.told b = false
  introduced : ∀ m, c.h.thisClient = some m → ∃ f ∈ c.finished, f.exchange.Introduces D m

def World.Reserved (w : World) : Prop :=
  ∀ (p : Ptr) rc, w.heap[p]? = some rc → p ∉ w.reg.clusters → rc.members = []

section Sections

variable {D : Deps} {h : InHandler} {f : HandlerName} {met : List World} {w w' : World}

theorem Quiet.reserved (hw : w.Reserved) (hq : Quiet D w w') : w'.Reserved := by
  cases hq with
  | read => exact hw
  | recorded b => exact hw
  | introduced => exact hw
  | made hf =>
    intro p rc hp hno
    simp only [World.alloc] at hp
    by_cases hlt : p < w.heap.length
    · rw [List.getElem?_append_left hlt] at hp
      exact hw p rc hp hno
    · rw [List.getElem?_append_right (Nat.not_lt.1 hlt)] at hp
      rw [List.mem_singleton.1 (List.mem_of_getElem? hp)]
      exact hf
  | handed ha =>
    intro p rc hp hno
    rw [addCluster_heap ha] at hp
    exact hw p rc hp fun hmem => hno ((World.grows_addCluster ha).clusters.subset hmem)

theorem Section.reserved (hw : w.Reserved) (hs : f.Section D h met w w') : w'.Reserved := by
  cases hs with
  | quiet _ hq => exact hq.reserved hw
  | looked _ => exact hw
  | appended hturn hfirst hfound hm hmem hp hsame =>
    rename_i w₀ p rc m
    intro q rc' hq hno
    have hne : p ≠ q := by
      rintro rfl
      exact hno hmem
    simp only [World.store] at hq
    rw [List.getElem?_set_ne hne] at hq
    exact hw q rc' hq hno

theorem Quiet.roster (hq : Quiet D w w') (b : Bytes) : w'.roster b = w.roster b := by
  cases hq with
  | read => rfl
  | recorded b => rfl
  | introduced => rfl
  | made hf => exact World.roster_alloc w hf b
  | handed ha => rw [World.roster, addCluster_heap ha, World.roster]

end Sections

theorem World.roster_listed {D : Deps} {w : World} (hw : w.Consistent D) (hres : w.Reserved) {p : Ptr}
    {rc : RegCluster} (hmem : p ∈ w.reg.clusters) (hp : w.heap[p]? = some rc) :
    w.roster rc.id.value = rc.members := by
  unfold World.roster
  rw [Parties.sum_single hp, if_pos rfl]
  intro q rc' hq hne
  refine ite_eq_right_iff.2 fun hid => ?_
  -- of the listed clusters this is the only one with the ID, the others have no members
  have hno : q ∉ w.reg.clusters := by
    intro hq'
    have h1 := hw.byID.lookup_self hmem
    have h2 := hw.byID.lookup_self hq'
    rw [World.idAt_eq hp] at h1
    rw [World.idAt_eq hq, hid, h1] at h2
    exact hne (Option.some.inj h2).symm
  rw [hres q rc' hq hno]
  rfl

/-! A round, section by section. -/

section Round

variable {D : Deps} {h h' : InHandler} {w w' : World} {r : Round}

theorem appendedTo_of_ne (hf : r.handler ≠ .doJoinMsg) : r.appendedTo D h = none := by
  rw [Round.appendedTo, if_neg fun hc => hf hc.1]

theorem appendedTo_of_le (hlen : r.met.length ≤ 3) : r.appendedTo D h = none := by
  rw [Round.appendedTo, if_neg fun hc => absurd hc.2 (by omega)]

theorem appendedTo_of_join {w₀ : World} {p : Ptr} (hf : r.handler = .doJoinMsg) (hlen : 3 < r.met.length)
    (hfirst : r.met.head? = some w₀) (hl : joinLookup D w₀ { h with msgIn := r.msg } = (some p, none)) :
    r.appendedTo D h = some (w₀.idAt p) := by
  rw [Round.appendedTo, if_pos ⟨hf, hlen⟩, hfirst]
  simp [hl]

theorem appendedTo_snoc (hlen : r.handler = .doJoinMsg → r.met.length ≠ 3) (t : Task InHandler) (w : World) :
    Round.appendedTo D h { r with task := t, met := r.met ++ [w] } = r.appendedTo D h := by
  by_cases hf : r.handler = .doJoinMsg
  · rcases Nat.lt_or_ge 3 r.met.length with hlt | hle
    · have hhead : (r.met ++ [w]).head? = r.met.head? := by
        cases hm : r.met with
        | nil => simp [hm] at hlt
        | cons a l => rfl
      simp only [Round.appendedTo, hf, hhead, List.length_append, List.length_singleton]
      rw [if_pos ⟨trivial, by omega⟩, if_pos ⟨trivial, hlt⟩]
    · have hne := hlen hf
      rw [appendedTo_of_le hle, appendedTo_of_le]
      simp only [List.length_append, List.length_singleton]
      omega
  · rw [appendedTo_of_ne hf, appendedTo_of_ne]
    exact hf

theorem section_roster (hs : r.handler.Section D { h with msgIn := r.msg } r.met w w') (t : Task InHandler)
    (b : Bytes) :
    (w'.roster b = w.roster b ∧
      Round.appendedTo D h { r with task := t, met := r.met ++ [w] } = r.appendedTo D h) ∨
    ∃ m k, h.thisClient = some m ∧ r.handler = .doJoinMsg ∧ r.appendedTo D h = none ∧
      Round.appendedTo D h { r with task := t, met := r.met ++ [w] } = some k ∧
      w'.roster b = w.roster b + if k = b then {m} else 0 := by
  obtain ⟨msg, draws, f, task, met⟩ := r
  cases hs with
  | quiet hother hq => exact .inl ⟨hq.roster b, appendedTo_snoc (fun hf => absurd hf hother) t w⟩
  | looked hturn => exact .inl ⟨rfl, appendedTo_snoc (fun _ => hturn) t w⟩
  | appended hturn hfirst hfound hm hmem hp hsame =>
    rename_i w₀ p rc m
    have hg := rc.grows_append D m
    have hlen : met.length = 3 := hturn
    refine .inr ⟨m, rc.id.value, hm, rfl, appendedTo_of_le hlen.le, ?_, ?_⟩
    · rw [← hsame]
      refine appendedTo_of_join rfl ?_ ?_ hfound
      · simp only [List.length_append, List.length_singleton]
        omega
      · cases met with
        | nil => cases hfirst
        | cons a l => exact hfirst
    · exact World.roster_store hp hg.id (RegCluster.append_members D rc m) b

/-- A Join is answered with a JoinReply exactly if it has made its append. -/
theorem outcome_joined (hkey : D.KeysNodeIDs)
    (ho : r.handler.Outcome D { h with msgIn := r.msg } r.draws r.met w h') (b : Bytes) :
    (exchangeOf h r.msg r.handler h').joined b = decide (r.appendedTo D h = some b) := by
  obtain ⟨msg, draws, f, task, met⟩ := r
  have hno : f ≠ .doJoinMsg → decide (Round.appendedTo D h ⟨msg, draws, f, task, met⟩ = some b) = false := by
    intro hf
    rw [appendedTo_of_ne hf]
    rfl
  cases ho with
  | refused e _ hbefore =>
    have hap : Round.appendedTo D h ⟨msg, draws, f, task, met⟩ = none := by
      by_cases hf : f = .doJoinMsg
      · rcases hbefore hf with hle | ⟨m, -, hbad⟩
        · exact appendedTo_of_le hle
        · exact absurd (hkey m.nodeID) hbad
      · exact appendedTo_of_ne hf
    rw [hap]
    exact joined_of_reply rfl (by simp [errorMsg, Tag.error, Tag.joinReply]) b
  | accepted hi =>
    rw [hno (by simp)]
    exact joined_of_reply rfl (by simp [memberOK, Tag.memberOK, Tag.joinReply]) b
  | notAdded e hp =>
    rw [hno (by simp)]
    exact joined_of_reply rfl (by simp [errorMsg, Tag.error, Tag.joinReply]) b
  | created hnew hmem hp hg =>
    rw [hno (by simp)]
    exact joined_of_reply rfl (by simp [createReply, Tag.createReply, Tag.joinReply]) b
  | found hmem hp hname =>
    rw [hno (by simp)]
    exact joined_of_reply rfl (by simp [createReply, Tag.createReply, Tag.joinReply]) b
  | joined hturns hfirst hfound hm hmem hp hin hsame hname =>
    rw [appendedTo_of_join rfl (by simp [hturns]) hfirst hfound, hsame]
    simp [Exchange.joined, exchangeOf, respond, InHandler.reply, joinReply]
  | answered hseen hwhole =>
    rw [hno (by simp)]
    obtain ⟨-, ⟨e, rfl⟩ | ⟨s, rfl⟩⟩ := doGetMsg_ok hwhole
    · exact joined_of_reply rfl (by simp [errorMsg, Tag.error, Tag.joinReply]) b
    · exact joined_of_reply rfl (by simp [getReply, Tag.clusterMembers, Tag.joinReply]) b
  | bye =>
    rw [hno (by simp)]
    exact joined_of_reply rfl (by simp [Tag.ack, Tag.joinReply]) b

end Round

/-! A session. -/

/-- What the end of a round can do to what a session knows of itself. -/
theorem Outcome.client {D : Deps} {h h' : InHandler} {draws : List NodeID} {f : HandlerName}
    {met : List World} {w : World} (hf : f = .badCombo ∨ (h.entryState, f) ∈ permitted)
    (ho : f.Outcome D h draws met w h') :
    ((afterRound h').thisClient = h.thisClient ∧ ((afterRound h').entryState.Early →
      h.entryState.Early ∧ ∀ b, (exchangeOf h h.msgIn f h').joined b = false)) ∨
    (h.entryState = .helloRcvd ∧ (∀ b, (exchangeOf h h.msgIn f h').joined b = false) ∧
      ∃ m, (afterRound h').thisClient = some m ∧ (exchangeOf h h.msgIn f h').Introduces D m) := by
  have hlate : ∀ h₁ : InHandler, h₁.thisClient = h.thisClient → ¬ h₁.entryState.Early →
      h₁.thisClient = h.thisClient ∧ (h₁.entryState.Early →
        h.entryState.Early ∧ ∀ b, (exchangeOf h h.msgIn f h').joined b = false) :=
    fun _ hcl hno => ⟨hcl, fun he => absurd he hno⟩
  have hcreate : f = .doCreateMsg → h.entryState.Early := by
    rintro rfl
    unfold InState.Early
    revert hf
    cases h.entryState <;> decide
  cases ho with
  | refused e _ _ => exact .inl (hlate _ rfl (by simp [afterRound_fail, InState.Early]))
  | accepted hi =>
    have hst : h.entryState = .helloRcvd := by
      revert hf
      cases h.entryState <;> decide
    exact .inr ⟨hst, joined_of_reply rfl (by simp [memberOK, Tag.memberOK, Tag.joinReply]), _, rfl,
      hi.verified, hi.name, hi.attrs, hi.myEnds, hi.proposed, rfl⟩
  | notAdded e hp => exact .inl (hlate _ rfl (by simp [afterRound_fail, InState.Early]))
  | created hnew hmem hp hg =>
    exact .inl ⟨rfl, fun _ => ⟨hcreate rfl,
      joined_of_reply rfl (by simp [createReply, Tag.createReply, Tag.joinReply])⟩⟩
  | found hmem hp hname =>
    exact .inl ⟨rfl, fun _ => ⟨hcreate rfl,
      joined_of_reply rfl (by simp [createReply, Tag.createReply, Tag.joinReply])⟩⟩
  | joined _ _ _ hm hmem hp hin _ hname =>
    exact .inl (hlate _ rfl (by simp [afterRound_reply, InState.Early]))
  | answered hseen hwhole =>
    obtain ⟨-, ⟨e, rfl⟩ | ⟨s, rfl⟩⟩ := doGetMsg_ok hwhole
    · exact .inl (hlate _ rfl (by simp [afterRound_fail, InState.Early]))
    · exact .inl (hlate _ rfl (by simp [afterRound_reply, InState.Early]))
  | bye => exact .inl (hlate _ rfl (by simp [afterRound_reply, InState.Early]))

theorem told_settle (c : Routine) (msg : XLRegMsg) (draws : List NodeID) (f : HandlerName) (h' : InHandler)
    (met : List World) (b : Bytes) :
    Routine.told b (c.settle ⟨msg, draws, f, .done h', met⟩) =
      (c.told b || (exchangeOf c.h msg f h').joined b) := by
  simp [Routine.told, Routine.settle, exchangeOf]

section Settle

variable {D : Deps} {w : World} {c : Routine} {r : Round} (hc : c.Informed D)
  (hd : dispatch c.h.entryState (op2tag r.msg.getOp) = some r.handler)
  (hm : Copes D { c.h with msgIn := r.msg } r.draws r.handler r.task r.met w)
include hc hd hm

theorem settle_informed : (c.settle r).Informed D := by
  obtain ⟨msg, draws, f, task, met⟩ := r
  cases task with
  | stop x => exact ⟨hc.early, hc.introduced⟩
  | sect op next => exact ⟨hc.early, hc.introduced⟩
  | done h' =>
    have hout : f.Outcome D { c.h with msgIn := msg } draws met w h' := hm
    rcases Outcome.client (h := { c.h with msgIn := msg }) (dispatch_permitted hd) hout with
      ⟨hcl, hearly⟩ | ⟨hst, hno, m, hcl, hi⟩
    · refine ⟨fun he b => ?_, fun m hmm => ?_⟩
      · obtain ⟨he', hno⟩ := hearly he
        rw [told_settle, hc.early he' b, Bool.false_or]
        exact hno b
      · obtain ⟨g, hg, hi⟩ := hc.introduced m (hcl ▸ hmm)
        exact ⟨g, List.mem_append_left _ hg, hi⟩
    · refine ⟨fun _ b => ?_, fun m' hm' => ?_⟩
      · rw [told_settle, hc.early (.inl hst) b, Bool.false_or]
        exact hno b
      · cases hcl.symm.trans hm'
        exact ⟨_, List.mem_append_right _ (List.mem_singleton_self _), hi⟩

theorem settle_joinedAs (hkey : D.KeysNodeIDs) (b : Bytes) :
    (c.settle r).joinedAs D b = Routine.joinedAs D b { c with round := some r } := by
  obtain ⟨msg, draws, f, task, met⟩ := r
  cases task with
  | stop x => rfl
  | sect op next => rfl
  | done h' =>
    have hout : f.Outcome D { c.h with msgIn := msg } draws met w h' := hm
    have hjoined := outcome_joined (r := ⟨msg, draws, f, .done h', met⟩) hkey hout b
    have htold : Routine.told b { c with round := some ⟨msg, draws, f, .done h', met⟩ } = c.told b := rfl
    simp only [Routine.joinedAs, told_settle, hjoined, htold, Routine.appending, Option.any_some]
    change (if _ || Option.any _ none then (afterRound h').thisClient else none) = _
    rw [Option.any_none, Bool.or_false]
    rcases Outcome.client (h := { c.h with msgIn := msg }) (dispatch_permitted hd) hout with
      ⟨hcl, -⟩ | ⟨hst, hno, -⟩
    · rw [hcl]
    · -- a client that has only just been introduced is in no cluster
      have hnone : decide (Round.appendedTo D c.h ⟨msg, draws, f, .done h', met⟩ = some b) = false := by
        rw [← hjoined]
        exact hno b
      rw [hnone, hc.early (.inl hst) b]
      rfl

end Settle

section Receive

variable {D : Deps} (hmap : D.HamtTotal) {w : World} {c c' : Routine} (hs : c.Sound D w)
  {x : Input} (h : c.receive D x = .ok c')
include hmap hs h

theorem receive_informed (hc : c.Informed D) : c'.Informed D := by
  rcases receive_begins hmap hs h with rfl | ⟨r, -, -, rfl, hd, hm⟩
  · exact hc
  · exact settle_informed hc hd hm

theorem receive_joinedAs (hc : c.Informed D) (hkey : D.KeysNodeIDs) (b : Bytes) : c'.joinedAs D b = c.joinedAs D b := by
  rcases receive_begins hmap hs h with rfl | ⟨r, hidle, hmet, rfl, hd, hm⟩
  · rfl
  · rw [settle_joinedAs hc hd hm hkey]
    have hnone : r.appendedTo D c.h = none := appendedTo_of_le (by simp [hmet])
    simp [Routine.joinedAs, Routine.appending, Routine.told, hidle, hnone]

end Receive

/-- A section puts into the clusters what it adds to its session's part. -/
theorem section_balanced {D : Deps} {w w' : World} {c : Routine} {r : Round} (hc : c.Informed D)
    (hr : c.round = some r) (hd : dispatch c.h.entryState (op2tag r.msg.getOp) = some r.handler)
    (hs : r.handler.Section D { c.h with msgIn := r.msg } r.met w w') (t : Task InHandler) (b : Bytes) :
    w'.roster b + ↑(c.joinedAs D b).toList = w.roster b +
      ↑(Routine.joinedAs D b { c with round := some { r with task := t, met := r.met ++ [w] } }).toList := by
  have htold : ∀ x, Routine.told b { c with round := x } = c.told b := fun _ => rfl
  simp only [Routine.joinedAs, Routine.appending, htold, hr, Option.any_some]
  rcases section_roster hs t b with ⟨hroster, hsame⟩ | ⟨m, k, hm, hf, hnone, hsome, hroster⟩
  · rw [hroster, hsame]
  · have hearly : c.h.entryState.Early := by
      have hperm := dispatch_permitted hd
      rw [hf] at hperm
      unfold InState.Early
      revert hperm
      cases c.h.entryState <;> decide
    rw [hroster, hnone, hsome, hc.early hearly b, hm]
    by_cases hk : k = b
    · simp [hk]
    · simp [hk]

theorem joinedOnce_contract {D : Deps} (hmap : D.HamtTotal) :
    Parties.Contract (concurrent D) (fun _ _ _ => True) (fun w => w.Consistent D ∧ w.Reserved)
      (fun w w' => w.Consistent D → Others D w w') (fun w c => c.Sound D w ∧ c.Informed D) where
  start w u hw := ⟨(interleaved_contract hmap).start w u hw.1, fun _ _ => rfl, fun _ hm => (by cases hm)⟩
  step w c a w' c' hw hc _ hs := by
    obtain ⟨hcons, hoth, hsound⟩ := (interleaved_contract hmap).step w c a w' c' hw.1 hc.1 trivial hs
    cases a with
    | some x =>
      obtain ⟨c₁, hr, heq⟩ := Run.map_ok hs
      cases heq
      exact ⟨hw, hoth, hsound, receive_informed hmap hc.1 hr hc.2⟩
    | none =>
      rcases proceed_cases hs with ⟨-, rfl, rfl⟩ | ⟨r, t, hr, hst, rfl⟩
      · exact ⟨hw, hoth, hsound, hc.2⟩
      · obtain ⟨hd, hun, u, hu, hm⟩ := hc.1.running r hr
        obtain ⟨hsec, hm'⟩ := hm.step hu hun hst
        exact ⟨⟨hcons, Section.reserved hw.2 hsec⟩, hoth, hsound,
          settle_informed (r := { r with task := t, met := r.met ++ [w] }) hc.2 hd hm'⟩
  stable w w' c hw hc hg := ⟨hc.1.of_others (hg hw.1), hc.2⟩

end XlReg
