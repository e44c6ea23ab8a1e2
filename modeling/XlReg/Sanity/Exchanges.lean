import XlReg.Sanity.Plain
import XlReg.Spec.MemberNode

/-! What the steps of a client do with the answers they read. `GetAndMembers` makes any number of
requests up to its limit; what it reports is decided by the last of them. -/

namespace XlReg

open Run

variable {D : Deps}

/-- What a step takes as the answer to its request: a failure to write it or to read one, or a
message, nil counting as empty. -/
def Turn.answer (t : Turn) : Except Err XLRegMsg :=
  match t.write with
  | some e => .error e
  | none => t.read.map (·.getD {})

theorem Turn.answer_ok_iff {t : Turn} {m : XLRegMsg} :
    t.answer = .ok m ↔ t.write = none ∧ ∃ mo, t.read = .ok mo ∧ mo.getD {} = m := by
  unfold Turn.answer
  cases t.write with
  | some e => simp
  | none =>
    cases t.read with
    | error e => simp [Except.map]
    | ok mo => simp [Except.map]

/-! The loops over the slots. -/

/-- The loop that clears bits goes through when all its slots are there. -/
theorem clearFilled_cases (members : List (Option MemberInfo)) (n i : ℕ) (still : UInt64) :
    ((n = 0 ∨ i + n ≤ members.length) ∧ ∃ still', clearFilled D members n i still = .ok still') ∨
    ((0 < n ∧ members.length < i + n) ∧ clearFilled D members n i still = .error .indexOutOfRange) := by
  induction n generalizing i still with
  | zero => exact .inl ⟨.inl rfl, still, rfl⟩
  | succ n ih =>
    unfold clearFilled
    cases hi : members[i]? with
    | none =>
      have hlen := List.getElem?_eq_none_iff.1 hi
      exact .inr ⟨by omega, rfl⟩
    | some v =>
      have hlen := (List.getElem?_eq_some_iff.1 hi).1
      have hstep : ∀ still, ((n + 1 = 0 ∨ i + (n + 1) ≤ members.length) ∧
          ∃ still', clearFilled D members n (i + 1) still = .ok still') ∨
          ((0 < n + 1 ∧ members.length < i + (n + 1)) ∧
            clearFilled D members n (i + 1) still = .error .indexOutOfRange) := by
        intro still
        rcases ih (i + 1) still with ⟨hn, h⟩ | ⟨hn, h⟩
        · exact .inl ⟨by omega, h⟩
        · exact .inr ⟨by omega, h⟩
      cases v with
      | none => exact hstep _
      | some mi => exact hstep _

theorem findSelf_cases (nodeID : NodeID) (members : List (Option MemberInfo)) (old n i : ℕ) :
    (∃ k, findSelf nodeID members old n i = .ok k) ∨
    ((0 < n ∧ members.length < i + n) ∧ findSelf nodeID members old n i = .error .indexOutOfRange) := by
  induction n generalizing i with
  | zero => exact .inl ⟨old, rfl⟩
  | succ n ih =>
    have hstep : i < members.length → (∃ k, findSelf nodeID members old n (i + 1) = .ok k) ∨
        ((0 < n + 1 ∧ members.length < i + (n + 1)) ∧
          findSelf nodeID members old n (i + 1) = .error .indexOutOfRange) := by
      intro hi
      rcases ih (i + 1) with h | ⟨hn, h⟩
      · exact .inl h
      · exact .inr ⟨by omega, h⟩
    unfold findSelf
    cases hi : members[i]? with
    | none =>
      have hlen := List.getElem?_eq_none_iff.1 hi
      exact .inr ⟨by omega, rfl⟩
    | some v =>
      have hlen := (List.getElem?_eq_some_iff.1 hi).1
      cases v with
      | none => exact hstep hlen
      | some mi =>
        simp only
        split_ifs
        · exact .inl ⟨i, rfl⟩
        · exact hstep hlen

/-- The slots below `n` whose bits are in `which`. -/
def slotsIn (D : Deps) (which : UInt64) (n : ℕ) : List ℕ := (List.range n).filter (D.bits.test which)

/-- A reply has a token for each of its bits that stands for a slot. -/
def Enough (D : Deps) (size : ℕ) (m : XLRegMsg) : Prop :=
  (slotsIn D m.getWhich size).length ≤ m.tokens.length

instance (size : ℕ) (m : XLRegMsg) : Decidable (Enough D size m) :=
  inferInstanceAs (Decidable (_ ≤ _))

def received (D : Deps) (size : ℕ) (m : XLRegMsg) : List (ℕ × Token) :=
  (slotsIn D m.getWhich size).zip m.tokens

namespace MemberMaker

def unpacks (D : Deps) (draws : ℕ → NodeID) (mm : MemberMaker) (ts : List (ℕ × Token)) : MemberMaker :=
  ts.foldl (fun mm p => mm.unpack D (draws p.1) p.1 p.2) mm

theorem unpackAll_eq (which : UInt64) (tokens : List Token) (draws : ℕ → NodeID) (n i offset : ℕ)
    (mm : MemberMaker) :
    mm.unpackAll D which tokens draws n i offset =
      if ((List.range' i n).filter (D.bits.test which)).length ≤ (tokens.drop offset).length then
        .ok (mm.unpacks D draws
          (((List.range' i n).filter (D.bits.test which)).zip (tokens.drop offset)))
      else .error .indexOutOfRange := by
  induction n generalizing i offset mm with
  | zero => simp [unpackAll, unpacks]
  | succ n ih =>
    unfold unpackAll
    rw [List.range'_succ]
    by_cases hb : D.bits.test which i = true
    · rw [if_pos hb, List.filter_cons_of_pos hb]
      cases ht : tokens[offset]? with
      | none =>
        have hlen := List.getElem?_eq_none_iff.1 ht
        rw [List.drop_eq_nil_of_le hlen]
        simp
      | some t =>
        obtain ⟨hlt, hget⟩ := List.getElem?_eq_some_iff.1 ht
        have hdrop : tokens.drop offset = t :: tokens.drop (offset + 1) := by
          rw [List.drop_eq_getElem_cons hlt, hget]
        rw [hdrop]
        simp only [ih, List.length_cons, Nat.add_le_add_iff_right, List.zip_cons_cons]
        rfl
    · rw [if_neg hb, List.filter_cons_of_neg hb]
      exact ih (i + 1) offset mm

theorem unpack_kept (mm : MemberMaker) (draw : NodeID) (i : ℕ) (t : Token) :
    (mm.unpack D draw i t).clusterMaxSize = mm.clusterMaxSize ∧
    (mm.unpack D draw i t).members.length = mm.members.length := by
  unfold unpack
  split <;> exact ⟨rfl, List.length_set⟩

theorem unpacks_kept (draws : ℕ → NodeID) (mm : MemberMaker) (ts : List (ℕ × Token)) :
    (mm.unpacks D draws ts).clusterMaxSize = mm.clusterMaxSize ∧
    (mm.unpacks D draws ts).members.length = mm.members.length := by
  induction ts generalizing mm with
  | nil => exact ⟨rfl, rfl⟩
  | cons p ts ih =>
    obtain ⟨hsize, hlen⟩ := ih (mm.unpack D (draws p.1) p.1 p.2)
    obtain ⟨hsize1, hlen1⟩ := mm.unpack_kept (D := D) (draws p.1) p.1 p.2
    exact ⟨hsize.trans hsize1, hlen.trans hlen1⟩

/-- The last token decides the error. -/
theorem unpacks_err (draws : ℕ → NodeID) (mm : MemberMaker) (ts : List (ℕ × Token))
    (hmm : mm.err = none) :
    (mm.unpacks D draws ts).err =
      ts.getLast?.bind fun p => stop (newMemberInfoFromToken D (draws p.1) (some p.2)) := by
  rcases List.eq_nil_or_concat ts with rfl | ⟨ts, p, rfl⟩
  · exact hmm
  · rw [List.concat_eq_append, List.getLast?_concat, unpacks, List.foldl_append]
    simp only [List.foldl_cons, List.foldl_nil, unpack, Option.bind_some]
    cases newMemberInfoFromToken D (draws p.1) (some p.2) with
    | error e => rfl
    | ok mi => rfl

theorem unpackAll_reply (draws : ℕ → NodeID) (mm : MemberMaker) (m : XLRegMsg) (size : ℕ) :
    mm.unpackAll D m.getWhich m.tokens draws size 0 0 =
      if Enough D size m then .ok (mm.unpacks D draws (received D size m))
      else .error .indexOutOfRange := by
  rw [unpackAll_eq, ← List.range_eq_range', List.drop_zero]
  rfl

/-- All that a round can do after its request. -/
theorem exchange_eq (mm : MemberMaker) (t : Turn) :
    mm.exchange D t =
      match t.answer with
      | .error e => .ok ({ mm with err := some e }, false)
      | .ok m =>
        if Enough D mm.clusterMaxSize.toNat m then
          let mm' := { mm with err := none }.unpacks D t.draws (received D mm.clusterMaxSize.toNat m)
          .ok (mm', D.bits.any mm'.stillToGet)
        else .error .indexOutOfRange := by
  unfold exchange Turn.answer
  cases t.write with
  | some e => rfl
  | none =>
    cases t.read with
    | error e => rfl
    | ok m =>
      simp only [Except.map, unpackAll_reply]
      by_cases hany : D.bits.any (m.getD {}).getWhich = true
      · rw [if_pos hany]
        by_cases hen : Enough D mm.clusterMaxSize.toNat (m.getD {})
        · rw [if_pos hen, if_pos hen]
        · rw [if_neg hen, if_neg hen]
      · -- without bits there are no slots
        have hnil : slotsIn D (m.getD {}).getWhich mm.clusterMaxSize.toNat = [] := by
          rw [slotsIn, List.filter_eq_nil_iff]
          exact fun i _ hi => hany ((D.bits.any_iff _).2 ⟨i, hi⟩)
        rw [if_neg hany, if_pos (by rw [Enough, hnil]; exact Nat.zero_le _), received, hnil]
        rfl

end MemberMaker

/-- The error that a round of `GetAndMembers` leaves, if it does not fault. -/
def Turn.getErr (D : Deps) (size : ℕ) (t : Turn) : Option Err :=
  match t.answer with
  | .error e => some e
  | .ok m =>
    if Enough D size m then
      (received D size m).getLast?.bind fun p => stop (newMemberInfoFromToken D (t.draws p.1) (some p.2))
    else none

/-- The answer is none, or one with enough tokens. -/
def Turn.Unpacks (D : Deps) (size : ℕ) (t : Turn) : Prop := ∀ m, t.answer = .ok m → Enough D size m

instance (size : ℕ) (t : Turn) : Decidable (t.Unpacks D size) :=
  match h : t.answer with
  | .error e => isTrue (by simp [Turn.Unpacks, h])
  | .ok m => decidable_of_iff (Enough D size m) (by simp [Turn.Unpacks, h])

/-- A round faults, or leaves the error of its turn and a table of the same length. -/
theorem exchange_cases (mm : MemberMaker) (t : Turn) :
    (¬ t.Unpacks D mm.clusterMaxSize.toNat ∧ mm.exchange D t = .error .indexOutOfRange) ∨
    (t.Unpacks D mm.clusterMaxSize.toNat ∧ ∃ mm' again, mm.exchange D t = .ok (mm', again) ∧
      mm'.err = t.getErr D mm.clusterMaxSize.toNat ∧ mm'.clusterMaxSize = mm.clusterMaxSize ∧
      mm'.members.length = mm.members.length) := by
  rw [MemberMaker.exchange_eq]
  unfold Turn.Unpacks Turn.getErr
  cases t.answer with
  | error e => exact .inr ⟨fun m hm => (by cases hm), _, false, rfl, rfl, rfl, rfl⟩
  | ok m =>
    by_cases hen : Enough D mm.clusterMaxSize.toNat m
    · simp only [if_pos hen]
      obtain ⟨hsize, hlen⟩ := MemberMaker.unpacks_kept (D := D) t.draws { mm with err := none }
        (received D mm.clusterMaxSize.toNat m)
      exact .inr ⟨fun m' hm => (by cases hm; exact hen), _, _, rfl,
        MemberMaker.unpacks_err t.draws _ _ rfl, hsize, hlen⟩
    · simp only [if_neg hen]
      exact .inl ⟨fun h => hen (h m rfl), trivial⟩

/-- What a call of `GetAndMembers` comes to, by the requests it makes: none, so that it reports no
error, or some, the last of which decides. -/
def Decided (D : Deps) (size : UInt32) (length : ℕ) (asks : List Ask) (r : Except Abort (Option Err)) :
    Prop :=
  (∀ a ∈ asks, a.step = .getAndMembers ∧ a.size = size) ∧
  ((asks = [] ∧ (∀ e, r ≠ .ok (some e)) ∧ (size.toNat ≤ length → r ≠ .error .indexOutOfRange)) ∨
   (∃ pre a, asks = pre ++ [a] ∧ size.toNat ≤ length ∧ (∀ b ∈ pre, b.turn.Unpacks D size.toNat) ∧
     ((¬ a.turn.Unpacks D size.toNat ∧ r = .error .indexOutOfRange) ∨
      (a.turn.Unpacks D size.toNat ∧ r = .ok (a.turn.getErr D size.toNat)))))

/-- Without a request a call reports no error; it can only fault. -/
theorem decided_nil {size : UInt32} {length : ℕ} {r : Except Abort (Option Err)}
    (hr : r = .ok none ∨ r = .error .nilDeref ∨ (length < size.toNat ∧ r = .error .indexOutOfRange)) :
    Decided D size length [] r := by
  refine ⟨fun a ha => absurd ha List.not_mem_nil, .inl ⟨rfl, fun e he => ?_, fun hlen he => ?_⟩⟩
  · rcases hr with rfl | rfl | ⟨-, rfl⟩ <;> cases he
  · rcases hr with rfl | rfl | ⟨hshort, rfl⟩
    · cases he
    · cases he
    · omega

theorem decided_last {size : UInt32} {length : ℕ} {a : Ask} {r : Except Abort (Option Err)}
    (hstep : a.step = .getAndMembers) (hsize : a.size = size) (hlen : size.toNat ≤ length)
    (hr : (¬ a.turn.Unpacks D size.toNat ∧ r = .error .indexOutOfRange) ∨
      (a.turn.Unpacks D size.toNat ∧ r = .ok (a.turn.getErr D size.toNat))) :
    Decided D size length [a] r := by
  refine ⟨fun b hb => ?_, .inr ⟨[], a, rfl, hlen, fun b hb => absurd hb List.not_mem_nil, hr⟩⟩
  rw [List.mem_singleton.1 hb]
  exact ⟨hstep, hsize⟩

theorem Decided.cons {size : UInt32} {length : ℕ} {a : Ask} {asks : List Ask}
    {r : Except Abort (Option Err)} (h : Decided D size length asks r) (hne : asks ≠ [])
    (hstep : a.step = .getAndMembers) (hsize : a.size = size) (hun : a.turn.Unpacks D size.toNat) :
    Decided D size length (a :: asks) r := by
  obtain ⟨hsteps, ⟨hnil, -⟩ | ⟨pre, b, rfl, hlen, hpre, hb⟩⟩ := h
  · exact absurd hnil hne
  · refine ⟨List.forall_mem_cons.2 ⟨⟨hstep, hsize⟩, hsteps⟩, .inr ⟨a :: pre, b, rfl, hlen, ?_, hb⟩⟩
    exact List.forall_mem_cons.2 ⟨hun, hpre⟩

/-- In a table of the client's size only tokens can be missing. -/
theorem Decided.indexes_iff {size : UInt32} {length : ℕ} {asks : List Ask}
    {r : Except Abort (Option Err)} (h : Decided D size length asks r) (hlen : size.toNat ≤ length) :
    r ≠ .error .indexOutOfRange ↔ ∀ a ∈ asks, a.turn.Unpacks D size.toNat := by
  obtain ⟨-, ⟨rfl, -, hr⟩ | ⟨pre, a, rfl, -, hpre, ⟨hun, rfl⟩ | ⟨hun, rfl⟩⟩⟩ := h
  · exact ⟨fun _ a ha => absurd ha List.not_mem_nil, fun _ => hr hlen⟩
  · exact ⟨fun hne => absurd rfl hne,
      fun hall => absurd (hall a (List.mem_append_right _ List.mem_cons_self)) hun⟩
  · refine ⟨fun _ b hb => ?_, fun _ h => by cases h⟩
    rcases List.mem_append.1 hb with hb | hb
    · exact hpre b hb
    · rw [List.mem_singleton.1 hb]
      exact hun

theorem Decided.reports_iff {size : UInt32} {length : ℕ} {asks : List Ask}
    {r : Except Abort (Option Err)} (h : Decided D size length asks r) :
    (∃ e, r = .ok (some e)) ↔
      ∃ a, asks.getLast? = some a ∧ a.turn.getErr D size.toNat ≠ none := by
  obtain ⟨-, ⟨rfl, hr, -⟩ | ⟨pre, a, rfl, -, -, hlast⟩⟩ := h
  · exact ⟨fun ⟨e, he⟩ => absurd he (hr e), fun ⟨a, ha, _⟩ => by cases ha⟩
  · have hget : (pre ++ [a]).getLast? = some a := List.getLast?_concat
    rw [hget]
    rcases hlast with ⟨hun, rfl⟩ | ⟨-, rfl⟩
    · refine ⟨fun ⟨e, he⟩ => (by cases he), ?_⟩
      rintro ⟨b, hb, herr⟩
      cases hb
      obtain ⟨m, hm, hen⟩ : ∃ m, a.turn.answer = .ok m ∧ ¬ Enough D size.toNat m := by
        simpa [Turn.Unpacks] using hun
      exact absurd (by simp only [Turn.getErr, hm, if_neg hen]) herr
    · constructor
      · rintro ⟨e, he⟩
        refine ⟨a, rfl, ?_⟩
        rw [Except.ok.inj he]
        exact Option.some_ne_none e
      · rintro ⟨b, hb, herr⟩
        cases hb
        obtain ⟨e, he⟩ := Option.ne_none_iff_exists'.1 herr
        exact ⟨e, by rw [he]⟩

/-- The outer loop makes no request, and keeps its error or finds no table; or the last one it
makes decides. -/
theorem getRounds_decided (net : ℕ → Turn) (n : ℕ) (log : List Ask) (mm : MemberMaker) :
    ∃ asks, (getRounds D net n log mm).1 = log ++ asks ∧
      ((asks = [] ∧ ((getRounds D net n log mm).2 = .ok mm ∨
          (mm.members.length < mm.clusterMaxSize.toNat ∧
            (getRounds D net n log mm).2 = .error .indexOutOfRange))) ∨
       (asks ≠ [] ∧ Decided D mm.clusterMaxSize mm.members.length asks
          ((getRounds D net n log mm).2.map MemberMaker.err) ∧
        ∀ mm', (getRounds D net n log mm).2 = .ok mm' → mm'.members.length = mm.members.length)) := by
  induction n generalizing log mm with
  | zero => exact ⟨[], (List.append_nil _).symm, .inl ⟨rfl, .inl rfl⟩⟩
  | succ n ih =>
    unfold getRounds
    by_cases hany : D.bits.any mm.stillToGet = true
    · rw [if_pos hany]
      rcases clearFilled_cases (D := D) mm.members mm.clusterMaxSize.toNat 0 mm.stillToGet with
        ⟨hlen, still, hclear⟩ | ⟨hlen, hclear⟩
      · rw [hclear]
        have hlen' : mm.clusterMaxSize.toNat ≤ mm.members.length := by omega
        simp only
        set a : Ask := ⟨.getAndMembers, mm.clusterMaxSize,
          some { mm with stillToGet := still }.getRequest, net log.length⟩
        rcases exchange_cases (D := D) { mm with stillToGet := still } (net log.length) with
          ⟨hun, hex⟩ | ⟨hun, mm', again, hex, herr, hsize, hkept⟩
        · rw [hex]
          exact ⟨[a], rfl, .inr ⟨List.cons_ne_nil _ _, decided_last rfl rfl hlen' (.inl ⟨hun, rfl⟩),
            fun mm' h => by cases h⟩⟩
        · have hlast : Decided D mm.clusterMaxSize mm.members.length [a] (.ok mm'.err) :=
            decided_last rfl rfl hlen' (.inr ⟨hun, by rw [herr]⟩)
          rw [hex]
          cases again with
          | false =>
            refine ⟨[a], rfl, .inr ⟨List.cons_ne_nil _ _, hlast, fun mm1 h => ?_⟩⟩
            cases h
            exact hkept
          | true =>
            simp only
            obtain ⟨asks, hlog, hrest⟩ := ih (log ++ [a]) mm'
            refine ⟨a :: asks, by rw [hlog, List.append_assoc]; rfl, .inr ⟨List.cons_ne_nil _ _, ?_⟩⟩
            rw [hsize, hkept] at hrest
            rcases hrest with ⟨rfl, hr | ⟨hshort, -⟩⟩ | ⟨hne, hdec, hkeep⟩
            · rw [hr]
              refine ⟨hlast, fun mm1 h => ?_⟩
              cases h
              exact hkept
            · exact absurd hlen' (by simpa using hshort)
            · exact ⟨hdec.cons hne rfl rfl hun, hkeep⟩
      · rw [hclear]
        exact ⟨[], (List.append_nil _).symm, .inl ⟨rfl, .inr ⟨by omega, rfl⟩⟩⟩
    · rw [if_neg hany]
      exact ⟨[], (List.append_nil _).symm, .inl ⟨rfl, .inl rfl⟩⟩

theorem lookForSelf_cases (c : Client) :
    c.lookForSelf.1.log = c.log ∧ c.lookForSelf.1.cm.clusterID = c.cm.clusterID ∧
    c.lookForSelf.1.cm.clusterMaxSize = c.cm.clusterMaxSize ∧
    (c.lookForSelf.2 = .ok none ∨ (c.cm.members.length < c.cm.clusterMaxSize.toNat ∧
      c.lookForSelf.2 = .error .indexOutOfRange)) := by
  unfold Client.lookForSelf
  rcases findSelf_cases c.cm.node.nodeID c.cm.members c.cm.selfIndex c.cm.clusterMaxSize.toNat 0 with
    ⟨k, h⟩ | ⟨hlen, h⟩
  · rw [h]
    exact ⟨rfl, rfl, rfl, .inl rfl⟩
  · rw [h]
    exact ⟨rfl, rfl, rfl, .inr ⟨by omega, rfl⟩⟩

theorem getAndMembers_decided (net : ℕ → Turn) (c : Client) :
    ∃ asks, (getAndMembers D net c).1.log = c.log ++ asks ∧
      Decided D c.cm.clusterMaxSize c.cm.members.length asks (getAndMembers D net c).2 ∧
      (getAndMembers D net c).1.cm.clusterID = c.cm.clusterID ∧
      (getAndMembers D net c).1.cm.clusterMaxSize = c.cm.clusterMaxSize := by
  unfold getAndMembers
  cases hid : c.cm.clusterID with
  | none =>
    simp only
    split_ifs
    · rcases clearFilled_cases (D := D) c.cm.members c.cm.clusterMaxSize.toNat 0
        (D.bits.lowNMap c.cm.clusterMaxSize.toNat) with ⟨-, still, hclear⟩ | ⟨hlen, hclear⟩
      · rw [hclear]
        exact ⟨[], (List.append_nil _).symm, decided_nil (.inr (.inl rfl)), hid, rfl⟩
      · rw [hclear]
        exact ⟨[], (List.append_nil _).symm, decided_nil (.inr (.inr ⟨by omega, rfl⟩)), hid, rfl⟩
    · obtain ⟨hlog, hcid, hsize, hr⟩ := lookForSelf_cases c
      refine ⟨[], by rw [hlog, List.append_nil], decided_nil ?_, hcid.trans hid, hsize⟩
      exact hr.imp_right .inr
  | some id =>
    simp only
    obtain ⟨asks, hlog, hrest⟩ := getRounds_decided (D := D) net MAX_GET c.log (c.cm.maker D id)
    rcases hg : getRounds D net MAX_GET c.log (c.cm.maker D id) with ⟨log, r⟩
    rw [hg] at hlog hrest
    obtain rfl : log = c.log ++ asks := hlog
    rcases hrest with ⟨rfl, hr | ⟨hlen, hr⟩⟩ | ⟨hne, hdec, hkeep⟩
    · obtain rfl : r = .ok (c.cm.maker D id) := hr
      obtain ⟨hlog, hcid, hsize, hself⟩ := lookForSelf_cases ⟨c.cm, c.log ++ []⟩
      exact ⟨[], hlog, decided_nil (hself.imp_right .inr), hcid.trans hid, hsize⟩
    · obtain rfl : r = .error .indexOutOfRange := hr
      exact ⟨[], rfl, decided_nil (.inr (.inr ⟨hlen, rfl⟩)), hid, rfl⟩
    · refine ⟨asks, ?_⟩
      cases r with
      | error a => exact ⟨rfl, hdec, hid, rfl⟩
      | ok mm =>
        simp only [Except.map] at hdec
        cases herr : mm.err with
        | some e =>
          rw [herr] at hdec
          simp only [herr]
          exact ⟨trivial, hdec, hid, trivial⟩
        | none =>
          rw [herr] at hdec
          simp only [herr]
          obtain ⟨hlog, hcid, hsize, hself⟩ :=
            lookForSelf_cases ⟨{ c.cm with members := mm.members }, c.log ++ asks⟩
          refine ⟨hlog, ?_, hcid.trans hid, hsize⟩
          rcases hself with hself | ⟨hshort, -⟩
          · simp only [hself]
            exact hdec
          · obtain ⟨-, ⟨rfl, -⟩ | ⟨-, -, -, hlen, -⟩⟩ := hdec
            · exact absurd rfl hne
            · rw [hkeep mm rfl] at hshort
              exact absurd hlen (Nat.not_le_of_lt hshort)

/-! The steps that make one request. -/

/-- The handler that a step's request is for. -/
def ClientStep.handler : ClientStep → Option HandlerName
  | .memberAndOK => some .doClientMsg
  | .createAndReply => some .doCreateMsg
  | .joinAndReply => some .doJoinMsg
  | .getAndMembers => some .doGetMsg
  | .byeAndAck => some .doByeMsg
  | .openAcc | .sessionSetup | .persistNode => none

/-- What `CreateAndReply` takes from the answer to its request. -/
def Turn.created (D : Deps) (t : Turn) : Except Err (NodeID × XLRegMsg) :=
  match t.write with
  | some e => .error e
  | none =>
    match t.readCreate with
    | .error e => .error e
    | .ok m => (xiNew D (t.draws 0) (m.getD {}).clusterID).map fun id => (id, m.getD {})

theorem newMemberMaker_ok {K : ClientDeps} {node : Option Node} {attrs : UInt64} {regName : String}
    {regID : Option NodeID} {regEnd : Option EndPoint} {regCK regSK : Option RSAPublicKey}
    {clusterName : String} {clusterAttrs : UInt64} {clusterID : Option NodeID} {size epCount : UInt32}
    {endPoints : List EndPoint} {cm : ClusterMember}
    (h : newMemberMaker D K node attrs regName regID regEnd regCK regSK clusterName clusterAttrs
      clusterID size epCount endPoints = .ok (.ok cm)) :
    cm.clusterName = clusterName ∧ cm.clusterID = clusterID ∧ cm.clusterMaxSize = size ∧
      cm.members = List.replicate size.toNat none := by
  unfold newMemberMaker at h
  split at h
  · cases h
  · split at h
    · split_ifs at h
      · cases h
      · split at h
        · cases h
        · cases h
        · split at h
          · cases h
          · split at h
            · cases h
            · split at h
              · cases h
              · cases h
                exact ⟨rfl, rfl, rfl, rfl⟩
    · cases h

theorem memberAndOK_cases (K : ClientDeps) (net : ℕ → Turn) (c : Client) :
    ∃ a : Ask, a.step = .memberAndOK ∧ a.request = memberRequest D K c.cm ∧ a.turn = net c.log.length ∧
      ((∃ e, a.turn.read = .error e ∧ memberAndOK D K net c = (⟨c.cm, c.log ++ [a]⟩, .ok (some e))) ∨
       (∃ m attrs, a.turn.read = .ok m ∧
          memberAndOK D K net c = (⟨{ c.cm with attrs }, c.log ++ [a]⟩, .ok none))) := by
  refine ⟨⟨.memberAndOK, c.cm.clusterMaxSize, memberRequest D K c.cm, net c.log.length⟩, rfl, rfl, rfl, ?_⟩
  unfold memberAndOK Client.ask
  cases hr : (net c.log.length).read with
  | error e =>
    simp only [hr]
    exact .inl ⟨e, rfl, rfl⟩
  | ok m =>
    simp only [hr]
    exact .inr ⟨m, _, rfl, rfl⟩

theorem createAndReply_cases (net : ℕ → Turn) (c : Client) :
    ∃ a : Ask, a.step = .createAndReply ∧ a.turn = net c.log.length ∧
      ((∃ e id, a.turn.created D = .error e ∧ (id = c.cm.clusterID ∨ id = none) ∧
          createAndReply D net c =
            (⟨{ c.cm with clusterID := id }, c.log ++ [a]⟩, .ok (some e))) ∨
       (∃ id m, a.turn.created D = .ok (id, m) ∧ createAndReply D net c =
          (⟨{ c.cm with clusterID := some id, clusterAttrs := m.getClusterAttrs,
                        clusterMaxSize := m.getClusterMaxSize }, c.log ++ [a]⟩, .ok none))) := by
  refine ⟨⟨.createAndReply, c.cm.clusterMaxSize, createRequest c.cm, net c.log.length⟩, rfl, rfl, ?_⟩
  unfold createAndReply Client.ask Turn.created
  cases hw : (net c.log.length).write with
  | some e =>
    simp only [hw]
    exact .inl ⟨e, c.cm.clusterID, rfl, .inl rfl, rfl⟩
  | none =>
    cases hr : (net c.log.length).readCreate with
    | error e =>
      simp only [hw, hr]
      exact .inl ⟨e, c.cm.clusterID, rfl, .inl rfl, rfl⟩
    | ok m =>
      cases hx : xiNew D ((net c.log.length).draws 0) (m.getD {}).clusterID with
      | error e =>
        simp only [hw, hr, hx]
        exact .inl ⟨e, none, rfl, .inr rfl, rfl⟩
      | ok id =>
        simp only [hw, hr, hx]
        exact .inr ⟨id, m.getD {}, rfl, rfl⟩

theorem joinAndReply_cases (net : ℕ → Turn) (c : Client) :
    (c.cm.clusterID = none ∧ joinAndReply net c = (c, .error .nilDeref)) ∨
    ∃ a : Ask, a.step = .joinAndReply ∧ a.turn = net c.log.length ∧
      ((∃ e, a.turn.answer = .error e ∧ joinAndReply net c = (⟨c.cm, c.log ++ [a]⟩, .ok (some e))) ∨
       (∃ m, a.turn.answer = .ok m ∧ joinAndReply net c =
          (⟨{ c.cm with
                clusterMaxSize := m.getClusterMaxSize
                members := resized c.cm.clusterMaxSize m.getClusterMaxSize c.cm.members
                epCount := m.getEndPointCount }, c.log ++ [a]⟩, .ok none))) := by
  unfold joinAndReply Client.ask
  cases hid : c.cm.clusterID with
  | none => exact .inl ⟨rfl, rfl⟩
  | some id =>
    right
    refine ⟨⟨.joinAndReply, c.cm.clusterMaxSize, joinRequest id, net c.log.length⟩, rfl, rfl, ?_⟩
    unfold Turn.answer
    cases hw : (net c.log.length).write with
    | some e =>
      simp only [hw]
      exact .inl ⟨e, rfl, rfl⟩
    | none =>
      cases hr : (net c.log.length).read with
      | error e =>
        simp only [hw, hr]
        exact .inl ⟨e, rfl, rfl⟩
      | ok m =>
        simp only [hw, hr]
        exact .inr ⟨m.getD {}, rfl, by rw [hid]⟩

theorem byeAndAck_cases (net : ℕ → Turn) (c : Client) :
    ∃ a : Ask, a.step = .byeAndAck ∧ a.turn = net c.log.length ∧
      byeAndAck net c = (⟨c.cm, c.log ++ [a]⟩, .ok (stop a.turn.answer)) := by
  refine ⟨⟨.byeAndAck, c.cm.clusterMaxSize, byeRequest, net c.log.length⟩, rfl, rfl, ?_⟩
  unfold byeAndAck Client.ask Turn.answer
  cases hw : (net c.log.length).write with
  | some e =>
    simp only [hw]
    rfl
  | none =>
    cases hr : (net c.log.length).read with
    | error e =>
      simp only [hw, hr]
      rfl
    | ok m =>
      simp only [hw, hr]
      rfl

theorem run_log (K : ClientDeps) (env : Surroundings) (st : ClientStep) (c : Client) :
    ∃ asks, (st.run D K env c).1.log = c.log ++ asks ∧ ∀ a ∈ asks, a.step = st := by
  have hnone : ∃ asks, c.log = c.log ++ asks ∧ ∀ a ∈ asks, a.step = st :=
    ⟨[], (List.append_nil _).symm, fun a ha => absurd ha List.not_mem_nil⟩
  have hone : ∀ a : Ask, a.step = st →
      ∃ asks, c.log ++ [a] = c.log ++ asks ∧ ∀ a ∈ asks, a.step = st :=
    fun a ha => ⟨[a], rfl, fun b hb => by rw [List.mem_singleton.1 hb]; exact ha⟩
  cases st with
  | openAcc => exact hnone
  | sessionSetup => exact hnone
  | persistNode => exact hnone
  | memberAndOK =>
    obtain ⟨a, ha, -, -, ⟨e, -, h⟩ | ⟨m, attrs, -, h⟩⟩ := memberAndOK_cases (D := D) K env.net c
    · rw [ClientStep.run, h]; exact hone a ha
    · rw [ClientStep.run, h]; exact hone a ha
  | createAndReply =>
    obtain ⟨a, ha, -, ⟨e, id, -, -, h⟩ | ⟨id, m, -, h⟩⟩ := createAndReply_cases (D := D) env.net c
    · rw [ClientStep.run, h]; exact hone a ha
    · rw [ClientStep.run, h]; exact hone a ha
  | joinAndReply =>
    obtain ⟨-, h⟩ | ⟨a, ha, -, ⟨e, -, h⟩ | ⟨m, -, h⟩⟩ := joinAndReply_cases env.net c
    · rw [ClientStep.run, h]; exact hnone
    · rw [ClientStep.run, h]; exact hone a ha
    · rw [ClientStep.run, h]; exact hone a ha
  | getAndMembers =>
    obtain ⟨asks, hlog, hdec, -⟩ := getAndMembers_decided (D := D) env.net c
    exact ⟨asks, hlog, fun a ha => (hdec.1 a ha).1⟩
  | byeAndAck =>
    obtain ⟨a, ha, -, h⟩ := byeAndAck_cases env.net c
    rw [ClientStep.run, h]
    exact hone a ha

/-- Packages for concrete runs: nodes take any end point and any peer, and a signature is what
`Deps.plain` accepts. -/
def ClientDeps.plain : ClientDeps where
  attrAdmin := 2
  attrSolo := 4
  addEndPoint node ep := .ok { node with endPoints := node.endPoints ++ [ep] }
  newRegPeer _ _ _ _ _ := none
  addPeer _ _ _ := none
  signPKCS1v15 sk hash := .ok (UInt8.ofNat sk.pub.n :: hash)

namespace Sample

def clientNode : Node := ⟨"n", .rep 1, ⟨⟨1, 3⟩, 5⟩, ⟨⟨2, 3⟩, 5⟩, []⟩

def newMember (clusterID : Option NodeID) (size : UInt32) : Except Abort (Except Err ClusterMember) :=
  newMemberMaker .plain .plain (some clientNode) 0 "r" (some (.rep 9)) (some ⟨"127.0.0.1:8080"⟩)
    (some ⟨1, 3⟩) (some ⟨2, 3⟩) "c" 0 clusterID size 1 [⟨"127.0.0.1:80"⟩]

def madeMember (clusterID : Option NodeID) (size : UInt32) : ClusterMember where
  node := { clientNode with endPoints := [⟨"127.0.0.1:80"⟩] }
  proposedAttrs := 0
  clusterName := "c"
  clusterAttrs := 0
  clusterID := clusterID
  clusterMaxSize := size
  epCount := 1
  members := List.replicate size.toNat none

theorem newMember_eq (clusterID : Option NodeID) (size : UInt32) :
    newMember clusterID size = .ok (.ok (madeMember clusterID size)) := rfl

def answer (m : XLRegMsg) : Turn := { read := .ok (some m), draws := fun _ => .rep 8 }

def hangUp : Turn := { read := .error EOF, draws := fun _ => .rep 8 }

/-- Answers in order, and then the end of the stream. -/
def answers (ms : List XLRegMsg) (k : ℕ) : Turn := (ms[k]?).elim hangUp answer

end Sample

end XlReg
