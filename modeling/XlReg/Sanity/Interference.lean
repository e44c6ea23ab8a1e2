import XlReg.Proofs.Survival
import XlReg.Sanity.Tasks

/-! What a handler does when others act between its sections, and what it can come to. All that it
relies on is that the registry only grows and that its indexes stay in step; and it keeps to that
itself. -/

namespace XlReg

open Code

/-- What others can do to the registry while a handler is between two sections. -/
def Others (D : Deps) (w w' : World) : Prop := w.Grows w' ∧ w'.Consistent D

/-- All that a section can do to the registry, apart from the append of a Join. -/
inductive Quiet (D : Deps) (w : World) : World → Prop
  | read : Quiet D w w
  | recorded (b : Bytes) : Quiet D w (w.setFilter ⟨w.reg.idFilter.ids ++ [b]⟩)
  | introduced : Quiet D w { w with clients := w.clients + 1 }
  | made {rc : RegCluster} (fresh : rc.members = []) : Quiet D w (w.alloc rc)
  | handed {w' : World} {p : Ptr} {i : ℤ} {err : Option Err}
      (adds : addCluster D w (some p) = .ok (w', i, err)) : Quiet D w w'

/-- What a section of a handler can do, by the worlds that its sections have met before. A Join
appends in its fourth section, to the cluster that it found in its first. -/
inductive HandlerName.Section (D : Deps) (h : InHandler) : HandlerName → List World → World → World → Prop
  | quiet {f : HandlerName} {met : List World} {w w' : World} (other : f ≠ .doJoinMsg)
      (does : Quiet D w w') : Section D h f met w w'
  | looked {met : List World} {w : World} (turn : met.length ≠ 3) : Section D h .doJoinMsg met w w
  | appended {met : List World} {w₀ w : World} {p : Ptr} {rc : RegCluster} {m : ClientInfo}
      (turn : met.length = 3) (first : met.head? = some w₀)
      (found : joinLookup D w₀ h = (some p, none)) (client : h.thisClient = some m)
      (listed : p ∈ w.reg.clusters) (cluster : w.heap[p]? = some rc) (same : w₀.idAt p = rc.id.value) :
      Section D h .doJoinMsg met w (w.store p (rc.append D m).1)

/-- The client is the one that a Member message with a good signature introduces. -/
structure Introduced (D : Deps) (t : Token) (m : ClientInfo) : Prop where
  verified : verifySpecs D t = .ok (m.commsPubKey, m.sigPubKey)
  name : m.name = t.getName
  attrs : m.attrs = t.getAttrs
  myEnds : m.myEnds = t.myEnds
  proposed : ∀ b, t.id = some b → m.nodeID.value = b

/-- The client's ID makes no key, which an append notices too late. -/
def InHandler.Unkeyed (D : Deps) (h : InHandler) : Prop :=
  ∃ m, h.thisClient = some m ∧ D.newBytesKey (some m.nodeID.value) ≠ none

/-- The session a handler comes back with, by the worlds its sections met and the world the last of
them left. -/
inductive HandlerName.Outcome (D : Deps) (h : InHandler) (draws : List NodeID) :
    HandlerName → List World → World → InHandler → Prop
  | refused {f : HandlerName} {met : List World} {t : World} (e : Err) (other : f ≠ .doGetMsg)
      (before : f = .doJoinMsg → met.length ≤ 3 ∨ h.Unkeyed D) : Outcome D h draws f met t (h.fail e)
  | accepted {met : List World} {t : World} {m : ClientInfo}
      (introduced : Introduced D h.msgIn.getMemberSpecs m) :
      Outcome D h draws .doClientMsg met t
        ({ h with thisClient := some m }.reply (memberOK m.nodeID m.attrs) .clientDetailsRcvd)
  | notAdded {met : List World} {t : World} {p : Ptr} {rc : RegCluster} (e : Err)
      (made : t.heap[p]? = some rc) :
      Outcome D h draws .doCreateMsg met t ({ h with cluster := some p }.fail e)
  | created {met : List World} {t : World} {n : NodeID} {p : Ptr} {rc rc' : RegCluster}
      (made : newRegCluster D h.msgIn.getClusterName n 0 (clampSize h.msgIn.getClusterMaxSize)
        h.msgIn.getEndPointCount = .ok rc)
      (listed : p ∈ t.reg.clusters) (cluster : t.heap[p]? = some rc') (grown : rc.Grows rc') :
      Outcome D h draws .doCreateMsg met t ({ h with cluster := some p }.reply
        (createReply n (clampSize h.msgIn.getClusterMaxSize) h.msgIn.getClusterAttrs
          h.msgIn.getEndPointCount) .createRequestRcvd)
  | found {met : List World} {t : World} {p : Ptr} {rc : RegCluster}
      (listed : p ∈ t.reg.clusters) (cluster : t.heap[p]? = some rc)
      (named : rc.name = h.msgIn.getClusterName) :
      Outcome D h draws .doCreateMsg met t
        (h.reply (createReply rc.id rc.maxSize rc.attrs rc.epCount) .createRequestRcvd)
  | joined {met : List World} {w₀ t : World} {m : ClientInfo} {p : Ptr} {rc : RegCluster}
      (turns : met.length = 5) (first : met.head? = some w₀)
      (found : joinLookup D w₀ h = (some p, none)) (client : h.thisClient = some m)
      (listed : p ∈ t.reg.clusters) (cluster : t.heap[p]? = some rc) (member : m ∈ rc.members)
      (same : w₀.idAt p = rc.id.value)
      (named : h.msgIn.clusterID = none → h.msgIn.getClusterName ≠ "" →
        rc.name = h.msgIn.getClusterName) :
      Outcome D h draws .doJoinMsg met t
        ({ h with cluster := some p }.reply (joinReply rc) .joinRcvd)
  | answered {met : List World} {t w : World} {h' : InHandler} (seen : w ∈ met ∨ met = [])
      (whole : XlReg.doGetMsg D w h draws = .ok (w, h')) : Outcome D h draws .doGetMsg met t h'
  | bye {met : List World} {t : World} :
      Outcome D h draws .doByeMsg met t (h.reply { op := some Tag.ack } .byeRcvd)

/-- How a handler can fail to come back: the filter claimed to have every ID drawn, or a Join met a
registry in which it designates no cluster. -/
inductive HandlerName.Faults (D : Deps) (h : InHandler) (draws : List NodeID) :
    HandlerName → List World → Abort → Prop
  | drawing {f : HandlerName} {met : List World} (drawn : f = .doClientMsg ∨ f = .doCreateMsg)
      (known : ∀ n ∈ draws, ∃ w ∈ met, w.reg.idFilter.isMember D n.value = .ok true) :
      Faults D h draws f met .drawing
  | nothing {met : List World} {w : World} (seen : w ∈ met) (none : ∀ p, ¬ Designates w h p) :
      Faults D h draws .doJoinMsg met .nilDeref

/-- What is left of a handler's code does no worse, whatever the others do. -/
abbrev Copes (D : Deps) (h : InHandler) (draws : List NodeID) (f : HandlerName) (task : Task InHandler)
    (met : List World) (s : World) : Prop :=
  task.Meets (Others D) (f.Section D h) (f.Faults D h draws) (f.Outcome D h draws) met s

/-! Every section keeps what the others rely on. -/

theorem Quiet.grows {D : Deps} {w w' : World} (h : Quiet D w w') : w.Grows w' := by
  cases h with
  | read => exact .refl w
  | recorded b => exact World.grows_setFilter (List.prefix_append _ _)
  | introduced => exact ⟨rfl, List.prefix_refl _, List.prefix_refl _, fun _ rc hp => ⟨rc, hp, .refl rc⟩⟩
  | made hf => exact w.grows_alloc _
  | handed ha => exact World.grows_addCluster ha

theorem Section.grows {D : Deps} {h : InHandler} {f : HandlerName} {met : List World} {w w' : World}
    (hs : f.Section D h met w w') : w.Grows w' := by
  cases hs with
  | quiet _ hq => exact hq.grows
  | looked _ => exact .refl w
  | appended _ _ _ _ _ hp _ => exact World.grows_store hp (RegCluster.grows_append D _ _)

theorem Section.consistent {D : Deps} (hmap : D.HamtTotal) {h : InHandler} {f : HandlerName}
    {met : List World} {w w' : World} (hw : w.Consistent D) (hs : f.Section D h met w w') :
    w'.Consistent D := by
  have hg := Section.grows hs
  cases hs with
  | quiet _ hq =>
    cases hq with
    | read => exact hw
    | recorded b => exact hw.of_grows hg rfl rfl rfl
    | introduced => exact hw.of_grows hg rfl rfl rfl
    | made hf => exact hw.of_grows hg rfl rfl rfl
    | handed ha => exact hw.addCluster (fun _ _ _ => hmap.insert _ _) ha
  | looked _ => exact hw
  | appended _ _ _ _ _ hp _ => exact hw.of_grows hg rfl rfl rfl

section Rules

variable {D : Deps} {α β : Type} {G : List World → World → World → Prop} {E : List World → Abort → Prop}
  {met : List World} {s : World}

theorem meets_look {f : World → α} {g : α → Task β} {Q : List World → World → β → Prop}
    (hread : ∀ w, G met w w)
    (hg : ∀ w, Others D s w → (g (f w)).Meets (Others D) G E Q (met ++ [w]) w) :
    ((look f).bind g).Meets (Others D) G E Q met s := by
  refine meets_section (fun w x _ hr => ?_) fun w t a hw hr => ?_
  · cases hr
  · cases hr
    exact ⟨hread w, hg w hw⟩

theorem meets_lookAt {p : Ptr} {rc : RegCluster} (hp : s.heap[p]? = some rc) {f : RegCluster → α}
    {g : α → Task β} {Q : List World → World → β → Prop} (hread : ∀ w, G met w w)
    (hg : ∀ w rc', Others D s w → w.heap[p]? = some rc' → rc.Grows rc' →
      (g (f rc')).Meets (Others D) G E Q (met ++ [w]) w) :
    ((lookAt p f).bind g).Meets (Others D) G E Q met s := by
  refine meets_section (fun w x hw hr => ?_) fun w t a hw hr => ?_
  · obtain ⟨rc', hp', -⟩ := hw.1.heap p rc hp
    simp only [deref_ok.2 hp'] at hr
    cases hr
  · obtain ⟨rc', hp', hgr⟩ := hw.1.heap p rc hp
    simp only [deref_ok.2 hp'] at hr
    cases hr
    exact ⟨hread w, hg w rc' hw hp' hgr⟩

section Filter

variable (hG : ∀ met w w', Quiet D w w' → G met w w')
include hG

theorem meets_filterInsert (b : Bytes) {Q : List World → World → Option Err → Prop}
    (hQ : ∀ met t r, Q met t r) : (filterInsertTask D b).Meets (Others D) G E Q met s := by
  refine meets_atomically (fun w x _ hr => ?_) fun w t a _ hr => ⟨hG _ _ _ ?_, hQ _ _ _⟩
  · beta_reduce at hr
    split at hr <;> cases hr
  · simp only [IdFilter.insert] at hr
    rcases he : D.filterInsertErr w.reg.idFilter.ids b with - | e
    · simp only [he] at hr
      cases hr
      exact .recorded b
    · simp only [he] at hr
      cases hr
      exact .read

theorem meets_insertID (n : NodeID) {Q : List World → World → Option Err → Prop}
    (hQ : ∀ met t r, Q met t r) : (insertIDTask D n).Meets (Others D) G E Q met s := by
  refine meets_look (fun _ => hG _ _ _ .read) fun w hw => ?_
  rcases w.reg.idFilter.isMember D n.value with e | found
  · exact hQ _ _ _
  · cases found with
    | true => exact hQ _ _ _
    | false => exact meets_filterInsert hG n.value hQ

theorem meets_insertUnique (draws : List NodeID) {Q : List World → World → Except Err NodeID → Prop}
    (hE : ∀ met', met <+: met' →
      (∀ n ∈ draws, ∃ w ∈ met', w.reg.idFilter.isMember D n.value = .ok true) → E met' .drawing)
    (hQ : ∀ met t r, Q met t r) : (insertUniqueNodeIDTask D draws).Meets (Others D) G E Q met s := by
  induction draws generalizing met s with
  | nil => exact hE met (List.prefix_refl _) (by simp)
  | cons n draws ih =>
    refine meets_look (fun _ => hG _ _ _ .read) fun w hw => ?_
    rcases hc : containsID D w.reg.idFilter n with e | found
    · exact hQ _ _ _
    · cases found with
      | true =>
        refine ih fun met' hmet hknown => hE met' ((List.prefix_append _ _).trans hmet) fun n' hn' => ?_
        rcases List.mem_cons.1 hn' with rfl | hn'
        · exact ⟨w, hmet.subset (by simp), hc⟩
        · exact hknown n' hn'
      | false =>
        refine .bind (meets_filterInsert hG n.value fun met t r => ?_)
        rcases r with - | e <;> exact hQ _ _ _

theorem meets_clientID (id : Option Bytes) (draws : List NodeID)
    {Q : List World → World → Except Err NodeID → Prop}
    (hE : ∀ met', met <+: met' →
      (∀ n ∈ draws, ∃ w ∈ met', w.reg.idFilter.isMember D n.value = .ok true) → E met' .drawing)
    (herr : ∀ met t e, Q met t (.error e))
    (hok : ∀ met t n, (∀ b, id = some b → n.value = b) → Q met t (.ok n)) :
    (clientIDTask D id draws).Meets (Others D) G E Q met s := by
  unfold clientIDTask
  cases id with
  | none =>
    refine meets_insertUnique hG draws hE fun met t r => ?_
    rcases r with e | n
    · exact herr _ _ e
    · exact hok _ _ n fun b hb => by cases hb
  | some b =>
    simp only
    rcases hb : nodeIDOf D b with e | n
    · exact herr _ _ e
    · have hn : ∀ met t, Q met t (.ok n) := fun met t => hok met t n fun b' hb' => by
        cases hb'
        exact nodeIDOf_ok hb
      refine meets_look (fun _ => hG _ _ _ .read) fun w hw => ?_
      rcases containsID D w.reg.idFilter n with e | found
      · exact herr _ _ e
      · cases found with
        | true => exact hn _ _
        | false =>
          refine .bind (meets_insertID hG n fun met t r => ?_)
          rcases r with - | e
          · exact hn _ _
          · cases e
            case idAlreadyInUse => exact hn _ _
            all_goals exact herr _ _ _

end Filter

end Rules

section Handlers

variable {D : Deps} {h : InHandler} {draws : List NodeID} {s : World}

theorem doClientMsg_copes : Copes D h draws .doClientMsg (doClientMsgTask D h draws) [] s := by
  have hG : ∀ met w w', Quiet D w w' → HandlerName.Section D h .doClientMsg met w w' :=
    fun _ _ _ hq => .quiet (by decide) hq
  have hfail : ∀ met t e, HandlerName.Outcome D h draws .doClientMsg met t (h.fail e) :=
    fun _ _ e => .refused e (by decide) nofun
  unfold doClientMsgTask
  simp only
  rcases hv : verifySpecs D h.msgIn.getMemberSpecs with e | ⟨ck, sk⟩
  · exact hfail _ _ e
  · refine .bind (meets_clientID hG _ draws (fun met' _ hknown => .drawing (.inl rfl) hknown) hfail
      fun met t n hn => ?_)
    simp only
    rcases D.newBaseNode h.msgIn.getMemberSpecs.getName n ck sk with - | e
    · refine meets_section (fun w x _ hr => by cases hr) fun w t a _ hr => ?_
      cases hr
      exact ⟨hG _ _ _ .introduced, @HandlerName.Outcome.accepted D h draws _ _
        ⟨w.clients, _, n, ck, sk, _, _⟩ ⟨hv, rfl, rfl, rfl, hn⟩⟩
    · exact hfail _ _ e

theorem doCreateMsg_copes : Copes D h draws .doCreateMsg (doCreateMsgTask D h draws) [] s := by
  have hG : ∀ met w w', Quiet D w w' → HandlerName.Section D h .doCreateMsg met w w' :=
    fun _ _ _ hq => .quiet (by decide) hq
  have hfail : ∀ met t e, HandlerName.Outcome D h draws .doCreateMsg met t (h.fail e) :=
    fun _ _ e => .refused e (by decide) nofun
  refine meets_look (fun _ => hG _ _ _ .read) fun w hw => ?_
  rcases hl : w.reg.clustersByName.lookup h.msgIn.getClusterName with - | p
  · refine .bind (meets_insertUnique hG draws (fun met' _ hknown => .drawing (.inr rfl) hknown)
      fun met t r => ?_)
    rcases r with e | n
    · exact hfail _ _ e
    · simp only
      rcases hnew : newRegCluster D h.msgIn.getClusterName n 0 (clampSize h.msgIn.getClusterMaxSize)
        h.msgIn.getEndPointCount with e | rc
      · exact hfail _ _ e
      · refine meets_section (fun w x _ hr => by cases hr) fun w₁ t p _ hr => ?_
        cases hr
        refine ⟨hG _ _ _ (.made (newRegCluster_ok hnew).1.members), ?_⟩
        refine meets_section (fun w₂ x hw₂ hr => ?_) fun w₂ t err hw₂ hr => ?_
        · obtain ⟨rc', hrc', -⟩ := hw₂.1.heap _ rc (w₁.alloc_last rc)
          obtain ⟨r, ha⟩ := addCluster_returns (D := D) hrc'
          rw [ha] at hr
          cases hr
        · obtain ⟨rc', hrc', hgr⟩ := hw₂.1.heap _ rc (w₁.alloc_last rc)
          obtain ⟨⟨w₃, i, err'⟩, ha, hr⟩ := Run.map_ok hr
          cases hr
          have hat : w₃.heap[w₁.heap.length]? = some rc' := by rw [addCluster_heap ha, hrc']
          refine ⟨hG _ _ _ (.handed ha), ?_⟩
          rcases err' with - | e
          · exact .created hnew (addCluster_listed hrc' ha).2.1 hat hgr
          · exact .notAdded e hat
  · obtain ⟨hmem, hname⟩ := (hw.2.byName.lookup _ _).1 hl
    obtain ⟨rc, hrc⟩ := hw.2.exists_deref hmem
    refine meets_lookAt hrc (fun _ => hG _ _ _ .read) fun w' rc' hw' hrc' hgr => ?_
    rw [World.nameAt_eq hrc] at hname
    exact .found (hw'.1.clusters.subset hmem) hrc' (hgr.name.trans hname)

theorem Designates.listed {w : World} {p : Ptr} (hh : h.Hung w) (hopen : h.entryState ≠ .inClosed)
    (hd : Designates w h p) : p ∈ w.reg.clusters := by
  unfold Designates at hd
  split at hd
  · exact hd.1
  · split_ifs at hd
    · exact hh hopen p hd
    · exact hd.1

theorem Designates.named {w : World} {p : Ptr} {rc : RegCluster} (hd : Designates w h p)
    (hrc : w.heap[p]? = some rc) (hid : h.msgIn.clusterID = none) (hne : h.msgIn.getClusterName ≠ "") :
    rc.name = h.msgIn.getClusterName := by
  simp only [Designates, hid, if_neg hne] at hd
  rw [← hd.2, World.nameAt_eq hrc]

/-- Where the HAMT is total, only a key that cannot be made stops an append. -/
theorem unkeyed_of_append (hmap : D.HamtTotal) {m : ClientInfo} (hc : h.thisClient = some m)
    {rc : RegCluster} {e : Err} (he : (rc.append D m).2 = some e) : h.Unkeyed D := by
  refine ⟨m, hc, fun hkey => ?_⟩
  simp [RegCluster.append, newBytesKey, hkey, Hamt.insert, hmap.insert] at he

theorem doJoinMsg_copes (hmap : D.HamtTotal) (he : h.Established s) (hung : h.Hung s)
    (hopen : h.entryState ≠ .inClosed) (hc : ∃ m, h.thisClient = some m) :
    Copes D h draws .doJoinMsg (doJoinMsgTask D h) [] s := by
  obtain ⟨client, hc⟩ := hc
  have hfail : ∀ met t e, met.length ≤ 3 → HandlerName.Outcome D h draws .doJoinMsg met t (h.fail e) :=
    fun _ _ e hlen => .refused e (by decide) fun _ => .inl hlen
  unfold doJoinMsgTask
  simp only [hc]
  refine meets_look (fun _ => .looked (by simp)) fun w hw => ?_
  have hnothing : (∀ p, joinLookup D w h ≠ (some p, none)) →
      HandlerName.Faults D h draws .doJoinMsg ([] ++ [w]) .nilDeref := fun hno =>
    .nothing (by simp) fun p hd => hno p ((joinLookup_iff hmap hw.2 h p).2 hd)
  rcases hl : joinLookup D w h with ⟨- | p, - | e⟩
  · exact hnothing (by simp [hl])
  · exact hnothing (by simp [hl])
  · have hd := (joinLookup_iff hmap hw.2 h p).1 hl
    have hmem := hd.listed (hung.of_grows hw.1) hopen
    obtain ⟨rc, hrc⟩ := hd.exists_deref hw.2 (he.of_grows hw.1)
    refine .bind (meets_lookAt hrc (fun _ => .looked (by simp)) fun w₁ rc₁ hw₁ hrc₁ hgr₁ => ?_)
    rcases rc₁.nameInUse client with - | -
    · refine meets_lookAt hrc₁ (fun _ => .looked (by simp)) fun w₂ rc₂ hw₂ hrc₂ hgr₂ => ?_
      rcases rc₂.idEntry D with e | - | m
      · exact hfail _ _ e (by simp)
      · refine meets_atomically (fun w₃ x hw₃ hr => ?_) fun w₃ t err hw₃ hr => ?_
        · obtain ⟨rc₃, hrc₃, -⟩ := hw₃.1.heap p rc₂ hrc₂
          rw [deref_ok.2 hrc₃] at hr
          cases hr
        · obtain ⟨rc₃, hrc₃, hgr₃⟩ := hw₃.1.heap p rc₂ hrc₂
          rw [deref_ok.2 hrc₃] at hr
          cases hr
          have hgr := hgr₁.trans (hgr₂.trans hgr₃)
          have hid : w.idAt p = rc₃.id.value := by rw [World.idAt_eq hrc, hgr.id]
          have hlisted := hw₃.1.clusters.subset (hw₂.1.clusters.subset (hw₁.1.clusters.subset hmem))
          refine ⟨.appended (by simp) (by simp) hl hc hlisted hrc₃ hid, ?_⟩
          rcases ha : (rc₃.append D client).2 with - | e
          · have hlt := (List.getElem?_eq_some_iff.1 hrc₃).1
            have hat : (w₃.store p (rc₃.append D client).1).heap[p]? = some (rc₃.append D client).1 := by
              simp [World.store, hlt]
            refine meets_lookAt hat (fun _ => .looked (by simp)) fun w₄ rc₄ hw₄ hrc₄ hgr₄ => ?_
            have hgr' := (rc₃.grows_append D client).trans hgr₄
            change HandlerName.Outcome D h draws .doJoinMsg _ w₄ _
            rw [← hc]
            refine .joined (by simp) (by simp) hl hc (hw₄.1.clusters.subset hlisted) hrc₄
              (hgr₄.members.subset (by simp)) (by rw [hid, hgr'.id]) fun hno hne => ?_
            rw [hgr'.name, hgr.name, hd.named hrc hno hne]
          · exact .refused e (by decide) fun _ => .inr (unkeyed_of_append hmap hc ha)
      · exact hfail _ _ _ (by simp)
    · exact hfail _ _ _ (by simp)
  · exact hfail _ _ e (by simp)

/-- The loop of Get reads each member later than the size, and finds the members of that time. -/
theorem meets_getLoop {G : List World → World → World → Prop} {E : List World → Abort → Prop}
    {Q : List World → World → Sending → Prop} {met : List World} {p : Ptr} {rc rc' : RegCluster}
    (hread : ∀ met w, G met w w) (toSend : UInt64) (n i : ℕ) (acc : Sending)
    (hp : s.heap[p]? = some rc') (hg : rc.Grows rc') (hlen : i + n ≤ rc.members.length)
    (hQ : ∀ met' t r, met <+: met' → getLoop D rc.members toSend n i acc = .ok r → Q met' t r) :
    (getLoopTask D p toSend n i acc).Meets (Others D) G E Q met s := by
  induction n generalizing i acc met s rc' with
  | zero => exact hQ met s acc (List.prefix_refl _) rfl
  | succ n ih =>
    have hi : i < rc.members.length := by omega
    unfold getLoopTask
    split_ifs with htest
    · have hmember : ∀ w, Others D s w → ∃ rc₁, w.heap[p]? = some rc₁ ∧ rc.Grows rc₁ ∧
          rc₁.members[i]? = some rc.members[i] := by
        intro w hw
        obtain ⟨rc₁, hp₁, hgr⟩ := hw.1.heap p rc' hp
        exact ⟨rc₁, hp₁, hg.trans hgr, List.prefix_iff_getElem?.1 (hg.trans hgr).members i hi⟩
      refine meets_section (fun w x hw hr => ?_) fun w t member hw hr => ?_
      · obtain ⟨rc₁, hp₁, -, hm⟩ := hmember w hw
        rw [deref_ok.2 hp₁] at hr
        simp only [Except.bind, hm] at hr
        cases hr
      · obtain ⟨rc₁, hp₁, hgr, hm⟩ := hmember w hw
        rw [deref_ok.2 hp₁] at hr
        simp only [Except.bind, hm] at hr
        cases hr
        refine ⟨hread _ _, ?_⟩
        rcases ht : rc.members[i].token D with e | tok
        · refine hQ _ _ _ (List.prefix_append _ _) ?_
          simp [getLoop, getIter, htest, List.getElem?_eq_getElem hi, ht]
        · refine ih (i + 1) _ hp₁ hgr (by omega) fun met' t r hmet hloop => ?_
          refine hQ met' t r ((List.prefix_append _ _).trans hmet) ?_
          simp only [getLoop, getIter, htest, if_true, List.getElem?_eq_getElem hi, ht]
          exact hloop
    · refine ih (i + 1) acc hp hg (by omega) fun met' t r hmet hloop => hQ met' t r hmet ?_
      simp only [getLoop, getIter, htest]
      exact hloop

theorem doGetMsg_copes (hmap : D.HamtTotal) : Copes D h draws .doGetMsg (doGetMsgTask D h) [] s := by
  have hread : ∀ met w, HandlerName.Section D h .doGetMsg met w w :=
    fun _ _ => .quiet (by decide) .read
  unfold doGetMsgTask
  simp only
  rcases hk : newBytesKey D h.msgIn.clusterID with e | bKey
  · exact .answered (w := s) (.inr rfl) (by simp only [doGetMsg, hk])
  · refine meets_look (hread _) fun w hw => ?_
    rcases hf : w.reg.clustersByID.find D bKey with e | - | p
    · exact .answered (w := w) (.inl (by simp)) (by simp only [doGetMsg, hk, hf])
    · exact .answered (w := w) (.inl (by simp)) (by simp only [doGetMsg, hk, hf])
    · rw [Hamt.find_total hmap] at hf
      obtain ⟨hmem, hid⟩ := (hw.2.byID.lookup _ _).1 (Except.ok.inj hf)
      obtain ⟨rc, hrc⟩ := hw.2.exists_deref hmem
      refine meets_lookAt hrc (hread _) fun w₁ rc₁ hw₁ hrc₁ hgr₁ => ?_
      have hfind : w₁.reg.clustersByID.find D bKey = .ok (some p) := by
        rw [Hamt.find_total hmap, (hw₁.2.byID.lookup _ _).2 ⟨hw₁.1.clusters.subset hmem, ?_⟩]
        rw [hw₁.1.idAt (hw.2.valid p hmem), hid]
      refine .bind (meets_getLoop hread _ _ _ _ hrc₁ (.refl rc₁) ?_ fun met' t r hmet hloop => ?_)
      · have hsize := (getSize_le rc₁).2
        omega
      · refine .answered (w := w₁) (.inl (hmet.subset (by simp))) ?_
        simp only [doGetMsg, hk, hfind, deref_ok.2 hrc₁, hloop]

/-- Every handler copes with whatever others do, from a state that its session may be in. -/
theorem task_copes (hmap : D.HamtTotal) {f : HandlerName} (he : h.Established s) (hung : h.Hung s)
    (hopen : h.entryState ≠ .inClosed) (hf : f = .badCombo ∨ (h.entryState, f) ∈ permitted) :
    Copes D h draws f (f.task D h draws) [] s := by
  cases f with
  | badCombo => exact .refused _ (by decide) nofun
  | doClientMsg => exact doClientMsg_copes
  | doCreateMsg => exact doCreateMsg_copes
  | doJoinMsg =>
    refine doJoinMsg_copes hmap he hung hopen (he.client ?_)
    revert hf
    cases h.entryState <;> decide
  | doGetMsg => exact doGetMsg_copes hmap
  | doByeMsg => exact .bye

end Handlers

end XlReg
