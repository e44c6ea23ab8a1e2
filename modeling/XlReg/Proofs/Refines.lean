import XlReg.Lib.Refine
import XlReg.Spec.Directory
import XlReg.Sanity.Registered
import XlReg.Proofs.Dispatch
import XlReg.Proofs.Members
import XlReg.Proofs.Replies
import XlReg.Proofs.Views

/-! The server refines the directory. Where the packages do what they are documented to do, each
round of a session is one request to the directory: the same fault, or the same answer, and then
the registry again shows the directory and the session its visit. By the rule for systems of
parties this holds of all runs. -/

namespace XlReg

open Run

/-- No operation of the HAMT and of the filter fails, the filter is exact, and keys and maps can be
made where the registry needs them. -/
structure Deps.Reliable (D : Deps) : Prop where
  hamt : D.HamtTotal
  keys : D.KeysNodeIDs
  filter : D.ExactFilter
  made : ∀ t, D.newHAMT D.maxW t = none

def ClientInfo.member (m : ClientInfo) : Directory.Member :=
  ⟨m.name, m.nodeID, m.commsPubKey, m.sigPubKey, m.attrs, m.myEnds⟩

structure RegCluster.Shows (rc : RegCluster) (c : Directory.Cluster) : Prop where
  name : c.name = rc.name
  id : c.id = rc.id
  maxSize : c.maxSize = rc.maxSize
  epCount : c.epCount = rc.epCount
  members : c.members = rc.members.map ClientInfo.member

def World.ShowsAt (w : World) (p : Ptr) (c : Directory.Cluster) : Prop :=
  ∃ rc, w.heap[p]? = some rc ∧ rc.Shows c

structure World.Shows (w : World) (d : Directory) : Prop where
  known : ∀ b, b ∈ d.known ↔ b ∈ w.reg.idFilter.ids
  clusters : List.Forall₂ w.ShowsAt w.reg.clusters d.clusters

/-- What the registry keeps in order: its own indexes and those of its clusters. -/
structure World.InOrder (D : Deps) (w : World) : Prop where
  consistent : w.Consistent D
  registered : w.Registered
  indexed : ∀ rc ∈ w.heap, rc.Indexed

/-- A session has come as far as a visit. -/
inductive InHandler.Shows (w : World) (h : InHandler) : Visit → Prop
  | new (state : h.entryState = .helloRcvd) (cluster : h.cluster = none) : Shows w h .new
  | known {m : ClientInfo} (state : h.entryState = .clientDetailsRcvd)
      (client : h.thisClient = some m) (cluster : h.cluster = none) : Shows w h (.known m.member)
  | found {m : ClientInfo} (state : h.entryState = .createRequestRcvd)
      (client : h.thisClient = some m) (cluster : h.cluster = none) :
      Shows w h (.created m.member none)
  | created {m : ClientInfo} {p : Ptr} {rc : RegCluster} (state : h.entryState = .createRequestRcvd)
      (client : h.thisClient = some m) (cluster : h.cluster = some p) (listed : p ∈ w.reg.clusters)
      (hung : w.heap[p]? = some rc) : Shows w h (.created m.member (some rc.id))
  | joined {m : ClientInfo} (state : h.entryState = .joinRcvd) (client : h.thisClient = some m) :
      Shows w h (.joined m.member)
  | left (state : h.entryState = .byeRcvd) : Shows w h .left
  | closed (state : h.entryState = .inClosed) : Shows w h .closed

theorem InHandler.Shows.of_grows {w w' : World} {h : InHandler} {v : Visit} (hv : h.Shows w v)
    (hg : w.Grows w') : h.Shows w' v := by
  cases hv with
  | new hs hc => exact .new hs hc
  | known hs hm hc => exact .known hs hm hc
  | found hs hm hc => exact .found hs hm hc
  | created hs hm hc hl hp =>
    obtain ⟨rc', hp', hgr⟩ := hg.heap _ _ hp
    rw [← hgr.id]
    exact .created hs hm hc (hg.clusters.subset hl) hp'
  | joined hs hm => exact .joined hs hm
  | left hs => exact .left hs
  | closed hs => exact .closed hs

theorem InHandler.Shows.closed_iff {w : World} {h : InHandler} {v : Visit} (hv : h.Shows w v) :
    h.entryState = .inClosed ↔ v = .closed := by
  cases hv <;> simp_all

/-! The registry's own order. -/

theorem World.init_inOrder (D : Deps) (regID : NodeID) : (World.init regID).InOrder D :=
  ⟨World.init_consistent D regID, World.init_registered regID, fun rc hrc => by cases hrc⟩

theorem handler_inOrder {D : Deps} (hD : D.Reliable) {f : HandlerName} {w w' : World}
    {h h' : InHandler} {draws : List NodeID} (hw : w.InOrder D)
    (hr : f.handler D w h draws = .ok (w', h')) : w'.InOrder D := by
  refine ⟨handler_consistent (fun _ _ _ => hD.hamt.insert _ _) hw.consistent hr,
    handler_registered hw.registered hr, ?_⟩
  rcases handler_world hr with ⟨fl, n, -, rfl⟩ | ⟨n, rc, i, err, -, hm, ha⟩ |
    ⟨client, p, rc, -, hj, rfl⟩
  · exact hw.indexed
  · intro rc' hrc'
    rw [addCluster_heap ha] at hrc'
    rcases List.mem_append.1 hrc' with hold | hlast
    · exact hw.indexed rc' hold
    · rw [List.mem_singleton.1 hlast]
      exact (newRegCluster_ok hm.made).1.indexed
  · intro rc' hrc'
    rcases List.mem_or_eq_of_mem_set hrc' with hold | rfl
    · exact hw.indexed rc' hold
    · exact addMember_indexed hD.hamt.insert hD.keys
        (hw.indexed rc (List.mem_of_getElem? hj.cluster)) client

/-! Searches. -/

section Search

variable {D : Deps} {w : World} {d : Directory} (hw : w.InOrder D) (hs : w.Shows d)
include hw hs

theorem shows_byName (name : String) :
    (w.reg.clustersByName.lookup name = none ∧ d.byName name = none) ∨
      ∃ p rc c, w.reg.clustersByName.lookup name = some p ∧ d.byName name = some c ∧
        w.heap[p]? = some rc ∧ rc.Shows c := by
  rw [hw.consistent.byName.lookup_eq_find]
  have hfg : ∀ p c, w.ShowsAt p c → decide (w.nameAt p = name) = decide (c.name = name) := by
    rintro p c ⟨rc, hp, hc⟩
    rw [World.nameAt_eq hp, hc.name]
  rcases Parties.forall₂_find hs.clusters hfg with hnone | ⟨p, c, hp, hc, rc, hrc, hsh⟩
  · exact .inl hnone
  · exact .inr ⟨p, rc, c, hp, hc, hrc, hsh⟩

theorem shows_byID (id : Bytes) :
    (w.reg.clustersByID.map.lookup id = none ∧ d.byID id = none) ∨
      ∃ p rc c, w.reg.clustersByID.map.lookup id = some p ∧ d.byID id = some c ∧
        w.heap[p]? = some rc ∧ rc.Shows c := by
  rw [hw.consistent.byID.lookup_eq_find]
  have hfg : ∀ p c, w.ShowsAt p c → decide (w.idAt p = id) = decide (c.id.value = id) := by
    rintro p c ⟨rc, hp, hc⟩
    rw [World.idAt_eq hp, hc.id]
  rcases Parties.forall₂_find hs.clusters hfg with hnone | ⟨p, c, hp, hc, rc, hrc, hsh⟩
  · exact .inl hnone
  · exact .inr ⟨p, rc, c, hp, hc, hrc, hsh⟩

end Search

/-! IDs. -/

/-- With an exact filter, the first ID drawn that it does not have is the one inserted. -/
theorem insertUniqueNodeID_find {D : Deps} (hf : D.ExactFilter) (f : IdFilter) (draws : List NodeID) :
    insertUniqueNodeID D f draws = ((draws.find? fun n => n.value ∉ f.ids).elim (.error .drawing)
      fun n => .ok (⟨f.ids ++ [n.value]⟩, .ok n)) := by
  induction draws with
  | nil => rfl
  | cons n draws ih =>
    simp only [insertUniqueNodeID, containsID, IdFilter.isMember_exact hf, IdFilter.insert_exact hf]
    by_cases hn : n.value ∈ f.ids
    · rw [List.find?_cons_of_neg (by simpa using hn), ← ih]
      simp [hn]
    · rw [List.find?_cons_of_pos (by simpa using hn)]
      simp [hn]

theorem Directory.fresh_eq (d : Directory) (draws : List NodeID) :
    (draws.find? (fun n => n.value ∉ d.known) = none ∧ d.fresh draws = .error .drawing) ∨
      ∃ n hn, draws.find? (fun n => n.value ∉ d.known) = some n ∧ d.fresh draws = .ok ⟨n, hn⟩ := by
  unfold Directory.fresh
  split
  · rename_i h
    exact .inl ⟨h, rfl⟩
  · rename_i n h
    exact .inr ⟨n, by simpa using List.find?_some h, h, rfl⟩

theorem World.Shows.find_draw {w : World} {d : Directory} (hs : w.Shows d) (draws : List NodeID) :
    (draws.find? fun n => n.value ∉ d.known) = draws.find? fun n => n.value ∉ w.reg.idFilter.ids := by
  congr 1
  funext n
  rw [decide_eq_decide, hs.known]

def Gives (d : Directory) (f : IdFilter) (n : NodeID) : Prop :=
  ∀ b, b ∈ (d.record n).known ↔ b ∈ f.ids

theorem World.Shows.gives {w : World} {d : Directory} (hs : w.Shows d) (n : NodeID) :
    Gives d ⟨w.reg.idFilter.ids ++ [n.value]⟩ n := by
  intro b
  rw [Directory.record, Finset.mem_insert, hs.known, List.mem_append, List.mem_singleton, or_comm]

/-- The directory after an ID was given out and the registry after it was recorded. -/
theorem World.Shows.setFilter {w : World} {d : Directory} (hs : w.Shows d) {f : IdFilter} {n : NodeID}
    (hf : Gives d f n) : (w.setFilter f).Shows (d.record n) :=
  ⟨hf, hs.clusters⟩

theorem insertUnique_shows {D : Deps} (hf : D.ExactFilter) {w : World} {d : Directory} (hs : w.Shows d)
    (draws : List NodeID) :
    (insertUniqueNodeID D w.reg.idFilter draws = .error .drawing ∧ d.fresh draws = .error .drawing) ∨
      ∃ n hn, insertUniqueNodeID D w.reg.idFilter draws = .ok (⟨w.reg.idFilter.ids ++ [n.value]⟩, .ok n) ∧
        d.fresh draws = .ok ⟨n, hn⟩ := by
  rw [insertUniqueNodeID_find hf, ← hs.find_draw]
  rcases d.fresh_eq draws with ⟨hnone, hfr⟩ | ⟨n, hn, hsome, hfr⟩
  · rw [hnone]
    exact .inl ⟨rfl, hfr⟩
  · rw [hsome]
    exact .inr ⟨n, hn, rfl, hfr⟩

theorem clientID_shows {D : Deps} (hf : D.ExactFilter) {w : World} {d : Directory} (hs : w.Shows d)
    (id : Option Bytes) (draws : List NodeID) :
    (clientID D w.reg.idFilter id draws = .error .drawing ∧ d.clientID D id draws = .error .drawing) ∨
    (∃ e, clientID D w.reg.idFilter id draws = .ok (w.reg.idFilter, .error e) ∧
      d.clientID D id draws = .ok (.error e)) ∨
    (∃ f n, clientID D w.reg.idFilter id draws = .ok (f, .ok n) ∧
      d.clientID D id draws = .ok (.ok n) ∧ Gives d f n) := by
  cases id with
  | none =>
    simp only [clientID, Directory.clientID]
    rcases insertUnique_shows hf hs draws with ⟨hu, hfr⟩ | ⟨n, hn, hu, hfr⟩
    · exact .inl ⟨hu, by rw [hfr]; rfl⟩
    · exact .inr (.inr ⟨_, n, hu, by rw [hfr]; rfl, hs.gives n⟩)
  | some b =>
    simp only [clientID, Directory.clientID]
    rcases nodeIDOf D b with e | n
    · exact .inr (.inl ⟨e, rfl, rfl⟩)
    · refine .inr (.inr ?_)
      simp only [containsID, IdFilter.isMember_exact hf]
      by_cases hn : n.value ∈ w.reg.idFilter.ids
      · refine ⟨w.reg.idFilter, n, by simp [hn], rfl, fun b => ?_⟩
        rw [Directory.record, Finset.mem_insert, hs.known]
        exact or_iff_right_of_imp fun hb => hb ▸ hn
      · refine ⟨⟨w.reg.idFilter.ids ++ [n.value]⟩, n, ?_, rfl, hs.gives n⟩
        simp [hn, insertID, IdFilter.isMember_exact hf, IdFilter.insert_exact hf]

/-! The handlers, one by one. -/

/-- What the loop makes of a handler's result, beside the outcome of a request. -/
def Answered (r : World × InHandler × Option Err × Option XLRegMsg)
    (o : Directory × Visit × XLRegMsg) : Prop :=
  r.1.Shows o.1 ∧ r.2.1.Shows r.1 o.2.1 ∧ r.2.2.2 = some o.2.2

theorem agree_refuse {w : World} {d : Directory} (hs : w.Shows d) (h : InHandler) (e : Err) :
    Agree Answered (closing (.ok (w, h.fail e))) (d.refuse e) :=
  .ok ⟨hs, .closed rfl, rfl⟩

theorem agree_reply {w : World} {d : Directory} (hs : w.Shows d) {h : InHandler} {m : XLRegMsg}
    {s : InState} {v : Visit} (hv : (afterRound (h.reply m s)).Shows w v) :
    Agree Answered (closing (.ok (w, h.reply m s))) (.ok (d, v, m)) :=
  .ok ⟨hs, hv, rfl⟩

theorem Directory.byName_eq_none {d : Directory} {name : String} :
    d.byName name = none ↔ name ∉ d.clusters.map (·.name) := by
  simp [Directory.byName]

theorem addCluster_name_used {D : Deps} {w : World} {p q : Ptr} {rc : RegCluster}
    (hp : w.heap[p]? = some rc) (hkey : D.newBytesKey (some rc.id.value) = none)
    (hn : w.reg.clustersByName.lookup rc.name = some q) :
    addCluster D w (some p) = .ok (w, -1, some .nameAlreadyInUse) := by
  simp [addCluster, deref_ok.2 hp, newBytesKey, hkey, addClusterLocked, hn]

theorem World.ShowsAt.alloc {w : World} {p : Ptr} {c : Directory.Cluster} (h : w.ShowsAt p c)
    (reg : Registry) (rc : RegCluster) (n : ℕ) : World.ShowsAt ⟨reg, w.heap ++ [rc], n⟩ p c := by
  obtain ⟨rc', hp, hc⟩ := h
  refine ⟨rc', ?_, hc⟩
  rw [List.getElem?_append_left (List.getElem?_eq_some_iff.1 hp).1]
  exact hp

/-- A cluster made and listed, in the registry and in the directory. -/
theorem World.Shows.enter {w : World} {d : Directory} (hs : w.Shows d) {rc : RegCluster}
    {c : Directory.Cluster} (hc : rc.Shows c) (hname : c.name ∉ d.clusters.map (·.name))
    (hid : c.id.value ∉ d.known) {reg : Registry}
    (hids : reg.idFilter.ids = w.reg.idFilter.ids ++ [rc.id.value])
    (hlist : reg.clusters = w.reg.clusters ++ [w.heap.length]) :
    World.Shows ⟨reg, w.heap ++ [rc], w.clients⟩ (d.enter c hname hid) := by
  refine ⟨fun b => ?_, ?_⟩
  · simp only [Directory.enter]
    rw [Finset.mem_insert, hs.known, hids, List.mem_append, List.mem_singleton, hc.id, or_comm]
  · simp only [Directory.enter, hlist]
    exact List.rel_append (hs.clusters.imp fun p c hc => hc.alloc _ rc _) (.cons ⟨rc, by simp, hc⟩ .nil)

section Handlers

variable {D : Deps} (hD : D.Reliable) {w : World} {d : Directory} (hw : w.InOrder D) (hs : w.Shows d)
include hD hs

theorem doClientMsg_shows {h : InHandler} (hcl : h.cluster = none) (draws : List NodeID) :
    Agree Answered (closing (doClientMsg D w h draws)) (d.identify D ⟨h.msgIn, draws⟩) := by
  simp only [doClientMsg, Directory.identify]
  rcases verifySpecs D h.msgIn.getMemberSpecs with e | ⟨ck, sk⟩
  · exact agree_refuse hs h e
  · simp only
    rcases clientID_shows hD.filter hs h.msgIn.getMemberSpecs.id draws with
      ⟨hc, hc'⟩ | ⟨e, hc, hc'⟩ | ⟨f, n, hc, hc', hf⟩
    · rw [hc, hc']
      exact .stop _
    · rw [hc, hc']
      exact agree_refuse ⟨hs.known, hs.clusters⟩ h e
    · rw [hc, hc']
      simp only [newClientInfo]
      rcases D.newBaseNode h.msgIn.getMemberSpecs.getName n ck sk with - | e
      · have hs' : ({ w.setFilter f with clients := w.clients + 1 } : World).Shows (d.record n) :=
          ⟨hf, hs.clusters⟩
        refine agree_reply hs' (.known (m := clientOf w h.msgIn.getMemberSpecs ck sk n) rfl rfl ?_)
        exact hcl
      · exact agree_refuse (hs.setFilter hf) h e

include hw

theorem createNew_shows {h : InHandler} {m : ClientInfo} (hm : h.thisClient = some m)
    (hn : d.byName h.msgIn.getClusterName = none) (draws : List NodeID) :
    Agree Answered (closing (createNew D w h draws)) (d.create m.member ⟨h.msgIn, draws⟩) := by
  simp only [createNew, Directory.create, hn]
  rcases insertUnique_shows hD.filter hs draws with ⟨hu, hfr⟩ | ⟨n, hfresh, hu, hfr⟩
  · rw [hu, hfr]
    exact .stop _
  · rw [hu, hfr]
    simp only [newRegCluster_clamped (hD.made _)]
    set rc : RegCluster := ⟨if h.msgIn.getClusterName = "" then "xlCluster" else h.msgIn.getClusterName,
      n, 0, clampSize h.msgIn.getClusterMaxSize, h.msgIn.getEndPointCount, [], ∅, .empty⟩ with hrc
    have hlast := w.make_last ⟨w.reg.idFilter.ids ++ [n.value]⟩ rc
    rcases shows_byName hw hs rc.name with ⟨hl, hbn⟩ | ⟨q, rc', c', hl, hbn, -, -⟩
    · have hname := Directory.byName_eq_none.1 hbn
      rw [dif_neg hname]
      have hidnone : w.reg.clustersByID.map.lookup n.value = none := by
        rw [hw.consistent.byID.lookup_none]
        intro p hp hid
        have hlt := hw.consistent.valid p hp
        rw [World.idAt_eq (List.getElem?_eq_getElem hlt)] at hid
        apply hfresh
        rw [hs.known, ← hid]
        exact hw.registered.known _ (List.getElem_mem hlt)
      have hadm : ((w.setFilter ⟨w.reg.idFilter.ids ++ [n.value]⟩).alloc rc).Admits D rc :=
        ⟨hD.keys n, hl, by rw [Hamt.find_total hD.hamt]; exact congrArg _ hidnone⟩
      rw [addCluster_of_admits hlast hadm, hD.hamt.insert]
      refine agree_reply (hs.enter ⟨rfl, rfl, rfl, rfl, rfl⟩ hname hfresh rfl rfl) ?_
      refine @InHandler.Shows.created _ _ m w.heap.length rc rfl hm rfl ?_ hlast
      exact List.mem_append_right _ (List.mem_singleton_self _)
    · have hname : rc.name ∈ d.clusters.map (·.name) := by
        by_contra hno
        rw [Directory.byName_eq_none.2 hno] at hbn
        cases hbn
      rw [dif_pos hname, addCluster_name_used hlast (hD.keys n) hl]
      have hs' : ((w.setFilter ⟨w.reg.idFilter.ids ++ [n.value]⟩).alloc rc).Shows (d.record n) := by
        exact ⟨hs.gives n, hs.clusters.imp fun p c hc => hc.alloc _ rc _⟩
      exact agree_refuse hs' _ _

theorem doCreateMsg_shows {h : InHandler} {m : ClientInfo} (hm : h.thisClient = some m)
    (hcl : h.cluster = none) (draws : List NodeID) :
    Agree Answered (closing (doCreateMsg D w h draws)) (d.create m.member ⟨h.msgIn, draws⟩) := by
  rcases shows_byName hw hs h.msgIn.getClusterName with ⟨hl, hbn⟩ | ⟨p, rc, c, hl, hbn, hp, hc⟩
  · simp only [doCreateMsg, hl]
    exact createNew_shows hD hw hs hm hbn draws
  · have hattrs := (hw.registered.made rc (List.mem_of_getElem? hp)).2
    simp only [doCreateMsg, hl, deref_ok.2 hp, Directory.create, hbn]
    rw [hattrs, hc.id, hc.maxSize, hc.epCount]
    exact agree_reply hs (.found rfl hm hcl)

end Handlers

/-! Join. -/

section Join

variable {D : Deps} (hD : D.Reliable)
include hD

/-- The three things `AddMember` can do, by what the directory knows of the cluster. -/
theorem addMember_shows {rc : RegCluster} {c : Directory.Cluster} (hi : rc.Indexed) (hc : rc.Shows c)
    (m : ClientInfo) :
    (m.name ∈ c.members.map Directory.Member.name ∧
      rc.addMember D m = (rc, some .clusterMemberNameInUse)) ∨
    (m.name ∉ c.members.map Directory.Member.name ∧ c.id ∈ c.members.map Directory.Member.nodeID ∧
      rc.addMember D m = (rc, some .clusterMemberIDInUse)) ∨
    (∃ hn : m.member.name ∉ c.members.map Directory.Member.name,
      c.id ∉ c.members.map Directory.Member.nodeID ∧ (rc.addMember D m).2 = none ∧
        (rc.addMember D m).1.Shows (c.add m.member hn)) := by
  have hnames : c.members.map Directory.Member.name = rc.members.map (·.name) := by
    rw [hc.members, List.map_map]
    rfl
  have hids : c.members.map Directory.Member.nodeID = rc.members.map (·.nodeID) := by
    rw [hc.members, List.map_map]
    rfl
  by_cases hn : m.name ∈ c.members.map Directory.Member.name
  · refine .inl ⟨hn, ?_⟩
    rw [hnames] at hn
    obtain ⟨x, hx, hxn⟩ := List.mem_map.1 hn
    have hl : rc.membersByName.lookup m.name = some x := hxn ▸ hi.byName.lookup_self hx
    simp [RegCluster.addMember, RegCluster.nameInUse, hl]
  · have hnew : ∀ x ∈ rc.members, x.name ≠ m.name := by
      intro x hx hxn
      rw [hnames] at hn
      exact hn (List.mem_map.2 ⟨x, hx, hxn⟩)
    rcases addMember_new_name hD.hamt hD.keys hi hnew with ⟨⟨x, hx, hxid⟩, he⟩ | ⟨hown, he, hmem⟩
    · refine .inr (.inl ⟨hn, ?_, he⟩)
      rw [hids, hc.id]
      exact List.mem_map.2 ⟨x, hx, hxid⟩
    · refine .inr (.inr ⟨hn, ?_, he, ?_⟩)
      · rw [hids, hc.id]
        intro hin
        obtain ⟨x, hx, hxid⟩ := List.mem_map.1 hin
        exact hown x hx hxid
      · have hg := rc.grows_addMember D m
        refine ⟨by rw [hg.name]; exact hc.name, by rw [hg.id]; exact hc.id,
          by rw [hg.maxSize]; exact hc.maxSize, by rw [hg.epCount]; exact hc.epCount, ?_⟩
        rw [hmem, List.map_append, ← hc.members]
        rfl

variable {w : World} {d : Directory} (hw : w.InOrder D) (hs : w.Shows d)
include hw hs

/-- Where a cluster takes its member, the registry shows the directory in which it has. -/
theorem World.Shows.addTo {p : Ptr} {rc : RegCluster} {m : ClientInfo}
    (hlist : p ∈ w.reg.clusters) (hp : w.heap[p]? = some rc) (hok : (rc.addMember D m).2 = none) :
    (w.store p (rc.addMember D m).1).Shows (d.addTo rc.id m.member) := by
  refine ⟨hs.known, ?_⟩
  have hlt : p < w.heap.length := (List.getElem?_eq_some_iff.1 hp).1
  have hstep : ∀ q c, q ∈ w.reg.clusters → w.ShowsAt q c →
      (w.store p (rc.addMember D m).1).ShowsAt q (Directory.addAt rc.id m.member c) := by
    rintro q c hq ⟨rc', hrc', hc⟩
    by_cases hqp : q = p
    · subst hqp
      rw [hp] at hrc'
      cases hrc'
      refine ⟨(rc.addMember D m).1, by simp [World.store, hlt], ?_⟩
      rcases addMember_shows hD (hw.indexed rc (List.mem_of_getElem? hp)) hc m with
        ⟨-, he⟩ | ⟨-, -, he⟩ | ⟨hn, -, -, hsh⟩
      · rw [he] at hok
        cases hok
      · rw [he] at hok
        cases hok
      · rw [Directory.addAt, dif_pos ⟨hc.id, hn⟩]
        exact hsh
    · -- another cluster has another ID
      have hid : c.id ≠ rc.id := by
        intro hid
        have h1 := hw.consistent.byID.lookup_self hq
        have h2 := hw.consistent.byID.lookup_self hlist
        rw [World.idAt_eq hrc', ← hc.id, hid] at h1
        rw [World.idAt_eq hp, h1] at h2
        exact hqp (Option.some.inj h2)
      rw [Directory.addAt, dif_neg fun h => hid h.1]
      exact ⟨rc', by simp only [World.store]; rw [List.getElem?_set_ne (Ne.symm hqp), hrc'], hc⟩
  have hall : List.Forall₂ (fun q c => q ∈ w.reg.clusters ∧ w.ShowsAt q c) w.reg.clusters d.clusters :=
    (List.forall₂_and_left _ _).2 ⟨fun _ hq => hq, hs.clusters⟩
  exact List.forall₂_map_right_iff.2 (hall.imp fun q c hqc => hstep q c hqc.1 hqc.2)

/-- What hangs on a session is the cluster its visit has made. -/
def Owns (w : World) (cluster : Option Ptr) (own : Option NodeID) : Prop :=
  (cluster = none ∧ own = none) ∨
    ∃ p rc, cluster = some p ∧ own = some rc.id ∧ p ∈ w.reg.clusters ∧ w.heap[p]? = some rc

theorem joinLookup_shows {h : InHandler} {own : Option NodeID} (hown : Owns w h.cluster own) :
    ((joinLookup D w h).1 = none ∧ d.joinTarget D own h.msgIn = none) ∨
      ∃ p rc c, joinLookup D w h = (some p, none) ∧ d.joinTarget D own h.msgIn = some c ∧
        p ∈ w.reg.clusters ∧ w.heap[p]? = some rc ∧ rc.Shows c := by
  have hbyID : ∀ id, (w.reg.clustersByID.map.lookup id = none ∧ d.byID id = none) ∨
      ∃ p rc c, w.reg.clustersByID.map.lookup id = some p ∧ d.byID id = some c ∧
        p ∈ w.reg.clusters ∧ w.heap[p]? = some rc ∧ rc.Shows c := by
    intro id
    rcases shows_byID hw hs id with hnone | ⟨p, rc, c, hl, hc, hp, hsh⟩
    · exact .inl hnone
    · exact .inr ⟨p, rc, c, hl, hc, ((hw.consistent.byID.lookup _ _).1 hl).1, hp, hsh⟩
  unfold joinLookup Directory.joinTarget
  rcases h.msgIn.clusterID with - | id
  · simp only
    split_ifs with hname
    · rcases hown with ⟨hcl, rfl⟩ | ⟨p, rc, hcl, rfl, hlist, hp⟩
      · rw [hcl]
        exact .inl ⟨rfl, rfl⟩
      · rw [hcl, Option.bind_some]
        rcases hbyID rc.id.value with ⟨hl, -⟩ | ⟨q, rc', c, hl, hc, -, hq, hsh⟩
        · exact absurd (World.idAt_eq hp) ((hw.consistent.byID.lookup_none _).1 hl p hlist)
        · have hself := hw.consistent.byID.lookup_self hlist
          rw [World.idAt_eq hp, hl] at hself
          cases hself
          exact .inr ⟨p, rc', c, rfl, hc, hlist, hq, hsh⟩
    · rcases shows_byName hw hs h.msgIn.getClusterName with ⟨hl, hc⟩ | ⟨p, rc, c, hl, hc, hp, hsh⟩
      · rw [hl, hc]
        exact .inl ⟨rfl, rfl⟩
      · rw [hl, hc]
        exact .inr ⟨p, rc, c, rfl, rfl, ((hw.consistent.byName.lookup _ _).1 hl).1, hp, hsh⟩
  · simp only [newBytesKey]
    rcases D.newBytesKey (some id) with - | e
    · simp only [Hamt.find_total hD.hamt, Option.getD_some, if_true]
      rcases hbyID id with ⟨hl, hc⟩ | ⟨p, rc, c, hl, hc, hlist, hp, hsh⟩
      · rw [hl, hc]
        exact .inl ⟨rfl, rfl⟩
      · rw [hl, hc]
        exact .inr ⟨p, rc, c, rfl, rfl, hlist, hp, hsh⟩
    · exact .inl ⟨rfl, by simp⟩

theorem doJoinMsg_shows {h : InHandler} {m : ClientInfo} {own : Option NodeID}
    (hm : h.thisClient = some m) (hown : Owns w h.cluster own) (draws : List NodeID) :
    Agree Answered (closing (doJoinMsg D w h draws)) (d.join D m.member own h.msgIn) := by
  rcases joinLookup_shows hD hw hs hown with ⟨hl, ht⟩ | ⟨p, rc, c, hl, ht, hlist, hp, hc⟩
  · have hnil : doJoinMsg D w h draws = .error .nilDeref := by
      rcases hj : joinLookup D w h with ⟨q, e⟩
      rw [hj] at hl
      subst hl
      simp only [doJoinMsg, hm, hj]
      rcases e with - | e <;> rfl
    rw [hnil, Directory.join, ht]
    exact .stop _
  · rw [doJoinMsg_found draws hl hp hm, Directory.join, ht]
    rcases addMember_shows hD (hw.indexed rc (List.mem_of_getElem? hp)) hc m with
      ⟨hn, he⟩ | ⟨hn, hid, he⟩ | ⟨hn, hid, he, hsh⟩
    · simp only
      rw [he, World.store_self hp, if_pos (show m.member.name ∈ _ from hn)]
      exact agree_refuse hs h _
    · simp only
      rw [he, World.store_self hp, if_neg (show m.member.name ∉ _ from hn), if_pos hid]
      exact agree_refuse hs h _
    · have hg := rc.grows_addMember D m
      have hattrs := (hw.registered.made rc (List.mem_of_getElem? hp)).2
      have hreply : joinReply (rc.addMember D m).1 =
          { op := some Tag.joinReply, clusterID := some rc.id.value, clusterAttrs := some 0,
            clusterMaxSize := some c.maxSize, endPointCount := some c.epCount } := by
        rw [joinReply, hg.id, hg.attrs, hg.maxSize, hg.epCount, hattrs, hc.maxSize, hc.epCount]
      simp only
      rw [he, if_neg hn, if_neg hid, hc.id, hreply]
      refine agree_reply (hs.addTo hD hw hlist hp he) (.joined rfl ?_)
      exact hm

end Join

/-! GetCluster. -/

theorem ClientInfo.member_token (D : Deps) (m : ClientInfo) :
    m.member.token D = (m.token D).toOption := by
  simp only [Directory.Member.token, ClientInfo.token, ClientInfo.member]
  rcases D.rsaPubKeyToWire m.commsPubKey with e | ck
  · rfl
  · rcases D.rsaPubKeyToWire m.sigPubKey with e | sk <;> rfl

def tokensFrom (D : Deps) (members : List ClientInfo) (which : UInt64) (size i : ℕ) : List (Token × ℕ) :=
  Directory.tokensOf D (((((members.map ClientInfo.member).take size).drop i).zipIdx i).filter
    fun p => D.bits.test which p.2)

theorem getLoop_tokens (D : Deps) {members : List ClientInfo} {which : UInt64} {size : ℕ}
    (hlen : size ≤ members.length) (h64 : size ≤ 64) (n : ℕ) {i : ℕ} (hi : i + n = size) (acc : Sending) :
    getLoop D members (D.bits.intersection which (D.bits.lowNMap size)) n i acc =
      .ok ⟨acc.tokens ++ (tokensFrom D members which size i).map Prod.fst,
        (tokensFrom D members which size i).foldl (fun b p => D.bits.set b p.2) acc.which⟩ := by
  induction n generalizing i acc with
  | zero =>
    have hnil : tokensFrom D members which size i = [] := by
      rw [tokensFrom, List.drop_eq_nil_of_le (by simp; omega)]
      rfl
    simp [getLoop, hnil]
  | succ n ih =>
    have hlt : i < members.length := by omega
    have hdrop : ((members.map ClientInfo.member).take size).drop i =
        members[i].member :: ((members.map ClientInfo.member).take size).drop (i + 1) := by
      rw [List.drop_eq_getElem_cons (by simp; omega)]
      simp
    have htest : D.bits.test (D.bits.intersection which (D.bits.lowNMap size)) i = D.bits.test which i := by
      rw [D.bits.test_intersection, D.bits.test_lowNMap _ _ h64]
      simp only [show i < size by omega, decide_true, Bool.and_true]
    rw [getLoop, getIter, htest, List.getElem?_eq_getElem hlt]
    cases hb : D.bits.test which i with
    | false =>
      have hskip : tokensFrom D members which size i = tokensFrom D members which size (i + 1) := by
        rw [tokensFrom, hdrop, List.zipIdx_cons, List.filter_cons_of_neg (by simp [hb])]
        rfl
      rw [hskip]
      exact ih (by omega) acc
    | true =>
      have hcons : tokensFrom D members which size i = Directory.tokensOf D ((members[i].member, i) ::
          ((((members.map ClientInfo.member).take size).drop (i + 1)).zipIdx (i + 1)).filter
            fun p => D.bits.test which p.2) := by
        rw [tokensFrom, hdrop, List.zipIdx_cons, List.filter_cons_of_pos (by simp [hb])]
      rw [hcons, Directory.tokensOf, ClientInfo.member_token]
      cases ht : members[i].token D with
      | error e => simp [ht, Except.toOption]
      | ok t =>
        simp only [if_true, ht, Except.toOption]
        rw [ih (by omega)]
        simp [tokensFrom]

theorem doGetMsg_shows {D : Deps} (hD : D.Reliable) {w : World} {d : Directory} (hw : w.InOrder D)
    (hs : w.Shows d) {h : InHandler} {m : ClientInfo} (hm : h.thisClient = some m)
    (draws : List NodeID) :
    Agree Answered (closing (doGetMsg D w h draws)) (d.list D m.member h.msgIn) := by
  simp only [doGetMsg, Directory.list, newBytesKey]
  rcases D.newBytesKey h.msgIn.clusterID with - | e
  · simp only [Hamt.find_total hD.hamt]
    rcases shows_byID hw hs (h.msgIn.clusterID.getD []) with ⟨hl, hd⟩ | ⟨p, rc, c, hl, hd, hp, hc⟩
    · rw [hl, hd]
      exact agree_refuse hs h _
    · have hbytes : h.msgIn.clusterID = some c.id.value := by
        have hid : rc.id.value = h.msgIn.clusterID.getD [] := by
          rw [← World.idAt_eq hp]
          exact ((hw.consistent.byID.lookup _ _).1 hl).2
        rw [hc.id, hid]
        cases hcid : h.msgIn.clusterID with
        | some b => rfl
        | none =>
          -- no ID is empty
          have hv := rc.id.valid
          rw [hid, hcid] at hv
          simp at hv
      have htok : tokensFrom D rc.members h.msgIn.getWhich (getSize rc) 0 = c.listing D h.msgIn.getWhich := by
        rw [tokensFrom, Directory.Cluster.listing, getSize_eq_min, hc.members, List.length_map]
        rfl
      rw [hl, hd]
      simp only [deref_ok.2 hp]
      rw [getLoop_tokens D (getSize_le rc).2 (getSize_le rc).1 _ (Nat.zero_add _), htok, hbytes]
      simp only [getReply, List.nil_append]
      refine agree_reply hs (.joined rfl ?_)
      exact hm
  · exact agree_refuse hs h e

/-! Dispatch. -/

def Request.tag : Request → ℤ
  | .member => 0
  | .create => 1
  | .join => 2
  | .getCluster => 3
  | .bye => 4

theorem request_cases (op : Int32) :
    (Request.of op = none ∧ ∀ s, dispatch s (op2tag op) = none) ∨
      ∃ r, Request.of op = some r ∧ op2tag op = r.tag := by
  by_cases hr : 2 ≤ op.toInt ∧ op.toInt ≤ 12
  · right
    have hop : op = Int32.ofInt op.toInt := (Int32.ofInt_toInt op).symm
    obtain ⟨h2, h12⟩ := hr
    generalize op.toInt = k at hop h2 h12
    subst hop
    interval_cases k <;> exact ⟨_, rfl, by decide⟩
  · refine .inl ⟨?_, fun s => ?_⟩
    · unfold Request.of
      split_ifs <;> first | rfl | omega
    · by_contra hsome
      exact hr ((op2tag_range op).1 ((dispatch_isSome_iff s _).1 hsome).2)

def RoundShows (r : World × InHandler × Exchange) (o : Directory × Visit × XLRegMsg) : Prop :=
  r.1.Shows o.1 ∧ r.2.1.Shows r.1 o.2.1 ∧ r.2.2.reply = some o.2.2

theorem startIter_agrees_of {D : Deps} {w : World} {h : InHandler} {x : Input} {f : HandlerName}
    {o : Directory.Outcome} (hd : dispatch h.entryState (op2tag x.msg.getOp) = some f)
    (ha : Agree Answered (closing (f.handler D w { h with msgIn := x.msg } x.draws)) o) :
    Agree RoundShows (startIter D w h x) o := by
  rw [startIter_inside hd]
  exact ha.map_left fun r o hr => hr

section Round

variable {D : Deps} (hD : D.Reliable) {w : World} {d : Directory} (hw : w.InOrder D) (hs : w.Shows d)
  {h : InHandler} {x : Input} {r : Request} (ht : op2tag x.msg.getOp = r.tag)
  (hr : Request.of x.msg.getOp = some r)
include hs ht

theorem badCombo_shows {v : Visit} (hd : dispatch h.entryState r.tag = some .badCombo)
    (hh : d.handle D v x = d.refuse .rcvdInvalidMsgForState) :
    Agree RoundShows (startIter D w h x) (d.handle D v x) := by
  rw [hh]
  exact startIter_agrees_of (f := .badCombo) (ht ▸ hd) (agree_refuse hs _ _)

theorem doByeMsg_shows {v : Visit} (hd : dispatch h.entryState r.tag = some .doByeMsg)
    (hh : d.handle D v x = .ok (d, .left, { op := some Tag.ack })) :
    Agree RoundShows (startIter D w h x) (d.handle D v x) := by
  rw [hh]
  exact startIter_agrees_of (f := .doByeMsg) (ht ▸ hd) (agree_reply hs (.left rfl))

include hD hw hr

theorem created_shows {m : ClientInfo} {own : Option NodeID} (hst : h.entryState = .createRequestRcvd)
    (hm : h.thisClient = some m) (hown : Owns w h.cluster own) :
    Agree RoundShows (startIter D w h x) (d.handle D (.created m.member own) x) := by
  cases r with
  | join =>
    have hh : d.handle D (.created m.member own) x = d.join D m.member own x.msg := by
      simp only [Directory.handle, hr]
    rw [hh]
    refine startIter_agrees_of (f := .doJoinMsg) (by rw [hst, ht]; rfl) ?_
    exact doJoinMsg_shows (h := { h with msgIn := x.msg }) hD hw hs hm hown x.draws
  | bye => exact doByeMsg_shows hs ht (by rw [hst]; rfl) (by simp only [Directory.handle, hr])
  | _ => exact badCombo_shows hs ht (by rw [hst]; rfl) (by simp only [Directory.handle, hr])

theorem startIter_shows_request {v : Visit} (hv : h.Shows w v) (hopen : v ≠ .closed) :
    Agree RoundShows (startIter D w h x) (d.handle D v x) := by
  cases hv with
  | new hst hcl =>
    cases r with
    | member =>
      have hh : d.handle D .new x = d.identify D x := by simp only [Directory.handle, hr]
      rw [hh]
      refine startIter_agrees_of (f := .doClientMsg) (by rw [hst, ht]; rfl) ?_
      exact doClientMsg_shows (h := { h with msgIn := x.msg }) hD hs hcl x.draws
    | bye => exact doByeMsg_shows hs ht (by rw [hst]; rfl) (by simp only [Directory.handle, hr])
    | _ => exact badCombo_shows hs ht (by rw [hst]; rfl) (by simp only [Directory.handle, hr])
  | known hst hm hcl =>
    rename_i m
    cases r with
    | create =>
      have hh : d.handle D (.known m.member) x = d.create m.member x := by
        simp only [Directory.handle, hr]
      rw [hh]
      refine startIter_agrees_of (f := .doCreateMsg) (by rw [hst, ht]; rfl) ?_
      exact doCreateMsg_shows (h := { h with msgIn := x.msg }) hD hw hs hm hcl x.draws
    | join =>
      have hh : d.handle D (.known m.member) x = d.join D m.member none x.msg := by
        simp only [Directory.handle, hr]
      rw [hh]
      refine startIter_agrees_of (f := .doJoinMsg) (by rw [hst, ht]; rfl) ?_
      exact doJoinMsg_shows (h := { h with msgIn := x.msg }) hD hw hs hm (.inl ⟨hcl, rfl⟩) x.draws
    | bye => exact doByeMsg_shows hs ht (by rw [hst]; rfl) (by simp only [Directory.handle, hr])
    | _ => exact badCombo_shows hs ht (by rw [hst]; rfl) (by simp only [Directory.handle, hr])
  | found hst hm hcl => exact created_shows hD hw hs ht hr hst hm (.inl ⟨hcl, rfl⟩)
  | created hst hm hcl hl hp => exact created_shows hD hw hs ht hr hst hm (.inr ⟨_, _, hcl, rfl, hl, hp⟩)
  | joined hst hm =>
    rename_i m
    cases r with
    | getCluster =>
      have hh : d.handle D (.joined m.member) x = d.list D m.member x.msg := by
        simp only [Directory.handle, hr]
      rw [hh]
      refine startIter_agrees_of (f := .doGetMsg) (by rw [hst, ht]; rfl) ?_
      exact doGetMsg_shows (h := { h with msgIn := x.msg }) hD hw hs hm x.draws
    | bye => exact doByeMsg_shows hs ht (by rw [hst]; rfl) (by simp only [Directory.handle, hr])
    | _ => exact badCombo_shows hs ht (by rw [hst]; rfl) (by simp only [Directory.handle, hr])
  | left hst =>
    -- the table has no row for BYE_RCVD
    have hout : dispatch h.entryState (op2tag x.msg.getOp) = none := by
      rw [hst, ht]
      cases r <;> rfl
    rw [startIter_outside hout]
    exact .stop _
  | closed hst => exact absurd rfl hopen

end Round

/-! Sessions and runs. -/

structure Session.Shows (s : Service) (c : Session) (v : Visitor) : Prop where
  visit : c.h.Shows s.world v.visit
  answers : c.exchanges.map (·.reply) = v.answers.map some

def Service.Shows (D : Deps) (s : Service) (d : Directory) : Prop := s.world.InOrder D ∧ s.world.Shows d

theorem startIter_shows {D : Deps} (hD : D.Reliable) {w : World} {d : Directory} (hw : w.InOrder D)
    (hs : w.Shows d) {h : InHandler} {v : Visit} (hv : h.Shows w v) (hopen : v ≠ .closed) (x : Input) :
    Agree RoundShows (startIter D w h x) (d.handle D v x) := by
  rcases request_cases x.msg.getOp with ⟨hr, hout⟩ | ⟨r, hr, ht⟩
  · have hh : d.handle D v x = .error .indexOutOfRange := by
      cases v with
      | closed => exact absurd rfl hopen
      | _ => simp only [Directory.handle, hr]
    rw [startIter_outside (hout _), hh]
    exact .stop _
  · exact startIter_shows_request hD hw hs ht hr hv hopen

theorem sessionStep_shows {D : Deps} (hD : D.Reliable) {s : Service} {d : Directory} {c : Session}
    {v : Visitor} (hs : s.Shows D d) (hc : c.Shows s v) (x : Input) :
    Agree (fun r r' => r.1.Shows D r'.1 ∧ r.2.Shows r.1 r'.2) (sessionStep D s c x) (v.step D d x) := by
  have hclosed := hc.visit.closed_iff
  unfold sessionStep Visitor.step
  split_ifs with h1 h2 h2
  · exact .ok ⟨hs, hc⟩
  · exact absurd (hclosed.1 h1) h2
  · exact absurd (hclosed.2 h2) h1
  · have hround := startIter_shows hD hs.1 hs.2 hc.visit h2 x
    have hkeep : ∀ r, startIter D s.world c.h x = .ok r → r.1.InOrder D := by
      intro r hr
      obtain ⟨f, h₁, -, hh, -⟩ := startIter_ok hr
      exact handler_inOrder hD hs.1 hh
    generalize startIter D s.world c.h x = y, d.handle D v.visit x = y' at hround hkeep
    cases hround with
    | stop e => exact .stop e
    | ok hr =>
      obtain ⟨hsh, hvis, hrep⟩ := hr
      refine .ok ⟨⟨hkeep _ rfl, hsh⟩, hvis, ?_⟩
      simp [hc.answers, hrep]

theorem server_refines {D : Deps} (hD : D.Reliable) :
    Parties.Refines (server D) (directory D) (Service.Shows D)
      (fun s s' => s.world.Grows s'.world) Session.Shows where
  start s d _ _ := ⟨.new rfl rfl, rfl⟩
  step s d c v x hs hc := sessionStep_shows hD hs hc x
  guarantee s c x s' c' hr := by
    rcases sessionStep_ok hr with ⟨-, rfl, -⟩ | ⟨-, w, h, ex, hi, rfl, -⟩
    · exact .refl _
    · exact startIter_grows hi
  stable s t c v hc hg := ⟨hc.visit.of_grows hg, hc.answers⟩

/-- With a HAMT that does not fail and a filter that is an exact set, every run of the server is one of
the directory: it comes to the same fault, or it gets to its end, every session has had the answers of
its visit and the registry holds what the directory says. -/
theorem serve_refines_directory {D : Deps} (hD : D.Reliable) (regID : NodeID) (evs : List ServerEvent) :
    Agree (Parties.Related (Service.Shows D) Session.Shows) (serve D regID evs)
      (Run.run (directory D).next ⟨Directory.init regID, []⟩ evs) := by
  refine (server_refines hD).run ⟨⟨World.init_inOrder D regID, ?_⟩, .nil⟩ evs
  exact ⟨fun b => by simp [World.init, ServerState.init, Directory.init], .nil⟩

theorem plain_reliable : Deps.plain.Reliable :=
  ⟨plain_hamtTotal, plain_keysNodeIDs, plain_exactFilter, fun _ => rfl⟩

/-- One client makes a cluster and another joins it, in both. -/
theorem serve_refines_directory_sample :
    ∃ s t, serve .plain (.rep 9) Sample.createAndJoin = .ok s ∧
      Run.run (directory .plain).next ⟨Directory.init (.rep 9), []⟩ Sample.createAndJoin = .ok t ∧
      Parties.Related (Service.Shows .plain) Session.Shows s t := by
  obtain ⟨s, hr, -⟩ := Run.exists_of_ends (server .plain).next (ServerState.init (.rep 9))
    Sample.createAndJoin (fun _ => true) (by decide)
  obtain ⟨t, ht, hst⟩ := (serve_refines_directory plain_reliable (.rep 9) Sample.createAndJoin).ok_left hr
  exact ⟨s, t, hr, ht, hst⟩

end XlReg
