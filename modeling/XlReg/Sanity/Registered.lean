import XlReg.Sanity.Sessions

/-! What holds of the clusters of a registry, whatever its HAMT does. Their IDs were new to the
filter when they were made and are in it ever since. The name map is an index of the list, since
the two are written together. An entry of the HAMT leads to a listed cluster with that ID, though
a failed insertion may leave a listed cluster without its entry. -/

namespace XlReg

open Index

structure World.Registered (w : World) : Prop where
  own : w.reg.regID.value ∈ w.reg.idFilter.ids
  known : ∀ rc ∈ w.heap, rc.id.value ∈ w.reg.idFilter.ids
  distinct : (w.reg.regID :: w.heap.map (·.id)).Nodup
  made : ∀ rc ∈ w.heap, rc.name ≠ "" ∧ rc.attrs = 0
  valid : ∀ p ∈ w.reg.clusters, p < w.heap.length
  byName : Indexes w.nameAt w.reg.clusters w.reg.clustersByName
  byID : ∀ k p, w.reg.clustersByID.map.lookup k = some p → p ∈ w.reg.clusters ∧ w.idAt p = k

theorem World.init_registered (regID : NodeID) : (World.init regID).Registered := by
  refine ⟨?_, ?_, ?_, ?_, ?_, Indexes.empty _, ?_⟩ <;> simp [World.init, Hamt.empty]

theorem World.Registered.eq_of_id {w : World} (h : w.Registered) {rc rc' : RegCluster}
    (hrc : rc ∈ w.heap) (hrc' : rc' ∈ w.heap) (hid : rc.id = rc'.id) : rc = rc' :=
  List.inj_on_of_nodup_map h.distinct.of_cons hrc hrc' hid

theorem World.Registered.id_ne {w : World} (h : w.Registered) {rc : RegCluster} (hrc : rc ∈ w.heap) :
    rc.id ≠ w.reg.regID := by
  intro he
  apply (List.nodup_cons.1 h.distinct).1
  rw [← he]
  exact List.mem_map.2 ⟨rc, hrc, rfl⟩

theorem World.Registered.eq_of_name {w : World} (h : w.Registered) {p q : Ptr}
    {rc rc' : RegCluster} (hp : p ∈ w.reg.clusters) (hq : q ∈ w.reg.clusters)
    (hrc : w.heap[p]? = some rc) (hrc' : w.heap[q]? = some rc') (hname : rc.name = rc'.name) :
    rc = rc' := by
  have h1 := h.byName.lookup_self hp
  have h2 := h.byName.lookup_self hq
  rw [World.nameAt_eq hrc] at h1
  rw [World.nameAt_eq hrc', ← hname, h1] at h2
  cases h2
  rw [hrc] at hrc'
  exact Option.some.inj hrc'

theorem World.Registered.no_empty_name {w : World} (h : w.Registered) :
    w.reg.clustersByName.lookup "" = none := by
  apply (h.byName.lookup_none "").2
  intro p hp
  have hlt := h.valid p hp
  rw [World.nameAt_eq (List.getElem?_eq_getElem hlt)]
  exact (h.made _ (List.getElem_mem hlt)).1

section Grows

variable {w w' : World} (hg : w.Grows w') (hlen : w'.heap.length = w.heap.length)
include hg hlen

/-- Where no cluster is made, each was there before. -/
theorem World.Grows.mem_of_length {rc' : RegCluster} (h : rc' ∈ w'.heap) :
    ∃ rc ∈ w.heap, rc.Grows rc' := by
  obtain ⟨p, hp⟩ := List.mem_iff_getElem?.1 h
  have hlt : p < w.heap.length := hlen ▸ (List.getElem?_eq_some_iff.1 hp).1
  obtain ⟨rc, rc1, hrc, hrc1, hgr⟩ := hg.at hlt
  rw [hp] at hrc1
  cases hrc1
  exact ⟨rc, List.mem_of_getElem? hrc, hgr⟩

theorem World.Grows.map_id : w'.heap.map (·.id) = w.heap.map (·.id) := by
  apply List.ext_getElem (by simp [hlen])
  intro p h1 h2
  have hlt : p < w.heap.length := by simpa using h2
  obtain ⟨rc, rc', hrc, hrc', hgr⟩ := hg.at hlt
  simp only [List.getElem_map]
  rw [(List.getElem?_eq_some_iff.1 hrc).2, (List.getElem?_eq_some_iff.1 hrc').2, hgr.id]

theorem World.Registered.of_grows (h : w.Registered)
    (h1 : w'.reg.clusters = w.reg.clusters) (h2 : w'.reg.clustersByName = w.reg.clustersByName)
    (h3 : w'.reg.clustersByID = w.reg.clustersByID) : w'.Registered := by
  refine ⟨?_, ?_, ?_, ?_, ?_, ?_, ?_⟩
  · rw [hg.regID]
    exact hg.ids.subset h.own
  · intro rc' hrc'
    obtain ⟨rc, hrc, hgr⟩ := hg.mem_of_length hlen hrc'
    rw [hgr.id]
    exact hg.ids.subset (h.known rc hrc)
  · rw [hg.regID, hg.map_id hlen]
    exact h.distinct
  · intro rc' hrc'
    obtain ⟨rc, hrc, hgr⟩ := hg.mem_of_length hlen hrc'
    rw [hgr.name, hgr.attrs]
    exact h.made rc hrc
  · rw [h1]
    exact fun p hp => hg.lt_length (h.valid p hp)
  · rw [h1, h2]
    exact h.byName.congr fun p hp => hg.nameAt (h.valid p hp)
  · rw [h1, h3]
    intro k p hp
    obtain ⟨hmem, hid⟩ := h.byID k p hp
    exact ⟨hmem, by rw [hg.idAt (h.valid p hmem), hid]⟩

end Grows

/-- A cluster made under an ID that the filter did not know. -/
theorem World.Registered.make {D : Deps} {w : World} (h : w.Registered) {name : String} {n : NodeID}
    {maxSize epCount : UInt32} {rc : RegCluster}
    (hn : w.reg.idFilter.isMember D n.value = .ok false)
    (hnew : newRegCluster D name n 0 maxSize epCount = .ok rc) :
    ((w.setFilter ⟨w.reg.idFilter.ids ++ [n.value]⟩).alloc rc).Registered := by
  obtain ⟨-, hname, hid, hattrs, -, -⟩ := newRegCluster_ok hnew
  have hg := w.grows_make n rc
  refine ⟨hg.ids.subset h.own, ?_, ?_, ?_, ?_, ?_, ?_⟩
  · intro rc' hrc'
    rcases List.mem_append.1 hrc' with hold | hlast
    · exact hg.ids.subset (h.known rc' hold)
    · rw [List.mem_singleton.1 hlast, hid]
      simp [World.alloc, World.setFilter]
  · simp only [World.alloc, World.setFilter, List.map_append, List.map_cons, List.map_nil]
    rw [← List.cons_append]
    apply List.nodup_append.2 ⟨h.distinct, List.nodup_singleton _, ?_⟩
    intro a ha b hb hab
    rw [List.mem_singleton.1 hb, hid] at hab
    apply IdFilter.not_mem hn
    rcases List.mem_cons.1 ha with rfl | ha
    · rw [← hab]
      exact h.own
    · obtain ⟨rc', hrc', rfl⟩ := List.mem_map.1 ha
      rw [← hab]
      exact h.known rc' hrc'
  · intro rc' hrc'
    rcases List.mem_append.1 hrc' with hold | hlast
    · exact h.made rc' hold
    · rw [List.mem_singleton.1 hlast, hname, hattrs]
      refine ⟨?_, rfl⟩
      split_ifs with hempty
      · decide
      · exact hempty
  · exact fun p hp => hg.lt_length (h.valid p hp)
  · exact h.byName.congr fun p hp => hg.nameAt (h.valid p hp)
  · intro k p hp
    obtain ⟨hmem, hidAt⟩ := h.byID k p hp
    exact ⟨hmem, by rw [hg.idAt (h.valid p hmem), hidAt]⟩

theorem World.Registered.addCluster {D : Deps} {w w' : World} {c : Option Ptr} {i : ℤ}
    {err : Option Err} (hw : w.Registered) (h : XlReg.addCluster D w c = .ok (w', i, err)) :
    w'.Registered := by
  rcases addCluster_cases h with ⟨rfl, -, -⟩ | ⟨p, rc, -, hp, -, hn, -, hout⟩
  · exact hw
  · have hlt : p < w.heap.length := (List.getElem?_eq_some_iff.1 hp).1
    have hvalid : ∀ q ∈ w.reg.clusters ++ [p], q < w.heap.length := by
      intro q hq
      rcases List.mem_append.1 hq with hq | hq
      · exact hw.valid q hq
      · rw [List.mem_singleton.1 hq]
        exact hlt
    rw [← World.nameAt_eq hp] at hn hout
    have hname := hw.byName.append hn
    have hold : ∀ k q, w.reg.clustersByID.map.lookup k = some q →
        q ∈ w.reg.clusters ++ [p] ∧ w.idAt q = k := by
      intro k q hq
      obtain ⟨hmem, hid⟩ := hw.byID k q hq
      exact ⟨List.mem_append_left _ hmem, hid⟩
    rcases hout with ⟨rfl, -, -⟩ | ⟨rfl, -, -⟩
    · refine ⟨hw.own, hw.known, hw.distinct, hw.made, hvalid, hname, ?_⟩
      intro k q hq
      by_cases hk : k = rc.id.value
      · subst hk
        rw [AList.lookup_insert] at hq
        cases hq
        exact ⟨by simp, World.idAt_eq hp⟩
      · rw [AList.lookup_insert_ne hk] at hq
        exact hold k q hq
    · exact ⟨hw.own, hw.known, hw.distinct, hw.made, hvalid, hname, hold⟩

theorem handler_registered {D : Deps} {f : HandlerName} {w w' : World} {h h' : InHandler}
    {draws : List NodeID} (hw : w.Registered) (hr : f.handler D w h draws = .ok (w', h')) :
    w'.Registered := by
  have hg := handler_grows hr
  rcases handler_world hr with ⟨fl, n, -, rfl⟩ | ⟨n, rc, i, err, -, hm, ha⟩ |
    ⟨client, p, rc, -, -, rfl⟩
  · exact hw.of_grows hg rfl rfl rfl rfl
  · exact (hw.make hm.drawn.fresh hm.made).addCluster ha
  · exact hw.of_grows hg (by simp [World.store]) rfl rfl rfl

/-- The cluster hung on a session that is still open is listed. -/
def InHandler.Hung (w : World) (h : InHandler) : Prop :=
  h.entryState ≠ .inClosed → ∀ p, h.cluster = some p → p ∈ w.reg.clusters

theorem InHandler.Hung.of_grows {w w' : World} {h : InHandler} (hh : h.Hung w) (hg : w.Grows w') :
    h.Hung w' :=
  fun hopen p hp => hg.clusters.subset (hh hopen p hp)

theorem joinLookup_listed {D : Deps} {w : World} {h : InHandler} {p : Ptr} (hw : w.Registered)
    (hh : h.Hung w) (hopen : h.entryState ≠ .inClosed) (hl : joinLookup D w h = (some p, none)) :
    p ∈ w.reg.clusters := by
  unfold joinLookup at hl
  rcases hid : h.msgIn.clusterID with - | id
  · simp only [hid] at hl
    split_ifs at hl
    · rcases hc : h.cluster with - | q
      · simp [hc] at hl
      · simp only [hc] at hl
        cases hl
        exact hh hopen _ hc
    · rcases hn : w.reg.clustersByName.lookup h.msgIn.getClusterName with - | q
      · simp [hn] at hl
      · simp only [hn] at hl
        cases hl
        exact ((hw.byName.lookup _ _).1 hn).1
  · simp only [hid] at hl
    rcases hk : newBytesKey D (some id) with e | k
    · simp [hk] at hl
    · simp only [hk, Hamt.find] at hl
      rcases hf : D.findErr w.reg.clustersByID.map.keys k with - | e
      · rcases hm : w.reg.clustersByID.map.lookup k with - | q
        · simp [hf, hm] at hl
        · simp only [hf, hm] at hl
          cases hl
          exact (hw.byID _ _ hm).1
      · simp [hf] at hl

theorem addCluster_listed {D : Deps} {w w' : World} {p : Ptr} {i : ℤ} {rc : RegCluster}
    (hp : w.heap[p]? = some rc) (ha : addCluster D w (some p) = .ok (w', i, none)) :
    w'.heap = w.heap ∧ p ∈ w'.reg.clusters ∧ w'.reg.clustersByName.lookup rc.name = some p := by
  rcases addCluster_cases ha with ⟨-, -, e, he⟩ |
    ⟨q, rc', hq, hrc', -, -, -, ⟨rfl, -, -⟩ | ⟨-, -, e, he, -⟩⟩
  · cases he
  · cases hq
    rw [hp] at hrc'
    cases hrc'
    exact ⟨rfl, by simp, AList.lookup_insert _⟩
  · cases he

/-- What a Create has done when it replies about a new cluster. -/
theorem createNew_replied {D : Deps} {w w' : World} {h h' : InHandler} {draws : List NodeID}
    (hr : createNew D w h draws = .ok (w', h')) (hok : h'.errOut = none) :
    ∃ n rc, Draws D w.reg.idFilter draws n ∧
      newRegCluster D h.msgIn.getClusterName n 0 (clampSize h.msgIn.getClusterMaxSize)
        h.msgIn.getEndPointCount = .ok rc ∧
      w'.reg.idFilter.ids = w.reg.idFilter.ids ++ [n.value] ∧
      w'.heap[w.heap.length]? = some rc ∧ w.heap.length ∈ w'.reg.clusters ∧
      w'.reg.clustersByName.lookup rc.name = some w.heap.length ∧
      h' = { h with cluster := some w.heap.length }.reply
        (createReply n (clampSize h.msgIn.getClusterMaxSize) h.msgIn.getClusterAttrs
          h.msgIn.getEndPointCount) .createRequestRcvd := by
  rcases createNew_ok hr with ⟨f, e, -, -, rfl⟩ | ⟨n, rc, i, err, hn, hnew, ha, ⟨e, -, rfl⟩ | ⟨rfl, rfl⟩⟩
  · cases hok
  · cases hok
  · have hlast := w.make_last ⟨w.reg.idFilter.ids ++ [n.value]⟩ rc
    obtain ⟨hheap, hmem, hname⟩ := addCluster_listed hlast ha
    refine ⟨n, rc, hn, hnew, ?_, by rw [hheap]; exact hlast, hmem, hname, rfl⟩
    rw [addCluster_filter ha]
    rfl

theorem handler_hung {D : Deps} {f : HandlerName} {w w' : World} {h h' : InHandler}
    {draws : List NodeID} (hw : w.Registered) (hh : h.Hung w) (hopen : h.entryState ≠ .inClosed)
    (hr : f.handler D w h draws = .ok (w', h')) (hok : h'.errOut = none) :
    ∀ p, h'.cluster = some p → p ∈ w'.reg.clusters := by
  have hg := handler_grows hr
  have hold : ∀ p, h.cluster = some p → p ∈ w'.reg.clusters :=
    fun p hp => hg.clusters.subset (hh hopen p hp)
  cases handler_effect hr with
  | refused e => cases hok
  | noNode ha => cases hok
  | accepted ha => exact hold
  | noCluster hl hn hnew => cases hok
  | notAdded hm ha => cases hok
  | created hm ha =>
    obtain ⟨-, hmem, -⟩ := addCluster_listed (w.make_last _ _) ha
    intro p hp
    cases hp
    exact hmem
  | found hl hp => exact hold
  | notJoined hj ha => cases hok
  | joined hj ha =>
    have hlisted := joinLookup_listed hw hh hopen hj.found
    intro q hq
    cases hq
    exact hlisted
  | listed s => exact hold
  | bye => exact hold

theorem startIter_hung {D : Deps} {w w' : World} {h h' : InHandler} {x : Input} {ex : Exchange}
    (hw : w.Registered) (hh : h.Hung w) (hr : startIter D w h x = .ok (w', h', ex)) : h'.Hung w' := by
  obtain ⟨f, h1, hd, hrun, rfl, -⟩ := startIter_ok hr
  intro hopen p hp
  have hok : h1.errOut = none := by
    by_contra hne
    obtain ⟨e, he⟩ := Option.ne_none_iff_exists'.1 hne
    exact hopen (by simp [afterRound, respond, he])
  have hcl : h1.cluster = some p := by simpa [afterRound, respond, hok] using hp
  exact handler_hung (h := { h with msgIn := x.msg }) hw hh (open_of_dispatch hd) hrun hok p hcl

end XlReg
