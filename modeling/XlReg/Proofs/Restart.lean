import XlReg.Sanity.Sessions
import XlReg.Sanity.Plain
import XlReg.Spec.Startup

/-! Starting again on the backing file of an earlier run. The filter on the file has every ID of
that run, the registry's own among them, and `NewRegistry` inserts this one again: the second
start reports it as already in use. Without a backing file a start gives `World.init`. -/

namespace XlReg

/-- Files can be written, and a filter mapped onto a backing file can be mapped again, with
every ID that has been inserted since. -/
structure Host.Persistent (H : Host) : Prop where
  write : ∀ path text, H.writeFile path text = none
  reopen : ∀ m k old f ids, H.newMappedBloomSHA m k old = .ok f → f.ids <+: ids →
    ∃ f', H.newMappedBloomSHA m k (some ⟨ids⟩) = .ok f' ∧ ids ⊆ f'.ids

theorem insertID_none {D : Deps} {f f' : IdFilter} {n : NodeID} (h : insertID D f n = (f', none)) :
    f.isMember D n.value = .ok false ∧ f'.ids = f.ids ++ [n.value] := by
  unfold insertID at h
  rcases hm : f.isMember D n.value with e | found
  · simp [hm] at h
  · rcases hi : D.filterInsertErr f.ids n.value with - | e
    · cases found
      · simp only [hm, IdFilter.insert, hi] at h
        cases h
        exact ⟨rfl, rfl⟩
      · simp [hm] at h
    · cases found
      · simp [hm, IdFilter.insert, hi] at h
      · simp [hm] at h

theorem insertID_known {D : Deps} {f : IdFilter} {n : NodeID} (h : f.isMember D n.value = .ok true) :
    insertID D f n = (f, some .idAlreadyInUse) := by
  simp [insertID, h]

theorem newRegistry_ok {D : Deps} {H : Host} {d d' : Disk} {heap : List RegCluster}
    {clusters : List Ptr} {rn : RegNode} {opt : RegOptions} {w : World}
    (h : newRegistry D H d heap clusters (some rn) (some opt) = .ok (d', some w, none)) :
    ∃ v f f', H.parseDecimalVersion VERSION = .ok v ∧ openFilter H d opt = .ok f ∧
      D.newHAMT D.maxW opt.t = none ∧ (rn.lfs ≠ "" → opt.globalEndPoint ≠ none) ∧
      insertID D f rn.id = (f', none) ∧ w = ⟨⟨rn.id, f', clusters, ∅, .empty⟩, heap, 0⟩ := by
  unfold newRegistry at h
  rcases hv : H.parseDecimalVersion VERSION with e | v
  · simp [hv] at h
  rcases hf : openFilter H d opt with e | f
  · simp [hv, hf] at h
  rcases ht : D.newHAMT D.maxW opt.t with - | e
  · simp only [hv, hf, ht] at h
    rcases hw : writeRegCred H (d.mapped opt f) rn opt v with a | ⟨d1, - | e⟩
    · simp [hw] at h
    · simp only [hw] at h
      rcases hi : insertID D f rn.id with ⟨f', err⟩
      simp only [hi] at h
      cases h
      refine ⟨v, f, f', rfl, rfl, rfl, fun hl hnone => ?_, hi, rfl⟩
      simp [writeRegCred, hl, hnone] at hw
    · simp [hw] at h
  · simp [hv, hf, ht] at h

/-- A start that gets as far as its last step, when the filter it has opened knows the
registry's ID already. -/
theorem newRegistry_known {D : Deps} {H : Host} {d : Disk} (heap : List RegCluster)
    (clusters : List Ptr) {rn : RegNode} {opt : RegOptions} {v : DecimalVersion} {f : IdFilter}
    (hv : H.parseDecimalVersion VERSION = .ok v) (hf : openFilter H d opt = .ok f)
    (ht : D.newHAMT D.maxW opt.t = none) (hep : rn.lfs ≠ "" → opt.globalEndPoint ≠ none)
    (hwr : ∀ path text, H.writeFile path text = none) (hk : f.isMember D rn.id.value = .ok true) :
    ∃ d', newRegistry D H d heap clusters (some rn) (some opt) =
      .ok (d', some ⟨⟨rn.id, f, clusters, ∅, .empty⟩, heap, 0⟩, some .idAlreadyInUse) := by
  have hcred : ∃ d1, writeRegCred H (d.mapped opt f) rn opt v = .ok (d1, none) := by
    unfold writeRegCred
    split_ifs with hl
    · exact ⟨_, rfl⟩
    · obtain ⟨ep, he⟩ := Option.ne_none_iff_exists'.1 (hep hl)
      simp only [he, hwr]
      exact ⟨_, rfl⟩
  obtain ⟨d1, hd1⟩ := hcred
  simp only [newRegistry, hv, hf, ht, hd1, insertID_known hk]
  exact ⟨_, rfl⟩

/-- A registry started without clusters and without a backing file is the one that the server's
runs begin with. -/
theorem newRegistry_init {D : Deps} {H : Host} {d d' : Disk} {rn : RegNode} {opt : RegOptions}
    {w : World} (hb : opt.backingFile = "")
    (h : newRegistry D H d [] [] (some rn) (some opt) = .ok (d', some w, none)) :
    w.serving = ServerState.init rn.id := by
  obtain ⟨v, f, f', -, hf, -, -, hi, rfl⟩ := newRegistry_ok h
  have hnil : f = ⟨[]⟩ := by
    simp only [openFilter, hb, if_true] at hf
    split at hf
    · cases hf
    · exact (Except.ok.inj hf).symm
  subst hnil
  obtain ⟨-, hids⟩ := insertID_none hi
  have hf' : f' = ⟨[rn.id.value]⟩ := by
    cases f'
    exact congrArg IdFilter.mk hids
  rw [hf']
  rfl

/-- After any run of a server started with a backing file, starting again with the same node and
the same options gives a registry that knows its own ID and every ID inserted before, but with
the error IDAlreadyInUse. -/
theorem restart_refused {D : Deps} {H : Host} (hD : ∀ ids b, D.isMemberErr ids b = none)
    (hH : H.Persistent) {d d₁ : Disk} {heap : List RegCluster} {clusters : List Ptr} {rn : RegNode}
    {opt : RegOptions} {w : World} {evs : List ServerEvent} {s : ServerState}
    (hb : opt.backingFile ≠ "")
    (hstart : newRegistry D H d heap clusters (some rn) (some opt) = .ok (d₁, some w, none))
    (hrun : Run.run (server D).next w.serving evs = .ok s)
    (heap' : List RegCluster) (clusters' : List Ptr) :
    ∃ d₂ w₂, newRegistry D H (d₁.mapped opt s.shared.world.reg.idFilter) heap' clusters'
        (some rn) (some opt) = .ok (d₂, some w₂, some .idAlreadyInUse) ∧
      containsID D w₂.reg.idFilter rn.id = .ok true ∧
      ∀ n : NodeID, n.value ∈ s.shared.world.reg.idFilter.ids →
        containsID D w₂.reg.idFilter n = .ok true := by
  obtain ⟨v, f, f', hv, hf, ht, hep, hi, rfl⟩ := newRegistry_ok hstart
  obtain ⟨-, hids⟩ := insertID_none hi
  -- the run starts from the filter with the registry's own ID and only adds to it
  have hgrow : f'.ids <+: s.shared.world.reg.idFilter.ids := (server_run_grows hrun).1.ids
  have hpre : f.ids <+: s.shared.world.reg.idFilter.ids := by
    rw [hids] at hgrow
    exact (List.prefix_append _ _).trans hgrow
  have hown : rn.id.value ∈ s.shared.world.reg.idFilter.ids := by
    apply hgrow.subset
    rw [hids]
    simp
  simp only [openFilter, hb, if_false] at hf
  obtain ⟨f₂, hf₂, hsub⟩ := hH.reopen _ _ _ _ _ hf hpre
  have hknows : ∀ n : NodeID, n.value ∈ s.shared.world.reg.idFilter.ids →
      containsID D f₂ n = .ok true := by
    intro n hn
    simp [containsID, IdFilter.isMember, hD, hsub hn]
  have hopen : openFilter H (d₁.mapped opt s.shared.world.reg.idFilter) opt = .ok f₂ := by
    simp only [openFilter, hb, if_false, Disk.mapped, AList.lookup_insert]
    exact hf₂
  obtain ⟨d₂, h₂⟩ := newRegistry_known heap' clusters' hv hopen ht hep hH.write
    (hknows rn.id hown)
  exact ⟨d₂, _, h₂, hknows rn.id hown, hknows⟩

/-- A file system without errors, on which a mapped filter is what its file holds. -/
def Host.plain : Host where
  parseDecimalVersion _ := .ok 0
  versionString _ := VERSION
  rsaPubKeyToDisk _ := .ok "key"
  join a b := a ++ "/" ++ b
  newBloomSHA _ _ := none
  newMappedBloomSHA _ _ old := .ok (old.getD ⟨[]⟩)
  writeFile _ _ := none

theorem plain_persistent : Host.plain.Persistent :=
  ⟨fun _ _ => rfl, fun _ _ _ _ ids _ _ => ⟨⟨ids⟩, rfl, List.Subset.refl ids⟩⟩

namespace Sample

def node : RegNode := ⟨"xlReg", .rep 9, "/var/app/xlReg", ⟨1, 3⟩, ⟨2, 3⟩⟩

def options : RegOptions := ⟨"/var/app/xlReg/idFilter.dat", 20, 8, 6, some ⟨"127.0.0.1:55555"⟩⟩

def noFiles : Disk := ⟨∅, ∅⟩

/-- The registry of the first start, with its own ID in the filter. -/
def started : World := ⟨⟨.rep 9, ⟨[(NodeID.rep 9).value]⟩, [], ∅, .empty⟩, [], 0⟩

end Sample

/-- The second start fails even when the run in between did nothing. -/
theorem restart_own_id_in_use :
    ∃ d₁ d₂ w₂,
      newRegistry .plain .plain Sample.noFiles [] [] (some Sample.node) (some Sample.options) =
        .ok (d₁, some Sample.started, none) ∧
      d₁.filters.lookup Sample.options.backingFile = some Sample.started.reg.idFilter ∧
      newRegistry .plain .plain d₁ [] [] (some Sample.node) (some Sample.options) =
        .ok (d₂, some w₂, some .idAlreadyInUse) :=
  ⟨_, _, _, rfl, rfl, rfl⟩

theorem restart_refused_sample :
    ∃ d₁ s d₂ w₂,
      newRegistry .plain .plain Sample.noFiles [] [] (some Sample.node) (some Sample.options) =
        .ok (d₁, some Sample.started, none) ∧
      Run.run (server .plain).next Sample.started.serving
        [.enter (), .act 0 ⟨Sample.member "a" none 2, [.rep 1]⟩] = .ok s ∧
      newRegistry .plain .plain (d₁.mapped Sample.options s.shared.world.reg.idFilter) [] []
        (some Sample.node) (some Sample.options) = .ok (d₂, some w₂, some .idAlreadyInUse) ∧
      containsID .plain w₂.reg.idFilter (.rep 1) = .ok true := by
  obtain ⟨s, hs, hp⟩ := Run.exists_of_ends (server .plain).next Sample.started.serving
    [.enter (), .act 0 ⟨Sample.member "a" none 2, [.rep 1]⟩]
    (fun s : ServerState => decide ((NodeID.rep 1).value ∈ s.shared.world.reg.idFilter.ids))
    (by decide)
  have hb : Sample.options.backingFile ≠ "" := by decide
  have hstart : newRegistry .plain .plain Sample.noFiles [] [] (some Sample.node)
      (some Sample.options) = .ok (_, some Sample.started, none) := rfl
  obtain ⟨d₂, w₂, h₂, -, hk⟩ := restart_refused (fun _ _ => rfl) plain_persistent hb hstart hs [] []
  exact ⟨_, s, d₂, w₂, hstart, hs, h₂, hk _ (of_decide_eq_true hp)⟩

end XlReg
