import XlReg.Proofs.Links
import XlReg.Proofs.Started
import XlReg.Sanity.PlainMessages

/-! Any number of clients at this server, down to the bytes (Spec/Link). If each read takes all that is
there, both ends of a link get what the other end has sent, whatever happens on the other links, so that
what holds of a client and its session holds of them over the wire. -/

namespace XlReg

variable {S : Type} {D : Deps} {Y : Cipher S} {v : UInt32}

theorem links_contract (D : Deps) (hY : Y.Lawful) (v : UInt32) :
    Parties.Contract (links D Y v) (fun _ l a => a.Whole l) (fun _ => True) (fun _ _ => True)
      (fun _ l => l.Sound Y v) where
  start _ _ _ := Link.sound_init
  step _ _ _ _ _ _ hJ hC hr := ⟨trivial, trivial, hJ.moves hY hC hr⟩
  stable _ _ _ _ hJ _ := hJ

theorem communicate_sound (hY : Y.Lawful) {regID : NodeID} {evs : List (Parties.Event Unit Move)}
    {s : Parties.State Service (Link S)} (h : communicate D Y v regID evs = .ok s)
    (hw : Run.Along (links D Y v).next (Parties.On fun _ l a => a.Whole l)
      ⟨⟨World.init regID, []⟩, []⟩ evs) {l : Link S} (hl : l ∈ s.parties) : l.Sound Y v :=
  (Run.along_inv (fun _ _ _ hs hP hn => (links_contract D hY v).holds_next hs hP hn)
    ⟨trivial, fun _ hl => by cases hl⟩ hw h).2 l hl

theorem Link.client_server (l : Link S) (a : ClientMove) : (l.client Y a).server = l.server := by
  cases a with
  | hello u random write => cases hs : l.setup <;> simp only [client, hs]
  | helloReply r =>
    cases hs : l.setup <;> simp only [client, hs]
    cases r.received l.toClient l.server.cnx.closed <;> rfl
  | request m iv write =>
    rcases client_request (Y := Y) l m iv write with hsame | ⟨k, u, data, -, -, -, hmove⟩
    · rw [hsame]
    · rw [hmove]
  | answer r =>
    rcases client_answer (Y := Y) l r with hsame | ⟨k, u, x, -, -, -, hmove⟩
    · rw [hsame]
    · rw [hmove]
  | hangUp => rfl

theorem communicate_serves {regID : NodeID} {evs : List (Parties.Event Unit Move)}
    {s : Parties.State Service (Link S)} (h : communicate D Y v regID evs = .ok s) :
    ∃ evs', serve D regID evs' = .ok (s.map (·.server.session)) := by
  obtain ⟨evs', hacc⟩ : ∃ evs', accept D Y.crypto v regID evs' = .ok (s.map (·.server)) := by
    change ∃ evs', Run.run (connections D Y.crypto v).next
      (Parties.State.map (fun l : Link S => l.server) ⟨⟨World.init regID, []⟩, []⟩) evs' = _
    refine Parties.run_projects (g := id) (fun _ => rfl) ?_ h
    intro s l a s' l' hstep
    cases a with
    | client a =>
      cases hstep
      refine .inl ⟨rfl, ?_⟩
      split_ifs
      · rfl
      · exact l.client_server a
    | serve r write draws iv =>
      rcases Link.step_serve hstep with ⟨rfl, rfl⟩ | ⟨x, server, -, hst, rfl⟩
      · exact .inl ⟨rfl, rfl⟩
      · exact .inr ⟨_, hst⟩
  obtain ⟨evs'', hserve⟩ := accept_serves hacc
  refine ⟨evs'', hserve.trans ?_⟩
  simp [Parties.State.map]

/-- The requests and reads of a client are those on the link. A request that was not written, for
whatever reason, has nothing to be read after it. -/
structure Link.Carries (l : Link S) (log : List Ask) : Prop where
  sent : ∀ (i : ℕ) m, l.sent[i]? = some m → ∃ a, log[i]? = some a ∧ a.request = some m
  turns : ∀ (i : ℕ) (a : Ask), log[i]? = some a →
    (∃ m, l.sent[i]? = some m ∧ a.request = some m ∧ a.turn.write = none ∧
      l.got[i]? = some a.turn.read) ∨
    (l.sent[i]? = none ∧ ∃ e, a.turn.read = .error e)

/-- A client all of whose requests are written and answered. -/
theorem Link.Carries.of_complete {l : Link S} {log : List Ask}
    (hsent : log.map Ask.request = l.sent.map some) (hgot : log.map (·.turn.read) = l.got)
    (hwrite : ∀ a ∈ log, a.turn.write = none) : l.Carries log := by
  have hreq : ∀ i : ℕ, (log[i]?).map Ask.request = (l.sent[i]?).map some := fun i => by
    rw [← List.getElem?_map, hsent, List.getElem?_map]
  refine ⟨fun i m hm => ?_, fun i a ha => .inl ?_⟩
  · have hi := hreq i
    rw [hm] at hi
    obtain ⟨a, ha, heq⟩ := Option.map_eq_some_iff.1 hi
    exact ⟨a, ha, heq⟩
  · have hi := hreq i
    rw [ha] at hi
    obtain ⟨m, hm, heq⟩ := Option.map_eq_some_iff.1 hi.symm
    refine ⟨m, hm, heq.symm, hwrite a (List.mem_of_getElem? ha), ?_⟩
    rw [← hgot, List.getElem?_map, ha]
    rfl

/-- The client reads messages up to some place, and none from there on. -/
theorem Link.Steady.got_until {l : Link S} {k : S} (h : l.Steady Y k) :
    ∃ n : ℕ, (∀ i < n, ∃ m, l.got[i]? = some (.ok m)) ∧ ∀ i ≥ n, ∀ m, l.got[i]? ≠ some (.ok m) := by
  classical
  have hex : ∃ n : ℕ, ∀ m, l.got[n]? ≠ some (.ok m) := by
    refine ⟨l.got.length, fun m hm => ?_⟩
    rw [List.getElem?_eq_none le_rfl] at hm
    cases hm
  refine ⟨Nat.find hex, fun i hi => ?_, fun i hi m hm => ?_⟩
  · have hbefore := Nat.find_min hex hi
    push Not at hbefore
    exact hbefore
  · have hlt := (List.getElem?_eq_some_iff.1 hm).1
    obtain ⟨r, hr⟩ : ∃ r, l.got[Nat.find hex]? = some r :=
      ⟨_, List.getElem?_eq_getElem (by omega)⟩
    rcases r with e | m'
    · exact (h.ended _ e hr).1 i m hi hm
    · exact Nat.find_spec hex m' hr

/-- Between the client and the session there is a connection that carries requests in order and
brings the replies back, until it is closed or breaks. -/
theorem Link.Steady.linked {l : Link S} {k : S} (h : l.Steady Y k) {log : List Ask} (hc : l.Carries log) :
    Linked log l.server.session.exchanges := by
  obtain ⟨n, hbefore, hafter⟩ := h.got_until
  refine ⟨fun i ex hi => hc.sent i _ (h.handled i ex hi), n, fun i hi a ha => ?_, fun i hi a ha => ?_⟩
  · obtain ⟨m, hm⟩ := hbefore i hi
    obtain ⟨ex, hex, hreply⟩ := h.answered i m hm
    refine ⟨ex, hex, ?_⟩
    have hsent := h.handled i ex hex
    rcases hc.turns i a ha with ⟨m', hm', hreq, hwrite, hread⟩ | ⟨hnone, -⟩
    · rw [hm] at hread
      cases hsent.symm.trans hm'
      exact ⟨hreq, hwrite, (Option.some.inj hread).symm.trans (by rw [hreply])⟩
    · rw [hsent] at hnone
      cases hnone
  · rcases hc.turns i a ha with ⟨m', -, -, -, hread⟩ | ⟨-, he⟩
    · cases hr : a.turn.read with
      | error e => exact ⟨e, rfl⟩
      | ok m => exact absurd (hread.trans (by rw [hr])) (hafter i hi m)
    · exact he

theorem Link.Sound.linked {l : Link S} (h : l.Sound Y v) {log : List Ask} (hc : l.Carries log) :
    Linked log l.server.session.exchanges := by
  rcases h with h | ⟨k, -, h⟩
  · obtain ⟨hsent, -, hexs⟩ := h.quiet
    refine ⟨fun i ex hi => ?_, 0, fun i hi => absurd hi (Nat.not_lt_zero i), fun i _ a ha => ?_⟩
    · simp [hexs] at hi
    · rcases hc.turns i a ha with ⟨m, hm, -⟩ | ⟨-, he⟩
      · simp [hsent] at hm
      · exact he
  · exact h.linked hc

/-- In any run of the server with any number of clients, over connections whose reads each take all
that is there: a client whose session is set up has the key of the session at the server and the
version that the server has decided on. Its session has handled its requests in order, the answers it
has read are the replies to them, and after a failed read there are no others. -/
theorem communicate_linked (hY : Y.Lawful) {regID : NodeID} {evs : List (Parties.Event Unit Move)}
    {s : Parties.State Service (Link S)} (h : communicate D Y v regID evs = .ok s)
    (hw : Run.Along (links D Y v).next (Parties.On fun _ l a => a.Whole l)
      ⟨⟨World.init regID, []⟩, []⟩ evs) {l : Link S} (hl : l ∈ s.parties) :
    (∀ k u, l.setup = .done k u → u = v ∧ ∃ t, l.server.cnx.aesSession = some t ∧ Y.key t = Y.key k) ∧
      ∀ log, l.Carries log → Linked log l.server.session.exchanges := by
  have hsound := communicate_sound hY h hw hl
  refine ⟨fun k u hk => ?_, fun log hc => hsound.linked hc⟩
  rcases hsound with hg | ⟨k', hk', hs⟩
  · exact absurd hk (hg.opening k u)
  · cases hk.symm.trans hk'
    exact ⟨rfl, hs.key⟩

namespace Sample

/-- Nothing is encrypted. The hello has the version and the key, and the session's key is a longer one. -/
def clear : Cipher Bytes where
  codec := .plain
  key s := s
  encrypt _ _ plaintext := .ok plaintext
  decrypt _ ciphertext := .ok (ciphertext.getD [])
  clientEncryptHello v random := .ok (random, Proto.encodeVarint v.toNat ++ random)
  clientDecryptHelloReply _ b :=
    (Proto.decodeVarint b).elim (.error EOF) fun r => .ok (r.2, UInt32.ofNat r.1)
  serverDecryptHello b :=
    (Proto.decodeVarint (b.getD [])).elim (.error EOF) fun r => .ok (r.2, UInt32.ofNat r.1)
  serverEncryptHelloReply s v := .ok (0 :: s, Proto.encodeVarint v.toNat ++ 0 :: s)

/-- A hello on a new link `k`, read and answered. -/
def greets (k : ℕ) : List (Parties.Event Unit Move) :=
  [.enter (), .act k (.client (.hello 1 [7] none)), .act k (.serve (.bytes 2) none [] []),
   .act k (.client (.helloReply (.bytes 3)))]

/-- A request of `n` bytes on link `k`, and a reply of `r` bytes. -/
def asks (k n r : ℕ) (m : XLRegMsg) (draws : List NodeID) : List (Parties.Event Unit Move) :=
  [.act k (.client (.request m [] none)), .act k (.serve (.bytes n) none draws []),
   .act k (.client (.answer (.bytes r)))]

/-- The run of `visit`, over links. -/
def visitOver : List (Parties.Event Unit Move) :=
  greets 0 ++ asks 0 37 38 (member "bob" none 2) [.rep 2] ++ asks 0 10 44 (create "c" 2) [.rep 5] ++
    asks 0 5 44 (joinByName "c") [] ++
  greets 1 ++ asks 1 69 38 ((memberRequest .plain .plain (madeMember (some (.rep 5)) 2)).getD {}) [] ++
    asks 1 36 44 (joinRequest (.rep 5)) [] ++ asks 1 39 169 (get (.rep 5) 3) [] ++
    asks 1 2 2 byeRequest []

end Sample

theorem clear_lawful : Sample.clear.Lawful := by
  have hvarint : ∀ (v : UInt32) rest, Proto.decodeVarint (Proto.encodeVarint v.toNat ++ rest) =
      some (v.toNat, rest) := fun v rest =>
    Proto.decodeVarint_encode (v.toNat_lt.trans (by norm_num)) rest
  refine ⟨plain_codec_lawful, fun s t iv p b _ h => ?_, fun v random s b h => ?_,
    fun s t v s' b hkey h => ?_⟩
  · cases h
    rfl
  · cases h
    refine ⟨random, ?_, rfl⟩
    simp [Sample.clear, hvarint]
  · cases h
    refine ⟨0 :: s, ?_, rfl⟩
    simp [Sample.clear, hvarint]

namespace Sample

/-- The link of the client that visits has carried its requests and the answers to them. -/
def visited (s : Parties.State Service (Link Bytes)) : Bool :=
  s.parties[1]?.any fun l => decide (visitor.1.log.map Ask.request = l.sent.map some ∧
    visitor.1.log.map (·.turn.read) = l.got ∧ ∀ a ∈ visitor.1.log, a.turn.write = none)

end Sample

theorem visitOver_whole : Run.Along (links .plain Sample.clear 5).next (Parties.On fun _ l a => a.Whole l)
    ⟨⟨World.init (.rep 9), []⟩, []⟩ Sample.visitOver := by
  decide +kernel

theorem visitOver_carries : ∃ s l, communicate .plain Sample.clear 5 (.rep 9) Sample.visitOver = .ok s ∧
    s.parties[1]? = some l ∧ l.Carries Sample.visitor.1.log := by
  obtain ⟨s, hrun, hs⟩ := Run.exists_of_ends (links .plain Sample.clear 5).next
    ⟨⟨World.init (.rep 9), []⟩, []⟩ Sample.visitOver Sample.visited (by decide +kernel)
  obtain ⟨l, hl, hcarried⟩ := (Option.any_eq_true _ _).1 hs
  obtain ⟨hsent, hgot, hwrite⟩ := of_decide_eq_true hcarried
  exact ⟨s, l, hrun, hl, .of_complete hsent hgot hwrite⟩

theorem communicate_linked_sample :
    ∃ s l, communicate .plain Sample.clear 5 (.rep 9) Sample.visitOver = .ok s ∧ s.parties[1]? = some l ∧
      Linked Sample.visitor.1.log l.server.session.exchanges := by
  obtain ⟨s, l, hrun, hl, hcarries⟩ := visitOver_carries
  exact ⟨s, l, hrun, hl,
    (communicate_linked clear_lawful hrun visitOver_whole (List.mem_of_getElem? hl)).2 _ hcarries⟩

/-- A UserMember whose `Start` reports no error, over a connection whose reads each take all that is
there and with any other clients on theirs, is in the cluster whose ID it was made with. It knows the
cluster's size and end point count, and has in each filled slot of its table the member with that place
in the registry's list. -/
theorem user_over_link_knows (hY : Y.Lawful) {regID : NodeID} {evs : List (Parties.Event Unit Move)}
    {s : Parties.State Service (Link S)} (h : communicate D Y v regID evs = .ok s)
    (hw : Run.Along (links D Y v).next (Parties.On fun _ l a => a.Whole l)
      ⟨⟨World.init regID, []⟩, []⟩ evs) {l : Link S} (hl : l ∈ s.parties) {K : ClientDeps}
    {env : Surroundings} {cm : ClusterMember} {cl : Client}
    (hnew : cm.members = List.replicate cm.clusterMaxSize.toNat none)
    (hstart : ClientKind.start D K env .userMember cm = (cl, .ok none)) (hc : l.Carries cl.log) :
    ∃ p ∈ s.shared.world.reg.clusters, ∃ rc, s.shared.world.heap[p]? = some rc ∧ cm.Joined rc cl.cm ∧
      ∀ (i : ℕ) mi, cl.cm.members[i]? = some (some mi) → Describes D rc i mi := by
  obtain ⟨evs', hserve⟩ := communicate_serves h
  have hmem : l.server.session ∈ (s.map (·.server.session)).parties := List.mem_map_of_mem hl
  have hlinked := (communicate_sound hY h hw hl).linked hc
  obtain ⟨a₀, a₁, asks, id, m, hrun⟩ := userMember_run hnew hstart
  obtain ⟨p, hp, rc, hrc, hjoined⟩ := user_joined hserve hmem hstart hlinked hrun
  exact ⟨p, hp, rc, hrc, hjoined, user_slots hserve hmem hstart hlinked hrun hrc hjoined.clusterID⟩

theorem user_over_link_knows_sample :
    ∃ (s : Parties.State Service (Link Bytes)) (p : Ptr) (rc : RegCluster),
      communicate .plain Sample.clear 5 (.rep 9) Sample.visitOver = .ok s ∧ s.shared.world.heap[p]? = some rc ∧
      (Sample.madeMember (some (.rep 5)) 2).Joined rc Sample.visitor.1.cm := by
  obtain ⟨s, l, hrun, hl, hcarries⟩ := visitOver_carries
  have hstart : Sample.visitor = (_, .ok none) := rfl
  obtain ⟨p, -, rc, hrc, hjoined, -⟩ := user_over_link_knows clear_lawful hrun visitOver_whole
    (List.mem_of_getElem? hl) rfl hstart hcarries
  exact ⟨s, p, rc, hrun, hrc, hjoined⟩

end XlReg
