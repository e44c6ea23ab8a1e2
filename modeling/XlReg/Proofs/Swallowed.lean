import XlReg.Sanity.Exchanges
import XlReg.Spec.Cnx
import XlReg.Spec.Makers

/-! Failures that a caller does not hear of. The constructors return nil and nil, and the hello of a
connection counts as done, when the error went to a variable of an inner scope. -/

namespace XlReg

section Constructors

variable {D : Deps} {K : ClientDeps} {N : NodeDeps}

/-- The token is nil, or its ID is refused, or a client can be made from it. -/
def MakesClient (D : Deps) (addr : ℕ) (draw : Except Err NodeID) (token : Option Token) : Prop :=
  ∀ t, token = some t → ∀ nodeID, xiNewOf D draw t.id = .ok nodeID →
    ∃ ck sk ci, D.rsaPubKeyFromWire t.commsKey = .ok ck ∧ D.rsaPubKeyFromWire t.sigKey = .ok sk ∧
      newClientInfo D addr t.getName nodeID ck sk t.getAttrs t.myEnds = .ok ci

theorem newClientInfoFromToken_told (D : Deps) (addr : ℕ) (draw : Except Err NodeID)
    (token : Option Token) :
    newClientInfoFromToken D addr draw token ≠ (none, none) ↔ MakesClient D addr draw token := by
  unfold newClientInfoFromToken MakesClient
  cases token with
  | none => simp
  | some t =>
    cases hid : xiNewOf D draw t.id with
    | error e => simp [hid]
    | ok nodeID =>
      cases hck : D.rsaPubKeyFromWire t.commsKey with
      | error e => simp [hid, hck]
      | ok ck =>
        cases hsk : D.rsaPubKeyFromWire t.sigKey with
        | error e => simp [hid, hck, hsk]
        | ok sk =>
          cases hci : newClientInfo D addr t.getName nodeID ck sk t.getAttrs t.myEnds with
          | error e => simp [hid, hck, hsk, hci]
          | ok ci => simp [hid, hck, hsk, hci]

/-- The node is made, and `NewMemberMaker` reports no error. -/
def NoError (node : Except Err Node) (make : Option Node → Except Abort (Except Err ClusterMember)) : Prop :=
  ∃ n, node = .ok n ∧ ∀ e, make (some n) ≠ .ok (.error e)

theorem madeInside_told (node : Except Err Node)
    (make : Option Node → Except Abort (Except Err ClusterMember)) :
    madeInside node make ≠ .ok (none, none) ↔ NoError node make := by
  unfold madeInside NoError
  cases node with
  | error e => simp
  | ok n =>
    rcases hm : make (some n) with a | e | mn
    · simp [hm]
    · simp [hm]
    · simp [hm]

theorem newSoloMember_told (node : Option Node) (serverName : String) (serverID : Option NodeID)
    (serverEnd : Option EndPoint) (serverCK serverSK : Option RSAPublicKey) (e : List EndPoint) :
    newSoloMember D K node serverName serverID serverEnd serverCK serverSK e ≠ .ok (none, none) := by
  unfold newSoloMember
  split <;> simp

end Constructors

/-! The hello of a connection. -/

section Hello

variable {D : Deps} {S : Type} {C : Crypto S} {v : UInt32}

/-- If there is a hello that can be decrypted, a reply to it can be made and written. -/
def Answerable (C : Crypto S) (v : UInt32) (x : Arrival) : Prop :=
  (readData x.received).2 = none →
    ∀ sOneShot version, C.serverDecryptHello (readData x.received).1 = .ok (sOneShot, version) →
      x.write = none ∧ ∃ r, C.serverEncryptHelloReply sOneShot v = .ok r

structure CnxHandler.Greeted (cnx : CnxHandler S) : Prop where
  session : cnx.aesSession ≠ none
  reply : cnx.helloReply ≠ none

/-- A hello fails and is reported to have failed, or it is done, or it fails and is reported done. -/
theorem handleHello_cases (C : Crypto S) (v : UInt32) (cnx : CnxHandler S) (x : Arrival) :
    (Answerable C v x ∧ ∃ cnx' e, handleHello C v cnx x = (cnx', some e)) ∨
    (Answerable C v x ∧ ∃ cnx', handleHello C v cnx x = (cnx', none) ∧ cnx'.Greeted) ∨
    (¬ Answerable C v x ∧ ∃ cnx', handleHello C v cnx x = (cnx', none) ∧
      cnx'.helloReply = cnx.helloReply) := by
  unfold handleHello Answerable
  rcases hr : readData x.received with ⟨ciphertext, - | e⟩
  · rcases hd : C.serverDecryptHello ciphertext with e | ⟨sOneShot, version⟩
    · exact .inl ⟨by simp, _, _, by simp only [hd]; rfl⟩
    · rcases he : C.serverEncryptHelloReply sOneShot v with e | ⟨sSession, reply⟩
      · exact .inr (.inr ⟨by simp [he], cnx, by simp only [hd, he], rfl⟩)
      · rcases hw : x.write with - | e
        · refine .inr (.inl ⟨by simp [he], _, by simp only [hd, he]; rfl, ?_⟩)
          exact ⟨Option.some_ne_none _, Option.some_ne_none _⟩
        · exact .inr (.inr ⟨by simp, { cnx with aesSession := some sSession }, by simp only [hd, he], rfl⟩)
  · exact .inl ⟨by simp, _, e, rfl⟩

theorem Connection.step_ok {s s' : Service} {c c' : Connection S} {x : Arrival}
    (h : c.step D C v s x = .ok (s', c')) :
    (c.pc = .hello ∧ s' = s ∧ ∃ cnx,
      (∃ e, handleHello C v c.cnx x = (cnx, some e) ∧ c' = Connection.leave { c with cnx }) ∨
      (handleHello C v c.cnx x = (cnx, none) ∧ c' = { c with cnx, pc := .loop })) ∨
    (c.pc = .loop ∧ s' = s ∧ c' = c.leave) ∨
    (c.pc = .loop ∧ ∃ msg session, sessionStep D s c.session ⟨msg, x.draws⟩ = .ok (s', session) ∧
      (c' = { c with session } ∨ c' = Connection.leave { c with session })) ∨
    (c.pc = .returned ∧ s' = s ∧ c' = c) := by
  unfold Connection.step at h
  cases hpc : c.pc with
  | hello =>
    refine .inl ⟨rfl, ?_⟩
    rcases hh : handleHello C v c.cnx x with ⟨cnx, - | e⟩
    · simp only [hpc, hh] at h
      cases h
      exact ⟨rfl, cnx, .inr ⟨rfl, rfl⟩⟩
    · simp only [hpc, hh] at h
      cases h
      exact ⟨rfl, cnx, .inl ⟨e, rfl, rfl⟩⟩
  | loop =>
    rcases hr : readData x.received with ⟨ciphertext, - | e⟩
    · rcases hd : C.decryptUnpadDecode c.cnx.aesSession ciphertext with e | msg
      · simp only [hpc, hr, hd] at h
        cases h
        exact .inr (.inl ⟨rfl, rfl, rfl⟩)
      · rcases hs : sessionStep D s c.session ⟨msg, x.draws⟩ with a | ⟨s1, session⟩
        · simp only [hpc, hr, hd, hs] at h
          cases h
        · simp only [hpc, hr, hd, hs] at h
          cases h
          refine .inr (.inr (.inl ⟨rfl, msg, session, hs, ?_⟩))
          split_ifs
          · exact .inr rfl
          · exact .inl rfl
    · simp only [hpc, hr] at h
      cases h
      exact .inr (.inl ⟨rfl, rfl, rfl⟩)
  | returned =>
    simp only [hpc] at h
    cases h
    exact .inr (.inr (.inr ⟨rfl, rfl, rfl⟩))

/-- The sessions on the connections are those of the server that takes decoded messages. -/
theorem accept_serves {regID : NodeID} {evs : List (Parties.Event Unit Arrival)}
    {s : Parties.State Service (Connection S)} (h : accept D C v regID evs = .ok s) :
    ∃ evs', serve D regID evs' = .ok (s.map (·.session)) := by
  change ∃ evs', Run.run (server D).next
    (Parties.State.map (fun c : Connection S => c.session) ⟨⟨World.init regID, []⟩, []⟩) evs' = _
  refine Parties.run_projects (g := id) (fun _ => rfl) ?_ h
  intro s c x s' c' hstep
  rcases Connection.step_ok hstep with ⟨-, rfl, cnx, ⟨e, -, rfl⟩ | ⟨-, rfl⟩⟩ | ⟨-, rfl, rfl⟩ |
    ⟨-, msg, session, hs, rfl | rfl⟩ | ⟨-, rfl, rfl⟩
  · exact .inl ⟨rfl, rfl⟩
  · exact .inl ⟨rfl, rfl⟩
  · exact .inl ⟨rfl, rfl⟩
  · exact .inr ⟨_, hs⟩
  · exact .inr ⟨_, hs⟩
  · exact .inl ⟨rfl, rfl⟩

/-- Client messages are, or have been, taken on the connection. -/
def Connection.Takes (c : Connection S) : Prop := c.pc = .loop ∨ c.session.exchanges ≠ []

/-- Before its hello a connection is as new, and one on which client messages are taken has been
greeted. -/
structure Connection.Sound (c : Connection S) : Prop where
  fresh : c.pc = .hello → c.cnx.helloReply = none ∧ c.session.exchanges = []
  greeted : c.Takes → c.cnx.Greeted

theorem Connection.Sound.leave {c : Connection S} (h : c.session.exchanges ≠ [] → c.cnx.Greeted) :
    c.leave.Sound where
  fresh hpc := by cases hpc
  greeted
    | .inl hpc => by cases hpc
    | .inr hne => ⟨(h hne).session, (h hne).reply⟩

theorem connections_contract (D : Deps) (C : Crypto S) (v : UInt32) :
    Parties.Contract (connections D C v) (fun _ c x => c.pc = .hello → Answerable C v x)
      (fun _ => True) (fun _ _ => True) (fun _ c => c.Sound) where
  start _ _ _ := by
    refine ⟨fun _ => ⟨rfl, rfl⟩, ?_⟩
    rintro (h | h)
    · cases h
    · exact absurd rfl h
  step s c x s' c' _ hJ hC hr := by
    refine ⟨trivial, trivial, ?_⟩
    rcases Connection.step_ok hr with ⟨hpc, -, cnx, hh⟩ | ⟨hpc, -, rfl⟩ |
      ⟨hpc, msg, session, -, rfl | rfl⟩ | ⟨-, -, rfl⟩
    · have hnone := (hJ.fresh hpc).2
      rcases hh with ⟨e, -, rfl⟩ | ⟨hh, rfl⟩
      · exact .leave fun hne => absurd hnone hne
      · refine ⟨fun h => (by cases h), fun _ => ?_⟩
        rcases handleHello_cases C v c.cnx x with ⟨-, cnx', e, he⟩ | ⟨-, cnx', he, hg⟩ | ⟨hno, -⟩
        · rw [hh] at he
          cases he
        · rw [hh] at he
          cases he
          exact hg
        · exact absurd (hC hpc) hno
    · exact .leave fun _ => hJ.greeted (.inl hpc)
    · refine ⟨fun h => ?_, fun _ => hJ.greeted (.inl hpc)⟩
      rw [hpc] at h
      cases h
    · exact .leave fun _ => hJ.greeted (.inl hpc)
    · exact hJ
  stable _ _ _ _ hJ _ := hJ

/-- Throughout a run, client messages are taken only on connections that have been greeted, exactly if
every hello in it can be answered. -/
theorem accept_greeted_iff (D : Deps) (C : Crypto S) (v : UInt32) (s : Service)
    (evs : List (Parties.Event Unit Arrival)) :
    Run.Always (connections D C v).next (fun s => ∀ c ∈ s.parties, c.Takes → c.cnx.Greeted) ⟨s, []⟩ evs ↔
      Run.Along (connections D C v).next
        (Parties.On fun _ c x => c.pc = .hello → Answerable C v x) ⟨s, []⟩ evs := by
  refine (connections_contract D C v).always_all_iff_along (fun _ _ hJ => hJ.greeted) ?_
    ⟨trivial, fun _ hc => by cases hc⟩
  intro s c x _ hJ hno
  obtain ⟨hpc, hno⟩ := Classical.not_imp.1 hno
  rcases handleHello_cases C v c.cnx x with ⟨hC, -⟩ | ⟨hC, -⟩ | ⟨-, cnx', hh, hreply⟩
  · exact absurd hC hno
  · exact absurd hC hno
  · refine ⟨s, { c with cnx := cnx', pc := .loop }, ?_, fun hQ => ?_⟩
    · change Connection.step D C v s c x = _
      simp only [Connection.step, hpc, hh]
    · exact (hQ (.inl rfl)).reply (hreply.trans (hJ.fresh hpc).1)

end Hello

/-- Each constructor avoids returning nil and nil exactly if nothing fails that it calls in an inner
scope. Throughout a run, client messages are taken only on connections that have been greeted, exactly
if every hello in it can be answered. -/
theorem failures_told_iff (D : Deps) (K : ClientDeps) (N : NodeDeps) (addr : ℕ)
    (draw : Except Err NodeID) (token : Option Token) (name lfs : String)
    (ckPriv skPriv : Option RSAPrivateKey) (attrs : UInt64) (serverName : String)
    (serverID : Option NodeID) (serverEnd : Option EndPoint) (serverCK serverSK : Option RSAPublicKey)
    (clusterName : String) (clusterAttrs : UInt64) (clusterID : Option NodeID) (size epCount : UInt32)
    (e : List EndPoint) {S : Type} (C : Crypto S) (v : UInt32) (s : Service)
    (evs : List (Parties.Event Unit Arrival)) :
    (newClientInfoFromToken D addr draw token ≠ (none, none) ↔ MakesClient D addr draw token) ∧
    (newUserMember D K N draw name lfs ckPriv skPriv serverName serverID serverEnd serverCK serverSK
        clusterName clusterAttrs clusterID size epCount e ≠ .ok (none, none) ↔
      ∀ nodeID, draw = .ok nodeID → NoError (N.newNode name nodeID lfs ckPriv skPriv) fun node =>
        newMemberMaker D K node (if lfs = "" then N.attrEphemeral else 0) serverName serverID serverEnd
          serverCK serverSK clusterName clusterAttrs clusterID size epCount e) ∧
    (newAdminClient D K N draw serverName serverID serverEnd serverCK serverSK clusterName clusterAttrs
        size epCount e ≠ .ok (none, none) ↔
      ∀ nodeID, draw = .ok nodeID → NoError (N.newNewNode "admin" nodeID "") fun node =>
        newMemberMaker D K node (K.attrAdmin ||| K.attrSolo ||| N.attrEphemeral) serverName serverID
          serverEnd serverCK serverSK clusterName clusterAttrs none size epCount e) ∧
    (newBootstrapper D K N draw name lfs attrs serverName serverID serverEnd serverCK serverSK
        clusterName clusterAttrs clusterID size epCount e ≠ .ok (none, none) ↔
      ∀ nodeID, draw = .ok nodeID → NoError (N.newNewNode name nodeID lfs) fun node =>
        newMemberMaker D K node (if lfs = "" then attrs ||| N.attrEphemeral else attrs) serverName
          serverID serverEnd serverCK serverSK clusterName clusterAttrs clusterID size epCount e) ∧
    (Run.Always (connections D C v).next (fun s => ∀ c ∈ s.parties, c.Takes → c.cnx.Greeted) ⟨s, []⟩ evs ↔
      Run.Along (connections D C v).next
        (Parties.On fun _ c x => c.pc = .hello → Answerable C v x) ⟨s, []⟩ evs) := by
  refine ⟨newClientInfoFromToken_told D addr draw token, ?_, ?_, ?_, accept_greeted_iff D C v s evs⟩
  · cases draw with
    | error err => simp [newUserMember]
    | ok nodeID => simp only [newUserMember, madeInside_told, Except.ok.injEq, forall_eq']
  · cases draw with
    | error err => simp [newAdminClient]
    | ok nodeID => simp only [newAdminClient, madeInside_told, Except.ok.injEq, forall_eq']
  · cases draw with
    | error err => simp [newBootstrapper]
    | ok nodeID => simp only [newBootstrapper, madeInside_told, Except.ok.injEq, forall_eq']

namespace Sample

/-- Nodes are always made. -/
def nodeDeps : NodeDeps where
  attrEphemeral := 1
  newNode name nodeID _ _ _ := .ok { clientNode with name, nodeID }
  newNewNode name nodeID _ := .ok { clientNode with name, nodeID }

/-- A toy cryptography, in which every text is a Member message. -/
def crypto : Crypto Unit where
  serverDecryptHello
    | some _ => .ok ((), 1)
    | none => .error (.other "no hello")
  serverEncryptHelloReply _ _ := .ok ((), [1])
  decryptUnpadDecode _ _ := .ok (member "alice" none 2)

def oneByte : Received := { data := [0], fits := by decide }

end Sample

/-- Keys that do not decode, a missing name of the cluster or of the server: nil and nil. A hello whose
reply could not be written: the next message on the connection is handled. -/
theorem failures_swallowed :
    newClientInfoFromToken .plain 0 (.ok (.rep 1)) (some {}) = (none, none) ∧
    newUserMember .plain .plain Sample.nodeDeps (.ok (.rep 1)) "n" "" none none "r" (some (.rep 9))
      (some ⟨"127.0.0.1:8080"⟩) (some ⟨1, 3⟩) (some ⟨2, 3⟩) "" 0 none 2 1 [⟨"127.0.0.1:80"⟩] =
        .ok (none, none) ∧
    newAdminClient .plain .plain Sample.nodeDeps (.ok (.rep 1)) "" (some (.rep 9))
      (some ⟨"127.0.0.1:8080"⟩) (some ⟨1, 3⟩) (some ⟨2, 3⟩) "c" 0 2 1 [] = .ok (none, none) ∧
    newBootstrapper .plain .plain Sample.nodeDeps (.ok (.rep 1)) "n" "" 0 "" (some (.rep 9))
      (some ⟨"127.0.0.1:8080"⟩) (some ⟨1, 3⟩) (some ⟨2, 3⟩) "c" 0 none 2 1 [⟨"127.0.0.1:80"⟩] =
        .ok (none, none) ∧
    ∃ s c, accept .plain Sample.crypto 1 (.rep 9)
        [.enter (), .act 0 { received := Sample.oneByte, write := some EOF },
         .act 0 { received := Sample.oneByte, draws := [.rep 1] }] = .ok s ∧
      s.parties[0]? = some c ∧ c.session.exchanges.length = 1 ∧ c.cnx.helloReply = none ∧
      ¬ ∀ c ∈ s.parties, c.Takes → c.cnx.Greeted := by
  refine ⟨rfl, rfl, rfl, rfl, _, _, rfl, rfl, rfl, rfl, ?_⟩
  intro h
  exact (h _ List.mem_cons_self (.inl rfl)).reply rfl

end XlReg
