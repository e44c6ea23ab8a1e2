import XlReg.Lib.Refine
import XlReg.Proofs.Swallowed
import XlReg.Sanity.Rounds
import XlReg.Spec.Link

/-! A connection with its client, down to the bytes between them. Nothing on the wire tells where a
message ends. But a client waits for the answer before it writes again, so there is at most one message
under way on a link. `Sound` is what each move on the link keeps, if each read takes all that is there. -/

namespace XlReg

variable {S : Type} {D : Deps} {Y : Cipher S} {v : UInt32}

def ReadOf.Whole (pending : Bytes) : ReadOf → Prop
  | .bytes n => n = pending.length
  | .eof => True
  | .fails _ => True

def ClientMove.Whole (l : Link S) : ClientMove → Prop
  | .helloReply r => r.Whole l.toClient
  | .answer r => r.Whole l.toClient
  | .hello _ _ _ => True
  | .request _ _ _ => True
  | .hangUp => True

def Move.Whole (l : Link S) : Move → Prop
  | .client a => a.Whole l
  | .serve r _ _ _ => r.Whole l.toServer

instance (pending : Bytes) (r : ReadOf) : Decidable (r.Whole pending) := by
  cases r <;> unfold ReadOf.Whole <;> infer_instance

instance (l : Link S) (a : ClientMove) : Decidable (a.Whole l) := by
  cases a <;> unfold ClientMove.Whole <;> infer_instance

instance (l : Link S) (a : Move) : Decidable (a.Whole l) := by
  cases a <;> unfold Move.Whole <;> infer_instance

theorem ReadOf.received_whole {r : ReadOf} {pending : Bytes} {closed : Bool} {x : Received}
    (hw : r.Whole pending) (h : r.received pending closed = some x) :
    (pending ≠ [] ∧ readData x = (some pending, none) ∧ r.rest pending = []) ∨
    ∃ e, readData x = (none, some e) ∧ r.rest pending = pending ∧
      (e = EOF → closed = true ∧ pending = []) := by
  cases r with
  | bytes n =>
    obtain rfl : n = pending.length := hw
    simp only [received] at h
    split_ifs at h with hn
    cases h
    refine .inl ⟨List.length_pos_iff.1 hn.1, ?_, List.drop_length⟩
    simp [readData, List.length_pos_iff.1 hn.1]
  | eof =>
    simp only [received] at h
    split_ifs at h with hc
    cases h
    exact .inr ⟨EOF, by simp [readData], rfl, fun _ => hc⟩
  | fails e =>
    simp only [received] at h
    split_ifs at h with he
    cases h
    exact .inr ⟨e, by simp [readData], rfl, fun h => absurd h he⟩

/-! The server's end. -/

section Server

variable {C : Crypto S} {s s' : Service} {c c' : Connection S} {x : Arrival}

theorem Connection.step_unread {e : Err} (hx : readData x.received = (none, some e))
    (h : c.step D C v s x = .ok (s', c')) :
    c'.pc = .returned ∧ c'.session = c.session ∧ c'.cnx.aesSession = c.cnx.aesSession ∧
      c'.cnx.helloReply = c.cnx.helloReply := by
  unfold Connection.step at h
  cases hpc : c.pc with
  | hello =>
    simp only [hpc, handleHello, hx] at h
    cases h
    exact ⟨rfl, rfl, rfl, rfl⟩
  | loop =>
    simp only [hpc, hx] at h
    cases h
    exact ⟨rfl, rfl, rfl, rfl⟩
  | returned =>
    simp only [hpc] at h
    cases h
    exact ⟨hpc, rfl, rfl, rfl⟩

theorem Connection.step_hello (hpc : c.pc = .hello) (h : c.step D C v s x = .ok (s', c')) :
    c'.session = c.session ∧
      (c'.pc = .returned ∨ c'.pc = .loop ∧ handleHello C v c.cnx x = (c'.cnx, none)) := by
  rcases Connection.step_ok h with ⟨-, -, cnx, ⟨e, -, rfl⟩ | ⟨hh, rfl⟩⟩ | ⟨hl, -⟩ | ⟨hl, -⟩ | ⟨hl, -⟩
  · exact ⟨rfl, .inl rfl⟩
  · exact ⟨rfl, .inr ⟨rfl, hh⟩⟩
  all_goals
    rw [hpc] at hl
    cases hl

theorem Connection.step_greets {cnx : CnxHandler S} (hpc : c.pc = .hello)
    (hh : handleHello C v c.cnx x = (cnx, none)) (h : c.step D C v s x = .ok (s', c')) :
    c' = { c with cnx, pc := .loop } := by
  simp only [Connection.step, hpc, hh] at h
  cases h
  rfl

theorem Connection.step_returned (hpc : c.pc = .returned) (h : c.step D C v s x = .ok (s', c')) :
    c' = c := by
  simp only [Connection.step, hpc] at h
  cases h
  rfl

/-- A hello that can be decrypted is answered, or nothing is written. -/
theorem handleHello_decrypted (cnx : CnxHandler S) {b : Bytes} {t : S} {u : UInt32}
    (hx : readData x.received = (some b, none)) (hd : C.serverDecryptHello (some b) = .ok (t, u)) :
    ∃ cnx', handleHello C v cnx x = (cnx', none) ∧ (cnx'.helloReply = cnx.helloReply ∨
      ∃ t' out, C.serverEncryptHelloReply t v = .ok (t', out) ∧ cnx'.aesSession = some t' ∧
        cnx'.helloReply = some out) := by
  unfold handleHello
  simp only [hx, hd]
  rcases he : C.serverEncryptHelloReply t v with e | ⟨t', out⟩
  · exact ⟨cnx, rfl, .inl rfl⟩
  · rcases x.write with - | e
    · exact ⟨_, rfl, .inr ⟨t', out, rfl, rfl, rfl⟩⟩
    · exact ⟨_, rfl, .inl rfl⟩

theorem handleHello_closed {cnx cnx' : CnxHandler S} (h : handleHello C v cnx x = (cnx', none)) :
    cnx'.closed = cnx.closed := by
  unfold handleHello at h
  rcases hr : readData x.received with ⟨b, - | e⟩
  · rcases hd : C.serverDecryptHello b with e | ⟨t, u⟩
    · simp only [hr, hd] at h
      cases h
    · rcases he : C.serverEncryptHelloReply t v with e | ⟨t', out⟩
      · simp only [hr, hd, he] at h
        cases h
        rfl
      · rcases hw : x.write with - | e <;> simp only [hr, hd, he, hw] at h <;> cases h <;> rfl
  · simp only [hr] at h
    cases h

theorem Connection.step_decoded {b : Bytes} {m : XLRegMsg} (hpc : c.pc = .loop)
    (hx : readData x.received = (some b, none))
    (hd : C.decryptUnpadDecode c.cnx.aesSession (some b) = .ok m)
    (h : c.step D C v s x = .ok (s', c')) :
    ∃ session, sessionStep D s c.session ⟨m, x.draws⟩ = .ok (s', session) ∧
      (c' = { c with session } ∨ c' = Connection.leave { c with session }) := by
  unfold Connection.step at h
  simp only [hpc, hx, hd] at h
  rcases hs : sessionStep D s c.session ⟨m, x.draws⟩ with a | ⟨s1, session⟩
  · simp only [hs] at h
    cases h
  · simp only [hs] at h
    cases h
    refine ⟨session, rfl, ?_⟩
    split_ifs
    · exact .inr rfl
    · exact .inl (by rw [hpc])

theorem sessionStep_exchange {a a' : Session} {m : XLRegMsg} {draws : List NodeID}
    (h : sessionStep D s a ⟨m, draws⟩ = .ok (s', a')) :
    a' = a ∨ ∃ ex, a'.exchanges = a.exchanges ++ [ex] ∧ ex.msg = m ∧ ex.reply = a'.h.msgOut := by
  rcases sessionStep_ok h with ⟨-, -, rfl⟩ | ⟨-, w, h', ex, hi, -, rfl⟩
  · exact .inl rfl
  · obtain ⟨f, h₁, -, -, rfl, rfl⟩ := startIter_ok hi
    exact .inr ⟨_, rfl, rfl, rfl⟩

end Server

/-- What is encrypted at one end of a session is what is decrypted at the other. -/
theorem Cipher.Lawful.conveys (hY : Y.Lawful) {s t : S} (hkey : Y.key s = Y.key t) {iv b : Bytes}
    {m : XLRegMsg} (h : Y.encodePadEncrypt (some s) iv m = .ok b) :
    Y.decryptUnpadDecode (some t) (some b) = .ok m := by
  obtain ⟨p, hp, hb⟩ := Run.bind_ok h
  have hdec := hY.decrypt s t iv p b hkey hb
  unfold Cipher.decryptUnpadDecode
  rw [hdec]
  exact hY.codec.unmarshal m p hp

theorem writeMsg_ok {k : Option S} {iv b : Bytes} {write : Option Err} {m : XLRegMsg}
    (h : writeMsg Y k iv write m = .ok b) : Y.encodePadEncrypt k iv m = .ok b := by
  unfold writeMsg at h
  rcases he : Y.encodePadEncrypt k iv m with e | data
  · simp only [he] at h
    cases h
  · cases write with
    | none => simpa only [he] using h
    | some e =>
      simp only [he] at h
      cases h

namespace Link

/-! Before the session is set up. -/

/-- The client has at most written its hello, and the server has at most answered it. -/
structure Greeting (Y : Cipher S) (v : UInt32) (l : Link S) : Prop where
  opening : ∀ k u, l.setup ≠ .done k u
  quiet : l.sent = [] ∧ l.got = [] ∧ l.server.session.exchanges = []
  closed : l.server.cnx.closed = true → l.server.pc = .returned
  start : l.setup = .start → l.toServer = [] ∧ l.toClient = [] ∧ l.server.pc ≠ .loop
  hello : l.server.pc = .hello → l.toClient = [] ∧ l.server.cnx.helloReply = none ∧
    ∀ k, l.setup = .helloSent k → ∃ u random, Y.clientEncryptHello u random = .ok (k, l.toServer)
  loop : l.server.pc = .loop → l.toServer = []
  reply : ∀ k, l.setup = .helloSent k → l.toClient = [] ∨ ∃ t k', l.server.cnx.aesSession = some t ∧
    Y.clientDecryptHelloReply k l.toClient = .ok (k', v) ∧ Y.key t = Y.key k'

/-! Once it is set up. -/

def Dead (l : Link S) : Prop :=
  l.got.length = l.sent.length ∧ ∃ e, e ≠ EOF ∧ l.got.getLast? = some (.error e)

/-- Both ends have the session's key `k`. What is on the way to the server is the last request, not
handled yet, and what is on the way back is the reply to it, not read yet. -/
structure Steady (Y : Cipher S) (l : Link S) (k : S) : Prop where
  key : ∃ t, l.server.cnx.aesSession = some t ∧ Y.key t = Y.key k
  greeted : l.server.pc ≠ .hello
  closed : l.server.cnx.closed = true → l.server.pc = .returned
  turns : l.got.length ≤ l.sent.length ∧ l.sent.length ≤ l.got.length + 1
  handled : ∀ (i : ℕ) ex, l.server.session.exchanges[i]? = some ex → l.sent[i]? = some ex.msg
  toServer : l.server.pc = .loop → l.toServer = [] ∨
    l.server.session.exchanges.length + 1 = l.sent.length ∧
      ∃ m iv, l.sent.getLast? = some m ∧ Y.encodePadEncrypt (some k) iv m = .ok l.toServer
  toClient : l.Dead ∨ l.toClient = [] ∨ ∃ ex m iv, l.server.session.exchanges[l.got.length]? = some ex ∧
    ex.reply = some m ∧ Y.encodePadEncrypt l.server.cnx.aesSession iv m = .ok l.toClient
  answered : ∀ (i : ℕ) m, l.got[i]? = some (.ok m) →
    ∃ ex, l.server.session.exchanges[i]? = some ex ∧ ex.reply = m
  ended : ∀ (i : ℕ) e, l.got[i]? = some (.error e) → (∀ (j : ℕ) m, i ≤ j → l.got[j]? ≠ some (.ok m)) ∧
    (l.Dead ∨ l.toClient = [] ∧ l.server.pc = .returned)

/-- The session is not set up, or it is, with the version that the server has decided on. -/
def Sound (Y : Cipher S) (v : UInt32) (l : Link S) : Prop :=
  l.Greeting Y v ∨ ∃ k, l.setup = .done k v ∧ l.Steady Y k

theorem sound_init : Sound Y v {} := by
  refine .inl ⟨fun _ _ h => (by cases h), ⟨rfl, rfl, rfl⟩, fun h => (by cases h), ?_, ?_, ?_, ?_⟩
  · exact fun _ => ⟨rfl, rfl, fun h => (by cases h)⟩
  · exact fun _ => ⟨rfl, rfl, fun _ h => (by cases h)⟩
  · exact fun h => (by cases h)
  · exact fun _ _ => .inl rfl

variable {l : Link S}

theorem Greeting.sends (h : l.Greeting Y v) (u : UInt32) (random : Bytes) (write : Option Err) :
    (l.client Y (.hello u random write)).Greeting Y v := by
  cases hs : l.setup with
  | start =>
    obtain ⟨hto, hfrom, hpc⟩ := h.start hs
    have hsend : (∃ e, sendHello Y u random write = (.failed e, [])) ∨
        ∃ k b, sendHello Y u random write = (.helloSent k, b) ∧
          Y.clientEncryptHello u random = .ok (k, b) := by
      unfold sendHello
      rcases he : Y.clientEncryptHello u random with e | ⟨k, b⟩
      · exact .inl ⟨e, rfl⟩
      · cases write with
        | none => exact .inr ⟨k, b, rfl, rfl⟩
        | some e => exact .inl ⟨e, rfl⟩
    rcases hsend with ⟨e, he⟩ | ⟨k, b, he, hk⟩
    · simp only [client, hs, he, hto]
      refine ⟨fun _ _ h => (by cases h), h.quiet, h.closed, fun h => (by cases h), fun hh => ?_,
        fun _ => rfl, fun _ h => (by cases h)⟩
      exact ⟨hfrom, (h.hello hh).2.1, fun _ h => (by cases h)⟩
    · simp only [client, hs, he, hto]
      refine ⟨fun _ _ h => (by cases h), h.quiet, h.closed, fun h => (by cases h), fun hh => ?_,
        fun hl => absurd hl hpc, fun _ _ => .inl hfrom⟩
      refine ⟨hfrom, (h.hello hh).2.1, fun k' hk' => ?_⟩
      cases hk'
      exact ⟨u, random, hk⟩
  | helloSent k => simpa only [client, hs] using h
  | done k u => exact absurd hs (h.opening k u)
  | failed e => simpa only [client, hs] using h

/-- The whole reply gives the client the session that the server has. -/
theorem Greeting.sets_up (h : l.Greeting Y v) {r : ReadOf} (hw : r.Whole l.toClient) :
    (l.client Y (.helloReply r)).Sound Y v := by
  cases hs : l.setup with
  | start => exact .inl (by simpa only [client, hs] using h)
  | done k u => exact absurd hs (h.opening k u)
  | failed e => exact .inl (by simpa only [client, hs] using h)
  | helloSent k =>
    rcases hx : r.received l.toClient l.server.cnx.closed with - | x
    · exact .inl (by simpa only [client, hs, hx] using h)
    · simp only [client, hs, hx]
      rcases ReadOf.received_whole hw hx with ⟨hne, hread, hrest⟩ | ⟨e, hread, hrest, -⟩
      · obtain ⟨t, k', ht, hdec, hkey⟩ := (h.reply k hs).resolve_left hne
        have hset : readHelloReply Y k x = .done k' v := by simp only [readHelloReply, hread, hdec]
        have hpc : l.server.pc ≠ .hello := fun hh => hne (h.hello hh).1
        obtain ⟨hsent, hgot, hexs⟩ := h.quiet
        refine .inr ⟨k', hset, ⟨t, ht, hkey⟩, hpc, h.closed, ?_, ?_, fun hl => .inl (h.loop hl),
          .inr (.inl hrest), ?_, ?_⟩
        · simp [hsent, hgot]
        · intro i ex hi
          simp [hexs] at hi
        · intro i m hi
          simp [hgot] at hi
        · intro i e hi
          simp [hgot] at hi
      · have hset : readHelloReply Y k x = .failed e := by simp only [readHelloReply, hread]
        rw [hset, hrest]
        refine .inl ⟨fun _ _ h => (by cases h), h.quiet, h.closed, fun h => (by cases h), fun hh => ?_,
          h.loop, fun _ h => (by cases h)⟩
        exact ⟨(h.hello hh).1, (h.hello hh).2.1, fun _ h => (by cases h)⟩

theorem Steady.behind {k : S} (h : l.Steady Y k) :
    l.server.session.exchanges.length ≤ l.sent.length := by
  by_contra hlt
  have hi := h.handled _ _ (List.getElem?_eq_getElem (Nat.lt_of_not_ge hlt))
  rw [List.getElem?_eq_none le_rfl] at hi
  cases hi

/-- A client that has got its answers and has not stopped has been answered by the server. -/
theorem Steady.caught_up {k : S} (h : l.Steady Y k) (hpc : l.server.pc = .loop)
    (hall : l.got.length = l.sent.length) :
    l.Dead ∨ l.server.session.exchanges.length = l.sent.length := by
  have hle := h.behind
  rcases Nat.eq_zero_or_pos l.got.length with hzero | hpos
  · exact .inr (by omega)
  · obtain ⟨a, hlast⟩ : ∃ a, l.got[l.got.length - 1]? = some a :=
      ⟨_, List.getElem?_eq_getElem (Nat.sub_lt hpos Nat.one_pos)⟩
    rcases a with e | m
    · refine (h.ended _ e hlast).2.imp id fun hret => ?_
      rw [hpc] at hret
      cases hret.2
    · obtain ⟨ex, hex, -⟩ := h.answered _ m hlast
      have hlt := (List.getElem?_eq_some_iff.1 hex).1
      exact .inr (by omega)

theorem Steady.waits {k : S} (h : l.Steady Y k) (hpc : l.server.pc = .loop)
    (hlen : l.server.session.exchanges.length + 1 = l.sent.length) :
    l.Dead ∨ l.toClient = [] ∧ l.got.length = l.server.session.exchanges.length := by
  have hturns := h.turns
  rcases h.toClient with hdead | hrest
  · exact .inl hdead
  -- an answer that is still to be read would be to a request that is not sent yet
  have hnil : l.toClient = [] := hrest.resolve_right fun ⟨ex, _, _, hex, _⟩ => by
    have hlt := (List.getElem?_eq_some_iff.1 hex).1
    omega
  rcases Nat.lt_or_ge l.got.length l.sent.length with hlt | hge
  · exact .inr ⟨hnil, by omega⟩
  · exact (h.caught_up hpc (by omega)).imp id fun heq => by omega

theorem replied_nil {write : Option Err} {iv : Bytes} {c c' : Connection S}
    (hpc : c.pc = .hello → c'.cnx.helloReply = none) (hexs : c'.session.exchanges = c.session.exchanges) :
    replied Y write iv c c' = [] := by
  unfold replied
  cases h : c.pc with
  | hello => simp [hpc h]
  | loop => simp [hexs]
  | returned => rfl

/-- After an exchange it is the reply, or nothing if there is none or it cannot be written. -/
theorem replied_exchange {write : Option Err} {iv : Bytes} {c c' : Connection S} {ex : Exchange}
    (hpc : c.pc = .loop) (hexs : c'.session.exchanges = c.session.exchanges ++ [ex])
    (hreply : ex.reply = c'.session.h.msgOut) :
    replied Y write iv c c' = [] ∨ ∃ m, ex.reply = some m ∧
      Y.encodePadEncrypt c'.cnx.aesSession iv m = .ok (replied Y write iv c c') := by
  simp only [replied, hpc, hexs, List.length_append, List.length_singleton, Nat.lt_add_one, if_true]
  rcases hout : c'.session.h.msgOut with - | m
  · exact .inl rfl
  · rcases henc : writeMsg Y c'.cnx.aesSession iv write m with e | b
    · exact .inl (by simp only [henc]; rfl)
    · refine .inr ⟨m, hreply.trans hout, ?_⟩
      simp only [henc]
      exact writeMsg_ok henc

section Serve

variable {s s' : Service} {r : ReadOf} {write : Option Err} {draws : List NodeID} {iv : Bytes}

theorem step_serve {l' : Link S} (h : l.step D Y v s (.serve r write draws iv) = .ok (s', l')) :
    s' = s ∧ l' = l ∨ ∃ x server, r.received l.toServer l.gone = some x ∧
      l.server.step D Y.crypto v s ⟨x, write, draws⟩ = .ok (s', server) ∧
      l' = { l with server, toServer := r.rest l.toServer,
                    toClient := l.toClient ++ replied Y write iv l.server server } := by
  simp only [step] at h
  rcases hx : r.received l.toServer l.gone with - | x
  · simp only [hx] at h
    cases h
    exact .inl ⟨rfl, rfl⟩
  · simp only [hx] at h
    rcases hst : l.server.step D Y.crypto v s ⟨x, write, draws⟩ with a | ⟨s1, server⟩
    · simp only [hst] at h
      cases h
    · simp only [hst] at h
      cases h
      exact .inr ⟨x, server, rfl, hst, rfl⟩

variable {x : Received} {server : Connection S} (hw : r.Whole l.toServer)
  (hx : r.received l.toServer l.gone = some x)
  (hst : l.server.step D Y.crypto v s ⟨x, write, draws⟩ = .ok (s', server))
include hw hx hst

theorem Greeting.serves (hY : Y.Lawful) (h : l.Greeting Y v) :
    Greeting Y v { l with server, toServer := r.rest l.toServer,
                          toClient := l.toClient ++ replied Y write iv l.server server } := by
  rcases ReadOf.received_whole hw hx with ⟨hne, hread, hrest⟩ | ⟨e, hread, hrest, -⟩
  · rw [hrest]
    cases hpc : l.server.pc with
    | loop => exact absurd (h.loop hpc) hne
    | returned =>
      obtain rfl := Connection.step_returned hpc hst
      rw [replied_nil (fun hh => by rw [hpc] at hh; cases hh) rfl, List.append_nil]
      exact ⟨h.opening, h.quiet, h.closed, fun hs => ⟨rfl, (h.start hs).2⟩,
        fun hh => (by rw [hpc] at hh; cases hh), fun _ => rfl, h.reply⟩
    | hello =>
      have hopen : ¬ l.server.cnx.closed = true := fun hc => by
        have := h.closed hc
        rw [hpc] at this
        cases this
      obtain ⟨hfrom, hnone, hsent⟩ := h.hello hpc
      cases hs : l.setup with
      | start => exact absurd (h.start hs).1 hne
      | done k u => exact absurd hs (h.opening k u)
      | helloSent k =>
        obtain ⟨u, random, henc⟩ := hsent k hs
        obtain ⟨t, hdec, hkey⟩ := hY.hello u random k _ henc
        obtain ⟨cnx, hh, hreply⟩ := handleHello_decrypted (C := Y.crypto) (v := v)
          (x := ⟨x, write, draws⟩) l.server.cnx hread hdec
        obtain rfl := Connection.step_greets hpc hh hst
        refine ⟨fun _ _ h => (by cases h), h.quiet, fun hc => ?_, fun h => (by cases h),
          fun h => (by cases h), fun _ => rfl, fun k' hk' => ?_⟩
        · exact absurd ((handleHello_closed hh).symm.trans hc) hopen
        · cases hk'
          simp only [replied, hpc, hfrom, List.nil_append]
          rcases hreply with hsame | ⟨t', out, hout, ht', hsome⟩
          · exact .inl (by rw [hsame, hnone]; rfl)
          · obtain ⟨k', hk', hkey'⟩ := hY.helloReply t k v t' out hkey hout
            exact .inr ⟨t', k', ht', by rw [hsome]; exact hk', hkey'⟩
      | failed e =>
        obtain ⟨hsession, hnext⟩ := Connection.step_hello hpc hst
        refine ⟨fun _ _ h => (by cases h), ?_, fun hc => ?_, fun h => (by cases h), fun hh => ?_,
          fun _ => rfl, fun _ h => (by cases h)⟩
        · rw [hsession]
          exact h.quiet
        · rcases hnext with hret | ⟨-, hh⟩
          · exact hret
          · exact absurd ((handleHello_closed hh).symm.trans hc) hopen
        · rcases hnext with hret | ⟨hloop, -⟩
          · rw [hret] at hh
            cases hh
          · rw [hloop] at hh
            cases hh
  · obtain ⟨hret, hsession, haes, hreply⟩ := Connection.step_unread hread hst
    have hnil : replied Y write iv l.server server = [] := by
      refine replied_nil (fun hh => ?_) (by rw [hsession])
      rw [hreply]
      exact (h.hello hh).2.1
    rw [hrest, hnil, List.append_nil]
    refine ⟨h.opening, ?_, fun _ => hret, fun hs => ?_, fun hh => ?_, fun hh => ?_, fun k hk => ?_⟩
    · rw [hsession]
      exact h.quiet
    · refine ⟨(h.start hs).1, (h.start hs).2.1, ?_⟩
      rw [hret]
      exact fun hh => (by cases hh)
    · rw [hret] at hh
      cases hh
    · rw [hret] at hh
      cases hh
    · rw [haes]
      exact h.reply k hk

theorem Steady.serves (hY : Y.Lawful) {k : S} (h : l.Steady Y k) :
    Steady Y { l with server, toServer := r.rest l.toServer,
                      toClient := l.toClient ++ replied Y write iv l.server server } k := by
  rcases ReadOf.received_whole hw hx with ⟨hne, hread, hrest⟩ | ⟨e, hread, hrest, -⟩
  · rw [hrest]
    cases hpc : l.server.pc with
    | hello => exact absurd hpc h.greeted
    | returned =>
      obtain rfl := Connection.step_returned hpc hst
      rw [replied_nil (fun hh => absurd hh h.greeted) rfl, List.append_nil]
      exact ⟨h.key, h.greeted, h.closed, h.turns, h.handled, fun _ => .inl rfl, h.toClient, h.answered,
        h.ended⟩
    | loop =>
      obtain ⟨hlen, m, iv', hm, henc⟩ := (h.toServer hpc).resolve_left hne
      obtain ⟨t, ht, hkey⟩ := h.key
      have hdec : Y.crypto.decryptUnpadDecode l.server.cnx.aesSession (some l.toServer) = .ok m := by
        rw [ht]
        exact hY.conveys hkey.symm henc
      obtain ⟨session, hss, hserver⟩ := Connection.step_decoded hpc hread hdec hst
      obtain ⟨rfl, haes, hpc', hclosed⟩ : server.session = session ∧
          server.cnx.aesSession = l.server.cnx.aesSession ∧ server.pc ≠ .hello ∧
          (server.cnx.closed = true → server.pc = .returned) := by
        rcases hserver with rfl | rfl
        · exact ⟨rfl, rfl, h.greeted, h.closed⟩
        · exact ⟨rfl, rfl, fun h => (by cases h), fun _ => rfl⟩
      have hended : ∀ (i : ℕ) e, l.got[i]? = some (.error e) →
          (∀ (j : ℕ) m, i ≤ j → l.got[j]? ≠ some (.ok m)) ∧ l.Dead := fun i e hi => by
        refine (h.ended i e hi).imp id (Or.resolve_right · fun hret => ?_)
        rw [hpc] at hret
        cases hret.2
      rcases sessionStep_exchange hss with hsame | ⟨ex, hexs, rfl, hreply⟩
      · rw [replied_nil (fun hh => absurd hh h.greeted) (by rw [hsame]), List.append_nil]
        refine ⟨by rw [haes]; exact h.key, hpc', hclosed, h.turns, by rw [hsame]; exact h.handled,
          fun _ => .inl rfl, by rw [hsame, haes]; exact h.toClient, by rw [hsame]; exact h.answered,
          fun i e hi => (hended i e hi).imp id .inl⟩
      · refine ⟨by rw [haes]; exact h.key, hpc', hclosed, h.turns, fun i ex' hi => ?_, fun _ => .inl rfl,
          ?_, fun i m hi => ?_, fun i e hi => (hended i e hi).imp id .inl⟩
        · rw [hexs] at hi
          rcases Parties.concat_getElem? hi with ⟨-, hi⟩ | ⟨rfl, rfl⟩
          · exact h.handled i ex' hi
          · rw [List.getLast?_eq_getElem?, ← hlen] at hm
            exact hm
        · refine (h.waits hpc hlen).imp id fun ⟨hnil, hgot⟩ => ?_
          simp only [hnil, List.nil_append, hexs]
          refine (replied_exchange hpc hexs hreply).imp id fun ⟨m', hm', henc'⟩ => ?_
          exact ⟨ex, m', iv, by rw [hgot, List.getElem?_concat_length], hm', henc'⟩
        · obtain ⟨ex', hex', hm'⟩ := h.answered i m hi
          refine ⟨ex', ?_, hm'⟩
          rw [hexs, List.getElem?_append_left (List.getElem?_eq_some_iff.1 hex').1]
          exact hex'
  · obtain ⟨hret, hsession, haes, hreply⟩ := Connection.step_unread hread hst
    rw [hrest, replied_nil (fun hh => absurd hh h.greeted) (by rw [hsession]), List.append_nil]
    refine ⟨?_, ?_, fun _ => hret, h.turns, ?_, fun hh => ?_, ?_, ?_, fun i e hi => ?_⟩
    · rw [haes]
      exact h.key
    · rw [hret]
      exact fun hh => (by cases hh)
    · rw [hsession]
      exact h.handled
    · rw [hret] at hh
      cases hh
    · rw [hsession, haes]
      exact h.toClient
    · rw [hsession]
      exact h.answered
    · obtain ⟨hlast, hwhy⟩ := h.ended i e hi
      exact ⟨hlast, hwhy.imp id fun hw => ⟨hw.1, hret⟩⟩

end Serve

theorem Steady.asks {k : S} (h : l.Steady Y k) (hgo : l.GoesOn) {m : XLRegMsg} {iv data : Bytes}
    (henc : Y.encodePadEncrypt (some k) iv m = .ok data) :
    Steady Y { l with toServer := l.toServer ++ data, sent := l.sent ++ [m] } k := by
  obtain ⟨hall, heof⟩ := hgo
  have halive : ¬ l.Dead := fun ⟨_, e, hne, he⟩ => hne (heof e he)
  refine ⟨h.key, h.greeted, h.closed, ?_, fun i ex hi => ?_, fun hpc => .inr ?_,
    .inr (h.toClient.resolve_left halive), h.answered, fun i e hi => ?_⟩
  · simp only [List.length_append, List.length_singleton]
    omega
  · have hsent := h.handled i ex hi
    rw [List.getElem?_append_left (List.getElem?_eq_some_iff.1 hsent).1]
    exact hsent
  · have hdone := (h.caught_up hpc hall).resolve_left halive
    have hnil : l.toServer = [] := (h.toServer hpc).resolve_right fun hpending => by omega
    refine ⟨by simp [hdone], m, iv, List.getLast?_concat, ?_⟩
    simp only [hnil, List.nil_append]
    exact henc
  · exact (h.ended i e hi).imp id fun hwhy => .inr (hwhy.resolve_left halive)

theorem Steady.hears (hY : Y.Lawful) {k : S} (h : l.Steady Y k) {r : ReadOf} {x : Received}
    (hw : r.Whole l.toClient) (hx : r.received l.toClient l.server.cnx.closed = some x)
    (hlt : l.got.length < l.sent.length) :
    Steady Y { l with
      got := l.got ++ [readMsg (fun b => Y.decryptUnpadDecode (some k) (some b)) x],
      toClient := r.rest l.toClient } k := by
  have halive : ¬ l.Dead := fun hdead => hlt.ne hdead.1
  have hturns : l.got.length + 1 = l.sent.length := by
    have := h.turns
    omega
  have hlen : ∀ m, (l.got ++ [m]).length ≤ l.sent.length ∧ l.sent.length ≤ (l.got ++ [m]).length + 1 :=
    fun m => by
      rw [List.length_append, List.length_singleton]
      omega
  rcases ReadOf.received_whole hw hx with ⟨hne, hread, hrest⟩ | ⟨e, hread, hrest, heof⟩
  · obtain ⟨ex, m, iv, hex, hreply, henc⟩ := (h.toClient.resolve_left halive).resolve_left hne
    obtain ⟨t, ht, hkey⟩ := h.key
    rw [ht] at henc
    simp only [readMsg, hread, hY.conveys hkey henc, hrest]
    refine ⟨⟨t, ht, hkey⟩, h.greeted, h.closed, hlen _, h.handled, h.toServer, .inr (.inl rfl),
      fun i m' hi => ?_, fun i e hi => ?_⟩
    · rcases Parties.concat_getElem? hi with ⟨-, hi⟩ | ⟨rfl, hm'⟩
      · exact h.answered i m' hi
      · cases hm'
        exact ⟨ex, hex, hreply⟩
    · -- a stream that was at its end has no more bytes
      rcases Parties.concat_getElem? hi with ⟨-, hi⟩ | ⟨-, he⟩
      · exact absurd ((h.ended i e hi).2.resolve_left halive).1 hne
      · cases he
  · simp only [readMsg, hread, hrest]
    have hwhy : Dead { l with got := l.got ++ [.error e], toClient := l.toClient } ∨
        l.toClient = [] ∧ l.server.pc = .returned := by
      by_cases he : e = EOF
      · exact .inr ⟨(heof he).2, h.closed (heof he).1⟩
      · exact .inl ⟨by simp [hturns], e, he, List.getLast?_concat⟩
    refine ⟨h.key, h.greeted, h.closed, hlen _, h.handled, h.toServer,
      hwhy.imp id fun hend => .inl hend.1, fun i m hi => ?_, fun i e' hi => ⟨fun j m hij hj => ?_, hwhy⟩⟩
    · rcases Parties.concat_getElem? hi with ⟨-, hi⟩ | ⟨-, hm⟩
      · exact h.answered i m hi
      · cases hm
    · rcases Parties.concat_getElem? hj with ⟨hlt, hj⟩ | ⟨-, hm⟩
      · rcases Parties.concat_getElem? hi with ⟨-, hi⟩ | ⟨rfl, -⟩
        · exact (h.ended i e' hi).1 j m hij hj
        · omega
      · cases hm

theorem client_request (l : Link S) (m : XLRegMsg) (iv : Bytes) (write : Option Err) :
    l.client Y (.request m iv write) = l ∨ ∃ k u data, l.setup = .done k u ∧ l.GoesOn ∧
      Y.encodePadEncrypt (some k) iv m = .ok data ∧
      l.client Y (.request m iv write) = { l with toServer := l.toServer ++ data, sent := l.sent ++ [m] } := by
  cases hs : l.setup with
  | done k u =>
    simp only [client, hs]
    split_ifs with hgo
    · rcases henc : writeMsg Y (some k) iv write m with e | data
      · exact .inl rfl
      · exact .inr ⟨k, u, data, rfl, hgo, writeMsg_ok henc, rfl⟩
    · exact .inl rfl
  | _ => exact .inl (by simp only [client, hs])

theorem client_answer (l : Link S) (r : ReadOf) :
    l.client Y (.answer r) = l ∨ ∃ k u x, l.setup = .done k u ∧
      r.received l.toClient l.server.cnx.closed = some x ∧ l.got.length < l.sent.length ∧
      l.client Y (.answer r) = { l with
        got := l.got ++ [readMsg (fun b => Y.decryptUnpadDecode (some k) (some b)) x],
        toClient := r.rest l.toClient } := by
  cases hs : l.setup with
  | done k u =>
    rcases hx : r.received l.toClient l.server.cnx.closed with - | x
    · exact .inl (by simp only [client, hs, hx])
    · simp only [client, hs, hx]
      split_ifs with hlt
      · exact .inr ⟨k, u, x, rfl, rfl, hlt, rfl⟩
      · exact .inl rfl
  | _ => exact .inl (by simp only [client, hs])

theorem Sound.moves (hY : Y.Lawful) (h : l.Sound Y v) {s s' : Service} {a : Move} {l' : Link S}
    (hw : a.Whole l) (hr : l.step D Y v s a = .ok (s', l')) : l'.Sound Y v := by
  cases a with
  | serve r write draws iv =>
    rcases step_serve hr with ⟨-, rfl⟩ | ⟨x, server, hx, hst, rfl⟩
    · exact h
    · exact h.imp (·.serves hw hx hst hY) fun ⟨k, hk, hs⟩ => ⟨k, hk, hs.serves hw hx hst hY⟩
  | client a =>
    obtain rfl : (if l.gone then l else l.client Y a) = l' := (Prod.mk.inj (Except.ok.inj hr)).2
    split_ifs with hgone
    · exact h
    cases a with
    | hello u random write =>
      rcases h with h | ⟨k, hk, h⟩
      · exact .inl (h.sends u random write)
      · rw [show l.client Y (.hello u random write) = l by simp only [client, hk]]
        exact .inr ⟨k, hk, h⟩
    | helloReply r =>
      rcases h with h | ⟨k, hk, h⟩
      · exact h.sets_up hw
      · rw [show l.client Y (.helloReply r) = l by simp only [client, hk]]
        exact .inr ⟨k, hk, h⟩
    | request m iv write =>
      rcases client_request l m iv write with hsame | ⟨k, u, data, hs, hgo, henc, hmove⟩
      · rwa [hsame]
      · rw [hmove]
        rcases h with h | ⟨k', hk, h⟩
        · exact absurd hs (h.opening k u)
        · cases hs.symm.trans hk
          exact .inr ⟨k, hk, h.asks hgo henc⟩
    | answer r =>
      rcases client_answer l r with hsame | ⟨k, u, x, hs, hx, hlt, hmove⟩
      · rwa [hsame]
      · rw [hmove]
        rcases h with h | ⟨k', hk, h⟩
        · exact absurd hs (h.opening k u)
        · cases hs.symm.trans hk
          exact .inr ⟨k, hk, h.hears hY hw hx hlt⟩
    | hangUp =>
      rcases h with h | ⟨k, hk, h⟩
      · exact .inl ⟨h.opening, h.quiet, h.closed, h.start, h.hello, h.loop, h.reply⟩
      · exact .inr ⟨k, hk, h.key, h.greeted, h.closed, h.turns, h.handled, h.toServer, h.toClient,
          h.answered, h.ended⟩

end Link

end XlReg
