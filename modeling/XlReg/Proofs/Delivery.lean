import XlReg.Lib.Stream
import XlReg.Proofs.GetReply
import XlReg.Spec.Cnx

/-! Messages on a connection (cnxHandler.go). `WriteData` is one `Write` and `ReadData` one `Read`, and
nothing on the wire tells where a message ends. So messages come out whole only if the connection
happens to deliver each of them in one piece, and one that is longer than the buffer never does. -/

namespace XlReg

open Stream

def readResults (s : Stream.State UInt8) : List (Option Bytes × Option Err) :=
  s.pieces.map fun p => readData (.ofBytes p)

def wholeMessages (s : Stream.State UInt8) : List (Option Bytes × Option Err) :=
  s.written.map fun m => (some m, none)

theorem readData_ofBytes {p : Bytes} (hpos : 0 < p.length) (hle : p.length ≤ MSG_BUF_LEN) :
    readData (.ofBytes p) = (some p, none) := by
  simp [readData, Received.ofBytes, List.take_of_length_le hle, hpos]

section Run

variable {evs : List (Stream.Event UInt8)} {s : Stream.State UInt8}
  (h : Run.run (Stream.next MSG_BUF_LEN) {} evs = .ok s)
include h

theorem readResults_whole_iff : readResults s = wholeMessages s ↔ s.pieces = s.written := by
  have hinj : Function.Injective fun m : Bytes => ((some m, none) : Option Bytes × Option Err) :=
    fun a b hab => Option.some.inj (Prod.ext_iff.1 hab).1
  have hres : readResults s = s.pieces.map fun m => (some m, none) := by
    apply List.map_congr_left
    intro p hp
    obtain ⟨hpos, hle⟩ := (run_conveyed h).pieces p hp
    exact readData_ofBytes hpos hle
  rw [hres, wholeMessages]
  exact (List.map_injective_iff.2 hinj).eq_iff

theorem long_not_whole {m : Bytes} (hm : m ∈ s.written) (hlong : MSG_BUF_LEN < m.length) :
    readResults s ≠ wholeMessages s := by
  intro hwhole
  rw [readResults_whole_iff h] at hwhole
  rw [← hwhole] at hm
  exact absurd ((run_conveyed h).pieces m hm).2 (Nat.not_le.2 hlong)

/-- Once everything that was written has been read, the results of `ReadData` are the messages exactly
if the connection delivered pieces of their lengths, one for each. -/
theorem delivered_whole_iff (hdone : s.pending = []) :
    readResults s = wholeMessages s ↔ reads evs = (writes evs).map List.length := by
  rw [readResults_whole_iff h]
  exact (run_conveyed h).pieces_eq_iff hdone

/-- Then each call of `readMsg` gives the message that was sent, if decoding inverts encoding. -/
theorem readMsg_whole {encode : XLRegMsg → Bytes} {decode : Bytes → Except Err XLRegMsg}
    (hcodec : ∀ m, decode (encode m) = .ok m) {ms : List XLRegMsg} (hms : s.written = ms.map encode)
    (hwhole : readResults s = wholeMessages s) :
    s.pieces.map (fun p => readMsg decode (.ofBytes p)) = ms.map fun m => .ok (some m) := by
  have hpieces := (readResults_whole_iff h).1 hwhole
  have hbounds := (run_conveyed h).pieces
  rw [hpieces, hms] at hbounds
  rw [hpieces, hms, List.map_map]
  apply List.map_congr_left
  intro m hm
  obtain ⟨hpos, hle⟩ := hbounds (encode m) (List.mem_map_of_mem hm)
  simp [readMsg, readData_ofBytes hpos hle, hcodec, Except.map]

end Run

/-! The reply to a request for all members of a full cluster. -/

def Token.keyBytes (t : Token) : ℕ := (t.commsKey.getD []).length + (t.sigKey.getD []).length
def XLRegMsg.keyBytes (m : XLRegMsg) : ℕ := (m.tokens.map Token.keyBytes).sum

variable {D : Deps}

theorem getLoop_all {members : List ClientInfo} {toSend : UInt64} (n : ℕ) {i : ℕ} (acc : Sending)
    (hlen : i + n ≤ members.length) (hask : ∀ j < i + n, D.bits.test toSend j = true)
    (htok : ∀ m ∈ members, ∃ t, m.token D = .ok t) :
    ∃ ts which, getLoop D members toSend n i acc = .ok ⟨acc.tokens ++ ts, which⟩ ∧ ts.length = n ∧
      ∀ t ∈ ts, ∃ m ∈ members, m.token D = .ok t := by
  induction n generalizing i acc with
  | zero => exact ⟨[], acc.which, by simp [getLoop], rfl, fun t ht => by cases ht⟩
  | succ n ih =>
    have hi : i < members.length := by omega
    obtain ⟨t, ht⟩ := htok _ (List.getElem_mem hi)
    obtain ⟨ts, which, hloop, hts, hall⟩ := ih (i := i + 1) ⟨acc.tokens ++ [t], D.bits.set acc.which i⟩
      (by omega) (fun j hj => hask j (by omega))
    refine ⟨t :: ts, which, ?_, by rw [List.length_cons, hts], ?_⟩
    · unfold getLoop
      simp only [getIter, hask i (by omega), if_true, List.getElem?_eq_getElem hi, ht]
      rw [hloop]
      simp
    · intro t' ht'
      rcases List.mem_cons.1 ht' with rfl | ht'
      · exact ⟨_, List.getElem_mem hi, ht⟩
      · exact hall t' ht'

theorem doGetMsg_all {w : World} {h : InHandler} {draws : List NodeID} {bKey : Bytes} {p : Ptr}
    {rc : RegCluster} (hkey : newBytesKey D h.msgIn.clusterID = .ok bKey)
    (hfind : w.reg.clustersByID.find D bKey = .ok (some p)) (hp : w.heap[p]? = some rc)
    (hfull : rc.members.length = 64) (hask : ∀ j < 64, D.bits.test h.msgIn.getWhich j = true)
    (htok : ∀ m ∈ rc.members, ∃ t, m.token D = .ok t) :
    ∃ s, doGetMsg D w h draws = .ok (w, h.reply (getReply h.msgIn.clusterID s) .joinRcvd) ∧
      s.tokens.length = 64 ∧ ∀ t ∈ s.tokens, ∃ m ∈ rc.members, m.token D = .ok t := by
  have hsize : getSize rc = 64 := by
    rw [getSize_eq (by omega), hfull]
    rfl
  have hsend : ∀ j < 0 + 64, D.bits.test (D.bits.intersection h.msgIn.getWhich (D.bits.lowNMap 64)) j = true := by
    intro j hj
    rw [D.bits.test_intersection, D.bits.test_lowNMap _ _ (le_refl 64), hask j (by omega)]
    simpa using hj
  obtain ⟨ts, which, hloop, hlen, hall⟩ := getLoop_all (D := D) 64 ⟨[], 0⟩ (by omega) hsend htok
  refine ⟨⟨ts, which⟩, ?_, hlen, hall⟩
  simp only [doGetMsg, hkey, hfind, deref_ok.2 hp, hsize, hloop]
  rfl

/-- If the keys of each member take more than 256 bytes, that reply is too long for the buffer. -/
theorem full_reply_not_whole {encode : XLRegMsg → Bytes} (henc : ∀ m, m.keyBytes ≤ (encode m).length)
    {id : Option Bytes} {sending : Sending} (hlen : sending.tokens.length = 64)
    (hkeys : ∀ t ∈ sending.tokens, 256 < t.keyBytes) {evs : List (Stream.Event UInt8)}
    {s : Stream.State UInt8} (h : Run.run (Stream.next MSG_BUF_LEN) {} evs = .ok s)
    (hw : encode (getReply id sending) ∈ s.written) : readResults s ≠ wholeMessages s := by
  apply long_not_whole h hw
  have hsum : 64 • 257 ≤ (getReply id sending).keyBytes := by
    rw [← hlen, ← List.length_map Token.keyBytes]
    apply List.card_nsmul_le_sum
    intro n hn
    obtain ⟨t, ht, rfl⟩ := List.mem_map.1 hn
    exact hkeys t ht
  calc MSG_BUF_LEN < 64 • 257 := by decide
    _ ≤ (getReply id sending).keyBytes := hsum
    _ ≤ (encode (getReply id sending)).length := henc _

namespace Sample

/-- Keys take 279 bytes, as those of 2048 bits do. -/
def longKeys : Deps := { Deps.plain with rsaPubKeyToWire := fun _ => .ok (List.replicate 279 0) }

def fullCluster : RegCluster :=
  { cluster with
    maxSize := 64
    members := (List.range 64).map fun i => client i (toString i) (UInt8.ofNat i) }

def fullWorld : World :=
  ⟨{ (World.init (.rep 9)).reg with
      clusters := [0], clustersByID := ⟨AList.insert (NodeID.rep 0).value 0 ∅⟩ }, [fullCluster], 64⟩

def asksAll : InHandler := { entryState := .joinRcvd, msgIn := get (.rep 0) (-1) }

/-- An encoding, as far as its length matters: the keys. -/
def encodeKeys (m : XLRegMsg) : Bytes :=
  m.tokens.flatMap fun t => t.commsKey.getD [] ++ t.sigKey.getD []

end Sample

/-- Two messages, delivered one by one. -/
theorem delivered_whole_sample :
    ∃ s, Run.run (Stream.next MSG_BUF_LEN) {} [.write [1, 2], .read 2, .write [3], .read 1] = .ok s ∧
      s.pending = [] ∧ readResults s = wholeMessages s :=
  ⟨_, rfl, rfl, (@delivered_whole_iff [.write [1, 2], .read 2, .write [3], .read 1] _ rfl rfl).2 rfl⟩

/-- A message comes in two pieces, or two messages come in one. The reply about a full cluster is not
read whole in any run. -/
theorem delivery_fails :
    (∃ s, Run.run (Stream.next MSG_BUF_LEN) {} [.write [1, 2], .read 1, .read 1] = .ok s ∧
      s.pending = [] ∧ readResults s = [(some [1], none), (some [2], none)] ∧
      readResults s ≠ wholeMessages s) ∧
    (∃ s, Run.run (Stream.next MSG_BUF_LEN) {} [.write [1], .write [2], .read 2] = .ok s ∧
      s.pending = [] ∧ readResults s = [(some [1, 2], none)] ∧ readResults s ≠ wholeMessages s) ∧
    ∃ sending, doGetMsg Sample.longKeys Sample.fullWorld Sample.asksAll [] =
        .ok (Sample.fullWorld, Sample.asksAll.reply (getReply (some (NodeID.rep 0).value) sending) .joinRcvd) ∧
      sending.tokens.length = 64 ∧ ∀ evs s, Run.run (Stream.next MSG_BUF_LEN) {} evs = .ok s →
        Sample.encodeKeys (getReply (some (NodeID.rep 0).value) sending) ∈ s.written →
        readResults s ≠ wholeMessages s := by
  refine ⟨⟨_, rfl, rfl, rfl, by decide⟩, ⟨_, rfl, rfl, rfl, by decide⟩, ?_⟩
  obtain ⟨sending, hget, hlen, hall⟩ := @doGetMsg_all Sample.longKeys Sample.fullWorld Sample.asksAll []
    _ 0 _ rfl rfl rfl (by rfl) (by decide) (fun m _ => ⟨_, rfl⟩)
  refine ⟨sending, hget, hlen, fun evs s h hw => ?_⟩
  refine full_reply_not_whole (fun m => ?_) hlen (fun t ht => ?_) h hw
  · rw [Sample.encodeKeys, List.length_flatMap]
    simp only [List.length_append]
    exact le_rfl
  · obtain ⟨m, -, hm⟩ := hall t ht
    cases hm
    change 256 < (List.replicate 279 (0 : UInt8)).length + (List.replicate 279 (0 : UInt8)).length
    rw [List.length_replicate]
    decide

end XlReg
