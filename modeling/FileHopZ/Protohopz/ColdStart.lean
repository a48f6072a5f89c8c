import FileHopZ.Protohopz.Supplying

/-! # Delivery from the start

Two sides are followed from their constructors: they start their loops, shake hands, and from
then on deliver each other's payloads in order.  What has to be asked of the network, besides
that it is honest, is that no `DATA` packet arrives at a side whose handshake has not returned
(`DataAfterHandshake`): such a packet would be queued as it is, still encrypted, and its number
would be recorded, so that its payload is lost.

The two halves are those of an established session.  What one side can send is `Supplies`; that
both have the same key is what the handshakes agree on; and `receive_chunks_loop` puts in order
what arrives.
-/
namespace FileHopZ
namespace Session
variable {P : Primitives}
open ProtoStream

/-- A `DATA` packet arrives at a side only when its handshake has returned. -/
def DataAfterHandshake (s : Session P) (e : Role × ProtoStream.Event P) : Prop :=
  ∀ p ∈ arrivedPacket e.2, p.header.type = .data →
    (s.stream e.1).transport.connectionEncrypted = true

instance (s : Session P) (e : Role × ProtoStream.Event P) : Decidable (DataAfterHandshake s e) :=
  inferInstanceAs (Decidable (∀ p ∈ arrivedPacket e.2, _))

/-- The registered packets that carry payloads. -/
def dataOf (registered : List (Packet × Bytes)) : List (Packet × Bytes) :=
  registered.filter fun r => decide (r.1.header.type = .data)

@[simp] theorem dataOf_append (a b : List (Packet × Bytes)) :
    dataOf (a ++ b) = dataOf a ++ dataOf b := List.filter_append ..

theorem mem_dataOf {registered : List (Packet × Bytes)} {r : Packet × Bytes} :
    r ∈ dataOf registered ↔ r ∈ registered ∧ r.1.header.type = .data := by
  simp [dataOf, List.mem_filter]

/-! ## Numbers -/

/-- The numbers under which a side has registered its packets. -/
structure Numbers (registered : List (Packet × Bytes)) (t : ProtoHopZ P) : Prop where
  increasing : (registered.map number).Pairwise (· < ·)
  below : ∀ r ∈ registered, number r < t.sequenceCounter.toNat
  data : ∀ r ∈ registered, r.1.header.type = .data → 1 ≤ number r

theorem Numbers.step {registered : List (Packet × Bytes)} {air : List (Endpoint × Bytes)}
    {s s' : ProtoStream P} {e : ProtoStream.Event P} {out : List ProtoStream.Observation}
    (h : Numbers registered s.transport) (hsupplies : Supplies registered air s)
    (hs : Moves s e s' out)
    (hwrap : s.transport.sequenceCounter ≤ s'.transport.sequenceCounter) :
    Numbers (registered ++ registrations out) s'.transport := by
  rw [UInt32.le_iff_toNat_le] at hwrap
  rcases hsupplies.registers hs with hnone | ⟨new, hone, -, hdata, hnumber, hcounter⟩
  · rw [hnone, List.append_nil]
    exact ⟨h.increasing, fun r hr => (h.below r hr).trans_le hwrap, h.data⟩
  · have hgrow : s'.transport.sequenceCounter.toNat = s.transport.sequenceCounter.toNat + 1 := by
      rw [hcounter, UInt32.toNat_add] at hwrap ⊢
      have := s.transport.sequenceCounter.toNat_lt
      have : (1 : UInt32).toNat = 1 := rfl
      omega
    rw [hone]
    refine ⟨?_, fun r hr => ?_, fun r hr htype => ?_⟩
    · rw [List.map_append, List.pairwise_append]
      refine ⟨h.increasing, List.pairwise_singleton _ _, fun a ha b hb => ?_⟩
      obtain ⟨r, hr, rfl⟩ := List.mem_map.mp ha
      rw [List.map_singleton, List.mem_singleton] at hb
      rw [hb, hnumber]
      exact h.below r hr
    · rcases List.mem_append.mp hr with hr | hr
      · have := h.below r hr
        omega
      · rw [List.mem_singleton.mp hr, hnumber]
        omega
    · rcases List.mem_append.mp hr with hr | hr
      · exact h.data r hr htype
      · -- the `HANDSHAKE` packet has been registered before
        rw [List.mem_singleton.mp hr] at htype ⊢
        obtain ⟨first, hfirst⟩ := List.exists_mem_of_ne_nil _
          (hsupplies.greeted (Or.inl (hdata htype).1))
        have := h.below first hfirst
        omega

/-! ## What arrives -/

/-- Two sides whose handshakes have returned have the same key. -/
theorem Shaking.same_key (hP : P.Lawful) {tr : List (Role × ProtoStream.Observation)}
    {s : Session P} (h : Shaking tr s)
    (hboth : ∀ side, (s.stream side).transport.handshake = .returned none) (side : Role) :
    (s.stream side.peer).transport.cryptoContext.encryptionKey =
      (s.stream side).transport.cryptoContext.encryptionKey := by
  have hagree : (s.stream .initiator).transport.cryptoContext.encryptionKey =
      (s.stream .responder).transport.cryptoContext.encryptionKey := by
    obtain ⟨c, fc, b, hc, hcown, hb, hcset⟩ := h.installed_key (hboth .initiator)
    obtain ⟨d, fd, a, hd, hdown, ha, hdset⟩ := h.installed_key (hboth .responder)
    exact CryptoContext.encryptionKey_agree hP (hc.trans ha.1) (hcown.trans ha.2)
      (hd.trans hb.1) (hdown.trans hb.2) hcset hdset
  cases side with
  | initiator => exact hagree.symm
  | responder => exact hagree

/-- **What arrives is genuine**: a `DATA` packet that an encrypted connection accepts from its
peer carries the payload the peer registered under its number. -/
theorem Supplies.genuine (hP : P.Lawful) {registered : List (Packet × Bytes)}
    {air : List (Endpoint × Bytes)} {peer : ProtoStream P} (hpeer : Supplies registered air peer)
    {t : ProtoHopZ P} (hencrypted : t.connectionEncrypted = true)
    (hkey : peer.transport.connectionEncrypted = true →
      peer.transport.cryptoContext.encryptionKey = t.cryptoContext.encryptionKey)
    {destination : Endpoint} {bytes : Bytes} (hair : (destination, bytes) ∈ air) {buffer : Packet}
    {r : ReceivedPacket} (hsize : (buffer.receiveFrom bytes).header.size.toNat ≤ packetSize)
    (haccepts : ProtoHopZ.Accepts t.connectionEncrypted t.cryptoContext
      (buffer.receiveFrom bytes) r) (htype : r.packet.header.type = .data) :
    Genuine (dataOf registered) r := by
  cases haccepts with
  | handshake hhs =>
      rw [show (buffer.receiveFrom bytes).header.type = _ from htype] at hhs
      cases hhs
  | plain _ hplain =>
      rw [hencrypted] at hplain
      cases hplain
  | decrypted hdata _ hresult =>
      rename_i fault result
      rcases hpeer.air _ _ hair with ⟨p, plaintext, hmem, rfl⟩ | ⟨sequence, rfl⟩
      swap
      · rw [receiveFrom_ack] at hdata
        cases hdata
      have htame := hpeer.tame _ hmem
      obtain ⟨hheader, hbytes⟩ :=
        @Packet.receiveFrom_datagram buffer p htame.ofByte htame.size
      rw [hheader] at hdata
      obtain ⟨hpeerenc, -, -, nonce, hframe⟩ := hpeer.sealed _ hmem hdata
      dsimp only at hframe
      rw [hbytes, hframe, hkey hpeerenc] at hresult
      have hlength := (CryptoContext.length_of_decryptData hresult).1
      obtain rfl := CryptoContext.eq_of_decryptData_frame hP hresult
      have hfit : result.length ≤ packetSize := by
        have hdatalen := Packet.length_data hsize
        rw [hbytes, hframe, CryptoContext.length_frame] at hdatalen
        omega
      exact ⟨p, result, mem_dataOf.mpr ⟨hmem, hdata⟩, by rw [Packet.copyIn_sequence, hheader],
        Packet.copyIn_size hfit, Packet.copyIn_data hfit⟩

/-! ## Two sides -/

/-- No chunk is pushed before `start_loops` has been called. -/
theorem chunks_unstarted {s s' : ProtoStream P} {e : ProtoStream.Event P}
    {out : List ProtoStream.Observation} (h : Single s) (hs : s.step e = some (s', out))
    (hidle : s.startLoops = .idle) : ProtoStream.chunks out = [] := by
  have hloop : s.receiveChunksLoop = .idle := by
    by_contra hne
    have := (h.spawned hne).2
    rw [hidle] at this
    cases this
  cases ProtoStream.step_cases hs with
  | chunk _ _ hrunning | lastChunk _ _ hrunning =>
      rw [hloop] at hrunning
      cases hrunning
  | stored _ hfinished =>
      rw [hloop] at hfinished
      cases hfinished
  | transport | callStartLoops => simp [ProtoStream.chunks]
  | _ => rfl

/-- **The invariant of two sides from their constructors on.** -/
structure ColdStarted (tr : List (Role × ProtoStream.Observation)) (s : Session P) : Prop where
  shaking : Shaking tr s
  supplies : ∀ side, Supplies (registrations (shown side tr)) (s.air side) (s.stream side)
  numbers : ∀ side, Numbers (registrations (shown side tr)) (s.stream side).transport
  putting : ∀ side, Putting (Genuine (dataOf (registrations (shown side.peer tr))))
    (Genuine (dataOf (registrations (shown side.peer tr)))) (ordered (shown side tr))
    (s.stream side)
  chunks : ∀ side, (chunks (shown side tr)).filter (fun c => !c.empty) =
    (ordered (shown side tr)).map (Chunk.ofPacket ·.packet)
  unstarted : ∀ side, (s.stream side).startLoops = .idle →
    ProtoStream.chunks (shown side tr) = []
  error : ∀ side, (s.stream side).streamError = none →
    ∀ c ∈ ProtoStream.chunks (shown side tr), c.empty = false

theorem coldStarted_construct (address : Role → Endpoint) :
    ColdStarted [] (construct P address) where
  shaking := shaking_construct address
  supplies side := by
    cases side with
    | initiator => exact supplies_construct _ _
    | responder => exact supplies_construct _ _
  numbers side := ⟨List.Pairwise.nil, fun _ h => absurd h List.not_mem_nil,
    fun _ h => absurd h List.not_mem_nil⟩
  putting side := by
    cases side with
    | initiator => exact putting_construct _ _
    | responder => exact putting_construct _ _
  chunks side := rfl
  unstarted side _ := rfl
  error side _ c hc := absurd hc List.not_mem_nil

theorem ColdStarted.encrypted {tr : List (Role × ProtoStream.Observation)} {s : Session P}
    (h : ColdStarted tr s) (side : Role) :
    (s.stream side).transport.connectionEncrypted = true ↔
      (s.stream side).transport.handshake = .returned none :=
  (h.shaking.announcing side).greets.encrypted

/-- No `DATA` packet is the first to arrive. -/
theorem ColdStarted.greetedFirst {tr : List (Role × ProtoStream.Observation)} {s : Session P}
    (h : ColdStarted tr s) {e : Role × ProtoStream.Event P} (hdata : DataAfterHandshake s e) :
    GreetedFirst s e := by
  intro p hp htype hungreeted
  have hreturned := (h.encrypted e.1).mp (hdata p hp htype)
  exact hungreeted.1.going.2 none hreturned

theorem ColdStarted.genuine (hP : P.Lawful) {address : Role → Endpoint}
    {tr : List (Role × ProtoStream.Observation)} {s : Session P} (h : ColdStarted tr s)
    {side : Role} {remote : Endpoint} {buffer : Packet} {bytes : Bytes} {now : Nat}
    {fault : Option ErrorCode} {r : ReceivedPacket}
    (hhonest : Honest address s (side, .transport (.datagram remote buffer bytes now fault)))
    (hdata : DataAfterHandshake s (side, .transport (.datagram remote buffer bytes now fault)))
    (hsize : (buffer.receiveFrom bytes).header.size.toNat ≤ packetSize)
    (haccepts : ProtoHopZ.Accepts (s.stream side).transport.connectionEncrypted
      (s.stream side).transport.cryptoContext (buffer.receiveFrom bytes) r)
    (htype : r.packet.header.type = .data) :
    Genuine (dataOf (registrations (shown side.peer tr))) r := by
  have harrived : (buffer.receiveFrom bytes).header.type = .data := by
    cases haccepts with
    | handshake => exact htype
    | plain hplain => exact hplain
    | decrypted hsealed => exact hsealed
  have hencrypted := hdata _ rfl harrived
  refine (h.supplies side.peer).genuine hP hencrypted (fun hpeer => ?_)
    (hhonest (remote, bytes) rfl).2 hsize haccepts htype
  refine h.shaking.same_key hP (fun other => ?_) side
  rcases Role.eq_or_eq_peer other side with rfl | rfl
  · exact (h.encrypted other).mp hencrypted
  · exact (h.encrypted _).mp hpeer

/-- **The step lemma.** -/
theorem coldStarted_step (hP : P.Lawful) {address : Role → Endpoint}
    {tr : List (Role × ProtoStream.Observation)} {s s' : Session P}
    {e : Role × ProtoStream.Event P} {out : List (Role × ProtoStream.Observation)}
    (h : ColdStarted tr s) (hhonest : Honest address s e) (hwrap : NoWrap s e)
    (hdata : DataAfterHandshake s e) (hs : s.step e = some (s', out)) :
    ColdStarted (tr ++ out) s' := by
  have hshaking := shaking_step h.shaking hhonest (h.greetedFirst hdata) hs
  obtain ⟨mover, e⟩ := e
  have hcounter := hwrap (s', out) hs
  obtain ⟨shown', hmove, rfl, hpeer, hair, hairpeer⟩ := step_eq hs
  have hmoves := moves_step hmove
  have hself := shown_append_self mover tr shown'
  have hother := shown_append_of_ne (Role.peer_ne mover).symm tr shown'
  have hreceiver := (h.putting mover).step hmoves
    (fun _ _ _ _ _ _ he hsize hacc htype => by
      subst he
      exact h.genuine hP hhonest hdata hsize hacc htype)
    (fun _ _ _ _ hgenuine => hgenuine)
  have hunstarted := chunks_unstarted (h.supplies mover).single hmove
  refine ⟨hshaking, fun side => ?_, fun side => ?_, fun side => ?_, fun side => ?_,
    fun side hidle => ?_, fun side hnone => ?_⟩
  · rcases Role.eq_or_eq_peer side mover with rfl | rfl
    · rw [hself, registrations_append, hair]
      exact (h.supplies side).step hmove
    · rw [hother, hpeer, hairpeer]
      exact h.supplies _
  · rcases Role.eq_or_eq_peer side mover with rfl | rfl
    · rw [hself, registrations_append]
      exact (h.numbers side).step (h.supplies side) hmoves hcounter
    · rw [hother, hpeer]
      exact h.numbers _
  · rcases Role.eq_or_eq_peer side mover with rfl | rfl
    · rw [hself, ordered_append, hother]
      exact hreceiver
    · have hold := h.putting mover.peer
      rw [Role.peer_peer] at hold
      rw [hother, hpeer, Role.peer_peer, hself, registrations_append, dataOf_append]
      exact hold.mono (fun _ => Genuine.mono) fun _ => Genuine.mono
  · rcases Role.eq_or_eq_peer side mover with rfl | rfl
    · rw [hself, chunks_append, ordered_append, List.filter_append, List.map_append,
        h.chunks side, hmoves.chunks]
    · rw [hother]
      exact h.chunks _
  · rcases Role.eq_or_eq_peer side mover with rfl | rfl
    · -- a stream that has not been started was not started before
      have hbefore : (s.stream side).startLoops = .idle := by
        by_contra hne
        exact (streamError_step hmove hne).1 hidle
      rw [hself, chunks_append, h.unstarted side hbefore, hunstarted hbefore]
      rfl
    · rw [hother]
      rw [hpeer] at hidle
      exact h.unstarted _ hidle
  · rcases Role.eq_or_eq_peer side mover with rfl | rfl
    · rw [hself, chunks_append]
      intro c hc
      by_cases hidle : (s.stream side).startLoops = .idle
      · rw [h.unstarted side hidle, hunstarted hidle] at hc
        cases hc
      · obtain ⟨-, hkept, hnew⟩ := streamError_step hmove hidle
        rcases List.mem_append.mp hc with hc | hc
        · refine h.error side ?_ c hc
          by_contra hsome
          rw [hkept hsome] at hnone
          exact hsome hnone
        · exact hnew hnone c hc
    · rw [hother]
      rw [hpeer] at hnone
      exact h.error _ hnone

/-- The runs that are followed: an honest network that lets no `DATA` packet overtake a
handshake, and no number is used twice. -/
def Orderly (address : Role → Endpoint) (s : Session P) (e : Role × ProtoStream.Event P) : Prop :=
  Honest address s e ∧ NoWrap s e ∧ DataAfterHandshake s e

instance (address : Role → Endpoint) (s : Session P) (e : Role × ProtoStream.Event P) :
    Decidable (Orderly address s e) :=
  inferInstanceAs (Decidable (_ ∧ _ ∧ _))

/-- The run lemma. -/
theorem coldStarted_run (hP : P.Lawful) {address : Role → Endpoint}
    {tr : List (Role × ProtoStream.Observation)} {s : Session P}
    (hrun : Transition.Run step (Orderly address) (construct P address) tr s) :
    ColdStarted tr s :=
  hrun.invariant (I := ColdStarted) (coldStarted_construct address)
    fun _ _ _ _ _ ih hok hs => coldStarted_step hP ih hok.1 hok.2.1 hok.2.2 hs

/-- What a side has pushed is a first part of what its peer has registered. -/
theorem ColdStarted.delivered {tr : List (Role × ProtoStream.Observation)} {s : Session P}
    (h : ColdStarted tr s) (side : Role) :
    (ProtoStream.chunks (shown side tr)).filter (fun c => !c.empty) <+:
      (dataOf (registrations (shown side.peer tr))).map fun r => carrying r.2 := by
  rw [h.chunks side]
  have hnumbers := h.numbers side.peer
  refine payloads_prefix (fun r hr => ((h.putting side).settled r hr).2) (h.putting side).numbers
    ?_ fun r hr => ?_
  · exact hnumbers.increasing.sublist (List.filter_sublist.map number)
  · obtain ⟨hmem, htype⟩ := mem_dataOf.mp hr
    exact hnumbers.data r hmem htype

/-- **Delivery from the start.**  Two sides are constructed, shake hands and send, in any
interleaving, over an honest network that lets no `DATA` packet overtake a handshake, and no
sequence number is used twice.  Then the chunks that a side has pushed to `ready_chunks_`, but
for the empty one that reports an error, are the first payloads that its peer has registered,
in the order of their registration; there is no empty one while no error is recorded. -/
theorem delivered_from_start (hP : P.Lawful) {address : Role → Endpoint}
    {tr : List (Role × ProtoStream.Observation)} {s : Session P}
    (hrun : Transition.Run step (Orderly address) (construct P address) tr s) (side : Role) :
    (ProtoStream.chunks (shown side tr)).filter (fun c => !c.empty) <+:
        (dataOf (registrations (shown side.peer tr))).map (fun r => carrying r.2) ∧
      ((s.stream side).streamError = none →
        ∀ c ∈ ProtoStream.chunks (shown side tr), c.empty = false) :=
  ⟨(coldStarted_run hP hrun).delivered side, (coldStarted_run hP hrun).error side⟩

/-- Both sides have shaken hands and run. -/
def sampleShaken : List (Role × ProtoStream.Event .additive) :=
  sampleGreetings ++ sampleReply (sampleGreeting 5) ++ [(.initiator, .resumeStartLoops)]

/-- The initiator's `DATA` packet number `sequence`, sealed under the key agreed on. -/
def sampleSealedPacket (payload : Bytes) (sequence : UInt32) : Packet :=
  ((dataPacket payload).withSequence sequence).copyIn
    (CryptoContext.frame .additive sampleAgreedKey .zero payload)

/-- A side makes call `i` of `send`, and its packet goes out. -/
def sampleSent (side : Role) (i : Nat) (payload : Bytes) :
    List (Role × ProtoStream.Event .additive) :=
  (side, .send i payload) :: samplePosted side i

/-- A packet arrives at a side, whose `receive_chunks_loop` goes on with it. -/
def sampleTaken (side : Role) (packet : Packet) : List (Role × ProtoStream.Event .additive) :=
  [sampleArrivalAt side packet, (side, .resumeReceiveChunks)]

/-- Two sides that meet; two payloads of the initiator arrive in the wrong order, and one of
the responder. -/
theorem delivered_from_start_both : ∃ tr s,
    Transition.Run step (Orderly sampleAddress) (construct .additive sampleAddress) tr s ∧
      (∀ side, (ProtoStream.chunks (shown side tr)).filter (fun c => !c.empty) <+:
        (dataOf (registrations (shown side.peer tr))).map fun r => carrying r.2) ∧
      ProtoStream.chunks (shown .responder tr) = [carrying [65], carrying [66, 67]] ∧
      ProtoStream.chunks (shown .initiator tr) = [carrying [68]] := by
  obtain ⟨tr, s, hrun, hp⟩ := Transition.exists_run step (Orderly sampleAddress)
    (construct .additive sampleAddress)
    (sampleShaken ++ sampleSent .initiator 1 [65] ++ sampleSent .initiator 2 [66, 67] ++
      sampleSent .responder 1 [68] ++ sampleTaken .responder (sampleSealedPacket [66, 67] 2) ++
      sampleTaken .responder (sampleSealedPacket [65] 1) ++
      sampleTaken .initiator (sampleSealedPacket [68] 1))
    (fun tr _ =>
      decide (ProtoStream.chunks (shown .responder tr) = [carrying [65], carrying [66, 67]]) &&
        decide (ProtoStream.chunks (shown .initiator tr) = [carrying [68]]))
    (fun s e => decide (Orderly sampleAddress s e))
    (fun _ _ h => of_decide_eq_true h) (by decide +kernel)
  rw [Bool.and_eq_true] at hp
  exact ⟨tr, s, hrun, fun side => (delivered_from_start Primitives.additive_lawful hrun side).1,
    of_decide_eq_true hp.1, of_decide_eq_true hp.2⟩

end Session
end FileHopZ
