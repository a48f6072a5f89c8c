import FileHopZ.Protohopz.Greeting
import FileHopZ.Protohopz.Replay

/-! # Agreement of the two handshakes

A handshake installs the public key its peer has sent, as long as no `DATA` packet is the
first to arrive (`GreetedFirst`): then both sides derive the same encryption key.  A
responder may send `DATA` as soon as its own handshake has returned, and when that overtakes
its `HANDSHAKE` packet the initiator takes it for the key (`data_installed`).
-/
namespace FileHopZ

namespace ProtoHopZ
variable {P : Primitives}

/-- The handshake has installed its peer's key. -/
def Installs (t : ProtoHopZ P) : Prop :=
  (∃ i, t.handshake = .sending .responder i) ∨ t.handshake = .returned none

/-- Only the handshake gets packets from `receive_packet`. -/
theorem not_consumed_step {t t' : ProtoHopZ P} {e : Event P} {out : List Observation}
    (hs : t.step e = some (t', out)) (hh : e.handshakes = false) (p : Packet) :
    .consumed p ∉ out := by
  cases step_cases hs with
  | shakes _ _ _ he =>
      rw [hh] at he
      cases he
  | _ => simp [sendAck]

/-- What a step of the handshake has installed, and what it has got. -/
theorem Shakes.installs {t t' : ProtoHopZ P} {out : List Observation} {greets : ReceivedPacket → Prop}
    (h : Shakes t t' out) (htaken : ∀ role r queue, t.handshake = .receiving role →
      t.loopError = none → t.receivedPacketsQueue.resume .handshake = some (r, queue) → greets r) :
    (t'.Installs → t.Installs ∧ t'.cryptoContext = t.cryptoContext ∨
      ∃ r fault, greets r ∧ t.cryptoContext.setPeerPublicKey fault
        (r.packet.payload.take x25519Len) = (none, t'.cryptoContext)) ∧
      ∀ p, .consumed p ∈ out → ∃ r, greets r ∧ r.packet = p := by
  cases h with
  | failed ec => exact ⟨by simp [Installs], by simp⟩
  | begunInitiator => exact ⟨by simp [Installs, sendHandshake], by simp⟩
  | begunResponder => exact ⟨by simp [Installs, awaitHandshake], by simp⟩
  | sentInitiator => exact ⟨by simp [Installs, awaitHandshake], by simp⟩
  | sentResponder i hframe => exact ⟨fun _ => Or.inl ⟨Or.inl ⟨i, hframe⟩, rfl⟩, by simp⟩
  | interrupted => exact ⟨by simp [Installs], by simp⟩
  | rejected role r queue ec context hframe htake herror =>
      refine ⟨by simp [Installs], fun p hp => ⟨r, htaken role r queue hframe herror htake, ?_⟩⟩
      simp only [List.mem_cons, Observation.consumed.injEq, reduceCtorEq, List.not_mem_nil,
        or_false] at hp
      exact hp.symm
  | installedInitiator r queue fault context hframe htake herror hsize hset =>
      have hgreets := htaken _ r queue hframe herror htake
      refine ⟨fun _ => Or.inr ⟨r, fault, hgreets, hset⟩, fun p hp => ⟨r, hgreets, ?_⟩⟩
      simp only [List.mem_cons, Observation.consumed.injEq, reduceCtorEq, List.not_mem_nil,
        or_false] at hp
      exact hp.symm
  | installedResponder i r queue fault context hframe htake herror hsize hset =>
      have hgreets := htaken _ r queue hframe herror htake
      refine ⟨fun _ => Or.inr ⟨r, fault, hgreets, hset⟩, fun p hp => ⟨r, hgreets, ?_⟩⟩
      simp only [List.mem_cons, Observation.consumed.injEq, reduceCtorEq, List.not_mem_nil,
        or_false] at hp
      exact hp.symm

end ProtoHopZ

namespace ProtoStream
variable {P : Primitives}

/-- **What a side has installed, and what its handshake has got**: packets that greet. -/
theorem Greeting.installs {greets : ReceivedPacket → Prop} {s s' : ProtoStream P} {e : Event P}
    {out : List Observation} (h : Greeting greets s) (hs : s.step e = some (s', out)) :
    (s'.transport.Installs →
      s.transport.Installs ∧ s'.transport.cryptoContext = s.transport.cryptoContext ∨
      ∃ r fault, greets r ∧ s.transport.cryptoContext.setPeerPublicKey fault
        (r.packet.payload.take x25519Len) = (none, s'.transport.cryptoContext)) ∧
      ∀ p, .transport (.consumed p) ∈ out → ∃ r, greets r ∧ r.packet = p := by
  cases stirs_step hs with
  | quiet queue drain stop htransport _ _ _ _ hout =>
      rw [htransport]
      exact ⟨fun hinstalls => Or.inl ⟨hinstalls, rfl⟩, fun p hp => absurd hp (hout _)⟩
  | sends hsame sends htransport hout =>
      rw [htransport]
      exact ⟨fun hinstalls => Or.inl ⟨hinstalls, rfl⟩, fun p hp => absurd hp (hout _)⟩
  | transport e' he hinternal shown hstep hsame hout =>
      subst hout
      simp only [List.mem_map, Observation.transport.injEq, exists_eq_right]
      cases hh : e'.handshakes with
      | false =>
          obtain ⟨hcontext, -, hframe⟩ := (ProtoHopZ.effect_step hstep).keys hh
          refine ⟨fun hinstalls => Or.inl ⟨?_, hcontext⟩, fun p hp => ?_⟩
          · unfold ProtoHopZ.Installs at hinstalls
            rwa [hframe] at hinstalls
          · exact absurd hp (ProtoHopZ.not_consumed_step hstep hh p)
      | true =>
          exact (ProtoHopZ.shakes_step hh hstep).installs fun role r queue => h.taken
  | starts now shown hidle hstart hclosing hshakes hout =>
      subst hout
      simp only [List.mem_map, Observation.transport.injEq, exists_eq_right]
      refine hshakes.installs fun role r queue hframe => ?_
      rw [show s.transport.handshake = _ from hframe] at hidle
      cases hidle

end ProtoStream

namespace Session
variable {P : Primitives}
open ProtoStream

/-- The packet is a `HANDSHAKE` packet of `air`, as it arrives. -/
def GreetedBy (air : List (Endpoint × Bytes)) (r : ReceivedPacket) : Prop :=
  ∃ (destination : Endpoint) (p : Packet), (destination, p.datagram) ∈ air ∧
    p.header.type = .handshake ∧ r.packet.header = p.header ∧ p.header.size.toNat = x25519Len ∧
    r.packet.payload.take x25519Len = p.data

theorem GreetedBy.append {air : List (Endpoint × Bytes)} {r : ReceivedPacket}
    (h : GreetedBy air r) (more : List (Endpoint × Bytes)) : GreetedBy (air ++ more) r := by
  obtain ⟨destination, p, hair, hrest⟩ := h
  exact ⟨destination, p, List.mem_append_left _ hair, hrest⟩

/-- The packet that an event lets arrive. -/
def arrivedPacket : ProtoStream.Event P → Option Packet
  | .transport (.datagram _ buffer bytes _ _) => some (buffer.receiveFrom bytes)
  | _ => none

/-- No `DATA` packet is the first to arrive at a side whose handshake waits. -/
def GreetedFirst (s : Session P) (e : Role × ProtoStream.Event P) : Prop :=
  ∀ p ∈ arrivedPacket e.2, p.header.type = .data → ¬ Ungreeted (s.stream e.1).transport

/-- **What arrives first is a `HANDSHAKE` packet of the peer.** -/
theorem greeted_arrives {address : Role → Endpoint} {s : Session P} {side : Role}
    {e : ProtoStream.Event P} {r : ReceivedPacket}
    (hpeer : Announcing (s.air side.peer) (s.stream side.peer).transport)
    (hhonest : Honest address s (side, e)) (hfirst : GreetedFirst s (side, e))
    (harrives : Arrives (s.stream side) e r) (hungreeted : Ungreeted (s.stream side).transport) :
    GreetedBy (s.air side.peer) r := by
  obtain ⟨remote, buffer, bytes, now, fault, rfl, -, haccepts⟩ := harrives
  have hair := (hhonest (remote, bytes) rfl).2
  have hdata : (buffer.receiveFrom bytes).header.type ≠ .data := fun htype =>
    hfirst _ rfl htype hungreeted
  cases haccepts with
  | plain htype => exact absurd htype hdata
  | decrypted htype => exact absurd htype hdata
  | handshake htype =>
      rcases hpeer.air _ _ hair with ⟨p, htame, heq⟩ | ⟨sequence, heq⟩
      · subst heq
        obtain ⟨hheader, hcarried⟩ :=
          @Packet.receiveFrom_datagram buffer p htame.ofByte htame.size
        rw [hheader] at htype
        obtain ⟨-, hsize, -⟩ := htame.2.resolve_left (by simp [htype])
        refine ⟨_, p, hair, htype, hheader, hsize, ?_⟩
        rw [← hcarried, Packet.data, hheader, hsize]
      · subst heq
        have hheader := (@Packet.receiveFrom_datagram buffer (ProtoHopZ.ackPacket sequence) rfl
          (Nat.zero_le _)).1
        rw [hheader] at htype
        cases htype

/-- The key installed is that of a `HANDSHAKE` packet of `air`. -/
def InstalledFrom (air : List (Endpoint × Bytes)) (context : CryptoContext P) : Prop :=
  ∃ (c : CryptoContext P) (fault : Option ErrorCode) (destination : Endpoint) (p : Packet),
    (destination, p.datagram) ∈ air ∧ p.header.type = .handshake ∧
      p.header.size.toNat = x25519Len ∧ c.setPeerPublicKey fault p.data = (none, context)

theorem InstalledFrom.append {air : List (Endpoint × Bytes)} {context : CryptoContext P}
    (h : InstalledFrom air context) (more : List (Endpoint × Bytes)) :
    InstalledFrom (air ++ more) context := by
  obtain ⟨c, fault, destination, p, hair, hrest⟩ := h
  exact ⟨c, fault, destination, p, List.mem_append_left _ hair, hrest⟩

/-- Two sides that shake hands. -/
structure Shaking (tr : List (Role × ProtoStream.Observation)) (s : Session P) : Prop where
  announcing : ∀ side, Announcing (s.air side) (s.stream side).transport
  greeting : ∀ side, Greeting (GreetedBy (s.air side.peer)) (s.stream side)
  installed : ∀ side, (s.stream side).transport.Installs →
    InstalledFrom (s.air side.peer) (s.stream side).transport.cryptoContext
  consumed : ∀ side p, .transport (.consumed p) ∈ shown side tr →
    p.header.type = .handshake ∧ p.header.size.toNat = x25519Len

theorem shaking_construct (address : Role → Endpoint) : Shaking [] (construct P address) where
  announcing side := by
    cases side with
    | initiator => exact announcing_construct _
    | responder => exact announcing_construct _
  greeting side := by
    cases side with
    | initiator => exact greeting_construct _ _ _
    | responder => exact greeting_construct _ _ _
  installed side h := by
    cases side with
    | initiator => rcases h with ⟨i, h⟩ | h <;> cases h
    | responder => rcases h with ⟨i, h⟩ | h <;> cases h
  consumed side p h := by cases h

/-- **The step lemma.** -/
theorem shaking_step {address : Role → Endpoint} {tr : List (Role × ProtoStream.Observation)}
    {s s' : Session P} {e : Role × ProtoStream.Event P}
    {out : List (Role × ProtoStream.Observation)} (h : Shaking tr s) (hhonest : Honest address s e)
    (hfirst : GreetedFirst s e) (hs : s.step e = some (s', out)) : Shaking (tr ++ out) s' := by
  obtain ⟨mover, e⟩ := e
  obtain ⟨shown', hmove, rfl, hpeer, hair, hairpeer⟩ := step_eq hs
  have hself := shown_append_self mover tr shown'
  have hother := shown_append_of_ne (Role.peer_ne mover).symm tr shown'
  have hgreeting := h.greeting mover
  obtain ⟨hinstalls, hconsumed⟩ := hgreeting.installs hmove
  refine ⟨fun side => ?_, fun side => ?_, fun side hside => ?_, fun side p hp => ?_⟩
  · rcases Role.eq_or_eq_peer side mover with rfl | rfl
    · rw [hair]
      exact (h.announcing side).step (moves_step hmove)
    · rw [hpeer, hairpeer]
      exact h.announcing _
  · rcases Role.eq_or_eq_peer side mover with rfl | rfl
    · rw [hairpeer]
      exact hgreeting.step hmove fun r => greeted_arrives (h.announcing side.peer) hhonest hfirst
    · have hold := h.greeting mover.peer
      rw [Role.peer_peer] at hold
      rw [hpeer, Role.peer_peer, hair]
      exact hold.weaken fun r hr => hr.append _
  · rcases Role.eq_or_eq_peer side mover with rfl | rfl
    · rw [hairpeer]
      rcases hinstalls hside with ⟨hbefore, hcontext⟩ | ⟨r, fault, hgreets, hset⟩
      · rw [hcontext]
        exact h.installed side hbefore
      · obtain ⟨destination, p, hp, htype, -, hsize, hdata⟩ := hgreets
        rw [hdata] at hset
        exact ⟨_, fault, destination, p, hp, htype, hsize, hset⟩
    · rw [hpeer] at hside ⊢
      have hold := h.installed mover.peer hside
      rw [Role.peer_peer] at hold ⊢
      rw [hair]
      exact hold.append _
  · rcases Role.eq_or_eq_peer side mover with rfl | rfl
    · rw [hself] at hp
      rcases List.mem_append.mp hp with hp | hp
      · exact h.consumed side p hp
      · obtain ⟨r, ⟨destination, q, -, htype, hheader, hsize, -⟩, rfl⟩ := hconsumed p hp
        rw [hheader]
        exact ⟨htype, hsize⟩
    · rw [hother] at hp
      exact h.consumed _ p hp

/-- A `HANDSHAKE` packet on the network carries its sender's public key. -/
theorem Announcing.key {air : List (Endpoint × Bytes)} {t : ProtoHopZ P} (h : Announcing air t)
    {destination : Endpoint} {p : Packet} (hair : (destination, p.datagram) ∈ air)
    (htype : p.header.type = .handshake) (hsize : p.header.size.toNat = x25519Len) :
    ∃ k, t.cryptoContext.Owns k ∧ p.data = P.publicKey k := by
  obtain ⟨hheader, hdata⟩ := @Packet.receiveFrom_datagram p p (by rw [htype]; rfl)
    (by rw [hsize]; decide)
  rcases h.air _ _ hair with ⟨q, htame, heq⟩ | ⟨sequence, heq⟩
  · obtain ⟨hheader', hdata'⟩ :=
      @Packet.receiveFrom_datagram p q htame.ofByte htame.size
    rw [heq, hheader'] at hheader
    rw [heq, hdata'] at hdata
    obtain ⟨-, -, k, hk, hcarried⟩ := htame.2.resolve_left (by simp [hheader, htype])
    exact ⟨k, hk, hdata.symm.trans hcarried⟩
  · have hack := (@Packet.receiveFrom_datagram p (ProtoHopZ.ackPacket sequence) rfl (Nat.zero_le _)).1
    rw [heq, hack] at hheader
    rw [← hheader] at htype
    cases htype

/-- What a side that has installed its peer's key holds. -/
theorem Shaking.installed_key {tr : List (Role × ProtoStream.Observation)} {s : Session P}
    (h : Shaking tr s) {side : Role}
    (hside : (s.stream side).transport.handshake = .returned none) :
    ∃ (c : CryptoContext P) (fault : Option ErrorCode) (k : P.PrivateKey),
      c.keyHandle = (s.stream side).transport.cryptoContext.keyHandle ∧
      c.ownPublicKey = (s.stream side).transport.cryptoContext.ownPublicKey ∧
      (s.stream side.peer).transport.cryptoContext.Owns k ∧
      c.setPeerPublicKey fault (P.publicKey k) =
        (none, (s.stream side).transport.cryptoContext) := by
  obtain ⟨c, fault, destination, p, hair, htype, hsize, hset⟩ := h.installed side (Or.inr hside)
  obtain ⟨k, hk, hdata⟩ := (h.announcing side.peer).key hair htype hsize
  obtain ⟨hhandle, hown, -⟩ := CryptoContext.keyHandle_setPeerPublicKey hset
  exact ⟨c, fault, k, hhandle.symm, hown.symm, hk, hdata ▸ hset⟩

/-- **The two handshakes agree.**  On every run over an honest network on which no `DATA`
packet is the first to arrive at a side that waits for its peer's packet: a handshake that has
succeeded has installed the payload of a `HANDSHAKE` packet that its peer has sent; once both
have, the two encryption keys are equal; and what a handshake takes from the queue is a
`HANDSHAKE` packet with a key, never `DATA`. -/
theorem handshakes_agree (hP : P.Lawful) {address : Role → Endpoint}
    {tr : List (Role × ProtoStream.Observation)} {s : Session P}
    (hrun : Transition.Run step (fun s e => Honest address s e ∧ GreetedFirst s e)
      (construct P address) tr s) :
    (∀ side, (s.stream side).transport.handshake = .returned none →
      ∃ (destination : Endpoint) (p : Packet), (destination, p.datagram) ∈ s.air side.peer ∧
        p.header.type = .handshake ∧
          (s.stream side).transport.cryptoContext.peerPublicKey = p.data) ∧
      ((∀ side, (s.stream side).transport.handshake = .returned none) →
        (s.stream .initiator).transport.cryptoContext.encryptionKey =
          (s.stream .responder).transport.cryptoContext.encryptionKey) ∧
      ∀ side p, .transport (.consumed p) ∈ shown side tr →
        p.header.type = .handshake ∧ p.header.size.toNat = x25519Len := by
  have h : Shaking tr s := by
    refine hrun.invariant (I := Shaking) (shaking_construct address) ?_
    intro tr s e s' out ih hok hs
    exact shaking_step ih hok.1 hok.2 hs
  refine ⟨fun side hside => ?_, fun hboth => ?_, h.consumed⟩
  · obtain ⟨c, fault, destination, p, hair, htype, -, hset⟩ := h.installed side (Or.inr hside)
    exact ⟨destination, p, hair, htype, (CryptoContext.keyHandle_setPeerPublicKey hset).2.2⟩
  · obtain ⟨c, fc, b, hc, hcown, hb, hcset⟩ := h.installed_key (hboth .initiator)
    obtain ⟨d, fd, a, hd, hdown, ha, hdset⟩ := h.installed_key (hboth .responder)
    exact CryptoContext.encryptionKey_agree hP (hc.trans ha.1) (hcown.trans ha.2)
      (hd.trans hb.1) (hdown.trans hb.2) hcset hdset

/-! ## Two handshakes -/

instance (t : ProtoHopZ P) : Decidable t.Waiting :=
  match h : t.handshake with
  | .sending .initiator i => isTrue (Or.inl ⟨i, h⟩)
  | .receiving role => isTrue (Or.inr ⟨role, h⟩)
  | .idle | .sending .responder _ | .returned _ => isFalse (by simp [ProtoHopZ.Waiting, h])

instance (t : ProtoHopZ P) : Decidable (Ungreeted t) :=
  inferInstanceAs (Decidable (_ ∧ _ ∧ _ = []))

instance (s : Session P) (e : Role × ProtoStream.Event P) : Decidable (GreetedFirst s e) :=
  inferInstanceAs (Decidable (∀ p ∈ arrivedPacket e.2, _))

/-- The `HANDSHAKE` packet of the side whose private key is `k`. -/
def sampleGreeting (k : UInt8) : Packet :=
  (Packet.blank { type := .handshake, size := 0, sequence := 0 }).copyIn
    (Primitives.additive.publicKey k)

/-- A call of `send_packet` that was posted puts its packet on the network. -/
def samplePosted (side : Role) (i : Nat) : List (Role × ProtoStream.Event .additive) :=
  [(side, .transport (.resumeSend i none .zero 0)), (side, .transport (.transmitSend i)),
    (side, .transport (.finishSend i none))]

/-- Both sides call `start_loops`; the responder gets the initiator's `HANDSHAKE` packet,
sends its own, and its handshake returns. -/
def sampleGreetings : List (Role × ProtoStream.Event .additive) :=
  [(.responder, .callStartLoops 0 none (5 : UInt8) 0),
    (.initiator, .callStartLoops 0 none (3 : UInt8) 0)] ++ samplePosted .initiator 0 ++
  [(.initiator, .transport .resumeHandshakeSend), sampleArrivalAt .responder (sampleGreeting 3),
    (.responder, .transport (.resumeHandshakeReceive none 0))] ++ samplePosted .responder 0 ++
  [(.responder, .transport .resumeHandshakeSend), (.responder, .resumeStartLoops)]

/-- The initiator gets the packet, and its handshake takes what is first in its queue. -/
def sampleReply (packet : Packet) : List (Role × ProtoStream.Event .additive) :=
  [sampleArrivalAt .initiator packet, (.initiator, .transport (.resumeHandshakeReceive none 1))]

/-- Two handshakes whose packets arrive in order. -/
theorem handshakes_agree_once : ∃ tr s,
    Transition.Run step (fun s e => Honest sampleAddress s e ∧ GreetedFirst s e)
        (construct .additive sampleAddress) tr s ∧
      (s.stream .initiator).transport.cryptoContext.encryptionKey =
        (s.stream .responder).transport.cryptoContext.encryptionKey := by
  obtain ⟨tr, s, hrun, hp⟩ := Transition.exists_run step
    (fun s e => Honest sampleAddress s e ∧ GreetedFirst s e) (construct .additive sampleAddress)
    (sampleGreetings ++ sampleReply (sampleGreeting 5))
    (fun _ s => decide (∀ side, (s.stream side).transport.handshake = .returned none))
    (fun s e => decide (Honest sampleAddress s e ∧ GreetedFirst s e))
    (fun _ _ h => of_decide_eq_true h) (by decide +kernel)
  exact ⟨tr, s, hrun,
    (handshakes_agree Primitives.additive_lawful hrun).2.1 (of_decide_eq_true hp)⟩

/-- The key the responder has once it has got the initiator's `HANDSHAKE` packet. -/
def sampleAgreedKey : Bytes :=
  Primitives.additive.hkdf [8]
    (CryptoContext.salt (Primitives.additive.publicKey (3 : UInt8))
      (Primitives.additive.publicKey (5 : UInt8)))
    CryptoContext.keyPurposeLabel

/-- Four bytes are 32 bytes when they are encrypted: as many as a key has. -/
def sampleEarlyPacket : Packet :=
  ((dataPacket [1, 2, 3, 4]).withSequence 1).copyIn
    (CryptoContext.frame .additive sampleAgreedKey .zero [1, 2, 3, 4])

/-- The packet that a handshake takes for the peer's key in `o`. -/
def consumedIn : ProtoStream.Observation → Option Packet
  | .transport (.consumed p) => some p
  | _ => none

theorem eq_of_consumedIn {o : ProtoStream.Observation} {p : Packet} (h : consumedIn o = some p) :
    o = .transport (.consumed p) := by
  unfold consumedIn at h
  split at h
  · rw [Option.some.inj h]
  · cases h

/-- **A `DATA` packet is installed as a key.**  The responder sends four bytes when its
handshake has returned, and they arrive before its `HANDSHAKE` packet: the initiator's
handshake takes them for a public key and succeeds, with another encryption key. -/
theorem data_installed : ∃ tr s p,
    Transition.Run step (Honest sampleAddress) (construct .additive sampleAddress) tr s ∧
      (∀ side, (s.stream side).transport.handshake = .returned none) ∧
      .transport (.consumed p) ∈ shown .initiator tr ∧ p.header.type = .data ∧
      (s.stream .initiator).transport.cryptoContext.peerPublicKey = p.data ∧
      (s.stream .initiator).transport.cryptoContext.encryptionKey ≠
        (s.stream .responder).transport.cryptoContext.encryptionKey := by
  obtain ⟨tr, s, hrun, hp⟩ := Transition.exists_run step (Honest sampleAddress)
    (construct .additive sampleAddress)
    (sampleGreetings ++ (.responder, .send 1 [1, 2, 3, 4]) :: samplePosted .responder 1 ++
      sampleReply sampleEarlyPacket)
    (fun tr s => decide (∀ side, (s.stream side).transport.handshake = .returned none) &&
      ((shown .initiator tr).any fun o => (consumedIn o).any fun p : Packet =>
        decide (p.header.type = .data ∧
          (s.stream .initiator).transport.cryptoContext.peerPublicKey = p.data)) &&
      decide ((s.stream .initiator).transport.cryptoContext.encryptionKey ≠
        (s.stream .responder).transport.cryptoContext.encryptionKey))
    (fun s e => decide (Honest sampleAddress s e))
    (fun _ _ h => of_decide_eq_true h) (by decide +kernel)
  rw [Bool.and_eq_true, Bool.and_eq_true, List.any_eq_true] at hp
  obtain ⟨⟨hreturned, o, ho, hconsumed⟩, hkeys⟩ := hp
  obtain ⟨p, hp, hconsumed⟩ := (Option.any_eq_true _ _).mp hconsumed
  obtain rfl := eq_of_consumedIn hp
  obtain ⟨htype, hkey⟩ := of_decide_eq_true hconsumed
  exact ⟨tr, s, p, hrun, of_decide_eq_true hreturned, ho, htype, hkey, of_decide_eq_true hkeys⟩

end Session
end FileHopZ
