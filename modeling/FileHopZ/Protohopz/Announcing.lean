import FileHopZ.Protohopz.Handshake
import FileHopZ.Protohopz.Session

/-! # What a side sends until it is known

A side generates one key pair, when its handshake begins.  Whatever `HANDSHAKE` packet it
puts on the network carries the public key of that pair, unencrypted: the handshake sends
its packet before `connection_encrypted_` is set.  Everything else a side sends is `DATA`,
or an acknowledgement.
-/
namespace FileHopZ

namespace CryptoContext
variable {P : Primitives}

/-- The context has the key pair of `k`. -/
def Owns (c : CryptoContext P) (k : P.PrivateKey) : Prop :=
  c.keyHandle = some k ∧ c.ownPublicKey = P.publicKey k

end CryptoContext

namespace ProtoHopZ
variable {P : Primitives}

/-- The packet is `DATA`, or a `HANDSHAKE` packet with the own public key. -/
def Tame (context : CryptoContext P) (p : Packet) : Prop :=
  p.header.size.toNat ≤ packetSize ∧ (p.header.type = .data ∨
    p.header.type = .handshake ∧ p.header.size.toNat = x25519Len ∧
      ∃ k, context.Owns k ∧ p.data = P.publicKey k)

theorem Tame.size {context : CryptoContext P} {p : Packet} (h : Tame context p) :
    p.header.size.toNat ≤ packetSize := h.1

/-- The type of a packet that is sent survives the wire. -/
theorem Tame.ofByte {context : CryptoContext P} {p : Packet} (h : Tame context p) :
    PacketType.ofByte p.header.type.toByte = p.header.type := by
  rcases h.2 with htype | ⟨htype, -⟩
  · rw [htype]
    rfl
  · rw [htype]
    rfl

theorem Tame.congr {context context' : CryptoContext P} {p : Packet} (h : Tame context p)
    (hkept : context.keyHandle = none ∨
      context'.keyHandle = context.keyHandle ∧ context'.ownPublicKey = context.ownPublicKey) :
    Tame context' p := by
  refine ⟨h.1, h.2.imp_right fun ⟨htype, hsize, k, hk, hdata⟩ => ⟨htype, hsize, k, ?_, hdata⟩⟩
  rcases hkept with hnone | ⟨hhandle, hown⟩
  · rw [hk.1] at hnone
    cases hnone
  · exact ⟨hhandle.trans hk.1, hown.trans hk.2⟩

theorem tame_selfHandshakePacket {t : ProtoHopZ P} {k : P.PrivateKey}
    (hk : t.cryptoContext.Owns k) : Tame t.cryptoContext t.selfHandshakePacket := by
  have hlength : t.cryptoContext.ownPublicKey.length = x25519Len := by
    rw [hk.2, P.publicKey_length]
  have hfit : t.cryptoContext.ownPublicKey.length ≤ packetSize := by
    rw [hlength]
    decide
  refine ⟨?_, Or.inr ⟨rfl, ?_, k, hk, ?_⟩⟩
  · exact (Packet.copyIn_size hfit).le.trans hfit
  · exact (Packet.copyIn_size hfit).trans hlength
  · exact (Packet.copyIn_data hfit).trans hk.2

/-- Encryption makes no `HANDSHAKE` packet, and leaves what is sent before it as it is. -/
theorem tame_encryptPacket {t : ProtoHopZ P} {fault : Option ErrorCode} {nonce : Nonce}
    {source packet : Packet} {sequence : UInt32} (hsource : Tame t.cryptoContext source)
    (hplain : source.header.type = .handshake → t.connectionEncrypted = false)
    (h : t.encryptPacket fault nonce (source.withSequence sequence) = .ok packet) :
    Tame t.cryptoContext packet := by
  unfold encryptPacket at h
  split_ifs at h with henc
  · obtain rfl := Except.ok.inj h
    exact hsource
  · split at h
    · cases h
    · rename_i result hresult
      split_ifs at h with hfit
      obtain rfl := Except.ok.inj h
      refine ⟨(Packet.copyIn_size (not_lt.mp hfit)).le.trans (not_lt.mp hfit), Or.inl ?_⟩
      exact hsource.2.resolve_right fun hhandshake => henc (hplain hhandshake.1)

/-- The handshake has its key pair, and sends its packet unencrypted. -/
structure Greets (t : ProtoHopZ P) : Prop where
  idle : t.handshake = .idle → t.cryptoContext.keyHandle = none
  generated : t.handshake ≠ .idle → (∀ ec, t.handshake ≠ .returned (some ec)) →
    ∃ k, t.cryptoContext.Owns k
  encrypted : t.connectionEncrypted = true ↔ t.handshake = .returned none
  busy : ∀ i p, t.Intends i p → p.header.type = .handshake →
    (∃ role, t.handshake = .sending role i) ∨ ∃ ec, t.handshake = .returned (some ec)

theorem Greets.plain {t : ProtoHopZ P} (h : Greets t) {i : Nat} {p : Packet}
    (hi : t.Intends i p) (htype : p.header.type = .handshake) : t.connectionEncrypted = false := by
  by_contra henc
  have hreturned := h.encrypted.mp (by simpa using henc)
  rcases h.busy i p hi htype with ⟨role, hframe⟩ | ⟨ec, hframe⟩
  · rw [hreturned] at hframe
    cases hframe
  · rw [hreturned] at hframe
    cases hframe

/-- What a step of the handshake does to the own key pair. -/
theorem Shakes.kept {t t' : ProtoHopZ P} {out : List Observation} (h : Shakes t t' out) :
    t.handshake = .idle ∨ t'.cryptoContext.keyHandle = t.cryptoContext.keyHandle ∧
      t'.cryptoContext.ownPublicKey = t.cryptoContext.ownPublicKey := by
  cases h with
  | failed | sentInitiator | sentResponder | interrupted => exact Or.inr ⟨rfl, rfl⟩
  | begunInitiator _ _ hframe | begunResponder _ hframe => exact Or.inl hframe
  | rejected role r queue ec context hframe htake herror hreason =>
      rcases hreason with ⟨-, rfl, -⟩ | ⟨-, fault, hset⟩
      · exact Or.inr ⟨rfl, rfl⟩
      · obtain ⟨hhandle, hown, -⟩ := CryptoContext.keyHandle_setPeerPublicKey hset
        exact Or.inr ⟨hhandle, hown⟩
  | installedInitiator r queue fault context hframe htake herror hsize hset
  | installedResponder i r queue fault context hframe htake herror hsize hset =>
      obtain ⟨hhandle, hown, -⟩ := CryptoContext.keyHandle_setPeerPublicKey hset
      exact Or.inr ⟨hhandle, hown⟩

/-- A handshake that goes on has, or gets, its key pair. -/
theorem Shakes.generated {t t' : ProtoHopZ P} {out : List Observation} (h : Shakes t t' out)
    (hold : t.handshake ≠ .idle → (∀ ec, t.handshake ≠ .returned (some ec)) →
      ∃ k, t.cryptoContext.Owns k) (hgoes : ∀ ec, t'.handshake ≠ .returned (some ec)) :
    ∃ k, t'.cryptoContext.Owns k := by
  have hreturned := h.not_returned
  by_cases hidle : t.handshake = .idle
  · cases h with
    | begunInitiator generated | begunResponder generated => exact ⟨generated, rfl, rfl⟩
    | failed ec => exact absurd rfl (hgoes ec)
    | sentInitiator _ hframe | sentResponder _ hframe | interrupted _ _ _ _ hframe
    | rejected _ _ _ _ _ hframe | installedInitiator _ _ _ _ hframe
    | installedResponder _ _ _ _ _ hframe =>
        rw [hidle] at hframe
        cases hframe
  · obtain ⟨k, hk⟩ := hold hidle fun ec => hreturned (some ec)
    obtain ⟨hhandle, hown⟩ := h.kept.resolve_left hidle
    exact ⟨k, hhandle.trans hk.1, hown.trans hk.2⟩

/-- **The step lemma** of the handshake's own side. -/
theorem Greets.shake {t t' : ProtoHopZ P} {out : List Observation} (h : Greets t)
    (hs : Shakes t t' out) (hintends : ∀ i p, t'.Intends i p → t.Intends i p ∨
      ∃ role, t'.handshake = .sending role i) : Greets t' where
  idle hidle := by
    cases hs <;> cases hidle
  generated _ hgoes := hs.generated h.generated hgoes
  encrypted := by
    refine ProtoStream.Shakes.encrypted hs ?_
    by_contra henc
    exact hs.not_returned none (h.encrypted.mp (by simpa using henc))
  busy i p hi htype := by
    rcases hintends i p hi with hold | hrole
    · -- the call was made before: it is the one the handshake is waiting for
      rcases h.busy i p hold htype with ⟨role, hframe⟩ | ⟨ec, hframe⟩
      · cases hs with
        | failed ec => exact Or.inr ⟨ec, rfl⟩
        | sentInitiator j hj hsent | sentResponder j hj hsent =>
            obtain ⟨-, rfl⟩ := HandshakeFrame.sending.inj (hframe.symm.trans hj)
            rcases hold with hold | hold
            · rw [hsent] at hold
              cases hold
            · rw [hsent] at hold
              cases hold
        | begunInitiator _ _ hj | begunResponder _ hj | interrupted _ _ _ _ hj
        | rejected _ _ _ _ _ hj | installedInitiator _ _ _ _ hj
        | installedResponder _ _ _ _ _ hj =>
            rw [hframe] at hj
            cases hj
      · exact absurd hframe (hs.not_returned (some ec))
    · exact Or.inl hrole

end ProtoHopZ

namespace Session
variable {P : Primitives}
open ProtoStream

/-- What a side has, intends to send and has sent. -/
structure Announcing (air : List (Endpoint × Bytes)) (t : ProtoHopZ P) : Prop where
  greets : t.Greets
  intends : ∀ i p, t.Intends i p → ProtoHopZ.Tame t.cryptoContext p
  holds : ∀ p, t.Holds p → ProtoHopZ.Tame t.cryptoContext p
  air : ∀ destination bytes, (destination, bytes) ∈ air →
    (∃ p, ProtoHopZ.Tame t.cryptoContext p ∧ bytes = p.datagram) ∨
      ∃ sequence, bytes = (ProtoHopZ.ackPacket sequence).datagram

theorem announcing_construct (peer : Endpoint) : Announcing [] (ProtoHopZ.construct P peer) where
  greets := by
    refine ⟨fun _ => rfl, fun h => absurd rfl h, by simp [ProtoHopZ.construct], ?_⟩
    rintro i p (h | h)
    · cases h
    · cases h
  intends i p h := by rcases h with h | h <;> cases h
  holds p h := by rcases h with ⟨s, l, h, -⟩ | ⟨i, b, h⟩ | ⟨b, rest, h⟩ <;> cases h
  air _ _ h := absurd h List.not_mem_nil

theorem tame_dataPacket {context : CryptoContext P} {data : Bytes}
    (h : data.length ≤ packetPayloadSize) : ProtoHopZ.Tame context (dataPacket data) := by
  have hfit : data.length ≤ packetSize := h.trans (by decide)
  exact ⟨(Packet.copyIn_size hfit).le.trans hfit, Or.inl rfl⟩

/-- A step of the transport that does what `Effect` says. -/
theorem Announcing.effect {air : List (Endpoint × Bytes)} {t t' : ProtoHopZ P}
    {e : ProtoHopZ.Event P} {shown : List FileHopZ.Observation} (h : Announcing air t)
    (hgreets : t'.Greets)
    (hkept : t.cryptoContext.keyHandle = none ∨
      t'.cryptoContext.keyHandle = t.cryptoContext.keyHandle ∧
        t'.cryptoContext.ownPublicKey = t.cryptoContext.ownPublicKey)
    (heffect : ProtoHopZ.Effect t e t' shown)
    (hsend : ∀ i p, e = .sendPacket i p →
      ∃ data, data.length ≤ packetPayloadSize ∧ p = dataPacket data) :
    Announcing (air ++ emitted (shown.map .transport)) t' where
  greets := hgreets
  intends i p hi := by
    rcases heffect.intends i p hi with hi | he | ⟨-, rfl, role, hframe⟩
    · exact (h.intends i p hi).congr hkept
    · obtain ⟨data, hlength, rfl⟩ := hsend i p he
      exact tame_dataPacket hlength
    · obtain ⟨k, hk⟩ := hgreets.generated (by simp [hframe]) (by simp [hframe])
      exact ProtoHopZ.tame_selfHandshakePacket hk
  holds p hp := by
    rcases heffect.holds p hp with hp | ⟨i, plaintext, hi⟩
    · exact (h.holds p hp).congr hkept
    · rcases heffect.registers with ⟨hnone, -⟩ | ⟨j, source, fault, nonce, packet, hsource, hpacket,
        rfl, -⟩
      · exact absurd hi (hnone i p plaintext)
      · simp only [List.mem_cons, reduceCtorEq, Observation.registered.injEq, List.not_mem_nil,
          or_false, false_or] at hi
        obtain ⟨rfl, rfl, rfl⟩ := hi
        exact (ProtoHopZ.tame_encryptPacket (h.intends _ _ hsource)
          (fun htype => h.greets.plain hsource htype) hpacket).congr hkept
  air destination bytes hb := by
    rcases List.mem_append.mp hb with hb | hb
    · exact (h.air _ _ hb).imp_left fun ⟨p, hp, heq⟩ => ⟨p, hp.congr hkept, heq⟩
    · have hb := mem_emitted.mp hb
      simp only [List.mem_map, Observation.transport.injEq, exists_eq_right] at hb
      rcases heffect.transmits _ _ hb with ⟨p, hp, heq⟩ | ⟨_, buffer, _, _, _, -, heq, -⟩
      · exact Or.inl ⟨p, (h.holds p hp).congr hkept, heq⟩
      · exact Or.inr ⟨_, heq⟩

/-- **The step lemma** of what a side sends. -/
theorem Announcing.step {air : List (Endpoint × Bytes)} {s s' : ProtoStream P}
    {e : ProtoStream.Event P} {out : List ProtoStream.Observation}
    (h : Announcing air s.transport) (hs : Moves s e s' out) :
    Announcing (air ++ emitted out) s'.transport := by
  cases hs with
  | chunk he r queue queue' htake hqueue htransport hout =>
      have hnone : emitted out = [] := by
        rcases hout with ⟨-, rfl, -⟩ | ⟨-, rfl, -⟩
        · rfl
        · exact emitted_chunks _
      rw [hnone, List.append_nil, htransport]
      exact ⟨⟨h.greets.idle, h.greets.generated, h.greets.encrypted, h.greets.busy⟩, h.intends,
        h.holds, h.air⟩
  | transport e' shown heffect hdatagram hsend hhandshake hshakes hstop htake hexpected hbuffer hout =>
      have hshown : emitted out = emitted (shown.map .transport) := by
        rcases hout with rfl | ⟨rfl, hquiet⟩
        · rfl
        · exact emitted_quiet hquiet
      rw [hshown]
      cases hh : e'.handshakes with
      | false =>
          obtain ⟨hcontext, hencrypted, hframe⟩ := heffect.keys hh
          refine h.effect ?_ (Or.inr ⟨by rw [hcontext], by rw [hcontext]⟩) heffect hsend
          refine ⟨?_, ?_, ?_, fun i p hi htype => ?_⟩
          · rw [hframe, hcontext]
            exact h.greets.idle
          · rw [hframe, hcontext]
            exact h.greets.generated
          · rw [hframe, hencrypted]
            exact h.greets.encrypted
          · rw [hframe]
            rcases heffect.intends i p hi with hi | he | ⟨hno, -⟩
            · exact h.greets.busy i p hi htype
            · obtain ⟨data, -, rfl⟩ := hsend i p he
              cases htype
            · rw [hh] at hno
              cases hno
      | true =>
          obtain ⟨t, ht, hstep, -⟩ := hshakes hh
          have hshake := ProtoHopZ.shakes_step hh hstep
          have hsame : t.cryptoContext = s.transport.cryptoContext ∧
              t.connectionEncrypted = s.transport.connectionEncrypted ∧
              t.handshake = s.transport.handshake ∧ t.sends = s.transport.sends := by
            rcases ht with rfl | ⟨now, rfl⟩
            · exact ⟨rfl, rfl, rfl, rfl⟩
            · exact ⟨rfl, rfl, rfl, rfl⟩
          obtain ⟨hcontext, hencrypted, hframe, hsends⟩ := hsame
          have hgreets : t.Greets := by
            refine ⟨?_, ?_, ?_, ?_⟩
            · rw [hframe, hcontext]
              exact h.greets.idle
            · rw [hframe, hcontext]
              exact h.greets.generated
            · rw [hframe, hencrypted]
              exact h.greets.encrypted
            · unfold ProtoHopZ.Intends
              rw [hframe, hsends]
              exact h.greets.busy
          have hkept := hshake.kept
          rw [hcontext, hframe] at hkept
          refine h.effect (hgreets.shake hshake fun i p hi => ?_)
            (hkept.imp_left h.greets.idle) heffect hsend
          rcases heffect.intends i p hi with hi | he | ⟨-, -, hrole⟩
          · left
            unfold ProtoHopZ.Intends at hi ⊢
            rwa [hsends]
          · subst he
            cases hh
          · exact Or.inr hrole

end Session
end FileHopZ
