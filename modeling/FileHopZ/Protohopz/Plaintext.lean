import FileHopZ.Protohopz.ChunkSize
import FileHopZ.Protohopz.Handshake

/-! # What is delivered was decrypted

`connection_encrypted_` is set by the handshake, after several suspensions, while
`receive_loop` goes on queueing what arrives.  A `DATA` packet that arrives before
is queued as it is, without any authentication.  The queue hands packets over in
order, so `receive_chunks_loop` meets all of these before any that was decrypted,
with `expected_sequence` still 1.

So nothing but decrypted payloads is delivered as long as the queue holds no
undecrypted `DATA` packet from within the first window when the loop is started
(`StartsClean`, `pushed_decrypted`); with one it delivers plaintext
(`plaintext_pushed`).
-/
namespace FileHopZ
namespace ProtoStream
variable {P : Primitives}

/-- The packet was decrypted with the key in `context`. -/
def Opened (context : CryptoContext P) (r : ReceivedPacket) : Prop :=
  ∃ fault received, r.origin = some received ∧
    context.decryptData fault received = .ok r.packet.data ∧
    r.packet.header.size.toNat = r.packet.data.length

/-- The packet lies outside the first window. -/
def Outside (r : ReceivedPacket) : Prop :=
  r.packet.header.sequence = 0 ∨ 1 + maxPacketsBuffer < r.packet.header.sequence.toNat

/-- When `start_loops` starts `receive_chunks_loop`, the undecrypted `DATA` packets
in the queue lie outside its first window. -/
def StartsClean (s : ProtoStream P) (e : Event P) : Prop :=
  match e with
  | .resumeStartLoops => s.transport.handshake = .returned none →
      ∀ r ∈ s.transport.receivedPacketsQueue.contents,
        r.packet.header.type = .data → r.origin = none → Outside r
  | _ => True

instance (r : ReceivedPacket) : Decidable (Outside r) :=
  inferInstanceAs (Decidable (_ ∨ _))

instance (s : ProtoStream P) (e : Event P) : Decidable (StartsClean s e) :=
  match e with
  | .resumeStartLoops => inferInstanceAs (Decidable (_ → ∀ r ∈ _, _ → _ → Outside r))
  | .transport _ | .callStartLoops _ _ _ _ | .send _ _ | .receive _ | .resumeReceive _
  | .resumeReceiveChunks | .abortReceiveChunks | .receiveChunksResult | .close | .resumeClose
  | .finishClose => .isTrue trivial

/-- What is in the queue: `DATA` packets that were queued undecrypted, then decrypted
ones. -/
structure PlainFirst (s : ProtoStream P) (early late : List ReceivedPacket) : Prop where
  contents : s.transport.receivedPacketsQueue.contents = early ++ late
  undecrypted : ∀ r ∈ early, r.packet.header.type = .data → r.origin = none
  decrypted : ∀ r ∈ late, r.packet.header.type = .data → r.origin ≠ none
  plain : s.transport.connectionEncrypted = false → late = []
  outside : s.receiveChunksLoop ≠ .idle → ∀ r ∈ early, r.packet.header.type = .data → Outside r
  expected : early ≠ [] → s.expectedSequence = 1

/-- The invariant. -/
structure Opening (tr : List Observation) (s : ProtoStream P) : Prop where
  single : Single s
  encrypted : s.transport.connectionEncrypted = true ↔ s.transport.handshake = .returned none
  putting : Putting (fun r => r.origin ≠ none → Opened s.transport.cryptoContext r)
    (Opened s.transport.cryptoContext) (ordered tr) s
  start : s.receiveChunksLoop = .idle →
    ordered tr = [] ∧ s.packetsBuffer = ∅ ∧ s.expectedSequence = 1
  first : ∃ early late, PlainFirst s early late

theorem opening_start (peerEndpoint : Endpoint) (mode : Role) :
    Opening [] (construct P peerEndpoint mode) where
  single := single_construct peerEndpoint mode
  encrypted := by simp [construct, ProtoHopZ.construct]
  putting := putting_construct peerEndpoint mode
  start _ := ⟨rfl, rfl, rfl⟩
  first := ⟨[], [], rfl, by simp, by simp, fun _ => rfl, by simp, by simp⟩

theorem opened_of_accepts {encrypted : Bool} {context : CryptoContext P} {packet : Packet}
    {r : ReceivedPacket} (hsize : packet.header.size.toNat ≤ packetSize)
    (h : ProtoHopZ.Accepts encrypted context packet r) (htype : r.packet.header.type = .data) :
    (encrypted = true → r.origin ≠ none) ∧ (encrypted = false → r.origin = none) ∧
      (r.origin ≠ none → Opened context r) := by
  cases h with
  | handshake hhs =>
      rw [show packet.header.type = _ from htype] at hhs
      cases hhs
  | plain _ henc => exact ⟨by simp [henc], fun _ => rfl, fun h => absurd rfl h⟩
  | decrypted _ henc hresult =>
      rename_i fault result
      have hlength := (CryptoContext.length_of_decryptData hresult).1
      rw [Packet.length_data hsize] at hlength
      have hfit : result.length ≤ packetSize := by omega
      refine ⟨by simp, by simp [henc], fun _ => ⟨fault, packet.data, rfl, ?_, ?_⟩⟩
      · rw [Packet.copyIn_data hfit]
        exact hresult
      · rw [Packet.copyIn_data hfit, Packet.copyIn_size hfit]

/-- A packet outside the first window is not the one that is due. -/
theorem Outside.not_takes {buffer : PacketsBuffer} {r : ReceivedPacket} (h : Outside r) :
    ¬ Takes 1 buffer r := by
  intro ht
  obtain ⟨hlow, hhigh, -⟩ := ht.window
  rcases h with hzero | hfar
  · rw [hzero] at hlow
    exact absurd hlow (by decide)
  · have : (1 : UInt32).toNat = 1 := rfl
    omega

/-- `receive_chunks_loop` takes only packets that were decrypted. -/
theorem PlainFirst.decrypted_of_takes {s : ProtoStream P} {early late : List ReceivedPacket}
    (h : PlainFirst s early late) (hloop : s.receiveChunksLoop ≠ .idle) {r : ReceivedPacket}
    {rest : List ReceivedPacket} (hhead : s.transport.receivedPacketsQueue.contents = r :: rest)
    (ht : Takes s.expectedSequence s.packetsBuffer r) : early = [] ∧ r.origin ≠ none := by
  rw [h.contents] at hhead
  cases early with
  | cons q early =>
      obtain ⟨rfl, -⟩ := List.cons.inj hhead
      rw [h.expected (by simp)] at ht
      exact absurd ht (h.outside hloop q List.mem_cons_self ht.1).not_takes
  | nil => exact ⟨rfl, h.decrypted r (by rw [← List.nil_append late, hhead]; simp) ht.1⟩

/-- The oldest packet leaves the queue. -/
theorem PlainFirst.tail {s s' : ProtoStream P} {early late : List ReceivedPacket}
    (h : PlainFirst s early late) {r : ReceivedPacket}
    (hcontents : s.transport.receivedPacketsQueue.contents =
      r :: s'.transport.receivedPacketsQueue.contents)
    (hplain : s'.transport.connectionEncrypted = false → s.transport.connectionEncrypted = false)
    (hloop : s'.receiveChunksLoop ≠ .idle →
      ∀ r ∈ early, r.packet.header.type = .data → Outside r)
    (hexpected : early ≠ [] → s'.expectedSequence = s.expectedSequence) :
    ∃ early late, PlainFirst s' early late := by
  rw [h.contents] at hcontents
  cases early with
  | nil =>
      cases late with
      | nil => cases hcontents
      | cons q late =>
          refine ⟨[], late, (List.cons.inj hcontents).2.symm, by simp,
            fun r hr => h.decrypted r (List.mem_cons_of_mem _ hr), fun hp => ?_, by simp, by simp⟩
          have := h.plain (hplain hp)
          cases this
  | cons q early =>
      refine ⟨early, late, (List.cons.inj hcontents).2.symm,
        fun r hr => h.undecrypted r (List.mem_cons_of_mem _ hr), h.decrypted, fun hp => h.plain (hplain hp),
        fun hne r hr => hloop hne r (List.mem_cons_of_mem _ hr), fun _ => ?_⟩
      rw [hexpected (by simp)]
      exact h.expected (by simp)

/-- A packet joins the queue. -/
theorem PlainFirst.push {s s' : ProtoStream P} {early late : List ReceivedPacket}
    (h : PlainFirst s early late) {r : ReceivedPacket}
    (hcontents : s'.transport.receivedPacketsQueue.contents =
      s.transport.receivedPacketsQueue.contents ++ [r])
    (hr : r.packet.header.type = .data →
      (s.transport.connectionEncrypted = true → r.origin ≠ none) ∧
        (s.transport.connectionEncrypted = false → r.origin = none))
    (hplain : s'.transport.connectionEncrypted = false → s.transport.connectionEncrypted = false)
    (hidle : s.transport.connectionEncrypted = false →
      s'.receiveChunksLoop = .idle ∧ s'.expectedSequence = 1)
    (hloop : s'.receiveChunksLoop ≠ .idle →
      ∀ r ∈ early, r.packet.header.type = .data → Outside r)
    (hexpected : s'.expectedSequence = s.expectedSequence) :
    ∃ early late, PlainFirst s' early late := by
  cases henc : s.transport.connectionEncrypted with
  | false =>
      obtain rfl := h.plain henc
      obtain ⟨hidle, hone⟩ := hidle henc
      refine ⟨early ++ [r], [], ?_, ?_, by simp, fun _ => rfl, fun hne => absurd hidle hne,
        fun _ => hone⟩
      · rw [hcontents, h.contents, List.append_nil, List.append_nil]
      · intro q hq htype
        rcases List.mem_append.mp hq with hq | hq
        · exact h.undecrypted q hq htype
        · obtain rfl := List.mem_singleton.mp hq
          exact (hr htype).2 henc
  | true =>
      refine ⟨early, late ++ [r], ?_, h.undecrypted, ?_, fun hp => ?_, hloop, fun hne => ?_⟩
      · rw [hcontents, h.contents, List.append_assoc]
      · intro q hq htype
        rcases List.mem_append.mp hq with hq | hq
        · exact h.decrypted q hq htype
        · obtain rfl := List.mem_singleton.mp hq
          exact (hr htype).1 henc
      · rw [hplain hp] at henc
        cases henc
      · rw [hexpected]
        exact h.expected hne

/-- What a step makes of the queue. -/
theorem PlainFirst.step {s s' : ProtoStream P} {e : Event P} {out : List Observation}
    {early late : List ReceivedPacket} (h : PlainFirst s early late) (hsingle : Single s)
    (hclean : StartsClean s e) (hs : s.step e = some (s', out))
    (hencrypted : s.transport.connectionEncrypted = true ↔ s.transport.handshake = .returned none)
    (hplain : s'.transport.connectionEncrypted = false → s.transport.connectionEncrypted = false)
    (hstart : s.receiveChunksLoop = .idle → s.expectedSequence = 1) :
    ∃ early late, PlainFirst s' early late := by
  have hloop := loop_step hs
  have houtside : s'.receiveChunksLoop ≠ .idle →
      ∀ r ∈ early, r.packet.header.type = .data → Outside r := by
    intro hne r hr htype
    rcases hloop with ⟨-, hidle⟩ | ⟨-, rfl, hreturned⟩ | ⟨hbefore, -⟩
    · exact absurd hidle hne
    · refine hclean hreturned r ?_ htype (h.undecrypted r hr htype)
      rw [h.contents]
      exact List.mem_append_left _ hr
    · exact h.outside hbefore r hr htype
  cases moves_step hs with
  | chunk he r queue queue' htake hqueue htransport hout =>
      obtain ⟨-, hpending, -, hcontents⟩ := hsingle.orderly.resume htake
      have hrunning := hsingle.chunks (by rw [hpending]; simp)
      have hqueue : s'.transport.receivedPacketsQueue.contents = queue.contents := by
        rw [htransport]
        rcases hqueue with rfl | rfl
        · rfl
        · exact AsyncQueue.contents_pop _ _
      refine h.tail (by rw [hqueue]; exact hcontents) hplain houtside fun hne => ?_
      -- a packet queued before the connection was encrypted is skipped
      have hskips : ¬ Takes s.expectedSequence s.packetsBuffer r := fun ht =>
        hne (h.decrypted_of_takes (by simp [hrunning]) hcontents ht).1
      rcases hout with ⟨-, -, hexpected, -⟩ | ⟨-, -, hexpected, -⟩
      · exact hexpected
      · rw [hexpected, receiveChunk_of_not_takes hskips]
  | transport e' shown heffect hdatagram hsend hhandshake hshakes hstop htake hexpected hbuffer hout =>
      cases (single_step hsingle hs).2 with
      | same hcontents =>
          refine ⟨early, late, by rw [hcontents, h.contents], h.undecrypted, h.decrypted,
            fun hp => h.plain (hplain hp), houtside, fun hne => ?_⟩
          rw [hexpected]
          exact h.expected hne
      | take r consumer _ hcontents => exact h.tail hcontents hplain houtside fun _ => hexpected
      | push r hr hcontents =>
          refine h.push hcontents (fun htype => ?_) hplain (fun hp => ?_) houtside hexpected
          · rcases hr with ⟨sequence, rfl⟩ | ⟨_, _, _, _, _, -, hsize, haccepts⟩
            · cases htype
            · obtain ⟨h₁, h₂, -⟩ := opened_of_accepts hsize haccepts htype
              exact ⟨h₁, h₂⟩
          · have hnot : s.transport.handshake ≠ .returned none := fun hreturned => by
              rw [hencrypted.mpr hreturned] at hp
              cases hp
            have hidle := hsingle.loop_idle hnot
            refine ⟨?_, by rw [hexpected]; exact hstart hidle⟩
            rcases hloop with ⟨-, hidle'⟩ | ⟨-, -, hreturned⟩ | ⟨hbefore, -⟩
            · exact hidle'
            · exact absurd hreturned hnot
            · exact absurd hidle hbefore

/-- **The step lemma.** -/
theorem opening_step {tr : List Observation} {s s' : ProtoStream P} {e : Event P}
    {out : List Observation} (h : Opening tr s) (hclean : StartsClean s e)
    (hs : s.step e = some (s', out)) : Opening (tr ++ out) s' := by
  have hmoves := moves_step hs
  have hsingle := (single_step h.single hs).1
  obtain ⟨early, late, hfirst⟩ := h.first
  have hquiet : s.receiveChunksLoop = .idle → ordered out = [] ∧
      s'.packetsBuffer = s.packetsBuffer ∧ s'.expectedSequence = s.expectedSequence := by
    intro hidle
    cases hmoves with
    | chunk he r queue queue' htake =>
        obtain ⟨-, hpending, -⟩ := h.single.orderly.resume htake
        have := h.single.chunks (by rw [hpending]; simp)
        rw [hidle] at this
        cases this
    | transport _ shown _ _ _ _ _ _ _ hexpected hbuffer hout =>
        refine ⟨?_, hbuffer, hexpected⟩
        rcases hout with rfl | ⟨-, hquiet⟩
        · exact ordered_transport shown
        · exact ordered_quiet hquiet
  have hstart : s'.receiveChunksLoop = .idle →
      ordered (tr ++ out) = [] ∧ s'.packetsBuffer = ∅ ∧ s'.expectedSequence = 1 := by
    intro hidle'
    have hidle : s.receiveChunksLoop = .idle := by
      rcases loop_step hs with ⟨hidle, -⟩ | ⟨hidle, -⟩ | ⟨-, hne⟩
      · exact hidle
      · exact hidle
      · exact absurd hidle' hne
    obtain ⟨hput, hbuffer, hexpected⟩ := h.start hidle
    obtain ⟨hnone, hbuffer', hexpected'⟩ := hquiet hidle
    exact ⟨by rw [ordered_append, hput, hnone, List.append_nil], hbuffer'.trans hbuffer,
      hexpected'.trans hexpected⟩
  rcases hmoves.shakes with ⟨hcontext, hencrypted, hframe⟩ | ⟨t, shown, ht, hshakes, -⟩
  · refine ⟨hsingle, ?_, ?_, hstart, ?_⟩
    · rw [hencrypted, hframe]
      exact h.encrypted
    · rw [hcontext, ordered_append]
      refine h.putting.step hmoves (fun _ _ _ _ _ r he hsize haccepts htype => ?_)
        fun r htaken _ ht hqueued => ?_
      · exact (opened_of_accepts hsize haccepts htype).2.2
      · obtain ⟨queue, htake⟩ := mem_taken htaken
        obtain ⟨-, hpending, -, hcontents⟩ := h.single.orderly.resume htake
        have hrunning := h.single.chunks (by rw [hpending]; simp)
        exact hqueued (hfirst.decrypted_of_takes (by simp [hrunning]) hcontents ht).2
    · exact hfirst.step h.single hclean hs h.encrypted (by rw [hencrypted]; exact id)
        fun hidle => (h.start hidle).2.2
  · -- nothing has been decrypted before the handshake is over
    have hframes : t.handshake = s.transport.handshake ∧
        t.connectionEncrypted = s.transport.connectionEncrypted := by
      rcases ht with rfl | ⟨now, rfl⟩
      · exact ⟨rfl, rfl⟩
      · exact ⟨rfl, rfl⟩
    have hnot := hshakes.not_returned none
    rw [hframes.1] at hnot
    have hplain : s.transport.connectionEncrypted = false := by
      rw [← Bool.not_eq_true, h.encrypted]
      exact hnot
    have hidle := h.single.loop_idle hnot
    obtain ⟨hput, hbuffer, hexpected⟩ := h.start hidle
    obtain ⟨hnone, hbuffer', hexpected'⟩ := hquiet hidle
    refine ⟨hsingle, Shakes.encrypted hshakes (hframes.2.trans hplain), ?_, hstart,
      hfirst.step h.single hclean hs h.encrypted (fun _ => hplain) fun _ => hexpected⟩
    have hundecrypted : ∀ r ∈ s'.transport.receivedPacketsQueue.contents,
        r.packet.header.type = .data → r.origin = none := by
      have hbefore : ∀ r ∈ s.transport.receivedPacketsQueue.contents,
          r.packet.header.type = .data → r.origin = none := by
        rw [hfirst.contents, hfirst.plain hplain, List.append_nil]
        exact hfirst.undecrypted
      intro r hr htype
      cases (single_step h.single hs).2 with
      | same hcontents => exact hbefore r (hcontents ▸ hr) htype
      | take q consumer _ hcontents =>
          exact hbefore r (hcontents ▸ List.mem_cons_of_mem q hr) htype
      | push q hq hcontents =>
          rw [hcontents] at hr
          rcases List.mem_append.mp hr with hr | hr
          · exact hbefore r hr htype
          obtain rfl := List.mem_singleton.mp hr
          rcases hq with ⟨sequence, rfl⟩ | ⟨_, _, _, _, _, -, hsize, haccepts⟩
          · cases htype
          · exact (opened_of_accepts hsize haccepts htype).2.1 hplain
    rw [ordered_append, hput, hnone]
    exact putting_of_empty (hexpected'.trans hexpected) (hbuffer'.trans hbuffer)
      fun r hr htype hopened => absurd (hundecrypted r hr htype) hopened

/-- A chunk pushed for a packet carries the packet's bytes; the others are empty. -/
def CarriesPacket (tr : List Observation) : Prop :=
  ∀ chunk source, .pushed chunk source ∈ tr → match source with
    | none => chunk.empty = true
    | some r => chunk = .ofPacket r.packet

theorem carriesPacket_step {s s' : ProtoStream P} {e : Event P} {out : List Observation}
    (hs : s.step e = some (s', out)) : CarriesPacket out := by
  intro chunk source hpushed
  cases moves_step hs with
  | transport e' shown _ _ _ _ _ _ _ _ _ hout =>
      rcases hout with rfl | ⟨-, hquiet⟩
      · simp at hpushed
      · have hquiet := hquiet _ hpushed
        cases source with
        | none => exact hquiet
        | some r => cases hquiet
  | chunk _ r _ _ _ _ _ hout =>
      rcases hout with ⟨-, rfl, -⟩ | ⟨-, rfl, -⟩
      · cases hpushed
      · obtain ⟨q, -, heq⟩ := List.mem_map.mp hpushed
        obtain ⟨rfl, rfl⟩ := Observation.pushed.inj heq
        rfl

/-- **No plaintext is delivered.**  Whatever datagrams arrive before, during and after
the handshake: if `receive_chunks_loop` is started on a queue without undecrypted
`DATA` packets of its first window, every packet it pushes was decrypted with the
session's key.  The other chunks, of `store_stream_error`, have no data. -/
theorem pushed_decrypted {peerEndpoint : Endpoint} {mode : Role} {tr : List Observation}
    {s : ProtoStream P}
    (hrun : Transition.Run step StartsClean (construct P peerEndpoint mode) tr s)
    {chunk : Chunk} {source : Option ReceivedPacket} (hpushed : .pushed chunk source ∈ tr) :
    match source with
    | none => chunk.empty = true
    | some r => chunk = .ofPacket r.packet ∧ Opened s.transport.cryptoContext r := by
  have h : Opening tr s ∧ CarriesPacket tr := by
    refine hrun.invariant (I := fun tr s => Opening tr s ∧ CarriesPacket tr)
      ⟨opening_start _ _, fun _ _ hmem => absurd hmem List.not_mem_nil⟩ ?_
    intro tr s e s' out h hclean hs
    refine ⟨opening_step h.1 hclean hs, fun chunk source hmem => ?_⟩
    rcases List.mem_append.mp hmem with hmem | hmem
    · exact h.2 chunk source hmem
    · exact carriesPacket_step hs chunk source hmem
  have hchunk := h.2 chunk source hpushed
  cases source with
  | none => exact hchunk
  | some r =>
      refine ⟨hchunk, (h.1.putting.settled r ?_).2⟩
      exact List.mem_filterMap.mpr ⟨_, hpushed, rfl⟩

/-! ## A packet after the handshake, and one in between -/

/-- The key the responder of `sampleOvertaking` shares with its peer. -/
def sampleKey : Bytes :=
  Primitives.additive.hkdf [14]
    (CryptoContext.salt (Primitives.additive.publicKey (5 : UInt8)) (List.replicate x25519Len 9))
    CryptoContext.keyPurposeLabel

/-- The `DATA` packet number 1 with one byte, encrypted. -/
def sampleSealed : Packet :=
  ((dataPacket [65]).withSequence 1).copyIn
    (CryptoContext.frame .additive sampleKey .zero [65])

/-- The packet arrives after the handshake; `receive_chunks_loop` pushes its byte. -/
def sampleInOrder (packet : Packet) : List (Event .additive) :=
  [.callStartLoops 0 none (5 : UInt8) 0, sampleDatagram sampleHandshake,
    .transport (.resumeHandshakeReceive none 0),
    .transport (.resumeSend 0 none .zero 0),
    .transport (.transmitSend 0), .transport (.finishSend 0 none),
    .transport .resumeHandshakeSend, .resumeStartLoops, sampleDatagram packet,
    .resumeReceiveChunks]

/-- The packet for which the bytes `data` are pushed. -/
def Observation.pushedFor (data : Bytes) : Observation → Option ReceivedPacket
  | .pushed chunk (some r) =>
      if chunk = { size := data.length, data := some data } then some r else none
  | _ => none

theorem eq_of_pushedFor {data : Bytes} {o : Observation} {r : ReceivedPacket}
    (h : o.pushedFor data = some r) :
    o = .pushed { size := data.length, data := some data } (some r) := by
  unfold Observation.pushedFor at h
  split at h
  · split_ifs at h with hchunk
    rw [hchunk, Option.some.inj h]
  · cases h

/-- One byte, delivered decrypted. -/
theorem pushed_decrypted_one : ∃ tr s r,
    Transition.Run step StartsClean (construct .additive ⟨0, 0⟩ .responder) tr s ∧
      .pushed { size := 1, data := some [65] } (some r) ∈ tr ∧
      Opened s.transport.cryptoContext r := by
  obtain ⟨tr, s, hrun, hp⟩ := Transition.exists_run step StartsClean
    (construct .additive ⟨0, 0⟩ .responder) (sampleInOrder sampleSealed)
    (fun tr _ => tr.any fun o => (o.pushedFor [65]).isSome)
    (fun s e => decide (StartsClean s e)) (fun _ _ h => of_decide_eq_true h) (by decide +kernel)
  obtain ⟨o, ho, hp⟩ := List.any_eq_true.mp hp
  obtain ⟨r, hr⟩ := Option.isSome_iff_exists.mp hp
  obtain rfl := eq_of_pushedFor hr
  exact ⟨tr, s, r, hrun, ho, (pushed_decrypted hrun ho).2⟩

/-- **Plaintext is delivered.**  The packet arrives, unencrypted, while the responder
sends its own `HANDSHAKE` packet; its byte is pushed, and nothing was decrypted. -/
theorem plaintext_pushed : ∃ tr s r,
    Transition.Run step Transition.Always (construct .additive ⟨0, 0⟩ .responder) tr s ∧
      .pushed { size := 1, data := some [65] } (some r) ∈ tr ∧
      r.packet.data = [65] ∧ ∀ context : CryptoContext .additive,
        ¬ Opened context r ∧ ∀ fault, context.decryptData fault [65] ≠ .ok [65] := by
  obtain ⟨tr, s, hrun, hp⟩ := Transition.exists_run step Transition.Always
    (construct .additive ⟨0, 0⟩ .responder)
    (sampleOvertaking ((dataPacket [65]).withSequence 1))
    (fun tr _ => tr.any fun o => (o.pushedFor [65]).any fun r : ReceivedPacket =>
      decide (r.packet.data = [65] ∧ r.origin = none))
    (fun _ _ => true) (fun _ _ _ => trivial) (by decide +kernel)
  obtain ⟨o, ho, hp⟩ := List.any_eq_true.mp hp
  obtain ⟨r, hr, hplain⟩ := (Option.any_eq_true _ _).mp hp
  obtain ⟨hdata, horigin⟩ := of_decide_eq_true hplain
  obtain rfl := eq_of_pushedFor hr
  refine ⟨tr, s, r, hrun, ho, hdata, fun context => ⟨?_, fun fault hresult => ?_⟩⟩
  · rintro ⟨fault, received, hreceived, -⟩
    rw [horigin] at hreceived
    cases hreceived
  · have := (CryptoContext.length_of_decryptData hresult).1
    simp [nonceLen, tagLen] at this

end ProtoStream
end FileHopZ
