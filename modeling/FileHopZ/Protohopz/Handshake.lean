import FileHopZ.Protohopz.Moves

/-! # The handshake and the queue

The handshake and `receive_chunks_loop` share `received_packets_queue_`: each pops
from it, and gets whatever packet is first.  Never both at once: the loop is
started when the handshake has returned.  So at most one caller is suspended in
`receive_packet` (`Single`), and packets come out in the order in which
`receive_loop` queued them (`flow_step`).
-/
namespace FileHopZ
namespace ProtoHopZ
variable {P : Primitives}

/-- The handshake leaves the queue alone, or begins to wait, or gets its packet. -/
theorem Shakes.queue {t t' : ProtoHopZ P} {out : List Observation} (h : Shakes t t' out) :
    (∀ role, t.handshake ≠ .receiving role) ∧
        (t'.receivedPacketsQueue = t.receivedPacketsQueue ∨
          t'.receivedPacketsQueue = t.receivedPacketsQueue.pop .handshake ∧
            ∃ role, t'.handshake = .receiving role) ∨
      ∃ r, t.receivedPacketsQueue.resume .handshake = some (r, t'.receivedPacketsQueue) := by
  cases h with
  | failed _ hframe =>
      refine Or.inl ⟨fun role hrole => ?_, Or.inl rfl⟩
      rcases hframe with hframe | ⟨role, i, hframe⟩ <;> rw [hrole] at hframe <;> cases hframe
  | begunInitiator _ _ hframe => exact Or.inl ⟨by simp [hframe], Or.inl rfl⟩
  | begunResponder _ hframe => exact Or.inl ⟨by simp [hframe], Or.inr ⟨rfl, _, rfl⟩⟩
  | sentInitiator _ hframe => exact Or.inl ⟨by simp [hframe], Or.inr ⟨rfl, _, rfl⟩⟩
  | sentResponder _ hframe => exact Or.inl ⟨by simp [hframe], Or.inl rfl⟩
  | interrupted _ r _ _ _ htake | rejected _ r _ _ _ _ htake
  | installedInitiator r _ _ _ _ htake | installedResponder _ r _ _ _ _ htake =>
      exact Or.inr ⟨r, htake⟩

end ProtoHopZ

namespace ProtoStream
variable {P : Primitives}

/-- `receive_loop` has got a datagram and queues the packet `r` for it. -/
def Arrives (s : ProtoStream P) (e : Event P) (r : ReceivedPacket) : Prop :=
  ∃ remote buffer bytes now fault, e = .transport (.datagram remote buffer bytes now fault) ∧
    (buffer.receiveFrom bytes).header.size.toNat ≤ packetSize ∧
    ProtoHopZ.Accepts s.transport.connectionEncrypted s.transport.cryptoContext
      (buffer.receiveFrom bytes) r

/-- At most one caller is suspended in `receive_packet`: the handshake while it waits
for its peer, `receive_chunks_loop` once the handshake has returned. -/
structure Single (s : ProtoStream P) : Prop where
  orderly : s.transport.receivedPacketsQueue.Orderly
  handshake : .handshake ∈ s.transport.receivedPacketsQueue.pending →
    ∃ role, s.transport.handshake = .receiving role
  chunks : .chunks ∈ s.transport.receivedPacketsQueue.pending → s.receiveChunksLoop = .running
  spawned : s.receiveChunksLoop ≠ .idle →
    s.transport.handshake = .returned none ∧ s.startLoops = .returned none
  closing : s.closing ≠ .idle → s.startLoops ≠ .handshaking
  cancelled : s.cancelled = true → .chunks ∉ s.transport.receivedPacketsQueue.waiters ∧
    s.startLoops ≠ .handshaking ∧ (s.closing ≠ .idle ∨ s.receiveChunksLoop ≠ .idle)

/-- What a step can do to the packets queued. -/
inductive Contents (s : ProtoStream P) (e : Event P) (s' : ProtoStream P) : Prop
  | same (hcontents : s'.transport.receivedPacketsQueue.contents =
      s.transport.receivedPacketsQueue.contents)
  | push (r : ReceivedPacket) (hr : (∃ sequence, r = ProtoHopZ.endPacket sequence) ∨ Arrives s e r)
      (hcontents : s'.transport.receivedPacketsQueue.contents =
        s.transport.receivedPacketsQueue.contents ++ [r])
  /-- The oldest packet is handed to the handshake or to `receive_chunks_loop`. -/
  | take (r : ReceivedPacket) (consumer : Consumer)
      (htake : ∃ queue, s.transport.receivedPacketsQueue.resume consumer = some (r, queue))
      (hcontents : s.transport.receivedPacketsQueue.contents =
        r :: s'.transport.receivedPacketsQueue.contents)

theorem single_construct (peerEndpoint : Endpoint) (mode : Role) :
    Single (construct P peerEndpoint mode) where
  orderly := AsyncQueue.orderly_empty
  handshake h := absurd h List.not_mem_nil
  chunks h := absurd h List.not_mem_nil
  spawned h := absurd rfl h
  closing h := absurd rfl h
  cancelled h := by cases h

/-- Nobody waits while the handshake has not called `receive_packet` yet. -/
theorem Single.pending_eq_nil {s : ProtoStream P} (h : Single s)
    (hreceiving : ∀ role, s.transport.handshake ≠ .receiving role)
    (hidle : s.receiveChunksLoop = .idle) : s.transport.receivedPacketsQueue.pending = [] := by
  refine List.eq_nil_iff_forall_not_mem.mpr fun consumer hmem => ?_
  cases consumer with
  | handshake =>
      obtain ⟨role, hrole⟩ := h.handshake hmem
      exact hreceiving role hrole
  | chunks =>
      have := h.chunks hmem
      rw [hidle] at this
      cases this

/-- `receive_chunks_loop` has not been started while the handshake goes on. -/
theorem Single.loop_idle {s : ProtoStream P} (h : Single s)
    (hreturned : s.transport.handshake ≠ .returned none) : s.receiveChunksLoop = .idle := by
  by_contra hne
  exact hreturned (h.spawned hne).1

/-- A step of the handshake keeps its caller the only one. -/
theorem Single.shake {s s' : ProtoStream P} {t : ProtoHopZ P} {e : Event P}
    {shown : List FileHopZ.Observation} (h : Single s)
    (hqueue : t.receivedPacketsQueue = s.transport.receivedPacketsQueue)
    (hframe : t.handshake = s.transport.handshake)
    (hs : ProtoHopZ.Shakes t s'.transport shown) (hloop : s'.receiveChunksLoop = s.receiveChunksLoop)
    (hclosing : s'.closing ≠ .idle → s'.startLoops ≠ .handshaking)
    (hcancelled : s'.cancelled = true → s.cancelled = true ∧ s'.startLoops ≠ .handshaking ∧
      (s'.closing ≠ .idle ∨ s'.receiveChunksLoop ≠ .idle)) : Single s' ∧ Contents s e s' := by
  have hidle := h.loop_idle (by rw [← hframe]; exact hs.not_returned none)
  have hidle' : ¬ s'.receiveChunksLoop ≠ .idle := by rw [hloop, hidle]; simp
  have hflow := hs.queue
  rw [hqueue, hframe] at hflow
  rcases hflow with ⟨hreceiving, hsame | ⟨hpop, hwaits⟩⟩ | ⟨r, htake⟩
  · have hnone := h.pending_eq_nil hreceiving hidle
    refine ⟨⟨?_, ?_, ?_, fun hne => absurd hne hidle', hclosing, fun hc => ?_⟩, .same ?_⟩
    · rw [hsame]
      exact h.orderly
    · rw [hsame, hnone]
      exact fun hmem => absurd hmem List.not_mem_nil
    · rw [hsame, hnone]
      exact fun hmem => absurd hmem List.not_mem_nil
    · rw [hsame]
      exact ⟨(h.cancelled (hcancelled hc).1).1, (hcancelled hc).2⟩
    · rw [hsame]
  · have hnone := h.pending_eq_nil hreceiving hidle
    obtain ⟨horderly, hpending⟩ := AsyncQueue.orderly_pop hnone .handshake
    have hnot : .chunks ∉ (s.transport.receivedPacketsQueue.pop .handshake).pending := by
      rw [hpending]
      simp
    refine ⟨⟨?_, fun _ => hwaits, ?_, fun hne => absurd hne hidle', hclosing, fun hc => ?_⟩,
      .same ?_⟩
    · rw [hpop]
      exact horderly
    · rw [hpop]
      exact fun hmem => absurd hmem hnot
    · rw [hpop]
      exact ⟨fun hmem => hnot (List.mem_append_right _ hmem), (hcancelled hc).2⟩
    · rw [hpop, AsyncQueue.contents_pop]
  · obtain ⟨horderly, -, hpending, hcontents⟩ := h.orderly.resume htake
    refine ⟨⟨horderly, ?_, ?_, fun hne => absurd hne hidle', hclosing, fun hc => ?_⟩,
      .take r .handshake ⟨_, htake⟩ hcontents⟩
    · rw [hpending]
      exact fun hmem => absurd hmem List.not_mem_nil
    · rw [hpending]
      exact fun hmem => absurd hmem List.not_mem_nil
    · refine ⟨fun hmem => ?_, (hcancelled hc).2⟩
      have : .chunks ∈ s'.transport.receivedPacketsQueue.pending := List.mem_append_right _ hmem
      rw [hpending] at this
      cases this

/-- What a step of the transport that is no step of the handshake does to its queue. -/
theorem queue_of_internal {t t' : ProtoHopZ P} {e : ProtoHopZ.Event P}
    {out : List FileHopZ.Observation} (hs : t.step e = some (t', out)) (he : e.isInternal = true)
    (hh : e.handshakes = false) :
    t'.receivedPacketsQueue = t.receivedPacketsQueue ∨
      ∃ r, t'.receivedPacketsQueue = t.receivedPacketsQueue.push r ∧
        ((∃ sequence, r = ProtoHopZ.endPacket sequence) ∨
          ∃ remote buffer bytes now fault, e = .datagram remote buffer bytes now fault ∧
            (buffer.receiveFrom bytes).header.size.toNat ≤ packetSize ∧
            ProtoHopZ.Accepts t.connectionEncrypted t.cryptoContext (buffer.receiveFrom bytes) r) := by
  have hqueue := (ProtoHopZ.effect_step hs).queue
  generalize t'.receivedPacketsQueue = queue' at *
  generalize t'.receivedPackets = received' at *
  cases hqueue with
  | same => exact Or.inl rfl
  | pop _ hpop =>
      rcases hpop with hpop | rfl
      · rw [hh] at hpop
        cases hpop
      · cases he
  | cancel hcancel =>
      subst hcancel
      cases he
  | take _ htake =>
      rcases htake with htake | rfl
      · rw [hh] at htake
        cases htake
      · cases he
  | ended sequence => exact Or.inr ⟨_, rfl, Or.inl ⟨sequence, rfl⟩⟩
  | accept hdatagram hsize hnew haccepts =>
      exact Or.inr ⟨_, rfl, Or.inr ⟨_, _, _, _, _, hdatagram, hsize, haccepts⟩⟩

/-- A step that leaves the coroutines and the transport's queue and handshake alone. -/
theorem Single.of_same {s s' : ProtoStream P} {e : Event P} (h : Single s)
    (hqueue : s'.transport.receivedPacketsQueue = s.transport.receivedPacketsQueue)
    (hframe : s'.transport.handshake = s.transport.handshake)
    (hloop : s'.receiveChunksLoop = s.receiveChunksLoop) (hstart : s'.startLoops = s.startLoops)
    (hclosing : s'.closing ≠ .idle → s'.startLoops ≠ .handshaking)
    (hcancelled : s'.cancelled = true → s.cancelled = true ∧
      (s.closing ≠ .idle → s'.closing ≠ .idle)) : Single s' ∧ Contents s e s' := by
  refine ⟨⟨?_, ?_, ?_, ?_, hclosing, fun hc => ?_⟩, .same (by rw [hqueue])⟩
  · rw [hqueue]
    exact h.orderly
  · rw [hqueue, hframe]
    exact h.handshake
  · rw [hqueue, hloop]
    exact h.chunks
  · rw [hloop, hframe, hstart]
    exact h.spawned
  · obtain ⟨hbefore, hclosed⟩ := hcancelled hc
    obtain ⟨hwaiters, hnot, hover⟩ := h.cancelled hbefore
    rw [hqueue, hstart, hloop]
    exact ⟨hwaiters, hnot, hover.imp hclosed id⟩

theorem Single.push {s s' : ProtoStream P} {e : Event P} (h : Single s) {r : ReceivedPacket}
    (hr : (∃ sequence, r = ProtoHopZ.endPacket sequence) ∨ Arrives s e r)
    (hqueue : s'.transport.receivedPacketsQueue = s.transport.receivedPacketsQueue.push r)
    (hframe : s'.transport.handshake = s.transport.handshake)
    (hframes : s'.receiveChunksLoop = s.receiveChunksLoop ∧ s'.startLoops = s.startLoops ∧
      s'.closing = s.closing ∧ s'.cancelled = s.cancelled) : Single s' ∧ Contents s e s' := by
  obtain ⟨horderly, hpending, hcontents⟩ := h.orderly.push r
  obtain ⟨hloop, hstart, hclosing, hcancelled⟩ := hframes
  refine ⟨⟨?_, ?_, ?_, ?_, ?_, ?_⟩, .push r hr (by rw [hqueue, hcontents])⟩
  · rw [hqueue]
    exact horderly
  · rw [hqueue, hpending, hframe]
    exact h.handshake
  · rw [hqueue, hpending, hloop]
    exact h.chunks
  · rw [hloop, hframe, hstart]
    exact h.spawned
  · rw [hclosing, hstart]
    exact h.closing
  · rw [hcancelled, hqueue, hclosing, hstart, hloop]
    refine fun hc => ⟨fun hmem => ?_, (h.cancelled hc).2⟩
    have hnot := (h.cancelled hc).1
    unfold AsyncQueue.push at hmem
    split at hmem
    · rename_i hw
      exact hnot (by rw [hw]; exact List.mem_cons_of_mem _ hmem)
    · exact hnot hmem

/-- A step by which `receive_chunks_loop` or its caller comes nearer to its end. -/
theorem Single.of_stop {s s' : ProtoStream P} {e : Event P} (h : Single s)
    (hqueue : s'.transport.receivedPacketsQueue = s.transport.receivedPacketsQueue ∧
        (s'.cancelled = true → s.cancelled = true) ∨
      s'.transport.receivedPacketsQueue = s.transport.receivedPacketsQueue.cancel .chunks ∧
        s.startLoops ≠ .handshaking ∧ (s'.closing ≠ .idle ∨ s'.receiveChunksLoop ≠ .idle))
    (hframe : s'.transport.handshake = s.transport.handshake)
    (hstart : s'.startLoops = s.startLoops) (hclosing : s'.closing ≠ .idle ↔ s.closing ≠ .idle)
    (hidle : s'.receiveChunksLoop ≠ .idle ↔ s.receiveChunksLoop ≠ .idle)
    (hloop : s'.receiveChunksLoop = s.receiveChunksLoop ∨
      .chunks ∉ s.transport.receivedPacketsQueue.pending) : Single s' ∧ Contents s e s' := by
  have hcancel := h.orderly.cancel .chunks
  have hsub : s'.transport.receivedPacketsQueue.Orderly ∧
      (∀ x ∈ s'.transport.receivedPacketsQueue.pending,
        x ∈ s.transport.receivedPacketsQueue.pending) ∧
      s'.transport.receivedPacketsQueue.contents = s.transport.receivedPacketsQueue.contents := by
    rcases hqueue with ⟨hqueue, -⟩ | ⟨hqueue, -⟩ <;> rw [hqueue]
    · exact ⟨h.orderly, fun x hx => hx, rfl⟩
    · exact ⟨hcancel.1, hcancel.2, rfl⟩
  obtain ⟨horderly, hpending, hcontents⟩ := hsub
  refine ⟨⟨horderly, fun hmem => ?_, fun hmem => ?_, fun hne => ?_, fun hc => ?_, fun hc => ?_⟩,
    .same hcontents⟩
  · rw [hframe]
    exact h.handshake (hpending _ hmem)
  · rcases hloop with hloop | hloop
    · rw [hloop]
      exact h.chunks (hpending _ hmem)
    · exact absurd (hpending _ hmem) hloop
  · rw [hframe, hstart]
    exact h.spawned (hidle.mp hne)
  · rw [hstart]
    exact h.closing (hclosing.mp hc)
  · rw [hstart]
    rcases hqueue with ⟨hqueue, hbefore⟩ | ⟨hqueue, hnot, hover⟩
    · obtain ⟨hwaiters, hnot, hover⟩ := h.cancelled (hbefore hc)
      rw [hqueue]
      exact ⟨hwaiters, hnot, hover.imp hclosing.mpr hidle.mpr⟩
    · refine ⟨?_, hnot, hover⟩
      rw [hqueue]
      simp [AsyncQueue.cancel]

/-- `receive_chunks_loop` is started, and waits. -/
theorem Single.starts {s : ProtoStream P} {e : Event P} (h : Single s)
    (hstart : s.startLoops = .handshaking) (hreturned : s.transport.handshake = .returned none)
    {s' : ProtoStream P} (hs' : s' = { s with
      loopsRunning := true, receiveChunksLoop := .running, startLoops := .returned none }.awaitPacket) :
    Single s' ∧ Contents s e s' := by
  subst hs'
  have hidle : s.receiveChunksLoop = .idle := by
    by_contra hne
    have := (h.spawned hne).2
    rw [hstart] at this
    cases this
  have hnone := h.pending_eq_nil (by simp [hreturned]) hidle
  obtain ⟨horderly, hpending⟩ := AsyncQueue.orderly_pop hnone .chunks
  refine ⟨⟨horderly, fun hmem => ?_, fun _ => rfl, fun _ => ⟨hreturned, rfl⟩, by simp [awaitPacket],
    fun hc => absurd hstart (h.cancelled hc).2.1⟩, .same (AsyncQueue.contents_pop _ _)⟩
  have hmem : .handshake ∈ (s.transport.receivedPacketsQueue.pop .chunks).pending := hmem
  rw [hpending] at hmem
  simp at hmem

section Takes
variable {s s' : ProtoStream P} {r : ReceivedPacket} {queue : AsyncQueue Consumer ReceivedPacket}

/-- `receive_chunks_loop` gets a packet and ends: it does not wait again. -/
theorem Single.takes_last (h : Single s) (hrunning : s.receiveChunksLoop = .running)
    (htake : s.transport.receivedPacketsQueue.resume .chunks = some (r, queue))
    (hqueue : s'.transport.receivedPacketsQueue = queue)
    (hframe : s'.transport.handshake = s.transport.handshake)
    (hframes : s'.startLoops = s.startLoops ∧ s'.closing = s.closing)
    (hloop : ∃ ec, s'.receiveChunksLoop = .finished ec) :
    Single s' ∧ Contents s .resumeReceiveChunks s' := by
  obtain ⟨hstart, hclosing⟩ := hframes
  obtain ⟨ec, hloop⟩ := hloop
  obtain ⟨horderly, -, hpending, hcontents⟩ := h.orderly.resume htake
  have hspawned := h.spawned (by simp [hrunning])
  have hnone : ∀ consumer, consumer ∉ s'.transport.receivedPacketsQueue.pending := by
    rw [hqueue]
    simp [hpending]
  refine ⟨⟨by rwa [hqueue], fun hmem => absurd hmem (hnone _), fun hmem => absurd hmem (hnone _),
    fun _ => ?_, fun hc => ?_, fun _ => ⟨fun hmem => ?_, ?_, Or.inr (by simp [hloop])⟩⟩,
    .take r .chunks ⟨queue, htake⟩ (by rw [hqueue]; exact hcontents)⟩
  · rw [hframe, hstart]
    exact hspawned
  · rw [hstart]
    exact h.closing (hclosing ▸ hc)
  · exact hnone _ (List.mem_append_right _ hmem)
  · rw [hstart, hspawned.2]
    simp

/-- `receive_chunks_loop` gets a packet, puts it in order and waits for the next. -/
theorem Single.takes (h : Single s) (hrunning : s.receiveChunksLoop = .running)
    (htake : s.transport.receivedPacketsQueue.resume .chunks = some (r, queue))
    (hcancelled : ¬ s.cancelled = true) :
    Single (s.putInOrder r queue).awaitPacket ∧
      Contents s .resumeReceiveChunks (s.putInOrder r queue).awaitPacket := by
  obtain ⟨horderly, -, hpending, hcontents⟩ := h.orderly.resume htake
  obtain ⟨horderly', hpending'⟩ := AsyncQueue.orderly_pop hpending .chunks
  refine ⟨⟨horderly', fun hmem => ?_, fun _ => hrunning,
    fun _ => h.spawned (by simp [hrunning]), h.closing, fun hc => absurd hc hcancelled⟩,
    .take r .chunks ⟨queue, htake⟩ ?_⟩
  · have hmem : .handshake ∈ (queue.pop .chunks).pending := hmem
    rw [hpending'] at hmem
    simp at hmem
  · exact hcontents.trans (congrArg (r :: ·) (AsyncQueue.contents_pop queue .chunks).symm)

end Takes

/-- The transport makes a step of its own. -/
theorem Single.transport {s : ProtoStream P} {e : ProtoHopZ.Event P} {t' : ProtoHopZ P}
    {shown : List FileHopZ.Observation} (h : Single s) (hinternal : e.isInternal = true)
    (hs : s.transport.step e = some (t', shown)) :
    Single { s with transport := t' } ∧ Contents s (.transport e) { s with transport := t' } := by
  cases hh : e.handshakes with
  | true =>
      exact h.shake rfl rfl (ProtoHopZ.shakes_step hh hs) rfl h.closing
        fun hc => ⟨hc, (h.cancelled hc).2⟩
  | false =>
      have hframe := ((ProtoHopZ.effect_step hs).keys hh).2.2
      rcases queue_of_internal hs hinternal hh with hqueue | ⟨r, hqueue, hr⟩
      · exact h.of_same hqueue hframe rfl rfl h.closing fun hc => ⟨hc, id⟩
      · refine h.push (hr.imp id ?_) hqueue hframe ⟨rfl, rfl, rfl, rfl⟩
        rintro ⟨remote, buffer, bytes, now, fault, rfl, hrest⟩
        exact ⟨remote, buffer, bytes, now, fault, rfl, hrest⟩

/-- **At most one caller is suspended in `receive_packet`**, so packets are handed over
in the order in which they were queued. -/
theorem single_step {s s' : ProtoStream P} {e : Event P} {out : List Observation} (h : Single s)
    (hs : s.step e = some (s', out)) : Single s' ∧ Contents s e s' := by
  -- the loop has finished, so it is not waiting
  have hended : ∀ ec, s.receiveChunksLoop = .finished ec →
      .chunks ∉ s.transport.receivedPacketsQueue.pending := by
    intro ec hfinished hmem
    have := h.chunks hmem
    rw [hfinished] at this
    cases this
  cases step_cases hs with
  | transport e t' shown hinternal hstep => exact h.transport hinternal hstep
  | callStartLoops now _ _ _ hidle hopen hframe hfresh =>
      refine h.shake (t := s.transport.startLoops now) rfl rfl
        (ProtoHopZ.shakes_startHandshake hframe hfresh) rfl (fun hc => absurd hopen hc) ?_
      intro hc
      refine absurd (h.cancelled hc).2.2 ?_
      rintro (hclosed | hspawned)
      · exact hclosed hopen
      · have := (h.spawned hspawned).2
        rw [hidle] at this
        cases this
  | unstarted ec hstart hreturned =>
      have hidle := h.loop_idle (by simp [hreturned])
      exact ⟨⟨h.orderly, h.handshake, h.chunks, fun hne => absurd hidle hne, by simp,
        fun hc => absurd hstart (h.cancelled hc).2.1⟩, .same rfl⟩
  | started hstart hreturned => exact h.starts hstart hreturned rfl
  | rejected | send | refused | receive | failed | received =>
      exact h.of_same rfl rfl rfl rfl h.closing fun hc => ⟨hc, id⟩
  | interrupted r queue ec hrunning htake =>
      exact h.takes_last hrunning htake rfl rfl ⟨rfl, rfl⟩ ⟨_, rfl⟩
  | lastChunk r queue hrunning htake =>
      exact h.takes_last hrunning htake rfl rfl ⟨rfl, rfl⟩ ⟨_, rfl⟩
  | chunk r queue hrunning htake _ hcancelled => exact h.takes hrunning htake hcancelled
  | aborted hrunning hcancelled hnone =>
      have hnot : .chunks ∉ s.transport.receivedPacketsQueue.pending := fun hmem =>
        (h.cancelled hcancelled).1 (AsyncQueue.mem_waiters_of_resume hnone hmem)
      exact h.of_stop (Or.inl ⟨rfl, id⟩) rfl rfl Iff.rfl (by simp [hrunning]) (Or.inr hnot)
  | ended ec hfinished =>
      exact h.of_stop (Or.inl ⟨rfl, id⟩) rfl rfl Iff.rfl (by simp [hfinished])
        (Or.inr (hended ec hfinished))
  | stored ec hfinished =>
      have hstart := (h.spawned (by simp [hfinished])).2
      exact h.of_stop (Or.inr ⟨rfl, by simp [hstart], Or.inr (by simp [cancelReceiveChunks])⟩)
        rfl rfl Iff.rfl (by simp [hfinished, cancelReceiveChunks])
        (Or.inr (hended _ hfinished))
  | close hstart => exact h.of_same rfl rfl rfl rfl (fun _ => hstart) fun hc => ⟨hc, fun _ => by simp⟩
  | resumeClose drained hdraining =>
      have hclosing : s.closing ≠ .idle := by simp [hdraining]
      exact h.of_stop (Or.inr ⟨rfl, h.closing hclosing, Or.inl (by simp)⟩) rfl rfl
        (by simp [hclosing]) Iff.rfl (Or.inl rfl)
  | finishClose hstopping =>
      have hclosing : s.closing ≠ .idle := by simp [hstopping]
      exact h.of_same rfl rfl rfl rfl (fun _ => h.closing hclosing) fun hc => ⟨hc, by simp⟩

/-- The keys and the handshake stay as they are. -/
def SameShake (t t' : ProtoHopZ P) : Prop :=
  t'.cryptoContext = t.cryptoContext ∧ t'.connectionEncrypted = t.connectionEncrypted ∧
    t'.handshake = t.handshake

/-- A step of a session is a step of its handshake, or leaves the keys alone. -/
theorem Moves.shakes {s s' : ProtoStream P} {e : Event P} {out : List Observation}
    (hs : Moves s e s' out) : SameShake s.transport s'.transport ∨
      ∃ t shown, (t = s.transport ∨ ∃ now, t = s.transport.startLoops now) ∧
        ProtoHopZ.Shakes t s'.transport shown ∧
        s'.expectedSequence = s.expectedSequence ∧ s'.packetsBuffer = s.packetsBuffer ∧
        (out = shown.map .transport ∨ shown = [] ∧ ∀ o ∈ out, o.isQuiet = true) := by
  cases hs with
  | transport e' shown heffect hdatagram hsend hhandshake hshakes hstop htake hexpected hbuffer hout =>
      cases hh : e'.handshakes with
      | false => exact Or.inl (heffect.keys hh)
      | true =>
          obtain ⟨t, ht, hstep, hloop⟩ := hshakes hh
          exact Or.inr ⟨t, shown, ht, ProtoHopZ.shakes_step hh hstep, hexpected, hbuffer, hout⟩
  | chunk he r queue queue' htake hqueue htransport hout =>
      rw [htransport]
      exact Or.inl ⟨rfl, rfl, rfl⟩

/-- `connection_encrypted_` is set when the handshake returns success, and not before. -/
theorem Shakes.encrypted {t t' : ProtoHopZ P} {shown : List FileHopZ.Observation}
    (h : ProtoHopZ.Shakes t t' shown) (hplain : t.connectionEncrypted = false) :
    t'.connectionEncrypted = true ↔ t'.handshake = .returned none := by
  cases h with
  | sentResponder | installedInitiator => exact ⟨fun _ => rfl, fun _ => rfl⟩
  | failed | interrupted | rejected => simp [ProtoHopZ.withReceived, hplain]
  | begunInitiator | begunResponder | sentInitiator | installedResponder =>
      simp [ProtoHopZ.sendHandshake, ProtoHopZ.awaitHandshake, ProtoHopZ.withKey,
        ProtoHopZ.withReceived, hplain]

/-- `receive_chunks_loop` is started once, by `start_loops`. -/
theorem loop_step {s s' : ProtoStream P} {e : Event P} {out : List Observation}
    (hs : s.step e = some (s', out)) :
    s.receiveChunksLoop = .idle ∧ s'.receiveChunksLoop = .idle ∨
      s.receiveChunksLoop = .idle ∧ e = .resumeStartLoops ∧ s.transport.handshake = .returned none ∨
      s.receiveChunksLoop ≠ .idle ∧ s'.receiveChunksLoop ≠ .idle := by
  have hsame : s'.receiveChunksLoop = s.receiveChunksLoop →
      s.receiveChunksLoop = .idle ∧ s'.receiveChunksLoop = .idle ∨
        s.receiveChunksLoop = .idle ∧ e = .resumeStartLoops ∧
          s.transport.handshake = .returned none ∨
        s.receiveChunksLoop ≠ .idle ∧ s'.receiveChunksLoop ≠ .idle := by
    intro heq
    rw [heq]
    by_cases hidle : s.receiveChunksLoop = .idle
    · exact Or.inl ⟨hidle, hidle⟩
    · exact Or.inr (Or.inr ⟨hidle, hidle⟩)
  cases step_cases hs with
  | started _ hreturned =>
      by_cases hidle : s.receiveChunksLoop = .idle
      · exact Or.inr (Or.inl ⟨hidle, rfl, hreturned⟩)
      · exact Or.inr (Or.inr ⟨hidle, by simp [awaitPacket]⟩)
  | interrupted _ _ _ hrunning | lastChunk _ _ hrunning | aborted hrunning =>
      exact Or.inr (Or.inr ⟨by simp [hrunning], by simp⟩)
  | ended _ hfinished => exact Or.inr (Or.inr ⟨by simp [hfinished], by simp⟩)
  | stored _ hfinished =>
      exact Or.inr (Or.inr ⟨by simp [hfinished], by simp [cancelReceiveChunks]⟩)
  | transport | callStartLoops | unstarted | rejected | send | refused | receive | failed
  | received | chunk | close | resumeClose | finishClose =>
      exact hsame rfl

end ProtoStream
end FileHopZ
